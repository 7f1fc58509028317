import Quadrotor.Scalar.Exact

/-!
# Time

Times and spans of time are counted in microseconds, in words of 64 bits. A sum or a product that
leaves the width aborts the computation it is part of.
-/

namespace Quadrotor

/-- A time, or a span of time [µs]. -/
abbrev Time := UInt64

namespace Time

/-- The sum, unless it leaves the width of a word. -/
def plus (a b : Time) : Checked Time :=
  if a.toNat + b.toNat < UInt64.size then .ok (a + b) else .error .overflow

/-- The product, unless it leaves the width of a word. -/
def times (a b : Time) : Checked Time :=
  if a.toNat * b.toNat < UInt64.size then .ok (a * b) else .error .overflow

/-- The time that has passed since `earlier`; none if it is still to come. -/
def since (now earlier : Time) : Time := if earlier ≤ now then now - earlier else 0

/-- A span in seconds. -/
def seconds (t : Time) : Scalar := t.toFloat32 * 1e-6

/-- The whole number of microseconds nearest to so many seconds, within the width of a word. -/
def ofSeconds (s : Scalar) : Time := (s * 1e6).round.toWord

end Time

end Quadrotor
