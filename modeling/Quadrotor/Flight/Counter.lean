/-!
# Counters

Tick counters are 32-bit words that stop at the largest one.
-/

namespace Quadrotor.Counter

/-- The largest count. -/
def last : UInt32 := 0xffffffff

/-- One more than `n`, or `n` where there is no more. -/
def up (n : UInt32) : UInt32 := if n = last then n else n + 1

/-- A counter is the number of steps that it has counted, as far as its width allows. -/
theorem toNat_up (n : UInt32) : (up n).toNat = min (n.toNat + 1) last.toNat := by
  have hn : n.toNat < 4294967296 := n.toNat_lt
  have hl : last.toNat = 4294967295 := rfl
  unfold up
  split
  · next h => subst h; decide
  · next h =>
    have hne : n.toNat ≠ last.toNat := fun e => h (UInt32.toNat_inj.mp e)
    rw [UInt32.toNat_add, UInt32.toNat_one]
    omega

end Quadrotor.Counter
