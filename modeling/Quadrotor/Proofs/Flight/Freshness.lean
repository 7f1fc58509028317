import Mathlib
import Quadrotor.Flight.Arming

/-!
# Freshness windows

A staleness counter starts full, stops at its timeout and is cleared by fresh data, so it holds less
than the whole history. What it does hold is exactly what is asked of it: for every window up to the
timeout, whether anything fresh has arrived within that window.

A history is given by `fresh`, which tells for each tick whether its data were fresh.
-/

namespace Quadrotor.Staleness

/-- At tick `t` or at one of the `n - 1` ticks before it, data were fresh. -/
def FreshWithin (n : UInt32) (fresh : Nat → Bool) (t : Nat) : Prop :=
  ∃ i ≤ t, t < i + n.toNat ∧ fresh i = true

/-- None of the latest `n` of the first `t` ticks was fresh. -/
def Silent (n : Nat) (fresh : Nat → Bool) (t : Nat) : Prop :=
  ∀ i < t, t ≤ i + n → fresh i = false

/-- After the first `t` ticks, the counter tells the silence of every window up to its timeout. -/
structure Counts (s : Staleness) (fresh : Nat → Bool) (t : Nat) : Prop where
  le_timeout : s.ticks ≤ s.timeout
  le_ticks : ∀ n ≤ s.timeout.toNat, n ≤ s.ticks.toNat ↔ Silent n fresh t

theorem silent_succ {fresh : Nat → Bool} {t : Nat} (n : Nat) :
    Silent (n + 1) fresh (t + 1) ↔ fresh t = false ∧ Silent n fresh t := by
  constructor
  · intro h
    exact ⟨h t (by omega) (by omega), fun i hi hn => h i (by omega) (by omega)⟩
  · rintro ⟨ht, h⟩ i hi hn
    rcases Nat.lt_succ_iff_lt_or_eq.mp hi with hlt | rfl
    · exact h i hlt (by omega)
    · exact ht

theorem silent_zero (fresh : Nat → Bool) (t : Nat) : Silent 0 fresh t :=
  fun i hi hn => absurd hn (by omega)

/-- Data are not fresh within a window after a tick exactly where the window is silent. -/
theorem not_freshWithin_iff (n : UInt32) (fresh : Nat → Bool) (t : Nat) :
    ¬FreshWithin n fresh t ↔ Silent n.toNat fresh (t + 1) := by
  constructor
  · intro h i hi hn
    rw [← Bool.not_eq_true]
    exact fun hf => h ⟨i, by omega, by omega, hf⟩
  · rintro h ⟨i, hi, hn, hf⟩
    rw [h i (by omega) (by omega)] at hf
    cases hf

/-- The counter starts full, as if nothing had ever been fresh. -/
theorem counts_new (timeout : UInt32) (fresh : Nat → Bool) : (new timeout).Counts fresh 0 where
  le_timeout := UInt32.le_refl timeout
  le_ticks _ hn := iff_of_true hn fun _ hi => absurd hi (Nat.not_lt_zero _)

/-- Without fresh data the counter is one up, as far as the timeout. -/
theorem toNat_update_false (s : Staleness) :
    (s.update false).ticks.toNat = min (s.ticks.toNat + 1) s.timeout.toNat := by
  have hup := Counter.toNat_up s.ticks
  have hlast : s.timeout.toNat ≤ Counter.last.toNat := by
    have := s.timeout.toNat_lt
    change _ ≤ 4294967295
    omega
  change (if Counter.up s.ticks ≤ s.timeout then Counter.up s.ticks else s.timeout).toNat = _
  split_ifs with h
  · have := UInt32.le_iff_toNat_le.mp h
    omega
  · rw [UInt32.le_iff_toNat_le] at h
    omega

theorem Counts.update {s : Staleness} {fresh : Nat → Bool} {t : Nat} (h : s.Counts fresh t) :
    (s.update (fresh t)).Counts fresh (t + 1) := by
  cases hf : fresh t with
  | true =>
    refine ⟨UInt32.zero_le, fun n hn => ?_⟩
    change n ≤ 0 ↔ _
    cases n with
    | zero => exact iff_of_true le_rfl (silent_zero fresh (t + 1))
    | succ n =>
      rw [silent_succ, hf]
      exact iff_of_false (Nat.not_succ_le_zero n) (by simp)
  | false =>
    have hticks := toNat_update_false s
    constructor
    · rw [UInt32.le_iff_toNat_le, hticks]
      exact min_le_right _ _
    · intro n hn
      change n ≤ s.timeout.toNat at hn
      rw [hticks]
      cases n with
      | zero => exact iff_of_true (Nat.zero_le _) (silent_zero fresh (t + 1))
      | succ n =>
        -- The window is within the timeout, so it does not matter that the counter stops there.
        have hle := h.le_ticks n (by omega)
        rw [silent_succ, hf, ← hle, eq_self_iff_true, true_and]
        omega

/-- The counter is at its timeout exactly where the whole window is silent. -/
theorem Counts.lost_iff {s : Staleness} {fresh : Nat → Bool} {t : Nat} (h : s.Counts fresh t) :
    s.lost = true ↔ Silent s.timeout.toNat fresh t := by
  rw [lost, decide_eq_true_iff, UInt32.le_iff_toNat_le]
  exact h.le_ticks s.timeout.toNat le_rfl

/-- After a tick the counter is at its timeout exactly where nothing fresh has arrived within it. -/
theorem Counts.lost_update_iff {s : Staleness} {timeout : UInt32} {fresh : Nat → Bool} {t : Nat}
    (h : s.Counts fresh t) (htimeout : s.timeout = timeout) :
    (s.update (fresh t)).lost = true ↔ ¬FreshWithin timeout fresh t := by
  rw [h.update.lost_iff, not_freshWithin_iff, ← htimeout]
  rfl

end Quadrotor.Staleness
