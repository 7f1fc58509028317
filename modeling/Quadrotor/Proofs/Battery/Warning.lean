import Mathlib
import Quadrotor.Battery.Monitor
import Quadrotor.Proofs.Checks
import Quadrotor.Proofs.Scalar.Alike

/-!
# The battery monitor over a history of readings

What the monitor says after any readings, told from the readings. Whether the battery was low at the
start is decided by the first finite reading for good. The warning is raised and cleared in turn, and
it is up exactly if the compensated voltage has been below the warning level and not above the
clearing level since. The multiplier of the controller outputs never leaves its range.
-/

namespace Quadrotor

/-- A reading of the cell voltage, with the throttle in use when it was taken. -/
structure BatteryReading where
  voltage : Scalar
  throttle : Scalar

/-- The reading is taken into account. -/
def BatteryReading.counts (r : BatteryReading) : Bool := r.voltage.isFinite

namespace BatteryMonitor

variable {c : BatteryConfig} {dt : Scalar} {m : BatteryMonitor} {readings : List BatteryReading}
  {changes : List WarningChange}

/-! ## The output multiplier -/

theorem outputScaleFor_mem (c : BatteryConfig) (filtered : Scalar) :
    1.0 ≤ outputScaleFor c filtered ∧ outputScaleFor c filtered ≤ 1.33 := by
  have hrange : (1.0 : Scalar) ≤ 1.33 := by decide +kernel
  unfold outputScaleFor
  split_ifs
  · exact Scalar.minNum_maxNum_mem hrange _
  · exact ⟨by decide +kernel, hrange⟩

theorem outputScale_rest : (1.0 : Scalar) ≤ 1.0 ∧ (1.0 : Scalar) ≤ 1.33 := by decide +kernel

/-! ## One reading -/

theorem update_of_not_finite {voltage : Scalar} (h : voltage.isFinite = false) (throttle : Scalar) :
    m.update voltage throttle = (m, none) := by
  rw [update, h]
  rfl

/-- What a finite reading makes of a monitor, and the change that is told. -/
structure Reads (m : BatteryMonitor) (voltage : Scalar) (m' : BatteryMonitor)
    (change : Option WarningChange) : Prop where
  config : m'.config = m.config
  started : m'.started = true
  startupLow : m'.startupLow =
    if m.started then m.startupLow else decide (voltage < m.config.cutoffVoltage)
  told : change = warningChange m.config m.state.low m'.state.compensated
  low : m'.state.low = lowAfter m.state.low change
  outputScale : m'.state.outputScale = outputScaleFor m.config m'.state.filtered

theorem reads_update {voltage : Scalar} (h : voltage.isFinite = true) (throttle : Scalar) :
    m.Reads voltage (m.update voltage throttle).1 (m.update voltage throttle).2 := by
  rw [update, if_pos h, start]
  cases hstarted : m.started <;> constructor <;> simp [hstarted]

/-- The compensated voltage is below the warning level. -/
def Below (m : BatteryMonitor) : Prop :=
  m.started = true ∧ m.state.compensated < m.config.warnVoltage

/-- The compensated voltage is above the clearing level. -/
def Above (m : BatteryMonitor) : Prop :=
  m.started = true ∧ m.config.warnVoltage + m.config.warnHysteresis < m.state.compensated

theorem nonneg_hysteresis (h : c.check = .ok ()) : 0.0 ≤ c.warnHysteresis := by
  simp only [BatteryConfig.check, check_bind_eq_ok, require_eq_ok, Bool.and_eq_true,
    decide_eq_true_iff] at h
  exact h.2.2.2.2.2

/-- The clearing level is not below the warning level. -/
theorem not_above_of_below (h : m.config.check = .ok ()) (hbelow : m.Below) : ¬m.Above := by
  rintro ⟨-, habove⟩
  exact Scalar.not_add_lt (Or.inr (nonneg_hysteresis h))
    (Scalar.lt_of_lt_of_le habove (Scalar.le_of_lt hbelow.2))

/-- The warning is up below the warning level, down above the clearing level, and as it was in
between. -/
theorem Reads.low_iff {voltage : Scalar} {m' : BatteryMonitor} {change : Option WarningChange}
    (h : m.Reads voltage m' change) (hcheck : m.config.check = .ok ()) :
    m'.state.low = true ↔ ¬m'.Above ∧ (m'.Below ∨ m.state.low = true) := by
  have hbelow : m'.Below ↔ m'.state.compensated < m.config.warnVoltage := by
    rw [Below, h.config, and_iff_right h.started]
  have habove : m'.Above ↔
      m.config.warnVoltage + m.config.warnHysteresis < m'.state.compensated := by
    rw [Above, h.config, and_iff_right h.started]
  have hno := not_above_of_below (h.config ▸ hcheck)
  rw [h.low, h.told, warningChange]
  rw [hbelow, habove] at hno ⊢
  cases m.state.low <;> by_cases hb : m'.state.compensated < m.config.warnVoltage
  · simp [hb, hno hb, lowAfter]
  · simp [hb, lowAfter]
  · simp [hb, hno hb, lowAfter]
  · by_cases ha : m.config.warnVoltage + m.config.warnHysteresis < m'.state.compensated <;>
      simp [hb, ha, lowAfter]

/-- A change turns the warning over. -/
theorem Reads.low_of_change {voltage : Scalar} {m' : BatteryMonitor} {change : WarningChange}
    (h : m.Reads voltage m' (some change)) :
    m'.state.low = !m.state.low ∧ change = if m.state.low then .cleared else .raised := by
  have htold := h.told
  rw [h.low]
  rw [warningChange] at htold
  split_ifs at htold with hraised hcleared
  · obtain rfl := Option.some_inj.mp htold
    rw [Bool.and_eq_true, Bool.not_eq_true'] at hraised
    rw [hraised.1]
    exact ⟨rfl, rfl⟩
  · obtain rfl := Option.some_inj.mp htold
    rw [Bool.and_eq_true] at hcleared
    rw [hcleared.1]
    exact ⟨rfl, rfl⟩

/-! ## A history of readings -/

/-- The monitor after one more reading, and the changes told so far. -/
def take (s : BatteryMonitor × List WarningChange) (r : BatteryReading) :
    BatteryMonitor × List WarningChange :=
  let (m, change) := s.1.update r.voltage r.throttle
  (m, s.2 ++ change.toList)

theorem take_of_not_counts {s : BatteryMonitor × List WarningChange} {r : BatteryReading}
    (h : r.counts = false) : take s r = s := by
  rw [take, update_of_not_finite h]
  exact Prod.ext rfl (List.append_nil s.2)

/-- The monitor after the readings, and the changes that it has told. -/
def watch (c : BatteryConfig) (dt : Scalar) (readings : List BatteryReading) :
    BatteryMonitor × List WarningChange :=
  readings.foldl take (new c dt, [])

theorem watch_concat (c : BatteryConfig) (dt : Scalar) (readings : List BatteryReading)
    (r : BatteryReading) : watch c dt (readings ++ [r]) = take (watch c dt readings) r :=
  List.foldl_append

/-- The compensated voltage has been below the warning level and not above the clearing level since. -/
def Sagged (c : BatteryConfig) (dt : Scalar) (readings : List BatteryReading) : Prop :=
  ∃ k ≤ readings.length, (watch c dt (readings.take k)).1.Below ∧
    ∀ j, k ≤ j → j ≤ readings.length → ¬(watch c dt (readings.take j)).1.Above

theorem sagged_concat {r : BatteryReading} : Sagged c dt (readings ++ [r]) ↔
    ¬(watch c dt (readings ++ [r])).1.Above ∧
      ((watch c dt (readings ++ [r])).1.Below ∨ Sagged c dt readings) := by
  have hlength : (readings ++ [r]).length = readings.length + 1 := List.length_append
  have hwhole : (readings ++ [r]).take (readings.length + 1) = readings ++ [r] :=
    List.take_of_length_le hlength.le
  have hfront : ∀ {k}, k ≤ readings.length → (readings ++ [r]).take k = readings.take k :=
    List.take_append_of_le_length
  constructor
  · rintro ⟨k, hk, hbelow, habove⟩
    rw [hlength] at hk habove
    refine ⟨by simpa only [hwhole] using habove _ hk le_rfl, ?_⟩
    rcases Nat.le_succ_iff.mp hk with hlt | rfl
    · refine Or.inr ⟨k, hlt, by rwa [hfront hlt] at hbelow, fun j hj hle => ?_⟩
      simpa only [hfront hle] using habove j hj (Nat.le_succ_of_le hle)
    · exact Or.inl (by rwa [hwhole] at hbelow)
  · rintro ⟨hend, hbelow | ⟨k, hk, hbelow, habove⟩⟩
    · refine ⟨readings.length + 1, hlength.ge, by rwa [hwhole], fun j hj hle => ?_⟩
      obtain rfl := Nat.le_antisymm (hle.trans hlength.le) hj
      rwa [hwhole]
    · refine ⟨k, hlength ▸ Nat.le_succ_of_le hk, by rwa [hfront hk], fun j hj hle => ?_⟩
      rcases Nat.le_succ_iff.mp (hle.trans hlength.le) with hlt | rfl
      · rw [hfront hlt]
        exact habove j hj hlt
      · rwa [hwhole]

/-- So many changes in turn, the first of which raises the warning. -/
def turns (n : Nat) : List WarningChange :=
  (List.range n).map fun i => if i % 2 = 0 then .raised else .cleared

theorem turns_succ (n : Nat) :
    turns (n + 1) = turns n ++ [if n % 2 = 0 then .raised else .cleared] := by
  rw [turns, List.range_succ, List.map_append]
  rfl

theorem getLast?_turns (n : Nat) : (turns n).getLast? = some .raised ↔ n % 2 = 1 := by
  cases n with
  | zero => exact iff_of_false (by decide) (by decide)
  | succ n =>
    rw [turns_succ, List.getLast?_concat, Option.some_inj]
    split_ifs with hn
    · exact iff_of_true rfl (by omega)
    · exact iff_of_false (by decide) (by omega)

/-- What the monitor has kept of the readings, and how the changes that it has told go on. -/
structure Tracks (c : BatteryConfig) (readings : List BatteryReading) (m : BatteryMonitor)
    (changes : List WarningChange) : Prop where
  config : m.config = c
  started : m.started = (readings.find? BatteryReading.counts).isSome
  startupLow : m.startupLow = true ↔
    ∃ r, readings.find? BatteryReading.counts = some r ∧ r.voltage < c.cutoffVoltage
  turns : changes = turns changes.length
  low : m.state.low = true ↔ changes.length % 2 = 1
  outputScale : 1.0 ≤ m.state.outputScale ∧ m.state.outputScale ≤ 1.33

theorem tracks_new (c : BatteryConfig) (dt : Scalar) : Tracks c [] (new c dt) [] where
  config := rfl
  started := rfl
  startupLow := by simp [new]
  turns := rfl
  low := iff_of_false Bool.false_ne_true (by decide)
  outputScale := outputScale_rest

theorem Tracks.skip (h : Tracks c readings m changes) {r : BatteryReading}
    (hr : r.counts = false) : Tracks c (readings ++ [r]) m changes := by
  have hfind : (readings ++ [r]).find? BatteryReading.counts
      = readings.find? BatteryReading.counts := by
    rw [List.find?_append, List.find?_cons_of_neg (by rw [hr]; decide), List.find?_nil,
      Option.or_none]
  exact { h with started := hfind ▸ h.started, startupLow := hfind ▸ h.startupLow }

theorem Tracks.read (h : Tracks c readings m changes) {r : BatteryReading} (hr : r.counts = true)
    {m' : BatteryMonitor} {change : Option WarningChange} (hreads : m.Reads r.voltage m' change) :
    Tracks c (readings ++ [r]) m' (changes ++ change.toList) := by
  have hfind : (readings ++ [r]).find? BatteryReading.counts
      = (readings.find? BatteryReading.counts).or (some r) := by
    rw [List.find?_append, List.find?_cons_of_pos hr]
  have hstarted := h.started
  have hstartup := h.startupLow
  constructor
  case config => exact hreads.config.trans h.config
  case started =>
    rw [hfind, hreads.started]
    cases readings.find? BatteryReading.counts <;> rfl
  case startupLow =>
    -- The first reading that counts decides, and this is it if there was none before.
    rw [hreads.startupLow, hfind]
    cases hfirst : readings.find? BatteryReading.counts with
    | none =>
      rw [hfirst] at hstarted
      rw [hstarted, h.config]
      simp
    | some first =>
      rw [hfirst] at hstarted hstartup
      rw [hstarted]
      exact hstartup
  case outputScale =>
    rw [hreads.outputScale]
    exact outputScaleFor_mem _ _
  case turns =>
    cases change with
    | none => exact (List.append_nil changes).symm ▸ h.turns
    | some change =>
      obtain ⟨-, hchange⟩ := hreads.low_of_change
      have hlow : (if m.state.low then WarningChange.cleared else .raised)
          = if changes.length % 2 = 0 then .raised else .cleared := by
        rcases Nat.mod_two_eq_zero_or_one changes.length with hn | hn
        · rw [if_neg (by rw [h.low, hn]; decide), if_pos hn]
        · rw [if_pos (h.low.mpr hn), if_neg (by rw [hn]; decide)]
      rw [Option.toList_some, List.length_append, List.length_singleton, turns_succ, ← h.turns,
        hchange, hlow]
  case low =>
    cases change with
    | none =>
      rw [hreads.low, Option.toList_none, List.append_nil]
      exact h.low
    | some change =>
      obtain ⟨hlow, -⟩ := hreads.low_of_change
      rw [hlow, Option.toList_some, List.length_append, List.length_singleton, Bool.not_eq_true',
        ← Bool.not_eq_true, h.low]
      omega

theorem Tracks.take (h : Tracks c readings m changes) (r : BatteryReading) :
    Tracks c (readings ++ [r]) (BatteryMonitor.take (m, changes) r).1
      (BatteryMonitor.take (m, changes) r).2 := by
  cases hr : r.counts with
  | true => exact h.read hr (reads_update hr r.throttle)
  | false =>
    rw [take_of_not_counts hr]
    exact h.skip hr

theorem tracks_watch (c : BatteryConfig) (dt : Scalar) (readings : List BatteryReading) :
    Tracks c readings (watch c dt readings).1 (watch c dt readings).2 := by
  induction readings using List.reverseRecOn with
  | nil => exact tracks_new c dt
  | append_singleton readings r ih =>
    rw [watch_concat]
    exact ih.take r

theorem Sagged.not_above (h : Sagged c dt readings) : ¬(watch c dt readings).1.Above := by
  obtain ⟨k, hk, -, habove⟩ := h
  simpa only [List.take_length] using habove _ hk le_rfl

theorem sagged_of_below (h : c.check = .ok ()) (hbelow : (watch c dt readings).1.Below) :
    Sagged c dt readings := by
  have hcheck := (tracks_watch c dt readings).config ▸ h
  refine ⟨readings.length, le_rfl, by rwa [List.take_length], fun j hj hle => ?_⟩
  obtain rfl := Nat.le_antisymm hle hj
  rw [List.take_length]
  exact not_above_of_below hcheck hbelow

theorem low_iff_sagged (h : c.check = .ok ()) (dt : Scalar) (readings : List BatteryReading) :
    (watch c dt readings).1.state.low = true ↔ Sagged c dt readings := by
  induction readings using List.reverseRecOn with
  | nil =>
    refine iff_of_false Bool.false_ne_true ?_
    rintro ⟨k, -, ⟨hstarted, -⟩, -⟩
    rw [List.take_nil] at hstarted
    cases hstarted
  | append_singleton readings r ih =>
    rw [sagged_concat, watch_concat]
    cases hr : r.counts with
    | true =>
      rw [← ih]
      apply (reads_update hr r.throttle).low_iff
      rw [(tracks_watch c dt readings).config]
      exact h
    | false =>
      rw [take_of_not_counts hr, ih]
      exact ⟨fun hs => ⟨hs.not_above, Or.inr hs⟩, fun ⟨_, hs⟩ => hs.elim (sagged_of_below h) id⟩

/-- What an accepted monitor has said and says next, after any readings. -/
structure Watches (c : BatteryConfig) (dt : Scalar) (readings : List BatteryReading)
    (m : BatteryMonitor) (changes : List WarningChange) : Prop where
  ignores : ∀ voltage throttle, voltage.isFinite = false → m.update voltage throttle = (m, none)
  startupLow : m.startupLow = true ↔
    ∃ r, readings.find? BatteryReading.counts = some r ∧ r.voltage < c.cutoffVoltage
  turns : changes = turns changes.length
  raised : m.state.low = true ↔ changes.getLast? = some .raised
  sagged : m.state.low = true ↔ Sagged c dt readings
  outputScale : 1.0 ≤ m.state.outputScale ∧ m.state.outputScale ≤ 1.33

end BatteryMonitor

/-- What a battery monitor says after any readings, finite or not. A reading that is not finite changes
nothing and tells nothing; whether the battery was low at the start is decided by the first finite
reading; the warning is raised and cleared in turn, is up after it was raised last, and is so exactly
while the battery has sagged; and the multiplier is in its range, as it is for any voltage. -/
theorem BatteryMonitor.watches_of_check {c : BatteryConfig} (h : c.check = .ok ()) (dt : Scalar) :
    (∀ readings, Watches c dt readings (watch c dt readings).1 (watch c dt readings).2) ∧
    ∀ filtered, 1.0 ≤ outputScaleFor c filtered ∧ outputScaleFor c filtered ≤ 1.33 := by
  refine ⟨fun readings => ?_, outputScaleFor_mem c⟩
  have htracks := tracks_watch c dt readings
  refine ⟨fun _ throttle hv => update_of_not_finite hv throttle, htracks.startupLow, htracks.turns,
    ?_, low_iff_sagged h dt readings, htracks.outputScale⟩
  rw [htracks.turns, getLast?_turns]
  exact htracks.low

/-- Readings from before the sensor has one until the second sag, one of them with a throttle that is
no number. -/
def BatteryMonitor.twoSags : List BatteryReading :=
  [⟨Scalar.nan, 0.0⟩, ⟨3.8, 0.0⟩, ⟨3.45, 0.0⟩, ⟨3.55, 0.0⟩, ⟨3.65, Scalar.nan⟩, ⟨3.65, 0.0⟩,
    ⟨Scalar.infinity, 0.0⟩, ⟨3.0, 0.5⟩]

/-- A monitor that does not smooth, over two sags. -/
theorem BatteryMonitor.watches_of_twoSags :
    BatteryConfig.check { filterCutoff := 1000.0 } = .ok () ∧
    (watch { filterCutoff := 1000.0 } 0.001 twoSags).2 = [.raised, .cleared, .raised] ∧
    (watch { filterCutoff := 1000.0 } 0.001 twoSags).1.startupLow = false ∧
    Sagged { filterCutoff := 1000.0 } 0.001 twoSags := by
  have hcheck : BatteryConfig.check { filterCutoff := 1000.0 } = .ok () := by rfl
  have hchanges : (watch { filterCutoff := 1000.0 } 0.001 twoSags).2
      = [.raised, .cleared, .raised] := by decide +kernel
  have hwatches := (watches_of_check hcheck 0.001).1 twoSags
  refine ⟨hcheck, hchanges, ?_, ?_⟩
  · rw [← Bool.not_eq_true, hwatches.startupLow]
    decide +kernel
  · rw [← hwatches.sagged, hwatches.raised, hchanges]
    rfl

end Quadrotor
