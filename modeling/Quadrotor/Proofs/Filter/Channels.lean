import Mathlib
import Quadrotor.Proofs.Filter.TunedPeriod

/-!
# Channels

Each axis of each instrument is a channel of its own. What comes out of a channel is told by the
values that went into it and the times they came with, in their order. So the filters can be fed
with the calls that concern a channel and no others, and even with the channel's own values in place
of whole samples, and nothing else will come out of it.
-/

namespace Quadrotor

/-- Lists of triples are the same if their values are the same for each axis. -/
theorem Triple.list_ext {α : Type} {s t : List (Triple α)}
    (h : ∀ a, s.map (Triple.get · a) = t.map (Triple.get · a)) : s = t := by
  induction s generalizing t with
  | nil => exact (List.map_eq_nil_iff.mp (h .roll).symm).symm
  | cons x s ih =>
    cases t with
    | nil => exact absurd (h .roll) (List.cons_ne_nil _ _)
    | cons y t =>
      have hxy : x = y := Triple.ext_get fun a => (List.cons.inj (h a)).1
      rw [hxy, ih fun a => (List.cons.inj (h a)).2]

/-- An axis of an instrument. -/
structure Channel where
  instrument : Instrument
  axis : Axis
  deriving DecidableEq

namespace Conditioner

/-! ## What goes into a channel and what comes out -/

/-- The value that an answer holds for a channel. -/
def Answer.value? (ch : Channel) : Answer → Option Scalar
  | .axis a y => if ch = ⟨.gyro, a⟩ then some y else none
  | .gyro y => if ch.instrument = .gyro then some (y.get ch.axis) else none
  | .acc y => if ch.instrument = .acc then some (y.get ch.axis) else none
  | .done => none

/-- The filtered sample of the accelerometer that an answer holds. -/
def Answer.acc? : Answer → Option (Triple Scalar)
  | .acc y => some y
  | .axis _ _ | .gyro _ | .done => none

/-- The values that come out of a channel in some calls. -/
def outputsOf (c : Conditioner) (ch : Channel) (calls : List Call) : List Scalar :=
  (answers perform c calls).filterMap (Answer.value? ch)

/-- The filtered samples of the accelerometer in some calls. -/
def accOutputs (c : Conditioner) (calls : List Call) : List (Triple Scalar) :=
  (answers perform c calls).filterMap Answer.acc?

namespace Call

/-- The call filters a value of the gyroscope axis, or it is a reset. -/
def concernsAxis (a : Axis) : Call → Bool
  | axis b _ _ => b == a
  | gyro _ _ | reset => true
  | acc _ _ => false

/-- The call filters a sample of the accelerometer, or it is a reset. -/
def concernsAcc : Call → Bool
  | acc _ _ | reset => true
  | axis _ _ _ | gyro _ _ => false

/-- What is left of a call if only the values of one channel are known. -/
def only (ch : Channel) : Call → Option Call
  | axis a dt raw => if ch = ⟨.gyro, a⟩ then some (axis a dt raw) else none
  | gyro dt raw =>
    if ch.instrument = .gyro then some (axis ch.axis dt (raw.get ch.axis)) else none
  | acc dt raw => if ch.instrument = .acc then some (acc dt (.fill (raw.get ch.axis))) else none
  | reset => some reset

end Call

/-- What a channel is told by a call. -/
inductive Reading where
  | value (dt raw : Scalar)
  | reset

def Call.reading? (ch : Channel) : Call → Option Reading
  | .axis a dt raw => if ch = ⟨.gyro, a⟩ then some (.value dt raw) else none
  | .gyro dt raw => if ch.instrument = .gyro then some (.value dt (raw.get ch.axis)) else none
  | .acc dt raw => if ch.instrument = .acc then some (.value dt (raw.get ch.axis)) else none
  | .reset => some .reset

end Conditioner

/-! ## The filters of one channel -/

namespace FilterBank

open Conditioner (Call Answer Reading answers)

/-- The filters of a channel. -/
def stagesOf (b : FilterBank) (ch : Channel) : List Stage :=
  match ch.instrument with
  | .gyro => b.gyro.get ch.axis
  | .acc => b.acc.get ch.axis

/-- The filters of a channel after a reading, and the value that comes out. -/
def respond (b : FilterBank) (ch : Channel) (stages : List Stage) :
    Reading → List Stage × Option Scalar
  | .value dt raw => (feed (b.accounted dt) stages raw).map id some
  | .reset => ((new b.config b.period).stagesOf ch, none)

/-- The values that come out of the filters of a channel on their own. -/
def alone (b : FilterBank) (ch : Channel) (stages : List Stage) : List Reading → List Scalar
  | [] => []
  | r :: rest =>
    (b.respond ch stages r).2.toList ++ b.alone ch (b.respond ch stages r).1 rest

section

variable {b : FilterBank} {ch : Channel} {call : Call}

/-- A call that tells a channel nothing leaves its filters alone. -/
theorem perform_of_unread (h : call.reading? ch = none) :
    (b.perform call).1.stagesOf ch = b.stagesOf ch ∧ (b.perform call).2.value? ch = none := by
  obtain ⟨instrument, a⟩ := ch
  cases call with
  | axis axis dt raw =>
    have hother : ¬(⟨instrument, a⟩ : Channel) = ⟨.gyro, axis⟩ := fun heq => by
      rw [Call.reading?, if_pos heq] at h
      cases h
    refine ⟨?_, if_neg hother⟩
    cases instrument with
    | gyro =>
      have hne : ¬axis = a := fun heq => hother (by rw [heq])
      exact (Triple.get_set _ _ _ _).trans (if_neg hne)
    | acc => rfl
  | gyro dt raw =>
    cases instrument with
    | gyro => cases h
    | acc => exact ⟨rfl, rfl⟩
  | acc dt raw =>
    cases instrument with
    | gyro => exact ⟨rfl, rfl⟩
    | acc => cases h
  | reset => cases h

/-- A call does with the filters of a channel what they do by themselves when told of it. -/
theorem perform_of_reading {r : Reading} (h : call.reading? ch = some r) :
    (b.perform call).1.stagesOf ch =
        ((new b.config b.period).respond ch (b.stagesOf ch) r).1 ∧
      (b.perform call).2.value? ch =
        ((new b.config b.period).respond ch (b.stagesOf ch) r).2 := by
  obtain ⟨instrument, a⟩ := ch
  cases call with
  | axis axis dt raw =>
    by_cases hself : (⟨instrument, a⟩ : Channel) = ⟨.gyro, axis⟩
    · rw [Call.reading?, if_pos hself] at h
      cases h
      obtain ⟨rfl, rfl⟩ := Channel.mk.inj hself
      exact ⟨(Triple.get_set _ _ _ _).trans (if_pos rfl), if_pos rfl⟩
    · rw [Call.reading?, if_neg hself] at h
      cases h
  | gyro dt raw =>
    cases instrument with
    | gyro =>
      cases h
      cases a <;> exact ⟨rfl, rfl⟩
    | acc => cases h
  | acc dt raw =>
    cases instrument with
    | gyro => cases h
    | acc =>
      cases h
      cases a <;> exact ⟨rfl, rfl⟩
  | reset =>
    cases h
    exact ⟨rfl, rfl⟩

theorem perform_frame (b : FilterBank) (call : Call) :
    new (b.perform call).1.config (b.perform call).1.period = new b.config b.period := by
  cases call <;> rfl

/-- What comes out of a channel is what its filters give on their own when they are told what the
calls tell them. -/
theorem outputs_eq_alone (b : FilterBank) (ch : Channel) (calls : List Call) :
    (answers perform b calls).filterMap (Answer.value? ch) =
      (new b.config b.period).alone ch (b.stagesOf ch) (calls.filterMap (Call.reading? ch)) := by
  induction calls generalizing b with
  | nil => rfl
  | cons call calls ih =>
    rw [answers, List.filterMap_cons, List.filterMap_cons, ih, perform_frame]
    cases hr : call.reading? ch with
    | none =>
      obtain ⟨hstages, hvalue⟩ := perform_of_unread (b := b) hr
      rw [hstages, hvalue]
    | some r =>
      obtain ⟨hstages, hvalue⟩ := perform_of_reading (b := b) hr
      rw [hstages, hvalue, alone]
      cases ((new b.config b.period).respond ch (b.stagesOf ch) r).2 <;> rfl

end

end FilterBank

namespace Conditioner

/-! ## Calls that a channel does not tell apart -/

section

variable {ch : Channel}

theorem reading?_only (ch : Channel) (call : Call) :
    (call.only ch).bind (Call.reading? ch) = call.reading? ch := by
  obtain ⟨instrument, a⟩ := ch
  cases call with
  | axis axis dt raw =>
    by_cases hself : (⟨instrument, a⟩ : Channel) = ⟨.gyro, axis⟩
    · simp [Call.only, Call.reading?, hself]
    · simp [Call.only, Call.reading?, hself]
  | gyro dt raw => cases instrument <;> simp [Call.only, Call.reading?]
  | acc dt raw => cases instrument <;> simp [Call.only, Call.reading?]
  | reset => rfl

theorem concernsAxis_of_reading {a : Axis} (call : Call)
    (h : (call.reading? ⟨.gyro, a⟩).isSome = true) : call.concernsAxis a = true := by
  cases call with
  | axis b dt raw =>
    by_cases hb : b = a
    · exact beq_iff_eq.mpr hb
    · rw [Call.reading?, if_neg fun heq => hb (Channel.mk.inj heq).2.symm] at h
      cases h
  | gyro dt raw => rfl
  | acc dt raw => cases h
  | reset => rfl

theorem concernsAcc_of_reading {a : Axis} (call : Call)
    (h : (call.reading? ⟨.acc, a⟩).isSome = true) : call.concernsAcc = true := by
  cases call with
  | axis b dt raw =>
    rw [Call.reading?, if_neg fun heq => by cases heq] at h
    cases h
  | gyro dt raw => cases h
  | acc dt raw => rfl
  | reset => rfl

theorem outputsOf_eq_alone (config : FilterConfig) (period : Scalar) (ch : Channel)
    (calls : List Call) : (new config period).outputsOf ch calls =
      (FilterBank.new config period).alone ch ((FilterBank.new config period).stagesOf ch)
        (calls.filterMap (Call.reading? ch)) := by
  rw [outputsOf, (upToDate_new config period).answers]
  exact FilterBank.outputs_eq_alone _ ch calls

/-- Calls that tell a channel the same let the same come out of it. -/
theorem outputsOf_congr {config : FilterConfig} {period : Scalar} {calls calls' : List Call}
    (h : calls.filterMap (Call.reading? ch) = calls'.filterMap (Call.reading? ch)) :
    (new config period).outputsOf ch calls = (new config period).outputsOf ch calls' := by
  rw [outputsOf_eq_alone, outputsOf_eq_alone, h]

theorem outputsOf_filter {config : FilterConfig} {period : Scalar} {p : Call → Bool}
    (hp : ∀ call : Call, (call.reading? ch).isSome = true → p call = true) (calls : List Call) :
    (new config period).outputsOf ch (calls.filter p) = (new config period).outputsOf ch calls := by
  refine outputsOf_congr ?_
  rw [List.filterMap_filter]
  refine List.filterMap_congr fun call _ => ?_
  cases hr : call.reading? ch with
  | none => exact ite_self none
  | some r => exact if_pos (hp call (by rw [hr]; rfl))

theorem outputsOf_acc (c : Conditioner) (a : Axis) (calls : List Call) :
    (c.accOutputs calls).map (Triple.get · a) = c.outputsOf ⟨.acc, a⟩ calls := by
  rw [accOutputs, outputsOf, List.map_filterMap]
  refine List.filterMap_congr fun answer _ => ?_
  cases answer with
  | axis b y =>
    rw [Answer.value?, if_neg fun heq => by cases heq]
    rfl
  | gyro y | acc y | done => rfl

end

/-- Nothing but its own values has a part in what comes out of a channel. Neither do the samples of
the gyroscope have a part in those of the accelerometer, nor the other way round. -/
theorem outputs_of_channels (config : FilterConfig) (period : Scalar) (calls : List Call) :
    (∀ ch, (new config period).outputsOf ch calls =
      (new config period).outputsOf ch (calls.filterMap (Call.only ch))) ∧
    (∀ a, (new config period).outputsOf ⟨.gyro, a⟩ calls =
      (new config period).outputsOf ⟨.gyro, a⟩ (calls.filter (Call.concernsAxis a))) ∧
    (new config period).accOutputs calls =
      (new config period).accOutputs (calls.filter Call.concernsAcc) := by
  refine ⟨fun ch => ?_, fun a => ?_, ?_⟩
  · refine outputsOf_congr ?_
    rw [List.filterMap_filterMap]
    exact List.filterMap_congr fun call _ => (reading?_only ch call).symm
  · exact (outputsOf_filter concernsAxis_of_reading calls).symm
  · refine Triple.list_ext fun a => ?_
    rw [outputsOf_acc, outputsOf_acc, outputsOf_filter concernsAcc_of_reading]

end Conditioner

end Quadrotor
