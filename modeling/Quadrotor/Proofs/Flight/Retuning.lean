import Mathlib
import Quadrotor.Proofs.Flight.Session

/-!
# Changed parameters

The controllers and the mixer hold copies of parameters, taken over at the start of a tick where the
generation or the profile is not the one that they hold. A parameter set changes only together with
its generation, and at most once in a tick, so it does not matter that generations come round again:
what is held is always the set as it was at the start of the tick.
-/

namespace Quadrotor

/-! ## The gains that the controllers hold -/

theorem RatePid.update_gains {p q : RatePid} {setpoint measurement output : Scalar}
    {context : PidContext} (h : p.update setpoint measurement context = .ok (q, output)) :
    q.gains = p.gains := by
  obtain ⟨integral, -, hq⟩ := bind_eq_ok.mp h
  rw [← (Prod.mk.inj (Except.ok.inj hq)).1]

namespace RateController

/-- The gains of the three controllers. -/
def gains (r : RateController) : Triple Gains := r.pids.map RatePid.gains

@[simp] theorem gains_withGains (r : RateController) (g : Triple Gains) :
    (r.withGains g).gains = g := rfl

theorem gains_updateAxis {r s : RateController} {axis : Axis} {mode : FlightMode}
    {setpoint measured output : Scalar}
    (h : r.updateAxis axis mode setpoint measured = .ok (s, output)) : s.gains = r.gains := by
  obtain ⟨⟨pid, x⟩, hupdate, hs⟩ := bind_eq_ok.mp h
  have hgains := RatePid.update_gains hupdate
  rw [← (Prod.mk.inj (Except.ok.inj hs)).1]
  cases axis <;> simp [gains, Triple.set, Triple.map, hgains, Triple.get]

theorem gains_update {r s : RateController} {mode : FlightMode} {setpoints measured : Triple Scalar}
    {commands : Triple Scalar} (h : r.update mode setpoints measured = .ok (s, commands)) :
    s.gains = r.gains := by
  obtain ⟨⟨a, _⟩, ha, hrest⟩ := bind_eq_ok.mp h
  obtain ⟨⟨b, _⟩, hb, hrest⟩ := bind_eq_ok.mp hrest
  obtain ⟨⟨d, _⟩, hd, hrest⟩ := bind_eq_ok.mp hrest
  rw [← (Prod.mk.inj (Except.ok.inj hrest)).1, gains_updateAxis hd, gains_updateAxis hb,
    gains_updateAxis ha]

end RateController

theorem Mixer.mix_yawInverted {m : Mixer} {commands : Triple Scalar} {throttle : Scalar}
    {state : ArmingState} {r : Mixer × PerMotor Scalar} (h : m.mix commands throttle state = .ok r) :
    r.1.yawInverted = m.yawInverted := by
  unfold mix at h
  by_cases hon : state.motorsEnabled = true
  · simp only [if_pos hon, bind_eq_ok] at h
    obtain ⟨carried, -, motors, -, hr⟩ := h
    rw [← Except.ok.inj hr]
  · rw [if_neg hon] at h
    rw [← Except.ok.inj h]

/-! ## What changes a parameter set -/

/-- An action that leaves the generation as it is leaves the parameters as they are. -/
theorem TuningTable.apply_generation (t : TuningTable) (action : GestureAction) (profile : Profile) :
    (t.apply action profile).1.generation = t.generation ∧
        (t.apply action profile).1.params = t.params ∨
      (t.apply action profile).1.generation = t.generation + 1 := by
  cases action with
  | saveParams | stickCheckOn | stickCheckOff | nextTerm | nextAxis => exact Or.inl ⟨rfl, rfl⟩
  | toggleLvc | toggleYawInversion | increaseGain | decreaseGain => exact Or.inr rfl

namespace FlightCore

/-- The controllers hold the gains of a profile of the set, and the mixer its flag. -/
structure Holds (c : FlightCore) (params : TuningParams) (profile : Profile) : Prop where
  gains : c.controller.gains = params.gains profile
  inverted : c.mixer.yawInverted = params.yawInverted

/-- If the generation that is held is the present one, then so are the parameters that are held. -/
def Current (c : FlightCore) : Prop :=
  ∀ profile, c.applied = some (c.table.generation, profile) → c.Holds c.table.params profile

theorem Current.applyParams {c : FlightCore} (h : c.Current) (profile : Profile) :
    (c.applyParams profile).Holds c.table.params profile ∧
      (c.applyParams profile).applied = some (c.table.generation, profile) := by
  unfold FlightCore.applyParams
  split_ifs with happlied
  · exact ⟨h profile happlied, happlied⟩
  · exact ⟨⟨RateController.gains_withGains _ _, rfl⟩, rfl⟩

theorem listenIn_table {d : FlightCore} {state : ArmingState} {r : FlightCore × List Event}
    (h : d.listenIn state = .ok r) :
    r.1.table.generation = d.table.generation ∧ r.1.table.params = d.table.params ∨
      r.1.table.generation = d.table.generation + 1 := by
  cases state with
  | armed | failsafeLanding =>
    rw [← Except.ok.inj h]
    exact Or.inl ⟨rfl, rfl⟩
  | disarmed =>
    change d.listen = .ok r at h
    obtain ⟨travel, htravel⟩ := checkTravel_frame d
    unfold listen at h
    simp only [bind_eq_ok, htravel] at h
    obtain ⟨⟨gestures, action⟩, -, hr⟩ := h
    cases action with
    | none =>
      rw [← Except.ok.inj hr]
      exact Or.inl ⟨rfl, rfl⟩
    | some action =>
      have htable : ∀ (c : FlightCore) (outcome : ActionOutcome),
          (c.carryOut outcome).table = c.table := by
        intro c outcome
        cases outcome <;> rfl
      rw [← Except.ok.inj hr]
      simp only [htable]
      exact d.table.apply_generation action _

theorem command_holds {c : FlightCore} {switches : Switches Bool} {decision : ArmingOutput}
    {r : FlightCore × Triple Scalar} {params : TuningParams} {profile : Profile}
    (hc : c.Holds params profile) (h : c.command switches decision = .ok r) :
    r.1.Holds params profile := by
  unfold command at h
  split_ifs at h
  · simp only [bind_eq_ok] at h
    obtain ⟨⟨setpoints, rates⟩, -, ⟨controller, commands⟩, hupdate, hr⟩ := h
    have hgains := RateController.gains_update hupdate
    rw [← Except.ok.inj hr]
    exact ⟨hgains.trans hc.gains, hc.inverted⟩
  · rw [← Except.ok.inj h]
    exact hc

/-! ## Ticks -/

/-- In the tick, the controllers compute with gains of the given set and the mixer with its flag; the
profile is the one that the switches of the tick select. -/
def RunTick.ComputesWith (r : RunTick) (params : TuningParams) : Prop :=
  ∃ sensed listened commanded mixed, Stages r.before r.input sensed listened commanded mixed ∧
    r.after = { commanded.1 with mixer := mixed.1 } ∧
    r.output = r.before.outputOf r.input sensed listened mixed ∧
    listened.1.Holds params (profileOf (r.before.switchesIn r.input)) ∧
    commanded.1.Holds params (profileOf (r.before.switchesIn r.input))

variable {c : FlightCore} {input : TickInputs} {sensed : FlightCore}
  {listened : FlightCore × List Event} {commanded : FlightCore × Triple Scalar}
  {mixed : Mixer × PerMotor Scalar}

/-- What has been taken over, and the parameters themselves, come through to the gestures. -/
theorem Stages.decided_table (h : Stages c input sensed listened commanded mixed) :
    (c.decided sensed input).1.table = c.table ∧ listened.1.applied = (c.prepared input).applied := by
  obtain ⟨_, _, _, _, _, _, _, _, hsensedTable⟩ := h.sensed_eq
  obtain ⟨_, _, _, _, _, hsensed, -⟩ := sense_frame h.sense
  obtain ⟨_, _, _, _, hdecided, -⟩ := decided_eq c sensed input
  obtain ⟨_, _, _, _, _, hlistened, -⟩ := listenIn_frame h.listen
  rw [hlistened, hdecided]
  refine ⟨?_, by rw [hsensed]⟩
  rw [hsensedTable, received_eq]

/-- What is held once the controllers are prepared is held until they compute. -/
theorem Stages.holds_listened (h : Stages c input sensed listened commanded mixed)
    {params : TuningParams} {profile : Profile} (hprepared : (c.prepared input).Holds params profile) :
    listened.1.Holds params profile := by
  obtain ⟨_, _, _, _, _, hsensed, -⟩ := sense_frame h.sense
  obtain ⟨_, _, _, _, hdecided, hcontroller⟩ := decided_eq c sensed input
  obtain ⟨_, _, _, _, _, hlistened, -⟩ := listenIn_frame h.listen
  rw [hsensed] at hcontroller
  rw [hlistened, hdecided, hsensed]
  refine ⟨?_, hprepared.inverted⟩
  rcases hcontroller with rfl | rfl
  · exact hprepared.gains
  · exact hprepared.gains

/-- A tick that finds what is held current computes with the set that it finds, and leaves what is
held current. -/
theorem Current.tick {r : RunTick} (h : r.before.Current)
    (htick : r.before.tick r.input = .ok (r.after, r.output)) :
    r.ComputesWith r.before.table.params ∧ r.after.Current := by
  obtain ⟨sensed, listened, commanded, mixed, hstages, hafter, hout⟩ := tick_eq_ok.mp htick
  have hreceived : (r.before.received r.input).Current := by
    rw [received_eq]
    exact fun profile happlied => ⟨(h profile happlied).gains, (h profile happlied).inverted⟩
  have htable : (r.before.received r.input).table = r.before.table := by rw [received_eq]
  obtain ⟨hprepared, happlied⟩ :=
    hreceived.applyParams (profileOf (r.before.switchesIn r.input))
  rw [htable] at hprepared happlied
  have hlistened := hstages.holds_listened hprepared
  have hcommanded := command_holds hlistened hstages.command
  refine ⟨⟨sensed, listened, commanded, mixed, hstages, hafter, hout, hlistened, hcommanded⟩, ?_⟩
  obtain ⟨hdecided, hkept⟩ := hstages.decided_table
  obtain ⟨_, _, hcommand⟩ := command_frame hstages.command
  have happliedAfter : r.after.applied =
      some (r.before.table.generation, profileOf (r.before.switchesIn r.input)) := by
    rw [hafter, ← happlied, hcommand]
    exact hkept
  have htableAfter : r.after.table = listened.1.table := by
    rw [hafter, hcommand]
  intro profile hnow
  rw [happliedAfter, htableAfter, Option.some_inj, Prod.mk.injEq] at hnow
  rcases listenIn_table hstages.listen with ⟨-, hparams⟩ | hgeneration
  · rw [htableAfter, hparams, hdecided, ← hnow.2, hafter]
    exact ⟨hcommanded.gains, (Mixer.mix_yawInverted hstages.mix).trans hcommanded.inverted⟩
  · -- The set has changed, so the generation that is held is not the present one.
    rw [hgeneration, hdecided] at hnow
    exact absurd hnow.1 (by simp)

theorem Session.current {config : FlightConfig} {ticks : List RunTick} {c : FlightCore}
    (h : Session config ticks c) : c.Current := by
  refine invariant (P := fun _ c => c.Current) (fun _ params failed profile happlied => ?_) ?_ ?_ h
  · cases happlied
  · intro ticks c input next out _ hc htick
    exact (Current.tick (r := ⟨c, input, next, out⟩) hc htick).2
  · exact fun hc profile happlied => ⟨(hc profile happlied).gains, (hc profile happlied).inverted⟩

/-- Every tick of a session computes with the parameters as they were at its start, and the next one
with the parameters that it leaves. -/
structure Retuned (ticks : List RunTick) (c : FlightCore) : Prop where
  start : ∀ r ∈ ticks, r.ComputesWith r.before.table.params
  next : ∀ (t : Nat) (p r : RunTick), ticks[t]? = some p → ticks[t + 1]? = some r →
    r.ComputesWith p.after.table.params
  /-- A further tick comes about, whatever arrives, and computes with the present parameters. -/
  progress : ∀ input, ∃ next out, c.tick input = .ok (next, out) ∧
    RunTick.ComputesWith ⟨c, input, next, out⟩ c.table.params

/-- Changed parameters take effect in the next tick, all of them at once, whatever has been done in
the session and however often the generations have come round. -/
theorem retuned_of_session (config : FlightConfig) {ticks : List RunTick} {c : FlightCore}
    (h : Session config ticks c) : Retuned ticks c := by
  have hstart : ∀ r ∈ ticks, r.ComputesWith r.before.table.params := by
    intro r hr
    obtain ⟨t, ht⟩ := List.mem_iff_getElem?.mp hr
    obtain ⟨hbefore, htick⟩ := h.before ht
    exact (hbefore.current.tick htick).1
  refine ⟨hstart, fun t p r hp hr => ?_, fun input => ?_⟩
  · have htable : p.after.table = r.before.table := by rw [h.next hp hr]
    rw [htable]
    exact hstart r (List.mem_of_getElem? hr)
  · obtain ⟨next, out, htick, -⟩ := h.sound.tick input
    exact ⟨next, out, htick, (Current.tick (r := ⟨c, input, next, out⟩) h.current htick).1⟩

/-- The pitch stick goes down, up, and down again, on the ground; then one more tick passes. -/
def downUpDown : List TickInputs :=
  let sample : MotionSample := { time := 1000, gyro := .fill 0.0, acc := some ⟨0.0, 0.0, 1.0⟩ }
  let frame (pitch : Scalar) : Option RadioFrame :=
    some { linkOk := true, channels := { pitch := pitch } }
  [{ sample := some sample, radio := frame 0.0 }, { radio := frame (-1.0) }, { radio := frame 0.0 },
    { radio := frame 1.0 }, { radio := frame 0.0 }, { radio := frame (-1.0) }, {}]

/-- The tick that completes the gesture still computes with the propellers turning one way, and the
next tick with them turning the other. -/
theorem retuned_of_downUpDown : ∃ ticks c p r, Session { gesture := { divider := 1 } } ticks c ∧
    ticks[5]? = some p ∧ ticks[6]? = some r ∧
    p.before.table.params.yawInverted = false ∧ p.ComputesWith p.before.table.params ∧
    p.after.table.params.yawInverted = true ∧ r.ComputesWith p.after.table.params := by
  have hvalid : FlightConfig.validate { gesture := { divider := 1 } } = .ok () := rfl
  obtain ⟨ticks, c, hrun, hsession⟩ := Session.exists_run hvalid {} downUpDown
  have hretuned := retuned_of_session { gesture := { divider := 1 } } hsession
  let flags (r : RunTick) : Bool × Bool :=
    (r.before.table.params.yawInverted, r.after.table.params.yawInverted)
  have hseen : ((build { gesture := { divider := 1 } } {}).run downUpDown).toOption.map
      (List.map flags) = some [(false, false), (false, false), (false, false), (false, false),
        (false, false), (false, true), (true, true)] := by
    decide +kernel
  rw [hrun] at hseen
  have hticks : ticks.map flags = [(false, false), (false, false), (false, false), (false, false),
      (false, false), (false, true), (true, true)] := Option.some_inj.mp hseen
  have hat : ∀ t : Nat, ticks[t]?.map flags = [(false, false), (false, false), (false, false),
      (false, false), (false, false), (false, true), (true, true)][t]? := by
    intro t
    rw [← hticks, List.getElem?_map]
  obtain ⟨p, hp, hflags⟩ := Option.map_eq_some_iff.mp (hat 5)
  obtain ⟨r, hr, -⟩ := Option.map_eq_some_iff.mp (hat 6)
  obtain ⟨hbefore, hafter⟩ := Prod.mk.inj hflags
  exact ⟨ticks, c, p, r, hsession, hp, hr, hbefore, hretuned.start p (List.mem_of_getElem? hp),
    hafter, hretuned.next 5 p r hp hr⟩

end FlightCore

end Quadrotor
