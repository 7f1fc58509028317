import Mathlib
import Quadrotor.Proofs.Flight.Run

/-!
# The motors

What reaches the motors, for every configuration that passes its check and whatever the sensors, the
radio and the pilot do: nothing at all while disarmed, and otherwise numbers between the least duty
and full duty.
-/

namespace Quadrotor.FlightCore

open Scalar

/-- The duties of every tick of a run are in the range of the motors. -/
theorem run_inRange {config : FlightConfig} (h : config.validate = .ok ()) (params : TuningParams)
    {inputs : List TickInputs} {ticks : List RunTick}
    (hrun : (build config params).run inputs = .ok ticks) {r : RunTick} (hr : r ∈ ticks) :
    Mixer.InRange config.mixer r.output.state r.output.motors := by
  obtain ⟨t, ht⟩ := List.mem_iff_getElem?.mp hr
  have hinv := run_invariant (fun _ c => c.Sound ∧ c.mixer.config = config.mixer)
    (fun t r _ hc htick => by
      obtain ⟨hnext, hconfig, -⟩ := hc.1.of_tick htick
      exact ⟨hnext, hconfig.trans hc.2⟩)
    ⟨sound_build h params, rfl⟩ (n := 0) hrun (Nat.zero_le t) ht
  have hrange := (hinv.1.1.of_tick hinv.2).2.2
  rw [hinv.1.2] at hrange
  exact hrange

/-- The mixer of an accepted configuration answers every sequence of calls, with duties in range and
a carry within its limit; and so does the flight core of a validated one, tick by tick. -/
theorem motors_in_range :
    (∀ config : MixerConfig, config.check = .ok () → ∀ (airframe : Airframe)
      (calls : List Mixer.Call), ∃ results, (Mixer.new config airframe).run calls = .ok results ∧
        ∀ r ∈ results, Mixer.InRange config r.call.state r.motors ∧
          r.mixer.carry.Each fun c =>
            c.isNaN = false ∧ 0.0 ≤ c ∧ c ≤ Mixer.carryBound config) ∧
    (∀ config : FlightConfig, config.validate = .ok () → ∀ (params : TuningParams)
      (inputs : List TickInputs), ∃ core ticks, new config params = .ok core ∧
        core.run inputs = .ok ticks ∧
        ∀ r ∈ ticks, Mixer.InRange config.mixer r.output.state r.output.motors) := by
  constructor
  · intro config h airframe calls
    obtain ⟨results, hrun, hall⟩ := Mixer.run_ok (Mixer.bounded_new h airframe) calls
    refine ⟨results, hrun, fun r hr => ⟨(hall r hr).1, fun c hc => ?_⟩⟩
    have hmem := (hall r hr).2 c hc
    exact ⟨(le_iff.mp hmem.1).2.1, hmem⟩
  · intro config h params inputs
    obtain ⟨ticks, hrun⟩ := (sound_build h params).run inputs
    exact ⟨build config params, ticks, new_eq_ok.mpr ⟨h, rfl⟩, hrun,
      fun r hr => run_inRange h params hrun hr⟩

/-- The default configurations are accepted, so an infinite throttle and a command that is not a
number give duties in range. -/
theorem motors_in_range_default :
    (∃ results, (Mixer.new {} .standard).run [⟨true, .fill nan, infinity, .armed⟩] = .ok results ∧
      ∀ r ∈ results, Mixer.InRange {} r.call.state r.motors) ∧
    ∃ core ticks, new {} {} = .ok core ∧ core.run [{ voltage := some nan }] = .ok ticks ∧
      ∀ r ∈ ticks, Mixer.InRange {} r.output.state r.output.motors := by
  obtain ⟨results, hrun, hall⟩ := motors_in_range.1 {} rfl .standard
    [⟨true, .fill nan, infinity, .armed⟩]
  exact ⟨⟨results, hrun, fun r hr => (hall r hr).1⟩,
    motors_in_range.2 {} rfl {} [{ voltage := some nan }]⟩

end Quadrotor.FlightCore
