import Mathlib
import Quadrotor.Proofs.Flight.Events
import Quadrotor.Proofs.Flight.Session
import Quadrotor.Proofs.Storage.RecordCodec

/-!
# Starting with what is stored

A flight core starts with the stored parameters if there is a valid set of them, and with the default
ones otherwise, whatever the store holds. That nothing is stored goes without saying. Any other
failure to load is what the first tick reports ahead of everything else, and no later tick does.
-/

namespace Quadrotor

/-- Loading has come to an error other than that nothing is stored. -/
def LoadFails (loaded : Except StoreError TuningParams) : Prop :=
  ∃ e, loaded = .error e ∧ e ≠ .useDefaults

theorem not_loadFails_ok (p : TuningParams) : ¬LoadFails (.ok p) := by
  rintro ⟨e, he, -⟩
  cases he

/-! ## Loading from a flash memory -/

theorem Record.loadFails_decode_iff (bytes : List UInt8) :
    LoadFails (Record.decode bytes) ↔ Record.Malformed bytes := by
  rcases Record.decode_cases bytes with
    ⟨hwell, p, -, -, hdecode⟩ | ⟨hmalformed, e, hdecode⟩ | ⟨hwell, hdecode⟩
  · rw [hdecode]
    exact iff_of_false (not_loadFails_ok p) hwell
  · exact iff_of_true ⟨_, hdecode, by simp⟩ hmalformed
  · rw [hdecode]
    refine iff_of_false ?_ hwell
    rintro ⟨e, he, hne⟩
    exact hne (Except.error.inj he).symm

namespace FlashStore

/-- The bytes that a load finds; none where the memory refuses the access, or where it reads in
grains that a record does not fill. -/
def found (s : FlashStore) : Option (List UInt8) :=
  if Record.size < roundUp Record.size s.grain.read then none
  else (s.flash.read s.offset (roundUp Record.size s.grain.read)).toOption

theorem load_of_found {s : FlashStore} {bytes : List UInt8} (h : s.found = some bytes) :
    s.load = Record.decode bytes := by
  unfold found at h
  split_ifs at h with hgrain
  cases hread : s.flash.read s.offset (roundUp Record.size s.grain.read) with
  | error e =>
    rw [hread] at h
    cases h
  | ok read =>
    rw [hread] at h
    simp only [load, if_neg hgrain, hread, Option.some_inj.mp h]

theorem load_of_not_found {s : FlashStore} (h : s.found = none) :
    ∃ e, s.load = .error (.medium e) := by
  unfold found at h
  split_ifs at h with hgrain
  · exact ⟨.notAligned, by simp only [load, if_pos hgrain]⟩
  · cases hread : s.flash.read s.offset (roundUp Record.size s.grain.read) with
    | error e => exact ⟨e.toMedium, by simp only [load, if_neg hgrain, hread]⟩
    | ok read =>
      rw [hread] at h
      cases h

/-- What a load from a flash memory comes to, by the bytes that it finds. -/
structure LoadsAsFound (s : FlashStore) : Prop where
  /-- A record that holds something else than parameters is a failure, as is finding no bytes. -/
  fails_iff : LoadFails s.load ↔ ∀ bytes, s.found = some bytes → Record.Malformed bytes
  ok_iff : ∀ p, s.load = .ok p ↔
    p.isValid = true ∧ ∃ bytes, s.found = some bytes ∧ Record.Carries bytes p

theorem loadsAsFound (s : FlashStore) : s.LoadsAsFound := by
  cases hfound : s.found with
  | none =>
    obtain ⟨e, he⟩ := load_of_not_found hfound
    refine ⟨?_, fun p => ?_⟩
    · rw [hfound]
      exact iff_of_true ⟨_, he, by simp⟩ fun bytes hbytes => by cases hbytes
    · rw [he, hfound]
      refine iff_of_false (fun hok => by cases hok) ?_
      rintro ⟨-, bytes, hbytes, -⟩
      cases hbytes
  | some bytes =>
    have hload := load_of_found hfound
    refine ⟨?_, fun p => ?_⟩
    · rw [hload, hfound, Record.loadFails_decode_iff]
      exact ⟨fun h b hb => Option.some_inj.mp hb ▸ h, fun h => h bytes rfl⟩
    · rw [hload, hfound, Record.decode_eq_ok_iff]
      refine and_congr_right fun _ => ⟨fun h => ⟨bytes, rfl, h⟩, ?_⟩
      rintro ⟨b, hb, h⟩
      rwa [Option.some_inj.mp hb]

end FlashStore

namespace FlightCore

/-! ## The report of a failure to load -/

theorem loadFailed_not_mem_monitor (c : FlightCore) (voltage : Option Scalar) :
    .loadFailed ∉ (c.monitor voltage).2 := by
  cases voltage with
  | none => exact List.not_mem_nil
  | some v =>
    intro hmem
    obtain ⟨change, -, hevent⟩ := Option.mem_map.mp (Option.mem_toList.mp hmem)
    cases change <;> cases hevent

theorem loadFailed_not_mem_travel (c : FlightCore) : .loadFailed ∉ c.checkTravel.2 := by
  unfold checkTravel
  cases c.travel with
  | none => simp
  | some before =>
    simp only
    split_ifs <;> simp

theorem loadFailed_not_mem_listenIn {c : FlightCore} {state : ArmingState}
    {r : FlightCore × List Event} (h : c.listenIn state = .ok r) : .loadFailed ∉ r.2 := by
  cases state with
  | disarmed =>
    change c.listen = .ok r at h
    unfold listen at h
    simp only [bind_eq_ok] at h
    obtain ⟨⟨gestures, action⟩, -, hr⟩ := h
    have htravel := loadFailed_not_mem_travel c
    cases action with
    | none =>
      rw [← Except.ok.inj hr]
      exact htravel
    | some action =>
      rw [← Except.ok.inj hr]
      simp [htravel]
  | armed | failsafeLanding =>
    rw [← Except.ok.inj h]
    exact List.not_mem_nil

/-- A tick reports a failure to load that is still to be reported, ahead of everything else and once,
and leaves none. -/
theorem tick_loadFailed {c next : FlightCore} {input : TickInputs} {out : TickOutput}
    (h : c.tick input = .ok (next, out)) : next.loadFailed = false ∧
      ∃ rest, .loadFailed ∉ rest ∧
        out.events = (if c.loadFailed then [.loadFailed] else []) ++ rest := by
  obtain ⟨sensed, listened, commanded, mixed, hstages, rfl, rfl⟩ := tick_eq_ok.mp h
  constructor
  · obtain ⟨_, _, _, _, _, _, _, _, hcommanded⟩ := hstages.commanded_eq
    obtain ⟨_, _, _, _, _, _, _, _, hsensed⟩ := hstages.sensed_eq
    rw [hcommanded, hsensed, received_eq]
  · have hmonitor : .loadFailed ∉ (sensed.monitored input).2 :=
      loadFailed_not_mem_monitor sensed input.voltage
    have harming : .loadFailed ∉ (c.decided sensed input).2.2 := fun hmem => by
      have hkind := (Arming.part_update _ _).kind _ hmem
      cases hkind
    have hlisten := loadFailed_not_mem_listenIn hstages.listen
    refine ⟨(if input.overran then [.tickOverrun] else []) ++ (sensed.monitored input).2 ++
      (c.decided sensed input).2.2 ++ listened.2, ?_, ?_⟩
    · have hoverran : .loadFailed ∉ if input.overran then [Event.tickOverrun] else [] := by
        split_ifs <;> simp
      simp only [List.mem_append, not_or]
      exact ⟨⟨⟨hoverran, hmonitor⟩, harming⟩, hlisten⟩
    · rw [hstages.events_eq, eventsIn, pendingEvents]
      simp only [List.append_assoc]

/-! ## Courses -/

/-- The ticks made since `start`, with work between them on whatever stores, and the core that they
have led to. -/
inductive Course (start : FlightCore) : List RunTick → FlightCore → Prop
  | start : Course start [] start
  | tick {ticks : List RunTick} {c next : FlightCore} {input : TickInputs} {out : TickOutput}
      (h : Course start ticks c) (htick : c.tick input = .ok (next, out)) :
      Course start (ticks ++ [⟨c, input, next, out⟩]) next
  | idle {σ : Type} [ParamStore σ] {store store' : σ} {ticks : List RunTick} {c next : FlightCore}
      {outcome : Option (Except StoreError Unit)} (h : Course start ticks c)
      (hidle : c.idle store = .ok (next, store', outcome)) : Course start ticks next

namespace Course

variable {start c : FlightCore} {ticks : List RunTick}

/-- No tick of a course from a sound core is aborted. -/
theorem sound (hstart : start.Sound) (h : Course start ticks c) : c.Sound := by
  induction h with
  | start => exact hstart
  | tick _ htick ih => exact (ih.of_tick htick).1
  | idle _ hidle ih =>
    rw [idle_eq hidle]
    exact ⟨ih.attitude, ih.setpoints, ih.controller, ih.mixer, ih.divider⟩

/-- What is still to be reported at the start has been reported by the first tick. -/
theorem loadFailed_eq (h : Course start ticks c) :
    c.loadFailed = (ticks.isEmpty && start.loadFailed) := by
  induction h with
  | start => rfl
  | @tick ticks c next input out _ htick _ =>
    rw [(tick_loadFailed htick).1]
    cases ticks <;> rfl
  | idle _ hidle ih =>
    rw [idle_eq hidle]
    exact ih

/-- The report of each tick, split into what is said of loading and the rest. -/
theorem reports (h : Course start ticks c) {t : Nat} {r : RunTick} (hr : ticks[t]? = some r) :
    ∃ rest, .loadFailed ∉ rest ∧ r.output.events =
      (if t = 0 ∧ start.loadFailed = true then [.loadFailed] else []) ++ rest := by
  induction h with
  | start => cases hr
  | idle _ _ ih => exact ih hr
  | @tick ticks c next input out h htick ih =>
    rcases getElem?_concat_eq_some.mp hr with hr | ⟨rfl, rfl⟩
    · exact ih hr
    · obtain ⟨-, rest, hrest, hevents⟩ := tick_loadFailed htick
      refine ⟨rest, hrest, hevents.trans ?_⟩
      simp only [h.loadFailed_eq, Bool.and_eq_true, List.isEmpty_iff, List.length_eq_zero_iff]

end Course

/-! ## Starting -/

theorem initialParams_failed_iff (loaded : Except StoreError TuningParams) :
    (initialParams loaded).2 = true ↔ LoadFails loaded := by
  cases loaded with
  | ok p => exact iff_of_false Bool.false_ne_true (not_loadFails_ok p)
  | error e => cases e <;> simp [initialParams, LoadFails]

theorem isValid_validOrDefault (p : TuningParams) : (validOrDefault p).isValid = true := by
  have hdefault : TuningParams.isValid {} = true := by decide +kernel
  unfold validOrDefault
  split_ifs with h
  · exact h
  · exact hdefault

theorem boot_of_validate {config : FlightConfig} (hvalid : config.validate = .ok ()) {σ : Type}
    [ParamStore σ] (store : σ) : (boot config store).1 = .ok
      { build config (initialParams (ParamStore.load store).1).1 with
        loadFailed := (initialParams (ParamStore.load store).1).2 } := by
  have hnew : ∀ params, new config params = .ok (build config params) :=
    fun params => new_eq_ok.mpr ⟨hvalid, rfl⟩
  simp only [boot, hnew]
  rfl

/-- How a core starts, given what loading the parameters has come to. -/
structure StartsFrom (loaded : Except StoreError TuningParams) (c : FlightCore) : Prop where
  valid : c.table.params.isValid = true
  stored : ∀ p, loaded = .ok p → p.isValid = true → c.table.params = p
  default : (∀ p, loaded = .ok p → p.isValid = false) → c.table.params = {}
  /-- The controllers have no other gains. -/
  gains : ∀ axis, (c.controller.pids.get axis).gains = (c.table.params.gains .a).get axis
  /-- No tick is aborted, so any number of them can follow. -/
  lasts : ∀ {ticks : List RunTick} {now : FlightCore}, Course c ticks now →
    ∀ input, ∃ next out, now.tick input = .ok (next, out)
  first : ∀ {ticks : List RunTick} {now : FlightCore} {r : RunTick}, Course c ticks now →
    ticks[0]? = some r →
      (r.output.events.head? = some .loadFailed ↔ LoadFails loaded) ∧
      .loadFailed ∉ r.output.events.tail
  later : ∀ {ticks : List RunTick} {now : FlightCore} {r : RunTick} {t : Nat}, Course c ticks now →
    ticks[t + 1]? = some r → .loadFailed ∉ r.output.events

theorem startsFrom_initialParams {config : FlightConfig} (hvalid : config.validate = .ok ())
    (loaded : Except StoreError TuningParams) : StartsFrom loaded
      { build config (initialParams loaded).1 with loadFailed := (initialParams loaded).2 } := by
  have hsound := sound_build hvalid (initialParams loaded).1
  have hfailed := initialParams_failed_iff loaded
  refine ⟨isValid_validOrDefault _, ?_, ?_, fun axis => ?_, ?_, ?_, ?_⟩
  · rintro p rfl hp
    exact if_pos hp
  · intro hnone
    change validOrDefault _ = _
    cases loaded with
    | ok p => exact if_neg (by rw [initialParams, hnone p rfl]; decide)
    | error e => cases e <;> exact ite_self _
  · change ((RateController.new _ _ _ _).pids.get axis).gains = _
    rw [RateController.new, Triple.get_zipWith]
    rfl
  · intro ticks now hcourse input
    have hstart : FlightCore.Sound
        { build config (initialParams loaded).1 with loadFailed := (initialParams loaded).2 } :=
      ⟨hsound.attitude, hsound.setpoints, hsound.controller, hsound.mixer, hsound.divider⟩
    obtain ⟨next, out, htick, -⟩ := (hcourse.sound hstart).tick input
    exact ⟨next, out, htick⟩
  · intro ticks now r hcourse hr
    obtain ⟨rest, hrest, hevents⟩ := hcourse.reports hr
    rw [hevents, ← hfailed]
    simp only [true_and]
    split_ifs with hfails
    · exact ⟨iff_of_true rfl hfails, hrest⟩
    · refine ⟨iff_of_false ?_ hfails, fun hmem => hrest (List.mem_of_mem_tail hmem)⟩
      exact fun hhead => hrest (List.mem_of_mem_head? hhead)
  · intro ticks now r t hcourse hr
    obtain ⟨rest, hrest, hevents⟩ := hcourse.reports hr
    rw [hevents, if_neg fun h => absurd h.1 t.succ_ne_zero]
    exact hrest

/-- A validated configuration gives a core with valid parameters, whatever the store holds and
whatever loading comes to, and the report of the first tick alone tells of a failure to load. -/
theorem starts_of_boot (config : FlightConfig) (hvalid : config.validate = .ok ()) :
    (∀ (σ : Type) [ParamStore σ] (store : σ), ∃ c, (boot config store).1 = .ok c ∧
      StartsFrom (ParamStore.load store).1 c) ∧
    ∀ s : FlashStore, s.LoadsAsFound := by
  refine ⟨fun σ _ store => ⟨_, boot_of_validate hvalid store, ?_⟩, FlashStore.loadsAsFound⟩
  exact startsFrom_initialParams hvalid _

/-- The record of the initial parameters with a flag that is none, its checksum in order, and erased
memory up to where a record ends. -/
def brokenFlagBytes : List UInt8 :=
  Record.sealed (Record.header 94 ++ (Payload.encode {}).set 92 2) ++ List.replicate 26 Flash.erased

/-- A memory that holds them. -/
def brokenFlag : FlashStore where
  flash := { cells := brokenFlagBytes.toArray }
  offset := 0

/-- What is found there is no parameter set, though the record is intact: the core starts with the
initial parameters and says so in its first tick, and not in its second. -/
theorem starts_of_brokenFlag : FlightConfig.validate {} = .ok () ∧
    LoadFails brokenFlag.load ∧ ∃ c next out next' out', (boot {} brokenFlag).1 = .ok c ∧
      c.table.params = {} ∧ c.tick {} = .ok (next, out) ∧ next.tick {} = .ok (next', out') ∧
      out.events.head? = some .loadFailed ∧ .loadFailed ∉ out'.events := by
  have hvalid : FlightConfig.validate {} = .ok () := rfl
  have hlength : brokenFlagBytes.length = 128 := by
    simp [brokenFlagBytes, Record.sealed, Record.header, Payload.wordBytes]
  have hfound : brokenFlag.found = some brokenFlagBytes := by
    have hgrain : brokenFlag.flash.grain.read = 1 := rfl
    have hrounded : roundUp Record.size brokenFlag.grain.read = 128 := rfl
    have hcells : brokenFlag.flash.cells = brokenFlagBytes.toArray := rfl
    have hoffset : brokenFlag.offset = 0 := rfl
    rw [FlashStore.found, hrounded, if_neg (by decide), Flash.read, hgrain, hoffset]
    simp [Flash.covers, Flash.capacity, hcells, hlength, Nat.mod_one, Except.toOption]
  have hflag : brokenFlagBytes[99]? = some 2 := rfl
  have hmalformed : Record.Malformed brokenFlagBytes := by
    refine ⟨⟨?_, ?_, ?_, ?_, ?_⟩, ?_⟩
    iterate 5 decide +kernel
    rw [hflag]
    rintro ⟨-, hzero | hone, -⟩
    · cases hzero
    · cases hone
  have hfails : LoadFails brokenFlag.load := by
    refine ((starts_of_boot {} hvalid).2 brokenFlag).fails_iff.mpr fun bytes hbytes => ?_
    rwa [← Option.some_inj.mp (hfound.symm.trans hbytes)]
  have hnone : ∀ p, brokenFlag.load ≠ .ok p := fun p hp => not_loadFails_ok p (hp ▸ hfails)
  have hload : ∀ s : FlashStore, (ParamStore.load s).1 = s.load := fun _ => rfl
  obtain ⟨c, hboot, hstarts⟩ := (starts_of_boot {} hvalid).1 FlashStore brokenFlag
  rw [hload] at hstarts
  obtain ⟨next, out, htick⟩ := hstarts.lasts .start {}
  obtain ⟨next', out', htick'⟩ := hstarts.lasts (.tick .start htick) {}
  have hcourse := Course.tick (.tick .start htick) htick'
  have hfirst := hstarts.first (r := ⟨c, {}, next, out⟩) hcourse (by simp)
  have hlater := hstarts.later (r := ⟨next, {}, next', out'⟩) (t := 0) hcourse (by simp)
  exact ⟨hvalid, hfails, c, next, out, next', out', hboot,
    hstarts.default fun p hp => absurd hp (hnone p), htick, htick', hfirst.1.mpr hfails, hlater⟩

end FlightCore

end Quadrotor
