import ArchFlow.Proofs.FactBase.Recording
import ArchFlow.Proofs.Flow.FirstOccurrence
import ArchFlow.Proofs.Flow.Simulation

/-!
# What is asked after a cancellation

A flow looks at the signal when it reaches a node, before it follows the links of the node and before each further type
of links, but not between one attribute of a node and the next. So once the flag is up, attributes are asked for only
where it goes up while an attribute is loaded, and then only those of the same element that are still to come. The
requests are read off a recorded flow, which is the flow itself with a record of all calls.

* `Explorer.recorded`: the explorer whose calls are recorded.
* `Explorer.asked_while_up`: which attributes are asked for while the flag is up.
* `Explorer.asked_after_cancellation`: an attribute that is asked for after the one before it has raised the flag.
-/

namespace ArchFlow

variable {ω : Type}

namespace Event

/-- The event asks for an attribute of an element. -/
def AsksOf (id : ElementId) (e : Event ω) : Prop := ∃ name, e.call = .attribute name id

/-- The event asks for an attribute. -/
def Asks (e : Event ω) : Prop := ∃ id, e.AsksOf id

/-- The flag goes up during the event. -/
def Raises (up : ω → Prop) (e : Event ω) : Prop := ¬ up e.before ∧ up e.after

end Event

/-! ## Records of flows -/

/-- Since the signal was seen down, nothing was asked for but attributes of the element. -/
def Open (id : ElementId) (past : List (Event ω)) : Prop :=
  ∃ before look since, past = before ++ look :: since ∧ look.call = .look false ∧ ∀ e ∈ since, e.AsksOf id

/-- Attributes of an element are asked for only if nothing else was since the signal was seen down. -/
def Guarded (events : List (Event ω)) : Prop := Along (fun past e => ∀ id, e.AsksOf id → Open id past) events

/-- Looks that are not seen up leave worlds with the property. -/
def LooksLeave (P : ω → Prop) (events : List (Event ω)) : Prop := ∀ e ∈ events, e.call = .look false → P e.after

/-- The flag went up while an attribute of the element was loaded, and since then only its attributes were asked for. -/
def RaisedFor (up : ω → Prop) (id : ElementId) (past : List (Event ω)) : Prop :=
  ∃ earlier raising since, past = earlier ++ raising :: since ∧ raising.AsksOf id ∧ raising.Raises up ∧
    ∀ e ∈ since, e.AsksOf id

theorem open_append_look (past : List (Event ω)) {e : Event ω} (h : e.call = .look false) (id : ElementId) :
    Open id (past ++ [e]) :=
  ⟨past, e, [], rfl, h, fun _ he => by cases he⟩

theorem Open.append {id : ElementId} {past : List (Event ω)} (h : Open id past) {e : Event ω} (he : e.AsksOf id) :
    Open id (past ++ [e]) := by
  obtain ⟨before, look, since, rfl, hlook, hsince⟩ := h
  refine ⟨before, look, since ++ [e], by simp, hlook, fun e' he' => ?_⟩
  rcases List.mem_append.1 he' with he' | he'
  · exact hsince e' he'
  · cases List.mem_singleton.1 he'
    exact he

theorem guarded_append_singleton {events : List (Event ω)} {e : Event ω} :
    Guarded (events ++ [e]) ↔ Guarded events ∧ ∀ id, e.AsksOf id → Open id events := by
  rw [Guarded, along_append, along_cons, List.append_nil]
  simp only [along_nil, and_true]
  rfl

theorem Guarded.append_other {events : List (Event ω)} (h : Guarded events) {e : Event ω} (he : ¬ e.Asks) :
    Guarded (events ++ [e]) :=
  guarded_append_singleton.2 ⟨h, fun id hid => absurd ⟨id, hid⟩ he⟩

theorem LooksLeave.append {P : ω → Prop} {events : List (Event ω)} (h : LooksLeave P events) {e : Event ω}
    (he : e.call = .look false → P e.after) : LooksLeave P (events ++ [e]) := by
  intro e' he' hlook
  rcases List.mem_append.1 he' with he' | he'
  · exact h e' he' hlook
  · cases List.mem_singleton.1 he'
    exact he hlook

/-! ## Recorded explorers -/

namespace Explorer

variable {x : Explorer ω}

/-- The explorer with all its calls recorded: those of the sources, and the looks at the signal. -/
def recorded (x : Explorer ω) : Explorer (Recorded ω) where
  base := x.base.recorded
  profile := x.profile
  signal := record .look x.signal

/-- The record is all that a recorded explorer adds. -/
theorem alike_recorded (x : Explorer ω) : x.Alike x.recorded fun s s' => s'.unrecorded = s where
  profile := rfl
  typeOf? := by
    rintro _ s' rfl id
    exact FactBase.typeOf?_recorded s' id
  resolve := by
    rintro _ s' rfl name id
    obtain ⟨hanswer, hafter⟩ := FactBase.resolve?_recorded (b := x.base) name id s'
    exact ⟨congrArg (·.toOption.join) hanswer, hafter⟩
  targets := by
    rintro _ s' rfl link id
    obtain ⟨hanswer, hafter⟩ := FactBase.targets_recorded (b := x.base) link id s'
    have hanswer : (x.recorded.base.targets link id s').1 = (x.base.targets link id s'.unrecorded).1 := hanswer
    exact ⟨by rw [found, found, hanswer], hafter⟩
  signal := by
    rintro _ s' rfl
    exact ⟨rfl, rfl⟩

/-- The record goes on without gaps. -/
theorem recorded_keeps_chained (x : Explorer ω) (w : ω) :
    x.recorded.Keeps fun s => Chained w s.world.events s.world.world where
  resolve _ _ s hs :=
    FactBase.resolve?_recorded_keeps (P := fun r => Chained w r.events r.world) (fun _ _ _ hr => hr.record _ _) s hs
  targets _ _ s hs :=
    FactBase.targets_recorded_keeps (P := fun r => Chained w r.events r.world) (fun _ _ _ hr => hr.record _ _) s hs
  look _ hs := hs.record _ _

/-- What every look leaves that is not seen up, those in the record have left. -/
theorem recorded_keeps_looks {P : ω → Prop} (h : ∀ w, (x.signal w).1 = false → P (x.signal w).2) :
    x.recorded.Keeps fun s => LooksLeave P s.world.events where
  resolve _ _ s hs := by
    refine FactBase.resolve?_recorded_keeps (P := fun r => LooksLeave P r.events) (fun _ _ _ hr => hr.append ?_) s hs
    intro hlook
    cases hlook
  targets _ _ s hs := by
    refine FactBase.targets_recorded_keeps (P := fun r => LooksLeave P r.events) (fun _ _ _ hr => hr.append ?_) s hs
    intro hlook
    cases hlook
  look s hs := LooksLeave.append hs fun hlook => h s.world.world (Call.look.inj hlook)

/-- Attributes are asked for only right after the signal was seen down. -/
theorem recorded_passes_guarded (x : Explorer ω) : x.recorded.Passes fun s => Guarded s.world.events where
  look s hs := by
    refine Guarded.append_other hs ?_
    rintro ⟨id, name, h⟩
    cases h
  reach id p hp := by
    have hlook : Guarded (x.recorded.look p).state.world.events := by
      refine Guarded.append_other hp ?_
      rintro ⟨id, name, h⟩
      cases h
    rw [reach, nodeAttributes_eq]
    split
    · exact hlook
    · next hup =>
      -- the look that is not seen up opens the element for its attributes, and each of them leaves it open
      have hopen : Open id (x.recorded.look p).state.world.events :=
        open_append_look _ (congrArg Call.look (Bool.eq_false_iff.2 hup)) id
      let I : State (Recorded ω) → Prop := fun s => Guarded s.world.events ∧ Open id s.world.events
      have hI : I (x.recorded.look p).state := ⟨hlook, hopen⟩
      refine (attributesOf_keeps (fun name s hs => ?_) x.profile.attributeNames _ _ hI).1
      refine FactBase.resolve?_recorded_keeps (P := fun r => Guarded r.events ∧ Open id r.events)
        (fun q _ r hr => ?_) s hs
      refine ⟨guarded_append_singleton.2 ⟨hr.1, ?_⟩, hr.2.append ⟨name, rfl⟩⟩
      rintro id' ⟨name', h⟩
      cases h
      exact hr.2
  targets link id s hs := by
    refine FactBase.targets_recorded_keeps (P := fun r => Guarded r.events) (fun q _ r hr => hr.append_other ?_) s hs
    rintro ⟨id, name, h⟩
    cases h

/-! ## Flows -/

/-- Where the record of a flow has no gaps and looks leave the flag down that they do not see, an attribute that is
asked for while the flag is up comes after one of the same element that raises it. -/
theorem raised_before {up : ω → Prop} {w w' : ω} {events : List (Event ω)} (hguarded : Guarded events)
    (hchained : Chained w events w') (hlooks : LooksLeave (fun w => ¬ up w) events) :
    Along (fun past e => ∀ id, e.AsksOf id → up e.before → RaisedFor up id past) events := by
  intro past e rest hsplit id he hup
  obtain ⟨before, look, since, rfl, hlook, hsince⟩ := hguarded past e rest hsplit id he
  subst hsplit
  -- the worlds lead from the look, which leaves the flag down, to the request
  obtain ⟨_, hpast, rfl, -⟩ := chained_append.1 hchained
  obtain ⟨_, -, -, hbetween⟩ := chained_append.1 hpast
  have hdown : ¬ up look.after := hlooks look (by simp) hlook
  obtain ⟨earlier, raising, later, rfl, hraises⟩ := hbetween.exists_change hdown hup
  exact ⟨before ++ look :: earlier, raising, later, by simp, hsince raising (by simp), hraises,
    fun e' he' => hsince e' (by simp [he'])⟩

/-- **What is asked for after a cancellation.** Let the flag be down after every look that does not see it up, so that
it goes up before a flow or while something is loaded. Recording the calls of the flow changes neither what it gives nor
the state that it leaves, and the record has no gaps. An attribute is asked for while the flag is up only if it went up
while an attribute of the same element was loaded, and if nothing but attributes of this element was asked for since. So
this happens exactly if the load of an attribute raises the flag and another attribute of the element comes next. -/
theorem asked_while_up (up : ω → Prop) (hlook : ∀ w, (x.signal w).1 = false → ¬ up (x.signal w).2) (root : ElementId)
    (depth : UInt64) (s : State ω) :
    ∃ s' events, x.recorded.flow root depth s.recording = ((x.flow root depth s).1, s') ∧
      s'.unrecorded = (x.flow root depth s).2 ∧ s'.world.events = events ∧
      Chained s.world events (x.flow root depth s).2.world ∧
      Along (fun past e => ∀ id, e.AsksOf id → up e.before → RaisedFor up id past) events ∧
      ((∃ e ∈ events, e.Asks ∧ up e.before) ↔
        ∃ past raising e rest id, events = past ++ raising :: e :: rest ∧ raising.AsksOf id ∧ raising.Raises up ∧
          e.AsksOf id) := by
  have hstart : s.recording.unrecorded = s := rfl
  have hsame := x.alike_recorded.flow hstart root depth
  have hguarded := x.recorded_passes_guarded.flow root depth s.recording along_nil
  have hchained := (x.recorded_keeps_chained s.world).passes.flow root depth s.recording rfl
  have hlooks := (recorded_keeps_looks (P := fun w => ¬ up w) hlook).passes.flow root depth s.recording nofun
  generalize x.recorded.flow root depth s.recording = run at hsame hguarded hchained hlooks ⊢
  obtain ⟨result, s'⟩ := run
  obtain ⟨rfl, hstate⟩ := hsame
  have hworld : s'.world.world = (x.flow root depth s).2.world := congrArg State.world hstate
  have hraised := raised_before hguarded hchained hlooks
  refine ⟨s', _, rfl, hstate, rfl, hworld ▸ hchained, hraised, ?_⟩
  constructor
  · rintro ⟨e, he, ⟨id, hid⟩, hup⟩
    obtain ⟨past, rest, hsplit⟩ := List.append_of_mem he
    obtain ⟨earlier, raising, since, rfl, hasks, hraises, hsince⟩ := hraised past e rest hsplit id hid hup
    -- what is asked for next is the attribute, or one that was asked for before it
    cases since with
    | nil => exact ⟨earlier, raising, e, rest, id, by simpa using hsplit, hasks, hraises, hid⟩
    | cons next since =>
      exact ⟨earlier, raising, next, since ++ e :: rest, id, by simpa using hsplit, hasks, hraises,
        hsince next List.mem_cons_self⟩
  · rintro ⟨past, raising, e, rest, id, hsplit, -, hraises, hid⟩
    rw [hsplit] at hchained ⊢
    obtain ⟨_, -, -, hbefore, -⟩ := chained_append.1 hchained
    exact ⟨e, by simp, ⟨id, hid⟩, hbefore ▸ hraises.2⟩

/-! ### An attribute that raises the flag -/

/-- A service with two attributes. Loading the first one raises the flag, which is all that there is to the world. -/
def raisingRegistry : Registry Bool where
  roots := [⟨ElementKind.type .appService, .constant [⟨"a", ElementKind.type .appService⟩]⟩]
  attributes := [⟨ElementKind.type .appService, "first", fun _ _ => (.ok (some "1"), true)⟩,
    ⟨ElementKind.type .appService, "second", fun _ => Loader.constant (some "2")⟩]

/-- What the registry comes to. -/
def raisingBase : FactBase Bool where
  slots := [⟨ElementKind.type .appService, [⟨"a", ElementKind.type .appService⟩]⟩]
  types := [("a", ElementKind.type .appService)]
  attributes := raisingRegistry.attributes
  links := []

theorem build_raisingRegistry (w : Bool) : raisingRegistry.build w = (.ok raisingBase, w) := by
  rfl

/-- A flow that resolves attributes in the given order. -/
def raising (attributes : List String) : Explorer Bool where
  base := raisingBase
  profile := { Profile.architecture with linkTypes := [], attributeNames := attributes }
  signal w := (w, w)

theorem raising_latches (attributes : List String) : (raising attributes).Latches (· = true) where
  shown _ hw := hw
  seen _ hw := hw
  attributes r hr id w hw := by
    rcases List.mem_cons.1 hr with rfl | hr
    · rfl
    · cases List.mem_singleton.1 hr
      exact hw
  links r hr := by cases hr

/-- The flag is a flag, the second attribute is asked for when it is up, and both attributes are shown. -/
theorem asked_after_cancellation :
    raisingRegistry.build false = (.ok raisingBase, false) ∧ (raising ["first", "second"]).Latches (· = true) ∧
      ∃ e ∈ ((raising ["first", "second"]).recorded.flow "a" 1 (State.fresh false).recording).2.world.events,
        e.call = .attribute "second" "a" ∧ e.before = true := by
  refine ⟨build_raisingRegistry false, raising_latches _, ?_⟩
  decide +kernel

/-- The first attribute raises the flag, and another attribute of the service comes next. -/
theorem asked_while_up_raising :
    ∃ s' past raised e rest id,
      (raising ["first", "second"]).recorded.flow "a" 1 (State.fresh false).recording =
        (((raising ["first", "second"]).flow "a" 1 (.fresh false)).1, s') ∧
      s'.world.events = past ++ raised :: e :: rest ∧ raised.AsksOf id ∧ raised.Raises (· = true) ∧ e.AsksOf id := by
  have hlook : ∀ w, ((raising ["first", "second"]).signal w).1 = false →
      ¬ ((raising ["first", "second"]).signal w).2 = true := fun _ hw => Bool.eq_false_iff.1 hw
  obtain ⟨s', _, hrun, -, rfl, -, -, hnext⟩ := asked_while_up (· = true) hlook "a" 1 (.fresh false)
  have hs' : s' = ((raising ["first", "second"]).recorded.flow "a" 1 (State.fresh false).recording).2 :=
    (congrArg Prod.snd hrun).symm
  have hasked : ∃ e ∈ s'.world.events, e.call = .attribute "second" "a" ∧ e.before = true := by
    rw [hs']
    decide +kernel
  obtain ⟨e, he, hcall, hup⟩ := hasked
  obtain ⟨past, raised, next, rest, id, hsplit⟩ := hnext.1 ⟨e, he, ⟨"a", "second", hcall⟩, hup⟩
  exact ⟨s', past, raised, next, rest, id, hrun, hsplit⟩

end Explorer

end ArchFlow
