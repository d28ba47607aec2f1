import ArchFlow.Proofs.FactBase.Discovery
import ArchFlow.Proofs.Flow.RecordedHistory

/-!
# Final answers

An attribute of an element is asked for until there is an answer, be it a value or that there is none. From then on the
answer is final: it is given again without asking, whatever becomes of the types of elements and of the sources, and
whoever asks, so that a record shows no further call for it. A failure is no answer. It leaves nothing behind, and the
next one to ask makes the sources be asked again, from the first one on.

* `FactBase.Final.finish`: no request unsettles an answer, and none makes the sources be asked for it.
* `FactBase.Backed.finish`: all that is remembered was answered.
* `FactBase.answers_are_final`: what becomes of answers and of failures in a history.
-/

namespace ArchFlow

variable {ω : Type}

namespace FactBase

variable {b : FactBase ω} {name : String} {id : ElementId} {value : Option String}

/-! ## What is remembered -/

/-- What is remembered was answered to some request, and it is no empty text. -/
def Backed (b : FactBase ω) (past : List (Request ω)) (s : State ω) : Prop :=
  ∀ name id value, s.resolved.lookup (name, id) = some value →
    value ≠ some "" ∧ ∃ s₀, .resolve name id s₀ ∈ past ∧ (b.resolve? name id s₀).1 = .ok value

namespace Backed

variable {past : List (Request ω)}

theorem ne_empty {s : State ω} (h : b.Backed past s) : (b.resolve? name id s).1 ≠ .ok (some "") := by
  intro hempty
  have hway := b.resolution name id s
  generalize b.resolve? name id s = r at hway hempty
  cases hway with
  | unknown => cases hempty
  | failed => cases hempty
  | remembered htype hvalue =>
    cases hempty
    exact (h name id _ hvalue).1 rfl
  | found htype hnew hasked =>
    cases hempty
    exact firstValue_ne_empty (congrArg Prod.fst hasked) rfl

theorem finish {r : Request ω} (h : b.Backed past r.start) : b.Backed (past ++ [r]) (r.finish b) := by
  have hbefore : ∀ name id value, r.start.resolved.lookup (name, id) = some value →
      value ≠ some "" ∧ ∃ s₀, .resolve name id s₀ ∈ past ++ [r] ∧ (b.resolve? name id s₀).1 = .ok value :=
    fun name id value hvalue => by
      obtain ⟨hne, s₀, hs₀, hanswer⟩ := h name id value hvalue
      exact ⟨hne, s₀, List.mem_append_left _ hs₀, hanswer⟩
  intro name id value hvalue
  cases r with
  | targets link source s =>
    rw [Request.finish, targets_resolved] at hvalue
    exact hbefore name id value hvalue
  | resolve name' id' s =>
    rcases b.resolve?_lookup name' id' s (name, id) with hsame | ⟨hkey, answer, hlookup, hanswer⟩
    · exact hbefore name id value (hsame.symm.trans hvalue)
    · cases hkey
      cases hlookup.symm.trans hvalue
      exact ⟨fun hempty => h.ne_empty (hempty ▸ hanswer), s, List.mem_append_right _ List.mem_cons_self, hanswer⟩

end Backed

/-! ## What is asked for -/

/-- Since the events nobody was asked for the attribute. -/
def Unasked (name : String) (id : ElementId) (events : List (Event ω)) (r : Recorded ω) : Prop :=
  ∃ since, r.events = events ++ since ∧ ∀ e ∈ since, e.call ≠ .attribute name id

theorem Unasked.record {α : Type} {events : List (Event ω)} {r : Recorded ω} (h : Unasked name id events r)
    {call : α → Call} (hcall : ∀ a, call a ≠ .attribute name id) (act : ω → α × ω) :
    Unasked name id events (ArchFlow.record call act r).2 := by
  obtain ⟨since, hsince, hothers⟩ := h
  refine ⟨since ++ [⟨call (act r.world).1, r.world, (act r.world).2⟩], ?_, fun e he => ?_⟩
  · rw [ArchFlow.record, hsince, List.append_assoc]
  · rcases List.mem_append.1 he with he | he
    · exact hothers e he
    · cases List.mem_singleton.1 he
      exact hcall _

/-- The answer is remembered of a known element, and since the events nobody was asked for it. -/
structure Final (b : FactBase ω) (name : String) (id : ElementId) (value : Option String) (events : List (Event ω))
    (s : State (Recorded ω)) : Prop where
  known : b.recorded.contains s id = true
  remembered : s.resolved.lookup (name, id) = some value
  unasked : Unasked name id events s.world

namespace Final

variable {events : List (Event ω)} {s : State (Recorded ω)}

theorem of_ok (h : (b.recorded.resolve? name id s).1 = .ok value) :
    b.Final name id value (b.recorded.resolve? name id s).2.world.events (b.recorded.resolve? name id s).2 where
  known := (remembered_of_ok h).1
  remembered := (remembered_of_ok h).2
  unasked := ⟨[], (List.append_nil _).symm, fun _ he => by cases he⟩

theorem resolve? (h : b.Final name id value events s) : b.recorded.resolve? name id s = (.ok value, s) :=
  resolve?_of_remembered h.known h.remembered

/-- Looks at signals are no requests for attributes. -/
theorem look (h : b.Final name id value events s) (signal : Signal ω) :
    b.Final name id value events { s with world := (record .look signal s.world).2 } where
  known := h.known
  remembered := h.remembered
  unasked := h.unasked.record (fun _ => Call.noConfusion) signal

/-- No request unsettles an answer, and none makes the sources be asked for it. -/
theorem finish {r : Request (Recorded ω)} (h : b.Final name id value events r.start) :
    b.Final name id value events (r.finish b.recorded) := by
  have hknown : b.recorded.contains (r.finish b.recorded) id = true := (Unambiguous.keeps_contains id).finish h.known
  cases r with
  | targets link source s =>
    refine ⟨hknown, ?_, ?_⟩
    · rw [Request.finish, targets_resolved]
      exact h.remembered
    · exact targets_recorded_keeps (fun _ _ _ hr => hr.record (fun _ => Call.noConfusion) _) s h.unasked
  | resolve name' id' s =>
    by_cases hkey : (name, id) = (name', id')
    · -- the answer is read back, and the state stays as it is
      cases hkey
      have hs : b.Final name id value events s := h
      rwa [Request.finish, hs.resolve?]
    · refine ⟨hknown, ?_, ?_⟩
      · rcases b.recorded.resolve?_lookup name' id' s (name, id) with hsame | ⟨hsame, -⟩
        · exact hsame.trans h.remembered
        · exact absurd hsame hkey
      · refine resolve?_recorded_keeps (fun _ _ _ hr => hr.record (fun _ hcall => hkey ?_) _) s h.unasked
        cases hcall
        rfl

end Final

/-- All answers that were given are final. -/
def AllFinal (b : FactBase ω) (past : List (Request (Recorded ω))) (s : State (Recorded ω)) : Prop :=
  ∀ name id s₀ value, .resolve name id s₀ ∈ past → (b.recorded.resolve? name id s₀).1 = .ok value →
    b.Final name id value (b.recorded.resolve? name id s₀).2.world.events s

namespace AllFinal

variable {past : List (Request (Recorded ω))} {s : State (Recorded ω)}

theorem nil : b.AllFinal [] s := fun _ _ _ _ hs₀ => by cases hs₀

theorem look (h : b.AllFinal past s) (signal : Signal ω) :
    b.AllFinal past { s with world := (record .look signal s.world).2 } :=
  fun name id s₀ value hs₀ hanswer => (h name id s₀ value hs₀ hanswer).look signal

theorem finish {r : Request (Recorded ω)} (h : b.AllFinal past r.start) :
    b.AllFinal (past ++ [r]) (r.finish b.recorded) := by
  intro name id s₀ value hs₀ hanswer
  rcases List.mem_append.1 hs₀ with hs₀ | hs₀
  · exact (h name id s₀ value hs₀ hanswer).finish
  · cases List.mem_singleton.1 hs₀
    exact .of_ok hanswer

end AllFinal

/-- Asking in turn asks the first source that fits, and maybe others after it. -/
theorem firstValue_asks {type : ElementType} {rs : List (AttributeSource ω)} (hname : ∀ r ∈ rs, r.name = name)
    (hfits : ∃ r ∈ rs, type.fits r.elementType = true) :
    ∀ w : Recorded ω, ∃ e since, (firstValue id type (rs.map recordedAttribute) w).2.events = w.events ++ e :: since ∧
      e.call = .attribute name id := by
  induction rs with
  | nil =>
    obtain ⟨r, hr, -⟩ := hfits
    cases hr
  | cons r rs ih =>
    intro w
    have hhead : (recordedAttribute r).elementType = r.elementType := rfl
    rw [List.map_cons, firstValue_cons, hhead]
    by_cases hr : type.fits r.elementType = true
    · let P : Recorded ω → Prop := fun w' =>
        ∃ e since, w'.events = w.events ++ e :: since ∧ e.call = .attribute name id
      have hasked : P ((recordedAttribute r).load id w).2 :=
        ⟨_, [], rfl, congrArg (Call.attribute · id) (hname r List.mem_cons_self)⟩
      -- what is recorded later comes after this request
      have hrest : P (firstValue id type (rs.map recordedAttribute) ((recordedAttribute r).load id w).2).2 := by
        refine firstValue_keeps id type (fun r' hr' w' hw' => ?_) _ hasked
        obtain ⟨q, -, rfl⟩ := List.mem_map.1 hr'
        obtain ⟨e, since, hevents, hcall⟩ := hw'
        refine ⟨e, since ++ [⟨.attribute q.name id, w'.world, (q.load id w'.world).2⟩], ?_, hcall⟩
        show w'.events ++ [_] = _
        rw [hevents, List.append_assoc, List.cons_append]
      rw [if_pos hr]
      split
      · exact hasked
      · split
        · exact hasked
        · exact hrest
    · rw [if_neg hr]
      refine ih (fun r hr => hname r (List.mem_cons_of_mem _ hr)) ?_ w
      obtain ⟨r', hr', hfits'⟩ := hfits
      rcases List.mem_cons.1 hr' with rfl | hr'
      · exact absurd hfits' hr
      · exact ⟨r', hr', hfits'⟩

/-! ## Histories -/

/-- What becomes of the requests for an attribute of an element until a moment of a recorded history. -/
structure FinalAnswers (b : FactBase ω) (m : Moment (Recorded ω)) (name : String) (id : ElementId) : Prop where
  /-- An answer that was given is given again, and changes nothing; nobody was asked since. -/
  answered : ∀ s value, .resolve name id s ∈ m.past → (b.recorded.resolve? name id s).1 = .ok value →
    b.recorded.resolve? name id m.state = (.ok value, m.state) ∧
      b.recorded.resolve name id m.state =
        (match value with
          | some text => .ok text
          | none => .error (.attributeNotApplicable name id), m.state) ∧
      Unasked name id (b.recorded.resolve? name id s).2.world.events m.state.world
  /-- As long as there were failures only, the sources are asked in turn; the first one that fits is asked anyway. -/
  unanswered : (∀ s, .resolve name id s ∈ m.past → ∃ failure, (b.recorded.resolve? name id s).1 = .error failure) →
    ∀ type, b.recorded.typeOf? m.state id = some type →
      (b.recorded.resolve? name id m.state).1 = (firstValue id type (b.recorded.sourcesOf name) m.state.world).1 ∧
        ((∃ r ∈ b.sourcesOf name, type.fits r.elementType = true) →
          ∃ e since, (b.recorded.resolve? name id m.state).2.world.events = m.state.world.events ++ e :: since ∧
            e.call = .attribute name id)
  /-- A failure leaves types and answers as they are. -/
  failed : ∀ failure s, b.recorded.resolve? name id m.state = (.error failure, s) →
    s = { m.state with world := s.world }
  /-- The empty text is no answer. -/
  nonempty : (b.recorded.resolve? name id m.state).1 ≠ .ok (some "")

/-- **Answers are final, failures are not.** Let a history be recorded, which makes no difference to its moments nor to
the answers at them. At each moment, be it in the middle of a flow or of a label, whatever the sources do and however
types have grown: an attribute that some request has got an answer for goes on to have this answer, which is never the
empty text, and nobody was asked for it since; one that requests have got failures for only is asked for again; and a
failure changes nothing but the world. -/
theorem answers_are_final (b : FactBase ω) (history : List (Query ω)) (w : ω) :
    (b.recordedMoments history w).map Moment.unrecorded = b.momentsOf history w ∧
      (∀ name id s, (b.recorded.resolve? name id s).1 = (b.resolve? name id s.unrecorded).1) ∧
      ∀ m ∈ b.recordedMoments history w, ∀ name id, b.FinalAnswers m name id := by
  refine ⟨b.momentsOf_recorded history w, fun name id s => (resolve?_recorded name id s).1, fun m hm name id => ?_⟩
  have hfinal : b.AllFinal m.past m.state :=
    recorded_keeps (fun _ _ signal hs => hs.look signal) (fun _ _ hr => hr.finish) AllFinal.nil hm
  have hbacked : b.recorded.Backed m.past m.state :=
    recorded_keeps (fun _ _ _ hs => hs) (fun _ _ hr => hr.finish) (fun _ _ _ hvalue => by cases hvalue) hm
  refine ⟨fun s value hs hanswer => ?answered, fun hfailures type htype => ?unanswered,
    fun _ _ => state_of_error, hbacked.ne_empty⟩
  case answered =>
    have hanswered := hfinal name id s value hs hanswer
    refine ⟨hanswered.resolve?, ?_, hanswered.unasked⟩
    rw [resolve, hanswered.resolve?]
    cases value <;> rfl
  case unanswered =>
    have hnew : m.state.resolved.lookup (name, id) = none := by
      refine Option.eq_none_iff_forall_ne_some.2 fun value hvalue => ?_
      obtain ⟨-, s, hs, hanswer⟩ := hbacked name id value hvalue
      obtain ⟨failure, hfailure⟩ := hfailures s hs
      cases hanswer.symm.trans hfailure
    obtain ⟨hanswer, hworld⟩ := resolve?_of_new htype hnew
    refine ⟨hanswer, fun hfits => ?_⟩
    rw [hworld, sourcesOf, filter_recordedAttribute]
    exact firstValue_asks (fun r hr => of_decide_eq_true (List.mem_filter.1 hr).2) hfits m.state.world

/-! ### A source that fails at first -/

/-- A service with a route. The world counts the requests for it: the first one fails, the second one finds a route,
and any later one would find another. -/
def flaky : Registry Nat where
  roots := [⟨ElementKind.type .appService, .constant [⟨"a", ElementKind.type .appService⟩]⟩]
  attributes := [⟨ElementKind.type .appService, Attribute.route, fun _ w =>
    (if w = 0 then .error (.provider (.reported "unavailable")) else .ok (some (if w = 1 then "/one" else "/more")),
      w + 1)⟩]

/-- What it comes to. -/
def flakyBase : FactBase Nat where
  slots := [⟨ElementKind.type .appService, [⟨"a", ElementKind.type .appService⟩]⟩]
  types := [("a", ElementKind.type .appService)]
  attributes := flaky.attributes
  links := []

theorem build_flaky : flaky.build 0 = (.ok flakyBase, 0) := by
  rw [Registry.build]
  cbv

/-- The route is asked for, then a flow shows it, then it is asked for to label the service. -/
def flakyHistory : List (Query Nat) :=
  [.resolve Attribute.route "a", .flow { Profile.architecture with linkTypes := [], attributeNames := [Attribute.route] }
    .never "a" 1, .label "a"]

/-- After the failure the source is asked again; the flow has got the answer, and it is final, although the source would
tell something else by now. -/
theorem answers_are_final_flaky :
    flaky.build 0 = (.ok flakyBase, 0) ∧
      (∃ m ∈ flakyBase.recordedMoments flakyHistory 0,
        (∃ s, .resolve Attribute.route "a" s ∈ m.past) ∧
        ∃ e since, (flakyBase.recorded.resolve? Attribute.route "a" m.state).2.world.events =
          m.state.world.events ++ e :: since ∧ e.call = .attribute Attribute.route "a") ∧
      ∃ m ∈ flakyBase.recordedMoments flakyHistory 0,
        flakyBase.recorded.resolve? Attribute.route "a" m.state = (.ok (some "/one"), m.state) ∧
        flakyBase.recorded.resolve Attribute.route "a" m.state = (.ok "/one", m.state) ∧
        (firstValue "a" (ElementKind.type .appService) (flakyBase.sourcesOf Attribute.route) m.state.world.world).1 =
          .ok (some "/more") := by
  obtain ⟨-, -, h⟩ := answers_are_final flakyBase flakyHistory 0
  let m := (flakyBase.recordedMoments flakyHistory 0).get ⟨1, by decide +kernel⟩
  let m' := (flakyBase.recordedMoments flakyHistory 0).get ⟨7, by decide +kernel⟩
  have hm : m ∈ flakyBase.recordedMoments flakyHistory 0 := List.get_mem _ _
  have hm' : m' ∈ flakyBase.recordedMoments flakyHistory 0 := List.get_mem _ _
  refine ⟨build_flaky, ⟨m, hm, ?asked, ?again⟩, m', hm', ?final⟩
  case asked => exact ⟨.fresh ⟨0, []⟩, List.mem_cons_self⟩
  case again =>
    have hfailures : ∀ s, .resolve Attribute.route "a" s ∈ m.past →
        ∃ failure, (flakyBase.recorded.resolve? Attribute.route "a" s).1 = .error failure := fun s hs => by
      cases List.mem_singleton.1 hs
      exact ⟨_, rfl⟩
    have hknown : flakyBase.recorded.typeOf? m.state "a" = some (ElementKind.type .appService) := rfl
    exact ((h m hm Attribute.route "a").unanswered hfailures _ hknown).2
      ⟨_, List.mem_cons_self, by decide +kernel⟩
  case final =>
    let s := (m'.past.get ⟨1, by decide +kernel⟩).start
    have hs : .resolve Attribute.route "a" s ∈ m'.past := List.get_mem m'.past ⟨1, by decide +kernel⟩
    have hanswer : (flakyBase.recorded.resolve? Attribute.route "a" s).1 = .ok (some "/one") := by rfl
    obtain ⟨htry, hget, -⟩ := (h m' hm' Attribute.route "a").answered s _ hs hanswer
    exact ⟨htry, hget, by rfl⟩

end FactBase

end ArchFlow
