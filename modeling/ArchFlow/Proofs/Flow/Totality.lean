import ArchFlow.Proofs.FactBase.Interruption
import ArchFlow.Proofs.FactBase.Merging
import ArchFlow.Proofs.Flow.Cancellation

/-!
# Which flows fail

A flow fails only if its root is not known. What is known at a moment can be told from the build and from the requests
so far: the elements that were enumerated, and those that an exploration has come upon, be it that it returned them or
that it failed after it had found them. Registered elements are known in every state, so the flows from the roots of a
type all go well, whatever the sources of attributes and links do.

* `Request.ComesUpon`: what a request finds, also on its way to a failure.
* `FactBase.contains_moment`: the elements that are known at a moment of a history.
* `Explorer.flows_of_contained`: roots that are known in every state have a tree each.
* `Explorer.only_unknown_roots_fail`: which flows fail, and how.
-/

namespace ArchFlow

variable {ω : Type}

/-! ## What is known -/

/-- The request finds the element: an exploration returns it, or fails after it was found. -/
inductive Request.ComesUpon (b : FactBase ω) (e : Element) : Request ω → Prop
  | returned {link : LinkType} {source : ElementId} {s : State ω} {es : List Element}
      (hes : (b.targets link source s).1 = .ok es) (he : e ∈ es) : ComesUpon b e (.targets link source s)
  | interrupted {link : LinkType} {source : ElementId} {s : State ω} {failure : Failure} {found : List Element}
      (hfound : b.Interrupted link source s failure found (b.targets link source s).2) (he : e ∈ found) :
      ComesUpon b e (.targets link source s)

namespace FactBase

variable {b : FactBase ω} {id : ElementId}

/-- Some request so far has found the element. -/
def Discovered (b : FactBase ω) (past : List (Request ω)) (id : ElementId) : Prop :=
  ∃ r ∈ past, ∃ e : Element, r.ComesUpon b e ∧ e.id = id

theorem discovered_concat {past : List (Request ω)} {r : Request ω} :
    b.Discovered (past ++ [r]) id ↔ b.Discovered past id ∨ ∃ e : Element, r.ComesUpon b e ∧ e.id = id := by
  simp only [Discovered, List.mem_append, List.mem_singleton, or_and_right, exists_or, exists_eq_left]

/-- What is remembered from an exploration is known afterwards, and nothing else that was not known before. -/
theorem contains_of_remembered {s s' : State ω} {found : List Element} (hmet : s'.met = found.foldl b.remember s.met) :
    b.contains s' id = true ↔ b.contains s id = true ∨ ∃ e ∈ found, e.id = id := by
  show (b.typeGiven? s'.met id).isSome = true ↔ (b.typeGiven? s.met id).isSome = true ∨ _
  rw [hmet, known_foldl_remember, List.mem_map]

/-- What a request comes upon is known afterwards. -/
theorem contains_of_comesUpon {r : Request ω} {e : Element} (h : r.ComesUpon b e) :
    b.contains (r.finish b) e.id = true := by
  cases h with
  | returned hes he => exact targets_found hes e he
  | interrupted hfound he => exact (contains_of_remembered hfound.met_eq).2 (.inr ⟨e, he, rfl⟩)

/-- What a request makes known it has come upon. -/
theorem comesUpon_of_contains {r : Request ω} (h : b.contains (r.finish b) id = true) :
    b.contains r.start id = true ∨ ∃ e : Element, r.ComesUpon b e ∧ e.id = id := by
  cases r with
  | resolve name id' s =>
    have hmet : (b.resolve? name id' s).2.met = s.met := resolve?_met name id' s
    exact .inl (by rwa [Request.finish, contains, typeOf?, hmet] at h)
  | targets link source s =>
    cases hanswer : (b.targets link source s).1 with
    | ok es =>
      refine ((contains_of_remembered (targets_met_of_ok hanswer)).1 h).imp_right ?_
      rintro ⟨e, he, hid⟩
      exact ⟨e, .returned hanswer he, hid⟩
    | error failure =>
      obtain ⟨found, hfound⟩ := interrupted_of_error hanswer
      refine ((contains_of_remembered hfound.met_eq).1 h).imp_right ?_
      rintro ⟨e, he, hid⟩
      exact ⟨e, .interrupted hfound he, hid⟩

/-- A request makes known what it comes upon, and nothing else. -/
theorem contains_finish (r : Request ω) :
    b.contains (r.finish b) id = true ↔ b.contains r.start id = true ∨ ∃ e : Element, r.ComesUpon b e ∧ e.id = id := by
  constructor
  · exact comesUpon_of_contains
  · rintro (hknown | ⟨e, hfinds, rfl⟩)
    · exact (Unambiguous.keeps_contains id).finish hknown
    · exact contains_of_comesUpon hfinds

/-- At a moment of a history the registered elements are known, and those that were discovered until then. -/
theorem contains_moment (history : List (Query ω)) (w : ω) {m : Moment ω} (hm : m ∈ b.momentsOf history w) :
    b.contains m.state id = true ↔ (b.types.lookup id).isSome = true ∨ b.Discovered m.past id := by
  refine (b.leads_requestsOf history _).keeps
    (I := fun past s => b.contains s id = true ↔ (b.types.lookup id).isSome = true ∨ b.Discovered past id)
    (fun _ _ _ hs => hs) (fun past r hr => ?_) [] ?_ m hm
  · rw [contains_finish, hr, discovered_concat, or_assoc]
  · have hnothing : ¬ b.Discovered [] id := fun ⟨_, hr, _⟩ => by cases hr
    rw [contains, typeOf?, State.fresh, List.lookup_nil, Option.or_none, or_iff_left hnothing]

/-- Registered elements are known in every state. -/
theorem contains_of_declared (ht : b.types = typeTable b.slots) {type : ElementType} (h : b.Declares id type)
    (s : State ω) : b.contains s id = true := by
  obtain ⟨known, hknown⟩ := Option.isSome_iff_exists.1 ((registered_iff ht).2 ⟨type, h⟩)
  rw [contains, typeOf?_of_lookup hknown, Option.isSome_some]

theorem declares_of_mem_rootsOf {type : ElementType} {e : Element} (h : e ∈ b.rootsOf type) :
    b.Declares e.id e.type := by
  obtain ⟨slot, hslot, he⟩ := List.mem_flatMap.1 (List.mem_filter.1 (mem_of_mem_firstById h)).1
  exact ⟨slot, hslot, e, he, rfl, rfl⟩

end FactBase

/-! ## Flows -/

namespace Explorer

variable {x : Explorer ω}

/-- Roots that are known in every state have a tree each. -/
theorem flows_of_contained (depth : UInt64) {roots : List ElementId}
    (h : ∀ id ∈ roots, ∀ s, x.base.contains s id = true) :
    ∀ s, ∃ ts s', x.flows depth roots s = (.ok ts, s') ∧ ts.map (fun t => (t.id, t.via)) = roots.map (·, none) := by
  induction roots with
  | nil => intro s; exact ⟨[], s, rfl, rfl⟩
  | cons root roots ih =>
    intro s
    obtain ⟨ts, s', hts, hroots⟩ := ih (fun id hid => h id (List.mem_cons_of_mem _ hid))
      (x.expand depth.toNat root none ⟨[], s⟩).2.state
    refine ⟨(x.expand depth.toNat root none ⟨[], s⟩).1 :: ts, s', ?_, ?_⟩
    · rw [flows, flow_of_contains (h root List.mem_cons_self s)]
      dsimp only
      rw [hts]
    · rw [List.map_cons, root_of_expand, hroots, List.map_cons]

theorem flow_error_iff {root : ElementId} {depth : UInt64} {s : State ω} :
    (∃ failure, (x.flow root depth s).1 = .error failure) ↔ x.base.contains s root = false := by
  cases hknown : x.base.contains s root with
  | true =>
    rw [flow_of_contains hknown]
    refine iff_of_false ?_ Bool.noConfusion
    rintro ⟨_, h⟩
    cases h
  | false =>
    rw [flow_of_unknown hknown]
    exact iff_of_true ⟨_, rfl⟩ rfl

/-- **Only an unknown root fails.** Let a fact base be built, whatever its sources of attributes and links do, and be
queried. At every moment of the history, be it in the middle of a flow, a flow fails exactly if its root is not
registered and no exploration has found it until then, be it one that failed later on; the failure is that the root is
not known, and the flow neither asks for anything nor changes the state. The flows from the roots of a type never fail:
in every state there is exactly one tree for each registered element of the type, in their order, and it starts from
this element, which no link led to. -/
theorem only_unknown_roots_fail {r : Registry ω} {w w' : ω} {b : FactBase ω} (hb : r.build w = (.ok b, w'))
    (profile : Profile) (signal : Signal ω) (depth : UInt64) :
    let x : Explorer ω := ⟨b, profile, signal⟩
    (∀ history w₀, ∀ m ∈ b.momentsOf history w₀, ∀ root,
      ((∃ failure, (x.flow root depth m.state).1 = .error failure) ↔
        ¬ ((∃ type, b.Declares root type) ∨ b.Discovered m.past root)) ∧
      ((∃ failure, (x.flow root depth m.state).1 = .error failure) →
        x.flow root depth m.state = (.error (.unknownElement root), m.state) ∧
        x.recorded.flow root depth m.state.recording = (.error (.unknownElement root), m.state.recording))) ∧
    ∀ type s, ∃ ts s', x.flowsOf type depth s = (.ok ts, s') ∧
      ts.map (fun t => (t.id, t.via)) = (b.rootsOf type).map fun e => (e.id, none) := by
  intro x
  have htypes := FactBase.types_of_build hb
  refine ⟨fun history w₀ m hm root => ⟨?iff, fun h => ?error⟩, fun type s => ?all⟩
  case iff =>
    rw [flow_error_iff, ← FactBase.registered_iff htypes, ← FactBase.contains_moment history w₀ hm,
      Bool.not_eq_true]
  case error =>
    have hunknown : x.base.contains m.state root = false := flow_error_iff.1 h
    have hrecorded : x.recorded.base.contains m.state.recording root = false := hunknown
    exact ⟨flow_of_unknown hunknown depth, flow_of_unknown hrecorded depth⟩
  case all =>
    have hknown : ∀ id ∈ (b.rootsOf type).map (·.id), ∀ s, x.base.contains s id = true := fun id hid s => by
      obtain ⟨e, he, rfl⟩ := List.mem_map.1 hid
      exact FactBase.contains_of_declared htypes (FactBase.declares_of_mem_rootsOf he) s
    obtain ⟨ts, s', hts, hroots⟩ := flows_of_contained depth hknown s
    refine ⟨ts, s', hts, ?_⟩
    rw [hroots, List.map_map]
    rfl

/-! ### Flows next to an outage -/

theorem build_outage : FactBase.outage.build () = (.ok FactBase.outageBase, ()) := by
  rw [Registry.build]
  cbv

/-- Flows over calls. -/
def outageCalls : Explorer Unit := ⟨FactBase.outageBase, FactBase.callProfile, .never⟩

/-- The exploration of the service fails after it has found the table. From then on a flow may start from the table,
while it fails from an element that nothing tells of, and there is a flow from the service. -/
theorem only_unknown_roots_fail_outage :
    FactBase.outage.build () = (.ok FactBase.outageBase, ()) ∧
      ∃ m ∈ FactBase.outageBase.momentsOf [.targets (LinkKind.type .calls) "a"] (),
        FactBase.outageBase.Discovered m.past "x" ∧ (¬ ∃ failure, (outageCalls.flow "x" 1 m.state).1 = .error failure) ∧
        outageCalls.flow "y" 1 m.state = (.error (.unknownElement "y"), m.state) ∧
        ∃ ts s', outageCalls.flowsOf (ElementKind.type .appService) 1 m.state = (.ok ts, s') ∧
          ts.map (fun t => (t.id, t.via)) = [("a", none)] := by
  let m := (FactBase.outageBase.momentsOf [.targets (LinkKind.type .calls) "a"] ()).get ⟨1, by decide +kernel⟩
  have hm : m ∈ FactBase.outageBase.momentsOf [.targets (LinkKind.type .calls) "a"] () := List.get_mem _ _
  obtain ⟨hfails, hall⟩ := only_unknown_roots_fail build_outage FactBase.callProfile .never 1
  have hx : ¬ ∃ failure, (outageCalls.flow "x" 1 m.state).1 = .error failure := by
    rw [flow_error_iff]
    decide +kernel
  have hy : ∃ failure, (outageCalls.flow "y" 1 m.state).1 = .error failure := by
    rw [flow_error_iff]
    decide +kernel
  have hunregistered : ¬ ∃ type, FactBase.outageBase.Declares "x" type := by
    rintro ⟨type, slot, hslot, e, he, hid, -⟩
    cases List.mem_singleton.1 hslot
    cases List.mem_singleton.1 he
    exact absurd hid (by decide)
  refine ⟨build_outage, m, hm, ?found, hx, ((hfails _ () m hm "y").2 hy).1, ?all⟩
  case found => exact (not_not.1 (mt (hfails _ () m hm "x").1.2 hx)).resolve_left hunregistered
  case all =>
    obtain ⟨ts, s', hts, hroots⟩ := hall (ElementKind.type .appService) m.state
    exact ⟨ts, s', hts, hroots.trans (by decide +kernel)⟩

end Explorer

end ArchFlow
