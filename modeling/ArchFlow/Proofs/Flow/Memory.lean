import ArchFlow.Proofs.Flow.Growth

/-!
# What is remembered of attributes

Values of attributes are resolved once and then remembered, and so is that there is none. What a source has to say
depends on the type of the element, and the type of an element that is not registered may grow after it was asked for.
So an attribute goes on to have the value that it had when it was first asked for; it is the value that it has now if
the type has not grown since, as it does not for registered elements, or if what has come to it makes no difference.

* `FactBase.firstGiven`: the value that sources give an element of a type.
* `FactBase.firstAsked`: the type of an element when an attribute of it was first asked for.
* `FactBase.resolved_as_first_asked`: what an attribute is resolved to, with and without the memory.
* `FactBase.memory_goes_stale`: a value that is never found, since it was first asked for too early.
-/

namespace ArchFlow

variable {ω : Type}

/-- The state with all values of attributes forgotten. -/
def State.forgetful (s : State ω) : State ω := { s with resolved := [] }

/-- The type of the element if the request is for the attribute and the element is known. -/
def Request.typeAsked? (b : FactBase ω) (name : String) (id : ElementId) : Request ω → Option ElementType
  | .resolve name' id' s => if (name', id') = (name, id) then b.typeOf? s id else none
  | .targets _ _ _ => none

namespace FactBase

variable {b : FactBase ω} {give : AttributeSource ω → ElementId → Option String}

/-- The first value that is not empty among those that the sources of an attribute give, of those whose type describes
an element of the type. -/
def firstGiven (b : FactBase ω) (give : AttributeSource ω → ElementId → Option String) (name : String) (id : ElementId)
    (type : ElementType) : Option String :=
  ((b.sourcesOf name).filter fun r => type.fits r.elementType).findSome? fun r => (give r id).filter (· ≠ "")

/-- The type of an element when an attribute of it was first asked for. -/
def firstAsked (b : FactBase ω) (past : List (Request ω)) (name : String) (id : ElementId) : Option ElementType :=
  past.findSome? (·.typeAsked? b name id)

theorem firstAsked_concat (past : List (Request ω)) (r : Request ω) (name : String) (id : ElementId) :
    b.firstAsked (past ++ [r]) name id = (b.firstAsked past name id).or (r.typeAsked? b name id) := by
  rw [firstAsked, List.findSome?_append, List.findSome?_singleton, firstAsked]

/-! ## Types that were asked for -/

/-- Types have grown since they were asked for. -/
def Outgrown (b : FactBase ω) (past : List (Request ω)) (s : State ω) : Prop :=
  ∀ name id first, b.firstAsked past name id = some first →
    ∃ type, b.typeOf? s id = some type ∧ first.refines type = true ∧
      ((b.types.lookup id).isSome = true → first = type)

theorem Outgrown.grow {past : List (Request ω)} {s s' : State ω} (h : b.Outgrown past s) (hs : b.Grows s s') :
    b.Outgrown past s' := by
  intro name id first hfirst
  obtain ⟨type, htype, hrefines, hregistered⟩ := h name id first hfirst
  obtain ⟨type', htype', hrefines'⟩ := hs.known id type htype
  refine ⟨type', htype', TypeSet.refines_trans hrefines hrefines', fun hid => (hregistered hid).trans ?_⟩
  have hsame := hs.registered id hid
  rw [htype, htype'] at hsame
  exact (Option.some.inj hsame).symm

theorem outgrown_finish {past : List (Request ω)} {r : Request ω} (h : b.Outgrown past r.start) :
    b.Outgrown (past ++ [r]) (r.finish b) := by
  refine Outgrown.grow (fun name id first hfirst => ?_) (b.grows_finish r)
  rw [firstAsked_concat] at hfirst
  rcases Option.or_eq_some_iff.1 hfirst with hpast | ⟨-, hasked⟩
  · exact h name id first hpast
  · refine ⟨first, ?_, first.refines_refl, fun _ => rfl⟩
    cases r with
    | resolve name' id' s =>
      rw [Request.typeAsked?] at hasked
      split at hasked
      · exact hasked
      · cases hasked
    | targets link source s => cases hasked

/-! ## Values that are remembered -/

/-- Values are remembered as they were when they were first asked for. -/
def Recalls (b : FactBase ω) (give : AttributeSource ω → ElementId → Option String) (past : List (Request ω))
    (s : State ω) : Prop :=
  ∀ name id, s.resolved.lookup (name, id) = (b.firstAsked past name id).map (b.firstGiven give name id)

theorem firstValue_of_given {id : ElementId} {rs : List (AttributeSource ω)}
    (h : ∀ r ∈ rs, (r.load id).Steady (.ok (give r id))) (type : ElementType) :
    ∀ w, (firstValue id type rs w).1 =
      .ok ((rs.filter fun r => type.fits r.elementType).findSome? fun r => (give r id).filter (· ≠ "")) := by
  induction rs with
  | nil => intro w; rfl
  | cons r rs ih =>
    intro w
    have ih := ih fun r hr => h r (List.mem_cons_of_mem _ hr)
    rw [firstValue_cons, h r List.mem_cons_self w]
    split
    · next hfits =>
      rw [List.filter_cons, if_pos hfits, List.findSome?_cons]
      dsimp only
      split
      · next hvalue => rw [hvalue]
      · next hvalue => rw [hvalue, ih]
    · next hfits => rw [List.filter_cons, if_neg hfits, ih]

section Given

variable (hgive : ∀ r ∈ b.attributes, ∀ id, (r.load id).Steady (.ok (give r id)))
include hgive

/-- Asking the sources of an attribute in turn finds the first value that they give. -/
theorem firstValue_sourcesOf (name : String) (id : ElementId) (type : ElementType) (w : ω) :
    (firstValue id type (b.sourcesOf name) w).1 = .ok (b.firstGiven give name id type) :=
  firstValue_of_given (fun r hr => hgive r (List.mem_filter.1 hr).1 id) type w

/-- A known element has the value that is remembered, or else the one that sources give it now. -/
theorem resolve?_of_known {s : State ω} {id : ElementId} {type : ElementType} (htype : b.typeOf? s id = some type)
    (name : String) :
    (b.resolve? name id s).1 = .ok ((s.resolved.lookup (name, id)).getD (b.firstGiven give name id type)) := by
  rw [resolve?_fst, htype]
  dsimp only
  cases s.resolved.lookup (name, id) with
  | some value => rfl
  | none => exact firstValue_sourcesOf hgive name id type s.world

/-- What an attribute of a known element is resolved to is remembered, unless something is already. -/
theorem lookup_resolve? (name : String) (id : ElementId) (s : State ω) :
    (b.resolve? name id s).2.resolved.lookup (name, id) =
      (s.resolved.lookup (name, id)).or ((b.typeOf? s id).map (b.firstGiven give name id)) := by
  have hway := b.resolution name id s
  generalize b.resolve? name id s = r at hway ⊢
  cases hway with
  | unknown htype => rw [htype, Option.map_none, Option.or_none]
  | remembered htype hvalue => rw [hvalue, Option.some_or]
  | failed htype hnew hasked =>
    cases (congrArg Prod.fst hasked).symm.trans (firstValue_sourcesOf hgive name id _ s.world)
  | found htype hnew hasked =>
    cases (congrArg Prod.fst hasked).symm.trans (firstValue_sourcesOf hgive name id _ s.world)
    rw [hnew, htype]
    exact List.lookup_cons_self

theorem recalls_finish {past : List (Request ω)} {r : Request ω} (h : b.Recalls give past r.start) :
    b.Recalls give (past ++ [r]) (r.finish b) := by
  intro name id
  rw [firstAsked_concat, Option.map_or, ← h name id]
  cases r with
  | targets link source s =>
    show (b.targets link source s).2.resolved.lookup (name, id) = _
    rw [targets_resolved]
    exact (Option.or_none ..).symm
  | resolve name' id' s =>
    show (b.resolve? name' id' s).2.resolved.lookup (name, id) = _
    rw [Request.typeAsked?]
    by_cases hkey : (name', id') = (name, id)
    · cases hkey
      rw [if_pos rfl]
      exact lookup_resolve? hgive name id s
    · rw [if_neg hkey]
      rcases b.resolve?_lookup name' id' s (name, id) with hsame | ⟨hsame, -⟩
      · exact hsame.trans (Option.or_none ..).symm
      · exact absurd hsame.symm hkey

/-- **An attribute goes on to have the value that it had when it was first asked for.** Let the sources of attributes
give the same values whenever they are asked. At every moment of a history, be it in the middle of a flow, an attribute
of a known element is resolved to the first value that sources give an element of the type which it had when the
attribute was first asked for; with all values forgotten it is the first value that they give an element of its present
type. The two types are the same for registered elements, and for others the second one contains the first. -/
theorem resolved_as_first_asked (history : List (Query ω)) (w : ω) {m : Moment ω} (hm : m ∈ b.momentsOf history w)
    (name : String) {id : ElementId} {type : ElementType} (htype : b.typeOf? m.state id = some type) :
    let first := (b.firstAsked m.past name id).getD type
    (b.resolve? name id m.state).1 = .ok (b.firstGiven give name id first) ∧
      (b.resolve? name id m.state.forgetful).1 = .ok (b.firstGiven give name id type) ∧
      first.refines type = true ∧ ((b.types.lookup id).isSome = true → first = type) := by
  have hleads : b.Leads (.fresh w) (b.requestsOf history (.fresh w)) (b.after history (.fresh w)) :=
    b.leads_requestsOf history _
  have hrecalls : b.Recalls give m.past m.state :=
    hleads.keeps (fun _ _ _ hs => hs) (fun _ _ hr => recalls_finish hgive hr) [] (fun _ _ => rfl) m hm
  have houtgrown : b.Outgrown m.past m.state :=
    hleads.keeps (fun _ _ _ hs => hs) (fun _ _ hr => outgrown_finish hr) []
      (fun _ _ _ hfirst => by cases hfirst) m hm
  refine ⟨?_, resolve?_of_known hgive (s := m.state.forgetful) htype name, ?_⟩
  · rw [resolve?_of_known hgive htype name, hrecalls name id]
    cases b.firstAsked m.past name id <;> rfl
  · cases hfirst : b.firstAsked m.past name id with
    | none => exact ⟨type.refines_refl, fun _ => rfl⟩
    | some first =>
      obtain ⟨type', htype', hrefines, hregistered⟩ := houtgrown name id first hfirst
      cases htype.symm.trans htype'
      exact ⟨hrefines, hregistered⟩

end Given

/-! ### A value that is first asked for too early -/

/-- The element that is met first as a table and then as a repository has a name, which only repositories have. -/
def namedEncounter : Registry Nat :=
  { encounter (ElementKind.type .repository) with
    attributes := [⟨ElementKind.type .repository, "name", fun id => .constant (if id = "x" then some "v" else none)⟩] }

/-- What it comes to. -/
def namedEncounterBase : FactBase Nat :=
  { encounterBase (ElementKind.type .repository) with attributes := namedEncounter.attributes }

/-- The name is asked for when the element was met as a table only. -/
def earlyRequest : List (Query Nat) :=
  [.targets (LinkKind.type .calls) "a", .resolve "name" "x", .targets (LinkKind.type .calls) "b"]

/-- The name that a source gives. -/
def givenName (_ : AttributeSource Nat) (id : ElementId) : Option String := if id = "x" then some "v" else none

theorem namedEncounter_gives :
    ∀ r ∈ namedEncounterBase.attributes, ∀ id, (r.load id).Steady (.ok (givenName r id)) := by
  intro r hr id w
  cases List.mem_singleton.1 hr
  rfl

/-- The element is a repository by now, and would have a name if nobody had asked for it before. -/
theorem memory_goes_stale :
    namedEncounter.build 0 = (.ok namedEncounterBase, 0) ∧
      (∀ r ∈ namedEncounterBase.attributes, ∀ id, (r.load id).Steady (.ok (givenName r id))) ∧
      (∀ r ∈ namedEncounterBase.links, ∀ id, ∃ es, (r.load id).Steady (.ok es)) ∧
      let s := namedEncounterBase.after earlyRequest (.fresh 0)
      (namedEncounterBase.typeOf? s "x").any (·.fits (ElementKind.type .repository)) = true ∧
        (namedEncounterBase.resolve? "name" "x" s).1 = .ok none ∧
        (namedEncounterBase.resolve? "name" "x" s.forgetful).1 = .ok (some "v") := by
  let s := namedEncounterBase.after earlyRequest (.fresh 0)
  have htype : namedEncounterBase.typeOf? s "x" =
      some ((ElementKind.type .dbTable).union (ElementKind.type .repository)) := by decide +kernel
  refine ⟨?build, namedEncounter_gives, fun r hr id => ?links, ?type,
    (resolve?_of_known namedEncounter_gives htype "name").trans (congrArg Except.ok ?remembered),
    (resolve?_of_known namedEncounter_gives (s := s.forgetful) htype "name").trans (congrArg Except.ok ?forgotten)⟩
  case build =>
    rw [Registry.build]
    cbv
  case links =>
    cases List.mem_singleton.1 hr
    exact ⟨_, fun _ => rfl⟩
  case type => decide +kernel
  case remembered => decide +kernel
  case forgotten => decide +kernel

/-- It has no name, as a table has none; as a table and a repository it has one. -/
theorem resolved_as_first_asked_encounter :
    ∃ m ∈ namedEncounterBase.momentsOf earlyRequest 0,
      namedEncounterBase.firstAsked m.past "name" "x" = some (ElementKind.type .dbTable) ∧
        namedEncounterBase.typeOf? m.state "x" =
          some ((ElementKind.type .dbTable).union (ElementKind.type .repository)) ∧
        (namedEncounterBase.resolve? "name" "x" m.state).1 = .ok none ∧
        (namedEncounterBase.resolve? "name" "x" m.state.forgetful).1 = .ok (some "v") := by
  let m := (namedEncounterBase.momentsOf earlyRequest 0).get ⟨3, by decide +kernel⟩
  have hm : m ∈ namedEncounterBase.momentsOf earlyRequest 0 := List.get_mem _ _
  have htype : namedEncounterBase.typeOf? m.state "x" =
      some ((ElementKind.type .dbTable).union (ElementKind.type .repository)) := by decide +kernel
  have hfirst : namedEncounterBase.firstAsked m.past "name" "x" = some (ElementKind.type .dbTable) := by decide +kernel
  obtain ⟨hremembered, hforgotten, -⟩ :=
    resolved_as_first_asked namedEncounter_gives earlyRequest 0 hm "name" htype
  rw [hfirst] at hremembered
  refine ⟨m, hm, hfirst, htype, hremembered.trans (congrArg Except.ok ?table),
    hforgotten.trans (congrArg Except.ok ?both)⟩
  case table => decide +kernel
  case both => decide +kernel

end FactBase

end ArchFlow
