import ArchFlow.Proofs.FactBase.Discovery
import ArchFlow.Proofs.FactBase.Freezing
import ArchFlow.Proofs.Flow.Repetition
import ArchFlow.Proofs.Flow.Requests
import ArchFlow.Proofs.TypeSet.Meaning

/-!
# How types grow

Registered elements keep their types. An element that is not registered becomes known when an exploration finds it,
and its type grows with every type under which it is found, so that in the end it is the union of all of them: it makes
no difference in which order explorations went, nor which of them a flow made on its way.

* `FactBase.Grows`: what may become of the types of a state.
* `FactBase.grows_finish`: a request makes types grow, and `FactBase.account_finish`: by what it finds.
* `FactBase.discovered_types`: the types at all moments of a history.
-/

namespace ArchFlow

variable {ω : Type}

namespace Request

/-- The elements that the request returns: those that an exploration finds, if it does not fail. -/
def returned (b : FactBase ω) : Request ω → List Element
  | .targets link source s => (b.targets link source s).1.toOption.getD []
  | .resolve _ _ _ => []

/-- Whether a source of links fails: then the exploration of a known element does. -/
def fails (b : FactBase ω) : Request ω → Bool
  | .targets link source s => b.contains s source && !(b.targets link source s).1.isOk
  | .resolve _ _ _ => false

end Request

namespace FactBase

variable {b : FactBase ω} {s s' s'' : State ω} {id : ElementId}

/-- Where no source of links ever fails, no request does. -/
theorem fails_of_sources (h : ∀ r ∈ b.links, ∀ id w, ∃ es, (r.load id w).1 = .ok es) (r : Request ω) :
    r.fails b = false := by
  cases r with
  | resolve name id s => rfl
  | targets link source s =>
    rw [Request.fails]
    cases hknown : b.contains s source with
    | false => rfl
    | true =>
      obtain ⟨es, hes⟩ := targets_ok h hknown link
      rw [hes]
      rfl

/-! ## Growing -/

/-- Types grow from one state to another: registered elements keep them, and known ones stay known, with a type that
contains the one before. -/
structure Grows (b : FactBase ω) (s s' : State ω) : Prop where
  registered : ∀ id, (b.types.lookup id).isSome = true → b.typeOf? s' id = b.typeOf? s id
  known : ∀ id type, b.typeOf? s id = some type → ∃ type', b.typeOf? s' id = some type' ∧ type.refines type' = true

namespace Grows

theorem of_met (h : s'.met = s.met) : b.Grows s s' where
  registered id _ := by rw [typeOf?, typeOf?, h]
  known id type htype := ⟨type, by rw [typeOf?, h]; exact htype, type.refines_refl⟩

protected theorem refl (b : FactBase ω) (s : State ω) : b.Grows s s := .of_met rfl

protected theorem trans (h : b.Grows s s') (h' : b.Grows s' s'') : b.Grows s s'' where
  registered id hid := (h'.registered id hid).trans (h.registered id hid)
  known id type htype := by
    obtain ⟨type', htype', hrefines⟩ := h.known id type htype
    obtain ⟨type'', htype'', hrefines'⟩ := h'.known id type' htype'
    exact ⟨type'', htype'', TypeSet.refines_trans hrefines hrefines'⟩

end Grows

/-- Remembering an element joins its type to what is known. -/
theorem remember_grows {met : List (ElementId × ElementType)} {type : ElementType} (e : Element)
    (h : b.typeGiven? met id = some type) :
    ∃ type', b.typeGiven? (b.remember met e) id = some type' ∧ type.refines type' = true := by
  rw [typeGiven?_remember]
  split
  · next hnew =>
    have hmet : met.lookup id = some type := by rwa [typeGiven?, hnew.2, Option.none_or] at h
    rw [hmet]
    exact ⟨_, rfl, (le_sup_left : type ≤ type ⊔ e.type)⟩
  · exact ⟨type, h, type.refines_refl⟩

/-- A request makes types grow. -/
theorem grows_finish (b : FactBase ω) (r : Request ω) : b.Grows r.start (r.finish b) := by
  cases r with
  | resolve name id s => exact .of_met (resolve?_met name id s)
  | targets link source s =>
    refine ⟨fun id hid => ?registered, fun id type htype => ?known⟩
    case registered =>
      obtain ⟨type, htype⟩ := Option.isSome_iff_exists.1 hid
      rw [typeOf?_of_lookup htype, typeOf?_of_lookup htype]
    case known =>
      show ∃ type', b.typeOf? (b.targets link source s).2 id = some type' ∧ _
      rw [targets]
      split
      · exact ⟨type, htype, type.refines_refl⟩
      · -- every target that is remembered on the way lets the type grow
        refine ask_keeps_met (P := fun met => ∃ type', b.typeGiven? met id = some type' ∧ type.refines type' = true)
          source _ (fun _ _ _ _ _ e _ _ met hmet => ?_) [] s ⟨type, htype, type.refines_refl⟩
        obtain ⟨type', htype', hrefines⟩ := hmet
        obtain ⟨type'', htype'', hrefines'⟩ := remember_grows e htype'
        exact ⟨type'', htype'', TypeSet.refines_trans hrefines hrefines'⟩

/-- Types grow from each moment of a run to those that follow. -/
theorem Leads.pairwise_grows {rs : List (Request ω)} (h : b.Leads s rs s') :
    ∀ past, ((moments past rs s').map (·.state)).Pairwise b.Grows := by
  induction h with
  | done => intro past; exact List.pairwise_singleton _ _
  | look _ _ ih => exact ih
  | @ask s s' r rs hstart hrest ih =>
    intro past
    refine List.Pairwise.cons (fun u hu => ?_) (ih (past ++ [r]))
    obtain ⟨m, hm, rfl⟩ := List.mem_map.1 hu
    exact Leads.keeps (I := fun _ u => b.Grows r.start u) (fun _ _ _ hu => hu.trans (.of_met rfl))
      (fun _ r' hr' => hr'.trans (b.grows_finish r')) hrest (past ++ [r]) (b.grows_finish r) m hm

/-! ## What types are made of -/

/-- The elements that requests return, one request after the other. -/
def returned (b : FactBase ω) (rs : List (Request ω)) : List Element := rs.flatMap (·.returned b)

/-- What was met is what requests have returned. -/
def Accounts (b : FactBase ω) (past : List (Request ω)) (s : State ω) : Prop :=
  ∀ id, b.types.lookup id = none → s.met.lookup id = TypeSet.joined? (typesIn (b.returned past) id)

/-- Sources that answer have their targets remembered that are found. -/
theorem ask_of_ok (source : ElementId) (type : ElementType) {rs : List (LinkSource ω)} {es : List Element} :
    ∀ found s, (b.ask source type rs found s).1 = .ok es →
      ∃ fresh, es = found ++ fresh ∧ (b.ask source type rs found s).2.met = fresh.foldl b.remember s.met := by
  induction rs with
  | nil =>
    intro found s hes
    cases hes
    exact ⟨[], (List.append_nil _).symm, rfl⟩
  | cons r rs ih =>
    intro found s
    rw [ask_cons]
    split
    · split
      · intro hes; cases hes
      · next answer _ =>
        intro hes
        obtain ⟨fresh, rfl, hmet⟩ := ih _ _ hes
        exact ⟨freshTargets r.targetType found answer ++ fresh, List.append_assoc _ _ _,
          hmet.trans (List.foldl_append ..).symm⟩
    · exact ih found s

/-- What an exploration finds is what is remembered from it. -/
theorem targets_met_of_ok {link : LinkType} {source : ElementId} {es : List Element}
    (hes : (b.targets link source s).1 = .ok es) :
    (b.targets link source s).2.met = es.foldl b.remember s.met := by
  rw [targets] at hes ⊢
  split at hes
  · cases hes
  · obtain ⟨fresh, rfl, hmet⟩ := ask_of_ok source _ [] s hes
    exact hmet

theorem lookup_foldl_remember (es : List Element) (met : List (ElementId × ElementType))
    (hid : b.types.lookup id = none) :
    (es.foldl b.remember met).lookup id = TypeSet.joined? ((met.lookup id).toList ++ typesIn es id) := by
  have hfold : es.foldl b.remember met =
      (es.filter fun e => ¬ (b.types.lookup e.id).isSome).foldl (fun table e => classifyAs e.id e.type table) met := by
    rw [List.foldl_filter]
    refine congrArg (fun f => es.foldl f met) (funext fun met => funext fun e => ?_)
    by_cases he : (b.types.lookup e.id).isSome = true <;> simp [remember, he]
  have htypes : typesIn (es.filter fun e => ¬ (b.types.lookup e.id).isSome) id = typesIn es id := by
    rw [typesIn, typesIn, List.filter_filter]
    refine congrArg _ (List.filter_congr fun e _ => ?_)
    by_cases he : e.id = id <;> simp [he, hid]
  rw [hfold, lookup_foldl_classifyAs, htypes]

/-- A request that does not fail adds what it returns. -/
theorem lookup_finish {r : Request ω} (hr : r.fails b = false) (hid : b.types.lookup id = none) :
    (r.finish b).met.lookup id = TypeSet.joined? ((r.start.met.lookup id).toList ++ typesIn (r.returned b) id) := by
  have hnothing : ∀ s : State ω, s.met.lookup id = TypeSet.joined? ((s.met.lookup id).toList ++ typesIn [] id) :=
    fun s => by cases s.met.lookup id <;> rfl
  cases r with
  | resolve name id' s =>
    show (b.resolve? name id' s).2.met.lookup id = _
    rw [resolve?_met]
    exact hnothing s
  | targets link source s =>
    show (b.targets link source s).2.met.lookup id = TypeSet.joined? ((s.met.lookup id).toList ++
      typesIn ((b.targets link source s).1.toOption.getD []) id)
    cases hes : (b.targets link source s).1 with
    | ok es =>
      rw [targets_met_of_ok hes, lookup_foldl_remember es s.met hid]
      rfl
    | error failure =>
      -- the exploration of a known element would have failed
      have hunknown : b.contains s source = false := by
        rw [Request.fails, hes] at hr
        exact (Bool.and_true _).symm.trans hr
      rw [targets, Option.not_isSome_iff_eq_none.1 (Bool.eq_false_iff.1 hunknown)]
      exact hnothing s

theorem account_finish {past : List (Request ω)} {r : Request ω} (hr : r.fails b = false)
    (h : b.Accounts past r.start) : b.Accounts (past ++ [r]) (r.finish b) := by
  have htypes : ∀ id, typesIn (b.returned (past ++ [r])) id = typesIn (b.returned past) id ++ typesIn (r.returned b) id :=
    fun id => by simp [returned, typesIn]
  intro id hid
  rw [lookup_finish hr hid, h id hid, TypeSet.joined?_append, htypes]

/-- At each moment of a run in which no source of links has failed, what was met is what requests have returned. -/
theorem Leads.accounts {w : ω} {rs : List (Request ω)} (h : b.Leads (.fresh w) rs s') {m : Moment ω}
    (hm : m ∈ moments [] rs s') (hfails : ∀ r ∈ m.past, r.fails b = false) : b.Accounts m.past m.state := by
  refine h.keeps (I := fun past s => (∀ r ∈ past, r.fails b = false) → b.Accounts past s) (fun _ _ _ hs => hs)
    (fun past r hr hfails => ?_) [] (fun _ _ _ => rfl) m hm hfails
  obtain ⟨hpast, hlast⟩ := List.forall_mem_append.1 hfails
  exact account_finish (hlast r List.mem_cons_self) (hr hpast)

/-- **Types of discovered elements.** Whatever is asked of a fact base, and whatever its sources do, types only grow from
one moment to the next, those of registered elements stay, and known elements stay known. As long as no source of links
has failed, an element that is not registered is known exactly if some exploration has returned it, be it asked for or
made by a flow, and its type is the union of the types under which it was returned, in whatever order. -/
theorem discovered_types (b : FactBase ω) (history : List (Query ω)) (w : ω) :
    ((b.momentsOf history w).map (·.state)).Pairwise b.Grows ∧
      ∀ m ∈ b.momentsOf history w, (∀ r ∈ m.past, r.fails b = false) → ∀ id, b.types.lookup id = none →
        (b.contains m.state id = true ↔ ∃ e ∈ b.returned m.past, e.id = id) ∧
          ∀ es, (∀ e, e ∈ es ↔ e ∈ b.returned m.past) →
            b.typeOf? m.state id = TypeSet.joined? (typesIn es id) := by
  have hleads : b.Leads (.fresh w) (b.requestsOf history (.fresh w)) (b.after history (.fresh w)) :=
    b.leads_requestsOf history _
  refine ⟨hleads.pairwise_grows [], fun m hm hfails id hid => ?_⟩
  have htype : b.typeOf? m.state id = TypeSet.joined? (typesIn (b.returned m.past) id) := by
    rw [typeOf?, hid, Option.none_or]
    exact hleads.accounts hm hfails id hid
  constructor
  · rw [contains, htype, TypeSet.isSome_joined?_iff]
    simp only [mem_typesIn]
    constructor
    · rintro ⟨-, e, he, hid, -⟩
      exact ⟨e, he, hid⟩
    · rintro ⟨e, he, hid⟩
      exact ⟨e.type, e, he, hid, rfl⟩
  · intro es hes
    rw [htype]
    refine TypeSet.joined?_congr fun type => ?_
    simp only [mem_typesIn, hes]

/-- In the middle of a flow an element is a table, since it was returned as one; at its end it is a repository as well,
since the other service has returned it as one. -/
theorem discovered_types_encounter :
    let b := encounterBase (ElementKind.type .repository)
    ∃ m ∈ b.momentsOf [.flow callProfile .never "a" 2] 0, ∃ m' ∈ b.momentsOf [.flow callProfile .never "a" 2] 0,
      (∀ r ∈ m'.past, r.fails b = false) ∧ b.types.lookup "x" = none ∧
        b.contains m.state "x" = true ∧ b.typeOf? m.state "x" = some (ElementKind.type .dbTable) ∧
        b.typeOf? m'.state "x" = some ((ElementKind.type .repository).union (ElementKind.type .dbTable)) := by
  intro b
  obtain ⟨-, h⟩ := discovered_types b [.flow callProfile .never "a" 2] 0
  have hid : b.types.lookup "x" = none := by decide +kernel
  let m := (b.momentsOf [.flow callProfile .never "a" 2] 0).get ⟨1, by decide +kernel⟩
  let m' := (b.momentsOf [.flow callProfile .never "a" 2] 0).get ⟨3, by decide +kernel⟩
  have hm : m ∈ b.momentsOf [.flow callProfile .never "a" 2] 0 := List.get_mem _ _
  have hm' : m' ∈ b.momentsOf [.flow callProfile .never "a" 2] 0 := List.get_mem _ _
  have hfails : ∀ r : Request Nat, r.fails b = false := fails_of_sources fun r hr id w => by
    cases List.mem_singleton.1 hr
    exact ⟨_, rfl⟩
  obtain ⟨hknown, htype⟩ := h m hm (fun r _ => hfails r) "x" hid
  obtain ⟨-, htype'⟩ := h m' hm' (fun r _ => hfails r) "x" hid
  refine ⟨m, hm, m', hm', fun r _ => hfails r, hid, hknown.2 ?returned, (htype _ fun _ => Iff.rfl).trans ?table,
    (htype' (b.returned m'.past).reverse fun _ => List.mem_reverse).trans ?both⟩
  case returned => decide +kernel
  case table => decide +kernel
  case both => decide +kernel

end FactBase

end ArchFlow
