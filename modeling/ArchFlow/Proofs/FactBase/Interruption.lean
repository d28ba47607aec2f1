import ArchFlow.Proofs.Flow.Growth

/-!
# Explorations that fail

The sources of links of one type are asked in turn, and what each of them answers is remembered before the next one is
asked. If one fails, nothing is returned, but what the sources before it have found stays known: the types are those
that an exploration leaves which asks these sources only, and succeeds. So a failure goes unnoticed exactly if these
sources have found nothing that was not known before.

* `FactBase.Interrupted`: the ways in which an exploration fails.
* `FactBase.interrupted_of_error`: there are no other ways.
* `FactBase.types_after_failure`: the types after an exploration that fails.
* `FactBase.failure_makes_known`: an element that becomes known by an exploration that fails.
-/

namespace ArchFlow

namespace FactBase

variable {ω : Type} {b : FactBase ω} {link : LinkType} {source : ElementId} {s : State ω} {failure : Failure}

/-- The base with other sources of links. -/
def withLinks (b : FactBase ω) (links : List (LinkSource ω)) : FactBase ω := { b with links }

/-- What sources are asked for does not depend on the sources that are not asked. -/
theorem ask_withLinks (links : List (LinkSource ω)) (source : ElementId) (type : ElementType)
    (rs : List (LinkSource ω)) :
    ∀ found s, (b.withLinks links).ask source type rs found s = b.ask source type rs found s := by
  induction rs with
  | nil => intro found s; rfl
  | cons r rs ih =>
    intro found s
    rw [ask_cons, ask_cons, ih]
    split
    · split
      · rfl
      · exact ih _ _
    · rfl

/-! ## How explorations fail -/

/-- The ways in which an exploration fails with what has been found until then, and leaves a state. Either the element
is not known, or some source fails that fits the element, after an exploration of the sources before it went well. -/
inductive Interrupted (b : FactBase ω) (link : LinkType) (source : ElementId) (s : State ω) :
    Failure → List Element → State ω → Prop
  | unknown (h : b.contains s source = false) : Interrupted b link source s (.unknownElement source) [] s
  | source {type : ElementType} {earlier later : List (LinkSource ω)} {r : LinkSource ω} {found : List Element}
      {s' : State ω} {failure : Failure} (htype : b.typeOf? s source = some type)
      (hlinks : b.links = earlier ++ r :: later) (hlink : r.linkType = link) (hfits : type.fits r.sourceType = true)
      (hearlier : (b.withLinks earlier).targets link source s = (.ok found, s'))
      (hfails : (r.load source s'.world).1 = .error failure) :
      Interrupted b link source s failure found { s' with world := (r.load source s'.world).2 }

/-- If asking sources in turn fails, then at the first one that fails. -/
theorem ask_error {type : ElementType} {rs : List (LinkSource ω)} :
    ∀ {found : List Element} {s : State ω}, (b.ask source type rs found s).1 = .error failure →
      ∃ earlier r later es s', rs = earlier ++ r :: later ∧ type.fits r.sourceType = true ∧
        b.ask source type earlier found s = (.ok es, s') ∧ (r.load source s'.world).1 = .error failure ∧
        (b.ask source type rs found s).2 = { s' with world := (r.load source s'.world).2 } := by
  induction rs with
  | nil => intro found s h; cases h
  | cons r rs ih =>
    intro found s h
    rw [ask_cons] at h ⊢
    by_cases hfits : type.fits r.sourceType = true
    · rw [if_pos hfits] at h ⊢
      cases hload : (r.load source s.world).1 with
      | error e =>
        rw [hload] at h
        cases h
        exact ⟨[], r, rs, found, s, rfl, hfits, rfl, hload, rfl⟩
      | ok answer =>
        rw [hload] at h
        obtain ⟨earlier, r', later, es, s', rfl, hfits', hearlier, hfails, hafter⟩ := ih h
        refine ⟨r :: earlier, r', later, es, s', rfl, hfits', ?_, hfails, hafter⟩
        rw [ask_cons, if_pos hfits, hload]
        exact hearlier
    · rw [if_neg hfits] at h ⊢
      obtain ⟨earlier, r', later, es, s', rfl, hfits', hearlier, hfails, hafter⟩ := ih h
      refine ⟨r :: earlier, r', later, es, s', rfl, hfits', ?_, hfails, hafter⟩
      rw [ask_cons, if_neg hfits]
      exact hearlier

/-- An exploration fails in one of the two ways. -/
theorem interrupted_of_error (h : (b.targets link source s).1 = .error failure) :
    ∃ found, b.Interrupted link source s failure found (b.targets link source s).2 := by
  rw [targets] at h ⊢
  cases htype : b.typeOf? s source with
  | none =>
    rw [htype] at h
    cases h
    exact ⟨[], .unknown (by rw [contains, htype]; rfl)⟩
  | some type =>
    rw [htype] at h
    obtain ⟨asked, r, rest, es, s', hsplit, hfits, hasked, hfails, hafter⟩ := ask_error h
    obtain ⟨before, after, hlinks, hbefore, hafterwards⟩ := List.filter_eq_append_iff.1 hsplit
    obtain ⟨between, later, rfl, hbetween, hlink, -⟩ := List.filter_eq_cons_iff.1 hafterwards
    -- the sources between two that are asked are for links of other types
    have hothers : (before ++ between).filter (fun r => r.linkType = link) = asked := by
      rw [List.filter_append, hbefore, List.filter_eq_nil_iff.2 hbetween, List.append_nil]
    have htype' : (b.withLinks (before ++ between)).typeOf? s source = some type := htype
    have hearlier : (b.withLinks (before ++ between)).targets link source s = (.ok es, s') := by
      rw [targets, htype']
      show (b.withLinks (before ++ between)).ask source type
        ((before ++ between).filter fun r => r.linkType = link) [] s = _
      rw [hothers, ask_withLinks, hasked]
    refine ⟨es, ?_⟩
    dsimp only
    rw [hafter]
    exact .source htype (by rw [hlinks, List.append_assoc]) (of_decide_eq_true hlink) hfits hearlier hfails

/-! ## What is known afterwards -/

/-- What was met when an exploration fails is what has been found until then. -/
theorem Interrupted.met_eq {found : List Element} {s' : State ω} (h : b.Interrupted link source s failure found s') :
    s'.met = found.foldl b.remember s.met := by
  cases h with
  | unknown => rfl
  | @source type earlier later r found s' failure htype hlinks hlink hfits hearlier hfails =>
    have hmet := targets_met_of_ok (b := b.withLinks earlier) (congrArg Prod.fst hearlier)
    rw [hearlier] at hmet
    exact hmet

/-- A union of types is within another type iff all of them are. -/
theorem foldl_union_refines_iff {wide : ElementType} (types : List ElementType) :
    ∀ {type : ElementType}, (types.foldl TypeSet.union type).refines wide = true ↔
      type.refines wide = true ∧ ∀ t ∈ types, t.refines wide = true := by
  induction types with
  | nil => intro type; simp
  | cons t types ih =>
    intro type
    have hunion : (type.union t).refines wide = true ↔ type.refines wide = true ∧ t.refines wide = true :=
      (sup_le_iff : type ⊔ t ≤ wide ↔ type ≤ wide ∧ t ≤ wide)
    rw [List.foldl_cons, ih, hunion, List.forall_mem_cons, and_assoc]

/-- Joining types to what is known changes nothing iff they are within it. -/
theorem joined?_eq_self_iff {known : Option ElementType} {types : List ElementType} :
    TypeSet.joined? (known.toList ++ types) = known ↔
      ∀ type ∈ types, ∃ wide, known = some wide ∧ type.refines wide = true := by
  cases known with
  | none =>
    cases types with
    | nil => simp [TypeSet.joined?]
    | cons type types =>
      refine iff_of_false (Option.some_ne_none (types.foldl TypeSet.union type)) fun h => ?_
      obtain ⟨wide, hnone, -⟩ := h type List.mem_cons_self
      cases hnone
  | some wide =>
    have hself : wide.refines (types.foldl TypeSet.union wide) = true :=
      ((foldl_union_refines_iff types).1 (TypeSet.refines_refl _)).1
    have hfold : types.foldl TypeSet.union wide = wide ↔ (types.foldl TypeSet.union wide).refines wide = true :=
      ⟨fun h => by rw [h]; exact wide.refines_refl, fun h => TypeSet.refines_antisymm h hself⟩
    have hjoined : TypeSet.joined? ((some wide).toList ++ types) = some (types.foldl TypeSet.union wide) := rfl
    rw [hjoined, Option.some_inj, hfold, foldl_union_refines_iff]
    simp [wide.refines_refl]

/-- The types after an exploration that fails. -/
theorem Interrupted.typeOf?_eq {found : List Element} {s' : State ω} (h : b.Interrupted link source s failure found s')
    (id : ElementId) :
    b.typeOf? s' id =
      if (b.types.lookup id).isSome then b.typeOf? s id
      else TypeSet.joined? ((b.typeOf? s id).toList ++ typesIn found id) := by
  cases hid : b.types.lookup id with
  | some type => rw [typeOf?_of_lookup hid, typeOf?_of_lookup hid, Option.isSome_some, if_pos rfl]
  | none =>
    rw [typeOf?, typeOf?, hid, h.met_eq, Option.none_or, Option.none_or, lookup_foldl_remember found s.met hid]
    rfl

/-- The type of an element is the same in two states iff the element is known in both of them under the same type, or
in neither. -/
theorem typeOf_eq_iff {s s' : State ω} {id : ElementId} :
    b.typeOf s' id = b.typeOf s id ↔ b.typeOf? s' id = b.typeOf? s id := by
  constructor
  · intro h
    exact Option.ext fun type => by rw [← typeOf_eq_ok_iff, h, typeOf_eq_ok_iff]
  · intro h
    rw [typeOf, typeOf, h]

/-- **What a failed exploration leaves behind.** An exploration that fails does so because the element is not known, or
at a source of links, where an exploration that asks the sources before it goes well. Registered elements keep their
types; the type of any other element is joined with the types under which it has been found until then. So everything
is known as it was before exactly if what has been found, and is not registered, was known under a type that contains
the one it has been found under; in particular if nothing has been found yet. -/
theorem types_after_failure (h : (b.targets link source s).1 = .error failure) :
    ∃ found, b.Interrupted link source s failure found (b.targets link source s).2 ∧
      (∀ id, b.typeOf? (b.targets link source s).2 id =
        if (b.types.lookup id).isSome then b.typeOf? s id
        else TypeSet.joined? ((b.typeOf? s id).toList ++ typesIn found id)) ∧
      ((∀ id, b.typeOf (b.targets link source s).2 id = b.typeOf s id ∧
          b.contains (b.targets link source s).2 id = b.contains s id) ↔
        ∀ e ∈ found, b.types.lookup e.id = none →
          ∃ type, b.typeOf? s e.id = some type ∧ e.type.refines type = true) := by
  obtain ⟨found, hfound⟩ := interrupted_of_error h
  refine ⟨found, hfound, hfound.typeOf?_eq, ?_⟩
  -- the two questions are about the types of elements, as far as these are known
  have hsame : (∀ id, b.typeOf (b.targets link source s).2 id = b.typeOf s id ∧
      b.contains (b.targets link source s).2 id = b.contains s id) ↔
        ∀ id, b.typeOf? (b.targets link source s).2 id = b.typeOf? s id :=
    forall_congr' fun id => ⟨fun h => typeOf_eq_iff.1 h.1, fun h => ⟨typeOf_eq_iff.2 h, by rw [contains, contains, h]⟩⟩
  rw [hsame]
  constructor
  · intro hall e he hid
    have htype := hfound.typeOf?_eq e.id
    rw [hall e.id, hid, Option.isSome_none, if_neg Bool.false_ne_true] at htype
    exact joined?_eq_self_iff.1 htype.symm e.type (mem_typesIn.2 ⟨e, he, rfl, rfl⟩)
  · intro hall id
    rw [hfound.typeOf?_eq id]
    split
    · rfl
    · next hid =>
      refine joined?_eq_self_iff.2 fun type htype => ?_
      obtain ⟨e, he, rfl, rfl⟩ := mem_typesIn.1 htype
      exact hall e he (Option.not_isSome_iff_eq_none.1 hid)

/-! ### An element that is met on the way to a failure -/

/-- A service, of which one source tells that it calls a table, while another one cannot be asked for its calls. -/
def outage : Registry Unit where
  roots := [⟨ElementKind.type .appService, .constant [⟨"a", ElementKind.type .appService⟩]⟩]
  links := [
    ⟨LinkKind.type .calls, ElementKind.type .appService, ElementKind.type .dbTable,
      fun _ => .constant [⟨"x", ElementKind.type .dbTable⟩]⟩,
    ⟨LinkKind.type .calls, ElementKind.type .appService, ElementKind.type .repository,
      fun _ w => (.error (.provider (.reported "unavailable")), w)⟩]

/-- What it comes to. -/
def outageBase : FactBase Unit where
  slots := [⟨ElementKind.type .appService, [⟨"a", ElementKind.type .appService⟩]⟩]
  types := [("a", ElementKind.type .appService)]
  attributes := []
  links := outage.links

theorem targets_outage :
    (outageBase.targets (LinkKind.type .calls) "a" (.fresh ())).1 = .error (.provider (.reported "unavailable")) := by
  rfl

/-- The exploration fails, and the table is known afterwards. -/
theorem failure_makes_known :
    outage.build () = (.ok outageBase, ()) ∧
      (outageBase.targets (LinkKind.type .calls) "a" (.fresh ())).1 = .error (.provider (.reported "unavailable")) ∧
      outageBase.contains (.fresh ()) "x" = false ∧
      outageBase.contains (outageBase.targets (LinkKind.type .calls) "a" (.fresh ())).2 "x" = true := by
  refine ⟨?_, targets_outage, ?_, ?_⟩
  · rw [Registry.build]
    cbv
  · decide +kernel
  · decide +kernel

/-- The table has been found until then, and what has been found was not known. -/
theorem types_after_failure_outage :
    ∃ failure found, (outageBase.targets (LinkKind.type .calls) "a" (.fresh ())).1 = .error failure ∧
      outageBase.Interrupted (LinkKind.type .calls) "a" (.fresh ()) failure found
        (outageBase.targets (LinkKind.type .calls) "a" (.fresh ())).2 ∧
      outageBase.typeOf? (outageBase.targets (LinkKind.type .calls) "a" (.fresh ())).2 "x" =
        TypeSet.joined? (typesIn found "x") ∧
      ∃ e ∈ found, outageBase.types.lookup e.id = none := by
  obtain ⟨found, hfound, htypes, hsame⟩ := types_after_failure targets_outage
  refine ⟨_, found, targets_outage, hfound, htypes "x", ?_⟩
  by_contra hnothing
  have hunnoticed := (hsame.2 fun e he hid => absurd ⟨e, he, hid⟩ hnothing) "x"
  have hnoticed : outageBase.contains (outageBase.targets (LinkKind.type .calls) "a" (.fresh ())).2 "x" ≠
      outageBase.contains (.fresh ()) "x" := by
    decide +kernel
  exact hnoticed hunnoticed.2

end FactBase

end ArchFlow
