import ArchFlow.Proofs.TypeSet.Json
import ArchFlow.Proofs.TypeSet.Meaning

/-!
# Types that are constructed

A type is made from nothing, from predicates, from a text, or from types that were made before. Each of these ways brings
what it is given into normal form, and a `TypeSet` carries the proof that it does. Here the same is done by hand, with
bare sets of conjuncts that carry nothing. No step does more than it has to: predicates make a single conjunct, which is
compared with no other; a union drops what contains another conjunct, but does not look for contradictions; and a
contradiction is looked for between neighbours alone, which are the only places where one key can stand twice, since
predicates are ordered by their keys first.

* `Conjunct.neighboursDiffer_iff`: looking at neighbours finds every contradiction.
* `Disjuncts.exists_minimal`: what is dropped contains something that is kept.
* `Construction.disjuncts_normal`: every construction by hand leads to a normal form.
* `Construction.normal_form_kept`: the constructions of types are those by hand, and lose nothing.
-/

namespace ArchFlow

open Json (Fault decode decode_render Layout)

/-! ## Neighbours -/

namespace Conjunct

/-- No predicate has the key of the one before it. -/
def NeighboursDiffer (c : Conjunct) : Prop := c.toList.IsChain fun p q => p.key ≠ q.key

instance (c : Conjunct) : Decidable c.NeighboursDiffer :=
  inferInstanceAs (Decidable (c.toList.IsChain fun p q => p.key ≠ q.key))

/-- In a list that is in order, keys that differ between neighbours increase. -/
theorem keys_increase {l : List Predicate} (hl : Increasing l) (h : l.IsChain fun p q => p.key ≠ q.key) :
    l.IsChain fun p q => compare p.key q.key = .lt := by
  induction l with
  | nil => exact .nil
  | cons p l ih =>
    cases l with
    | nil => exact .singleton p
    | cons q l =>
      obtain ⟨hkey, hrest⟩ := List.isChain_cons_cons.1 h
      obtain ⟨hp, hl⟩ := List.pairwise_cons.1 hl
      exact List.isChain_cons_cons.2 ⟨compare_key_of_ne (hp q List.mem_cons_self) hkey, ih hl hrest⟩

/-- Looking at neighbours finds every key that has two values. -/
theorem neighboursDiffer_iff {c : Conjunct} : c.NeighboursDiffer ↔ c.SingleValued := by
  rw [← satisfiable_iff_singleValued]
  refine ⟨fun h => ?_, List.Pairwise.isChain⟩
  -- That keys differ is not transitive, so it is from keys that increase that all pairs follow.
  let before : Predicate → Predicate → Prop := fun p q => compare p.key q.key = .lt
  have : Trans before before before := ⟨fun h₁ h₂ => Std.TransCmp.lt_trans h₁ h₂⟩
  have hchain : c.toList.IsChain before := keys_increase c.increasing h
  exact hchain.pairwise.imp fun hlt hkey => by simp [before, hkey] at hlt

end Conjunct

/-! ## Bare sets of conjuncts -/

/-- Conjuncts of which at least one holds, in normal form or not. -/
abbrev Disjuncts := SortedSet Conjunct

namespace Disjuncts

/-- Normal form: no conjunct gives a key two values, and no conjunct is contained in another one. -/
structure Normal (s : Disjuncts) : Prop where
  singleValued : ∀ c ∈ s, c.SingleValued
  antichain : ∀ c ∈ s, ∀ d ∈ s, c.subset d = true → c = d

/-- The conjuncts without contradictions. -/
def consistent (s : Disjuncts) : Disjuncts := s.filter fun c => decide c.NeighboursDiffer

/-- The conjuncts that contain no other one. -/
def minimal (s : Disjuncts) : Disjuncts := s.filter fun c => !s.toList.any fun d => d ≠ c && d.subset c

/-- The conjunct of some predicates, unless they contradict each other. -/
def ofPredicates (ps : List Predicate) : Disjuncts :=
  if Conjunct.NeighboursDiffer (.ofList ps) then .singleton (.ofList ps) else .empty

/-- The conjuncts of either set. -/
def join (s t : Disjuncts) : Disjuncts := minimal (s.union t)

/-- The conjuncts that join one of each set. -/
def meet (s t : Disjuncts) : Disjuncts :=
  minimal (consistent (.ofList (s.toList.flatMap fun c => t.toList.map c.union)))

/-- The conjuncts of lists of predicates. -/
def ofLists (pss : List (List Predicate)) : Disjuncts := minimal (consistent (.ofList (pss.map SortedSet.ofList)))

variable {s t : Disjuncts} {c : Conjunct}

theorem mem_consistent : c ∈ s.consistent ↔ c ∈ s ∧ c.SingleValued := by
  rw [consistent, SortedSet.mem_filter, decide_eq_true_eq, Conjunct.neighboursDiffer_iff]

theorem mem_minimal : c ∈ s.minimal ↔ c ∈ s ∧ ∀ d ∈ s, d.subset c = true → d = c := by
  rw [minimal, SortedSet.mem_filter]
  refine and_congr_right fun _ => ?_
  simp only [Bool.not_eq_true', List.any_eq_false, Bool.and_eq_true, decide_eq_true_eq, not_and', not_not]
  rfl

/-- What is dropped contains something that is kept. -/
theorem exists_minimal (hc : c ∈ s) : ∃ d ∈ s.minimal, d.subset c = true := by
  obtain ⟨d, hd, hdc, hmin⟩ := SortedSet.exists_minimal_subset hc
  exact ⟨d, mem_minimal.2 ⟨hd, hmin⟩, hdc⟩

/-! ## Normal forms -/

/-- Without contradictions, leaving out what contains another conjunct is enough. -/
theorem normal_minimal (h : ∀ c ∈ s, c.SingleValued) : s.minimal.Normal where
  singleValued c hc := h c (mem_minimal.1 hc).1
  antichain c hc _ hd hcd := (mem_minimal.1 hd).2 c (mem_minimal.1 hc).1 hcd

theorem normal_empty : Normal .empty where
  singleValued _ hc := absurd hc SortedSet.not_mem_empty
  antichain _ hc := absurd hc SortedSet.not_mem_empty

/-- A single conjunct needs no comparison. -/
theorem normal_ofPredicates (ps : List Predicate) : (ofPredicates ps).Normal := by
  rw [ofPredicates]
  split
  · next h =>
    refine ⟨fun c hc => ?_, fun c hc d hd _ => ?_⟩
    · rw [SortedSet.mem_singleton.1 hc]
      exact Conjunct.neighboursDiffer_iff.1 h
    · rw [SortedSet.mem_singleton.1 hc, SortedSet.mem_singleton.1 hd]
  · exact normal_empty

/-- A union brings in no contradictions. -/
theorem Normal.join (hs : s.Normal) (ht : t.Normal) : (s.join t).Normal :=
  normal_minimal fun c hc => (SortedSet.mem_union.1 hc).elim (hs.singleValued c) (ht.singleValued c)

theorem normal_meet (s t : Disjuncts) : (s.meet t).Normal := normal_minimal fun _ hc => (mem_consistent.1 hc).2

theorem normal_ofLists (pss : List (List Predicate)) : (ofLists pss).Normal :=
  normal_minimal fun _ hc => (mem_consistent.1 hc).2

end Disjuncts

/-! ## What types do -/

namespace TypeSet

/-- The normal form of a list of conjuncts, step by step. -/
theorem normalForm_eq (cs : List Conjunct) : normalForm cs = (Disjuncts.consistent (.ofList cs)).minimal := by
  refine SortedSet.ext_mem fun c => ?_
  simp only [mem_normalForm, Disjuncts.mem_minimal, Disjuncts.mem_consistent, SortedSet.mem_ofList,
    Conjunct.satisfiable_iff_singleValued, and_imp, and_assoc]

theorem disjuncts_ofPredicates (ps : List Predicate) : (ofPredicates ps).disjuncts = Disjuncts.ofPredicates ps := by
  refine SortedSet.ext_mem fun c => ?_
  rw [ofPredicates, mem_ofConjuncts, Disjuncts.ofPredicates, List.mem_singleton,
    Conjunct.satisfiable_iff_singleValued, ← Conjunct.neighboursDiffer_iff]
  split
  · next h =>
    rw [SortedSet.mem_singleton]
    refine ⟨And.left, ?_⟩
    rintro rfl
    exact ⟨rfl, h, fun d hd _ _ => List.mem_singleton.1 hd⟩
  · next h =>
    refine iff_of_false ?_ SortedSet.not_mem_empty
    rintro ⟨rfl, hc, -⟩
    exact h hc

/-- Types have no contradictions, so their union does not have to look for them. -/
theorem disjuncts_union (a b : TypeSet) : (a.union b).disjuncts = Disjuncts.join a.disjuncts b.disjuncts := by
  have hsatisfiable : ∀ d ∈ a.disjuncts.toList ++ b.disjuncts.toList, d.Satisfiable := fun d hd =>
    (List.mem_append.1 hd).elim (a.satisfiable d) (b.satisfiable d)
  refine SortedSet.ext_mem fun c => ?_
  -- The normal form compares a conjunct with satisfiable ones only, and here there are no others.
  rw [union, mem_ofConjuncts, Disjuncts.join, Disjuncts.mem_minimal, SortedSet.union]
  simp only [SortedSet.mem_ofList]
  refine and_congr_right fun hc => ⟨fun h d hd => h.2 d hd (hsatisfiable d hd), fun h => ?_⟩
  exact ⟨hsatisfiable c hc, fun d hd _ => h d hd⟩

theorem disjuncts_inter (a b : TypeSet) : (a.inter b).disjuncts = Disjuncts.meet a.disjuncts b.disjuncts :=
  normalForm_eq _

theorem disjuncts_ofDisjuncts (pss : List (List Predicate)) : (ofDisjuncts pss).disjuncts = Disjuncts.ofLists pss :=
  normalForm_eq _

end TypeSet

/-! ## Constructions -/

/-- A way to make a type. -/
inductive Construction
  | empty
  | predicates (ps : List Predicate)
  | union (a b : Construction)
  | inter (a b : Construction)
  | read (text : String)

namespace Construction

/-- What comes of two results; the first fault counts. -/
def both {α β : Type} (f : α → α → β) (x y : Except Fault α) : Except Fault β := do return f (← x) (← y)

theorem both_eq_ok {α β : Type} {f : α → α → β} {x y : Except Fault α} {c : β} (h : both f x y = .ok c) :
    ∃ a b, x = .ok a ∧ y = .ok b ∧ c = f a b := by
  rcases x with _ | a
  · cases h
  · rcases y with _ | b
    · cases h
    · cases h
      exact ⟨a, b, rfl, rfl, rfl⟩

/-- The type that is made, unless a text cannot be read. -/
def type : Construction → Except Fault TypeSet
  | .empty => .ok .empty
  | .predicates ps => .ok (.ofPredicates ps)
  | .union a b => both TypeSet.union a.type b.type
  | .inter a b => both TypeSet.inter a.type b.type
  | .read text => decode TypeSet.decoder text

/-- The conjuncts of the type, made by hand. -/
def disjuncts : Construction → Except Fault Disjuncts
  | .empty => .ok SortedSet.empty
  | .predicates ps => .ok (.ofPredicates ps)
  | .union a b => both Disjuncts.join a.disjuncts b.disjuncts
  | .inter a b => both Disjuncts.meet a.disjuncts b.disjuncts
  | .read text => (decode TypeSet.disjunctsDecoder text).map .ofLists

/-- Every construction by hand leads to a normal form. -/
theorem disjuncts_normal (k : Construction) : ∀ s, k.disjuncts = .ok s → s.Normal := by
  induction k with
  | empty =>
    intro s h
    cases h
    exact Disjuncts.normal_empty
  | predicates ps =>
    intro s h
    cases h
    exact Disjuncts.normal_ofPredicates ps
  | union a b iha ihb =>
    intro s h
    obtain ⟨t, u, ht, hu, rfl⟩ := both_eq_ok h
    exact (iha t ht).join (ihb u hu)
  | inter a b iha ihb =>
    intro s h
    obtain ⟨t, u, -, -, rfl⟩ := both_eq_ok h
    exact Disjuncts.normal_meet t u
  | read text =>
    intro s h
    rw [disjuncts] at h
    cases hlists : decode TypeSet.disjunctsDecoder text with
    | error => rw [hlists] at h; cases h
    | ok pss =>
      rw [hlists] at h
      cases h
      exact Disjuncts.normal_ofLists pss

/-- What is made by hand of two types is what is made of them. -/
theorem both_map {f : TypeSet → TypeSet → TypeSet} {g : Disjuncts → Disjuncts → Disjuncts}
    (h : ∀ a b, (f a b).disjuncts = g a.disjuncts b.disjuncts) (x y : Except Fault TypeSet) :
    both g (x.map (·.disjuncts)) (y.map (·.disjuncts)) = (both f x y).map (·.disjuncts) := by
  rcases x with _ | a
  · rfl
  · rcases y with _ | b
    · rfl
    · exact congrArg Except.ok (h a b).symm

/-- The conjuncts of constructed types are those made by hand. -/
theorem disjuncts_eq (k : Construction) : k.disjuncts = k.type.map (·.disjuncts) := by
  induction k with
  | empty => rfl
  | predicates ps => exact congrArg Except.ok (TypeSet.disjuncts_ofPredicates ps).symm
  | union a b iha ihb => rw [disjuncts, type, iha, ihb, both_map TypeSet.disjuncts_union]
  | inter a b iha ihb => rw [disjuncts, type, iha, ihb, both_map TypeSet.disjuncts_inter]
  | read text =>
    rw [disjuncts, type, TypeSet.decoder_eq, Json.decode_map]
    cases decode TypeSet.disjunctsDecoder text with
    | error => rfl
    | ok pss => exact congrArg Except.ok (TypeSet.disjuncts_ofDisjuncts pss).symm

/-- **Normal form is kept on every path, and nothing is lost.** In whatever way a type is constructed, its conjuncts are
those that come of doing the same by hand with bare sets, and these are sets where no conjunct gives a key two values
and no conjunct is contained in another one. What is dropped for being no minimal conjunct contains another one that is
kept; so whatever the normal form of a list drops contradicts itself or contains another conjunct of the normal form. -/
theorem normal_form_kept :
    (∀ k : Construction, k.disjuncts = k.type.map (·.disjuncts)) ∧
      (∀ (k : Construction) (s : Disjuncts), k.disjuncts = .ok s →
        (∀ c ∈ s, ∀ p ∈ c, ∀ q ∈ c, p.key = q.key → p.value = q.value) ∧
          ∀ c ∈ s, ∀ d ∈ s, c.subset d = true → c = d) ∧
      (∀ (s : Disjuncts) (c : Conjunct), c ∈ s → c ∉ s.minimal → ∃ d ∈ s.minimal, d ≠ c ∧ d.subset c = true) ∧
      ∀ (cs : List Conjunct) (c : Conjunct), c ∈ cs → c ∉ TypeSet.normalForm cs →
        (∃ p ∈ c, ∃ q ∈ c, p.key = q.key ∧ p.value ≠ q.value) ∨ ∃ d ∈ TypeSet.normalForm cs, d ≠ c ∧ d.subset c = true := by
  refine ⟨disjuncts_eq, fun k s h => ?normal, fun s c hc hdropped => ?dropped, fun cs c hc hdropped => ?lists⟩
  case normal =>
    have hs := k.disjuncts_normal s h
    exact ⟨hs.singleValued, hs.antichain⟩
  case dropped =>
    obtain ⟨d, hd, hdc⟩ := Disjuncts.exists_minimal hc
    exact ⟨d, hd, fun e => hdropped (e ▸ hd), hdc⟩
  case lists =>
    by_cases hvalues : c.SingleValued
    · obtain ⟨d, hd, hdc⟩ := TypeSet.exists_kept hc (Conjunct.satisfiable_iff_singleValued.2 hvalues)
      exact .inr ⟨d, hd, fun e => hdropped (e ▸ hd), hdc⟩
    · exact .inl (by simpa [Conjunct.SingleValued] using hvalues)

/-- A type that is read, with a contradictory list, where another one requires a value of a second key. -/
def refinedConstruction : Construction :=
  .union
    (.inter (.read ((TypeSet.disjunctsToJson TypeSet.serviceLists).render .compact))
      (.union (.predicates [⟨"X", "1"⟩]) (.predicates [⟨"X", "2"⟩])))
    (.predicates [⟨"X", "2"⟩])

/-- The conjunct of a kind and a value of the second key. -/
def refinedConjunct : Conjunct := .ofList [⟨"Kind", "a"⟩, ⟨"X", "1"⟩]

/-- What is left of the construction: the last type has absorbed a conjunct. -/
def refinedDisjuncts : Disjuncts := .ofList [refinedConjunct, .ofList [⟨"X", "2"⟩]]

/-- Of the lists that are read, the one of the kind alone is kept for the larger one and for the contradictory one. -/
theorem normal_form_kept_refined :
    refinedConstruction.disjuncts = .ok refinedDisjuncts ∧
      (∀ c ∈ refinedDisjuncts, ∀ d ∈ refinedDisjuncts, c.subset d = true → c = d) ∧
      (∃ d ∈ Disjuncts.minimal (.ofList (TypeSet.serviceLists.map .ofList)), d ≠ refinedConjunct ∧
        d.subset refinedConjunct = true) ∧
      ∃ d ∈ TypeSet.normalForm (TypeSet.serviceLists.map .ofList), d ≠ refinedConjunct ∧
        d.subset refinedConjunct = true := by
  have hread : decode TypeSet.disjunctsDecoder ((TypeSet.disjunctsToJson TypeSet.serviceLists).render .compact) =
      .ok TypeSet.serviceLists :=
    (decode_render TypeSet.disjunctsDecoder .compact (TypeSet.fits_disjunctsToJson _)).trans
      (TypeSet.disjunctsDecoder_toJson _ _)
  have hjoined : Disjuncts.join
      (Disjuncts.meet (.ofLists TypeSet.serviceLists)
        (Disjuncts.join (.ofPredicates [⟨"X", "1"⟩]) (.ofPredicates [⟨"X", "2"⟩])))
      (.ofPredicates [⟨"X", "2"⟩]) = refinedDisjuncts := by decide +kernel
  have hdisjuncts : refinedConstruction.disjuncts = .ok refinedDisjuncts := by
    simp only [refinedConstruction, disjuncts, hread]
    exact congrArg Except.ok hjoined
  have hvalues : ¬∃ p ∈ refinedConjunct, ∃ q ∈ refinedConjunct, p.key = q.key ∧ p.value ≠ q.value := by
    simp [refinedConjunct]
  obtain ⟨-, hnormal, hminimal, hlists⟩ := normal_form_kept
  refine ⟨hdisjuncts, (hnormal _ _ hdisjuncts).2, hminimal _ _ (by decide +kernel) (by decide +kernel), ?_⟩
  exact (hlists _ _ (by decide +kernel) (by decide +kernel)).resolve_left hvalues

end Construction

end ArchFlow
