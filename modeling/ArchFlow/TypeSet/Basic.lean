import ArchFlow.SortedSet

/-!
# Types as sets of readings

Elements and links are classified by the attribute values that they are known to have. A *conjunct* lists values that
hold together; a `TypeSet` is a set of conjuncts of which at least one holds, kept in normal form:

* no conjunct gives one key two values, since every key has a single value, and
* no conjunct is contained in another one, since the smaller conjunct describes whatever the larger one does.

Every way to make a type goes through `TypeSet.ofConjuncts`, which brings any list of conjuncts into that form.

* `TypeSet.mem_ofConjuncts`: the conjuncts that are kept are the satisfiable ones that are minimal under inclusion.
* `TypeSet.text`: a type as messages write it.
-/

namespace ArchFlow

/-! ## Predicates and conjuncts -/

/-- A single required attribute value. -/
structure Predicate where
  key : String
  value : String
deriving DecidableEq

namespace Predicate

/-- By key, then by value. -/
abbrev order : Predicate → Predicate → Ordering := compareLex (compareOn key) (compareOn value)

instance : Ord Predicate := ⟨order⟩

instance : Std.TransOrd Predicate := inferInstanceAs (Std.TransCmp order)

instance : Std.LawfulEqOrd Predicate where
  compare_self {p} := @Std.ReflCmp.compare_self _ order _ p
  eq_of_compare {p q} h := by
    obtain ⟨hk, hv⟩ := Ordering.then_eq_eq.1 h
    have hk' : p.key = q.key := Std.LawfulEqCmp.eq_of_compare hk
    have hv' : p.value = q.value := Std.LawfulEqCmp.eq_of_compare hv
    cases p; cases q; simp_all

end Predicate

/-- Attribute values that hold together. -/
abbrev Conjunct := SortedSet Predicate

namespace Conjunct

/-- No key is given two values. -/
def Satisfiable (c : Conjunct) : Prop :=
  c.toList.Pairwise fun p q => p.key ≠ q.key

instance (c : Conjunct) : Decidable c.Satisfiable :=
  inferInstanceAs (Decidable (c.toList.Pairwise fun p q => p.key ≠ q.key))

/-- The value that the conjunct gives a key. -/
def value? (c : Conjunct) (key : String) : Option String :=
  (c.toList.find? (·.key = key)).map (·.value)

end Conjunct

/-! ## Types -/

/-- A set of conjuncts of which at least one holds, in normal form. -/
structure TypeSet where
  disjuncts : SortedSet Conjunct
  satisfiable : ∀ c ∈ disjuncts, c.Satisfiable
  antichain : ∀ c ∈ disjuncts, ∀ d ∈ disjuncts, c.subset d = true → c = d

namespace TypeSet

theorem ext_disjuncts {a b : TypeSet} (h : a.disjuncts = b.disjuncts) : a = b := by
  cases a; cases b; cases h; rfl

instance : DecidableEq TypeSet := fun a b =>
  if h : a.disjuncts = b.disjuncts then isTrue (ext_disjuncts h) else isFalse fun e => h (e ▸ rfl)

/-- Types are ordered as the sets of their conjuncts are. -/
instance : Ord TypeSet := ⟨fun a b => compare a.disjuncts b.disjuncts⟩

/-- Whether no conjunct of the list is strictly contained in `c`. -/
def isMinimal (cs : List Conjunct) (c : Conjunct) : Bool :=
  cs.all fun d => d = c || !d.subset c

/-- The satisfiable conjuncts of a list, less those that contain another one. -/
def normalForm (cs : List Conjunct) : SortedSet Conjunct :=
  let satisfiable := cs.filter fun c => decide c.Satisfiable
  (SortedSet.ofList satisfiable).filter (isMinimal satisfiable)

/-- The normal form keeps the satisfiable conjuncts that are minimal under inclusion. -/
theorem mem_normalForm {cs : List Conjunct} {c : Conjunct} :
    c ∈ normalForm cs ↔
      c ∈ cs ∧ c.Satisfiable ∧ ∀ d ∈ cs, d.Satisfiable → d.subset c = true → d = c := by
  simp only [normalForm, SortedSet.mem_filter, SortedSet.mem_ofList, List.mem_filter, decide_eq_true_eq, isMinimal,
    List.all_eq_true, Bool.or_eq_true, Bool.not_eq_true']
  constructor
  · rintro ⟨⟨hc, hs⟩, hmin⟩
    refine ⟨hc, hs, fun d hd hds hdc => ?_⟩
    rcases hmin d ⟨hd, hds⟩ with h | h
    · exact h
    · rw [hdc] at h; cases h
  · rintro ⟨hc, hs, hmin⟩
    refine ⟨⟨hc, hs⟩, fun d hd => ?_⟩
    by_cases h : d.subset c = true
    · exact Or.inl (hmin d hd.1 hd.2 h)
    · exact Or.inr (by simpa using h)

/-- The type that holds where one of the conjuncts does. -/
def ofConjuncts (cs : List Conjunct) : TypeSet where
  disjuncts := normalForm cs
  satisfiable _ hc := (mem_normalForm.1 hc).2.1
  antichain c hc _ hd h :=
    (mem_normalForm.1 hd).2.2 c (mem_normalForm.1 hc).1 (mem_normalForm.1 hc).2.1 h

/-- A type has the satisfiable conjuncts that are minimal under inclusion. -/
theorem mem_ofConjuncts {cs : List Conjunct} {c : Conjunct} :
    c ∈ (ofConjuncts cs).disjuncts ↔
      c ∈ cs ∧ c.Satisfiable ∧ ∀ d ∈ cs, d.Satisfiable → d.subset c = true → d = c :=
  mem_normalForm

/-- The empty type, which describes nothing. -/
def empty : TypeSet := ofConjuncts []

instance : Inhabited TypeSet := ⟨empty⟩

/-- The type whose single conjunct has the given predicates. -/
def ofPredicates (ps : List Predicate) : TypeSet := ofConjuncts [SortedSet.ofList ps]

/-- The type that requires one attribute value. -/
def ofPredicate (key value : String) : TypeSet := ofPredicates [⟨key, value⟩]

/-- The type whose conjuncts are given by lists of predicates. -/
def ofDisjuncts (pss : List (List Predicate)) : TypeSet := ofConjuncts (pss.map SortedSet.ofList)

/-- Whether the type describes nothing. -/
def isEmpty (a : TypeSet) : Bool := a.disjuncts.isEmpty

/-- Number of conjuncts. -/
def size (a : TypeSet) : Nat := a.disjuncts.size

/-- What either type describes. -/
def union (a b : TypeSet) : TypeSet :=
  ofConjuncts (a.disjuncts.toList ++ b.disjuncts.toList)

/-- What both types describe. -/
def inter (a b : TypeSet) : TypeSet :=
  ofConjuncts (a.disjuncts.toList.flatMap fun c => b.disjuncts.toList.map c.union)

/-- Whether what satisfies `c` satisfies a conjunct of `a`. -/
def covers (a : TypeSet) (c : Conjunct) : Bool := a.disjuncts.toList.any fun d => d.subset c

/-- Whether everything that `a` describes is described by `b`. -/
def refines (a b : TypeSet) : Bool := a.disjuncts.toList.all b.covers

/-- Whether one of the classifications in `a` is described by `b`. -/
def fits (a b : TypeSet) : Bool := a.disjuncts.toList.any b.covers

/-- The value of `key` that every conjunct requires, if they all require the same. -/
def requiredValue? (a : TypeSet) (key : String) : Option String :=
  match a.disjuncts.toList with
  | [] => none
  | c :: cs => (c.value? key).filter fun v => cs.all fun d => d.value? key = some v

end TypeSet

/-- The classification of an element. -/
abbrev ElementType := TypeSet

/-- The classification of a link. -/
abbrev LinkType := TypeSet

/-! ## Types in messages -/

/-- A predicate as `key=value`. -/
def Predicate.text (p : Predicate) : String := p.key ++ "=" ++ p.value

/-- A conjunct as its predicates in curly brackets. -/
def Conjunct.text (c : Conjunct) : String :=
  "\x7b" ++ ", ".intercalate (c.toList.map Predicate.text) ++ "\x7d"

/-- A type as its conjuncts, with bars between them; the empty type has a name of its own. -/
def TypeSet.text (a : TypeSet) : String :=
  if a.isEmpty then "<empty>" else " | ".intercalate (a.disjuncts.toList.map Conjunct.text)

end ArchFlow
