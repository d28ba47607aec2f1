import ArchFlow.Proofs.Flow.Memory
import ArchFlow.Proofs.Snapshot.Loading

/-!
# Attributes of snapshots

What facts say of an attribute is sorted by their kinds, and of the facts about an element as one of a kind the last one
counts that gives the attribute. The element has the first of these values that is not empty: by snapshot, then by kind.

* `Snapshot.Gives`: the value that a snapshot gives an element as one of a kind.
* `FirstServed`: the first value that is not empty.
* `resolve?_snapshotBase`: what an attribute of an element is resolved to.
-/

namespace ArchFlow

variable {ω : Type} {snapshots : List Snapshot} {kind name value : String} {id : ElementId}

/-! ## Values that are stated -/

/-- The last fact about the id as an element of the kind that gives the attribute gives it the value. -/
def Snapshot.Gives (s : Snapshot) (kind name : String) (id : ElementId) (value : String) : Prop :=
  ∃ before f after, s.elements = before ++ f :: after ∧
    ((f.kind = kind ∧ f.elementId = id) ∧ f.attributes.get? name = some value) ∧
    ∀ g ∈ after, g.kind = kind ∧ g.elementId = id → g.attributes.get? name = none

/-- The value is not empty, a snapshot gives it to the id as an element of some kind, and neither an earlier snapshot nor
the same one for an earlier kind gives anything but the empty value. -/
def FirstServed (snapshots : List Snapshot) (name : String) (id : ElementId) (value : String) : Prop :=
  value ≠ "" ∧ ∃ before s after kind, snapshots = before ++ s :: after ∧ s.Gives kind name id value ∧
    (∀ t ∈ before, ∀ k v, t.Gives k name id v → v = "") ∧ ∀ k v, k < kind → s.Gives k name id v → v = ""

/-- The last value that a list has for its entries. -/
theorem getLast?_filterMap_eq_some_iff {α β : Type} {g : α → Option β} {l : List α} {b : β} :
    (l.filterMap g).getLast? = some b ↔
      ∃ before a after, l = before ++ a :: after ∧ g a = some b ∧ ∀ c ∈ after, g c = none := by
  rw [List.getLast?_filterMap, List.findSome?_eq_some_iff]
  constructor
  · rintro ⟨after, a, before, hl, ha, hafter⟩
    refine ⟨before.reverse, a, after.reverse, ?_, ha, fun c hc => hafter c (List.mem_reverse.1 hc)⟩
    rw [List.reverse_eq_append_iff.1 hl]
    simp
  · rintro ⟨before, a, after, rfl, ha, hafter⟩
    exact ⟨after.reverse, a, before.reverse, by simp, ha, fun c hc => hafter c (List.mem_reverse.1 hc)⟩

theorem statedValue_eq_some_iff {s : Snapshot} :
    statedValue s.identified kind name id = some value ↔ s.Gives kind name id value := by
  rw [statedValue, Snapshot.identified, List.filterMap_filter, List.filterMap_map, getLast?_filterMap_eq_some_iff]
  simp only [Function.comp, decide_eq_true_eq, Option.ite_none_right_eq_some, ite_eq_right_iff]
  exact Iff.rfl

/-- A value is given by a fact. -/
theorem Snapshot.Gives.exists_fact {s : Snapshot} (h : s.Gives kind name id value) :
    ∃ f ∈ s.elements, (f.kind = kind ∧ f.elementId = id) ∧ f.attributes.get? name = some value := by
  obtain ⟨before, f, after, helements, hf, -⟩ := h
  exact ⟨f, helements ▸ by simp, hf⟩

/-! ## Values that are served -/

/-- The kinds of the facts of a snapshot, in order. -/
def Snapshot.sortedKinds (s : Snapshot) : List String := (SortedSet.ofList (s.elements.map (·.kind))).toList

/-- The first value that is not empty, by snapshot and by kind. -/
def servedValue (snapshots : List Snapshot) (name : String) (id : ElementId) : Option String :=
  snapshots.findSome? fun s => s.sortedKinds.findSome? fun kind =>
    (statedValue s.identified kind name id).filter (· ≠ "")

theorem mem_sortedKinds {s : Snapshot} : kind ∈ s.sortedKinds ↔ ∃ f ∈ s.elements, f.kind = kind := by
  rw [Snapshot.sortedKinds, ← SortedSet.mem_def, SortedSet.mem_ofList, List.mem_map]

theorem Snapshot.Gives.mem_sortedKinds {s : Snapshot} (h : s.Gives kind name id value) : kind ∈ s.sortedKinds := by
  obtain ⟨f, hf, ⟨hkind, -⟩, -⟩ := h.exists_fact
  exact ArchFlow.mem_sortedKinds.2 ⟨f, hf, hkind⟩

theorem sortedKinds_pairwise (s : Snapshot) : s.sortedKinds.Pairwise (· < ·) :=
  (SortedSet.ofList (s.elements.map (·.kind))).increasing.imp fun hlt => compareOfLessAndEq_eq_lt.1 hlt

section Served

variable {s : Snapshot}

theorem filter_statedValue_eq_some_iff :
    (statedValue s.identified kind name id).filter (· ≠ "") = some value ↔ s.Gives kind name id value ∧ value ≠ "" := by
  rw [Option.filter_eq_some_iff, statedValue_eq_some_iff, decide_eq_true_eq]

theorem filter_statedValue_eq_none_iff :
    (statedValue s.identified kind name id).filter (· ≠ "") = none ↔ ∀ v, s.Gives kind name id v → v = "" := by
  simp [Option.filter_eq_none_iff, statedValue_eq_some_iff]

/-- The value that a snapshot serves is that of the first kind for which it gives one that is not empty. -/
theorem findSome?_sortedKinds_eq_some_iff :
    (s.sortedKinds.findSome? fun kind => (statedValue s.identified kind name id).filter (· ≠ "")) = some value ↔
      ∃ kind, (s.Gives kind name id value ∧ value ≠ "") ∧ ∀ k v, k < kind → s.Gives k name id v → v = "" := by
  have hsorted := sortedKinds_pairwise s
  rw [List.findSome?_eq_some_iff]
  simp only [filter_statedValue_eq_some_iff, filter_statedValue_eq_none_iff]
  constructor
  · rintro ⟨before, kind, after, hkinds, hvalue, hbefore⟩
    refine ⟨kind, hvalue, fun k v hlt hv => ?_⟩
    have hk : k ∈ before ++ kind :: after := hkinds ▸ hv.mem_sortedKinds
    rw [hkinds, List.pairwise_append, List.pairwise_cons] at hsorted
    rcases List.mem_append.1 hk with hk | hk
    · exact hbefore k hk v hv
    · rcases List.mem_cons.1 hk with rfl | hk
      · exact absurd hlt (String.lt_irrefl k)
      · exact absurd hlt (String.lt_asymm (hsorted.2.1.1 k hk))
  · rintro ⟨kind, hvalue, hearlier⟩
    obtain ⟨before, after, hkinds⟩ := List.append_of_mem hvalue.1.mem_sortedKinds
    rw [hkinds, List.pairwise_append] at hsorted
    exact ⟨before, kind, after, hkinds, hvalue, fun k hk v hv =>
      hearlier k v (hsorted.2.2 k hk kind List.mem_cons_self) hv⟩

theorem findSome?_sortedKinds_eq_none_iff :
    (s.sortedKinds.findSome? fun kind => (statedValue s.identified kind name id).filter (· ≠ "")) = none ↔
      ∀ k v, s.Gives k name id v → v = "" := by
  rw [List.findSome?_eq_none_iff]
  simp only [filter_statedValue_eq_none_iff]
  constructor
  · exact fun h k v hv => h k hv.mem_sortedKinds v hv
  · exact fun h k _ => h k

end Served

theorem servedValue_eq_none_iff :
    servedValue snapshots name id = none ↔ ∀ s ∈ snapshots, ∀ k v, s.Gives k name id v → v = "" := by
  rw [servedValue, List.findSome?_eq_none_iff]
  simp only [findSome?_sortedKinds_eq_none_iff]

theorem servedValue_eq_some_iff : servedValue snapshots name id = some value ↔ FirstServed snapshots name id value := by
  rw [servedValue, List.findSome?_eq_some_iff]
  simp only [findSome?_sortedKinds_eq_none_iff, findSome?_sortedKinds_eq_some_iff]
  constructor
  · rintro ⟨before, s, after, hsnapshots, ⟨kind, ⟨hgives, hne⟩, hkinds⟩, hbefore⟩
    exact ⟨hne, before, s, after, kind, hsnapshots, hgives, hbefore, hkinds⟩
  · rintro ⟨hne, before, s, after, kind, hsnapshots, hgives, hbefore, hkinds⟩
    exact ⟨before, s, after, hsnapshots, ⟨kind, ⟨hgives, hne⟩, hkinds⟩, hbefore⟩

/-! ## Values that are resolved -/

theorem findSome?_flatMap {α β γ : Type} (f : α → List β) (g : β → Option γ) (l : List α) :
    (l.flatMap f).findSome? g = l.findSome? fun a => (f a).findSome? g := by
  induction l with
  | nil => rfl
  | cons a l ih =>
    rw [List.flatMap_cons, List.findSome?_append, ih, List.findSome?_cons]
    cases (f a).findSome? g <;> rfl

theorem findSome?_filter {α β : Type} (p : α → Bool) (g : α → Option β) (l : List α) :
    (l.filter p).findSome? g = l.findSome? fun a => if p a then g a else none := by
  rw [← List.head?_filterMap, List.filterMap_filter, List.head?_filterMap]

theorem findSome?_congr {α β : Type} {f g : α → Option β} {l : List α} (h : ∀ a ∈ l, f a = g a) :
    l.findSome? f = l.findSome? g := by
  induction l with
  | nil => rfl
  | cons a l ih => rw [List.findSome?_cons, List.findSome?_cons, h a List.mem_cons_self,
      ih fun b hb => h b (List.mem_cons_of_mem _ hb)]

/-- All entries of a list that have a value have the same one. -/
theorem findSome?_eq_of_unique {α β : Type} {g : α → Option β} {l : List α} {o : Option β}
    (hall : ∀ a ∈ l, ∀ b, g a = some b → o = some b) (hsome : ∀ b, o = some b → ∃ a ∈ l, g a = some b) :
    l.findSome? g = o := by
  cases hfound : l.findSome? g with
  | some b =>
    obtain ⟨a, ha, hb⟩ := List.exists_of_findSome?_eq_some hfound
    exact (hall a ha b hb).symm
  | none =>
    cases o with
    | none => rfl
    | some b =>
      obtain ⟨a, ha, hb⟩ := hsome b rfl
      rw [List.findSome?_eq_none_iff.1 hfound a ha] at hb
      cases hb

/-- A name that a value is given for is one of those that the sources of a snapshot are for. -/
theorem Snapshot.Gives.mem_statedNames {s : Snapshot} (h : s.Gives kind name id value) :
    name ∈ statedNames s.identified kind := by
  obtain ⟨f, hf, ⟨hkind, -⟩, hvalue⟩ := h.exists_fact
  have hidentified : (⟨f.elementId, f⟩ : IdentifiedFact) ∈ s.identified := Snapshot.mem_identified.2 ⟨hf, rfl⟩
  rw [statedNames, ← SortedSet.mem_def, SortedSet.mem_ofList, List.mem_flatMap]
  refine ⟨_, List.mem_filter.2 ⟨hidentified, decide_eq_true hkind⟩, ?_⟩
  exact List.mem_map_of_mem (SortedMap.get?_eq_some_iff.1 hvalue)

theorem Snapshot.Gives.hasKind {s : Snapshot} (hs : s ∈ snapshots) (h : s.Gives kind name id value) :
    HasKind snapshots id kind := by
  obtain ⟨f, hf, ⟨hkind, hid⟩, -⟩ := h.exists_fact
  exact ⟨s, hs, f, hf, hid, hkind⟩

/-- What a source that knows no world answers. -/
def AttributeSource.given (w : ω) (r : AttributeSource ω) (id : ElementId) : Option String :=
  (r.load id w).1.toOption.join

theorem given_snapshotBase (w : ω) {r : AttributeSource ω} (hr : r ∈ (snapshotBase snapshots : FactBase ω).attributes)
    (id : ElementId) : (r.load id).Steady (.ok (r.given w id)) := by
  obtain ⟨s, -, hr⟩ := List.mem_flatMap.1 hr
  obtain ⟨kind, -, hr⟩ := List.mem_flatMap.1 hr
  obtain ⟨name, -, rfl⟩ := List.mem_map.1 hr
  exact fun _ => rfl

section Sources

variable {type : ElementType} (htype : ∀ k, type.fits (.ofKind k) = true ↔ HasKind snapshots id k)
include htype

/-- Of the sources of a snapshot for the attributes of a kind, the one for an attribute gives its value. -/
theorem findSome?_statedNames {s : Snapshot} (hs : s ∈ snapshots) (w : ω) (kind name : String) :
    ((statedNames s.identified kind).map fun name =>
        (⟨.ofKind kind, name, fun id => .constant (statedValue s.identified kind name id)⟩ : AttributeSource ω)).findSome?
      (fun r => if decide (r.name = name) then if type.fits r.elementType then (r.given w id).filter (· ≠ "") else none
        else none) =
      (statedValue s.identified kind name id).filter (· ≠ "") := by
  rw [List.findSome?_map]
  apply findSome?_eq_of_unique
  · intro n _ v hv
    simp only [Function.comp, decide_eq_true_eq, Option.ite_none_right_eq_some] at hv
    obtain ⟨rfl, -, hv⟩ := hv
    exact hv
  · intro v hv
    have hgives := (filter_statedValue_eq_some_iff.1 hv).1
    refine ⟨name, hgives.mem_statedNames, ?_⟩
    have hfits : type.fits (.ofKind kind) = true := (htype kind).2 (hgives.hasKind hs)
    simp only [Function.comp, decide_true, if_true, hfits]
    exact hv

/-- Of the sources for an attribute, those that describe an element give it the value that is served. -/
theorem firstGiven_snapshotBase (w : ω) (name : String) :
    (snapshotBase snapshots).firstGiven (AttributeSource.given w) name id type = servedValue snapshots name id := by
  rw [FactBase.firstGiven, findSome?_filter, findSome?_filter, snapshotBase, findSome?_flatMap, servedValue]
  refine findSome?_congr fun s hs => ?_
  rw [attributeSources, findSome?_flatMap]
  have hkinds : (SortedSet.ofList (s.identified.map (·.fact.kind))).toList = s.sortedKinds := by
    rw [Snapshot.sortedKinds, Snapshot.identified, List.map_map]
    rfl
  rw [hkinds]
  exact findSome?_congr fun kind _ => findSome?_statedNames htype hs w kind name

end Sources

/-- An attribute of an element that facts are about is resolved to the value that is served. -/
theorem resolve?_snapshotBase (h : HasKind snapshots id kind) (name : String) (w : ω) :
    ((snapshotBase snapshots).resolve? name id (.fresh w)).1 = .ok (servedValue snapshots name id) := by
  obtain ⟨type, htype, hfits⟩ := exists_type_of_hasKind h (.fresh w)
  rw [FactBase.resolve?_of_known (fun _ hr => given_snapshotBase w hr) htype, firstGiven_snapshotBase hfits]
  rfl

end ArchFlow
