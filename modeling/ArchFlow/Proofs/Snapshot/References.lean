import ArchFlow.Snapshot.Basic

/-!
# References in snapshots

A reference means the element with that id, and if there is none the first one with that name. A snapshot links two
elements if it has a link between references that mean them.

* `Snapshot.means_iff`: the element that a reference is resolved to is the one it means.
* `linked_iff`: snapshots link what their resolved links connect.
-/

namespace ArchFlow

namespace Snapshot

/-- The reference means the element with the id: it is the id, or else the name of the first fact with that name. -/
def Means (s : Snapshot) (reference : String) (id : ElementId) : Prop :=
  ((∃ f ∈ s.elements, f.elementId = reference) ∧ id = reference) ∨
    ((∀ f ∈ s.elements, f.elementId ≠ reference) ∧
      ∃ before f after, s.elements = before ++ f :: after ∧ (∀ g ∈ before, g.name ≠ some reference) ∧
        f.name = some reference ∧ f.elementId = id)

variable {s : Snapshot} {reference : String}

theorem mem_identified {f : IdentifiedFact} : f ∈ s.identified ↔ f.fact ∈ s.elements ∧ f.id = f.fact.elementId := by
  rw [identified, List.mem_map]
  constructor
  · rintro ⟨e, he, rfl⟩
    exact ⟨he, rfl⟩
  · rintro ⟨he, hid⟩
    exact ⟨f.fact, he, by rw [← hid]⟩

theorem resolve?_of_id (h : ∃ f ∈ s.elements, f.elementId = reference) :
    ∃ f, s.resolve? reference = some f ∧ f.id = reference := by
  obtain ⟨e, he, hid⟩ := h
  have hsome : (s.identified.reverse.find? (·.id = reference)).isSome = true :=
    List.find?_isSome.2 ⟨⟨e.elementId, e⟩, List.mem_reverse.2 (mem_identified.2 ⟨he, rfl⟩), by simpa using hid⟩
  obtain ⟨f, hf⟩ := Option.isSome_iff_exists.1 hsome
  have hfid : f.id = reference := by simpa using List.find?_some hf
  exact ⟨f, by rw [resolve?, resolveIn, hf, Option.some_or], hfid⟩

theorem resolve?_of_name (h : ∀ f ∈ s.elements, f.elementId ≠ reference) :
    s.resolve? reference = (s.elements.find? (·.name = some reference)).map fun f => ⟨f.elementId, f⟩ := by
  have hnone : s.identified.reverse.find? (·.id = reference) = none := by
    rw [List.find?_eq_none]
    intro f hf hid
    obtain ⟨he, hfid⟩ := mem_identified.1 (List.mem_reverse.1 hf)
    exact h f.fact he (hfid.symm.trans (of_decide_eq_true hid))
  rw [resolve?, resolveIn, hnone, Option.none_or, identified, List.find?_map]
  rfl

/-- The element that a reference is resolved to is the one that it means. -/
theorem means_iff {id : ElementId} : s.Means reference id ↔ ∃ f, s.resolve? reference = some f ∧ f.id = id := by
  by_cases hid : ∃ f ∈ s.elements, f.elementId = reference
  · obtain ⟨f, hf, hfid⟩ := resolve?_of_id hid
    constructor
    · rintro (⟨-, rfl⟩ | ⟨hno, -⟩)
      · exact ⟨f, hf, hfid⟩
      · obtain ⟨e, he, heid⟩ := hid
        exact absurd heid (hno e he)
    · rintro ⟨g, hg, rfl⟩
      rw [hf] at hg
      cases hg
      exact .inl ⟨hid, hfid⟩
  · have hno : ∀ f ∈ s.elements, f.elementId ≠ reference := fun f hf hfid => hid ⟨f, hf, hfid⟩
    rw [resolve?_of_name hno]
    constructor
    · rintro (⟨h, -⟩ | ⟨-, before, f, after, hsplit, hbefore, hname, hfid⟩)
      · exact absurd h hid
      · have hfind : s.elements.find? (·.name = some reference) = some f :=
          List.find?_eq_some_iff_append.2
            ⟨decide_eq_true hname, before, after, hsplit, fun g hg => by simpa using hbefore g hg⟩
        exact ⟨_, by rw [hfind]; rfl, hfid⟩
    · rintro ⟨g, hg, rfl⟩
      obtain ⟨f, hf, rfl⟩ := Option.map_eq_some_iff.1 hg
      obtain ⟨hname, before, after, hsplit, hbefore⟩ := List.find?_eq_some_iff_append.1 hf
      exact .inr ⟨hno, before, f, after, hsplit, fun g hg => by simpa using hbefore g hg,
        of_decide_eq_true hname, rfl⟩

theorem mem_of_resolve? {f : IdentifiedFact} (h : s.resolve? reference = some f) : f ∈ s.identified := by
  rcases Option.or_eq_some_iff.1 h with h | ⟨-, h⟩
  · exact List.mem_reverse.1 (List.mem_of_find?_eq_some h)
  · exact List.mem_of_find?_eq_some h

theorem mem_resolvedLinks {l : ResolvedLink} :
    l ∈ s.resolvedLinks ↔
      ∃ k ∈ s.links, s.resolve? k.source = some l.source ∧ s.resolve? k.target = some l.target ∧ k.kind = l.kind := by
  rw [resolvedLinks, List.mem_filterMap]
  refine exists_congr fun k => and_congr_right fun _ => ?_
  simp only [linkIn, resolve?, Option.bind_eq_bind, Option.bind_eq_some_iff, Option.pure_def, Option.some.injEq]
  constructor
  · rintro ⟨f, hf, g, hg, rfl⟩
    exact ⟨hf, hg, rfl⟩
  · rintro ⟨hf, hg, hkind⟩
    exact ⟨l.source, hf, l.target, hg, by rw [hkind]⟩

end Snapshot

/-- Some snapshot links the elements with the ids, by a link of the kind. -/
def Linked (snapshots : List Snapshot) (source : ElementId) (kind : String) (target : ElementId) : Prop :=
  ∃ s ∈ snapshots, ∃ l ∈ s.links, l.kind = kind ∧ s.Means l.source source ∧ s.Means l.target target

/-- Snapshots link what their resolved links connect. -/
theorem linked_iff {snapshots : List Snapshot} {source target : ElementId} {kind : String} :
    Linked snapshots source kind target ↔
      ∃ s ∈ snapshots, ∃ l ∈ s.resolvedLinks, l.kind = kind ∧ l.source.id = source ∧ l.target.id = target := by
  refine exists_congr fun s => and_congr_right fun _ => ?_
  simp only [Snapshot.means_iff, Snapshot.mem_resolvedLinks]
  constructor
  · rintro ⟨k, hk, hkind, ⟨f, hf, hfid⟩, g, hg, hgid⟩
    exact ⟨⟨kind, f, g⟩, ⟨k, hk, hf, hg, hkind⟩, rfl, hfid, hgid⟩
  · rintro ⟨l, ⟨k, hk, hf, hg, hkind⟩, rfl, hfid, hgid⟩
    exact ⟨k, hk, hkind, ⟨_, hf, hfid⟩, _, hg, hgid⟩

end ArchFlow
