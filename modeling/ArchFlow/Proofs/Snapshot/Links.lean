import ArchFlow.Proofs.Snapshot.Loading

/-!
# Links of snapshots

The sources of a snapshot split its links into groups, which are found by the kinds of the elements they connect. No
link is lost that way, since an element fits every kind that a fact gives it.

* `targets_snapshotBase`: what an exploration of the links of a kind finds.
* `mem_ids_linkedElements`: these are the elements that the snapshots link by that kind.
-/

namespace ArchFlow

variable {ω : Type} {snapshots : List Snapshot}

/-- A snapshot and a group of its links. -/
abbrev LinkGroup := Snapshot × String × String × String

/-- The groups of the links of each snapshot, in the order in which they first occur. -/
def linkGroups (snapshots : List Snapshot) : List LinkGroup :=
  snapshots.flatMap fun s => (s.resolvedLinks.map ResolvedLink.group).eraseDups.map fun group => (s, group)

/-- The source for a group of links. -/
def LinkGroup.source (g : LinkGroup) : LinkSource ω :=
  ⟨.ofKind g.2.1, .ofKind g.2.2.1, .ofKind g.2.2.2, fun id => .constant (statedTargets g.1.resolvedLinks g.2 id)⟩

/-- What the snapshots link an element to by links of a kind: by snapshot, group and link. -/
def linkedElements (snapshots : List Snapshot) (kind : String) (id : ElementId) : List Element :=
  ((linkGroups snapshots).filter (·.2.1 = kind)).flatMap fun g => statedTargets g.1.resolvedLinks g.2 id

theorem mem_linkGroups {g : LinkGroup} :
    g ∈ linkGroups snapshots ↔ g.1 ∈ snapshots ∧ ∃ l ∈ g.1.resolvedLinks, l.group = g.2 := by
  obtain ⟨s, group⟩ := g
  simp only [linkGroups, List.mem_flatMap, List.mem_map, List.mem_eraseDups, Prod.mk.injEq]
  constructor
  · rintro ⟨s', hs, group', ⟨l, hl, rfl⟩, rfl, rfl⟩
    exact ⟨hs, l, hl, rfl⟩
  · rintro ⟨hs, l, hl, rfl⟩
    exact ⟨s, hs, _, ⟨l, hl, rfl⟩, rfl, rfl⟩

theorem links_snapshotBase : (snapshotBase snapshots : FactBase ω).links = (linkGroups snapshots).map LinkGroup.source := by
  simp only [snapshotBase, linkGroups, linkSources, List.map_flatMap, List.map_map]
  rfl

theorem mem_statedTargets {links : List ResolvedLink} {group : String × String × String} {id : ElementId} {e : Element} :
    e ∈ statedTargets links group id ↔ ∃ l ∈ links, l.group = group ∧ l.source.id = id ∧ e = l.target.element := by
  rw [statedTargets, List.mem_map]
  constructor
  · rintro ⟨l, hl, rfl⟩
    obtain ⟨hl, hgroup⟩ := List.mem_filter.1 hl
    obtain ⟨hgroup, hsource⟩ := of_decide_eq_true hgroup
    exact ⟨l, hl, hgroup, hsource, rfl⟩
  · rintro ⟨l, hl, hgroup, hsource, rfl⟩
    exact ⟨l, List.mem_filter.2 ⟨hl, decide_eq_true ⟨hgroup, hsource⟩⟩, rfl⟩

/-- The source for a group offers an element all that the group links it to. -/
theorem offered_source {id : ElementId} {type : ElementType}
    (htype : ∀ kind, type.fits (.ofKind kind) = true ↔ HasKind snapshots id kind) {g : LinkGroup}
    (hg : g.1 ∈ snapshots) :
    FactBase.offered type (g.source : LinkSource ω) (statedTargets g.1.resolvedLinks g.2 id) =
      statedTargets g.1.resolvedLinks g.2 id := by
  have hfilter : (statedTargets g.1.resolvedLinks g.2 id).filter (fun e => e.type.fits (.ofKind g.2.2.2)) =
      statedTargets g.1.resolvedLinks g.2 id := by
    refine List.filter_eq_self.2 fun e he => ?_
    obtain ⟨l, -, hgroup, -, rfl⟩ := mem_statedTargets.1 he
    have hkind : l.target.fact.kind = g.2.2.2 := congrArg (·.2.2) hgroup
    refine (TypeSet.fits_ofKind_iff fun c hc => ⟨_, TypeSet.mem_ofKind.1 hc⟩).2 (TypeSet.mem_ofKind.2 ?_)
    rw [hkind]
  rw [FactBase.offered]
  split
  · exact hfilter
  · next hfits =>
    -- a group with a link from the element is for a kind that the element has
    symm
    refine List.eq_nil_iff_forall_not_mem.2 fun e he => hfits ?_
    obtain ⟨l, hl, hgroup, rfl, -⟩ := mem_statedTargets.1 he
    have hkind : l.source.fact.kind = g.2.2.1 := congrArg (·.2.1) hgroup
    obtain ⟨_, -, hsource, -, -⟩ := Snapshot.mem_resolvedLinks.1 hl
    refine (htype g.2.2.1).2 ?_
    rw [← hkind]
    exact hasKind_of_identified hg (Snapshot.mem_of_resolve? hsource)

/-- Exploring the links of a kind from an element finds what the snapshots link it to, each id once. -/
theorem targets_snapshotBase {id : ElementId} {kind : String} (h : HasKind snapshots id kind) (link : String)
    (s : State ω) :
    ((snapshotBase snapshots).targets (.ofKind link) id s).1 = .ok (firstById [] (linkedElements snapshots link id)) := by
  obtain ⟨type, htype, hfits⟩ := exists_type_of_hasKind h s
  have hgroups : ((snapshotBase snapshots).links.filter fun r : LinkSource ω => r.linkType = .ofKind link) =
      ((linkGroups snapshots).filter (·.2.1 = link)).map LinkGroup.source := by
    rw [links_snapshotBase, List.filter_map]
    refine congrArg _ (List.filter_congr fun g _ => decide_eq_decide.2 ⟨TypeSet.ofKind_injective, fun hlink => ?_⟩)
    exact congrArg TypeSet.ofKind hlink
  have hanswers : ((snapshotBase snapshots).ask id type
        (((linkGroups snapshots).filter (·.2.1 = link)).map LinkGroup.source) [] s).1 =
      .ok ([] ++ firstById [] (((linkGroups snapshots).filter (·.2.1 = link)).flatMap fun g =>
        FactBase.offered type (g.source : LinkSource ω) (statedTargets g.1.resolvedLinks g.2 id))) :=
    FactBase.ask_of_answers id type (fun _ _ _ => rfl) [] s
  rw [FactBase.targets, htype]
  dsimp only
  rw [hgroups, hanswers, List.nil_append, linkedElements]
  refine congrArg (fun es => Except.ok (firstById [] es)) (List.flatMap_congr fun g hg => ?_)
  exact offered_source hfits (mem_linkGroups.1 (List.mem_filter.1 hg).1).1

/-- The elements found are those that the snapshots link by the kind. -/
theorem mem_ids_linkedElements {id target : ElementId} {kind : String} :
    target ∈ (firstById [] (linkedElements snapshots kind id)).map (·.id) ↔ Linked snapshots id kind target := by
  rw [mem_ids_firstById, linked_iff, List.mem_map, linkedElements]
  constructor
  · rintro ⟨⟨e, he, rfl⟩, -⟩
    obtain ⟨g, hg, he⟩ := List.mem_flatMap.1 he
    obtain ⟨hg, hkind⟩ := List.mem_filter.1 hg
    obtain ⟨l, hl, hgroup, hsource, rfl⟩ := mem_statedTargets.1 he
    exact ⟨g.1, (mem_linkGroups.1 hg).1, l, hl, (congrArg (·.1) hgroup).trans (of_decide_eq_true hkind), hsource, rfl⟩
  · rintro ⟨s, hs, l, hl, hkind, hsource, rfl⟩
    have hg : (s, l.group) ∈ linkGroups snapshots := mem_linkGroups.2 ⟨hs, l, hl, rfl⟩
    refine ⟨⟨l.target.element, List.mem_flatMap.2 ⟨_, List.mem_filter.2 ⟨hg, decide_eq_true hkind⟩, ?_⟩, rfl⟩, by simp⟩
    exact mem_statedTargets.2 ⟨l, hl, rfl, hsource, rfl⟩

end ArchFlow
