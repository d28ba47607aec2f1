import ArchFlow.Proofs.Flow.Truncation
import ArchFlow.Proofs.Snapshot.Attributes
import ArchFlow.Proofs.Snapshot.Contents
import ArchFlow.Proofs.Snapshot.Links
import ArchFlow.Session

/-!
# Sessions say what snapshots state

A session of snapshots can always be built, and it knows neither more nor less than the facts that the snapshots state:
which elements there are and of which kinds, where flows start, what links lead to, and which attributes elements have.

* `Session.snapshots_load`: elements, their types, and roots.
* `Session.links_served`: the targets of links, in order.
* `Session.attributes_served`: the values of attributes.
-/

namespace ArchFlow

variable {ω : Type} {snapshots : List Snapshot}

/-! ## Links that lead somewhere -/

/-- The snapshot without the links that have an end which it does not resolve. -/
def Snapshot.closed (s : Snapshot) : Snapshot :=
  { s with links := s.links.filter fun l => (s.resolve? l.source).isSome ∧ (s.resolve? l.target).isSome }

/-- The ids of the targets of links of a kind from an element: by snapshot, by group in the order in which the groups of
the snapshot first occur, and by link. -/
def linkedIds (snapshots : List Snapshot) (kind : String) (source : ElementId) : List ElementId :=
  snapshots.flatMap fun s =>
    ((s.resolvedLinks.map ResolvedLink.group).eraseDups.filter (·.1 = kind)).flatMap fun group =>
      (s.resolvedLinks.filter fun l => l.group = group ∧ l.source.id = source).map (·.target.id)

theorem map_id_linkedElements (snapshots : List Snapshot) (kind : String) (source : ElementId) :
    (linkedElements snapshots kind source).map (·.id) = linkedIds snapshots kind source := by
  rw [linkedElements, linkGroups, List.filter_flatMap, List.flatMap_assoc, List.map_flatMap, linkedIds]
  refine List.flatMap_congr fun s _ => ?_
  rw [List.filter_map, List.flatMap_map, List.map_flatMap]
  refine List.flatMap_congr fun group _ => ?_
  rw [statedTargets, List.map_map]
  rfl

/-- A link that leads nowhere is not among those that are resolved. -/
theorem Snapshot.resolvedLinks_closed (s : Snapshot) : s.closed.resolvedLinks = s.resolvedLinks := by
  have hnone : ∀ l : LinkFact, ¬ ((s.resolve? l.source).isSome ∧ (s.resolve? l.target).isSome) →
      linkIn s.identified l = none := by
    intro l hl
    rw [linkIn]
    cases hsource : resolveIn s.identified l.source with
    | none => rfl
    | some f =>
      cases htarget : resolveIn s.identified l.target with
      | none => rfl
      | some g => exact absurd ⟨by rw [resolve?, hsource]; rfl, by rw [resolve?, htarget]; rfl⟩ hl
  show (s.links.filter _).filterMap (linkIn s.identified) = s.links.filterMap (linkIn s.identified)
  rw [List.filterMap_filter]
  refine List.filterMap_congr fun l _ => ?_
  split
  · rfl
  · next hl => exact (hnone l fun h => hl (decide_eq_true h)).symm

theorem Snapshot.registry_closed (s : Snapshot) : (s.closed.registry : Registry ω) = s.registry := by
  have hlinks : s.closed.links.filterMap (linkIn s.identified) = s.links.filterMap (linkIn s.identified) :=
    s.resolvedLinks_closed
  show (⟨_, _, linkSources (s.closed.links.filterMap (linkIn s.identified))⟩ : Registry ω) = _
  rw [hlinks]
  rfl

namespace Session

/-! ## What a session knows -/

/-- Whatever is asked, snapshots go on to answer as at first. -/
theorem agrees_after (history : List (Query ω)) (w : ω) :
    (snapshotBase snapshots).Agrees (.fresh w) ((snapshotBase snapshots).after history (.fresh w)) :=
  Explorer.agrees_after (x := ⟨snapshotBase snapshots, .architecture, .never⟩) (snapshotBase_steady snapshots) history w w

/-- Whatever is asked, no element becomes known that is not registered, and none changes its type. -/
theorem typeOf?_after (history : List (Query ω)) (w : ω) (id : ElementId) :
    (snapshotBase snapshots).typeOf? ((snapshotBase snapshots).after history (.fresh w)) id =
      (snapshotBase snapshots : FactBase ω).types.lookup id :=
  ((agrees_after history w).typeOf? id).trans (Option.or_none ..)

/-- The elements that are known are those that facts are about. -/
theorem contains_after_iff (history : List (Query ω)) (w : ω) (id : ElementId) :
    (snapshotBase snapshots).contains ((snapshotBase snapshots).after history (.fresh w)) id = true ↔
      ∃ kind, HasKind snapshots id kind := by
  rw [FactBase.contains, typeOf?_after, registered_snapshotBase]

/-- **Snapshots load totally and faithfully.** A session of snapshots is built whatever they state, be it in any world,
and whatever is asked of it then, it knows the ids that facts are about and no others. The type of an id is the union of
the kinds that facts give it, and it fits these kinds and no others. The roots are the ids that facts give a root kind,
each once: kinds come in the order in which they first occur in the snapshots, and ids in the order in which they first
occur under a kind. -/
theorem snapshots_load (snapshots : List Snapshot) (settings : Settings) (w : ω) :
    ∃ x, build (.join (snapshots.map Snapshot.registry)) settings w = (.ok x, w) ∧
      (∀ (history : List (Query ω)) (id : ElementId),
        let s := x.base.after history (.fresh w)
        (x.base.contains s id = true ↔ ∃ f ∈ factsOf snapshots, f.elementId = id) ∧
        x.base.typeOf? s id = TypeSet.joined? ((kindsOfId (factsOf snapshots) id).map .ofKind) ∧
        ∀ kind, (x.base.typeOf? s id).any (·.fits (.ofKind kind)) = true ↔
          ∃ f ∈ factsOf snapshots, f.elementId = id ∧ f.kind = kind) ∧
      let roots := (x.roots none).map (·.id)
      roots.Nodup ∧
      (∀ id, id ∈ roots ↔ ∃ f ∈ factsOf snapshots, f.elementId = id ∧ f.kind ∈ settings.rootKinds) ∧
      roots = (((kindsOf (factsOf snapshots)).filter (· ∈ settings.rootKinds)).flatMap
        (idsOfKind (factsOf snapshots))).eraseDups := by
  have hroots : (roots ⟨(snapshotBase snapshots : FactBase ω), settings⟩ none).map (·.id) = _ :=
    ids_rootsOf_snapshotBase settings
  refine ⟨⟨snapshotBase snapshots, settings⟩, by rw [build, build_snapshots], fun history id => ?_, ?_⟩
  · intro s
    have htype : (snapshotBase snapshots).typeOf? s id = (snapshotBase snapshots : FactBase ω).types.lookup id :=
      typeOf?_after history w id
    refine ⟨?_, htype.trans (lookup_snapshotBase id), fun kind => ?_⟩
    · rw [← exists_hasKind_iff]
      exact contains_after_iff history w id
    · rw [← hasKind_iff]
      exact any_fits_iff htype kind
  · refine ⟨hroots ▸ nodup_eraseDups _, fun id => ?_, hroots⟩
    rw [hroots]
    simp only [List.mem_eraseDups, List.mem_flatMap, List.mem_filter, mem_kindsOf, mem_idsOfKind, decide_eq_true_eq]
    constructor
    · rintro ⟨kind, ⟨-, hkind⟩, f, hf, hid, rfl⟩
      exact ⟨f, hf, hid, hkind⟩
    · rintro ⟨f, hf, hid, hkind⟩
      exact ⟨f.kind, ⟨⟨f, hf, rfl⟩, hkind⟩, f, hf, hid, rfl⟩

/-! ## Where links lead -/

/-- **The links of snapshots are served exactly.** Whatever is asked of a session of snapshots, exploring the links of a
kind from any element that it knows succeeds, and finds the targets that the snapshots link the element to by that kind
and no others, each once: by snapshot, then by group, then by link. Other elements have no links to explore. Links with
an end that their own snapshot does not resolve make no difference. -/
theorem links_served (snapshots : List Snapshot) (settings : Settings) (w : ω) :
    ∃ x, build (.join (snapshots.map Snapshot.registry)) settings w = (.ok x, w) ∧
      build (.join (snapshots.map fun s => s.closed.registry)) settings w = (.ok x, w) ∧
      ∀ (history : List (Query ω)) (kind : String) (source : ElementId),
        let s := x.base.after history (.fresh w)
        if x.base.contains s source then
          ∃ es, (x.base.targets (.ofKind kind) source s).1 = .ok es ∧
            (es.map (·.id)).Nodup ∧
            (∀ target, target ∈ es.map (·.id) ↔ Linked snapshots source kind target) ∧
            es.map (·.id) = (linkedIds snapshots kind source).eraseDups
        else (x.base.targets (.ofKind kind) source s).1 = .error (.unknownElement source) := by
  have hbuild : build (.join (snapshots.map Snapshot.registry)) settings w =
      (.ok ⟨snapshotBase snapshots, settings⟩, w) := by rw [build, build_snapshots]
  refine ⟨⟨snapshotBase snapshots, settings⟩, hbuild, ?_, fun history kind source => ?_⟩
  · simp only [Snapshot.registry_closed]
    exact hbuild
  · intro s
    by_cases hsource : (snapshotBase snapshots).contains s source = true
    · rw [if_pos hsource]
      obtain ⟨k, hk⟩ := (contains_after_iff history w source).1 hsource
      have hids : (firstById [] (linkedElements snapshots kind source)).map (·.id) =
          (linkedIds snapshots kind source).eraseDups := by
        rw [map_id_firstById, map_id_linkedElements]
      exact ⟨_, targets_snapshotBase hk kind s, hids ▸ nodup_eraseDups _, fun _ => mem_ids_linkedElements, hids⟩
    · have hnone : (snapshotBase snapshots).typeOf? s source = none := Option.not_isSome_iff_eq_none.1 hsource
      rw [if_neg hsource, FactBase.targets, hnone]

/-! ## Which attributes elements have -/

/-- What an attribute is resolved to, whatever was asked before. -/
theorem resolve?_after (history : List (Query ω)) (w : ω) (name : String) (id : ElementId) :
    ((snapshotBase snapshots).resolve? name id ((snapshotBase snapshots).after history (.fresh w))).1 =
      if (snapshotBase snapshots).contains (.fresh w) id then .ok (servedValue snapshots name id)
      else .error (.unknownElement id) := by
  rw [(agrees_after history w).resolve name id]
  by_cases hid : (snapshotBase snapshots).contains (.fresh w) id = true
  · obtain ⟨kind, hkind⟩ := (contains_after_iff [] w id).1 hid
    rw [if_pos hid, resolve?_snapshotBase hkind]
  · have hnone : (snapshotBase snapshots).typeOf? (.fresh w) id = none := Option.not_isSome_iff_eq_none.1 hid
    rw [if_neg hid, FactBase.resolve?_fst, hnone]

/-- A value is served for an element only if a fact is about it. -/
theorem exists_fact_of_firstServed {name value : String} {id : ElementId} (h : FirstServed snapshots name id value) :
    ∃ f ∈ factsOf snapshots, f.elementId = id := by
  obtain ⟨-, before, s, after, kind, hs, hgives, -⟩ := h
  exact exists_hasKind_iff.1 ⟨kind, hgives.hasKind (hs ▸ by simp)⟩

/-- **The attributes of snapshots are served exactly.** Whatever is asked of a session of snapshots, resolving an
attribute of an element fails only if no fact is about the element, which is then called unknown. Otherwise it gives the
first value that is not empty, by snapshot and then by kind; of the facts of a snapshot about the element as one of a
kind, the last one counts that has the attribute. It gives none if no fact that counts has a value that is not empty. -/
theorem attributes_served (snapshots : List Snapshot) (settings : Settings) (w : ω) :
    ∃ x, build (.join (snapshots.map Snapshot.registry)) settings w = (.ok x, w) ∧
      ∀ (history : List (Query ω)) (name : String) (id : ElementId),
        let answer := (x.base.resolve? name id (x.base.after history (.fresh w))).1
        (∀ failure, answer = .error failure ↔
          failure = .unknownElement id ∧ ∀ f ∈ factsOf snapshots, f.elementId ≠ id) ∧
        (∀ value, answer = .ok (some value) ↔ FirstServed snapshots name id value) ∧
        (answer = .ok none ↔ (∃ f ∈ factsOf snapshots, f.elementId = id) ∧
          ∀ s ∈ snapshots, ∀ kind value, s.Gives kind name id value → value = "") := by
  refine ⟨⟨snapshotBase snapshots, settings⟩, by rw [build, build_snapshots], fun history name id => ?_⟩
  intro answer
  have hanswer : answer = _ := resolve?_after history w name id
  have hcontains : (snapshotBase snapshots).contains (.fresh w) id = true ↔ ∃ f ∈ factsOf snapshots, f.elementId = id :=
    (contains_after_iff [] w id).trans exists_hasKind_iff
  by_cases hfact : ∃ f ∈ factsOf snapshots, f.elementId = id
  · rw [if_pos (hcontains.2 hfact)] at hanswer
    refine ⟨fun failure => iff_of_false (fun h => ?_) fun h => ?_, fun value => ?_, ?_⟩
    · rw [hanswer] at h
      cases h
    · obtain ⟨f, hf, hid⟩ := hfact
      exact h.2 f hf hid
    · rw [hanswer, Except.ok.injEq]
      exact servedValue_eq_some_iff
    · rw [hanswer, Except.ok.injEq, servedValue_eq_none_iff]
      exact (and_iff_right hfact).symm
  · rw [if_neg (mt hcontains.1 hfact)] at hanswer
    have hnone : ∀ value?, answer ≠ .ok value? := fun value? h => by
      rw [hanswer] at h
      cases h
    refine ⟨fun failure => ?_, fun value => iff_of_false (hnone _) fun h => hfact (exists_fact_of_firstServed h),
      iff_of_false (hnone _) fun h => hfact h.1⟩
    rw [hanswer, Except.error.injEq]
    exact ⟨fun h => ⟨h.symm, fun f hf hid => hfact ⟨f, hf, hid⟩⟩, fun h => h.1.symm⟩

end Session

end ArchFlow
