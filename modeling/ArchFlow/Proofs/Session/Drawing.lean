import ArchFlow.Proofs.Flow.Coverage
import ArchFlow.Proofs.Graph.Projection
import ArchFlow.Proofs.Snapshot.Links
import ArchFlow.Session

/-!
# Flows of snapshots

Nothing disturbs the flows of a session of snapshots. They are drawn from what the snapshots state: an element links to
the elements that some snapshot links it to, by the kinds of links that are followed, in their order.

* `ofSnapshots_eq`: the session of snapshots.
* `leads_iff`: what an element links to.
* `exists_reached`: a root leads to finitely many elements.
-/

namespace ArchFlow

/-- Some snapshot links the elements, by a link of a kind that is followed. -/
def Follows (snapshots : List Snapshot) (settings : Settings) (source target : ElementId) : Prop :=
  ∃ kind ∈ settings.followLinks, Linked snapshots source kind target

/-- The elements that a root leads to over links that are followed, each of them once. -/
structure Reached (snapshots : List Snapshot) (settings : Settings) (root : ElementId) (R : List ElementId) : Prop where
  nodup : R.Nodup
  mem_iff : ∀ id, id ∈ R ↔ Relation.ReflTransGen (Follows snapshots settings) root id

namespace Session

variable {snapshots : List Snapshot} {settings : Settings}

/-! ## The session of snapshots -/

theorem ofSnapshots_eq (snapshots : List Snapshot) (settings : Settings) :
    ofSnapshots snapshots settings = .ok ⟨snapshotBase snapshots, settings⟩ := by
  rw [ofSnapshots, build, build_snapshots]

/-- What computes the flows of a session of snapshots. -/
def snapshotExplorer (snapshots : List Snapshot) (settings : Settings) : Explorer Unit :=
  explorer ⟨snapshotBase snapshots, settings⟩

/-- Nobody cancels the flows of a session. -/
theorem explorer_calm {ω : Type} {x : Session ω} (hx : x.base.Steady) : x.explorer.Calm := ⟨hx, fun _ => rfl⟩

theorem calm : (snapshotExplorer snapshots settings).Calm := explorer_calm (snapshotBase_steady snapshots)

/-- The elements that are known from the start are those that facts are about. -/
theorem contains_fresh_iff {id : ElementId} :
    (snapshotBase snapshots).contains (.fresh ()) id = true ↔ ∃ kind, HasKind snapshots id kind := by
  have hregistered : ((snapshotBase snapshots : FactBase Unit).types.lookup id).isSome = true ↔
      ∃ kind, HasKind snapshots id kind := registered_snapshotBase
  rw [← hregistered, FactBase.contains, FactBase.typeOf?, State.fresh, List.lookup_nil, Option.or_none]

/-- What facts are about is known in every state, as what it is from the start. -/
theorem typeOf?_eq {id kind} (h : HasKind snapshots id kind) (s : State Unit) :
    (snapshotBase snapshots).typeOf? s id = (snapshotBase snapshots).typeOf? (.fresh ()) id := by
  have hid : ((snapshotBase snapshots : FactBase Unit).types.lookup id).isSome = true :=
    registered_snapshotBase.2 ⟨kind, h⟩
  obtain ⟨type, htype⟩ := Option.isSome_iff_exists.1 hid
  rw [FactBase.typeOf?_of_lookup htype, FactBase.typeOf?_of_lookup htype]

/-! ## The survey of snapshots -/

/-- What an element links to in a session, by the kinds that are followed. -/
theorem explorer_next {ω : Type} (x : Session ω) (s : State ω) (id : ElementId) :
    (x.explorer.survey s).next id = x.settings.followLinks.flatMap fun kind =>
      (x.explorer.found (.ofKind kind) id s).map fun e => (some kind, e.id) := by
  rw [Explorer.survey_next]
  have hlinks : x.explorer.profile.linkTypes = x.settings.followLinks.map TypeSet.ofKind := rfl
  simp only [hlinks, List.flatMap_map, TypeSet.requiredValue?_ofKind]

/-- What a state tells of the elements of snapshots. -/
abbrev snapshotSurvey (snapshots : List Snapshot) (settings : Settings) (s : State Unit) : Survey :=
  (snapshotExplorer snapshots settings).survey s

/-- What an element links to in a session of snapshots. -/
theorem next_eq {id kind} (h : HasKind snapshots id kind) (s : State Unit) :
    (snapshotSurvey snapshots settings s).next id =
      settings.followLinks.flatMap fun link =>
        (firstById [] (linkedElements snapshots link id)).map fun e => (some link, e.id) := by
  rw [snapshotSurvey, snapshotExplorer, explorer_next]
  refine List.flatMap_congr fun link _ => ?_
  have hfound : (explorer ⟨snapshotBase snapshots, settings⟩).found (.ofKind link) id s =
      firstById [] (linkedElements snapshots link id) := Explorer.found_of_ok (targets_snapshotBase h link s)
  rw [hfound]

theorem mem_next {id kind} (h : HasKind snapshots id kind) (s : State Unit) {via : Option String} {target : ElementId} :
    (via, target) ∈ (snapshotSurvey snapshots settings s).next id ↔
      ∃ link ∈ settings.followLinks, Linked snapshots id link target ∧ via = some link := by
  rw [next_eq h s, List.mem_flatMap]
  refine exists_congr fun link => and_congr_right fun _ => ?_
  rw [← mem_ids_linkedElements, List.mem_map, List.mem_map]
  constructor
  · rintro ⟨e, he, hlink⟩
    cases hlink
    exact ⟨⟨e, he, rfl⟩, rfl⟩
  · rintro ⟨⟨e, he, rfl⟩, rfl⟩
    exact ⟨e, he, rfl⟩

theorem leads_iff {id kind} (h : HasKind snapshots id kind) (s : State Unit) {target : ElementId} :
    (snapshotSurvey snapshots settings s).Leads id target ↔ Follows snapshots settings id target := by
  constructor
  · rintro ⟨via, hnext⟩
    obtain ⟨link, hlink, hlinked, -⟩ := (mem_next h s).1 hnext
    exact ⟨link, hlink, hlinked⟩
  · rintro ⟨link, hlink, hlinked⟩
    exact ⟨some link, (mem_next h s).2 ⟨link, hlink, hlinked, rfl⟩⟩

theorem hasKind_of_linked {source target : ElementId} {link : String} (h : Linked snapshots source link target) :
    ∃ kind, HasKind snapshots target kind := by
  obtain ⟨s, hs, l, hl, -, -, rfl⟩ := linked_iff.1 h
  obtain ⟨_, -, -, htarget, -⟩ := Snapshot.mem_resolvedLinks.1 hl
  exact ⟨_, hasKind_of_identified hs (Snapshot.mem_of_resolve? htarget)⟩

/-! ## What a root leads to -/

section Root

variable {root : ElementId} (hroot : ∃ kind, HasKind snapshots root kind)
include hroot

theorem hasKind_of_follows {id : ElementId} (h : Relation.ReflTransGen (Follows snapshots settings) root id) :
    ∃ kind, HasKind snapshots id kind := by
  cases h with
  | refl => exact hroot
  | tail _ hstep =>
    obtain ⟨link, -, hlinked⟩ := hstep
    exact hasKind_of_linked hlinked

theorem reaches_iff (s : State Unit) {id : ElementId} :
    (snapshotSurvey snapshots settings s).Reaches root id ↔
      Relation.ReflTransGen (Follows snapshots settings) root id := by
  constructor
  · intro h
    induction h with
    | refl => exact .refl
    | tail _ hstep ih =>
      obtain ⟨kind, hkind⟩ := hasKind_of_follows hroot ih
      exact ih.tail ((leads_iff hkind s).1 hstep)
  · intro h
    induction h with
    | refl => exact .refl
    | tail hpath hstep ih =>
      obtain ⟨kind, hkind⟩ := hasKind_of_follows hroot hpath
      exact ih.tail ((leads_iff hkind s).2 hstep)

theorem reaches_iff_mem {R : List ElementId} (hR : Reached snapshots settings root R) (s : State Unit)
    {id : ElementId} : (snapshotSurvey snapshots settings s).Reaches root id ↔ id ∈ R :=
  (reaches_iff hroot s).trans (hR.mem_iff id).symm

/-- What a drawing shows is what facts are about. -/
theorem hasKind_of_mem {m : Nat} {o : Occurrence} {s : State Unit}
    (ho : o ∈ ((snapshotSurvey snapshots settings s).tree m root).occurrences) :
    ∃ kind, HasKind snapshots o.id kind :=
  hasKind_of_follows hroot ((reaches_iff hroot s).1 (Survey.reaches_of_mem ho))

/-- A root leads to finitely many elements. -/
theorem exists_reached (settings : Settings) : ∃ R, Reached snapshots settings root R := by
  classical
  let known := appendAllNew [] (snapshots.flatMap fun s => s.elements.map ElementFact.elementId)
  have hknown : ∀ {id kind}, HasKind snapshots id kind → id ∈ known := by
    rintro id kind ⟨s, hs, f, hf, rfl, -⟩
    exact mem_appendAllNew.2 (.inr (List.mem_flatMap.2 ⟨s, hs, List.mem_map_of_mem hf⟩))
  refine ⟨known.filter fun id => Relation.ReflTransGen (Follows snapshots settings) root id, ?_, fun id => ?_⟩
  · exact (nodup_appendAllNew List.nodup_nil).filter _
  · rw [List.mem_filter, decide_eq_true_eq]
    refine ⟨And.right, fun h => ⟨?_, h⟩⟩
    obtain ⟨kind, hkind⟩ := hasKind_of_follows hroot h
    exact hknown hkind

/-- The flow from a known root is the drawing from it. -/
theorem flow_eq (depth : Option UInt64) (s : State Unit) :
    ∃ s', flow ⟨snapshotBase snapshots, settings⟩ root depth s =
      (.ok ((snapshotSurvey snapshots settings s).tree (depth.getD settings.maxDepth).toNat root), s') := by
  obtain ⟨kind, hkind⟩ := hroot
  obtain ⟨type, htype, -⟩ := exists_type_of_hasKind hkind s
  have hcontains : (snapshotExplorer snapshots settings).base.contains s root = true := by
    rw [FactBase.contains]
    exact Option.isSome_iff_exists.2 ⟨type, htype⟩
  obtain ⟨s', hflow, -⟩ := calm.flow_eq hcontains (depth.getD settings.maxDepth)
  exact ⟨s', hflow⟩

end Root

end Session

end ArchFlow
