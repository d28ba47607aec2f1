import ArchFlow.Proofs.Flow.Saturation
import ArchFlow.Proofs.Session.Contents
import ArchFlow.Proofs.Session.Graph

/-!
# Flows that are deep enough

A flow of snapshots never goes deeper than its root leads to elements, however large the bound is. With that many levels
it is complete: it expands each of the elements once, with all the targets of its links, and more levels do not change
it.

* `Session.Saturated`: a tree in which each of some elements is expanded once.
* `Session.flow_saturates`: flows with enough levels.
-/

namespace ArchFlow

namespace Session

/-- A tree of at most `m` levels below the root in which each of some elements is expanded once, with its targets by the
kinds of links that are followed. -/
structure Saturated (settings : Settings) (targets : ElementId → String → List Element) (R : List ElementId) (m : Nat)
    (t : FlowTree) : Prop where
  /-- There are no more levels than elements. -/
  height : t.height ≤ R.length
  /-- Each element has one occurrence first above the bound, and there it has its targets as children. -/
  expanded : ∀ id ∈ R, ∃! before, ∃ o after, t.occurrences = before ++ o :: after ∧ o.id = id ∧ o.IsFirst m before ∧
    o.node.children.map (fun c => (c.via, c.id)) =
      settings.followLinks.flatMap fun kind => (targets id kind).map fun e => (some kind, e.id)
  /-- All other occurrences are leaves. -/
  leaves : Along (fun before o => ¬ o.IsFirst m before → o.node.children = []) t.occurrences
  /-- Apart from the root, the nodes are the targets of the elements. -/
  size : t.size = 1 + (R.map fun id => (settings.followLinks.map fun kind => (targets id kind).length).sum).sum

section Root

variable {snapshots : List Snapshot} {settings : Settings} {root : ElementId} {R : List ElementId} {m : Nat}
  (hroot : ∃ kind, HasKind snapshots root kind) (hR : Reached snapshots settings root R) (hm : R.length ≤ m)
include hroot hR hm

/-- A drawing from a root that has enough levels is saturated. -/
theorem saturated_tree (s : State Unit) :
    Saturated settings (fun id kind => firstById [] (linkedElements snapshots kind id)) R m
      ((snapshotSurvey snapshots settings s).tree m root) := by
  have hreach : ∀ id, (snapshotSurvey snapshots settings s).Reaches root id ↔ id ∈ R := fun _ =>
    reaches_iff_mem hroot hR s
  have hnext : ∀ id ∈ R, (snapshotSurvey snapshots settings s).next id =
      settings.followLinks.flatMap fun kind =>
        (firstById [] (linkedElements snapshots kind id)).map fun e => (some kind, e.id) := by
    intro id hid
    obtain ⟨kind, hkind⟩ := hasKind_of_follows hroot ((hR.mem_iff id).1 hid)
    exact next_eq hkind s
  constructor
  · -- the tree is the one that is drawn with exactly as many levels
    rw [Survey.tree, Survey.expand_root_congr hreach hm (Nat.le_refl _)]
    exact FlowTree.height_le_iff.2 fun _ => Survey.depth_le
  · intro id hid
    rw [← hnext id hid]
    exact Survey.existsUnique_expanded hreach hm hid
  · exact fun before o after hsplit hfirst => List.map_eq_nil_iff.1
      ((Survey.tree_children before o after hsplit).trans (if_neg (hfirst ∘ isFirst_iff.2)))
  · rw [Survey.size_tree hreach hm hR.nodup]
    congr 2
    refine List.map_congr_left fun id hid => ?_
    simp only [hnext id hid, List.length_flatMap, List.length_map]

/-- An expansion with enough levels expands each element that the root leads to once, and nothing else. -/
theorem expanded_perm (s : State Unit) :
    ((snapshotExplorer snapshots settings).expand m root none ⟨[], s⟩).2.expanded.Perm R := by
  have hreach : ∀ id, (snapshotSurvey snapshots settings s).Reaches root id ↔ id ∈ R := fun _ =>
    reaches_iff_mem hroot hR s
  have hcalm : (snapshotExplorer snapshots settings).Calm := calm
  have hexpanded : ((snapshotExplorer snapshots settings).expand m root none ⟨[], s⟩).2.expanded =
      ((snapshotSurvey snapshots settings s).expand m root none []).2 :=
    congrArg Prod.snd (hcalm.expand_eq m root none s)
  exact hexpanded ▸ Survey.expanded_perm hreach hm hR.nodup

end Root

/-- The flow from a root does not depend on what was asked before. -/
theorem flow_after (x : Session Unit) (hx : x.base.Steady) (before before' : List (Query Unit)) (root : ElementId)
    (depth : Option UInt64) :
    (x.flow root depth (x.base.after before' (.fresh ()))).1 =
      (x.flow root depth (x.base.after before (.fresh ()))).1 :=
  ((explorer_calm hx).determined (.fresh ())).flow_congr
    (Explorer.agrees_after (x := x.explorer) hx before () ()) (Explorer.agrees_after (x := x.explorer) hx before' () ())
    (depth.getD x.settings.maxDepth)

/-- **Saturation.** Take a session of snapshots, and the elements that a known root leads to over links that are
followed. If the depth bound of a flow is not below their number, the flow is the same as the one with exactly this
bound, whatever was asked before either of them. Its tree has at most as many levels as there are elements. Each of them
is expanded once and nothing else is, and the size is one more than the number of their targets over all entries of the
links that are followed. From an unknown root flows fail at every depth. -/
theorem flow_saturates (snapshots : List Snapshot) (settings : Settings) :
    ∃ x, ofSnapshots snapshots settings = .ok x ∧ ∀ root,
      if x.base.contains (.fresh ()) root then
        ∃ R targets, Reached snapshots settings root R ∧
          ∀ (depth : Option UInt64) (before before' : List (Query Unit)),
            let m := (depth.getD settings.maxDepth).toNat
            let s := x.base.after before (.fresh ())
            let s' := x.base.after before' (.fresh ())
            R.length ≤ m →
              (∀ id ∈ R, ∀ kind, (x.base.targets (.ofKind kind) id s).1 = .ok (targets id kind)) ∧
              (x.explorer.expand m root none ⟨[], s⟩).2.expanded.Perm R ∧
              ∃ t, (x.flow root depth s).1 = .ok t ∧ (x.flow root (some (.ofNat R.length)) s').1 = .ok t ∧
                Saturated settings targets R m t
      else
        ∀ (depth : Option UInt64) (before : List (Query Unit)),
          (x.flow root depth (x.base.after before (.fresh ()))).1 = .error (.unknownElement root) := by
  refine ⟨_, ofSnapshots_eq snapshots settings, fun root => ?_⟩
  split
  · next hcontains =>
    have hroot : ∃ kind, HasKind snapshots root kind := contains_fresh_iff.1 hcontains
    obtain ⟨R, hR⟩ := exists_reached hroot settings
    refine ⟨R, fun id kind => firstById [] (linkedElements snapshots kind id), hR, fun depth before before' => ?_⟩
    intro m s s' hm
    have hreach : ∀ id, (snapshotSurvey snapshots settings s).Reaches root id ↔ id ∈ R := fun _ =>
      reaches_iff_mem hroot hR s
    obtain ⟨_, hflow⟩ := flow_eq hroot depth s
    obtain ⟨_, hleast⟩ := flow_eq hroot (some (.ofNat R.length)) s
    have hlength : (UInt64.ofNat R.length).toNat = R.length :=
      UInt64.toNat_ofNat_of_lt' (Nat.lt_of_le_of_lt hm (depth.getD settings.maxDepth).toNat_lt)
    have hsame : (snapshotSurvey snapshots settings s).tree R.length root =
        (snapshotSurvey snapshots settings s).tree m root :=
      congrArg Prod.fst (Survey.expand_root_congr hreach (Nat.le_refl _) hm)
    refine ⟨fun id hid kind => ?_, expanded_perm hroot hR hm s, _, congrArg Prod.fst hflow, ?_,
      saturated_tree hroot hR hm s⟩
    · obtain ⟨_, hkind⟩ := hasKind_of_follows hroot ((hR.mem_iff id).1 hid)
      exact targets_snapshotBase hkind kind s
    · rw [flow_after _ (snapshotBase_steady snapshots) before before', hleast, Option.getD_some, hlength, hsame]
  · next hcontains =>
    intro depth before
    have hunknown :
        (snapshotBase snapshots).contains ((snapshotBase snapshots).after before (.fresh ())) root = false := by
      rw [FactBase.contains, (agrees_after before ()).typeOf? root]
      exact Bool.eq_false_iff.2 hcontains
    exact congrArg Prod.fst (Explorer.flow_of_unknown (x := snapshotExplorer snapshots settings) hunknown _)

/-! ### Two services that call each other -/

/-- The services call each other, so that there is no end to their calls. The largest bound gives the same tree as one
level for each element, of which there are no more than four. -/
theorem flow_saturates_twoSnapshots :
    ∃ x R targets t, ofSnapshots [serviceFacts, storageFacts] .default = .ok x ∧
      x.base.contains (.fresh ()) "a" = true ∧ R.length ≤ 4 ∧
      (x.flow "a" (some 18446744073709551615) (.fresh ())).1 = .ok t ∧
      (x.flow "a" (some (.ofNat R.length)) (x.base.after [.label "c"] (.fresh ()))).1 = .ok t ∧
      Saturated .default targets R 18446744073709551615 t ∧ t.size = 4 := by
  have hcontains := contains_fresh_iff.2 hasKind_root_twoSnapshots
  obtain ⟨x, hx, hflow⟩ := flow_saturates [serviceFacts, storageFacts] .default
  cases hx.symm.trans (ofSnapshots_eq [serviceFacts, storageFacts] .default)
  have ha := hflow "a"
  rw [if_pos hcontains] at ha
  obtain ⟨R, targets, hR, hdeep⟩ := ha
  have hlength : R.length ≤ 4 := length_le_twoSnapshots hR
  have hlarge : R.length ≤ 18446744073709551615 := Nat.le_trans hlength (by decide)
  obtain ⟨-, -, t, ht, hleast, hsaturated⟩ := hdeep (some 18446744073709551615) [] [.label "c"] hlarge
  obtain ⟨-, -, u, hu, hleast', -⟩ := hdeep (some 4) [] [.label "c"] hlength
  -- the tree is that of four levels, which can be computed
  cases Except.ok.inj (hleast.symm.trans hleast')
  have hsize : (flow ⟨snapshotBase [serviceFacts, storageFacts], .default⟩ "a" (some 4) (.fresh ())).1.toOption.map
      FlowTree.size = some 4 := by
    decide +kernel
  refine ⟨_, R, targets, t, hx, hcontains, hlength, ht, hleast, hsaturated, ?_⟩
  rw [show (flow ⟨snapshotBase [serviceFacts, storageFacts], .default⟩ "a" (some 4) (.fresh ())).1 = .ok t from hu]
    at hsize
  exact Option.some.inj hsize

end Session

end ArchFlow
