import ArchFlow.Proofs.Flow.Redundancy
import ArchFlow.Proofs.Session.History
import ArchFlow.Proofs.Session.Saturation

/-!
# Kinds of links that are configured twice

The kinds of links that flows follow are a list, in which a kind may stand more than once. Its links are then followed
again, and flows have more leaves; their graphs stay the same.

* `Session.tree_onceEach`: what is sketched of the trees with all repetitions and without them.
* `Session.graph_onceEach`: the graphs of flows.
-/

namespace ArchFlow

/-- The settings with each kind of links once, where it stands first. -/
def Settings.onceEach (c : Settings) : Settings := { c with followLinks := c.followLinks.eraseDups }

namespace Session

variable {ω : Type}

/-- The session that follows each kind of links once. -/
def onceEach (x : Session ω) : Session ω := ⟨x.base, x.settings.onceEach⟩

/-- The attributes of an element do not depend on which links are followed. -/
theorem attributesOf_onceEach (x : Session ω) (id : ElementId) (names : List String) :
    ∀ known s, x.onceEach.explorer.attributesOf id names known s = x.explorer.attributesOf id names known s := by
  induction names with
  | nil => exact fun _ _ => rfl
  | cons name names ih =>
    intro known s
    rw [Explorer.attributesOf_cons, Explorer.attributesOf_cons, ih]
    rfl

/-- An element links to the same ones in the same ways. -/
theorem next_onceEach (x : Session ω) (s : State ω) (id : ElementId) :
    appendAllNew [] ((x.onceEach.explorer.survey s).next id) = appendAllNew [] ((x.explorer.survey s).next id) := by
  rw [explorer_next, explorer_next, appendAllNew_nil, appendAllNew_nil]
  exact eraseDups_flatMap_eraseDups _ _

/-- Trees with all repetitions and trees without them are sketched alike. -/
theorem tree_onceEach (x : Session ω) (s : State ω) (m : Nat) (root : ElementId) :
    SameSketch (edgeBetween x.settings.edgeLabels catalogLinkLabel) ((x.explorer.survey s).tree m root)
      ((x.onceEach.explorer.survey s).tree m root) := by
  have hattributes : (x.explorer.survey s).attributes = (x.onceEach.explorer.survey s).attributes :=
    funext fun id => congrArg Prod.fst (attributesOf_onceEach x id _ .empty s).symm
  have hlabel : (x.explorer.survey s).label = (x.onceEach.explorer.survey s).label := rfl
  exact Survey.tree_sameSketch hlabel hattributes (fun id => (next_onceEach x s id).symm) m root

/-- The flow from a known root is the same drawing whatever was asked before, and what is asked later does not change
what is known of elements. -/
theorem flow_after_eq {x : Session ω} (hx : x.base.Steady) {root : ElementId} {w : ω}
    (hroot : x.base.contains (.fresh w) root = true) (depth : Option UInt64) (before : List (Query ω)) :
    ∃ v, x.flow root depth (x.base.after before (.fresh w)) =
        (.ok ((x.explorer.survey (.fresh w)).tree (depth.getD x.settings.maxDepth).toNat root), v) ∧
      ∀ later, x.base.Agrees (.fresh w) (x.base.after later v) := by
  have hbefore : x.base.Agrees (.fresh w) (x.base.after before (.fresh w)) :=
    Explorer.agrees_after (x := x.explorer) hx before w w
  have hcontains : x.base.contains (x.base.after before (.fresh w)) root = true := by
    rw [FactBase.contains, hbefore.typeOf? root]
    exact hroot
  have hview : ∀ id u, x.base.Agrees (.fresh w) u → x.base.Agrees (.fresh w) ((fun _ : ElementId => .fresh w) id) :=
    fun _ _ _ => .refl _ _
  obtain ⟨v, hflow, hkeep⟩ := ((explorer_calm hx).determined (.fresh w)).flow_eq hview hcontains hbefore
    (depth.getD x.settings.maxDepth)
  refine ⟨v, hflow, fun later => ?_⟩
  exact (hx.keeps _).after (fun s u h => h.trans (hx.agrees_world s u)) later (hkeep root hbefore)

/-- **Kinds of links that are configured twice do not change graphs.** Snapshots come to a session with any settings,
and to another one with the settings that have each kind of links once. Whatever was asked of either, they compute a
flow from the same roots and down to every depth, and whatever is asked then, they draw the same graph of it: the same
nodes and the same edges, each in the same order. -/
theorem graph_onceEach (snapshots : List Snapshot) (settings : Settings) :
    ∃ x y, ofSnapshots snapshots settings = .ok x ∧ ofSnapshots snapshots settings.onceEach = .ok y ∧
      ∀ root (depth : Option UInt64) (before before' : List (Query Unit)),
        let s := x.base.after before (.fresh ())
        let s' := y.base.after before' (.fresh ())
        if x.base.contains (.fresh ()) root then
          ∃ t u v v', x.flow root depth s = (.ok t, v) ∧ y.flow root depth s' = (.ok u, v') ∧
            ∀ later later', (x.graph [t] (x.base.after later v)).1 = (y.graph [u] (y.base.after later' v')).1
        else
          (x.flow root depth s).1 = .error (.unknownElement root) ∧
            (y.flow root depth s').1 = .error (.unknownElement root) := by
  have hb : (snapshotBase snapshots : FactBase Unit).Steady := snapshotBase_steady snapshots
  let x : Session Unit := ⟨snapshotBase snapshots, settings⟩
  refine ⟨x, x.onceEach, ofSnapshots_eq snapshots settings, ofSnapshots_eq snapshots settings.onceEach,
    fun root depth before before' => ?_⟩
  intro s s'
  split
  · next hroot =>
    obtain ⟨v, hflow, hlater⟩ := flow_after_eq (x := x) hb hroot depth before
    obtain ⟨v', hflow', hlater'⟩ := flow_after_eq (x := x.onceEach) hb hroot depth before'
    refine ⟨_, _, v, v', hflow, hflow', fun later later' => ?_⟩
    refine project_congr (tree_onceEach x (.fresh ()) _ root) fun ids => ?_
    exact (hb.consistent (.fresh ())).labelNodes_eq ids (fun _ => hlater' later') fun _ => hlater later
  · next hroot =>
    have hunknown : ∀ history, x.base.contains (x.base.after history (.fresh ())) root = false := fun history => by
      rw [FactBase.contains, (agrees_after history ()).typeOf? root]
      exact Bool.eq_false_iff.2 hroot
    exact ⟨congrArg Prod.fst (Explorer.flow_of_unknown (x := x.explorer) (hunknown before) _),
      congrArg Prod.fst (Explorer.flow_of_unknown (x := x.onceEach.explorer) (hunknown before') _)⟩

/-! ### Calls that are followed twice -/

/-- The calls between two services are followed twice. The tree has two more leaves than with calls followed once, and
the graph is the same. -/
theorem graph_onceEach_twoSnapshots :
    let settings : Settings := { Settings.default with followLinks := ["calls", "queries", "calls"] }
    ∃ x y t u v v', ofSnapshots [serviceFacts, storageFacts] settings = .ok x ∧
      ofSnapshots [serviceFacts, storageFacts] settings.onceEach = .ok y ∧
      x.flow "a" none (.fresh ()) = (.ok t, v) ∧ y.flow "a" none (.fresh ()) = (.ok u, v') ∧
      t.size = 6 ∧ u.size = 4 ∧ (x.graph [t] v).1 = (y.graph [u] v').1 := by
  intro settings
  obtain ⟨x, y, hx, hy, hgraph⟩ := graph_onceEach [serviceFacts, storageFacts] settings
  cases hx.symm.trans (ofSnapshots_eq [serviceFacts, storageFacts] settings)
  cases hy.symm.trans (ofSnapshots_eq [serviceFacts, storageFacts] settings.onceEach)
  have ha := hgraph "a" none [] []
  rw [if_pos (contains_fresh_iff.2 hasKind_root_twoSnapshots)] at ha
  obtain ⟨t, u, v, v', hflow, hflow', hsame⟩ := ha
  have hsize : ∀ {c t v n}, flow ⟨snapshotBase [serviceFacts, storageFacts], c⟩ "a" none (.fresh ()) = (.ok t, v) →
      (flow ⟨snapshotBase [serviceFacts, storageFacts], c⟩ "a" none (.fresh ())).1.toOption.map FlowTree.size = some n →
      t.size = n := by
    intro c t v n h hn
    rw [h] at hn
    exact Option.some.inj hn
  exact ⟨_, _, t, u, v, v', hx, hy, hflow, hflow', hsize hflow (by decide +kernel), hsize hflow' (by decide +kernel),
    hsame [] []⟩

end Session

end ArchFlow
