import ArchFlow.Proofs.Flow.History
import ArchFlow.Proofs.Session.Drawing

/-!
# Sessions of snapshots have no memory

All links of snapshots lead to elements that facts are about, so no exploration meets anything new, and a value that was
resolved once is the value that would be resolved again. Whatever was asked of a session, and whatever happened to the
world in the meantime, it answers as if it had just been built.

* `FactBase.Consistent.labelNodes_eq`: labels depend on settled answers alone.
* `Session.answers_after`: the answers of a session after a history.
-/

namespace ArchFlow

variable {ω : Type}

/-! ## Labels -/

namespace FactBase.Consistent

variable {b : FactBase ω} {J : ElementId → State ω → Prop} (hb : b.Consistent J) {id : ElementId} {s s' : State ω}
include hb

theorem attribute?_eq (h : J id s) (h' : J id s') (name : String) :
    (b.attribute? name id s').1 = (b.attribute? name id s).1 := by
  rw [attribute?_fst, attribute?_fst, hb.resolve h h' name]

theorem labelFacts_eq (h : J id s) (h' : J id s') : (b.labelFacts id s').1 = (b.labelFacts id s).1 := by
  have hkeep : ∀ name u, J id u → J id (b.attribute? name id u).2 := fun name u => (hb.keeps id).attribute? name id u
  -- each of the five requests is answered as it would be at first
  have hfacts : ∀ u, J id u → (b.labelFacts id u).1 =
      ⟨(b.attribute? Attribute.verb id s).1, (b.attribute? Attribute.route id s).1,
        (b.attribute? Attribute.entity id s).1, (b.attribute? Attribute.table id s).1,
        (b.attribute? Attribute.contract id s).1⟩ := by
    intro u hverb
    have hroute := hkeep Attribute.verb _ hverb
    have hentity := hkeep Attribute.route _ hroute
    have htable := hkeep Attribute.entity _ hentity
    have hcontract := hkeep Attribute.table _ htable
    rw [← hb.attribute?_eq h hverb, ← hb.attribute?_eq h hroute, ← hb.attribute?_eq h hentity,
      ← hb.attribute?_eq h htable, ← hb.attribute?_eq h hcontract]
    rfl
  rw [hfacts s' h', hfacts s h]

/-- The label of an element depends on the answers about it. -/
theorem elementLabel_eq (h : J id s) (h' : J id s') : (b.elementLabel id s').1 = (b.elementLabel id s).1 := by
  rw [elementLabel, elementLabel, hb.typeOf? h h']
  split
  · rfl
  · next type _ => exact congrArg (fun facts => LabelFacts.label facts id type) (hb.labelFacts_eq h h')

theorem labelNodes_eq (ids : List ElementId) :
    ∀ {s s' : State ω}, (∀ id, J id s) → (∀ id, J id s') →
      (labelNodes (.architecture b) ids s').1 = (labelNodes (.architecture b) ids s).1 := by
  induction ids with
  | nil => intro s s' _ _; rfl
  | cons id ids ih =>
    intro s s' h h'
    have hkeep : ∀ s, (∀ i, J i s) → ∀ i, J i (b.elementLabel id s).2 := fun s hs i =>
      (hb.keeps i).elementLabel id s (hs i)
    have hlabel : (b.elementLabel id s').1 = (b.elementLabel id s).1 := hb.elementLabel_eq (h id) (h' id)
    have hrest := ih (hkeep s h) (hkeep s' h')
    exact congrArg₂ (fun label nodes => (⟨id, label, navigateTo id⟩ : GraphNode) :: nodes) hlabel hrest

end FactBase.Consistent

/-! ## What a session answers -/

/-- What a session answers in a state. -/
@[ext]
structure Answers where
  roots : Option String → List Element
  typeOf : ElementId → Except Failure ElementType
  targets : LinkType → ElementId → Except Failure (List Element)
  value : String → ElementId → Except Failure (Option String)
  flow : ElementId → Option UInt64 → Except Failure FlowTree
  graph : List FlowTree → Graph

namespace Session

/-- The answers of a session. -/
def answers (x : Session ω) (s : State ω) : Answers where
  roots := x.roots
  typeOf := x.base.typeOf s
  targets link id := (x.base.targets link id s).1
  value name id := (x.base.resolve? name id s).1
  flow root depth := (x.flow root depth s).1
  graph ts := (x.graph ts s).1

/-- **A session of snapshots has no memory.** After every history of explorations, resolutions, labels, graphs and
flows, be they cancelled or not, a session of snapshots answers everything as another one does that has just been built
from the same snapshots and settings, whatever the worlds are that they were built in. -/
theorem answers_after (snapshots : List Snapshot) (settings : Settings) (w w' : ω) :
    ∃ x x', build (.join (snapshots.map Snapshot.registry)) settings w = (.ok x, w) ∧
      build (.join (snapshots.map Snapshot.registry)) settings w' = (.ok x', w') ∧
      ∀ history : List (Query ω), x.answers (x.base.after history (.fresh w)) = x'.answers (.fresh w') := by
  have hb : (snapshotBase snapshots : FactBase ω).Steady := snapshotBase_steady snapshots
  have hbuild : ∀ w : ω, build (.join (snapshots.map Snapshot.registry)) settings w =
      (.ok ⟨snapshotBase snapshots, settings⟩, w) := fun w => by rw [build, build_snapshots]
  refine ⟨_, _, hbuild w, hbuild w', fun history => ?_⟩
  have hfresh : (snapshotBase snapshots).Agrees (.fresh w') (.fresh w') := .refl _ _
  have hafter : (snapshotBase snapshots).Agrees (.fresh w') ((snapshotBase snapshots).after history (.fresh w)) :=
    (hb.keeps _).after (fun s w h => h.trans (hb.agrees_world s w)) history (hb.agrees_world (.fresh w') w)
  have hconsistent := hb.consistent (.fresh w')
  have hx : (explorer ⟨snapshotBase snapshots, settings⟩).Calm := explorer_calm hb
  have htypeOf : ∀ id, (snapshotBase snapshots).typeOf ((snapshotBase snapshots).after history (.fresh w)) id =
      (snapshotBase snapshots).typeOf (.fresh w') id := fun id => by
    rw [FactBase.typeOf, FactBase.typeOf, hafter.typeOf? id]
  have hgraph : ∀ ts, (graph ⟨snapshotBase snapshots, settings⟩ ts
      ((snapshotBase snapshots).after history (.fresh w))).1 =
        (graph ⟨snapshotBase snapshots, settings⟩ ts (.fresh w')).1 := fun ts =>
    congrArg (Graph.mk · _) (hconsistent.labelNodes_eq _ (fun _ => hfresh) fun _ => hafter)
  refine Answers.ext rfl (funext htypeOf) ?_ ?_ ?_ (funext hgraph)
  · exact funext fun link => funext fun id => hb.targets_eq hafter link id
  · exact funext fun name => funext fun id => hafter.resolve name id
  · exact funext fun root => funext fun depth =>
      (hx.determined (.fresh w')).flow_congr hfresh hafter (depth.getD settings.maxDepth)

end Session

end ArchFlow
