import ArchFlow.Graph.Projection
import ArchFlow.Proofs.Flow.Expansion

/-!
# Histories of queries

Between two requests anything may be asked of a fact base: links are explored, attributes are resolved, elements are
labelled, flows are computed and cancelled, graphs are drawn. None of it can break what single queries keep, whatever
becomes of the world in the meantime.

* `FactBase.after`: the state after a history.
* `FactBase.Keeps.after`: what queries keep holds after every history.
-/

namespace ArchFlow

variable {ω : Type}

/-- Something that is asked of a fact base. -/
inductive Query (ω : Type)
  | targets (link : LinkType) (source : ElementId)
  | resolve (name : String) (id : ElementId)
  | label (id : ElementId)
  /-- A flow, which the signal may cancel at any time. -/
  | flow (profile : Profile) (signal : Signal ω) (root : ElementId) (depth : UInt64)
  | graph (labeling : EdgeLabeling) (ts : List FlowTree)

namespace FactBase

variable (b : FactBase ω)

/-- The state after something was asked. -/
def perform : Query ω → State ω → State ω
  | .targets link source, s => (b.targets link source s).2
  | .resolve name id, s => (b.resolve? name id s).2
  | .label id, s => (b.elementLabel id s).2
  | .flow profile signal root depth, s => (Explorer.flow ⟨b, profile, signal⟩ root depth s).2
  | .graph labeling ts, s => (project (.architecture b) labeling ts s).2

/-- The state after a history, from its first query to its last. -/
def after (history : List (Query ω)) (s : State ω) : State ω := history.foldl (fun s q => b.perform q s) s

variable {b} {I : State ω → Prop}

theorem attribute?_fst (name : String) (id : ElementId) (s : State ω) :
    (b.attribute? name id s).1 = (b.resolve? name id s).1.toOption.join := by
  rw [attribute?]
  split <;> (next he => rw [he]; rfl)

theorem attribute?_snd (name : String) (id : ElementId) (s : State ω) :
    (b.attribute? name id s).2 = (b.resolve? name id s).2 := by
  rw [attribute?]
  split <;> (next he => rw [he])

namespace Keeps

variable (h : b.Keeps I)
include h

theorem attribute? (name : String) (id : ElementId) (s : State ω) (hs : I s) : I (b.attribute? name id s).2 := by
  rw [attribute?_snd]
  exact h.resolve name id s hs

theorem elementLabel (id : ElementId) (s : State ω) (hs : I s) : I (b.elementLabel id s).2 := by
  rw [FactBase.elementLabel]
  split
  · exact hs
  · exact h.attribute? _ id _ (h.attribute? _ id _ (h.attribute? _ id _ (h.attribute? _ id _ (h.attribute? _ id s hs))))

theorem labelNodes (ids : List ElementId) : ∀ s, I s → I (ArchFlow.labelNodes (.architecture b) ids s).2 := by
  induction ids with
  | nil => intro s hs; exact hs
  | cons id ids ih => intro s hs; exact ih _ (h.elementLabel id s hs)

variable (hworld : ∀ s w, I s → I { s with world := w })
include hworld

theorem flow (profile : Profile) (signal : Signal ω) (root : ElementId) (depth : UInt64) (s : State ω) (hs : I s) :
    I (Explorer.flow ⟨b, profile, signal⟩ root depth s).2 := by
  have hx : (⟨b, profile, signal⟩ : Explorer ω).Keeps I := ⟨h, fun s hs => hworld s _ hs⟩
  exact hx.passes.flow root depth s hs

/-- What single queries keep, and every change of the world, is kept whatever is asked. -/
theorem perform (q : Query ω) (s : State ω) (hs : I s) : I (b.perform q s) := by
  cases q with
  | targets link source => exact h.targets link source s hs
  | resolve name id => exact h.resolve name id s hs
  | label id => exact h.elementLabel id s hs
  | flow profile signal root depth => exact h.flow hworld profile signal root depth s hs
  | graph labeling ts => exact h.labelNodes _ s hs

/-- It holds after every history. -/
theorem after (history : List (Query ω)) {s : State ω} (hs : I s) : I (b.after history s) :=
  List.foldlRecOn history _ hs fun s hs q _ => h.perform hworld q s hs

end Keeps

end FactBase

end ArchFlow
