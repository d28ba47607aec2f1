import ArchFlow.Proofs.Flow.Cancellation
import ArchFlow.Proofs.Flow.Requests

/-!
# Records of histories

A history may be recorded as a whole: all calls of sources that its queries make, be it in the middle of a flow or for
a label, and all looks at signals. Without the record it is the history itself, with the same requests in the same
states, and from one request to the next nothing is recorded but looks.

* `Query.recorded`: a query whose looks at the signal are recorded.
* `FactBase.momentsOf_recorded`: the moments of a recorded history are those of the history.
* `FactBase.recorded_keeps`: what recorded requests and looks keep holds at all moments.
-/

namespace ArchFlow

variable {ω : Type}

/-- The request without the record. -/
def Request.unrecorded : Request (Recorded ω) → Request ω
  | .targets link source s => .targets link source s.unrecorded
  | .resolve name id s => .resolve name id s.unrecorded

/-- The moment without the record. -/
def Moment.unrecorded (m : Moment (Recorded ω)) : Moment ω := ⟨m.past.map Request.unrecorded, m.state.unrecorded⟩

/-- The query with its looks at the signal recorded. -/
def Query.recorded : Query ω → Query (Recorded ω)
  | .targets link source => .targets link source
  | .resolve name id => .resolve name id
  | .label id => .label id
  | .flow profile signal root depth => .flow profile (record .look signal) root depth
  | .graph labeling ts => .graph labeling ts

theorem Request.start_unrecorded (r : Request (Recorded ω)) : r.unrecorded.start = r.start.unrecorded := by
  cases r <;> rfl

theorem moments_unrecorded (rs : List (Request (Recorded ω))) (s : State (Recorded ω)) :
    ∀ past, (moments past rs s).map Moment.unrecorded =
      moments (past.map Request.unrecorded) (rs.map Request.unrecorded) s.unrecorded := by
  induction rs with
  | nil => intro past; rfl
  | cons r rs ih =>
    intro past
    have hhead : (⟨past, r.start⟩ : Moment (Recorded ω)).unrecorded =
        ⟨past.map Request.unrecorded, r.unrecorded.start⟩ := by
      rw [Request.start_unrecorded]
      rfl
    rw [moments, List.map_cons, hhead, ih, List.map_append]
    rfl

/-! ## Attributes -/

namespace FactBase

variable {b : FactBase ω}

theorem foldl_resolve?_recorded (id : ElementId) (names : List String) :
    ∀ s : State (Recorded ω), (names.foldl (fun s name => (b.recorded.resolve? name id s).2) s).unrecorded =
      names.foldl (fun s name => (b.resolve? name id s).2) s.unrecorded := by
  induction names with
  | nil => intro s; rfl
  | cons name names ih =>
    intro s
    rw [List.foldl_cons, ih, (resolve?_recorded name id s).2]
    rfl

theorem attributeRequests_recorded (id : ElementId) (names : List String) :
    ∀ s : State (Recorded ω), (b.recorded.attributeRequests id names s).map Request.unrecorded =
      b.attributeRequests id names s.unrecorded := by
  induction names with
  | nil => intro s; rfl
  | cons name names ih =>
    intro s
    rw [attributeRequests, List.map_cons, ih, (resolve?_recorded name id s).2]
    rfl

theorem labelRequests_recorded (id : ElementId) (s : State (Recorded ω)) :
    (b.recorded.labelRequests id s).map Request.unrecorded = b.labelRequests id s.unrecorded := by
  have hcontains : b.recorded.contains s id = b.contains s.unrecorded id := rfl
  rw [labelRequests, labelRequests, hcontains]
  split
  · exact attributeRequests_recorded id _ s
  · rfl

theorem elementLabel_recorded (id : ElementId) (s : State (Recorded ω)) :
    (b.recorded.elementLabel id s).2.unrecorded = (b.elementLabel id s.unrecorded).2 := by
  have hcontains : b.recorded.contains s id = b.contains s.unrecorded id := rfl
  rw [elementLabel_snd, elementLabel_snd, hcontains]
  split
  · exact foldl_resolve?_recorded id _ s
  · rfl

theorem labelsRequests_recorded (ids : List ElementId) :
    ∀ s : State (Recorded ω), (b.recorded.labelsRequests ids s).map Request.unrecorded =
      b.labelsRequests ids s.unrecorded := by
  induction ids with
  | nil => intro s; rfl
  | cons id ids ih =>
    intro s
    rw [labelsRequests, List.map_append, labelRequests_recorded, ih, elementLabel_recorded]
    rfl

theorem labelNodes_recorded (ids : List ElementId) :
    ∀ s : State (Recorded ω), (labelNodes (.architecture b.recorded) ids s).2.unrecorded =
      (labelNodes (.architecture b) ids s.unrecorded).2 := by
  induction ids with
  | nil => intro s; rfl
  | cons id ids ih =>
    intro s
    show (labelNodes (.architecture b.recorded) ids (b.recorded.elementLabel id s).2).2.unrecorded = _
    rw [ih, elementLabel_recorded]
    rfl

end FactBase

/-! ## Flows -/

namespace Explorer

variable {x : Explorer ω}

/-- A recorded flow and the flow itself are at the same point. -/
abbrev AtOnce (p : Progress ω) (p' : Progress (Recorded ω)) : Prop := Abreast (fun s s' => s'.unrecorded = s) p p'

variable {p : Progress ω} {p' : Progress (Recorded ω)}

theorem nodeRequests_recorded (id : ElementId) (hp : AtOnce p p') :
    (x.recorded.nodeRequests id p').map Request.unrecorded = x.nodeRequests id p := by
  obtain ⟨hup, hlook⟩ := x.alike_recorded.look hp
  rw [nodeRequests, nodeRequests, hup]
  split
  · rfl
  · rw [← hlook.state]
    exact FactBase.attributeRequests_recorded id _ _

theorem targetRequests_recorded {inquiry : Inquiry ω} {inquiry' : Inquiry (Recorded ω)} {grow : Grow ω}
    {grow' : Grow (Recorded ω)}
    (h : ∀ id {p p'}, AtOnce p p' → (inquiry' id p').map Request.unrecorded = inquiry id p)
    (hgrow : ∀ id via {p p'}, AtOnce p p' → AtOnce (grow id via p).2 (grow' id via p').2) (via : Option String)
    (es : List Element) :
    ∀ {p p'}, AtOnce p p' →
      (targetRequests inquiry' grow' via es p').map Request.unrecorded = targetRequests inquiry grow via es p := by
  induction es with
  | nil => intro p p' _; rfl
  | cons e es ih =>
    intro p p' hp
    rw [targetRequests, List.map_append, h e.id hp, ih (hgrow e.id via hp)]
    rfl

theorem linkRequests_recorded {inquiry : Inquiry ω} {inquiry' : Inquiry (Recorded ω)} {grow : Grow ω}
    {grow' : Grow (Recorded ω)}
    (h : ∀ id {p p'}, AtOnce p p' → (inquiry' id p').map Request.unrecorded = inquiry id p)
    (hgrow : ∀ id via {p p'}, AtOnce p p' →
      Match (fun s s' => s'.unrecorded = s) (grow id via p) (grow' id via p')) (id : ElementId)
    (links : List LinkType) :
    ∀ {p p'}, AtOnce p p' →
      (x.recorded.linkRequests inquiry' grow' id links p').map Request.unrecorded =
        x.linkRequests inquiry grow id links p := by
  induction links with
  | nil => intro p p' _; rfl
  | cons link links ih =>
    intro p p' hp
    obtain ⟨hup, hlook⟩ := x.alike_recorded.look hp
    obtain ⟨hfound, hstate⟩ := x.alike_recorded.targets hlook.state link id
    have hexplore : AtOnce (x.explore link id (x.look p)) (x.recorded.explore link id (x.recorded.look p')) :=
      ⟨hlook.expanded, hstate⟩
    rw [linkRequests, linkRequests, hup]
    split
    · rfl
    · dsimp only
      rw [hfound, List.map_append, List.map_cons, Request.unrecorded, hlook.state,
        targetRequests_recorded h (fun id via _ _ hp => (hgrow id via hp).2) _ _ hexplore,
        ih (Alike.growTargets hgrow _ _ hexplore).2]

theorem expandRequests_recorded (n : Nat) :
    ∀ id {p p'}, AtOnce p p' → (x.recorded.expandRequests n id p').map Request.unrecorded = x.expandRequests n id p := by
  induction n with
  | zero => intro id p p' hp; exact nodeRequests_recorded id hp
  | succ n ih =>
    intro id p p' hp
    obtain ⟨-, hreach⟩ := x.alike_recorded.reach id none hp
    obtain ⟨hup, hlook⟩ := x.alike_recorded.look hreach
    rw [expandRequests, expandRequests, List.map_append, nodeRequests_recorded id hp, hp.expanded, hup]
    refine congrArg (x.nodeRequests id p ++ ·) ?_
    split
    · rfl
    · have hmark : AtOnce (mark id (x.look (x.reach id p))) (mark id (x.recorded.look (x.recorded.reach id p'))) :=
        ⟨congrArg (id :: ·) hlook.expanded, hlook.state⟩
      exact linkRequests_recorded ih (x.alike_recorded.expand n) id _ hmark

theorem flowRequests_recorded (root : ElementId) (depth : UInt64) (s : State (Recorded ω)) :
    (x.recorded.flowRequests root depth s).map Request.unrecorded = x.flowRequests root depth s.unrecorded := by
  have hcontains : x.recorded.base.contains s root = x.base.contains s.unrecorded root := rfl
  rw [flowRequests, flowRequests, hcontains]
  split
  · exact expandRequests_recorded depth.toNat root ⟨rfl, rfl⟩
  · rfl

end Explorer

/-! ## Histories -/

namespace FactBase

variable {b : FactBase ω}

theorem requests_recorded (q : Query ω) (s : State (Recorded ω)) :
    (b.recorded.requests q.recorded s).map Request.unrecorded = b.requests q s.unrecorded := by
  cases q with
  | targets link source => rfl
  | resolve name id => rfl
  | label id => exact labelRequests_recorded id s
  | flow profile signal root depth => exact Explorer.flowRequests_recorded (x := ⟨b, profile, signal⟩) root depth s
  | graph labeling ts => exact labelsRequests_recorded _ s

theorem perform_recorded (q : Query ω) (s : State (Recorded ω)) :
    (b.recorded.perform q.recorded s).unrecorded = b.perform q s.unrecorded := by
  cases q with
  | targets link source => exact (targets_recorded link source s).2
  | resolve name id => exact (resolve?_recorded name id s).2
  | label id => exact elementLabel_recorded id s
  | flow profile signal root depth =>
    exact ((Explorer.alike_recorded ⟨b, profile, signal⟩).flow rfl root depth).2
  | graph labeling ts => exact labelNodes_recorded _ s

theorem after_recorded (history : List (Query ω)) :
    ∀ s : State (Recorded ω), (b.recorded.after (history.map Query.recorded) s).unrecorded =
      b.after history s.unrecorded := by
  induction history with
  | nil => intro s; rfl
  | cons q qs ih =>
    intro s
    show (b.recorded.after (qs.map Query.recorded) (b.recorded.perform q.recorded s)).unrecorded = _
    rw [ih, perform_recorded]
    rfl

theorem requestsOf_recorded (history : List (Query ω)) :
    ∀ s : State (Recorded ω), (b.recorded.requestsOf (history.map Query.recorded) s).map Request.unrecorded =
      b.requestsOf history s.unrecorded := by
  induction history with
  | nil => intro s; rfl
  | cons q qs ih =>
    intro s
    rw [List.map_cons, requestsOf, List.map_append, requests_recorded, ih, perform_recorded]
    rfl

variable (b)

/-- The moments of a recorded history. -/
def recordedMoments (history : List (Query ω)) (w : ω) : List (Moment (Recorded ω)) :=
  b.recorded.momentsOf (history.map Query.recorded) ⟨w, []⟩

/-- **Recording changes nothing.** The moments of a recorded history are those of the history. -/
theorem momentsOf_recorded (history : List (Query ω)) (w : ω) :
    (b.recordedMoments history w).map Moment.unrecorded = b.momentsOf history w := by
  rw [recordedMoments, momentsOf, moments_unrecorded, requestsOf_recorded, after_recorded]
  rfl

variable {b}

/-- What recorded requests keep as they go by, and recorded looks, holds at all moments of a recorded history. -/
theorem recorded_keeps {I : List (Request (Recorded ω)) → State (Recorded ω) → Prop}
    (hlook : ∀ past s (signal : Signal ω), I past s → I past { s with world := (record .look signal s.world).2 })
    (hask : ∀ past (r : Request (Recorded ω)), I past r.start → I (past ++ [r]) (r.finish b.recorded))
    {history : List (Query ω)} {w : ω} (hstart : I [] (.fresh ⟨w, []⟩)) {m : Moment (Recorded ω)}
    (hm : m ∈ b.recordedMoments history w) : I m.past m.state := by
  have hsignals : ∀ q ∈ history.map Query.recorded, q.LooksAt fun signal => ∃ inner, signal = record .look inner := by
    intro q hq
    obtain ⟨q, -, rfl⟩ := List.mem_map.1 hq
    cases q with
    | flow profile signal root depth => exact ⟨signal, rfl⟩
    | _ => trivial
  refine (leadsBy_requestsOf hsignals _).keeps (fun past s signal hsignal hs => ?_) hask [] hstart m hm
  obtain ⟨inner, rfl⟩ := hsignal
  exact hlook past s inner hs

end FactBase

end ArchFlow
