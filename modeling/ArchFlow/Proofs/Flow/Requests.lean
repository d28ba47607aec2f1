import ArchFlow.Proofs.Flow.History
import ArchFlow.Proofs.Flow.Survey

/-!
# Requests of a history

A query asks a fact base for targets of links and for values of attributes, one after the other. Flows do so at each
node that they reach, and labels and graphs ask for attributes. The requests of a history are listed here, each with the
state in which it is asked, and they are all that leaves traces: between one request and the next only the world goes
on.

* `FactBase.requestsOf`: the requests of a history, in order.
* `FactBase.LeadsBy`: requests that lead from one state to another by looks at signals; what they keep holds at all
  `moments`.
* `FactBase.leads_requestsOf`: the requests of a history lead to the state after it.
-/

namespace ArchFlow

variable {ω : Type}

/-- A request to a fact base, with the state in which it is asked. -/
inductive Request (ω : Type)
  | targets (link : LinkType) (source : ElementId) (s : State ω)
  | resolve (name : String) (id : ElementId) (s : State ω)

namespace Request

/-- The state in which the request is asked. -/
def start : Request ω → State ω
  | .targets _ _ s => s
  | .resolve _ _ s => s

/-- The state after the request. -/
def finish (b : FactBase ω) : Request ω → State ω
  | .targets link source s => (b.targets link source s).2
  | .resolve name id s => (b.resolve? name id s).2

end Request

/-- What queries keep a request keeps. -/
theorem FactBase.Keeps.finish {b : FactBase ω} {I : State ω → Prop} (h : b.Keeps I) {r : Request ω} (hr : I r.start) :
    I (r.finish b) := by
  cases r with
  | targets link source s => exact h.targets link source s hr
  | resolve name id s => exact h.resolve name id s hr

/-! ## Requests that follow each other -/

/-- A moment of a run: the requests so far, and the state. -/
structure Moment (ω : Type) where
  past : List (Request ω)
  state : State ω

/-- The moments at which each of some requests is asked, and the one when they are done. -/
def moments (past : List (Request ω)) : List (Request ω) → State ω → List (Moment ω)
  | [], s => [⟨past, s⟩]
  | r :: rs, s => ⟨past, r.start⟩ :: moments (past ++ [r]) rs s

namespace FactBase

/-- The requests lead from one state to another: each is asked in the state that the one before it has left, once
signals with the property were looked at. -/
inductive LeadsBy (b : FactBase ω) (S : Signal ω → Prop) : State ω → List (Request ω) → State ω → Prop
  | done {s : State ω} : LeadsBy b S s [] s
  | look {s s' : State ω} {rs : List (Request ω)} {signal : Signal ω} (hsignal : S signal)
      (hrest : LeadsBy b S { s with world := (signal s.world).2 } rs s') : LeadsBy b S s rs s'
  | ask {s s' : State ω} {r : Request ω} {rs : List (Request ω)} (hstart : r.start = s)
      (hrest : LeadsBy b S (r.finish b) rs s') : LeadsBy b S s (r :: rs) s'

/-- The requests lead from one state to another, whichever signals were looked at meanwhile. -/
abbrev Leads (b : FactBase ω) : State ω → List (Request ω) → State ω → Prop := b.LeadsBy fun _ => True

variable {b : FactBase ω} {S : Signal ω → Prop} {s s' s'' : State ω} {r : Request ω} {rs rs' : List (Request ω)}

namespace LeadsBy

theorem single (r : Request ω) : b.LeadsBy S r.start [r] (r.finish b) := .ask rfl .done

theorem append (h : b.LeadsBy S s rs s') (h' : b.LeadsBy S s' rs' s'') : b.LeadsBy S s (rs ++ rs') s'' := by
  induction h with
  | done => exact h'
  | look hsignal _ ih => exact .look hsignal (ih h')
  | ask hstart _ ih => exact .ask hstart (ih h')

/-- What all requests keep as they go by, and the looks between them, holds at all moments. -/
theorem keeps {I : List (Request ω) → State ω → Prop}
    (hlook : ∀ past s (signal : Signal ω), S signal → I past s → I past { s with world := (signal s.world).2 })
    (hask : ∀ past (r : Request ω), I past r.start → I (past ++ [r]) (r.finish b)) (h : b.LeadsBy S s rs s') :
    ∀ past, I past s → ∀ m ∈ moments past rs s', I m.past m.state := by
  induction h with
  | done =>
    intro past hs m hm
    cases List.mem_singleton.1 hm
    exact hs
  | look hsignal _ ih => exact fun past hs => ih past (hlook past _ _ hsignal hs)
  | @ask s s' r rs hstart _ ih =>
    intro past hs m hm
    have hr : I past r.start := hstart ▸ hs
    rcases List.mem_cons.1 hm with rfl | hm
    · exact hr
    · exact ih (past ++ [r]) (hask past r hr) m hm

end LeadsBy

/-- What all requests keep as they go by, and every change of the world, holds at all moments. -/
theorem Leads.keeps {I : List (Request ω) → State ω → Prop}
    (hworld : ∀ past s w, I past s → I past { s with world := w })
    (hask : ∀ past (r : Request ω), I past r.start → I (past ++ [r]) (r.finish b)) (h : b.Leads s rs s') :
    ∀ past, I past s → ∀ m ∈ moments past rs s', I m.past m.state :=
  LeadsBy.keeps (fun past s _ _ hs => hworld past s _ hs) hask h

/-! ## Attributes -/

/-- Requests for the values of attributes, in turn. -/
def attributeRequests (b : FactBase ω) (id : ElementId) : List String → State ω → List (Request ω)
  | [], _ => []
  | name :: names, s => .resolve name id s :: attributeRequests b id names (b.resolve? name id s).2

theorem leads_attributeRequests (b : FactBase ω) (id : ElementId) (names : List String) :
    ∀ s, b.LeadsBy S s (b.attributeRequests id names s) (names.foldl (fun s name => (b.resolve? name id s).2) s) := by
  induction names with
  | nil => intro s; exact .done
  | cons name names ih => intro s; exact .ask rfl (ih _)

/-- The requests for a label: five attributes, if the element is known. -/
def labelRequests (b : FactBase ω) (id : ElementId) (s : State ω) : List (Request ω) :=
  if b.contains s id then
    b.attributeRequests id [Attribute.verb, Attribute.route, Attribute.entity, Attribute.table, Attribute.contract] s
  else []

/-- The requests for the labels of elements. -/
def labelsRequests (b : FactBase ω) : List ElementId → State ω → List (Request ω)
  | [], _ => []
  | id :: ids, s => b.labelRequests id s ++ labelsRequests b ids (b.elementLabel id s).2

/-- Labelling a known element resolves five attributes. -/
theorem elementLabel_snd (id : ElementId) (s : State ω) :
    (b.elementLabel id s).2 =
      if b.contains s id then
        [Attribute.verb, Attribute.route, Attribute.entity, Attribute.table, Attribute.contract].foldl
          (fun s name => (b.resolve? name id s).2) s
      else s := by
  rw [contains, elementLabel]
  cases b.typeOf? s id with
  | none => rfl
  | some type =>
    simp only [List.foldl_cons, List.foldl_nil, ← attribute?_snd]
    rfl

theorem leads_labelRequests (b : FactBase ω) (id : ElementId) (s : State ω) :
    b.LeadsBy S s (b.labelRequests id s) (b.elementLabel id s).2 := by
  rw [labelRequests, elementLabel_snd]
  split
  · exact b.leads_attributeRequests id _ s
  · exact .done

theorem leads_labelsRequests (b : FactBase ω) (ids : List ElementId) :
    ∀ s, b.LeadsBy S s (b.labelsRequests ids s) (labelNodes (.architecture b) ids s).2 := by
  induction ids with
  | nil => intro s; exact .done
  | cons id ids ih => intro s; exact (b.leads_labelRequests id s).append (ih _)

end FactBase

/-! ## Flows -/

namespace Explorer

variable (x : Explorer ω)

/-- The requests for the attributes of a node. -/
def nodeRequests (id : ElementId) (p : Progress ω) : List (Request ω) :=
  if x.isUp p then [] else x.base.attributeRequests id x.profile.attributeNames (x.look p).state

/-- A way to list the requests for a tree that grows. -/
abbrev Inquiry (ω : Type) := ElementId → Progress ω → List (Request ω)

/-- The requests for the trees that grow for targets. -/
def targetRequests (inquiry : Inquiry ω) (grow : Grow ω) (via : Option String) :
    List Element → Progress ω → List (Request ω)
  | [], _ => []
  | e :: es, p => inquiry e.id p ++ targetRequests inquiry grow via es (grow e.id via p).2

/-- The requests for the trees that grow for the targets of links: first for the targets, then for their trees. -/
def linkRequests (inquiry : Inquiry ω) (grow : Grow ω) (id : ElementId) :
    List LinkType → Progress ω → List (Request ω)
  | [], _ => []
  | link :: links, p =>
    if x.isUp p then []
    else
      let via := link.requiredValue? Attribute.kind
      let targets := x.found link id (x.look p).state
      let q := x.explore link id (x.look p)
      .targets link id (x.look p).state :: targetRequests inquiry grow via targets q ++
        linkRequests inquiry grow id links (growTargets grow via targets q).2

/-- The requests of an expansion. -/
def expandRequests : Nat → Inquiry ω
  | 0, id, p => x.nodeRequests id p
  | n + 1, id, p =>
    x.nodeRequests id p ++
      if id ∈ p.expanded ∨ x.isUp (x.reach id p) = true then []
      else x.linkRequests (expandRequests n) (x.expand n) id x.profile.linkTypes (mark id (x.look (x.reach id p)))

/-- The requests of a flow. -/
def flowRequests (root : ElementId) (depth : UInt64) (s : State ω) : List (Request ω) :=
  if x.base.contains s root then x.expandRequests depth.toNat root ⟨[], s⟩ else []

variable {x}

theorem attributesOf_snd (id : ElementId) (names : List String) :
    ∀ known s, (x.attributesOf id names known s).2 = names.foldl (fun s name => (x.base.resolve? name id s).2) s := by
  induction names with
  | nil => intro known s; rfl
  | cons name names ih => intro known s; rw [attributesOf_cons, ih, List.foldl_cons]

section Leads

variable {S : Signal ω → Prop} (hsignal : S x.signal)
include hsignal

/-- Looking at the signal lets the world go on. -/
theorem leads_look {p : Progress ω} {s : State ω} {rs : List (Request ω)} (h : x.base.LeadsBy S (x.look p).state rs s) :
    x.base.LeadsBy S p.state rs s :=
  .look hsignal h

theorem leads_nodeRequests (id : ElementId) (p : Progress ω) :
    x.base.LeadsBy S p.state (x.nodeRequests id p) (x.reach id p).state := by
  rw [nodeRequests, reach, nodeAttributes_eq]
  split
  · exact leads_look hsignal .done
  · dsimp only
    rw [attributesOf_snd]
    exact leads_look hsignal (x.base.leads_attributeRequests id _ _)

omit hsignal in
theorem leads_targetRequests {inquiry : Inquiry ω} {grow : Grow ω}
    (h : ∀ id via p, x.base.LeadsBy S p.state (inquiry id p) (grow id via p).2.state) (via : Option String)
    (es : List Element) :
    ∀ p, x.base.LeadsBy S p.state (targetRequests inquiry grow via es p) (growTargets grow via es p).2.state := by
  induction es with
  | nil => intro p; exact .done
  | cons e es ih => intro p; exact (h e.id via p).append (ih _)

theorem leads_linkRequests {inquiry : Inquiry ω} {grow : Grow ω}
    (h : ∀ id via p, x.base.LeadsBy S p.state (inquiry id p) (grow id via p).2.state) (id : ElementId)
    (links : List LinkType) :
    ∀ p, x.base.LeadsBy S p.state (x.linkRequests inquiry grow id links p) (x.growLinks grow id links p).2.state := by
  induction links with
  | nil => intro p; exact .done
  | cons link links ih =>
    intro p
    rw [linkRequests, growLinks_cons]
    split
    · exact leads_look hsignal .done
    · refine leads_look hsignal (FactBase.LeadsBy.append ?_ (ih _))
      exact .ask rfl (leads_targetRequests h _ _ (x.explore link id (x.look p)))

theorem leads_expandRequests (n : Nat) :
    ∀ id via p, x.base.LeadsBy S p.state (x.expandRequests n id p) (x.expand n id via p).2.state := by
  induction n with
  | zero => intro id via p; exact leads_nodeRequests hsignal id p
  | succ k ih =>
    intro id via p
    rw [expandRequests, expand_succ]
    refine (leads_nodeRequests hsignal id p).append ?_
    by_cases hid : id ∈ p.expanded
    · rw [if_pos (.inl hid), if_pos hid]
      exact .done
    · rw [if_neg hid]
      by_cases hup : x.isUp (x.reach id p) = true
      · rw [if_pos (.inr hup), if_pos hup]
        exact leads_look hsignal .done
      · rw [if_neg (not_or.2 ⟨hid, hup⟩), if_neg hup]
        exact leads_look hsignal (leads_linkRequests hsignal ih id _ (mark id (x.look (x.reach id p))))

theorem leads_flowRequests (root : ElementId) (depth : UInt64) (s : State ω) :
    x.base.LeadsBy S s (x.flowRequests root depth s) (x.flow root depth s).2 := by
  rw [flowRequests, flow]
  split
  · exact leads_expandRequests hsignal depth.toNat root none ⟨[], s⟩
  · exact .done

end Leads

end Explorer

/-! ## Histories -/

/-- The signals that the query looks at have a property. -/
def Query.LooksAt (S : Signal ω → Prop) : Query ω → Prop
  | .flow _ signal _ _ => S signal
  | _ => True

namespace FactBase

variable (b : FactBase ω)

/-- The requests of a query. -/
def requests : Query ω → State ω → List (Request ω)
  | .targets link source, s => [.targets link source s]
  | .resolve name id, s => [.resolve name id s]
  | .label id, s => b.labelRequests id s
  | .flow profile signal root depth, s => Explorer.flowRequests ⟨b, profile, signal⟩ root depth s
  | .graph labeling ts, s =>
    b.labelsRequests (Sketch.blank.addTrees (edgeBetween labeling (Labeler.architecture b).link) ts).nodes s

/-- The requests of a history. -/
def requestsOf : List (Query ω) → State ω → List (Request ω)
  | [], _ => []
  | q :: qs, s => b.requests q s ++ requestsOf qs (b.perform q s)

/-- The moments of a history: those at which something is asked, be it in the middle of a flow, and the last one. -/
def momentsOf (history : List (Query ω)) (w : ω) : List (Moment ω) :=
  moments [] (b.requestsOf history (.fresh w)) (b.after history (.fresh w))

variable {b} {S : Signal ω → Prop}

theorem leads_requests {q : Query ω} (hq : q.LooksAt S) (s : State ω) :
    b.LeadsBy S s (b.requests q s) (b.perform q s) := by
  cases q with
  | targets link source => exact .single (.targets link source s)
  | resolve name id => exact .single (.resolve name id s)
  | label id => exact b.leads_labelRequests id s
  | flow profile signal root depth => exact Explorer.leads_flowRequests (x := ⟨b, profile, signal⟩) hq root depth s
  | graph labeling ts => exact b.leads_labelsRequests _ s

/-- The requests of a history lead to the state after it, by looks at its signals. -/
theorem leadsBy_requestsOf {history : List (Query ω)} (h : ∀ q ∈ history, q.LooksAt S) :
    ∀ s, b.LeadsBy S s (b.requestsOf history s) (b.after history s) := by
  induction history with
  | nil => intro s; exact .done
  | cons q qs ih =>
    intro s
    exact (leads_requests (h q List.mem_cons_self) s).append (ih (fun q hq => h q (List.mem_cons_of_mem _ hq)) _)

/-- **The requests of a history lead to the state after it.** -/
theorem leads_requestsOf (b : FactBase ω) (history : List (Query ω)) (s : State ω) :
    b.Leads s (b.requestsOf history s) (b.after history s) :=
  leadsBy_requestsOf (fun q _ => by cases q <;> trivial) s

end FactBase

end ArchFlow
