import ArchFlow.Proofs.Flow.FirstOccurrence
import ArchFlow.Proofs.Flow.History
import ArchFlow.Proofs.Flow.Survey
import Mathlib.Data.List.Forall2

/-!
# Cancelled flows

Where sources are steady, a flow that is cancelled goes as the same flow would that nobody cancels, until the flag goes
up; from then on it only stops. Its tree is the other one cut short: below each node that is left, the children of the
types of links that were followed are left, and no others.

* `StopsBetween`, `FlowTree.Truncates`: forests and trees that are cut short at the ends of types of links.
* `Explorer.expand_follows`: an expansion follows the drawing from a survey, as long as the flag is down.
* `Explorer.visits`: the nodes of a tree, each with the progress when it was reached.
* `Explorer.cancelled_flow_truncates`: a cancellation only truncates.
-/

namespace ArchFlow

/-! ## Trees that are cut short -/

/-- The trees `ts` are related to the first of `us`: to those that are linked to by the first of some types of links,
given what links of each type lead to. -/
def StopsBetween (R : FlowTree → FlowTree → Prop) (next : LinkType → List (Option String × ElementId))
    (linkTypes : List LinkType) (ts us : List FlowTree) : Prop :=
  ∃ followed kept rest, followed <+: linkTypes ∧ kept.map Survey.link = followed.flatMap next ∧ us = kept ++ rest ∧
    List.Forall₂ R ts kept

namespace StopsBetween

variable {R : FlowTree → FlowTree → Prop} {next : LinkType → List (Option String × ElementId)} {link : LinkType}
  {linkTypes : List LinkType} {ts ts' us us' : List FlowTree}

theorem nil : StopsBetween R next linkTypes [] us := ⟨[], [], us, List.nil_prefix, rfl, rfl, .nil⟩

/-- The trees for one type of links come before those for the types that follow. -/
theorem append (h : List.Forall₂ R ts us) (hlinks : us.map Survey.link = next link)
    (h' : StopsBetween R next linkTypes ts' us') : StopsBetween R next (link :: linkTypes) (ts ++ ts') (us ++ us') := by
  obtain ⟨followed, kept, rest, hfollowed, hkept, rfl, hts'⟩ := h'
  refine ⟨link :: followed, us ++ kept, rest, ?_, ?_, (List.append_assoc us kept rest).symm, List.rel_append h hts'⟩
  · exact List.cons_prefix_cons.2 ⟨rfl, hfollowed⟩
  · rw [List.map_append, hlinks, hkept, List.flatMap_cons]

end StopsBetween

/-- The tree `c` is `f` cut short. Its root has all attributes of that of `f`, or none, and the children that `f` has
through the first of some types of links, given what links of each type lead from an element to; the children are cut
short themselves. -/
inductive FlowTree.Truncates (linkTypes : List LinkType)
    (next : LinkType → ElementId → List (Option String × ElementId)) : FlowTree → FlowTree → Prop
  | node {c f : FlowTree} {followed : List LinkType} {kept rest : List FlowTree} (hid : c.id = f.id)
      (hlabel : c.label = f.label) (hvia : c.via = f.via)
      (hattributes : c.attributes = f.attributes ∨ c.attributes = .empty) (hfollowed : followed <+: linkTypes)
      (hlinks : kept.map Survey.link = followed.flatMap fun link => next link f.id) (hsplit : f.children = kept ++ rest)
      (hchildren : List.Forall₂ (Truncates linkTypes next) c.children kept) : Truncates linkTypes next c f

theorem FlowTree.Truncates.of_stopsBetween {linkTypes : List LinkType}
    {next : LinkType → ElementId → List (Option String × ElementId)} {c f : FlowTree} (hid : c.id = f.id)
    (hlabel : c.label = f.label) (hvia : c.via = f.via)
    (hattributes : c.attributes = f.attributes ∨ c.attributes = .empty)
    (h : StopsBetween (Truncates linkTypes next) (fun link => next link f.id) linkTypes c.children f.children) :
    Truncates linkTypes next c f := by
  obtain ⟨_, _, _, hfollowed, hlinks, hsplit, hchildren⟩ := h
  exact .node hid hlabel hvia hattributes hfollowed hlinks hsplit hchildren

namespace Explorer

variable {ω : Type}

/-- The same exploration if nobody cancels it. -/
def uncancelled (x : Explorer ω) : Explorer ω := { x with signal := .never }

/-- What links of a type lead from an element to. -/
def leads (x : Explorer ω) (s : State ω) (link : LinkType) (id : ElementId) : List (Option String × ElementId) :=
  (x.found link id s).map fun e => (link.requiredValue? Attribute.kind, e.id)

variable {x : Explorer ω}

theorem attributesOf_uncancelled (id : ElementId) (names : List String) :
    ∀ known s, x.uncancelled.attributesOf id names known s = x.attributesOf id names known s := by
  induction names with
  | nil => intro known s; rfl
  | cons name names ih =>
    intro known s
    rw [attributesOf_cons, attributesOf_cons, ih]
    rfl

/-- What is known of elements does not depend on whether somebody cancels. -/
theorem survey_uncancelled (s : State ω) : x.uncancelled.survey s = x.survey s := by
  unfold survey
  simp only [attributesOf_uncancelled]
  rfl

/-! ## Following a drawing -/

/-- The progress of a flow compared with that of a drawing from the state `s`: nothing is answered differently, and the
same elements are expanded unless the flag is up. -/
structure Tracks (x : Explorer ω) (up : ω → Prop) (s : State ω) (p : Progress ω) (seen : List ElementId) : Prop where
  agrees : x.base.Agrees s p.state
  expanded : ¬ up p.state.world → p.expanded = seen

/-- What grows is related to what is drawn, from progress to progress. -/
def Follows {α β : Type} (x : Explorer ω) (up : ω → Prop) (s : State ω) (R : α → β → Prop)
    (grow : Progress ω → α × Progress ω) (draw : List ElementId → β × List ElementId) : Prop :=
  ∀ p seen, x.Tracks up s p seen → R (grow p).1 (draw seen).1 ∧ x.Tracks up s (grow p).2 (draw seen).2

variable {up : ω → Prop} {s : State ω} {R : FlowTree → FlowTree → Prop}

theorem growTargets_follows {grow : Grow ω} {draw : Survey.Draw}
    (h : ∀ id via, x.Follows up s R (grow id via) (draw id via)) (via : Option String) (es : List Element) :
    x.Follows up s (List.Forall₂ R) (growTargets grow via es) (Survey.drawAll draw (es.map fun e => (via, e.id))) := by
  induction es with
  | nil => intro p seen hp; exact ⟨.nil, hp⟩
  | cons e es ih =>
    intro p seen hp
    obtain ⟨he, hp'⟩ := h e.id via p seen hp
    obtain ⟨hes, hp''⟩ := ih _ _ hp'
    exact ⟨.cons he hes, hp''⟩

section Latches

variable (hx : x.Latches up)
include hx

/-- The flag was down before it is seen down. -/
theorem not_up_of_isUp {p : Progress ω} (h : x.isUp p = false) : ¬ up p.state.world := fun hp => by
  rw [isUp, cancelled, hx.shown _ hp] at h
  cases h

/-- Once the flag is up a node is a leaf without attributes. -/
theorem expand_of_up (n : Nat) (id : ElementId) (via : Option String) {p : Progress ω} (hp : up p.state.world) :
    (x.expand n id via p).1.attributes = .empty ∧ (x.expand n id via p).1.children = [] := by
  have hleaf : (x.leaf id via p).attributes = .empty := by
    show (x.nodeAttributes id p).1 = .empty
    rw [nodeAttributes_eq, isUp, cancelled, hx.shown _ hp, if_pos rfl]
  have ho := x.expand_outcome n id via p
  generalize x.expand n id via p = r at ho ⊢
  cases ho with
  | cut => exact ⟨hleaf, rfl⟩
  | revisit => exact ⟨hleaf, rfl⟩
  | stopped => exact ⟨hleaf, rfl⟩
  | node k _ _ hup => exact absurd (hx.keeps.reach id hp) (not_up_of_isUp hx hup)

end Latches

section Steady

variable (hb : x.base.Steady)
include hb

theorem keeps_agrees (s : State ω) : x.Keeps (x.base.Agrees s) where
  toKeeps := hb.keeps s
  look u hu := hu.trans (hb.agrees_world u _)

section Tracks

variable (hx : x.Latches up) {p : Progress ω} {seen : List ElementId} (hp : x.Tracks up s p seen)
include hx hp

theorem Tracks.look : x.Tracks up s (x.look p) seen where
  agrees := (keeps_agrees hb s).look _ hp.agrees
  expanded hdown := hp.expanded fun h => hdown (hx.keeps.look p.state h)

theorem Tracks.explore (link : LinkType) (id : ElementId) : x.Tracks up s (x.explore link id p) seen where
  agrees := (keeps_agrees hb s).targets link id _ hp.agrees
  expanded hdown := hp.expanded fun h => hdown (hx.keeps.targets link id _ h)

theorem Tracks.reach (id : ElementId) : x.Tracks up s (x.reach id p) seen where
  agrees := (keeps_agrees hb s).reach id hp.agrees
  expanded hdown := (x.reach_expanded id p).trans (hp.expanded fun h => hdown (hx.keeps.reach id h))

end Tracks

/-- A node shows what the survey tells of its element, apart from attributes that were not asked for. -/
theorem leaf_shows {p : Progress ω} (hp : x.base.Agrees s p.state) (id : ElementId) (via : Option String) :
    (x.leaf id via p).label = (x.survey s).label id ∧
      ((x.leaf id via p).attributes = (x.survey s).attributes id ∨ (x.leaf id via p).attributes = .empty) := by
  have hcalm : x.uncancelled.Calm := ⟨hb, fun _ => rfl⟩
  have hs : x.base.Agrees s s := .refl x.base s
  have hlook : x.base.Agrees s (x.look p).state := (keeps_agrees hb s).look _ hp
  have hlabel : x.uncancelled.labelOf p.state id = x.uncancelled.labelOf s id :=
    (hcalm.determined s).labelOf_eq hs hp
  have hattributes : (x.uncancelled.attributesOf id x.profile.attributeNames .empty (x.look p).state).1 =
      (x.uncancelled.attributesOf id x.profile.attributeNames .empty s).1 :=
    (hcalm.determined s).attributesOf_eq _ _ hs hlook
  refine ⟨hlabel, ?_⟩
  show (x.nodeAttributes id p).1 = _ ∨ (x.nodeAttributes id p).1 = _
  rw [nodeAttributes_eq]
  split
  · exact .inr rfl
  · rw [attributesOf_uncancelled, attributesOf_uncancelled] at hattributes
    exact .inl hattributes

/-- A node that is left as a leaf is cut short, whatever its children would be. -/
theorem leaf_truncates {p : Progress ω} (hp : x.base.Agrees s p.state) (id : ElementId) (via : Option String)
    (ts : List FlowTree) :
    (x.leaf id via p).Truncates x.profile.linkTypes (x.leads s) { (x.survey s).leaf id via with children := ts } := by
  obtain ⟨hlabel, hattributes⟩ := leaf_shows hb hp id via
  exact .of_stopsBetween rfl hlabel rfl hattributes .nil

variable (hx : x.Latches up)
include hx

/-- Following links goes as drawing their targets, up to the end of some type of links. -/
theorem growLinks_follows {grow : Grow ω} {draw : Survey.Draw}
    (h : ∀ id via, x.Follows up s R (grow id via) (draw id via))
    (hlink : ∀ id via seen, Survey.link (draw id via seen).1 = (via, id)) (id : ElementId) (links : List LinkType) :
    x.Follows up s (StopsBetween R (fun link => x.leads s link id) links) (x.growLinks grow id links)
      (Survey.drawAll draw (links.flatMap fun link => x.leads s link id)) := by
  induction links with
  | nil => intro p seen hp; exact ⟨.nil, hp⟩
  | cons link links ih =>
    intro p seen hp
    have hlook : x.Tracks up s (x.look p) seen := hp.look hb hx
    rw [growLinks_cons]
    cases hup : x.isUp p with
    | true =>
      -- whatever is still to be drawn is left out
      rw [if_pos rfl]
      exact ⟨.nil, hlook.agrees, fun hdown => absurd (hx.seen _ hup) hdown⟩
    | false =>
      have hfound : x.found link id (x.look p).state = x.found link id s := by
        rw [found, found, hb.targets_eq hlook.agrees]
      have hexplore : x.Tracks up s (x.explore link id (x.look p)) seen := hlook.explore hb hx link id
      obtain ⟨hhere, hthere⟩ :=
        growTargets_follows h (link.requiredValue? Attribute.kind) (x.found link id s) _ _ hexplore
      obtain ⟨hrest, hend⟩ := ih _ _ hthere
      rw [if_neg Bool.false_ne_true, List.flatMap_cons, Survey.drawAll_append]
      dsimp only
      rw [hfound]
      exact ⟨hrest.append hhere (Survey.map_link_drawAll hlink _ _), hend⟩

/-- An expansion goes as the drawing from a survey, cut short. -/
theorem expand_follows (n : Nat) :
    ∀ id via, x.Follows up s (FlowTree.Truncates x.profile.linkTypes (x.leads s)) (x.expand n id via)
      ((x.survey s).expand n id via) := by
  induction n with
  | zero =>
    intro id via p seen hp
    exact ⟨leaf_truncates hb hp.agrees id via [], hp.reach hb hx id⟩
  | succ k ih =>
    intro id via p seen hp
    have hreach : x.Tracks up s (x.reach id p) seen := hp.reach hb hx id
    have hlook : x.Tracks up s (x.look (x.reach id p)) seen := hreach.look hb hx
    -- a leaf is cut short, wherever the drawing goes on
    have hleaf : (x.leaf id via p).Truncates x.profile.linkTypes (x.leads s)
        ((x.survey s).expand (k + 1) id via seen).1 := by
      rw [Survey.expand]
      split
      · exact leaf_truncates hb hp.agrees id via []
      · exact leaf_truncates hb hp.agrees id via _
    have ho := x.expand_outcome (k + 1) id via p
    generalize x.expand (k + 1) id via p = r at ho ⊢
    cases ho with
    | cut h => cases h
    | revisit hid =>
      refine ⟨hleaf, hreach.agrees, fun hdown => ?_⟩
      have hseen : (x.reach id p).expanded = seen := hreach.expanded hdown
      rw [← x.reach_expanded id p, hseen] at hid
      rw [Survey.expand, if_pos hid]
      exact hseen
    | stopped hup => exact ⟨hleaf, hlook.agrees, fun hdown => absurd (hx.seen _ hup) hdown⟩
    | node j hn hid hup ts q hts =>
      cases hn
      have hseen : (x.reach id p).expanded = seen := hreach.expanded (not_up_of_isUp hx hup)
      rw [← x.reach_expanded id p, hseen] at hid
      have hmark : x.Tracks up s (mark id (x.look (x.reach id p))) (id :: seen) :=
        ⟨hlook.agrees, fun hdown => congrArg (id :: ·) (hlook.expanded hdown)⟩
      have hgrown := growLinks_follows hb hx ih (Survey.link_expand k) id x.profile.linkTypes _ _ hmark
      obtain ⟨hlabel, hattributes⟩ := leaf_shows hb hp.agrees id via
      rw [hts] at hgrown
      rw [Survey.expand, if_neg hid]
      exact ⟨.of_stopsBetween rfl hlabel rfl hattributes hgrown.1, hgrown.2⟩

end Steady

/-! ## Visits -/

/-- A node of a tree, with the progress of the flow when the node is reached. -/
structure Visit (ω : Type) where
  progress : Progress ω
  node : FlowTree

/-- A way to list the visits of a tree that grows. -/
abbrev Log (ω : Type) := ElementId → Option String → Progress ω → List (Visit ω)

/-- The visits of the trees that grow for targets. -/
def visitTargets (log : Log ω) (grow : Grow ω) (via : Option String) : List Element → Progress ω → List (Visit ω)
  | [], _ => []
  | e :: es, p => log e.id via p ++ visitTargets log grow via es (grow e.id via p).2

/-- The visits of the trees that grow for the targets of links. -/
def visitLinks (x : Explorer ω) (log : Log ω) (grow : Grow ω) (id : ElementId) :
    List LinkType → Progress ω → List (Visit ω)
  | [], _ => []
  | link :: links, p =>
    if x.isUp p then []
    else
      let via := link.requiredValue? Attribute.kind
      let targets := x.found link id (x.look p).state
      let q := x.explore link id (x.look p)
      visitTargets log grow via targets q ++ visitLinks x log grow id links (growTargets grow via targets q).2

/-- The visits of an expansion, in the order in which the nodes are reached. -/
def visits (x : Explorer ω) : Nat → Log ω
  | 0, id, via, p => [⟨p, x.leaf id via p⟩]
  | n + 1, id, via, p =>
    ⟨p, (x.expand (n + 1) id via p).1⟩ ::
      if id ∈ p.expanded ∨ x.isUp (x.reach id p) = true then []
      else x.visitLinks (visits x n) (x.expand n) id x.profile.linkTypes (mark id (x.look (x.reach id p)))

/-- The visits are those of the nodes of some trees, and what each node shows grew from the progress of its visit. -/
structure Logs (x : Explorer ω) (vs : List (Visit ω)) (ts : List FlowTree) : Prop where
  nodes : vs.map (·.node) = FlowTree.preorders ts
  grown : ∀ v ∈ vs, ∃ n id via, v.node = (x.expand n id via v.progress).1

theorem Logs.append {vs us : List (Visit ω)} {ts rs : List FlowTree} (hvs : x.Logs vs ts) (hus : x.Logs us rs) :
    x.Logs (vs ++ us) (ts ++ rs) where
  nodes := by
    rw [List.map_append, hvs.nodes, hus.nodes]
    simp only [FlowTree.preorders_eq_flatMap, List.flatMap_append]
  grown v hv := (List.mem_append.1 hv).elim (hvs.grown v) (hus.grown v)

theorem visitTargets_logs {log : Log ω} {grow : Grow ω} (h : ∀ id via p, x.Logs (log id via p) [(grow id via p).1])
    (via : Option String) (es : List Element) :
    ∀ p, x.Logs (visitTargets log grow via es p) (growTargets grow via es p).1 := by
  induction es with
  | nil => intro p; exact ⟨rfl, fun v hv => by cases hv⟩
  | cons e es ih => intro p; exact (h e.id via p).append (ih _)

theorem visitLinks_logs {log : Log ω} {grow : Grow ω} (h : ∀ id via p, x.Logs (log id via p) [(grow id via p).1])
    (id : ElementId) (links : List LinkType) :
    ∀ p, x.Logs (x.visitLinks log grow id links p) (x.growLinks grow id links p).1 := by
  induction links with
  | nil => intro p; exact ⟨rfl, fun v hv => by cases hv⟩
  | cons link links ih =>
    intro p
    rw [visitLinks, growLinks_cons]
    split
    · exact ⟨rfl, fun v hv => by cases hv⟩
    · exact (visitTargets_logs h _ _ _).append (ih _)

theorem visits_logs (n : Nat) : ∀ id via p, x.Logs (x.visits n id via p) [(x.expand n id via p).1] := by
  induction n with
  | zero =>
    intro id via p
    refine ⟨rfl, fun v hv => ⟨0, id, via, ?_⟩⟩
    cases List.mem_singleton.1 hv
    rfl
  | succ k ih =>
    intro id via p
    have hbelow : x.Logs (if id ∈ p.expanded ∨ x.isUp (x.reach id p) = true then []
        else x.visitLinks (x.visits k) (x.expand k) id x.profile.linkTypes (mark id (x.look (x.reach id p))))
        (x.expand (k + 1) id via p).1.children := by
      rw [expand_succ]
      by_cases hid : id ∈ p.expanded
      · rw [if_pos (.inl hid), if_pos hid]
        exact ⟨rfl, fun v hv => by cases hv⟩
      · rw [if_neg hid]
        by_cases hup : x.isUp (x.reach id p) = true
        · rw [if_pos (.inr hup), if_pos hup]
          exact ⟨rfl, fun v hv => by cases hv⟩
        · rw [if_neg (not_or.2 ⟨hid, hup⟩), if_neg hup]
          exact visitLinks_logs ih id x.profile.linkTypes _
    constructor
    · rw [visits, List.map_cons, hbelow.nodes, FlowTree.preorders, FlowTree.preorders, List.append_nil]
      exact (FlowTree.preorder_eq _).symm
    · intro v hv
      rw [visits] at hv
      rcases List.mem_cons.1 hv with rfl | hv
      · exact ⟨k + 1, id, via, rfl⟩
      · exact hbelow.grown v hv

/-! ## Flows -/

section Histories

variable (hb : x.base.Steady)
include hb

/-- Whatever was asked before, a base with steady sources answers as it did at first. -/
theorem agrees_after (before : List (Query ω)) (w w' : ω) :
    x.base.Agrees (.fresh w) (x.base.after before (.fresh w')) :=
  (hb.keeps (.fresh w)).after (fun s' u h => h.trans (hb.agrees_world s' u)) before (hb.agrees_world (.fresh w) w')

theorem contains_after (before : List (Query ω)) (w : ω) (id : ElementId) :
    x.base.contains (x.base.after before (.fresh w)) id = (x.base.types.lookup id).isSome := by
  rw [FactBase.contains, (agrees_after hb before w w).typeOf? id, FactBase.typeOf?]
  show ((x.base.types.lookup id).or none).isSome = _
  rw [Option.or_none]

/-- **Cancellation only truncates.** Let the sources be steady and lead to registered elements only, and let the signal
be a flag that anybody may raise at any time. Whatever was asked before, the flow from a registered root, down to any
depth, is the flow that nobody cancels cut short; its nodes are visited in pre-order, and those that are reached when
the flag is up have neither attributes nor children. From other roots both flows fail. -/
theorem cancelled_flow_truncates (hx : x.Latches up) (before before' : List (Query ω)) (w w' : ω) (root : ElementId)
    (depth : UInt64) :
    let s := x.base.after before (.fresh w)
    let s' := x.base.after before' (.fresh w')
    if (x.base.types.lookup root).isSome then
      ∃ c f, (x.flow root depth s).1 = .ok c ∧ (x.uncancelled.flow root depth s').1 = .ok f ∧
        c.Truncates x.profile.linkTypes (x.leads s) f ∧
        (x.visits depth.toNat root none ⟨[], s⟩).map (·.node) = c.preorder ∧
        ∀ v ∈ x.visits depth.toNat root none ⟨[], s⟩, up v.progress.state.world →
          v.node.attributes = .empty ∧ v.node.children = []
    else
      (x.flow root depth s).1 = .error (.unknownElement root) ∧
        (x.uncancelled.flow root depth s').1 = .error (.unknownElement root) := by
  intro s s'
  have hcontains : x.base.contains s root = (x.base.types.lookup root).isSome := contains_after hb before w root
  have hcontains' : x.base.contains s' root = (x.base.types.lookup root).isSome := contains_after hb before' w' root
  by_cases hroot : (x.base.types.lookup root).isSome = true
  · rw [if_pos hroot]
    -- both flows follow the drawing from the survey of the state in which the first one starts
    have hagrees : x.base.Agrees s s' := (agrees_after hb before w w).symm.trans (agrees_after hb before' w w')
    have hcalm : x.uncancelled.Calm := ⟨hb, fun _ => rfl⟩
    have hview : ∀ id u, x.base.Agrees s u → x.base.Agrees s ((fun _ : ElementId => s) id) := fun _ _ _ => .refl _ s
    obtain ⟨_, hflow', -⟩ := (hcalm.determined s).flow_eq hview (hcontains'.trans hroot) hagrees depth
    obtain ⟨htruncates, -⟩ := expand_follows hb hx depth.toNat root none ⟨[], s⟩ [] ⟨.refl _ s, fun _ => rfl⟩
    have hlogs := x.visits_logs depth.toNat root none ⟨[], s⟩
    refine ⟨_, _, by rw [flow_of_contains (hcontains.trans hroot)], by rw [hflow'], ?_, ?_, fun v hv hup => ?_⟩
    · simp only [survey_uncancelled]
      exact htruncates
    · rw [hlogs.nodes, FlowTree.preorders, FlowTree.preorders, List.append_nil]
    · obtain ⟨n, id, via, hnode⟩ := hlogs.grown v hv
      rw [hnode]
      exact expand_of_up hx n id via hup
  · have hunknown : (x.base.types.lookup root).isSome = false := Bool.eq_false_iff.2 hroot
    rw [if_neg hroot, flow_of_unknown (hcontains.trans hunknown),
      flow_of_unknown (x := x.uncancelled) (hcontains'.trans hunknown)]
    exact ⟨rfl, rfl⟩

end Histories

/-! ### A flow that is cancelled while links are followed -/

/-- Which of three elements an element has links to, of a kind. -/
def dispatchTargets (kind : String) (id : ElementId) : List ElementId :=
  if kind = "queries" then if id = "a" then ["c"] else []
  else if id = "a" then ["b", "c"] else if id = "b" then ["c", "a"] else ["b"]

/-- Three elements that call each other, and one that queries another. The world counts the requests, and the fourth one
raises the flag. -/
def dispatch : Explorer Nat where
  base := {
    slots := [⟨.ofKind "app.service", ["a", "b", "c"].map fun id => ⟨id, .ofKind "app.service"⟩⟩]
    types := ["a", "b", "c"].map fun id => (id, .ofKind "app.service")
    attributes := [⟨.ofKind "app.service", "name", fun id w => (.ok (some id), w + 1)⟩]
    links := ["calls", "queries"].map fun kind =>
      ⟨.ofKind kind, .ofKind "app.service", .ofKind "app.service", fun id w =>
        (.ok ((dispatchTargets kind id).map fun id => ⟨id, .ofKind "app.service"⟩), w + 1)⟩ }
  profile := { Profile.architecture with linkTypes := [.ofKind "calls", .ofKind "queries"], attributeNames := ["name"] }
  signal w := (decide (4 ≤ w), w)

theorem mem_dispatchTargets {kind : String} {id target : ElementId} (h : target ∈ dispatchTargets kind id) :
    target = "a" ∨ target = "b" ∨ target = "c" := by
  unfold dispatchTargets at h
  split_ifs at h <;> simp at h <;> tauto

theorem dispatch_steady : dispatch.base.Steady where
  attributes r hr id := by
    cases List.mem_singleton.1 hr
    exact ⟨.ok (some id), fun _ => rfl⟩
  links r hr id := by
    obtain ⟨kind, -, rfl⟩ := List.mem_map.1 hr
    exact ⟨_, fun _ => rfl⟩
  closed r hr id w es hes e he := by
    obtain ⟨kind, -, rfl⟩ := List.mem_map.1 hr
    cases hes
    obtain ⟨target, htarget, rfl⟩ := List.mem_map.1 he
    show (dispatch.base.types.lookup target).isSome = true
    rcases mem_dispatchTargets htarget with rfl | rfl | rfl <;> rfl

theorem dispatch_latches : dispatch.Latches (4 ≤ ·) where
  shown _ hw := decide_eq_true hw
  seen _ hw := of_decide_eq_true hw
  attributes r hr _ _ hw := by
    cases List.mem_singleton.1 hr
    exact Nat.le_succ_of_le hw
  links r hr _ _ hw := by
    obtain ⟨kind, -, rfl⟩ := List.mem_map.1 hr
    exact Nat.le_succ_of_le hw

/-- What is seen of a tree: where elements occur, how they were reached, and their names. -/
def glimpse (t : FlowTree) : List (Nat × ElementId × Option String × Option String) :=
  t.occurrences.map fun o => (o.depth, o.id, o.node.via, o.node.attributes.get? "name")

theorem glimpse_of_ok {r : Except Failure FlowTree} {t : FlowTree}
    {shown : List (Nat × ElementId × Option String × Option String)} (h : r = .ok t)
    (hshown : r.toOption.map glimpse = some shown) : glimpse t = shown := by
  subst h
  exact Option.some.inj hshown

/-- The flag goes up while the calls of `b` are loaded. All calls of `b` and `a` are left, as leaves without names, and
the query of `a` is not followed. -/
theorem cancelled_flow_truncates_dispatch :
    ∃ c f, (dispatch.flow "a" 3 (.fresh 0)).1 = .ok c ∧ (dispatch.uncancelled.flow "a" 3 (.fresh 0)).1 = .ok f ∧
      c.Truncates dispatch.profile.linkTypes (dispatch.leads (.fresh 0)) f ∧
      glimpse c =
        [(0, "a", none, some "a"), (1, "b", some "calls", some "b"), (2, "c", some "calls", none),
          (2, "a", some "calls", none), (1, "c", some "calls", none)] ∧
      glimpse f =
        [(0, "a", none, some "a"), (1, "b", some "calls", some "b"), (2, "c", some "calls", some "c"),
          (3, "b", some "calls", some "b"), (2, "a", some "calls", some "a"), (1, "c", some "calls", some "c"),
          (1, "c", some "queries", some "c")] := by
  have h := cancelled_flow_truncates dispatch_steady dispatch_latches [] [] 0 0 "a" 3
  have hroot : (dispatch.base.types.lookup "a").isSome = true := by decide +kernel
  dsimp only at h
  rw [if_pos hroot] at h
  obtain ⟨c, f, hc, hf, htruncates, -, -⟩ := h
  exact ⟨c, f, hc, hf, htruncates, glimpse_of_ok hc (by decide +kernel), glimpse_of_ok hf (by decide +kernel)⟩

end Explorer

end ArchFlow
