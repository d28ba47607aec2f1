import ArchFlow.Proofs.FactBase.Steady
import ArchFlow.Proofs.Flow.Expansion
import ArchFlow.Proofs.Flow.Occurrence

/-!
# Flows that nothing disturbs

Where sources are steady and nobody cancels, a flow is drawn from a survey: what is known of each element is the same
all the time, and only the elements that are expanded already change. A drawing is exact. It has children where an
element occurs first above the depth bound, and there it has all of them, in order.

* `Survey.expand_draws`: the children of every node of a drawing.
* `Explorer.Determined.expand_simulates`: an expansion goes on as the drawing from the survey does.
* `Explorer.Determined.flow_congr`: flows are the same in states that settle the same answers.
* `Explorer.Calm.flow_eq`: the flow from a root is the drawing from it.
-/

namespace ArchFlow

/-- What is known of elements. -/
structure Survey where
  label : ElementId → String
  attributes : ElementId → SortedMap String String
  /-- What an element links to, and through which kinds of links, in order. -/
  next : ElementId → List (Option String × ElementId)

namespace Survey

/-! ## Drawings -/

/-- A way to draw an element that was reached through a kind of link, given the elements that are expanded already. -/
abbrev Draw := ElementId → Option String → List ElementId → FlowTree × List ElementId

/-- Draws several elements, from left to right. -/
def drawAll (draw : Draw) : List (Option String × ElementId) → List ElementId → List FlowTree × List ElementId
  | [], seen => ([], seen)
  | (via, id) :: rest, seen =>
    let here := draw id via seen
    let others := drawAll draw rest here.2
    (here.1 :: others.1, others.2)

variable (v : Survey)

/-- An element without its children. -/
def leaf (id : ElementId) (via : Option String) : FlowTree := ⟨id, v.label id, v.attributes id, via, []⟩

/-- Draws an element with a number of levels left below it. -/
def expand : Nat → Draw
  | 0, id, via, seen => (v.leaf id via, seen)
  | n + 1, id, via, seen =>
    if id ∈ seen then (v.leaf id via, seen)
    else
      let grown := drawAll (expand n) (v.next id) (id :: seen)
      ({ v.leaf id via with children := grown.1 }, grown.2)

/-- The drawing from a root, down to a depth. -/
def tree (depth : Nat) (root : ElementId) : FlowTree := (v.expand depth root none []).1

theorem drawAll_append (draw : Draw) (l m : List (Option String × ElementId)) :
    ∀ seen, drawAll draw (l ++ m) seen =
      ((drawAll draw l seen).1 ++ (drawAll draw m (drawAll draw l seen).2).1,
        (drawAll draw m (drawAll draw l seen).2).2) := by
  induction l with
  | nil => intro seen; rfl
  | cons a l ih => intro seen; simp [drawAll, ih]

/-! ## What a drawing shows -/

/-- The kind of link that led to a node, and its element. -/
def link (t : FlowTree) : Option String × ElementId := (t.via, t.id)

variable {v}

theorem map_link_drawAll {draw : Draw} (h : ∀ id via seen, link (draw id via seen).1 = (via, id)) :
    ∀ (l : List (Option String × ElementId)) seen, (drawAll draw l seen).1.map link = l := by
  intro l
  induction l with
  | nil => intro seen; rfl
  | cons a l ih => intro seen; simp [drawAll, h, ih]

theorem link_expand (n : Nat) (id : ElementId) (via : Option String) (seen : List ElementId) :
    link (v.expand n id via seen).1 = (via, id) := by
  cases n with
  | zero => rfl
  | succ n =>
    rw [expand]
    split <;> rfl

variable (v) in
/-- Occurrences as in a drawing that is made while the expanded elements go from `seen` to `seen'`: an element has the
children that it links to if it is above the bound for the first time, and none otherwise. -/
structure Draws (m : Nat) (os : List Occurrence) (seen seen' : List ElementId) : Prop where
  nodes : ∀ o ∈ os, o.node.label = v.label o.id ∧ o.node.attributes = v.attributes o.id
  children : Along (fun before o => o.node.children.map link =
    if o.depth < m ∧ ¬ (o.id ∈ seen ∨ o.id ∈ idsAbove m before) then v.next o.id else []) os
  seen : ∀ id, id ∈ seen' ↔ id ∈ seen ∨ id ∈ idsAbove m os

namespace Draws

variable {m : Nat} {seen seen' seen'' : List ElementId}

theorem nil : v.Draws m [] seen seen := ⟨by simp, along_nil, by simp⟩

theorem trans {os us : List Occurrence} (h₁ : v.Draws m os seen seen') (h₂ : v.Draws m us seen' seen'') :
    v.Draws m (os ++ us) seen seen'' where
  nodes o ho := (List.mem_append.1 ho).elim (h₁.nodes o) (h₂.nodes o)
  children := by
    refine along_append.2 ⟨h₁.children, h₂.children.imp fun before o _ ho => ?_⟩
    have hseen : (o.id ∈ seen' ∨ o.id ∈ idsAbove m before) ↔ (o.id ∈ seen ∨ o.id ∈ idsAbove m (os ++ before)) := by
      rw [h₁.seen, idsAbove_append, List.mem_append, or_assoc]
    simp only [ho, hseen]
  seen id := by rw [h₂.seen, h₁.seen, idsAbove_append, List.mem_append, or_assoc]

/-- A leaf is drawn at the bound, and where its element is expanded already. -/
theorem leaf {above : List ElementId} {id : ElementId} {via : Option String} (h : above.length < m → id ∈ seen) :
    v.Draws m [⟨above, v.leaf id via⟩] seen seen where
  nodes o ho := by
    cases List.mem_singleton.1 ho
    exact ⟨rfl, rfl⟩
  children := by
    refine along_cons.2 ⟨?_, along_nil⟩
    rw [if_neg fun hnew => hnew.2 (.inl (h hnew.1))]
    rfl
  seen i := by
    constructor
    · exact .inl
    · rintro (hi | hi)
      · exact hi
      · obtain ⟨o, ho, hlt, rfl⟩ := mem_idsAbove.1 hi
        cases List.mem_singleton.1 ho
        exact h hlt

/-- A node above the bound is drawn with the children it links to, after it is marked. -/
theorem node {o : Occurrence} {os : List Occurrence} (hlt : o.depth < m) (hnew : o.id ∉ seen)
    (hnode : o.node.label = v.label o.id ∧ o.node.attributes = v.attributes o.id)
    (hlinks : o.node.children.map link = v.next o.id) (h : v.Draws m os (o.id :: seen) seen') :
    v.Draws m (o :: os) seen seen' := by
  have hone : ∀ before, idsAbove m (o :: before) = o.id :: idsAbove m before := fun before => by
    simp [idsAbove, hlt]
  constructor
  · intro u hu
    rcases List.mem_cons.1 hu with rfl | hu
    · exact hnode
    · exact h.nodes u hu
  · refine along_cons.2 ⟨?_, h.children.imp fun before u _ hu => ?_⟩
    · rw [if_pos ⟨hlt, by simp [hnew]⟩]
      exact hlinks
    · have hseen : (u.id ∈ o.id :: seen ∨ u.id ∈ idsAbove m before) ↔
          (u.id ∈ seen ∨ u.id ∈ idsAbove m (o :: before)) := by
        rw [hone, List.mem_cons, List.mem_cons, or_assoc]
        exact or_left_comm
      simp only [hu, hseen]
  · intro id
    rw [h.seen, hone, List.mem_cons, List.mem_cons, or_assoc]
    exact or_left_comm

end Draws

theorem drawAll_draws {m : Nat} {above : List ElementId} {draw : Draw}
    (h : ∀ id via seen, v.Draws m ((draw id via seen).1.occurrencesBelow above) seen (draw id via seen).2)
    (l : List (Option String × ElementId)) :
    ∀ seen, v.Draws m (FlowTree.forestBelow above (drawAll draw l seen).1) seen (drawAll draw l seen).2 := by
  induction l with
  | nil => intro seen; exact .nil
  | cons a l ih => intro seen; exact (h a.2 a.1 seen).trans (ih _)

/-- A drawing has all children of an element at its first occurrence above the bound, and no others. -/
theorem expand_draws {m : Nat} (n : Nat) :
    ∀ (above : List ElementId), above.length + n = m → ∀ id via seen,
      v.Draws m ((v.expand n id via seen).1.occurrencesBelow above) seen (v.expand n id via seen).2 := by
  induction n with
  | zero =>
    intro above hm id via seen
    exact .leaf fun hlt => by omega
  | succ n ih =>
    intro above hm id via seen
    rw [expand]
    split
    · next hid => exact .leaf fun _ => hid
    · next hid =>
      have hchildren := drawAll_draws (ih (id :: above) (by rw [List.length_cons]; omega)) (v.next id) (id :: seen)
      rw [FlowTree.occurrencesBelow_eq]
      refine .node ?_ hid ⟨rfl, rfl⟩ (map_link_drawAll (link_expand n) _ _) hchildren
      simp only [Occurrence.depth]
      omega

theorem link_tree {m : Nat} {root : ElementId} : link (v.tree m root) = (none, root) := link_expand m root none []

theorem tree_draws {m : Nat} {root : ElementId} :
    v.Draws m (v.tree m root).occurrences [] (v.expand m root none []).2 :=
  expand_draws m [] (Nat.zero_add _) root none []

/-- What many surveys tell, one for each element. -/
def glue (v : ElementId → Survey) : Survey where
  label id := (v id).label id
  attributes id := (v id).attributes id
  next id := (v id).next id

end Survey

/-! ## The survey of a state -/

namespace Explorer

variable {ω : Type} {x : Explorer ω}

/-- What a state tells of elements. -/
def survey (x : Explorer ω) (s : State ω) : Survey where
  label := x.labelOf s
  attributes id := (x.attributesOf id x.profile.attributeNames .empty s).1
  next id := x.profile.linkTypes.flatMap fun link =>
    (x.found link id s).map fun e => (link.requiredValue? Attribute.kind, e.id)

theorem survey_next (x : Explorer ω) (s : State ω) (id : ElementId) :
    (x.survey s).next id =
      x.profile.linkTypes.flatMap fun link =>
        (x.found link id s).map fun e => (link.requiredValue? Attribute.kind, e.id) :=
  rfl

/-- The attributes that are known after one more was asked for. -/
def withAnswer (known : SortedMap String String) (name : String) :
    Except Failure (Option String) → SortedMap String String
  | .ok (some value) => known.insert name value
  | _ => known

theorem get?_withAnswer (known : SortedMap String String) (name key : String)
    (answer : Except Failure (Option String)) :
    (withAnswer known name answer).get? key =
      if name = key then answer.toOption.join.or (known.get? key) else known.get? key := by
  rcases answer with _ | _ | value
  · exact (ite_self _).symm
  · exact (ite_self _).symm
  · exact known.get?_insert name key value

theorem attributesOf_cons (id : ElementId) (name : String) (names : List String) (known : SortedMap String String)
    (s : State ω) :
    x.attributesOf id (name :: names) known s =
      x.attributesOf id names (withAnswer known name (x.base.resolve? name id s).1) (x.base.resolve? name id s).2 := by
  rw [attributesOf]
  rcases x.base.resolve? name id s with ⟨_ | _ | _, s⟩ <;> rfl

/-! ## Flows whose answers are settled -/

/-- Nobody cancels, and what `J` holds of settles the answers about elements. -/
structure Determined (x : Explorer ω) (J : ElementId → State ω → Prop) : Prop where
  consistent : x.base.Consistent J
  quiet : ∀ w, (x.signal w).1 = false

namespace Determined

variable {J : ElementId → State ω → Prop} (hx : x.Determined J)
include hx

theorem isUp_eq (p : Progress ω) : x.isUp p = false := hx.quiet p.state.world

theorem keeps (id : ElementId) : x.Keeps (J id) where
  toKeeps := hx.consistent.keeps id
  look s hs := hx.consistent.world id s _ hs

variable {id : ElementId} {s s' : State ω}

theorem labelOf_eq (h : J id s) (h' : J id s') : x.labelOf s' id = x.labelOf s id := by
  rw [labelOf, labelOf, hx.consistent.typeOf? h h']

theorem found_eq (h : J id s) (h' : J id s') (link : LinkType) : x.found link id s' = x.found link id s := by
  rw [found, found, hx.consistent.targets h h' link]

theorem of_mem_found (h : J id s) {link : LinkType} {e : Element} (he : e ∈ x.found link id s) :
    J e.id (x.base.targets link id s).2 := by
  obtain ⟨es, hes, he⟩ := exists_of_mem_found he
  exact hx.consistent.found h hes e he

theorem attributesOf_eq (names : List String) :
    ∀ known {s s' : State ω}, J id s → J id s' →
      (x.attributesOf id names known s').1 = (x.attributesOf id names known s).1 := by
  induction names with
  | nil => intro known s s' _ _; rfl
  | cons name names ih =>
    intro known s s' h h'
    have hs : J id (x.base.resolve? name id s).2 := (hx.keeps id).resolve name id s h
    have hs' : J id (x.base.resolve? name id s').2 := (hx.keeps id).resolve name id s' h'
    rw [attributesOf_cons, attributesOf_cons, hx.consistent.resolve h h' name, ih _ hs hs']

/-- The attributes of a node are those that are asked for and that the element has. -/
theorem get?_attributesOf (h : J id s) (key : String) (names : List String) :
    ∀ known {u : State ω}, J id u → (x.attributesOf id names known u).1.get? key =
      (if key ∈ names then (x.base.resolve? key id s).1.toOption.join else none).or (known.get? key) := by
  induction names with
  | nil => intro known u _; simp [attributesOf]
  | cons name names ih =>
    intro known u hu
    have hkept : J id (x.base.resolve? name id u).2 := (hx.keeps id).resolve name id u hu
    rw [attributesOf_cons, ih _ hkept, get?_withAnswer, hx.consistent.resolve h hu name]
    by_cases hname : name = key
    · subst hname
      cases (x.base.resolve? name id s).1.toOption.join <;> by_cases hmem : name ∈ names <;> simp [hmem]
    · have hname' : ¬ key = name := fun e => hname e.symm
      simp [hname, hname']

theorem leaf_eq {p : Progress ω} (h : J id s) (hp : J id p.state) (via : Option String) :
    x.leaf id via p = (x.survey s).leaf id via := by
  have hlook : J id (x.look p).state := (hx.keeps id).look _ hp
  have hattributes : (x.nodeAttributes id p).1 = (x.survey s).attributes id := by
    rw [nodeAttributes_eq, hx.isUp_eq, if_neg Bool.false_ne_true]
    exact hx.attributesOf_eq _ .empty h hlook
  rw [leaf, Survey.leaf, hattributes, hx.labelOf_eq h hp]
  rfl

/-! ### Simulation -/

omit hx in
variable (J) in
/-- Growing goes as drawing does, where `J` holds of some elements. -/
def Simulates {α : Type} (ids : List ElementId) (grow : Progress ω → α × Progress ω)
    (draw : List ElementId → α × List ElementId) : Prop :=
  ∀ p : Progress ω, (∀ id ∈ ids, J id p.state) →
    ((grow p).1, (grow p).2.expanded) = draw p.expanded ∧ ∀ id, J id p.state → J id (grow p).2.state

omit hx in
theorem growTargets_simulates {grow : Grow ω} {draw : Survey.Draw}
    (h : ∀ id via, Simulates J [id] (grow id via) (draw id via)) (via : Option String) (es : List Element) :
    Simulates J (es.map (·.id)) (growTargets grow via es) (Survey.drawAll draw (es.map fun e => (via, e.id))) := by
  induction es with
  | nil => intro p _; exact ⟨rfl, fun _ => id⟩
  | cons e es ih =>
    intro p hp
    obtain ⟨he, hkeep⟩ := h e.id via p fun i hi => hp i (List.mem_singleton.1 hi ▸ List.mem_cons_self)
    obtain ⟨hes, hkeep'⟩ := ih _ fun i hi => hkeep i (hp i (List.mem_cons_of_mem _ hi))
    refine ⟨?_, fun i hi => hkeep' i (hkeep i hi)⟩
    rw [growTargets_cons, List.map_cons, Survey.drawAll, ← he, ← hes]

variable {view : ElementId → State ω} (hview : ∀ id s, J id s → J id (view id))
include hview

theorem growLinks_simulates {grow : Grow ω} {draw : Survey.Draw}
    (h : ∀ id via, Simulates J [id] (grow id via) (draw id via)) (id : ElementId) (links : List LinkType) :
    Simulates J [id] (x.growLinks grow id links)
      (Survey.drawAll draw (links.flatMap fun link =>
        (x.found link id (view id)).map fun e => (link.requiredValue? Attribute.kind, e.id))) := by
  induction links with
  | nil => intro p _; exact ⟨rfl, fun _ hi => hi⟩
  | cons link links ih =>
    intro p hp
    have hlook : ∀ i, J i p.state → J i (x.look p).state := fun i => (hx.keeps i).look _
    have hexplore : ∀ i, J i p.state → J i (x.explore link id (x.look p)).state := fun i hi =>
      (hx.keeps i).targets link id _ (hlook i hi)
    have hid : J id (x.look p).state := hlook id (hp id (List.mem_singleton_self id))
    have hfound : x.found link id (x.look p).state = x.found link id (view id) :=
      hx.found_eq (hview id _ hid) hid link
    obtain ⟨hes, hkeep⟩ := growTargets_simulates h (link.requiredValue? Attribute.kind)
      (x.found link id (x.look p).state) (x.explore link id (x.look p)) fun i hi => by
        obtain ⟨e, he, rfl⟩ := List.mem_map.1 hi
        exact hx.of_mem_found hid he
    obtain ⟨hrest, hkeep'⟩ := ih _ fun i hi => hkeep i (hexplore i (hp i hi))
    rw [explore_expanded, look_expanded] at hes
    refine ⟨?_, fun i hi => ?_⟩
    · rw [growLinks_cons, hx.isUp_eq, if_neg Bool.false_ne_true, List.flatMap_cons, Survey.drawAll_append]
      dsimp only
      rw [← hfound, ← hes, ← hrest]
    · rw [growLinks_cons, hx.isUp_eq, if_neg Bool.false_ne_true]
      exact hkeep' i (hkeep i (hexplore i hi))

/-- An expansion goes as the drawing from the survey does. -/
theorem expand_simulates (n : Nat) :
    ∀ id via, Simulates J [id] (x.expand n id via) ((Survey.glue fun id => x.survey (view id)).expand n id via) := by
  induction n with
  | zero =>
    intro id via p hp
    have hid : J id p.state := hp id (List.mem_singleton_self id)
    refine ⟨?_, fun i hi => (hx.keeps i).expand 0 id via p hi⟩
    exact Prod.ext (hx.leaf_eq (hview id _ hid) hid via) (x.reach_expanded id p)
  | succ n ih =>
    intro id via p hp
    have hid : J id p.state := hp id (List.mem_singleton_self id)
    refine ⟨?_, fun i hi => (hx.keeps i).expand (n + 1) id via p hi⟩
    have hreach : J id (x.reach id p).state := (hx.keeps id).reach id hid
    have hlook : J id (x.look (x.reach id p)).state := (hx.keeps id).look _ hreach
    obtain ⟨hgrown, -⟩ := hx.growLinks_simulates hview ih id x.profile.linkTypes (mark id (x.look (x.reach id p)))
      fun i hi => List.mem_singleton.1 hi ▸ hlook
    rw [mark_expanded, look_expanded, reach_expanded, ← survey_next] at hgrown
    rw [expand_succ, Survey.expand, hx.isUp_eq, hx.leaf_eq (hview id _ hid) hid]
    split
    · exact Prod.ext rfl (x.reach_expanded id p)
    · rw [if_neg Bool.false_ne_true]
      exact congrArg (fun grown => ({ (x.survey (view id)).leaf id via with children := grown.1 }, grown.2)) hgrown

/-- The flow from a known root is the drawing from it, and keeps what is settled. -/
theorem flow_eq {root : ElementId} (hknown : x.base.contains s root = true) (h : J root s) (depth : UInt64) :
    ∃ s', x.flow root depth s = (.ok ((Survey.glue fun id => x.survey (view id)).tree depth.toNat root), s') ∧
      ∀ id, J id s → J id s' := by
  obtain ⟨ht, hkeep⟩ := hx.expand_simulates hview depth.toNat root none ⟨[], s⟩
    fun i hi => List.mem_singleton.1 hi ▸ h
  refine ⟨_, ?_, hkeep⟩
  rw [flow, if_pos hknown, Survey.tree, ← ht]

omit hview in
/-- Flows from a root are the same in all states that settle the answers about it. -/
theorem flow_congr {root : ElementId} (h : J root s) (h' : J root s') (depth : UInt64) :
    (x.flow root depth s').1 = (x.flow root depth s).1 := by
  have hstate : ∀ id, ∃ u, ∀ s, J id s → J id u := fun id => by
    by_cases hid : ∃ u, J id u
    · obtain ⟨u, hu⟩ := hid
      exact ⟨u, fun _ _ => hu⟩
    · exact ⟨s, fun u hu => absurd ⟨u, hu⟩ hid⟩
  obtain ⟨view, hview⟩ := Classical.skolem.1 hstate
  have hcontains : x.base.contains s' root = x.base.contains s root := by
    rw [FactBase.contains, FactBase.contains, hx.consistent.typeOf? h h']
  by_cases hknown : x.base.contains s root = true
  · obtain ⟨_, hflow, -⟩ := hx.flow_eq hview hknown h depth
    obtain ⟨_, hflow', -⟩ := hx.flow_eq hview (hcontains.trans hknown) h' depth
    rw [hflow, hflow']
  · rw [flow, flow, hcontains, if_neg hknown, if_neg hknown]

end Determined

/-! ## Flows that nothing disturbs -/

/-- Nothing disturbs a flow: sources are steady and nobody cancels. -/
structure Calm (x : Explorer ω) : Prop where
  steady : x.base.Steady
  quiet : ∀ w, (x.signal w).1 = false

theorem Calm.determined (hx : x.Calm) (s : State ω) : x.Determined fun _ => x.base.Agrees s :=
  ⟨hx.steady.consistent s, hx.quiet⟩

/-- An expansion is the drawing from the survey of its state, and expands the same elements. -/
theorem Calm.expand_eq (hx : x.Calm) (n : Nat) (id : ElementId) (via : Option String) (s : State ω) :
    ((x.expand n id via ⟨[], s⟩).1, (x.expand n id via ⟨[], s⟩).2.expanded) = (x.survey s).expand n id via [] := by
  have hs : x.base.Agrees s s := .refl x.base s
  have hview : ∀ id u, x.base.Agrees s u → x.base.Agrees s ((fun _ : ElementId => s) id) := fun _ _ _ => hs
  exact ((hx.determined s).expand_simulates hview n id via ⟨[], s⟩ fun _ _ => hs).1

/-- The flow from a known root is the drawing from it, and leaves the state in agreement. -/
theorem Calm.flow_eq (hx : x.Calm) {s : State ω} {root : ElementId} (h : x.base.contains s root = true)
    (depth : UInt64) :
    ∃ s', x.flow root depth s = (.ok ((x.survey s).tree depth.toNat root), s') ∧ x.base.Agrees s s' := by
  have hs : x.base.Agrees s s := .refl x.base s
  have hview : ∀ id u, x.base.Agrees s u → x.base.Agrees s ((fun _ : ElementId => s) id) := fun _ _ _ => hs
  obtain ⟨s', hflow, hkeep⟩ := (hx.determined s).flow_eq hview h hs depth
  exact ⟨s', hflow, hkeep root hs⟩

end Explorer

end ArchFlow
