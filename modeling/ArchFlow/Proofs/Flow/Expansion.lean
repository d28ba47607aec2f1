import ArchFlow.Flow.Traversal
import ArchFlow.Proofs.FactBase.Invariant

/-!
# Steps of an expansion

What one step of a traversal can do, said once. To reach a node is to look at its type and its attributes; then the
node stays a leaf, because it is too deep, or expanded already, or the flow is cancelled, or its element is marked and
its links are followed.

* `Explorer.expand_outcome`: the four ways in which an expansion goes.
* `Explorer.growLinks_cons`: the ways in which following one more type of links goes.
* `Explorer.Passes.expand`: what the steps of an expansion keep it keeps as a whole.
* `Explorer.Keeps.expand`: what single queries and looks at the signal keep a whole expansion keeps.
-/

namespace ArchFlow

namespace Explorer

variable {ω : Type} (x : Explorer ω)

/-! ## Reaching a node -/

/-- The node of an element as it is reached. -/
def leaf (id : ElementId) (via : Option String) (p : Progress ω) : FlowTree :=
  ⟨id, x.labelOf p.state id, (x.nodeAttributes id p).1, via, []⟩

/-- The progress after a node is reached. -/
def reach (id : ElementId) (p : Progress ω) : Progress ω := (x.nodeAttributes id p).2

/-- The progress after the signal is looked at. -/
def look (p : Progress ω) : Progress ω := (x.cancelled p).2

/-- Whether the signal is up. -/
def isUp (p : Progress ω) : Bool := (x.cancelled p).1

/-- The progress after an element is marked as expanded. -/
def mark (id : ElementId) (p : Progress ω) : Progress ω := { p with expanded := id :: p.expanded }

/-- The progress after a type of links is explored. -/
def explore (link : LinkType) (id : ElementId) (p : Progress ω) : Progress ω :=
  { p with state := (x.base.targets link id p.state).2 }

@[simp] theorem look_expanded (p : Progress ω) : (x.look p).expanded = p.expanded := rfl

@[simp] theorem mark_expanded (id : ElementId) (p : Progress ω) : (mark id p).expanded = id :: p.expanded := rfl

@[simp] theorem explore_expanded (link : LinkType) (id : ElementId) (p : Progress ω) :
    (x.explore link id p).expanded = p.expanded := rfl

/-- Reaching a node looks at the signal, and resolves attributes if it is down. -/
theorem nodeAttributes_eq (id : ElementId) (p : Progress ω) :
    x.nodeAttributes id p =
      if x.isUp p then (.empty, x.look p)
      else
        ((x.attributesOf id x.profile.attributeNames .empty (x.look p).state).1,
          { x.look p with state := (x.attributesOf id x.profile.attributeNames .empty (x.look p).state).2 }) := by
  unfold nodeAttributes isUp look
  rcases x.cancelled p with ⟨up, q⟩
  cases up <;> rfl

@[simp] theorem reach_expanded (id : ElementId) (p : Progress ω) : (x.reach id p).expanded = p.expanded := by
  rw [reach, nodeAttributes_eq]
  split <;> rfl

/-! ## Expanding a node -/

/-- The ways in which the expansion of an element goes, with `n` levels left below it. -/
inductive Outcome (n : Nat) (id : ElementId) (via : Option String) (p : Progress ω) : FlowTree × Progress ω → Prop
  | cut (h : n = 0) : Outcome n id via p (x.leaf id via p, x.reach id p)
  | revisit (h : id ∈ p.expanded) : Outcome n id via p (x.leaf id via p, x.reach id p)
  | stopped (h : x.isUp (x.reach id p) = true) : Outcome n id via p (x.leaf id via p, x.look (x.reach id p))
  | node (k : Nat) (hn : n = k + 1) (hid : id ∉ p.expanded) (hup : x.isUp (x.reach id p) = false)
      (ts : List FlowTree) (q : Progress ω)
      (hts : x.growLinks (x.expand k) id x.profile.linkTypes (mark id (x.look (x.reach id p))) = (ts, q)) :
      Outcome n id via p ({ x.leaf id via p with children := ts }, q)

/-- The expansion of an element with a level left below it, by what is looked at in turn. -/
theorem expand_succ (k : Nat) (id : ElementId) (via : Option String) (p : Progress ω) :
    x.expand (k + 1) id via p =
      if id ∈ p.expanded then (x.leaf id via p, x.reach id p)
      else if x.isUp (x.reach id p) then (x.leaf id via p, x.look (x.reach id p))
      else
        ({ x.leaf id via p with
            children := (x.growLinks (x.expand k) id x.profile.linkTypes (mark id (x.look (x.reach id p)))).1 },
          (x.growLinks (x.expand k) id x.profile.linkTypes (mark id (x.look (x.reach id p)))).2) := by
  rw [← x.reach_expanded id p]
  unfold expand isUp look leaf mark reach
  rcases x.nodeAttributes id p with ⟨attributes, q⟩
  dsimp only
  split
  · rfl
  · rcases x.cancelled q with ⟨up, r⟩
    cases up <;> rfl

/-- An expansion goes in one of four ways. -/
theorem expand_outcome (n : Nat) (id : ElementId) (via : Option String) (p : Progress ω) :
    x.Outcome n id via p (x.expand n id via p) := by
  cases n with
  | zero => exact .cut rfl
  | succ k =>
    rw [expand_succ]
    by_cases hid : id ∈ p.expanded
    · rw [if_pos hid]
      exact .revisit hid
    · rw [if_neg hid]
      cases hup : x.isUp (x.reach id p) with
      | true =>
        rw [if_pos rfl]
        exact .stopped hup
      | false =>
        rw [if_neg Bool.false_ne_true]
        exact .node k rfl hid hup _ _ rfl

/-- A tree grows for the element that is expanded, with the kind that led there. -/
theorem root_of_expand (n : Nat) (id : ElementId) (via : Option String) (p : Progress ω) :
    ((x.expand n id via p).1.id, (x.expand n id via p).1.via) = (id, via) := by
  have ho := x.expand_outcome n id via p
  generalize x.expand n id via p = r at ho ⊢
  cases ho <;> rfl

/-! ## Following links -/

/-- The targets that exploring a type of links finds; none if that fails. -/
def found (link : LinkType) (id : ElementId) (s : State ω) : List Element :=
  match (x.base.targets link id s).1 with
  | .ok es => es
  | .error _ => []

theorem found_of_ok {x : Explorer ω} {link : LinkType} {id : ElementId} {s : State ω} {es : List Element}
    (h : (x.base.targets link id s).1 = .ok es) : x.found link id s = es := by
  rw [found, h]

theorem found_eq (link : LinkType) (id : ElementId) (s : State ω) :
    x.found link id s = (x.base.targets link id s).1.toOption.getD [] := by
  rw [found]
  split <;> (next h => rw [h]; rfl)

theorem exists_of_mem_found {x : Explorer ω} {link : LinkType} {id : ElementId} {s : State ω} {e : Element}
    (h : e ∈ x.found link id s) : ∃ es, (x.base.targets link id s).1 = .ok es ∧ e ∈ es := by
  rw [found] at h
  split at h
  · next es hes => exact ⟨es, hes, h⟩
  · cases h

theorem growTargets_cons (grow : Grow ω) (via : Option String) (e : Element) (es : List Element) (p : Progress ω) :
    growTargets grow via (e :: es) p =
      ((grow e.id via p).1 :: (growTargets grow via es (grow e.id via p).2).1,
        (growTargets grow via es (grow e.id via p).2).2) :=
  rfl

/-- Following one more type of links looks at the signal, and explores if it is down. -/
theorem growLinks_cons (grow : Grow ω) (id : ElementId) (link : LinkType) (links : List LinkType) (p : Progress ω) :
    x.growLinks grow id (link :: links) p =
      if x.isUp p then ([], x.look p)
      else
        let q := x.look p
        let here := growTargets grow (link.requiredValue? Attribute.kind) (x.found link id q.state) (x.explore link id q)
        let rest := x.growLinks grow id links here.2
        (here.1 ++ rest.1, rest.2) := by
  unfold isUp look
  rw [growLinks]
  rcases x.cancelled p with ⟨up, q⟩
  cases up with
  | true => rfl
  | false =>
    unfold found explore
    dsimp only
    rw [if_neg Bool.false_ne_true]
    rcases x.base.targets link id q.state with ⟨_ | es, s⟩ <;> rfl

theorem mem_growTargets {grow : Grow ω} {via : Option String} {es : List Element} {t : FlowTree} :
    ∀ {p : Progress ω}, t ∈ (growTargets grow via es p).1 → ∃ e ∈ es, ∃ q, t = (grow e.id via q).1 := by
  induction es with
  | nil => intro p h; cases h
  | cons e es ih =>
    intro p h
    rcases List.mem_cons.1 h with rfl | h
    · exact ⟨e, List.mem_cons_self, p, rfl⟩
    · obtain ⟨f, hf, q, hq⟩ := ih h
      exact ⟨f, List.mem_cons_of_mem _ hf, q, hq⟩

theorem mem_growLinks {grow : Grow ω} {id : ElementId} {links : List LinkType} {t : FlowTree} :
    ∀ {p : Progress ω}, t ∈ (x.growLinks grow id links p).1 →
      ∃ link ∈ links, ∃ s, ∃ e ∈ x.found link id s, ∃ r,
        t = (grow e.id (link.requiredValue? Attribute.kind) r).1 := by
  induction links with
  | nil => intro p h; cases h
  | cons link links ih =>
    intro p h
    rw [growLinks_cons] at h
    split at h
    · cases h
    · rcases List.mem_append.1 h with h | h
      · obtain ⟨e, he, r, ht⟩ := mem_growTargets h
        exact ⟨link, List.mem_cons_self, _, e, he, r, ht⟩
      · obtain ⟨l, hl, rest⟩ := ih h
        exact ⟨l, List.mem_cons_of_mem _ hl, rest⟩

/-! ## Invariants -/

/-- Looks at the signal, nodes that are reached and explorations keep a property of states. -/
structure Passes (I : State ω → Prop) : Prop where
  look : ∀ s, I s → I { s with world := (x.signal s.world).2 }
  reach : ∀ id (p : Progress ω), I p.state → I (x.reach id p).state
  targets : ∀ link id s, I s → I (x.base.targets link id s).2

theorem growTargets_keeps {I : State ω → Prop} {grow : Grow ω}
    (hgrow : ∀ id via p, I p.state → I (grow id via p).2.state) (via : Option String) (es : List Element) :
    ∀ p : Progress ω, I p.state → I (growTargets grow via es p).2.state := by
  induction es with
  | nil => intro p hp; exact hp
  | cons e es ih => intro p hp; exact ih _ (hgrow e.id via p hp)

namespace Passes

variable {x} {I : State ω → Prop} (h : x.Passes I)
include h

theorem growLinks {grow : Grow ω} (hgrow : ∀ id via p, I p.state → I (grow id via p).2.state)
    (id : ElementId) (links : List LinkType) :
    ∀ p : Progress ω, I p.state → I (x.growLinks grow id links p).2.state := by
  induction links with
  | nil => intro p hp; exact hp
  | cons link links ih =>
    intro p hp
    have hl : I (x.look p).state := h.look p.state hp
    rw [growLinks_cons]
    split
    · exact hl
    · exact ih _ (growTargets_keeps hgrow _ _ _ (h.targets link id _ hl))

/-- What the steps of an expansion keep it keeps as a whole. -/
theorem expand (n : Nat) : ∀ id via (p : Progress ω), I p.state → I (x.expand n id via p).2.state := by
  induction n with
  | zero => intro id via p hp; exact h.reach id p hp
  | succ k ih =>
    intro id via p hp
    have hr := h.reach id p hp
    have ho := x.expand_outcome (k + 1) id via p
    generalize x.expand (k + 1) id via p = r at ho ⊢
    cases ho with
    | cut => exact hr
    | revisit => exact hr
    | stopped => exact h.look _ hr
    | node j hn _ _ ts q hts =>
      cases hn
      have hg := h.growLinks ih id x.profile.linkTypes (mark id (x.look (x.reach id p))) (h.look _ hr)
      rwa [hts] at hg

theorem flow (root : ElementId) (depth : UInt64) (s : State ω) (hs : I s) : I (x.flow root depth s).2 := by
  rw [Explorer.flow]
  split
  · exact h.expand depth.toNat root none ⟨[], s⟩ hs
  · exact hs

end Passes

theorem attributesOf_keeps {x : Explorer ω} {I : State ω → Prop} {id : ElementId}
    (h : ∀ name s, I s → I (x.base.resolve? name id s).2) (names : List String) :
    ∀ known s, I s → I (x.attributesOf id names known s).2 := by
  induction names with
  | nil => intro known s hs; exact hs
  | cons name names ih =>
    intro known s hs
    have hr := h name s hs
    unfold Explorer.attributesOf
    split <;> (next he => rw [he] at hr; exact ih _ _ hr)

/-- Queries and looks at the signal keep a property of states. -/
structure Keeps (I : State ω → Prop) : Prop extends x.base.Keeps I where
  look : ∀ s, I s → I { s with world := (x.signal s.world).2 }

namespace Keeps

variable {x} {I : State ω → Prop} (h : x.Keeps I)
include h

theorem attributesOf (id : ElementId) (names : List String) :
    ∀ known s, I s → I (x.attributesOf id names known s).2 :=
  attributesOf_keeps (fun name => h.resolve name id) names

theorem reach (id : ElementId) {p : Progress ω} (hp : I p.state) : I (x.reach id p).state := by
  have hl : I (x.look p).state := h.look p.state hp
  rw [Explorer.reach, nodeAttributes_eq]
  split
  · exact hl
  · exact h.attributesOf id _ _ _ hl

/-- Reaching a node makes queries and looks only. -/
theorem passes : x.Passes I := ⟨h.look, fun id _ hp => h.reach id hp, h.targets⟩

/-- An expansion keeps an invariant. -/
theorem expand (n : Nat) : ∀ id via (p : Progress ω), I p.state → I (x.expand n id via p).2.state := h.passes.expand n

end Keeps

end Explorer

end ArchFlow
