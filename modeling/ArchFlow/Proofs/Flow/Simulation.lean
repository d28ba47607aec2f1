import ArchFlow.Proofs.Flow.Survey
import Mathlib.Logic.Basic

/-!
# Explorers that cannot be told apart

Two explorers may ask different bases in different worlds. If single requests answer alike in related states and lead to
related states, so do whole flows. What counts as alike is what a flow makes of an answer: a failure is no value of an
attribute, and no targets.

* `Explorer.Alike`: single requests are answered alike.
* `Explorer.Alike.expand`: trees grow alike.
* `Explorer.Alike.flow`: flows are the same.
-/

namespace ArchFlow

namespace Explorer

variable {ω ω' : Type} {x : Explorer ω} {x' : Explorer ω'} {R : State ω → State ω' → Prop}

/-- Single requests in related states are answered alike, and lead to related states. -/
structure Alike (x : Explorer ω) (x' : Explorer ω') (R : State ω → State ω' → Prop) : Prop where
  profile : x'.profile = x.profile
  typeOf? : ∀ {s s'}, R s s' → ∀ id, x'.base.typeOf? s' id = x.base.typeOf? s id
  resolve : ∀ {s s'}, R s s' → ∀ name id,
    (x'.base.resolve? name id s').1.toOption.join = (x.base.resolve? name id s).1.toOption.join ∧
      R (x.base.resolve? name id s).2 (x'.base.resolve? name id s').2
  targets : ∀ {s s'}, R s s' → ∀ link id,
    x'.found link id s' = x.found link id s ∧ R (x.base.targets link id s).2 (x'.base.targets link id s').2
  signal : ∀ {s s'}, R s s' →
    (x'.signal s'.world).1 = (x.signal s.world).1 ∧
      R { s with world := (x.signal s.world).2 } { s' with world := (x'.signal s'.world).2 }

/-- The same elements are expanded, in related states. -/
structure Abreast (R : State ω → State ω' → Prop) (p : Progress ω) (p' : Progress ω') : Prop where
  expanded : p'.expanded = p.expanded
  state : R p.state p'.state

/-- What has grown is the same, and so far the flows have gone abreast. -/
def Match {α : Type} (R : State ω → State ω' → Prop) (r : α × Progress ω) (r' : α × Progress ω') : Prop :=
  r'.1 = r.1 ∧ Abreast R r.2 r'.2

theorem withAnswer_congr {a a' : Except Failure (Option String)} (h : a'.toOption.join = a.toOption.join)
    (known : SortedMap String String) (name : String) : withAnswer known name a' = withAnswer known name a := by
  rcases a with _ | _ | value <;> rcases a' with _ | _ | value' <;> simp_all [withAnswer, Except.toOption]

namespace Alike

variable (h : Alike x x' R) {p : Progress ω} {p' : Progress ω'}
include h

theorem look (hp : Abreast R p p') : x'.isUp p' = x.isUp p ∧ Abreast R (x.look p) (x'.look p') := by
  obtain ⟨hup, hstate⟩ := h.signal hp.state
  exact ⟨hup, hp.expanded, hstate⟩

theorem attributesOf (id : ElementId) (names : List String) :
    ∀ known {s s'}, R s s' → (x'.attributesOf id names known s').1 = (x.attributesOf id names known s).1 ∧
      R (x.attributesOf id names known s).2 (x'.attributesOf id names known s').2 := by
  induction names with
  | nil => intro known s s' hs; exact ⟨rfl, hs⟩
  | cons name names ih =>
    intro known s s' hs
    obtain ⟨hanswer, hstate⟩ := h.resolve hs name id
    rw [attributesOf_cons, attributesOf_cons, withAnswer_congr hanswer]
    exact ih _ hstate

/-- A node is reached alike. -/
theorem reach (id : ElementId) (via : Option String) (hp : Abreast R p p') :
    x'.leaf id via p' = x.leaf id via p ∧ Abreast R (x.reach id p) (x'.reach id p') := by
  obtain ⟨hup, hlook⟩ := h.look hp
  have hlabel : x'.labelOf p'.state id = x.labelOf p.state id := by
    rw [labelOf, labelOf, h.typeOf? hp.state, h.profile]
  rw [leaf, leaf, Explorer.reach, Explorer.reach, nodeAttributes_eq, nodeAttributes_eq, hup, hlabel, h.profile]
  split
  · exact ⟨rfl, hlook⟩
  · obtain ⟨hattributes, hstate⟩ := h.attributesOf id x.profile.attributeNames .empty hlook.state
    exact ⟨congrArg (fun a => (⟨id, _, a, via, []⟩ : FlowTree)) hattributes, hlook.expanded, hstate⟩

omit h in
theorem growTargets {grow : Grow ω} {grow' : Grow ω'}
    (hgrow : ∀ id via {p p'}, Abreast R p p' → Match R (grow id via p) (grow' id via p')) (via : Option String)
    (es : List Element) :
    ∀ {p p'}, Abreast R p p' → Match R (growTargets grow via es p) (growTargets grow' via es p') := by
  induction es with
  | nil => intro p p' hp; exact ⟨rfl, hp⟩
  | cons e es ih =>
    intro p p' hp
    obtain ⟨htree, hnext⟩ := hgrow e.id via hp
    obtain ⟨htrees, hend⟩ := ih hnext
    exact ⟨congrArg₂ (· :: ·) htree htrees, hend⟩

theorem growLinks {grow : Grow ω} {grow' : Grow ω'}
    (hgrow : ∀ id via {p p'}, Abreast R p p' → Match R (grow id via p) (grow' id via p')) (id : ElementId)
    (links : List LinkType) :
    ∀ {p p'}, Abreast R p p' → Match R (x.growLinks grow id links p) (x'.growLinks grow' id links p') := by
  induction links with
  | nil => intro p p' hp; exact ⟨rfl, hp⟩
  | cons link links ih =>
    intro p p' hp
    obtain ⟨hup, hlook⟩ := h.look hp
    obtain ⟨hfound, hstate⟩ := h.targets hlook.state link id
    rw [growLinks_cons, growLinks_cons, hup]
    split
    · exact ⟨rfl, hlook⟩
    · have hexplore : Abreast R (x.explore link id (x.look p)) (x'.explore link id (x'.look p')) :=
        ⟨hlook.expanded, hstate⟩
      dsimp only
      rw [hfound]
      obtain ⟨htrees, hnext⟩ :=
        growTargets hgrow (link.requiredValue? Attribute.kind) (x.found link id (x.look p).state) hexplore
      obtain ⟨hrest, hend⟩ := ih hnext
      exact ⟨congrArg₂ (· ++ ·) htrees hrest, hend⟩

/-- Trees grow alike. -/
theorem expand (n : Nat) :
    ∀ id via {p p'}, Abreast R p p' → Match R (x.expand n id via p) (x'.expand n id via p') := by
  induction n with
  | zero => intro id via p p' hp; exact h.reach id via hp
  | succ n ih =>
    intro id via p p' hp
    obtain ⟨hleaf, hreach⟩ := h.reach id via hp
    obtain ⟨hup, hlook⟩ := h.look hreach
    rw [expand_succ, expand_succ, hp.expanded, hleaf, hup, h.profile]
    split
    · exact ⟨rfl, hreach⟩
    · split
      · exact ⟨rfl, hlook⟩
      · have hmark : Abreast R (mark id (x.look (x.reach id p))) (mark id (x'.look (x'.reach id p'))) :=
          ⟨congrArg (id :: ·) hlook.expanded, hlook.state⟩
        obtain ⟨hchildren, hend⟩ := h.growLinks ih id x.profile.linkTypes hmark
        exact ⟨congrArg (fun ts => { x.leaf id via p with children := ts }) hchildren, hend⟩

/-- Flows from related states are the same, and lead to related states. -/
theorem flow {s : State ω} {s' : State ω'} (hs : R s s') (root : ElementId) (depth : UInt64) :
    (x'.flow root depth s').1 = (x.flow root depth s).1 ∧ R (x.flow root depth s).2 (x'.flow root depth s').2 := by
  have hcontains : x'.base.contains s' root = x.base.contains s root := by
    rw [FactBase.contains, FactBase.contains, h.typeOf? hs]
  rw [Explorer.flow, Explorer.flow, hcontains]
  split
  · have hstart : Abreast R ⟨[], s⟩ ⟨[], s'⟩ := ⟨rfl, hs⟩
    obtain ⟨htree, hend⟩ := h.expand depth.toNat root none hstart
    exact ⟨congrArg Except.ok htree, hend.state⟩
  · exact ⟨rfl, hs⟩

end Alike

end Explorer

end ArchFlow
