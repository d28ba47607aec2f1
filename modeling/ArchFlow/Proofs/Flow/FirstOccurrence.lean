import ArchFlow.Proofs.Flow.Expansion
import ArchFlow.Proofs.Flow.Occurrence

/-!
# Where elements are expanded

Loaders may answer anything at any time, and a flow may be cancelled at any moment. Whatever happens, an element has
children at most at one place of a flow: where it occurs first above the depth bound.

* `Explorer.Unfolds`: what growing trees does, relative to the elements that occurred above the bound before; it
  composes along the traversal (`Unfolds.trans`) and holds of every expansion (`expand_unfolds`).
* `Explorer.height_expand_le`: the tree keeps to the bound.
* `Explorer.expandCounted_eq`: nothing depends on what would happen if a depth counter of 64 bits overflowed.
-/

namespace ArchFlow

namespace Explorer

variable {ω : Type} {x : Explorer ω} {up : ω → Prop} {m : Nat}

/-- The signal is a flag that is up in the worlds of `up`: raised once, whoever does it, it is never lowered. -/
structure Latches (x : Explorer ω) (up : ω → Prop) : Prop where
  shown : ∀ w, up w → (x.signal w).1 = true
  seen : ∀ w, (x.signal w).1 = true → up (x.signal w).2
  attributes : ∀ r ∈ x.base.attributes, ∀ id w, up w → up (r.load id w).2
  links : ∀ r ∈ x.base.links, ∀ id w, up w → up (r.load id w).2

theorem Latches.keeps (h : x.Latches up) : x.Keeps fun s => up s.world where
  toKeeps := FactBase.keeps_world h.attributes h.links
  look s hs := h.seen s.world (h.shown s.world hs)

/-! ## What growing trees does -/

/-- As long as the flag is down, the elements that occurred above the bound are marked as expanded. -/
def Kept (up : ω → Prop) (seen : List ElementId) (p : Progress ω) : Prop :=
  ¬ up p.state.world → ∀ id ∈ seen, id ∈ p.expanded

/-- Trees with the given occurrences grow while the progress goes from `p` to `q`: nodes have children only where their
elements occur first above the bound, and the elements that occur there are marked unless the flag is up. -/
structure Unfolds (up : ω → Prop) (m : Nat) (os : List Occurrence) (p q : Progress ω) : Prop where
  first : ∀ seen, Kept up seen p →
    Along (fun before o => o.node.children ≠ [] → o.depth < m ∧ o.id ∉ seen ++ idsAbove m before) os
  kept : ∀ seen, Kept up seen p → Kept up (seen ++ idsAbove m os) q

namespace Unfolds

theorem skip {p q : Progress ω} (hup : up p.state.world → up q.state.world)
    (hexp : ∀ id ∈ p.expanded, id ∈ q.expanded) : Unfolds up m [] p q where
  first _ _ := along_nil
  kept seen hs hq id hid := by
    rw [idsAbove_nil, List.append_nil] at hid
    exact hexp id (hs (fun h => hq (hup h)) id hid)

theorem trans {p q r : Progress ω} {os us : List Occurrence} (h₁ : Unfolds up m os p q)
    (h₂ : Unfolds up m us q r) : Unfolds up m (os ++ us) p r where
  first seen hs := by
    refine along_append.2 ⟨h₁.first seen hs, ?_⟩
    refine (h₂.first _ (h₁.kept seen hs)).imp fun before o _ ho hne => ?_
    rw [idsAbove_append, ← List.append_assoc]
    exact ho hne
  kept seen hs := by
    rw [idsAbove_append, ← List.append_assoc]
    exact h₂.kept _ (h₁.kept seen hs)

/-- A leaf: its element is marked, if it is above the bound and the flag is down. -/
theorem leaf {p q : Progress ω} {o : Occurrence} (ho : o.node.children = [])
    (hup : up p.state.world → up q.state.world) (hexp : ∀ id ∈ p.expanded, id ∈ q.expanded)
    (hid : o.depth < m → ¬ up q.state.world → o.id ∈ q.expanded) : Unfolds up m [o] p q where
  first seen _ := along_cons.2 ⟨fun h => absurd ho h, along_nil⟩
  kept seen hs hq id h := by
    rcases List.mem_append.1 h with h | h
    · exact hexp id (hs (fun h' => hq (hup h')) id h)
    · obtain ⟨u, hu, hlt, rfl⟩ := mem_idsAbove.1 h
      cases List.mem_singleton.1 hu
      exact hid hlt hq

/-- A node above the bound whose element is not marked, and is marked before its children grow. -/
theorem node {p q r : Progress ω} {o : Occurrence} {os : List Occurrence} (hlt : o.depth < m)
    (hnew : o.id ∉ p.expanded) (hdown : ¬ up p.state.world) (hq : q.expanded = o.id :: p.expanded)
    (h : Unfolds up m os q r) : Unfolds up m (o :: os) p r := by
  have hone : idsAbove m [o] = [o.id] := by simp [idsAbove, hlt]
  -- the children grow after the elements before the node and after the node itself
  have hkept : ∀ seen, Kept up seen p → Kept up (seen ++ [o.id]) q := by
    intro seen hs _ id hid
    rw [hq]
    rcases List.mem_append.1 hid with hid | hid
    · exact List.mem_cons_of_mem _ (hs hdown id hid)
    · exact List.mem_cons.2 (.inl (List.mem_singleton.1 hid))
  constructor
  · intro seen hs
    refine along_cons.2 ⟨fun _ => ⟨hlt, ?_⟩, ?_⟩
    · rw [idsAbove_nil, List.append_nil]
      exact fun hmem => hnew (hs hdown o.id hmem)
    · refine (h.first _ (hkept seen hs)).imp fun before u _ hu hne => ?_
      rw [← List.singleton_append, idsAbove_append, hone, ← List.append_assoc]
      exact hu hne
  · intro seen hs
    rw [← List.singleton_append, idsAbove_append, hone, ← List.append_assoc]
    exact h.kept _ (hkept seen hs)

end Unfolds

/-! ## The steps of a traversal -/

theorem growTargets_unfolds {above : List ElementId} {grow : Grow ω}
    (hgrow : ∀ id via p, Unfolds up m ((grow id via p).1.occurrencesBelow above) p (grow id via p).2)
    (via : Option String) (es : List Element) :
    ∀ p, Unfolds up m (FlowTree.forestBelow above (growTargets grow via es p).1) p (growTargets grow via es p).2 := by
  induction es with
  | nil => intro p; exact .skip id fun _ h => h
  | cons e es ih => intro p; exact (hgrow e.id via p).trans (ih _)

section Latches

variable (hx : x.Latches up)
include hx

theorem growLinks_unfolds {above : List ElementId} {grow : Grow ω}
    (hgrow : ∀ id via p, Unfolds up m ((grow id via p).1.occurrencesBelow above) p (grow id via p).2)
    (id : ElementId) (links : List LinkType) :
    ∀ p, Unfolds up m (FlowTree.forestBelow above (x.growLinks grow id links p).1) p
      (x.growLinks grow id links p).2 := by
  induction links with
  | nil => intro p; exact .skip (fun h => h) fun _ h => h
  | cons link links ih =>
    intro p
    have hlook : Unfolds up m [] p (x.look p) := .skip (hx.keeps.look p.state) fun _ h => h
    rw [growLinks_cons]
    split
    · exact hlook
    · have hexplore : Unfolds up m [] (x.look p) (x.explore link id (x.look p)) :=
        .skip (hx.keeps.targets link id _) fun _ h => h
      rw [FlowTree.forestBelow_append]
      exact (hlook.trans (hexplore.trans (growTargets_unfolds hgrow _ _ _))).trans (ih _)

/-- An expansion unfolds, at the depth that leaves it its levels. -/
theorem expand_unfolds (n : Nat) :
    ∀ (above : List ElementId), above.length + n = m → ∀ id via p,
      Unfolds up m ((x.expand n id via p).1.occurrencesBelow above) p (x.expand n id via p).2 := by
  induction n using Nat.strongRecOn with
  | _ n ih =>
    intro above habove id via p
    have hreach : up p.state.world → up (x.reach id p).state.world := hx.keeps.reach id
    have hlook : up (x.reach id p).state.world → up (x.look (x.reach id p)).state.world :=
      hx.keeps.look (x.reach id p).state
    have hexp : (x.reach id p).expanded = p.expanded := x.reach_expanded id p
    have ho := x.expand_outcome n id via p
    generalize x.expand n id via p = r at ho ⊢
    rw [FlowTree.occurrencesBelow_eq]
    cases ho with
    | cut hn =>
      refine .leaf rfl hreach (fun i hi => hexp ▸ hi) fun hlt => ?_
      simp only [Occurrence.depth] at hlt
      omega
    | revisit hid => exact .leaf rfl hreach (fun i hi => hexp ▸ hi) fun _ _ => hexp ▸ hid
    | stopped hup =>
      refine .leaf rfl (fun h => hlook (hreach h)) (fun i hi => ?_) fun _ hdown => ?_
      · rw [look_expanded, hexp]; exact hi
      · exact absurd (hx.seen _ hup) hdown
    | node k hn hid hup ts q hts =>
      have hdown : ¬ up p.state.world := fun h => by
        have := hx.shown _ (hreach h)
        rw [isUp, cancelled] at hup
        simp [this] at hup
      have hg := growLinks_unfolds hx (ih k (by omega) (id :: above) (by rw [List.length_cons]; omega)) id
        x.profile.linkTypes (mark id (x.look (x.reach id p)))
      rw [hts] at hg
      refine .node ?_ hid hdown (by rw [mark_expanded, look_expanded, hexp]; rfl) hg
      simp only [Occurrence.depth]
      omega

end Latches

theorem height_expand_le (n : Nat) : ∀ id via p, (x.expand n id via p).1.height ≤ n := by
  induction n using Nat.strongRecOn with
  | _ n ih =>
    intro id via p
    have ho := x.expand_outcome n id via p
    generalize x.expand n id via p = r at ho ⊢
    rw [FlowTree.height_eq]
    cases ho with
    | cut => exact Nat.zero_le _
    | revisit => exact Nat.zero_le _
    | stopped => exact Nat.zero_le _
    | node k hn _ _ ts q hts =>
      refine FlowTree.levels_le_iff.2 fun t ht => ?_
      have ht : t ∈ (x.growLinks (x.expand k) id x.profile.linkTypes (mark id (x.look (x.reach id p)))).1 := by
        rw [hts]; exact ht
      obtain ⟨link, _, _, e, _, r, rfl⟩ := x.mem_growLinks ht
      have := ih k (by omega) e.id (link.requiredValue? Attribute.kind) r
      omega

/-! ## Counting depths -/

theorem toNat_add_one {d : UInt64} (h : d.toNat + 1 < UInt64.size) : (d + 1).toNat = d.toNat + 1 := by
  rw [UInt64.toNat_add]
  exact Nat.mod_eq_of_lt h

variable (x)

/-- The tree of an element at a depth that is counted from the root on, with 64 bits. What the children of a node
grow into if the counter overflows is up to `overflow`. -/
def expandCounted (overflow : Grow ω) (bound depth : UInt64) (id : ElementId) (via : Option String)
    (p : Progress ω) : FlowTree × Progress ω :=
  if id ∈ p.expanded then (x.leaf id via p, x.reach id p)
  else if bound ≤ depth then (x.leaf id via p, x.reach id p)
  else if x.isUp (x.reach id p) then (x.leaf id via p, x.look (x.reach id p))
  else
    let grow : Grow ω := if depth.toNat + 1 < UInt64.size then expandCounted overflow bound (depth + 1) else overflow
    let grown := x.growLinks grow id x.profile.linkTypes (mark id (x.look (x.reach id p)))
    ({ x.leaf id via p with children := grown.1 }, grown.2)
termination_by bound.toNat - depth.toNat
decreasing_by
  rename_i hdepth _ hsize
  have hlt : ¬ bound.toNat ≤ depth.toNat := hdepth
  rw [toNat_add_one hsize]
  omega

/-- The tree from a root, with depths counted in 64 bits. -/
def flowCounted (overflow : Grow ω) (root : ElementId) (depth : UInt64) (s : State ω) :
    Except Failure FlowTree × State ω :=
  if x.base.contains s root then
    match x.expandCounted overflow depth 0 root none ⟨[], s⟩ with
    | (t, p) => (.ok t, p.state)
  else (.error (.unknownElement root), s)

/-- Counting depths up to the bound is counting levels down to zero: the counter never overflows. -/
theorem expandCounted_eq (overflow : Grow ω) (bound depth : UInt64) :
    x.expandCounted overflow bound depth = x.expand (bound.toNat - depth.toNat) := by
  induction h : bound.toNat - depth.toNat generalizing depth with
  | zero =>
    have hle : bound ≤ depth := UInt64.le_iff_toNat_le.2 (by omega)
    funext id via p
    rw [expandCounted, if_pos hle, ite_self]
    rfl
  | succ k ih =>
    have hnle : ¬ bound ≤ depth := fun hle => by
      have := UInt64.le_iff_toNat_le.1 hle
      omega
    have hroom : depth.toNat + 1 < UInt64.size := by
      have := bound.toNat_lt_size
      omega
    have hnext : x.expandCounted overflow bound (depth + 1) = x.expand k :=
      ih (depth + 1) (by rw [toNat_add_one hroom]; omega)
    funext id via p
    rw [expandCounted, if_neg hnle, if_pos hroom, hnext, expand_succ]

theorem flowCounted_eq (overflow : Grow ω) (root : ElementId) (depth : UInt64) (s : State ω) :
    x.flowCounted overflow root depth s = x.flow root depth s := by
  rw [flowCounted, flow, expandCounted_eq]
  rfl

variable {x}

theorem flow_of_contains {root : ElementId} {s : State ω} (h : x.base.contains s root = true) (depth : UInt64) :
    x.flow root depth s =
      (.ok (x.expand depth.toNat root none ⟨[], s⟩).1, (x.expand depth.toNat root none ⟨[], s⟩).2.state) := by
  rw [flow, if_pos h]

theorem flow_of_unknown {root : ElementId} {s : State ω} (h : x.base.contains s root = false) (depth : UInt64) :
    x.flow root depth s = (.error (.unknownElement root), s) := by
  rw [flow, h, if_neg Bool.false_ne_true]

theorem expand_of_flow {root : ElementId} {depth : UInt64} {s s' : State ω} {t : FlowTree}
    (h : x.flow root depth s = (.ok t, s')) : (x.expand depth.toNat root none ⟨[], s⟩).1 = t := by
  rw [flow] at h
  split at h
  · cases h; rfl
  · cases h

/-! ## Flows -/

/-- **Elements are expanded at most once, where they first occur above the bound.** In the tree of a flow, whatever the
loaders answer and whenever the flag is raised, a node with children is above the bound and no element occurs above the
bound before it that is the same, so that of two occurrences of an element one is a leaf; no node is below the bound;
and the flow is the same whatever would happen if a 64-bit counter of depths overflowed. -/
theorem children_at_first_occurrence (hx : x.Latches up) {root : ElementId} {depth : UInt64} {s s' : State ω}
    {t : FlowTree} (h : x.flow root depth s = (.ok t, s')) :
    Along (fun before o => o.node.children ≠ [] →
        o.depth < depth.toNat ∧ ∀ o' ∈ before, o'.id = o.id → depth.toNat ≤ o'.depth) t.occurrences ∧
      t.occurrences.Pairwise (fun o o' => o.id = o'.id → o.node.children = [] ∨ o'.node.children = []) ∧
      t.height ≤ depth.toNat ∧
      ∀ overflow : Grow ω, x.flowCounted overflow root depth s = x.flow root depth s := by
  cases expand_of_flow h
  have hu := expand_unfolds hx (m := depth.toNat) depth.toNat [] (Nat.zero_add _) root none ⟨[], s⟩
  have hfirst : Along (fun before o => o.node.children ≠ [] →
      o.depth < depth.toNat ∧ ∀ o' ∈ before, o'.id = o.id → depth.toNat ≤ o'.depth)
      (x.expand depth.toNat root none ⟨[], s⟩).1.occurrences := by
    refine (hu.first [] fun _ id hid => by cases hid).imp fun before o _ ho hne => ?_
    obtain ⟨hlt, hnew⟩ := ho hne
    refine ⟨hlt, fun o' ho' hid => Nat.le_of_not_lt fun hlt' => ?_⟩
    exact hnew (List.mem_append_right _ (mem_idsAbove.2 ⟨o', ho', hlt', hid⟩))
  exact ⟨hfirst, pairwise_leaf hfirst, height_expand_le _ _ _ _, fun overflow => x.flowCounted_eq overflow root depth s⟩

/-! ### A flow that is cancelled by a loader -/

/-- Which of three elements an element calls. -/
def relayTargets (id : ElementId) : List ElementId :=
  if id = "a" then ["b", "c"] else if id = "b" then ["c", "a"] else ["b"]

/-- Three elements that call each other. The world counts the requests for targets, and the second one raises the
flag. -/
def relay : Explorer Nat where
  base := {
    slots := []
    types := [("a", .ofKind "app.service")]
    attributes := []
    links := [⟨.ofKind "calls", .ofKind "app.service", .ofKind "app.service", fun id w =>
      (.ok ((relayTargets id).map fun id => ⟨id, .ofKind "app.service"⟩), w + 1)⟩] }
  profile := { Profile.architecture with linkTypes := [.ofKind "calls"], attributeNames := [] }
  signal w := (decide (2 ≤ w), w)

theorem relay_latches : relay.Latches (2 ≤ ·) where
  shown _ hw := decide_eq_true hw
  seen _ hw := of_decide_eq_true hw
  attributes _ hr := by cases hr
  links r hr _ _ hw := by
    cases List.mem_singleton.1 hr
    exact Nat.le_succ_of_le hw

/-- The flag goes up while the targets of `b` are loaded: they are leaves, and so is what comes after them. -/
theorem children_at_first_occurrence_relay :
    ∃ t s', relay.flow "a" 3 (.fresh 0) = (.ok t, s') ∧ relay.Latches (2 ≤ ·) ∧
      t.occurrences.map (fun o => (o.depth, o.id, o.node.children.map (·.id))) =
        [(0, "a", ["b", "c"]), (1, "b", ["c", "a"]), (2, "c", []), (2, "a", []), (1, "c", [])] ∧
      t.occurrences.Pairwise (fun o o' => o.id = o'.id → o.node.children = [] ∨ o'.node.children = []) ∧
      t.height ≤ 3 := by
  have hknown : relay.base.contains (.fresh 0) "a" = true := by decide +kernel
  have hflow := relay.flow_of_contains hknown 3
  have h := children_at_first_occurrence relay_latches hflow
  exact ⟨_, _, hflow, relay_latches, by decide +kernel, h.2.1, h.2.2.1⟩

end Explorer

end ArchFlow
