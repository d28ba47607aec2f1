import ArchFlow.Proofs.Flow.FirstOccurrence
import ArchFlow.Proofs.TypeSet.Required

/-!
# Kinds of links in a flow

A node of a flow tells through which kind of link it was reached. Links are followed by their types, and a type need not
have a single kind: the kind that is told is the value that the type requires of the attribute for kinds, and none where
it does not require one. The children of a node come type by type, in the order of the profile, so that for each of them
there is one type whose links were followed.

* `Explorer.FollowsType`, `Explorer.FollowsTypes`: trees for the targets of links of one type, and of several in turn.
* `Explorer.growLinks_follows_types`: the trees that grow, grouped by types of links.
* `Explorer.required_values_exact`: required values, and the kinds that the nodes of a flow tell.
-/

namespace ArchFlow

namespace Explorer

variable {ω : Type} (x : Explorer ω)

/-- The trees are those of the targets that exploring links of a type from an element finds in some state, each with the
value that the type requires of the attribute for kinds. -/
structure FollowsType (id : ElementId) (link : LinkType) (ts : List FlowTree) : Prop where
  targets : ∃ s, ts.map (·.id) = (x.found link id s).map (·.id)
  via : ∀ t ∈ ts, t.via = link.requiredValue? Attribute.kind

/-- The trees are those of the targets of links of each type in turn, up to some type. -/
def FollowsTypes (id : ElementId) (links : List LinkType) (ts : List FlowTree) : Prop :=
  ∃ groups : List (LinkType × List FlowTree), groups.map (·.1) <+: links ∧ ts = groups.flatMap (·.2) ∧
    ∀ g ∈ groups, x.FollowsType id g.1 g.2

variable {x}

theorem FollowsTypes.nil (id : ElementId) (links : List LinkType) : x.FollowsTypes id links [] :=
  ⟨[], List.nil_prefix, rfl, fun _ hg => absurd hg List.not_mem_nil⟩

theorem FollowsTypes.cons {id : ElementId} {link : LinkType} {links : List LinkType} {ts us : List FlowTree}
    (hts : x.FollowsType id link ts) (hus : x.FollowsTypes id links us) : x.FollowsTypes id (link :: links) (ts ++ us) := by
  obtain ⟨groups, hlinks, rfl, hgroups⟩ := hus
  exact ⟨(link, ts) :: groups, (List.prefix_cons_inj link).2 hlinks, rfl, List.forall_mem_cons.2 ⟨hts, hgroups⟩⟩

/-! ## What grows -/

section Grow

variable {grow : Grow ω} (hgrow : ∀ id via p, ((grow id via p).1.id, (grow id via p).1.via) = (id, via))
include hgrow

/-- Trees grow for the targets in order. -/
theorem map_id_growTargets (via : Option String) (es : List Element) :
    ∀ p, (growTargets grow via es p).1.map (·.id) = es.map (·.id) := by
  induction es with
  | nil => intro p; rfl
  | cons e es ih =>
    intro p
    have hid : (grow e.id via p).1.id = e.id := congrArg Prod.fst (hgrow e.id via p)
    rw [growTargets_cons, List.map_cons, List.map_cons, ih, hid]

/-- Trees for the targets of links of one type grow with the value that the type requires. -/
theorem growTargets_follows_type (id : ElementId) (link : LinkType) (s : State ω) (p : Progress ω) :
    x.FollowsType id link (growTargets grow (link.requiredValue? Attribute.kind) (x.found link id s) p).1 where
  targets := ⟨s, map_id_growTargets hgrow _ _ p⟩
  via t ht := by
    obtain ⟨e, -, q, rfl⟩ := mem_growTargets ht
    exact congrArg Prod.snd (hgrow e.id _ q)

/-- Trees grow type by type. -/
theorem growLinks_follows_types (id : ElementId) (links : List LinkType) :
    ∀ p, x.FollowsTypes id links (x.growLinks grow id links p).1 := by
  induction links with
  | nil => intro p; exact .nil id []
  | cons link links ih =>
    intro p
    rw [growLinks_cons]
    split
    · exact .nil id (link :: links)
    · exact .cons (growTargets_follows_type hgrow id link _ _) (ih _)

end Grow

theorem leaf_follows_types (id : ElementId) (via : Option String) (p : Progress ω) :
    ∀ t ∈ (x.leaf id via p).preorder, x.FollowsTypes t.id x.profile.linkTypes t.children := by
  intro t ht
  rw [FlowTree.preorder_eq] at ht
  cases List.mem_singleton.1 ht
  exact .nil id x.profile.linkTypes

/-- So it is at every node of an expansion. -/
theorem expand_follows_types (n : Nat) :
    ∀ id via p, ∀ t ∈ (x.expand n id via p).1.preorder, x.FollowsTypes t.id x.profile.linkTypes t.children := by
  induction n with
  | zero => exact fun id via p => leaf_follows_types id via p
  | succ k ih =>
    intro id via p
    have ho := x.expand_outcome (k + 1) id via p
    generalize x.expand (k + 1) id via p = r at ho ⊢
    cases ho with
    | cut => exact leaf_follows_types id via p
    | revisit => exact leaf_follows_types id via p
    | stopped => exact leaf_follows_types id via p
    | node j hn _ _ ts q hts =>
      cases hn
      have hgrown : ts = (x.growLinks (x.expand k) id x.profile.linkTypes (mark id (x.look (x.reach id p)))).1 := by
        rw [hts]
      intro t ht
      rw [FlowTree.preorder_eq, FlowTree.preorders_eq_flatMap] at ht
      rcases List.mem_cons.1 ht with rfl | ht
      -- The node itself; below it every child is an expansion of one level less.
      · rw [hgrown]
        exact growLinks_follows_types (x.root_of_expand k) id _ _
      · obtain ⟨c, hc, ht⟩ := List.mem_flatMap.1 ht
        rw [hgrown] at hc
        obtain ⟨_, -, _, e, -, r, rfl⟩ := x.mem_growLinks hc
        exact ih e.id _ r t ht

/-! ## Required values -/

/-- **Required values are exact.** A type requires a value of a key exactly if it describes something, and all that it
describes has this value; a type that describes less, but something, requires the value too. So each node of a flow, its
root apart, tells a kind exactly if the type whose links led there describes something, and all that it describes has
this kind: the children of a node come in groups, for the types of links in turn, each with one child for each target
that exploring links of the type found. -/
theorem required_values_exact :
    (∀ (a : TypeSet) (key value : String),
      a.requiredValue? key = some value ↔ a.isEmpty = false ∧ ∀ m ∈ a.meaning, m.get? key = some value) ∧
    (∀ (a b : TypeSet) (key value : String), b.refines a = true → b.isEmpty = false →
      a.requiredValue? key = some value → b.requiredValue? key = some value) ∧
    ∀ {ω : Type} (x : Explorer ω) (root : ElementId) (depth : UInt64) (s s' : State ω) (t : FlowTree),
      x.flow root depth s = (.ok t, s') → t.via = none ∧
        ∀ p ∈ t.preorder, ∃ groups : List (LinkType × List FlowTree),
          groups.map (·.1) <+: x.profile.linkTypes ∧ p.children = groups.flatMap (·.2) ∧
          ∀ g ∈ groups, (∃ s, g.2.map (·.id) = (x.found g.1 p.id s).map (·.id)) ∧
            ∀ c ∈ g.2, ∀ kind, c.via = some kind ↔
              g.1.isEmpty = false ∧ ∀ m ∈ g.1.meaning, m.get? Attribute.kind = some kind := by
  refine ⟨fun a key value => TypeSet.requiredValue?_eq_some_iff, fun a b key value h hb ha =>
    TypeSet.requiredValue?_of_refines h hb ha, fun x root depth s s' t h => ?flow⟩
  case flow =>
    cases expand_of_flow h
    refine ⟨congrArg Prod.snd (x.root_of_expand depth.toNat root none ⟨[], s⟩), fun p hp => ?_⟩
    obtain ⟨groups, hlinks, hchildren, hgroups⟩ := expand_follows_types _ _ _ _ p hp
    refine ⟨groups, hlinks, hchildren, fun g hg => ?_⟩
    have hfollows := hgroups g hg
    refine ⟨hfollows.targets, fun c hc kind => ?_⟩
    rw [hfollows.via c hc, TypeSet.requiredValue?_eq_some_iff]

/-! ### Links of several kinds -/

/-- Calls that are known to wait for their answer. -/
def waitingCalls : LinkType := .ofPredicates [⟨"Kind", "calls"⟩, ⟨"Waits", "yes"⟩]

/-- Calls of which it is known whether they wait for their answer. -/
def calls : LinkType := waitingCalls.union (.ofPredicates [⟨"Kind", "calls"⟩, ⟨"Waits", "no"⟩])

/-- A service with links that are calls, and links that may be calls or may be reads. -/
def callsAndMore : Explorer Unit where
  base := {
    slots := []
    types := [("a", .ofKind "app.service")]
    attributes := []
    links := [
      ⟨calls, .ofKind "app.service", .ofKind "app.service", fun _ w => (.ok [⟨"b", .ofKind "app.service"⟩], w)⟩,
      ⟨calls.union (.ofKind "reads"), .ofKind "app.service", .ofKind "app.service", fun _ w =>
        (.ok [⟨"c", .ofKind "app.service"⟩], w)⟩] }
  profile := {
    Profile.architecture with
    linkTypes := [calls, calls.union (.ofKind "reads")]
    attributeNames := [] }
  signal := .never

/-- Calls have one kind, whether they wait or not; links that may be reads have none. -/
theorem required_values_exact_calls :
    waitingCalls.refines calls = true ∧ calls.requiredValue? "Kind" = some "calls" ∧
      waitingCalls.requiredValue? "Kind" = some "calls" ∧
      ∃ t s', callsAndMore.flow "a" 1 (.fresh ()) = (.ok t, s') ∧ t.via = none ∧
        t.children.map (fun c => (c.id, c.via)) = [("b", some "calls"), ("c", none)] := by
  have hrefines : waitingCalls.refines calls = true := by decide +kernel
  have hcalls : calls.requiredValue? "Kind" = some "calls" := by decide +kernel
  have hknown : callsAndMore.base.contains (.fresh ()) "a" = true := by decide +kernel
  have hflow := callsAndMore.flow_of_contains hknown 1
  obtain ⟨-, hnarrower, hvia⟩ := required_values_exact
  exact ⟨hrefines, hcalls, hnarrower calls waitingCalls "Kind" "calls" hrefines (by decide +kernel) hcalls, _, _, hflow,
    (hvia callsAndMore "a" 1 _ _ _ hflow).1, by decide +kernel⟩

end Explorer

end ArchFlow
