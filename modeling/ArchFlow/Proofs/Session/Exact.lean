import ArchFlow.Proofs.FactBase.Discovery
import ArchFlow.Proofs.Flow.Classification
import ArchFlow.Proofs.Flow.Exactness
import ArchFlow.Proofs.Session.Drawing

/-!
# The tree of a flow

What a session of snapshots answers about single elements prescribes the trees of its flows, down to any depth: which
occurrences are expanded, which children these have in which order, and what every node shows. A flow is the one tree
that is as prescribed.

* `Session.Prescribes`: what the answers of a session say of a tree.
* `Session.flow_eq_ok_iff`: the flows of sessions whose sources are steady and follow links without failing.
* `Session.flow_iff_prescribed`: the flows of snapshots.
-/

namespace ArchFlow

variable {ω : Type}

/-! ## What a session prescribes -/

/-- A tree is as a session prescribes that answers in a state, for a root and a number of levels below it. -/
structure Session.Prescribes (x : Session ω) (s : State ω) (root : ElementId) (m : Nat) (t : FlowTree) : Prop where
  /-- The root is not reached by a link. -/
  root : t.id = root ∧ t.via = none
  /-- Where an element occurs first above the bound, its children are the targets of its links, by the kinds of links
  that are followed, in order. -/
  expanded : Along (fun before o => o.IsFirst m before →
    ∃ targets : String → List Element,
      (∀ kind ∈ x.settings.followLinks, (x.base.targets (.ofKind kind) o.id s).1 = .ok (targets kind)) ∧
      o.node.children.map (fun c => (c.via, c.id)) =
        x.settings.followLinks.flatMap fun kind => (targets kind).map fun e => (some kind, e.id)) t.occurrences
  /-- All other occurrences are leaves. -/
  leaves : Along (fun before o => ¬ o.IsFirst m before → o.node.children = []) t.occurrences
  /-- Every node has the label that the table of kinds has for the type of its element. -/
  labels : ∀ o ∈ t.occurrences, ∃ type, x.base.typeOf s o.id = .ok type ∧ type.LabelledAs o.node.label
  /-- Every node has the attributes that are asked for and that its element has. -/
  attributes : ∀ o ∈ t.occurrences, ∀ name value, o.node.attributes.get? name = some value ↔
    name ∈ x.settings.attributes ∧ (x.base.resolve? name o.id s).1 = .ok (some value)

namespace Session

section Steady

variable {x : Session ω} (hx : x.base.Steady) {s : State ω} {root id : ElementId} {m : Nat} {t : FlowTree}

include hx

theorem get?_attributes (id : ElementId) (name value : String) :
    ((x.explorer.survey s).attributes id).get? name = some value ↔
      name ∈ x.settings.attributes ∧ (x.base.resolve? name id s).1 = .ok (some value) := by
  have hs : x.base.Agrees s s := .refl x.base s
  have hget : ((x.explorer.survey s).attributes id).get? name =
      (if name ∈ x.settings.attributes then (x.base.resolve? name id s).1.toOption.join else none).or none :=
    ((explorer_calm hx).determined s).get?_attributesOf hs name x.settings.attributes .empty hs
  rw [hget, Option.or_none]
  by_cases hmem : name ∈ x.settings.attributes
  · rcases (x.base.resolve? name id s).1 with _ | _ | _ <;> simp [hmem, Except.toOption]
  · simp [hmem]

/-- What is as prescribed is the drawing from the survey of the state. -/
theorem Prescribes.eq_tree (h : x.Prescribes s root m t) : t = (x.explorer.survey s).tree m root := by
  refine Survey.eq_tree_iff.2 ⟨h.root.1, h.root.2, idsAbove m t.occurrences, ?_, ?_, by simp⟩
  · intro o ho
    obtain ⟨type, htype, hlabel⟩ := h.labels o ho
    refine ⟨?_, SortedMap.ext_get? fun name => Option.ext fun value => ?_⟩
    · have htype? : x.explorer.base.typeOf? s o.id = some type := x.base.typeOf_eq_ok_iff.1 htype
      simp only [Explorer.survey, Explorer.labelOf, htype?]
      exact (Profile.classify_eq_iff.2 hlabel).symm
    · rw [h.attributes o ho name value, get?_attributes hx]
  · intro before o after hsplit
    have hfirst : (o.depth < m ∧ ¬ (o.id ∈ ([] : List ElementId) ∨ o.id ∈ idsAbove m before)) ↔ o.IsFirst m before := by
      simp [isFirst_iff]
    rw [if_congr hfirst rfl rfl]
    split
    · next hexpanded =>
      obtain ⟨targets, htargets, hchildren⟩ := h.expanded before o after hsplit hexpanded
      refine hchildren.trans ?_
      rw [explorer_next]
      refine List.flatMap_congr fun kind hkind => ?_
      have hfound : x.explorer.found (.ofKind kind) o.id s = targets kind := Explorer.found_of_ok (htargets kind hkind)
      rw [hfound]
    · next hleaf => rw [h.leaves before o after hsplit hleaf, List.map_nil]

/-- What a known root leads to is known. -/
theorem contains_of_reaches (hroot : x.base.contains s root = true) (h : (x.explorer.survey s).Reaches root id) :
    x.base.contains s id = true := by
  induction h with
  | refl => exact hroot
  | @tail parent _ _ hleads _ =>
    obtain ⟨via, hnext⟩ := hleads
    rw [explorer_next] at hnext
    obtain ⟨kind, -, hnext⟩ := List.mem_flatMap.1 hnext
    obtain ⟨e, he, hlink⟩ := List.mem_map.1 hnext
    cases hlink
    obtain ⟨es, hes, he⟩ := Explorer.exists_of_mem_found he
    have hfound : x.base.contains (x.base.targets (.ofKind kind) parent s).2 e.id = true :=
      FactBase.targets_found hes e he
    rwa [FactBase.contains, (hx.targets_again (.ofKind kind) parent s).typeOf?] at hfound

variable (hok : ∀ r ∈ x.base.links, ∀ id w, ∃ es, (r.load id w).1 = .ok es)
include hok

/-- If no exploration fails, the drawing from a known root is as prescribed. -/
theorem prescribes_tree (hroot : x.base.contains s root = true) :
    x.Prescribes s root m ((x.explorer.survey s).tree m root) where
  root := ⟨Survey.tree_id, congrArg Prod.fst Survey.link_tree⟩
  expanded before o after hsplit hfirst := by
    have ho : o ∈ ((x.explorer.survey s).tree m root).occurrences := by simp [hsplit]
    have hknown : x.base.contains s o.id = true := contains_of_reaches hx hroot (Survey.reaches_of_mem ho)
    refine ⟨fun kind => x.explorer.found (.ofKind kind) o.id s, fun kind _ => ?_, ?_⟩
    · obtain ⟨es, hes⟩ := FactBase.targets_ok hok hknown (.ofKind kind)
      have hfound : x.explorer.found (.ofKind kind) o.id s = es := Explorer.found_of_ok hes
      exact hes.trans (congrArg Except.ok hfound.symm)
    · rw [← explorer_next]
      exact (Survey.tree_children before o after hsplit).trans (if_pos (isFirst_iff.1 hfirst))
  leaves before o after hsplit hfirst :=
    List.map_eq_nil_iff.1 ((Survey.tree_children before o after hsplit).trans (if_neg (hfirst ∘ isFirst_iff.2)))
  labels o ho := by
    have hknown : x.base.contains s o.id = true := contains_of_reaches hx hroot (Survey.reaches_of_mem ho)
    obtain ⟨type, htype⟩ := Option.isSome_iff_exists.1 hknown
    have htype? : x.explorer.base.typeOf? s o.id = some type := htype
    have hlabel : x.settings.profile.classify type = o.node.label := by
      rw [(Survey.tree_draws.nodes o ho).1]
      simp only [Explorer.survey, Explorer.labelOf, htype?]
      rfl
    exact ⟨type, x.base.typeOf_eq_ok_iff.2 htype, Profile.classify_eq_iff.1 hlabel⟩
  attributes o ho name value := by
    rw [(Survey.tree_draws.nodes o ho).2]
    exact get?_attributes hx o.id name value

/-- The flow from a known root is the tree that is prescribed, if sources are steady and no exploration fails. -/
theorem flow_eq_ok_iff (depth : Option UInt64) :
    ((∃ t, (x.flow root depth s).1 = .ok t) ↔ x.base.contains s root = true) ∧
      ∀ t, (x.flow root depth s).1 = .ok t ↔ x.Prescribes s root (depth.getD x.settings.maxDepth).toNat t := by
  by_cases hroot : x.base.contains s root = true
  · obtain ⟨s', hflow, -⟩ := (explorer_calm hx).flow_eq hroot (depth.getD x.settings.maxDepth)
    have htree : (x.flow root depth s).1 =
        .ok ((x.explorer.survey s).tree (depth.getD x.settings.maxDepth).toNat root) := congrArg Prod.fst hflow
    rw [htree]
    refine ⟨iff_of_true ⟨_, rfl⟩ hroot, fun t => ⟨fun h => ?_, fun h => ?_⟩⟩
    · cases h
      exact prescribes_tree hx hok hroot
    · rw [h.eq_tree hx]
  · have hunknown : ¬ x.explorer.base.contains s root = true := hroot
    have herror : (x.flow root depth s).1 = .error (.unknownElement root) := by
      rw [flow, Explorer.flow, if_neg hunknown]
    have hfails : ∀ t, (x.flow root depth s).1 ≠ .ok t := fun t h => by
      rw [herror] at h
      cases h
    refine ⟨iff_of_false (not_exists.2 hfails) hroot, fun t => iff_of_false (hfails t) fun h => hroot ?_⟩
    obtain ⟨type, htype, -⟩ := h.labels _ t.root_mem_occurrences
    rw [FactBase.contains, ← h.root.1, x.base.typeOf_eq_ok_iff.1 htype]
    rfl

end Steady

/-- **Flows are as prescribed, at every depth.** Snapshots come to a session that computes a flow from every root that
is known, and from no other one. The flow is a tree that the answers of the session about single elements prescribe, and
it is the only such tree. -/
theorem flow_iff_prescribed (snapshots : List Snapshot) (settings : Settings) :
    ∃ x, ofSnapshots snapshots settings = .ok x ∧ ∀ root (depth : Option UInt64) (s : State Unit),
      ((∃ t, (x.flow root depth s).1 = .ok t) ↔ x.base.contains s root = true) ∧
      ∀ t, (x.flow root depth s).1 = .ok t ↔ x.Prescribes s root (depth.getD x.settings.maxDepth).toNat t := by
  have hok : ∀ r ∈ (snapshotBase snapshots : FactBase Unit).links, ∀ id w, ∃ es, (r.load id w).1 = .ok es := by
    intro r hr id w
    rw [links_snapshotBase] at hr
    obtain ⟨g, -, rfl⟩ := List.mem_map.1 hr
    exact ⟨_, rfl⟩
  refine ⟨_, ofSnapshots_eq snapshots settings, fun root depth s => ?_⟩
  exact flow_eq_ok_iff (snapshotBase_steady snapshots) hok depth

end Session

end ArchFlow
