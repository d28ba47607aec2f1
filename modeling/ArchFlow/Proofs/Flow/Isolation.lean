import ArchFlow.Proofs.FactBase.Silencing
import ArchFlow.Proofs.Flow.FirstOccurrence
import ArchFlow.Proofs.Flow.History
import ArchFlow.Proofs.Flow.Simulation

/-!
# Failures stay where they are

An attribute or a type of links that fails to load for an element is left out of a flow, and all else is as if the
sources had nothing to say about it. Failures are not remembered while the absence of a value is, so the states of the
two flows differ, but no answer that they get later does.

* `FactBase.alike_silenced`: failing and silent requests cannot be told apart.
* `FactBase.failures_isolated`: flows over a base with failures are those over the silenced base.
-/

namespace ArchFlow

namespace FactBase

variable {ω : Type} {b : FactBase ω}

/-- In settled states, a flow cannot tell failing requests from silent ones. -/
theorem alike_silenced (hb : b.Predictable) (w : ω) (profile : Profile) :
    (⟨b, profile, .never⟩ : Explorer ω).Alike ⟨b.silenced w, profile, .never⟩
      fun s s' => b.Settled w s ∧ (b.silenced w).Settled w s' where
  profile := rfl
  typeOf? := by
    rintro s s' ⟨hs, hs'⟩ id
    exact (hs'.typeOf? id).trans (hs.typeOf? id).symm
  resolve := by
    rintro s s' ⟨hs, hs'⟩ name id
    refine ⟨?_, (hb.keeps w).resolve name id s hs, ((hb.silenced w).keeps w).resolve name id s' hs'⟩
    dsimp only
    rw [(hb.silenced w).resolve?_eq hs', b.resolve?_silenced w, hb.resolve?_eq hs]
  targets := by
    rintro s s' ⟨hs, hs'⟩ link id
    refine ⟨?_, (hb.keeps w).targets link id s hs, ((hb.silenced w).keeps w).targets link id s' hs'⟩
    rw [Explorer.found_eq, Explorer.found_eq]
    dsimp only
    rw [(hb.silenced w).targets_eq hs', b.targets_silenced w, hb.targets_eq hs]
  signal := by
    rintro s s' ⟨hs, hs'⟩
    exact ⟨rfl, hs.world _, hs'.world _⟩

/-- **Failures are isolated.** Let each request to a source either always fail or always get the same answer, and let
links lead to registered elements only. Replace all answers to requests for an attribute or for links that fail to load
for an element, by no value and no targets. Then for every profile, from every root and down to every depth, the flow
is the one over the base with these replacements, whatever was asked of the two bases before. -/
theorem failures_isolated (hb : b.Predictable) (w w₁ w₂ : ω) (before before' : List (Query ω)) (profile : Profile)
    (root : ElementId) (depth : UInt64) :
    let r := (Explorer.flow ⟨b, profile, .never⟩ root depth (b.after before (.fresh w₁))).1
    let r' := (Explorer.flow ⟨b.silenced w, profile, .never⟩ root depth
      ((b.silenced w).after before' (.fresh w₂))).1
    if (b.types.lookup root).isSome then ∃ t, r = .ok t ∧ r' = .ok t
    else r = .error (.unknownElement root) ∧ r' = .error (.unknownElement root) := by
  intro r r'
  have hs : b.Settled w (b.after before (.fresh w₁)) :=
    (hb.keeps w).after (fun _ w' h => h.world w') before (b.settled_fresh w w₁)
  have hs' : (b.silenced w).Settled w ((b.silenced w).after before' (.fresh w₂)) :=
    ((hb.silenced w).keeps w).after (fun _ w' h => h.world w') before' ((b.silenced w).settled_fresh w w₂)
  have hsame : r' = r := ((alike_silenced hb w profile).flow ⟨hs, hs'⟩ root depth).1
  have hcontains : b.contains (b.after before (.fresh w₁)) root = (b.types.lookup root).isSome := by
    rw [contains, hs.typeOf?, typeOf?, State.fresh, List.lookup_nil, Option.or_none]
  rw [hsame]
  split
  · next hroot =>
    have hflow := congrArg Prod.fst
      (Explorer.flow_of_contains (x := ⟨b, profile, .never⟩) (hcontains.trans hroot) depth)
    exact ⟨_, hflow, hflow⟩
  · next hroot =>
    have hflow := congrArg Prod.fst
      (Explorer.flow_of_unknown (x := ⟨b, profile, .never⟩) (hcontains.trans (Bool.eq_false_iff.2 hroot)) depth)
    exact ⟨hflow, hflow⟩

/-! ### A source that hides its sibling -/

/-- An answer, in a world that counts the requests. -/
def counted {α : Type} (a : α) : Loader Nat α := fun w => (.ok a, w + 1)

/-- A failure that tells how many requests came before it. -/
def failing {α : Type} : Loader Nat α := fun w => (.error (.io ("no answer to request " ++ toString w)), w + 1)

/-- Three services. One source knows that `a` and `c` call `b`, and another one fails for `a`. Moreover `a` sends
requests to `c`. The first of two sources fails to name `b`. -/
def faultyBase : FactBase Nat where
  slots := [⟨.ofKind "app.service", ["a", "b", "c"].map (⟨·, .ofKind "app.service"⟩)⟩]
  types := ["a", "b", "c"].map (·, .ofKind "app.service")
  attributes := [
    ⟨.ofKind "app.service", "name", fun id => if id = "b" then failing else counted (some id)⟩,
    ⟨.ofKind "app.service", "name", fun id => counted (some id)⟩]
  links := [
    ⟨.ofKind "calls", .ofKind "app.service", .ofKind "app.service",
      fun id => counted (if id = "b" then [] else [⟨"b", .ofKind "app.service"⟩])⟩,
    ⟨.ofKind "calls", .ofKind "app.service", .ofKind "app.service",
      fun id => if id = "a" then failing else counted []⟩,
    ⟨.ofKind "sends_request", .ofKind "app.service", .ofKind "app.service",
      fun id => counted (if id = "a" then [⟨"c", .ofKind "app.service"⟩] else [])⟩]

theorem predictable_counted {α : Type} (a : α) : (counted a).Predictable := fun _ _ => rfl

theorem predictable_failing {α : Type} : (failing : Loader Nat α).Predictable := fun _ _ => rfl

theorem faultyBase_predictable : faultyBase.Predictable where
  attributes r hr id := by
    simp only [faultyBase, List.mem_cons, List.not_mem_nil, or_false] at hr
    obtain rfl | rfl := hr
    · dsimp only
      split
      · exact predictable_failing
      · exact predictable_counted _
    · exact predictable_counted _
  links r hr id := by
    simp only [faultyBase, List.mem_cons, List.not_mem_nil, or_false] at hr
    obtain rfl | rfl | rfl := hr
    · exact predictable_counted _
    · dsimp only
      split
      · exact predictable_failing
      · exact predictable_counted _
    · exact predictable_counted _
  closed r hr id w es hes e he := by
    simp only [faultyBase, List.mem_cons, List.not_mem_nil, or_false] at hr
    obtain rfl | rfl | rfl := hr
    · cases hes
      split at he
      · cases he
      · cases List.mem_singleton.1 he
        rfl
    · dsimp only at hes
      split at hes
      · cases hes
      · cases hes
        cases he
    · cases hes
      split at he
      · cases List.mem_singleton.1 he
        rfl
      · cases he

/-- A flow with names that follows calls, and then requests. -/
def faultyProfile : Profile :=
  { Profile.architecture with linkTypes := [.ofKind "calls", .ofKind "sends_request"], attributeNames := ["name"] }

/-- The calls of `a` are left out, so `b` is first reached from `c`, where it has no name. -/
theorem failures_isolated_faulty :
    faultyBase.Predictable ∧
      ∃ t, (Explorer.flow ⟨faultyBase, faultyProfile, .never⟩ "a" 2 (.fresh 0)).1 = .ok t ∧
        (Explorer.flow ⟨faultyBase.silenced 0, faultyProfile, .never⟩ "a" 2
          ((faultyBase.silenced 0).after [.resolve "name" "b"] (.fresh 5))).1 = .ok t ∧
        t.preorder.map (fun t => (t.id, t.via, t.attributes.get? "name")) =
          [("a", none, some "a"), ("c", some "sends_request", some "c"), ("b", some "calls", none)] := by
  have h := failures_isolated faultyBase_predictable 0 0 5 [] [.resolve "name" "b"] faultyProfile "a" 2
  have hroot : (faultyBase.types.lookup "a").isSome = true := by decide +kernel
  dsimp only at h
  rw [if_pos hroot] at h
  obtain ⟨t, ht, ht'⟩ := h
  refine ⟨faultyBase_predictable, t, ht, ht', ?_⟩
  have hshown : ((Explorer.flow ⟨faultyBase, faultyProfile, .never⟩ "a" 2 (.fresh 0)).1.toOption.map fun t =>
      t.preorder.map fun t => (t.id, t.via, t.attributes.get? "name")) =
        some [("a", none, some "a"), ("c", some "sends_request", some "c"), ("b", some "calls", none)] := by
    decide +kernel
  rw [show (Explorer.flow ⟨faultyBase, faultyProfile, .never⟩ "a" 2 (.fresh 0)).1 = .ok t from ht] at hshown
  exact Option.some.inj hshown

end FactBase

end ArchFlow
