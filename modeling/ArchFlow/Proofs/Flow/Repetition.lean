import ArchFlow.Proofs.FactBase.Discovery
import ArchFlow.Proofs.Flow.FirstOccurrence
import ArchFlow.Proofs.Flow.History
import ArchFlow.Proofs.Flow.Survey

/-!
# Flows that are computed again

A flow leaves its traces in the state: elements that it met have a type from then on, and values are resolved. Where
sources are steady and no element that is not registered is offered under two types, none of this can be seen in a flow
that is computed later. Otherwise it can: an element that was met as one thing when it was first shown may be met again
further on as another thing, and from then on it is both.

* `FactBase.flow_repeats`: flows that are the same whenever they are computed.
* `FactBase.repeated_flow_differs`: two flows in a row that differ.
-/

namespace ArchFlow

namespace FactBase

variable {ω : Type} {b : FactBase ω}

/-- **Flows can be repeated.** If the sources of a fact base answer the same whenever they are asked, and offer no
element under two types that is not registered, then a flow from a known root succeeds after every history, and it is
the same tree at any later time, whatever else is asked in between. -/
theorem flow_repeats (hb : b.Unambiguous) (w : ω) (before : List (Query ω)) (profile : Profile) {root : ElementId}
    (hroot : b.contains (b.after before (.fresh w)) root = true) (depth : UInt64) :
    ∃ t s, Explorer.flow ⟨b, profile, .never⟩ root depth (b.after before (.fresh w)) = (.ok t, s) ∧
      ∀ between : List (Query ω),
        ∃ s', Explorer.flow ⟨b, profile, .never⟩ root depth (b.after between s) = (.ok t, s') := by
  let J : ElementId → State ω → Prop := fun id s => b.Faithful s ∧ b.contains s id = true
  have hx : (⟨b, profile, .never⟩ : Explorer ω).Determined J := ⟨hb.consistent, fun _ => rfl⟩
  have hfaithful : b.Faithful (b.after before (.fresh w)) :=
    hb.keeps.after (fun s _ hs => ⟨hs.told, hs.resolved⟩) before (.fresh b w)
  have hfirst : J root (b.after before (.fresh w)) := ⟨hfaithful, hroot⟩
  obtain ⟨t, s, hflow⟩ :
      ∃ t s, Explorer.flow ⟨b, profile, .never⟩ root depth (b.after before (.fresh w)) = (.ok t, s) :=
    ⟨_, _, Explorer.flow_of_contains hroot depth⟩
  have hs : J root s := by
    have hkept := (hb.consistent.keeps root).flow (hb.consistent.world root) profile .never root depth _ hfirst
    rwa [hflow] at hkept
  refine ⟨t, s, hflow, fun between => ⟨_, Prod.ext ?_ rfl⟩⟩
  have hlater : J root (b.after between s) := (hb.consistent.keeps root).after (hb.consistent.world root) between hs
  rw [hx.flow_congr hfirst hlater depth, hflow]

/-! ### An element that is met twice -/

/-- The types of services, repositories and tables. -/
def anyStorage : ElementType := Catalog.anyOf [.appService, .repository, .dbTable]

/-- The services `a` and `b`, of which `a` calls `b`, and both of them something that is not registered: it is a table
where `a` calls it, and what is given where `b` does. The world counts the requests. -/
def encounter (second : ElementType) : Registry Nat where
  roots := [⟨ElementKind.type .appService,
    .constant [⟨"a", ElementKind.type .appService⟩, ⟨"b", ElementKind.type .appService⟩]⟩]
  links := [⟨LinkKind.type .calls, ElementKind.type .appService, anyStorage, fun id w =>
    (.ok (if id = "a" then [⟨"x", ElementKind.type .dbTable⟩, ⟨"b", ElementKind.type .appService⟩]
      else if id = "b" then [⟨"x", second⟩] else []), w + 1)⟩]

/-- What the encounter comes to. -/
def encounterBase (second : ElementType) : FactBase Nat where
  slots := [⟨ElementKind.type .appService,
    [⟨"a", ElementKind.type .appService⟩, ⟨"b", ElementKind.type .appService⟩]⟩]
  types := [("a", ElementKind.type .appService), ("b", ElementKind.type .appService)]
  attributes := []
  links := (encounter second).links

theorem build_encounter (second : ElementType) (w : Nat) :
    (encounter second).build w = (.ok (encounterBase second), w) := by
  rw [Registry.build]
  cbv

/-- A profile that follows calls. -/
def callProfile : Profile := { Profile.architecture with linkTypes := [LinkKind.type .calls], attributeNames := [] }

/-- The flow from `a`. -/
abbrev encounterFlow (second : ElementType) (s : State Nat) : Except Failure FlowTree × State Nat :=
  Explorer.flow ⟨encounterBase second, callProfile, .never⟩ "a" 2 s

/-- The first flow shows a table at first, since it was not yet met as a repository. The second flow shows a repository
from the start. -/
theorem repeated_flow_differs :
    (encounter (ElementKind.type .repository)).build 0 = (.ok (encounterBase (ElementKind.type .repository)), 0) ∧
      (encounterBase (ElementKind.type .repository)).attributes = [] ∧
      (∀ r ∈ (encounterBase (ElementKind.type .repository)).links, ∀ id, ∃ es, (r.load id).Steady (.ok es)) ∧
      ∃ t t' s s', encounterFlow (ElementKind.type .repository) (.fresh 0) = (.ok t, s) ∧
        encounterFlow (ElementKind.type .repository) s = (.ok t', s') ∧ t ≠ t' := by
  refine ⟨build_encounter _ 0, rfl, fun r hr id => ?_, _, _, _, _, Explorer.flow_of_contains ?_ 2,
    Explorer.flow_of_contains ?_ 2, fun h => ?_⟩
  · cases List.mem_singleton.1 hr
    exact ⟨_, fun _ => rfl⟩
  · decide +kernel
  · decide +kernel
  · have hlabels := congrArg (fun t => t.preorder.map (·.label)) h
    revert hlabels
    decide +kernel

theorem unambiguous_encounter : (encounterBase (ElementKind.type .dbTable)).Unambiguous where
  attributes r hr := by cases hr
  links r hr id := by
    cases List.mem_singleton.1 hr
    exact ⟨_, fun _ => rfl⟩
  single id hnone t u ht hu := by
    -- what is not registered is offered as a table
    have htable : ∀ {t}, (encounterBase (ElementKind.type .dbTable)).Offers id t → t = ElementKind.type .dbTable := by
      rintro t ⟨r, hr, source, w, es, hes, hmem, -⟩
      cases List.mem_singleton.1 hr
      cases hes
      split at hmem
      · rcases List.mem_cons.1 hmem with h | hmem
        · exact congrArg Element.type h
        · cases List.mem_singleton.1 hmem
          cases hnone
      · split at hmem
        · exact congrArg Element.type (List.mem_singleton.1 hmem)
        · cases hmem
    rw [htable ht, htable hu]

/-- Met as a table by both services, the element is a table in every flow, also if another flow met it before. -/
theorem flow_repeats_encounter :
    ∃ t s s', (encounterBase (ElementKind.type .dbTable)).Unambiguous ∧
      encounterFlow (ElementKind.type .dbTable)
        ((encounterBase (ElementKind.type .dbTable)).after [.flow callProfile .never "b" 1] (.fresh 0)) = (.ok t, s) ∧
      encounterFlow (ElementKind.type .dbTable)
        ((encounterBase (ElementKind.type .dbTable)).after [.label "x"] s) = (.ok t, s') ∧
      t.preorder.map (fun t => (t.id, t.label)) =
        [("a", "Service"), ("x", "Database"), ("b", "Service"), ("x", "Database")] := by
  have hroot : (encounterBase (ElementKind.type .dbTable)).contains
      ((encounterBase (ElementKind.type .dbTable)).after [.flow callProfile .never "b" 1] (.fresh 0)) "a" = true := by
    decide +kernel
  obtain ⟨t, s, hflow, hagain⟩ := flow_repeats unambiguous_encounter 0 _ callProfile hroot 2
  obtain ⟨s', hflow'⟩ := hagain [.label "x"]
  refine ⟨t, s, s', unambiguous_encounter, hflow, hflow', ?_⟩
  cases Explorer.expand_of_flow hflow
  decide +kernel

end FactBase

end ArchFlow
