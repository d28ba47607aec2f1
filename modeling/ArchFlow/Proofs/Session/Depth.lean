import ArchFlow.Proofs.Session.Drawing

/-!
# Flows of different depths

A deeper flow of snapshots can show less than another one. An element is expanded where it occurs first, which in a
deeper flow may be further down, just above the bound or at it; so what it leads to may be cut there, and is not shown
elsewhere. That is the only way in which something is lost, and nothing is lost if the deeper flow is deep enough.

* `Session.deeper_flow_shows_or_cuts`: what becomes of the elements of a flow in a deeper one.
* `Session.deeper_flow_hides`: a flow of depth three that shows more than one of depth four.
-/

namespace ArchFlow

namespace Session

/-- **What becomes of the elements of a flow in a deeper one.** An element of a flow of snapshots is in every deeper flow
from the same root as well, or it is below an element, not on the first two levels, that the deeper flow shows at its
bound and nowhere else. Nothing is lost from flows of two levels at most, and nothing if the deeper bound is not below
the number of elements that the root leads to. -/
theorem deeper_flow_shows_or_cuts (snapshots : List Snapshot) (settings : Settings) :
    ∃ x, ofSnapshots snapshots settings = .ok x ∧
      ∀ root, x.base.contains (.fresh ()) root = true → ∀ d d' : UInt64, d ≤ d' → ∀ s s' : State Unit,
        ∃ t t' u u', x.flow root (some d) s = (.ok t, u) ∧ x.flow root (some d') s' = (.ok t', u') ∧
          (∀ o ∈ t.occurrences, (∃ o' ∈ t'.occurrences, o'.id = o.id) ∨
            ∃ p ∈ t.occurrences, p.IsAbove o ∧ 2 ≤ p.depth ∧ (∃ p' ∈ t'.occurrences, p'.id = p.id) ∧
              ∀ p' ∈ t'.occurrences, p'.id = p.id → p'.depth = d'.toNat) ∧
          ((d ≤ 2 ∨ ∃ R, Reached snapshots settings root R ∧ R.length ≤ d'.toNat) →
            ∀ o ∈ t.occurrences, ∃ o' ∈ t'.occurrences, o'.id = o.id) := by
  refine ⟨_, ofSnapshots_eq snapshots settings, fun root hcontains d d' hd s s' => ?_⟩
  have hroot : ∃ kind, HasKind snapshots root kind := contains_fresh_iff.1 hcontains
  obtain ⟨u, hflow⟩ := flow_eq hroot (some d) s
  obtain ⟨u', hflow'⟩ := flow_eq hroot (some d') s'
  have hnext : ∀ id, (snapshotSurvey snapshots settings s).Reaches root id →
      (snapshotSurvey snapshots settings s').next id =
        (snapshotSurvey snapshots settings s).next id := by
    intro id hid
    obtain ⟨kind, hkind⟩ := hasKind_of_follows hroot ((reaches_iff hroot s).1 hid)
    rw [next_eq hkind, next_eq hkind]
  have hdepth : d.toNat ≤ d'.toNat := UInt64.le_iff_toNat_le.1 hd
  refine ⟨_, _, u, u', hflow, hflow', fun o ho => Survey.shown_or_cut_above hdepth hnext ho, ?_⟩
  rintro (htwo | ⟨R, hR, hlength⟩) o ho
  · exact Survey.shown_of_le_two hdepth hnext (UInt64.le_iff_toNat_le.1 htwo) ho
  · exact Survey.shown_of_enough hdepth hnext (fun _ => (reaches_iff_mem hroot hR s').1) hlength ho

/-! ### A flow that hides an element of a less deep one -/

/-- A service that is called directly and over a detour, and calls on over two more services. -/
def detourFacts : Snapshot where
  elements := ["r", "p", "q", "e", "f", "g"].map fun id => ⟨some id, "app.service", none, ∅⟩
  links := [("r", "p"), ("r", "e"), ("p", "q"), ("q", "e"), ("e", "f"), ("f", "g")].map fun (source, target) =>
    ⟨source, target, "calls"⟩

/-- What the detour comes to. -/
def detour : Session Unit := ⟨snapshotBase [detourFacts], .default⟩

theorem hasKind_detour : ∃ kind, HasKind [detourFacts] "r" kind :=
  ⟨_, detourFacts, List.mem_cons_self, _, List.mem_cons_self, rfl, rfl⟩

/-- With three levels the service `g` is shown below the direct call. With four levels the detour comes first, and its
end, where `g` would be next, is at the bound. -/
theorem deeper_flow_hides :
    ofSnapshots [detourFacts] .default = .ok detour ∧
      ∃ t t' s s', detour.flow "r" (some 3) (.fresh ()) = (.ok t, s) ∧
        detour.flow "r" (some 4) (.fresh ()) = (.ok t', s') ∧
        (∃ o ∈ t.occurrences, o.id = "g") ∧ ¬ ∃ o' ∈ t'.occurrences, o'.id = "g" := by
  obtain ⟨s, hflow⟩ := flow_eq hasKind_detour (some 3) (.fresh ())
  obtain ⟨s', hflow'⟩ := flow_eq hasKind_detour (some 4) (.fresh ())
  refine ⟨ofSnapshots_eq _ _, _, _, s, s', hflow, hflow', List.mem_map.1 ?_, fun h => ?_⟩
  · decide +kernel
  · revert h
    rw [← List.mem_map]
    decide +kernel

/-- The service `g` is below the service `f`, which is shown with four levels at the fourth of them only. -/
theorem deeper_flow_shows_or_cuts_detour :
    detour.base.contains (.fresh ()) "r" = true ∧ (3 : UInt64) ≤ 4 ∧
      ∃ t t' u u', detour.flow "r" (some 3) (.fresh ()) = (.ok t, u) ∧
        detour.flow "r" (some 4) (.fresh ()) = (.ok t', u') ∧
        ∀ o ∈ t.occurrences, (∃ o' ∈ t'.occurrences, o'.id = o.id) ∨
          ∃ p ∈ t.occurrences, p.IsAbove o ∧ 2 ≤ p.depth ∧ (∃ p' ∈ t'.occurrences, p'.id = p.id) ∧
            ∀ p' ∈ t'.occurrences, p'.id = p.id → p'.depth = 4 := by
  have hcontains : detour.base.contains (.fresh ()) "r" = true := contains_fresh_iff.2 hasKind_detour
  have hdepth : (3 : UInt64) ≤ 4 := by decide
  obtain ⟨x, hx, h⟩ := deeper_flow_shows_or_cuts [detourFacts] .default
  cases hx.symm.trans (ofSnapshots_eq [detourFacts] .default)
  obtain ⟨t, t', u, u', ht, ht', hcut, -⟩ := h "r" hcontains 3 4 hdepth (.fresh ()) (.fresh ())
  exact ⟨hcontains, hdepth, t, t', u, u', ht, ht', hcut⟩

end Session

end ArchFlow
