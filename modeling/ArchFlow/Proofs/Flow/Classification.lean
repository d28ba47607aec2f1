import ArchFlow.Proofs.TypeSet.Kinds
import ArchFlow.Settings.Basic

/-!
# Labels of elements

The nodes of a flow are labelled coarsely, by a table of labels and the kinds that they stand for. The first row counts
that has a kind of the element, and an element that no row describes is unknown. An element may be classified in several
ways; it has the kinds of all of them.

* `TypeSet.LabelledAs`: the label of a type, by the table.
* `Profile.classify_eq_iff`: the label that a flow gives to a type.
-/

namespace ArchFlow

/-- The labels of elements and the kinds that they stand for, in the order in which they are tried. -/
def labelledKinds : List (String × List String) := [
  ("Endpoint", ["endpoint.controller", "endpoint.minimal_api", "controller.action"]),
  ("HttpClient", ["http.client"]),
  ("Repository", ["app.repository", "ef.db_context"]),
  ("Database", ["db.database", "db.table"]),
  ("Queue", ["message.queue"]),
  ("Topic", ["message.topic", "message.publisher", "message.contract"]),
  ("BackgroundService", ["app.background_service"]),
  ("Service", ["app.service", "cqrs.handler", "notification.handler"])]

namespace TypeSet

/-- One of the classifications in a type has one of the kinds. -/
def HasKindAmong (a : TypeSet) (kinds : List String) : Prop :=
  ∃ c ∈ a.disjuncts, ∃ kind ∈ kinds, (⟨"Kind", kind⟩ : Predicate) ∈ c

/-- The label is that of the first row with a kind of the type, or "Unknown" if there is no such row. -/
def LabelledAs (a : TypeSet) (label : String) : Prop :=
  (∃ kinds before after, labelledKinds = before ++ (label, kinds) :: after ∧
    a.HasKindAmong kinds ∧ ∀ row ∈ before, ¬a.HasKindAmong row.2) ∨
  label = "Unknown" ∧ ∀ row ∈ labelledKinds, ¬a.HasKindAmong row.2

/-- The first row that a type fits. -/
def labelRow? (a : TypeSet) : Option (String × List String) := labelledKinds.find? fun row => a.fits (ofKinds row.2)

variable {a : TypeSet} {label : String}

theorem fits_ofKinds_iff {kinds : List String} : a.fits (ofKinds kinds) = true ↔ a.HasKindAmong kinds := by
  simp only [fits_iff, covers_ofKinds_iff]
  rfl

theorem labelRow?_eq_some_iff {kinds : List String} :
    a.labelRow? = some (label, kinds) ↔ ∃ before after, labelledKinds = before ++ (label, kinds) :: after ∧
      a.HasKindAmong kinds ∧ ∀ row ∈ before, ¬a.HasKindAmong row.2 := by
  simp only [labelRow?, List.find?_eq_some_iff_append, fits_ofKinds_iff, Bool.not_eq_true', ← Bool.not_eq_true]
  constructor
  · rintro ⟨hkinds, before, after, htable, hbefore⟩
    exact ⟨before, after, htable, hkinds, hbefore⟩
  · rintro ⟨before, after, htable, hkinds, hbefore⟩
    exact ⟨hkinds, before, after, htable, hbefore⟩

theorem labelRow?_eq_none_iff : a.labelRow? = none ↔ ∀ row ∈ labelledKinds, ¬a.HasKindAmong row.2 := by
  simp only [labelRow?, List.find?_eq_none, fits_ofKinds_iff]

end TypeSet

/-- The rows of the catalog are those of the kinds. -/
theorem classification_eq : Catalog.classification = labelledKinds.map fun row => (row.1, TypeSet.ofKinds row.2) := by
  decide +kernel

/-- A flow labels a type by the table. -/
theorem Profile.classify_eq_iff {settings : Settings} {a : ElementType} {label : String} :
    settings.profile.classify a = label ↔ a.LabelledAs label := by
  have hrow : (settings.profile.classification.find? fun row => a.fits row.2) =
      a.labelRow?.map fun row => (row.1, TypeSet.ofKinds row.2) := by
    rw [Settings.profile, classification_eq, List.find?_map]
    rfl
  simp only [TypeSet.LabelledAs, ← TypeSet.labelRow?_eq_some_iff, ← TypeSet.labelRow?_eq_none_iff]
  rw [classify, hrow]
  cases a.labelRow? with
  | none => simp [Catalog.Label.unknown, eq_comm]
  | some row => simp [Prod.ext_iff]

/-- A service that is a repository as well has the label of the earlier row. -/
example : Settings.default.profile.classify (.ofKinds ["app.service", "app.repository"]) = "Repository" := by
  decide +kernel

end ArchFlow
