import ArchFlow.Snapshot.Basic
import Mathlib.Data.Set.Function

/-!
# Derived ids

An element whose fact gives it no id goes by its kind, a colon and half of the digest of a text that joins its kind and
its name. Kinds and names may have colons themselves, so different elements may have the same text digested; but the
digits at the end of an id are always thirty-two, so the kind before them can be read off. Two derived ids are equal
only if the kinds are equal and the digits are, and under one kind the digested texts differ as the names do.

* `ElementId.derived_eq_iff`: derived ids are equal iff the kinds and the digits are.
* `derived_ids_distinguish`: as long as no digits collide, facts share a derived id iff they share kind and name.
-/

namespace ArchFlow

namespace ElementId

/-- The text that is digested for the id of an element. -/
def digested (kind name : String) : String := kind ++ ":" ++ name

/-- The digits of a text that stand in a derived id: the first half of its digest. -/
def digits (text : String) : List Char := (Sha256.hex text).take 32

theorem length_digits (text : String) : (digits text).length = 32 := by
  simp [digits, Sha256.hex, Sha256.length_hexDigits]

variable {kind kind' name name' : String}

/-- The characters of a derived id. -/
theorem toList_derived (kind name : String) :
    (derived kind name).toList = (kind.toList ++ [':']) ++ digits (digested kind name) := by
  simp [derived, digits, digested]

/-- Under one kind, different names make different texts. -/
theorem digested_injective (kind : String) : Function.Injective (digested kind) := fun name name' h => by
  have hlist : (kind ++ ":").toList ++ name.toList = (kind ++ ":").toList ++ name'.toList := by
    rw [← String.toList_append, ← String.toList_append]
    exact congrArg String.toList h
  exact String.toList_injective (List.append_cancel_left hlist)

/-- Derived ids are equal iff the kinds are and the digits are, since there are always as many digits. -/
theorem derived_eq_iff :
    derived kind name = derived kind' name' ↔
      kind = kind' ∧ digits (digested kind name) = digits (digested kind' name') := by
  constructor
  · intro h
    have hlist := congrArg String.toList h
    rw [toList_derived, toList_derived] at hlist
    -- Cut from the end: from the start, a colon of the kind could be taken for the one that ends it.
    have hlength : (digits (digested kind name)).length = (digits (digested kind' name')).length := by
      rw [length_digits, length_digits]
    obtain ⟨hkind, hdigits⟩ := List.append_inj' hlist hlength
    exact ⟨String.toList_injective (List.append_cancel_right hkind), hdigits⟩
  · rintro ⟨rfl, hdigits⟩
    refine String.toList_injective ?_
    rw [toList_derived, toList_derived, hdigits]

end ElementId

namespace ElementFact

theorem elementId_of_none {f : ElementFact} (h : f.id = none) : f.elementId = .derived f.kind (f.name.getD "") := by
  rw [elementId, h]

/-- The texts that are digested for the ids of facts. -/
def digestedTexts (facts : List ElementFact) : Set String :=
  {text | ∃ f ∈ facts, f.id = none ∧ text = ElementId.digested f.kind (f.name.getD "")}

end ElementFact

/-- **Derived ids distinguish elements.** Two derived ids are equal exactly if the kinds are equal and the digests of
the texts that join kinds and names agree in their first thirty-two digits. So among facts without ids of their own, as
long as no two of their digested texts have the same digits, two go by the same id exactly if they have the same kind
and the same name, where a name that is left out counts as empty. -/
theorem derived_ids_distinguish :
    (∀ kind name kind' name', ElementId.derived kind name = ElementId.derived kind' name' ↔
      kind = kind' ∧ (Sha256.hex (kind ++ ":" ++ name)).take 32 = (Sha256.hex (kind' ++ ":" ++ name')).take 32) ∧
    ∀ facts : List ElementFact, Set.InjOn ElementId.digits (ElementFact.digestedTexts facts) →
      ∀ f ∈ facts, ∀ g ∈ facts, f.id = none → g.id = none →
        (f.elementId = g.elementId ↔ f.kind = g.kind ∧ f.name.getD "" = g.name.getD "") := by
  refine ⟨fun _ _ _ _ => ElementId.derived_eq_iff, fun facts hdigits f hf g hg hfid hgid => ?_⟩
  rw [ElementFact.elementId_of_none hfid, ElementFact.elementId_of_none hgid, ElementId.derived_eq_iff]
  refine and_congr_right fun hkind => ⟨fun h => ?_, fun h => ?_⟩
  · have htexts := hdigits ⟨f, hf, hfid, rfl⟩ ⟨g, hg, hgid, rfl⟩ h
    rw [hkind] at htexts
    exact ElementId.digested_injective g.kind htexts
  · rw [hkind, h]

/-- A fact that gives its element no id. -/
def anonymous (kind : String) (name : Option String) : ElementFact := ⟨none, kind, name, .empty⟩

/-- Two elements whose kinds and names join to the same text, one without a name, and one with an empty name. -/
def anonymousFacts : List ElementFact :=
  [anonymous "app:http" (some "route"), anonymous "app" (some "http:route"), anonymous "app" none,
    anonymous "app" (some "")]

/-- The first two have the same digits and different kinds, the last two have the same id. -/
theorem derived_ids_distinguish_anonymous :
    Set.InjOn ElementId.digits (ElementFact.digestedTexts anonymousFacts) ∧
      (anonymous "app:http" (some "route")).elementId ≠ (anonymous "app" (some "http:route")).elementId ∧
      (anonymous "app" (some "http:route")).elementId ≠ (anonymous "app" none).elementId ∧
      (anonymous "app" none).elementId = (anonymous "app" (some "")).elementId := by
  have hdigits : ElementId.digits "app:http:route" ≠ ElementId.digits "app:" := by decide +kernel
  have htexts : ∀ text ∈ ElementFact.digestedTexts anonymousFacts, text = "app:http:route" ∨ text = "app:" := by
    rintro text ⟨f, hf, -, rfl⟩
    simp only [anonymousFacts, List.mem_cons, List.not_mem_nil, or_false] at hf
    rcases hf with rfl | rfl | rfl | rfl <;> decide
  have hinj : Set.InjOn ElementId.digits (ElementFact.digestedTexts anonymousFacts) := by
    intro text htext text' htext' h
    rcases htexts text htext with rfl | rfl <;> rcases htexts text' htext' with rfl | rfl
    · rfl
    · exact absurd h hdigits
    · exact absurd h.symm hdigits
    · rfl
  have hsame := derived_ids_distinguish.2 anonymousFacts hinj
  refine ⟨hinj, fun h => ?_, fun h => ?_, ?_⟩
  · have hsamekind := (hsame _ (by simp [anonymousFacts]) _ (by simp [anonymousFacts]) rfl rfl).1 h
    exact absurd hsamekind.1 (by decide)
  · have hsamename := (hsame _ (by simp [anonymousFacts]) _ (by simp [anonymousFacts]) rfl rfl).1 h
    exact absurd hsamename.2 (by decide)
  · exact (hsame _ (by simp [anonymousFacts]) _ (by simp [anonymousFacts]) rfl rfl).2 ⟨rfl, rfl⟩

end ArchFlow
