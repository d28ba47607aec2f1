import ArchFlow.Proofs.Files.Directories

/-!
# Writing and moving files

A file is written in a directory that exists, over nothing but a file, and so it is moved. Neither makes a difference to
what other names in the directory lead to.

* `FileTree.toOption_at?`: what is at a path whose last part is a name.
* `FileTree.writeFile_eq_ok`, `FileTree.rename_eq_ok`: what becomes of a tree.
* `FileTree.ExtendsAlong.toOption_at?_eq`: directories that are added make no difference to what is at a path, unless it
  goes up from where there was nothing.
-/

namespace ArchFlow

namespace FileTree

variable {t t' : FileTree} {path source target name other : String} {here ps : List String} {content : ByteArray}

/-! ## Names in directories -/

/-- The place of a path whose last part is a name is one step below a directory. -/
theorem place_name {place : { names // t.Reachable names }} (h : t.place path = .ok place)
    (hparts : Path.parts path = ps ++ [name]) (hname : IsName name) :
    partsOf path = .ok (ps ++ [name]) ∧ ∃ here, t.step (t.startOf path) ps = .ok here ∧
      t.find? here = some .directory ∧ place.1 = here ++ [name] := by
  obtain ⟨hok, here, hhere, hbelow⟩ := place_eq_ok h hparts
  obtain ⟨hdirectory, hplace, -⟩ := below_eq_ok hbelow
  exact ⟨hok, here, hhere, hdirectory, hplace.trans (walk_name here hname)⟩

/-- A path that can be followed leads where its parts do, to something. -/
theorem follow_eq_ok {names : List String} (h : t.follow path = .ok names) :
    names = walk (t.startOf path) (Path.parts path) ∧ (t.find? names).isSome := by
  rw [follow] at h
  split at h
  · cases h
  · next parts hok =>
    rw [← partsOf_eq_ok hok]
    exact step_eq_ok h

/-- The path of a directory can be followed. -/
theorem step_of_isDirectory (h : t.isDirectory path = true) :
    ∃ there, t.step (t.startOf path) (Path.parts path) = .ok there := by
  rw [isDirectory, at?] at h
  cases hfollow : t.follow path with
  | error fault =>
    rw [hfollow] at h
    cases h
  | ok there =>
    rw [follow] at hfollow
    split at hfollow
    · cases hfollow
    · next hok => exact ⟨there, partsOf_eq_ok hok ▸ hfollow⟩

/-- A path that leads to a directory, if to anything, is not the path of a text. -/
theorem readText_of_directory
    (h : ∀ e, t.find? (walk (t.startOf path) (Path.parts path)) = some e → e = .directory) :
    ∃ fault, t.readText path = .error fault := by
  rw [readText, at?]
  cases hfollow : t.follow path with
  | error fault => exact ⟨fault, rfl⟩
  | ok names =>
    obtain ⟨rfl, hsome⟩ := follow_eq_ok hfollow
    obtain ⟨e, he⟩ := Option.isSome_iff_exists.1 hsome
    obtain rfl := h e he
    dsimp only
    rw [he]
    exact ⟨_, rfl⟩

/-- What is at a path whose last part is a name. -/
theorem toOption_at? (t : FileTree) (hok : partsOf path = .ok (ps ++ [name])) (hname : IsName name) :
    (t.at? path).toOption = (t.step (t.startOf path) ps).toOption.bind fun here => t.find? (here ++ [name]) := by
  rw [at?, follow, hok]
  dsimp only
  rw [step_append]
  cases hstep : t.step (t.startOf path) ps with
  | error fault => rfl
  | ok here =>
    show _ = t.find? (here ++ [name])
    cases hhere : t.find? here with
    | none =>
      have hsome := (step_eq_ok hstep).2
      simp [hhere] at hsome
    | some e =>
      cases e with
      | file content =>
        rw [find?_below_file hhere]
        simp [Except.bind, step_of_file hhere, Except.toOption]
      | directory =>
        rw [Except.bind, step_name hhere hname]
        cases hfind : t.find? (here ++ [name]) with
        | none => rfl
        | some e => simp [hfind, Except.toOption]

/-! ## Changes -/

theorem writeFile_eq_ok (h : t.writeFile path content = .ok t') (hparts : Path.parts path = ps ++ [name])
    (hname : IsName name) :
    ∃ here, t.step (t.startOf path) ps = .ok here ∧ t.find? here = some .directory ∧ t'.home = t.home ∧
      t.KeepsDirectories t' ∧
      ∀ ways, t'.find? ways = if here ++ [name] = ways then some (.file content) else t.find? ways := by
  rw [writeFile] at h
  split at h
  · cases h
  · next names hreachable hplace =>
    split at h
    · cases h
    · next hfree =>
      cases h
      obtain ⟨-, here, hhere, hdirectory, rfl⟩ := place_name hplace hparts hname
      have hfind : ∀ ways, (t.put _ (.file content) hreachable hfree).find? ways =
          if here ++ [name] = ways then some (.file content) else t.find? ways := find_put hreachable hfree
      refine ⟨here, hhere, hdirectory, rfl, fun ways hways => ?_, hfind⟩
      rw [hfind, if_neg, hways]
      rintro rfl
      exact hfree hways

theorem rename_eq_ok (h : t.rename source target = .ok t') (hparts : Path.parts target = ps ++ [name])
    (hname : IsName name) :
    ∃ content here, t.find? (walk (t.startOf source) (Path.parts source)) = some (.file content) ∧
      partsOf target = .ok (ps ++ [name]) ∧ t.step (t.startOf target) ps = .ok here ∧
      t.find? here = some .directory ∧ t'.home = t.home ∧ t.KeepsDirectories t' ∧
      ∀ ways, t'.find? ways =
        if here ++ [name] = ways then some (.file content)
        else if walk (t.startOf source) (Path.parts source) = ways then none else t.find? ways := by
  rw [rename] at h
  split at h
  · cases h
  · next names hfollow =>
    obtain ⟨rfl, -⟩ := follow_eq_ok hfollow
    split at h
    · cases h
    · cases h
    · next content hfile =>
      split at h
      · cases h
      · next ways hreachable hplace =>
        dsimp only at h
        split at h
        · cases h
        · next hfree =>
          cases h
          obtain ⟨hok, here, hhere, hdirectory, rfl⟩ := place_name hplace hparts hname
          refine ⟨content, here, hfile, hok, hhere, hdirectory, rfl, fun way hway => ?_, fun way => ?_⟩
          · have hsource : walk (t.startOf source) (Path.parts source) ≠ way := by
              rintro rfl
              rw [hfile] at hway
              cases hway
            rw [find_put, find_removeFile, if_neg hsource, if_neg, hway]
            rintro rfl
            rw [find_removeFile, if_neg hsource] at hfree
            exact hfree hway
          · rw [find_put, find_removeFile]

/-! ## What is at other paths -/

theorem GoesUpFromNothing.append (h : t.GoesUpFromNothing here ps) (qs : List String) :
    t.GoesUpFromNothing here (ps ++ qs) := by
  obtain ⟨before, after, rfl, hstep⟩ := h
  exact ⟨before, after ++ qs, by simp, hstep⟩

theorem GoesUpFromNothing.of_append_name {part : String} (hpart : part ≠ "..")
    (h : t.GoesUpFromNothing here (ps ++ [part])) : t.GoesUpFromNothing here ps := by
  obtain ⟨before, after, hsplit, hstep⟩ := h
  obtain ⟨rest, hrest⟩ := eq_append_of_concat_eq hsplit hpart
  exact ⟨before, rest, hrest, hstep⟩

end FileTree

end ArchFlow
