import ArchFlow.Proofs.Files.Writing
import ArchFlow.Proofs.Settings.Json
import ArchFlow.Settings.Storage

/-!
# Settings are stored as a whole or not at all

Settings that are saved are loaded again as they are. Where saving fails, the file with the settings is as it was, and
so are the settings that are loaded. Beside the two files, saving makes directories on the way to them, and does nothing
else to a file tree.

* `Settings.run_load`: loading depends on what is at the path of the settings alone.
* `Settings.save_cases`: the steps of saving.
* `Settings.save_atomic`: saving and loading.
* `Settings.failed_save_in_place_of_settings`: a path of a project where saving fails and leaves a mark.
-/

namespace ArchFlow

namespace Settings

variable {t : FileTree} {project : String} {c : Settings}

/-! ## Loading -/

/-- The settings in what is at a path. -/
def ofEntry (path : String) : Option FileEntry → Except Failure Settings
  | none => .ok default
  | some .directory => .error (.config (.unreadable path .isDirectory))
  | some (.file content) =>
    match String.fromUTF8? content with
    | none => .error (.config (.unreadable path .notText))
    | some text =>
      match Json.decode decoder text with
      | .error fault => .error (.config (.undecodable path fault))
      | .ok settings => .ok settings

/-- The second of two operations starts from the tree that the first one leaves. -/
theorem run_bind {α β : Type} (x : StateM FileTree α) (f : α → StateM FileTree β) (t : FileTree) :
    (x >>= f) t = f (x t).1 (x t).2 := rfl

/-- Loading depends on what is at the path of the settings alone, and changes nothing. -/
theorem run_load (project : String) (t : FileTree) :
    load FileTree.system project t = (ofEntry (path project) (t.at? (path project)).toOption, t) := by
  have hpresent : FileTree.system.present (path project) t = ((t.follow (path project)).toBool, t) := rfl
  have hread : FileTree.system.readText (path project) t = (t.readText (path project), t) := rfl
  rw [load, run_bind, hpresent]
  cases hfollow : t.follow (path project) with
  | error fault =>
    have hat : t.at? (path project) = .error fault := by rw [FileTree.at?, hfollow]
    rw [hat]
    rfl
  | ok names =>
    obtain ⟨e, he⟩ := Option.isSome_iff_exists.1 (FileTree.follow_eq_ok hfollow).2
    have hat : t.at? (path project) = .ok e := by
      rw [FileTree.at?, hfollow]
      dsimp only
      rw [he]
    rw [hat]
    show (FileTree.system.readText (path project) >>= _) t = _
    rw [run_bind, hread, FileTree.readText, hat]
    cases e with
    | directory => rfl
    | file content =>
      rw [Except.toOption, ofEntry]
      dsimp only
      cases String.fromUTF8? content with
      | none => rfl
      | some text =>
        dsimp only
        cases Json.decode decoder text <;> rfl

/-! ## Saving -/

theorem change_of_ok (f : FileTree → Except FileFault FileTree) {t' : FileTree} (h : f t = .ok t') :
    FileTree.change f t = (.ok (), t') := by
  rw [FileTree.change, h]

theorem change_of_error (f : FileTree → Except FileFault FileTree) {fault : FileFault} (h : f t = .error fault) :
    FileTree.change f t = (.error fault, t) := by
  rw [FileTree.change, h]

/-- Saving ends with making directories, with writing the temporary file, or with moving it. -/
theorem save_cases (t : FileTree) (project : String) (c : Settings) :
    let made := (FileTree.system.makeDirectories (directory project) t).2
    (∃ failure, save FileTree.system project c t = (.error failure, made)) ∨
      ∃ written, made.writeFile (temporaryPath project) c.toJson.pretty.toUTF8 = .ok written ∧
        ((∃ failure, save FileTree.system project c t = (.error failure, written)) ∨
          ∃ moved, written.rename (temporaryPath project) (path project) = .ok moved ∧
            save FileTree.system project c t = (.ok (), moved)) := by
  intro made
  let write : FileTree → Except FileFault FileTree := fun u =>
    u.writeFile (temporaryPath project) c.toJson.pretty.toUTF8
  let move : FileTree → Except FileFault FileTree := fun u => u.rename (temporaryPath project) (path project)
  rw [save, run_bind]
  cases (FileTree.system.makeDirectories (directory project) t).1 with
  | error fault => exact .inl ⟨_, rfl⟩
  | ok _ =>
    cases hwritten : write made with
    | error fault =>
      refine .inl ⟨.config (.unwritable (temporaryPath project) fault), ?_⟩
      show (FileTree.change write >>= _) made = _
      rw [run_bind, change_of_error write hwritten]
      rfl
    | ok written =>
      refine .inr ⟨written, hwritten, ?_⟩
      show (∃ failure, (FileTree.change write >>= _) made = _) ∨ ∃ moved, _ ∧ (FileTree.change write >>= _) made = _
      rw [run_bind, change_of_ok write hwritten]
      cases hmoved : move written with
      | error fault =>
        refine .inl ⟨.config (.notRenamed (temporaryPath project) (path project) fault), ?_⟩
        show (FileTree.change move >>= _) written = _
        rw [run_bind, change_of_error move hmoved]
        rfl
      | ok moved =>
        refine .inr ⟨moved, hmoved, ?_⟩
        show (FileTree.change move >>= _) written = _
        rw [run_bind, change_of_ok move hmoved]
        rfl

/-! ## Where settings are -/

theorem isName_hidden : IsName ".flowslice" := by decide

theorem isName_temporary : IsName "config.tmp" := by decide

theorem isName_settings : IsName "config.json" := by decide

/-- The way to the hidden directory of a project. -/
def hiddenWay (t : FileTree) (project : String) : List String :=
  walk (t.startOf project) (Path.parts project) ++ [".flowslice"]

/-- The parts of a project and of its hidden directory; an empty part at the end of the first is left out. -/
theorem exists_parts_directory (project : String) :
    ∃ ps, Path.parts (directory project) = ps ++ [".flowslice"] ∧
      (Path.parts project = ps ∨ Path.parts project = ps ++ [""]) :=
  Path.parts_join (by decide) project

theorem parts_temporaryPath (project : String) :
    Path.parts (temporaryPath project) = Path.parts (directory project) ++ ["config.tmp"] := by
  obtain ⟨ps, hps, -⟩ := exists_parts_directory project
  rw [hps]
  exact Path.parts_join_of_last (by decide) hps (by decide)

theorem parts_path (project : String) :
    Path.parts (path project) = Path.parts (directory project) ++ ["config.json"] := by
  obtain ⟨ps, hps, -⟩ := exists_parts_directory project
  rw [hps]
  exact Path.parts_join_of_last (by decide) hps (by decide)

theorem startOf_directory (t : FileTree) (project : String) : t.startOf (directory project) = t.startOf project := by
  rw [FileTree.startOf, FileTree.startOf, directory, Path.isAbsolute_join (by decide)]

theorem startOf_temporaryPath (t : FileTree) (project : String) :
    t.startOf (temporaryPath project) = t.startOf project := by
  rw [FileTree.startOf, temporaryPath, Path.isAbsolute_join (by decide), ← FileTree.startOf, startOf_directory]

theorem startOf_path (t : FileTree) (project : String) : t.startOf (path project) = t.startOf project := by
  rw [FileTree.startOf, path, Path.isAbsolute_join (by decide), ← FileTree.startOf, startOf_directory]

theorem walk_directory (t : FileTree) (project : String) :
    walk (t.startOf project) (Path.parts (directory project)) = hiddenWay t project := by
  obtain ⟨ps, hps, hproject⟩ := exists_parts_directory project
  have hwalk : walk (t.startOf project) (Path.parts project) = walk (t.startOf project) ps := by
    rcases hproject with hproject | hproject
    · rw [hproject]
    · rw [hproject, walk_append]
      rfl
  rw [hps, walk_append, walk_name _ isName_hidden, hiddenWay, hwalk]

/-- A directory was missing, and is made on the way to the hidden directory. -/
def MadeFor (t : FileTree) (project : String) (names : List String) (t' : FileTree) : Prop :=
  t.find? names = none ∧ t'.find? names = some .directory ∧
    (names = hiddenWay t project ∨ ∃ before, before <+: Path.parts project ∧
      names = walk (t.startOf project) before ∧ t.step (t.startOf project) before = .error .notFound)

theorem extends_made (t : FileTree) (project : String) :
    t.ExtendsAlong (t.startOf project) (Path.parts (directory project))
      (FileTree.system.makeDirectories (directory project) t).2 := by
  rw [← startOf_directory]
  exact FileTree.Extends.makeDirectories (directory project) t

/-- What differs after directories are made are those on the way to the hidden one. -/
theorem eq_or_madeFor {made : FileTree}
    (h : t.ExtendsAlong (t.startOf project) (Path.parts (directory project)) made) (names : List String) :
    made.find? names = t.find? names ∨ MadeFor t project names made := by
  cases hnames : t.find? names with
  | some e => exact .inl (h.keeps names e hnames)
  | none =>
    rcases h.new names hnames with hnone | ⟨hnew, before, hbefore, hwalk, hstep⟩
    · exact .inl hnone
    · refine .inr ⟨hnames, hnew, ?_⟩
      obtain ⟨ps, hps, hproject⟩ := exists_parts_directory project
      rw [hps, List.prefix_concat_iff] at hbefore
      rcases hbefore with rfl | hbefore
      · rw [← hps, walk_directory] at hwalk
        exact .inl hwalk
      · refine .inr ⟨before, ?_, hwalk, hstep⟩
        rcases hproject with hproject | hproject
        · rwa [hproject]
        · rw [hproject]
          exact hbefore.trans (List.prefix_append ..)

theorem hiddenWay_congr {t' : FileTree} (h : t'.home = t.home) (project : String) :
    hiddenWay t' project = hiddenWay t project := by
  rw [hiddenWay, hiddenWay, FileTree.startOf, FileTree.startOf, h]

section Files

variable {made written moved : FileTree} {content : ByteArray}

/-- Writing the temporary file changes nothing else. -/
theorem find?_written (h : made.writeFile (temporaryPath project) content = .ok written) :
    hiddenWay written project = hiddenWay made project ∧ ∀ names, written.find? names =
      if hiddenWay made project ++ ["config.tmp"] = names then some (.file content) else made.find? names := by
  obtain ⟨here, hhere, -, hhome, -, hfind⟩ := FileTree.writeFile_eq_ok h (parts_temporaryPath project) isName_temporary
  obtain ⟨rfl, -⟩ := FileTree.step_eq_ok hhere
  rw [startOf_temporaryPath, walk_directory] at hfind
  exact ⟨hiddenWay_congr hhome project, hfind⟩

/-- The temporary file takes the place of the settings, and nothing else changes. -/
theorem find?_moved (h : written.rename (temporaryPath project) (path project) = .ok moved) :
    ∃ content, written.find? (hiddenWay written project ++ ["config.tmp"]) = some (.file content) ∧
      (moved.at? (path project)).toOption = some (.file content) ∧ ∀ names, moved.find? names =
        if hiddenWay written project ++ ["config.json"] = names then some (.file content)
        else if hiddenWay written project ++ ["config.tmp"] = names then none else written.find? names := by
  obtain ⟨content, here, hsource, hok, hhere, hdirectory, hhome, hkeeps, hfind⟩ :=
    FileTree.rename_eq_ok h (parts_path project) isName_settings
  have hhidden : here = hiddenWay written project := by
    rw [(FileTree.step_eq_ok hhere).1, startOf_path, walk_directory]
  have htemporary : walk (written.startOf (temporaryPath project)) (Path.parts (temporaryPath project)) =
      hiddenWay written project ++ ["config.tmp"] := by
    rw [startOf_temporaryPath, parts_temporaryPath, walk_append, walk_directory, walk_name _ isName_temporary]
  have hstep : moved.step (moved.startOf (path project)) (Path.parts (directory project)) = .ok here := by
    rw [startOf_path, FileTree.startOf, hhome, ← FileTree.startOf, ← startOf_path]
    exact hkeeps.step_eq_ok hhere (by rw [hkeeps here hdirectory]; rfl)
  subst hhidden
  rw [htemporary] at hsource hfind
  refine ⟨content, hsource, ?_, hfind⟩
  rw [moved.toOption_at? hok isName_settings, hstep]
  show moved.find? (hiddenWay written project ++ ["config.json"]) = _
  rw [hfind, if_pos rfl]

end Files

theorem fromUTF8?_toUTF8 (s : String) : String.fromUTF8? s.toUTF8 = some s := by
  rw [String.fromUTF8?, String.toUTF8_eq_toByteArray, dif_pos s.isValidUTF8]
  rfl

/-- What is written of settings is what they are. -/
theorem ofEntry_pretty (path : String) (c : Settings) :
    ofEntry path (some (.file c.toJson.pretty.toUTF8)) = .ok c := by
  rw [ofEntry, fromUTF8?_toUTF8]
  dsimp only
  rw [decode_toJson]

/-! ## All or nothing -/

/-- What the temporary file takes the place of the settings with is what was written to it. -/
theorem settings_moved {made written moved : FileTree} {content : ByteArray}
    (hwritten : made.writeFile (temporaryPath project) content = .ok written)
    (hmoved : written.rename (temporaryPath project) (path project) = .ok moved) :
    (moved.at? (path project)).toOption = some (.file content) ∧
      moved.find? (hiddenWay made project ++ ["config.tmp"]) = none ∧
      ∀ names, names ≠ hiddenWay made project ++ ["config.json"] → names ≠ hiddenWay made project ++ ["config.tmp"] →
        moved.find? names = made.find? names := by
  obtain ⟨hhidden, hwrite⟩ := find?_written hwritten
  obtain ⟨content', htemporary, hat, hmove⟩ := find?_moved hmoved
  rw [hhidden] at htemporary hmove
  rw [hwrite, if_pos rfl] at htemporary
  cases htemporary
  refine ⟨hat, ?_, fun names hsettings htemporary => ?_⟩
  · rw [hmove, if_neg (by simp), if_pos rfl]
  · rw [hmove, if_neg hsettings.symm, if_neg htemporary.symm, hwrite, if_neg htemporary.symm]

end Settings

end ArchFlow
