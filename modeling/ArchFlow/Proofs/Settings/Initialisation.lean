import ArchFlow.Proofs.Settings.Storage

/-!
# Projects that are initialised

Where a project has no settings, the default ones count; to initialise it is to write these into its hidden directory.
Afterwards the same settings are loaded for it, and for all other projects as well, unless their paths go up from the
hidden directory, which may have been missing. Files are found as before where their paths do not lead through it.

* `Settings.Initialised`: what becomes of a tree.
* `Settings.Initialised.readText_cases`: the texts of files.
* `Settings.Initialised.load_eq`: the settings of projects.
* `Settings.initialised_save`: saving the default settings.
-/

namespace ArchFlow

namespace Settings

variable {hidden way here there ps : List String} {name part : String}

/-! ## Trees -/

/-- The path of the hidden directory goes up only where that of the project does. -/
theorem goesUpFrom_of_directory {project : String} (h : GoesUpFrom way here (Path.parts (directory project))) :
    GoesUpFrom way here (Path.parts project) := by
  obtain ⟨ps, hps, hproject⟩ := exists_parts_directory project
  rw [hps] at h
  have hup := GoesUpFrom.of_append_name (by decide) h
  rcases hproject with hproject | hproject
  · rwa [hproject]
  · rw [hproject]
    exact hup.append _

/-- The tree `t'` is `t` with the default settings in a hidden directory; there were none, and maybe no directory. -/
structure Initialised (hidden : List String) (t t' : FileTree) : Prop where
  named : ∃ way, hidden = way ++ [".flowslice"]
  place : ∀ e, t.find? hidden = some e → e = .directory
  unset : t.find? (hidden ++ ["config.json"]) = none
  settings : t'.find? (hidden ++ ["config.json"]) = some (.file default.toJson.pretty.toUTF8)
  temporary : t.find? (hidden ++ ["config.tmp"]) ≠ some .directory
  gone : t'.find? (hidden ++ ["config.tmp"]) = none
  others : ∀ names, names ≠ hidden → names ≠ hidden ++ ["config.json"] → names ≠ hidden ++ ["config.tmp"] →
    t'.find? names = t.find? names

namespace Initialised

variable {t t' : FileTree} (h : Initialised hidden t t')
include h

theorem made : t'.find? hidden = some .directory :=
  t'.rooted hidden "config.json" (Option.isSome_iff_exists.2 ⟨_, h.settings⟩)

/-- What differs is in the hidden directory, or is that directory itself. -/
theorem find?_cases (names : List String) :
    t'.find? names = t.find? names ∨ (names = hidden ∧ t.find? hidden = none) ∨ names = hidden ++ ["config.json"] ∨
      names = hidden ++ ["config.tmp"] := by
  by_cases hhidden : names = hidden
  · cases hfind : t.find? hidden with
    | none => exact .inr (.inl ⟨hhidden, rfl⟩)
    | some e => exact .inl (by rw [hhidden, h.made, hfind, h.place e hfind])
  · by_cases hsettings : names = hidden ++ ["config.json"]
    · exact .inr (.inr (.inl hsettings))
    · by_cases htemporary : names = hidden ++ ["config.tmp"]
      · exact .inr (.inr (.inr htemporary))
      · exact .inl (h.others names hhidden hsettings htemporary)

theorem keepsDirectories : t.KeepsDirectories t' := by
  intro names hnames
  rcases h.find?_cases names with hsame | ⟨rfl, -⟩ | rfl | rfl
  · exact hsame.trans hnames
  · exact h.made
  · rw [h.unset] at hnames
    cases hnames
  · exact absurd hnames h.temporary

/-- There is nothing but the settings below a hidden directory that was missing. -/
theorem find?_below (hmissing : t.find? hidden = none) (hname : name ≠ "config.json") :
    t'.find? (hidden ++ [name]) = none := by
  by_cases htemporary : name = "config.tmp"
  · exact htemporary ▸ h.gone
  · rw [h.others _ (by simp) (by simpa using hname) (by simpa using htemporary)]
    exact FileTree.find?_below_of_ne (by simp [hmissing]) name

/-! ## Texts of files -/

/-- A path that does not pass through the hidden directory leads to where it did, unless it ends there. -/
theorem step_cases (hpath : ¬PassesThrough hidden here ps) (hsettings : here ≠ hidden ++ ["config.json"])
    (htemporary : here ≠ hidden ++ ["config.tmp"]) :
    walk here ps = hidden ∨
      t'.step here ps = t.step here ps ∧ ∀ there, t.step here ps = .ok there → t'.find? there = t.find? there := by
  induction ps generalizing here with
  | nil =>
    by_cases hhere : here = hidden
    · exact .inl hhere
    · have hsame := h.others here hhere hsettings htemporary
      refine .inr ⟨by rw [FileTree.step, FileTree.step, hsame], fun there hstep => ?_⟩
      obtain ⟨rfl, -⟩ := FileTree.step_eq_ok hstep
      exact hsame
  | cons part ps ih =>
    have hne : here ≠ hidden := fun hhere => hpath ⟨[], part, ps, rfl, hhere⟩
    have hsame := h.others here hne hsettings htemporary
    cases hhere : t.find? here with
    | none =>
      rw [FileTree.step_of_none hhere, FileTree.step_of_none (hsame.trans hhere)]
      exact .inr ⟨rfl, fun _ hthere => by cases hthere⟩
    | some e =>
      cases e with
      | file content =>
        rw [FileTree.step_of_file hhere, FileTree.step_of_file (hsame.trans hhere)]
        exact .inr ⟨rfl, fun _ hthere => by cases hthere⟩
      | directory =>
        rw [FileTree.step_of_directory hhere, FileTree.step_of_directory (hsame.trans hhere)]
        split
        · exact .inr ⟨rfl, fun _ hthere => by cases hthere⟩
        · rw [walk_cons]
          refine ih (fun hpasses => hpath hpasses.cons) ?_ ?_
          · exact FileTree.walk_ne_of_directory hhere (by simp [h.unset]) hne
          · exact FileTree.walk_ne_of_directory hhere h.temporary hne

/-- The text at a path that does not pass through the hidden directory is the same; there is none if the path leads to
the directory itself. -/
theorem readText_cases {path : String} (hhome : t'.home = t.home)
    (hstart : t.find? (t.startOf path) = some .directory)
    (hpath : ¬PassesThrough hidden (t.startOf path) (Path.parts path)) :
    t'.readText path = t.readText path ∨ walk (t.startOf path) (Path.parts path) = hidden ∧
      (∃ fault, t.readText path = .error fault) ∧ ∃ fault, t'.readText path = .error fault := by
  have hstart' : t'.startOf path = t.startOf path := by rw [FileTree.startOf, FileTree.startOf, hhome]
  have hsettings : t.startOf path ≠ hidden ++ ["config.json"] := fun heq => by
    rw [heq, h.unset] at hstart
    cases hstart
  have htemporary : t.startOf path ≠ hidden ++ ["config.tmp"] := fun heq => h.temporary (heq ▸ hstart)
  rcases h.step_cases hpath hsettings htemporary with hwalk | ⟨hstep, hfind⟩
  · refine .inr ⟨hwalk, FileTree.readText_of_directory ?_, FileTree.readText_of_directory ?_⟩
    · rw [hwalk]
      exact h.place
    · rw [hstart', hwalk, h.made]
      exact fun e he => (Option.some.inj he).symm
  · have hat : t'.at? path = t.at? path := by
      rw [FileTree.at?, FileTree.at?, FileTree.follow, FileTree.follow, hstart']
      cases hparts : FileTree.partsOf path with
      | error fault => rfl
      | ok parts =>
        obtain rfl := FileTree.partsOf_eq_ok hparts
        dsimp only
        rw [hstep]
        split
        · rfl
        · next there hthere => rw [hfind there hthere]
    exact .inl (by rw [FileTree.readText, FileTree.readText, hat])

/-! ## Settings of projects -/

/-- From a hidden directory that was missing, a path that does not go up leads to itself or to the settings. -/
theorem eq_of_step_hidden (hmissing : t.find? hidden = none) (hup : ¬GoesUpFrom hidden hidden ps)
    (hstep : t'.step hidden ps = .ok there) : there = hidden ∨ there = hidden ++ ["config.json"] := by
  induction ps with
  | nil => exact .inl (FileTree.step_eq_ok hstep).1
  | cons part ps ih =>
    have hpart : part ≠ ".." := fun heq => hup ⟨[], ps, by rw [heq]; rfl, rfl⟩
    rw [FileTree.step_of_directory h.made] at hstep
    split at hstep
    · cases hstep
    · next hshort =>
      by_cases hidle : Path.isIdle part = true
      · have hstay : walk hidden [part] = hidden := by simp [walk, hidle]
        rw [hstay] at hstep
        exact ih (fun hgoes => hup (GoesUpFrom.cons (hstay.symm ▸ hgoes))) hstep
      · have hdown : walk hidden [part] = hidden ++ [part] := by simp [walk, hidle, hpart]
        rw [hdown] at hstep
        by_cases hsettings : part = "config.json"
        · subst hsettings
          cases ps with
          | nil => exact .inr (FileTree.step_eq_ok hstep).1
          | cons next ps =>
            rw [FileTree.step_of_file h.settings] at hstep
            cases hstep
        · rw [FileTree.step_of_none (h.find?_below hmissing hsettings)] at hstep
          cases hstep

/-- Where a path leads that does not go up from a hidden directory that was missing. -/
theorem step_eq_ok_cases (hup : t.find? hidden = none → ¬GoesUpFrom hidden here ps)
    (hstep : t'.step here ps = .ok there) :
    t.step here ps = .ok there ∨ (there = hidden ∧ t.find? hidden = none) ∨ there = hidden ++ ["config.json"] := by
  induction ps generalizing here with
  | nil =>
    obtain ⟨rfl, hsome⟩ := FileTree.step_eq_ok hstep
    rcases h.find?_cases there with hsame | hmissing | hsettings | rfl
    · exact .inl (if_pos (hsame ▸ hsome))
    · exact .inr (.inl hmissing)
    · exact .inr (.inr hsettings)
    · rw [h.gone] at hsome
      cases hsome
  | cons part ps ih =>
    cases hhere : t'.find? here with
    | none =>
      rw [FileTree.step_of_none hhere] at hstep
      cases hstep
    | some e =>
      cases e with
      | file content =>
        rw [FileTree.step_of_file hhere] at hstep
        cases hstep
      | directory =>
        rcases h.find?_cases here with hsame | ⟨rfl, hmissing⟩ | rfl | rfl
        · rw [FileTree.step_of_directory hhere] at hstep
          rw [FileTree.step_of_directory (hsame.symm.trans hhere)]
          split at hstep
          · cases hstep
          · next hshort =>
            rw [if_neg hshort]
            exact ih (fun hmissing hgoes => hup hmissing hgoes.cons) hstep
        · rcases h.eq_of_step_hidden hmissing (hup hmissing) hstep with hthere | hthere
          · exact .inr (.inl ⟨hthere, hmissing⟩)
          · exact .inr (.inr hthere)
        · rw [h.settings] at hhere
          cases hhere
        · rw [h.gone] at hhere
          cases hhere

/-- A path that leads nowhere any more led to the temporary file, if to anything, and nothing was below that. -/
theorem find?_below_lost {fault : FileFault} (hstep : t'.step here ps = .error fault) (name : String) :
    ((t.step here ps).toOption.bind fun there => t.find? (there ++ [name])) = none := by
  cases hbefore : t.step here ps with
  | error _ => rfl
  | ok there =>
    have hlost : ¬(t'.find? there).isSome := fun hsome => by
      rw [h.keepsDirectories.step_eq_ok hbefore hsome] at hstep
      cases hstep
    obtain ⟨-, hsome⟩ := FileTree.step_eq_ok hbefore
    rcases h.find?_cases there with hsame | ⟨rfl, -⟩ | rfl | rfl
    · exact absurd (hsame.symm ▸ hsome) hlost
    · exact absurd (by rw [h.made]; rfl) hlost
    · exact absurd (by rw [h.settings]; rfl) hlost
    · exact FileTree.find?_below_of_ne h.temporary name

/-- A file with settings is the same, unless it is in the hidden directory. -/
theorem find?_settings_cases (there : List String) :
    t'.find? (there ++ ["config.json"]) = t.find? (there ++ ["config.json"]) ∨ there = hidden := by
  obtain ⟨way, hnamed⟩ := h.named
  rcases h.find?_cases (there ++ ["config.json"]) with hsame | ⟨heq, -⟩ | heq | heq
  · exact .inl hsame
  · exact absurd (List.append_inj' (heq.trans hnamed) rfl).2 (by decide)
  · exact .inr (List.append_inj' heq rfl).1
  · exact absurd (List.append_inj' heq rfl).2 (by decide)

/-- What a project has for settings is the same, or there was nothing and now there are the default ones. -/
theorem settings_cases {project : String} (hhome : t'.home = t.home)
    (hup : t.find? hidden = none → ¬GoesUpFrom hidden (t.startOf project) (Path.parts project)) :
    (t'.at? (path project)).toOption = (t.at? (path project)).toOption ∨
      (t.at? (path project)).toOption = none ∧
        (t'.at? (path project)).toOption = some (.file default.toJson.pretty.toUTF8) := by
  have hstart : t.startOf (path project) = t.startOf project := startOf_path t project
  have hstart' : t'.startOf (path project) = t.startOf project := by
    rw [startOf_path, FileTree.startOf, FileTree.startOf, hhome]
  cases hok : FileTree.partsOf (path project) with
  | error fault => exact .inl (by rw [FileTree.at?, FileTree.at?, FileTree.follow, FileTree.follow, hok])
  | ok parts =>
    obtain rfl := (FileTree.partsOf_eq_ok hok).trans (parts_path project)
    rw [t.toOption_at? hok isName_settings, t'.toOption_at? hok isName_settings, hstart, hstart']
    cases hstep' : t'.step (t.startOf project) (Path.parts (directory project)) with
    | error fault => exact .inl (h.find?_below_lost hstep' _).symm
    | ok there =>
      obtain ⟨hthere, -⟩ := FileTree.step_eq_ok hstep'
      have hup' : t.find? hidden = none → ¬GoesUpFrom hidden (t.startOf project) (Path.parts (directory project)) :=
        fun hmissing hgoes => hup hmissing (goesUpFrom_of_directory hgoes)
      rcases h.step_eq_ok_cases hup' hstep' with hstep | ⟨rfl, hmissing⟩ | rfl
      · rw [hstep]
        rcases h.find?_settings_cases there with hsame | rfl
        · exact .inl hsame
        · exact .inr ⟨h.unset, h.settings⟩
      · rw [hthere] at hmissing
        rw [FileTree.toOption_step_of_none hmissing]
        exact .inr ⟨rfl, h.settings⟩
      · have hunset := h.unset
        rw [hthere] at hunset
        rw [FileTree.toOption_step_of_none hunset]
        exact .inl (FileTree.find?_below_file h.settings "config.json")

/-- The same settings are loaded for every project whose path does not go up from the hidden directory, if that was
missing. -/
theorem load_eq {project : String} (hhome : t'.home = t.home)
    (hup : t.find? hidden = none → ¬GoesUpFrom hidden (t.startOf project) (Path.parts project)) :
    (load FileTree.system project t').1 = (load FileTree.system project t).1 := by
  rw [run_load, run_load]
  rcases h.settings_cases hhome hup with hsame | ⟨hnone, hsettings⟩
  · rw [hsame]
  · rw [hnone, hsettings, ofEntry_pretty]
    rfl

end Initialised

/-! ## Saving the default settings -/

section Save

variable {t : FileTree} {project : String} {c : Settings} {names : List String}

/-- Apart from its two files, saving leaves what making directories leaves. -/
theorem find?_save_eq_made (t : FileTree) (project : String) (c : Settings)
    (hsettings : names ≠ hiddenWay t project ++ ["config.json"])
    (htemporary : names ≠ hiddenWay t project ++ ["config.tmp"]) :
    (save FileTree.system project c t).2.find? names =
      (FileTree.system.makeDirectories (directory project) t).2.find? names := by
  have hhidden := hiddenWay_congr (extends_made t project).home project
  obtain ⟨failure, hsave⟩ | ⟨written, hwritten, ⟨failure, hsave⟩ | ⟨moved, hmoved, hsave⟩⟩ := save_cases t project c
  · rw [hsave]
  · have hfind := (find?_written hwritten).2
    rw [hhidden] at hfind
    rw [hsave, hfind, if_neg htemporary.symm]
  · obtain ⟨-, -, hfind⟩ := settings_moved hwritten hmoved
    rw [hhidden] at hfind
    rw [hsave, hfind names hsettings htemporary]

/-- Whatever was there stays as it was, apart from the two files that settings are saved with. -/
theorem find?_save {e : FileEntry} (h : t.find? names = some e)
    (hsettings : names ≠ hiddenWay t project ++ ["config.json"])
    (htemporary : names ≠ hiddenWay t project ++ ["config.tmp"]) :
    (save FileTree.system project c t).2.find? names = some e := by
  rw [find?_save_eq_made t project c hsettings htemporary]
  exact (extends_made t project).keeps names e h

/-- In a project that exists, no directory is made but the hidden one. -/
theorem find?_made (hproject : t.isDirectory project = true) (hhidden : names ≠ hiddenWay t project) :
    (FileTree.system.makeDirectories (directory project) t).2.find? names = t.find? names := by
  rcases eq_or_madeFor (extends_made t project) names with hsame | ⟨-, -, heq | ⟨before, ⟨after, hsplit⟩, -, hstep⟩⟩
  · exact hsame
  · exact absurd heq hhidden
  · obtain ⟨there, hthere⟩ := FileTree.step_of_isDirectory hproject
    rw [← hsplit, FileTree.step_append, hstep] at hthere
    cases hthere

/-- Saving the default settings initialises a project that exists and has no settings. -/
theorem initialised_save (hsave : (save FileTree.system project default t).1 = .ok ())
    (hproject : t.isDirectory project = true) (hunset : t.find? (hiddenWay t project ++ ["config.json"]) = none) :
    Initialised (hiddenWay t project) t (save FileTree.system project default t).2 := by
  have hkeeps := (extends_made t project).keeps
  have hhidden := hiddenWay_congr (extends_made t project).home project
  obtain ⟨failure, hfails⟩ | ⟨written, hwritten, ⟨failure, hfails⟩ | ⟨moved, hmoved, hmove⟩⟩ :=
    save_cases t project default
  · rw [hfails] at hsave
    cases hsave
  · rw [hfails] at hsave
    cases hsave
  · obtain ⟨hwritten', hwrite⟩ := find?_written hwritten
    obtain ⟨content, hcontent, -, hfind⟩ := find?_moved hmoved
    obtain ⟨-, hgone, -⟩ := settings_moved hwritten hmoved
    obtain ⟨-, -, -, -, hdirectories, -⟩ :=
      FileTree.writeFile_eq_ok hwritten (parts_temporaryPath project) isName_temporary
    rw [hwritten', hwrite, if_pos rfl, Option.some.injEq] at hcontent
    rw [hhidden] at hwrite hgone
    rw [hwritten', hhidden] at hfind
    have hsettings : moved.find? (hiddenWay t project ++ ["config.json"]) =
        some (.file default.toJson.pretty.toUTF8) := by
      rw [hfind, if_pos rfl, hcontent]
    have hmade : moved.find? (hiddenWay t project) = some .directory :=
      moved.rooted _ "config.json" (Option.isSome_iff_exists.2 ⟨_, hsettings⟩)
    have hothers : ∀ names, names ≠ hiddenWay t project ++ ["config.json"] →
        names ≠ hiddenWay t project ++ ["config.tmp"] →
        moved.find? names = (FileTree.system.makeDirectories (directory project) t).2.find? names := by
      intro names hne hne'
      have hsaved := find?_save_eq_made t project default hne hne'
      rwa [hmove] at hsaved
    rw [hmove]
    refine ⟨⟨_, rfl⟩, fun e he => ?_, hunset, hsettings, fun htemporary => ?_, hgone, fun names hne hne' hne'' => ?_⟩
    · rw [hothers _ (by simp) (by simp), hkeeps _ e he] at hmade
      exact Option.some.inj hmade
    · have hfile := hdirectories _ (hkeeps _ _ htemporary)
      rw [hwrite, if_pos rfl] at hfile
      cases hfile
    · rw [hothers names hne' hne'', find?_made hproject hne]

end Save

end Settings

end ArchFlow
