import ArchFlow.Command.Run
import ArchFlow.Proofs.Json.Records
import ArchFlow.Proofs.Settings.Initialisation

/-!
# Runs print everything or nothing

A run that fails prints nothing but its message. Runs that only read leave the file tree as it is, and what they print
depends on the settings of the project and the text of the file of facts alone. To initialise a project that had no
settings makes no difference to either of them.

* `Command.run_of_reading`: what a command that reads comes to.
* `LaterRunsAgree`: runs that read, before a project was initialised and afterwards.
* `runArguments_all_or_nothing`: what runs print and what they leave of a tree.
* `roots_beside_init`: a project that is another one after a directory was made.
-/

namespace ArchFlow

/-- The tree with another working directory. -/
def FileTree.seenFrom (t : FileTree) (home : List String) : FileTree := { t with home := home }

/-- The session of a file of facts, by the settings that are loaded and the text of the file. -/
def sessionOf (facts : String) : Except Failure Settings → Except FileFault String → Except Failure (Session Unit)
  | .error failure, _ => .error failure
  | .ok _, .error fault => .error (.provider (.unreadableFacts facts fault))
  | .ok settings, .ok text =>
    match Snapshot.ofText text with
    | .error fault => .error (.json fault)
    | .ok snapshot => Session.ofSnapshots [snapshot] settings

namespace Session

/-- Opening a session depends on the settings and the text of the facts, and changes nothing. -/
theorem run_openFile (facts project : String) (t : FileTree) :
    openFile FileTree.system facts project t =
      (sessionOf facts (Settings.load FileTree.system project t).1 (t.readText facts), t) := by
  have hread : FileTree.system.readText facts t = (t.readText facts, t) := rfl
  have hload : Settings.load FileTree.system project t = ((Settings.load FileTree.system project t).1, t) := by
    rw [Settings.run_load]
  rw [openFile, Settings.run_bind, hload]
  dsimp only
  cases (Settings.load FileTree.system project t).1 with
  | error failure => rfl
  | ok settings =>
    show (readSnapshot FileTree.system facts >>= _) t = _
    rw [Settings.run_bind, readSnapshot, Settings.run_bind, hread]
    dsimp only
    cases t.readText facts with
    | error fault => rfl
    | ok text =>
      rw [sessionOf]
      dsimp only
      cases Snapshot.ofText text <;> rfl

end Session

/-! ## Commands that read -/

/-- What a command reads, and what it prints about the session that this comes to. -/
structure Reading where
  facts : String
  project : String
  answer : Session Unit → Outcome

/-- The outcome of a reading. -/
def Reading.outcome (r : Reading) (settings : Except Failure Settings) (text : Except FileFault String) : Outcome :=
  match sessionOf r.facts settings text with
  | .error failure => .failed failure
  | .ok x => r.answer x

namespace Command

variable {here : String} {c : Command} {r : Reading} {t : FileTree}

/-- The commands that read are those to list roots and to print a flow. -/
def reading? (here : String) : Command → Option Reading
  | .init _ => none
  | .roots facts kind project => some ⟨facts, project.getD here, fun x => .printed (elementLines (x.roots kind))⟩
  | .flow facts root depth format project =>
    some ⟨facts, project.getD here, fun x =>
      printFlow x root depth ((format.bind OutputFormat.ofWord?).getD .markdown)⟩

/-- A command that reads changes nothing, and prints what the settings and the text of the facts come to. -/
theorem run_of_reading (h : c.reading? here = some r) (t : FileTree) :
    c.run FileTree.system here t =
      (r.outcome (Settings.load FileTree.system r.project t).1 (t.readText r.facts), t) := by
  cases c with
  | init project => cases h
  | roots facts kind project =>
    cases h
    rw [run, Settings.run_bind, Session.run_openFile, Reading.outcome]
    dsimp only
    cases sessionOf facts (Settings.load FileTree.system (project.getD here) t).1 (t.readText facts) <;> rfl
  | flow facts root depth format project =>
    cases h
    rw [run, Settings.run_bind, Session.run_openFile, Reading.outcome]
    dsimp only
    cases sessionOf facts (Settings.load FileTree.system (project.getD here) t).1 (t.readText facts) <;> rfl

/-- The other command saves the default settings. -/
theorem run_init (project : Option String) (t : FileTree) :
    (Command.init project).run FileTree.system here t =
      match Settings.save FileTree.system (project.getD here) .default t with
      | (.error failure, t) => (.failed failure, t)
      | (.ok (), t) => (.printed ("Wrote default configuration to " ++ Settings.path (project.getD here)), t) := by
  rw [run, Settings.run_bind]
  split <;> next hsave => rw [hsave]; rfl

theorem run_init_tree (project : Option String) (t : FileTree) :
    ((Command.init project).run FileTree.system here t).2 =
      (Settings.save FileTree.system (project.getD here) .default t).2 := by
  rw [run_init]
  split <;> next hsave => rw [hsave]

theorem save_of_run_init {project : Option String}
    (h : ((Command.init project).run FileTree.system here t).1.status = 0) :
    (Settings.save FileTree.system (project.getD here) .default t).1 = .ok () := by
  rw [run_init] at h
  split at h
  · cases h
  · next hsave => rw [hsave]

theorem printFlow_cases (x : Session Unit) (root : ElementId) (depth : Option UInt64) (format : OutputFormat) :
    (∃ text, printFlow x root depth format = .printed text) ∨
      ∃ failure, printFlow x root depth format = .failed failure := by
  rw [printFlow]
  split
  · exact .inr ⟨_, rfl⟩
  · exact .inl ⟨_, rfl⟩

/-- A command prints an answer and nothing else, or fails. -/
theorem run_cases (c : Command) (here : String) (t : FileTree) :
    (∃ text, (c.run FileTree.system here t).1 = .printed text) ∨
      ∃ failure, (c.run FileTree.system here t).1 = .failed failure := by
  cases c with
  | init project =>
    rw [run_init]
    split
    · exact .inr ⟨_, rfl⟩
    · exact .inl ⟨_, rfl⟩
  | roots facts kind project =>
    rw [run_of_reading rfl, Reading.outcome]
    split
    · exact .inr ⟨_, rfl⟩
    · exact .inl ⟨_, rfl⟩
  | flow facts root depth format project =>
    rw [run_of_reading rfl, Reading.outcome]
    split
    · exact .inr ⟨_, rfl⟩
    · exact printFlow_cases ..

/-- A command that fails prints no answer. -/
theorem output_of_status_ne_zero (h : (c.run FileTree.system here t).1.status ≠ 0) :
    (c.run FileTree.system here t).1.output = "" := by
  rcases c.run_cases here t with ⟨text, hprinted⟩ | ⟨failure, hfailed⟩
  · rw [hprinted] at h
    exact absurd rfl h
  · rw [hfailed]
    rfl

end Command

/-! ## After a project was initialised -/

section Initialised

variable {hidden : List String} {t t' : FileTree} {r : Reading}

theorem Settings.Initialised.seenFrom (h : Settings.Initialised hidden t t') (home : List String) :
    Settings.Initialised hidden (t.seenFrom home) (t'.seenFrom home) := by
  obtain ⟨hnamed, hplace, hunset, hsettings, htemporary, hgone, hothers⟩ := h
  exact ⟨hnamed, hplace, hunset, hsettings, htemporary, hgone, hothers⟩

/-- A reading fails if the facts cannot be read. -/
theorem Reading.outcome_of_error (r : Reading) (settings : Except Failure Settings) (fault : FileFault) :
    ∃ failure, r.outcome settings (.error fault) = .failed failure := by
  cases settings <;> exact ⟨_, rfl⟩

/-- Readings come to the same after a project was initialised. If the path of the facts leads to the hidden directory,
they fail before and afterwards, and may say so differently. -/
theorem Reading.outcome_initialised (h : Settings.Initialised hidden t t') (hhome : t'.home = t.home)
    (hstart : t.find? t.home = some .directory)
    (hfacts : ¬PassesThrough hidden (t.startOf r.facts) (Path.parts r.facts))
    (hproject : t.find? hidden = none → ¬GoesUpFrom hidden (t.startOf r.project) (Path.parts r.project)) :
    let before := r.outcome (Settings.load FileTree.system r.project t).1 (t.readText r.facts)
    let afterwards := r.outcome (Settings.load FileTree.system r.project t').1 (t'.readText r.facts)
    afterwards.status = before.status ∧ afterwards.output = before.output ∧
      (walk (t.startOf r.facts) (Path.parts r.facts) ≠ hidden → afterwards.errors = before.errors) := by
  intro before afterwards
  have hbegin : t.find? (t.startOf r.facts) = some .directory := by
    rw [FileTree.startOf]
    split
    · rfl
    · exact hstart
  rcases h.readText_cases hhome hbegin hfacts with hsame | ⟨hwalk, ⟨fault, hfault⟩, ⟨fault', hfault'⟩⟩
  · have heq : afterwards = before := by
      show r.outcome _ _ = r.outcome _ _
      rw [h.load_eq hhome hproject, hsame]
    rw [heq]
    exact ⟨rfl, rfl, fun _ => rfl⟩
  · obtain ⟨failure, hbefore⟩ : ∃ failure, before = .failed failure := by
      show ∃ failure, r.outcome _ (t.readText r.facts) = _
      rw [hfault]
      exact r.outcome_of_error _ fault
    obtain ⟨failure', hafter⟩ : ∃ failure, afterwards = .failed failure := by
      show ∃ failure, r.outcome _ (t'.readText r.facts) = _
      rw [hfault']
      exact r.outcome_of_error _ fault'
    rw [hbefore, hafter]
    exact ⟨rfl, rfl, fun hne => absurd hwalk hne⟩

end Initialised

theorem runArguments_of_parse {args : List String} {c : Command} (h : Command.parse? args = some c) (here : String) :
    runArguments FileTree.system here args = c.run FileTree.system here := by
  rw [runArguments, h]

/-- Runs that read, in any working directory that `t` has, come to the same in both trees, if the path of the facts does
not pass through the hidden directory, and that of the project does not go up from there where it is missing in `t`.
They fail if the path of the facts leads to the hidden directory itself, and may then say so differently. -/
def LaterRunsAgree (hidden : List String) (t t' : FileTree) : Prop :=
  ∀ home, t.find? home = some .directory → ∀ here args c r,
    Command.parse? args = some c → c.reading? here = some r →
    ¬PassesThrough hidden ((t.seenFrom home).startOf r.facts) (Path.parts r.facts) →
    (t.find? hidden = none → ¬GoesUpFrom hidden ((t.seenFrom home).startOf r.project) (Path.parts r.project)) →
    let before := (runArguments FileTree.system here args (t.seenFrom home)).1
    let afterwards := (runArguments FileTree.system here args (t'.seenFrom home)).1
    afterwards.status = before.status ∧ afterwards.output = before.output ∧
      (walk ((t.seenFrom home).startOf r.facts) (Path.parts r.facts) ≠ hidden → afterwards.errors = before.errors)

theorem Settings.Initialised.laterRunsAgree {hidden : List String} {t t' : FileTree}
    (h : Settings.Initialised hidden t t') : LaterRunsAgree hidden t t' := by
  intro home hhome here args c r hparse hr hfacts hproject
  rw [runArguments_of_parse hparse, Command.run_of_reading hr, Command.run_of_reading hr]
  exact Reading.outcome_initialised (h.seenFrom home) rfl hhome hfacts hproject

/-- **Runs print everything or nothing.** A run that fails prints no answer, and a run that is not to initialise a
project leaves the file tree as it is. A run to initialise a project changes nothing that exists, apart from the two
files in the hidden directory of the project that settings are saved with. If it succeeds in a project that exists and
had no settings, later runs that read print what they would have printed without it, unless their paths lead through the
hidden directory or up from there. -/
theorem runArguments_all_or_nothing (here : String) (args : List String) (t : FileTree) :
    let ran := runArguments FileTree.system here args t
    (ran.1.status ≠ 0 → ran.1.output = "") ∧
      match Command.parse? args with
      | some (.init project) =>
        let hidden := Settings.hiddenWay t (project.getD here)
        (∀ names e, t.find? names = some e → names ≠ hidden ++ ["config.json"] → names ≠ hidden ++ ["config.tmp"] →
          ran.2.find? names = some e) ∧
        (ran.1.status = 0 → t.isDirectory (project.getD here) = true → t.find? (hidden ++ ["config.json"]) = none →
          LaterRunsAgree hidden t ran.2)
      | _ => ran.2 = t := by
  intro ran
  cases hparse : Command.parse? args with
  | none =>
    have hmisused : ran = (.misused, t) := by
      show runArguments FileTree.system here args t = _
      rw [runArguments, hparse]
      rfl
    rw [hmisused]
    exact ⟨fun _ => rfl, rfl⟩
  | some c =>
    have hrun : ran = c.run FileTree.system here t := congrFun (runArguments_of_parse hparse here) t
    rw [hrun]
    refine ⟨Command.output_of_status_ne_zero, ?_⟩
    cases c with
    | roots facts kind project => rw [Command.run_of_reading rfl]
    | flow facts root depth format project => rw [Command.run_of_reading rfl]
    | init project =>
      rw [Command.run_init_tree]
      refine ⟨fun names e he hsettings htemporary => Settings.find?_save he hsettings htemporary, ?_⟩
      intro hstatus hproject hunset
      exact (Settings.initialised_save (Command.save_of_run_init hstatus) hproject hunset).laterRunsAgree

/-! ### A project and one beside it -/

/-- The facts of one endpoint. -/
def endpointFacts : Snapshot where
  elements := [⟨some "ep", "endpoint.controller", none, ∅⟩]
  links := []

/-- A directory with the facts and nothing else. -/
def endpointTree : FileTree :=
  (FileTree.empty []).put ["facts.json"] (.file endpointFacts.toJson.pretty.toUTF8) (.inr rfl) nofun

/-- The path of the facts passes through the top alone. -/
theorem not_passesThrough_facts {way : List String} (h : way ≠ []) :
    ¬PassesThrough way [] (Path.parts "facts.json") := by
  rintro ⟨before, part, after, hsplit, rfl⟩
  have hparts : Path.parts "facts.json" = ["facts.json"] := by decide
  cases before with
  | nil => exact h rfl
  | cons name before => simp [hparts] at hsplit

/-- Roots are listed after a project was initialised as before. -/
theorem roots_after_init :
    let ran := runArguments FileTree.system "/" ["init"] endpointTree
    ran.1.status = 0 ∧ (runArguments FileTree.system "/" ["roots", "facts.json"] (ran.2.seenFrom [])).1.output =
      (runArguments FileTree.system "/" ["roots", "facts.json"] (endpointTree.seenFrom [])).1.output := by
  have hstatus : (runArguments FileTree.system "/" ["init"] endpointTree).1.status = 0 := rfl
  have hproject : endpointTree.isDirectory "/" = true := by decide
  have hunset : endpointTree.find? (Settings.hiddenWay endpointTree "/" ++ ["config.json"]) = none := by decide
  have hup : ¬GoesUpFrom (Settings.hiddenWay endpointTree "/") [] (Path.parts "/") := by
    rintro ⟨before, after, hsplit, -⟩
    have hmem : ".." ∈ Path.parts "/" := by simp [hsplit]
    revert hmem
    decide
  have hlater := (runArguments_all_or_nothing "/" ["init"] endpointTree).2
  rw [show Command.parse? ["init"] = some (.init none) by decide] at hlater
  have hroots : Command.parse? ["roots", "facts.json"] = some (.roots "facts.json" none none) := by decide
  obtain ⟨-, houtput, -⟩ := hlater.2 hstatus hproject hunset [] rfl "/" ["roots", "facts.json"] _ _ hroots rfl
    (not_passesThrough_facts (by decide)) fun _ => hup
  exact ⟨hstatus, houtput⟩

/-- Settings without kinds of elements that flows start from. -/
def rootlessSettings : Settings := { Settings.default with followLinks := [], attributes := [], rootKinds := [] }

/-- The directory with the facts, and a project in it that has settings of its own. -/
def siblingTree : FileTree :=
  let other := endpointTree.put ["other"] .directory (.inr rfl) nofun
  let hidden := other.put ["other", ".flowslice"] .directory (.inr rfl) nofun
  hidden.put ["other", ".flowslice", "config.json"] (.file rootlessSettings.toJson.pretty.toUTF8) (.inr rfl) nofun

/-- The facts are read where their file is. -/
theorem readText_endpoint {t : FileTree}
    (h : (t.at? "facts.json").toOption = some (.file endpointFacts.toJson.pretty.toUTF8)) :
    t.readText "facts.json" = .ok endpointFacts.toJson.pretty := by
  rw [FileTree.readText]
  cases hat : t.at? "facts.json" with
  | error fault =>
    rw [hat] at h
    cases h
  | ok e =>
    rw [hat] at h
    obtain rfl := Option.some.inj h
    dsimp only
    rw [Settings.fromUTF8?_toUTF8]

theorem ofText_endpoint : Snapshot.ofText endpointFacts.toJson.pretty = .ok endpointFacts :=
  (Json.decode_render Snapshot.decoder .pretty endpointFacts.fits_toJson).trans (endpointFacts.decoder_toJson _)

/-- The roots that are listed of the facts, by the settings that are loaded. -/
theorem run_roots_endpoint {t : FileTree} {project : String} {c : Settings}
    (hfacts : (t.at? "facts.json").toOption = some (.file endpointFacts.toJson.pretty.toUTF8))
    (hload : (Settings.load FileTree.system project t).1 = .ok c) :
    ((Command.roots "facts.json" none (some project)).run FileTree.system "/" t).1 =
      match Session.ofSnapshots [endpointFacts] c with
      | .error failure => .failed failure
      | .ok x => .printed (elementLines (x.roots none)) := by
  rw [Command.run_of_reading rfl, Reading.outcome, Option.getD_some, hload, readText_endpoint hfacts, sessionOf,
    ofText_endpoint]

/-- The path of a project may go up from the hidden directory that is still missing. After that directory was made, the
path leads to another project, and its settings count instead of the default ones. -/
theorem roots_beside_init :
    let ran := runArguments FileTree.system "/" ["init"] siblingTree
    let later := ["roots", "facts.json", "--path", ".flowslice/../other"]
    ran.1.status = 0 ∧ siblingTree.isDirectory "/" = true ∧
      siblingTree.find? (Settings.hiddenWay siblingTree "/" ++ ["config.json"]) = none ∧
      ¬PassesThrough (Settings.hiddenWay siblingTree "/") (siblingTree.startOf "facts.json") (Path.parts "facts.json") ∧
      (runArguments FileTree.system "/" later siblingTree).1 = .printed "ep (\x7bKind=endpoint.controller\x7d)" ∧
      (runArguments FileTree.system "/" later ran.2).1 = .printed "No root elements found" := by
  have hparse : Command.parse? ["roots", "facts.json", "--path", ".flowslice/../other"] =
      some (.roots "facts.json" none (some ".flowslice/../other")) := by decide
  have hrun := runArguments_of_parse hparse "/"
  have hdefault : (Settings.load FileTree.system ".flowslice/../other" siblingTree).1 = .ok .default := by
    rw [Settings.run_load]
    rfl
  have hother : (Settings.load FileTree.system ".flowslice/../other"
      (runArguments FileTree.system "/" ["init"] siblingTree).2).1 = .ok rootlessSettings := by
    have hat : ((runArguments FileTree.system "/" ["init"] siblingTree).2.at?
        (Settings.path ".flowslice/../other")).toOption = some (.file rootlessSettings.toJson.pretty.toUTF8) := rfl
    rw [Settings.run_load, hat]
    dsimp only
    rw [Settings.ofEntry_pretty]
  refine ⟨rfl, by decide, by decide, not_passesThrough_facts (by decide), ?_, ?_⟩
  · rw [hrun, run_roots_endpoint rfl hdefault]
    decide +kernel
  · rw [hrun, run_roots_endpoint rfl hother]
    decide +kernel

end ArchFlow
