import ArchFlow.Proofs.Files.Path
import ArchFlow.Proofs.Files.Ways

/-!
# Making directories

Making a directory with all that are missing above it leaves everything as it is that is in the tree. It adds
directories alone, and these only where the path to the new directory, or a beginning of it, led to nothing.

* `FileTree.ExtendsAlong`: directories are added along a path.
* `FileTree.Extends.makeDirectories`: what becomes of a tree, whether all directories can be made or not.
-/

namespace ArchFlow

namespace FileTree

variable {t t' t₁ t₂ : FileTree} {path part : String} {here names ps qs : List String}

/-! ## Places -/

theorem partsOf_eq_ok (h : partsOf path = .ok ps) : ps = Path.parts path := by
  rw [partsOf] at h
  split at h
  · cases h
  · split at h
    · cases h
    · exact (Except.ok.inj h).symm

/-- A place is one step from a directory. -/
theorem below_eq_ok {place : { names // t.Reachable names }} (h : t.below here part = .ok place) :
    t.find? here = some .directory ∧ place.1 = walk here [part] ∧
      (t.find? place.1 = none → t.step here [part] = .error .notFound) := by
  rw [below] at h
  split at h
  · next hhere =>
    refine ⟨hhere, ?_⟩
    split at h
    · next hidle =>
      cases h
      exact ⟨by simp [walk, hidle], fun hnone => by simp [hhere] at hnone⟩
    · next hidle =>
      split at h
      · next hup =>
        split at h
        · next hparent =>
          cases h
          exact ⟨by simp [walk, hup, Path.isIdle], fun hnone => by simp [hparent] at hnone⟩
        · cases h
      · next hup =>
        split at h
        · cases h
        · next hshort =>
          cases h
          have hname : IsName part := ⟨by simpa using hidle, hup, by simpa using hshort⟩
          exact ⟨(walk_name here hname).symm, fun hnone => by rw [step_name hhere hname, hnone]; rfl⟩
  · cases h

/-- The place of a path is one step from the directory that the parts before its last one lead to. -/
theorem place_eq_ok {place : { names // t.Reachable names }} (h : t.place path = .ok place)
    (hparts : Path.parts path = ps ++ [part]) :
    partsOf path = .ok (ps ++ [part]) ∧ ∃ here, t.step (t.startOf path) ps = .ok here ∧ t.below here part = .ok place := by
  rw [FileTree.place] at h
  split at h
  · cases h
  · next parts hok =>
    obtain rfl : parts = ps ++ [part] := (partsOf_eq_ok hok).trans hparts
    refine ⟨hok, ?_⟩
    split at h
    · cases h
    · next here hhere =>
      rw [List.dropLast_concat] at hhere
      rw [List.getLast?_concat] at h
      exact ⟨here, hhere, h⟩

/-! ## Added directories -/

/-- The tree `t'` is `t` with directories added, where a beginning of the parts leads to that found nothing in `t`. -/
structure ExtendsAlong (t : FileTree) (here ps : List String) (t' : FileTree) : Prop where
  home : t'.home = t.home
  keeps : t.Keeps t'
  new : ∀ names, t.find? names = none → t'.find? names = none ∨
    t'.find? names = some .directory ∧
      ∃ before, before <+: ps ∧ names = walk here before ∧ t.step here before = .error .notFound

namespace ExtendsAlong

protected theorem refl (t : FileTree) (here ps : List String) : t.ExtendsAlong here ps t :=
  ⟨rfl, fun _ _ h => h, fun _ h => .inl h⟩

protected theorem trans (h₁ : t.ExtendsAlong here ps t₁) (h₂ : t₁.ExtendsAlong here ps t₂) :
    t.ExtendsAlong here ps t₂ where
  home := h₂.home.trans h₁.home
  keeps names e h := h₂.keeps names e (h₁.keeps names e h)
  new names hnone := by
    rcases h₁.new names hnone with h | ⟨h, hfound⟩
    · rcases h₂.new names h with h | ⟨h, before, hbegins, hnames, hstep⟩
      · exact .inl h
      · refine .inr ⟨h, before, hbegins, hnames, ?_⟩
        rcases h₁.keeps.step_or_notFound here before with hsame | hsame
        · exact hsame.trans hstep
        · exact hsame
    · exact .inr ⟨h₂.keeps names _ h, hfound⟩

theorem mono (h : t.ExtendsAlong here ps t') (hbegins : ps <+: qs) : t.ExtendsAlong here qs t' where
  home := h.home
  keeps := h.keeps
  new names hnone := by
    rcases h.new names hnone with hnone' | ⟨hnew, before, hbefore, hfound⟩
    · exact .inl hnone'
    · exact .inr ⟨hnew, before, hbefore.trans hbegins, hfound⟩

end ExtendsAlong

theorem makeDirectory_extends (h : t.makeDirectory path = .ok t') :
    t.ExtendsAlong (t.startOf path) (Path.parts path) t' := by
  rw [makeDirectory] at h
  split at h
  · cases h
  · next names hreachable hplace =>
    split at h
    · next hfree =>
      cases h
      obtain ⟨ps, part, hparts⟩ : ∃ ps part, Path.parts path = ps ++ [part] :=
        ⟨_, _, (List.dropLast_concat_getLast (Path.parts_ne_nil path)).symm⟩
      obtain ⟨-, here, hhere, hbelow⟩ := place_eq_ok hplace hparts
      obtain ⟨-, hnames, hstep⟩ := below_eq_ok hbelow
      have hfind : ∀ ways, (t.put names .directory hreachable (by simp [hfree])).find? ways =
          if names = ways then some .directory else t.find? ways := find_put hreachable (by simp [hfree])
      refine ⟨rfl, fun ways e hways => ?_, fun ways hways => ?_⟩
      · have hne : names ≠ ways := fun heq => by simp [← heq, hfree] at hways
        rw [hfind, if_neg hne, hways]
      · by_cases heq : names = ways
        · refine .inr ⟨by rw [hfind, if_pos heq], Path.parts path, List.prefix_rfl, ?_, ?_⟩
          · rw [hparts, walk_append, ← (step_eq_ok hhere).1, ← hnames]
            exact heq.symm
          · rw [hparts, step_append, hhere]
            exact hstep hfree
        · exact .inl (by rw [hfind, if_neg heq, hways])
    · cases h

/-! ## Directories that are missing above -/

theorem ExtendsAlong.startOf (h : t.ExtendsAlong here ps t') (path : String) : t'.startOf path = t.startOf path := by
  rw [FileTree.startOf, FileTree.startOf, h.home]

/-- An operation extends every tree along the given parts, which start where a path does. -/
def Extends {α : Type} (path : String) (ps : List String) (x : StateM FileTree α) : Prop :=
  ∀ t : FileTree, t.ExtendsAlong (t.startOf path) ps (x t).2

namespace Extends

variable {α β : Type} {x : StateM FileTree α} {f : α → StateM FileTree β}

protected theorem pure (path : String) (ps : List String) (a : α) : Extends path ps (pure a) := fun t => .refl t _ _

/-- One operation after the other. -/
theorem bind (hx : Extends path ps x) (hf : ∀ a, Extends path ps (f a)) : Extends path ps (x >>= f) := fun t =>
  (hx t).trans ((hx t).startOf path ▸ hf (x t).1 (x t).2)

theorem mono (hx : Extends path ps x) (hbegins : ps <+: qs) : Extends path qs x := fun t => (hx t).mono hbegins

theorem makeDirectory (path : String) : Extends path (Path.parts path) (system.makeDirectory path) := by
  intro t
  show t.ExtendsAlong _ _ (change (fun t => t.makeDirectory path) t).2
  rw [change]
  split
  · next hmake => exact makeDirectory_extends hmake
  · exact .refl t _ _

theorem unlessDirectory (path : String) (ps : List String) (of : String) (fault : FileFault) :
    Extends path ps (system.unlessDirectory of fault) := by
  refine bind (fun t => .refl t _ _) fun isDirectory => ?_
  split <;> exact .pure path ps _

/-- A directory is made where a beginning of a path leads. -/
theorem makeDirectory_ofParts {before after : List String} (hparts : Path.parts path = before ++ part :: after)
    (hpart : part ≠ "") :
    Extends path (before ++ [part]) (system.makeDirectory (Path.ofParts (before ++ [part]))) := by
  intro t
  have hstart : t.startOf (Path.ofParts (before ++ [part])) = t.startOf path := by
    rw [FileTree.startOf, FileTree.startOf, Path.isAbsolute_ofParts hparts hpart]
  have hrun := makeDirectory (Path.ofParts (before ++ [part])) t
  rwa [hstart, Path.parts_ofParts_of_parts hparts] at hrun

/-- Making the directory of a beginning of a path, and those above it that are missing, extends a tree along it. -/
theorem makeDirectoriesUp (path : String) (up : List String) :
    ∀ after, Path.parts path = up.reverse ++ after → Extends path up.reverse (system.makeDirectoriesUp up) := by
  induction up with
  | nil => exact fun _ _ => .pure path _ _
  | cons part above ih =>
    intro after hparts
    rw [List.reverse_cons, List.append_assoc, List.singleton_append] at hparts
    have habove : Extends path (part :: above).reverse (system.makeDirectoriesUp above) := (ih _ hparts).mono (by simp)
    rw [FileSystem.makeDirectoriesUp]
    split
    · exact habove
    · next hidle =>
      have hpart : part ≠ "" := fun h => hidle (by simp [Path.isIdle, h])
      have hmake := makeDirectory_ofParts hparts hpart
      rw [← List.reverse_cons] at hmake
      -- whatever its outcome is, no operation does anything but add directories
      refine bind hmake fun made => ?_
      split
      · exact .pure path _ _
      · refine bind habove fun madeAbove => ?_
        split
        · exact .pure path _ _
        · refine bind hmake fun madeAgain => ?_
          split
          · exact .pure path _ _
          · exact unlessDirectory path _ _ _
      · exact unlessDirectory path _ _ _

/-- Making a directory, and those above it that are missing, extends a tree along the path of the directory. -/
theorem makeDirectories (path : String) : Extends path (Path.parts path) (system.makeDirectories path) := by
  have hup := makeDirectoriesUp path (Path.parts path).reverse [] (by simp)
  rwa [List.reverse_reverse] at hup

end Extends

end FileTree

end ArchFlow
