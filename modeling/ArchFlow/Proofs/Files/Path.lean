import ArchFlow.Files.Path

/-!
# Parts of paths

A path is made of its parts, and which parts it has tells where it starts.

* `parts_ofParts`: the parts of a path that is made of parts.
* `isAbsolute_iff`: a path is absolute if its first part is empty and another one follows.
* `parts_join`: the parts of a path below another one.
-/

namespace ArchFlow.Path

/-! ## Splitting -/

theorem split_ne_nil (cs : List Char) : split cs ≠ [] := by
  cases cs with
  | nil => simp [split]
  | cons c cs =>
    rw [split]
    split
    · simp
    · split <;> simp

theorem split_cons_of_ne {c : Char} {cs part : List Char} {parts : List (List Char)} (hc : c ≠ '/')
    (h : split cs = part :: parts) : split (c :: cs) = (c :: part) :: parts := by
  rw [split, if_neg hc, h]

/-- The parts on both sides of a slash. -/
theorem split_append_slash (cs ds : List Char) : split (cs ++ '/' :: ds) = split cs ++ split ds := by
  induction cs with
  | nil => simp [split]
  | cons c cs ih =>
    by_cases hc : c = '/'
    · simp [split, hc, ih]
    · obtain ⟨part, parts, hparts⟩ := List.exists_cons_of_ne_nil (split_ne_nil cs)
      rw [hparts, List.cons_append] at ih
      rw [List.cons_append, split_cons_of_ne hc ih, split_cons_of_ne hc hparts]
      rfl

theorem split_of_not_mem {cs : List Char} (h : '/' ∉ cs) : split cs = [cs] := by
  induction cs with
  | nil => rfl
  | cons c cs ih =>
    simp only [List.mem_cons, not_or] at h
    exact split_cons_of_ne (Ne.symm h.1) (ih h.2)

/-- There is no slash in a part. -/
theorem not_mem_of_mem_split {cs part : List Char} (h : part ∈ split cs) : '/' ∉ part := by
  induction cs generalizing part with
  | nil =>
    rw [split, List.mem_singleton] at h
    simp [h]
  | cons c cs ih =>
    by_cases hc : c = '/'
    · rw [split, if_pos hc] at h
      rcases List.mem_cons.1 h with rfl | h
      · simp
      · exact ih h
    · obtain ⟨first, parts, hparts⟩ := List.exists_cons_of_ne_nil (split_ne_nil cs)
      rw [split_cons_of_ne hc hparts] at h
      rcases List.mem_cons.1 h with rfl | h
      · simpa [Ne.symm hc] using ih (hparts ▸ List.mem_cons_self)
      · exact ih (hparts ▸ List.mem_cons_of_mem _ h)

/-- Parts that are joined by slashes are found again. -/
theorem split_intercalate {ps : List (List Char)} (hne : ps ≠ []) (h : ∀ p ∈ ps, '/' ∉ p) :
    split (['/'].intercalate ps) = ps := by
  induction ps with
  | nil => exact absurd rfl hne
  | cons p ps ih =>
    have hp : split p = [p] := split_of_not_mem (h p List.mem_cons_self)
    cases ps with
    | nil => rwa [List.intercalate_singleton]
    | cons q qs =>
      have ih := ih (by simp) fun r hr => h r (List.mem_cons_of_mem _ hr)
      rw [List.intercalate_cons_cons, List.append_assoc, List.singleton_append, split_append_slash, hp, ih]
      rfl

/-! ## Parts -/

variable {path part : String} {ps : List String}

theorem not_mem_of_mem_parts (h : part ∈ parts path) : '/' ∉ part.toList := by
  obtain ⟨cs, hcs, rfl⟩ := List.mem_map.1 h
  rw [String.toList_ofList]
  exact not_mem_of_mem_split hcs

theorem parts_ne_nil (path : String) : parts path ≠ [] := by
  rw [parts, Ne, List.map_eq_nil_iff]
  exact split_ne_nil _

/-- The parts of a path that is made of parts. -/
theorem parts_ofParts (hne : ps ≠ []) (h : ∀ p ∈ ps, '/' ∉ p.toList) : parts (ofParts ps) = ps := by
  have hsplit : split (ofParts ps).toList = ps.map String.toList := by
    rw [ofParts, String.toList_intercalate]
    refine split_intercalate (by simpa using hne) fun p hp => ?_
    obtain ⟨q, hq, rfl⟩ := List.mem_map.1 hp
    exact h q hq
  rw [parts, hsplit, List.map_map]
  simp [Function.comp_def]

/-- The parts of a beginning of a path. -/
theorem parts_ofParts_of_parts {before after : List String} (hparts : parts path = before ++ part :: after) :
    parts (ofParts (before ++ [part])) = before ++ [part] := by
  refine parts_ofParts (by simp) fun p hp => ?_
  have hmem : p ∈ parts path := by
    rw [hparts]
    rcases List.mem_append.1 hp with hp | hp
    · exact List.mem_append_left _ hp
    · exact List.mem_append_right _ (List.mem_singleton.1 hp ▸ List.mem_cons_self)
  exact not_mem_of_mem_parts hmem

/-- A path is absolute if its first part is empty and another one follows. -/
theorem isAbsolute_iff : isAbsolute path = true ↔ ∃ p qs, parts path = "" :: p :: qs := by
  rw [isAbsolute, decide_eq_true_eq, parts]
  cases path.toList with
  | nil => simp [split]
  | cons c cs =>
    obtain ⟨part, parts, hparts⟩ := List.exists_cons_of_ne_nil (split_ne_nil cs)
    by_cases hc : c = '/'
    · simp [split, hc, hparts]
    · simp [split_cons_of_ne hc hparts, hc]

/-- A beginning of a path starts where the path does, if it ends in a part that is not empty. -/
theorem isAbsolute_ofParts {before after : List String} (hparts : parts path = before ++ part :: after)
    (hpart : part ≠ "") : isAbsolute (ofParts (before ++ [part])) = isAbsolute path := by
  rw [Bool.eq_iff_iff, isAbsolute_iff, isAbsolute_iff, hparts, parts_ofParts_of_parts hparts]
  cases before with
  | nil => simp [hpart]
  | cons p ps => cases ps <;> simp

/-! ## Paths below others -/

theorem parts_append_slash (base name : String) : parts (base ++ "/" ++ name) = parts base ++ parts name := by
  have htext : (base ++ "/" ++ name).toList = base.toList ++ '/' :: name.toList := by simp
  rw [parts, htext, split_append_slash, List.map_append]
  rfl

section Join

variable {base name : String} (hname : '/' ∉ name.toList)
include hname

theorem parts_of_not_mem : parts name = [name] := by
  rw [parts, split_of_not_mem hname, List.map_singleton, String.ofList_toList]

/-- The parts of a path below another one are those of the other one, without an empty one at its end, and the name. -/
theorem parts_join (base : String) :
    ∃ ps, parts (join base name) = ps ++ [name] ∧ (parts base = ps ∨ parts base = ps ++ [""]) := by
  rw [join]
  split
  · next hbase =>
    refine ⟨[], parts_of_not_mem hname, .inr ?_⟩
    rw [hbase]
    rfl
  · split
    · next hlast =>
      obtain ⟨cs, hcs⟩ := List.getLast?_eq_some_iff.1 hlast
      refine ⟨(split cs).map String.ofList, ?_, .inr ?_⟩
      · rw [parts, String.toList_append, hcs, List.append_assoc, List.singleton_append, split_append_slash,
          split_of_not_mem hname, List.map_append, List.map_singleton, String.ofList_toList]
      · rw [parts, hcs, split_append_slash, List.map_append]
        rfl
    · exact ⟨parts base, by rw [parts_append_slash, parts_of_not_mem hname], .inl rfl⟩

theorem parts_join_of_last {ps : List String} {last : String} (hbase : parts base = ps ++ [last]) (hlast : last ≠ "") :
    parts (join base name) = ps ++ [last] ++ [name] := by
  obtain ⟨qs, hqs, h | h⟩ := parts_join hname base
  · rw [hqs, ← h, hbase]
  · exact absurd (List.append_inj' (hbase.symm.trans h) rfl).2 (by simpa using hlast)

theorem isAbsolute_join (base : String) : isAbsolute (join base name) = isAbsolute base := by
  have hhead : base ≠ "" → ∀ cs, (base.toList ++ cs).head? = base.toList.head? := fun hbase cs => by
    obtain ⟨c, tail, hbase⟩ := List.exists_cons_of_ne_nil fun h => hbase (String.toList_eq_nil_iff.1 h)
    rw [hbase]
    rfl
  rw [join]
  split
  · next hbase =>
    rw [hbase, isAbsolute, isAbsolute]
    cases hcs : name.toList with
    | nil => rfl
    | cons c cs =>
      rw [hcs] at hname
      simp only [List.mem_cons, not_or] at hname
      simp [Ne.symm hname.1]
  · next hbase =>
    split
    · rw [isAbsolute, isAbsolute, String.toList_append, hhead hbase]
    · rw [isAbsolute, isAbsolute, String.append_assoc, String.toList_append, hhead hbase]

end Join

end ArchFlow.Path
