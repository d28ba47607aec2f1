import ArchFlow.Proofs.Flow.Survey

/-!
# Drawings are determined by what they show

A drawing has the children of each element at its first occurrence above the bound, and a leaf everywhere else. No other
tree does: from the root down, in pre-order, what an occurrence links to follows from the occurrences before it.

* `exists_first`, `first_unique`: an element that occurs above the bound occurs first at one place.
* `Survey.Draws.unique`: trees with the same root that are drawn from the same survey are equal.
* `Survey.eq_tree_iff`: the drawing from a root is the only tree that is drawn so.
-/

namespace ArchFlow

/-- An element occurs first above a depth, given the occurrences before. -/
def Occurrence.IsFirst (m : Nat) (before : List Occurrence) (o : Occurrence) : Prop :=
  o.depth < m ∧ ∀ o' ∈ before, o'.id = o.id → m ≤ o'.depth

instance (m : Nat) (before : List Occurrence) (o : Occurrence) : Decidable (o.IsFirst m before) :=
  inferInstanceAs (Decidable (_ ∧ _))

theorem isFirst_iff {m : Nat} {before : List Occurrence} {o : Occurrence} :
    o.IsFirst m before ↔ o.depth < m ∧ o.id ∉ idsAbove m before := by
  refine and_congr_right fun _ => ⟨fun h hmem => ?_, fun h o' ho' hid => ?_⟩
  · obtain ⟨o', ho', hlt, hid⟩ := mem_idsAbove.1 hmem
    exact Nat.not_le_of_lt hlt (h o' ho' hid)
  · exact Nat.le_of_not_lt fun hlt => h (mem_idsAbove.2 ⟨o', ho', hlt, hid⟩)

/-- An element that occurs above a depth occurs first above it somewhere. -/
theorem exists_first {m : Nat} {os : List Occurrence} {o : Occurrence} (ho : o ∈ os) (hlt : o.depth < m) :
    ∃ before p after, os = before ++ p :: after ∧ p.id = o.id ∧ p.IsFirst m before := by
  have hsome : (os.find? fun p => p.depth < m ∧ p.id = o.id).isSome :=
    List.find?_isSome.2 ⟨o, ho, by simp [hlt]⟩
  obtain ⟨p, hp⟩ := Option.isSome_iff_exists.1 hsome
  obtain ⟨hfound, before, after, hsplit, hbefore⟩ := List.find?_eq_some_iff_append.1 hp
  obtain ⟨hplt, hid⟩ := of_decide_eq_true hfound
  refine ⟨before, p, after, hsplit, hid, hplt, fun q hq hqid => Nat.le_of_not_lt fun hqlt => ?_⟩
  simpa [hqlt, hqid, hid] using hbefore q hq

/-- It does so only once. -/
theorem first_unique {m : Nat} {before before' after after' : List Occurrence} {o o' : Occurrence}
    (h : before ++ o :: after = before' ++ o' :: after') (hid : o.id = o'.id) (ho : o.IsFirst m before)
    (ho' : o'.IsFirst m before') : before = before' := by
  rcases List.append_eq_append_iff.1 h with ⟨between, rfl, hrest⟩ | ⟨between, rfl, hrest⟩
  · cases between with
    | nil => rw [List.append_nil]
    | cons p between =>
      cases hrest
      exact absurd ho.1 (Nat.not_lt_of_le (ho'.2 o (by simp) hid))
  · cases between with
    | nil => rw [List.append_nil]
    | cons p between =>
      cases hrest
      exact absurd ho'.1 (Nat.not_lt_of_le (ho.2 o' (by simp) hid.symm))

namespace Survey

variable {v : Survey} {m : Nat}

namespace Draws

variable {seen seen' seen'' : List ElementId}

/-! ## Parts of a drawing -/

theorem append_left {os us : List Occurrence} (h : v.Draws m (os ++ us) seen seen') :
    v.Draws m os seen (idsAbove m os ++ seen) where
  nodes o ho := h.nodes o (List.mem_append_left _ ho)
  children := (along_append.1 h.children).1
  seen id := by rw [List.mem_append, or_comm]

theorem append_right {os us : List Occurrence} (h : v.Draws m (os ++ us) seen seen') :
    v.Draws m us (idsAbove m os ++ seen) seen' where
  nodes o ho := h.nodes o (List.mem_append_right _ ho)
  children := (along_append.1 h.children).2.imp fun before o _ ho => by
    have hseen : (o.id ∈ seen ∨ o.id ∈ idsAbove m (os ++ before)) ↔
        (o.id ∈ idsAbove m os ++ seen ∨ o.id ∈ idsAbove m before) := by
      rw [idsAbove_append, List.mem_append, List.mem_append, or_assoc]
      exact or_left_comm
    simp only [ho, hseen]
  seen id := by
    rw [h.seen, idsAbove_append, List.mem_append, List.mem_append, or_assoc]
    exact or_left_comm

/-! ## Uniqueness -/

/-- The trees of two drawings that start from the same links are the same, if the trees of each of the links are. -/
theorem forest_unique {above : List ElementId} {ts : List FlowTree}
    (h : ∀ t ∈ ts, ∀ u seen seen' seen'', link t = link u → v.Draws m (t.occurrencesBelow above) seen seen' →
      v.Draws m (u.occurrencesBelow above) seen seen'' → t = u) :
    ∀ us seen seen' seen'', ts.map link = us.map link → v.Draws m (FlowTree.forestBelow above ts) seen seen' →
      v.Draws m (FlowTree.forestBelow above us) seen seen'' → ts = us := by
  induction ts with
  | nil =>
    intro us _ _ _ hlinks _ _
    exact (List.map_eq_nil_iff.1 hlinks.symm).symm
  | cons t ts ih =>
    intro us seen seen' seen'' hlinks hts hus
    cases us with
    | nil => cases hlinks
    | cons u us =>
      obtain ⟨hlink, hrest⟩ := List.cons.inj hlinks
      cases h t List.mem_cons_self u _ _ _ hlink hts.append_left hus.append_left
      cases ih (fun t ht => h t (List.mem_cons_of_mem _ ht)) us _ _ _ hrest hts.append_right hus.append_right
      rfl

/-- Drawings of the same element from the same survey are the same tree, as long as they start with the same elements
expanded. -/
theorem unique (t : FlowTree) :
    ∀ {above : List ElementId} {u : FlowTree} {seen seen' seen'' : List ElementId}, link t = link u →
      v.Draws m (t.occurrencesBelow above) seen seen' → v.Draws m (u.occurrencesBelow above) seen seen'' → t = u := by
  induction t using FlowTree.induct with
  | node t ih =>
    intro above u seen seen' seen'' hlink ht hu
    have hid : t.id = u.id := congrArg Prod.snd hlink
    rw [FlowTree.occurrencesBelow_eq] at ht hu
    obtain ⟨htlabel, htattributes⟩ := ht.nodes _ List.mem_cons_self
    obtain ⟨hulabel, huattributes⟩ := hu.nodes _ List.mem_cons_self
    have htchildren := (along_cons.1 ht.children).1
    have huchildren := (along_cons.1 hu.children).1
    -- at the root both have the links that its element has there, and the children start with the same elements marked
    have hlinks : t.children.map link = u.children.map link := by
      simp only [Occurrence.depth, Occurrence.id, hid] at htchildren huchildren
      exact htchildren.trans huchildren.symm
    have hmarked : idsAbove m [⟨above, t⟩] = idsAbove m [⟨above, u⟩] := by
      by_cases hlt : above.length < m <;> simp [idsAbove, Occurrence.depth, Occurrence.id, hlt, hid]
    have htforest : v.Draws m ([⟨above, t⟩] ++ FlowTree.forestBelow (t.id :: above) t.children) seen seen' := ht
    have huforest : v.Draws m ([⟨above, u⟩] ++ FlowTree.forestBelow (u.id :: above) u.children) seen seen'' := hu
    have htrest := htforest.append_right
    rw [hid, hmarked] at htrest
    have hchildren : t.children = u.children :=
      forest_unique (fun c hc _ _ _ _ => ih c hc) u.children _ _ _ hlinks htrest huforest.append_right
    obtain ⟨id, label, attributes, via, children⟩ := t
    obtain ⟨id', label', attributes', via', children'⟩ := u
    cases hid
    cases (congrArg Prod.fst hlink : via = via')
    cases (hchildren : children = children')
    cases (htlabel.trans hulabel.symm : label = label')
    cases (htattributes.trans huattributes.symm : attributes = attributes')
    rfl

end Draws

/-- The drawing from a root is the only tree that is drawn from it. -/
theorem eq_tree_iff {root : ElementId} {t : FlowTree} :
    t = v.tree m root ↔ t.id = root ∧ t.via = none ∧ ∃ seen, v.Draws m t.occurrences [] seen := by
  constructor
  · rintro rfl
    exact ⟨congrArg Prod.snd link_tree, congrArg Prod.fst link_tree, _, tree_draws⟩
  · rintro ⟨hid, hvia, seen, hdraws⟩
    have hlink : link t = (none, root) := Prod.ext hvia hid
    exact Draws.unique t (hlink.trans link_tree.symm) hdraws tree_draws

end Survey

end ArchFlow
