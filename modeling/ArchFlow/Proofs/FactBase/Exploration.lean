import ArchFlow.FactBase.Exploration
import ArchFlow.Proofs.List.AppendNew

/-!
# What explorations find

Asking sources in turn comes to asking them all and keeping the first target for each id, as long as none of them
fails: which targets are found does not depend on how the answers are split among the sources.

* `firstById_append`: the first elements of two lists.
* `map_id_firstById`: the ids of first elements, in order.
* `FactBase.ask_of_answers`: what sources that answer come to.
* `FactBase.ask_keeps_met`, `FactBase.targets_met`: what asking keeps of what was met.
-/

namespace ArchFlow

/-! ## First elements by id -/

section FirstById

variable {seen seen' : List ElementId} {es : List Element}

theorem firstById_congr (h : ∀ id, id ∈ seen ↔ id ∈ seen') (es : List Element) :
    firstById seen es = firstById seen' es := by
  induction es generalizing seen seen' with
  | nil => rfl
  | cons e es ih =>
    have hcons : ∀ id, id ∈ e.id :: seen ↔ id ∈ e.id :: seen' := fun id => by simp [h]
    rw [firstById, firstById, ih h, ih hcons]
    simp only [h]

/-- The ids of the first elements are those that were not seen. -/
theorem mem_ids_firstById {id : ElementId} :
    id ∈ (firstById seen es).map (·.id) ↔ id ∈ es.map (·.id) ∧ id ∉ seen := by
  induction es generalizing seen with
  | nil => simp [firstById]
  | cons e es ih =>
    rw [firstById]
    by_cases he : e.id ∈ seen
    · rw [if_pos he, ih, List.map_cons, List.mem_cons]
      constructor
      · rintro ⟨hid, hseen⟩
        exact ⟨.inr hid, hseen⟩
      · rintro ⟨rfl | hid, hseen⟩
        · exact absurd he hseen
        · exact ⟨hid, hseen⟩
    · rw [if_neg he, List.map_cons, List.mem_cons, ih, List.map_cons, List.mem_cons, List.mem_cons]
      by_cases hid : id = e.id
      · simp [hid, he]
      · simp [hid]

/-- The first elements of two lists: those of the second are not among the first. -/
theorem firstById_append (es fs : List Element) :
    firstById seen (es ++ fs) = firstById seen es ++ firstById (seen ++ (firstById seen es).map (·.id)) fs := by
  induction es generalizing seen with
  | nil => rw [List.nil_append, firstById, List.nil_append, List.map_nil, List.append_nil]
  | cons e es ih =>
    rw [List.cons_append, firstById, firstById]
    by_cases he : e.id ∈ seen
    · rw [if_pos he, if_pos he, ih]
    · rw [if_neg he, if_neg he, ih, List.cons_append]
      refine congrArg (e :: ·) (congrArg (_ ++ ·) (firstById_congr (fun id => ?_) fs))
      simp only [List.map_cons, List.mem_append, List.mem_cons]
      exact or_left_comm

theorem append_map_id_firstById (es : List Element) (seen : List ElementId) :
    seen ++ (firstById seen es).map (·.id) = appendAllNew seen (es.map (·.id)) := by
  induction es generalizing seen with
  | nil => exact List.append_nil seen
  | cons e es ih =>
    show _ = appendAllNew (appendNew seen e.id) (es.map (·.id))
    rw [firstById, appendNew]
    by_cases he : e.id ∈ seen
    · rw [if_pos he, if_pos he, ih]
    · have hseen : firstById (e.id :: seen) es = firstById (seen ++ [e.id]) es :=
        firstById_congr (fun id => by simp [or_comm]) es
      rw [if_neg he, if_neg he, ← ih, List.map_cons, hseen, List.append_assoc, List.singleton_append]

/-- The ids of the first elements, in the order in which they first occur. -/
theorem map_id_firstById (es : List Element) : (firstById [] es).map (·.id) = (es.map (·.id)).eraseDups := by
  rw [← appendAllNew_nil, ← append_map_id_firstById, List.nil_append]

theorem mem_of_mem_firstById {e : Element} (h : e ∈ firstById seen es) : e ∈ es := by
  induction es generalizing seen with
  | nil => cases h
  | cons f es ih =>
    rw [firstById] at h
    split at h
    · exact List.mem_cons_of_mem _ (ih h)
    · rcases List.mem_cons.1 h with rfl | h
      · exact List.mem_cons_self
      · exact List.mem_cons_of_mem _ (ih h)

end FirstById

namespace FactBase

variable {ω : Type} {b : FactBase ω}

/-! ## Asking in turn -/

theorem ask_cons (source : ElementId) (type : ElementType) (r : LinkSource ω) (rs : List (LinkSource ω))
    (found : List Element) (s : State ω) :
    b.ask source type (r :: rs) found s =
      if type.fits r.sourceType then
        match (r.load source s.world).1 with
        | .error failure => (.error failure, { s with world := (r.load source s.world).2 })
        | .ok answer =>
          b.ask source type rs (found ++ freshTargets r.targetType found answer)
            { s with
              met := (freshTargets r.targetType found answer).foldl b.remember s.met
              world := (r.load source s.world).2 }
      else b.ask source type rs found s := by
  rw [ask]
  rcases r.load source s.world with ⟨_ | _, w⟩ <;> rfl

/-- What a source with an answer contributes for an element of a type. -/
def offered (type : ElementType) (r : LinkSource ω) (answer : List Element) : List Element :=
  if type.fits r.sourceType then answer.filter fun e => e.type.fits r.targetType else []

/-- Sources that answer come to the first targets among all that they offer. -/
theorem ask_of_answers {ι : Type} (source : ElementId) (type : ElementType) {load : ι → LinkSource ω}
    {answer : ι → List Element} {is : List ι} (h : ∀ i ∈ is, ((load i).load source).Steady (.ok (answer i))) :
    ∀ found s, (b.ask source type (is.map load) found s).1 =
      .ok (found ++ firstById (found.map (·.id)) (is.flatMap fun i => offered type (load i) (answer i))) := by
  induction is with
  | nil => intro found s; simp [ask, firstById]
  | cons i is ih =>
    intro found s
    have ih := ih fun j hj => h j (List.mem_cons_of_mem _ hj)
    rw [List.map_cons, ask_cons, List.flatMap_cons, offered]
    split
    · rw [h i List.mem_cons_self s.world]
      dsimp only
      rw [ih, firstById_append, List.map_append, List.append_assoc]
      rfl
    · rw [ih, List.nil_append]

/-- Asking succeeds if no source fails. -/
theorem ask_ok (source : ElementId) (type : ElementType) {rs : List (LinkSource ω)}
    (h : ∀ r ∈ rs, ∀ w, ∃ es, (r.load source w).1 = .ok es) :
    ∀ found s, ∃ es, (b.ask source type rs found s).1 = .ok es := by
  induction rs with
  | nil => intro found s; exact ⟨found, rfl⟩
  | cons r rs ih =>
    intro found s
    have ih := ih fun r hr => h r (List.mem_cons_of_mem _ hr)
    obtain ⟨answer, hanswer⟩ := h r List.mem_cons_self s.world
    rw [ask_cons, hanswer]
    split
    · exact ih _ _
    · exact ih found s

/-- Exploring the links of a known element succeeds if no source fails. -/
theorem targets_ok (h : ∀ r ∈ b.links, ∀ id w, ∃ es, (r.load id w).1 = .ok es) {s : State ω} {id : ElementId}
    (hid : b.contains s id = true) (link : LinkType) : ∃ es, (b.targets link id s).1 = .ok es := by
  obtain ⟨type, htype⟩ := Option.isSome_iff_exists.1 hid
  rw [targets, htype]
  exact ask_ok id type (fun r hr => h r (List.mem_filter.1 hr).1 id) [] s

/-! ## What is met -/

theorem ask_resolved (source : ElementId) (type : ElementType) (rs : List (LinkSource ω)) :
    ∀ found s, (b.ask source type rs found s).2.resolved = s.resolved := by
  induction rs with
  | nil => intro found s; rfl
  | cons r rs ih =>
    intro found s
    rw [ask_cons]
    split
    · split
      · rfl
      · exact ih _ _
    · exact ih found s

theorem targets_resolved (link : LinkType) (source : ElementId) (s : State ω) :
    (b.targets link source s).2.resolved = s.resolved := by
  rw [targets]
  split
  · rfl
  · exact ask_resolved source _ _ [] s

/-- What is kept when a target is remembered that a source answers with is kept when sources are asked. -/
theorem ask_keeps_met {P : List (ElementId × ElementType) → Prop} (source : ElementId) (type : ElementType)
    {rs : List (LinkSource ω)}
    (h : ∀ r ∈ rs, ∀ w es, (r.load source w).1 = .ok es → ∀ e ∈ es, e.type.fits r.targetType = true →
      ∀ met, P met → P (b.remember met e)) :
    ∀ found s, P s.met → P (b.ask source type rs found s).2.met := by
  induction rs with
  | nil => intro found s hs; exact hs
  | cons r rs ih =>
    intro found s hs
    have ih := ih fun r hr => h r (List.mem_cons_of_mem _ hr)
    rw [ask_cons]
    split
    · split
      · exact hs
      · next answer hanswer =>
        refine ih _ _ (List.foldlRecOn (motive := P) _ _ hs fun met hmet e he => ?_)
        obtain ⟨he, hfits⟩ := List.mem_filter.1 (mem_of_mem_firstById he)
        exact h r List.mem_cons_self _ _ hanswer e he hfits met hmet
    · exact ih found s hs

/-- Asking for targets leaves what was met as it is, if all targets are registered. -/
theorem ask_met (source : ElementId) (type : ElementType) {rs : List (LinkSource ω)}
    (h : ∀ r ∈ rs, ∀ w es, (r.load source w).1 = .ok es → ∀ e ∈ es, (b.types.lookup e.id).isSome = true) (found s) :
    (b.ask source type rs found s).2.met = s.met := by
  refine ask_keeps_met (P := (· = s.met)) source type (fun r hr w es hes e he _ met hmet => ?_) found s rfl
  rw [remember, if_pos (h r hr w es hes e he), hmet]

/-- Links to registered elements meet nothing new. -/
theorem targets_met
    (h : ∀ r ∈ b.links, ∀ id w es, (r.load id w).1 = .ok es → ∀ e ∈ es, (b.types.lookup e.id).isSome = true)
    (link : LinkType) (source : ElementId) (s : State ω) : (b.targets link source s).2.met = s.met := by
  rw [targets]
  split
  · rfl
  · exact ask_met source _ (fun r hr => h r (List.mem_filter.1 hr).1 source) [] s

end FactBase

end ArchFlow
