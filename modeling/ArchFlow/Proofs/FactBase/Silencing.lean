import ArchFlow.Proofs.FactBase.Steady

/-!
# Predictable sources

A source is predictable if each request to it either always fails, with whatever failure, or always gets the same
answer. Then it is settled from the start which attributes and which links fail to load. A source that fails hides what
its siblings answer, since the first failure fails the whole request. Silencing replaces the failing requests as a
whole: for an attribute or for links that fail to load for an element, no source has anything to say about the element
any more.

* `FactBase.Settled`: states in which everything goes as at the start.
* `FactBase.Predictable.keeps`: queries lead from such states to such states.
* `FactBase.silenced`: the base in which nothing fails, and `FactBase.resolve?_silenced`, `FactBase.targets_silenced`
  for what it answers.
-/

namespace ArchFlow

variable {ω : Type}

/-- A request either always fails, or always gets the same answer. -/
def Loader.Predictable {α : Type} (load : Loader ω α) : Prop := ∀ w w', (load w').1.toOption = (load w).1.toOption

/-- If nothing but failures tells two results apart, either both are failures or they are the same value. -/
theorem failures_or_same {α : Type} {r r' : Except Failure α} (h : r'.toOption = r.toOption) :
    (∃ failure failure', r = .error failure ∧ r' = .error failure') ∨ ∃ a, r = .ok a ∧ r' = .ok a := by
  rcases r with failure | a <;> rcases r' with failure' | a'
  · exact .inl ⟨failure, failure', rfl, rfl⟩
  · cases h
  · cases h
  · cases h
    exact .inr ⟨a, rfl, rfl⟩

namespace FactBase

variable {b : FactBase ω}

/-- The sources are predictable, and links lead to registered elements only. -/
structure Predictable (b : FactBase ω) : Prop where
  attributes : ∀ r ∈ b.attributes, ∀ id, (r.load id).Predictable
  links : ∀ r ∈ b.links, ∀ id, (r.load id).Predictable
  closed : ∀ r ∈ b.links, ∀ id w es, (r.load id w).1 = .ok es → ∀ e ∈ es, (b.types.lookup e.id).isSome = true

/-- A state in which only registered elements are known, with the values that they have at the start. -/
structure Settled (b : FactBase ω) (w : ω) (s : State ω) : Prop where
  met : s.met = []
  resolved : ∀ name id value, s.resolved.lookup (name, id) = some value →
    (b.resolve? name id (.fresh w)).1.toOption = some value

/-! ## What predictable sources answer -/

theorem firstValue_predictable (id : ElementId) (type : ElementType) {rs : List (AttributeSource ω)}
    (h : ∀ r ∈ rs, (r.load id).Predictable) :
    ∀ w w', (firstValue id type rs w').1.toOption = (firstValue id type rs w).1.toOption := by
  induction rs with
  | nil => intro w w'; rfl
  | cons r rs ih =>
    intro w w'
    have ih := ih fun r hr => h r (List.mem_cons_of_mem _ hr)
    rw [firstValue_cons, firstValue_cons]
    split
    · obtain ⟨_, _, hw, hw'⟩ | ⟨answer, hw, hw'⟩ := failures_or_same (h r List.mem_cons_self w w')
      · rw [hw, hw']
        rfl
      · rw [hw, hw']
        dsimp only
        split
        · rfl
        · exact ih _ _
    · exact ih _ _

theorem ask_predictable (source : ElementId) (type : ElementType) {rs : List (LinkSource ω)}
    (h : ∀ r ∈ rs, (r.load source).Predictable) :
    ∀ found s s', (b.ask source type rs found s').1.toOption = (b.ask source type rs found s).1.toOption := by
  induction rs with
  | nil => intro found s s'; rfl
  | cons r rs ih =>
    intro found s s'
    have ih := ih fun r hr => h r (List.mem_cons_of_mem _ hr)
    rw [ask_cons, ask_cons]
    split
    · obtain ⟨_, _, hs, hs'⟩ | ⟨answer, hs, hs'⟩ := failures_or_same (h r List.mem_cons_self s.world s'.world)
      · rw [hs, hs']
        rfl
      · rw [hs, hs']
        exact ih _ _ _
    · exact ih _ _ _

theorem Settled.typeOf? {w : ω} {s : State ω} (hs : b.Settled w s) (id : ElementId) :
    b.typeOf? s id = b.typeOf? (.fresh w) id := by
  rw [FactBase.typeOf?, FactBase.typeOf?, hs.met]
  rfl

theorem settled_fresh (b : FactBase ω) (w w' : ω) : b.Settled w (.fresh w') := ⟨rfl, nofun⟩

theorem Settled.world {w : ω} {s : State ω} (hs : b.Settled w s) (w' : ω) : b.Settled w { s with world := w' } :=
  ⟨hs.met, hs.resolved⟩

namespace Predictable

variable (hb : b.Predictable) {w : ω} {s : State ω} (hs : b.Settled w s)
include hb hs

/-- Whether an attribute fails to load, and its value if not, is settled from the start. -/
theorem resolve?_eq (name : String) (id : ElementId) :
    (b.resolve? name id s).1.toOption = (b.resolve? name id (.fresh w)).1.toOption := by
  cases hlookup : s.resolved.lookup (name, id) with
  | some value =>
    have hfirst := hs.resolved name id value hlookup
    rw [hfirst, resolve?_fst, hlookup, hs.typeOf? id]
    rw [resolve?_fst] at hfirst
    split at hfirst
    · cases hfirst
    · rfl
  | none =>
    rw [resolve?_fst, resolve?_fst, hlookup, hs.typeOf? id]
    split
    · rfl
    · next type _ => exact firstValue_predictable id type (fun r hr => hb.attributes r (List.mem_filter.1 hr).1 id) _ _

/-- Whether links fail to load, and their targets if not, is settled from the start. -/
theorem targets_eq (link : LinkType) (id : ElementId) :
    (b.targets link id s).1.toOption = (b.targets link id (.fresh w)).1.toOption := by
  rw [targets, targets, hs.typeOf? id]
  split
  · rfl
  · next type _ => exact ask_predictable id type (fun r hr => hb.links r (List.mem_filter.1 hr).1 id) _ _ _

omit hs in
/-- Queries keep a state settled. -/
theorem keeps (w : ω) : b.Keeps (b.Settled w) where
  resolve name id s hs := by
    refine ⟨(b.resolve?_met name id s).trans hs.met, fun name' id' value h => ?_⟩
    rcases b.resolve?_lookup name id s (name', id') with hold | ⟨hkey, value', hnew, hvalue⟩
    · exact hs.resolved name' id' value (hold ▸ h)
    · cases hkey
      cases hnew.symm.trans h
      exact (hb.resolve?_eq hs name id).symm.trans (congrArg Except.toOption hvalue)
  targets link id s hs := by
    have hmet := targets_met hb.closed link id s
    exact ⟨hmet.trans hs.met, fun name id' value h => hs.resolved name id' value (targets_resolved link id s ▸ h)⟩

end Predictable

/-! ## Silenced requests -/

/-- A loader with a fixed answer in place of its own ones, for elements for which there is a failure. -/
def silence {α : Type} (fails : ElementId → Bool) (a : α) (load : ElementId → Loader ω α) (id : ElementId) :
    Loader ω α :=
  if fails id then .constant a else load id

section Silence

variable {α : Type} {fails : ElementId → Bool} {a : α} {load : ElementId → Loader ω α} {id : ElementId}

theorem silence_of_fails (h : fails id = true) : silence fails a load id = .constant a := if_pos h

theorem silence_of_not_fails (h : fails id = false) : silence fails a load id = load id :=
  if_neg (Bool.eq_false_iff.1 h)

theorem predictable_silence (h : (load id).Predictable) : (silence fails a load id).Predictable := by
  rw [silence]
  split
  · exact fun _ _ => rfl
  · exact h

end Silence

/-- The attribute fails to load for the element. -/
def failsToResolve (b : FactBase ω) (w : ω) (name : String) (id : ElementId) : Bool :=
  (b.resolve? name id (.fresh w)).1.toOption.isNone

/-- The links fail to load for the element. -/
def failsToExplore (b : FactBase ω) (w : ω) (link : LinkType) (id : ElementId) : Bool :=
  (b.targets link id (.fresh w)).1.toOption.isNone

/-- A source that has no value for elements for which the attribute fails to load. -/
def silenceAttribute (b : FactBase ω) (w : ω) (r : AttributeSource ω) : AttributeSource ω :=
  { r with load := silence (b.failsToResolve w r.name) none r.load }

/-- A source that has no targets for elements for which the links fail to load. -/
def silenceLinks (b : FactBase ω) (w : ω) (r : LinkSource ω) : LinkSource ω :=
  { r with load := silence (b.failsToExplore w r.linkType) [] r.load }

/-- The base whose sources have nothing to say where they fail, alone or together. -/
def silenced (b : FactBase ω) (w : ω) : FactBase ω where
  slots := b.slots
  types := b.types
  attributes := b.attributes.map (b.silenceAttribute w)
  links := b.links.map (b.silenceLinks w)

/-- What is silenced is as predictable as before. -/
theorem Predictable.silenced (hb : b.Predictable) (w : ω) : (b.silenced w).Predictable where
  attributes r' hr' id := by
    obtain ⟨r, hr, rfl⟩ := List.mem_map.1 hr'
    exact predictable_silence (hb.attributes r hr id)
  links r' hr' id := by
    obtain ⟨r, hr, rfl⟩ := List.mem_map.1 hr'
    exact predictable_silence (hb.links r hr id)
  closed r' hr' id w' es hes := by
    obtain ⟨r, hr, rfl⟩ := List.mem_map.1 hr'
    dsimp only [silenceLinks] at hes
    cases hfails : b.failsToExplore w r.linkType id with
    | true =>
      rw [silence_of_fails hfails] at hes
      cases hes
      exact nofun
    | false =>
      rw [silence_of_not_fails hfails] at hes
      exact hb.closed r hr id w' es hes

/-! ### What is left of failures -/

theorem firstValue_map_congr {f : AttributeSource ω → AttributeSource ω} {id : ElementId} {type : ElementType}
    {rs : List (AttributeSource ω)} (h : ∀ r ∈ rs, (f r).elementType = r.elementType ∧ (f r).load id = r.load id) :
    ∀ w, firstValue id type (rs.map f) w = firstValue id type rs w := by
  induction rs with
  | nil => intro w; rfl
  | cons r rs ih =>
    intro w
    obtain ⟨htype, hload⟩ := h r List.mem_cons_self
    have ih := ih fun r hr => h r (List.mem_cons_of_mem _ hr)
    simp only [List.map_cons, firstValue_cons, htype, hload, ih]

theorem firstValue_silent {id : ElementId} {type : ElementType} {rs : List (AttributeSource ω)}
    (h : ∀ r ∈ rs, r.load id = .constant none) : ∀ w, firstValue id type rs w = (.ok none, w) := by
  induction rs with
  | nil => intro w; rfl
  | cons r rs ih =>
    intro w
    have ih := ih fun r hr => h r (List.mem_cons_of_mem _ hr)
    rw [firstValue_cons, h r List.mem_cons_self]
    split
    · exact ih w
    · exact ih w

theorem ask_map_congr {b b' : FactBase ω} (htypes : b'.types = b.types) {f : LinkSource ω → LinkSource ω}
    {source : ElementId} {type : ElementType} {rs : List (LinkSource ω)}
    (h : ∀ r ∈ rs, (f r).sourceType = r.sourceType ∧ (f r).targetType = r.targetType ∧
      (f r).load source = r.load source) :
    ∀ found s, b'.ask source type (rs.map f) found s = b.ask source type rs found s := by
  have hremember : b'.remember = b.remember := by
    funext met e
    rw [remember, remember, htypes]
  induction rs with
  | nil => intro found s; rfl
  | cons r rs ih =>
    intro found s
    obtain ⟨hsource, htarget, hload⟩ := h r List.mem_cons_self
    have ih := ih fun r hr => h r (List.mem_cons_of_mem _ hr)
    simp only [List.map_cons, ask_cons, hsource, htarget, hload, hremember, ih]

theorem ask_silent {source : ElementId} {type : ElementType} {rs : List (LinkSource ω)}
    (h : ∀ r ∈ rs, r.load source = .constant []) : ∀ s, b.ask source type rs [] s = (.ok [], s) := by
  induction rs with
  | nil => intro s; rfl
  | cons r rs ih =>
    intro s
    have ih := ih fun r hr => h r (List.mem_cons_of_mem _ hr)
    rw [ask_cons, h r List.mem_cons_self]
    split
    · exact ih s
    · exact ih s

variable (b) (w : ω)

/-- Silencing leaves the values of attributes, and no value where there was a failure. -/
theorem resolve?_silenced (name : String) (id : ElementId) :
    ((b.silenced w).resolve? name id (.fresh w)).1.toOption.join =
      (b.resolve? name id (.fresh w)).1.toOption.join := by
  have htype : (b.silenced w).typeOf? (.fresh w) id = b.typeOf? (.fresh w) id := rfl
  have hsources : ((b.silenced w).attributes.filter fun r => r.name = name) =
      (b.attributes.filter fun r => r.name = name).map (b.silenceAttribute w) := List.filter_map
  have hname : ∀ r ∈ b.attributes.filter fun r => r.name = name, r.name = name := fun r hr =>
    of_decide_eq_true (List.mem_filter.1 hr).2
  cases hfails : b.failsToResolve w name id with
  | true =>
    have hsilent : ∀ r ∈ (b.attributes.filter fun r => r.name = name).map (b.silenceAttribute w),
        r.load id = .constant none := by
      intro r' hr'
      obtain ⟨r, hr, rfl⟩ := List.mem_map.1 hr'
      exact silence_of_fails (hname r hr ▸ hfails)
    rw [Option.isNone_iff_eq_none.1 hfails, resolve?_fst, htype, hsources]
    split
    · rfl
    · exact congrArg (·.1.toOption.join) (firstValue_silent hsilent w)
  | false =>
    have hsame : ∀ r ∈ b.attributes.filter fun r => r.name = name,
        (b.silenceAttribute w r).elementType = r.elementType ∧ (b.silenceAttribute w r).load id = r.load id :=
      fun r hr => ⟨rfl, silence_of_not_fails (hname r hr ▸ hfails)⟩
    rw [resolve?_fst, resolve?_fst, htype, hsources]
    split
    · rfl
    · exact congrArg (·.1.toOption.join) (firstValue_map_congr hsame w)

/-- Silencing leaves the targets of links, and none where there was a failure. -/
theorem targets_silenced (link : LinkType) (id : ElementId) :
    ((b.silenced w).targets link id (.fresh w)).1.toOption.getD [] =
      (b.targets link id (.fresh w)).1.toOption.getD [] := by
  have htype : (b.silenced w).typeOf? (.fresh w) id = b.typeOf? (.fresh w) id := rfl
  have hsources : ((b.silenced w).links.filter fun r => r.linkType = link) =
      (b.links.filter fun r => r.linkType = link).map (b.silenceLinks w) := List.filter_map
  have hlink : ∀ r ∈ b.links.filter fun r => r.linkType = link, r.linkType = link := fun r hr =>
    of_decide_eq_true (List.mem_filter.1 hr).2
  cases hfails : b.failsToExplore w link id with
  | true =>
    have hsilent : ∀ r ∈ (b.links.filter fun r => r.linkType = link).map (b.silenceLinks w),
        r.load id = .constant [] := by
      intro r' hr'
      obtain ⟨r, hr, rfl⟩ := List.mem_map.1 hr'
      exact silence_of_fails (hlink r hr ▸ hfails)
    rw [Option.isNone_iff_eq_none.1 hfails, targets, htype, hsources]
    split
    · rfl
    · exact congrArg (·.1.toOption.getD []) (ask_silent hsilent (.fresh w))
  | false =>
    have hsame : ∀ r ∈ b.links.filter fun r => r.linkType = link,
        (b.silenceLinks w r).sourceType = r.sourceType ∧ (b.silenceLinks w r).targetType = r.targetType ∧
          (b.silenceLinks w r).load id = r.load id :=
      fun r hr => ⟨rfl, rfl, silence_of_not_fails (hlink r hr ▸ hfails)⟩
    have htypes : (b.silenced w).types = b.types := rfl
    rw [targets, targets, htype, hsources]
    split
    · rfl
    · exact congrArg (·.1.toOption.getD []) (ask_map_congr htypes hsame [] (.fresh w))

end FactBase

end ArchFlow
