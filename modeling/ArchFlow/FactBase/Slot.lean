import ArchFlow.Provider

/-!
# Slots

The elements that providers enumerate for one type make up a slot. A slot holds every id once, under the narrowest of
the types that it was declared with there; an element that does not fit is a conflict.

* `Slot.place`: puts one element into a slot.
* `enumerate`: asks all root sources in turn and puts what they answer into slots.
* `typeTable`: the type of each id, over all slots.
-/

namespace ArchFlow

/-- The elements that are registered under one type. -/
structure Slot where
  type : ElementType
  elements : List Element

/-- Puts an element among those of a slot of the given type: at the end if its id is new, else the narrower of the two
types is kept. -/
def placeIn (slot : ElementType) (e : Element) : List Element → Except Conflict (List Element)
  | [] => .ok [e]
  | k :: ks =>
    if k.id = e.id then
      if k.type.refines e.type then .ok (k :: ks)
      else if e.type.refines k.type then .ok (e :: ks)
      else .error (.clash k.type e.type slot)
    else (placeIn slot e ks).map (k :: ·)

/-- Puts an element into a slot. -/
def Slot.place (s : Slot) (e : Element) : Except Failure Slot :=
  let placed := if e.type.refines s.type then placeIn s.type e s.elements else .error (.misfit e.type s.type)
  match placed with
  | .ok elements => .ok { s with elements }
  | .error conflict => .error (.conflictingRegistration e.id conflict)

/-- Puts elements into a slot, one after the other. -/
def Slot.fill (s : Slot) : List Element → Except Failure Slot
  | [] => .ok s
  | e :: es =>
    match s.place e with
    | .ok s => s.fill es
    | .error failure => .error failure

/-- Puts elements into the slot of a type, which is a new one at the end if there is none yet. -/
def enroll (type : ElementType) (es : List Element) : List Slot → Except Failure (List Slot)
  | [] => ((⟨type, []⟩ : Slot).fill es).map ([·])
  | s :: ss => if s.type = type then (s.fill es).map (· :: ss) else (enroll type es ss).map (s :: ·)

/-- Asks root sources in turn and puts what they answer into slots, up to the first failure. -/
def enumerate {ω : Type} : List (RootSource ω) → List Slot → Loader ω (List Slot)
  | [], slots, w => (.ok slots, w)
  | r :: rs, slots, w =>
    match r.load w with
    | (.error failure, w) => (.error failure, w)
    | (.ok es, w) =>
      match enroll r.slotType es slots with
      | .error failure => (.error failure, w)
      | .ok slots => enumerate rs slots w

/-! ## Types of ids -/

/-- Adds a classification of an id to what is known of it. -/
def classifyAs (id : ElementId) (type : ElementType) :
    List (ElementId × ElementType) → List (ElementId × ElementType)
  | [] => [(id, type)]
  | (k, known) :: table => if k = id then (k, known.union type) :: table else (k, known) :: classifyAs id type table

/-- The type of each id that is in a slot: what it is in any of them. -/
def typeTable (slots : List Slot) : List (ElementId × ElementType) :=
  (slots.flatMap (·.elements)).foldl (fun table e => classifyAs e.id e.type table) []

end ArchFlow
