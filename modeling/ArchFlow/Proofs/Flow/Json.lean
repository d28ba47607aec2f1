import ArchFlow.Flow.Json
import ArchFlow.Proofs.Flow.Occurrence
import ArchFlow.Proofs.Json.Decoding

/-!
# Which flow trees can be read back

Each level of a tree takes two levels of nesting, one for its nodes and one for the lists of their children, and the
attributes of a node take as many as its children. Of the levels that may be entered, a tree needs two for its root and
two for every level below it; if there are that many, it is read back as it is, and else the text is refused.

* `FlowTree.decoderWithin_document`: decoding a tree under a number of levels.
* `FlowTree.decode_jsonText`: the text of a tree.
-/

namespace ArchFlow

open Json (Value Decoder Members decode decode_render)
open Json.Decoder (Fields items)

/-! ## Parts of nodes -/

namespace Json

theorem Decoder.textMembers_textMap (es : List (String × String)) :
    ∀ m : SortedMap String String,
      textMembers m (Members.ofValues (es.map fun (k, v) => (k, .string v))) =
        .ok (es.foldl (fun m e => m.insert e.1 e.2) m) := by
  induction es with
  | nil => intro m; rfl
  | cons e es ih => intro m; exact ih (m.insert e.1 e.2)

theorem fits_textMap (m : SortedMap String String) : (Value.textMap m).Fits :=
  membersFit_iff.2 fun member hmember => by
    obtain ⟨e, -, rfl⟩ := List.mem_map.1 hmember
    trivial

/-- A map of texts is read back if its level may be entered. -/
theorem Decoder.textMap_textMap (nesting : Nat) (m : SortedMap String String) :
    textMap (nesting + 1) (Value.textMap m).document = .ok m :=
  (textMembers_textMap m.toList .empty).trans (congrArg Except.ok m.ofList_toList)

end Json

namespace FlowTree

variable {n nesting : Nat}

theorem decoderWithin_zero (n : Nat) (t : FlowTree) :
    decoderWithin (n + 1) 0 t.toJson.document = .error .malformed := by
  cases t
  rfl

theorem decoderWithin_one (n : Nat) (t : FlowTree) :
    decoderWithin (n + 1) 1 t.toJson.document = .error .malformed := by
  obtain ⟨id, label, attributes, via, children⟩ := t
  rfl

/-- The value of a tree; there is a member for a link only if a link led to the root. -/
theorem toJson_eq (t : FlowTree) :
    t.toJson = .object (("element_id", .string t.id) :: ("node_type", .string t.label) ::
      ("attributes", .textMap t.attributes) :: (t.via.toList.map (fun kind => ("via", .string kind)) ++
        [("children", .array (childrenToJson t.children))])) := by
  obtain ⟨id, label, attributes, via, children⟩ := t
  cases via <;> rfl

/-- A node is read back if its children are. -/
theorem decoderWithin_node (n nesting : Nat) (t : FlowTree) :
    decoderWithin (n + 1) (nesting + 2) t.toJson.document =
      (items (decoderWithin n) nesting (.ofValues (childrenToJson t.children))).map
        fun children => ⟨t.id, t.label, t.attributes, t.via, children⟩ := by
  have hlist : Decoder.list (decoderWithin n) (nesting + 1) (Value.array (childrenToJson t.children)).document =
      items (decoderWithin n) nesting (.ofValues (childrenToJson t.children)) := rfl
  have hvia : ∀ kind, Decoder.optional Decoder.text (nesting + 1) (Value.string kind).document = .ok (some kind) :=
    fun _ => rfl
  rw [toJson_eq]
  simp only [decoderWithin, Decoder.map, Decoder.record_object, Fields.required, Fields.withDefault, Fields.blank,
    Members.ofValues]
  rw [Fields.ofMembers_named, Fields.ofMembers_named, Fields.ofMembers_named, Fields.ofMembers_option hvia,
    Members.ofValues, Fields.ofMembers_named, hlist, Decoder.textMap_textMap]
  · cases items (decoderWithin n) nesting (.ofValues (childrenToJson t.children)) <;> rfl
  all_goals cases t.via <;> simp [Fields.Lacks, Members.ofValues]

/-- Trees are read back if each of them has enough levels. -/
theorem items_childrenToJson {ts : List FlowTree}
    (h : ∀ t ∈ ts, decoderWithin n nesting t.toJson.document =
      if 2 * t.height + 2 ≤ nesting then .ok t else .error .malformed) :
    items (decoderWithin n) nesting (.ofValues (childrenToJson ts)) =
      if 2 * levels ts ≤ nesting then .ok ts else .error .malformed := by
  induction ts with
  | nil => simp [childrenToJson, levels, Decoder.items_nil]
  | cons t ts ih =>
    have ih := ih fun u hu => h u (List.mem_cons_of_mem _ hu)
    rw [childrenToJson, Decoder.items_cons, h t List.mem_cons_self, ih]
    by_cases ht : 2 * t.height + 2 ≤ nesting
    · by_cases hts : 2 * levels ts ≤ nesting
      · have hall : 2 * levels (t :: ts) ≤ nesting := by simp only [levels]; omega
        rw [if_pos ht, if_pos hts, if_pos hall]
        rfl
      · have hall : ¬2 * levels (t :: ts) ≤ nesting := by simp only [levels]; omega
        rw [if_pos ht, if_neg hts, if_neg hall]
        rfl
    · have hall : ¬2 * levels (t :: ts) ≤ nesting := by simp only [levels]; omega
      rw [if_neg ht, if_neg hall]
      rfl

/-- A tree is read back if two levels may be entered for its root and for each level below it. -/
theorem decoderWithin_document (t : FlowTree) : ∀ {n nesting : Nat}, nesting < n →
    decoderWithin n nesting t.toJson.document = if 2 * t.height + 2 ≤ nesting then .ok t else .error .malformed := by
  induction t using induct with
  | node t ih =>
    intro n nesting hn
    match n, nesting with
    | n + 1, 0 => rw [decoderWithin_zero, if_neg (by omega)]
    | n + 1, 1 => rw [decoderWithin_one, if_neg (by omega)]
    | n + 1, nesting + 2 =>
      rw [decoderWithin_node, items_childrenToJson fun c hc => ih c hc (by omega), height_eq]
      by_cases hfits : 2 * levels t.children ≤ nesting
      · rw [if_pos hfits, if_pos (by omega)]
        cases t
        rfl
      · rw [if_neg hfits, if_neg (by omega)]
        rfl

/-! ## Texts of trees -/

mutual

/-- The value of a tree holds no numbers. -/
theorem fits_toJson : ∀ t : FlowTree, t.toJson.Fits
  | ⟨id, label, attributes, via, children⟩ => by
    have hmap : (Value.textMap attributes).Fits := Json.fits_textMap attributes
    have hchildren : Json.ItemsFit (childrenToJson children) := fits_childrenToJson children
    cases via <;> simp [toJson, Value.Fits, Json.MembersFit, hmap, hchildren]

theorem fits_childrenToJson : ∀ ts : List FlowTree, Json.ItemsFit (childrenToJson ts)
  | [] => trivial
  | t :: ts => ⟨fits_toJson t, fits_childrenToJson ts⟩

end

/-- The text of a tree is read back as the tree if there are at most sixty-two levels below its root, and is refused if
there are more. -/
theorem decode_jsonText (t : FlowTree) :
    decode decoder t.jsonText = if t.height ≤ 62 then .ok t else .error .malformed := by
  have hread : decode decoder t.jsonText = decoder Json.maxLevels t.toJson.document :=
    decode_render decoder .pretty (fits_toJson t)
  have hlevels : 2 * t.height + 2 ≤ Json.maxLevels ↔ t.height ≤ 62 := by
    unfold Json.maxLevels
    omega
  rw [hread, decoder, decoderWithin_document t (Nat.lt_succ_self _)]
  simp only [hlevels]

end FlowTree

end ArchFlow
