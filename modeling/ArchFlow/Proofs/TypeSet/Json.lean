import ArchFlow.Proofs.Json.Decoding
import ArchFlow.Proofs.TypeSet.NormalForm
import ArchFlow.TypeSet.Json

/-!
# Types are read as they are built

Lists of predicates that are read from a text are brought into normal form as a whole. Joining their types one after the
other brings every union into normal form, and comes to the same: contradictory lists contribute nothing, and a list
that contains another one is absorbed, whenever that happens. So the order of the lists and their repetitions make no
difference, and the text of a type is read as the type.

* `TypeSet.ofDisjuncts_eq_joinAll`: a type that is built at once, and list by list.
* `TypeSet.ofDisjuncts_congr`: neither the order nor the number of lists and of predicates makes a difference.
* `TypeSet.decode_eq_joinAll`: what is read of lists of predicates, and of the text of a type.
-/

namespace ArchFlow

open Json (Value Members Layout Decoder decode decode_render)
open Json.Decoder (Fields)

/-! ## Sets of lists -/

namespace SortedSet

variable {α : Type} [Ord α] [Std.TransOrd α] [Std.LawfulEqOrd α]

theorem ofList_toList (s : SortedSet α) : ofList s.toList = s := ext_mem fun _ => mem_ofList

theorem ofList_congr {l m : List α} (h : ∀ a, a ∈ l ↔ a ∈ m) : ofList l = ofList m :=
  ext_mem fun a => by rw [mem_ofList, mem_ofList, h a]

end SortedSet

/-! ## Predicates -/

namespace Predicate

theorem fits_toJson (p : Predicate) : p.toJson.Fits := by simp [toJson, Value.Fits, Json.MembersFit]

theorem decoder_toJson (levels : Nat) (p : Predicate) : decoder (levels + 1) p.toJson.document = .ok p := by
  simp only [toJson, decoder, Decoder.map, Decoder.record_object, Fields.required, Fields.blank, Members.ofValues]
  rw [Fields.ofMembers_named, Fields.ofMembers_named, Decoder.text_string, Decoder.text_string]
  · rfl
  all_goals simp [Fields.Lacks]

end Predicate

namespace TypeSet

/-! ## Building types -/

/-- The union of the types of lists of predicates, one after the other. -/
def joinAll (pss : List (List Predicate)) : TypeSet := pss.foldl (fun a ps => a.union (ofPredicates ps)) empty

/-- Joining lists of predicates to conjuncts keeps all of them for the normal form. -/
theorem foldl_union_ofPredicates (pss : List (List Predicate)) :
    ∀ cs, pss.foldl (fun a ps => a.union (ofPredicates ps)) (ofConjuncts cs) =
      ofConjuncts (cs ++ pss.map SortedSet.ofList) := by
  induction pss with
  | nil => intro cs; rw [List.foldl_nil, List.map_nil, List.append_nil]
  | cons ps pss ih =>
    intro cs
    rw [List.foldl_cons, ofPredicates, union_ofConjuncts, ih, List.map_cons, List.append_assoc, List.singleton_append]

/-- A type that is built at once is built list by list. -/
theorem ofDisjuncts_eq_joinAll (pss : List (List Predicate)) : ofDisjuncts pss = joinAll pss :=
  (foldl_union_ofPredicates pss []).symm

/-- Each of the lists has the predicates of one of the others, in whatever order and number. -/
def Among (pss qss : List (List Predicate)) : Prop := ∀ ps ∈ pss, ∃ qs ∈ qss, ps ⊆ qs ∧ qs ⊆ ps

instance (pss qss : List (List Predicate)) : Decidable (Among pss qss) :=
  inferInstanceAs (Decidable (∀ ps ∈ pss, ∃ qs ∈ qss, ps ⊆ qs ∧ qs ⊆ ps))

theorem Among.coveredBy {pss qss : List (List Predicate)} (h : Among pss qss) :
    CoveredBy (pss.map SortedSet.ofList) (qss.map SortedSet.ofList) := by
  refine coveredBy_of_subset fun c hc => ?_
  obtain ⟨ps, hps, rfl⟩ := List.mem_map.1 hc
  obtain ⟨qs, hqs, hsub, hsub'⟩ := h ps hps
  exact List.mem_map.2 ⟨qs, hqs, SortedSet.ofList_congr fun p => ⟨fun h => hsub' h, fun h => hsub h⟩⟩

/-- Neither the order nor the number of lists and of predicates makes a difference. -/
theorem ofDisjuncts_congr {pss qss : List (List Predicate)} (h : Among pss qss) (h' : Among qss pss) :
    ofDisjuncts pss = ofDisjuncts qss :=
  ofConjuncts_congr h.coveredBy h'.coveredBy

/-- A type is built of its conjuncts. -/
theorem ofDisjuncts_toList (a : TypeSet) : ofDisjuncts (a.disjuncts.toList.map (·.toList)) = a := by
  have hsame : (a.disjuncts.toList.map (·.toList)).map SortedSet.ofList = a.disjuncts.toList := by
    rw [List.map_map]
    exact List.map_id'' SortedSet.ofList_toList _
  rw [ofDisjuncts, hsame, ofConjuncts_toList]

/-! ## Reading types -/

/-- Lists of predicates, written as those of a type are. -/
def disjunctsToJson (pss : List (List Predicate)) : Value :=
  .object [("disjuncts", .array (pss.map fun ps => .array (ps.map Predicate.toJson)))]

/-- Decodes the lists of predicates of a type as they are written. -/
def disjunctsDecoder : Decoder (List (List Predicate)) :=
  (Decoder.record "RawTypeSet" <|
    Fields.withDefault "disjuncts" [] (Decoder.list (Decoder.list Predicate.decoder)) .nil).map
    fun (disjuncts, _) => disjuncts

theorem decoder_eq : decoder = disjunctsDecoder.map ofDisjuncts := by
  funext levels d
  rw [decoder, disjunctsDecoder, Decoder.map, Decoder.map, Decoder.map]
  generalize Decoder.record "RawTypeSet" _ levels d = lists
  cases lists <;> rfl

theorem toJson_eq (a : TypeSet) : a.toJson = disjunctsToJson (a.disjuncts.toList.map (·.toList)) := by
  rw [toJson, disjunctsToJson, List.map_map]
  rfl

theorem fits_disjunctsToJson (pss : List (List Predicate)) : (disjunctsToJson pss).Fits :=
  ⟨Json.fits_array (fun ps => Json.fits_array Predicate.fits_toJson ps) pss, trivial⟩

theorem disjunctsDecoder_toJson (levels : Nat) (pss : List (List Predicate)) :
    disjunctsDecoder (levels + 4) (disjunctsToJson pss).document = .ok pss := by
  have hlists : Decoder.list (Decoder.list Predicate.decoder) (levels + 3)
      (Value.array (pss.map fun ps => .array (ps.map Predicate.toJson))).document = .ok pss :=
    Decoder.list_array (Decoder.list_array (Predicate.decoder_toJson levels)) pss
  simp only [disjunctsToJson, disjunctsDecoder, Decoder.map, Decoder.record_object, Fields.withDefault, Fields.blank,
    Members.ofValues]
  rw [Fields.ofMembers_named, hlists]
  · rfl
  · exact trivial

theorem decoder_disjunctsToJson (levels : Nat) (pss : List (List Predicate)) :
    decoder (levels + 4) (disjunctsToJson pss).document = .ok (ofDisjuncts pss) := by
  rw [decoder_eq, Decoder.map, disjunctsDecoder_toJson]
  rfl

theorem fits_toJson (a : TypeSet) : a.toJson.Fits := by
  rw [toJson_eq]
  exact fits_disjunctsToJson _

theorem decoder_toJson (levels : Nat) (a : TypeSet) : decoder (levels + 4) a.toJson.document = .ok a := by
  rw [toJson_eq, decoder_disjunctsToJson, ofDisjuncts_toList]

theorem decode_disjunctsToJson (layout : Layout) (pss : List (List Predicate)) :
    decode decoder ((disjunctsToJson pss).render layout) = .ok (ofDisjuncts pss) :=
  (decode_render decoder layout (fits_disjunctsToJson pss)).trans (decoder_disjunctsToJson _ pss)

/-- **Reading a type is building it.** From every text a type is read exactly if lists of predicates are, and it is the
union of the types of these lists. So whatever lists are written, with contradictory ones, repeated ones, and ones that
contain others, their union is read; lists in another order, or with other repetitions, are read as the same type; and
every type is read from its text. -/
theorem decode_eq_joinAll (layout : Layout) (pss : List (List Predicate)) :
    decode decoder ((disjunctsToJson pss).render layout) = .ok (joinAll pss) ∧
      (∀ qss, Among pss qss → Among qss pss →
        decode decoder ((disjunctsToJson qss).render layout) = decode decoder ((disjunctsToJson pss).render layout)) ∧
      (∀ a : TypeSet, decode decoder (a.toJson.render layout) = .ok a) ∧
      ∀ text, decode decoder text = (decode disjunctsDecoder text).map joinAll := by
  refine ⟨?written, fun qss h h' => ?same, fun a => ?types, fun text => ?texts⟩
  case written => rw [decode_disjunctsToJson, ofDisjuncts_eq_joinAll]
  case same => rw [decode_disjunctsToJson, decode_disjunctsToJson, ofDisjuncts_congr h h']
  case types => rw [toJson_eq, decode_disjunctsToJson, ofDisjuncts_toList]
  case texts => rw [decoder_eq, Json.decode_map, funext ofDisjuncts_eq_joinAll]

/-- Predicates of a service, with a contradictory list and one that is contained in others. -/
def serviceLists : List (List Predicate) :=
  [[⟨"Kind", "a"⟩, ⟨"X", "1"⟩], [⟨"Kind", "a"⟩, ⟨"Kind", "b"⟩], [⟨"Kind", "a"⟩]]

/-- The same lists in another order, with repetitions. -/
def serviceListsAgain : List (List Predicate) :=
  [[⟨"Kind", "b"⟩, ⟨"Kind", "a"⟩], [⟨"Kind", "a"⟩], [⟨"X", "1"⟩, ⟨"Kind", "a"⟩, ⟨"X", "1"⟩], [⟨"Kind", "a"⟩]]

/-- The contradictory list is dropped, and the list that is contained in the others absorbs them. -/
theorem decode_eq_joinAll_service :
    Among serviceLists serviceListsAgain ∧ Among serviceListsAgain serviceLists ∧
      decode decoder ((disjunctsToJson serviceListsAgain).render .compact) = .ok (ofPredicate "Kind" "a") := by
  have h : Among serviceLists serviceListsAgain := by decide
  have h' : Among serviceListsAgain serviceLists := by decide
  obtain ⟨hread, hsame, -, -⟩ := decode_eq_joinAll .compact serviceLists
  have hjoined : joinAll serviceLists = ofPredicate "Kind" "a" := by decide +kernel
  exact ⟨h, h', (hsame serviceListsAgain h h').trans (hjoined ▸ hread)⟩

end TypeSet

end ArchFlow
