import ArchFlow.Json.Decode
import ArchFlow.Proofs.Json.RoundTrip

/-!
# Decoding what was written

The text of a value is decoded as its document is. Of an object whose members come in the order of the fields of a
record, one field is read after the other.

* `decode_render`: decoding the text of a value.
* `Decoder.items_map`, `Decoder.list_array`: a list whose items are decoded.
* `Decoder.Fields.ofMembers_named`, `Decoder.Fields.ofMembers_unnamed`, `Decoder.Fields.ofMembers_option`: the next field
  of a record, named, left out, or named only for a value.
-/

namespace ArchFlow.Json

/-- Decoding the text of a value. -/
theorem decode_render {α : Type} (read : Decoder α) (layout : Layout) {v : Value} (h : v.Fits) :
    decode read (v.render layout) = read maxLevels v.document := by
  rw [decode, Document.ofText_render layout h]
  dsimp only
  cases read maxLevels v.document <;> rfl

/-- Decoding a text by a transformed decoder is transforming what is decoded. -/
theorem decode_map {α β : Type} (f : α → β) (read : Decoder α) (text : String) :
    decode (read.map f) text = (decode read text).map f := by
  rw [decode, decode]
  rcases Document.ofText text with ⟨d, complete⟩
  dsimp only [Decoder.map]
  cases read maxLevels d with
  | error fault => rfl
  | ok a => cases complete <;> rfl

namespace Decoder

variable {levels : Nat}

/-! ## Scalars -/

theorem text_string (levels : Nat) (s : String) : text levels (Value.string s).document = .ok s := rfl

theorem word32_natural (levels : Nat) (n : UInt32) : word32 levels (Value.natural n.toNat).document = .ok n := by
  have hlt : n.toNat < UInt32.size := n.toNat_lt_size
  simp [word32, naturalBelow, Value.document, hlt, Except.map]

theorem word64_natural (levels : Nat) (n : UInt64) : word64 levels (Value.natural n.toNat).document = .ok n := by
  have hlt : n.toNat < UInt64.size := n.toNat_lt_size
  simp [word64, naturalBelow, Value.document, hlt, Except.map]

/-! ## Lists -/

theorem items_nil {α : Type} (read : Decoder α) (levels : Nat) : items read levels (Items.ofValues []) = .ok [] := rfl

theorem items_cons {α : Type} (read : Decoder α) (levels : Nat) (v : Value) (vs : List Value) :
    items read levels (Items.ofValues (v :: vs)) = do
      let a ← read levels v.document
      let as ← items read levels (Items.ofValues vs)
      return a :: as := rfl

/-- Items that are decoded one by one are decoded as a list. -/
theorem items_map {α : Type} {read : Decoder α} {f : α → Value} {as : List α}
    (h : ∀ a ∈ as, read levels (f a).document = .ok a) : items read levels (Items.ofValues (as.map f)) = .ok as := by
  induction as with
  | nil => rfl
  | cons a as ih =>
    have ih := ih fun b hb => h b (List.mem_cons_of_mem _ hb)
    rw [List.map_cons, items_cons, h a List.mem_cons_self, ih]
    rfl

/-- A list is decoded as what its items are written for. -/
theorem list_array {α : Type} {read : Decoder α} {f : α → Value} (h : ∀ a, read levels (f a).document = .ok a)
    (as : List α) : list read (levels + 1) (Value.array (as.map f)).document = .ok as :=
  items_map fun a _ => h a

theorem list_strings (levels : Nat) (ss : List String) :
    list text (levels + 1) (Value.strings ss).document = .ok ss :=
  list_array (text_string levels) ss

/-! ## Records -/

namespace Fields

variable {α τ δ : Type} {name : String} {unnamed short : Option α} {read : Decoder α} {rest : Fields τ δ}

/-- No member of the object has the name. -/
def Lacks (name : String) : Members → Prop
  | .done _ => True
  | .member (.name key) _ ms => key ≠ name ∧ Lacks name ms
  | .member _ _ _ => True

theorem accept_of_ne {key : String} (h : key ≠ name) (levels : Nat) (d : Document) (value : Option α) (draft : δ) :
    (Fields.cons name unnamed short read rest).accept levels key d (value, draft) =
      (rest.accept levels key d draft).map (·.map (value, ·)) := by
  rw [accept, if_neg h]

theorem accept_self (levels : Nat) (d : Document) (draft : δ) :
    (Fields.cons name unnamed short read rest).accept levels name d (none, draft) =
      some ((read levels d).map fun a => (some a, draft)) := by
  rw [accept, if_pos rfl]
  rfl

/-- A field that no further member names has the value that is known, or else the one for when it is left out. -/
theorem ofMembers_of_lacks {value : Option α} {a : α} (hvalue : (value <|> unnamed) = some a) :
    ∀ {ms : Members} {draft : δ}, Lacks name ms →
      (Fields.cons name unnamed short read rest).ofMembers levels (value, draft) ms =
        (rest.ofMembers levels draft ms).map (a, ·)
  | .done ending, draft, _ => by
    rw [ofMembers, ofMembers, finish, hvalue]
    cases ending.pass with
    | error cause => rfl
    | ok _ => cases rest.finish draft <;> rfl
  | .member (.name key) d ms, draft, h => by
    rw [ofMembers, ofMembers, accept_of_ne h.1]
    cases rest.accept levels key d draft with
    | none =>
      cases ignore d with
      | error fault => rfl
      | ok _ => exact ofMembers_of_lacks hvalue h.2
    | some next =>
      cases next with
      | error fault => rfl
      | ok draft => exact ofMembers_of_lacks hvalue h.2
  | .member (.unreadable cause skipping) d ms, draft, _ => by
    rw [ofMembers, ofMembers]
    rfl
  | .member .missing d ms, draft, _ => by
    rw [ofMembers, ofMembers]
    rfl

/-- The next member is read into the next field, if no other member has its name. -/
theorem ofMembers_named {d : Document} {ms : Members} {draft : δ} (h : Lacks name ms) :
    (Fields.cons name unnamed short read rest).ofMembers levels (none, draft) (.member (.name name) d ms) = do
      let a ← read levels d
      let t ← rest.ofMembers levels draft ms
      return (a, t) := by
  rw [ofMembers, accept_self]
  cases read levels d with
  | error fault => rfl
  | ok a => exact (ofMembers_of_lacks rfl h).trans (by cases rest.ofMembers levels draft ms <;> rfl)

/-- The next field is left out. -/
theorem ofMembers_unnamed {a : α} {ms : Members} {draft : δ} (h : Lacks name ms) :
    (Fields.cons name (some a) short read rest).ofMembers levels (none, draft) ms = do
      let t ← rest.ofMembers levels draft ms
      return (a, t) :=
  (ofMembers_of_lacks rfl h).trans (by cases rest.ofMembers levels draft ms <;> rfl)

/-- A member that is only there for a value is read into the next field. -/
theorem ofMembers_option {β : Type} {short : Option (Option β)} {read : Decoder (Option β)} {write : β → Value}
    (hread : ∀ b, read levels (write b).document = .ok (some b)) (value : Option β) {members : List (String × Value)}
    {draft : δ} (h : Lacks name (Members.ofValues members)) :
    (Fields.cons name (some none) short read rest).ofMembers levels (none, draft)
        (Members.ofValues (value.toList.map (fun b => (name, write b)) ++ members)) = do
      let t ← rest.ofMembers levels draft (Members.ofValues members)
      return (value, t) := by
  cases value with
  | none => exact ofMembers_unnamed h
  | some b =>
    rw [Option.toList_some, List.map_singleton, List.singleton_append, Members.ofValues, ofMembers_named h, hread]
    rfl

end Fields

/-- The members of an object are read into the fields of a record. -/
theorem record_object {τ δ : Type} (name : String) (f : Fields τ δ) (levels : Nat) (members : List (String × Value)) :
    record name f (levels + 1) (Value.object members).document = f.ofMembers levels f.blank (Members.ofValues members) :=
  rfl

end Decoder

end ArchFlow.Json
