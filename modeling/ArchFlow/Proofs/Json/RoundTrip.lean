import ArchFlow.Json.Value
import ArchFlow.Proofs.Json.Tokens

/-!
# What is written can be read

The text of a value is read as the document of the value, in either layout and whatever follows it, as long as what
follows does not prolong a number.

* `Value.document`: what can be read of the text of a value.
* `readValue_renderAt`: the text of a value inside a longer text.
* `Document.ofText_render`: the text of a value alone.
-/

namespace ArchFlow.Json

/-! ## Values -/

mutual

/-- What can be read of the text of a value. -/
def Value.document : Value → Document
  | .null => .null
  | .natural n => .number (.natural n)
  | .string s => .string s
  | .array items => .array (Items.ofValues items)
  | .object members => .object (Members.ofValues members)

/-- What can be read of the items of an array. -/
def Items.ofValues : List Value → Items
  | [] => .done .closed
  | item :: items => .item item.document (Items.ofValues items)

/-- What can be read of the members of an object. -/
def Members.ofValues : List (String × Value) → Members
  | [] => .done .closed
  | (name, value) :: members => .member (.name name) value.document (Members.ofValues members)

end

mutual

/-- All numbers of a value have at most sixty-four bits. -/
def Value.Fits : Value → Prop
  | .null => True
  | .natural n => n ≤ Number.maxNatural
  | .string _ => True
  | .array items => ItemsFit items
  | .object members => MembersFit members

/-- All numbers of the items of an array have at most sixty-four bits. -/
def ItemsFit : List Value → Prop
  | [] => True
  | item :: items => item.Fits ∧ ItemsFit items

/-- All numbers of the members of an object have at most sixty-four bits. -/
def MembersFit : List (String × Value) → Prop
  | [] => True
  | (_, value) :: members => value.Fits ∧ MembersFit members

end

theorem itemsFit_iff {items : List Value} : ItemsFit items ↔ ∀ item ∈ items, item.Fits := by
  induction items with
  | nil => simp [ItemsFit]
  | cons item items ih => simp [ItemsFit, ih]

theorem membersFit_iff {members : List (String × Value)} : MembersFit members ↔ ∀ member ∈ members, member.2.Fits := by
  induction members with
  | nil => simp [MembersFit]
  | cons member members ih => simp [MembersFit, ih]

theorem fits_array {α : Type} {f : α → Value} (h : ∀ a, (f a).Fits) (as : List α) : (Value.array (as.map f)).Fits :=
  itemsFit_iff.2 fun item hitem => by
    obtain ⟨a, -, rfl⟩ := List.mem_map.1 hitem
    exact h a

theorem fits_strings (ss : List String) : (Value.strings ss).Fits := fits_array (f := .string) (fun _ => trivial) ss

/-! ## Blanks -/

variable {layout : Layout} {level : Nat}

theorem dropBlanks_cons {c : Char} (h : isBlank c = false) (cs : List Char) : dropBlanks (c :: cs) = c :: cs := by
  simp [dropBlanks, h]

theorem dropBlanks_lineBreak (layout : Layout) (level : Nat) (cs : List Char) :
    dropBlanks (layout.lineBreak level ++ cs) = dropBlanks cs := by
  have hblanks : ∀ n, dropBlanks (List.replicate n ' ' ++ cs) = dropBlanks cs := by
    intro n
    induction n with
    | zero => rfl
    | succ n ih => rw [List.replicate_succ, List.cons_append, ← ih]; rfl
  cases layout with
  | compact => rfl
  | pretty => exact hblanks (2 * level)

/-- The character is neither a blank nor a closing bracket, as those that values begin with. -/
def Begins (c : Char) : Prop := isBlank c = false ∧ c ≠ ']' ∧ c ≠ '}'

theorem ne_of_isDigit {c d : Char} (hc : c.isDigit = true) (hd : d.isDigit = false) : c ≠ d := by
  rintro rfl
  exact Bool.false_ne_true (hd.symm.trans hc)

theorem begins_digit {c : Char} (h : c.isDigit = true) : Begins c := by
  have hne : ∀ d : Char, d.isDigit = false → c ≠ d := fun d => ne_of_isDigit h
  refine ⟨?_, hne _ (by decide), hne _ (by decide)⟩
  simp [isBlank, hne ' ' (by decide), hne '\n' (by decide), hne '\t' (by decide), hne '\r' (by decide)]

/-- The text of a value begins with neither a blank nor a closing bracket. -/
theorem exists_renderAt (layout : Layout) (level : Nat) (v : Value) :
    ∃ c cs, v.renderAt layout level = c :: cs ∧ Begins c := by
  cases v with
  | null => exact ⟨'n', _, by rw [Value.renderAt], by simp [Begins, isBlank]⟩
  | natural n =>
    obtain ⟨c, cs, hdigits, hc⟩ := Number.exists_toDigits n
    exact ⟨c, cs, by rw [Value.renderAt, hdigits], begins_digit hc⟩
  | string s => exact ⟨'"', _, by rw [Value.renderAt, Literal.quote]; rfl, by simp [Begins, isBlank]⟩
  | array items =>
    cases items with
    | nil => exact ⟨'[', _, by rw [Value.renderAt], by simp [Begins, isBlank]⟩
    | cons item items => exact ⟨'[', _, by rw [Value.renderAt]; rfl, by simp [Begins, isBlank]⟩
  | object members =>
    cases members with
    | nil => exact ⟨'{', _, by rw [Value.renderAt], by simp [Begins, isBlank]⟩
    | cons member members => exact ⟨'{', _, by rw [Value.renderAt]; rfl, by simp [Begins, isBlank]⟩

/-! ## Steps of the reader -/

section Steps

variable {fuel : Nat} {cs rest : List Char}

/-- What is read first of an array that is not empty. -/
theorem readItems_first (h : ∃ c tail, dropBlanks cs = c :: tail ∧ Begins c) :
    readItems (fuel + 1) true cs = readItem fuel (dropBlanks cs) := by
  obtain ⟨c, tail, hcs, -, hbracket, -⟩ := h
  rw [readItems, hcs]
  simp

/-- A further item is read after a comma. -/
theorem readItems_next (h : ∃ c tail, dropBlanks cs = c :: tail ∧ Begins c) :
    readItems (fuel + 1) false (',' :: cs) = readItem fuel (dropBlanks cs) := by
  obtain ⟨c, tail, hcs, -, hbracket, -⟩ := h
  rw [readItems, dropBlanks_cons (by decide)]
  simp [hcs]

theorem readItems_close (first : Bool) (h : dropBlanks cs = ']' :: rest) :
    readItems (fuel + 1) first cs = (.done .closed, some rest) := by
  rw [readItems, h]
  rfl

theorem readItem_of_value {d : Document} {items : Items} {tail : List Char}
    (hvalue : readValue fuel cs = (d, some tail)) (hitems : readItems fuel false tail = (items, some rest)) :
    readItem (fuel + 1) cs = (.item d items, some rest) := by
  rw [readItem, hvalue]
  simp [hitems]

/-- What is read first of an object that is not empty. -/
theorem readMembers_first (h : ∃ tail, dropBlanks cs = '"' :: tail) :
    readMembers (fuel + 1) true cs = readMember fuel (dropBlanks cs) := by
  obtain ⟨tail, hcs⟩ := h
  rw [readMembers, hcs]
  simp

/-- A further member is read after a comma. -/
theorem readMembers_next (h : ∃ tail, dropBlanks cs = '"' :: tail) :
    readMembers (fuel + 1) false (',' :: cs) = readMember fuel (dropBlanks cs) := by
  obtain ⟨tail, hcs⟩ := h
  rw [readMembers, dropBlanks_cons (by decide)]
  simp [hcs]

theorem readMembers_close (first : Bool) (h : dropBlanks cs = '}' :: rest) :
    readMembers (fuel + 1) first cs = (.done .closed, some rest) := by
  rw [readMembers, h]
  rfl

/-- A value that begins with a digit is a number. -/
theorem readValue_of_digit {c : Char} (h : c.isDigit = true) : readValue (fuel + 1) (c :: cs) = readNumber (c :: cs) := by
  have hquote : c ≠ '"' := ne_of_isDigit h (by decide)
  have hbracket : c ≠ '[' := ne_of_isDigit h (by decide)
  have hbrace : c ≠ '{' := ne_of_isDigit h (by decide)
  have hn : c ≠ 'n' := ne_of_isDigit h (by decide)
  have ht : c ≠ 't' := ne_of_isDigit h (by decide)
  have hf : c ≠ 'f' := ne_of_isDigit h (by decide)
  rw [readValue, dropBlanks_cons (begins_digit h).1]
  simp [h]

theorem readValue_congr {ds : List Char} (h : dropBlanks cs = dropBlanks ds) (fuel : Nat) :
    readValue fuel cs = readValue fuel ds := by
  cases fuel with
  | zero => simp [readValue]
  | succ fuel => rw [readValue, readValue, h]

theorem readMember_of_value (layout : Layout) {name : String} {d : Document} {members : Members} {tail : List Char}
    (hvalue : readValue fuel cs = (d, some tail)) (hmembers : readMembers fuel false tail = (members, some rest)) :
    readMember (fuel + 2) (Literal.quote name.toList ++ (layout.colon ++ cs)) =
      (.member (.name name) d members, some rest) := by
  obtain ⟨blanks, hcolon, hblanks⟩ : ∃ blanks, layout.colon ++ cs = ':' :: blanks ∧ dropBlanks blanks = dropBlanks cs := by
    cases layout <;> exact ⟨_, rfl, rfl⟩
  obtain ⟨quoted, hquote, hread⟩ := readLiteral_quote name (':' :: blanks)
  have hnext : dropBlanks (':' :: blanks) = ':' :: blanks := dropBlanks_cons (by decide) blanks
  rw [hcolon, hquote, readMember, hread]
  simp [readMemberValue, hnext, readValue_congr hblanks, hvalue, hmembers]

end Steps

/-! ## Round trip -/

theorem dropBlanks_renderAt (layout : Layout) (level : Nat) (v : Value) (cs : List Char) :
    dropBlanks (v.renderAt layout level ++ cs) = v.renderAt layout level ++ cs := by
  obtain ⟨c, tail, hv, hblank, -⟩ := exists_renderAt layout level v
  rw [hv, List.cons_append, dropBlanks_cons hblank]

theorem dropBlanks_item (layout : Layout) (level : Nat) (v : Value) (cs : List Char) :
    dropBlanks (layout.lineBreak level ++ (v.renderAt layout level ++ cs)) = v.renderAt layout level ++ cs := by
  rw [dropBlanks_lineBreak, dropBlanks_renderAt]

theorem begins_item (layout : Layout) (level : Nat) (v : Value) (cs : List Char) :
    ∃ c tail, dropBlanks (layout.lineBreak level ++ (v.renderAt layout level ++ cs)) = c :: tail ∧ Begins c := by
  obtain ⟨c, tail, hv, hc⟩ := exists_renderAt layout level v
  exact ⟨c, tail ++ cs, by rw [dropBlanks_item, hv, List.cons_append], hc⟩

theorem dropBlanks_member (layout : Layout) (level : Nat) (name cs : List Char) :
    dropBlanks (layout.lineBreak level ++ (Literal.quote name ++ cs)) = Literal.quote name ++ cs := by
  rw [dropBlanks_lineBreak]
  exact dropBlanks_cons (by decide) _

/-- What closes an array or an object does not prolong a number. -/
theorem endsBefore_lineBreak {bracket : Char} (h : bracket = ']' ∨ bracket = '}') (layout : Layout) (level : Nat)
    (cs : List Char) : Number.EndsBefore (layout.lineBreak level ++ bracket :: cs) := by
  cases layout with
  | compact => exact Number.endsBefore_cons (.inr (.inr h)) cs
  | pretty => exact Number.endsBefore_cons (.inr (.inl rfl)) _

theorem endsBefore_renderItems (layout : Layout) (level : Nat) (items : List Value) {tail : List Char}
    (h : Number.EndsBefore tail) : Number.EndsBefore (renderItems layout level items ++ tail) := by
  cases items with
  | nil => simpa [renderItems] using h
  | cons item items =>
    rw [renderItems]
    exact Number.endsBefore_cons (.inl rfl) _

theorem endsBefore_renderMembers (layout : Layout) (level : Nat) (members : List (String × Value)) {tail : List Char}
    (h : Number.EndsBefore tail) : Number.EndsBefore (renderMembers layout level members ++ tail) := by
  cases members with
  | nil => simpa [renderMembers] using h
  | cons member members =>
    rw [renderMembers]
    exact Number.endsBefore_cons (.inl rfl) _

theorem renderAt_array (layout : Layout) (level : Nat) (item : Value) (items : List Value) :
    (Value.array (item :: items)).renderAt layout level =
      '[' :: (layout.lineBreak (level + 1) ++ (item.renderAt layout (level + 1) ++
        (renderItems layout (level + 1) items ++ (layout.lineBreak level ++ [']'])))) := by
  simp [Value.renderAt]

theorem renderItems_cons (layout : Layout) (level : Nat) (item : Value) (items : List Value) :
    renderItems layout level (item :: items) =
      ',' :: (layout.lineBreak level ++ (item.renderAt layout level ++ renderItems layout level items)) := by
  simp [renderItems]

theorem renderAt_object (layout : Layout) (level : Nat) (name : String) (value : Value)
    (members : List (String × Value)) :
    (Value.object ((name, value) :: members)).renderAt layout level =
      '{' :: (layout.lineBreak (level + 1) ++ (Literal.quote name.toList ++ (layout.colon ++
        (value.renderAt layout (level + 1) ++
          (renderMembers layout (level + 1) members ++ (layout.lineBreak level ++ ['}'])))))) := by
  simp [Value.renderAt]

theorem renderMembers_cons (layout : Layout) (level : Nat) (name : String) (value : Value)
    (members : List (String × Value)) :
    renderMembers layout level ((name, value) :: members) =
      ',' :: (layout.lineBreak level ++ (Literal.quote name.toList ++ (layout.colon ++
        (value.renderAt layout level ++ renderMembers layout level members)))) := by
  simp [renderMembers]

mutual

/-- The text of a value is read as its document, and what follows it is left; each character gives enough fuel. -/
theorem readValue_renderAt (layout : Layout) : ∀ (v : Value) (level fuel : Nat) (cs : List Char), v.Fits →
    Number.EndsBefore cs → 4 * (v.renderAt layout level).length ≤ fuel →
    readValue fuel (v.renderAt layout level ++ cs) = (v.document, some cs)
  | .null, level, fuel, cs, _, _, hfuel => by
    simp only [Value.renderAt, List.length_cons] at hfuel
    obtain ⟨fuel, rfl⟩ : ∃ f, fuel = f + 1 := ⟨fuel - 1, by omega⟩
    rw [readValue, dropBlanks_renderAt]
    simp [Value.renderAt, readWord, Value.document]
  | .natural n, level, fuel, cs, hfit, hcs, hfuel => by
    obtain ⟨c, ds, hdigits, hc⟩ := Number.exists_toDigits n
    simp only [Value.renderAt, hdigits, List.length_cons] at hfuel
    obtain ⟨fuel, rfl⟩ : ∃ f, fuel = f + 1 := ⟨fuel - 1, by omega⟩
    have hread := Number.read_toDigits hfit hcs
    rw [Value.renderAt]
    rw [hdigits, List.cons_append] at hread ⊢
    rw [readValue_of_digit hc, readNumber, hread, Value.document]
  | .string s, level, fuel, cs, _, _, hfuel => by
    obtain ⟨quoted, hquote, hread⟩ := readLiteral_quote s cs
    simp only [Value.renderAt, Literal.quote, List.length_append, List.length_cons] at hfuel
    obtain ⟨fuel, rfl⟩ : ∃ f, fuel = f + 1 := ⟨fuel - 1, by omega⟩
    rw [readValue, dropBlanks_renderAt, Value.renderAt, hquote]
    simp [readString, hread, Value.document]
  | .array [], level, fuel, cs, _, _, hfuel => by
    simp only [Value.renderAt, List.length_cons] at hfuel
    obtain ⟨fuel, rfl⟩ : ∃ f, fuel = f + 2 := ⟨fuel - 2, by omega⟩
    rw [readValue, dropBlanks_renderAt, Value.renderAt]
    simp [readItems_close, dropBlanks_cons, isBlank, Value.document, Items.ofValues]
  | .array (item :: items), level, fuel, cs, hfit, hcs, hfuel => by
    rw [renderAt_array] at hfuel
    simp only [List.length_cons, List.length_append] at hfuel
    obtain ⟨fuel, rfl⟩ : ∃ f, fuel = f + 3 := ⟨fuel - 3, by omega⟩
    have hclose : dropBlanks (layout.lineBreak level ++ ']' :: cs) = ']' :: cs := by
      rw [dropBlanks_lineBreak, dropBlanks_cons (by decide)]
    have hends := endsBefore_lineBreak (.inl rfl) layout level cs
    have hvalue := readValue_renderAt layout item (level + 1) fuel
      (renderItems layout (level + 1) items ++ (layout.lineBreak level ++ ']' :: cs)) hfit.1
      (endsBefore_renderItems layout (level + 1) items hends) (by omega)
    have hitems := readItems_renderItems layout items (level + 1) fuel (layout.lineBreak level ++ ']' :: cs) cs hfit.2
      hclose hends (by omega)
    rw [readValue, dropBlanks_renderAt, renderAt_array]
    simp only [List.cons_append, List.append_assoc, List.nil_append]
    rw [readItems_first (begins_item ..), dropBlanks_item, readItem_of_value hvalue hitems]
    rfl
  | .object [], level, fuel, cs, _, _, hfuel => by
    simp only [Value.renderAt, List.length_cons] at hfuel
    obtain ⟨fuel, rfl⟩ : ∃ f, fuel = f + 2 := ⟨fuel - 2, by omega⟩
    rw [readValue, dropBlanks_renderAt, Value.renderAt]
    simp [readMembers_close, dropBlanks_cons, isBlank, Value.document, Members.ofValues]
  | .object ((name, value) :: members), level, fuel, cs, hfit, hcs, hfuel => by
    rw [renderAt_object] at hfuel
    simp only [List.length_cons, List.length_append] at hfuel
    obtain ⟨fuel, rfl⟩ : ∃ f, fuel = f + 4 := ⟨fuel - 4, by omega⟩
    have hclose : dropBlanks (layout.lineBreak level ++ '}' :: cs) = '}' :: cs := by
      rw [dropBlanks_lineBreak, dropBlanks_cons (by decide)]
    have hends := endsBefore_lineBreak (.inr rfl) layout level cs
    have hvalue := readValue_renderAt layout value (level + 1) fuel
      (renderMembers layout (level + 1) members ++ (layout.lineBreak level ++ '}' :: cs)) hfit.1
      (endsBefore_renderMembers layout (level + 1) members hends) (by omega)
    have hmembers := readMembers_renderMembers layout members (level + 1) fuel (layout.lineBreak level ++ '}' :: cs) cs
      hfit.2 hclose hends (by omega)
    rw [readValue, dropBlanks_renderAt, renderAt_object]
    simp only [List.cons_append, List.append_assoc, List.nil_append]
    rw [readMembers_first ⟨_, dropBlanks_member ..⟩, dropBlanks_member, readMember_of_value layout hvalue hmembers]
    rfl

/-- The items after the first are read with the commas before them. -/
theorem readItems_renderItems (layout : Layout) : ∀ (items : List Value) (level fuel : Nat) (tail cs : List Char),
    ItemsFit items → dropBlanks tail = ']' :: cs → Number.EndsBefore tail →
    4 * (renderItems layout level items).length + 1 ≤ fuel →
    readItems fuel false (renderItems layout level items ++ tail) = (Items.ofValues items, some cs)
  | [], level, fuel, tail, cs, _, htail, _, hfuel => by
    obtain ⟨fuel, rfl⟩ : ∃ f, fuel = f + 1 := ⟨fuel - 1, by omega⟩
    rw [renderItems, List.nil_append, readItems_close false htail, Items.ofValues]
  | item :: items, level, fuel, tail, cs, hfit, htail, hends, hfuel => by
    rw [renderItems_cons] at hfuel ⊢
    simp only [List.length_cons, List.length_append] at hfuel
    obtain ⟨fuel, rfl⟩ : ∃ f, fuel = f + 2 := ⟨fuel - 2, by omega⟩
    have hvalue := readValue_renderAt layout item level fuel (renderItems layout level items ++ tail) hfit.1
      (endsBefore_renderItems layout level items hends) (by omega)
    have hitems := readItems_renderItems layout items level fuel tail cs hfit.2 htail hends (by omega)
    simp only [List.cons_append, List.append_assoc]
    rw [readItems_next (begins_item ..), dropBlanks_item, readItem_of_value hvalue hitems, Items.ofValues]

/-- The members after the first are read with the commas before them. -/
theorem readMembers_renderMembers (layout : Layout) : ∀ (members : List (String × Value)) (level fuel : Nat)
    (tail cs : List Char), MembersFit members → dropBlanks tail = '}' :: cs → Number.EndsBefore tail →
    4 * (renderMembers layout level members).length + 1 ≤ fuel →
    readMembers fuel false (renderMembers layout level members ++ tail) = (Members.ofValues members, some cs)
  | [], level, fuel, tail, cs, _, htail, _, hfuel => by
    obtain ⟨fuel, rfl⟩ : ∃ f, fuel = f + 1 := ⟨fuel - 1, by omega⟩
    rw [renderMembers, List.nil_append, readMembers_close false htail, Members.ofValues]
  | (name, value) :: members, level, fuel, tail, cs, hfit, htail, hends, hfuel => by
    rw [renderMembers_cons] at hfuel ⊢
    simp only [List.length_cons, List.length_append] at hfuel
    obtain ⟨fuel, rfl⟩ : ∃ f, fuel = f + 3 := ⟨fuel - 3, by omega⟩
    have hvalue := readValue_renderAt layout value level fuel (renderMembers layout level members ++ tail) hfit.1
      (endsBefore_renderMembers layout level members hends) (by omega)
    have hmembers := readMembers_renderMembers layout members level fuel tail cs hfit.2 htail hends (by omega)
    simp only [List.cons_append, List.append_assoc]
    rw [readMembers_next ⟨_, dropBlanks_member ..⟩, dropBlanks_member, readMember_of_value layout hvalue hmembers,
      Members.ofValues]

end

/-- The text of a value is read as its document, and nothing follows. -/
theorem Document.ofText_render (layout : Layout) {v : Value} (h : v.Fits) :
    Document.ofText (v.render layout) = (v.document, true) := by
  have hread := readValue_renderAt layout v 0 (4 * (v.renderAt layout 0).length + 4) [] h Number.endsBefore_nil (by omega)
  rw [List.append_nil] at hread
  simp [Document.ofText, Value.render, hread, dropBlanks]

end ArchFlow.Json
