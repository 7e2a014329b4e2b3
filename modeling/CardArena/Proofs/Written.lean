import Mathlib
import CardArena.Json.Text

/-!
# What is written is read back

The writer puts down no blanks, escapes as little as it may, and writes an integer as its digits.  So
the reader never has a choice on written text: the first character of a value says which kind of value
it is, and a number ends where a comma or a closing bracket follows.

Three things keep a value from being read back.  A number with a fraction may be written in two ways, an
unusable value is written as null, and the reader opens only so many arrays and objects one inside the
other.  `Json.Plain room` leaves those out: all integers have 64 bits and at most `room` containers are
nested.

The writer hands on the text so far, the reader hands on the text that is left.  Both are brought to
lists of characters first (`Json.chars`, `Json.toList_toText`), and the reader is then run over
`chars j ++ rest` by induction on the value.  Its fuel is never short: it is twice the length of what
there is to be read.

* `Json.ofText?_toText` : a plain value is read back from its text.
-/

namespace CardArena.Json

/-! ## Plain values -/

mutual

/-- Every integer has 64 bits, and at most `room` arrays and objects are nested. -/
def Plain (room : Nat) : Json → Prop
  | .null => True
  | .bool _ => True
  | .int n => -2 ^ 63 ≤ n ∧ n < 2 ^ 64
  | .real _ => False
  | .str _ => True
  | .arr items => 0 < room ∧ AllPlain (room - 1) items
  | .obj fields => 0 < room ∧ FieldsPlain (room - 1) fields
  | .unusable => False

def AllPlain (room : Nat) : List Json → Prop
  | [] => True
  | item :: rest => item.Plain room ∧ AllPlain room rest

def FieldsPlain (room : Nat) : List (String × Json) → Prop
  | [] => True
  | (_, value) :: rest => value.Plain room ∧ FieldsPlain room rest

end

theorem allPlain_iff {room : Nat} {items : List Json} :
    AllPlain room items ↔ ∀ item ∈ items, item.Plain room := by
  induction items with
  | nil => simp [AllPlain]
  | cons item rest ih => simp [AllPlain, ih]

theorem fieldsPlain_iff {room : Nat} {fields : List (String × Json)} :
    FieldsPlain room fields ↔ ∀ field ∈ fields, field.2.Plain room := by
  induction fields with
  | nil => simp [FieldsPlain]
  | cons field rest ih => simp [FieldsPlain, ih]

mutual

theorem Plain.mono {room more : Nat} (hle : room ≤ more) : ∀ {j : Json}, j.Plain room → j.Plain more
  | .null, _ => trivial
  | .bool _, _ => trivial
  | .int _, h => h
  | .str _, _ => trivial
  | .arr _, ⟨hroom, h⟩ => ⟨hroom.trans_le hle, AllPlain.mono (Nat.sub_le_sub_right hle 1) h⟩
  | .obj _, ⟨hroom, h⟩ => ⟨hroom.trans_le hle, FieldsPlain.mono (Nat.sub_le_sub_right hle 1) h⟩

theorem AllPlain.mono {room more : Nat} (hle : room ≤ more) :
    ∀ {items : List Json}, AllPlain room items → AllPlain more items
  | [], _ => trivial
  | _ :: _, ⟨h, hrest⟩ => ⟨h.mono hle, AllPlain.mono hle hrest⟩

theorem FieldsPlain.mono {room more : Nat} (hle : room ≤ more) :
    ∀ {fields : List (String × Json)}, FieldsPlain room fields → FieldsPlain more fields
  | [], _ => trivial
  | _ :: _, ⟨h, hrest⟩ => ⟨h.mono hle, FieldsPlain.mono hle hrest⟩

end

mutual

theorem Plain.isUsable {room : Nat} : ∀ {j : Json}, j.Plain room → j.isUsable = true
  | .null, _ => rfl
  | .bool _, _ => rfl
  | .int _, _ => rfl
  | .str _, _ => rfl
  | .arr _, ⟨_, h⟩ => AllPlain.areUsable h
  | .obj _, ⟨_, h⟩ => FieldsPlain.usable h

theorem AllPlain.areUsable {room : Nat} :
    ∀ {items : List Json}, AllPlain room items → Json.areUsable items = true
  | [], _ => rfl
  | _ :: _, ⟨h, hrest⟩ => by
      rw [Json.areUsable, Plain.isUsable h, AllPlain.areUsable hrest]
      rfl

theorem FieldsPlain.usable {room : Nat} :
    ∀ {fields : List (String × Json)}, FieldsPlain room fields → fieldsUsable fields = true
  | [], _ => rfl
  | _ :: _, ⟨h, hrest⟩ => by
      rw [fieldsUsable, Plain.isUsable h, FieldsPlain.usable hrest]
      rfl

end

/-! ## The characters of a text -/

/-- A text between quotes. -/
def quoted (s : String) : List Char :=
  '"' :: (s.toList.flatMap Quoted.escape ++ ['"'])

/-- The digits of an integer, behind its sign. -/
def intChars (n : Int) : List Char :=
  if n < 0 then '-' :: Nat.toDigits 10 (-n).toNat else Nat.toDigits 10 n.toNat

mutual

/-- What is written for a value. -/
def chars : Json → List Char
  | .null => ['n', 'u', 'l', 'l']
  | .bool true => ['t', 'r', 'u', 'e']
  | .bool false => ['f', 'a', 'l', 's', 'e']
  | .int n => intChars n
  | .real digits => digits.toList
  | .str s => quoted s
  | .arr [] => ['[', ']']
  | .arr (item :: rest) => '[' :: (chars item ++ itemChars rest)
  | .obj [] => ['\x7b', '\x7d']
  | .obj ((name, value) :: rest) =>
    '\x7b' :: (quoted name ++ ':' :: (chars value ++ fieldChars rest))
  | .unusable => ['n', 'u', 'l', 'l']

/-- What is written behind an item. -/
def itemChars : List Json → List Char
  | [] => [']']
  | item :: rest => ',' :: (chars item ++ itemChars rest)

/-- What is written behind a field. -/
def fieldChars : List (String × Json) → List Char
  | [] => ['\x7d']
  | (name, value) :: rest => ',' :: (quoted name ++ ':' :: (chars value ++ fieldChars rest))

end

theorem toList_repr (n : Int) : n.repr.toList = intChars n := by
  rw [Int.repr_eq_if, intChars]
  by_cases h : n < 0
  · rw [if_neg (by omega), if_pos h, String.toList_append, Nat.toList_repr]
    rfl
  · rw [if_pos (by omega), if_neg h, Nat.toList_repr]

theorem toList_quote (s : String) : (Quoted.quote s).toList = quoted s :=
  String.toList_ofList

mutual

theorem toList_write (out : String) : ∀ j : Json, (write out j).toList = out.toList ++ chars j
  | .null => by simp [write, chars]
  | .bool true => by simp [write, chars]
  | .bool false => by simp [write, chars]
  | .int n => by simp [write, chars, toList_repr]
  | .real _ => by simp [write, chars]
  | .str _ => by simp [write, chars, toList_quote]
  | .arr [] => by simp [write, chars]
  | .arr (item :: rest) => by
      rw [write, toList_writeItems _ rest, toList_write _ item]
      simp [chars]
  | .obj [] => by simp [write, chars]
  | .obj ((_, value) :: rest) => by
      rw [write, toList_writeFields _ rest, toList_write _ value]
      simp [chars, toList_quote]
  | .unusable => by simp [write, chars]

theorem toList_writeItems (out : String) :
    ∀ items : List Json, (writeItems out items).toList = out.toList ++ itemChars items
  | [] => by simp [writeItems, itemChars]
  | item :: rest => by
      rw [writeItems, toList_writeItems _ rest, toList_write _ item]
      simp [itemChars]

theorem toList_writeFields (out : String) :
    ∀ fields : List (String × Json), (writeFields out fields).toList = out.toList ++ fieldChars fields
  | [] => by simp [writeFields, fieldChars]
  | (_, value) :: rest => by
      rw [writeFields, toList_writeFields _ rest, toList_write _ value]
      simp [fieldChars, toList_quote]

end

theorem toList_toText (j : Json) : j.toText.toList = chars j :=
  toList_write "" j

/-! ## Quoted text -/

namespace Quoted

/-- What the reader makes of a character that was written inside quotes. -/
def piece (c : Char) : Piece :=
  if c.toNat < 32 ∧ c ∉ ['\n', '\r', '\t', '\x08', '\x0c'] then .unit c.toNat else .char c

theorem hexValue?_hexDigit : ∀ n < 16, hexValue? (hexDigit n) = some n := by
  decide

theorem unit?_hexDigits {n : Nat} (h : n < 32) :
    unit? '0' '0' (hexDigit (n / 16)) (hexDigit (n % 16)) = some n := by
  have hzero : hexValue? '0' = some 0 := by decide
  have hhigh := hexValue?_hexDigit (n / 16) (by omega)
  have hlow := hexValue?_hexDigit (n % 16) (by omega)
  simp only [unit?, hzero, hhigh, hlow, Option.bind_eq_bind, Option.bind_some, Option.pure_def]
  congr 1
  omega

/-- An escaped character is one piece to the reader. -/
theorem scan_escape (done : List Piece) (c : Char) (rest : List Char) :
    scan done (escape c ++ rest) = scan (piece c :: done) rest := by
  unfold escape
  split_ifs with hq hb hn hr ht hbs hff hctl
  · subst hq; rfl
  · subst hb; rfl
  · subst hn; rfl
  · subst hr; rfl
  · subst ht; rfl
  · subst hbs; rfl
  · subst hff; rfl
  · have hpiece : piece c = .unit c.toNat := by
      rw [piece, if_pos ⟨hctl, by simp [hn, hr, ht, hbs, hff]⟩]
    show scan done ('\\' :: 'u' :: '0' :: '0' :: _ :: _ :: rest) = _
    rw [scan, unit?_hexDigits hctl, hpiece]
  · have hpiece : piece c = .char c := by
      rw [piece, if_neg fun h => hctl h.1]
    show scan done (c :: rest) = _
    rw [scan, if_neg hctl, hpiece]
    · exact hq
    · exact fun _ _ _ _ _ h => absurd h hb
    · exact fun _ _ h => absurd h hb

theorem scan_flatMap (cs : List Char) (done : List Piece) (rest : List Char) :
    scan done (cs.flatMap escape ++ '"' :: rest) = some (done.reverse ++ cs.map piece, rest) := by
  induction cs generalizing done with
  | nil => simp [scan]
  | cons c cs ih =>
    rw [List.flatMap_cons, List.append_assoc, scan_escape, ih, List.map_cons, List.reverse_cons,
      List.append_assoc, List.singleton_append]

/-- A piece of a written text stands for the character it was written for. -/
theorem join_piece (done : List Char) (c : Char) (rest : List Piece) :
    join done (piece c :: rest) = join (c :: done) rest := by
  unfold piece
  split_ifs with h
  · have hsurrogate : isHigh c.toNat = false ∧ isLow c.toNat = false := by
      simp only [isHigh, isLow, Bool.and_eq_false_iff, decide_eq_false_iff_not]
      omega
    cases rest with
    | nil => simp [join, hsurrogate]
    | cons next rest => cases next <;> simp [join, hsurrogate]
  · rw [join]

theorem join_map_piece (cs done : List Char) :
    join done (cs.map piece) = some (done.reverse ++ cs) := by
  induction cs generalizing done with
  | nil => simp [join]
  | cons c cs ih =>
    rw [List.map_cons, join_piece, ih, List.reverse_cons, List.append_assoc, List.singleton_append]

end Quoted

theorem readString_quoted (s : String) (rest : List Char) :
    readString ((s.toList.flatMap Quoted.escape ++ ['"']) ++ rest) = some (some s, rest) := by
  rw [List.append_assoc, List.singleton_append, readString, Quoted.scan_flatMap]
  simp [Quoted.join_map_piece]

/-! ## Numbers -/

/-- A value may end here: nothing follows, or a comma or a closing bracket. -/
def Ends (rest : List Char) : Prop :=
  ∀ c ∈ rest.head?, c = ',' ∨ c = ']' ∨ c = '\x7d'

theorem ends_nil : Ends [] := by
  simp [Ends]

theorem ends_itemChars (items : List Json) (rest : List Char) : Ends (itemChars items ++ rest) := by
  cases items <;> simp [Ends, itemChars]

theorem ends_fieldChars (fields : List (String × Json)) (rest : List Char) :
    Ends (fieldChars fields ++ rest) := by
  cases fields <;> simp [Ends, fieldChars]

theorem toDigits_isDigit {n : Nat} {c : Char} (h : c ∈ Nat.toDigits 10 n) : c.isDigit = true :=
  Nat.isDigit_of_mem_toDigits (by omega) (by omega) h

theorem digitsValue_toDigits (n : Nat) : digitsValue (Nat.toDigits 10 n) = n :=
  Nat.ofDigitChars_toDigits (by omega) (by omega)

/-- Of the numbers only zero is written with a zero in front. -/
theorem head?_toDigits {n : Nat} (h : 0 < n) : (Nat.toDigits 10 n).head? ≠ some '0' := by
  induction n using Nat.strongRecOn with
  | ind n ih =>
    rw [Nat.toDigits_eq_if (by omega)]
    split_ifs with hlt
    · interval_cases n <;> decide
    · rw [List.head?_append_of_ne_nil _ (Nat.toDigits_ne_nil)]
      exact ih (n / 10) (by omega) (by omega)

theorem takeDigits_append {digits rest : List Char} (h : ∀ c ∈ digits, c.isDigit = true)
    (hrest : Ends rest) : takeDigits (digits ++ rest) = (digits, rest) := by
  have hhead : ∀ c ∈ rest.head?, c.isDigit = false := by
    intro c hc
    rcases hrest c hc with rfl | rfl | rfl <;> rfl
  rw [takeDigits, List.takeWhile_append_of_pos h, List.dropWhile_append_of_pos h]
  cases rest with
  | nil => simp
  | cons c rest =>
    have hc : c.isDigit = false := hhead c rfl
    simp [hc]

theorem readWhole_toDigits (n : Nat) {rest : List Char} (h : Ends rest) :
    readWhole (Nat.toDigits 10 n ++ rest) = some (Nat.toDigits 10 n, rest) := by
  rw [readWhole, takeDigits_append (fun c => toDigits_isDigit) h]
  rcases Nat.eq_zero_or_pos n with rfl | hn
  · rfl
  · have hhead := head?_toDigits hn
    split
    · next heq => exact absurd (Prod.mk.inj heq).1 Nat.toDigits_ne_nil
    · next heq => rw [(Prod.mk.inj heq).1] at hhead; exact absurd rfl hhead
    · next heq => rw [(Prod.mk.inj heq).1] at hhead; exact absurd rfl hhead
    · next heq => rw [(Prod.mk.inj heq).1, (Prod.mk.inj heq).2]

theorem readFraction_of_ends {rest : List Char} (h : Ends rest) :
    readFraction rest = some (none, rest) := by
  cases rest with
  | nil => rfl
  | cons c rest => rcases h c rfl with rfl | rfl | rfl <;> rfl

theorem readExponent_of_ends {rest : List Char} (h : Ends rest) :
    readExponent rest = some (none, rest) := by
  cases rest with
  | nil => rfl
  | cons c rest => rcases h c rfl with rfl | rfl | rfl <;> rfl

theorem readUnsigned_toDigits (negative : Bool) (n : Nat) {rest : List Char} (h : Ends rest) :
    readUnsigned negative (Nat.toDigits 10 n ++ rest) =
      some (⟨negative, Nat.toDigits 10 n, none, none⟩, rest) := by
  simp [readUnsigned, readWhole_toDigits n h, readFraction_of_ends h, readExponent_of_ends h]

/-- The parts of a written integer. -/
def intNumeral (n : Int) : Numeral :=
  ⟨n < 0, Nat.toDigits 10 n.natAbs, none, none⟩

theorem readNumeral_intChars (n : Int) {rest : List Char} (h : Ends rest) :
    readNumeral (intChars n ++ rest) = some (intNumeral n, rest) := by
  rw [intChars, intNumeral]
  split_ifs with hneg
  · show readUnsigned true (Nat.toDigits 10 (-n).toNat ++ rest) = _
    rw [readUnsigned_toDigits true _ h, show (-n).toNat = n.natAbs by omega]
    simp [hneg]
  · have hread := readUnsigned_toDigits false n.toNat h
    rw [show n.toNat = n.natAbs by omega] at hread ⊢
    rw [readNumeral, hread]
    · simp [hneg]
    · intro text heq
      have hmem : '-' ∈ Nat.toDigits 10 n.natAbs := by
        cases hd : Nat.toDigits 10 n.natAbs with
        | nil => exact absurd hd Nat.toDigits_ne_nil
        | cons c cs =>
          rw [hd] at heq
          rw [(List.cons.inj heq).1]
          exact List.mem_cons_self
      exact absurd (toDigits_isDigit hmem) (by decide)

theorem integer?_intNumeral {n : Int} (h : -2 ^ 63 ≤ n ∧ n < 2 ^ 64) :
    (intNumeral n).integer? = some n := by
  have hwhole : digitsValue (intNumeral n).whole = n.natAbs := digitsValue_toDigits _
  have hnegative : (intNumeral n).negative = decide (n < 0) := rfl
  show (if (intNumeral n).negative then
      if digitsValue (intNumeral n).whole = 0 || digitsValue (intNumeral n).whole > UInt64.size / 2
        then none else some (-(digitsValue (intNumeral n).whole : Int))
    else if digitsValue (intNumeral n).whole < UInt64.size
      then some (digitsValue (intNumeral n).whole : Int) else none) = some n
  rw [hwhole, hnegative]
  have hsize : UInt64.size = 2 ^ 64 := rfl
  by_cases hneg : n < 0
  · have hfits : ¬ (n.natAbs = 0 || n.natAbs > UInt64.size / 2) = true := by
      simp only [Bool.or_eq_true, decide_eq_true_eq, hsize]
      omega
    rw [if_pos (decide_eq_true hneg), if_neg hfits]
    congr 1
    omega
  · rw [if_neg (by simpa using hneg), if_pos (by omega)]
    congr 1
    omega

theorem toJson_intNumeral {n : Int} (h : -2 ^ 63 ≤ n ∧ n < 2 ^ 64) :
    (intNumeral n).toJson = .int n := by
  rw [Numeral.toJson, integer?_intNumeral h]

theorem readNumber_intChars {n : Int} (h : -2 ^ 63 ≤ n ∧ n < 2 ^ 64) {rest : List Char}
    (hrest : Ends rest) : readNumber (intChars n ++ rest) = some (.int n, rest) := by
  rw [readNumber, readNumeral_intChars n hrest]
  simp [toJson_intNumeral h]

/-! ## Values -/

theorem isBlank_of_digit {c : Char} (h : c = '-' ∨ c.isDigit = true) : isBlank c = false := by
  rcases h with rfl | h
  · rfl
  · simp only [isBlank, Bool.or_eq_false_iff, decide_eq_false_iff_not]
    refine ⟨⟨⟨?_, ?_⟩, ?_⟩, ?_⟩ <;> (rintro rfl; exact absurd h (by decide))

theorem intChars_eq_cons (n : Int) : ∃ c text, intChars n = c :: text ∧ (c = '-' ∨ c.isDigit = true) := by
  rw [intChars]
  split_ifs
  · exact ⟨'-', _, rfl, .inl rfl⟩
  · cases hdigits : Nat.toDigits 10 n.toNat with
    | nil => exact absurd hdigits Nat.toDigits_ne_nil
    | cons c text => exact ⟨c, text, rfl, .inr (toDigits_isDigit (hdigits ▸ List.mem_cons_self))⟩

/-- Written text starts with no blank, and not with the end of an array. -/
theorem chars_eq_cons {room : Nat} : ∀ {j : Json}, j.Plain room →
    ∃ c text, chars j = c :: text ∧ isBlank c = false ∧ c ≠ ']'
  | .null, _ => ⟨'n', _, rfl, rfl, by decide⟩
  | .bool true, _ => ⟨'t', _, rfl, rfl, by decide⟩
  | .bool false, _ => ⟨'f', _, rfl, rfl, by decide⟩
  | .int n, _ => by
      obtain ⟨c, text, heq, hc⟩ := intChars_eq_cons n
      refine ⟨c, text, heq, isBlank_of_digit hc, ?_⟩
      rintro rfl
      rcases hc with hc | hc <;> exact absurd hc (by decide)
  | .str _, _ => ⟨'"', _, rfl, rfl, by decide⟩
  | .arr [], _ => ⟨'[', _, rfl, rfl, by decide⟩
  | .arr (_ :: _), _ => ⟨'[', _, rfl, rfl, by decide⟩
  | .obj [], _ => ⟨'\x7b', _, rfl, rfl, by decide⟩
  | .obj (_ :: _), _ => ⟨'\x7b', _, rfl, rfl, by decide⟩

theorem length_itemChars_pos (items : List Json) : 0 < (itemChars items).length := by
  cases items <;> simp [itemChars]

theorem length_fieldChars_pos (fields : List (String × Json)) : 0 < (fieldChars fields).length := by
  cases fields <;> simp [fieldChars]

theorem skipBlanks_cons {c : Char} (h : isBlank c = false) (text : List Char) :
    skipBlanks (c :: text) = c :: text := by
  rw [skipBlanks, List.dropWhile_cons, h]
  rfl

theorem nested_of_pos {room : Nat} (h : 0 < room) (j : Json) : nested room j = j := by
  rw [nested, if_neg (by omega)]

/-- A sign or a digit tells a number. -/
theorem readValue_intChars (fuel room : Nat) {n : Int} (h : -2 ^ 63 ≤ n ∧ n < 2 ^ 64)
    {rest : List Char} (hrest : Ends rest) :
    readValue (fuel + 1) room (intChars n ++ rest) = some (.int n, rest) := by
  have hread := readNumber_intChars h hrest
  obtain ⟨c, text, heq, hc⟩ := intChars_eq_cons n
  rw [heq, List.cons_append] at hread ⊢
  have hother : c ≠ '"' ∧ c ≠ '[' ∧ c ≠ '\x7b' ∧ c ≠ 'n' ∧ c ≠ 't' ∧ c ≠ 'f' := by
    refine ⟨?_, ?_, ?_, ?_, ?_, ?_⟩ <;> (rintro rfl; rcases hc with hc | hc <;> exact absurd hc (by decide))
  obtain ⟨hquote, hbracket, hbrace, hn, ht, hf⟩ := hother
  rw [readValue, skipBlanks_cons (isBlank_of_digit hc)]
  split
  · next heq => exact absurd (List.cons.inj heq).1 hquote
  · next heq => exact absurd (List.cons.inj heq).1 hbracket
  · next heq => exact absurd (List.cons.inj heq).1 hbrace
  · next heq => exact absurd (List.cons.inj heq).1 hn
  · next heq => exact absurd (List.cons.inj heq).1 ht
  · next heq => exact absurd (List.cons.inj heq).1 hf
  · exact hread

/-- An array that does not end at once has items. -/
theorem readValue_bracket (fuel : Nat) {room : Nat} {text rest : List Char} {items : List Json}
    (hroom : 0 < room) (hblank : skipBlanks text = text) (hopen : ∀ rest, text ≠ ']' :: rest)
    (hitems : readItems fuel (room - 1) [] text = some (items, rest)) :
    readValue (fuel + 1) room ('[' :: text) = some (.arr items, rest) := by
  rw [readValue, skipBlanks_cons (by decide)]
  simp only [hblank]
  rw [hitems]
  show some (nested room (.arr items), rest) = _
  rw [nested_of_pos hroom]

/-- An object that does not end at once starts with a name. -/
theorem readValue_brace (fuel : Nat) {room : Nat} {text rest : List Char} {value : Json}
    (hroom : 0 < room) (hfields : readFields fuel (room - 1) (some []) ('"' :: text) = some (value, rest)) :
    readValue (fuel + 1) room ('\x7b' :: '"' :: text) = some (value, rest) := by
  show readFields fuel (room - 1) (some []) ('"' :: text) >>= _ = _
  rw [hfields]
  show some (nested room value, rest) = _
  rw [nested_of_pos hroom]

theorem readItems_last {fuel room : Nat} {text : List Char} (rest : List Char) {item : Json}
    (done : List Json) (h : readValue fuel room text = some (item, ']' :: rest)) :
    readItems (fuel + 1) room done text = some ((item :: done).reverse, rest) := by
  rw [readItems, h]
  rfl

theorem readItems_more {fuel room : Nat} {text : List Char} (rest : List Char) {item : Json}
    (done : List Json) (h : readValue fuel room text = some (item, ',' :: rest)) :
    readItems (fuel + 1) room done text = readItems fuel room (item :: done) rest := by
  rw [readItems, h]
  rfl

/-- Behind a written name and a colon there is the value, and then more fields or the end. -/
theorem readFields_quoted (fuel room : Nat) (name : String) (done : List (String × Json))
    (text : List Char) :
    ∃ next : Json × List Char → Option (Json × List Char),
      readFields (fuel + 1) room (some done) (quoted name ++ ':' :: text) =
        readValue fuel room text >>= next ∧
      (∀ value rest, next (value, ',' :: rest) =
        readFields fuel room (some ((name, value) :: done)) rest) ∧
      ∀ value rest, next (value, '\x7d' :: rest) = some (.obj ((name, value) :: done).reverse, rest) := by
  refine ⟨?next, ?run, ?more, ?last⟩
  case run =>
    show readString ((name.toList.flatMap Quoted.escape ++ ['"']) ++ ':' :: text) >>= _ = _
    rw [readString_quoted]
    rfl
  case more => exact fun _ _ => rfl
  case last => exact fun _ _ => rfl

theorem readFields_last {fuel room : Nat} {text : List Char} (rest : List Char) (name : String)
    {value : Json} (done : List (String × Json))
    (h : readValue fuel room text = some (value, '\x7d' :: rest)) :
    readFields (fuel + 1) room (some done) (quoted name ++ ':' :: text) =
      some (.obj ((name, value) :: done).reverse, rest) := by
  obtain ⟨next, hnext, -, hlast⟩ := readFields_quoted fuel room name done text
  rw [hnext, h]
  exact hlast value rest

theorem readFields_more {fuel room : Nat} {text : List Char} (rest : List Char) (name : String)
    {value : Json} (done : List (String × Json))
    (h : readValue fuel room text = some (value, ',' :: rest)) :
    readFields (fuel + 1) room (some done) (quoted name ++ ':' :: text) =
      readFields fuel room (some ((name, value) :: done)) rest := by
  obtain ⟨next, hnext, hmore, -⟩ := readFields_quoted fuel room name done text
  rw [hnext, h]
  exact hmore value rest

mutual

/-- **The reader gets a plain value back from what was written for it.** -/
theorem readValue_chars {room : Nat} : ∀ {j : Json}, j.Plain room → ∀ (fuel : Nat) (rest : List Char),
    2 * (chars j).length ≤ fuel + 1 → Ends rest →
      readValue (fuel + 1) room (chars j ++ rest) = some (j, rest)
  | .null, _, fuel, _, _, _ => rfl
  | .bool true, _, fuel, _, _, _ => rfl
  | .bool false, _, fuel, _, _, _ => rfl
  | .int n, h, fuel, rest, _, hrest => readValue_intChars fuel room h hrest
  | .str s, _, fuel, rest, _, _ => by
      show readString ((s.toList.flatMap Quoted.escape ++ ['"']) ++ rest) >>= _ = _
      rw [readString_quoted]
      rfl
  | .arr [], h, fuel, rest, _, _ => by
      show some (nested room (.arr []), rest) = _
      rw [nested_of_pos h.1]
  | .arr (item :: items), h, fuel, rest, hfuel, _ => by
      have hlength : (chars (.arr (item :: items))).length = (itemChars (item :: items)).length := rfl
      have hpos := length_itemChars_pos (item :: items)
      obtain ⟨fuel, rfl⟩ : ∃ less, fuel = less + 1 := ⟨fuel - 1, by omega⟩
      have hitems := readItems_chars h.2 (List.cons_ne_nil item items) fuel [] rest (by omega)
      obtain ⟨c, text, heq, hblank, hc⟩ := chars_eq_cons h.2.1
      have htail : (itemChars (item :: items)).tail ++ rest = c :: (text ++ itemChars items ++ rest) := by
        show (chars item ++ itemChars items) ++ rest = _
        rw [heq]
        rfl
      rw [htail] at hitems
      show readValue (fuel + 1 + 1) room ('[' :: ((itemChars (item :: items)).tail ++ rest)) = _
      rw [htail]
      exact readValue_bracket _ h.1 (skipBlanks_cons hblank _) (fun _ h => hc (List.cons.inj h).1) hitems
  | .obj [], h, fuel, rest, _, _ => by
      show some (nested room (.obj []), rest) = _
      rw [nested_of_pos h.1]
  | .obj (field :: fields), h, fuel, rest, hfuel, _ => by
      have hlength : (chars (.obj (field :: fields))).length = (fieldChars (field :: fields)).length := rfl
      have hpos := length_fieldChars_pos (field :: fields)
      obtain ⟨fuel, rfl⟩ : ∃ less, fuel = less + 1 := ⟨fuel - 1, by omega⟩
      exact readValue_brace _ h.1
        (readFields_chars h.2 (List.cons_ne_nil field fields) fuel [] rest (by omega))

theorem readItems_chars {room : Nat} : ∀ {items : List Json}, AllPlain room items → items ≠ [] →
    ∀ (fuel : Nat) (done : List Json) (rest : List Char), 2 * (itemChars items).length ≤ fuel + 2 →
      readItems (fuel + 1) room done ((itemChars items).tail ++ rest) = some (done.reverse ++ items, rest)
  | item :: items, h, _, fuel, done, rest, hfuel => by
      have hlength : (itemChars (item :: items)).length =
          (chars item).length + (itemChars items).length + 1 := by
        simp [itemChars]
      have hpos := length_itemChars_pos items
      obtain ⟨fuel, rfl⟩ : ∃ less, fuel = less + 1 := ⟨fuel - 1, by omega⟩
      have hitem := readValue_chars h.1 fuel _ (by omega) (ends_itemChars items rest)
      show readItems (fuel + 1 + 1) room done (chars item ++ itemChars items ++ rest) = _
      rw [List.append_assoc]
      match items, h.2 with
      | [], _ =>
        have hlast := readItems_last rest done hitem
        simpa using hlast
      | next :: others, hrest =>
        have hmore := readItems_more ((itemChars (next :: others)).tail ++ rest) done hitem
        rw [hmore, readItems_chars hrest (List.cons_ne_nil next others) fuel _ rest (by omega)]
        simp

theorem readFields_chars {room : Nat} : ∀ {fields : List (String × Json)}, FieldsPlain room fields →
    fields ≠ [] → ∀ (fuel : Nat) (done : List (String × Json)) (rest : List Char),
      2 * (fieldChars fields).length ≤ fuel + 2 →
      readFields (fuel + 1) room (some done) ((fieldChars fields).tail ++ rest) =
        some (.obj (done.reverse ++ fields), rest)
  | (name, value) :: fields, h, _, fuel, done, rest, hfuel => by
      have hlength : (fieldChars ((name, value) :: fields)).length =
          (quoted name).length + (chars value).length + (fieldChars fields).length + 2 := by
        simp only [fieldChars, List.length_cons, List.length_append]
        omega
      have hpos := length_fieldChars_pos fields
      obtain ⟨fuel, rfl⟩ : ∃ less, fuel = less + 1 := ⟨fuel - 1, by omega⟩
      have hvalue := readValue_chars h.1 fuel _ (by omega) (ends_fieldChars fields rest)
      show readFields (fuel + 1 + 1) room (some done)
        (quoted name ++ ':' :: (chars value ++ fieldChars fields) ++ rest) = _
      rw [List.append_assoc, List.cons_append, List.append_assoc]
      match fields, h.2 with
      | [], _ =>
        have hlast := readFields_last rest name done hvalue
        simpa using hlast
      | next :: others, hrest =>
        have hmore :=
          readFields_more ((fieldChars (next :: others)).tail ++ rest) name done hvalue
        rw [hmore, readFields_chars hrest (List.cons_ne_nil next others) fuel _ rest (by omega)]
        simp

end

/-- **A plain value is read back from its text.** -/
theorem ofText?_toText {j : Json} (h : j.Plain depthLimit) : ofText? j.toText = some j := by
  have hread := readValue_chars h (2 * (chars j).length + 1) [] (by omega) ends_nil
  rw [List.append_nil] at hread
  simp only [ofText?, toList_toText, hread, Option.bind_eq_bind, Option.bind_some]
  rfl

end CardArena.Json
