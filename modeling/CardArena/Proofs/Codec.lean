import Mathlib
import CardArena.Proofs.Written
import CardArena.Wire.Identifier

/-!
# Codecs

A type of the library comes with a writer and a reader of JSON, `toJson` and `ofJson`, which are written
apart from each other.  `Json.Codes` says that they belong together: the reader gets every value back,
and what is written is plain (`Json.Plain`), which is what its text needs to be read back.  How deep it
nests is part of the statement, since a document has to stay within the limit of the reader of text.

Codecs are put together as their types are.  There is one law for each way of writing a value: by a name
(`codes_name`), as a list, as something that may be absent, as the fields of a record (`Codes.record`),
and as the fields of a variant behind its tag (`Codes.tagged`).  The codec of a type is then one
application of such a law, whose last two parts go through the fields: that they are plain, and that
each is read under the name it was written under.
-/

namespace CardArena

@[simp]
theorem Decoded.ok_bind {α β : Type} (a : α) (f : α → Decoded β) : (Except.ok a >>= f) = f a := rfl

namespace Json

@[simp]
theorem plain_str (room : Nat) (s : String) : (str s).Plain room := trivial

@[simp]
theorem plain_bool (room : Nat) (b : Bool) : (bool b).Plain room := trivial

@[simp]
theorem fieldsPlain_nil (room : Nat) : FieldsPlain room [] := trivial

@[simp]
theorem fieldsPlain_cons {room : Nat} {name : String} {j : Json} {fields : List (String × Json)} :
    FieldsPlain room ((name, j) :: fields) ↔ j.Plain room ∧ FieldsPlain room fields := Iff.rfl

/-- Whatever is encoded is plain, at most `room` containers deep, and is decoded to what it was. -/
structure Codes {α : Type} (room : Nat) (encode : α → Json) (decode : Decoder α) : Prop where
  plain : ∀ a {more : Nat}, room ≤ more → (encode a).Plain more
  decodes : ∀ a, decode (encode a) = .ok a

namespace Codes

variable {α : Type} {room : Nat} {encode : α → Json} {decode : Decoder α}

theorem list (h : Codes room encode decode) :
    Codes (room + 1) (ofList encode) (decodeList decode) where
  plain xs more hmore := by
    refine ⟨by omega, allPlain_iff.mpr ?_⟩
    intro item hitem
    obtain ⟨a, -, rfl⟩ := List.mem_map.mp hitem
    exact h.plain a (by omega)
  decodes xs := by
    show (xs.map encode).mapM decode = .ok xs
    induction xs with
    | nil => rfl
    | cons a xs ih =>
      rw [List.map_cons, List.mapM_cons, h.decodes a, ih]
      rfl

/-- A value that stands for another is encoded as that one. -/
theorem wrap {β : Type} {out : β → α} {into : α → β} (h : Codes room encode decode)
    (hinv : ∀ b, into (out b) = b) :
    Codes room (fun b => encode (out b)) (fun j => (decode j).map into) where
  plain b _ hmore := h.plain (out b) hmore
  decodes b := by
    rw [h.decodes (out b)]
    exact congrArg Except.ok (hinv b)

/-- Absence is told from every value if no value is written as null. -/
theorem nullable (h : Codes room encode decode) (hnull : ∀ a, encode a ≠ .null) :
    Codes room (ofOption encode) (decodeNullable decode) where
  plain
    | none => fun _ => trivial
    | some a => h.plain a
  decodes
    | none => rfl
    | some a => by
      show decodeNullable decode (encode a) = .ok (some a)
      have hdecode := h.decodes a
      rw [decodeNullable, hdecode]
      · rfl
      · exact hnull a

end Codes

/-! ## Single values -/

theorem codes_bool : Codes 0 .bool decodeBool where
  plain _ _ _ := trivial
  decodes _ := rfl

theorem codes_string : Codes 0 .str decodeString where
  plain _ _ _ := trivial
  decodes _ := rfl

/-- Names that a table tells apart are read back, on a second reading as well. -/
theorem codes_name {α : Type} {table : List (String × α)} {name : α → String} (reading : Reading)
    (h : ∀ a, table.lookup (name a) = some a) :
    Codes 0 (fun a => .str (name a)) (decodeName reading table) where
  plain _ _ _ := trivial
  decodes a := by
    simp only [decodeName, h a]

theorem decodeIntIn_of_mem {low high n : Int} (h : low ≤ n ∧ n ≤ high) :
    decodeIntIn low high (.int n) = .ok n := by
  rw [decodeIntIn, if_pos h]

theorem codes_int32 : Codes 0 ofInt32 decodeInt32 where
  plain n _ _ := by
    have hlow := Int32.le_toInt n
    have hhigh := Int32.toInt_lt n
    show -2 ^ 63 ≤ n.toInt ∧ n.toInt < 2 ^ 64
    omega
  decodes n := by
    rw [decodeInt32, ofInt32, decodeIntIn_of_mem ⟨n.minValue_le_toInt, n.toInt_le⟩]
    exact congrArg Except.ok n.ofInt_toInt

theorem codes_unsigned {α : Type} {size : Nat} {toNat : α → Nat} {ofNat : Nat → α}
    (hsize : size ≤ 2 ^ 64) (hlt : ∀ a, toNat a < size) (hinv : ∀ a, ofNat (toNat a) = a) :
    Codes 0 (fun a => .int (toNat a))
      (fun j => (decodeIntIn 0 (size - 1) j).map fun n => ofNat n.toNat) where
  plain a _ _ := by
    have := hlt a
    show -2 ^ 63 ≤ (toNat a : Int) ∧ (toNat a : Int) < 2 ^ 64
    omega
  decodes a := by
    have := hlt a
    show (decodeIntIn 0 (size - 1) (.int (toNat a))).map (fun n => ofNat n.toNat) = _
    rw [decodeIntIn_of_mem (by omega)]
    exact congrArg Except.ok (hinv a)

theorem codes_uInt8 : Codes 0 ofUInt8 decodeUInt8 :=
  codes_unsigned (by decide) UInt8.toNat_lt_size fun _ => UInt8.ofNat_toNat

theorem codes_uInt32 : Codes 0 ofUInt32 decodeUInt32 :=
  codes_unsigned (by decide) UInt32.toNat_lt_size fun _ => UInt32.ofNat_toNat

theorem codes_uInt64 : Codes 0 ofUInt64 decodeUInt64 :=
  codes_unsigned (by decide) UInt64.toNat_lt_size fun _ => UInt64.ofNat_toNat

end Json

/-! ## Records -/

namespace Record

theorem lookup_cons_ite (name other : String) (j : Json) (fields : List (String × Json)) :
    ((other, j) :: fields).lookup name = if name = other then some j else fields.lookup name := by
  by_cases h : name = other
  · rw [if_pos h, h, List.lookup_cons_self]
  · have hne : (name == other) = false := by simpa using h
    rw [if_neg h, List.lookup_cons, hne]

theorem repeated?_of_nodup {fields : List (String × Json)} (h : (fields.map Prod.fst).Nodup) :
    repeated? fields = none := by
  induction fields with
  | nil => rfl
  | cons field rest ih =>
    obtain ⟨name, j⟩ := field
    rw [List.map_cons, List.nodup_cons] at h
    have hlookup : rest.lookup name = none := by
      rw [List.lookup_eq_none_iff]
      intro other hother
      have hne : name ≠ other.1 := by
        intro heq
        exact h.1 (List.mem_map.mpr ⟨other, hother, heq.symm⟩)
      simpa using hne
    rw [repeated?, hlookup]
    exact ih h.2

/-- Fields that are just the known ones, each once, are a record. -/
theorem ofJson_obj {names : List String} {fields : List (String × Json)}
    (hnames : fields.map Prod.fst = names) (hdistinct : names.Nodup) :
    ofJson names (.obj fields) = .ok ⟨fields, false⟩ := by
  have hknown : fields.filter (fun field => names.contains field.1) = fields := by
    rw [List.filter_eq_self]
    intro field hfield
    rw [List.contains_iff_mem, ← hnames]
    exact List.mem_map_of_mem hfield
  subst hnames
  simp only [ofJson, hknown, repeated?_of_nodup hdistinct]

/-- Only the fields that are known are looked at. -/
theorem ofJson_known (names : List String) (fields : List (String × Json)) :
    ofJson names (.obj fields) =
      ofJson names (.obj (fields.filter fun field => names.contains field.1)) := by
  simp only [ofJson, List.filter_filter, Bool.and_self]

/-- A field that is not known is skipped, whatever it holds. -/
theorem ofJson_unknown {names : List String} {name : String} (h : name ∉ names) (j : Json)
    (before after : List (String × Json)) :
    ofJson names (.obj (before ++ (name, j) :: after)) = ofJson names (.obj (before ++ after)) := by
  have hskip : names.contains name = false := by simpa using h
  have hknown : (before ++ (name, j) :: after).filter (fun field => names.contains field.1) =
      (before ++ after).filter (fun field => names.contains field.1) := by
    simp only [List.filter_append, List.filter_cons, hskip, Bool.false_eq_true, if_false]
  rw [ofJson_known, hknown, ← ofJson_known]

@[simp]
theorem get_cons {α : Type} (name other : String) (j : Json) (fields : List (String × Json))
    (positional : Bool) (decode : Decoder α) :
    (⟨(other, j) :: fields, positional⟩ : Record).get name decode =
      if name = other then decode j else (⟨fields, positional⟩ : Record).get name decode := by
  rw [get, lookup_cons_ite]
  split_ifs <;> rfl

@[simp]
theorem getD_cons {α : Type} (name other : String) (j : Json) (fields : List (String × Json))
    (positional : Bool) (default : α) (decode : Decoder α) :
    (⟨(other, j) :: fields, positional⟩ : Record).getD name default decode =
      if name = other then decode j
      else (⟨fields, positional⟩ : Record).getD name default decode := by
  rw [getD, lookup_cons_ite]
  split_ifs <;> rfl

@[simp]
theorem get?_cons {α : Type} (name other : String) (j : Json) (fields : List (String × Json))
    (positional : Bool) (decode : Decoder α) :
    (⟨(other, j) :: fields, positional⟩ : Record).get? name decode =
      if name = other then Json.decodeNullable decode j
      else (⟨fields, positional⟩ : Record).get? name decode := by
  rw [get?, lookup_cons_ite]
  by_cases h : name = other
  · rw [if_pos h, if_pos h]
  · rw [if_neg h, if_neg h, get?]

end Record

/-- A record is written as an object of all its fields. -/
theorem Json.Codes.record {α : Type} {room : Nat} {names : List String} {encode : α → Json}
    {decode : Record → Decoded α} (hdistinct : names.Nodup)
    (h : ∀ a, ∃ fields, encode a = .obj fields ∧ fields.map Prod.fst = names ∧
      FieldsPlain room fields ∧ decode ⟨fields, false⟩ = .ok a) :
    Codes (room + 1) encode (fun j => Record.ofJson names j >>= decode) where
  plain a more hmore := by
    obtain ⟨fields, hencode, -, hplain, -⟩ := h a
    rw [hencode]
    exact ⟨by omega, FieldsPlain.mono (by omega) hplain⟩
  decodes a := by
    obtain ⟨fields, hencode, hnames, -, hdecode⟩ := h a
    show Record.ofJson names (encode a) >>= decode = .ok a
    rw [hencode, Record.ofJson_obj hnames hdistinct]
    exact hdecode

/-! ## Tagged values -/

/-- A tag is split from the other fields. -/
theorem Tagged.split_obj (reading : Reading) (tag variant : String) (variants : List String)
    {fields : List (String × Json)} (h : tag ∉ fields.map Prod.fst) :
    split reading tag variants (.obj ((tag, .str variant) :: fields)) =
      .ok ⟨variant, .obj fields⟩ := by
  have hrest : ∀ field ∈ fields, field.1 ≠ tag := by
    rintro field hfield rfl
    exact h (List.mem_map_of_mem hfield)
  have htag : fields.filter (fun field => decide (field.1 = tag)) = [] := by
    rw [List.filter_eq_nil_iff]
    intro field hfield
    simpa using hrest field hfield
  have hother : fields.filter (fun field => decide (field.1 ≠ tag)) = fields := by
    rw [List.filter_eq_self]
    intro field hfield
    simpa using hrest field hfield
  have htagged : ((tag, Json.str variant) :: fields).filter (fun field => decide (field.1 = tag)) =
      [(tag, .str variant)] := by
    simp [htag]
  have huntagged : ((tag, Json.str variant) :: fields).filter (fun field => decide (field.1 ≠ tag)) =
      fields := by
    simpa using hother
  rw [split, htagged, huntagged]
  rfl

@[simp]
theorem Tagged.record_obj (variant : String) (names : List String) (fields : List (String × Json)) :
    (⟨variant, .obj fields⟩ : Tagged).record names = Record.ofJson names (.obj fields) := rfl

@[simp]
theorem Tagged.unit_obj {α : Type} (variant : String) (fields : List (String × Json)) (value : α) :
    (⟨variant, .obj fields⟩ : Tagged).unit value = .ok value := rfl

/-- What is written for a variant is read by the reader of that variant. -/
theorem Json.decodeType_ofType {α : Type} (reading : Reading) (variants : List String)
    (decode : Tagged → Decoded α) (variant : String) {fields : List (String × Json)}
    (husable : fieldsUsable fields = true) (htag : "type" ∉ fields.map Prod.fst) :
    decodeType reading variants decode (ofType variant fields) = decode ⟨variant, .obj fields⟩ := by
  have hfields : (ofType variant fields).isUsable = true := by
    rw [ofType, isUsable, fieldsUsable, husable]
    rfl
  rw [decodeType, Tagged.ofJson, if_pos hfields, ofType, Tagged.split_obj _ _ _ _ htag]
  rfl

/-- A variant is written as its tag and all its fields. -/
theorem Json.Codes.tagged {α : Type} {room : Nat} {encode : α → Json} {decode : Tagged → Decoded α}
    (reading : Reading) (variants : List String)
    (h : ∀ a, ∃ variant fields, encode a = ofType variant fields ∧ "type" ∉ fields.map Prod.fst ∧
      FieldsPlain room fields ∧ decode ⟨variant, .obj fields⟩ = .ok a) :
    Codes (room + 1) encode (decodeType reading variants decode) where
  plain a more hmore := by
    obtain ⟨variant, fields, hencode, -, hplain, -⟩ := h a
    rw [hencode]
    exact ⟨by omega, trivial, FieldsPlain.mono (by omega) hplain⟩
  decodes a := by
    obtain ⟨variant, fields, hencode, htag, hplain, hdecode⟩ := h a
    rw [hencode, decodeType_ofType reading variants decode variant hplain.usable htag]
    exact hdecode

/-! ## Handles and attributes -/

theorem PlayerId.codes : Json.Codes 0 PlayerId.toJson PlayerId.ofJson :=
  Json.codes_uInt8.wrap fun _ => rfl

theorem CardId.codes : Json.Codes 0 CardId.toJson CardId.ofJson :=
  Json.codes_uInt32.wrap fun _ => rfl

theorem LiveId.codes : Json.Codes 0 LiveId.toJson LiveId.ofJson :=
  Json.codes_uInt64.wrap fun _ => rfl

theorem NetHandle.codes : Json.Codes 0 NetHandle.toJson NetHandle.ofJson :=
  Json.codes_uInt32.wrap fun _ => rfl

namespace Attributes

theorem ofList_entries (a : Attributes) : ofList a.entries = a := by
  have hentries : (ofList a.entries).entries = a.entries := entries_foldl_set a.entries empty a.distinct
  cases hlist : ofList a.entries with
  | mk entries distinct =>
    rw [hlist] at hentries
    cases a
    cases hentries
    rfl

/-- Entries are read back one by one. -/
theorem mapM_decodeInt32 (entries : List (String × Amount)) :
    ((entries.map fun (name, value) => (name, Json.ofInt32 value)).mapM
      fun (name, j) => return (name, ← Json.decodeInt32 j)) = (.ok entries : Decoded _) := by
  induction entries with
  | nil => rfl
  | cons entry rest ih =>
    obtain ⟨name, value⟩ := entry
    rw [List.map_cons, List.mapM_cons, ih]
    show (do return (← (do return (name, ← Json.decodeInt32 (Json.ofInt32 value)))) :: rest :
      Decoded (List (String × Amount))) = _
    rw [Json.codes_int32.decodes]
    rfl

theorem codes : Json.Codes 1 Attributes.toJson Attributes.ofJson where
  plain a more hmore := by
    refine ⟨by omega, Json.fieldsPlain_iff.mpr ?_⟩
    intro field hfield
    obtain ⟨entry, -, rfl⟩ := List.mem_map.mp hfield
    exact Json.codes_int32.plain entry.2 (Nat.zero_le _)
  decodes a := by
    show (do
      let pairs ← (a.entries.map fun (name, value) => (name, Json.ofInt32 value)).mapM
        (fun (name, j) => return (name, ← Json.decodeInt32 j))
      return ofList pairs : Decoded Attributes) = _
    rw [mapM_decodeInt32, Decoded.ok_bind, ofList_entries]
    rfl

end Attributes

end CardArena
