import BucketAdmin.Json.Record
import BucketAdmin.Proofs.Except
import BucketAdmin.Proofs.Json.Parse

/-!
# Readers of values

Each reader takes the value that the writer makes of some datum back to that datum, and so the
field of a record with that reader lets the value through. No reader tells apart two strings that
mean one text (`Reader.Blind`).
-/

namespace BucketAdmin.Json

namespace Value

@[simp] theorem text_ofText (s : String) : text (.ofText s) = .ok s := by
  simp [text, ofText]

@[simp] theorem flag_bool (b : Bool) : flag (.bool b) = .ok b := rfl

theorem unsigned_ofNat {width : Width} {n : Nat} (h : n < width.bound)
    (h64 : width.bound ≤ UInt64.size) : unsigned width (.ofNat n) = .ok n := by
  have hread := Number.read?_numeral (Nat.lt_of_lt_of_le h h64)
  simp [unsigned, ofNat, hread, h]

@[simp] theorem uint8_ofNat (n : UInt8) : uint8 (.ofNat n.toNat) = .ok n := by
  rw [uint8, unsigned_ofNat n.toNat_lt_size (by decide)]
  simp [Except.map]

@[simp] theorem uint16_ofNat (n : UInt16) : uint16 (.ofNat n.toNat) = .ok n := by
  rw [uint16, unsigned_ofNat n.toNat_lt_size (by decide)]
  simp [Except.map]

@[simp] theorem uint64_ofNat (n : UInt64) : uint64 (.ofNat n.toNat) = .ok n := by
  rw [uint64, unsigned_ofNat n.toNat_lt_size (by decide)]
  simp [Except.map]

theorem list_ofList {α : Type} {item : Reader α} {write : α → Value} {xs : List α}
    (h : ∀ x ∈ xs, item (write x) = .ok x) : list item (.ofList (xs.map write)) = .ok xs := by
  rw [ofList, list, mapM_map_eq_ok h, ok_bind, if_pos rfl]

theorem variant_ofText {α : Type} {known : List (String × α)} {name : String} {a : α}
    (h : known.lookup name = some a) : variant known (.ofText name) = .ok a := by
  simp [variant, ofText, variantNamed, h]

end Value

theorem Field.check_required {α : Type} {key : String} {reader : Reader α} {v : Value} {a : α}
    (h : reader v = .ok a) : (Field.required key reader).check v = .ok () := by
  simp [Field.required, h, Except.map]

theorem Field.check_optional {α : Type} {key : String} {reader : Reader α} {v : Value} {a : α}
    (h : reader v = .ok a) : (Field.optional key reader).check v = .ok () := by
  simp [Field.optional, h, Except.map]

/-! ## Readers that do not see how a text is spelled -/

/-- The values are one, or strings that mean one text. -/
inductive Value.Alike : Value → Value → Prop
  | refl (v : Value) : Alike v v
  | text {raw raw' : Bytes} (h : unquote? raw = unquote? raw') : Alike (.string raw) (.string raw')

/-- The reader does not look at how a text is spelled. -/
def Reader.Blind {α : Type} (reader : Reader α) : Prop :=
  ∀ {v v' : Value}, v.Alike v' → reader v = reader v'

namespace Value

theorem Alike.shape? {v v' : Value} (h : v.Alike v') : v.shape? = v'.shape? := by
  cases h with
  | refl => rfl
  | text h => rw [Value.shape?, Value.shape?, h]

theorem Alike.mismatch {v v' : Value} (h : v.Alike v') (expected : Expected) :
    v.mismatch expected = v'.mismatch expected := by
  rw [Value.mismatch, Value.mismatch, h.shape?]

theorem blind_text : Reader.Blind text := by
  intro v v' h
  cases h with
  | refl => rfl
  | text h => rw [text, text, h]

theorem blind_flag : Reader.Blind flag := by
  intro v v' h
  cases h with
  | refl => rfl
  | text h => exact congrArg Except.error (Alike.text h |>.mismatch _)

theorem blind_unsigned (width : Width) : Reader.Blind (unsigned width) := by
  intro v v' h
  cases h with
  | refl => rfl
  | text h => exact congrArg Except.error (Alike.text h |>.mismatch _)

theorem blind_variant {α : Type} (known : List (String × α)) : Reader.Blind (variant known) := by
  intro v v' h
  cases h with
  | refl => rfl
  | text h => rw [variant, variant, variantNamed, variantNamed, h]

theorem blind_uint8 : Reader.Blind uint8 := fun h => by rw [uint8, uint8, blind_unsigned .w8 h]

theorem blind_uint16 : Reader.Blind uint16 := fun h => by
  rw [uint16, uint16, blind_unsigned .w16 h]

theorem blind_uint64 : Reader.Blind uint64 := fun h => by
  rw [uint64, uint64, blind_unsigned .w64 h]

end Value

end BucketAdmin.Json
