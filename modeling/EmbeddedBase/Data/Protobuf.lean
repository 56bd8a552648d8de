import Mathlib.Algebra.Ring.Nat
import Mathlib.Data.List.Basic

/-!
# The protobuf wire format

Base-128 numbers, and messages as sequences of numbered fields that hold a number or a
string of bytes.  What was written can be read back, whatever follows it.
-/

namespace EmbeddedBase.Data.Protobuf

/-! ## Base-128 numbers -/

/-- The groups of seven bits of a number, lowest first, at most `more + 1` of them; every
byte but the last has its high bit set. -/
def groups : Nat → Nat → List (BitVec 8)
  | 0, value => [BitVec.ofNat 8 value]
  | more + 1, value =>
      if value < 128 then
        [BitVec.ofNat 8 value]
      else
        BitVec.ofNat 8 (value % 128 + 128) :: groups more (value / 128)

/-- A number below `2^64`. -/
def varint (value : Nat) : List (BitVec 8) :=
  groups 9 value

/-- The number that starts `bytes`, and the bytes after it. -/
def readVarint : List (BitVec 8) → Option (Nat × List (BitVec 8))
  | [] => none
  | byte :: bytes =>
      if byte.toNat < 128 then
        some (byte.toNat, bytes)
      else
        (readVarint bytes).map fun (value, rest) => (byte.toNat - 128 + 128 * value, rest)

theorem readVarint_small {value : Nat} (small : value < 128) (rest : List (BitVec 8)) :
    readVarint ([BitVec.ofNat 8 value] ++ rest) = some (value, rest) := by
  have byte : (BitVec.ofNat 8 value).toNat = value := Nat.mod_eq_of_lt (by omega)
  simp only [List.singleton_append, readVarint, byte, if_pos small]

theorem readVarint_groups (more : Nat) {value : Nat} (fits : value < 128 ^ (more + 1))
    (rest : List (BitVec 8)) : readVarint (groups more value ++ rest) = some (value, rest) := by
  induction more generalizing value with
  | zero => exact readVarint_small (by omega) rest
  | succ more ih =>
      rw [groups]
      split
      · rename_i small
        exact readVarint_small small rest
      · rename_i large
        have byte : (BitVec.ofNat 8 (value % 128 + 128)).toNat = value % 128 + 128 :=
          Nat.mod_eq_of_lt (by omega)
        have quotient : value / 128 < 128 ^ (more + 1) := by
          rw [Nat.pow_succ] at fits
          exact Nat.div_lt_of_lt_mul (by rw [Nat.mul_comm]; exact fits)
        rw [List.cons_append, readVarint, byte, if_neg (by omega), ih quotient]
        simp only [Option.map_some, Option.some.injEq, Prod.mk.injEq, and_true]
        omega

@[simp]
theorem readVarint_varint {value : Nat} (fits : value < 2 ^ 64) (rest : List (BitVec 8)) :
    readVarint (varint value ++ rest) = some (value, rest) :=
  readVarint_groups 9 (Nat.lt_trans fits (by decide)) rest

theorem varint_ne_nil (value : Nat) : varint value ≠ [] := by
  rw [varint, groups]
  split <;> exact List.cons_ne_nil _ _

/-! ## Fields -/

/-- What a field holds. -/
inductive Payload where
  | number (value : Nat)
  | bytes (content : List (BitVec 8))
  deriving DecidableEq

/-- A numbered field of a message. -/
structure Field where
  number : Nat
  payload : Payload
  deriving DecidableEq

namespace Field

/-- The field number and everything the field counts are below the 64 bits of a varint. -/
def Fits (field : Field) : Prop :=
  field.number < 2 ^ 32 ∧
    match field.payload with
    | .number value => value < 2 ^ 64
    | .bytes content => content.length < 2 ^ 64

/-- The key, with wire type 0 or 2, and the payload. -/
def encode (field : Field) : List (BitVec 8) :=
  match field.payload with
  | .number value => varint (8 * field.number) ++ varint value
  | .bytes content => varint (8 * field.number + 2) ++ (varint content.length ++ content)

end Field

/-- The field that starts `bytes`, and the bytes after it. -/
def readField (bytes : List (BitVec 8)) : Option (Field × List (BitVec 8)) :=
  (readVarint bytes).bind fun (key, bytes) =>
    match key % 8 with
    | 0 => (readVarint bytes).map fun (value, rest) => (⟨key / 8, .number value⟩, rest)
    | 2 => (readVarint bytes).bind fun (length, bytes) =>
        if length ≤ bytes.length then
          some (⟨key / 8, .bytes (bytes.take length)⟩, bytes.drop length)
        else
          none
    | _ => none

theorem readField_encode {field : Field} (fits : field.Fits) (rest : List (BitVec 8)) :
    readField (field.encode ++ rest) = some (field, rest) := by
  rcases field with ⟨number, payload⟩
  rcases fits with ⟨small, inside⟩
  have key : 8 * number + 2 < 2 ^ 64 := by
    dsimp only at small
    omega
  cases payload with
  | number value =>
      have kind : 8 * number % 8 = 0 := by omega
      have which : 8 * number / 8 = number := by omega
      rw [Field.encode, List.append_assoc, readField,
        readVarint_varint (Nat.lt_of_le_of_lt (Nat.le_add_right _ _) key)]
      simp only [Option.bind_some, kind, which, readVarint_varint inside, Option.map_some]
  | bytes content =>
      have kind : (8 * number + 2) % 8 = 2 := by omega
      have which : (8 * number + 2) / 8 = number := by omega
      rw [Field.encode, List.append_assoc, List.append_assoc, readField,
        readVarint_varint key]
      simp [kind, which, readVarint_varint inside]

/-! ## Messages -/

/-- A message: its fields, one after the other. -/
def encodeFields (fields : List Field) : List (BitVec 8) :=
  fields.flatMap Field.encode

/-- The fields of a message of at most `limit` fields. -/
def readFields : Nat → List (BitVec 8) → Option (List Field)
  | _, [] => some []
  | 0, _ :: _ => none
  | limit + 1, byte :: bytes =>
      (readField (byte :: bytes)).bind fun (field, rest) =>
        (readFields limit rest).map (field :: ·)

/-- The fields of a message. -/
def parse (bytes : List (BitVec 8)) : Option (List Field) :=
  readFields bytes.length bytes

theorem encode_ne_nil (field : Field) : field.encode ≠ [] := by
  unfold Field.encode
  split <;> exact List.append_ne_nil_of_left_ne_nil (varint_ne_nil _) _

theorem readFields_encodeFields {fields : List Field} (fit : ∀ field ∈ fields, field.Fits)
    {limit : Nat} (enough : fields.length ≤ limit) :
    readFields limit (encodeFields fields) = some fields := by
  induction fields generalizing limit with
  | nil => cases limit <;> rfl
  | cons field fields ih =>
      cases limit with
      | zero => exact absurd enough (by simp)
      | succ limit =>
          have head := readField_encode (fit field List.mem_cons_self) (encodeFields fields)
          have tail := @ih (fun other member => fit other (List.mem_cons_of_mem field member))
            limit (by simpa using enough)
          have written : encodeFields (field :: fields) = field.encode ++ encodeFields fields :=
            List.flatMap_cons
          rw [← written] at head
          cases shape : encodeFields (field :: fields) with
          | nil =>
              rw [written] at shape
              exact absurd (List.append_eq_nil_iff.mp shape).1 (encode_ne_nil field)
          | cons byte bytes =>
              rw [shape] at head
              rw [readFields, head, Option.bind_some]
              simp only [tail, Option.map_some]

theorem length_le_length_encodeFields (fields : List Field) :
    fields.length ≤ (encodeFields fields).length := by
  induction fields with
  | nil => exact Nat.zero_le _
  | cons field fields ih =>
      have one := List.length_pos_of_ne_nil (encode_ne_nil field)
      have written : encodeFields (field :: fields) = field.encode ++ encodeFields fields :=
        List.flatMap_cons
      rw [written, List.length_append, List.length_cons]
      omega

/-- A written message is read back. -/
theorem parse_encodeFields {fields : List Field} (fit : ∀ field ∈ fields, field.Fits) :
    parse (encodeFields fields) = some fields :=
  readFields_encodeFields fit (length_le_length_encodeFields fields)

/-! ## Lookups -/

/-- The last number in the fields numbered `number`, zero if there is none. -/
def lastNumber (number : Nat) (fields : List Field) : Nat :=
  fields.foldl (fun value field =>
    match field with
    | ⟨found, .number other⟩ => if found = number then other else value
    | _ => value) 0

/-- The last string of bytes in the fields numbered `number`, empty if there is none. -/
def lastBytes (number : Nat) (fields : List Field) : List (BitVec 8) :=
  fields.foldl (fun value field =>
    match field with
    | ⟨found, .bytes other⟩ => if found = number then other else value
    | _ => value) []

/-- The strings of bytes in the fields numbered `number`, joined. -/
def joinedBytes (number : Nat) (fields : List Field) : List (BitVec 8) :=
  fields.flatMap fun field =>
    match field with
    | ⟨found, .bytes content⟩ => if found = number then content else []
    | _ => []

end EmbeddedBase.Data.Protobuf
