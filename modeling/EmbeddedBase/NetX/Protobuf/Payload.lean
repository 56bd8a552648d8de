import EmbeddedBase.Data.Protobuf
import EmbeddedBase.Data.Words
import EmbeddedBase.NetX.Protobuf.Core

/-!
# Payloads of `ServerData`

What `pb_encode` promises is a named assumption: it fails on a unit without a
terminator, and what it encodes can be decoded.  The wire format of `serverdata.proto`
keeps the promise.
-/

namespace EmbeddedBase.NetX

open EmbeddedBase.Data

/-- What a payload says. -/
structure Contents where
  unit : List (BitVec 8)
  timeUs : BitVec 64
  values : List (BitVec 32)
  deriving DecidableEq

/-- The string in `unit`. -/
def ServerData.text (data : ServerData) : List (BitVec 8) :=
  data.unit.toList.takeWhile (· ≠ 0)

/-- The contents of a message. -/
def ServerData.contents (data : ServerData) : Contents where
  unit := data.text
  timeUs := data.timeUs
  values := data.values.toList.take data.valuesCount.toNat

/-- The behaviour of nanopb on `ServerData`: a string that fills its array without a
terminator is refused, and what is encoded decodes to the contents. -/
structure Nanopb (encode : ServerData → Option (List (BitVec 8)))
    (decode : List (BitVec 8) → Option Contents) : Prop where
  unterminated : ∀ data, 0 ∉ data.unit.toList → encode data = none
  terminated : ∀ data, 0 ∈ data.unit.toList → data.valuesCount.toNat ≤ 5 →
    ∃ payload, encode data = some payload ∧ decode payload = some data.contents

/-! ## The wire format -/

namespace ServerData

/-- The fields written: those that do not hold their default. -/
def fields (data : ServerData) : List Protobuf.Field :=
  (if data.text = [] then [] else [⟨2, .bytes data.text⟩]) ++
    (if data.timeUs = 0 then [] else [⟨3, .number data.timeUs.toNat⟩]) ++
    (if data.contents.values = [] then [] else [⟨4, .bytes (unpackWords data.contents.values)⟩])

/-- The payload of a message with a terminated unit. -/
def encode (data : ServerData) : Option (List (BitVec 8)) :=
  if 0 ∈ data.unit.toList then
    some (Protobuf.encodeFields data.fields)
  else
    none

end ServerData

/-- The contents of a payload. -/
def Contents.decode (payload : List (BitVec 8)) : Option Contents :=
  (Protobuf.parse payload).map fun fields =>
    { unit := Protobuf.lastBytes 2 fields
      timeUs := BitVec.ofNat 64 (Protobuf.lastNumber 3 fields)
      values := packWords (Protobuf.joinedBytes 4 fields) }

theorem length_values_le (data : ServerData) : data.contents.values.length ≤ 5 := by
  rw [ServerData.contents, List.length_take, Vector.length_toList]
  exact Nat.min_le_right _ _

theorem length_text_le (data : ServerData) : data.text.length ≤ 15 := by
  have bound := (List.takeWhile_prefix (· ≠ (0 : BitVec 8)) (l := data.unit.toList)).length_le
  rwa [Vector.length_toList] at bound

theorem fields_fit (data : ServerData) : ∀ field ∈ data.fields, field.Fits := by
  have text := length_text_le data
  have values := length_values_le data
  intro field member
  simp only [ServerData.fields, List.mem_append] at member
  rcases member with (unit | timeUs) | values'
  · split at unit
    · cases unit
    · cases List.mem_singleton.mp unit
      exact ⟨of_decide_eq_true rfl, Nat.lt_of_le_of_lt text (by decide)⟩
  · split at timeUs
    · cases timeUs
    · cases List.mem_singleton.mp timeUs
      exact ⟨of_decide_eq_true rfl, data.timeUs.isLt⟩
  · split at values'
    · cases values'
    · cases List.mem_singleton.mp values'
      refine ⟨of_decide_eq_true rfl, ?_⟩
      dsimp only
      rw [length_unpackWords]
      omega

theorem lookup_fields (data : ServerData) :
    Protobuf.lastBytes 2 data.fields = data.text ∧
      Protobuf.lastNumber 3 data.fields = data.timeUs.toNat ∧
      Protobuf.joinedBytes 4 data.fields = unpackWords data.contents.values := by
  unfold ServerData.fields
  by_cases unit : data.text = [] <;> by_cases timeUs : data.timeUs = 0#64 <;>
    by_cases values : data.contents.values = [] <;>
    simp [Protobuf.lastBytes, Protobuf.lastNumber, Protobuf.joinedBytes, unit, timeUs, values,
      unpackWords]

/-- The wire format behaves as nanopb promises. -/
theorem wire_nanopb : Nanopb ServerData.encode Contents.decode where
  unterminated data absent := if_neg absent
  terminated data present _ := by
    refine ⟨Protobuf.encodeFields data.fields, if_pos present, ?_⟩
    rcases lookup_fields data with ⟨unit, timeUs, values⟩
    rw [Contents.decode, Protobuf.parse_encodeFields (fields_fit data), Option.map_some, unit,
      timeUs, values, packWords_unpackWords, BitVec.ofNat_toNat, BitVec.setWidth_eq]
    rfl

end EmbeddedBase.NetX
