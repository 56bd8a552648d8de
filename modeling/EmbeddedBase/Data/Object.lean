import EmbeddedBase.Data.ByteRange
import Mathlib.Algebra.Ring.Nat

/-!
# Objects in memory

An object is a block of bytes whose length is a value of `size_t`, here of `w` bits.  An
access outside the object has no result.
-/

namespace EmbeddedBase.Data

/-- A block of bytes. -/
structure Object (w : Nat) where
  bytes : Nat → BitVec 8
  length : Nat
  addressable : length < 2 ^ w

namespace Object

variable {w : Nat}

/-- Read `count` bytes at `offset`. -/
def read (object : Object w) (offset count : BitVec w) : Option (List (BitVec 8)) :=
  if offset.toNat + count.toNat ≤ object.length then
    some (readRange object.bytes offset.toNat count.toNat)
  else
    none

/-- Store the object with other bytes. -/
def withBytes (object : Object w) (bytes : Nat → BitVec 8) : Object w :=
  { object with bytes := bytes }

/-- Write `data` at `offset`. -/
def write (object : Object w) (offset : BitVec w) (data : List (BitVec 8)) :
    Option (Object w) :=
  if offset.toNat + data.length ≤ object.length then
    some (object.withBytes (writeRange object.bytes offset.toNat data))
  else
    none

@[simp]
theorem bytes_withBytes (object : Object w) (bytes : Nat → BitVec 8) :
    (object.withBytes bytes).bytes = bytes :=
  rfl

@[simp]
theorem length_withBytes (object : Object w) (bytes : Nat → BitVec 8) :
    (object.withBytes bytes).length = object.length :=
  rfl

theorem read_of_le {object : Object w} {offset count : BitVec w}
    (inside : offset.toNat + count.toNat ≤ object.length) :
    object.read offset count = some (readRange object.bytes offset.toNat count.toNat) :=
  if_pos inside

theorem write_of_le {object : Object w} {offset : BitVec w} {data : List (BitVec 8)}
    (inside : offset.toNat + data.length ≤ object.length) :
    object.write offset data =
      some (object.withBytes (writeRange object.bytes offset.toNat data)) :=
  if_pos inside

/-- Inside an object the offset of an array element does not wrap. -/
theorem toNat_mul_of_le {object : Object w} {index width : BitVec w}
    (inside : index.toNat * width.toNat + width.toNat ≤ object.length) :
    (index * width).toNat = index.toNat * width.toNat := by
  have addressable := object.addressable
  rw [BitVec.toNat_mul, Nat.mod_eq_of_lt (by omega)]

end Object

end EmbeddedBase.Data
