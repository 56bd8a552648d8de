import EmbeddedBase.Data.ByteRange
import EmbeddedBase.Middleware.Eeprom.Directory
import EmbeddedBase.Transition.Machine

/-!
# A store of isolated partitions

What a partitioned EEPROM is for: every known id has bytes of its own, a write
replaces some of them, and nothing else ever changes them.
-/

namespace EmbeddedBase.Middleware.Eeprom

open EmbeddedBase.Data
open EmbeddedBase.Transition

/-- A read or a write of part of a partition. -/
inductive Access where
  | write (id : String) (data : List (BitVec 8)) (offset : UInt16)
  | read (id : String) (len offset : UInt16)
  deriving DecidableEq

namespace Access

/-- The partition an access names. -/
def id : Access → String
  | write id _ _ => id
  | read id _ _ => id

/-- The offset an access starts at. -/
def offset : Access → Nat
  | write _ _ offset => offset.toNat
  | read _ _ offset => offset.toNat

/-- The number of bytes an access moves. -/
def len : Access → Nat
  | write _ data _ => data.length
  | read _ len _ => len.toNat

/-- The length of the data is a `uint16_t`. -/
def Admissible (access : Access) : Prop :=
  access.len < 65536

instance (access : Access) : Decidable access.Admissible :=
  inferInstanceAs (Decidable (_ < _))

end Access

/-- A reply: the status, and the bytes stored in the reader's buffer. -/
abbrev Reply :=
  EepromStatus × List (BitVec 8)

/-- The bytes of each known partition. -/
abbrev PartitionStore :=
  String → Option (List (BitVec 8))

namespace PartitionStore

/-- Why an access is refused, if it is. -/
def refusal (store : PartitionStore) (access : Access) : Option EepromStatus :=
  match store access.id with
  | none => some .errorNotFound
  | some bytes =>
      if bytes.length ≤ access.offset then some .errorOutOfBounds
      else if bytes.length < access.offset + access.len then some .errorAlignment
      else none

/-- The effect of an access that is not refused. -/
def perform (store : PartitionStore) : Access → Reply × PartitionStore
  | .write id data offset =>
      ((.ok, []), Function.update store id
        ((store id).map fun bytes => splice bytes offset.toNat data))
  | .read id len offset =>
      ((.ok, (((store id).getD []).drop offset.toNat).take len.toNat), store)

/-- The store as a component. -/
def serve : Machine PartitionStore Access Reply := fun store access =>
  match store.refusal access with
  | some status => ((status, []), store)
  | none => store.perform access

end PartitionStore

end EmbeddedBase.Middleware.Eeprom
