import Mathlib.Algebra.Ring.Nat
import Mathlib.Data.List.Basic
import Mathlib.Data.List.Pairwise

/-!
# The EEPROM directory

The model of `eeprom_status.h` and `eeprom_directory.c`.  `directory_init` lays
the partitions out one after the other from address 0; the three getters search
the partitions for an id and differ only in the field they return.
-/

namespace EmbeddedBase.Middleware.Eeprom

/-- `eeprom_status_t`. -/
inductive EepromStatus where
  | ok
  | error
  | errorNotFound
  | errorOutOfBounds
  | errorAlignment
  | errorNullPointer
  | errorAllocation
  | errorComms
  deriving DecidableEq, Repr

/-- `struct partition_cfg`; the id is the C string `strcmp` compares. -/
structure PartitionCfg where
  id : String
  size : UInt16
  address : UInt16
  headAddress : UInt16
  deriving DecidableEq

/-- `eeprom_directory_t`; `num_partitions` is the length of the list. -/
structure EepromDirectory where
  partitions : List PartitionCfg
  deriving DecidableEq

/-- The loop of `directory_init`.  The accumulator is a `size_t` of which only
the low 16 bits are stored. -/
def layOut (addrAcc : Nat) : List PartitionCfg → List PartitionCfg
  | [] => []
  | partition :: partitions =>
      { partition with
        address := UInt16.ofNat addrAcc
        headAddress := UInt16.ofNat addrAcc } ::
      layOut (addrAcc + partition.size.toNat) partitions

/-- `directory_init`.  Pointers are `none` when they are `NULL`; `allocated` is
the outcome of `malloc`. -/
def directoryInit (directory : Option EepromDirectory)
    (partitions : Option (List PartitionCfg)) (allocated : Bool) :
    Except EepromStatus EepromDirectory :=
  match directory, partitions with
  | some _, some partitions =>
      if allocated then .ok ⟨layOut 0 partitions⟩ else .error .errorAllocation
  | _, _ => .error .errorNullPointer

/-- The search the three getters share.  The result is the value stored through
the output pointer, or the status returned without storing anything. -/
def eepromGet (field : PartitionCfg → UInt16) (directory : Option EepromDirectory)
    (key : Option String) : Except EepromStatus UInt16 :=
  match directory, key with
  | some directory, some key =>
      match directory.partitions.find? fun partition => partition.id = key with
      | some partition => .ok (field partition)
      | none => .error .errorNotFound
  | _, _ => .error .errorNullPointer

/-- `eeprom_get_base_address`. -/
def eepromGetBaseAddress := eepromGet PartitionCfg.address

/-- `eeprom_get_head_address`. -/
def eepromGetHeadAddress := eepromGet PartitionCfg.headAddress

/-- `eeprom_get_size`. -/
def eepromGetSize := eepromGet PartitionCfg.size

/-- The partition a key selects. -/
def EepromDirectory.find (directory : EepromDirectory) (key : String) : Option PartitionCfg :=
  directory.partitions.find? fun partition => partition.id = key

theorem eepromGet_eq (field : PartitionCfg → UInt16) (directory : EepromDirectory)
    (key : String) :
    eepromGet field (some directory) (some key) =
      match directory.find key with
      | some partition => .ok (field partition)
      | none => .error .errorNotFound :=
  rfl

/-! ## The layout -/

/-- No address belongs to both partitions. -/
def PartitionCfg.Apart (left right : PartitionCfg) : Prop :=
  left.size = 0 ∨ right.size = 0 ∨
    left.address.toNat + left.size.toNat ≤ right.address.toNat ∨
    right.address.toNat + right.size.toNat ≤ left.address.toNat

theorem PartitionCfg.Apart.symm {left right : PartitionCfg} (apart : left.Apart right) :
    right.Apart left := by
  rcases apart with empty | empty | below | above
  · exact Or.inr (Or.inl empty)
  · exact Or.inl empty
  · exact Or.inr (Or.inr (Or.inr below))
  · exact Or.inr (Or.inr (Or.inl above))

instance : Std.Symm PartitionCfg.Apart :=
  ⟨fun _ _ => PartitionCfg.Apart.symm⟩

theorem uint16_size_cases (size : UInt16) : size = 0 ∨ 0 < size.toNat := by
  by_cases empty : size = 0
  · exact Or.inl empty
  · refine Or.inr (Nat.pos_of_ne_zero fun zero => empty ?_)
    exact UInt16.toNat_inj.mp zero

/-- Laid out from `addrAcc`, every partition that is not empty occupies
addresses from there on and stays within the 16-bit address space. -/
theorem layOut_bounds {addrAcc : Nat} {partitions : List PartitionCfg}
    (fits : addrAcc + (partitions.map fun partition => partition.size.toNat).sum ≤ 65536)
    {partition : PartitionCfg} (member : partition ∈ layOut addrAcc partitions) :
    partition.size = 0 ∨
      addrAcc ≤ partition.address.toNat ∧
        partition.address.toNat + partition.size.toNat ≤ 65536 := by
  induction partitions generalizing addrAcc with
  | nil => cases member
  | cons first rest ih =>
      rw [List.map_cons, List.sum_cons] at fits
      rcases List.mem_cons.mp member with here | later
      · subst here
        rcases uint16_size_cases first.size with empty | positive
        · exact Or.inl empty
        · apply Or.inr
          change addrAcc ≤ (UInt16.ofNat addrAcc).toNat ∧
            (UInt16.ofNat addrAcc).toNat + first.size.toNat ≤ 65536
          rw [UInt16.toNat_ofNat', Nat.mod_eq_of_lt (by omega)]
          omega
      · rcases ih (by omega) later with empty | bounds
        · exact Or.inl empty
        · exact Or.inr ⟨by omega, bounds.2⟩

/-- Laid out within the address space, partitions do not overlap. -/
theorem layOut_apart {addrAcc : Nat} {partitions : List PartitionCfg}
    (fits : addrAcc + (partitions.map fun partition => partition.size.toNat).sum ≤ 65536) :
    (layOut addrAcc partitions).Pairwise PartitionCfg.Apart := by
  induction partitions generalizing addrAcc with
  | nil => exact List.Pairwise.nil
  | cons first rest ih =>
      rw [List.map_cons, List.sum_cons] at fits
      refine List.Pairwise.cons ?_ (ih (by omega))
      intro other member
      rcases uint16_size_cases first.size with empty | positive
      · exact Or.inl empty
      · rcases layOut_bounds (by omega) member with empty | bounds
        · exact Or.inr (Or.inl empty)
        · refine Or.inr (Or.inr (Or.inl ?_))
          change (UInt16.ofNat addrAcc).toNat + first.size.toNat ≤ other.address.toNat
          rw [UInt16.toNat_ofNat', Nat.mod_eq_of_lt (by omega)]
          exact bounds.1

/-- Laying out keeps ids and sizes, so a key selects the partition it was
configured with. -/
theorem find_layOut (addrAcc : Nat) (partitions : List PartitionCfg) (key : String) :
    ((layOut addrAcc partitions).find? fun partition => partition.id = key).map
        PartitionCfg.size =
      (partitions.find? fun partition => partition.id = key).map PartitionCfg.size := by
  induction partitions generalizing addrAcc with
  | nil => rfl
  | cons first rest ih =>
      by_cases here : first.id = key
      · simp [layOut, here]
      · simpa [layOut, here] using ih _

/-- With distinct ids the search finds the partition that has the id. -/
theorem find_of_distinct {partitions : List PartitionCfg}
    (distinct : (partitions.map PartitionCfg.id).Nodup) {partition : PartitionCfg}
    (member : partition ∈ partitions) :
    (partitions.find? fun other => other.id = partition.id) = some partition := by
  induction partitions with
  | nil => cases member
  | cons first rest ih =>
      rcases List.nodup_cons.mp distinct with ⟨fresh, distinctRest⟩
      rcases List.mem_cons.mp member with here | later
      · subst here
        simp
      · have different : first.id ≠ partition.id := fun same =>
          fresh (same ▸ List.mem_map_of_mem later)
        rw [List.find?_cons_of_neg (by simpa using different)]
        exact ih distinctRest later

/-- The partitions two keys select are the same or do not overlap. -/
theorem EepromDirectory.apart_of_find {directory : EepromDirectory}
    (apart : directory.partitions.Pairwise PartitionCfg.Apart) {key other : String}
    {left right : PartitionCfg} (found : directory.find key = some left)
    (foundOther : directory.find other = some right) (different : key ≠ other) :
    left.Apart right := by
  have leftId : left.id = key := by simpa using List.find?_some found
  have rightId : right.id = other := by simpa using List.find?_some foundOther
  apply apart.forall (List.mem_of_find?_eq_some found) (List.mem_of_find?_eq_some foundOther)
  intro same
  exact different (leftId.symm.trans ((congrArg PartitionCfg.id same).trans rightId))

end EmbeddedBase.Middleware.Eeprom
