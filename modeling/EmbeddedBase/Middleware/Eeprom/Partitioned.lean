import EmbeddedBase.General.M24c32
import EmbeddedBase.Middleware.Eeprom.PartitionStore

/-!
# Partitioned access to the M24C32

The model of `m24c32_eeprom_directory.c`, and its refinement of the store of
isolated partitions: with partitions laid out inside the address space, a chip
under the directory functions answers every access as the store does.
-/

namespace EmbeddedBase.Middleware.Eeprom

open EmbeddedBase.Data
open EmbeddedBase.General.M24c32
open EmbeddedBase.Transition

universe u

variable {σ : Type u}

/-- `m24c32_directory_write`. -/
def m24c32DirectoryWrite (directory : Option EepromDirectory) (eeprom : Option (Device σ))
    (id : Option String) (data : Option (List (BitVec 8))) (len offset : UInt16) (bus : σ) :
    EepromStatus × σ :=
  match eepromGetBaseAddress directory id with
  | .error status => (status, bus)
  | .ok base =>
      match eepromGetSize directory id with
      | .error status => (status, bus)
      | .ok size =>
          if size ≤ offset then
            (.errorOutOfBounds, bus)
          else if size.toNat < offset.toNat + len.toNat then
            (.errorAlignment, bus)
          else
            m24c32Write eeprom (base + offset) data len bus

/-- `m24c32_directory_read`. -/
def m24c32DirectoryRead (directory : Option EepromDirectory) (eeprom : Option (Device σ))
    (id : Option String) (len offset : UInt16) (bus : σ) : Reply × σ :=
  match eepromGetBaseAddress directory id with
  | .error status => ((status, []), bus)
  | .ok base =>
      match eepromGetSize directory id with
      | .error status => ((status, []), bus)
      | .ok size =>
          if size ≤ offset then
            ((.errorOutOfBounds, []), bus)
          else if size.toNat < offset.toNat + len.toNat then
            ((.errorAlignment, []), bus)
          else
            m24c32Read eeprom (base + offset) len bus

/-- The chip behind the directory functions as a component. -/
def partitioned (directory : EepromDirectory) : Machine Chip Access Reply
  | chip, .write id data offset =>
      let result := m24c32DirectoryWrite (some directory) (some Chip.device) (some id)
        (some data) (UInt16.ofNat data.length) offset chip
      ((result.1, []), result.2)
  | chip, .read id len offset =>
      m24c32DirectoryRead (some directory) (some Chip.device) (some id) len offset chip

/-- What the chip holds for each partition of the directory. -/
def contents (directory : EepromDirectory) (chip : Chip) : PartitionStore := fun key =>
  (directory.find key).map fun partition =>
    readRange chip.memory partition.address.toNat partition.size.toNat

/-- Partitions that lie in the address space and do not overlap. -/
structure EepromDirectory.LaidOut (directory : EepromDirectory) : Prop where
  bounds : ∀ partition ∈ directory.partitions,
    partition.size = 0 ∨ partition.address.toNat + partition.size.toNat ≤ 65536
  apart : directory.partitions.Pairwise PartitionCfg.Apart

theorem laidOut_of_directoryInit {before : Option EepromDirectory}
    {partitions : List PartitionCfg} {allocated : Bool} {directory : EepromDirectory}
    (init : directoryInit before (some partitions) allocated = .ok directory)
    (fits : (partitions.map fun partition => partition.size.toNat).sum ≤ 65536) :
    directory.partitions = layOut 0 partitions ∧ directory.LaidOut := by
  cases before with
  | none => cases init
  | some before =>
      cases allocated with
      | false => cases init
      | true =>
          cases init
          refine ⟨rfl, ?_, layOut_apart (by omega)⟩
          intro partition member
          exact (layOut_bounds (by omega) member).imp_right And.right

/-! ## One access -/

section

variable {directory : EepromDirectory} {chip : Chip} {access : Access}

/-- A refused access gets the store's status and does not touch the chip. -/
theorem partitioned_of_refusal {status : EepromStatus} (admissible : access.Admissible)
    (refused : (contents directory chip).refusal access = some status) :
    partitioned directory chip access = ((status, []), chip) := by
  cases access with
  | write id data offset =>
      have length : (UInt16.ofNat data.length).toNat = data.length :=
        UInt16.toNat_ofNat_of_lt' admissible
      simp only [partitioned, m24c32DirectoryWrite, eepromGetBaseAddress, eepromGetSize,
        eepromGet_eq, length, UInt16.le_iff_toNat_le]
      simp only [PartitionStore.refusal, contents, Access.id, Access.offset,
        Access.len] at refused
      cases found : directory.find id with
      | none =>
          simp only [found, Option.map_none, Option.some.injEq] at refused
          subst refused
          rfl
      | some partition =>
          simp only [found, Option.map_some, length_readRange] at refused
          dsimp only
          split at refused
          · cases refused
            rw [if_pos ‹_›]
          · split at refused
            · cases refused
              rw [if_neg ‹_›, if_pos ‹_›]
            · contradiction
  | read id len offset =>
      simp only [partitioned, m24c32DirectoryRead, eepromGetBaseAddress, eepromGetSize,
        eepromGet_eq, UInt16.le_iff_toNat_le]
      simp only [PartitionStore.refusal, contents, Access.id, Access.offset,
        Access.len] at refused
      cases found : directory.find id with
      | none =>
          simp only [found, Option.map_none, Option.some.injEq] at refused
          subst refused
          rfl
      | some partition =>
          simp only [found, Option.map_some, length_readRange] at refused
          dsimp only
          split at refused
          · cases refused
            rw [if_pos ‹_›]
          · split at refused
            · cases refused
              rw [if_neg ‹_›, if_pos ‹_›]
            · contradiction

/-- An access that is not refused lies inside the partition it names. -/
theorem find_of_served (served : (contents directory chip).refusal access = none) :
    ∃ partition, directory.find access.id = some partition ∧
      access.offset < partition.size.toNat ∧
      access.offset + access.len ≤ partition.size.toNat := by
  unfold PartitionStore.refusal contents at served
  cases found : directory.find access.id with
  | none => simp [found] at served
  | some partition =>
      simp only [found, Option.map_some, length_readRange] at served
      split at served
      · contradiction
      · split at served
        · contradiction
        · exact ⟨partition, rfl, by omega, by omega⟩

/-- A partition that has a byte lies in the address space. -/
theorem EepromDirectory.LaidOut.end_le (laidOut : directory.LaidOut) {key : String}
    {partition : PartitionCfg} (found : directory.find key = some partition) {offset : Nat}
    (inside : offset < partition.size.toNat) :
    partition.address.toNat + partition.size.toNat ≤ 65536 := by
  rcases laidOut.bounds partition (List.mem_of_find?_eq_some found) with empty | bound
  · rw [empty] at inside
    cases inside
  · exact bound

/-- A write inside one partition splices its data there and leaves every other
partition as it was. -/
theorem contents_writeRange (laidOut : directory.LaidOut) {key : String}
    {partition : PartitionCfg} (found : directory.find key = some partition) {offset : Nat}
    {data : List (BitVec 8)} (inside : offset < partition.size.toNat)
    (within : offset + data.length ≤ partition.size.toNat) (accesses : Nat) :
    contents directory
        ⟨writeRange chip.memory (partition.address.toNat + offset) data, accesses⟩ =
      Function.update (contents directory chip) key
        ((contents directory chip key).map fun bytes => splice bytes offset data) := by
  funext other
  by_cases same : other = key
  · subst same
    simp [contents, found, readRange_writeRange_of_within chip.memory within]
  · rw [Function.update_of_ne same]
    unfold contents
    cases foundOther : directory.find other with
    | none => rfl
    | some neighbour =>
        simp only [Option.map_some, Option.some.injEq]
        rcases EepromDirectory.apart_of_find laidOut.apart found foundOther (Ne.symm same) with
          empty | empty | below | above
        · rw [empty] at inside
          cases inside
        · rw [empty]
          rfl
        · exact readRange_writeRange_of_disjoint _ (Or.inr (by omega))
        · exact readRange_writeRange_of_disjoint _ (Or.inl (by omega))

/-- An access that is not refused does to the chip what it does to the store. -/
theorem partitioned_of_served (laidOut : directory.LaidOut) (admissible : access.Admissible)
    (served : (contents directory chip).refusal access = none) :
    (partitioned directory chip access).1 = ((contents directory chip).perform access).1 ∧
      contents directory (partitioned directory chip access).2 =
        ((contents directory chip).perform access).2 := by
  rcases find_of_served served with ⟨partition, found, inside, within⟩
  have last := laidOut.end_le found inside
  cases access with
  | write id data offset =>
      change directory.find id = some partition at found
      change offset.toNat < partition.size.toNat at inside
      change offset.toNat + data.length ≤ partition.size.toNat at within
      have length : (UInt16.ofNat data.length).toNat = data.length :=
        UInt16.toNat_ofNat_of_lt' admissible
      have start : (partition.address + offset).toNat =
          partition.address.toNat + offset.toNat := by
        rw [UInt16.toNat_add, Nat.mod_eq_of_lt (by omega)]
      obtain ⟨accesses, stored⟩ := m24c32Write_chip data (UInt16.ofNat data.length)
        (partition.address + offset) chip (Nat.le_of_eq length) (by rw [length, start]; omega)
      rw [length, start, List.take_length] at stored
      have step : partitioned directory chip (.write id data offset) =
          ((.ok, []), ⟨writeRange chip.memory (partition.address.toNat + offset.toNat) data,
            accesses⟩) := by
        simp only [partitioned, m24c32DirectoryWrite, eepromGetBaseAddress, eepromGetSize,
          eepromGet_eq, found, length, UInt16.le_iff_toNat_le]
        rw [if_neg (by omega), if_neg (by omega), stored]
      rw [step]
      exact ⟨rfl, contents_writeRange laidOut found inside within accesses⟩
  | read id len offset =>
      change directory.find id = some partition at found
      change offset.toNat < partition.size.toNat at inside
      change offset.toNat + len.toNat ≤ partition.size.toNat at within
      have start : (partition.address + offset).toNat =
          partition.address.toNat + offset.toNat := by
        rw [UInt16.toNat_add, Nat.mod_eq_of_lt (by omega)]
      have step : partitioned directory chip (.read id len offset) =
          ((.ok, readRange chip.memory (partition.address.toNat + offset.toNat) len.toNat),
            ⟨chip.memory, chip.accesses + 1⟩) := by
        simp only [partitioned, m24c32DirectoryRead, eepromGetBaseAddress, eepromGetSize,
          eepromGet_eq, found, UInt16.le_iff_toNat_le]
        rw [if_neg (by omega), if_neg (by omega), m24c32Read_chip, start]
      rw [step]
      refine ⟨?_, rfl⟩
      simp only [PartitionStore.perform, contents, found, Option.map_some, Option.getD_some]
      rw [readRange_eq_take_drop _ within]

end

/-! ## Runs of accesses -/

/-- Access by access, the chip under the directory functions is the store of
isolated partitions. -/
theorem partitioned_simulates {directory : EepromDirectory} (laidOut : directory.LaidOut) :
    Machine.Simulates (partitioned directory) PartitionStore.serve Access.Admissible
      fun chip store => contents directory chip = store := by
  rintro chip store access rfl admissible
  unfold PartitionStore.serve
  cases refused : (contents directory chip).refusal access with
  | some status =>
      rw [partitioned_of_refusal admissible refused]
      exact ⟨rfl, rfl⟩
  | none => exact partitioned_of_served laidOut admissible refused

/-- A store access that does not succeed is one that is refused. -/
theorem PartitionStore.refusal_of_status_ne_ok {store : PartitionStore} {access : Access}
    (failed : (serve store access).1.1 ≠ .ok) :
    ∃ status, store.refusal access = some status := by
  unfold serve at failed
  cases refused : store.refusal access with
  | some status => exact ⟨status, rfl⟩
  | none =>
      rw [refused] at failed
      cases access <;> exact absurd rfl failed

/-- Initially every configured partition holds as many bytes as it was given,
and no other id is known. -/
theorem contents_of_directoryInit {partitions : List PartitionCfg}
    {directory : EepromDirectory} (laid : directory.partitions = layOut 0 partitions)
    (distinct : (partitions.map PartitionCfg.id).Nodup) (chip : Chip) :
    (∀ partition ∈ partitions,
        (contents directory chip partition.id).map List.length = some partition.size.toNat) ∧
      ∀ key, key ∉ partitions.map PartitionCfg.id → contents directory chip key = none := by
  have sizes (key : String) : (contents directory chip key).map List.length =
      ((partitions.find? fun partition => partition.id = key).map PartitionCfg.size).map
        UInt16.toNat := by
    rw [← find_layOut 0 partitions key, ← laid]
    change ((directory.find key).map _).map _ = ((directory.find key).map _).map _
    cases directory.find key <;> simp
  constructor
  · intro partition member
    rw [sizes, find_of_distinct distinct member]
    rfl
  · intro key unknown
    have missing : partitions.find? (fun other => other.id = key) = none := by
      rw [List.find?_eq_none]
      intro other member same
      exact unknown (List.mem_map.mpr ⟨other, member, by simpa using same⟩)
    have none_length := sizes key
    rw [missing] at none_length
    simpa using none_length

/-- The partitioned EEPROM is a store of isolated partitions: from any memory,
every sequence of accesses gets the store's replies and leaves the store's
contents, and an access that fails does not touch the chip. -/
theorem m24c32_directory_isolates {before : Option EepromDirectory}
    {partitions : List PartitionCfg} {allocated : Bool} {directory : EepromDirectory}
    (init : directoryInit before (some partitions) allocated = .ok directory)
    (distinct : (partitions.map PartitionCfg.id).Nodup)
    (fits : (partitions.map fun partition => partition.size.toNat).sum ≤ 65536)
    (chip : Chip) {accesses : List Access}
    (admissible : ∀ access ∈ accesses, access.Admissible) :
    ((∀ partition ∈ partitions,
          (contents directory chip partition.id).map List.length =
            some partition.size.toNat) ∧
        ∀ key, key ∉ partitions.map PartitionCfg.id → contents directory chip key = none) ∧
      (partitioned directory).replies chip accesses =
        PartitionStore.serve.replies (contents directory chip) accesses ∧
      contents directory ((partitioned directory).final chip accesses) =
        PartitionStore.serve.final (contents directory chip) accesses ∧
      ∀ first access rest, accesses = first ++ access :: rest →
        let current := (partitioned directory).final chip first
        (partitioned directory current access).1.1 ≠ .ok →
          (partitioned directory current access).2 = current := by
  rcases laidOut_of_directoryInit init fits with ⟨laid, laidOut⟩
  have simulates := partitioned_simulates laidOut
  refine ⟨contents_of_directoryInit laid distinct chip, simulates.replies rfl admissible,
    simulates.final rfl admissible, ?_⟩
  rintro first access rest rfl current failed
  have accessAdmissible := admissible access (by simp)
  have step := simulates (show contents directory current = contents directory current from rfl)
    accessAdmissible
  rw [step.1] at failed
  rcases PartitionStore.refusal_of_status_ne_ok failed with ⟨status, refused⟩
  rw [partitioned_of_refusal accessAdmissible refused]

/-- Two partitions, the second across a page boundary from the first: a write
over the boundary, a read back, and the three refusals. -/
theorem m24c32_directory_isolates_example :
    (partitioned ⟨[⟨"imu", 40, 0, 0⟩, ⟨"odometer", 8, 40, 40⟩]⟩).replies ⟨fun _ => 0, 0⟩
        [.write "imu" [1, 2, 3] 30, .read "imu" 4 30, .read "odometer" 2 0,
          .read "gps" 1 0, .read "imu" 1 40, .read "imu" 2 39] =
      [(.ok, []), (.ok, [1, 2, 3, 0]), (.ok, [0, 0]), (.errorNotFound, []),
        (.errorOutOfBounds, []), (.errorAlignment, [])] :=
  (@m24c32_directory_isolates (some ⟨[]⟩) [⟨"imu", 40, 7, 7⟩, ⟨"odometer", 8, 7, 7⟩] true _ rfl
    (by decide) (by decide) _ _ (by decide)).2.1.trans (by decide)

end EmbeddedBase.Middleware.Eeprom
