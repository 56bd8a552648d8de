import EmbeddedBase.Middleware.Eeprom.Directory

/-!
# Layouts that fit

The base addresses of a directory are sums of partition sizes, of which `directory_init`
stores the low 16 bits without checking the others.
-/

namespace EmbeddedBase.Middleware.Eeprom

/-- The sizes of the partitions together. -/
def totalSize (partitions : List PartitionCfg) : Nat :=
  (partitions.map fun partition => partition.size.toNat).sum

/-- The range of an id, through the getters. -/
def EepromDirectory.Occupies (directory : EepromDirectory) (key : String) (base size : Nat) :
    Prop :=
  (eepromGetBaseAddress (some directory) (some key)).map UInt16.toNat = .ok base ∧
    (eepromGetSize (some directory) (some key)).map UInt16.toNat = .ok size

/-- The address belongs to the range of the id. -/
def EepromDirectory.Covers (directory : EepromDirectory) (key : String) (address : Nat) : Prop :=
  ∃ base size, directory.Occupies key base size ∧ base ≤ address ∧ address < base + size

/-- The partitions lie in the address space in list order, from 0 on and without gaps, and
nothing else is found. -/
structure InOrder (partitions : List PartitionCfg) (directory : EepromDirectory) : Prop where
  placed : ∀ before partition after, partitions = before ++ partition :: after →
    directory.Occupies partition.id (totalSize before) partition.size.toNat
  contained : ∀ partition ∈ partitions, ∀ address,
    directory.Covers partition.id address → address < 65536
  disjoint : partitions.Pairwise fun left right =>
    ∀ address, ¬(directory.Covers left.id address ∧ directory.Covers right.id address)
  heads : ∀ partition ∈ partitions,
    eepromGetHeadAddress (some directory) (some partition.id) =
      eepromGetBaseAddress (some directory) (some partition.id)
  unknown : ∀ key, key ∉ partitions.map PartitionCfg.id →
    eepromGetBaseAddress (some directory) (some key) = .error .errorNotFound ∧
      eepromGetHeadAddress (some directory) (some key) = .error .errorNotFound ∧
      eepromGetSize (some directory) (some key) = .error .errorNotFound

@[simp]
theorem totalSize_cons (partition : PartitionCfg) (partitions : List PartitionCfg) :
    totalSize (partition :: partitions) = partition.size.toNat + totalSize partitions := by
  rw [totalSize, List.map_cons, List.sum_cons, totalSize]

@[simp]
theorem totalSize_append (first second : List PartitionCfg) :
    totalSize (first ++ second) = totalSize first + totalSize second := by
  rw [totalSize, List.map_append, List.sum_append, totalSize, totalSize]

@[simp]
theorem map_id_layOut (addrAcc : Nat) (partitions : List PartitionCfg) :
    (layOut addrAcc partitions).map PartitionCfg.id = partitions.map PartitionCfg.id := by
  induction partitions generalizing addrAcc with
  | nil => rfl
  | cons first rest ih => rw [layOut, List.map_cons, List.map_cons, ih]

theorem layOut_append (addrAcc : Nat) (first second : List PartitionCfg) :
    layOut addrAcc (first ++ second) =
      layOut addrAcc first ++ layOut (addrAcc + totalSize first) second := by
  induction first generalizing addrAcc with
  | nil => rfl
  | cons partition partitions ih =>
      rw [List.cons_append, layOut, layOut, ih, totalSize_cons, Nat.add_assoc]
      rfl

section

variable {partitions : List PartitionCfg} {directory : EepromDirectory}

/-- What an id selects: its partition, at the low 16 bits of the sizes before it. -/
theorem find_of_split (distinct : (partitions.map PartitionCfg.id).Nodup)
    {before after : List PartitionCfg} {partition : PartitionCfg}
    (split : partitions = before ++ partition :: after) :
    EepromDirectory.find ⟨layOut 0 partitions⟩ partition.id =
      some { partition with
        address := UInt16.ofNat (totalSize before)
        headAddress := UInt16.ofNat (totalSize before) } := by
  rw [← map_id_layOut 0] at distinct
  have member : { partition with
        address := UInt16.ofNat (totalSize before)
        headAddress := UInt16.ofNat (totalSize before) } ∈ layOut 0 partitions := by
    rw [split, layOut_append, layOut, Nat.zero_add]
    simp
  exact find_of_distinct distinct member

/-- The range of a partition. -/
theorem occupies_iff (distinct : (partitions.map PartitionCfg.id).Nodup)
    {before after : List PartitionCfg} {partition : PartitionCfg}
    (split : partitions = before ++ partition :: after) (base size : Nat) :
    EepromDirectory.Occupies ⟨layOut 0 partitions⟩ partition.id base size ↔
      totalSize before % 65536 = base ∧ partition.size.toNat = size := by
  rw [EepromDirectory.Occupies, eepromGetBaseAddress, eepromGetSize, eepromGet_eq, eepromGet_eq,
    find_of_split distinct split]
  simp [Except.map]

/-- The addresses of a partition that starts below the end of the address space. -/
theorem covers_iff (distinct : (partitions.map PartitionCfg.id).Nodup)
    {before after : List PartitionCfg} {partition : PartitionCfg}
    (split : partitions = before ++ partition :: after) (below : totalSize before < 65536)
    (address : Nat) :
    EepromDirectory.Covers ⟨layOut 0 partitions⟩ partition.id address ↔
      totalSize before ≤ address ∧
        address < totalSize before + partition.size.toNat := by
  simp only [EepromDirectory.Covers, occupies_iff distinct split, Nat.mod_eq_of_lt below]
  constructor
  · rintro ⟨base, size, ⟨rfl, rfl⟩, inside⟩
    exact inside
  · exact fun inside => ⟨_, _, ⟨rfl, rfl⟩, inside⟩

/-- Partitions that start below the end of the address space do not share an address. -/
theorem pairwise_disjoint (distinct : (partitions.map PartitionCfg.id).Nodup)
    (below : ∀ before partition after, partitions = before ++ partition :: after →
      totalSize before < 65536) :
    partitions.Pairwise fun left right => ∀ address,
      ¬(EepromDirectory.Covers ⟨layOut 0 partitions⟩ left.id address ∧
        EepromDirectory.Covers ⟨layOut 0 partitions⟩ right.id address) := by
  suffices general : ∀ rest before, partitions = before ++ rest → rest.Pairwise fun left right =>
      ∀ address, ¬(EepromDirectory.Covers ⟨layOut 0 partitions⟩ left.id address ∧
        EepromDirectory.Covers ⟨layOut 0 partitions⟩ right.id address) from
    general partitions [] rfl
  intro rest
  induction rest with
  | nil => exact fun _ _ => List.Pairwise.nil
  | cons partition rest ih =>
      intro before split
      refine List.Pairwise.cons ?_ (ih (before ++ [partition]) (by simp [split]))
      rintro other member address ⟨inFirst, inOther⟩
      rcases List.append_of_mem member with ⟨between, after, rfl⟩
      have split' : partitions = (before ++ partition :: between) ++ other :: after := by
        simp [split]
      rw [covers_iff distinct split (below _ _ _ split)] at inFirst
      rw [covers_iff distinct split' (below _ _ _ split'), totalSize_append,
        totalSize_cons] at inOther
      omega

/-- An accepted configuration is laid out from address zero. -/
theorem eq_layOut_of_directoryInit {initial : Option EepromDirectory} {allocated : Bool}
    (init : directoryInit initial (some partitions) allocated = .ok directory) :
    directory = ⟨layOut 0 partitions⟩ := by
  cases initial with
  | none => cases init
  | some initial => cases allocated <;> cases init; rfl

/-- Lookups of an id that is not configured find nothing. -/
theorem find_of_absent {key : String} (absent : key ∉ partitions.map PartitionCfg.id) :
    EepromDirectory.find ⟨layOut 0 partitions⟩ key = none := by
  rw [EepromDirectory.find, List.find?_eq_none]
  intro partition member same
  rw [← map_id_layOut 0] at absent
  exact absent (of_decide_eq_true same ▸ List.mem_map_of_mem member)

/-- In an ordered layout every partition starts below the end of the address space. -/
theorem InOrder.start_lt (distinct : (partitions.map PartitionCfg.id).Nodup)
    (inOrder : InOrder partitions ⟨layOut 0 partitions⟩)
    {before after : List PartitionCfg} {partition : PartitionCfg}
    (split : partitions = before ++ partition :: after) : totalSize before < 65536 := by
  have placed := (occupies_iff distinct split _ _).mp (inOrder.placed _ _ _ split)
  omega

/-- The last partition of an ordered layout ends in the address space. -/
theorem InOrder.totalSize_le (distinct : (partitions.map PartitionCfg.id).Nodup)
    (inOrder : InOrder partitions ⟨layOut 0 partitions⟩) : totalSize partitions ≤ 65536 := by
  rcases List.eq_nil_or_concat partitions with rfl | ⟨before, last, split⟩
  · exact Nat.zero_le _
  · rw [List.concat_eq_append] at split
    have start := inOrder.start_lt distinct split
    have total : totalSize partitions = totalSize before + last.size.toNat := by
      rw [split, totalSize_append, totalSize_cons]
      rfl
    by_contra larger
    have past := inOrder.contained last (by simp [split]) 65536
      ((covers_iff distinct split start 65536).mpr (by omega))
    exact absurd past (Nat.lt_irrefl _)

/-- A layout that fits is in order. -/
theorem inOrder_layOut (distinct : (partitions.map PartitionCfg.id).Nodup)
    (fits : totalSize partitions ≤ 65536)
    (below : ∀ before partition after, partitions = before ++ partition :: after →
      totalSize before < 65536) :
    InOrder partitions ⟨layOut 0 partitions⟩ := by
  constructor
  · intro before partition after split
    exact (occupies_iff distinct split _ _).mpr
      ⟨Nat.mod_eq_of_lt (below _ _ _ split), rfl⟩
  · intro partition member address covers
    rcases List.append_of_mem member with ⟨before, after, split⟩
    have inside := (covers_iff distinct split (below _ _ _ split) address).mp covers
    rw [split, totalSize_append, totalSize_cons] at fits
    omega
  · exact pairwise_disjoint distinct below
  · intro partition member
    rcases List.append_of_mem member with ⟨before, after, split⟩
    rw [eepromGetHeadAddress, eepromGetBaseAddress, eepromGet_eq, eepromGet_eq,
      find_of_split distinct split]
  · intro key absent
    rw [eepromGetBaseAddress, eepromGetHeadAddress, eepromGetSize, eepromGet_eq, eepromGet_eq,
      eepromGet_eq, find_of_absent absent]
    exact ⟨rfl, rfl, rfl⟩

/-- An accepted layout is in order exactly when the sizes fit into the 16-bit address space
and every partition starts in it. -/
theorem directory_init_in_order_iff {initial : Option EepromDirectory} {allocated : Bool}
    (distinct : (partitions.map PartitionCfg.id).Nodup)
    (init : directoryInit initial (some partitions) allocated = .ok directory) :
    InOrder partitions directory ↔
      totalSize partitions ≤ 65536 ∧
        ∀ before partition after, partitions = before ++ partition :: after →
          totalSize before < 65536 := by
  rw [eq_layOut_of_directoryInit init]
  constructor
  · intro inOrder
    exact ⟨inOrder.totalSize_le distinct,
      fun _ _ _ split => inOrder.start_lt distinct split⟩
  · rintro ⟨fits, below⟩
    exact inOrder_layOut distinct fits below

end

/-- Two partitions that fill the address space. -/
theorem directory_init_in_order_iff_example :
    InOrder [⟨"log", 40000, 0, 0⟩, ⟨"config", 25536, 0, 0⟩]
      ⟨layOut 0 [⟨"log", 40000, 0, 0⟩, ⟨"config", 25536, 0, 0⟩]⟩ := by
  apply (@directory_init_in_order_iff _ _ (some ⟨[]⟩) true (by decide) rfl).mpr
  refine ⟨by decide, ?_⟩
  intro before partition after split
  rcases before with _ | ⟨first, _ | ⟨second, before⟩⟩
  · decide
  · cases split
    decide
  · simp at split

/-- The third partition of an accepted layout is put over the first. -/
theorem accepted_layout_overlaps :
    ∃ directory,
      directoryInit (some ⟨[]⟩)
          (some [⟨"log", 40000, 0, 0⟩, ⟨"config", 25536, 0, 0⟩, ⟨"faults", 16, 0, 0⟩]) true =
        .ok directory ∧
      ¬InOrder [⟨"log", 40000, 0, 0⟩, ⟨"config", 25536, 0, 0⟩, ⟨"faults", 16, 0, 0⟩]
        directory := by
  refine ⟨_, rfl, fun inOrder => ?_⟩
  have placed := inOrder.placed [⟨"log", 40000, 0, 0⟩, ⟨"config", 25536, 0, 0⟩]
    ⟨"faults", 16, 0, 0⟩ [] rfl
  exact absurd placed.1 (by decide)

end EmbeddedBase.Middleware.Eeprom
