import EmbeddedBase.Data.PageSplit
import EmbeddedBase.Middleware.Eeprom.Directory

/-!
# The M24C32 EEPROM driver

The model of `m24c32.c` over arbitrary device callbacks, and of the chip itself:
a byte memory whose writes wrap inside an aligned page of 32 bytes.  The loop of
`m24c32_write` makes one call for each page it touches, so on that chip it stores
its data at consecutive addresses.
-/

namespace EmbeddedBase.General.M24c32

open EmbeddedBase.Data
open EmbeddedBase.Middleware.Eeprom

universe u

/-- `m24c32_t`: the two device callbacks, over a bus state of type `σ`. -/
structure Device (σ : Type u) where
  write : Option (σ → UInt16 → List (BitVec 8) → EepromStatus × σ)
  read : Option (σ → UInt16 → UInt16 → (EepromStatus × List (BitVec 8)) × σ)

/-- `PAGE_SIZE`. -/
def pageSize : Nat := 32

variable {σ : Type u}

/-- `write_len`: what is left of the data or of the page, whichever is less. -/
def writeLen (left : Nat) (addr : UInt16) : Nat :=
  let remainingInPage := pageSize - addr.toNat % pageSize
  if left < remainingInPage then left else remainingInPage

theorem writeLen_bounds (left : Nat) (addr : UInt16) (more : 0 < left) :
    0 < writeLen left addr ∧ writeLen left addr ≤ left ∧
      addr.toNat % pageSize + writeLen left addr ≤ pageSize := by
  have inPage : addr.toNat % pageSize < pageSize := Nat.mod_lt _ (by decide)
  unfold writeLen
  dsimp only
  split <;> omega

/-- A call takes all that is left, or goes to the end of the page. -/
theorem writeLen_ends (left : Nat) (addr : UInt16) :
    writeLen left addr = left ∨ addr.toNat % pageSize + writeLen left addr = pageSize := by
  have inPage : addr.toNat % pageSize < pageSize := Nat.mod_lt _ (by decide)
  unfold writeLen
  dsimp only
  split
  · exact .inl rfl
  · exact .inr (Nat.add_sub_of_le (Nat.le_of_lt inPage))

/-- The loop of `m24c32_write`. -/
def writeLoop (write : σ → UInt16 → List (BitVec 8) → EepromStatus × σ)
    (data : List (BitVec 8)) (len : UInt16) (addr : UInt16) (bytesWritten : Nat) (bus : σ) :
    EepromStatus × σ :=
  if bytesWritten < len.toNat then
    let count := writeLen (len.toNat - bytesWritten) addr
    let step := write bus addr ((data.drop bytesWritten).take count)
    if step.1 ≠ .ok then
      step
    else
      writeLoop write data len (addr + UInt16.ofNat count) (bytesWritten + count) step.2
  else
    (.ok, bus)
termination_by len.toNat - bytesWritten
decreasing_by
  have bounds := writeLen_bounds (len.toNat - bytesWritten) addr (by omega)
  omega

/-- `m24c32_write`. -/
def m24c32Write (device : Option (Device σ)) (addr : UInt16) (data : Option (List (BitVec 8)))
    (len : UInt16) (bus : σ) : EepromStatus × σ :=
  match device, data with
  | some ⟨some write, _⟩, some data => writeLoop write data len addr 0 bus
  | _, _ => (.errorNullPointer, bus)

/-- `m24c32_read`; the list holds the bytes stored in the caller's buffer. -/
def m24c32Read (device : Option (Device σ)) (memAddress : UInt16) (len : UInt16) (bus : σ) :
    (EepromStatus × List (BitVec 8)) × σ :=
  match device with
  | some ⟨_, some read⟩ => read bus memAddress len
  | _ => ((.errorNullPointer, []), bus)

/-- `m24c32_clear`; `allocated` is the outcome of `calloc`. -/
def m24c32Clear (device : Option (Device σ)) (memAddress : UInt16) (len : UInt16)
    (allocated : Bool) (bus : σ) : EepromStatus × σ :=
  match device with
  | some ⟨some write, _⟩ =>
      if allocated then write bus memAddress (List.replicate len.toNat 0)
      else (.errorAllocation, bus)
  | _ => (.errorNullPointer, bus)

/-! ## The calls of a transfer -/

/-- One write call for each piece, in order; the first that fails ends them. -/
def transfer (write : σ → UInt16 → List (BitVec 8) → EepromStatus × σ) :
    List (Nat × List (BitVec 8)) → σ → EepromStatus × σ
  | [], bus => (.ok, bus)
  | piece :: pieces, bus =>
      let step := write bus (UInt16.ofNat piece.1) piece.2
      if step.1 ≠ .ok then step else transfer write pieces step.2

/-- What is left of the data, after the first piece of it. -/
theorem drop_take_eq_append {data : List (BitVec 8)} {len bytesWritten count : Nat}
    (within : count ≤ len - bytesWritten) :
    (data.take len).drop bytesWritten =
      (data.drop bytesWritten).take count ++ (data.take len).drop (bytesWritten + count) := by
  have head : (data.drop bytesWritten).take count =
      ((data.take len).drop bytesWritten).take count := by
    rw [List.drop_take, List.take_take, Nat.min_eq_left within]
  rw [head, ← List.drop_drop, List.take_append_drop]

/-- From any point of the transfer, the loop makes the calls of a split of the rest of the
data at page boundaries.  The addresses are those from `start` on, reduced to 16 bits. -/
theorem writeLoop_eq_transfer {data : List (BitVec 8)} {len : UInt16} (start bytesWritten : Nat)
    (stored : len.toNat ≤ data.length) :
    ∃ pieces, PageSplit pageSize start ((data.take len.toNat).drop bytesWritten) pieces ∧
      ∀ (write : σ → UInt16 → List (BitVec 8) → EepromStatus × σ) (bus : σ),
        writeLoop write data len (UInt16.ofNat start) bytesWritten bus =
          transfer write pieces bus := by
  induction measure : len.toNat - bytesWritten using Nat.strongRecOn
    generalizing start bytesWritten with
  | _ left ih =>
      subst measure
      by_cases more : bytesWritten < len.toNat
      · have bounds := writeLen_bounds (len.toNat - bytesWritten) (UInt16.ofNat start) (by omega)
        have ends := writeLen_ends (len.toNat - bytesWritten) (UInt16.ofNat start)
        have inPage : (UInt16.ofNat start).toNat % pageSize = start % pageSize := by
          rw [UInt16.toNat_ofNat', Nat.mod_mod_of_dvd _ (by decide)]
        rw [inPage] at bounds ends
        -- The first call, of `count` bytes.
        generalize countEq : writeLen (len.toNat - bytesWritten) (UInt16.ofNat start) = count
          at bounds ends
        have length : ((data.drop bytesWritten).take count).length = count := by
          rw [List.length_take, List.length_drop]
          omega
        obtain ⟨pieces, split, later⟩ := ih (len.toNat - (bytesWritten + count)) (by omega)
          (start + count) (bytesWritten + count) rfl
        refine ⟨(start, (data.drop bytesWritten).take count) :: pieces, ?_, ?_⟩
        · rw [drop_take_eq_append bounds.2.1]
          apply PageSplit.cons
          · rw [length]
            exact bounds.1
          · rw [length]
            exact bounds.2.2
          · rw [length]
            refine ends.imp_left fun all => ?_
            apply List.drop_eq_nil_of_le
            rw [List.length_take]
            omega
          · rw [length]
            exact split
        · intro write bus
          rw [writeLoop, if_pos more, countEq, transfer]
          simp only [← UInt16.ofNat_add, later]
      · refine ⟨[], ?_, ?_⟩
        · rw [List.drop_eq_nil_of_le (by rw [List.length_take]; omega)]
          exact PageSplit.nil start
        · intro write bus
          rw [writeLoop, if_neg more, transfer]

/-! ## The chip -/

/-- The memory of the chip, and how often it has been accessed. -/
structure Chip where
  memory : Nat → BitVec 8
  accesses : Nat

namespace Chip

/-- The write callback: a page write. -/
def write (chip : Chip) (addr : UInt16) (data : List (BitVec 8)) : EepromStatus × Chip :=
  (.ok, ⟨pageWrite pageSize chip.memory addr.toNat data, chip.accesses + 1⟩)

/-- The read callback: consecutive bytes. -/
def read (chip : Chip) (addr : UInt16) (len : UInt16) :
    (EepromStatus × List (BitVec 8)) × Chip :=
  ((.ok, readRange chip.memory addr.toNat len.toNat), ⟨chip.memory, chip.accesses + 1⟩)

/-- The callbacks as the device the driver is given. -/
def device : Device Chip :=
  ⟨some write, some read⟩

end Chip

/-- The calls of a split inside the address space store its cells. -/
theorem transfer_chip {start : Nat} {cells : List (BitVec 8)}
    {pieces : List (Nat × List (BitVec 8))} (split : PageSplit pageSize start cells pieces)
    (chip : Chip) (room : start + cells.length ≤ 65536) :
    ∃ accesses, transfer Chip.write pieces chip =
      (.ok, ⟨writeRange chip.memory start cells, accesses⟩) := by
  induction split generalizing chip with
  | nil start => exact ⟨chip.accesses, by rw [transfer, writeRange_nil]⟩
  | @cons start piece cells pieces positive inPage boundary rest ih =>
      rw [List.length_append] at room
      have address : (UInt16.ofNat start).toNat = start := by
        rw [UInt16.toNat_ofNat', Nat.mod_eq_of_lt (by omega)]
      have step : Chip.write chip (UInt16.ofNat start) piece =
          (.ok, ⟨writeRange chip.memory start piece, chip.accesses + 1⟩) := by
        rw [Chip.write, address, pageWrite_eq_writeRange inPage]
      obtain ⟨accesses, later⟩ :=
        ih ⟨writeRange chip.memory start piece, chip.accesses + 1⟩ (by omega)
      refine ⟨accesses, ?_⟩
      rw [transfer, step, if_neg (by simp), later, ← writeRange_append]

/-- A transfer inside the address space stores its data and nothing else. -/
theorem m24c32Write_chip (data : List (BitVec 8)) (len addr : UInt16) (chip : Chip)
    (stored : len.toNat ≤ data.length) (room : addr.toNat + len.toNat ≤ 65536) :
    ∃ accesses, m24c32Write (some Chip.device) addr (some data) len chip =
      (.ok, ⟨writeRange chip.memory addr.toNat (data.take len.toNat), accesses⟩) := by
  obtain ⟨pieces, split, calls⟩ := writeLoop_eq_transfer (σ := Chip) addr.toNat 0 stored
  have executed : m24c32Write (some Chip.device) addr (some data) len chip =
      transfer Chip.write pieces chip := by
    rw [← calls, UInt16.ofNat_toNat]
    rfl
  rw [List.drop_zero] at split
  rw [executed]
  apply transfer_chip split
  rw [List.length_take]
  omega

theorem m24c32Read_chip (addr len : UInt16) (chip : Chip) :
    m24c32Read (some Chip.device) addr len chip =
      ((.ok, readRange chip.memory addr.toNat len.toNat), ⟨chip.memory, chip.accesses + 1⟩) :=
  rfl

end EmbeddedBase.General.M24c32
