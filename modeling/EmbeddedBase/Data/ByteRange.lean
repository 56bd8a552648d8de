import Mathlib.Data.List.GetD
import Mathlib.Logic.Function.Basic

/-!
# Ranges of an addressed memory

A memory is a total map from addresses to cells.  This file has reads and
writes of consecutive cells, the way a read sees an overlapping or a disjoint
write, and the write of a paged device, which wraps inside the page it starts
in.
-/

namespace EmbeddedBase.Data

universe u

variable {β : Type u}

/-- Store `cells` at consecutive addresses from `start`. -/
def writeRange (memory : Nat → β) (start : Nat) (cells : List β) : Nat → β :=
  fun address => if start ≤ address then cells.getD (address - start) (memory address)
    else memory address

/-- The `len` cells from `start`. -/
def readRange (memory : Nat → β) (start len : Nat) : List β :=
  (List.range len).map fun i => memory (start + i)

/-- Replace the cells of a list from `offset` on by `cells`. -/
def splice (list : List β) (offset : Nat) (cells : List β) : List β :=
  list.take offset ++ cells ++ list.drop (offset + cells.length)

@[simp]
theorem length_readRange (memory : Nat → β) (start len : Nat) :
    (readRange memory start len).length = len := by
  simp [readRange]

@[simp]
theorem getElem_readRange (memory : Nat → β) {start len i : Nat}
    (inside : i < (readRange memory start len).length) :
    (readRange memory start len)[i] = memory (start + i) := by
  simp [readRange]

/-! ## Writing -/

theorem writeRange_of_lt (memory : Nat → β) {start address : Nat} (cells : List β)
    (below : address < start) : writeRange memory start cells address = memory address :=
  if_neg (Nat.not_le.mpr below)

theorem writeRange_of_ge (memory : Nat → β) {start address : Nat} (cells : List β)
    (above : start + cells.length ≤ address) :
    writeRange memory start cells address = memory address := by
  rw [writeRange, if_pos (by omega)]
  exact List.getD_eq_default _ _ (by omega)

theorem writeRange_inside (memory : Nat → β) {start i : Nat} {cells : List β}
    (inside : i < cells.length) : writeRange memory start cells (start + i) = cells[i] := by
  rw [writeRange, if_pos (Nat.le_add_right _ _), Nat.add_sub_cancel_left]
  exact List.getD_eq_getElem _ _ inside

@[simp]
theorem writeRange_nil (memory : Nat → β) (start : Nat) :
    writeRange memory start [] = memory := by
  funext address
  simp [writeRange]

/-- Writing one list after another is writing their concatenation. -/
theorem writeRange_append (memory : Nat → β) (start : Nat) (first second : List β) :
    writeRange (writeRange memory start first) (start + first.length) second =
      writeRange memory start (first ++ second) := by
  funext address
  by_cases below : address < start
  · rw [writeRange_of_lt _ _ (by omega), writeRange_of_lt _ _ below,
      writeRange_of_lt _ _ below]
  · obtain ⟨i, rfl⟩ := Nat.exists_eq_add_of_le (Nat.not_lt.mp below)
    by_cases inFirst : i < first.length
    · rw [writeRange_of_lt _ _ (by omega), writeRange_inside _ inFirst,
        writeRange_inside _ (by rw [List.length_append]; omega),
        List.getElem_append_left inFirst]
    · obtain ⟨j, rfl⟩ := Nat.exists_eq_add_of_le (Nat.not_lt.mp inFirst)
      by_cases inSecond : j < second.length
      · rw [← Nat.add_assoc, writeRange_inside _ inSecond, Nat.add_assoc,
          writeRange_inside _ (by rw [List.length_append]; omega),
          List.getElem_append_right (Nat.le_add_right _ _)]
        simp
      · rw [writeRange_of_ge _ _ (by omega), writeRange_of_ge _ _ (by omega),
          writeRange_of_ge _ _ (by rw [List.length_append]; omega)]

theorem writeRange_singleton (memory : Nat → β) (start : Nat) (cell : β) :
    writeRange memory start [cell] = Function.update memory start cell := by
  funext address
  by_cases here : address = start
  · subst here
    simp [writeRange]
  · rw [Function.update_of_ne here]
    by_cases below : address < start
    · exact writeRange_of_lt _ _ below
    · exact writeRange_of_ge _ _ (by rw [List.length_singleton]; omega)

theorem writeRange_replicate (memory : Nat → β) (start len : Nat) (cell : β) (address : Nat) :
    writeRange memory start (List.replicate len cell) address =
      if start ≤ address ∧ address < start + len then cell else memory address := by
  by_cases below : address < start
  · rw [writeRange_of_lt _ _ below, if_neg (by omega)]
  · obtain ⟨i, rfl⟩ := Nat.exists_eq_add_of_le (Nat.not_lt.mp below)
    by_cases inside : i < len
    · rw [writeRange_inside _ (by rwa [List.length_replicate]), List.getElem_replicate,
        if_pos (by omega)]
    · rw [writeRange_of_ge _ _ (by rw [List.length_replicate]; omega), if_neg (by omega)]

/-! ## Reading after writing -/

/-- A read of what was just written. -/
theorem readRange_writeRange_self (memory : Nat → β) (start : Nat) (cells : List β) :
    readRange (writeRange memory start cells) start cells.length = cells := by
  apply List.ext_getElem
  · exact length_readRange _ _ _
  · intro i _ inside
    rw [getElem_readRange, writeRange_inside _ inside]

/-- A read does not see a write to other addresses. -/
theorem readRange_writeRange_of_disjoint (memory : Nat → β) {start base len : Nat}
    {cells : List β} (apart : base + len ≤ start ∨ start + cells.length ≤ base) :
    readRange (writeRange memory start cells) base len = readRange memory base len := by
  apply List.map_congr_left
  intro i member
  have inside : i < len := List.mem_range.mp member
  rcases apart with before | behind
  · exact writeRange_of_lt _ _ (by omega)
  · exact writeRange_of_ge _ _ (by omega)

/-- A read around a write sees the old cells with the new ones spliced in. -/
theorem readRange_writeRange_of_within (memory : Nat → β) {base len offset : Nat}
    {cells : List β} (within : offset + cells.length ≤ len) :
    readRange (writeRange memory (base + offset) cells) base len =
      splice (readRange memory base len) offset cells := by
  unfold splice
  apply List.ext_getElem
  · simp only [List.length_append, List.length_take, List.length_drop, length_readRange]
    omega
  intro i inRead inSplice
  rw [length_readRange] at inRead
  rw [getElem_readRange]
  have head : ((readRange memory base len).take offset).length = offset := by
    rw [List.length_take, length_readRange]
    omega
  by_cases before : i < offset
  · rw [writeRange_of_lt _ _ (by omega),
      List.getElem_append_left (by rw [List.length_append, head]; omega),
      List.getElem_append_left (by rw [head]; exact before), List.getElem_take,
      getElem_readRange]
  · obtain ⟨j, rfl⟩ := Nat.exists_eq_add_of_le (Nat.not_lt.mp before)
    by_cases inCells : j < cells.length
    · rw [← Nat.add_assoc, writeRange_inside _ inCells,
        List.getElem_append_left (by rw [List.length_append, head]; omega),
        List.getElem_append_right (by rw [head]; omega)]
      simp only [head, Nat.add_sub_cancel_left]
    · rw [writeRange_of_ge _ _ (by omega),
        List.getElem_append_right (by rw [List.length_append, head]; omega)]
      simp only [List.length_append, head, List.getElem_drop, getElem_readRange]
      congr 1
      omega

/-- A part of a read is the read of the part. -/
theorem readRange_eq_take_drop (memory : Nat → β) {base len offset count : Nat}
    (within : offset + count ≤ len) :
    readRange memory (base + offset) count =
      ((readRange memory base len).drop offset).take count := by
  apply List.ext_getElem
  · simp
    omega
  · intro i _ _
    simp [Nat.add_assoc]

/-! ## Paged writes -/

/-- The write of a device with pages of `page` cells: the address moves on
inside the aligned page it starts in and wraps to the page's first cell. -/
def pageWrite (page : Nat) (memory : Nat → β) : Nat → List β → Nat → β
  | _, [] => memory
  | address, cell :: cells =>
      pageWrite page (Function.update memory address cell)
        (address / page * page + (address + 1) % page) cells

/-- A write that stays inside one page stores its cells in order. -/
theorem pageWrite_eq_writeRange {page address : Nat} {memory : Nat → β} {cells : List β}
    (inPage : address % page + cells.length ≤ page) :
    pageWrite page memory address cells = writeRange memory address cells := by
  induction cells generalizing memory address with
  | nil => rw [pageWrite, writeRange_nil]
  | cons cell cells ih =>
      rw [List.length_cons] at inPage
      rw [pageWrite, ← writeRange_singleton]
      rw [show cell :: cells = [cell] ++ cells from rfl, ← writeRange_append,
        List.length_singleton]
      by_cases last : cells = []
      · subst last
        rw [pageWrite, writeRange_nil]
      · have more : 0 < cells.length := List.length_pos_iff.mpr last
        have next : address / page * page + (address + 1) % page = address + 1 := by
          have split := Nat.div_add_mod' address page
          have step : (address + 1) % page = address % page + 1 := by
            rw [Nat.add_mod, Nat.mod_eq_of_lt (show 1 < page by omega)]
            exact Nat.mod_eq_of_lt (by omega)
          omega
        rw [next]
        apply ih
        rw [Nat.add_mod, Nat.mod_eq_of_lt (show 1 < page by omega),
          Nat.mod_eq_of_lt (by omega)]
        omega

/-- A page write of equal cells.  Those that do not fit behind `start` in its page go to the
cells before it. -/
theorem pageWrite_replicate {page index offset : Nat} (inside : offset < page)
    (memory : Nat → β) (len : Nat) (cell : β) (address : Nat) :
    pageWrite page memory (index * page + offset) (List.replicate len cell) address =
      if (index * page ≤ address ∧ address < index * page + page) ∧
          (index * page + offset ≤ address ∧ address < index * page + offset + len ∨
            address < index * page + offset ∧ address + page < index * page + offset + len) then
        cell
      else memory address := by
  induction len generalizing offset memory with
  | zero =>
      rw [List.replicate_zero, pageWrite, if_neg (by omega)]
  | succ len ih =>
      have base : (index * page + offset) / page * page = index * page := by
        rw [Nat.mul_comm index, Nat.mul_add_div (by omega), Nat.div_eq_of_lt inside,
          Nat.add_zero, Nat.mul_comm]
      have next : (index * page + offset + 1) % page =
          if offset + 1 < page then offset + 1 else 0 := by
        rw [Nat.add_assoc, Nat.mul_comm, Nat.mul_add_mod]
        split
        · exact Nat.mod_eq_of_lt ‹_›
        · rw [show offset + 1 = page by omega, Nat.mod_self]
      -- The first cell is written to its address, and the rest from the next address on.
      rw [List.replicate_succ, pageWrite, base, next, ih (by split <;> omega),
        Function.update_apply, ← ite_or]
      apply if_congr _ rfl rfl
      generalize index * page = base
      by_cases last : offset + 1 < page
      · rw [if_pos last]
        omega
      · rw [if_neg last]
        omega

end EmbeddedBase.Data
