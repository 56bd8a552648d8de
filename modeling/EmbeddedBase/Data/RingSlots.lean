import Mathlib.Algebra.Ring.Nat

/-!
# Slots of a ring

A ring of `size` slots stores the item of index `i` in slot `i % size`.  Fewer than `size`
steps apart means different slots, and different slots occupy disjoint blocks of a memory.
-/

namespace EmbeddedBase.Data

/-- Items less than a turn apart are in different slots. -/
theorem mod_ne_mod_of_lt {size first second : Nat} (before : first < second)
    (close : second < first + size) : first % size ≠ second % size := by
  intro equal
  have whole : (second - first) % size = 0 := Nat.sub_mod_eq_zero_of_mod_eq equal.symm
  rw [Nat.mod_eq_of_lt (by omega)] at whole
  omega

/-- Going back from the next slot to fill. -/
theorem mod_add_sub_add_mod {size count back : Nat} (steps : Nat) (turn : back ≤ size)
    (enough : back ≤ count) :
    (count % size + size - back + steps) % size = (count - back + steps) % size := by
  have gathered : count % size + size - back + steps = count % size + (size - back + steps) := by
    omega
  have around : count + (size - back + steps) = count - back + steps + size := by omega
  rw [gathered, Nat.mod_add_mod, around, Nat.add_mod_right]

/-- The slot after the one at `index`. -/
theorem mod_add_one_mod (size index : Nat) : (index % size + 1) % size = (index + 1) % size :=
  Nat.mod_add_mod _ _ _

/-- A slot's block lies inside the ring's memory. -/
theorem slot_block_le {size slot : Nat} (width : Nat) (inside : slot < size) :
    slot * width + width ≤ size * width := by
  rw [← Nat.succ_mul]
  exact Nat.mul_le_mul_right width inside

/-- Different slots have disjoint blocks. -/
theorem slot_blocks_disjoint {slot other : Nat} (width : Nat) (different : slot ≠ other) :
    slot * width + width ≤ other * width ∨ other * width + width ≤ slot * width := by
  rcases Nat.lt_or_gt_of_ne different with below | above
  · exact Or.inl (slot_block_le width below)
  · exact Or.inr (slot_block_le width above)

/-! ## Slots of a queue -/

/-- The slot of item `i` of a queue whose oldest item is in slot `front`.  The front itself
need not be one of the first `size` slots; the items after it are. -/
def slotAt (size front i : Nat) : Nat :=
  if i = 0 then front else (front + i) % size

@[simp]
theorem slotAt_zero (size front : Nat) : slotAt size front 0 = front :=
  rfl

theorem slotAt_of_lt {size front : Nat} (inside : front < size) (i : Nat) :
    slotAt size front i = (front + i) % size := by
  rw [slotAt]
  by_cases first : i = 0
  · rw [if_pos first, first, Nat.add_zero, Nat.mod_eq_of_lt inside]
  · rw [if_neg first]

theorem slotAt_succ (size front i : Nat) : slotAt size front (i + 1) = (front + i + 1) % size :=
  if_neg (Nat.succ_ne_zero i)

/-- The slot behind the last item. -/
theorem slotAt_add_one_mod (size front i : Nat) :
    (slotAt size front i + 1) % size = slotAt size front (i + 1) := by
  rw [slotAt_succ, slotAt]
  by_cases first : i = 0
  · rw [if_pos first, first, Nat.add_zero]
  · rw [if_neg first, mod_add_one_mod]

/-- Moving the front on by one. -/
theorem slotAt_mod_front (size front i : Nat) :
    slotAt size ((front + 1) % size) i = slotAt size front (i + 1) := by
  rw [slotAt_succ, slotAt]
  by_cases first : i = 0
  · rw [if_pos first, first, Nat.add_zero]
  · rw [if_neg first, Nat.mod_add_mod, Nat.add_right_comm]

theorem slotAt_lt {size front limit : Nat} (positive : 1 ≤ size) (covered : size ≤ limit)
    (inside : front < limit) (i : Nat) : slotAt size front i < limit := by
  rw [slotAt]
  by_cases first : i = 0
  · rwa [if_pos first]
  · rw [if_neg first]
    exact Nat.lt_of_lt_of_le (Nat.mod_lt _ positive) covered

/-- Items of a queue of at most `size` items are in different slots. -/
theorem slotAt_ne {size front i j : Nat} (before : i < j) (few : j < size) :
    slotAt size front i ≠ slotAt size front j := by
  have later : slotAt size front j = (front + j) % size := by
    rw [slotAt, if_neg (Nat.ne_of_gt (Nat.lt_of_le_of_lt (Nat.zero_le i) before))]
  rw [later, slotAt]
  by_cases first : i = 0
  · rw [if_pos first]
    by_cases inside : front < size
    · have distinct := @mod_ne_mod_of_lt size front (front + j) (by omega) (by omega)
      rwa [Nat.mod_eq_of_lt inside] at distinct
    · have below : (front + j) % size < size := Nat.mod_lt _ (by omega)
      omega
  · rw [if_neg first]
    exact mod_ne_mod_of_lt (by omega) (by omega)

end EmbeddedBase.Data
