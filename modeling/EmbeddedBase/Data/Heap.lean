import Mathlib.Logic.Function.Basic
import Mathlib.Algebra.Ring.Nat

/-!
# A heap of typed blocks

Finitely many blocks are live.  Reading, writing or freeing a block that is not live has no
result.
-/

namespace EmbeddedBase.Data

universe u

abbrev Address := Nat

/-- A pointer to the start of a block, or `NULL`. -/
abbrev Pointer := Option Address

/-- The live blocks. -/
structure Heap (β : Type u) where
  blocks : Address → Option β
  finite : ∃ bound, ∀ address, bound ≤ address → blocks address = none

namespace Heap

variable {β : Type u}

@[ext]
theorem ext {heap other : Heap β} (equal : ∀ address, heap.blocks address = other.blocks address) :
    heap = other := by
  cases heap
  cases other
  congr
  exact funext equal

/-- The heap without blocks. -/
def empty : Heap β :=
  ⟨fun _ => none, 0, fun _ _ => rfl⟩

/-- Some address is free. -/
theorem exists_fresh (heap : Heap β) : ∃ address, heap.blocks address = none := by
  rcases heap.finite with ⟨bound, free⟩
  exact ⟨bound, free bound (Nat.le_refl bound)⟩

/-- The heap with one block replaced. -/
def set (heap : Heap β) (address : Address) (block : Option β) : Heap β where
  blocks := Function.update heap.blocks address block
  finite := by
    rcases heap.finite with ⟨bound, free⟩
    refine ⟨max bound (address + 1), fun other beyond => ?_⟩
    have below : address < other :=
      Nat.lt_of_lt_of_le (Nat.lt_of_succ_le (Nat.le_max_right bound (address + 1))) beyond
    rw [Function.update_of_ne (Nat.ne_of_gt below)]
    exact free other (Nat.le_trans (Nat.le_max_left bound (address + 1)) beyond)

@[simp]
theorem blocks_set_self (heap : Heap β) (address : Address) (block : Option β) :
    (heap.set address block).blocks address = block :=
  Function.update_self _ _ _

@[simp]
theorem blocks_set_of_ne (heap : Heap β) {address other : Address} (block : Option β)
    (different : other ≠ address) :
    (heap.set address block).blocks other = heap.blocks other :=
  Function.update_of_ne different _ _

theorem set_set (heap : Heap β) (address : Address) (block other : Option β) :
    (heap.set address block).set address other = heap.set address other := by
  apply Heap.ext
  intro location
  by_cases here : location = address
  · rw [here, blocks_set_self, blocks_set_self]
  · rw [blocks_set_of_ne _ _ here, blocks_set_of_ne _ _ here, blocks_set_of_ne _ _ here]

theorem set_comm (heap : Heap β) {address other : Address} (different : address ≠ other)
    (block otherBlock : Option β) :
    (heap.set address block).set other otherBlock =
      (heap.set other otherBlock).set address block := by
  apply Heap.ext
  intro location
  by_cases here : location = address
  · rw [here, blocks_set_self, blocks_set_of_ne _ _ different, blocks_set_self]
  · by_cases there : location = other
    · rw [there, blocks_set_self, blocks_set_of_ne _ _ (Ne.symm different), blocks_set_self]
    · rw [blocks_set_of_ne _ _ there, blocks_set_of_ne _ _ here, blocks_set_of_ne _ _ here,
        blocks_set_of_ne _ _ there]

/-- Read a block. -/
def load (heap : Heap β) (pointer : Pointer) : Option β :=
  pointer.bind heap.blocks

/-- Overwrite a live block. -/
def store (heap : Heap β) (pointer : Pointer) (block : β) : Option (Heap β) :=
  match pointer with
  | none => none
  | some address =>
      if (heap.blocks address).isSome then some (heap.set address (some block)) else none

/-- Free a live block; freeing `NULL` does nothing. -/
def free (heap : Heap β) (pointer : Pointer) : Option (Heap β) :=
  match pointer with
  | none => some heap
  | some address => if (heap.blocks address).isSome then some (heap.set address none) else none

/-- Allocate the proposed block.  Without a proposal, or where the proposed address is in
use, the allocation fails. -/
def malloc (heap : Heap β) (proposal : Option (Address × β)) : Pointer × Heap β :=
  match proposal with
  | none => (none, heap)
  | some (address, block) =>
      if (heap.blocks address).isSome then (none, heap)
      else (some address, heap.set address (some block))

variable {heap : Heap β} {address : Address} {block : β}

@[simp]
theorem load_some (heap : Heap β) (address : Address) :
    heap.load (some address) = heap.blocks address :=
  rfl

theorem store_of_live {old : β} (live : heap.blocks address = some old) :
    heap.store (some address) block = some (heap.set address (some block)) := by
  simp [store, live]

theorem free_of_live (live : heap.blocks address = some block) :
    heap.free (some address) = some (heap.set address none) := by
  simp [free, live]

theorem malloc_of_fresh (fresh : heap.blocks address = none) :
    heap.malloc (some (address, block)) = (some address, heap.set address (some block)) := by
  simp [malloc, fresh]

/-- A successful allocation is at the proposed address, which was free. -/
theorem malloc_eq_some {proposal : Option (Address × β)} {heap' : Heap β}
    (allocated : heap.malloc proposal = (some address, heap')) :
    ∃ block, proposal = some (address, block) ∧ heap.blocks address = none ∧
      heap' = heap.set address (some block) := by
  cases proposal with
  | none => cases allocated
  | some proposed =>
      rcases proposed with ⟨other, block⟩
      rw [malloc] at allocated
      cases used : heap.blocks other with
      | some old => simp [used] at allocated
      | none =>
          simp only [used, Option.isSome_none, Bool.false_eq_true, if_false, Prod.mk.injEq,
            Option.some.injEq] at allocated
          rcases allocated with ⟨rfl, rfl⟩
          exact ⟨block, rfl, used, rfl⟩

/-- A failed allocation leaves the heap alone. -/
theorem malloc_eq_none {proposal : Option (Address × β)} {heap' : Heap β}
    (failed : heap.malloc proposal = (none, heap')) : heap' = heap := by
  cases proposal with
  | none => exact (congrArg Prod.snd failed).symm
  | some proposed =>
      rw [malloc] at failed
      by_cases used : (heap.blocks proposed.1).isSome
      · rw [if_pos used] at failed
        exact (congrArg Prod.snd failed).symm
      · rw [if_neg used] at failed
        cases congrArg Prod.fst failed

/-- The heap without the listed blocks. -/
def clear (heap : Heap β) : List Address → Heap β
  | [] => heap
  | address :: addresses => (heap.set address none).clear addresses

theorem blocks_clear (heap : Heap β) (addresses : List Address) (location : Address) :
    (heap.clear addresses).blocks location =
      if location ∈ addresses then none else heap.blocks location := by
  induction addresses generalizing heap with
  | nil => rfl
  | cons address addresses ih =>
      rw [clear, ih]
      by_cases here : location = address
      · simp [here]
      · simp [here]

theorem clear_concat (heap : Heap β) (addresses : List Address) (address : Address) :
    heap.clear (addresses ++ [address]) = (heap.clear addresses).set address none := by
  induction addresses generalizing heap with
  | nil => rfl
  | cons first addresses ih => exact ih _

end Heap

end EmbeddedBase.Data
