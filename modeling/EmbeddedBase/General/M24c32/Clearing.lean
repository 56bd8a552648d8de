import EmbeddedBase.General.M24c32

/-!
# Clearing EEPROM bytes

`m24c32_clear` makes one write call for the whole range, which the chip wraps inside the
page of its first address.
-/

namespace EmbeddedBase.General.M24c32

open EmbeddedBase.Data
open EmbeddedBase.Middleware.Eeprom

/-- Clearing a range of the chip makes exactly its bytes zero, as writing zeros does. -/
structure Clears (addr len : UInt16) (chip : Chip) : Prop where
  status : (m24c32Clear (some Chip.device) addr len true chip).1 = .ok
  memory : ∀ a, (m24c32Clear (some Chip.device) addr len true chip).2.memory a =
    if addr.toNat ≤ a ∧ a < addr.toNat + len.toNat then 0 else chip.memory a
  written : (m24c32Clear (some Chip.device) addr len true chip).2.memory =
    (m24c32Write (some Chip.device) addr (some (List.replicate len.toNat 0)) len chip).2.memory

/-- The address belongs to the range, but not to the page of its first byte. -/
def Missed (addr len : UInt16) (a : Nat) : Prop :=
  addr.toNat / pageSize * pageSize + pageSize ≤ a ∧ a < addr.toNat + len.toNat

/-- The address lies in the page of the first byte before the range, and the bytes past the
end of the page reach it. -/
def Overwritten (addr len : UInt16) (a : Nat) : Prop :=
  addr.toNat / pageSize * pageSize ≤ a ∧ a < addr.toNat ∧
    a + pageSize < addr.toNat + len.toNat

instance (addr len : UInt16) (a : Nat) : Decidable (Missed addr len a) :=
  inferInstanceAs (Decidable (_ ∧ _))

instance (addr len : UInt16) (a : Nat) : Decidable (Overwritten addr len a) :=
  inferInstanceAs (Decidable (_ ∧ _))

/-- The memory after a clear: the bytes of the page that the zeros reach are zero. -/
theorem memory_m24c32Clear (addr len : UInt16) (chip : Chip) (a : Nat) :
    (m24c32Clear (some Chip.device) addr len true chip).2.memory a =
      if addr.toNat ≤ a ∧ a < addr.toNat + len.toNat ∧ ¬Missed addr len a ∨
        Overwritten addr len a then 0 else chip.memory a := by
  have inside : addr.toNat % pageSize < pageSize := Nat.mod_lt _ (by decide)
  have split : addr.toNat / pageSize * pageSize + addr.toNat % pageSize = addr.toNat :=
    Nat.div_add_mod' _ _
  have cleared := @pageWrite_replicate _ _ (addr.toNat / pageSize) _ inside chip.memory
    len.toNat 0 a
  rw [split] at cleared
  change pageWrite pageSize chip.memory addr.toNat (List.replicate len.toNat 0) a = _
  rw [cleared]
  apply if_congr _ rfl rfl
  unfold Missed Overwritten
  generalize addr.toNat / pageSize * pageSize = base at split ⊢
  omega

/-- A byte is as it should be unless it is missed or overwritten and was not zero. -/
theorem memory_m24c32Clear_eq_iff (addr len : UInt16) (chip : Chip) (a : Nat) :
    (m24c32Clear (some Chip.device) addr len true chip).2.memory a =
        (if addr.toNat ≤ a ∧ a < addr.toNat + len.toNat then 0 else chip.memory a) ↔
      (Missed addr len a ∨ Overwritten addr len a → chip.memory a = 0) := by
  rw [memory_m24c32Clear]
  by_cases missed : Missed addr len a
  · have start : addr.toNat ≤ a := by
      have small : addr.toNat % pageSize < pageSize := Nat.mod_lt _ (by decide)
      have split := Nat.div_add_mod' addr.toNat pageSize
      have above := missed.1
      omega
    have apart : ¬Overwritten addr len a := fun overwritten => by
      have before := overwritten.2.1
      omega
    simp [missed, apart, start, missed.2]
  · by_cases overwritten : Overwritten addr len a
    · have outside : ¬addr.toNat ≤ a := Nat.not_le.mpr overwritten.2.1
      simp [overwritten, outside, eq_comm]
    · simp [missed, overwritten]

/-- `m24c32_clear` clears a range of the address space exactly when every byte that it misses
or overwrites was zero already; inside one page there is none. -/
theorem clear_clears_iff (addr len : UInt16) (chip : Chip)
    (room : addr.toNat + len.toNat ≤ 65536) :
    Clears addr len chip ↔
      ∀ a, Missed addr len a ∨ Overwritten addr len a → chip.memory a = 0 := by
  constructor
  · intro clears a
    exact (memory_m24c32Clear_eq_iff addr len chip a).mp (clears.memory a)
  · intro zero
    have memory : ∀ a, _ := fun a => (memory_m24c32Clear_eq_iff addr len chip a).mpr (zero a)
    refine ⟨rfl, memory, ?_⟩
    obtain ⟨accesses, written⟩ := m24c32Write_chip (List.replicate len.toNat 0) len addr chip
      (by rw [List.length_replicate]) room
    rw [written, List.take_replicate, Nat.min_self]
    funext a
    exact (memory a).trans (writeRange_replicate _ _ _ _ _).symm

/-- A clear up to the end of a page. -/
theorem clear_clears_iff_example : Clears 40 24 ⟨fun _ => 0xFF, 0⟩ := by
  apply (clear_clears_iff 40 24 ⟨fun _ => 0xFF, 0⟩ (by decide)).mpr
  intro a wrong
  exfalso
  rcases wrong with ⟨above, below⟩ | ⟨above, below, wrapped⟩
  · change 64 ≤ a at above
    change a < 64 at below
    omega
  · change a < 40 at below
    change 32 ≤ a at above
    change a + 32 < 64 at wrapped
    omega

/-- A clear across a page boundary misses the second byte and clears byte 0. -/
theorem clear_across_boundary : ¬Clears 31 2 ⟨fun _ => 0xFF, 0⟩ := by
  intro clears
  exact absurd (clears.memory 32) (by decide)

end EmbeddedBase.General.M24c32
