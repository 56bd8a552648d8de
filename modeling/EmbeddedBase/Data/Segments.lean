import Mathlib.Algebra.Order.Ring.Nat

/-!
# Segments laid end to end

Segments of given lengths follow each other from zero on.  Each position lies in exactly
one of them.
-/

namespace EmbeddedBase.Data

/-- Where a segment starts. -/
def segmentStart (length : Nat → Nat) : Nat → Nat
  | 0 => 0
  | index + 1 => segmentStart length index + length index

/-- The position lies in the segment, that far from its start. -/
def LiesIn (length : Nat → Nat) (position index rest : Nat) : Prop :=
  position = segmentStart length index + rest ∧ rest < length index

section

variable {length : Nat → Nat} {position index other rest distance : Nat}

@[simp]
theorem segmentStart_zero : segmentStart length 0 = 0 :=
  rfl

theorem segmentStart_succ (length : Nat → Nat) (index : Nat) :
    segmentStart length (index + 1) = segmentStart length index + length index :=
  rfl

/-- The first segment taken away. -/
theorem segmentStart_front (length : Nat → Nat) (index : Nat) :
    segmentStart length (index + 1) =
      length 0 + segmentStart (fun later => length (later + 1)) index := by
  induction index with
  | zero =>
      rw [segmentStart_succ, segmentStart_zero, segmentStart_zero]
      exact Nat.add_comm 0 (length 0)
  | succ index ih =>
      rw [segmentStart_succ, ih, segmentStart_succ, Nat.add_assoc]

theorem segmentStart_mono (length : Nat → Nat) (less : index ≤ other) :
    segmentStart length index ≤ segmentStart length other := by
  induction less with
  | refl => exact Nat.le_refl _
  | step _ ih => exact Nat.le_trans ih (Nat.le_add_right _ _)

/-- Segments of at least one length start at least that far apart. -/
theorem mul_le_segmentStart {least : Nat} (bound : ∀ index, least ≤ length index) (index : Nat) :
    least * index ≤ segmentStart length index := by
  induction index with
  | zero => exact Nat.le_refl _
  | succ index ih => exact Nat.add_le_add ih (bound index)

/-- The end of a segment is not behind the start of a later one. -/
theorem LiesIn.lt_start (lies : LiesIn length position index rest) (less : index < other) :
    position < segmentStart length other := by
  have later := segmentStart_mono length (Nat.succ_le_of_lt less)
  rw [segmentStart_succ] at later
  rw [lies.1]
  exact Nat.lt_of_lt_of_le (Nat.add_lt_add_left lies.2 _) later

theorem LiesIn.start_le (lies : LiesIn length position index rest) :
    segmentStart length index ≤ position := by
  rw [lies.1]
  exact Nat.le_add_right _ _

/-- A position before a start lies in an earlier segment. -/
theorem LiesIn.index_lt (lies : LiesIn length position index rest)
    (before : position < segmentStart length other) : index < other := by
  by_contra later
  have start := segmentStart_mono length (Nat.le_of_not_lt later)
  exact absurd (Nat.le_trans start lies.start_le) (Nat.not_le_of_lt before)

/-- A position lies in one segment only. -/
theorem LiesIn.unique (first : LiesIn length position index rest)
    (second : LiesIn length position other distance) : index = other ∧ rest = distance := by
  have same : index = other := by
    rcases Nat.lt_trichotomy index other with less | same | less
    · exact absurd second.start_le (Nat.not_le_of_lt (first.lt_start less))
    · exact same
    · exact absurd first.start_le (Nat.not_le_of_lt (second.lt_start less))
  subst same
  exact ⟨rfl, Nat.add_left_cancel (first.1.symm.trans second.1)⟩

/-- A position lies in some segment when none is empty. -/
theorem exists_liesIn (positive : ∀ index, 0 < length index) (position : Nat) :
    ∃ index rest, LiesIn length position index rest := by
  induction position with
  | zero => exact ⟨0, 0, rfl, positive 0⟩
  | succ position ih =>
      rcases ih with ⟨index, rest, same, within⟩
      by_cases last : rest + 1 = length index
      · refine ⟨index + 1, 0, ?_, positive (index + 1)⟩
        rw [segmentStart_succ, same, ← last]
        rfl
      · exact ⟨index, rest + 1, congrArg (· + 1) same, Nat.lt_of_le_of_ne within last⟩

end

end EmbeddedBase.Data
