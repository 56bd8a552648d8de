import EmbeddedBase.Data.ByteRange
import Mathlib.Data.Finset.Card
import Mathlib.Data.Finset.Image

/-!
# Splitting a range at page boundaries

Cells for consecutive addresses are cut into pieces, each inside one aligned page and each
but the first at the start of one.  The pieces are as many as the pages the range touches,
and writing them one after the other to a paged memory stores the cells in order.
-/

namespace EmbeddedBase.Data

universe u

variable {β : Type u} {page : Nat}

/-- `pieces` are the cells from `start` on, each piece with its address. -/
inductive PageSplit (page : Nat) : Nat → List β → List (Nat × List β) → Prop
  | nil (start : Nat) : PageSplit page start [] []
  | cons {start : Nat} {piece cells : List β} {pieces : List (Nat × List β)}
      (positive : 0 < piece.length) (inPage : start % page + piece.length ≤ page)
      (boundary : cells = [] ∨ start % page + piece.length = page)
      (rest : PageSplit page (start + piece.length) cells pieces) :
      PageSplit page start (piece ++ cells) ((start, piece) :: pieces)

/-- The number of pages with an address in the range. -/
def pagesTouched (page start len : Nat) : Nat :=
  ((Finset.range len).image fun i => (start + i) / page).card

theorem mod_add_eq_zero {start len : Nat} (boundary : start % page + len = page) :
    (start + len) % page = 0 := by
  rw [← Nat.mod_add_mod, boundary, Nat.mod_self]

/-- From a boundary on, one more page is touched. -/
theorem pagesTouched_add {start len rest : Nat} (positive : 0 < len)
    (inPage : start % page + len ≤ page) (boundary : rest = 0 ∨ start % page + len = page) :
    pagesTouched page start (len + rest) = pagesTouched page (start + len) rest + 1 := by
  have split := Nat.div_add_mod start page
  have paged : 0 < page := by omega
  have first : ∀ i < len, (start + i) / page = start / page := by
    intro i below
    apply Nat.div_eq_of_lt_le
    · rw [Nat.mul_comm]
      omega
    · rw [Nat.succ_mul, Nat.mul_comm]
      omega
  have image : ((Finset.range (len + rest)).image fun i => (start + i) / page) =
      insert (start / page) ((Finset.range rest).image fun i => (start + len + i) / page) := by
    ext index
    simp only [Finset.mem_image, Finset.mem_range, Finset.mem_insert]
    constructor
    · rintro ⟨i, below, rfl⟩
      by_cases here : i < len
      · exact .inl (first i here)
      · exact .inr ⟨i - len, by omega, by rw [Nat.add_assoc, Nat.add_sub_cancel' (by omega)]⟩
    · rintro (rfl | ⟨i, below, rfl⟩)
      · exact ⟨0, by omega, rfl⟩
      · exact ⟨len + i, by omega, by rw [Nat.add_assoc]⟩
  have fresh : start / page ∉ (Finset.range rest).image fun i => (start + len + i) / page := by
    intro member
    rcases Finset.mem_image.mp member with ⟨i, below, same⟩
    rcases boundary with none | full
    · rw [none] at below
      exact absurd (Finset.mem_range.mp below) (Nat.not_lt_zero i)
    · have next : start / page + 1 ≤ (start + len + i) / page := by
        rw [Nat.le_div_iff_mul_le paged, Nat.succ_mul, Nat.mul_comm]
        omega
      omega
  rw [pagesTouched, image, Finset.card_insert_of_notMem fresh, pagesTouched]

namespace PageSplit

variable {start : Nat} {cells : List β} {pieces : List (Nat × List β)}

/-- Every piece has a cell and lies in one page. -/
theorem inside (split : PageSplit page start cells pieces) :
    ∀ piece ∈ pieces, 0 < piece.2.length ∧ piece.1 % page + piece.2.length ≤ page := by
  induction split with
  | nil start => simp
  | cons positive inPage boundary rest ih =>
      intro piece member
      rcases List.mem_cons.mp member with rfl | later
      · exact ⟨positive, inPage⟩
      · exact ih piece later

/-- The pieces together are the cells. -/
theorem flatten (split : PageSplit page start cells pieces) :
    (pieces.map Prod.snd).flatten = cells := by
  induction split with
  | nil start => rfl
  | cons positive inPage boundary rest ih => rw [List.map_cons, List.flatten_cons, ih]

/-- The pieces follow each other. -/
theorem consecutive (split : PageSplit page start cells pieces) :
    ∀ before piece after, pieces = before ++ piece :: after →
      piece.1 = start + ((before.map Prod.snd).flatten).length := by
  induction split with
  | nil start => simp
  | cons positive inPage boundary rest ih =>
      intro before piece after split
      cases before with
      | nil =>
          cases split
          simp
      | cons first before =>
          cases split
          rw [ih before piece after rfl, List.map_cons, List.flatten_cons, List.length_append,
            Nat.add_assoc]

/-- No cells, no pieces. -/
theorem eq_nil (split : PageSplit page start [] pieces) : pieces = [] := by
  cases pieces with
  | nil => rfl
  | cons piece pieces =>
      have empty := List.flatten_eq_nil_iff.mp split.flatten piece.2 (by simp)
      have positive := (split.inside piece List.mem_cons_self).1
      rw [empty] at positive
      exact absurd positive (Nat.lt_irrefl 0)

/-- From a page boundary on, every piece starts at one. -/
theorem aligned_of_boundary (split : PageSplit page start cells pieces)
    (boundary : start % page = 0) : ∀ piece ∈ pieces, piece.1 % page = 0 := by
  induction split with
  | nil start => simp
  | cons positive inPage full rest ih =>
      intro piece member
      rcases List.mem_cons.mp member with rfl | later
      · exact boundary
      · rcases full with rfl | full
        · rw [rest.eq_nil] at later
          cases later
        · exact ih (mod_add_eq_zero full) piece later

/-- Every piece after the first starts at a page boundary. -/
theorem aligned (split : PageSplit page start cells pieces) :
    ∀ piece ∈ pieces.tail, piece.1 % page = 0 := by
  cases split with
  | nil start => simp
  | cons positive inPage boundary rest =>
      rcases boundary with rfl | full
      · rw [List.tail_cons, rest.eq_nil]
        simp
      · exact rest.aligned_of_boundary (mod_add_eq_zero full)

/-- There are as many pieces as pages touched. -/
theorem length_eq (split : PageSplit page start cells pieces) :
    pieces.length = pagesTouched page start cells.length := by
  induction split with
  | nil start => rfl
  | cons positive inPage boundary rest ih =>
      rw [List.length_cons, ih, List.length_append, pagesTouched_add positive inPage]
      exact boundary.imp_left List.length_eq_zero_iff.mpr

end PageSplit

end EmbeddedBase.Data
