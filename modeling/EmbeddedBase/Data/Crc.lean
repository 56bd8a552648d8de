import EmbeddedBase.Data.BitField
import Mathlib.Algebra.Ring.Parity
import Mathlib.Logic.Function.Iterate

/-!
# Cyclic redundancy checks

A register of `w` bits that takes a message bit by bit, most significant bit first, and is
reduced by a generator of degree `w`.  The register is linear in its contents and in the
message.  A generator with a constant term makes a step invertible, so an error burst no
longer than the register is not lost; a generator with an even number of terms makes the
register keep the parity of the message.
-/

namespace EmbeddedBase.Data.Crc

variable {w : Nat}

/-! ## The register -/

/-- Shift the register by one bit.  `poly` is the generator without its leading term. -/
def step (poly crc : BitVec w) : BitVec w :=
  if crc.msb then (crc <<< 1) ^^^ poly else crc <<< 1

/-- A single bit at the top of the register. -/
def top (w : Nat) (bit : Bool) : BitVec w :=
  if bit then BitVec.twoPow w (w - 1) else 0#w

/-- Take one bit of the message. -/
def feed (poly crc : BitVec w) (bit : Bool) : BitVec w :=
  step poly (crc ^^^ top w bit)

/-- Take a message. -/
def feedAll (poly crc : BitVec w) (bits : List Bool) : BitVec w :=
  bits.foldl (feed poly) crc

/-- A message no longer than the register, at the top of it. -/
def place (w : Nat) : List Bool → BitVec w
  | [] => 0#w
  | bit :: bits => top w bit ^^^ (place w bits >>> 1)

@[simp]
theorem feedAll_nil (poly crc : BitVec w) : feedAll poly crc [] = crc :=
  rfl

@[simp]
theorem feedAll_cons (poly crc : BitVec w) (bit : Bool) (bits : List Bool) :
    feedAll poly crc (bit :: bits) = feedAll poly (feed poly crc bit) bits :=
  rfl

theorem feedAll_append (poly crc : BitVec w) (first second : List Bool) :
    feedAll poly crc (first ++ second) = feedAll poly (feedAll poly crc first) second :=
  List.foldl_append

/-! ## Linearity -/

theorem step_xor (poly left right : BitVec w) :
    step poly (left ^^^ right) = step poly left ^^^ step poly right := by
  rw [step, step, step, BitVec.msb_xor, BitVec.shiftLeft_xor_distrib]
  cases left.msb <;> cases right.msb
  · rfl
  · exact BitVec.xor_assoc _ _ _
  · exact (BitVec.xor_assoc _ _ _).trans
      ((congrArg _ (BitVec.xor_comm _ _)).trans (BitVec.xor_assoc _ _ _).symm)
  · change left <<< 1 ^^^ right <<< 1 = left <<< 1 ^^^ poly ^^^ (right <<< 1 ^^^ poly)
    rw [BitVec.xor_assoc, BitVec.xor_comm (right <<< 1), ← BitVec.xor_assoc poly,
      BitVec.xor_self, BitVec.zero_xor]

@[simp]
theorem step_zero (poly : BitVec w) : step poly 0#w = 0#w := by
  simp [step]

theorem iterate_step_xor (poly left right : BitVec w) (n : Nat) :
    (step poly)^[n] (left ^^^ right) = (step poly)^[n] left ^^^ (step poly)^[n] right := by
  induction n generalizing left right with
  | zero => rfl
  | succ n ih => rw [Function.iterate_succ_apply, step_xor, ih]; rfl

@[simp]
theorem iterate_step_zero (poly : BitVec w) (n : Nat) : (step poly)^[n] 0#w = 0#w := by
  induction n with
  | zero => rfl
  | succ n ih => rw [Function.iterate_succ_apply, step_zero, ih]

/-! ## Short messages -/

/-- A message at the top of the register shows its bits from the most significant on. -/
theorem getLsbD_place (bits : List Bool) (j : Nat) :
    (place w bits).getLsbD j = (decide (j < w) && bits.getD (w - 1 - j) false) := by
  induction bits generalizing j with
  | nil => simp [place]
  | cons bit bits ih =>
      rw [place, BitVec.getLsbD_xor, BitVec.getLsbD_ushiftRight, ih, top]
      by_cases inside : j < w
      · by_cases last : w - 1 = j
        · have past : ¬1 + j < w := by omega
          have first : w - 1 - j = 0 := by omega
          rw [decide_eq_false past, decide_eq_true inside, first]
          cases bit
          · simp
          · simp [last, inside]
        · have more : 1 + j < w := by omega
          have next : w - 1 - j = w - 1 - (1 + j) + 1 := by omega
          rw [decide_eq_true more, decide_eq_true inside, next]
          cases bit
          · simp
          · simp [BitVec.getLsbD_twoPow, last]
      · have past : ¬1 + j < w := by omega
        cases bit
        · simp [inside, past]
        · simp [BitVec.getLsbD_twoPow, inside, past]
          omega

/-- A step undoes a shift that lost nothing. -/
theorem step_ushiftRight (poly : BitVec w) {word : BitVec w} (clear : word.getLsbD 0 = false) :
    step poly (word >>> 1) = word := by
  have msb : (word >>> 1).msb = false := by
    rw [BitVec.msb_eq_getLsbD_last, BitVec.getLsbD_ushiftRight]
    apply BitVec.getLsbD_of_ge
    omega
  rw [step, msb, if_neg (by decide)]
  apply BitVec.eq_of_getLsbD_eq
  intro i below
  rw [BitVec.getLsbD_shiftLeft, BitVec.getLsbD_ushiftRight]
  cases i with
  | zero => simp [clear]
  | succ i => simp [below, Nat.add_comm 1 i]

/-- A message no longer than the register can be taken at once. -/
theorem feedAll_eq_iterate (poly crc : BitVec w) {bits : List Bool} (short : bits.length ≤ w) :
    feedAll poly crc bits = (step poly)^[bits.length] (crc ^^^ place w bits) := by
  induction bits generalizing crc with
  | nil => simp [place]
  | cons bit bits ih =>
      rw [List.length_cons] at short
      have clear : (place w bits).getLsbD 0 = false := by
        rw [getLsbD_place, List.getD_eq_default _ _ (by omega), Bool.and_false]
      rw [feedAll_cons, ih _ (by omega), List.length_cons, Function.iterate_succ_apply, place,
        ← BitVec.xor_assoc, step_xor, step_ushiftRight poly clear]
      rfl

/-! ## Words -/

/-- The bits of a word, most significant first. -/
def wordBits (word : BitVec w) : List Bool :=
  (List.range w).map fun i => word.getLsbD (w - 1 - i)

/-- Take a message of words as long as the register. -/
def feedWords (poly crc : BitVec w) (words : List (BitVec w)) : BitVec w :=
  words.foldl (fun crc word => (step poly)^[w] (crc ^^^ word)) crc

@[simp]
theorem length_wordBits (word : BitVec w) : (wordBits word).length = w := by
  simp [wordBits]

@[simp]
theorem place_wordBits (word : BitVec w) : place w (wordBits word) = word := by
  apply BitVec.eq_of_getLsbD_eq
  intro i below
  have index : w - 1 - i < (wordBits word).length := by
    rw [length_wordBits]
    omega
  have place : w - 1 - (w - 1 - i) = i := by omega
  rw [getLsbD_place, List.getD_eq_getElem _ _ index, decide_eq_true below, Bool.true_and]
  simp [wordBits, place]

theorem true_mem_wordBits {word : BitVec w} (nonzero : word ≠ 0#w) : true ∈ wordBits word := by
  by_contra clear
  apply nonzero
  apply BitVec.eq_of_getLsbD_eq
  intro i below
  by_contra different
  have high : word.getLsbD i = true := by simpa using different
  have place : w - 1 - (w - 1 - i) = i := by omega
  exact clear (List.mem_map.mpr
    ⟨w - 1 - i, List.mem_range.mpr (by omega), by rw [place, high]⟩)

/-- Taking words is taking their bits. -/
theorem feedWords_eq_feedAll (poly crc : BitVec w) (words : List (BitVec w)) :
    feedWords poly crc words = feedAll poly crc (words.flatMap wordBits) := by
  induction words generalizing crc with
  | nil => rfl
  | cons word words ih =>
      rw [List.flatMap_cons, feedAll_append,
        feedAll_eq_iterate poly crc (length_wordBits word).le, length_wordBits, place_wordBits]
      exact ih _

/-- The register is linear in the message. -/
theorem feedWords_zipWith_xor (poly crc crc' : BitVec w) {words words' : List (BitVec w)}
    (same : words.length = words'.length) :
    feedWords poly (crc ^^^ crc') (List.zipWith (· ^^^ ·) words words') =
      feedWords poly crc words ^^^ feedWords poly crc' words' := by
  induction words generalizing crc crc' words' with
  | nil =>
      cases words' with
      | nil => rfl
      | cons word' words' => cases same
  | cons word words ih =>
      cases words' with
      | nil => cases same
      | cons word' words' =>
          have regroup :
              crc ^^^ crc' ^^^ (word ^^^ word') = (crc ^^^ word) ^^^ (crc' ^^^ word') := by
            rw [BitVec.xor_assoc, ← BitVec.xor_assoc crc', BitVec.xor_comm crc',
              BitVec.xor_assoc word, ← BitVec.xor_assoc]
          change feedWords poly ((step poly)^[w] (crc ^^^ crc' ^^^ (word ^^^ word'))) _ = _
          rw [regroup, iterate_step_xor, ih _ _ (Nat.succ.inj same)]
          rfl

/-! ## Bursts -/

section

variable {poly : BitVec w} (constant : poly.getLsbD 0 = true)

include constant

/-- A generator with a constant term makes a step invertible. -/
theorem step_eq_zero_iff {crc : BitVec w} : step poly crc = 0#w ↔ crc = 0#w := by
  constructor
  · intro zero
    cases high : crc.msb with
    | true =>
        have bit := congrArg (fun word => word.getLsbD 0) zero
        simp [step, high, constant] at bit
    | false =>
        rw [step, high, if_neg (by decide)] at zero
        apply BitVec.eq_of_getLsbD_eq
        intro i below
        by_cases last : i + 1 < w
        · have bit : (crc <<< 1).getLsbD (i + 1) = (0#w).getLsbD (i + 1) := by rw [zero]
          rwa [BitVec.getLsbD_shiftLeft, decide_eq_true last, decide_eq_false (by omega),
            Nat.add_sub_cancel, BitVec.getLsbD_zero, Bool.not_false, Bool.true_and,
            Bool.true_and, ← BitVec.getLsbD_zero] at bit
        · have top : i = w - 1 := by omega
          rw [top, ← BitVec.msb_eq_getLsbD_last, high, BitVec.getLsbD_zero]
  · rintro rfl
    exact step_zero poly

theorem iterate_step_eq_zero_iff {crc : BitVec w} (n : Nat) :
    (step poly)^[n] crc = 0#w ↔ crc = 0#w := by
  induction n generalizing crc with
  | zero => rfl
  | succ n ih => rw [Function.iterate_succ_apply, ih, step_eq_zero_iff constant]

/-- A last word clears the register exactly when it is what the register holds before it. -/
theorem feedWords_append_eq_zero_iff (crc : BitVec w) (words : List (BitVec w))
    (word : BitVec w) :
    feedWords poly crc (words ++ [word]) = 0#w ↔ feedWords poly crc words = word := by
  have last : feedWords poly crc (words ++ [word]) =
      (step poly)^[w] (feedWords poly crc words ^^^ word) := List.foldl_append
  rw [last, iterate_step_eq_zero_iff constant, BitVec.xor_eq_zero_iff]

omit constant in
/-- Clear bits only step the register. -/
theorem feedAll_of_clear (crc : BitVec w) {bits : List Bool} (clear : ∀ bit ∈ bits, bit = false) :
    feedAll poly crc bits = (step poly)^[bits.length] crc := by
  induction bits generalizing crc with
  | nil => rfl
  | cons bit bits ih =>
      have first := clear bit List.mem_cons_self
      have fed : feed poly crc bit = step poly crc := by
        rw [feed, first]
        exact congrArg _ (BitVec.xor_zero)
      rw [feedAll_cons, ih _ fun other member => clear other (List.mem_cons_of_mem bit member),
        List.length_cons, Function.iterate_succ_apply, fed]

/-- A burst no longer than the register does not leave it clear. -/
theorem feedAll_burst_ne_zero {bits : List Bool} (set : true ∈ bits) {start : Nat}
    (burst : ∀ i, bits.getD i false = true → start ≤ i ∧ i < start + w) :
    feedAll poly 0#w bits ≠ 0#w := by
  have before : ∀ bit ∈ bits.take start, bit = false := by
    intro bit member
    rcases List.mem_iff_getElem.mp member with ⟨i, below, rfl⟩
    rw [List.length_take] at below
    by_contra high
    have inside := burst i (by
      rw [List.getD_eq_getElem _ _ (by omega)]
      simpa using high)
    omega
  have after : ∀ bit ∈ bits.drop (start + w), bit = false := by
    intro bit member
    rcases List.mem_iff_getElem.mp member with ⟨i, below, rfl⟩
    rw [List.length_drop] at below
    by_contra high
    have inside := burst (start + w + i) (by
      rw [List.getD_eq_getElem _ _ (by omega)]
      simpa using high)
    omega
  have split : bits = bits.take start ++ ((bits.drop start).take w ++ bits.drop (start + w)) := by
    rw [← List.drop_drop, List.take_append_drop, List.take_append_drop]
  have short : ((bits.drop start).take w).length ≤ w := List.length_take_le _ _
  rw [split, feedAll_append, feedAll_append, feedAll_of_clear _ before, iterate_step_zero,
    feedAll_of_clear _ after, feedAll_eq_iterate _ _ short, BitVec.zero_xor]
  intro zero
  have window := (iterate_step_eq_zero_iff constant _).mp
    ((iterate_step_eq_zero_iff constant _).mp zero)
  -- The set bit lies in the window, where the register shows it.
  rcases List.mem_iff_getElem.mp set with ⟨i, below, high⟩
  have inside := burst i (by rw [List.getD_eq_getElem _ _ below, high])
  have bit := congrArg (fun word => word.getLsbD (w - 1 - (i - start))) window
  have place : w - 1 - (w - 1 - (i - start)) = i - start := by omega
  have inWindow : i - start < ((bits.drop start).take w).length := by
    rw [List.length_take, List.length_drop]
    omega
  have index : start + (i - start) = i := by omega
  simp only [getLsbD_place, place, List.getD_eq_getElem _ _ inWindow, List.getElem_take,
    List.getElem_drop, index, high, BitVec.getLsbD_zero, Bool.and_true,
    decide_eq_false_iff_not] at bit
  omega

end

/-! ## Parity -/

/-- The parity of the lowest bits of a word. -/
def parityBelow (word : BitVec w) : Nat → Bool
  | 0 => false
  | n + 1 => parityBelow word n ^^ word.getLsbD n

/-- The parity of a word. -/
def parity (word : BitVec w) : Bool :=
  parityBelow word w

theorem parityBelow_xor (left right : BitVec w) (n : Nat) :
    parityBelow (left ^^^ right) n = (parityBelow left n ^^ parityBelow right n) := by
  induction n with
  | zero => rfl
  | succ n ih =>
      rw [parityBelow, parityBelow, parityBelow, ih, BitVec.getLsbD_xor, Bool.xor_assoc,
        Bool.xor_assoc, Bool.xor_left_comm (parityBelow right n)]

theorem parity_xor (left right : BitVec w) :
    parity (left ^^^ right) = (parity left ^^ parity right) :=
  parityBelow_xor left right w

@[simp]
theorem parity_zero : parity 0#w = false := by
  suffices general : ∀ n, parityBelow 0#w n = false from general w
  intro n
  induction n with
  | zero => rfl
  | succ n ih => rw [parityBelow, ih, BitVec.getLsbD_zero]; rfl

/-- A shift drops the most significant bit. -/
theorem parity_shiftLeft (word : BitVec w) : parity (word <<< 1) = (parity word ^^ word.msb) := by
  have shifted : ∀ n < w, parityBelow (word <<< 1) (n + 1) = parityBelow word n := by
    intro n
    induction n with
    | zero => intro positive; simp [parityBelow]
    | succ n ih =>
        intro below
        rw [parityBelow, ih (by omega), parityBelow, BitVec.getLsbD_shiftLeft]
        simp [below]
  cases w with
  | zero => simp [parity, parityBelow, BitVec.msb_eq_getLsbD_last]
  | succ w =>
      rw [parity, shifted w (Nat.lt_succ_self w), parity, parityBelow,
        BitVec.msb_eq_getLsbD_last, Nat.add_sub_cancel, Bool.xor_assoc, Bool.xor_self,
        Bool.xor_false]

theorem parity_top (positive : 0 < w) (bit : Bool) : parity (top w bit) = bit := by
  have below : ∀ n < w, parityBelow (top w bit) n = false := by
    intro n
    induction n with
    | zero => intro _; rfl
    | succ n ih =>
        intro inside
        rw [parityBelow, ih (by omega), top]
        cases bit
        · simp
        · simp [BitVec.getLsbD_twoPow]
          omega
  obtain ⟨n, rfl⟩ := Nat.exists_eq_succ_of_ne_zero (Nat.ne_of_gt positive)
  rw [parity, parityBelow, below n (Nat.lt_succ_self n), top]
  cases bit <;> simp

section

variable {poly : BitVec w} (odd : parity poly = true)

include odd

/-- A generator with an even number of terms, the leading one included, keeps the parity. -/
theorem parity_step (crc : BitVec w) : parity (step poly crc) = parity crc := by
  rw [step]
  cases high : crc.msb with
  | true => rw [if_pos rfl, parity_xor, parity_shiftLeft, high, odd]; simp
  | false => rw [if_neg (by decide), parity_shiftLeft, high, Bool.xor_false]

theorem parity_feedAll (positive : 0 < w) (crc : BitVec w) (bits : List Bool) :
    parity (feedAll poly crc bits) = (parity crc ^^ decide (Odd (bits.count true))) := by
  induction bits generalizing crc with
  | nil => simp
  | cons bit bits ih =>
      rw [feedAll_cons, ih, feed, parity_step odd, parity_xor, parity_top positive]
      cases bit with
      | false => simp
      | true =>
          rw [List.count_cons_self, decide_eq_decide.mpr Nat.odd_add_one, decide_not,
            Bool.xor_assoc, Bool.true_xor]

/-- A message with an odd number of set bits does not leave the register clear. -/
theorem feedAll_odd_ne_zero (positive : 0 < w) {bits : List Bool}
    (weight : Odd (bits.count true)) : feedAll poly 0#w bits ≠ 0#w := by
  intro zero
  have kept := parity_feedAll odd positive 0#w bits
  rw [zero, parity_zero, decide_eq_true weight] at kept
  cases kept

end

end EmbeddedBase.Data.Crc
