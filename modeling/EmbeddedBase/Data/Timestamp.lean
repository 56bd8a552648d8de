import Mathlib.Algebra.Ring.Nat

/-!
# Timestamps

A time as 32-bit seconds and nanoseconds below a second, its total in nanoseconds, and
sums and differences with an explicit carry.  Totals count modulo `2^32` seconds.
-/

namespace EmbeddedBase.Data

/-- A number of seconds and a number of nanoseconds. -/
structure Timestamp where
  seconds : BitVec 32
  nanoseconds : BitVec 32
  deriving DecidableEq

namespace Timestamp

/-- The range of totals: `2^32` seconds. -/
def span : Nat := 2 ^ 32 * 1000000000

/-- The total in nanoseconds. -/
def total (time : Timestamp) : Nat :=
  time.seconds.toNat * 1000000000 + time.nanoseconds.toNat

/-- The nanoseconds do not fill a second. -/
def Valid (time : Timestamp) : Prop :=
  time.nanoseconds.toNat < 1000000000

instance (time : Timestamp) : Decidable time.Valid :=
  inferInstanceAs (Decidable (_ < _))

/-- The time with a given total, modulo the range. -/
def ofTotal (total : Nat) : Timestamp :=
  ⟨BitVec.ofNat 32 (total / 1000000000), BitVec.ofNat 32 (total % 1000000000)⟩

theorem ofTotal_nanoseconds (total : Nat) :
    (ofTotal total).nanoseconds.toNat = total % 1000000000 := by
  change total % 1000000000 % 2 ^ 32 = _
  omega

theorem ofTotal_seconds (total : Nat) :
    (ofTotal total).seconds.toNat = total / 1000000000 % 2 ^ 32 :=
  rfl

theorem valid_ofTotal (total : Nat) : (ofTotal total).Valid := by
  rw [Valid, ofTotal_nanoseconds]
  exact Nat.mod_lt _ (by decide)

theorem total_ofTotal (count : Nat) : (ofTotal count).total = count % span := by
  rw [total, ofTotal_seconds, ofTotal_nanoseconds, span]
  omega

theorem nanoseconds_eq {time : Timestamp} (valid : time.Valid) :
    time.nanoseconds.toNat = time.total % 1000000000 := by
  unfold Valid at valid
  unfold total
  omega

/-- Valid times with the same total are the same. -/
theorem ext_total {time other : Timestamp} (valid : time.Valid) (otherValid : other.Valid)
    (same : time.total = other.total) : time = other := by
  unfold Valid at valid otherValid
  unfold total at same
  rcases time with ⟨seconds, nanoseconds⟩
  rcases other with ⟨otherSeconds, otherNanoseconds⟩
  have sameSeconds : seconds = otherSeconds := by
    apply BitVec.eq_of_toNat_eq
    dsimp only at *
    omega
  have sameNanoseconds : nanoseconds = otherNanoseconds := by
    apply BitVec.eq_of_toNat_eq
    dsimp only at *
    omega
  rw [sameSeconds, sameNanoseconds]

/-- Times with totals in the range are ordered like their totals. -/
theorem ofTotal_inj {count other : Nat} (inside : count < span) (otherInside : other < span) :
    ofTotal count = ofTotal other ↔ count = other := by
  constructor
  · intro same
    have totals := congrArg total same
    rwa [total_ofTotal, total_ofTotal, Nat.mod_eq_of_lt inside,
      Nat.mod_eq_of_lt otherInside] at totals
  · exact congrArg ofTotal

/-! ## Sums and differences -/

/-- Add seconds, and less than a second of nanoseconds, with carry. -/
def add (time : Timestamp) (seconds nanoseconds : BitVec 32) : Timestamp :=
  let sum := time.nanoseconds + nanoseconds
  if 1000000000 ≤ sum.toNat then
    ⟨time.seconds + seconds + 1, sum - 1000000000⟩
  else
    ⟨time.seconds + seconds, sum⟩

/-- Subtract seconds, and at most a second of nanoseconds, with borrow. -/
def sub (time : Timestamp) (seconds nanoseconds : BitVec 32) : Timestamp :=
  if nanoseconds.toNat ≤ time.nanoseconds.toNat then
    ⟨time.seconds - seconds, time.nanoseconds - nanoseconds⟩
  else
    ⟨time.seconds - seconds - 1, time.nanoseconds + 1000000000 - nanoseconds⟩

theorem add_spec {time : Timestamp} (valid : time.Valid) (seconds : BitVec 32)
    {nanoseconds : BitVec 32} (small : nanoseconds.toNat < 1000000000) :
    (time.add seconds nanoseconds).Valid ∧
      (time.add seconds nanoseconds).total =
        (time.total + seconds.toNat * 1000000000 + nanoseconds.toNat) % span := by
  unfold Valid at valid
  have sum : (time.nanoseconds + nanoseconds).toNat =
      time.nanoseconds.toNat + nanoseconds.toNat :=
    BitVec.toNat_add_of_lt (by change _ < 4294967296; omega)
  unfold add
  dsimp only
  split
  · rename_i carry
    rw [sum] at carry
    have rest : (time.nanoseconds + nanoseconds - 1000000000).toNat =
        time.nanoseconds.toNat + nanoseconds.toNat - 1000000000 := by
      rw [BitVec.toNat_sub_of_le (BitVec.le_def.mpr (by rw [sum]; exact carry)), sum]
      rfl
    have high : (time.seconds + seconds + 1).toNat =
        (time.seconds.toNat + seconds.toNat + 1) % 4294967296 := by
      rw [BitVec.toNat_add, BitVec.toNat_add]
      change ((time.seconds.toNat + seconds.toNat) % 4294967296 + 1) % 4294967296 = _
      omega
    unfold Valid total span
    dsimp only
    rw [rest, high]
    omega
  · rename_i within
    rw [sum] at within
    have high : (time.seconds + seconds).toNat =
        (time.seconds.toNat + seconds.toNat) % 4294967296 :=
      BitVec.toNat_add _ _
    unfold Valid total span
    dsimp only
    rw [sum, high]
    omega

theorem sub_spec {time : Timestamp} (valid : time.Valid) (seconds : BitVec 32)
    {nanoseconds : BitVec 32} (small : nanoseconds.toNat ≤ 1000000000) :
    (time.sub seconds nanoseconds).Valid ∧
      ((time.sub seconds nanoseconds).total : Int) =
        ((time.total : Int) - seconds.toNat * 1000000000 - nanoseconds.toNat) % span := by
  unfold Valid at valid
  have difference (high low : BitVec 32) :
      ((high - low).toNat : Int) = ((high.toNat : Int) - low.toNat) % 4294967296 := by
    have highSmall := high.isLt
    have lowSmall := low.isLt
    rw [BitVec.toNat_sub]
    omega
  unfold sub
  split
  · rename_i within
    have rest : (time.nanoseconds - nanoseconds).toNat =
        time.nanoseconds.toNat - nanoseconds.toNat :=
      BitVec.toNat_sub_of_le (BitVec.le_def.mpr within)
    have high := difference time.seconds seconds
    unfold Valid total span
    dsimp only
    rw [rest]
    omega
  · rename_i borrow
    have lifted : (time.nanoseconds + 1000000000).toNat =
        time.nanoseconds.toNat + 1000000000 :=
      BitVec.toNat_add_of_lt (by change _ + 1000000000 < 4294967296; omega)
    have rest : (time.nanoseconds + 1000000000 - nanoseconds).toNat =
        time.nanoseconds.toNat + 1000000000 - nanoseconds.toNat := by
      rw [BitVec.toNat_sub_of_le (BitVec.le_def.mpr (by rw [lifted]; omega)), lifted]
    have high : ((time.seconds - seconds - 1).toNat : Int) =
        ((time.seconds.toNat : Int) - seconds.toNat - 1) % 4294967296 := by
      have first := difference time.seconds seconds
      have second := difference (time.seconds - seconds) 1
      change _ = (_ - 1) % 4294967296 at second
      omega
    unfold Valid total span
    dsimp only
    rw [rest]
    omega

end Timestamp

end EmbeddedBase.Data
