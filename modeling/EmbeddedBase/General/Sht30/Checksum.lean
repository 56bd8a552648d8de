import EmbeddedBase.Data.Crc

/-!
# The checksum of the SHT30

The model of `calculate_crc` in `sht30.c`: a cyclic redundancy check with the generator
`x^8 + x^5 + x^4 + 1`, which has a constant term and an even number of terms.
-/

namespace EmbeddedBase.General.Sht30

open EmbeddedBase.Data

/-! ## The checksum -/

/-- The body of the inner loop of `calculate_crc`. -/
def crcShift (crc : BitVec 8) : BitVec 8 :=
  if crc &&& 0x80#8 ≠ 0 then (crc <<< 1) ^^^ 0x31#8 else crc <<< 1

/-- The body of the outer loop of `calculate_crc`. -/
def crcByte (crc byte : BitVec 8) : BitVec 8 :=
  crcShift^[8] (crc ^^^ byte)

/-- `calculate_crc`. -/
def calculateCrc (data : List (BitVec 8)) (length : Nat) : BitVec 8 :=
  (data.take length).foldl crcByte 0xff

theorem crcShift_eq_step : crcShift = Crc.step 0x31#8 := by
  funext crc
  have high : crc &&& 0x80#8 ≠ 0 ↔ crc.msb = true := by
    rw [BitVec.msb_eq_getLsbD_last]
    exact and_one_shiftLeft_ne_zero_iff crc (i := 7) (by decide)
  rw [crcShift, Crc.step, if_congr high rfl rfl]

theorem calculateCrc_eq_feedWords (data : List (BitVec 8)) (length : Nat) :
    calculateCrc data length = Crc.feedWords 0x31#8 0xff (data.take length) := by
  rw [calculateCrc, Crc.feedWords, ← crcShift_eq_step]
  rfl

/-! ## Transmission errors -/

/-- A frame as it is received: the set bits of the error are flipped. -/
def corrupted (frame error : List (BitVec 8)) : List (BitVec 8) :=
  List.zipWith (· ^^^ ·) frame error

/-- The number of flipped bits. -/
def flips (error : List (BitVec 8)) : Nat :=
  ((List.range (8 * error.length)).map (bitAt error)).count true

/-- The flipped bits lie within eight consecutive positions. -/
def Burst (error : List (BitVec 8)) : Prop :=
  ∃ start, ∀ pos, bitAt error pos = true → start ≤ pos ∧ pos < start + 8

/-- The bits of the error, byte by byte. -/
theorem flatMap_wordBits (error : List (BitVec 8)) :
    error.flatMap Crc.wordBits = (List.range (8 * error.length)).map (bitAt error) := by
  induction error with
  | nil => rfl
  | cons byte error ih =>
      rw [List.flatMap_cons, ih, List.length_cons, Nat.mul_add, Nat.mul_one, Nat.add_comm (8 * _),
        List.range_add, List.map_append, List.map_map]
      congr 1
      apply List.map_congr_left
      intro i _
      have next : (8 + i) / 8 = i / 8 + 1 := by omega
      have same : (8 + i) % 8 = i % 8 := by omega
      simp [bitAt, next, same]

/-- The data of a received frame have the checksum of the data that were sent, up to what the
error alone leaves in a clear register. -/
theorem calculateCrc_zipWith_xor {data front : List (BitVec 8)}
    (length : front.length = data.length) :
    calculateCrc (List.zipWith (· ^^^ ·) data front) data.length =
      calculateCrc data data.length ^^^ Crc.feedWords 0x31#8 0#8 front := by
  have received : (List.zipWith (· ^^^ ·) data front).length = data.length := by
    rw [List.length_zipWith, length, Nat.min_self]
  rw [calculateCrc_eq_feedWords, calculateCrc_eq_feedWords, List.take_of_length_le received.le,
    List.take_length, ← Crc.feedWords_zipWith_xor _ _ _ length.symm, BitVec.xor_zero]

/-- A corrupted frame passes exactly when the error leaves a clear register clear. -/
theorem passes_iff {data error : List (BitVec 8)} (length : error.length = data.length + 1) :
    calculateCrc (corrupted (data ++ [calculateCrc data data.length]) error) data.length =
        (corrupted (data ++ [calculateCrc data data.length]) error).getLastD 0 ↔
      Crc.feedAll 0x31#8 0#8 (error.flatMap Crc.wordBits) = 0#8 := by
  rcases List.eq_nil_or_concat error with rfl | ⟨front, last, rfl⟩
  · cases length
  · rw [List.concat_eq_append] at length ⊢
    rw [List.length_append, List.length_singleton, Nat.add_right_cancel_iff] at length
    have received : corrupted (data ++ [calculateCrc data data.length]) (front ++ [last]) =
        List.zipWith (· ^^^ ·) data front ++ [calculateCrc data data.length ^^^ last] :=
      List.zipWith_append length.symm
    have checked : calculateCrc (List.zipWith (· ^^^ ·) data front ++
          [calculateCrc data data.length ^^^ last]) data.length =
        calculateCrc (List.zipWith (· ^^^ ·) data front) data.length := by
      rw [calculateCrc, List.take_append_of_le_length (by rw [List.length_zipWith]; omega)]
      rfl
    rw [received, checked, calculateCrc_zipWith_xor length, List.getLastD_concat,
      ← Crc.feedWords_eq_feedAll, Crc.feedWords_append_eq_zero_iff (by decide)]
    exact BitVec.xor_right_inj _

/-- The checksum detects every error with an odd number of flipped bits, and every burst. -/
theorem checksum_detects (data error : List (BitVec 8))
    (length : error.length = data.length + 1) (nonzero : ∃ byte ∈ error, byte ≠ 0)
    (kind : Odd (flips error) ∨ Burst error) :
    calculateCrc (corrupted (data ++ [calculateCrc data data.length]) error) data.length ≠
      (corrupted (data ++ [calculateCrc data data.length]) error).getLastD 0 := by
  rw [Ne, passes_iff length]
  rcases kind with odd | ⟨start, burst⟩
  · rw [flips, ← flatMap_wordBits] at odd
    exact Crc.feedAll_odd_ne_zero (by decide) (by decide) odd
  · rcases nonzero with ⟨byte, member, high⟩
    have set : true ∈ error.flatMap Crc.wordBits :=
      List.mem_flatMap.mpr ⟨byte, member, Crc.true_mem_wordBits high⟩
    apply Crc.feedAll_burst_ne_zero (by decide) set
    intro i flipped
    apply burst
    rw [flatMap_wordBits, List.getD_eq_getElem?_getD, List.getElem?_map] at flipped
    by_cases inside : i < 8 * error.length
    · simpa [List.getElem?_range, inside] using flipped
    · simp [inside] at flipped

/-- A burst across the last data byte and the checksum. -/
theorem checksum_detects_example :
    calculateCrc (corrupted ([0xBE, 0xEF] ++ [calculateCrc [0xBE, 0xEF] 2])
        [0x00, 0x05, 0x90]) 2 ≠
      (corrupted ([0xBE, 0xEF] ++ [calculateCrc [0xBE, 0xEF] 2])
        [0x00, 0x05, 0x90]).getLastD 0 := by
  apply checksum_detects [0xBE, 0xEF] [0x00, 0x05, 0x90] rfl ⟨0x05, by decide, by decide⟩
  refine .inr ⟨13, fun pos flipped => ?_⟩
  by_cases inside : pos < 24
  · have within : ∀ pos < 24, bitAt [0x00, 0x05, 0x90] pos = true → 13 ≤ pos ∧ pos < 13 + 8 := by
      decide
    exact within pos inside flipped
  · have outside : 3 ≤ pos / 8 := by omega
    simp [bitAt, outside] at flipped

end EmbeddedBase.General.Sht30
