import EmbeddedBase.Middleware.Bitstream.Packing

/-!
# Lossless packing over whole runs

The invariant of the packer is that everything behind the last field is zero.
It carries over every call whose sum `total_bits + num_bits` stays below
`2 ^ w`, and with it every accepted field stays readable, digit by digit, for
the rest of the run.  A call whose sum does wrap is accepted although its field
does not fit, so the absence of such calls is exactly what losslessness needs.
-/

namespace EmbeddedBase.Middleware.Bitstream

open EmbeddedBase.Data
open EmbeddedBase.Transition

variable {w : Nat}

/-- The invariant of the packer. -/
structure WellFormed (w : Nat) (bitstream : BitstreamT) : Prop where
  stored : bitstream.bytes ≤ bitstream.data.length
  capacity : 8 * bitstream.bytes < 2 ^ w
  used : bitstream.totalBits ≤ 8 * bitstream.bytes
  clean : ∀ pos, bitstream.totalBits ≤ pos → pos < 8 * bitstream.bytes →
    bitAt bitstream.data pos = false

theorem wellFormed_bitstreamInit {data : List (BitVec 8)} {bytes : Nat}
    (stored : bytes ≤ data.length) (capacity : 8 * bytes < 2 ^ w) :
    WellFormed w (bitstreamInit data bytes) where
  stored := by simpa [bitstreamInit] using stored
  capacity := capacity
  used := Nat.zero_le _
  clean _ _ inside := bitAt_zeroPrefix data inside

/-! ## One accepted field -/

section

variable {bitstream : BitstreamT} {word : BitVec 32} {numBits : Nat} {overflow : Bool}

@[simp]
theorem appendBits_ret :
    (appendBits w bitstream word numBits overflow).1 = if overflow then 1 else 0 := by
  cases overflow <;> rfl

@[simp]
theorem appendBits_bytes :
    (appendBits w bitstream word numBits overflow).2.bytes = bitstream.bytes := by
  cases overflow <;> rfl

@[simp]
theorem appendBits_data :
    (appendBits w bitstream word numBits overflow).2.data =
      packLoop w word numBits bitstream.totalBits bitstream.data numBits := by
  cases overflow <;> rfl

@[simp]
theorem appendBits_totalBits :
    (appendBits w bitstream word numBits overflow).2.totalBits =
      (bitstream.totalBits + numBits) % 2 ^ w := by
  cases overflow <;> rfl

@[simp]
theorem appendBits_overflow :
    (appendBits w bitstream word numBits overflow).2.overflow =
      (bitstream.overflow || overflow) := by
  cases overflow <;> simp [appendBits]

variable (wellFormed : WellFormed w bitstream) (width : numBits ≤ 32)
  (fits : bitstream.totalBits + numBits ≤ 8 * bitstream.bytes)

include wellFormed fits

theorem totalBits_appendBits :
    (appendBits w bitstream word numBits overflow).2.totalBits =
      bitstream.totalBits + numBits := by
  have capacity := wellFormed.capacity
  rw [appendBits_totalBits, Nat.mod_eq_of_lt (by omega)]

include width

/-- An appended field puts its digits behind the fields before it. -/
theorem bitAt_appendBits (pos : Nat) :
    bitAt (appendBits w bitstream word numBits overflow).2.data pos =
      (bitAt bitstream.data pos ||
        decide (bitstream.totalBits ≤ pos ∧ pos < bitstream.totalBits + numBits) &&
          word.getLsbD (numBits - 1 - (pos - bitstream.totalBits))) := by
  have stored := wellFormed.stored
  have capacity := wellFormed.capacity
  rw [appendBits_data]
  exact bitAt_packLoop width (Nat.le_refl _) (by omega) (by omega) pos

theorem wellFormed_appendBits :
    WellFormed w (appendBits w bitstream word numBits overflow).2 where
  stored := by simpa using wellFormed.stored
  capacity := by simpa using wellFormed.capacity
  used := by
    rw [totalBits_appendBits wellFormed fits, appendBits_bytes]
    exact fits
  clean pos behind inside := by
    rw [totalBits_appendBits wellFormed fits] at behind
    rw [appendBits_bytes] at inside
    have outside : ¬(bitstream.totalBits ≤ pos ∧ pos < bitstream.totalBits + numBits) := by
      omega
    rw [bitAt_appendBits wellFormed width fits, wellFormed.clean pos (by omega) inside,
      decide_eq_false outside]
    rfl

/-- Reading the appended field gives the word that was packed. -/
theorem readField_appendBits (small : word.toNat < 2 ^ numBits) :
    readField (bitAt (appendBits w bitstream word numBits overflow).2.data)
      bitstream.totalBits numBits = word.toNat := by
  apply readField_eq_of_digits small
  intro i inside
  have window : bitstream.totalBits ≤ bitstream.totalBits + i ∧
      bitstream.totalBits + i < bitstream.totalBits + numBits := by omega
  rw [bitAt_appendBits wellFormed width fits,
    wellFormed.clean _ (Nat.le_add_right _ _) (by omega), decide_eq_true window,
    Nat.add_sub_cancel_left]
  rfl

end

/-! ## One call -/

/-- The call is one the packer is meant for, and its sum does not wrap. -/
def Sound (w : Nat) (bitstream : BitstreamT) (call : Call) : Prop :=
  call.Admissible ∧ bitstream.totalBits + call.numBits < 2 ^ w

/-- The field fits in the bits that are left. -/
def Fits (bitstream : BitstreamT) (call : Call) : Prop :=
  bitstream.totalBits + call.numBits ≤ 8 * bitstream.bytes

instance (bitstream : BitstreamT) (call : Call) : Decidable (Fits bitstream call) :=
  inferInstanceAs (Decidable (_ ≤ _))

section

variable {bitstream : BitstreamT} {call : Call}

theorem packer_of_fits (wellFormed : WellFormed w bitstream) (admissible : call.Admissible)
    (fits : Fits bitstream call) :
    packer w bitstream call =
      appendBits w bitstream call.word call.numBits (decide call.Clamps) := by
  have capacity := wellFormed.capacity
  unfold Fits at fits
  rw [packer_eq admissible capacity (by omega), if_neg (by omega)]

theorem packer_of_not_fits (wellFormed : WellFormed w bitstream) (sound : Sound w bitstream call)
    (full : ¬Fits bitstream call) : packer w bitstream call = (-1, bitstream) := by
  unfold Fits at full
  rw [packer_eq sound.1 wellFormed.capacity sound.2, if_pos (by omega)]

theorem packer_bytes (w : Nat) (bitstream : BitstreamT) (call : Call) :
    (packer w bitstream call).2.bytes = bitstream.bytes := by
  cases call with
  | add value numBits =>
      simp only [packer, bitstreamAdd]
      split
      · rfl
      · exact appendBits_bytes
  | addSigned value numBits =>
      simp only [packer, bitstreamAddSigned]
      split
      · rfl
      · exact appendBits_bytes

/-- Only the capacity test makes a call return `-1`. -/
theorem packer_ret_eq_neg_one_iff (w : Nat) (bitstream : BitstreamT) (call : Call) :
    (packer w bitstream call).1 = -1 ↔ noSpace w bitstream call.numBits = true := by
  cases call with
  | add value numBits =>
      simp only [packer, bitstreamAdd, Call.numBits]
      split
      · simp [*]
      · rw [appendBits_ret]
        split <;> simp [*]
  | addSigned value numBits =>
      simp only [packer, bitstreamAddSigned, Call.numBits]
      split
      · simp [*]
      · rw [appendBits_ret]
        split <;> simp [*]

theorem packer_wellFormed (wellFormed : WellFormed w bitstream)
    (sound : Sound w bitstream call) : WellFormed w (packer w bitstream call).2 := by
  by_cases fits : Fits bitstream call
  · rw [packer_of_fits wellFormed sound.1 fits]
    exact wellFormed_appendBits wellFormed sound.1.numBits_le fits
  · rw [packer_of_not_fits wellFormed sound fits]
    exact wellFormed

/-- No call touches the fields before it, and none moves the end backwards. -/
theorem packer_keeps (wellFormed : WellFormed w bitstream) (sound : Sound w bitstream call) :
    bitstream.totalBits ≤ (packer w bitstream call).2.totalBits ∧
      ∀ pos, pos < bitstream.totalBits →
        bitAt (packer w bitstream call).2.data pos = bitAt bitstream.data pos := by
  by_cases fits : Fits bitstream call
  · rw [packer_of_fits wellFormed sound.1 fits]
    constructor
    · rw [totalBits_appendBits wellFormed fits]
      exact Nat.le_add_right _ _
    · intro pos before
      have outside : ¬(bitstream.totalBits ≤ pos ∧
          pos < bitstream.totalBits + call.numBits) := by omega
      rw [bitAt_appendBits wellFormed sound.1.numBits_le fits, decide_eq_false outside]
      simp
  · rw [packer_of_not_fits wellFormed sound fits]
    exact ⟨Nat.le_refl _, fun _ _ => rfl⟩

/-- A call whose sum wraps around is accepted, whatever room is left. -/
theorem packer_of_wrap (capacity : 8 * bitstream.bytes < 2 ^ w)
    (used : bitstream.totalBits ≤ 8 * bitstream.bytes) (admissible : call.Admissible)
    (size : 32 ≤ w) (wraps : 2 ^ w ≤ bitstream.totalBits + call.numBits) :
    (packer w bitstream call).1 ≠ -1 := by
  have width := admissible.numBits_le
  have large : 2 ^ 32 ≤ 2 ^ w := Nat.pow_le_pow_right (by omega) size
  have sum : (bitstream.totalBits + call.numBits) % 2 ^ w =
      bitstream.totalBits + call.numBits - 2 ^ w := by
    rw [Nat.mod_eq_sub_mod wraps, Nat.mod_eq_of_lt (by omega)]
  rw [Ne, packer_ret_eq_neg_one_iff, noSpace, Nat.mul_comm, Nat.mod_eq_of_lt capacity, sum,
    decide_eq_true_eq]
  omega

end

/-! ## Runs -/

/-- The calls of a run that are not refused. -/
def accepted (w : Nat) : BitstreamT → List Call → List Call
  | _, [] => []
  | bitstream, call :: calls =>
      if (packer w bitstream call).1 = -1 then
        accepted w (packer w bitstream call).2 calls
      else
        call :: accepted w (packer w bitstream call).2 calls

section

variable {bitstream : BitstreamT} {calls : List Call}

theorem final_bytes (w : Nat) (bitstream : BitstreamT) (calls : List Call) :
    ((packer w).final bitstream calls).bytes = bitstream.bytes := by
  induction calls generalizing bitstream with
  | nil => rfl
  | cons call calls ih => rw [Machine.final_cons, ih, packer_bytes]

theorem final_wellFormed (wellFormed : WellFormed w bitstream)
    (sound : (packer w).Always (Sound w) bitstream calls) :
    WellFormed w ((packer w).final bitstream calls) :=
  sound.final (fun _ _ => packer_wellFormed) wellFormed

/-- Fields that have been packed stay as they are. -/
theorem final_keeps (wellFormed : WellFormed w bitstream)
    (sound : (packer w).Always (Sound w) bitstream calls) {pos : Nat}
    (packed : pos < bitstream.totalBits) :
    bitAt ((packer w).final bitstream calls).data pos = bitAt bitstream.data pos := by
  induction calls generalizing bitstream with
  | nil => rfl
  | cons call calls ih =>
      rcases packer_keeps wellFormed sound.1 with ⟨grows, keeps⟩
      rw [Machine.final_cons, ih (packer_wellFormed wellFormed sound.1) sound.2
        (packed.trans_le grows), keeps pos packed]

theorem final_totalBits (wellFormed : WellFormed w bitstream)
    (sound : (packer w).Always (Sound w) bitstream calls) :
    ((packer w).final bitstream calls).totalBits =
      bitstream.totalBits + ((accepted w bitstream calls).map Call.numBits).sum := by
  induction calls generalizing bitstream with
  | nil => rfl
  | cons call calls ih =>
      have rest := ih (packer_wellFormed wellFormed sound.1) sound.2
      rw [Machine.final_cons, rest, accepted]
      by_cases fits : Fits bitstream call
      · have step := packer_of_fits wellFormed sound.1.1 fits
        have returned : (packer w bitstream call).1 ≠ -1 := by
          rw [step, appendBits_ret]
          split <;> decide
        rw [if_neg returned, List.map_cons, List.sum_cons, ← Nat.add_assoc, step,
          totalBits_appendBits wellFormed fits]
      · rw [packer_of_not_fits wellFormed sound.1 fits, if_pos rfl]

theorem final_overflow (wellFormed : WellFormed w bitstream)
    (sound : (packer w).Always (Sound w) bitstream calls) :
    ((packer w).final bitstream calls).overflow = true ↔
      bitstream.overflow = true ∨ ∃ call ∈ accepted w bitstream calls, call.Clamps := by
  induction calls generalizing bitstream with
  | nil => simp [accepted]
  | cons call calls ih =>
      have rest := ih (packer_wellFormed wellFormed sound.1) sound.2
      rw [Machine.final_cons, rest, accepted]
      by_cases fits : Fits bitstream call
      · have step := packer_of_fits wellFormed sound.1.1 fits
        have returned : (packer w bitstream call).1 ≠ -1 := by
          rw [step, appendBits_ret]
          split <;> decide
        rw [if_neg returned, List.exists_mem_cons_iff, step, appendBits_overflow,
          Bool.or_eq_true, decide_eq_true_iff, or_assoc]
      · rw [packer_of_not_fits wellFormed sound.1 fits, if_pos rfl]

end

/-! ## Losslessness -/

/-- Lossless, append-only packing of a run from `start`, at every point of the
run. -/
structure Lossless (w : Nat) (start : BitstreamT) (calls : List Call) : Prop where
  /-- A call returns `-1` exactly when its field does not fit, and then changes
  nothing. -/
  refused : ∀ before call after, calls = before ++ call :: after →
    let current := (packer w).final start before
    ((packer w current call).1 = -1 ↔ ¬Fits current call) ∧
      ((packer w current call).1 = -1 → (packer w current call).2 = current)
  /-- The field of any other call reads back, then and later, as the clamped
  argument. -/
  readable : ∀ before call between after, calls = before ++ call :: (between ++ after) →
    let current := (packer w).final start before
    let later := (packer w).final start (before ++ call :: between)
    (packer w current call).1 ≠ -1 →
      call.decode (readField (bitAt later.data) current.totalBits call.numBits) = call.clamped
  /-- `total_bits` is the sum of the accepted widths, it stays within the
  capacity, and the bits from there on are zero. -/
  layout : ∀ before after, calls = before ++ after →
    let current := (packer w).final start before
    current.totalBits = ((accepted w start before).map Call.numBits).sum ∧
      current.totalBits ≤ 8 * start.bytes ∧
      ∀ pos, current.totalBits ≤ pos → pos < 8 * start.bytes → bitAt current.data pos = false
  /-- The return values `1` and `0` tell whether an accepted call clamped. -/
  returned : ∀ before call after, calls = before ++ call :: after →
    let current := (packer w).final start before
    ((packer w current call).1 = 1 ↔ Fits current call ∧ call.Clamps) ∧
      ((packer w current call).1 = 0 ↔ Fits current call ∧ ¬call.Clamps)
  /-- `overflow` tells whether some accepted call so far clamped. -/
  flagged : ∀ before after, calls = before ++ after →
    (((packer w).final start before).overflow = true ↔
      ∃ call ∈ accepted w start before, call.Clamps)

section

variable {start : BitstreamT} {calls : List Call}

/-- The outcome of a sound call from a well-formed stream. -/
theorem packer_ret {bitstream : BitstreamT} {call : Call} (wellFormed : WellFormed w bitstream)
    (sound : Sound w bitstream call) :
    (packer w bitstream call).1 =
      if Fits bitstream call then (if call.Clamps then 1 else 0) else -1 := by
  by_cases fits : Fits bitstream call
  · rw [packer_of_fits wellFormed sound.1 fits, appendBits_ret, if_pos fits]
    simp only [decide_eq_true_eq]
  · rw [packer_of_not_fits wellFormed sound fits, if_neg fits]

/-- A sound call's field reads back as the clamped argument at every later
point. -/
theorem readField_later {bitstream : BitstreamT} {call : Call} {between : List Call}
    (wellFormed : WellFormed w bitstream)
    (sound : (packer w).Always (Sound w) bitstream (call :: between))
    (fits : Fits bitstream call) :
    call.decode (readField (bitAt ((packer w).final bitstream (call :: between)).data)
      bitstream.totalBits call.numBits) = call.clamped := by
  rcases sound with ⟨first, rest⟩
  have appended := packer_of_fits wellFormed first.1 fits
  have next := packer_wellFormed wellFormed first
  have digits : readField (bitAt ((packer w).final bitstream (call :: between)).data)
      bitstream.totalBits call.numBits = call.digits := by
    calc
      _ = readField (bitAt (packer w bitstream call).2.data)
          bitstream.totalBits call.numBits := by
            apply readField_congr
            intro i inside
            rw [Machine.final_cons]
            apply final_keeps next rest
            rw [appended, totalBits_appendBits wellFormed fits]
            omega
      _ = call.word.toNat := by
            rw [appended]
            apply readField_appendBits wellFormed first.1.numBits_le fits
            rw [Call.toNat_word first.1]
            exact call.digits_lt
      _ = call.digits := Call.toNat_word first.1
  rw [digits, Call.decode_digits first.1]

/-- A run without wrapping sums is lossless. -/
theorem lossless_of_sound (wellFormed : WellFormed w start) (empty : start.totalBits = 0)
    (clear : start.overflow = false) (sound : (packer w).Always (Sound w) start calls) :
    Lossless w start calls where
  refused := by
    rintro before call after rfl
    rcases (Machine.always_append _ _ _ _ _).mp sound with ⟨soundBefore, soundCall, -⟩
    have current := final_wellFormed wellFormed soundBefore
    have ret := packer_ret current soundCall
    constructor
    · rw [ret]
      split
      · split <;> simp [*]
      · simp [*]
    · intro refused
      have full : ¬Fits ((packer w).final start before) call := by
        intro fits
        rw [ret, if_pos fits] at refused
        split at refused <;> contradiction
      rw [packer_of_not_fits current soundCall full]
  readable := by
    rintro before call between after rfl
    rcases (Machine.always_append _ _ _ _ _).mp sound with ⟨soundBefore, soundRest⟩
    have current := final_wellFormed wellFormed soundBefore
    have soundBetween : (packer w).Always (Sound w) ((packer w).final start before)
        (call :: between) := by
      rw [← List.cons_append] at soundRest
      exact ((Machine.always_append _ _ _ _ _).mp soundRest).1
    intro _ later returned
    change call.decode (readField (bitAt ((packer w).final start
      (before ++ call :: between)).data) _ call.numBits) = call.clamped
    rw [Machine.final_append]
    apply readField_later current soundBetween
    by_contra full
    apply returned
    rw [packer_ret current soundRest.1, if_neg full]
  layout := by
    rintro before after rfl
    rcases (Machine.always_append _ _ _ _ _).mp sound with ⟨soundBefore, -⟩
    have current := final_wellFormed wellFormed soundBefore
    have bytes := final_bytes w start before
    refine ⟨?_, ?_, ?_⟩
    · rw [final_totalBits wellFormed soundBefore, empty, Nat.zero_add]
    · rw [← bytes]
      exact current.used
    · rw [← bytes]
      exact current.clean
  returned := by
    rintro before call after rfl
    rcases (Machine.always_append _ _ _ _ _).mp sound with ⟨soundBefore, soundCall, -⟩
    have ret := packer_ret (final_wellFormed wellFormed soundBefore) soundCall
    simp only [ret]
    by_cases fits : Fits ((packer w).final start before) call <;>
      by_cases clamps : call.Clamps <;> simp [fits, clamps]
  flagged := by
    rintro before after rfl
    rcases (Machine.always_append _ _ _ _ _).mp sound with ⟨soundBefore, -⟩
    rw [final_overflow wellFormed soundBefore, clear]
    simp

/-- No sum wraps when the capacity stays a whole argument below the range of
`size_t`. -/
theorem sound_of_room (wellFormed : WellFormed w start)
    (room : 8 * start.bytes + 32 < 2 ^ w) (admissible : ∀ call ∈ calls, call.Admissible) :
    (packer w).Always (Sound w) start calls := by
  induction calls generalizing start with
  | nil => trivial
  | cons call calls ih =>
      have first := admissible call List.mem_cons_self
      have width := first.numBits_le
      have used := wellFormed.used
      have sound : Sound w start call := ⟨first, by omega⟩
      exact ⟨sound, ih (packer_wellFormed wellFormed sound) (by rwa [packer_bytes])
        fun other member => admissible other (List.mem_cons_of_mem call member)⟩

/-- Every buffer of ordinary size is packed losslessly. -/
theorem bitstream_lossless_of_room {data : List (BitVec 8)} {bytes : Nat}
    (stored : bytes ≤ data.length) (room : 8 * bytes + 32 < 2 ^ w)
    (admissible : ∀ call ∈ calls, call.Admissible) :
    Lossless w (bitstreamInit data bytes) calls := by
  have wellFormed := wellFormed_bitstreamInit stored (show 8 * bytes < 2 ^ w by omega)
  exact lossless_of_sound wellFormed rfl rfl (sound_of_room wellFormed room admissible)

/-- In a lossless run no sum wraps. -/
theorem noWrap_of_lossless (size : 32 ≤ w) (capacity : 8 * start.bytes < 2 ^ w)
    (admissible : ∀ call ∈ calls, call.Admissible) (lossless : Lossless w start calls) :
    (packer w).Always (fun bitstream call => bitstream.totalBits + call.numBits < 2 ^ w)
      start calls := by
  rw [Machine.always_iff_forall_split]
  intro before call after split
  by_contra noSum
  have wraps := Nat.not_lt.mp noSum
  have bytes := final_bytes w start before
  rcases lossless.layout before (call :: after) split with ⟨-, used, -⟩
  have full : ¬Fits ((packer w).final start before) call := by
    unfold Fits
    omega
  have accepts := packer_of_wrap (by rwa [bytes]) (by rwa [bytes])
    (admissible call (by simp [split])) size wraps
  exact accepts ((lossless.refused before call after split).1.mpr full)

/-- As long as everything fits, `total_bits` is the sum of the widths. -/
theorem final_totalBits_of_fits (wellFormed : WellFormed w start)
    (admissible : ∀ call ∈ calls, call.Admissible)
    (fits : start.totalBits + (calls.map Call.numBits).sum ≤ 8 * start.bytes) :
    ((packer w).final start calls).totalBits =
      start.totalBits + (calls.map Call.numBits).sum := by
  induction calls generalizing start with
  | nil => rfl
  | cons call calls ih =>
      rw [List.map_cons, List.sum_cons, ← Nat.add_assoc] at fits
      have room : Fits start call := by
        unfold Fits
        omega
      have first := admissible call List.mem_cons_self
      have capacity := wellFormed.capacity
      have advanced : (packer w start call).2.totalBits = start.totalBits + call.numBits := by
        rw [packer_of_fits wellFormed first room, totalBits_appendBits wellFormed room]
      have next := packer_wellFormed wellFormed ⟨first, by unfold Fits at room; omega⟩
      rw [Machine.final_cons, ih next
        (fun other member => admissible other (List.mem_cons_of_mem call member)) (by
          rw [advanced, packer_bytes]
          exact fits), advanced, List.map_cons, List.sum_cons, Nat.add_assoc]

/-- A stream filled so far that the next sum wraps is not lossless. -/
theorem not_lossless_of_wrap (size : 32 ≤ w) (wellFormed : WellFormed w start) {call : Call}
    (admissible : ∀ other ∈ calls ++ [call], other.Admissible)
    (fits : start.totalBits + (calls.map Call.numBits).sum ≤ 8 * start.bytes)
    (wraps : 2 ^ w ≤ start.totalBits + (calls.map Call.numBits).sum + call.numBits) :
    ¬Lossless w start (calls ++ [call]) := by
  intro lossless
  have noWrap := noWrap_of_lossless size wellFormed.capacity admissible lossless
  have last := Machine.always_iff_forall_split.mp noWrap calls call [] rfl
  have filled := final_totalBits_of_fits wellFormed
    (fun other member => admissible other (List.mem_append_left _ member)) fits
  omega

/-- The last case happens: a run of 32-bit fields and one of 24 bits that fills
the buffer to the last bit, when the capacity is within 32 of the range of
`size_t`. -/
theorem not_lossless_of_full {data : List (BitVec 8)} {bytes k : Nat}
    (size : 32 ≤ w) (stored : bytes ≤ data.length) (capacity : 8 * bytes < 2 ^ w)
    (filled : 32 * k + 24 = 8 * bytes) (near : 2 ^ w ≤ 8 * bytes + 32) :
    ¬Lossless w (bitstreamInit data bytes)
      ((List.replicate k (.add 0#32 32) ++ [.add 0#32 24]) ++ [.add 0#32 32]) := by
  have widths : ((List.replicate k (Call.add 0#32 32) ++
      [Call.add 0#32 24]).map Call.numBits).sum = 8 * bytes := by
    simp only [List.map_append, List.map_replicate, List.sum_append, List.sum_replicate_nat,
      Call.numBits, List.map_cons, List.map_nil, List.sum_cons, List.sum_nil]
    omega
  apply not_lossless_of_wrap size (wellFormed_bitstreamInit stored capacity)
  · intro call member
    simp only [List.mem_append, List.mem_replicate, List.mem_singleton] at member
    rcases member with (⟨-, rfl⟩ | rfl) | rfl <;> simp [Call.Admissible]
  · rw [widths]
    simp [bitstreamInit]
  · rw [widths]
    simpa [bitstreamInit, Call.numBits] using near

end

/-- A fresh stream packs a call sequence losslessly exactly when no call's
`total_bits + num_bits` reaches `2 ^ w`. -/
theorem bitstream_lossless_iff {w : Nat} (size : 32 ≤ w) {data : List (BitVec 8)} {bytes : Nat}
    (stored : bytes ≤ data.length) (capacity : 8 * bytes < 2 ^ w) {calls : List Call}
    (admissible : ∀ call ∈ calls, call.Admissible) :
    Lossless w (bitstreamInit data bytes) calls ↔
      (packer w).Always (fun bitstream call => bitstream.totalBits + call.numBits < 2 ^ w)
        (bitstreamInit data bytes) calls := by
  have wellFormed := wellFormed_bitstreamInit stored capacity
  constructor
  · exact noWrap_of_lossless size capacity admissible
  · intro noWrap
    apply lossless_of_sound wellFormed rfl rfl
    rw [Machine.always_iff_forall_split] at noWrap ⊢
    intro before call after split
    exact ⟨admissible call (by simp [split]), noWrap before call after split⟩

theorem bitstream_lossless_iff_example :
    Lossless 32 (bitstreamInit [0xff#8, 0xff#8] 2)
        [.add 300#32 8, .addSigned (-3#32) 3, .add 1#32 6, .add 1#32 5] ↔
      (packer 32).Always (fun bitstream call => bitstream.totalBits + call.numBits < 2 ^ 32)
        (bitstreamInit [0xff#8, 0xff#8] 2)
        [.add 300#32 8, .addSigned (-3#32) 3, .add 1#32 6, .add 1#32 5] :=
  bitstream_lossless_iff (by decide) (by decide) (by decide) (by simp [Call.Admissible])

/-- With a 32-bit `size_t` a buffer of `2 ^ 29 - 1` bytes, filled to the last
bit, accepts another 32-bit field: the sum in the capacity test wraps. -/
theorem bitstream_overfull_not_lossless :
    8 * (2 ^ 29 - 1) < 2 ^ 32 ∧
      ¬Lossless 32 (bitstreamInit (List.replicate (2 ^ 29 - 1) 0#8) (2 ^ 29 - 1))
        ((List.replicate (2 ^ 27 - 1) (.add 0#32 32) ++ [.add 0#32 24]) ++ [.add 0#32 32]) :=
  have capacity : 8 * (2 ^ 29 - 1) < 2 ^ 32 := by norm_num
  ⟨capacity, not_lossless_of_full (Nat.le_refl 32) (Nat.le_of_eq List.length_replicate.symm)
    capacity (by norm_num) (by norm_num)⟩

end EmbeddedBase.Middleware.Bitstream
