import EmbeddedBase.General.Ltc68041.Core
import Mathlib.Data.List.Basic

/-!
# What a successful read says about the data

For each read function, which attempts it makes and what it returns, in terms of
the PECs of the blocks the bus delivers; and from that exactly when a result of `0`
and correct data agree.
-/

namespace EmbeddedBase.General.Ltc68041

open EmbeddedBase.Transition

/-! ## PECs -/

theorem pec15Calc_congr {len : Nat} {data other : Buffer}
    (same : ∀ i < len, data i = other i) : pec15Calc len data = pec15Calc len other := by
  unfold pec15Calc
  dsimp only
  congr 1
  apply List.foldl_ext
  intro remainder i member
  rw [same i (List.mem_range.mp member)]

/-- The PEC received for an IC is that of its six data bytes. -/
def Matches (data : Buffer) (ic : Nat) : Prop :=
  receivedPec data (ic * 8 + 6) = pec15Calc 6 fun i => data (ic * 8 + i)

instance (data : Buffer) (ic : Nat) : Decidable (Matches data ic) :=
  inferInstanceAs (Decidable (_ = _))

/-- All ICs of the chain have correct PECs. -/
def AllMatch (totalIc : Nat) (data : Buffer) : Prop :=
  ∀ ic < totalIc, Matches data ic

instance (totalIc : Nat) (data : Buffer) : Decidable (AllMatch totalIc data) :=
  inferInstanceAs (Decidable (∀ ic < totalIc, Matches data ic))

/-- The last IC of the chain has a correct PEC. -/
def LastMatches (totalIc : Nat) (data : Buffer) : Prop :=
  Matches data (totalIc - 1)

instance (totalIc : Nat) (data : Buffer) : Decidable (LastMatches totalIc data) :=
  inferInstanceAs (Decidable (Matches _ _))

theorem AllMatch.last {totalIc : Nat} {data : Buffer} (all : AllMatch totalIc data)
    (nonempty : 1 ≤ totalIc) : LastMatches totalIc data :=
  all (totalIc - 1) (by omega)

theorem matches_of_copied {data copied : Buffer} {ic start : Nat}
    (same : ∀ i < 8, copied (start + i) = data (ic * 8 + i)) :
    (receivedPec copied (start + 6) = pec15Calc 6 fun i => copied (start + i)) ↔
      Matches data ic := by
  have pec : (pec15Calc 6 fun i => copied (start + i)) =
      pec15Calc 6 fun i => data (ic * 8 + i) :=
    pec15Calc_congr fun i inside => same i (by omega)
  rw [Matches, pec, receivedPec, receivedPec, same 6 (by omega), same 7 (by omega)]

/-! ## `LTC6804_rdcfg` -/

/-- The status after one IC is that of this IC. -/
theorem rdcfgIc_pecError (rxData : Buffer) (state : RdcfgState) (ic : Nat) :
    (rdcfgIc rxData state ic).pecError = if Matches rxData ic then 0 else -1 := by
  have copied := @matches_of_copied rxData
    (fun byte => if byte < 8 then rxData (byte + ic * 8) else state.rConfig ic byte) ic 0
    fun i small => by rw [Nat.zero_add, if_pos small, Nat.add_comm]
  simp only [Nat.zero_add] at copied
  by_cases matched : Matches rxData ic
  · rw [if_pos matched]
    exact if_neg (not_not_intro (copied.mpr matched))
  · rw [if_neg matched]
    exact if_pos fun equal => matched (copied.mp equal)

/-- An attempt leaves the status of its last IC. -/
theorem rdcfg_fold (rxData : Buffer) (state : RdcfgState) (totalIc : Nat) :
    let result := (List.range totalIc).foldl (rdcfgIc rxData) state
    result.retries = state.retries ∧
      (∀ ic < totalIc, ∀ byte < 8, result.rConfig ic byte = rxData (ic * 8 + byte)) ∧
        (1 ≤ totalIc → result.pecError = if LastMatches totalIc rxData then 0 else -1) := by
  induction totalIc with
  | zero => simp
  | succ count ih =>
      rcases ih with ⟨retries, rows, _⟩
      rw [List.range_succ, List.foldl_append]
      refine ⟨retries, ?_, fun _ => ?_⟩
      · intro ic inside byte small
        by_cases same : ic = count
        · subst same
          apply (congrFun (Function.update_self _ _ _) byte).trans
          rw [if_pos small, Nat.add_comm]
        · apply (congrFun (Function.update_of_ne same _ _) byte).trans
          exact rows ic (by omega) byte small
      · exact rdcfgIc_pecError rxData _ count

/-- `LTC6804_rdcfg` stops after the first attempt whose last IC has a correct PEC. -/
theorem rdcfg_spec (spi : SpiBus) {totalIc : Nat} (nonempty : 1 ≤ totalIc)
    (rConfig : Nat → Buffer) :
    let result := rdcfg spi totalIc rConfig
    let succeeds := fun k => LastMatches totalIc (spi rdcfgCommand k)
    (∃ k, FirstSuccess succeeds ltcMaxRetries k ∧ result.retries = k + 1 ∧
        result.pecError = 0 ∧
          ∀ ic < totalIc, ∀ byte < 8,
            result.rConfig ic byte = spi rdcfgCommand k (ic * 8 + byte)) ∨
      (∀ k < ltcMaxRetries, ¬succeeds k) ∧ result.retries = ltcMaxRetries ∧
        result.pecError = -1 := by
  intro result succeeds
  refine (@repeatWhile_retries RdcfgState _ _ (rdcfgAttempt spi totalIc) succeeds ltcMaxRetries
    (fun k state => state.retries = k ∧ state.pecError = -1)
    (fun k state => state.retries = k + 1 ∧ state.pecError = 0 ∧
      ∀ ic < totalIc, ∀ byte < 8,
        state.rConfig ic byte = spi rdcfgCommand k (ic * 8 + byte))
    ?_ ?_ ?_ ?_ _ _ (Nat.le_refl _) ⟨rfl, rfl⟩).2
  · rintro k state ⟨rfl, failing⟩
    exact and_iff_left failing
  · rintro k state ⟨_, passed, _⟩ ⟨_, failing⟩
    rw [passed] at failing
    cases failing
  · rintro k state ⟨rfl, _⟩ _ success
    rcases rdcfg_fold (spi rdcfgCommand state.retries) state totalIc with ⟨retries, rows, status⟩
    exact ⟨congrArg (· + 1) retries, (status nonempty).trans (if_pos success), rows⟩
  · rintro k state ⟨rfl, _⟩ _ failure
    rcases rdcfg_fold (spi rdcfgCommand state.retries) state totalIc with ⟨retries, _, status⟩
    exact ⟨congrArg (· + 1) retries, (status nonempty).trans (if_neg failure)⟩

/-! ## `LTC6804_rdcomm` -/

/-- `read_68` fails when any IC fails. -/
theorem read68_fold (data : Buffer) (state : RdcommState) (totalIc : Nat) :
    let result := (List.range totalIc).foldl (read68Ic data) { state with pecError := 0 }
    result.retries = state.retries ∧ (∀ i < totalIc * 8, result.readBuffer i = data i) ∧
      result.pecError = if AllMatch totalIc data then 0 else -1 := by
  induction totalIc with
  | zero =>
      refine ⟨rfl, fun i none => absurd none (by omega), ?_⟩
      exact (if_pos fun ic none => absurd none (Nat.not_lt_zero ic)).symm
  | succ count ih =>
      rcases ih with ⟨retries, copied, status⟩
      rw [List.range_succ, List.foldl_append]
      refine ⟨retries, ?_, ?_⟩
      · intro i inside
        by_cases latest : count * 8 ≤ i ∧ i < count * 8 + 8
        · exact if_pos latest
        · exact (if_neg latest).trans (copied i (by omega))
      · have last := @matches_of_copied data
          (fun i =>
            if count * 8 ≤ i ∧ i < count * 8 + 8 then data i
            else ((List.range count).foldl (read68Ic data)
              { state with pecError := 0 }).readBuffer i) count (count * 8)
          fun i small => if_pos ⟨by omega, by omega⟩
        have split : AllMatch (count + 1) data ↔ AllMatch count data ∧ Matches data count := by
          constructor
          · exact fun all => ⟨fun ic inside => all ic (by omega), all count (by omega)⟩
          · rintro ⟨earlier, matched⟩ ic inside
            rcases Nat.lt_succ_iff_lt_or_eq.mp inside with before | rfl
            · exact earlier ic before
            · exact matched
        by_cases matched : Matches data count
        · refine (if_neg (not_not_intro (last.mpr matched))).trans (status.trans ?_)
          simp only [split, matched, and_true]
        · apply (if_pos fun equal => matched (last.mp equal)).trans
          rw [if_neg fun all => matched (split.mp all).2]

/-- The command of `LTC6804_rdcomm`. -/
def rdcommCommand : List (BitVec 8) :=
  commandWithPec 0x07 0x22

/-- `LTC6804_rdcomm` stops after the first attempt all of whose ICs have correct PECs. -/
theorem rdcomm_spec (spi : SpiBus) (totalIc : Nat) (readBuffer : Buffer) :
    let result := rdcomm spi totalIc readBuffer
    let succeeds := fun k => AllMatch totalIc (spi rdcommCommand k)
    (∃ k, FirstSuccess succeeds ltcMaxRetries k ∧ result.retries = k + 1 ∧
        result.pecError = 0 ∧
          ∀ i < totalIc * 8, result.readBuffer i = spi rdcommCommand k i) ∨
      (∀ k < ltcMaxRetries, ¬succeeds k) ∧ result.retries = ltcMaxRetries ∧
        result.pecError = -1 := by
  intro result succeeds
  refine (@repeatWhile_retries RdcommState _ _ (rdcommAttempt spi totalIc) succeeds
    ltcMaxRetries (fun k state => state.retries = k ∧ state.pecError = -1)
    (fun k state => state.retries = k + 1 ∧ state.pecError = 0 ∧
      ∀ i < totalIc * 8, state.readBuffer i = spi rdcommCommand k i)
    ?_ ?_ ?_ ?_ _ _ (Nat.le_refl _) ⟨rfl, rfl⟩).2
  · rintro k state ⟨rfl, failing⟩
    exact and_iff_left failing
  · rintro k state ⟨_, passed, _⟩ ⟨_, failing⟩
    rw [passed] at failing
    cases failing
  · rintro k state ⟨rfl, _⟩ _ success
    obtain ⟨retries, copied, status⟩ := read68_fold (spi rdcommCommand state.retries) state totalIc
    exact ⟨congrArg (· + 1) retries, status.trans (if_pos success), copied⟩
  · rintro k state ⟨rfl, _⟩ _ failure
    rcases read68_fold (spi rdcommCommand state.retries) state totalIc with ⟨retries, _, status⟩
    exact ⟨congrArg (· + 1) retries, status.trans (if_neg failure)⟩

/-! ## `LTC6804_rdaux` -/

/-- The code of one GPIO of an IC, low byte first. -/
def gpioCode (data : Buffer) (ic gpio : Nat) : BitVec 16 :=
  (data (ic * 8 + 2 * gpio)).setWidth 16 + ((data (ic * 8 + 2 * gpio + 1)).setWidth 16 <<< 8)

/-- The index of a code that belongs to an auxiliary group. -/
def InGroup (reg index : Nat) : Prop :=
  (reg - 1) * 3 ≤ index ∧ index < (reg - 1) * 3 + 3

instance (reg index : Nat) : Decidable (InGroup reg index) :=
  inferInstanceAs (Decidable (_ ∧ _))

theorem setCode_apply (auxCodes : Nat → Nat → BitVec 16) (ic index : Nat)
    (code : BitVec 16) (ic' index' : Nat) :
    setCode auxCodes ic index code ic' index' =
      if ic' = ic ∧ index' = index then code else auxCodes ic' index' := by
  unfold setCode
  by_cases sameIc : ic' = ic
  · subst sameIc
    rw [Function.update_self]
    by_cases sameIndex : index' = index
    · subst sameIndex
      rw [Function.update_self, if_pos ⟨rfl, rfl⟩]
    · rw [Function.update_of_ne sameIndex, if_neg fun same => sameIndex same.2]
  · rw [Function.update_of_ne sameIc, if_neg fun same => sameIc same.1]

/-- The parsing loop stores the three codes of the IC. -/
theorem parseGpio_spec (data : Buffer) (reg : Nat) {ic : Nat} (short : ic < 31)
    {state : AuxState} (counter : state.dataCounter.toNat = ic * 8) :
    let result := parseGpio data reg ic state
    result.dataCounter.toNat = ic * 8 + 6 ∧ result.pecError = state.pecError ∧
      result.retries = state.retries ∧ result.attempts = state.attempts ∧
        ∀ ic' index, result.auxCodes ic' index =
          if ic' = ic ∧ InGroup reg index then gpioCode data ic (index - (reg - 1) * 3)
          else state.auxCodes ic' index := by
  have second : (state.dataCounter + 2).toNat = ic * 8 + 2 := by
    rw [BitVec.toNat_add, counter]
    exact Nat.mod_eq_of_lt (by change ic * 8 + 2 < 256; omega)
  have third : (state.dataCounter + 2 + 2).toNat = ic * 8 + 4 := by
    rw [BitVec.toNat_add, second]
    exact Nat.mod_eq_of_lt (by change ic * 8 + 2 + 2 < 256; omega)
  have last : (state.dataCounter + 2 + 2 + 2).toNat = ic * 8 + 6 := by
    rw [BitVec.toNat_add, third]
    exact Nat.mod_eq_of_lt (by change ic * 8 + 4 + 2 < 256; omega)
  have code (gpio : Nat) (at_gpio : BitVec 8) (position : at_gpio.toNat = ic * 8 + 2 * gpio) :
      (data at_gpio.toNat).setWidth 16 + ((data (at_gpio.toNat + 1)).setWidth 16 <<< 8) =
        gpioCode data ic gpio := by
    rw [position]
    rfl
  have codes : (parseGpio data reg ic state).auxCodes =
      setCode (setCode (setCode state.auxCodes ic (0 + (reg - 1) * 3) (gpioCode data ic 0)) ic
        (1 + (reg - 1) * 3) (gpioCode data ic 1)) ic (2 + (reg - 1) * 3)
        (gpioCode data ic 2) := by
    rw [← code 0 state.dataCounter counter, ← code 1 (state.dataCounter + 2) second,
      ← code 2 (state.dataCounter + 2 + 2) third]
    rfl
  refine ⟨last, rfl, rfl, rfl, ?_⟩
  intro ic' index
  rw [codes, setCode_apply, setCode_apply, setCode_apply]
  by_cases inside : ic' = ic ∧ InGroup reg index
  · rw [if_pos inside]
    rcases inside with ⟨rfl, lower, upper⟩
    rcases Nat.exists_eq_add_of_le lower with ⟨offset, rfl⟩
    have small : offset < 3 := by omega
    rw [Nat.add_sub_cancel_left, Nat.add_comm]
    match offset, small with
    | 0, _ => simp
    | 1, _ => simp
    | 2, _ => simp
  · have outside : ∀ offset < 3, ¬(ic' = ic ∧ index = offset + (reg - 1) * 3) := by
      rintro offset small ⟨rfl, rfl⟩
      exact inside ⟨rfl, by omega, by omega⟩
    rw [if_neg inside, if_neg (outside 2 (by omega)), if_neg (outside 1 (by omega)),
      if_neg (outside 0 (by omega))]

/-- One IC stores its codes, and sets the status to that of this IC.  A bad read is
recorded only at a mismatch when exactly `LTC_MAX_RETRIES` ICs were read before. -/
theorem rdauxIc_spec (data : Buffer) (reg : Nat) {ic : Nat} (short : ic < 31)
    {state : AuxState} (counter : state.dataCounter.toNat = ic * 8) :
    let result := rdauxIc data reg state ic
    result.dataCounter.toNat = (ic + 1) * 8 ∧ result.retries = state.retries + 1 ∧
      result.attempts = state.attempts ∧
      (result.pecError = if Matches data ic then 0 else -1) ∧
      (Matches data ic ∨ state.retries ≠ ltcMaxRetries →
        ∀ ic' index, result.auxCodes ic' index =
          if ic' = ic ∧ InGroup reg index then gpioCode data ic (index - (reg - 1) * 3)
          else state.auxCodes ic' index) := by
  rcases parseGpio_spec data reg short counter with ⟨dataCounter, _, retries, attempts, codes⟩
  have next : ((parseGpio data reg ic state).dataCounter + 2).toNat = (ic + 1) * 8 := by
    rw [BitVec.toNat_add, dataCounter]
    change (ic * 8 + 6 + 2) % 256 = (ic + 1) * 8
    omega
  have correct : (receivedPec data (parseGpio data reg ic state).dataCounter.toNat =
      pec15Calc 6 fun i => data (ic * 8 + i)) ↔ Matches data ic := by
    rw [dataCounter]
    exact Iff.rfl
  unfold rdauxIc
  dsimp only
  split
  · rename_i equal
    exact ⟨next, congrArg (· + 1) retries, attempts, (if_pos (correct.mp equal)).symm,
      fun _ => codes⟩
  · rename_i different
    have mismatch : ¬Matches data ic := fun matched => different (correct.mpr matched)
    refine ⟨next, congrArg (· + 1) retries, attempts, (if_neg mismatch).symm, ?_⟩
    rintro (matched | early)
    · exact absurd matched mismatch
    · rw [if_neg (by rwa [retries])]
      exact codes

/-- An attempt leaves the status of its last IC, and the codes of all ICs unless a bad
read was recorded. -/
theorem rdaux_fold (data : Buffer) (reg : Nat) {state : AuxState}
    (counter : state.dataCounter = 0) {totalIc : Nat} (short : totalIc ≤ 31) :
    let result := (List.range totalIc).foldl (rdauxIc data reg) state
    result.dataCounter.toNat = totalIc * 8 ∧ result.retries = state.retries + totalIc ∧
      result.attempts = state.attempts ∧
      (1 ≤ totalIc → result.pecError = if LastMatches totalIc data then 0 else -1) ∧
      ((∀ ic < totalIc, Matches data ic ∨ state.retries + ic ≠ ltcMaxRetries) →
        ∀ ic index, result.auxCodes ic index =
          if ic < totalIc ∧ InGroup reg index then gpioCode data ic (index - (reg - 1) * 3)
          else state.auxCodes ic index) := by
  induction totalIc with
  | zero =>
      refine ⟨?_, rfl, rfl, fun none => absurd none (by omega), ?_⟩
      · change state.dataCounter.toNat = 0 * 8
        rw [counter]
        rfl
      intro _ ic index
      exact (if_neg fun both => Nat.not_lt_zero ic both.1).symm
  | succ count ih =>
      rcases ih (by omega) with ⟨dataCounter, retries, attempts, _, codes⟩
      rw [List.range_succ, List.foldl_append]
      obtain ⟨nextCounter, nextRetries, nextAttempts, status, nextCodes⟩ :=
        @rdauxIc_spec data reg count (by omega) _ dataCounter
      refine ⟨nextCounter, nextRetries.trans (by rw [retries]; omega),
        nextAttempts.trans attempts, fun _ => status, ?_⟩
      intro unrecorded ic index
      have earlier := codes fun ic inside => unrecorded ic (by omega)
      have latest := nextCodes (by rw [retries]; exact unrecorded count (by omega))
      apply (latest ic index).trans
      by_cases same : ic = count
      · subst same
        by_cases inside : InGroup reg index
        · rw [if_pos ⟨rfl, inside⟩, if_pos ⟨Nat.lt_succ_self ic, inside⟩]
        · rw [if_neg fun both => inside both.2, if_neg fun both => inside both.2,
            earlier ic index, if_neg fun both => inside both.2]
      · rw [if_neg fun both => same both.1, earlier ic index]
        by_cases inside : ic < count ∧ InGroup reg index
        · rw [if_pos inside, if_pos ⟨Nat.lt_succ_of_lt inside.1, inside.2⟩]
        · rw [if_neg inside, if_neg fun both => inside ⟨by omega, both.2⟩]

/-- The number of attempts `LTC6804_rdaux` makes for a group at most, since it counts
`retries` up at every IC. -/
def auxAttempts (totalIc : Nat) : Nat :=
  (ltcMaxRetries + totalIc - 1) / totalIc

theorem lt_auxAttempts_iff {totalIc : Nat} (nonempty : 1 ≤ totalIc) (k : Nat) :
    k < auxAttempts totalIc ↔ k * totalIc < ltcMaxRetries := by
  unfold auxAttempts ltcMaxRetries
  rw [Nat.lt_iff_add_one_le, Nat.le_div_iff_mul_le (by omega), Nat.add_mul]
  omega

theorem auxAttempts_le {totalIc : Nat} (nonempty : 1 ≤ totalIc) :
    auxAttempts totalIc ≤ ltcMaxRetries := by
  rw [← Nat.not_lt, lt_auxAttempts_iff nonempty, Nat.not_lt]
  exact Nat.le_mul_of_pos_right _ nonempty

theorem auxAttempts_pos {totalIc : Nat} (nonempty : 1 ≤ totalIc) : 0 < auxAttempts totalIc := by
  rw [lt_auxAttempts_iff nonempty, Nat.zero_mul]
  decide

section Group

variable {spi : SpiBus} {totalIc reg k : Nat} {state other : AuxState}

/-- The state before attempt `k` of reading a group that began in `state`. -/
structure AuxTrying (totalIc reg : Nat) (state : AuxState) (k : Nat) (other : AuxState) :
    Prop where
  attempts : other.attempts = k
  retries : other.retries = k * totalIc
  pecError : other.pecError = -1 ∨ k = 0 ∧ other.pecError = 1
  auxCodes : k * totalIc < ltcMaxRetries → ∀ ic index, ¬(ic < totalIc ∧ InGroup reg index) →
    other.auxCodes ic index = state.auxCodes ic index

/-- The state after attempt `k` has ended with a correct PEC. -/
structure AuxPassed (spi : SpiBus) (totalIc reg : Nat) (state : AuxState) (k : Nat)
    (other : AuxState) : Prop where
  attempts : other.attempts = k + 1
  pecError : other.pecError = 0
  auxCodes : AllMatch totalIc (spi (rdauxCommand reg) k) → ∀ ic index,
    other.auxCodes ic index =
      if ic < totalIc ∧ InGroup reg index then
        gpioCode (spi (rdauxCommand reg) k) ic (index - (reg - 1) * 3)
      else state.auxCodes ic index

theorem AuxTrying.passed (trying : AuxTrying totalIc reg state k other) (nonempty : 1 ≤ totalIc)
    (short : totalIc ≤ 31) (within : k < auxAttempts totalIc)
    (success : LastMatches totalIc (spi (rdauxCommand reg) k)) :
    AuxPassed spi totalIc reg state k (rdauxAttempt spi totalIc reg other) := by
  rcases trying with ⟨rfl, retries, _, unchanged⟩
  obtain ⟨_, _, attempts, status, codes⟩ :=
    @rdaux_fold (spi (rdauxCommand reg) other.attempts) reg { other with dataCounter := 0 }
      rfl totalIc short
  refine ⟨congrArg (· + 1) attempts, (status nonempty).trans (if_pos success), ?_⟩
  intro all ic index
  apply (codes (fun ic inside => .inl (all ic inside)) ic index).trans
  by_cases inside : ic < totalIc ∧ InGroup reg index
  · rw [if_pos inside, if_pos inside]
  · rw [if_neg inside, if_neg inside]
    exact unchanged ((lt_auxAttempts_iff nonempty _).mp within) ic index inside

theorem AuxTrying.again (trying : AuxTrying totalIc reg state k other) (nonempty : 1 ≤ totalIc)
    (short : totalIc ≤ 31) (failure : ¬LastMatches totalIc (spi (rdauxCommand reg) k)) :
    AuxTrying totalIc reg state (k + 1) (rdauxAttempt spi totalIc reg other) := by
  rcases trying with ⟨rfl, retries, _, unchanged⟩
  obtain ⟨_, nextRetries, attempts, status, codes⟩ :=
    @rdaux_fold (spi (rdauxCommand reg) other.attempts) reg { other with dataCounter := 0 }
      rfl totalIc short
  refine ⟨congrArg (· + 1) attempts, ?_, .inl ((status nonempty).trans (if_neg failure)), ?_⟩
  · apply nextRetries.trans
    rw [Nat.add_mul, Nat.one_mul]
    exact congrArg (· + totalIc) retries
  · intro more ic index outside
    rw [Nat.add_mul, Nat.one_mul] at more
    have unrecorded : ∀ ic < totalIc,
        Matches (spi (rdauxCommand reg) other.attempts) ic ∨
          other.retries + ic ≠ ltcMaxRetries := by
      intro ic inside
      right
      omega
    apply (codes unrecorded ic index).trans
    rw [if_neg outside]
    exact unchanged (by omega) ic index outside

end Group

/-- Reading a group stops after the first attempt whose last IC has a correct PEC.  If
all its PECs are correct, the codes of the group are those of that attempt and no other
code has changed. -/
theorem rdauxGroup_spec (spi : SpiBus) {totalIc : Nat} (nonempty : 1 ≤ totalIc)
    (short : totalIc ≤ 31) (reg : Nat) (state : AuxState) :
    let result := rdauxGroup spi totalIc reg state
    let succeeds := fun k => LastMatches totalIc (spi (rdauxCommand reg) k)
    (∃ k, FirstSuccess succeeds (auxAttempts totalIc) k ∧ result.attempts = k + 1 ∧
        result.pecError = 0 ∧
        (AllMatch totalIc (spi (rdauxCommand reg) k) →
          ∀ ic index, result.auxCodes ic index =
            if ic < totalIc ∧ InGroup reg index then
              gpioCode (spi (rdauxCommand reg) k) ic (index - (reg - 1) * 3)
            else state.auxCodes ic index)) ∨
      (∀ k < auxAttempts totalIc, ¬succeeds k) ∧ result.attempts = auxAttempts totalIc ∧
        result.pecError = -1 := by
  intro result succeeds
  have found := (@repeatWhile_retries AuxState
    (fun other => other.retries < ltcMaxRetries ∧ (other.pecError = -1 ∨ other.pecError = 1))
    _ (rdauxAttempt spi totalIc reg) succeeds (auxAttempts totalIc)
    (AuxTrying totalIc reg state) (AuxPassed spi totalIc reg state)
    ?_ ?_ ?_ ?_ ltcMaxRetries
    { state with
      pecError := if state.pecError ≠ -1 then 1 else state.pecError
      retries := 0
      attempts := 0 }
    (auxAttempts_le nonempty) ?_).2
  · rcases found with ⟨k, first, passed⟩ | ⟨failed, trying⟩
    · exact .inl ⟨k, first, passed.attempts, passed.pecError, passed.auxCodes⟩
    · refine .inr ⟨failed, trying.attempts, ?_⟩
      rcases trying.pecError with failing | ⟨none, _⟩
      · exact failing
      · exact absurd none (Nat.ne_of_gt (auxAttempts_pos nonempty))
  · intro k other trying
    rw [lt_auxAttempts_iff nonempty, trying.retries]
    exact and_iff_left (trying.pecError.imp_right And.right)
  · rintro k other passed ⟨_, failing⟩
    rw [passed.pecError] at failing
    rcases failing with failing | failing <;> cases failing
  · exact fun k other trying within success => trying.passed nonempty short within success
  · exact fun k other trying _ failure => trying.again nonempty short failure
  · refine ⟨rfl, (Nat.zero_mul _).symm, ?_, fun _ _ _ _ => rfl⟩
    by_cases failing : state.pecError = -1
    · exact .inl ((if_neg (not_not_intro failing)).trans failing)
    · exact .inr ⟨rfl, if_pos failing⟩

end EmbeddedBase.General.Ltc68041
