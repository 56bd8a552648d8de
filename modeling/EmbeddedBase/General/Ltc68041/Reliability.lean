import EmbeddedBase.General.Ltc68041.Correctness
import Mathlib.Data.List.Forall2

/-!
# When a read can be relied on

A read is reliable when a result of `0` and correct data are the same thing, within the
retry limit.  `LTC6804_rdcomm` always is; for the other functions the file gives the
exact condition on the blocks the bus delivers.
-/

namespace EmbeddedBase.General.Ltc68041

open EmbeddedBase.Transition

/-- A call of a read function, with the contents of its arrays at the start. -/
inductive ReadCall where
  | rdcfg (rConfig : Nat → Buffer)
  | rdaux (reg : Fin 3) (auxCodes : Nat → Nat → BitVec 16)
  | rdcomm (readData : Nat → Buffer) (readBuffer : Buffer)

/-- The auxiliary groups `LTC6804_rdaux` is asked for. -/
def auxGroups (reg : Fin 3) : List Nat :=
  if reg = 0 then [1, 2] else [reg]

namespace ReadCall

/-- The commands of the register groups a call is asked for. -/
def commands : ReadCall → List (List (BitVec 8))
  | rdcfg _ => [rdcfgCommand]
  | rdaux reg _ => (auxGroups reg).map rdauxCommand
  | rdcomm _ _ => [rdcommCommand]

/-- What a call returns. -/
def status (spi : SpiBus) (totalIc : Nat) : ReadCall → Int
  | rdcfg rConfig => (Ltc68041.rdcfg spi totalIc rConfig).pecError
  | rdaux reg auxCodes => (Ltc68041.rdaux spi reg totalIc auxCodes).pecError
  | rdcomm _ readBuffer => (Ltc68041.rdcomm spi totalIc readBuffer).pecError

/-- The numbers of transfers a call makes, by command. -/
def attempts (spi : SpiBus) (totalIc : Nat) : ReadCall → List Nat
  | rdcfg rConfig => [(Ltc68041.rdcfg spi totalIc rConfig).retries]
  | rdaux reg auxCodes => (Ltc68041.rdaux spi reg totalIc auxCodes).attempts
  | rdcomm _ readBuffer => [(Ltc68041.rdcomm spi totalIc readBuffer).retries]

/-- The output array holds the data of the last attempt of every group. -/
def Stored (spi : SpiBus) (totalIc : Nat) : ReadCall → Prop
  | rdcfg rConfig =>
      let result := Ltc68041.rdcfg spi totalIc rConfig
      ∀ ic < totalIc, ∀ byte < 8,
        result.rConfig ic byte = spi rdcfgCommand (result.retries - 1) (ic * 8 + byte)
  | rdaux reg auxCodes =>
      let result := Ltc68041.rdaux spi reg totalIc auxCodes
      List.Forall₂ (fun group attempts => ∀ ic < totalIc, ∀ gpio < 3,
        result.auxCodes ic ((group - 1) * 3 + gpio) =
          gpioCode (spi (rdauxCommand group) (attempts - 1)) ic gpio)
        (auxGroups reg) result.attempts
  | rdcomm readData readBuffer =>
      let result := Ltc68041.rdcomm spi totalIc readBuffer
      ∀ ic < totalIc, ∀ byte < 6,
        rdcommReadData totalIc readData result ic byte =
          spi rdcommCommand (result.retries - 1) (ic * 8 + byte)

/-- A result of `0` means that every group was transferred and that the data left in
the output array, of every IC, has a correct PEC; and the result is `0` as soon as some
attempt within the retry limit delivers every group with correct PECs. -/
structure Reliable (spi : SpiBus) (totalIc : Nat) (call : ReadCall) : Prop where
  sound : call.status spi totalIc = 0 →
    List.Forall₂ (fun command attempts =>
        0 < attempts ∧ AllMatch totalIc (spi command (attempts - 1)))
      call.commands (call.attempts spi totalIc) ∧ call.Stored spi totalIc
  complete : (∀ command ∈ call.commands, ∃ k < ltcMaxRetries,
      AllMatch totalIc (spi command k)) → call.status spi totalIc = 0

end ReadCall

/-- Attempt `k` is the first of `limit` attempts at a command in which the last IC has
a correct PEC. -/
abbrev FirstMatch (spi : SpiBus) (totalIc : Nat) (command : List (BitVec 8)) :
    Nat → Nat → Prop :=
  FirstSuccess fun k => LastMatches totalIc (spi command k)

/-- The condition on the delivered blocks. -/
def Consistent (spi : SpiBus) (totalIc : Nat) : ReadCall → Prop
  | .rdcfg _ =>
      ∀ k, FirstMatch spi totalIc rdcfgCommand ltcMaxRetries k →
        AllMatch totalIc (spi rdcfgCommand k)
  | .rdaux reg _ =>
      if reg = 0 then
        (∀ b, FirstMatch spi totalIc (rdauxCommand 2) (auxAttempts totalIc) b →
          AllMatch totalIc (spi (rdauxCommand 2) b) ∧
            ∃ a, FirstMatch spi totalIc (rdauxCommand 1) (auxAttempts totalIc) a ∧
              AllMatch totalIc (spi (rdauxCommand 1) a)) ∧
        ((∃ a < ltcMaxRetries, AllMatch totalIc (spi (rdauxCommand 1) a)) →
          (∃ b < ltcMaxRetries, AllMatch totalIc (spi (rdauxCommand 2) b)) →
            ∃ b < auxAttempts totalIc, LastMatches totalIc (spi (rdauxCommand 2) b))
      else
        ∀ k < ltcMaxRetries, ¬AllMatch totalIc (spi (rdauxCommand reg) k)
  | .rdcomm _ _ => True

/-! ## One function at a time -/

variable {spi : SpiBus} {totalIc : Nat}

theorem reliable_rdcfg_iff (nonempty : 1 ≤ totalIc) (rConfig : Nat → Buffer) :
    ReadCall.Reliable spi totalIc (.rdcfg rConfig) ↔
      Consistent spi totalIc (.rdcfg rConfig) := by
  rcases rdcfg_spec spi nonempty rConfig with
    ⟨k, first, retries, passed, rows⟩ | ⟨failed, _, status⟩
  · constructor
    · intro reliable other otherFirst
      rcases List.forall₂_cons.mp (reliable.sound passed).1 |>.1 with ⟨_, all⟩
      rw [retries] at all
      rw [otherFirst.unique first]
      exact all
    · intro consistent
      refine ⟨fun _ => ⟨.cons ⟨?_, ?_⟩ .nil, ?_⟩, fun _ => passed⟩
      · rw [retries]
        exact Nat.succ_pos k
      · rw [retries]
        exact consistent k first
      · intro ic inside byte small
        rw [retries]
        exact rows ic inside byte small
  · constructor
    · intro _ k first
      exact absurd first.success (failed k first.within)
    · intro _
      constructor
      · intro passed
        have impossible : (-1 : Int) = 0 := status.symm.trans passed
        cases impossible
      · intro delivered
        rcases delivered rdcfgCommand List.mem_cons_self with ⟨k, within, all⟩
        exact absurd (all.last nonempty) (failed k within)

theorem reliable_rdcomm (readData : Nat → Buffer) (readBuffer : Buffer) :
    ReadCall.Reliable spi totalIc (.rdcomm readData readBuffer) := by
  rcases rdcomm_spec spi totalIc readBuffer with
    ⟨k, first, retries, passed, copied⟩ | ⟨failed, _, status⟩
  · refine ⟨fun _ => ⟨.cons ⟨?_, ?_⟩ .nil, ?_⟩, fun _ => passed⟩
    · rw [retries]
      exact Nat.succ_pos k
    · rw [retries]
      exact first.success
    · intro ic inside byte small
      rw [rdcommReadData, if_pos ⟨inside, small⟩, retries, copied _ (by omega)]
      congr 1
      omega
  · constructor
    · intro passed
      have impossible : (-1 : Int) = 0 := status.symm.trans passed
      cases impossible
    · intro delivered
      rcases delivered rdcommCommand List.mem_cons_self with ⟨k, within, all⟩
      exact absurd all (failed k within)

/-- For a single group `LTC6804_rdaux` makes no transfer at all. -/
theorem rdaux_single (spi : SpiBus) (totalIc : Nat) {reg : Nat} (single : reg ≠ 0)
    (auxCodes : Nat → Nat → BitVec 16) :
    rdaux spi reg totalIc auxCodes = ⟨1, auxCodes, [0]⟩ := by
  rw [rdaux, if_neg single, repeatWhile_of_not]
  rintro ⟨_, failing⟩
  cases failing

theorem reliable_rdaux_single_iff {reg : Fin 3} (single : reg ≠ 0)
    (auxCodes : Nat → Nat → BitVec 16) :
    ReadCall.Reliable spi totalIc (.rdaux reg auxCodes) ↔
      ∀ k < ltcMaxRetries, ¬AllMatch totalIc (spi (rdauxCommand reg) k) := by
  have result := rdaux_single spi totalIc (fun zero => single (Fin.ext zero)) auxCodes
  have status : ReadCall.status spi totalIc (.rdaux reg auxCodes) = 1 := by
    rw [ReadCall.status, result]
  have commands : ReadCall.commands (.rdaux reg auxCodes) = [rdauxCommand reg] := by
    rw [ReadCall.commands, auxGroups, if_neg single]
    rfl
  constructor
  · intro reliable k within all
    have passed := reliable.complete (by
      rw [commands]
      intro command member
      cases List.mem_singleton.mp member
      exact ⟨k, within, all⟩)
    rw [status] at passed
    cases passed
  · intro failed
    constructor
    · intro passed
      rw [status] at passed
      cases passed
    · intro delivered
      rw [commands] at delivered
      rcases delivered _ List.mem_cons_self with ⟨k, within, all⟩
      exact absurd all (failed k within)

/-- Where no attempt at group B passes, the result is `-1`. -/
theorem reliable_rdaux_all_of_failed (auxCodes : Nat → Nat → BitVec 16)
    (failed : ∀ k < auxAttempts totalIc, ¬LastMatches totalIc (spi (rdauxCommand 2) k))
    (failing : ReadCall.status spi totalIc (.rdaux 0 auxCodes) = -1) :
    ReadCall.Reliable spi totalIc (.rdaux 0 auxCodes) ↔
      Consistent spi totalIc (.rdaux 0 auxCodes) := by
  have notPassed : ReadCall.status spi totalIc (.rdaux 0 auxCodes) ≠ 0 := by
    rw [failing]
    decide
  constructor
  · intro reliable
    refine ⟨fun b first => absurd first.success (failed b first.within), ?_⟩
    intro deliveredA deliveredB
    apply absurd (reliable.complete _) notPassed
    intro command member
    rcases List.mem_cons.mp member with rfl | member
    · exact deliveredA
    · cases List.mem_singleton.mp member
      exact deliveredB
  · rintro ⟨_, complete⟩
    refine ⟨fun passed => absurd passed notPassed, fun delivered => ?_⟩
    obtain ⟨b, within, success⟩ := complete (delivered _ List.mem_cons_self)
      (delivered _ (List.mem_cons_of_mem _ List.mem_cons_self))
    exact absurd success (failed b within)

/-- Reading both groups returns `0` exactly when group B ends with a correct PEC of its
last IC; the result says nothing about group A. -/
theorem reliable_rdaux_all_iff (nonempty : 1 ≤ totalIc) (short : totalIc ≤ 31)
    (auxCodes : Nat → Nat → BitVec 16) :
    ReadCall.Reliable spi totalIc (.rdaux 0 auxCodes) ↔
      Consistent spi totalIc (.rdaux 0 auxCodes) := by
  let groupA := rdauxGroup spi totalIc 1 ⟨auxCodes, 0, 1, 0, 0⟩
  have specA := rdauxGroup_spec spi nonempty short 1 ⟨auxCodes, 0, 1, 0, 0⟩
  rcases rdauxGroup_spec spi nonempty short 2 groupA with
    ⟨b, firstB, attemptsB, passed, codesB⟩ | ⟨failedB, _, failing⟩
  · constructor
    · intro reliable
      rcases List.forall₂_cons.mp (reliable.sound passed).1 with ⟨⟨_, allA⟩, rest⟩
      rcases (List.forall₂_cons.mp rest).1 with ⟨_, allB⟩
      refine ⟨fun other first => ⟨?_, ?_⟩, fun _ _ => ⟨b, firstB.within, firstB.success⟩⟩
      · rw [attemptsB] at allB
        rw [first.unique firstB]
        exact allB
      · rcases specA with ⟨a, firstA, attemptsA, _⟩ | ⟨failedA, attemptsA, _⟩
        · rw [attemptsA] at allA
          exact ⟨a, firstA, allA⟩
        · rw [attemptsA] at allA
          have positive := auxAttempts_pos nonempty
          exact absurd (allA.last nonempty) (failedA _ (by omega))
    · rintro ⟨consistent, _⟩
      rcases consistent b firstB with ⟨allB, a, firstA, allA⟩
      rcases specA with ⟨a', firstA', attemptsA, _, codesA⟩ | ⟨failedA, _⟩
      · cases firstA'.unique firstA
        refine ⟨fun _ => ⟨.cons ?_ (.cons ?_ .nil), .cons ?_ (.cons ?_ .nil)⟩, fun _ => passed⟩
        · rw [attemptsA]
          exact ⟨Nat.succ_pos a, allA⟩
        · rw [attemptsB]
          exact ⟨Nat.succ_pos b, allB⟩
        · intro ic inside gpio small
          have outside : ¬(ic < totalIc ∧ InGroup 2 ((1 - 1) * 3 + gpio)) := by
            rintro ⟨_, lower, _⟩
            omega
          apply (codesB allB ic _).trans
          rw [if_neg outside, attemptsA]
          apply (codesA allA ic _).trans
          rw [if_pos ⟨inside, by omega, by omega⟩]
          congr 1
          omega
        · intro ic inside gpio small
          apply (codesB allB ic _).trans
          rw [if_pos ⟨inside, by omega, by omega⟩, attemptsB]
          congr 1
          omega
      · exact absurd firstA.success (failedA a firstA.within)
  · exact reliable_rdaux_all_of_failed auxCodes failedB failing

/-! ## All functions -/

/-- A call is reliable exactly when the delivered blocks are consistent: for
`LTC6804_rdcfg`, the first block whose last IC has a correct PEC has only correct PECs;
for `LTC6804_rdaux` on both groups, the same holds of both groups within the smaller
number of attempts it makes, and group B passes when both groups can be read; for
`LTC6804_rdaux` on one group, no block is delivered with correct PECs; for
`LTC6804_rdcomm`, always. -/
theorem reliable_iff_consistent (spi : SpiBus) {totalIc : Nat} (nonempty : 1 ≤ totalIc)
    (short : totalIc ≤ 31) (call : ReadCall) :
    call.Reliable spi totalIc ↔ Consistent spi totalIc call := by
  cases call with
  | rdcfg rConfig => exact reliable_rdcfg_iff nonempty rConfig
  | rdaux reg auxCodes =>
      by_cases all : reg = 0
      · subst all
        exact reliable_rdaux_all_iff nonempty short auxCodes
      · rw [reliable_rdaux_single_iff all, Consistent, if_neg all]
  | rdcomm readData readBuffer =>
      exact iff_of_true (reliable_rdcomm readData readBuffer) trivial

/-- The block of two ICs with zero data whose first PEC was lost on the bus. -/
def halfCorrupt : SpiBus := fun _ _ i =>
  if i = 14 then 0xc2 else if i = 15 then 0x12 else 0

/-- The blocks of two ICs with zero data whose PECs are lost at the first attempt. -/
def corruptOnce : SpiBus := fun _ attempt i =>
  if attempt = 0 then 0 else if i % 8 = 6 then 0xc2 else if i % 8 = 7 then 0x12 else 0

/-- A chain of two ICs: `LTC6804_rdcfg` tries again, and returns `0` with both PECs
right. -/
theorem reliable_iff_consistent_example :
    ReadCall.Reliable corruptOnce 2 (.rdcfg fun _ _ => 0) ∧
      ReadCall.status corruptOnce 2 (.rdcfg fun _ _ => 0) = 0 ∧
        ReadCall.attempts corruptOnce 2 (.rdcfg fun _ _ => 0) = [2] := by
  refine ⟨(reliable_iff_consistent _ (by decide) (by decide) _).mpr ?_, by decide, by decide⟩
  intro k first
  have lost : ¬LastMatches 2 (corruptOnce rdcfgCommand 0) := by decide
  cases k with
  | zero => exact absurd first.success lost
  | succ k =>
      have right : AllMatch 2 (corruptOnce rdcfgCommand 1) := by decide
      exact right

/-- A chain of two ICs: `LTC6804_rdcfg` returns `0` although the PEC of the first is
wrong. -/
theorem rdcfg_reports_success_on_corrupt_data :
    (rdcfg halfCorrupt 2 fun _ _ => 0).pecError = 0 ∧
      (rdcfg halfCorrupt 2 fun _ _ => 0).retries = 1 ∧
        ¬Matches (halfCorrupt rdcfgCommand 0) 0 ∧
          ¬ReadCall.Reliable halfCorrupt 2 (.rdcfg fun _ _ => 0) := by
  have passed : (rdcfg halfCorrupt 2 fun _ _ => 0).pecError = 0 := by decide
  have once : (rdcfg halfCorrupt 2 fun _ _ => 0).retries = 1 := by decide
  have mismatch : ¬Matches (halfCorrupt rdcfgCommand 0) 0 := by decide
  refine ⟨passed, once, mismatch, fun reliable => ?_⟩
  rcases (List.forall₂_cons.mp (reliable.sound passed).1).1 with ⟨_, all⟩
  rw [once] at all
  exact mismatch (all 0 (by decide))

end EmbeddedBase.General.Ltc68041
