import EmbeddedBase.General.M24c32

/-!
# The calls of an EEPROM write

`m24c32_write` on a device whose calls may return any status: the calls it makes are the
pieces of the data between page boundaries, up to the first that fails.
-/

namespace EmbeddedBase.General.M24c32

open EmbeddedBase.Data
open EmbeddedBase.Middleware.Eeprom

/-- A write call, by its address and data. -/
abbrev WriteCall := UInt16 × List (BitVec 8)

/-- The call for a piece; its address is reduced to 16 bits. -/
def call (piece : Nat × List (BitVec 8)) : WriteCall :=
  (UInt16.ofNat piece.1, piece.2)

/-- A write callback that remembers its calls.  Call number `k`, counted from 0, returns
`status k`. -/
def record (status : Nat → EepromStatus) (calls : List WriteCall) (addr : UInt16)
    (data : List (BitVec 8)) : EepromStatus × List WriteCall :=
  (status calls.length, calls ++ [(addr, data)])

/-- The device with this callback. -/
def recorder (status : Nat → EepromStatus) : Device (List WriteCall) :=
  ⟨some (record status), none⟩

/-- The bytes for the addresses from `start` on, cut at the page boundaries. -/
structure CutAtPages (start : Nat) (bytes : List (BitVec 8))
    (pieces : List (Nat × List (BitVec 8))) : Prop where
  inPage : ∀ piece ∈ pieces,
    0 < piece.2.length ∧ piece.1 % pageSize + piece.2.length ≤ pageSize
  consecutive : ∀ before piece after, pieces = before ++ piece :: after →
    piece.1 = start + ((before.map Prod.snd).flatten).length
  together : (pieces.map Prod.snd).flatten = bytes
  boundary : ∀ piece ∈ pieces.tail, piece.1 % pageSize = 0
  count : pieces.length = pagesTouched pageSize start bytes.length

/-- A transfer whose calls all succeed makes all of them. -/
theorem transfer_of_ok {status : Nat → EepromStatus} (pieces : List (Nat × List (BitVec 8)))
    (calls : List WriteCall) (ok : ∀ k < pieces.length, status (calls.length + k) = .ok) :
    transfer (record status) pieces calls = (.ok, calls ++ pieces.map call) := by
  induction pieces generalizing calls with
  | nil => simp [transfer]
  | cons piece pieces ih =>
      have first : status calls.length = .ok := ok 0 (Nat.succ_pos _)
      rw [transfer, record, if_neg (by simp [first]), ih]
      · simp [call]
      · intro k below
        have later := ok (k + 1) (Nat.succ_lt_succ below)
        rwa [List.length_append, List.length_singleton, Nat.add_assoc, Nat.add_comm 1]

/-- A transfer ends with the first call that fails. -/
theorem transfer_of_failed {status : Nat → EepromStatus}
    (pieces : List (Nat × List (BitVec 8))) (calls : List WriteCall) {k : Nat}
    (within : k < pieces.length) (ok : ∀ j < k, status (calls.length + j) = .ok)
    (failed : status (calls.length + k) ≠ .ok) :
    transfer (record status) pieces calls =
      (status (calls.length + k), calls ++ (pieces.take (k + 1)).map call) := by
  induction pieces generalizing calls k with
  | nil => exact absurd within (Nat.not_lt_zero k)
  | cons piece pieces ih =>
      cases k with
      | zero =>
          rw [transfer, record, if_pos (by simpa using failed)]
          simp [call]
      | succ k =>
          have first : status calls.length = .ok := ok 0 (Nat.succ_pos _)
          have place : (calls ++ [call piece]).length + k = calls.length + (k + 1) := by
            rw [List.length_append, List.length_singleton, Nat.add_assoc, Nat.add_comm 1]
          rw [transfer, record, if_neg (by simp [first])]
          change transfer _ pieces (calls ++ [call piece]) = _
          rw [ih (calls ++ [call piece]) (Nat.lt_of_succ_lt_succ within) _ (by rwa [place]), place]
          · simp
          · intro j below
            have earlier := ok (j + 1) (Nat.succ_lt_succ below)
            rwa [List.length_append, List.length_singleton, Nat.add_assoc, Nat.add_comm 1]

/-- `m24c32_write` makes a call for each piece of the data.  When all succeed it returns
`EEPROM_OK`; otherwise the first that fails is the last, and its status is returned. -/
theorem m24c32_write_splits (addr len : UInt16) (data : List (BitVec 8))
    (stored : len.toNat ≤ data.length) :
    ∃ pieces, CutAtPages addr.toNat (data.take len.toNat) pieces ∧
      ∀ status : Nat → EepromStatus,
        ((∀ k < pieces.length, status k = .ok) →
          m24c32Write (some (recorder status)) addr (some data) len [] =
            (.ok, pieces.map call)) ∧
        ∀ k < pieces.length, (∀ j < k, status j = .ok) → status k ≠ .ok →
          m24c32Write (some (recorder status)) addr (some data) len [] =
            (status k, (pieces.take (k + 1)).map call) := by
  obtain ⟨pieces, split, calls⟩ :=
    writeLoop_eq_transfer (σ := List WriteCall) addr.toNat 0 stored
  rw [List.drop_zero] at split
  refine ⟨pieces, ⟨split.inside, split.consecutive, split.flatten, split.aligned,
    split.length_eq⟩, ?_⟩
  intro status
  have executed : m24c32Write (some (recorder status)) addr (some data) len [] =
      transfer (record status) pieces [] := by
    rw [← calls, UInt16.ofNat_toNat]
    rfl
  rw [executed]
  constructor
  · intro ok
    exact transfer_of_ok pieces [] (by simpa using ok)
  · intro k within ok failed
    have ended := transfer_of_failed pieces [] within (by simpa using ok)
      (by simpa using failed)
    simpa using ended

/-- Five bytes from address 30 on are two calls. -/
theorem m24c32_write_splits_example :
    ∃ pieces, CutAtPages 30 [1, 2, 3, 4, 5] pieces ∧
      ∀ status : Nat → EepromStatus,
        ((∀ k < pieces.length, status k = .ok) →
          m24c32Write (some (recorder status)) 30 (some [1, 2, 3, 4, 5]) 5 [] =
            (.ok, pieces.map call)) ∧
        ∀ k < pieces.length, (∀ j < k, status j = .ok) → status k ≠ .ok →
          m24c32Write (some (recorder status)) 30 (some [1, 2, 3, 4, 5]) 5 [] =
            (status k, (pieces.take (k + 1)).map call) :=
  m24c32_write_splits 30 5 [1, 2, 3, 4, 5] (by decide)

end EmbeddedBase.General.M24c32
