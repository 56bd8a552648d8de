import EmbeddedBase.Platforms.Stm32g431.Fdcan
import EmbeddedBase.Platforms.Stm32h563.Fdcan

/-!
# Sending CAN messages on the three platforms

The models of the three functions `can_send_msg`, over any HAL.  Only the one of the STM32H563
checks the length of a message; the other two hand every message on, also one that is longer
than its data.
-/

namespace EmbeddedBase.Platforms

universe u

/-! ## STM32F405 -/

namespace Stm32f405

variable {σ : Type u}

/-- `can_msg_t`. -/
structure CanMsg where
  id : BitVec 32
  idIsExtended : Bool
  data : Vector (BitVec 8) 8
  len : BitVec 8

/-- `CAN_ID_STD` and `CAN_ID_EXT`. -/
inductive Ide
  | std
  | ext
  deriving DecidableEq

/-- The fields of `CAN_TxHeaderTypeDef` the driver varies; one of the two identifiers stays
uninitialised. -/
structure CanTxHeader where
  ide : Ide
  stdId : Option (BitVec 32)
  extId : Option (BitVec 32)
  dlc : BitVec 32
  deriving DecidableEq

/-- The header of a message. -/
def txHeader (msg : CanMsg) : CanTxHeader :=
  if msg.idIsExtended then
    { ide := .ext, stdId := none, extId := some msg.id, dlc := msg.len.setWidth 32 }
  else
    { ide := .std, stdId := some msg.id, extId := none, dlc := msg.len.setWidth 32 }

/-- `can_send_msg`; `freeLevel` is what `HAL_CAN_GetTxMailboxesFreeLevel` returns, and
`addTxMessage` is `HAL_CAN_AddTxMessage`. -/
def canSendMsg (freeLevel : BitVec 32)
    (addTxMessage : CanTxHeader → Vector (BitVec 8) 8 → σ → HalStatus × σ) (hcan : σ)
    (msg : CanMsg) : HalStatus × σ :=
  if freeLevel = 0 then (.busy, hcan)
  else
    let added := addTxMessage (txHeader msg) msg.data hcan
    if added.1 ≠ .ok then (.error, added.2) else (.ok, added.2)

end Stm32f405

/-! ## STM32G431 -/

namespace Stm32g431

variable {σ : Type u}

/-- `can_msg_t`. -/
structure CanMsg where
  id : BitVec 32
  data : Vector (BitVec 8) 8
  len : BitVec 8

/-- The fields of `FDCAN_TxHeaderTypeDef` the driver varies; the identifier type is always
`FDCAN_STANDARD_ID`. -/
structure TxHeader where
  identifier : BitVec 32
  dataLength : BitVec 32
  deriving DecidableEq

/-- `can_send_msg`; `freeLevel` is what `HAL_FDCAN_GetTxFifoFreeLevel` returns, and
`addMessage` is `HAL_FDCAN_AddMessageToTxFifoQ`. -/
def canSendMsg (freeLevel : BitVec 32)
    (addMessage : TxHeader → Vector (BitVec 8) 8 → σ → HalStatus × σ) (hcan : σ)
    (msg : CanMsg) : HalStatus × σ :=
  let txHeader : TxHeader := { identifier := msg.id, dataLength := msg.len.setWidth 32 }
  if freeLevel = 0 then (.busy, hcan)
  else
    let added := addMessage txHeader msg.data hcan
    if added.1 ≠ .ok then (.error, added.2) else (.ok, added.2)

end Stm32g431

/-! ## STM32H563 -/

namespace Stm32h563

variable {σ : Type u}

/-- `can_send_msg` over any HAL. -/
def sendOver (freeLevel : BitVec 32) (addMessage : TxMessage → σ → HalStatus × σ) (hcan : σ)
    (msg : CanMsg) : HalStatus × σ :=
  if 8 < msg.len.toNat then (.error, hcan)
  else
    let message : TxMessage :=
      { identifier := msg.id
        idType := if msg.idIsExtended then .extended else .standard
        dataLength := msg.len
        data := msg.data }
    if freeLevel = 0 then (.busy, hcan) else addMessage message hcan

/-- `can_send_msg` is this function over the HAL of the peripheral. -/
theorem canSendMsg_eq_sendOver (freeLevel : BitVec 32) (result : Nat → HalResult) (can : Can)
    (msg : CanMsg) :
    canSendMsg freeLevel result can msg =
      let sent := sendOver freeLevel
        (fun message => halCalls result 0 [Fdcan.addMessageToTxFifoQ message]) can.fdcan msg
      (sent.1, { can with fdcan := sent.2 }) := by
  rw [canSendMsg, sendOver]
  by_cases long : 8 < msg.len.toNat
  · rw [if_pos long, if_pos long]
  · rw [if_neg long, if_neg long]
    by_cases full : freeLevel = 0
    · simp only [if_pos full]
    · simp only [if_neg full]

end Stm32h563

/-! ## Frames -/

/-- A message for any of the platforms. -/
structure Message where
  id : BitVec 32
  idIsExtended : Bool
  data : Vector (BitVec 8) 8
  len : BitVec 8

/-- A frame as it is handed to the HAL, with the array that its data is taken from. -/
structure Frame where
  identifier : Option (BitVec 32)
  extended : Bool
  dataLength : Nat
  data : List (BitVec 8)
  deriving DecidableEq

/-- A HAL that records the frames it is handed and answers `added`. -/
def record {α : Type u} (added : HalStatus) (frame : α → Frame) (message : α)
    (handed : List Frame) : HalStatus × List Frame :=
  (added, handed ++ [frame message])

/-- A frame for the STM32F405. -/
def frameOfHeader (header : Stm32f405.CanTxHeader × Vector (BitVec 8) 8) : Frame :=
  { identifier := if header.1.ide = .ext then header.1.extId else header.1.stdId
    extended := decide (header.1.ide = .ext)
    dataLength := header.1.dlc.toNat
    data := header.2.toList }

/-- A frame for the STM32G431. -/
def frameOfStandard (header : Stm32g431.TxHeader × Vector (BitVec 8) 8) : Frame :=
  { identifier := some header.1.identifier
    extended := false
    dataLength := header.1.dataLength.toNat
    data := header.2.toList }

/-- A frame for the STM32H563. -/
def frameOfMessage (message : Stm32h563.TxMessage) : Frame :=
  { identifier := some message.identifier
    extended := decide (message.idType = .extended)
    dataLength := message.dataLength.toNat
    data := message.data }

/-- The platforms. -/
inductive Platform
  | stm32f405
  | stm32g431
  | stm32h563
  deriving DecidableEq

namespace Platform

/-- What `can_send_msg` returns on a platform, and the frames it hands to the HAL. -/
def send (freeLevel : BitVec 32) (added : HalStatus) (msg : Message) :
    Platform → HalStatus × List Frame
  | stm32f405 =>
      Stm32f405.canSendMsg freeLevel
        (fun header data => record added frameOfHeader (header, data)) []
        { id := msg.id, idIsExtended := msg.idIsExtended, data := msg.data, len := msg.len }
  | stm32g431 =>
      Stm32g431.canSendMsg freeLevel
        (fun header data => record added frameOfStandard (header, data)) []
        { id := msg.id, data := msg.data, len := msg.len }
  | stm32h563 =>
      Stm32h563.sendOver freeLevel (record added frameOfMessage) []
        { id := msg.id, idIsExtended := msg.idIsExtended, data := msg.data.toList, len := msg.len }

/-- The format a message asks for; the STM32G431 has the standard one only. -/
def extended (msg : Message) : Platform → Bool
  | stm32f405 => msg.idIsExtended
  | stm32g431 => false
  | stm32h563 => msg.idIsExtended

end Platform

/-- The frame that carries a message whole. -/
def wholeFrame (platform : Platform) (msg : Message) : Frame :=
  { identifier := some msg.id
    extended := platform.extended msg
    dataLength := msg.len.toNat
    data := msg.data.toList }

/-- A call hands on frames inside their data only, and refuses what it cannot send. -/
structure SendsInside (platform : Platform) (freeLevel : BitVec 32) (added : HalStatus)
    (msg : Message) : Prop where
  inside : ∀ frame ∈ (platform.send freeLevel added msg).2,
    msg.len.toNat ≤ 8 ∧ frame = wholeFrame platform msg
  busy : freeLevel = 0 → platform.send freeLevel added msg = (.busy, [])
  long : 8 < msg.len.toNat → platform.send freeLevel added msg = (.error, [])

/-! ## What is sent -/

theorem toNat_setWidth_len (msg : Message) : (msg.len.setWidth 32).toNat = msg.len.toNat := by
  have byte := msg.len.isLt
  rw [BitVec.toNat_setWidth]
  omega

theorem frameOfHeader_whole (msg : Message) :
    frameOfHeader (Stm32f405.txHeader
        { id := msg.id, idIsExtended := msg.idIsExtended, data := msg.data, len := msg.len },
      msg.data) = wholeFrame .stm32f405 msg := by
  have length := toNat_setWidth_len msg
  rw [frameOfHeader, wholeFrame, Platform.extended, Stm32f405.txHeader]
  cases msg.idIsExtended <;> simp [length]

theorem frameOfStandard_whole (msg : Message) :
    frameOfStandard ({ identifier := msg.id, dataLength := msg.len.setWidth 32 }, msg.data) =
      wholeFrame .stm32g431 msg := by
  rw [frameOfStandard, wholeFrame, toNat_setWidth_len]
  rfl

/-- The two platforms without a check hand every message on while there is room. -/
theorem send_unchecked {platform : Platform} (unchecked : platform ≠ .stm32h563)
    (freeLevel : BitVec 32) (added : HalStatus) (msg : Message) :
    platform.send freeLevel added msg =
      if freeLevel = 0 then (.busy, [])
      else (if added ≠ .ok then .error else .ok, [wholeFrame platform msg]) := by
  cases platform with
  | stm32f405 =>
      rw [Platform.send, Stm32f405.canSendMsg]
      simp only [record, List.nil_append, frameOfHeader_whole]
      split_ifs <;> rfl
  | stm32g431 =>
      rw [Platform.send, Stm32g431.canSendMsg]
      simp only [record, List.nil_append, frameOfStandard_whole]
      split_ifs <;> rfl
  | stm32h563 => exact absurd rfl unchecked

theorem send_checked (freeLevel : BitVec 32) (added : HalStatus) (msg : Message) :
    Platform.stm32h563.send freeLevel added msg =
      if 8 < msg.len.toNat then (.error, [])
      else if freeLevel = 0 then (.busy, [])
      else (added, [wholeFrame .stm32h563 msg]) := by
  have whole : frameOfMessage
      { identifier := msg.id
        idType := if msg.idIsExtended then .extended else .standard
        dataLength := msg.len
        data := msg.data.toList } = wholeFrame .stm32h563 msg := by
    rw [frameOfMessage, wholeFrame, Platform.extended]
    cases msg.idIsExtended <;> simp
  rw [Platform.send, Stm32h563.sendOver]
  simp only [record, List.nil_append, whole]

/-- A message that fits is handed on whole, or there is no room for it. -/
theorem sendsInside_of_short (platform : Platform) (freeLevel : BitVec 32) (added : HalStatus)
    {msg : Message} (short : msg.len.toNat ≤ 8) :
    SendsInside platform freeLevel added msg := by
  have outcome : ∃ status, platform.send freeLevel added msg =
      if freeLevel = 0 then (.busy, []) else (status, [wholeFrame platform msg]) := by
    by_cases checked : platform = .stm32h563
    · subst checked
      exact ⟨added, (send_checked freeLevel added msg).trans (if_neg (Nat.not_lt.mpr short))⟩
    · exact ⟨_, send_unchecked checked freeLevel added msg⟩
  rcases outcome with ⟨status, sent⟩
  refine ⟨?_, ?_, fun long => absurd short (Nat.not_le.mpr long)⟩
  · intro frame handed
    rw [sent] at handed
    by_cases full : freeLevel = 0
    · rw [if_pos full] at handed
      cases handed
    · rw [if_neg full] at handed
      exact ⟨short, List.mem_singleton.mp handed⟩
  · intro full
    rw [sent, if_pos full]

/-- When a call of `can_send_msg` stays inside the data: the message is at most eight bytes
long, or the STM32H563 refuses it with room left. -/
theorem can_send_msg_inside_iff (platform : Platform) (freeLevel : BitVec 32)
    (added : HalStatus) (msg : Message) :
    SendsInside platform freeLevel added msg ↔
      msg.len.toNat ≤ 8 ∨ platform = .stm32h563 ∧ freeLevel ≠ 0 := by
  by_cases short : msg.len.toNat ≤ 8
  · exact ⟨fun _ => .inl short, fun _ => sendsInside_of_short platform freeLevel added short⟩
  · have long : 8 < msg.len.toNat := Nat.not_le.mp short
    constructor
    · intro sends
      have refused := sends.long long
      by_cases checked : platform = .stm32h563
      · refine .inr ⟨checked, ?_⟩
        intro full
        have busy := (sends.busy full).symm.trans refused
        cases busy
      · rw [send_unchecked checked] at refused
        by_cases full : freeLevel = 0
        · rw [if_pos full] at refused
          cases refused
        · rw [if_neg full] at refused
          exact absurd (congrArg Prod.snd refused) (List.cons_ne_nil _ _)
    · rintro (fits | ⟨rfl, room⟩)
      · exact absurd fits short
      · have refused := (send_checked freeLevel added msg).trans (if_pos long)
        refine ⟨?_, fun full => absurd full room, fun _ => refused⟩
        intro frame handed
        rw [refused] at handed
        cases handed

/-- Nine bytes are handed to the HAL of the STM32F405 and of the STM32G431. -/
theorem nine_bytes_handed :
    (Platform.stm32f405.send 3 .ok ⟨0x123, false, Vector.replicate 8 0, 9⟩).2 =
        [⟨some 0x123, false, 9, List.replicate 8 0⟩] ∧
      (Platform.stm32g431.send 3 .ok ⟨0x123, false, Vector.replicate 8 0, 9⟩).2 =
        [⟨some 0x123, false, 9, List.replicate 8 0⟩] ∧
      ¬SendsInside .stm32f405 3 .ok ⟨0x123, false, Vector.replicate 8 0, 9⟩ ∧
      ¬SendsInside .stm32g431 3 .ok ⟨0x123, false, Vector.replicate 8 0, 9⟩ := by
  have handed (platform : Platform) (unchecked : platform ≠ .stm32h563) :
      platform.send 3 .ok ⟨0x123, false, Vector.replicate 8 0, 9⟩ =
        (.ok, [wholeFrame platform ⟨0x123, false, Vector.replicate 8 0, 9⟩]) :=
    (send_unchecked unchecked 3 .ok _).trans (if_neg (by decide))
  refine ⟨?_, ?_, ?_, ?_⟩
  · rw [handed _ (by decide)]
    rfl
  · rw [handed _ (by decide)]
    rfl
  · intro sends
    have refused := sends.long (by decide)
    rw [handed _ (by decide)] at refused
    cases refused
  · intro sends
    have refused := sends.long (by decide)
    rw [handed _ (by decide)] at refused
    cases refused

end EmbeddedBase.Platforms
