import EmbeddedBase.NetX.PtpClient.Clock
import EmbeddedBase.NetX.PtpClient.Message
import EmbeddedBase.Transition.Faulting

/-!
# The PTP client

The packet and timer handling of `nxd_ptp_client.c` in the configuration of this
repository: slave only, over UDP.  A packet is handled with what the packet pool and the
socket answer, and through a clock callback.  No packet makes the client read outside of
it, so the handling is a machine.
-/

namespace EmbeddedBase.NetX

open EmbeddedBase.Data
open EmbeddedBase.Transition

/-- `NX_PTP_CLIENT_STATE_…`. -/
inductive PtpClientState where
  | listening
  | waitSync
  | waitFollowUp
  | slave
  | master
  deriving DecidableEq

/-- `NX_PTP_CLIENT_DELAY_…`. -/
inductive PtpDelayState where
  | idle
  | waitReqTs
  | waitResp
  deriving DecidableEq

/-- The fields of `NX_PTP_CLIENT` that the handling uses, and the clock behind the clock
callback. -/
structure PtpClient (κ : Type) where
  interfaceIndex : Nat
  domain : UChar
  transportSpecific : UChar
  portIdentity : Vector UChar 10
  eventCallback : Bool
  state : PtpClientState
  delayState : PtpDelayState
  syncFlags : BitVec 16
  utcOffset : BitVec 16
  masterAddr : BitVec 32
  masterPortIdentity : List UChar
  prevSync : PtpTime
  prevSyncTs : PtpTime
  sync : PtpTime
  syncTs : PtpTime
  syncId : BitVec 16
  delayReqId : BitVec 16
  delayReqTimer : Int
  announceTimeout : Int
  delayReqFlag : Bool
  delayTs : PtpTime
  delayReqPacketPtr : Option Nat
  clock : κ

/-- A received packet: whether it is chained, its bytes, and what
`nxd_udp_packet_info_extract` finds. -/
structure PtpPacket where
  chained : Bool
  message : List UChar
  source : Option (BitVec 32 × Nat)

/-- What the handling of a packet meets: the packet the pool allocates, whether the send
succeeds, and for the adjustment of the clock an uninitialised local and what the clock
does meanwhile. -/
structure PtpEnv (κ : Type) where
  packetPtr : Option Nat
  sent : Bool
  current : PtpTime
  meanwhile : κ → κ

/-- What the handling does to the outside. -/
inductive PtpEffect where
  | send (message : List UChar)
  | adjust (offset : PtpTime)
  | eventMaster (master : PtpClientMaster) (address : BitVec 32) (portIdentity : List UChar)
  | eventSync (flags utcOffset : BitVec 16)
  | eventTimeout
  deriving DecidableEq

/-- `NX_PTP_CLIENT_ANNOUNCE_EXPIRATION`. -/
def announceExpiration : Int := 600

/-- `NX_PTP_CLIENT_DELAY_REQ_INTERVAL`. -/
def delayReqInterval : Int := 200

/-- `NX_PTP_CLIENT_SYNC_CALIBRATED`, `…_UTC_REASONABLE`, `…_LEAP59` and `…_LEAP61`. -/
def syncCalibrated : BitVec 16 := 1
@[inherit_doc syncCalibrated] def syncUtcReasonable : BitVec 16 := 2
@[inherit_doc syncCalibrated] def syncLeap59 : BitVec 16 := 4
@[inherit_doc syncCalibrated] def syncLeap61 : BitVec 16 := 8

section

variable {κ : Type}

/-! ## Packets -/

/-- `_nx_ptp_msg_parse_hdr`: the header and the rest of the message, unless the packet is
discarded. -/
def nxPtpMsgParseHdr (client : PtpClient κ) (packet : PtpPacket) :
    Option (PtpClient κ × Option (PtpMsgHeader × List UChar)) := do
  if packet.chained then
    return (client, none)
  let len := packet.message.length
  if len < 34 then
    return (client, none)
  if (← packet.message[1]?) &&& 0xf ≠ 2 ∨ (← packet.message[4]?) ≠ client.domain then
    return (client, none)
  match packet.source with
  | none => return (client, none)
  | some (srcAddr, interfaceIndex) =>
      if interfaceIndex ≠ client.interfaceIndex then
        return (client, none)
      let client :=
        if client.state = .listening then { client with masterAddr := srcAddr } else client
      let (hdr, ptr) ← readHeader packet.message
      if hdr.messageLength.toNat < len then
        if hdr.messageLength.toNat < 34 then
          return (client, none)
        return (client, some (hdr, ptr.take (hdr.messageLength.toNat - 34)))
      return (client, some (hdr, ptr))

/-- `_nx_ptp_client_packet_timestamp_notify`. -/
def nxPtpClientPacketTimestampNotify (client : PtpClient κ) (packetPtr : Nat)
    (timestamp : PtpTime) : PtpClient κ :=
  if client.delayState = .waitReqTs ∧ client.delayReqPacketPtr = some packetPtr then
    { client with delayTs := timestamp, delayState := .waitResp }
  else
    client

/-- The timestamp of an outgoing packet, prepared through the clock callback. -/
def packetTsPrepare (callback : ClockCallback κ) (client : PtpClient κ) (packetPtr : Nat) :
    PtpClient κ :=
  let result := callback .packetTsPrepare client.delayTs client.clock
  let client := { client with delayTs := result.time, clock := result.clock }
  match result.notified with
  | none => client
  | some timestamp => nxPtpClientPacketTimestampNotify client packetPtr timestamp

/-- `_nx_ptp_client_send_delay_req`. -/
def nxPtpClientSendDelayReq (callback : ClockCallback κ) (env : PtpEnv κ)
    (client : PtpClient κ) : PtpClient κ × List PtpEffect :=
  match env.packetPtr with
  | none => (client, [])
  | some packetPtr =>
      let client := { client with delayReqId := client.delayReqId + 1 }
      let message := delayReqMessage client.transportSpecific client.domain
        client.portIdentity client.delayReqId
      let client :=
        { client with delayState := .waitReqTs, delayReqPacketPtr := some packetPtr }
      let client := packetTsPrepare callback client packetPtr
      if env.sent then
        ({ client with delayReqTimer := delayReqInterval, delayReqFlag := false },
          [.send message])
      else
        ({ client with delayState := .idle, delayReqPacketPtr := none }, [])

/-- The origin timestamp of a Sync with its correction: the start of
`_nx_ptp_client_sync_received`. -/
def correctedSync (hdr : PtpMsgHeader) (sync : PtpTime) : PtpTime :=
  let correctionNS : BitVec 64 := (hdr.cFieldHigh <<< 16 ||| hdr.cFieldLow >>> 16).setWidth 64
  if correctionNS ≠ 0 then
    nxPtpClientUtilityTimeSum sync
      ⟨0, (correctionNS / 1000000000).setWidth 32, (correctionNS % 1000000000).setWidth 32⟩
  else
    sync

/-- `_nx_ptp_client_sync_received`. -/
def nxPtpClientSyncReceived (callback : ClockCallback κ) (env : PtpEnv κ)
    (client : PtpClient κ) (ptr : List UChar) (hdr : PtpMsgHeader) :
    Option (PtpClient κ × List PtpEffect) := do
  let (sync, _) ← nxPtpMsgParseTimestamp ptr
  let client := { client with sync := correctedSync hdr sync }
  if client.delayReqFlag then
    return nxPtpClientSendDelayReq callback env client
  return (client, [])

/-- The offset computed by `_nx_ptp_client_delay_resp_received`. -/
def measuredOffset (t1 t2 t3 t4 : PtpTime) : PtpTime :=
  let a := nxPtpClientUtilityTimeDiff t2 t1
  let b := nxPtpClientUtilityTimeDiff t4 t3
  nxPtpClientUtilityTimeDivBy2 (nxPtpClientUtilityTimeDiff b a)

/-- `_nx_ptp_client_delay_resp_received`. -/
def nxPtpClientDelayRespReceived (callback : ClockCallback κ) (env : PtpEnv κ)
    (client : PtpClient κ) (ptr : List UChar) : Option (PtpClient κ × List PtpEffect) := do
  if client.sync.secondLow = 0 ∧ client.sync.secondHigh = 0 then
    return (client, [])
  let (t4, _) ← nxPtpMsgParseTimestamp ptr
  let a := measuredOffset client.sync client.syncTs client.delayTs t4
  let clock := nxPtpClientClockAdjust callback env.current env.meanwhile a client.clock
  let client := { client with clock := clock, delayState := .idle }
  if client.syncFlags &&& syncCalibrated = 0 then
    let client := { client with syncFlags := client.syncFlags ||| syncCalibrated }
    return (client, .adjust a ::
      if client.eventCallback then [.eventSync client.syncFlags client.utcOffset] else [])
  return (client, [.adjust a])

/-- The flags `_nx_ptp_client_init_packet_received` makes of a header's flag field. -/
def announcedFlags (flagField : BitVec 16) : BitVec 16 :=
  (if flagField &&& 4 ≠ 0 then syncUtcReasonable else 0) |||
    (if flagField &&& 2 ≠ 0 then syncLeap59 else 0) |||
    (if flagField &&& 1 ≠ 0 then syncLeap61 else 0)

/-- `_nx_ptp_client_init_packet_received`, called for announcements. -/
def nxPtpClientInitPacketReceived (client : PtpClient κ) (hdr : PtpMsgHeader)
    (ptr : List UChar) : Option (PtpClient κ × List PtpEffect) := do
  let flags := announcedFlags hdr.flagField
  let (utcOffset, _) ← ptpMsgUtcOffset ptr
  let (master, _) ← nxPtpMsgParseAnnounce ptr
  if client.state = .listening then
    let zero : PtpTime := ⟨0, 0, 0⟩
    return ({ client with
        syncFlags := flags
        utcOffset := utcOffset
        masterPortIdentity := hdr.sourcePortIdentity
        state := .slave
        delayState := .idle
        delayReqTimer := -1
        delayReqFlag := true
        prevSync := zero
        prevSyncTs := zero
        sync := zero
        syncTs := zero
        announceTimeout := announceExpiration },
      if client.eventCallback then
        [.eventMaster master client.masterAddr hdr.sourcePortIdentity] else [])
  else
    let client := { client with announceTimeout := announceExpiration }
    if client.syncFlags &&& ~~~syncCalibrated ≠ flags ∨ client.utcOffset ≠ utcOffset then
      let client := { client with
        syncFlags := (client.syncFlags &&& syncCalibrated) ||| flags
        utcOffset := utcOffset }
      return (client,
        if client.syncFlags &&& syncCalibrated ≠ 0 ∧ client.eventCallback then
          [.eventSync flags utcOffset] else [])
    return (client, [])

/-- `_nx_ptp_client_process_event_packet`. -/
def nxPtpClientProcessEventPacket (callback : ClockCallback κ) (env : PtpEnv κ)
    (client : PtpClient κ) (ptr : List UChar) (hdr : PtpMsgHeader) :
    Option (PtpClient κ × List PtpEffect) :=
  if client.state ≠ .slave ∨ ptr.length < 10 then
    some (client, [])
  else
    let client := { client with prevSync := client.sync, prevSyncTs := client.syncTs }
    let result := callback .packetTsExtract client.syncTs client.clock
    let client := { client with syncTs := result.time, clock := result.clock }
    if hdr.flagField &&& 0x200 ≠ 0 then
      some ({ client with syncId := hdr.sequenceId }, [])
    else
      nxPtpClientSyncReceived callback env client ptr hdr

/-- `_nx_ptp_client_process_general_packet`. -/
def nxPtpClientProcessGeneralPacket (callback : ClockCallback κ) (env : PtpEnv κ)
    (client : PtpClient κ) (ptr : List UChar) (hdr : PtpMsgHeader) :
    Option (PtpClient κ × List PtpEffect) := do
  if hdr.messageType = 11 then
    if ptr.length < 30 then
      return (client, [])
    nxPtpClientInitPacketReceived client hdr ptr
  else if hdr.messageType = 8 then
    if client.state ≠ .slave ∨ client.syncId ≠ hdr.sequenceId ∨ ptr.length < 10 then
      return (client, [])
    nxPtpClientSyncReceived callback env client ptr hdr
  else if hdr.messageType = 9 then
    if client.delayState ≠ .waitResp ∨ client.delayReqId ≠ hdr.sequenceId ∨
        ptr.length < 20 then
      return (client, [])
    let (requesting, _) ← requestingPortIdentity ptr
    if client.portIdentity.toList ≠ requesting then
      return (client, [])
    nxPtpClientDelayRespReceived callback env client ptr
  else
    return (client, [])

/-- One packet in the loop of `_nx_ptp_client_thread_entry`. -/
def processPacket (callback : ClockCallback κ) (env : PtpEnv κ) (client : PtpClient κ)
    (packet : PtpPacket) : Option (PtpClient κ × List PtpEffect) := do
  match ← nxPtpMsgParseHdr client packet with
  | (client, none) => return (client, [])
  | (client, some (hdr, ptr)) =>
      if client.state = .slave ∧ client.masterPortIdentity ≠ hdr.sourcePortIdentity then
        return (client, [])
      if hdr.messageType = 0 then
        nxPtpClientProcessEventPacket callback env client ptr hdr
      else
        nxPtpClientProcessGeneralPacket callback env client ptr hdr

/-! ## Timers -/

/-- The announce timeout in the timer event of `_nx_ptp_client_thread_entry`. -/
def announceTimer (client : PtpClient κ) : PtpClient κ × List PtpEffect :=
  if 0 < client.announceTimeout then
    let client := { client with announceTimeout := client.announceTimeout - 1 }
    if client.announceTimeout = 0 then
      ({ client with state := .listening, delayReqTimer := -1, announceTimeout := -1 },
        if client.eventCallback then [.eventTimeout] else [])
    else
      (client, [])
  else
    (client, [])

/-- The delay request interval in the same event. -/
def delayReqTimer (client : PtpClient κ) : PtpClient κ :=
  if 0 < client.delayReqTimer then
    let client := { client with delayReqTimer := client.delayReqTimer - 1 }
    if client.delayReqTimer = 0 then { client with delayReqFlag := true } else client
  else
    client

/-- The timer event. -/
def timerEvent (client : PtpClient κ) : PtpClient κ × List PtpEffect :=
  let (client, effects) := announceTimer client
  (delayReqTimer client, effects)

/-- The start of `_nx_ptp_client_thread_entry`. -/
def threadEntry (client : PtpClient κ) : PtpClient κ :=
  { client with delayReqTimer := -1, announceTimeout := announceExpiration, state := .listening }

/-! ## The client as a component -/

/-- What happens to the client: its thread handles a packet or a timer event, the driver
reports the timestamp of a sent packet, or the clock runs. -/
inductive PtpEvent (κ : Type) where
  | packet (packet : PtpPacket) (env : PtpEnv κ)
  | timer
  | notify (packetPtr : Nat) (timestamp : PtpTime)
  | clock (run : κ → κ)

/-- One event; it has no result when the client reads outside of a packet. -/
def ptpStep (callback : ClockCallback κ) : Faulting (PtpClient κ) (PtpEvent κ) (List PtpEffect) :=
  fun client event =>
    match event with
    | .packet packet env => (processPacket callback env client packet).map Prod.swap
    | .timer => some (timerEvent client).swap
    | .notify packetPtr timestamp =>
        some ([], nxPtpClientPacketTimestampNotify client packetPtr timestamp)
    | .clock run => some ([], { client with clock := run client.clock })

end

end EmbeddedBase.NetX
