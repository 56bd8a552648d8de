import EmbeddedBase.Data.Reader
import EmbeddedBase.Data.Words
import EmbeddedBase.NetX.Rtc

/-!
# PTP messages

The reading of headers, timestamps and announcements in `nxd_ptp_client.c`, and the bytes
of a delay request.  A reader that moves past the end of the packet has no result.
-/

namespace EmbeddedBase.NetX

open EmbeddedBase.Data

/-- A byte of a packet. -/
abbrev UChar :=
  BitVec 8

/-! ## Fields -/

/-- `NX_PTP_RD16`. -/
def ptpRd16 : Reader UChar (BitVec 16) := do
  let t := (← Reader.next).setWidth 16
  let t := t <<< 8
  return t ||| (← Reader.next).setWidth 16

/-- `NX_PTP_RD32`. -/
def ptpRd32 : Reader UChar (BitVec 32) := do
  let t := (← Reader.next).setWidth 32
  let t := t <<< 8
  let t := t ||| (← Reader.next).setWidth 32
  let t := t <<< 8
  let t := t ||| (← Reader.next).setWidth 32
  let t := t <<< 8
  return t ||| (← Reader.next).setWidth 32

/-- `_nx_ptp_msg_parse_timestamp`. -/
def nxPtpMsgParseTimestamp : Reader UChar PtpTime := do
  let secondHigh ← ptpRd16
  let secondLow ← ptpRd32
  let nanoseconds ← ptpRd32
  return ⟨secondHigh.setWidth 32, secondLow, nanoseconds⟩

/-- `NX_PTP_MSG_HEADER`. -/
structure PtpMsgHeader where
  transportSpecific : UChar
  messageType : UChar
  versionPTP : UChar
  domainNumber : UChar
  messageLength : BitVec 16
  flagField : BitVec 16
  cFieldHigh : BitVec 32
  cFieldLow : BitVec 32
  sourcePortIdentity : List UChar
  sequenceId : BitVec 16
  logMessageInterval : UChar
  deriving DecidableEq

/-- The reads of `_nx_ptp_msg_parse_hdr`. -/
def readHeader : Reader UChar PtpMsgHeader := do
  let b ← Reader.next
  let transportSpecific := b >>> 4
  let messageType := b &&& 0xf
  let b ← Reader.next
  let versionPTP := b &&& 0xf
  let messageLength ← ptpRd16
  let domainNumber ← Reader.next
  Reader.skip 1
  let flagField ← ptpRd16
  let cFieldHigh ← ptpRd32
  let cFieldLow ← ptpRd32
  Reader.skip 4
  let sourcePortIdentity ← Reader.take 10
  let sequenceId ← ptpRd16
  Reader.skip 1
  let logMessageInterval ← Reader.next
  return { transportSpecific, messageType, versionPTP, domainNumber, messageLength, flagField,
           cFieldHigh, cFieldLow, sourcePortIdentity, sequenceId, logMessageInterval }

/-- The fields of `NX_PTP_CLIENT_MASTER` that an announcement carries. -/
structure PtpClientMaster where
  priority1 : UChar
  clockClass : UChar
  clockAccuracy : UChar
  offsetScaledLogVariance : BitVec 16
  priority2 : UChar
  grandmasterIdentity : List UChar
  stepsRemoved : BitVec 16
  timeSource : UChar
  deriving DecidableEq

/-- `_nx_ptp_msg_parse_announce`. -/
def nxPtpMsgParseAnnounce : Reader UChar PtpClientMaster := do
  Reader.skip (10 + 2 + 1)
  let priority1 ← Reader.next
  let clockClass ← Reader.next
  let clockAccuracy ← Reader.next
  let offsetScaledLogVariance ← ptpRd16
  let priority2 ← Reader.next
  let grandmasterIdentity ← Reader.take 8
  let stepsRemoved ← ptpRd16
  let timeSource ← Reader.next
  return { priority1, clockClass, clockAccuracy, offsetScaledLogVariance, priority2,
           grandmasterIdentity, stepsRemoved, timeSource }

/-- `NX_PTP_MSG_UTC_OFFSET`. -/
def ptpMsgUtcOffset : Reader UChar (BitVec 16) := do
  Reader.skip 10
  ptpRd16

/-- The requesting port identity of a delay response, behind its timestamp. -/
def requestingPortIdentity : Reader UChar (List UChar) := do
  Reader.skip 10
  Reader.take 10

/-- The message `_nx_ptp_client_send_delay_req` writes. -/
def delayReqMessage (transportSpecific domain : UChar) (portIdentity : Vector UChar 10)
    (delayReqId : BitVec 16) : List UChar :=
  let start : List UChar := [1, 2, 0, 44, transportSpecific <<< 4 ||| domain]
  let sequenceId : List UChar := [(delayReqId >>> 8).setWidth 8, delayReqId.setWidth 8]
  start ++ (List.replicate 15 0 ++ (portIdentity.toList ++ (sequenceId ++ [0, 0]))) ++
    List.replicate 10 0

/-! ## Reads inside the packet -/

theorem takes_rd16 : Reader.Takes 2 ptpRd16 :=
  Reader.takes_next.bind fun _ => Reader.takes_next.bind fun _ => Reader.takes_pure _

theorem takes_rd32 : Reader.Takes 4 ptpRd32 :=
  Reader.takes_next.bind fun _ => Reader.takes_next.bind fun _ =>
    Reader.takes_next.bind fun _ => Reader.takes_next.bind fun _ => Reader.takes_pure _

theorem takes_parseTimestamp : Reader.Takes 10 nxPtpMsgParseTimestamp :=
  takes_rd16.bind fun _ => takes_rd32.bind fun _ => takes_rd32.bind fun _ =>
    Reader.takes_pure _

/-- The header is read from its 34 bytes. -/
theorem takes_readHeader : Reader.Takes 34 readHeader :=
  Reader.takes_next.bind fun _ => Reader.takes_next.bind fun _ =>
    takes_rd16.bind fun _ => Reader.takes_next.bind fun _ =>
    (Reader.takes_skip 1).bind fun _ => takes_rd16.bind fun _ =>
    takes_rd32.bind fun _ => takes_rd32.bind fun _ => (Reader.takes_skip 4).bind fun _ =>
    (Reader.takes_take 10).bind fun _ => takes_rd16.bind fun _ =>
    (Reader.takes_skip 1).bind fun _ => Reader.takes_next.bind fun _ => Reader.takes_pure _

/-- An announcement is read from its 30 bytes. -/
theorem takes_parseAnnounce : Reader.Takes 30 nxPtpMsgParseAnnounce :=
  (Reader.takes_skip 13).bind fun _ => Reader.takes_next.bind fun _ =>
    Reader.takes_next.bind fun _ => Reader.takes_next.bind fun _ =>
    takes_rd16.bind fun _ => Reader.takes_next.bind fun _ =>
    (Reader.takes_take 8).bind fun _ => takes_rd16.bind fun _ =>
    Reader.takes_next.bind fun _ => Reader.takes_pure _

theorem takes_utcOffset : Reader.Takes 12 ptpMsgUtcOffset :=
  (Reader.takes_skip 10).bind fun _ => takes_rd16

theorem takes_requestingPortIdentity : Reader.Takes 20 requestingPortIdentity :=
  (Reader.takes_skip 10).bind fun _ => Reader.takes_take 10

/-! ## Reading a request back -/

theorem reads_rd16 (high low : UChar) :
    Reader.Reads ptpRd16 [high, low] (high.setWidth 16 <<< 8 ||| low.setWidth 16) :=
  (Reader.reads_next high).bind ((Reader.reads_next low).bind (Reader.reads_pure _))

theorem reads_zeros (count : Nat) :
    Reader.Reads (Reader.skip count) (List.replicate count (0 : UChar)) ⟨⟩ :=
  Reader.reads_skip List.length_replicate

theorem reads_rd32_zero : Reader.Reads ptpRd32 [0, 0, 0, 0] 0 :=
  (Reader.reads_next 0).bind ((Reader.reads_next 0).bind
    ((Reader.reads_next 0).bind ((Reader.reads_next 0).bind (Reader.reads_pure _))))

/-- A number written as its high and its low byte. -/
theorem reads_rd16_bytes (number : BitVec 16) :
    Reader.Reads ptpRd16 [(number >>> 8).setWidth 8, number.setWidth 8] number := by
  have same : ((number >>> 8).setWidth 8).setWidth 16 <<< 8 |||
      (number.setWidth 8).setWidth 16 = number := by
    have bound := number.isLt
    apply BitVec.eq_of_toNat_eq
    rw [toNat_shift_or, BitVec.toNat_setWidth, BitVec.toNat_setWidth, BitVec.toNat_ushiftRight,
      Nat.shiftRight_eq_div_pow]
    omega
  have read := reads_rd16 ((number >>> 8).setWidth 8) (number.setWidth 8)
  rwa [same] at read

/-- The header of a delay request, as its receiver reads it. -/
def delayReqHeader (transportSpecific domain : UChar) (portIdentity : Vector UChar 10)
    (delayReqId : BitVec 16) : PtpMsgHeader where
  transportSpecific := 0
  messageType := 1
  versionPTP := 2
  domainNumber := transportSpecific <<< 4 ||| domain
  messageLength := 44
  flagField := 0
  cFieldHigh := 0
  cFieldLow := 0
  sourcePortIdentity := portIdentity.toList
  sequenceId := delayReqId
  logMessageInterval := 0

theorem readHeader_delayReqMessage (transportSpecific domain : UChar)
    (portIdentity : Vector UChar 10) (delayReqId : BitVec 16) :
    readHeader (delayReqMessage transportSpecific domain portIdentity delayReqId) =
      some (delayReqHeader transportSpecific domain portIdentity delayReqId,
        List.replicate 10 0) := by
  have reads : Reader.Reads readHeader _
      (delayReqHeader transportSpecific domain portIdentity delayReqId) :=
    (Reader.reads_next 1).bind <| (Reader.reads_next 2).bind <|
    (reads_rd16 0 44).bind <| (Reader.reads_next _).bind <|
    (reads_zeros 1).bind <| (reads_rd16 0 0).bind <|
    reads_rd32_zero.bind <| reads_rd32_zero.bind <|
    (reads_zeros 4).bind <|
    (Reader.reads_take (Vector.length_toList)).bind <|
    (reads_rd16_bytes delayReqId).bind <| (reads_zeros 1).bind <|
    (Reader.reads_next 0).bind <| Reader.reads_pure _
  exact reads (List.replicate 10 0)

end EmbeddedBase.NetX
