import EmbeddedBase.Data.Timestamp

/-!
# The PTP clock of the STM32H5

The model of `nx_ptp_client_hard_clock_callback` in `u_rtc.c` over the timestamp unit of
the MAC, and of the functions of `u_nx_ethernet.c` that read the clock.  The clock may
advance between two register reads: what it does then is a parameter of the callback.
-/

namespace EmbeddedBase.NetX

open EmbeddedBase.Data

/-- The registers of the timestamp unit: the time seen in `MACSTSR` and `MACSTNR`, and
the two update registers. -/
structure Mac where
  time : Timestamp
  macstsur : BitVec 32
  macstnur : BitVec 32
  deriving DecidableEq

namespace Mac

/-- `MACSTSR`. -/
def macstsr (mac : Mac) : BitVec 32 :=
  mac.time.seconds

/-- `MACSTNR`. -/
def macstnr (mac : Mac) : BitVec 32 :=
  mac.time.nanoseconds

/-- The clock advances. -/
def advance (elapsed : Nat) (mac : Mac) : Mac :=
  { mac with time := .ofTotal (mac.time.total + elapsed) }

theorem macstsur_advance (elapsed : Nat) (mac : Mac) :
    (mac.advance elapsed).macstsur = mac.macstsur := by
  cases mac
  rfl

theorem valid_advance (elapsed : Nat) (mac : Mac) : (mac.advance elapsed).time.Valid :=
  Timestamp.valid_ofTotal _

theorem total_advance (elapsed : Nat) (mac : Mac) :
    (mac.advance elapsed).time.total = (mac.time.total + elapsed) % Timestamp.span :=
  Timestamp.total_ofTotal _

/-- `ETH_MACSTNUR_ADDSUB`. -/
def addsub : BitVec 32 := 0x80000000

/-- What the unit does when `TSINIT` is set: load the update registers. -/
def tsinit (mac : Mac) : Mac :=
  { mac with time := ⟨mac.macstsur, mac.macstnur &&& 0x7FFFFFFF⟩ }

/-- What the unit does when `TSUPDT` is set: add the update registers, or with `ADDSUB`
set subtract what they are the complement of. -/
def tsupdt (mac : Mac) : Mac :=
  let nanoseconds := mac.macstnur &&& 0x7FFFFFFF
  if mac.macstnur &&& addsub ≠ 0 then
    { mac with time := mac.time.sub (0 - mac.macstsur) (1000000000 - nanoseconds) }
  else
    { mac with time := mac.time.add mac.macstsur nanoseconds }

end Mac

/-- `NX_PTP_TIME`. -/
structure PtpTime where
  secondHigh : BitVec 32
  secondLow : BitVec 32
  nanosecond : BitVec 32
  deriving DecidableEq

/-- `NX_PTP_CLIENT_CLOCK_…`. -/
inductive PtpOperation where
  | clockInit
  | clockSet
  | clockGet
  | clockAdjust
  | packetTsExtract
  | packetTsPrepare
  | softTimerUpdate
  deriving DecidableEq

/-- What the callback leaves: the time at `time_ptr`, the time passed to
`nx_ptp_client_packet_timestamp_notify`, and the registers. -/
structure CallbackResult where
  time : PtpTime
  notified : Option PtpTime
  mac : Mac
  deriving DecidableEq

/-- The two register reads, with whatever the clock does in between. -/
def readClock (elapse : Mac → Mac) (mac : Mac) : PtpTime × Mac :=
  let nanosecond := mac.macstnr
  let mac := elapse mac
  (⟨0, mac.macstsr, nanosecond⟩, mac)

/-- `nx_ptp_client_hard_clock_callback`. -/
def nxPtpClientHardClockCallback (elapse : Mac → Mac) (operation : PtpOperation)
    (time : PtpTime) (mac : Mac) : CallbackResult :=
  match operation with
  | .clockInit =>
      let mac := { mac with macstnur := 0 }
      let mac := { mac with macstsur := 1000000000 }
      let mac := mac.tsinit
      ⟨time, none, { mac with macstsur := 0 }⟩
  | .clockSet =>
      let mac := { mac with macstnur := time.nanosecond }
      let mac := { mac with macstsur := time.secondLow }
      let mac := mac.tsinit
      ⟨time, none, { mac with macstsur := 0 }⟩
  | .packetTsExtract | .clockGet =>
      let (time, mac) := readClock elapse mac
      ⟨time, none, mac⟩
  | .clockAdjust =>
      let mac :=
        if 0 ≤ time.nanosecond.toInt then
          { mac with macstnur := time.nanosecond }
        else
          let complement := 1000000000 - time.nanosecond.abs
          let mac := { mac with macstnur := complement }
          { mac with macstnur := mac.macstnur ||| Mac.addsub }
      ⟨time, none, mac.tsupdt⟩
  | .packetTsPrepare =>
      let (time, mac) := readClock elapse mac
      ⟨time, some time, mac⟩
  | .softTimerUpdate => ⟨time, none, mac⟩

/-- `NX_SUCCESS`, `U_SUCCESS` and `U_ERROR`. -/
inductive Status where
  | success
  | error
  deriving DecidableEq

/-- `_nx_ptp_client_time_get`, with the callback installed. -/
def nxPtpClientTimeGet (elapse : Mac → Mac) (time : PtpTime) (mac : Mac) :
    Status × CallbackResult :=
  (.success, nxPtpClientHardClockCallback elapse .clockGet time mac)

/-- `ethernet_get_time`; `isInitialized` is `device.is_initialized`. -/
def ethernetGetTime (elapse : Mac → Mac) (isInitialized : Bool) (time : PtpTime)
    (mac : Mac) : Status × CallbackResult :=
  if isInitialized then
    nxPtpClientTimeGet elapse time mac
  else
    (.error, ⟨time, none, mac⟩)

/-- `ethernet_ptp_get_unix_microseconds`; `time` is the uninitialised local. -/
def ethernetPtpGetUnixMicroseconds (elapse : Mac → Mac) (isInitialized : Bool)
    (time : PtpTime) (buffer : BitVec 64) (mac : Mac) : (Status × BitVec 64) × Mac :=
  let (status, result) := ethernetGetTime elapse isInitialized time mac
  if status ≠ .success then
    ((status, buffer), result.mac)
  else
    let microseconds := result.time.secondLow.setWidth 64 * 1000000 +
      (result.time.nanosecond.sdiv 1000).signExtend 64
    ((.success, microseconds), result.mac)

end EmbeddedBase.NetX
