import EmbeddedBase.NetX.PtpClient.Handling
import EmbeddedBase.NetX.PtpClient.Offset
import EmbeddedBase.NetX.PtpReads
import EmbeddedBase.Transition.Erasure

/-!
# How well the client follows its master

The client with its hardware clock beside the clock of its master.  Messages take a time between
two bounds, in both directions, both clocks run alike, and time passes while the client handles
a packet.  Over every run, from the first adjustment on, the two clocks differ by at most half of
what the bounds differ by, rounded up, and what the client takes to set its clock.
-/

namespace EmbeddedBase.NetX

open EmbeddedBase.Data
open EmbeddedBase.Transition

/-! ## Two clocks -/

/-- The clock of the master, by it when the client last stamped a packet that it received and
one that it sends, and the client's clock.  `torn` says that a second began between the two
register reads of some reading. -/
structure World where
  now : Int
  arrival : Int
  asked : Int
  torn : Bool
  mac : Mac

namespace World

/-- Time passes, alike for both clocks. -/
def advance (time : Nat) (world : World) : World :=
  { world with mac := world.mac.advance time, now := world.now + time }

/-- The client's clock is read, which takes a time. -/
def read (elapsed : Nat) (world : World) : World :=
  { world.advance elapsed with
    torn := world.torn || decide (1000000000 ≤ world.mac.macstnr.toNat + elapsed) }

/-- The client's clock is ahead of its master's. -/
def Ahead (world : World) (error : Int) : Prop :=
  Shows world.mac (.ofInt (world.now + error))

end World

/-- The time that passes before an operation of the callback, and between its register reads. -/
structure Pace where
  before : PtpOperation → Nat
  between : PtpOperation → Nat

/-- The callback over the hardware clock, in the world. -/
def worldCallback (pace : Pace) : ClockCallback World := fun operation time world =>
  let world := world.advance (pace.before operation)
  let elapsed := pace.between operation
  let result := hardClockCallback elapsed operation time world.mac
  let world :=
    match operation with
    | .packetTsExtract => { world.read elapsed with arrival := world.now }
    | .packetTsPrepare => { world.read elapsed with asked := world.now }
    | .clockGet => world.read elapsed
    | .clockInit | .clockSet | .clockAdjust | .softTimerUpdate => world
  ⟨result.time, result.notified, { world with mac := result.clock }⟩

/-- The counts that a clock of 32 bits of seconds shows. -/
def OnClock (count : Int) : Prop :=
  0 ≤ count ∧ count < 4294967296000000000

instance (count : Int) : Decidable (OnClock count) :=
  inferInstanceAs (Decidable (_ ∧ _))

theorem OnClock.ranged {count : Int} (onClock : OnClock count) : PtpTime.Ranged count := by
  rcases onClock with ⟨lower, upper⟩
  exact ⟨lower, by omega⟩

/-- What the callback reads from the hardware clock while no second begins. -/
theorem read_eq_shown {mac : Mac} {count : Int} {elapsed : Nat}
    (shows : Shows mac (.ofInt count)) (onClock : OnClock count)
    (untorn : mac.macstnr.toNat + elapsed < 1000000000) :
    (⟨0, (mac.advance elapsed).macstsr, mac.macstnr⟩ : PtpTime) = .shown count := by
  rcases onClock with ⟨lower, upper⟩
  have inside : ((Clock.ofInt count).count : Int) = count := by
    rw [Clock.count_ofInt]
    exact Int.emod_eq_of_lt lower upper
  have valid : mac.time.Valid := shows.2 ▸ Clock.valid_shown _
  have total : (mac.time.total : Int) = count := by
    rw [shows.2, Clock.total_shown, inside]
  have nanoseconds : mac.macstnr.toNat = mac.time.total % 1000000000 :=
    Timestamp.nanoseconds_eq valid
  have same : (⟨(mac.advance elapsed).macstsr, mac.macstnr⟩ : Timestamp) =
      .ofTotal (Clock.ofInt count).count := by
    rw [stamp_eq_ofTotal valid (by unfold Timestamp.span; omega)]
    apply congrArg
    omega
  rw [← inside, ← shown_of_lt (Clock.ofInt count).inside, ← same]

section Callback

variable {world : World} {error : Int} {pace : Pace}

theorem World.Ahead.advance (ahead : world.Ahead error) (time : Nat) :
    (world.advance time).Ahead error := by
  have same : world.now + time + error = world.now + error + time := by omega
  unfold Ahead World.advance
  dsimp only
  rw [same]
  exact shows_advance_ofInt time ahead

theorem World.Ahead.congr {other : World} (ahead : world.Ahead error)
    (mac : other.mac = world.mac) (now : other.now = world.now) : other.Ahead error := by
  unfold Ahead
  rw [mac, now]
  exact ahead

theorem torn_read {elapsed : Nat} (untorn : (world.read elapsed).torn = false) :
    world.torn = false ∧ world.mac.macstnr.toNat + elapsed < 1000000000 := by
  rcases Bool.or_eq_false_iff.mp untorn with ⟨before, now⟩
  exact ⟨before, Nat.not_le.mp (of_decide_eq_false now)⟩

/-- A time between two that are on the clock. -/
theorem OnClock.between {first moment last : Int} (start : OnClock (first + error))
    (stop : OnClock (last + error)) (lower : first ≤ moment) (upper : moment ≤ last) :
    OnClock (moment + error) := by
  unfold OnClock at *
  omega

/-- A packet that is received is stamped with the client's clock. -/
theorem worldCallback_extract (time : PtpTime) (ahead : world.Ahead error)
    (untorn : (worldCallback pace .packetTsExtract time world).clock.torn = false)
    (start : OnClock (world.now + error))
    (stop : OnClock ((worldCallback pace .packetTsExtract time world).clock.now + error)) :
    let result := worldCallback pace .packetTsExtract time world
    result.time = .shown (result.clock.arrival + error) ∧
      OnClock (result.clock.arrival + error) ∧ result.clock.Ahead error ∧
      result.clock.asked = world.asked := by
  have within := (torn_read untorn).2
  have shows := ahead.advance (pace.before .packetTsExtract)
  have moment : (worldCallback pace .packetTsExtract time world).clock.arrival =
      world.now + pace.before .packetTsExtract :=
    rfl
  have after : (worldCallback pace .packetTsExtract time world).clock.now =
      world.now + pace.before .packetTsExtract + pace.between .packetTsExtract :=
    rfl
  have onClock := start.between stop (show world.now ≤ world.now + pace.before .packetTsExtract by
    omega) (by omega)
  dsimp only
  rw [moment]
  exact ⟨read_eq_shown shows onClock within, onClock, (shows.advance _).congr rfl rfl, rfl⟩

/-- What preparing a packet leaves, and what it cannot have been without. -/
theorem worldCallback_prepare_keeps (time : PtpTime) :
    let result := worldCallback pace .packetTsPrepare time world
    result.clock.arrival = world.arrival ∧ world.now ≤ result.clock.now ∧
      (result.clock.torn = false → world.torn = false) := by
  refine ⟨rfl, ?_, fun untorn => (torn_read untorn).1⟩
  change world.now ≤ world.now + _ + _
  omega

/-- A packet that is sent is stamped with the client's clock. -/
theorem worldCallback_prepare (time : PtpTime) (ahead : world.Ahead error)
    (untorn : (worldCallback pace .packetTsPrepare time world).clock.torn = false)
    (start : OnClock (world.now + error))
    (stop : OnClock ((worldCallback pace .packetTsPrepare time world).clock.now + error)) :
    let result := worldCallback pace .packetTsPrepare time world
    result.notified = some (.shown (result.clock.asked + error)) ∧
      OnClock (result.clock.asked + error) ∧ result.clock.Ahead error := by
  have within := (torn_read untorn).2
  have shows := ahead.advance (pace.before .packetTsPrepare)
  have moment : (worldCallback pace .packetTsPrepare time world).clock.asked =
      world.now + pace.before .packetTsPrepare :=
    rfl
  have after : (worldCallback pace .packetTsPrepare time world).clock.now =
      world.now + pace.before .packetTsPrepare + pace.between .packetTsPrepare :=
    rfl
  have onClock := start.between stop (show world.now ≤ world.now + pace.before .packetTsPrepare by
    omega) (by omega)
  have read := read_eq_shown shows onClock within
  dsimp only
  rw [moment]
  exact ⟨congrArg some read, onClock, (shows.advance _).congr rfl rfl⟩

/-- What passes between the reading and the setting of the clock, if there is any. -/
def lost (pace : Pace) (waited : Nat) (offset : PtpTime) : Nat :=
  if offset.BelowSecond then 0
  else pace.between .clockGet + waited + pace.before .clockSet

/-- The nanoseconds of a clock that shows a count. -/
theorem macstnr_of_shows {mac : Mac} {count : Int} (shows : Shows mac (.ofInt count)) :
    (mac.macstnr.toNat : Int) = count % 1000000000 := by
  have total : (mac.time.total : Int) = count % Timestamp.span := by
    rw [shows.2, Clock.total_shown, Clock.count_ofInt]
  have nanoseconds : mac.macstnr.toNat = mac.time.total % 1000000000 :=
    Timestamp.nanoseconds_eq (shows.2 ▸ Clock.valid_shown _)
  unfold Timestamp.span at total
  omega

/-- An offset is added to the clock; what passes while it is read and set is lost. -/
theorem clockAdjust_ahead (current : PtpTime) (waited : Nat) {offset : PtpTime}
    (carried : offset.Carried) (ahead : world.Ahead error)
    (untorn : (nxPtpClientClockAdjust (worldCallback pace) current (World.advance waited) offset
      world).torn = false) :
    (nxPtpClientClockAdjust (worldCallback pace) current (World.advance waited) offset
      world).Ahead (error + offset.total - lost pace waited offset) := by
  unfold nxPtpClientClockAdjust at untorn ⊢
  unfold lost World.Ahead
  by_cases small : offset.BelowSecond
  · have shows := ahead.advance (pace.before .clockAdjust)
    have adjusted := (hardClock_keepsTime (pace.between .clockAdjust)).adjust offset shows
      carried.1 carried.2
    have total := total_of_belowSecond small
    rw [if_pos small, if_pos small]
    have count : (worldCallback pace .clockAdjust offset world).clock.now +
        (error + offset.total - (0 : Nat)) =
          (world.advance (pace.before .clockAdjust)).now + error + offset.nanosecond.toInt := by
      change world.now + _ + _ = world.now + _ + _ + _
      omega
    rw [count]
    exact adjusted
  · rw [if_neg small] at untorn ⊢
    rw [if_neg small]
    dsimp only at untorn ⊢
    have shows := ahead.advance (pace.before .clockGet)
    have within := (torn_read (show ((world.advance (pace.before .clockGet)).read
      (pace.between .clockGet)).torn = false from untorn)).2
    rcases hardClockCallback_get (pace.between .clockGet) current shows with ⟨turns, read⟩
    have nanoseconds := macstnr_of_shows shows
    rw [hardReading_eq (by omega)] at read
    have time : (worldCallback pace .clockGet current world).time = _ := read
    have order : (world.advance (pace.before .clockGet)).now + error + turns * Timestamp.span +
        offset.total = (world.advance (pace.before .clockGet)).now + error + offset.total +
          turns * Timestamp.span := by
      omega
    have keeps := hardClock_keepsTime (pace.between .clockSet)
    have set := keeps.turn turns (keeps.set (((worldCallback pace .clockGet current
      world).clock.advance waited).advance (pace.before .clockSet)).mac
      ((world.advance (pace.before .clockGet)).now + error + offset.total + turns * Timestamp.span))
    rw [time, addOffset_shown _ carried, order]
    generalize PtpTime.shown _ = new at set ⊢
    have count : (worldCallback pace .clockSet new (World.advance waited
        (worldCallback pace .clockGet current world).clock)).clock.now + (error + offset.total -
          (pace.between .clockGet + waited + pace.before .clockSet : Nat)) =
        (world.advance (pace.before .clockGet)).now + error + offset.total := by
      change world.now + _ + _ + _ + _ + _ = world.now + _ + _ + _
      omega
    rw [count]
    exact set

end Callback

/-! ## Runs beside the master -/

/-- How the client handles a packet: what the pool and the socket answer, an uninitialised local,
and the times that pass, with the one between reading and setting the clock. -/
structure Handling where
  packetPtr : Option Nat
  sent : Bool
  current : PtpTime
  pace : Pace
  waited : Nat

/-- What the handling of a packet meets. -/
def Handling.env (handling : Handling) : PtpEnv World :=
  ⟨handling.packetPtr, handling.sent, handling.current, World.advance handling.waited⟩

/-- The client, how far its clock is ahead of its master's, and whether the Sync that it stamped
last has still to be followed up. -/
structure Timed where
  client : PtpClient World
  error : Int
  unfollowed : Bool

/-- What happens to the client, or some time passes. -/
inductive TimedEvent where
  | elapse (time : Nat)
  | packet (packet : PtpPacket) (handling : Handling)
  | timer
  | notify (packetPtr : Nat) (timestamp : PtpTime)

/-- What an effect adds to the client's clock. -/
def Handling.adjustment (handling : Handling) : PtpEffect → Int
  | .adjust offset => offset.total - lost handling.pace handling.waited offset
  | .send _ | .eventMaster _ _ _ | .eventSync _ _ | .eventTimeout => 0

/-- What a handled packet leaves.  A first step is unfollowed until its Follow_Up comes or the
client takes a new master. -/
def Timed.handled (system : Timed) (part : Option SyncPart) (handling : Handling)
    (effects : List PtpEffect) (client : PtpClient World) : Timed where
  client := client
  error := system.error + (effects.map handling.adjustment).sum
  unfollowed := if part = none then system.unfollowed && client.state = system.client.state
    else part = some .firstStep

/-- The client beside its master's clock. -/
def timedClient : Machine Timed TimedEvent (List PtpEffect) := fun system event =>
  match event with
  | .elapse time =>
      let client := { system.client with clock := system.client.clock.advance time }
      ([], { system with client := client })
  | .packet packet handling =>
      let (effects, client) := ptpClient (worldCallback handling.pace) system.client
        (.packet packet handling.env)
      (effects, system.handled (syncPart system.client packet) handling effects client)
  | .timer =>
      let (client, effects) := timerEvent system.client
      (effects, { system with client := client })
  | .notify packetPtr timestamp =>
      let client := nxPtpClientPacketTimestampNotify system.client packetPtr timestamp
      ([], { system with client := client })

/-- A time of the master's clock in a message, with its correction of less than `2^32`
nanoseconds. -/
def Corrected (hdr : PtpMsgHeader) (time : PtpTime) : Prop :=
  time.OfClock ∧ 0 ≤ correctionField hdr ∧ correctionField hdr < 4294967296

/-- The master and the network, for a message with a timestamp that takes the client's clock to
`after`: a Sync arrives with a delay within the bounds after its corrected timestamp, a Follow_Up
once and for the Sync stamped last, and a response to the client not before it and with the time
at which the request arrived. -/
def TimelyMessage (lo hi : Int) (system : Timed) (after : World) (part : Option SyncPart)
    (requesting : Option (List UChar)) (hdr : PtpMsgHeader) (time : PtpTime) : Prop :=
  (part = some .whole → Corrected hdr time ∧
      lo ≤ after.arrival - (time.total + correctionField hdr) ∧
      after.arrival - (time.total + correctionField hdr) ≤ hi) ∧
    (part = some .followUp → system.unfollowed = true ∧ Corrected hdr time ∧
      lo ≤ system.client.clock.arrival - (time.total + correctionField hdr) ∧
      system.client.clock.arrival - (time.total + correctionField hdr) ≤ hi) ∧
    (hdr.messageType = 9 → system.client.delayState = .waitResp →
      system.client.delayReqId = hdr.sequenceId →
      requesting = some system.client.portIdentity.toList →
      system.unfollowed = false ∧ time.OfClock ∧
      lo ≤ time.total - system.client.clock.asked ∧ time.total - system.client.clock.asked ≤ hi)

/-- Events of an honest master and driver: packets are timely, no second begins between two
register reads, at most `lag` passes between the reading and the setting of the clock, and the
driver reports when the request was sent.  The client's clock is in its range when it handles a
packet. -/
def Timely (lo hi : Int) (lag : Nat) (system : Timed) (event : TimedEvent) : Prop :=
  match event with
  | .packet packet handling =>
      let after := (timedClient system event).2.client.clock
      after.torn = false ∧ OnClock (system.client.clock.now + system.error) ∧
        OnClock (after.now + system.error) ∧
        handling.pace.between .clockGet + handling.waited + handling.pace.before .clockSet ≤ lag ∧
        ∀ heard ∈ heardHeader system.client packet, ∀ read ∈ nxPtpMsgParseTimestamp heard.2,
          TimelyMessage lo hi system after (syncPart system.client packet)
            ((requestingPortIdentity heard.2).map Prod.fst) heard.1 read.1
  | .elapse _ | .timer => True
  | .notify packetPtr timestamp => system.client.delayState = .waitReqTs →
      system.client.delayReqPacketPtr = some packetPtr →
      timestamp = .shown (system.client.clock.asked + system.error)

instance (hdr : PtpMsgHeader) (time : PtpTime) : Decidable (Corrected hdr time) :=
  inferInstanceAs (Decidable (_ ∧ _))

instance (lo hi : Int) (system : Timed) (after : World) (part : Option SyncPart)
    (requesting : Option (List UChar)) (hdr : PtpMsgHeader) (time : PtpTime) :
    Decidable (TimelyMessage lo hi system after part requesting hdr time) := by
  unfold TimelyMessage
  infer_instance

instance (lo hi : Int) (lag : Nat) (system : Timed) : DecidablePred (Timely lo hi lag system) :=
  fun event => by
    unfold Timely
    split <;> infer_instance

/-- The times that the client holds were shown by its clock as it is set now. -/
structure Coherent (lo hi : Int) (system : Timed) : Prop where
  ahead : system.client.clock.Ahead system.error
  first : system.unfollowed = true →
    PtpTime.Ranged (system.client.clock.arrival + system.error) ∧
      system.client.syncTs = .shown (system.client.clock.arrival + system.error)
  request : system.client.delayState ≠ .idle →
    PtpTime.Ranged (system.client.clock.asked + system.error)
  sent : system.client.delayState = .waitResp →
    system.client.delayTs = .shown (system.client.clock.asked + system.error)
  sync : system.client.delayState ≠ .idle → system.unfollowed = false →
    system.client.sync.Measured ∧ ∃ delay, lo ≤ delay ∧ delay ≤ hi ∧
      PtpTime.Ranged (system.client.sync.total + delay + system.error) ∧
      system.client.syncTs = .shown (system.client.sync.total + delay + system.error)

/-- The clocks differ by at most half of what the bounds differ by, and what is lost. -/
def Precise (lo hi : Int) (lag : Nat) (system : Timed) : Prop :=
  -(hi - lo + 1) - 2 * lag ≤ 2 * system.error ∧ 2 * system.error ≤ hi - lo + 1

section

variable {lo hi : Int} {lag : Nat} {system : Timed} {client client' : PtpClient World}
  {packet : PtpPacket} {handling : Handling} {hdr : PtpMsgHeader} {effects : List PtpEffect}
  {part : Option SyncPart}

/-! ## Effects -/

theorem sum_adjustments (handling : Handling) (unadjusted : ∀ offset, .adjust offset ∉ effects) :
    (effects.map handling.adjustment).sum = 0 := by
  induction effects with
  | nil => rfl
  | cons effect effects ih =>
      have rest := ih fun offset member => unadjusted offset (List.mem_cons_of_mem effect member)
      rw [List.map_cons, List.sum_cons, rest]
      cases effect with
      | adjust offset => exact absurd List.mem_cons_self (unadjusted offset)
      | send | eventMaster | eventSync | eventTimeout => rfl

theorem reported_unadjusted (reported : ∀ effect ∈ effects, PtpEffect.Reported effect) :
    ∀ offset, .adjust offset ∉ effects :=
  fun _ adjusts => reported _ adjusts

/-- Without an adjustment the error stays. -/
theorem error_handled (unadjusted : ∀ offset, .adjust offset ∉ effects) :
    (system.handled part handling effects client').error = system.error := by
  unfold Timed.handled
  dsimp only
  rw [sum_adjustments handling unadjusted, Int.add_zero]

/-! ## Packets -/

/-- Nothing but reports, and the client takes a new master or holds what it held. -/
theorem Coherent.quiet (coherent : Coherent lo hi system) (handling : Handling)
    (reported : ∀ effect ∈ effects, PtpEffect.Reported effect)
    (clock : client'.clock = system.client.clock)
    (holds : client'.delayState = .idle ∧ client'.state ≠ system.client.state ∨
      client'.state = system.client.state ∧ client'.delayState = system.client.delayState ∧
        client'.delayTs = system.client.delayTs ∧ client'.sync = system.client.sync ∧
        client'.syncTs = system.client.syncTs) :
    Coherent lo hi (system.handled none handling effects client') := by
  have error : (system.handled none handling effects client').error = system.error :=
    error_handled (reported_unadjusted reported)
  have held : (system.handled none handling effects client').client = client' := rfl
  rcases holds with ⟨idle, other⟩ | ⟨state, delayState, delayTs, sync, syncTs⟩
  · have followed : (system.handled none handling effects client').unfollowed = false := by
      unfold Timed.handled
      dsimp only
      rw [if_pos rfl, decide_eq_false other, Bool.and_false]
    refine ⟨?_, ?_, fun busy => absurd idle busy, ?_, fun busy => absurd idle busy⟩
    · rw [error, held, clock]
      exact coherent.ahead
    · rw [followed]
      exact nofun
    · rw [held, idle]
      exact nofun
  · have unfollowed : (system.handled none handling effects client').unfollowed =
        system.unfollowed := by
      unfold Timed.handled
      dsimp only
      rw [if_pos rfl, decide_eq_true state, Bool.and_true]
    refine ⟨?_, ?_, ?_, ?_, ?_⟩
    · rw [error, held, clock]
      exact coherent.ahead
    · rw [unfollowed, error, held, syncTs, clock]
      exact coherent.first
    · rw [error, held, delayState, clock]
      exact coherent.request
    · rw [error, held, delayState, delayTs, clock]
      exact coherent.sent
    · rw [unfollowed, error, held, delayState, sync, syncTs]
      exact coherent.sync

/-- A stored Sync leaves the stamp of its arrival. -/
theorem syncDone_keeps (env : PtpEnv World) (pace : Pace) (client : PtpClient World)
    (hdr : PtpMsgHeader) (sync : PtpTime) :
    let result := syncDone (worldCallback pace) env client hdr sync
    result.1.clock.arrival = client.clock.arrival ∧ client.clock.now ≤ result.1.clock.now ∧
      (result.1.clock.torn = false → client.clock.torn = false) := by
  unfold syncDone
  dsimp only
  split
  · rcases sendDelayReq_spec (worldCallback pace) env
        { client with sync := correctedSync hdr sync } with
      same | ⟨delayTs, same | ⟨packetPtr, delayState, -, -, same⟩⟩ <;> rw [same]
    · exact ⟨rfl, Int.le_refl _, id⟩
    · exact worldCallback_prepare_keeps client.delayTs
    · exact worldCallback_prepare_keeps client.delayTs
  · exact ⟨rfl, Int.le_refl _, id⟩

/-- What a stored Sync does to the clock and the times, and what a request leaves. -/
theorem syncDone_stamps (env : PtpEnv World) {pace : Pace} (hdr : PtpMsgHeader) (sync : PtpTime)
    {error : Int} (ahead : client.clock.Ahead error)
    (untorn : (syncDone (worldCallback pace) env client hdr sync).1.clock.torn = false)
    (start : OnClock (client.clock.now + error))
    (stop : OnClock ((syncDone (worldCallback pace) env client hdr sync).1.clock.now + error)) :
    let result := syncDone (worldCallback pace) env client hdr sync
    result.1.clock.Ahead error ∧ result.1.sync = correctedSync hdr sync ∧
      result.1.syncTs = client.syncTs ∧ (∀ offset, .adjust offset ∉ result.2) ∧
      (result.1.delayState = .idle ∨
        result.1.delayState = client.delayState ∧ result.1.delayTs = client.delayTs ∧
          result.1.clock.asked = client.clock.asked ∨
        OnClock (result.1.clock.asked + error) ∧
          (result.1.delayState = .waitResp →
            result.1.delayTs = .shown (result.1.clock.asked + error))) := by
  unfold syncDone at untorn stop ⊢
  dsimp only at untorn stop ⊢
  split at untorn
  · rename_i due
    rw [if_pos due] at stop ⊢
    rcases sendDelayReq_spec (worldCallback pace) env
        { client with sync := correctedSync hdr sync } with
      same | ⟨delayTs, same | ⟨packetPtr, delayState, -, notified, same⟩⟩ <;>
      rw [same] at untorn stop ⊢
    · exact ⟨ahead, rfl, rfl, nofun, .inr (.inl ⟨rfl, rfl, rfl⟩)⟩
    · have kept := (worldCallback_prepare client.delayTs ahead untorn start stop).2.2
      exact ⟨kept, rfl, rfl, nofun, .inl rfl⟩
    · rcases worldCallback_prepare client.delayTs ahead untorn start stop with
        ⟨stamp, onClock, kept⟩
      refine ⟨kept, rfl, rfl, by simp, .inr (.inr ⟨onClock, fun waiting => ?_⟩)⟩
      exact Option.some.inj ((notified waiting).symm.trans stamp)
  · rename_i due
    rw [if_neg due] at stop ⊢
    exact ⟨ahead, rfl, rfl, nofun, .inr (.inl ⟨rfl, rfl, rfl⟩)⟩

/-- The client has a whole Sync whose times belong together. -/
theorem Coherent.synced (coherent : Coherent lo hi system) (sync : PtpTime)
    (ahead : client.clock.Ahead system.error)
    (untorn : (syncDone (worldCallback handling.pace) handling.env client hdr
      sync).1.clock.torn = false)
    (start : OnClock (client.clock.now + system.error))
    (stop : OnClock ((syncDone (worldCallback handling.pace) handling.env client hdr
      sync).1.clock.now + system.error))
    (state : client.delayState = system.client.delayState)
    (delayTs : client.delayTs = system.client.delayTs)
    (asked : client.clock.asked = system.client.clock.asked) (some' : part ≠ none)
    (whole : part ≠ some .firstStep) (measured : (correctedSync hdr sync).Measured)
    (pair : ∃ delay, lo ≤ delay ∧ delay ≤ hi ∧
      PtpTime.Ranged ((correctedSync hdr sync).total + delay + system.error) ∧
      client.syncTs = .shown ((correctedSync hdr sync).total + delay + system.error)) :
    let result := syncDone (worldCallback handling.pace) handling.env client hdr sync
    Coherent lo hi (system.handled part handling result.2 result.1) ∧
      ∀ offset, .adjust offset ∉ result.2 := by
  rcases syncDone_stamps handling.env hdr sync ahead untorn start stop with
    ⟨kept, sync', syncTs, unadjusted, request⟩
  generalize syncDone (worldCallback handling.pace) handling.env client hdr sync = result at *
  have error : (system.handled part handling result.2 result.1).error = system.error :=
    error_handled unadjusted
  have held : (system.handled part handling result.2 result.1).client = result.1 := rfl
  have followed : (system.handled part handling result.2 result.1).unfollowed = false := by
    unfold Timed.handled
    dsimp only
    rw [if_neg some']
    exact decide_eq_false whole
  refine ⟨⟨?_, ?_, ?_, ?_, ?_⟩, unadjusted⟩
  · rw [error, held]
    exact kept
  · rw [followed]
    exact nofun
  · rw [error, held]
    intro busy
    rcases request with idle | ⟨same, -, sameAsked⟩ | ⟨onClock, -⟩
    · exact absurd idle busy
    · rw [sameAsked, asked]
      exact coherent.request fun idle => busy ((same.trans state).trans idle)
    · exact onClock.ranged
  · rw [error, held]
    intro waiting
    rcases request with idle | ⟨same, stamp, sameAsked⟩ | ⟨-, stamp⟩
    · rw [idle] at waiting
      cases waiting
    · rw [sameAsked, asked]
      exact (stamp.trans delayTs).trans (coherent.sent ((same.trans state).symm.trans waiting))
    · exact stamp waiting
  · intro busy _
    rw [error, held, sync', syncTs]
    exact ⟨measured, pair⟩

/-- An adjustment brings the clocks together, and the client holds no times after it. -/
theorem Coherent.adjusted (coherent : Coherent lo hi system) {t4 : PtpTime}
    (waiting : system.client.delayState = .waitResp) (followed : system.unfollowed = false)
    (measured : t4.Measured) (lower : lo ≤ t4.total - system.client.clock.asked)
    (upper : t4.total - system.client.clock.asked ≤ hi)
    (lagging : handling.pace.between .clockGet + handling.waited +
      handling.pace.before .clockSet ≤ lag)
    (reported : ∀ effect ∈ effects, PtpEffect.Reported effect) {flags : BitVec 16}
    (only : OnlyAddress system.client client) :
    let offset := measuredOffset client.sync client.syncTs client.delayTs t4
    let clock := nxPtpClientClockAdjust (worldCallback handling.pace) handling.env.current
      handling.env.meanwhile offset client.clock
    let after := system.handled none handling (.adjust offset :: effects) { client with
      clock := clock
      delayState := .idle
      syncFlags := flags }
    clock.torn = false → Coherent lo hi after ∧ Precise lo hi lag after := by
  have busy : system.client.delayState ≠ .idle := by
    rw [waiting]
    decide
  have same : client.sync = system.client.sync ∧ client.syncTs = system.client.syncTs ∧
      client.delayTs = system.client.delayTs ∧ client.clock = system.client.clock := by
    rcases only with rfl | ⟨-, address, rfl⟩
    · exact ⟨rfl, rfl, rfl, rfl⟩
    · exact ⟨rfl, rfl, rfl, rfl⟩
  rcases coherent.sync busy followed with ⟨sync, delay, low, high, received, syncTs⟩
  have asked := coherent.request busy
  have delayTs := coherent.sent waiting
  rw [same.1, same.2.1, same.2.2.1, same.2.2.2, syncTs, delayTs]
  rcases measuredOffset_spec sync (measured_shown received) (measured_shown asked) measured with
    ⟨carried, total⟩
  rw [total_shown received, total_shown asked] at total
  have half := twice_tdiv_two (t4.total - (system.client.clock.asked + system.error) -
    (system.client.sync.total + delay + system.error - system.client.sync.total))
  generalize measuredOffset system.client.sync
    (.shown (system.client.sync.total + delay + system.error))
    (.shown (system.client.clock.asked + system.error)) t4 = offset at *
  have sum : ((PtpEffect.adjust offset :: effects).map handling.adjustment).sum =
      offset.total - lost handling.pace handling.waited offset := by
    rw [List.map_cons, List.sum_cons, sum_adjustments handling (reported_unadjusted reported),
      Int.add_zero]
    rfl
  dsimp only
  intro untorn
  have ahead := clockAdjust_ahead handling.current handling.waited carried coherent.ahead untorn
  refine ⟨⟨?_, ?_, nofun, nofun, nofun⟩, ?_⟩
  · unfold Timed.handled
    dsimp only
    rw [sum, ← Int.add_sub_assoc]
    exact ahead
  · unfold Timed.handled
    dsimp only
    rw [if_pos rfl, followed, Bool.false_and]
    exact nofun
  · have few : lost handling.pace handling.waited offset ≤ lag := by
      unfold lost
      split
      · exact Nat.zero_le lag
      · exact lagging
    unfold Precise Timed.handled
    dsimp only
    rw [sum]
    omega

/-- A Sync that arrives is stamped, whatever else is done with it. -/
theorem stamped_sync {error : Int} (env : PtpEnv World) {pace : Pace} (hdr : PtpMsgHeader)
    (sync : PtpTime) (ahead : client.clock.Ahead error)
    (untorn : (syncDone (worldCallback pace) env (stamped (worldCallback pace) client) hdr
      sync).1.clock.torn = false)
    (start : OnClock (client.clock.now + error))
    (stop : OnClock ((syncDone (worldCallback pace) env (stamped (worldCallback pace) client) hdr
      sync).1.clock.now + error)) :
    let arrived := stamped (worldCallback pace) client
    arrived.syncTs = .shown (arrived.clock.arrival + error) ∧
      OnClock (arrived.clock.arrival + error) ∧ arrived.clock.Ahead error ∧
      arrived.clock.asked = client.clock.asked ∧ OnClock (arrived.clock.now + error) := by
  rcases syncDone_keeps env pace (stamped (worldCallback pace) client) hdr sync with
    ⟨-, later, whole⟩
  have earlier : client.clock.now ≤ (stamped (worldCallback pace) client).clock.now := by
    change client.clock.now ≤ client.clock.now + _ + _
    omega
  have stopHere := start.between stop earlier later
  rcases worldCallback_extract client.syncTs ahead (whole untorn) start stopHere with
    ⟨syncTs, onClock, kept, asked⟩
  exact ⟨syncTs, onClock, kept, asked, stopHere⟩

/-- A packet keeps the held times coherent; it leaves the client's clock or adjusts it. -/
theorem coherent_packet (coherent : Coherent lo hi system)
    (timely : Timely lo hi lag system (.packet packet handling))
    (outcome : PacketOutcome (worldCallback handling.pace) handling.env system.client packet client'
      effects)
    (same : (timedClient system (.packet packet handling)).2.client = client') :
    let after := system.handled (syncPart system.client packet) handling effects client'
    Coherent lo hi after ∧ (Precise lo hi lag after ∨ ∀ offset, .adjust offset ∉ effects) := by
  rcases timely with ⟨untorn, start, stop, lagging, timely⟩
  rw [same] at untorn stop timely
  clear same
  cases outcome with
  | ignored unheard unsynced only =>
      rw [unsynced]
      refine ⟨?_, .inr nofun⟩
      rcases only with rfl | ⟨-, address, rfl⟩
      · exact coherent.quiet handling reported_nil rfl (.inr ⟨rfl, rfl, rfl, rfl, rfl⟩)
      · exact coherent.quiet handling reported_nil rfl (.inr ⟨rfl, rfl, rfl, rfl, rfl⟩)
  | accepted heard type long listening reported =>
      rw [heard.unsynced (by rw [type]; decide) (by rw [type]; decide)]
      refine ⟨?_, .inr (reported_unadjusted reported)⟩
      rw [heard.onlyAddress.state] at listening
      have other : PtpClientState.slave ≠ system.client.state := by
        rw [listening]
        decide
      exact coherent.quiet handling reported heard.onlyAddress.clock (.inl ⟨rfl, other⟩)
  | renewed heard type long other reported =>
      rw [heard.unsynced (by rw [type]; decide) (by rw [type]; decide)]
      refine ⟨?_, .inr (reported_unadjusted reported)⟩
      rcases heard.onlyAddress with rfl | ⟨listening, address, rfl⟩
      · exact coherent.quiet handling reported rfl (.inr ⟨rfl, rfl, rfl, rfl, rfl⟩)
      · exact absurd listening other
  | @firstStep hdr ptr heard type slave part =>
      rcases worldCallback_extract system.client.syncTs coherent.ahead untorn start stop with
        ⟨syncTs, onClock, ahead, asked⟩
      rw [part]
      have error : (system.handled (some .firstStep) handling []
          { stamped (worldCallback handling.pace) system.client with
            syncId := hdr.sequenceId }).error = system.error :=
        error_handled nofun
      refine ⟨⟨?_, fun _ => ?_, ?_, ?_, nofun⟩, .inr nofun⟩
      · rw [error]
        exact ahead
      · rw [error]
        exact ⟨onClock.ranged, syncTs⟩
      · rw [error]
        intro busy
        exact asked.symm ▸ coherent.request busy
      · rw [error]
        intro waiting
        exact asked.symm ▸ coherent.sent waiting
  | @oneStep hdr ptr sync rest heard type slave part read =>
      have arrival := (syncDone_keeps handling.env handling.pace
        (stamped (worldCallback handling.pace) system.client) hdr sync).1
      rcases stamped_sync handling.env hdr sync coherent.ahead untorn start stop with
        ⟨syncTs, onClock, ahead, asked, startHere⟩
      rcases (timely (hdr, ptr) heard.heardHeader_eq (sync, rest) read).1 part with
        ⟨⟨valid, positive, small⟩, lower, upper⟩
      rcases correctedSync_spec hdr read valid with ⟨measured, total⟩
      dsimp only at positive small lower upper
      rw [correction_eq positive small] at total
      rw [arrival] at lower upper
      have received : (correctedSync hdr sync).total +
          ((stamped (worldCallback handling.pace) system.client).clock.arrival -
            (sync.total + correctionField hdr)) + system.error =
          (stamped (worldCallback handling.pace) system.client).clock.arrival + system.error := by
        rw [total]
        omega
      have pair := And.intro lower (And.intro upper (And.intro onClock.ranged syncTs))
      rw [← received] at pair
      rw [part]
      rcases coherent.synced sync ahead untorn startHere stop rfl rfl asked
        (Option.some_ne_none .whole)
        (show some SyncPart.whole ≠ some .firstStep by decide) measured ⟨_, pair⟩ with
        ⟨kept, unadjusted⟩
      exact ⟨kept, .inr unadjusted⟩
  | @followUp hdr ptr sync rest heard type slave part read =>
      rcases (timely (hdr, ptr) heard.heardHeader_eq (sync, rest) read).2.1 part with
        ⟨unfollowed, ⟨valid, positive, small⟩, lower, upper⟩
      rcases correctedSync_spec hdr read valid with ⟨measured, total⟩
      dsimp only at positive small lower upper
      rw [correction_eq positive small] at total
      rcases coherent.first unfollowed with ⟨arrived, syncTs⟩
      have received : (correctedSync hdr sync).total +
          (system.client.clock.arrival - (sync.total + correctionField hdr)) + system.error =
            system.client.clock.arrival + system.error := by
        rw [total]
        omega
      have pair := And.intro lower (And.intro upper (And.intro arrived syncTs))
      rw [← received] at pair
      rw [part]
      rcases coherent.synced sync coherent.ahead untorn start stop rfl rfl rfl
        (Option.some_ne_none .followUp) (show some SyncPart.followUp ≠ some .firstStep by decide)
        measured ⟨_, pair⟩ with ⟨kept, unadjusted⟩
      exact ⟨kept, .inr unadjusted⟩
  | @response client₁ hdr ptr after t4 rest flags effects heard type waiting expected own read
      reported =>
      have same : client₁.delayState = system.client.delayState ∧
          client₁.delayReqId = system.client.delayReqId ∧
          client₁.portIdentity = system.client.portIdentity := by
        rcases heard.onlyAddress with rfl | ⟨-, address, rfl⟩
        · exact ⟨rfl, rfl, rfl⟩
        · exact ⟨rfl, rfl, rfl⟩
      rw [same.1] at waiting
      rw [same.2.1] at expected
      rw [same.2.2] at own
      rcases (timely (hdr, ptr) heard.heardHeader_eq (t4, rest) read).2.2 type waiting expected
        (congrArg (Option.map Prod.fst) own) with ⟨followed, valid, lower, upper⟩
      rcases measured_of_wire read valid with ⟨aligned, positive, small⟩
      rw [heard.unsynced (by rw [type]; decide) (by rw [type]; decide)]
      rcases coherent.adjusted waiting followed ⟨aligned.1, positive, by omega⟩ lower upper lagging
        reported heard.onlyAddress untorn with ⟨kept, precise⟩
      exact ⟨kept, .inl precise⟩

/-! ## Runs -/

variable {event : TimedEvent}

/-- Every event keeps the held times coherent, and the error unless it adjusts. -/
theorem coherent_step (coherent : Coherent lo hi system) (timely : Timely lo hi lag system event) :
    let result := timedClient system event
    Coherent lo hi result.2 ∧ (Precise lo hi lag result.2 ∨
      result.2.error = system.error ∧ ∀ offset, .adjust offset ∉ result.1) := by
  cases event with
  | elapse time =>
      exact ⟨⟨coherent.ahead.advance time, coherent.first, coherent.request, coherent.sent,
        coherent.sync⟩, .inr ⟨rfl, nofun⟩⟩
  | packet packet handling =>
      rcases coherent_packet coherent timely (ptpClient_packet (worldCallback handling.pace)
        system.client packet handling.env) rfl with ⟨kept, precise | unadjusted⟩
      · exact ⟨kept, .inl precise⟩
      · exact ⟨kept, .inr ⟨error_handled unadjusted, unadjusted⟩⟩
  | timer =>
      rcases timerEvent_spec system.client with ⟨reported, state, timeout, timer, flag, same⟩
      unfold timedClient
      dsimp only
      rw [same]
      exact ⟨⟨coherent.ahead, coherent.first, coherent.request, coherent.sent, coherent.sync⟩,
        .inr ⟨rfl, reported_unadjusted reported⟩⟩
  | notify packetPtr timestamp =>
      unfold timedClient nxPtpClientPacketTimestampNotify
      dsimp only
      split
      · rename_i waiting
        have busy : system.client.delayState ≠ .idle := by
          rw [waiting.1]
          decide
        exact ⟨⟨coherent.ahead, coherent.first, fun _ => coherent.request busy,
          fun _ => timely waiting.1 waiting.2, fun _ => coherent.sync busy⟩,
          .inr ⟨rfl, nofun⟩⟩
      · exact ⟨coherent, .inr ⟨rfl, nofun⟩⟩

/-- From the first adjustment on, the clocks stay together. -/
theorem precise_run (coherent : Coherent lo hi system) {events : List TimedEvent}
    (timely : timedClient.Always (Timely lo hi lag) system events) :
    let final := timedClient.final system events
    final.client.clock.Ahead final.error ∧ ((Precise lo hi lag system ∨ ∃ offset,
        .adjust offset ∈ (timedClient.replies system events).flatten) →
      Precise lo hi lag final) := by
  induction events generalizing system with
  | nil =>
      refine ⟨coherent.ahead, ?_⟩
      rintro (precise | ⟨offset, adjusts⟩)
      · exact precise
      · cases adjusts
  | cons event events ih =>
      rcases coherent_step coherent timely.1 with ⟨kept, change⟩
      rcases ih kept timely.2 with ⟨ahead, later⟩
      refine ⟨ahead, fun reason => later ?_⟩
      rcases change with precise | ⟨error, unadjusted⟩
      · exact .inl precise
      · rcases reason with precise | ⟨offset, adjusts⟩
        · left
          unfold Precise at precise ⊢
          rw [error]
          exact precise
        · rw [Machine.replies_cons, List.flatten_cons] at adjusts
          have rest := (List.mem_append.mp adjusts).resolve_left (unadjusted offset)
          exact .inr ⟨offset, rest⟩

end

/-- Over every run with an honest master whose messages take between `lo` and `hi` nanoseconds,
from the first adjustment on, the hardware clock shows a count that differs from the master's by
at most half of what the two bounds differ by, rounded up, and what the client takes to set it. -/
theorem ptp_clock_precision {lo hi : Int} {lag : Nat} {system : Timed}
    (shows : Shows system.client.clock.mac (.ofInt (system.client.clock.now + system.error)))
    (idle : system.client.delayState = .idle) (followed : system.unfollowed = false)
    {events : List TimedEvent}
    (timely : timedClient.Always (Timely lo hi lag) system events) {offset : PtpTime}
    (adjusts : .adjust offset ∈ (timedClient.replies system events).flatten) :
    let final := timedClient.final system events
    Shows final.client.clock.mac (.ofInt (final.client.clock.now + final.error)) ∧
      2 * final.error.natAbs ≤ hi - lo + 1 + 2 * lag := by
  have first (unfollowed : system.unfollowed = true) : False :=
    Bool.false_ne_true (followed.symm.trans unfollowed)
  have coherent : Coherent lo hi system :=
    ⟨shows, fun unfollowed => (first unfollowed).elim, fun busy => absurd idle busy,
      fun waiting => absurd (idle.symm.trans waiting) (by decide), fun busy => absurd idle busy⟩
  rcases precise_run coherent timely with ⟨still, precise⟩
  refine ⟨still, ?_⟩
  have bounds := precise (.inr ⟨offset, adjusts⟩)
  unfold Precise at bounds
  omega

/-- A client three seconds ahead, messages that take a second, and a client that takes ten
nanoseconds for every step. -/
theorem ptp_clock_precision_second :
    let system : Timed :=
      ⟨createdClient ⟨6000000000, 0, 0, false, ⟨⟨9, 0⟩, 0, 0⟩⟩, 3000000000, false⟩
    let handling : Handling := ⟨some 0, true, ⟨0, 0, 0⟩, ⟨fun _ => 10, fun _ => 10⟩, 10⟩
    let events : List TimedEvent :=
      [.packet (masterPacket 11 0 (List.replicate 30 0)) handling,
        .packet (masterPacket 0 0 (secondsBytes 5)) handling, .elapse 1999999970,
        .packet (masterPacket 9 1 (secondsBytes 7 ++ List.replicate 10 0)) handling]
    let final := timedClient.final system events
    Shows final.client.clock.mac (.ofInt (final.client.clock.now + final.error)) ∧
      2 * (final.error.natAbs : Int) ≤ 1000000010 - 999999900 + 1 + 2 * (30 : Nat) :=
  @ptp_clock_precision 999999900 1000000010 30
    ⟨createdClient ⟨6000000000, 0, 0, false, ⟨⟨9, 0⟩, 0, 0⟩⟩, 3000000000, false⟩
    ⟨rfl, by decide⟩ rfl rfl _ (by decide +kernel) ⟨0xffffffff, 0xfffffffd, -20⟩
    (by decide +kernel)

end EmbeddedBase.NetX
