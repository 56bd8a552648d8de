import EmbeddedBase.NetX.PtpClient.Handling
import EmbeddedBase.Transition.Since

/-!
# Supervision of the master

Over every run of the PTP client from the start of its thread: it is a slave exactly while
the last announcement it accepted is less than the announce timeout ago, and a slave that
has sent no request for a whole interval has one to send.
-/

namespace EmbeddedBase.NetX

open EmbeddedBase.Data
open EmbeddedBase.Transition

section

variable {κ : Type} {callback : ClockCallback κ} {env : PtpEnv κ}
  {client client' : PtpClient κ} {packet : PtpPacket} {effects : List PtpEffect}

/-- The states that this configuration uses, and a pending countdown for each duty of a
slave. -/
structure Supervised (client : PtpClient κ) : Prop where
  role : client.state = .listening ∨ client.state = .slave
  announce : client.state = .slave → 0 < client.announceTimeout
  request : client.state = .slave → client.delayReqFlag = true ∨ 0 < client.delayReqTimer
  interval : client.delayReqTimer ≤ delayReqInterval

theorem supervised_threadEntry (client : PtpClient κ) : Supervised (threadEntry client) where
  role := .inl rfl
  announce := fun slave => by cases slave
  request := fun slave => by cases slave
  interval := show (-1 : Int) ≤ delayReqInterval by decide

/-! ## Packets -/

/-- What a stored Sync leaves of the countdowns: a request restarts its interval and clears
its flag, and without one both stay. -/
theorem syncDone_supervision (callback : ClockCallback κ) (env : PtpEnv κ)
    (client : PtpClient κ) (hdr : PtpMsgHeader) (sync : PtpTime) :
    let result := syncDone callback env client hdr sync
    (result.1.state = client.state ∧ result.1.announceTimeout = client.announceTimeout) ∧
      ((result.1.delayReqFlag = client.delayReqFlag ∧
          result.1.delayReqTimer = client.delayReqTimer) ∨
        (∃ message, .send message ∈ result.2) ∧ result.1.delayReqFlag = false ∧
          result.1.delayReqTimer = delayReqInterval) := by
  unfold syncDone
  dsimp only
  split
  · rcases sendDelayReq_spec callback env { client with sync := correctedSync hdr sync } with
      same | ⟨delayTs, same | ⟨packetPtr, delayState, -, -, same⟩⟩
    · rw [same]
      exact ⟨⟨rfl, rfl⟩, .inl ⟨rfl, rfl⟩⟩
    · rw [same]
      exact ⟨⟨rfl, rfl⟩, .inl ⟨rfl, rfl⟩⟩
    · rw [same]
      exact ⟨⟨rfl, rfl⟩, .inr ⟨⟨_, List.mem_singleton_self _⟩, rfl, rfl⟩⟩
  · exact ⟨⟨rfl, rfl⟩, .inl ⟨rfl, rfl⟩⟩

/-- A packet in terms of the countdowns: an announcement makes the client a slave with a
fresh timeout; anything else leaves the role and the timeout, and restarts the interval of
the requests only with a request. -/
theorem packet_supervision (outcome : PacketOutcome callback env client packet client' effects) :
    (Announces client packet ∧ client'.announceTimeout = announceExpiration ∧
        (client.state = .listening ∧ client'.state = .slave ∧ client'.delayReqFlag = true ∧
            client'.delayReqTimer = -1 ∨
          client.state ≠ .listening ∧ client'.state = client.state ∧
            client'.delayReqFlag = client.delayReqFlag ∧
            client'.delayReqTimer = client.delayReqTimer)) ∨
      (¬Announces client packet ∧ client'.announceTimeout = client.announceTimeout ∧
        client'.state = client.state ∧
        (client'.delayReqFlag = client.delayReqFlag ∧
            client'.delayReqTimer = client.delayReqTimer ∨
          (∃ message, .send message ∈ effects) ∧ client'.delayReqFlag = false ∧
            client'.delayReqTimer = delayReqInterval)) := by
  cases outcome with
  | ignored unheard unsynced only =>
      right
      rcases only with rfl | ⟨-, address, rfl⟩
      · exact ⟨unheard, rfl, rfl, .inl ⟨rfl, rfl⟩⟩
      · exact ⟨unheard, rfl, rfl, .inl ⟨rfl, rfl⟩⟩
  | accepted heard type long listening reported =>
      rw [heard.onlyAddress.state] at listening
      exact .inl ⟨⟨_, _, _, heard, type, long⟩, rfl, .inl ⟨listening, rfl, rfl, rfl⟩⟩
  | renewed heard type long other reported =>
      left
      rcases heard.onlyAddress with rfl | ⟨listening, address, rfl⟩
      · exact ⟨⟨_, _, _, heard, type, long⟩, rfl, .inr ⟨other, rfl, rfl, rfl⟩⟩
      · exact absurd listening other
  | firstStep heard type slave part =>
      exact .inr ⟨heard.not_announces type (by decide), rfl, rfl, .inl ⟨rfl, rfl⟩⟩
  | @oneStep hdr ptr sync rest heard type slave part read =>
      rcases syncDone_supervision callback env (stamped callback client) hdr sync with
        ⟨⟨state, timeout⟩, request⟩
      exact .inr ⟨heard.not_announces type (by decide), timeout, state, request⟩
  | @followUp hdr ptr sync rest heard type slave part read =>
      rcases syncDone_supervision callback env client hdr sync with ⟨⟨state, timeout⟩, request⟩
      exact .inr ⟨heard.not_announces type (by decide), timeout, state, request⟩
  | response heard type waiting expected requesting read reported =>
      right
      have unheard := heard.not_announces type (by decide)
      rcases heard.onlyAddress with rfl | ⟨-, address, rfl⟩
      · exact ⟨unheard, rfl, rfl, .inl ⟨rfl, rfl⟩⟩
      · exact ⟨unheard, rfl, rfl, .inl ⟨rfl, rfl⟩⟩

/-! ## Timers -/

theorem announceTimer_spec (client : PtpClient κ) :
    (client.announceTimeout = 1 ∧ (announceTimer client).1 =
        { client with state := .listening, delayReqTimer := -1, announceTimeout := -1 }) ∨
      (client.announceTimeout ≤ 0 ∧ (announceTimer client).1 = client) ∨
        1 < client.announceTimeout ∧ (announceTimer client).1 =
          { client with announceTimeout := client.announceTimeout - 1 } := by
  unfold announceTimer
  by_cases pending : 0 < client.announceTimeout
  · rw [if_pos pending]
    dsimp only
    by_cases last : client.announceTimeout - 1 = 0
    · rw [if_pos last]
      exact .inl ⟨by omega, rfl⟩
    · rw [if_neg last]
      exact .inr (.inr ⟨by omega, rfl⟩)
  · rw [if_neg pending]
    exact .inr (.inl ⟨by omega, rfl⟩)

theorem delayReqTimer_spec (client : PtpClient κ) :
    (client.delayReqTimer = 1 ∧ delayReqTimer client =
        { client with delayReqTimer := 0, delayReqFlag := true }) ∨
      (client.delayReqTimer ≤ 0 ∧ delayReqTimer client = client) ∨
        1 < client.delayReqTimer ∧ delayReqTimer client =
          { client with delayReqTimer := client.delayReqTimer - 1 } := by
  unfold delayReqTimer
  by_cases pending : 0 < client.delayReqTimer
  · rw [if_pos pending]
    dsimp only
    by_cases last : client.delayReqTimer - 1 = 0
    · rw [if_pos last, last]
      exact .inl ⟨by omega, rfl⟩
    · rw [if_neg last]
      exact .inr (.inr ⟨by omega, rfl⟩)
  · rw [if_neg pending]
    exact .inr (.inl ⟨by omega, rfl⟩)

/-- The timer event in terms of the countdowns of a supervised client. -/
theorem timer_supervision (supervised : Supervised client) :
    let client' := (timerEvent client).1
    (client'.state = .listening ∧ (client.state = .slave → client.announceTimeout = 1)) ∨
      client.state = .slave ∧ client'.state = .slave ∧ 1 < client.announceTimeout ∧
        client'.announceTimeout = client.announceTimeout - 1 ∧
        (client'.delayReqFlag = true ∨ client'.delayReqFlag = client.delayReqFlag ∧
          0 < client'.delayReqTimer ∧ client'.delayReqTimer = client.delayReqTimer - 1) := by
  dsimp only
  unfold timerEvent
  dsimp only
  rcases supervised.role with listening | slave
  · left
    have role : (announceTimer client).1.state = .listening := by
      rcases announceTimer_spec client with ⟨-, same⟩ | ⟨-, same⟩ | ⟨-, same⟩ <;> rw [same]
      · exact listening
      · exact listening
    refine ⟨?_, fun slave => absurd (listening.symm.trans slave) (by decide)⟩
    rcases delayReqTimer_spec (announceTimer client).1 with
      ⟨-, same⟩ | ⟨-, same⟩ | ⟨-, same⟩ <;> rw [same] <;> exact role
  · have pending := supervised.announce slave
    rcases announceTimer_spec client with ⟨last, same⟩ | ⟨expired, -⟩ | ⟨more, same⟩
    · left
      rw [same]
      exact ⟨rfl, fun _ => last⟩
    · omega
    · right
      rw [same]
      rcases delayReqTimer_spec { client with announceTimeout := client.announceTimeout - 1 } with
        ⟨-, request⟩ | ⟨none, request⟩ | ⟨later, request⟩ <;> rw [request]
      · exact ⟨slave, slave, more, rfl, .inl rfl⟩
      · refine ⟨slave, slave, more, rfl, .inl ?_⟩
        rcases supervised.request slave with due | running
        · exact due
        · exact absurd running (Int.not_lt.mpr none)
      · have left : 0 < client.delayReqTimer - 1 := by
          dsimp only at later
          omega
        exact ⟨slave, slave, more, rfl, .inr ⟨rfl, left, rfl⟩⟩

theorem timer_interval (bound : client.delayReqTimer ≤ delayReqInterval) :
    (timerEvent client).1.delayReqTimer ≤ delayReqInterval := by
  have bounded : (announceTimer client).1.delayReqTimer ≤ delayReqInterval := by
    rcases announceTimer_spec client with ⟨-, same⟩ | ⟨-, same⟩ | ⟨-, same⟩ <;> rw [same]
    · exact (show (-1 : Int) ≤ delayReqInterval by decide)
    · exact bound
    · exact bound
  change (delayReqTimer (announceTimer client).1).delayReqTimer ≤ delayReqInterval
  rcases delayReqTimer_spec (announceTimer client).1 with
    ⟨-, same⟩ | ⟨-, same⟩ | ⟨-, same⟩ <;> rw [same]
  · exact (show (0 : Int) ≤ delayReqInterval by decide)
  · exact bounded
  · dsimp only
    omega

/-! ## Runs -/

theorem supervised_step (callback : ClockCallback κ) (client : PtpClient κ)
    (event : PtpEvent κ) (supervised : Supervised client) :
    Supervised (ptpClient callback client event).2 := by
  cases event with
  | packet packet env =>
      have interval : 0 < delayReqInterval := by decide
      have expiration : 0 < announceExpiration := by decide
      rcases packet_supervision (ptpClient_packet callback client packet env) with
        ⟨-, timeout, ⟨-, slave, due, timer⟩ | ⟨other, state, flag, timer⟩⟩ |
          ⟨-, timeout, state, ⟨flag, timer⟩ | ⟨-, flag, timer⟩⟩
      · exact ⟨.inr slave, fun _ => timeout ▸ expiration, fun _ => .inl due,
          timer ▸ (by decide)⟩
      · exact ⟨state ▸ supervised.role, fun _ => timeout ▸ expiration,
          fun slave => by rw [flag, timer]; exact supervised.request (state ▸ slave),
          timer ▸ supervised.interval⟩
      · exact ⟨state ▸ supervised.role,
          fun slave => by rw [timeout]; exact supervised.announce (state ▸ slave),
          fun slave => by rw [flag, timer]; exact supervised.request (state ▸ slave),
          timer ▸ supervised.interval⟩
      · exact ⟨state ▸ supervised.role,
          fun slave => by rw [timeout]; exact supervised.announce (state ▸ slave),
          fun _ => .inr (timer ▸ interval), timer ▸ Int.le_refl _⟩
  | timer =>
      have interval := timer_interval supervised.interval
      rw [ptpClient_timer]
      rcases timer_supervision supervised with
        ⟨listening, -⟩ | ⟨slave, still, more, timeout, due | ⟨-, running, -⟩⟩
      · exact ⟨.inl listening, fun slave => absurd (listening.symm.trans slave) (by decide),
          fun slave => absurd (listening.symm.trans slave) (by decide), interval⟩
      · exact ⟨.inr still, fun _ => by dsimp only [Prod.swap]; omega, fun _ => .inl due, interval⟩
      · exact ⟨.inr still, fun _ => by dsimp only [Prod.swap]; omega, fun _ => .inr running,
          interval⟩
  | notify packetPtr timestamp =>
      rw [ptpClient_notify]
      unfold nxPtpClientPacketTimestampNotify
      dsimp only
      split
      · exact ⟨supervised.role, supervised.announce, supervised.request, supervised.interval⟩
      · exact supervised
  | clock run =>
      exact ⟨supervised.role, supervised.announce, supervised.request, supervised.interval⟩

/-- The timer events. -/
def PtpEvent.isTimer : PtpEvent κ → Bool
  | .timer => true
  | .packet _ _ | .notify _ _ | .clock _ => false

/-- The event is a packet with an announcement that the client accepts. -/
def AcceptsAnnounce (client : PtpClient κ) : PtpEvent κ → Prop
  | .packet packet _ => Announces client packet
  | .timer | .notify _ _ | .clock _ => False

/-- The event makes the client send a delay request. -/
def SendsRequest (callback : ClockCallback κ) (client : PtpClient κ) (event : PtpEvent κ) :
    Prop :=
  ∃ message, .send message ∈ (ptpClient callback client event).1

/-- The timer events left until a slave stops being one. -/
def slaveTime (client : PtpClient κ) : Nat :=
  if client.state = .slave then client.announceTimeout.toNat else 0

/-- The timer events left until a slave without a due request has one. -/
def requestTime (client : PtpClient κ) : Nat :=
  if client.state = .slave ∧ client.delayReqFlag = false then client.delayReqTimer.toNat else 0

theorem slaveTime_pos_iff (supervised : Supervised client) :
    0 < slaveTime client ↔ client.state = .slave := by
  unfold slaveTime
  split
  · rename_i slave
    have pending := supervised.announce slave
    exact ⟨fun _ => slave, fun _ => by omega⟩
  · rename_i other
    exact ⟨fun positive => absurd positive (Nat.lt_irrefl 0), fun slave => absurd slave other⟩

/-- An accepted announcement sets the time of a slave. -/
theorem slaveTime_accepts (callback : ClockCallback κ) (client : PtpClient κ)
    (event : PtpEvent κ) (supervised : Supervised client)
    (accepts : AcceptsAnnounce client event) :
    slaveTime (ptpClient callback client event).2 = 600 := by
  cases event with
  | packet packet env =>
      have slave : (ptpClient callback client (.packet packet env)).2.state = .slave ∧
          (ptpClient callback client (.packet packet env)).2.announceTimeout = 600 := by
        rcases packet_supervision (ptpClient_packet callback client packet env) with
          ⟨-, timeout, ⟨-, slave, -⟩ | ⟨other, state, -⟩⟩ | ⟨unheard, -⟩
        · exact ⟨slave, timeout⟩
        · exact ⟨state.trans (supervised.role.resolve_left other), timeout⟩
        · exact absurd accepts unheard
      unfold slaveTime
      rw [if_pos slave.1, slave.2]
      rfl
  | timer => exact absurd accepts id
  | notify packetPtr timestamp => exact absurd accepts id
  | clock run => exact absurd accepts id

/-- Any other event takes one from it, if it is a timer event. -/
theorem slaveTime_other (callback : ClockCallback κ) (client : PtpClient κ)
    (event : PtpEvent κ) (supervised : Supervised client)
    (unheard : ¬AcceptsAnnounce client event) :
    slaveTime (ptpClient callback client event).2 =
      slaveTime client - [event].countP PtpEvent.isTimer := by
  cases event with
  | packet packet env =>
      rcases packet_supervision (ptpClient_packet callback client packet env) with
        ⟨heard, -⟩ | ⟨-, timeout, state, -⟩
      · exact absurd heard unheard
      · unfold slaveTime
        rw [state, timeout]
        rfl
  | timer =>
      change slaveTime (timerEvent client).1 = slaveTime client - 1
      unfold slaveTime
      rcases timer_supervision supervised with
        ⟨listening, last⟩ | ⟨slave, still, more, timeout, -⟩
      · rw [if_neg (by rw [listening]; decide)]
        split
        · rename_i slave
          rw [last slave]
          rfl
        · rfl
      · rw [if_pos slave, if_pos still, timeout]
        omega
  | notify packetPtr timestamp =>
      rw [ptpClient_notify]
      unfold nxPtpClientPacketTimestampNotify
      dsimp only
      split <;> rfl
  | clock run => rfl

/-- In every run from the start of the thread, the client is a slave exactly when it has
accepted an announcement and fewer than 600 timer events, the announce timeout, have
passed since. -/
theorem ptp_slave_iff_announced (callback : ClockCallback κ) (client : PtpClient κ)
    (events : List (PtpEvent κ)) :
    ((ptpClient callback).final (threadEntry client) events).state = .slave ↔
      ∃ count < 600, (ptpClient callback).Since AcceptsAnnounce PtpEvent.isTimer
        (threadEntry client) events count := by
  have initial := supervised_threadEntry client
  have keeps := supervised_step callback
  have supervised := Machine.final_of_keeps keeps initial events
  rw [← slaveTime_pos_iff supervised]
  constructor
  · intro positive
    rcases Machine.since_of_pos keeps
        (fun state call held accepts => (slaveTime_accepts callback state call held accepts).le)
        (fun state call held other => (slaveTime_other callback state call held other).le)
        initial rfl events positive
      with ⟨count, since, bound⟩
    exact ⟨count, by omega, since⟩
  · rintro ⟨count, below, since⟩
    have bound := Machine.le_of_since keeps
      (fun state call held accepts => (slaveTime_accepts callback state call held accepts).ge)
      (fun state call held other => (slaveTime_other callback state call held other).ge)
      initial since
    omega

theorem requestTime_le (supervised : Supervised client) : requestTime client ≤ 200 := by
  have interval := supervised.interval
  unfold delayReqInterval at interval
  unfold requestTime
  split
  · omega
  · exact Nat.zero_le 200

/-- Without a request, the time left goes down with every timer event, and not up. -/
theorem requestTime_other (callback : ClockCallback κ) (client : PtpClient κ)
    (event : PtpEvent κ) (supervised : Supervised client)
    (unsent : ¬SendsRequest callback client event) :
    requestTime (ptpClient callback client event).2 ≤
      requestTime client - [event].countP PtpEvent.isTimer := by
  cases event with
  | packet packet env =>
      unfold requestTime
      rcases packet_supervision (ptpClient_packet callback client packet env) with
        ⟨-, -, ⟨-, -, due, -⟩ | ⟨-, state, flag, timer⟩⟩ |
          ⟨-, -, state, ⟨flag, timer⟩ | ⟨sent, -, -⟩⟩
      · rw [if_neg (by rw [due]; exact fun both => absurd both.2 (by decide))]
        exact Nat.zero_le _
      · rw [state, flag, timer]
        exact Nat.le_refl _
      · rw [state, flag, timer]
        exact Nat.le_refl _
      · exact absurd sent unsent
  | timer =>
      change requestTime (timerEvent client).1 ≤ requestTime client - 1
      unfold requestTime
      rcases timer_supervision supervised with
        ⟨listening, -⟩ | ⟨slave, still, -, -, due | ⟨flag, running, timer⟩⟩
      · rw [if_neg (by rw [listening]; exact fun both => absurd both.1 (by decide))]
        exact Nat.zero_le _
      · rw [if_neg (by rw [due]; exact fun both => absurd both.2 (by decide))]
        exact Nat.zero_le _
      · rw [slave, still, flag, timer]
        split
        · omega
        · exact Nat.zero_le _
  | notify packetPtr timestamp =>
      rw [ptpClient_notify]
      unfold nxPtpClientPacketTimestampNotify
      dsimp only
      split <;> exact Nat.le_refl _
  | clock run => exact Nat.le_refl _

/-- In every run from the start of the thread, a slave has a request due or has sent one
fewer than 200 timer events, the interval of the requests, ago. -/
theorem ptp_request_due (callback : ClockCallback κ) (client : PtpClient κ)
    (events : List (PtpEvent κ)) :
    let final := (ptpClient callback).final (threadEntry client) events
    final.state = .slave → final.delayReqFlag = true ∨
      ∃ count < 200, (ptpClient callback).Since (SendsRequest callback) PtpEvent.isTimer
        (threadEntry client) events count := by
  intro final slave
  have initial := supervised_threadEntry client
  have keeps := supervised_step callback
  have supervised : Supervised final := Machine.final_of_keeps keeps initial events
  by_cases due : final.delayReqFlag = true
  · exact .inl due
  · have running := (supervised.request slave).resolve_left due
    have positive : 0 < requestTime final := by
      unfold requestTime
      rw [if_pos ⟨slave, Bool.eq_false_of_not_eq_true due⟩]
      omega
    rcases Machine.since_of_pos keeps
        (fun state call held _ => requestTime_le (keeps state call held))
        (requestTime_other callback) initial rfl events positive
      with ⟨count, since, bound⟩
    have left : requestTime final ≤ 200 - count := bound
    exact .inr ⟨count, by omega, since⟩

end

/-- After an announcement and a Sync. -/
theorem ptp_request_due_first :
    let machine := ptpClient nxPtpClientSoftClockCallback
    let final := machine.final (threadEntry (createdClient ⟨0, 9, 0⟩)) requestingRun
    final.delayReqFlag = true ∨
      ∃ count < 200, machine.Since (SendsRequest nxPtpClientSoftClockCallback) PtpEvent.isTimer
        (threadEntry (createdClient ⟨0, 9, 0⟩)) requestingRun count :=
  ptp_request_due nxPtpClientSoftClockCallback (createdClient ⟨0, 9, 0⟩) requestingRun
    (by decide +kernel)

end EmbeddedBase.NetX
