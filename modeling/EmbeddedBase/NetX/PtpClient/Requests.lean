import EmbeddedBase.NetX.PtpClient.Handling
import EmbeddedBase.Transition.Since

/-!
# Requests and their answers

Over every run of the PTP client, a clock adjustment answers the request that was sent
last, and answers it for the first time: copies of a response, responses to earlier
requests and responses to others leave the clock alone.
-/

namespace EmbeddedBase.NetX

open EmbeddedBase.Data
open EmbeddedBase.Transition

/-- The fields of a client that are set before its thread starts, and kept. -/
structure PtpIdentity where
  interfaceIndex : Nat
  domain : UChar
  transportSpecific : UChar
  portIdentity : Vector UChar 10

/-- The request sent under a sequence number. -/
def PtpIdentity.request (identity : PtpIdentity) (delayReqId : BitVec 16) : List UChar :=
  delayReqMessage identity.transportSpecific identity.domain identity.portIdentity delayReqId

section

variable {κ : Type}

def PtpClient.identity (client : PtpClient κ) : PtpIdentity :=
  ⟨client.interfaceIndex, client.domain, client.transportSpecific, client.portIdentity⟩

/-- In what was done so far, the request is the last thing that was not only reported. -/
def LastRequest (log : List PtpEffect) (message : List UChar) : Prop :=
  ∃ before after, log = before ++ .send message :: after ∧ ∀ effect ∈ after, effect.Reported

/-- A client that waits for its request's time or response has sent the request last. -/
def Pending (client : PtpClient κ) (log : List PtpEffect) : Prop :=
  client.delayState = .idle ∨ LastRequest log (client.identity.request client.delayReqId)

/-- The packet is a response to the client's request of that number. -/
def Answers (client : PtpClient κ) (packet : PtpPacket) (delayReqId : BitVec 16) : Prop :=
  ∃ client₁ hdr ptr after, Heard client packet client₁ hdr ptr ∧ hdr.messageType = 9 ∧
    hdr.sequenceId = delayReqId ∧
    requestingPortIdentity ptr = some (client.identity.portIdentity.toList, after)

variable {callback : ClockCallback κ} {env : PtpEnv κ} {client client' : PtpClient κ}
  {packet : PtpPacket} {effects log : List PtpEffect}

theorem LastRequest.append {message : List UChar} (last : LastRequest log message)
    (reported : ∀ effect ∈ effects, effect.Reported) : LastRequest (log ++ effects) message := by
  rcases last with ⟨before, after, rfl, quiet⟩
  refine ⟨before, after ++ effects, by simp, ?_⟩
  intro effect member
  rcases List.mem_append.mp member with earlier | later
  · exact quiet effect earlier
  · exact reported effect later

/-! ## What a receiver reads -/

/-- A receiver reads the request of a client as it was sent, header for header; the byte of
the domain holds the transport specific field too, so the request reaches the domain that
the two make together. -/
theorem ptp_request_read_back (identity : PtpIdentity) (delayReqId : BitVec 16)
    (receiver : PtpClient κ) (srcAddr : BitVec 32) :
    (nxPtpMsgParseHdr receiver ⟨false, identity.request delayReqId,
        some (srcAddr, receiver.interfaceIndex)⟩).bind Prod.snd =
      if identity.transportSpecific <<< 4 ||| identity.domain = receiver.domain then
        some (delayReqHeader identity.transportSpecific identity.domain identity.portIdentity
          delayReqId, List.replicate 10 0)
      else
        none := by
  have length : (identity.request delayReqId).length = 44 := by
    unfold PtpIdentity.request delayReqMessage
    simp
  have version : (identity.request delayReqId)[1]? = some 2 := rfl
  have domain : (identity.request delayReqId)[4]? =
      some (identity.transportSpecific <<< 4 ||| identity.domain) := rfl
  have read := readHeader_delayReqMessage identity.transportSpecific identity.domain
    identity.portIdentity delayReqId
  unfold nxPtpMsgParseHdr
  dsimp only
  rw [if_neg Bool.false_ne_true, version, domain, length, if_neg (by decide)]
  dsimp only [Option.bind_eq_bind, Option.bind_some]
  by_cases same : identity.transportSpecific <<< 4 ||| identity.domain = receiver.domain
  · rw [if_pos same, if_neg (by rw [same]; simp), if_neg (by simp)]
    unfold PtpIdentity.request
    rw [read]
    rfl
  · rw [if_neg same, if_pos (.inr same)]
    rfl

/-! ## One event -/

/-- What an event does about requests: nothing, up to giving one up, it sends one, or it
adjusts the clock and no longer waits. -/
inductive RequestStep (client client' : PtpClient κ) (effects : List PtpEffect)
    (answers : Prop) : Prop
  | quiet (reported : ∀ effect ∈ effects, effect.Reported)
      (waits : client'.delayState = .idle ∨
        client.delayState ≠ .idle ∧ client'.delayReqId = client.delayReqId)
  | sends (sent : effects = [.send (client'.identity.request client'.delayReqId)])
  | adjusts {offset rest} (waiting : client.delayState = .waitResp) (answer : answers)
      (adjusted : effects = .adjust offset :: rest)
      (reported : ∀ effect ∈ rest, effect.Reported) (done : client'.delayState = .idle)

/-- The requests of a client whose delay state and sequence number stay. -/
theorem RequestStep.same {answers : Prop} (reported : ∀ effect ∈ effects, effect.Reported)
    (state : client'.delayState = client.delayState)
    (number : client'.delayReqId = client.delayReqId) :
    RequestStep client client' effects answers := by
  by_cases idle : client.delayState = .idle
  · exact .quiet reported (.inl (state.trans idle))
  · exact .quiet reported (.inr ⟨idle, number⟩)

theorem syncDone_requests {answers : Prop} (callback : ClockCallback κ) (env : PtpEnv κ)
    (client : PtpClient κ) (hdr : PtpMsgHeader) (sync : PtpTime) :
    let result := syncDone callback env client hdr sync
    result.1.identity = client.identity ∧ RequestStep client result.1 result.2 answers := by
  unfold syncDone
  dsimp only
  split
  · rcases sendDelayReq_spec callback env { client with sync := correctedSync hdr sync } with
      same | ⟨delayTs, same | ⟨packetPtr, delayState, -, -, same⟩⟩
    · rw [same]
      exact ⟨rfl, .same reported_nil rfl rfl⟩
    · rw [same]
      exact ⟨rfl, .quiet reported_nil (.inl rfl)⟩
    · rw [same]
      exact ⟨rfl, .sends rfl⟩
  · exact ⟨rfl, .same reported_nil rfl rfl⟩

theorem packet_requests (outcome : PacketOutcome callback env client packet client' effects) :
    client'.identity = client.identity ∧
      RequestStep client client' effects (Answers client packet client.delayReqId) := by
  cases outcome with
  | ignored unheard unsynced only =>
      rcases only with rfl | ⟨-, address, rfl⟩
      · exact ⟨rfl, .same reported_nil rfl rfl⟩
      · exact ⟨rfl, .same reported_nil rfl rfl⟩
  | accepted heard type long listening reported =>
      rcases heard.onlyAddress with rfl | ⟨-, address, rfl⟩
      · exact ⟨rfl, .quiet reported (.inl rfl)⟩
      · exact ⟨rfl, .quiet reported (.inl rfl)⟩
  | renewed heard type long other reported =>
      rcases heard.onlyAddress with rfl | ⟨-, address, rfl⟩
      · exact ⟨rfl, .same reported rfl rfl⟩
      · exact ⟨rfl, .same reported rfl rfl⟩
  | firstStep heard type slave part => exact ⟨rfl, .same reported_nil rfl rfl⟩
  | @oneStep hdr ptr sync rest heard type slave part read =>
      have step := @syncDone_requests κ (Answers client packet client.delayReqId) callback env
        (stamped callback client) hdr sync
      rcases step with ⟨identity, step⟩
      refine ⟨identity, ?_⟩
      cases step with
      | quiet reported waits => exact .quiet reported waits
      | sends sent => exact .sends sent
      | adjusts waiting answer adjusted reported done =>
          exact .adjusts waiting answer adjusted reported done
  | @followUp hdr ptr sync rest heard type slave part read =>
      exact syncDone_requests callback env client hdr sync
  | response heard type waiting expected requesting read reported =>
      rcases heard.onlyAddress with rfl | ⟨-, address, rfl⟩
      · exact ⟨rfl, .adjusts waiting ⟨_, _, _, _, heard, type, expected.symm, requesting⟩ rfl
          reported rfl⟩
      · exact ⟨rfl, .adjusts waiting ⟨_, _, _, _, heard, type, expected.symm, requesting⟩ rfl
          reported rfl⟩

/-- The event is the reception of a response to the client's request of that number. -/
def AnswersRequest (client : PtpClient κ) (delayReqId : BitVec 16) : PtpEvent κ → Prop
  | .packet packet _ => Answers client packet delayReqId
  | .timer | .notify _ _ | .clock _ => False

theorem step_requests (callback : ClockCallback κ) (client : PtpClient κ)
    (event : PtpEvent κ) :
    (ptpClient callback client event).2.identity = client.identity ∧
      RequestStep client (ptpClient callback client event).2 (ptpClient callback client event).1
        (AnswersRequest client client.delayReqId event) := by
  cases event with
  | packet packet env => exact packet_requests (ptpClient_packet callback client packet env)
  | timer =>
      rcases timerEvent_spec client with ⟨reported, state, timeout, timer, flag, same⟩
      rw [ptpClient_timer, Prod.snd_swap, Prod.fst_swap, same]
      exact ⟨rfl, .same reported rfl rfl⟩
  | notify packetPtr timestamp =>
      rw [ptpClient_notify]
      unfold nxPtpClientPacketTimestampNotify
      dsimp only
      split
      · rename_i waiting
        exact ⟨rfl, .quiet reported_nil (.inr ⟨by rw [waiting.1]; decide, rfl⟩)⟩
      · exact ⟨rfl, .same reported_nil rfl rfl⟩
  | clock run => exact ⟨rfl, .same reported_nil rfl rfl⟩

/-! ## Runs -/

theorem Pending.step {answers : Prop} (pending : Pending client log)
    (identity : client'.identity = client.identity)
    (step : RequestStep client client' effects answers) : Pending client' (log ++ effects) := by
  cases step with
  | quiet reported waits =>
      rcases waits with idle | ⟨waiting, number⟩
      · exact .inl idle
      · right
        rw [identity, number]
        exact (pending.resolve_left waiting).append reported
  | sends sent =>
      right
      rw [sent]
      exact ⟨log, [], rfl, reported_nil⟩
  | adjusts waiting answer adjusted reported done => exact .inl done

theorem pending_run (callback : ClockCallback κ) (client : PtpClient κ)
    (idle : client.delayState = .idle) (events : List (PtpEvent κ)) :
    ((ptpClient callback).final client events).identity = client.identity ∧
      Pending ((ptpClient callback).final client events)
        ((ptpClient callback).replies client events).flatten := by
  induction events using List.reverseRecOn with
  | nil => exact ⟨rfl, .inl idle⟩
  | append_singleton events event ih =>
      rcases ih with ⟨identity, pending⟩
      rcases step_requests callback ((ptpClient callback).final client events) event with
        ⟨same, step⟩
      have flat : ((ptpClient callback).replies client (events ++ [event])).flatten =
          ((ptpClient callback).replies client events).flatten ++
            (ptpClient callback ((ptpClient callback).final client events) event).1 := by
        simp
      rw [Machine.final_concat, flat]
      exact ⟨same.trans identity, pending.step same step⟩

/-- In every run of a client that starts idle, an event that adjusts the clock is a response
to the request sent last, and nothing was adjusted since that request. -/
theorem ptp_adjust_answers_request (callback : ClockCallback κ) {client : PtpClient κ}
    (idle : client.delayState = .idle) (events : List (PtpEvent κ)) {event : PtpEvent κ}
    {offset : PtpTime} :
    let before := (ptpClient callback).final (threadEntry client) events
    .adjust offset ∈ (ptpClient callback before event).1 →
      AnswersRequest before before.delayReqId event ∧
        ∃ earlier since, ((ptpClient callback).replies (threadEntry client) events).flatten =
            earlier ++ .send (client.identity.request before.delayReqId) :: since ∧
          ∀ effect ∈ since, effect.Reported := by
  intro before adjusts
  have start : (threadEntry client).delayState = .idle := idle
  rcases pending_run callback (threadEntry client) start events with ⟨identity, pending⟩
  rcases step_requests callback before event with ⟨-, step⟩
  cases step with
  | quiet reported waits => exact absurd (reported _ adjusts) id
  | sends sent =>
      rw [sent] at adjusts
      cases List.mem_singleton.mp adjusts
  | adjusts waiting answer adjusted reported done =>
      have last := pending.resolve_left fun none => by
        rw [show before.delayState = .idle from none] at waiting
        cases waiting
      rw [identity] at last
      exact ⟨answer, last⟩

end

/-- The response to the first request sets the clock three seconds back. -/
theorem ptp_adjust_answers_request_first :
    let machine := ptpClient nxPtpClientSoftClockCallback
    let client := createdClient ⟨0, 9, 0⟩
    let before := machine.final (threadEntry client) requestingRun
    AnswersRequest before before.delayReqId responseEvent ∧
      ∃ earlier since, (machine.replies (threadEntry client) requestingRun).flatten =
          earlier ++ .send (client.identity.request before.delayReqId) :: since ∧
        ∀ effect ∈ since, effect.Reported :=
  @ptp_adjust_answers_request PtpTime nxPtpClientSoftClockCallback (createdClient ⟨0, 9, 0⟩) rfl
    requestingRun responseEvent ⟨0xffffffff, 0xfffffffd, 0⟩ (by decide +kernel)

end EmbeddedBase.NetX
