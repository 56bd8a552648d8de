import EmbeddedBase.NetX.PtpClient.Requests
import EmbeddedBase.Transition.Erasure

/-!
# A slave hears its master only

What other ports send to a slave, announcements, Syncs and responses alike, has no effect:
over every run, the packets of the others can be erased.
-/

namespace EmbeddedBase.NetX

open EmbeddedBase.Data
open EmbeddedBase.Transition

section

variable {κ : Type}

/-- The port identity in the header of a packet that is not discarded. -/
def sender (client : PtpClient κ) (packet : PtpPacket) : Option (List UChar) :=
  ((nxPtpMsgParseHdr client packet).bind Prod.snd).map fun read => read.1.sourcePortIdentity

/-- The packets of that port, and everything that is not a packet. -/
def fromPort (client : PtpClient κ) (port : List UChar) : PtpEvent κ → Bool
  | .packet packet _ => sender client packet = some port
  | .timer | .notify _ _ | .clock _ => true

/-- The client is a slave of the master at that port. -/
def SlaveOf (identity : PtpIdentity) (port : List UChar) (client : PtpClient κ) : Prop :=
  client.state = .slave ∧ client.identity = identity ∧ client.masterPortIdentity = port

variable {callback : ClockCallback κ} {env : PtpEnv κ} {client client' : PtpClient κ}
  {packet : PtpPacket} {effects : List PtpEffect}

/-- The header is read in the same way by every client of an identity. -/
theorem parseHdr_result (same : client'.identity = client.identity) :
    (nxPtpMsgParseHdr client' packet).bind Prod.snd =
      (nxPtpMsgParseHdr client packet).bind Prod.snd := by
  rw [PtpClient.identity, PtpClient.identity, PtpIdentity.mk.injEq] at same
  unfold nxPtpMsgParseHdr
  rw [same.1, same.2.1]
  split
  · rfl
  · dsimp only
    split
    · rfl
    · simp only [Option.bind_eq_bind, Option.pure_def]
      rcases packet.message[1]? with - | version
      · rfl
      · rcases packet.message[4]? with - | domain
        · rfl
        · simp only [Option.bind_some]
          split
          · rfl
          · rcases packet.source with - | ⟨srcAddr, interfaceIndex⟩
            · rfl
            · dsimp only
              split
              · rfl
              · rcases readHeader packet.message with - | ⟨hdr, ptr⟩
                · rfl
                · simp only [Option.bind_some]
                  split
                  · split <;> rfl
                  · rfl

theorem sender_congr (same : client'.identity = client.identity) :
    sender client' packet = sender client packet := by
  unfold sender
  rw [parseHdr_result same]

theorem fromPort_congr (same : client'.identity = client.identity) (port : List UChar) :
    fromPort client' port = fromPort client port := by
  funext event
  cases event with
  | packet packet env =>
      exact congrArg (fun from' => decide (from' = some port)) (sender_congr same)
  | timer | notify | clock => rfl

/-! ## One event -/

/-- A slave drops what is not from its master. -/
theorem processPacket_foreign (callback : ClockCallback κ) (env : PtpEnv κ)
    (slave : client.state = .slave)
    (foreign : sender client packet ≠ some client.masterPortIdentity) :
    processPacket callback env client packet = some (client, []) := by
  rcases parseHdr_spec client packet with ⟨client₁, result, parsed, only⟩
  have same : client₁ = client := only.eq_of_slave slave
  subst same
  unfold sender at foreign
  unfold processPacket
  rw [parsed] at foreign ⊢
  dsimp only [Option.bind_eq_bind, Option.bind_some]
  rcases result with - | ⟨hdr, ptr⟩
  · rfl
  · have other : client₁.masterPortIdentity ≠ hdr.sourcePortIdentity := by
      intro equal
      exact foreign (congrArg some equal.symm)
    dsimp only
    rw [if_pos ⟨slave, other⟩]
    rfl

theorem syncDone_master (callback : ClockCallback κ) (env : PtpEnv κ) (client : PtpClient κ)
    (hdr : PtpMsgHeader) (sync : PtpTime) :
    (syncDone callback env client hdr sync).1.masterPortIdentity = client.masterPortIdentity := by
  unfold syncDone
  dsimp only
  split
  · rcases sendDelayReq_spec callback env { client with sync := correctedSync hdr sync } with
      same | ⟨delayTs, same | ⟨packetPtr, delayState, -, -, same⟩⟩ <;> rw [same]
  · rfl

theorem packet_master (outcome : PacketOutcome callback env client packet client' effects)
    (slave : client.state = .slave) :
    client'.masterPortIdentity = client.masterPortIdentity := by
  cases outcome with
  | ignored unheard unsynced only => rw [only.eq_of_slave slave]
  | accepted heard type long listening reported =>
      rw [heard.onlyAddress.eq_of_slave slave, slave] at listening
      cases listening
  | @renewed client₁ hdr ptr flags utcOffset effects heard type long other reported =>
      exact (show client₁.masterPortIdentity = client.masterPortIdentity by
        rw [heard.onlyAddress.eq_of_slave slave])
  | firstStep heard type slave part => rfl
  | oneStep heard type slave part read => exact syncDone_master callback env _ _ _
  | followUp heard type slave part read => exact syncDone_master callback env _ _ _
  | @response client₁ hdr ptr after t4 rest flags effects heard type waiting expected own read
      reported =>
      exact (show client₁.masterPortIdentity = client.masterPortIdentity by
        rw [heard.onlyAddress.eq_of_slave slave])

/-- A slave keeps its master while it is one. -/
theorem step_master (callback : ClockCallback κ) (client : PtpClient κ) (event : PtpEvent κ)
    (slave : client.state = .slave) :
    (ptpClient callback client event).2.masterPortIdentity = client.masterPortIdentity := by
  cases event with
  | packet packet env => exact packet_master (ptpClient_packet callback client packet env) slave
  | timer =>
      rcases timerEvent_spec client with ⟨-, state, timeout, timer, flag, same⟩
      rw [ptpClient_timer, Prod.snd_swap, same]
  | notify packetPtr timestamp =>
      rw [ptpClient_notify]
      unfold nxPtpClientPacketTimestampNotify
      dsimp only
      split <;> rfl
  | clock run => rfl

theorem ignores_foreign (callback : ClockCallback κ) (client : PtpClient κ)
    (port : List UChar) :
    (ptpClient callback).Ignores (SlaveOf client.identity port) (fromPort client port) := by
  rintro other event ⟨slave, identity, master⟩ foreign
  rw [← fromPort_congr identity] at foreign
  cases event with
  | packet packet env =>
      have unheard : sender other packet ≠ some other.masterPortIdentity := by
        rw [master]
        exact of_decide_eq_false foreign
      have step : ptpStep callback other (.packet packet env) = some ([], other) := by
        rw [ptpStep_packet, processPacket_foreign callback env slave unheard]
        rfl
      have total := Faulting.eq_some_total (ptpStep_defined callback) other (.packet packet env)
      exact Option.some.inj (total.symm.trans step)
  | timer | notify | clock => cases foreign

/-! ## Runs -/

/-- A slave whose master alone would keep it a slave ends as that master alone would have
left it, with the same effects, whatever other ports send in between. -/
theorem ptp_slave_isolated (callback : ClockCallback κ) {client : PtpClient κ}
    (slave : client.state = .slave) {events : List (PtpEvent κ)} :
    let machine := ptpClient callback
    let own := events.filter (fromPort client client.masterPortIdentity)
    machine.Always (fun before event => (machine before event).2.state = .slave) client own →
      machine.final client events = machine.final client own ∧
        (machine.replies client events).flatten = (machine.replies client own).flatten := by
  intro machine own stays
  have keeps (before : PtpClient κ) (event : PtpEvent κ) (role : before.state = .slave)
      (same : before.identity = client.identity ∧
        before.masterPortIdentity = client.masterPortIdentity) :
      (machine before event).2.identity = client.identity ∧
        (machine before event).2.masterPortIdentity = client.masterPortIdentity :=
    ⟨(step_requests callback before event).1.trans same.1,
      (step_master callback before event role).trans same.2⟩
  exact (ignores_foreign callback client client.masterPortIdentity).erase ⟨slave, rfl, rfl⟩
    (stays.and keeps slave ⟨rfl, rfl⟩)

end

/-- A response from another port before the one from the master. -/
theorem ptp_slave_isolated_response :
    let machine := ptpClient nxPtpClientSoftClockCallback
    let client := machine.final (threadEntry (createdClient ⟨0, 9, 0⟩)) requestingRun
    let response := masterPacket 9 1 (secondsBytes 7 ++ List.replicate 10 0)
    let events := [.packet { response with message := response.message.set 20 1 } sendingEnv,
      responseEvent]
    let own := events.filter (fromPort client client.masterPortIdentity)
    machine.final client events = machine.final client own ∧
      (machine.replies client events).flatten = (machine.replies client own).flatten :=
  ptp_slave_isolated nxPtpClientSoftClockCallback (by decide +kernel) (by decide +kernel)

end EmbeddedBase.NetX
