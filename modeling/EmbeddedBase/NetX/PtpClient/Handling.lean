import EmbeddedBase.NetX.PtpClient.Client

/-!
# What the handling of a packet can do

One lemma for each handler of the PTP client, and from these the ways a packet can end.
The length checks of the handlers cover their reads, so no packet makes the client read
outside of it.
-/

namespace EmbeddedBase.NetX

open EmbeddedBase.Data
open EmbeddedBase.Transition

section

variable {κ : Type} {callback : ClockCallback κ} {env : PtpEnv κ}
  {client client₁ client' : PtpClient κ} {packet : PtpPacket} {hdr : PtpMsgHeader}
  {ptr : List UChar} {effects : List PtpEffect}

/-! ## Headers -/

/-- Nothing is different but the master's address, and that only while listening. -/
def OnlyAddress (client client' : PtpClient κ) : Prop :=
  client' = client ∨
    client.state = .listening ∧ ∃ address, client' = { client with masterAddr := address }

theorem OnlyAddress.state (only : OnlyAddress client client') : client'.state = client.state := by
  rcases only with rfl | ⟨-, address, rfl⟩
  · rfl
  · rfl

theorem OnlyAddress.clock (only : OnlyAddress client client') : client'.clock = client.clock := by
  rcases only with rfl | ⟨-, address, rfl⟩
  · rfl
  · rfl

theorem OnlyAddress.eq_of_slave (only : OnlyAddress client client')
    (slave : client.state = .slave) : client' = client := by
  rcases only with same | ⟨listening, -⟩
  · exact same
  · rw [slave] at listening
    cases listening

theorem parseHdr_spec (client : PtpClient κ) (packet : PtpPacket) :
    ∃ client' result, nxPtpMsgParseHdr client packet = some (client', result) ∧
      OnlyAddress client client' := by
  unfold nxPtpMsgParseHdr
  by_cases chained : packet.chained = true
  · rw [if_pos chained]
    exact ⟨client, none, rfl, .inl rfl⟩
  · rw [if_neg chained]
    dsimp only
    by_cases short : packet.message.length < 34
    · rw [if_pos short]
      exact ⟨client, none, rfl, .inl rfl⟩
    · have long : 34 ≤ packet.message.length := by omega
      have byte (index : Nat) (inside : index < 34) : ∃ b, packet.message[index]? = some b :=
        ⟨_, List.getElem?_eq_getElem (Nat.lt_of_lt_of_le inside long)⟩
      rcases byte 1 (by decide) with ⟨version, readVersion⟩
      rcases byte 4 (by decide) with ⟨domain, readDomain⟩
      rw [if_neg short, readVersion, readDomain]
      dsimp only [Option.bind_eq_bind, Option.bind_some]
      split
      · exact ⟨client, none, rfl, .inl rfl⟩
      · rcases packet.source with - | ⟨srcAddr, interfaceIndex⟩
        · exact ⟨client, none, rfl, .inl rfl⟩
        · dsimp only
          split
          · exact ⟨client, none, rfl, .inl rfl⟩
          · rcases takes_readHeader packet.message long with ⟨hdr, read⟩
            have only : OnlyAddress client (if client.state = .listening then
                { client with masterAddr := srcAddr } else client) := by
              split
              · rename_i listening
                exact .inr ⟨listening, srcAddr, rfl⟩
              · exact .inl rfl
            rw [read, Option.bind_some]
            dsimp only
            split
            · split
              · exact ⟨_, none, rfl, only⟩
              · exact ⟨_, _, rfl, only⟩
            · exact ⟨_, _, rfl, only⟩

/-! ## Requests -/

theorem packetTsPrepare_spec (callback : ClockCallback κ) (packetPtr : Nat)
    (client : PtpClient κ) (waiting : client.delayState = .waitReqTs) :
    let result := callback .packetTsPrepare client.delayTs client.clock
    ∃ delayTs delayState, delayState ≠ .idle ∧
      (delayState = .waitResp → result.notified = some delayTs) ∧
      packetTsPrepare callback client packetPtr =
        { client with delayTs := delayTs, clock := result.clock, delayState := delayState } := by
  unfold packetTsPrepare
  dsimp only
  split
  · exact ⟨_, .waitReqTs, by decide, nofun, by rw [← waiting]⟩
  · rename_i timestamp notified
    unfold nxPtpClientPacketTimestampNotify
    split
    · exact ⟨_, .waitResp, by decide, fun _ => notified, rfl⟩
    · exact ⟨_, .waitReqTs, by decide, nofun, by rw [← waiting]⟩

/-- No packet for a request, one that is not sent, and one that is. -/
theorem sendDelayReq_spec (callback : ClockCallback κ) (env : PtpEnv κ) (client : PtpClient κ) :
    let result := callback .packetTsPrepare client.delayTs client.clock
    nxPtpClientSendDelayReq callback env client = (client, []) ∨
      ∃ delayTs,
        nxPtpClientSendDelayReq callback env client =
            ({ client with
                delayReqId := client.delayReqId + 1
                delayTs := delayTs
                clock := result.clock
                delayState := .idle
                delayReqPacketPtr := none }, []) ∨
          ∃ packetPtr delayState, delayState ≠ .idle ∧
            (delayState = .waitResp → result.notified = some delayTs) ∧
            nxPtpClientSendDelayReq callback env client =
              ({ client with
                  delayReqId := client.delayReqId + 1
                  delayTs := delayTs
                  clock := result.clock
                  delayState := delayState
                  delayReqPacketPtr := some packetPtr
                  delayReqTimer := delayReqInterval
                  delayReqFlag := false },
                [.send (delayReqMessage client.transportSpecific client.domain
                  client.portIdentity (client.delayReqId + 1))]) := by
  unfold nxPtpClientSendDelayReq
  rcases env.packetPtr with - | packetPtr
  · exact .inl rfl
  · right
    rcases packetTsPrepare_spec callback packetPtr
        { client with
          delayReqId := client.delayReqId + 1
          delayState := .waitReqTs
          delayReqPacketPtr := some packetPtr } rfl
      with ⟨delayTs, delayState, waits, notified, prepared⟩
    dsimp only at notified prepared ⊢
    rw [prepared]
    refine ⟨delayTs, ?_⟩
    by_cases sent : env.sent = true
    · rw [if_pos sent]
      exact .inr ⟨packetPtr, delayState, waits, notified, rfl⟩
    · rw [if_neg sent]
      exact .inl rfl

/-! ## Messages -/

/-- An effect that is only reported to the application. -/
def PtpEffect.Reported : PtpEffect → Prop
  | .send _ | .adjust _ => False
  | .eventMaster _ _ _ | .eventSync _ _ | .eventTimeout => True

theorem reported_nil : ∀ effect ∈ ([] : List PtpEffect), effect.Reported := by
  intro effect member
  cases member

theorem reported_ite {condition : Prop} [Decidable condition] {effect : PtpEffect}
    (reported : effect.Reported) :
    ∀ other ∈ (if condition then [effect] else []), other.Reported := by
  intro other member
  split at member
  · rw [List.mem_singleton.mp member]
    exact reported
  · cases member

/-- The client after the timestamp of a Sync with its correction is stored. -/
def syncDone (callback : ClockCallback κ) (env : PtpEnv κ) (client : PtpClient κ)
    (hdr : PtpMsgHeader) (sync : PtpTime) : PtpClient κ × List PtpEffect :=
  let client := { client with sync := correctedSync hdr sync }
  if client.delayReqFlag then nxPtpClientSendDelayReq callback env client else (client, [])

theorem syncReceived_spec (callback : ClockCallback κ) (env : PtpEnv κ) (client : PtpClient κ)
    (hdr : PtpMsgHeader) (long : 10 ≤ ptr.length) :
    ∃ sync rest, nxPtpMsgParseTimestamp ptr = some (sync, rest) ∧
      nxPtpClientSyncReceived callback env client ptr hdr =
        some (syncDone callback env client hdr sync) := by
  rcases takes_parseTimestamp ptr long with ⟨sync, read⟩
  refine ⟨sync, _, read, ?_⟩
  unfold nxPtpClientSyncReceived syncDone
  rw [read]
  dsimp only [Option.bind_eq_bind, Option.bind_some]
  split <;> rfl

theorem delayRespReceived_spec (callback : ClockCallback κ) (env : PtpEnv κ)
    (client : PtpClient κ) (long : 10 ≤ ptr.length) :
    nxPtpClientDelayRespReceived callback env client ptr = some (client, []) ∨
      ∃ t4 rest flags effects, nxPtpMsgParseTimestamp ptr = some (t4, rest) ∧
        (∀ effect ∈ effects, effect.Reported) ∧
        let offset := measuredOffset client.sync client.syncTs client.delayTs t4
        nxPtpClientDelayRespReceived callback env client ptr =
          some ({ client with
              clock := nxPtpClientClockAdjust callback env.current env.meanwhile offset client.clock
              delayState := .idle
              syncFlags := flags },
            .adjust offset :: effects) := by
  rcases takes_parseTimestamp ptr long with ⟨t4, read⟩
  unfold nxPtpClientDelayRespReceived
  split
  · exact .inl rfl
  · right
    rw [read]
    dsimp only [Option.bind_eq_bind, Option.bind_some]
    split
    · exact ⟨t4, _, client.syncFlags ||| syncCalibrated, _, rfl, reported_ite (by trivial), rfl⟩
    · exact ⟨t4, _, client.syncFlags, [], rfl, reported_nil, rfl⟩

theorem initPacketReceived_spec (client : PtpClient κ) (hdr : PtpMsgHeader)
    (long : 30 ≤ ptr.length) :
    ∃ flags utcOffset effects, (∀ effect ∈ effects, PtpEffect.Reported effect) ∧
      (client.state = .listening →
        nxPtpClientInitPacketReceived client hdr ptr = some ({ client with
          syncFlags := flags
          utcOffset := utcOffset
          masterPortIdentity := hdr.sourcePortIdentity
          state := .slave
          delayState := .idle
          delayReqTimer := -1
          delayReqFlag := true
          prevSync := ⟨0, 0, 0⟩
          prevSyncTs := ⟨0, 0, 0⟩
          sync := ⟨0, 0, 0⟩
          syncTs := ⟨0, 0, 0⟩
          announceTimeout := announceExpiration }, effects)) ∧
      (client.state ≠ .listening →
        nxPtpClientInitPacketReceived client hdr ptr = some ({ client with
          syncFlags := flags
          utcOffset := utcOffset
          announceTimeout := announceExpiration }, effects)) := by
  rcases takes_utcOffset ptr (by omega) with ⟨utcOffset, readOffset⟩
  rcases takes_parseAnnounce ptr long with ⟨master, read⟩
  unfold nxPtpClientInitPacketReceived
  rw [readOffset, read]
  dsimp only [Option.bind_eq_bind, Option.bind_some]
  by_cases listening : client.state = .listening
  · rw [if_pos listening]
    exact ⟨_, utcOffset, _, reported_ite (by trivial), fun _ => rfl,
      fun other => absurd listening other⟩
  · rw [if_neg listening]
    split
    · exact ⟨_, utcOffset, _, reported_ite (by trivial), fun same => absurd same listening,
        fun _ => rfl⟩
    · rename_i same
      refine ⟨client.syncFlags, utcOffset, [], reported_nil,
        fun same => absurd same listening, fun _ => ?_⟩
      rw [← not_not.mp (not_or.mp same).2]
      rfl

/-! ## Packets -/

/-- The packet's header and body reach the handlers of the client. -/
def Heard (client : PtpClient κ) (packet : PtpPacket) (client₁ : PtpClient κ)
    (hdr : PtpMsgHeader) (ptr : List UChar) : Prop :=
  nxPtpMsgParseHdr client packet = some (client₁, some (hdr, ptr)) ∧
    (client₁.state = .slave → client₁.masterPortIdentity = hdr.sourcePortIdentity)

/-- The packet is an announcement that reaches its handler. -/
def Announces (client : PtpClient κ) (packet : PtpPacket) : Prop :=
  ∃ client₁ hdr ptr, Heard client packet client₁ hdr ptr ∧ hdr.messageType = 11 ∧
    30 ≤ ptr.length

/-- The header and body of a packet that reaches the handlers. -/
def heardHeader (client : PtpClient κ) (packet : PtpPacket) :
    Option (PtpMsgHeader × List UChar) :=
  match nxPtpMsgParseHdr client packet with
  | some (client, some (hdr, ptr)) =>
      if client.state = .slave ∧ client.masterPortIdentity ≠ hdr.sourcePortIdentity then
        none
      else
        some (hdr, ptr)
  | some (_, none) | none => none

/-- What a packet can be of a Sync: all of it, its first step, or its Follow_Up. -/
inductive SyncPart where
  | whole
  | firstStep
  | followUp
  deriving DecidableEq

/-- The part of a Sync that a slave takes from a packet. -/
def syncPart (client : PtpClient κ) (packet : PtpPacket) : Option SyncPart :=
  match heardHeader client packet with
  | none => none
  | some (hdr, ptr) =>
      if client.state ≠ .slave ∨ ptr.length < 10 then
        none
      else if hdr.messageType = 0 then
        some (if hdr.flagField &&& 0x200 ≠ 0 then .firstStep else .whole)
      else if hdr.messageType = 8 ∧ client.syncId = hdr.sequenceId then
        some .followUp
      else
        none

theorem Heard.onlyAddress (heard : Heard client packet client₁ hdr ptr) :
    OnlyAddress client client₁ := by
  rcases parseHdr_spec client packet with ⟨client', result, parsed, only⟩
  rw [heard.1] at parsed
  cases parsed
  exact only

end

section

variable {κ : Type}

/-- The client after the reception of a Sync is stamped. -/
def stamped (callback : ClockCallback κ) (client : PtpClient κ) : PtpClient κ :=
  let result := callback .packetTsExtract client.syncTs client.clock
  { client with
    prevSync := client.sync
    prevSyncTs := client.syncTs
    syncTs := result.time
    clock := result.clock }

/-- The ways the handling of a packet can end. -/
inductive PacketOutcome (callback : ClockCallback κ) (env : PtpEnv κ) (client : PtpClient κ)
    (packet : PtpPacket) : PtpClient κ → List PtpEffect → Prop
  | ignored {client' : PtpClient κ} (unheard : ¬Announces client packet)
      (unsynced : syncPart client packet = none) (only : OnlyAddress client client') :
      PacketOutcome callback env client packet client' []
  | accepted {client₁ hdr ptr flags utcOffset effects}
      (heard : Heard client packet client₁ hdr ptr) (type : hdr.messageType = 11)
      (long : 30 ≤ ptr.length) (listening : client₁.state = .listening)
      (reported : ∀ effect ∈ effects, PtpEffect.Reported effect) :
      PacketOutcome callback env client packet { client₁ with
        syncFlags := flags
        utcOffset := utcOffset
        masterPortIdentity := hdr.sourcePortIdentity
        state := .slave
        delayState := .idle
        delayReqTimer := -1
        delayReqFlag := true
        prevSync := ⟨0, 0, 0⟩
        prevSyncTs := ⟨0, 0, 0⟩
        sync := ⟨0, 0, 0⟩
        syncTs := ⟨0, 0, 0⟩
        announceTimeout := announceExpiration } effects
  | renewed {client₁ hdr ptr flags utcOffset effects}
      (heard : Heard client packet client₁ hdr ptr) (type : hdr.messageType = 11)
      (long : 30 ≤ ptr.length) (other : client₁.state ≠ .listening)
      (reported : ∀ effect ∈ effects, PtpEffect.Reported effect) :
      PacketOutcome callback env client packet { client₁ with
        syncFlags := flags
        utcOffset := utcOffset
        announceTimeout := announceExpiration } effects
  | firstStep {hdr ptr} (heard : Heard client packet client hdr ptr) (type : hdr.messageType = 0)
      (slave : client.state = .slave) (part : syncPart client packet = some .firstStep) :
      PacketOutcome callback env client packet
        { stamped callback client with syncId := hdr.sequenceId } []
  | oneStep {hdr ptr sync rest} (heard : Heard client packet client hdr ptr)
      (type : hdr.messageType = 0) (slave : client.state = .slave)
      (part : syncPart client packet = some .whole)
      (read : nxPtpMsgParseTimestamp ptr = some (sync, rest)) :
      PacketOutcome callback env client packet
        (syncDone callback env (stamped callback client) hdr sync).1
        (syncDone callback env (stamped callback client) hdr sync).2
  | followUp {hdr ptr sync rest} (heard : Heard client packet client hdr ptr)
      (type : hdr.messageType = 8) (slave : client.state = .slave)
      (part : syncPart client packet = some .followUp)
      (read : nxPtpMsgParseTimestamp ptr = some (sync, rest)) :
      PacketOutcome callback env client packet
        (syncDone callback env client hdr sync).1 (syncDone callback env client hdr sync).2
  | response {client₁ hdr ptr after t4 rest flags effects}
      (heard : Heard client packet client₁ hdr ptr) (type : hdr.messageType = 9)
      (waiting : client₁.delayState = .waitResp) (expected : client₁.delayReqId = hdr.sequenceId)
      (requesting : requestingPortIdentity ptr = some (client₁.portIdentity.toList, after))
      (read : nxPtpMsgParseTimestamp ptr = some (t4, rest))
      (reported : ∀ effect ∈ effects, PtpEffect.Reported effect) :
      PacketOutcome callback env client packet { client₁ with
          clock := nxPtpClientClockAdjust callback env.current env.meanwhile
            (measuredOffset client₁.sync client₁.syncTs client₁.delayTs t4) client₁.clock
          delayState := .idle
          syncFlags := flags }
        (.adjust (measuredOffset client₁.sync client₁.syncTs client₁.delayTs t4) :: effects)

variable {client client₁ : PtpClient κ} {packet : PtpPacket} {hdr : PtpMsgHeader}
  {ptr : List UChar}

theorem Heard.parsed {other : PtpClient κ} {result : Option (PtpMsgHeader × List UChar)}
    (heard : Heard client packet client₁ hdr ptr)
    (parsed : nxPtpMsgParseHdr client packet = some (other, result)) :
    other = client₁ ∧ result = some (hdr, ptr) := by
  have same := parsed.symm.trans heard.1
  rw [Option.some.injEq, Prod.mk.injEq] at same
  exact same

theorem Heard.announces_iff (heard : Heard client packet client₁ hdr ptr) :
    Announces client packet ↔ hdr.messageType = 11 ∧ 30 ≤ ptr.length := by
  constructor
  · rintro ⟨other, otherHdr, otherPtr, also, type, long⟩
    rcases also.parsed heard.1 with ⟨-, same⟩
    cases same
    exact ⟨type, long⟩
  · rintro ⟨type, long⟩
    exact ⟨client₁, hdr, ptr, heard, type, long⟩

theorem Heard.not_announces (heard : Heard client packet client₁ hdr ptr) {type : UChar}
    (same : hdr.messageType = type) (other : type ≠ 11) : ¬Announces client packet := by
  rw [heard.announces_iff, same]
  exact fun announce => other announce.1

theorem not_announces_of_none (parsed : nxPtpMsgParseHdr client packet = some (client₁, none)) :
    ¬Announces client packet := by
  rintro ⟨other, hdr, ptr, heard, -⟩
  cases (heard.parsed parsed).2

theorem not_announces_of_foreign
    (parsed : nxPtpMsgParseHdr client packet = some (client₁, some (hdr, ptr)))
    (foreign : client₁.state = .slave ∧ client₁.masterPortIdentity ≠ hdr.sourcePortIdentity) :
    ¬Announces client packet := by
  rintro ⟨other, otherHdr, otherPtr, heard, -⟩
  rcases heard.parsed parsed with ⟨rfl, same⟩
  cases same
  exact foreign.2 (heard.2 foreign.1)

theorem Heard.heardHeader_eq (heard : Heard client packet client₁ hdr ptr) :
    heardHeader client packet = some (hdr, ptr) := by
  unfold heardHeader
  rw [heard.1]
  exact if_neg fun foreign => foreign.2 (heard.2 foreign.1)

theorem Heard.syncPart_eq (heard : Heard client packet client₁ hdr ptr) :
    syncPart client packet =
      if client.state ≠ .slave ∨ ptr.length < 10 then
        none
      else if hdr.messageType = 0 then
        some (if hdr.flagField &&& 0x200 ≠ 0 then .firstStep else .whole)
      else if hdr.messageType = 8 ∧ client.syncId = hdr.sequenceId then
        some .followUp
      else
        none := by
  unfold syncPart
  rw [heard.heardHeader_eq]

theorem Heard.unsynced (heard : Heard client packet client₁ hdr ptr) (sync : hdr.messageType ≠ 0)
    (followUp : hdr.messageType ≠ 8) : syncPart client packet = none := by
  have other : ¬(hdr.messageType = 8 ∧ client.syncId = hdr.sequenceId) := fun both =>
    followUp both.1
  rw [heard.syncPart_eq, if_neg sync, if_neg other, ite_self]

theorem syncPart_of_none (unheard : heardHeader client packet = none) :
    syncPart client packet = none := by
  unfold syncPart
  rw [unheard]

/-- The event handler on a Sync. -/
theorem processEventPacket_outcome (callback : ClockCallback κ) (env : PtpEnv κ)
    (heard : Heard client packet client₁ hdr ptr) (type : hdr.messageType = 0) :
    ∃ client' effects,
      nxPtpClientProcessEventPacket callback env client₁ ptr hdr = some (client', effects) ∧
        PacketOutcome callback env client packet client' effects := by
  have only := heard.onlyAddress
  have unheard := heard.not_announces type (by decide)
  unfold nxPtpClientProcessEventPacket
  by_cases ready : client₁.state ≠ .slave ∨ ptr.length < 10
  · rw [if_pos ready]
    have unsynced : syncPart client packet = none := by
      rw [heard.syncPart_eq, ← only.state, if_pos ready]
    exact ⟨client₁, [], rfl, .ignored unheard unsynced only⟩
  · rw [if_neg ready]
    have slave : client₁.state = .slave := not_not.mp (not_or.mp ready).1
    have same : client₁ = client := only.eq_of_slave (only.state ▸ slave)
    subst same
    have part := heard.syncPart_eq
    rw [if_neg ready, if_pos type] at part
    dsimp only
    by_cases twoStep : hdr.flagField &&& 0x200 ≠ 0
    · rw [if_pos twoStep] at part ⊢
      exact ⟨_, [], rfl, .firstStep heard type slave part⟩
    · rw [if_neg twoStep] at part ⊢
      rcases syncReceived_spec callback env (stamped callback client₁) hdr
        (Nat.le_of_not_lt (not_or.mp ready).2) with ⟨sync, rest, read, done⟩
      exact ⟨_, _, done, .oneStep heard type slave part read⟩

/-- The general handler on anything else. -/
theorem processGeneralPacket_outcome (callback : ClockCallback κ) (env : PtpEnv κ)
    (heard : Heard client packet client₁ hdr ptr) (general : hdr.messageType ≠ 0) :
    ∃ client' effects,
      nxPtpClientProcessGeneralPacket callback env client₁ ptr hdr = some (client', effects) ∧
        PacketOutcome callback env client packet client' effects := by
  have only := heard.onlyAddress
  unfold nxPtpClientProcessGeneralPacket
  by_cases announce : hdr.messageType = 11
  · rw [if_pos announce]
    by_cases short : ptr.length < 30
    · rw [if_pos short]
      have unsynced := heard.unsynced general (by rw [announce]; decide)
      refine ⟨client₁, [], rfl, .ignored ?_ unsynced only⟩
      rw [heard.announces_iff]
      exact fun long => absurd long.2 (Nat.not_le_of_lt short)
    · rw [if_neg short]
      have long := Nat.le_of_not_lt short
      rcases initPacketReceived_spec client₁ hdr long with
        ⟨flags, utcOffset, effects, reported, first, later⟩
      by_cases listening : client₁.state = .listening
      · exact ⟨_, _, first listening, .accepted heard announce long listening reported⟩
      · exact ⟨_, _, later listening, .renewed heard announce long listening reported⟩
  · have unheard := heard.not_announces rfl announce
    rw [if_neg announce]
    by_cases followUp : hdr.messageType = 8
    · rw [if_pos followUp]
      by_cases ready : client₁.state ≠ .slave ∨ client₁.syncId ≠ hdr.sequenceId ∨ ptr.length < 10
      · rw [if_pos ready]
        refine ⟨client₁, [], rfl, .ignored unheard ?_ only⟩
        have rest : client.state ≠ .slave ∨ ptr.length < 10 ∨ client.syncId ≠ hdr.sequenceId := by
          rcases only with rfl | ⟨listening, -⟩
          · rcases ready with other | other | short
            · exact .inl other
            · exact .inr (.inr other)
            · exact .inr (.inl short)
          · exact .inl (by rw [listening]; decide)
        rw [heard.syncPart_eq, if_neg general]
        by_cases out : client.state ≠ .slave ∨ ptr.length < 10
        · exact if_pos out
        · have other := (or_assoc.mpr rest).resolve_left out
          rw [if_neg out, if_neg fun both => other both.2]
      · rw [if_neg ready]
        rcases not_or.mp ready with ⟨slave, ready⟩
        rcases not_or.mp ready with ⟨expected, short⟩
        rw [not_not] at slave expected
        have same : client₁ = client := only.eq_of_slave (only.state ▸ slave)
        subst same
        have part := heard.syncPart_eq
        rw [if_neg (not_or.mpr ⟨not_not.mpr slave, short⟩), if_neg general,
          if_pos ⟨followUp, expected⟩] at part
        rcases syncReceived_spec callback env client₁ hdr (Nat.le_of_not_lt short) with
          ⟨sync, rest, read, done⟩
        exact ⟨_, _, done, .followUp heard followUp slave part read⟩
    · have ignored : PacketOutcome callback env client packet client₁ [] :=
        .ignored unheard (heard.unsynced general followUp) only
      rw [if_neg followUp]
      by_cases response : hdr.messageType = 9
      · rw [if_pos response]
        by_cases ready : client₁.delayState ≠ .waitResp ∨ client₁.delayReqId ≠ hdr.sequenceId ∨
          ptr.length < 20
        · rw [if_pos ready]
          exact ⟨client₁, [], rfl, ignored⟩
        · rw [if_neg ready]
          rcases not_or.mp ready with ⟨waiting, ready⟩
          rcases not_or.mp ready with ⟨expected, short⟩
          rw [not_not] at waiting expected
          have long : 20 ≤ ptr.length := Nat.le_of_not_lt short
          rcases takes_requestingPortIdentity ptr long with ⟨requesting, read⟩
          rw [read]
          dsimp only [Option.bind_eq_bind, Option.bind_some]
          by_cases other : client₁.portIdentity.toList ≠ requesting
          · rw [if_pos other]
            exact ⟨client₁, [], rfl, ignored⟩
          · rw [if_neg other]
            have own : requestingPortIdentity ptr =
                some (client₁.portIdentity.toList, ptr.drop 20) := by
              rw [not_not.mp other]
              exact read
            rcases delayRespReceived_spec callback env client₁ (Nat.le_trans (by decide) long) with
              unset | ⟨t4, rest, flags, effects, stamp, reported, done⟩
            · exact ⟨client₁, [], unset, ignored⟩
            · exact ⟨_, _, done, .response heard response waiting expected own stamp reported⟩
      · rw [if_neg response]
        exact ⟨client₁, [], rfl, ignored⟩

/-- Every packet ends in one of these ways; in particular none makes the client read
outside of it. -/
theorem processPacket_outcome (callback : ClockCallback κ) (env : PtpEnv κ)
    (client : PtpClient κ) (packet : PtpPacket) :
    ∃ client' effects, processPacket callback env client packet = some (client', effects) ∧
      PacketOutcome callback env client packet client' effects := by
  rcases parseHdr_spec client packet with ⟨client₁, result, parsed, only⟩
  unfold processPacket
  rw [parsed]
  dsimp only [Option.bind_eq_bind, Option.bind_some]
  rcases result with - | ⟨hdr, ptr⟩
  · have unheard : heardHeader client packet = none := by
      unfold heardHeader
      rw [parsed]
    exact ⟨client₁, [], rfl,
      .ignored (not_announces_of_none parsed) (syncPart_of_none unheard) only⟩
  · dsimp only
    by_cases foreign : client₁.state = .slave ∧ client₁.masterPortIdentity ≠ hdr.sourcePortIdentity
    · have unheard : heardHeader client packet = none := by
        unfold heardHeader
        rw [parsed]
        exact if_pos foreign
      rw [if_pos foreign]
      exact ⟨client₁, [], rfl,
        .ignored (not_announces_of_foreign parsed foreign) (syncPart_of_none unheard) only⟩
    · have heard : Heard client packet client₁ hdr ptr :=
        ⟨parsed, fun slave => not_not.mp fun other => foreign ⟨slave, other⟩⟩
      rw [if_neg foreign]
      by_cases type : hdr.messageType = 0
      · rw [if_pos type]
        exact processEventPacket_outcome callback env heard type
      · rw [if_neg type]
        exact processGeneralPacket_outcome callback env heard type

/-! ## Timers -/

/-- A timer event changes the role, the countdowns and the flag of the requests only. -/
theorem timerEvent_spec (client : PtpClient κ) :
    (∀ effect ∈ (timerEvent client).2, effect.Reported) ∧
      ∃ state announceTimeout delayReqTimer delayReqFlag,
        (timerEvent client).1 = { client with
          state := state
          announceTimeout := announceTimeout
          delayReqTimer := delayReqTimer
          delayReqFlag := delayReqFlag } := by
  have request (other : PtpClient κ) : ∃ timer flag,
      delayReqTimer other = { other with delayReqTimer := timer, delayReqFlag := flag } := by
    unfold delayReqTimer
    dsimp only
    split
    · split
      · exact ⟨_, _, rfl⟩
      · exact ⟨_, _, rfl⟩
    · exact ⟨_, _, rfl⟩
  unfold timerEvent
  dsimp only
  rcases request (announceTimer client).1 with ⟨timer, flag, same⟩
  rw [same]
  unfold announceTimer
  dsimp only
  split
  · split
    · exact ⟨reported_ite (by trivial), _, _, _, _, rfl⟩
    · exact ⟨reported_nil, _, _, _, _, rfl⟩
  · exact ⟨reported_nil, _, _, _, _, rfl⟩

/-! ## The machine -/

theorem ptpStep_packet (callback : ClockCallback κ) (client : PtpClient κ)
    (packet : PtpPacket) (env : PtpEnv κ) :
    ptpStep callback client (.packet packet env) =
      (processPacket callback env client packet).map Prod.swap :=
  rfl

theorem ptpStep_defined (callback : ClockCallback κ) (client : PtpClient κ)
    (event : PtpEvent κ) : (ptpStep callback client event).isSome := by
  cases event with
  | packet packet env =>
      rcases processPacket_outcome callback env client packet with ⟨client', effects, done, -⟩
      rw [ptpStep_packet, done]
      rfl
  | timer | notify | clock => rfl

/-- The client, replying what it does to the outside. -/
def ptpClient (callback : ClockCallback κ) : Machine (PtpClient κ) (PtpEvent κ) (List PtpEffect) :=
  (ptpStep callback).total (ptpStep_defined callback)

/-- Whatever the packets hold, and in whatever order packets, timer events and timestamps
come, the client never reads outside of a packet. -/
theorem ptp_client_reads_inside (callback : ClockCallback κ) (client : PtpClient κ)
    (events : List (PtpEvent κ)) :
    (∃ final, (ptpStep callback).machine.final (some client) events = some final) ∧
      ∀ reply ∈ (ptpStep callback).machine.replies (some client) events, reply ≠ none := by
  rcases Faulting.run_total (ptpStep_defined callback) client events with ⟨final, replies⟩
  refine ⟨⟨_, final⟩, ?_⟩
  rw [replies]
  intro reply member
  rcases List.mem_map.mp member with ⟨effects, -, rfl⟩
  exact Option.some_ne_none effects

theorem ptpClient_packet (callback : ClockCallback κ) (client : PtpClient κ)
    (packet : PtpPacket) (env : PtpEnv κ) :
    PacketOutcome callback env client packet
      (ptpClient callback client (.packet packet env)).2
      (ptpClient callback client (.packet packet env)).1 := by
  rcases processPacket_outcome callback env client packet with ⟨client', effects, done, outcome⟩
  have step : ptpStep callback client (.packet packet env) = some (effects, client') := by
    rw [ptpStep_packet, done]
    rfl
  have same := (Faulting.eq_some_total (ptpStep_defined callback) client _).symm.trans step
  have reply : ptpClient callback client (.packet packet env) = (effects, client') :=
    Option.some.inj same
  rw [reply]
  exact outcome

@[simp]
theorem ptpClient_timer (callback : ClockCallback κ) (client : PtpClient κ) :
    ptpClient callback client .timer = (timerEvent client).swap :=
  rfl

@[simp]
theorem ptpClient_notify (callback : ClockCallback κ) (client : PtpClient κ) (packetPtr : Nat)
    (timestamp : PtpTime) :
    ptpClient callback client (.notify packetPtr timestamp) =
      ([], nxPtpClientPacketTimestampNotify client packetPtr timestamp) :=
  rfl

@[simp]
theorem ptpClient_clock (callback : ClockCallback κ) (client : PtpClient κ) (run : κ → κ) :
    ptpClient callback client (.clock run) = ([], { client with clock := run client.clock }) :=
  rfl

end

/-! ## A first exchange -/

/-- A client as it is created. -/
def createdClient {κ : Type} (clock : κ) : PtpClient κ where
  interfaceIndex := 0
  domain := 0
  transportSpecific := 0
  portIdentity := .replicate 10 0
  eventCallback := true
  state := .listening
  delayState := .idle
  syncFlags := 0
  utcOffset := 0
  masterAddr := 0
  masterPortIdentity := []
  prevSync := ⟨0, 0, 0⟩
  prevSyncTs := ⟨0, 0, 0⟩
  sync := ⟨0, 0, 0⟩
  syncTs := ⟨0, 0, 0⟩
  syncId := 0
  delayReqId := 0
  delayReqTimer := 0
  announceTimeout := 0
  delayReqFlag := false
  delayTs := ⟨0, 0, 0⟩
  delayReqPacketPtr := none
  clock := clock

/-- A message of version 2 in the domain 0, from the port of zeros. -/
def masterPacket (messageType sequenceId : UChar) (body : List UChar) : PtpPacket where
  chained := false
  message := [messageType, 2, 0, 34 + BitVec.ofNat 8 body.length] ++ List.replicate 27 0 ++
    [sequenceId, 0, 0] ++ body
  source := some (1, 0)

/-- A timestamp of whole seconds. -/
def secondsBytes (seconds : UChar) : List UChar :=
  [0, 0, 0, 0, 0, seconds, 0, 0, 0, 0]

/-- An environment in which packets are available and sent. -/
def sendingEnv {κ : Type} : PtpEnv κ :=
  ⟨some 0, true, ⟨0, 0, 0⟩, id⟩

/-- An announcement and a Sync, to which the client answers with a request. -/
def requestingRun {κ : Type} : List (PtpEvent κ) :=
  [.packet (masterPacket 11 0 (List.replicate 30 0)) sendingEnv,
    .packet (masterPacket 0 0 (secondsBytes 5)) sendingEnv]

/-- The response to this request. -/
def responseEvent {κ : Type} : PtpEvent κ :=
  .packet (masterPacket 9 1 (secondsBytes 7 ++ List.replicate 10 0)) sendingEnv

end EmbeddedBase.NetX
