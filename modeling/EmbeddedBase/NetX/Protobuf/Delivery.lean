import EmbeddedBase.NetX.Protobuf.Payload
import Mathlib.Data.List.GetD

/-!
# Delivery of accepted messages

A message that is accepted is sent under its topic, and decodes to what was given,
unless its unit fills the array.
-/

namespace EmbeddedBase.NetX

/-! ## Creation -/

section

variable {α : Type} {size : Nat}

/-- `memcpy` replaces the first cells and leaves the others. -/
theorem toList_memcpy (array : Vector α size) {source : List α} {count : Nat}
    (fits : count ≤ size) (readable : count ≤ source.length) :
    (memcpy array source count).toList = source.take count ++ array.toList.drop count := by
  have copied : (source.take count).length = count :=
    (List.length_take).trans (Nat.min_eq_left readable)
  apply List.ext_getElem
  · rw [List.length_append, copied, List.length_drop, Vector.length_toList,
      Vector.length_toList]
    omega
  · intro i inside other
    have within : i < array.toList.length := by
      rwa [Vector.length_toList] at inside ⊢
    have cell : (memcpy array source count).toList[i] =
        if i < count then source.getD i array.toList[i] else array.toList[i] := by
      simp [memcpy]
    rw [cell]
    by_cases inner : i < count
    · rw [if_pos inner, List.getElem_append_left (by rw [copied]; exact inner), List.getElem_take]
      exact List.getD_eq_getElem _ _ (Nat.lt_of_lt_of_le inner readable)
    · rw [if_neg inner, List.getElem_append_right (by rw [copied]; exact Nat.not_lt.mp inner)]
      simp only [copied, List.getElem_drop, Nat.add_sub_cancel' (Nat.not_lt.mp inner)]

end

namespace Request

/-- The lengths that `_nx_protobuf_mqtt_message_create` accepts. -/
def Accepted (request : Request) : Prop :=
  request.topicLen.toNat ≤ pbMaxTopicLength ∧ request.unitLen.toNat ≤ pbMaxUnitLength ∧
    pbMinDatapoints ≤ request.valuesSize.toInt ∧ request.valuesSize.toInt ≤ pbMaxDatapoints

instance (request : Request) : Decidable request.Accepted :=
  inferInstanceAs (Decidable (_ ∧ _))

/-- The unit, the values and a time. -/
def contents (request : Request) (timeUs : BitVec 64) : Contents where
  unit := request.unit.take request.unitLen.toNat
  timeUs := timeUs
  values := request.values.take request.valuesSize.toNat

/-- The protobuf packed for a request. -/
def protobuf (request : Request) (timeUs : BitVec 64) : ServerData where
  unit := memcpy ServerData.initZero.unit request.unit request.unitLen.toNat
  timeUs := timeUs
  valuesCount := request.valuesSize.setWidth 16
  values := memcpy ServerData.initZero.values request.values request.valuesSize.toNat

end Request

variable {elapse : Mac → Mac} {isInitialized : Bool} {time : PtpTime} {request : Request}
  {mac : Mac}

/-- The message of an accepted request. -/
theorem create_accepted (accepted : request.Accepted)
    (clock : (ethernetPtpGetUnixMicroseconds elapse isInitialized time 0 mac).1.1 = .success) :
    (nxProtobufMqttMessageCreate elapse isInitialized time request mac).1 =
      { topic := request.topic
        topicSize := request.topicLen + 1
        protobuf := request.protobuf
          (ethernetPtpGetUnixMicroseconds elapse isInitialized time 0 mac).1.2
        initialized := true } := by
  rcases accepted with ⟨topic, unit, atLeast, atMost⟩
  rw [nxProtobufMqttMessageCreate, if_neg (Nat.not_lt.mpr topic), if_neg (Nat.not_lt.mpr unit),
    if_neg (Int.not_lt.mpr atLeast), if_neg (Int.not_lt.mpr atMost)]
  simp only [clock, ne_eq, not_true_eq_false, if_false]
  rfl

/-- A request beyond a limit leaves the message uninitialised. -/
theorem create_rejected (rejected : ¬ request.Accepted) :
    (nxProtobufMqttMessageCreate elapse isInitialized time request mac).1 = .zero := by
  unfold nxProtobufMqttMessageCreate
  dsimp only
  split
  · rfl
  split
  · rfl
  split
  · rfl
  split
  · rfl
  · rename_i topic unit atLeast atMost
    exact absurd ⟨Nat.not_lt.mp topic, Nat.not_lt.mp unit, Int.not_lt.mp atLeast,
      Int.not_lt.mp atMost⟩ rejected

/-! ## The packed protobuf -/

theorem valuesSize_toNat (accepted : request.Accepted) :
    request.valuesSize.toInt = request.valuesSize.toNat ∧ request.valuesSize.toNat ≤ 5 := by
  rcases accepted with ⟨-, -, atLeast, atMost⟩
  unfold pbMinDatapoints at atLeast
  unfold pbMaxDatapoints at atMost
  have bound := request.valuesSize.isLt
  have signed := BitVec.toInt_eq_msb_cond request.valuesSize
  split at signed <;> omega

theorem valuesCount_toNat (accepted : request.Accepted) (timeUs : BitVec 64) :
    (request.protobuf timeUs).valuesCount.toNat = request.valuesSize.toNat := by
  have few := (valuesSize_toNat accepted).2
  rw [Request.protobuf, BitVec.toNat_setWidth]
  omega

/-- The unit array: the bytes of the unit, and zeros up to the end. -/
theorem unit_toList (accepted : request.Accepted) (timeUs : BitVec 64) :
    (request.protobuf timeUs).unit.toList =
      request.unit.take request.unitLen.toNat ++ List.replicate (15 - request.unitLen.toNat) 0 := by
  have fits : request.unitLen.toNat ≤ 15 := accepted.2.1
  have zeros : ServerData.initZero.unit.toList = List.replicate 15 0 := rfl
  apply (toList_memcpy ServerData.initZero.unit fits request.unit_readable).trans
  rw [zeros, List.drop_replicate]

/-- A unit of `PB_MAX_UNIT_LENGTH` characters leaves no room for the terminator. -/
theorem zero_not_mem_unit (accepted : request.Accepted)
    (nulFree : 0 ∉ request.unit.take request.unitLen.toNat)
    (full : request.unitLen.toNat = pbMaxUnitLength) (timeUs : BitVec 64) :
    0 ∉ (request.protobuf timeUs).unit.toList := by
  have rest : 15 - request.unitLen.toNat = 0 := by
    rw [full]
    rfl
  rw [unit_toList accepted, rest, List.replicate_zero, List.append_nil]
  exact nulFree

theorem zero_mem_unit (accepted : request.Accepted)
    (room : request.unitLen.toNat < pbMaxUnitLength) (timeUs : BitVec 64) :
    0 ∈ (request.protobuf timeUs).unit.toList := by
  have rest : 15 - request.unitLen.toNat ≠ 0 := Nat.sub_ne_zero_of_lt room
  rw [unit_toList accepted]
  exact List.mem_append_right _ (List.mem_replicate.mpr ⟨rest, rfl⟩)

theorem text_protobuf (accepted : request.Accepted)
    (nulFree : 0 ∉ request.unit.take request.unitLen.toNat) (timeUs : BitVec 64) :
    (request.protobuf timeUs).text = request.unit.take request.unitLen.toNat := by
  rw [ServerData.text, unit_toList accepted, List.takeWhile_append_of_pos]
  · simp
  · intro byte member
    have other : byte ≠ 0 := fun zero => nulFree (zero ▸ member)
    simpa using other

theorem values_protobuf (accepted : request.Accepted) (timeUs : BitVec 64) :
    (request.protobuf timeUs).values.toList.take request.valuesSize.toNat =
      request.values.take request.valuesSize.toNat := by
  rcases valuesSize_toNat accepted with ⟨size, few⟩
  have readable : request.valuesSize.toNat ≤ request.values.length := by
    have readable := request.values_readable
    omega
  have copied : (request.protobuf timeUs).values.toList = _ :=
    toList_memcpy ServerData.initZero.values few readable
  rw [copied, List.take_left' (by rw [List.length_take, Nat.min_eq_left readable])]

/-- The packed protobuf has the contents of the request. -/
theorem contents_protobuf (accepted : request.Accepted)
    (nulFree : 0 ∉ request.unit.take request.unitLen.toNat) (timeUs : BitVec 64) :
    (request.protobuf timeUs).contents = request.contents timeUs := by
  rw [ServerData.contents, text_protobuf accepted nulFree, valuesCount_toNat accepted,
    values_protobuf accepted]
  rfl

/-! ## Sending -/

section

variable {encode : ServerData → Option (List (BitVec 8))}
  {decode : List (BitVec 8) → Option Contents} {publish : Publication → Status}

/-- An initialised message is sent exactly when it can be encoded, under its topic
without the extra character of `topic_size`. -/
theorem send_initialized (publishes : ∀ publication, publish publication = .success)
    (topic : List (BitVec 8)) (topicLen : BitVec 32) (protobuf : ServerData) :
    nxProtobufMqttMessageSend encode publish (some ⟨topic, topicLen + 1, protobuf, true⟩) =
      match encode protobuf with
      | none => (.error, none)
      | some payload => (.success, some ⟨topic.take topicLen.toNat, payload⟩) := by
  unfold nxProtobufMqttMessageSend
  simp only [if_true]
  cases encode protobuf with
  | none => rfl
  | some payload =>
      simp only [ethernetMqttPublish, publishes, BitVec.add_sub_cancel, ne_eq,
        not_true_eq_false, if_false]

/-- Once initialised, the message is sent under the topic of the request, and its
payload decodes to the contents of the request. -/
def Delivered (encode : ServerData → Option (List (BitVec 8)))
    (decode : List (BitVec 8) → Option Contents) (publish : Publication → Status)
    (request : Request) (timeUs : BitVec 64) (message : EthernetMqttMessage) : Prop :=
  message.initialized = true →
    ∃ payload, nxProtobufMqttMessageSend encode publish (some message) =
        (.success, some ⟨request.topic.take request.topicLen.toNat, payload⟩) ∧
      decode payload = some (request.contents timeUs)

/-! ## Main result -/

/-- A request within the limits is accepted, and its message is delivered unless the
unit has the maximal length. -/
theorem mqtt_message_delivered_iff (codec : Nanopb encode decode)
    (publishes : ∀ publication, publish publication = .success)
    (nulFree : 0 ∉ request.unit.take request.unitLen.toNat)
    (clock : (ethernetPtpGetUnixMicroseconds elapse isInitialized time 0 mac).1.1 = .success) :
    let created := (nxProtobufMqttMessageCreate elapse isInitialized time request mac).1
    let timeUs := (ethernetPtpGetUnixMicroseconds elapse isInitialized time 0 mac).1.2
    (created.initialized = true ↔ request.Accepted) ∧
      (Delivered encode decode publish request timeUs created ↔
        ¬ (request.Accepted ∧ request.unitLen.toNat = pbMaxUnitLength)) := by
  intro created timeUs
  by_cases accepted : request.Accepted
  · have message : created =
        ⟨request.topic, request.topicLen + 1, request.protobuf timeUs, true⟩ :=
      create_accepted accepted clock
    constructor
    · rw [message]
      exact iff_of_true rfl accepted
    · rw [Delivered, message, send_initialized publishes]
      constructor
      · rintro delivered ⟨-, full⟩
        rcases delivered rfl with ⟨payload, sent, -⟩
        rw [codec.unterminated _ (zero_not_mem_unit accepted nulFree full _)] at sent
        cases sent
      · intro short _
        have room : request.unitLen.toNat < pbMaxUnitLength :=
          Nat.lt_of_le_of_ne accepted.2.1 fun full => short ⟨accepted, full⟩
        have few := (valuesCount_toNat accepted timeUs).trans_le (valuesSize_toNat accepted).2
        obtain ⟨payload, encoded, decoded⟩ :=
          codec.terminated _ (zero_mem_unit accepted room timeUs) few
        rw [encoded]
        exact ⟨payload, rfl, decoded.trans (by rw [contents_protobuf accepted nulFree])⟩
  · have message : created = .zero := create_rejected accepted
    constructor
    · rw [message]
      exact iff_of_false Bool.false_ne_true accepted
    · rw [Delivered, message]
      exact iff_of_true (fun initialized => absurd initialized Bool.false_ne_true)
        fun full => accepted full.1

end

/-- One value in volts, at 5 seconds and 7 microseconds, on the topic `a/b`. -/
theorem mqtt_message_delivered_volts :
    let request : Request :=
      ⟨[97, 47, 98], 3, [86], 1, [0x3f800000], 1, by decide, by decide, by decide⟩
    let mac : Mac := ⟨⟨5, 7000⟩, 0, 0⟩
    let created := (nxProtobufMqttMessageCreate id true ⟨0, 0, 0⟩ request mac).1
    Delivered ServerData.encode Contents.decode (fun _ => .success) request
        (ethernetPtpGetUnixMicroseconds id true ⟨0, 0, 0⟩ 0 mac).1.2 created ∧
      nxProtobufMqttMessageSend ServerData.encode (fun _ => .success) (some created) =
        (.success, some ⟨[97, 47, 98],
          [18, 1, 86, 24, 199, 150, 177, 2, 34, 4, 0, 0, 128, 63]⟩) := by
  intro request mac created
  constructor
  · exact (mqtt_message_delivered_iff wire_nanopb (fun _ => rfl) (by decide) rfl).2.mpr (by decide)
  · decide

/-- A unit of fifteen characters is accepted, and the message cannot be encoded. -/
theorem mqtt_message_undeliverable :
    let request : Request :=
      ⟨[97, 47, 98], 3, [109, 105, 108, 101, 115, 32, 112, 101, 114, 32, 104, 111, 117, 114, 115],
        15, [0x3f800000], 1, by decide, by decide, by decide⟩
    let created := (nxProtobufMqttMessageCreate id true ⟨0, 0, 0⟩ request ⟨⟨5, 7000⟩, 0, 0⟩).1
    created.initialized = true ∧
      nxProtobufMqttMessageSend ServerData.encode (fun _ => .success) (some created) =
        (.error, none) := by
  decide

end EmbeddedBase.NetX
