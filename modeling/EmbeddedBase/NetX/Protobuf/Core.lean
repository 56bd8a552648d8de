import EmbeddedBase.NetX.Rtc

/-!
# MQTT messages with a protobuf payload

The model of `u_nx_protobuf.c` and of `ethernet_mqtt_publish`.  The nanopb encoder and
the NetX MQTT client are parameters; floats are their 32-bit patterns.
-/

namespace EmbeddedBase.NetX

/-- `PB_MAX_TOPIC_LENGTH`. -/
def pbMaxTopicLength : Nat := 100

/-- `PB_MAX_UNIT_LENGTH`. -/
def pbMaxUnitLength : Nat := 15

/-- `PB_MIN_DATAPOINTS`. -/
def pbMinDatapoints : Int := 1

/-- `PB_MAX_DATAPOINTS`. -/
def pbMaxDatapoints : Int := 5

/-- `serverdata_v2_ServerData`, with the array sizes of `serverdata.options`. -/
structure ServerData where
  unit : Vector (BitVec 8) 15
  timeUs : BitVec 64
  valuesCount : BitVec 16
  values : Vector (BitVec 32) 5
  deriving DecidableEq

/-- `serverdata_v2_ServerData_init_zero`. -/
def ServerData.initZero : ServerData where
  unit := Vector.replicate 15 0
  timeUs := 0
  valuesCount := 0
  values := Vector.replicate 5 0

/-- `ethernet_mqtt_message_t`; `topic` is the memory at the pointer. -/
structure EthernetMqttMessage where
  topic : List (BitVec 8)
  topicSize : BitVec 32
  protobuf : ServerData
  initialized : Bool
  deriving DecidableEq

/-- The message `{ 0 }`. -/
def EthernetMqttMessage.zero : EthernetMqttMessage where
  topic := []
  topicSize := 0
  protobuf := .initZero
  initialized := false

/-- The arguments of `_nx_protobuf_mqtt_message_create`: what is readable at each
pointer, and the lengths that go with it. -/
structure Request where
  topic : List (BitVec 8)
  topicLen : BitVec 32
  unit : List (BitVec 8)
  unitLen : BitVec 32
  values : List (BitVec 32)
  valuesSize : BitVec 32
  topic_readable : topicLen.toNat ≤ topic.length
  unit_readable : unitLen.toNat ≤ unit.length
  values_readable : valuesSize.toInt ≤ values.length

/-- `memcpy` of the first `count` cells of `source` to the start of an array. -/
def memcpy {α : Type} {size : Nat} (array : Vector α size) (source : List α) (count : Nat) :
    Vector α size :=
  Vector.ofFn fun i => if i < count then source.getD i array[i] else array[i]

/-- `_nx_protobuf_mqtt_message_create`; `time` is the uninitialised local of
`ethernet_ptp_get_unix_microseconds`. -/
def nxProtobufMqttMessageCreate (elapse : Mac → Mac) (isInitialized : Bool) (time : PtpTime)
    (request : Request) (mac : Mac) : EthernetMqttMessage × Mac :=
  let protobuf := ServerData.initZero
  let message := EthernetMqttMessage.zero
  if pbMaxTopicLength < request.topicLen.toNat then
    (message, mac)
  else if pbMaxUnitLength < request.unitLen.toNat then
    (message, mac)
  else if request.valuesSize.toInt < pbMinDatapoints then
    (message, mac)
  else if pbMaxDatapoints < request.valuesSize.toInt then
    (message, mac)
  else
    let ((status, datetime), mac) :=
      ethernetPtpGetUnixMicroseconds elapse isInitialized time 0 mac
    if status ≠ .success then
      (message, mac)
    else
      let protobuf :=
        { protobuf with
          unit := memcpy protobuf.unit request.unit request.unitLen.toNat
          timeUs := datetime
          valuesCount := request.valuesSize.setWidth 16
          values := memcpy protobuf.values request.values request.valuesSize.toNat }
      ({ message with
          topic := request.topic
          topicSize := request.topicLen + 1
          protobuf
          initialized := true }, mac)

/-- A topic and a message, as handed to `nxd_mqtt_client_publish`. -/
structure Publication where
  topic : List (BitVec 8)
  message : List (BitVec 8)
  deriving DecidableEq

/-- `ethernet_mqtt_publish`; `publish` is what `nxd_mqtt_client_publish` answers. -/
def ethernetMqttPublish (publish : Publication → Status) (topicName : List (BitVec 8))
    (topicSize : BitVec 32) (message : List (BitVec 8)) : Status × Publication :=
  let publication := ⟨topicName.take (topicSize - 1).toNat, message⟩
  (publish publication, publication)

/-- `nx_protobuf_mqtt_message_send`, with what it publishes; `encode` is `pb_encode` into
a buffer of `serverdata_v2_ServerData_size` bytes. -/
def nxProtobufMqttMessageSend (encode : ServerData → Option (List (BitVec 8)))
    (publish : Publication → Status) (message : Option EthernetMqttMessage) :
    Status × Option Publication :=
  match message with
  | none => (.error, none)
  | some message =>
      if message.initialized then
        match encode message.protobuf with
        | none => (.error, none)
        | some buffer =>
            let (status, publication) :=
              ethernetMqttPublish publish message.topic message.topicSize buffer
            if status ≠ .success then
              (.error, some publication)
            else
              (.success, some publication)
      else
        (.error, none)

end EmbeddedBase.NetX
