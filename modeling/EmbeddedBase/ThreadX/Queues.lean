import EmbeddedBase.Data.Words

/-!
# ThreadX queues of byte messages

The model of `u_tx_queues.c`.  The kernel's queue holds messages of whole 32-bit
words; its statuses are inputs, since which error a call gets is up to the kernel.
-/

namespace EmbeddedBase.ThreadX

open EmbeddedBase.Data

/-- A status of the kernel, of type `UINT`. -/
abbrev TxStatus := BitVec 32

/-- `TX_SUCCESS`. -/
def txSuccess : TxStatus := 0x00

/-- `TX_QUEUE_EMPTY`. -/
def txQueueEmpty : TxStatus := 0x0A

/-- `TX_QUEUE`: an atomic queue of messages of `messageWords` words each. -/
structure TxQueue where
  messageWords : Nat
  capacity : Nat
  messages : List (List (BitVec 32))
  deriving DecidableEq

/-- The effect of `tx_queue_send` when it ends with the given status; `none` when it
cannot end so. -/
def txQueueSend (queue : TxQueue) (source : List (BitVec 32)) (status : TxStatus) :
    Option TxQueue :=
  if status ≠ txSuccess then
    some queue
  else if queue.messages.length < queue.capacity then
    some { queue with messages := queue.messages ++ [source.take queue.messageWords] }
  else
    none

/-- The effect of `tx_queue_receive` on the destination and the queue when it ends with
the given status; `none` when it cannot end so. -/
def txQueueReceive (queue : TxQueue) (destination : List (BitVec 32)) (status : TxStatus) :
    Option (List (BitVec 32) × TxQueue) :=
  if status ≠ txSuccess then
    some (destination, queue)
  else
    match queue.messages with
    | [] => none
    | message :: messages =>
        some (message ++ destination.drop message.length, { queue with messages := messages })

theorem txQueueSend_of_failed (queue : TxQueue) (source : List (BitVec 32))
    {status : TxStatus} (failed : status ≠ txSuccess) :
    txQueueSend queue source status = some queue :=
  if_pos failed

theorem txQueueSend_success (queue : TxQueue) (source : List (BitVec 32)) :
    txQueueSend queue source txSuccess =
      if queue.messages.length < queue.capacity then
        some { queue with messages := queue.messages ++ [source.take queue.messageWords] }
      else
        none :=
  if_neg (not_not_intro rfl)

theorem txQueueReceive_of_failed (queue : TxQueue) (destination : List (BitVec 32))
    {status : TxStatus} (failed : status ≠ txSuccess) :
    txQueueReceive queue destination status = some (destination, queue) :=
  if_pos failed

theorem txQueueReceive_success (queue : TxQueue) (destination : List (BitVec 32)) :
    txQueueReceive queue destination txSuccess =
      match queue.messages with
      | [] => none
      | message :: messages =>
          some (message ++ destination.drop message.length,
            { queue with messages := messages }) :=
  if_neg (not_not_intro rfl)

/-- The kernel calls of `create_queue`. -/
structure Kernel where
  txByteAllocate : BitVec 32 → TxStatus
  txQueueCreate : BitVec 32 → BitVec 32 → TxStatus × TxQueue

/-- What the kernel documents: its statuses fit in a byte, and a created queue is empty
and holds as many messages as fit in its memory. -/
structure Kernel.Documented (kernel : Kernel) : Prop where
  allocate_lt : ∀ size, (kernel.txByteAllocate size).toNat < 256
  create_lt : ∀ words size, (kernel.txQueueCreate words size).1.toNat < 256
  created : ∀ words size, (kernel.txQueueCreate words size).1 = txSuccess →
    (kernel.txQueueCreate words size).2 =
      ⟨words.toNat, size.toNat / (4 * words.toNat), []⟩

/-- `U_SUCCESS`, `U_ERROR` and `U_QUEUE_EMPTY`. -/
inductive UStatus where
  | success
  | error
  | queueEmpty
  deriving DecidableEq, Repr

/-- `queue_t`; the name, which is only printed, is left out. -/
structure Queue where
  messageSize : BitVec 32
  capacity : BitVec 32
  txQueue : TxQueue
  bytes : Nat
  words : Nat
  deriving DecidableEq

/-- `create_queue`. -/
def createQueue (kernel : Kernel) (queue : Queue) : UStatus × Queue :=
  let messageSizeWords := (queue.messageSize + 3) / 4
  let queue :=
    { queue with bytes := queue.messageSize.toNat, words := messageSizeWords.toNat }
  let queueSizeBytes := messageSizeWords * 4 * queue.capacity
  let status := (kernel.txByteAllocate queueSizeBytes).setWidth 8
  if status ≠ 0 then
    (.error, queue)
  else
    let result := kernel.txQueueCreate messageSizeWords queueSizeBytes
    let queue := { queue with txQueue := result.2 }
    let status := result.1.setWidth 8
    if status ≠ 0 then (.error, queue) else (.success, queue)

/-- The buffer `queue_send` passes to the kernel. -/
def queueSendBuffer (queue : Queue) (message : List (BitVec 8)) : List (BitVec 32) :=
  copyIntoWords (List.replicate queue.words 0) (message.take queue.bytes)

/-- `queue_send` from its kernel call on. -/
def queueSendFinish (queue : Queue) (buffer : List (BitVec 32)) (status : TxStatus) :
    Option (UStatus × Queue) :=
  (txQueueSend queue.txQueue buffer status).map fun txQueue =>
    (if status ≠ txSuccess then .error else .success, { queue with txQueue := txQueue })

/-- `queue_send`. -/
def queueSend (queue : Queue) (message : List (BitVec 8)) (status : TxStatus) :
    Option (UStatus × Queue) :=
  queueSendFinish queue (queueSendBuffer queue message) status

/-- The buffer `queue_receive` passes to the kernel. -/
def queueReceiveBuffer (queue : Queue) : List (BitVec 32) :=
  List.replicate queue.words 0

/-- `queue_receive` from its kernel call on; the list is the memory at `message`. -/
def queueReceiveFinish (queue : Queue) (buffer : List (BitVec 32))
    (message : List (BitVec 8)) (status : TxStatus) :
    Option ((UStatus × List (BitVec 8)) × Queue) :=
  (txQueueReceive queue.txQueue buffer status).map fun result =>
    let queue := { queue with txQueue := result.2 }
    if status = txQueueEmpty then
      ((.queueEmpty, message), queue)
    else if status ≠ txSuccess then
      ((.error, message), queue)
    else
      ((.success, splice message 0 ((unpackWords result.1).take queue.bytes)), queue)

/-- `queue_receive`. -/
def queueReceive (queue : Queue) (message : List (BitVec 8)) (status : TxStatus) :
    Option ((UStatus × List (BitVec 8)) × Queue) :=
  queueReceiveFinish queue (queueReceiveBuffer queue) message status

end EmbeddedBase.ThreadX
