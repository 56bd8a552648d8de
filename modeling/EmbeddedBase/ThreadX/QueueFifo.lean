import EmbeddedBase.ThreadX.Queues
import EmbeddedBase.Transition.Fifo

/-!
# A queue shared by threads

Any number of threads call `queue_send` and `queue_receive` on one queue.  Before its
kernel call a thread only fills a buffer of its own, and after it only its caller's
memory is written, so a call is two steps: up to the kernel call, and from it on.
The queue then is a bounded first-in first-out queue of messages of `message_size`
bytes.
-/

namespace EmbeddedBase.ThreadX

open EmbeddedBase.Data
open EmbeddedBase.Transition

universe u

/-- A call with the memory at its `message` pointer. -/
inductive Call where
  | send (message : List (BitVec 8))
  | receive (message : List (BitVec 8))
  deriving DecidableEq

/-- The memory at the pointer when the call is made. -/
def Call.message : Call → List (BitVec 8)
  | send message => message
  | receive message => message

/-- What a call returns, and the memory at its pointer afterwards. -/
structure Reply where
  status : UStatus
  message : List (BitVec 8)
  deriving DecidableEq

/-- The buffer a call passes to the kernel. -/
def Call.buffer (queue : Queue) : Call → List (BitVec 32)
  | send message => queueSendBuffer queue message
  | receive _ => queueReceiveBuffer queue

/-- A call from its kernel call on. -/
def Call.finish (queue : Queue) (buffer : List (BitVec 32)) (status : TxStatus) :
    Call → Option (Reply × Queue)
  | send message =>
      (queueSendFinish queue buffer status).map fun result =>
        (⟨result.1, message⟩, result.2)
  | receive message =>
      (queueReceiveFinish queue buffer message status).map fun result =>
        (⟨result.1.1, result.1.2⟩, result.2)

/-- The queue, the calls that have not reached the kernel with their buffers, and the
finished calls in the order of their kernel calls. -/
structure System (θ : Type u) where
  queue : Queue
  pending : θ → Option (Call × List (BitVec 32))
  history : List (Call × Reply)

/-- What a thread does next. -/
inductive QueueEvent (θ : Type u) where
  | call (thread : θ) (call : Call)
  | finish (thread : θ) (status : TxStatus)

variable {θ : Type u} [DecidableEq θ]

/-- One step of a thread.  A caller passes at least `message_size` bytes of memory. -/
def queueStep : Step (System θ) (QueueEvent θ)
  | system, .call thread call =>
      if (system.pending thread).isNone ∧ system.queue.bytes ≤ call.message.length then
        some
          { system with
            pending :=
              Function.update system.pending thread (some (call, call.buffer system.queue)) }
      else
        none
  | system, .finish thread status =>
      match system.pending thread with
      | none => none
      | some (call, buffer) =>
          (call.finish system.queue buffer status).map fun result =>
            { queue := result.2
              pending := Function.update system.pending thread none
              history := system.history ++ [(call, result.1)] }

/-! ## The queue of byte messages -/

/-- What a finished call did to the queue of messages of `size` bytes. -/
def fifoEvent (size : Nat) : Call × Reply → FifoEvent (List (BitVec 8))
  | (.send message, ⟨.success, _⟩) => .push (message.take size)
  | (.receive _, ⟨.success, message⟩) => .pop (message.take size)
  | _ => .skip

/-- The messages of the sends that returned `U_SUCCESS`. -/
def sentMessages (size : Nat) (history : List (Call × Reply)) : List (List (BitVec 8)) :=
  FifoEvent.pushed (history.map (fifoEvent size))

/-- The messages returned by the receives that returned `U_SUCCESS`. -/
def receivedMessages (size : Nat) (history : List (Call × Reply)) : List (List (BitVec 8)) :=
  FifoEvent.popped (history.map (fifoEvent size))

/-- A successful receive writes `size` bytes at its pointer, and nothing else writes
any. -/
def Writes (size : Nat) : Call × Reply → Prop
  | (.receive memory, ⟨.success, after⟩) =>
      ∃ message, message.length = size ∧ after = message ++ memory.drop size
  | (call, reply) => reply.message = call.message

/-- The pending messages, front first. -/
def Queue.contents (queue : Queue) : List (List (BitVec 8)) :=
  queue.txQueue.messages.map fun message => (unpackWords message).take queue.bytes

/-- The kernel's messages have the queue's number of words, enough for its bytes. -/
structure Queue.WellFormed (queue : Queue) : Prop where
  fits : queue.bytes ≤ 4 * queue.words
  messageWords : queue.txQueue.messageWords = queue.words
  messages_length : ∀ message ∈ queue.txQueue.messages, message.length = queue.words

/-- A buffer as the kernel call of `call` expects it. -/
structure Prepared (size words : Nat) (call : Call) (buffer : List (BitVec 32)) : Prop where
  memory : size ≤ call.message.length
  buffer_length : buffer.length = words
  buffer_bytes : ∀ message, call = .send message →
    (unpackWords buffer).take size = message.take size

/-- Before the kernel call the buffer holds the message, followed by zeros. -/
theorem prepared_buffer {queue : Queue} (wellFormed : queue.WellFormed) {call : Call}
    (memory : queue.bytes ≤ call.message.length) :
    Prepared queue.bytes queue.words call (call.buffer queue) := by
  refine ⟨memory, ?_, ?_⟩
  · cases call with
    | send message =>
        have fits : (message.take queue.bytes).length ≤
            4 * (List.replicate queue.words (0 : BitVec 32)).length := by
          rw [List.length_replicate, List.length_take]
          exact Nat.le_trans (Nat.min_le_left _ _) wellFormed.fits
        exact (length_copyIntoWords fits).trans List.length_replicate
    | receive message => exact List.length_replicate
  · rintro message rfl
    have length : (message.take queue.bytes).length = queue.bytes :=
      List.length_take_of_le memory
    have fits : (message.take queue.bytes).length ≤
        4 * (List.replicate queue.words (0 : BitVec 32)).length := by
      rw [List.length_replicate, length]
      exact wellFormed.fits
    have copied := take_unpackWords_copyIntoWords fits
    rw [length] at copied
    exact copied

/-! ## One call -/

variable {queue queue' : Queue} {buffer : List (BitVec 32)} {status : TxStatus}
  {call : Call} {reply : Reply}

/-- What finishing a call means for the queue of byte messages. -/
structure Refines (queue : Queue) (call : Call) (reply : Reply) (queue' : Queue) : Prop where
  wellFormed : queue'.WellFormed
  bytes : queue'.bytes = queue.bytes
  words : queue'.words = queue.words
  capacity : queue'.txQueue.capacity = queue.txQueue.capacity
  step : fifo queue.txQueue.capacity queue.contents (fifoEvent queue.bytes (call, reply)) =
    some queue'.contents
  writes : Writes queue.bytes (call, reply)
  unchanged : reply.status ≠ .success → queue' = queue

/-- A call that failed leaves queue and memory alone. -/
theorem refines_of_failed (wellFormed : queue.WellFormed) (failed : reply.status ≠ .success)
    (memory : reply.message = call.message) : Refines queue call reply queue := by
  rcases reply with ⟨status, message⟩
  have skipped : fifoEvent queue.bytes (call, ⟨status, message⟩) = .skip := by
    cases call <;> cases status <;> first | rfl | exact absurd rfl failed
  refine ⟨wellFormed, rfl, rfl, rfl, ?_, ?_, fun _ => rfl⟩
  · rw [skipped]
    cases queue.contents <;> rfl
  · cases call <;> cases status <;> first | exact memory | exact absurd rfl failed

/-- A kernel call of `queue_send` that fails. -/
theorem queueSendFinish_of_failed (failed : status ≠ txSuccess) :
    queueSendFinish queue buffer status = some (.error, queue) := by
  rw [queueSendFinish, txQueueSend_of_failed _ _ failed, Option.map_some, if_pos failed]

/-- A kernel call of `queue_send` that succeeds. -/
theorem queueSendFinish_of_success :
    queueSendFinish queue buffer txSuccess =
      if queue.txQueue.messages.length < queue.txQueue.capacity then
        some (.success,
          { queue with
            txQueue :=
              { queue.txQueue with
                messages :=
                  queue.txQueue.messages ++ [buffer.take queue.txQueue.messageWords] } })
      else
        none := by
  rw [queueSendFinish, txQueueSend_success]
  by_cases room : queue.txQueue.messages.length < queue.txQueue.capacity
  · rw [if_pos room, if_pos room]
    rfl
  · rw [if_neg room, if_neg room]
    rfl

/-- A kernel call of `queue_receive` that fails. -/
theorem queueReceiveFinish_of_failed {message : List (BitVec 8)} (failed : status ≠ txSuccess) :
    ∃ code, code ≠ UStatus.success ∧
      queueReceiveFinish queue buffer message status = some ((code, message), queue) := by
  rw [queueReceiveFinish, txQueueReceive_of_failed _ _ failed, Option.map_some]
  by_cases empty : status = txQueueEmpty
  · exact ⟨.queueEmpty, UStatus.noConfusion, by rw [if_pos empty]⟩
  · exact ⟨.error, UStatus.noConfusion, by rw [if_neg empty, if_pos failed]⟩

/-- A kernel call of `queue_receive` that succeeds. -/
theorem queueReceiveFinish_of_success {message : List (BitVec 8)} :
    queueReceiveFinish queue buffer message txSuccess =
      match queue.txQueue.messages with
      | [] => none
      | front :: messages =>
          some ((.success,
            splice message 0
              ((unpackWords (front ++ buffer.drop front.length)).take queue.bytes)),
            { queue with txQueue := { queue.txQueue with messages := messages } }) := by
  rw [queueReceiveFinish, txQueueReceive_success]
  cases queue.txQueue.messages <;> rfl

/-- Finishing a send appends its message to the queue, or changes nothing. -/
theorem send_refines {message : List (BitVec 8)} (wellFormed : queue.WellFormed)
    (prepared : Prepared queue.bytes queue.words (.send message) buffer)
    (finished : Call.finish queue buffer status (.send message) = some (reply, queue')) :
    Refines queue (.send message) reply queue' := by
  by_cases failed : status ≠ txSuccess
  · rw [Call.finish, queueSendFinish_of_failed failed] at finished
    cases finished
    exact refines_of_failed wellFormed UStatus.noConfusion rfl
  · rw [Call.finish, of_not_not failed, queueSendFinish_of_success] at finished
    by_cases room : queue.txQueue.messages.length < queue.txQueue.capacity
    · rw [if_pos room] at finished
      cases finished
      have taken : buffer.take queue.txQueue.messageWords = buffer := by
        rw [wellFormed.messageWords, ← prepared.buffer_length, List.take_length]
      refine ⟨⟨wellFormed.fits, wellFormed.messageWords, ?_⟩, rfl, rfl, rfl, ?_, rfl,
        fun failed => absurd rfl failed⟩
      · intro other member
        rcases List.mem_append.mp member with earlier | last
        · exact wellFormed.messages_length other earlier
        · cases List.mem_singleton.mp last
          rw [taken]
          exact prepared.buffer_length
      · have contents_length : queue.contents.length < queue.txQueue.capacity := by
          rw [Queue.contents, List.length_map]
          exact room
        refine (if_pos contents_length).trans (congrArg some ?_)
        simp only [Queue.contents, List.map_append, List.map_cons, List.map_nil, taken,
          prepared.buffer_bytes message rfl]
    · rw [if_neg room] at finished
      cases finished

/-- Finishing a receive takes the front message of the queue, or changes nothing. -/
theorem receive_refines {message : List (BitVec 8)} (wellFormed : queue.WellFormed)
    (prepared : Prepared queue.bytes queue.words (.receive message) buffer)
    (finished : Call.finish queue buffer status (.receive message) = some (reply, queue')) :
    Refines queue (.receive message) reply queue' := by
  by_cases failed : status ≠ txSuccess
  · obtain ⟨code, unsuccessful, step⟩ := @queueReceiveFinish_of_failed queue buffer _ message failed
    rw [Call.finish, step] at finished
    cases finished
    exact refines_of_failed wellFormed unsuccessful rfl
  · rw [Call.finish, of_not_not failed, queueReceiveFinish_of_success] at finished
    cases messages : queue.txQueue.messages with
    | nil =>
        rw [messages] at finished
        cases finished
    | cons front rest =>
        rw [messages] at finished
        cases finished
        have length := wellFormed.messages_length front (by rw [messages]; exact List.mem_cons_self)
        have filled : front ++ buffer.drop front.length = front := by
          rw [length, ← prepared.buffer_length, List.drop_length, List.append_nil]
        have taken_length : ((unpackWords front).take queue.bytes).length = queue.bytes := by
          rw [List.length_take_of_le]
          rw [length_unpackWords, length]
          exact wellFormed.fits
        have written : splice message 0
            ((unpackWords (front ++ buffer.drop front.length)).take queue.bytes) =
              (unpackWords front).take queue.bytes ++ message.drop queue.bytes := by
          rw [filled, splice, taken_length, List.take_zero, List.nil_append, Nat.zero_add]
        rw [written]
        refine ⟨⟨wellFormed.fits, wellFormed.messageWords, ?_⟩, rfl, rfl, rfl, ?_,
          ⟨_, taken_length, rfl⟩, fun failed => absurd rfl failed⟩
        · intro other member
          apply wellFormed.messages_length other
          rw [messages]
          exact List.mem_cons_of_mem front member
        · have returned : ((unpackWords front).take queue.bytes ++
              message.drop queue.bytes).take queue.bytes =
                (unpackWords front).take queue.bytes :=
            List.take_left' taken_length
          rw [fifoEvent, returned, Queue.contents, messages, List.map_cons]
          exact if_pos rfl

/-- Finishing a call is one step of the bounded queue of byte messages. -/
theorem finish_refines (wellFormed : queue.WellFormed)
    (prepared : Prepared queue.bytes queue.words call buffer)
    (finished : call.finish queue buffer status = some (reply, queue')) :
    Refines queue call reply queue' := by
  cases call with
  | send message => exact send_refines wellFormed prepared finished
  | receive message => exact receive_refines wellFormed prepared finished

/-- A call returns `U_SUCCESS` exactly when its kernel call does. -/
theorem finish_success_iff (finished : call.finish queue buffer status = some (reply, queue')) :
    reply.status = .success ↔ status = txSuccess := by
  by_cases failed : status ≠ txSuccess
  · have unsuccessful : reply.status ≠ .success := by
      cases call with
      | send message =>
          rw [Call.finish, queueSendFinish_of_failed failed] at finished
          cases finished
          exact UStatus.noConfusion
      | receive message =>
          obtain ⟨code, unsuccessful, step⟩ :=
            @queueReceiveFinish_of_failed queue buffer _ message failed
          rw [Call.finish, step] at finished
          cases finished
          exact unsuccessful
    exact iff_of_false unsuccessful failed
  · have succeeded : reply.status = .success := by
      rw [of_not_not failed] at finished
      cases call with
      | send message =>
          rcases Option.map_eq_some_iff.mp finished with ⟨result, step, same⟩
          rcases Option.map_eq_some_iff.mp step with ⟨txQueue, _, rfl⟩
          cases same
          rfl
      | receive message =>
          rcases Option.map_eq_some_iff.mp finished with ⟨result, step, same⟩
          rcases Option.map_eq_some_iff.mp step with ⟨received, _, rfl⟩
          cases same
          rfl
    exact iff_of_true succeeded (of_not_not failed)

/-- A send can succeed exactly while the kernel's queue has room. -/
theorem exists_finish_send_iff {message : List (BitVec 8)} :
    (∃ result, Call.finish queue buffer txSuccess (.send message) = some result) ↔
      queue.contents.length < queue.txQueue.capacity := by
  have length : queue.contents.length = queue.txQueue.messages.length := List.length_map _
  rw [Call.finish, queueSendFinish_of_success, length]
  by_cases room : queue.txQueue.messages.length < queue.txQueue.capacity
  · rw [if_pos room]
    exact ⟨fun _ => room, fun _ => ⟨_, rfl⟩⟩
  · rw [if_neg room]
    constructor
    · rintro ⟨result, finished⟩
      cases finished
    · exact fun inside => absurd inside room

/-- A receive can succeed exactly while a message is pending. -/
theorem exists_finish_receive_iff {message : List (BitVec 8)} :
    (∃ result, Call.finish queue buffer txSuccess (.receive message) = some result) ↔
      0 < queue.contents.length := by
  rw [Call.finish, queueReceiveFinish_of_success, Queue.contents, List.length_map]
  cases queue.txQueue.messages with
  | nil =>
      constructor
      · rintro ⟨result, finished⟩
        cases finished
      · exact fun inside => absurd inside (Nat.lt_irrefl 0)
  | cons front messages => exact ⟨fun _ => Nat.zero_lt_succ _, fun _ => ⟨_, rfl⟩⟩

/-! ## Runs of threads -/

/-- The invariant of a queue for messages of `size` bytes. -/
structure Sound (size words capacity : Nat) (system : System θ) : Prop where
  wellFormed : system.queue.WellFormed
  bytes_eq : system.queue.bytes = size
  words_eq : system.queue.words = words
  capacity_eq : system.queue.txQueue.capacity = capacity
  prepared : ∀ thread call buffer, system.pending thread = some (call, buffer) →
    Prepared size words call buffer
  history : run (fifo capacity) [] (system.history.map (fifoEvent size)) =
    some system.queue.contents
  writes : ∀ entry ∈ system.history, Writes size entry

/-- The entries of an updated table. -/
theorem update_eq_some {β : Type} {table : θ → Option β} {thread other : θ}
    {value : Option β} {entry : β}
    (updated : Function.update table thread value other = some entry) :
    value = some entry ∨ table other = some entry := by
  by_cases same : other = thread
  · subst same
    rw [Function.update_self] at updated
    exact .inl updated
  · rw [Function.update_of_ne same] at updated
    exact .inr updated

/-- Every step of every thread keeps the invariant. -/
theorem queueStep_preserves (size words capacity : Nat) :
    Preserves (@queueStep θ _) (Sound size words capacity) := by
  rintro system event system' sound step
  have wellFormed := sound.wellFormed
  have bytes := sound.bytes_eq
  have sameWords := sound.words_eq
  cases event with
  | call thread call =>
      rcases Option.ite_none_right_eq_some.mp step with ⟨⟨_, memory⟩, entered⟩
      cases entered
      refine { sound with prepared := ?_ }
      intro other otherCall buffer pending
      rcases update_eq_some pending with entered | earlier
      · cases entered
        have prepared := prepared_buffer wellFormed memory
        rwa [bytes, sameWords] at prepared
      · exact sound.prepared other otherCall buffer earlier
  | finish thread status =>
      cases pending : system.pending thread with
      | none =>
          rw [queueStep, pending] at step
          cases step
      | some entry =>
          rcases entry with ⟨call, buffer⟩
          rw [queueStep, pending] at step
          rcases Option.map_eq_some_iff.mp step with ⟨⟨reply, queue'⟩, finished, rfl⟩
          have prepared := sound.prepared thread call buffer pending
          rw [← bytes, ← sameWords] at prepared
          have refines := finish_refines wellFormed prepared finished
          have fifoStep := refines.step
          have writes := refines.writes
          rw [sound.capacity_eq, bytes] at fifoStep
          rw [bytes] at writes
          refine ⟨refines.wellFormed, refines.bytes.trans bytes, refines.words.trans sameWords,
            refines.capacity.trans sound.capacity_eq, ?_, ?_, ?_⟩
          · intro other otherCall otherBuffer otherPending
            rcases update_eq_some otherPending with entered | earlier
            · cases entered
            · exact sound.prepared other otherCall otherBuffer earlier
          · rw [List.map_append]
            exact run_concat_eq_some_iff.mpr ⟨_, sound.history, fifoStep⟩
          · intro entry member
            rcases List.mem_append.mp member with earlier | last
            · exact sound.writes entry earlier
            · cases List.mem_singleton.mp last
              exact writes

/-- No call is under way. -/
def System.start (queue : Queue) : System θ :=
  ⟨queue, fun _ => none, []⟩

/-- The number of words for a message size is the size rounded up. -/
theorem toNat_messageSizeWords {messageSize : BitVec 32} (small : messageSize.toNat ≤ 512) :
    ((messageSize + 3) / 4).toNat = (messageSize.toNat + 3) / 4 := by
  have sum : (messageSize + 3).toNat = messageSize.toNat + 3 :=
    BitVec.toNat_add_of_lt (by
      change messageSize.toNat + 3 < 2 ^ 32
      omega)
  rw [BitVec.toNat_udiv, sum]
  rfl

omit [DecidableEq θ] in
/-- A queue created with `U_SUCCESS` satisfies the invariant. -/
theorem sound_of_createQueue {kernel : Kernel} (documented : kernel.Documented)
    {config : Queue} (size : 1 ≤ config.messageSize.toNat ∧ config.messageSize.toNat ≤ 512)
    (fits : (config.messageSize.toNat + 3) / 4 * 4 * config.capacity.toNat < 2 ^ 31)
    (created : createQueue kernel config = (.success, queue)) :
    Sound config.messageSize.toNat ((config.messageSize.toNat + 3) / 4) config.capacity.toNat
      (System.start queue : System θ) := by
  have words := toNat_messageSizeWords size.2
  have total : (((config.messageSize + 3) / 4) * 4 * config.capacity).toNat =
      (config.messageSize.toNat + 3) / 4 * 4 * config.capacity.toNat := by
    have product : (((config.messageSize + 3) / 4) * 4).toNat =
        (config.messageSize.toNat + 3) / 4 * 4 := by
      rw [BitVec.toNat_mul, words]
      change _ * 4 % 2 ^ 32 = _
      omega
    rw [BitVec.toNat_mul, product]
    exact Nat.mod_eq_of_lt (by omega)
  have success : ∀ status : TxStatus, status.toNat < 256 → status.setWidth 8 = 0#8 →
      status = txSuccess := by
    intro status small zero
    apply BitVec.eq_of_toNat_eq
    have low := congrArg BitVec.toNat zero
    rw [BitVec.toNat_setWidth, Nat.mod_eq_of_lt small] at low
    exact low
  unfold createQueue at created
  dsimp only at created
  split at created
  · cases created
  · split at created
    · cases created
    · rename_i accepted
      have succeeded := success _ (documented.create_lt _ _) (of_not_not accepted)
      have empty := documented.created _ _ succeeded
      rw [words, total, Nat.mul_comm _ 4, Nat.mul_div_cancel_left _ (by omega)] at empty
      rw [empty] at created
      cases created
      refine ⟨⟨?_, words.symm, ?_⟩, rfl, words, rfl, ?_, rfl, ?_⟩
      · change config.messageSize.toNat ≤ 4 * ((config.messageSize + 3) / 4).toNat
        rw [words]
        omega
      · intro message member
        cases member
      · intro thread call buffer pending
        cases pending
      · intro entry member
        cases member

/-- The two steps of a call that no other thread interrupts. -/
theorem run_undisturbed {system : System θ} {thread : θ}
    (free : system.pending thread = none) (memory : system.queue.bytes ≤ call.message.length) :
    run queueStep system [.call thread call, .finish thread status] =
      (call.finish system.queue (call.buffer system.queue) status).map fun result =>
        { system with queue := result.2, history := system.history ++ [(call, result.1)] } := by
  have entered : queueStep system (.call thread call) = some
      { system with
        pending :=
          Function.update system.pending thread (some (call, call.buffer system.queue)) } :=
    if_pos ⟨by rw [free]; rfl, memory⟩
  rw [run_cons, entered, Option.bind_some, run_cons]
  simp only [queueStep, Function.update_self, Function.update_idem, run_nil]
  rw [← free, Function.update_eq_self]
  cases call.finish system.queue (call.buffer system.queue) status <;> rfl

/-- An undisturbed `queue_send`. -/
theorem run_queueSend {system : System θ} {thread : θ} {message : List (BitVec 8)}
    (free : system.pending thread = none) (memory : system.queue.bytes ≤ message.length) :
    run queueStep system [.call thread (.send message), .finish thread status] =
      (queueSend system.queue message status).map fun result =>
        { system with
          queue := result.2
          history := system.history ++ [(.send message, ⟨result.1, message⟩)] } := by
  have enough : system.queue.bytes ≤ (Call.send message).message.length := memory
  rw [run_undisturbed free enough, Call.finish, Option.map_map]
  rfl

/-- An undisturbed `queue_receive`. -/
theorem run_queueReceive {system : System θ} {thread : θ} {message : List (BitVec 8)}
    (free : system.pending thread = none) (memory : system.queue.bytes ≤ message.length) :
    run queueStep system [.call thread (.receive message), .finish thread status] =
      (queueReceive system.queue message status).map fun result =>
        { system with
          queue := result.2
          history := system.history ++ [(.receive message, ⟨result.1.1, result.1.2⟩)] } := by
  have enough : system.queue.bytes ≤ (Call.receive message).message.length := memory
  rw [run_undisturbed free enough, Call.finish, Option.map_map]
  rfl

/-- A pending call can be finished in a step exactly when it can end with the status. -/
theorem exists_queueStep_finish_iff {system : System θ} {thread : θ}
    (pending : system.pending thread = some (call, buffer)) :
    (∃ next, queueStep system (.finish thread status) = some next) ↔
      ∃ result, call.finish system.queue buffer status = some result := by
  rw [queueStep, pending]
  constructor
  · rintro ⟨next, step⟩
    rcases Option.map_eq_some_iff.mp step with ⟨result, finished, -⟩
    exact ⟨result, finished⟩
  · rintro ⟨result, finished⟩
    exact ⟨_, Option.map_eq_some_iff.mpr ⟨result, finished, rfl⟩⟩

/-- After `create_queue` returned `U_SUCCESS`, in every interleaving of the threads'
calls: the messages sent are, in order, those received and then those pending; never
more than `capacity` are pending, and a send can succeed exactly while fewer are, a
receive exactly while some are; a successful receive writes `message_size` bytes at its
pointer and nothing else does; a call returns `U_SUCCESS` exactly when its kernel call
does, and leaves the queue alone otherwise. -/
theorem queue_is_bounded_fifo {kernel : Kernel} (documented : kernel.Documented)
    {config queue : Queue}
    (size : 1 ≤ config.messageSize.toNat ∧ config.messageSize.toNat ≤ 512)
    (fits : (config.messageSize.toNat + 3) / 4 * 4 * config.capacity.toNat < 2 ^ 31)
    (created : createQueue kernel config = (.success, queue))
    {events : List (QueueEvent θ)} {final : System θ}
    (executed : run queueStep (System.start queue) events = some final) :
    sentMessages config.messageSize.toNat final.history =
        receivedMessages config.messageSize.toNat final.history ++ final.queue.contents ∧
      final.queue.contents.length ≤ config.capacity.toNat ∧
      (∀ thread message buffer, final.pending thread = some (.send message, buffer) →
        ((∃ next, queueStep final (.finish thread txSuccess) = some next) ↔
          final.queue.contents.length < config.capacity.toNat)) ∧
      (∀ thread message buffer, final.pending thread = some (.receive message, buffer) →
        ((∃ next, queueStep final (.finish thread txSuccess) = some next) ↔
          0 < final.queue.contents.length)) ∧
      (∀ entry ∈ final.history, Writes config.messageSize.toNat entry) ∧
      ∀ thread status next, queueStep final (.finish thread status) = some next →
        ∃ call buffer reply, final.pending thread = some (call, buffer) ∧
          next.history = final.history ++ [(call, reply)] ∧
          (reply.status = .success ↔ status = txSuccess) ∧
          (reply.status ≠ .success → next.queue = final.queue) := by
  have sound := (queueStep_preserves _ _ _).run
    (sound_of_createQueue documented size fits created) executed
  refine ⟨?_, fifo_run_bounded (Nat.zero_le _) sound.history, ?_, ?_, sound.writes, ?_⟩
  · have conserved := fifo_run_conserves sound.history
    rwa [List.nil_append] at conserved
  · intro thread message buffer pending
    rw [exists_queueStep_finish_iff pending, exists_finish_send_iff, sound.capacity_eq]
  · intro thread message buffer pending
    rw [exists_queueStep_finish_iff pending, exists_finish_receive_iff]
  · intro thread status next step
    cases pending : final.pending thread with
    | none =>
        rw [queueStep, pending] at step
        cases step
    | some entry =>
        rcases entry with ⟨call, buffer⟩
        rw [queueStep, pending] at step
        rcases Option.map_eq_some_iff.mp step with ⟨⟨reply, queue'⟩, finished, rfl⟩
        have prepared := sound.prepared thread call buffer pending
        rw [← sound.words_eq, ← sound.bytes_eq] at prepared
        exact ⟨call, buffer, reply, rfl, rfl, finish_success_iff finished,
          (finish_refines sound.wellFormed prepared finished).unchanged⟩

/-- A kernel with enough memory for one small queue. -/
def exampleKernel : Kernel where
  txByteAllocate size := if size.toNat ≤ 64 then txSuccess else 0x10
  txQueueCreate words size :=
    if 1 ≤ words.toNat ∧ words.toNat ≤ 128 then
      (txSuccess, ⟨words.toNat, size.toNat / (4 * words.toNat), []⟩)
    else
      (0x05, ⟨0, 0, []⟩)

/-- Queue settings for two messages of five bytes. -/
def exampleConfig : Queue :=
  ⟨5, 2, ⟨0, 0, []⟩, 0, 0⟩

theorem exampleKernel_documented : exampleKernel.Documented := by
  constructor
  · intro size
    change (if _ then _ else _ : TxStatus).toNat < 256
    split <;> decide
  · intro words size
    unfold exampleKernel
    dsimp only
    split
    · exact (by decide : (0 : Nat) < 256)
    · exact (by decide : (5 : Nat) < 256)
  · intro words size succeeded
    unfold exampleKernel at succeeded ⊢
    dsimp only at succeeded ⊢
    split at succeeded
    · rename_i valid
      rw [if_pos valid]
    · cases succeeded

/-- Two threads, messages of five bytes: both receivers get a message, and the three
padding bytes reach nobody. -/
theorem queue_is_bounded_fifo_example :
    ∃ final : System Bool,
      run queueStep (System.start (createQueue exampleKernel exampleConfig).2)
          [.call true (.send [1, 2, 3, 4, 5]), .call false (.send [6, 7, 8, 9, 10]),
            .finish false txSuccess, .finish true txSuccess,
            .call true (.receive [0, 0, 0, 0, 0, 0]), .finish true txSuccess] = some final ∧
        sentMessages 5 final.history =
          receivedMessages 5 final.history ++ [[1, 2, 3, 4, 5]] ∧
        final.history.getLast? =
          some (.receive [0, 0, 0, 0, 0, 0], ⟨.success, [6, 7, 8, 9, 10, 0]⟩) := by
  obtain ⟨final, executed⟩ : ∃ final : System Bool,
      run queueStep (System.start (createQueue exampleKernel exampleConfig).2)
          [.call true (.send [1, 2, 3, 4, 5]), .call false (.send [6, 7, 8, 9, 10]),
            .finish false txSuccess, .finish true txSuccess,
            .call true (.receive [0, 0, 0, 0, 0, 0]), .finish true txSuccess] = some final :=
    ⟨_, rfl⟩
  have contents : (some final).map (fun system => system.queue.contents) =
      some [[1, 2, 3, 4, 5]] := by
    rw [← executed]
    decide
  have last : (some final).map (fun system => system.history.getLast?) =
      some (some (.receive [0, 0, 0, 0, 0, 0], ⟨.success, [6, 7, 8, 9, 10, 0]⟩)) := by
    rw [← executed]
    decide
  have conserved := (@queue_is_bounded_fifo Bool _ _ exampleKernel_documented exampleConfig _
    (by decide) (by decide) rfl _ _ executed).1
  rw [show final.queue.contents = _ from Option.some.inj contents] at conserved
  exact ⟨final, executed, conserved, Option.some.inj last⟩

end EmbeddedBase.ThreadX
