import EmbeddedBase.TraceX.Dump
import EmbeddedBase.Transition.Core
import Mathlib.Algebra.Ring.Nat

/-!
# Completion interrupts inside `start_next_chunk`

The transmit callback only starts a transfer, so its completion may interrupt the
call that started it.  This file runs the loads and stores after the call of `s_tx_fn`
one by one, with the interrupted calls on a stack, and finds out which completions the
dump survives.
-/

namespace EmbeddedBase.TraceX

open EmbeddedBase.Transition

universe u

/-- A call of `start_next_chunk` that has called `s_tx_fn` for `n` bytes and not yet
returned.  A compound assignment loads its variable, and stores it later. -/
inductive Frame where
  /-- The load of `s_dp += n` is next. -/
  | sent (n : BitVec 32)
  /-- The store of `s_dp += n` is next, with the value for it. -/
  | dpLoaded (n : BitVec 32) (dp : Nat)
  /-- The load of `s_remaining -= n` is next. -/
  | advanced (n : BitVec 32)
  /-- The store of `s_remaining -= n` is next, with the value for it. -/
  | remainingLoaded (remaining : BitVec 32)
  deriving DecidableEq

/-- The program state, and the unfinished calls, innermost first. -/
structure Interrupted (τ : Type u) where
  out : Traceout τ Wire
  frames : List Frame

/-- What can happen next. -/
inductive IsrEvent where
  /-- A start request arrives. -/
  | start
  /-- An outstanding transfer completes. -/
  | complete
  /-- The innermost call executes its next load or store. -/
  | proceed
  deriving DecidableEq

variable {τ : Type u}

/-- The state when `start_next_chunk` has called `s_tx_fn`, or has returned. -/
def Interrupted.enter (frames : List Frame) :
    Traceout τ Wire × Option (BitVec 32) → Interrupted τ
  | (out, none) => ⟨out, frames⟩
  | (out, some n) => ⟨out, .sent n :: frames⟩

/-- `traceout_start_from_isr`, up to its first unfinished statement. -/
def enterStart (trace : TxTrace τ) (frames : List Frame) (out : Traceout τ Wire) :
    Option (Interrupted τ) :=
  if out.txFn.isNone ∨ out.outputActive = true then
    some ⟨out, frames⟩
  else
    (beginChunk trace (prepare trace out)).map (Interrupted.enter frames)

/-- `traceout_on_tx_complete_from_isr`, up to its first unfinished statement. -/
def enterComplete (trace : TxTrace τ) (frames : List Frame) (out : Traceout τ Wire) :
    Option (Interrupted τ) :=
  if out.outputActive = true then
    (beginChunk trace out).map (Interrupted.enter frames)
  else
    some ⟨out, frames⟩

/-- One event; a completion needs an outstanding transfer. -/
def isrStep (trace : TxTrace τ) : Step (Interrupted τ) IsrEvent
  | ⟨out, frames⟩, .start => enterStart trace frames { out with wire := out.wire.request }
  | ⟨out, frames⟩, .complete =>
      if out.wire.outstanding = 0 then
        none
      else
        enterComplete trace frames { out with wire := out.wire.complete }
  | ⟨_, []⟩, .proceed => none
  | ⟨out, .sent n :: frames⟩, .proceed =>
      some ⟨out, .dpLoaded n (advanceCursor n out).dp :: frames⟩
  | ⟨out, .dpLoaded n dp :: frames⟩, .proceed =>
      some ⟨{ out with dp := dp }, .advanced n :: frames⟩
  | ⟨out, .advanced n :: frames⟩, .proceed =>
      some ⟨out, .remainingLoaded (reduceRemaining n out).remaining :: frames⟩
  | ⟨out, .remainingLoaded remaining :: frames⟩, .proceed =>
      some ⟨{ out with remaining := remaining }, frames⟩

/-! ## The property and the condition -/

/-- The subtraction about to be computed does not wrap `s_remaining`. -/
def Interrupted.NoWrap (state : Interrupted τ) : Prop :=
  ∀ n frames, state.frames = .advanced n :: frames → n.toNat ≤ state.out.remaining.toNat

/-- No byte of the buffer was handed over twice, skipped or invented, and
`s_remaining` does not wrap. -/
structure Interrupted.Intact (buffer size : Nat) (state : Interrupted τ) : Prop where
  inOrder : state.out.wire.InOrder buffer size
  noWrap : state.NoWrap

/-- A completion comes when no call is unfinished. -/
def Undisturbed (state : Interrupted τ) : IsrEvent → Prop
  | .complete => state.frames = []
  | _ => True

/-- The dump is intact, and stays so when no further call is disturbed. -/
def Interrupted.StaysIntact (trace : TxTrace τ) (buffer size : Nat) (state : Interrupted τ) :
    Prop :=
  ∀ more final, Along (isrStep trace) Undisturbed state more →
    run (isrStep trace) state more = some final → final.Intact buffer size

/-- A completion comes when no call is unfinished, or when the innermost one has stored
the cursor and not yet loaded `s_remaining`, and a whole further chunk is left. -/
def Timely (buffer size : Nat) (state : Interrupted τ) : IsrEvent → Prop
  | .complete =>
      match state.frames with
      | [] => True
      | .advanced _ :: _ => state.out.dp + 1024 ≤ buffer + size
      | _ => False
  | _ => True

/-! ## The invariant -/

/-- The bytes by which `s_remaining` is still to be reduced. -/
def pending (lengths : List (BitVec 32)) : Nat :=
  (lengths.map BitVec.toNat).sum

/-- An active session with the cursor behind the first `handed` bytes, and unfinished
calls that are still to reduce `s_remaining` by `lengths`. -/
structure Streaming (buffer size : Nat) (lengths : List (BitVec 32)) (handed : Nat)
    (out : Traceout τ Wire) : Prop where
  active : out.outputActive = true
  stopped : out.tracex.tracexStarted = false
  opened : out.wire.dumps ≠ []
  older : ∀ dump ∈ out.wire.dumps.tail, dumpBytes dump = List.range' buffer size
  dp : out.dp = buffer + handed
  remaining : out.remaining.toNat + handed = size + pending lengths
  pending_le : pending lengths ≤ handed
  positive : ∀ n ∈ lengths, 0 < n.toNat
  inside : handed ≤ size

/-- Where the cursor stands between two loads or stores. -/
inductive Phase (buffer size : Nat) : Interrupted τ → Prop
  /-- No session is active. -/
  | idle {out : Traceout τ Wire} (inactive : out.outputActive = false)
      (quiet : out.wire.outstanding = 0)
      (started : size ≠ 0 → out.tracex.tracexStarted = true) :
      Phase buffer size ⟨out, []⟩
  /-- The cursor is behind the last byte handed over. -/
  | settled {out : Traceout τ Wire} {lengths : List (BitVec 32)} {handed : Nat}
      (streaming : Streaming buffer size lengths handed out)
      (outstanding : out.wire.outstanding = 1)
      (bytes : dumpBytes out.wire.current = List.range' buffer handed) :
      Phase buffer size ⟨out, lengths.map .advanced⟩
  /-- The cursor is `n` bytes short of that. -/
  | handing {out : Traceout τ Wire} {lengths : List (BitVec 32)} {handed : Nat}
      {n : BitVec 32} {frame : Frame} (streaming : Streaming buffer size lengths handed out)
      (outstanding : out.wire.outstanding = 1) (nonempty : 0 < n.toNat)
      (fits : handed + n.toNat ≤ size)
      (bytes : dumpBytes out.wire.current = List.range' buffer (handed + n.toNat))
      (short : frame = .sent n ∨ frame = .dpLoaded n (advanceCursor n out).dp) :
      Phase buffer size ⟨out, frame :: lengths.map .advanced⟩
  /-- The cursor is behind the last byte handed over, and `s_remaining` was loaded. -/
  | reducing {out : Traceout τ Wire} {lengths : List (BitVec 32)} {handed : Nat}
      {n : BitVec 32} (streaming : Streaming buffer size (n :: lengths) handed out)
      (outstanding : out.wire.outstanding = 1)
      (bytes : dumpBytes out.wire.current = List.range' buffer handed) :
      Phase buffer size
        ⟨out, .remainingLoaded (reduceRemaining n out).remaining :: lengths.map .advanced⟩

/-- The invariant. -/
structure Sound (trace : TxTrace τ) (buffer : Nat) (size : BitVec 32)
    (state : Interrupted τ) : Prop where
  ready : state.out.tracex.Ready trace buffer size
  txFn : state.out.txFn = some Wire.send
  inOrder : state.out.wire.InOrder buffer size.toNat
  bounded : state.out.wire.ChunksBounded
  phase : Phase buffer size.toNat state

variable {trace : TxTrace τ} {buffer : Nat} {size : BitVec 32} {out : Traceout τ Wire}
  {lengths : List (BitVec 32)} {handed : Nat}

/-! ## Starting the next chunk -/

theorem pending_cons (n : BitVec 32) (lengths : List (BitVec 32)) :
    pending (n :: lengths) = n.toNat + pending lengths :=
  rfl

theorem Streaming.pending_pos {size : Nat} (streaming : Streaming buffer size lengths handed out)
    (unfinished : lengths ≠ []) : 0 < pending lengths := by
  cases lengths with
  | nil => exact absurd rfl unfinished
  | cons n lengths =>
      have positive := streaming.positive n List.mem_cons_self
      rw [pending_cons]
      omega

/-- The completion of a transfer does not move the cursor. -/
theorem Streaming.complete {size : Nat}
    (streaming : Streaming buffer size lengths handed out) :
    Streaming buffer size lengths handed { out with wire := out.wire.complete } :=
  { streaming with }

/-- The cursor moves behind the `n` bytes that were handed over. -/
theorem Streaming.advanceCursor {size : Nat} (streaming : Streaming buffer size lengths handed out)
    {n : BitVec 32} (nonempty : 0 < n.toNat) (fits : handed + n.toNat ≤ size) :
    Streaming buffer size (n :: lengths) (handed + n.toNat) (advanceCursor n out) where
  active := streaming.active
  stopped := streaming.stopped
  opened := streaming.opened
  older := streaming.older
  dp := by
    change out.dp + n.toNat = buffer + (handed + n.toNat)
    rw [streaming.dp, Nat.add_assoc]
  remaining := by
    have accounting := streaming.remaining
    change out.remaining.toNat + (handed + n.toNat) = _
    rw [pending_cons]
    omega
  pending_le := by
    have below := streaming.pending_le
    rw [pending_cons]
    omega
  positive := by
    rintro other member
    rcases List.mem_cons.mp member with rfl | member
    · exact nonempty
    · exact streaming.positive other member
  inside := fits

/-- `s_remaining` is reduced by a length the cursor has already moved by. -/
theorem Streaming.reduceRemaining {size : Nat} {n : BitVec 32}
    (streaming : Streaming buffer size (n :: lengths) handed out) :
    Streaming buffer size lengths handed (reduceRemaining n out) where
  active := streaming.active
  stopped := streaming.stopped
  opened := streaming.opened
  older := streaming.older
  dp := streaming.dp
  remaining := by
    have accounting := streaming.remaining
    have below := streaming.pending_le
    have inside := streaming.inside
    rw [pending_cons] at accounting below
    change (out.remaining - n).toNat + handed = size + pending lengths
    rw [BitVec.toNat_sub_of_le (BitVec.le_def.mpr (by omega))]
    omega
  pending_le := by
    have below := streaming.pending_le
    rw [pending_cons] at below
    omega
  positive := fun other member => streaming.positive other (List.mem_cons_of_mem n member)
  inside := streaming.inside

/-- A timely completion finds no call unfinished or a whole chunk left. -/
theorem Streaming.room_of_timely {size : Nat}
    (streaming : Streaming buffer size lengths handed out)
    (timely : Timely buffer size ⟨out, lengths.map .advanced⟩ .complete) :
    lengths = [] ∨ handed + 1024 ≤ size := by
  cases lengths with
  | nil => exact .inl rfl
  | cons n lengths =>
      have whole : out.dp + 1024 ≤ buffer + size := timely
      rw [streaming.dp] at whole
      right
      omega

theorem toNat_setWidth_chunkLength (remaining : BitVec 32) :
    ((chunkLength remaining).setWidth 16).toNat = (chunkLength remaining).toNat := by
  have short : (chunkLength remaining).toNat ≤ 1024 := by
    rw [toNat_chunkLength]
    exact Nat.min_le_left _ _
  rw [BitVec.toNat_setWidth, Nat.mod_eq_of_lt (by omega)]

/-- Nothing is left: the session ends. -/
theorem beginChunk_finish (empty : out.remaining = 0) :
    beginChunk trace out =
      some ({ out with outputActive := false, tracex := tracexStart trace out.tracex }, none) :=
  if_pos empty

/-- Something is left: a chunk goes out from the cursor. -/
theorem beginChunk_send (txFn : out.txFn = some Wire.send) (more : out.remaining ≠ 0) :
    beginChunk trace out =
      some ({ out with
          wire := Wire.send out.dp ((chunkLength out.remaining).setWidth 16) out.wire },
        some (chunkLength out.remaining)) := by
  rw [beginChunk, if_neg more, txFn]
  rfl

/-- A session ends soundly once its dump is whole. -/
theorem sound_of_whole (controls : trace.Controls buffer size) (nonnull : buffer ≠ 0)
    (streaming : Streaming buffer size.toNat lengths handed out)
    (ready : out.tracex.Ready trace buffer size) (txFn : out.txFn = some Wire.send)
    (bounded : out.wire.ChunksBounded) (quiet : out.wire.outstanding = 0)
    (bytes : dumpBytes out.wire.current = List.range' buffer size.toNat) :
    Sound trace buffer size
      ⟨{ out with outputActive := false, tracex := tracexStart trace out.tracex }, []⟩ := by
  rcases tracexStart_ready controls nonnull ready with ⟨readyAgain, started⟩
  have all : ∀ dump ∈ out.wire.dumps, dumpBytes dump = List.range' buffer size.toNat := by
    intro dump member
    rcases (Wire.mem_dumps_iff streaming.opened).mp member with rfl | older
    · exact bytes
    · exact streaming.older dump older
  refine ⟨readyAgain, txFn, ⟨?_, ?_⟩, bounded, .idle rfl quiet fun nonempty => ?_⟩
  · intro dump member
    rw [all dump member]
  · intro dump member
    change dump ∈ out.wire.finished at member
    rw [Wire.finished_of_quiet quiet] at member
    exact all dump member
  · exact started fun zero => nonempty (by rw [zero]; rfl)

/-- With the cursor behind the last byte handed over, and no unfinished call or a
whole chunk left, the next chunk keeps the invariant. -/
theorem beginChunk_sound (controls : trace.Controls buffer size) (nonnull : buffer ≠ 0)
    (streaming : Streaming buffer size.toNat lengths handed out)
    (ready : out.tracex.Ready trace buffer size) (txFn : out.txFn = some Wire.send)
    (bounded : out.wire.ChunksBounded) (quiet : out.wire.outstanding = 0)
    (bytes : dumpBytes out.wire.current = List.range' buffer handed)
    (room : lengths = [] ∨ handed + 1024 ≤ size.toNat) :
    ∃ result, beginChunk trace out = some result ∧
      Sound trace buffer size (Interrupted.enter (lengths.map .advanced) result) := by
  have accounting := streaming.remaining
  have inside := streaming.inside
  by_cases empty : out.remaining = 0
  · refine ⟨_, beginChunk_finish empty, ?_⟩
    have zero : out.remaining.toNat = 0 := by rw [empty]; rfl
    have finished : lengths = [] := by
      by_contra unfinished
      have positive := streaming.pending_pos unfinished
      omega
    subst finished
    have whole : handed = size.toNat := by
      have none_pending : pending [] = 0 := rfl
      omega
    rw [whole] at bytes
    exact sound_of_whole controls nonnull streaming ready txFn bounded quiet bytes
  · refine ⟨_, beginChunk_send txFn empty, ?_⟩
    have positive : 0 < out.remaining.toNat := by
      rw [Nat.pos_iff_ne_zero]
      exact fun zero => empty (BitVec.eq_of_toNat_eq zero)
    have length := toNat_chunkLength out.remaining
    have narrow := toNat_setWidth_chunkLength out.remaining
    have fits : handed + (chunkLength out.remaining).toNat ≤ size.toNat := by
      rcases room with finished | room
      · subst finished
        have none_pending : pending [] = 0 := rfl
        omega
      · omega
    refine ⟨ready, txFn, ?_, ?_, .handing ?_ ?_ (by omega) fits ?_ (.inl rfl)⟩
    · refine Wire.inOrder_send streaming.older bytes ?_ streaming.dp ?_
      · omega
      · rwa [narrow]
    · exact Wire.chunksBounded_send bounded (by omega)
    · exact { streaming with
        opened := List.cons_ne_nil _ _
        older := streaming.older }
    · exact congrArg (· + 1) quiet
    · rw [Wire.current_send, dumpBytes_concat, bytes, Chunk.bytes, narrow, streaming.dp]
      exact List.range'_append_1

/-- With the cursor short of the last byte handed over, or calls unfinished and less
than a chunk left, the next chunk is out of order. -/
theorem beginChunk_not_inOrder {ahead : Nat}
    (streaming : Streaming buffer size.toNat lengths handed out)
    (txFn : out.txFn = some Wire.send)
    (bytes : dumpBytes out.wire.current = List.range' buffer ahead)
    (astray : handed < ahead ∧ ahead ≤ size.toNat ∨
      ahead = handed ∧ lengths ≠ [] ∧ size.toNat < handed + 1024)
    {result : Traceout τ Wire × Option (BitVec 32)}
    (begun : beginChunk trace out = some result) (frames : List Frame) :
    ¬(Interrupted.enter frames result).out.wire.InOrder buffer size.toNat := by
  have accounting := streaming.remaining
  have pendingPositive : lengths ≠ [] → 0 < pending lengths := streaming.pending_pos
  have positive : 0 < out.remaining.toNat := by
    rcases astray with behind | ⟨_, unfinished, _⟩
    · omega
    · have more := pendingPositive unfinished
      have inside := streaming.inside
      omega
  have more : out.remaining ≠ 0 := by
    intro empty
    rw [empty] at positive
    exact absurd positive (Nat.lt_irrefl 0)
  rw [beginChunk_send txFn more] at begun
  cases begun
  have length := toNat_chunkLength out.remaining
  refine Wire.not_inOrder_send bytes ?_ ?_
  · rw [toNat_setWidth_chunkLength]
    omega
  · rw [toNat_setWidth_chunkLength, streaming.dp]
    rcases astray with behind | ⟨rfl, unfinished, short⟩
    · left
      omega
    · right
      have more := pendingPositive unfinished
      omega

/-! ## One event -/

/-- Outside a session a start request begins a dump at the start of the buffer. -/
theorem streaming_prepare (controls : trace.Controls buffer size)
    (ready : out.tracex.Ready trace buffer size)
    (finished : ∀ dump ∈ out.wire.dumps, dumpBytes dump = List.range' buffer size.toNat)
    (quiet : out.wire.outstanding = 0) :
    let prepared := prepare trace { out with wire := out.wire.request }
    Streaming buffer size.toNat [] 0 prepared ∧
      prepared.tracex.Ready trace buffer size ∧
      prepared.wire = ⟨[] :: out.wire.dumps, 0⟩ := by
  rcases tracexStop_ready controls ready with ⟨readyAgain, stopped⟩
  have opened := Wire.request_of_quiet quiet
  refine ⟨⟨rfl, stopped, ?_, ?_, ?_, ?_, Nat.le_refl 0, by simp, Nat.zero_le _⟩,
    readyAgain, opened⟩
  · change out.wire.request.dumps ≠ []
    rw [opened]
    exact List.cons_ne_nil _ _
  · change ∀ dump ∈ out.wire.request.dumps.tail, _
    rw [opened]
    exact finished
  · exact readyAgain.traceBuffer
  · exact congrArg BitVec.toNat readyAgain.traceSize

theorem Sound.finished_of_quiet {state : Interrupted τ} (sound : Sound trace buffer size state)
    (quiet : state.out.wire.outstanding = 0) :
    ∀ dump ∈ state.out.wire.dumps, dumpBytes dump = List.range' buffer size.toNat := by
  intro dump member
  apply sound.inOrder.finished_eq
  rwa [Wire.finished_of_quiet quiet]

/-- A start request during a session changes nothing. -/
theorem isrStep_start_of_streaming {frames : List Frame} (active : out.outputActive = true)
    (outstanding : out.wire.outstanding = 1) :
    isrStep trace ⟨out, frames⟩ .start = some ⟨out, frames⟩ := by
  have kept := Wire.request_of_outstanding (by rw [outstanding]; exact Nat.one_ne_zero)
  exact (if_pos (.inr active)).trans (by rw [kept])

/-- A start request outside a session runs `start_next_chunk`. -/
theorem isrStep_start_of_idle {frames : List Frame} (txFn : out.txFn = some Wire.send)
    (inactive : out.outputActive = false) :
    isrStep trace ⟨out, frames⟩ .start =
      (beginChunk trace (prepare trace { out with wire := out.wire.request })).map
        (Interrupted.enter frames) := by
  apply if_neg
  rintro (absent | active)
  · rw [txFn] at absent
    cases absent
  · rw [inactive] at active
    cases active

/-- The completion of the outstanding transfer of a session runs
`start_next_chunk`. -/
theorem isrStep_complete_of_streaming {frames : List Frame} (active : out.outputActive = true)
    (outstanding : out.wire.outstanding = 1) :
    isrStep trace ⟨out, frames⟩ .complete =
      (beginChunk trace { out with wire := out.wire.complete }).map
        (Interrupted.enter frames) :=
  (if_neg (by rw [outstanding]; exact Nat.one_ne_zero)).trans (if_pos active)

/-- Timely events keep the invariant. -/
theorem isrStep_preserves (controls : trace.Controls buffer size) (nonnull : buffer ≠ 0) :
    PreservesUnder (isrStep trace) (Timely buffer size.toNat) (Sound trace buffer size) := by
  rintro state event state' sound timely step
  have ready := sound.ready
  have txFn := sound.txFn
  have bounded := sound.bounded
  have finished := sound.finished_of_quiet
  cases sound.phase with
  | idle inactive quiet started =>
      cases event with
      | start =>
          obtain ⟨streaming, readyAgain, opened⟩ :=
            streaming_prepare controls ready (finished quiet) quiet
          obtain ⟨result, begun, after⟩ := beginChunk_sound controls nonnull streaming readyAgain
            txFn (Wire.chunksBounded_request bounded) (congrArg Wire.outstanding opened)
            (by rw [opened]; rfl) (.inl rfl)
          rw [isrStep_start_of_idle txFn inactive, begun] at step
          cases step
          exact after
      | complete =>
          rw [isrStep, if_pos quiet] at step
          cases step
      | proceed => cases step
  | @settled out lengths handed streaming outstanding bytes =>
      cases event with
      | start =>
          rw [isrStep_start_of_streaming streaming.active outstanding] at step
          cases step
          exact sound
      | complete =>
          have room := streaming.room_of_timely timely
          have quiet : out.wire.complete.outstanding = 0 := congrArg (· - 1) outstanding
          obtain ⟨result, begun, after⟩ := beginChunk_sound controls nonnull
            streaming.complete ready txFn bounded quiet bytes room
          rw [isrStep_complete_of_streaming streaming.active outstanding, begun] at step
          cases step
          exact after
      | proceed =>
          cases lengths with
          | nil => cases step
          | cons n lengths =>
              cases step
              exact ⟨ready, txFn, sound.inOrder, bounded, .reducing streaming outstanding bytes⟩
  | @handing out lengths handed n frame streaming outstanding nonempty fits bytes short =>
      cases event with
      | start =>
          rw [isrStep_start_of_streaming streaming.active outstanding] at step
          cases step
          exact sound
      | complete => rcases short with rfl | rfl <;> exact absurd timely id
      | proceed =>
          rcases short with rfl | rfl
          · cases step
            exact ⟨ready, txFn, sound.inOrder, bounded,
              .handing streaming outstanding nonempty fits bytes (.inr rfl)⟩
          · cases step
            have advanced := streaming.advanceCursor nonempty fits
            exact ⟨ready, txFn, sound.inOrder, bounded, .settled advanced outstanding bytes⟩
  | @reducing out lengths handed n streaming outstanding bytes =>
      cases event with
      | start =>
          rw [isrStep_start_of_streaming streaming.active outstanding] at step
          cases step
          exact sound
      | complete => exact absurd timely id
      | proceed =>
          cases step
          have reduced := streaming.reduceRemaining
          exact ⟨ready, txFn, sound.inOrder, bounded, .settled reduced outstanding bytes⟩

/-! ## Going on undisturbed -/

section

variable {state state' : Interrupted τ} {total : Nat}

theorem Interrupted.StaysIntact.intact (stays : state.StaysIntact trace buffer total) :
    state.Intact buffer total :=
  stays [] state trivial rfl

theorem Interrupted.StaysIntact.step (stays : state.StaysIntact trace buffer total)
    (event : IsrEvent) (undisturbed : Undisturbed state event)
    (step : isrStep trace state event = some state') : state'.StaysIntact trace buffer total := by
  intro more final along executed
  apply stays (event :: more) final
  · exact (along_cons_of_step step).mpr ⟨undisturbed, along⟩
  · exact run_cons_eq_some_iff.mpr ⟨state', step, executed⟩

/-- The innermost call returns. -/
theorem Interrupted.StaysIntact.finish {n : BitVec 32} {frames : List Frame}
    (stays : (Interrupted.mk out (.sent n :: frames)).StaysIntact trace buffer total) :
    (Interrupted.mk (finishChunk (out, some n)) frames).StaysIntact trace buffer total := by
  have loaded := stays.step .proceed trivial rfl
  have stored := loaded.step .proceed trivial rfl
  have loadedAgain := stored.step .proceed trivial rfl
  exact loadedAgain.step .proceed trivial rfl

end

/-- A session whose `s_remaining` will be larger than what is left of the buffer, once the
unfinished calls have reduced it by `lengths`. -/
structure Overrunning (buffer size : Nat) (lengths : List (BitVec 32)) (handed : Nat)
    (out : Traceout τ Wire) : Prop where
  active : out.outputActive = true
  txFn : out.txFn = some Wire.send
  outstanding : out.wire.outstanding = 1
  dp : out.dp = buffer + handed
  inside : handed ≤ size
  excess : size + pending lengths < out.remaining.toNat + handed
  bytes : dumpBytes out.wire.current = List.range' buffer handed

/-- A value that is still too large is stored in `s_remaining`. -/
theorem Overrunning.store {total : Nat} (overrun : Overrunning buffer total lengths handed out)
    {others : List (BitVec 32)} {remaining : BitVec 32}
    (excess : total + pending others < remaining.toNat + handed) :
    Overrunning buffer total others handed { out with remaining := remaining } :=
  { overrun with excess := excess }

/-- A chunk goes out from behind the last byte handed over. -/
theorem Overrunning.send {total : Nat} (overrun : Overrunning buffer total lengths handed out)
    (fits : handed + (chunkLength out.remaining).toNat ≤ total) :
    Overrunning buffer total lengths (handed + (chunkLength out.remaining).toNat)
      (finishChunk ({ out with
          wire := Wire.send out.dp ((chunkLength out.remaining).setWidth 16) out.wire.complete },
        some (chunkLength out.remaining))) where
  active := overrun.active
  txFn := overrun.txFn
  outstanding := congrArg (fun outstanding => outstanding - 1 + 1) overrun.outstanding
  dp := by
    change out.dp + _ = _
    rw [overrun.dp, Nat.add_assoc]
  inside := fits
  excess := by
    have excess := overrun.excess
    have length := toNat_chunkLength out.remaining
    change _ < (out.remaining - chunkLength out.remaining).toNat + _
    rw [BitVec.toNat_sub_of_le (BitVec.le_def.mpr (by omega))]
    omega
  bytes := by
    change dumpBytes (Wire.send _ _ _).current = _
    rw [Wire.current_send, dumpBytes_concat]
    change dumpBytes out.wire.current ++ _ = _
    rw [overrun.bytes, Chunk.bytes, toNat_setWidth_chunkLength, overrun.dp]
    exact List.range'_append_1

/-- A chunk that does not fit leaves the buffer. -/
theorem not_inOrder_outside {total data : Nat}
    (bytes : dumpBytes out.wire.current = List.range' buffer handed) (inside : handed ≤ total)
    (outside : total < handed + (chunkLength out.remaining).toNat) :
    ¬(Wire.send data ((chunkLength out.remaining).setWidth 16) out.wire.complete).InOrder
      buffer total := by
  have current : dumpBytes out.wire.complete.current = List.range' buffer handed := bytes
  apply Wire.not_inOrder_send current
  · rw [toNat_setWidth_chunkLength]
    omega
  · right
    rw [toNat_setWidth_chunkLength]
    exact outside

/-- The completions to come lead out of the buffer. -/
theorem Overrunning.leaves {total : Nat} (overrun : Overrunning buffer total [] handed out) :
    ¬(Interrupted.mk out []).StaysIntact trace buffer total := by
  induction left : total - handed using Nat.strong_induction_on generalizing handed out with
  | _ left ih =>
      intro stays
      have excess : total < out.remaining.toNat + handed := overrun.excess
      have length := toNat_chunkLength out.remaining
      have inside := overrun.inside
      have more : out.remaining ≠ 0 := by
        intro empty
        rw [empty] at excess
        exact absurd excess (Nat.not_lt.mpr ((Nat.zero_add handed).trans_le inside))
      have begun : beginChunk trace { out with wire := out.wire.complete } = _ :=
        beginChunk_send overrun.txFn more
      have step : isrStep trace ⟨out, []⟩ .complete = _ :=
        isrStep_complete_of_streaming overrun.active overrun.outstanding
      rw [begun] at step
      have sent := stays.step .complete rfl step
      by_cases fits : handed + (chunkLength out.remaining).toNat ≤ total
      · exact ih _ (by omega) (overrun.send fits) rfl sent.finish
      · exact not_inOrder_outside overrun.bytes inside (by omega) sent.intact.inOrder

/-- The unfinished calls do not reduce `s_remaining` enough. -/
theorem Overrunning.not_staysIntact {total : Nat}
    (overrun : Overrunning buffer total lengths handed out) :
    ¬(Interrupted.mk out (lengths.map .advanced)).StaysIntact trace buffer total := by
  induction lengths generalizing out with
  | nil => exact overrun.leaves
  | cons n lengths ih =>
      intro stays
      have excess := overrun.excess
      have inside := overrun.inside
      rw [pending_cons] at excess
      have loaded := stays.step .proceed trivial rfl
      have stored := loaded.step .proceed trivial rfl
      have reduced : (reduceRemaining n out).remaining.toNat = out.remaining.toNat - n.toNat :=
        BitVec.toNat_sub_of_le (BitVec.le_def.mpr (by omega))
      exact ih (overrun.store (by omega)) stored

/-- A completion between the load and the store of `s_remaining`: its reduction is lost. -/
theorem not_staysIntact_of_lost_update {total : Nat} {n : BitVec 32}
    (streaming : Streaming buffer total (n :: lengths) handed out)
    (txFn : out.txFn = some Wire.send) (outstanding : out.wire.outstanding = 1)
    (bytes : dumpBytes out.wire.current = List.range' buffer handed) {state' : Interrupted τ}
    (step : isrStep trace
      ⟨out, .remainingLoaded (reduceRemaining n out).remaining :: lengths.map .advanced⟩
        .complete = some state') :
    ¬state'.StaysIntact trace buffer total := by
  intro stays
  have accounting := streaming.remaining
  have below := streaming.pending_le
  have inside := streaming.inside
  have nonempty := streaming.positive n List.mem_cons_self
  have length := toNat_chunkLength out.remaining
  rw [pending_cons] at accounting below
  have more : out.remaining ≠ 0 := by
    intro empty
    have zero : out.remaining.toNat = 0 := by rw [empty]; rfl
    omega
  have reduced : (reduceRemaining n out).remaining.toNat = out.remaining.toNat - n.toNat :=
    BitVec.toNat_sub_of_le (BitVec.le_def.mpr (by omega))
  have begun : beginChunk trace { out with wire := out.wire.complete } = _ :=
    beginChunk_send txFn more
  rw [isrStep_complete_of_streaming streaming.active outstanding, begun] at step
  cases step
  by_cases fits : handed + (chunkLength out.remaining).toNat ≤ total
  · have overrun : Overrunning buffer total [] handed out := by
      refine ⟨streaming.active, txFn, outstanding, streaming.dp, inside, ?_, bytes⟩
      change total < _
      omega
    have sent := overrun.send fits
    -- The store overwrites the reduction of the call that interrupted it.
    have stored := stays.finish.step .proceed trivial rfl
    have excess : total + pending lengths < (reduceRemaining n out).remaining.toNat +
        (handed + (chunkLength out.remaining).toNat) := by omega
    exact (sent.store excess).not_staysIntact stored
  · exact not_inOrder_outside bytes inside (by omega) stays.intact.inOrder

/-- After an untimely completion a byte is handed over twice or the buffer is left. -/
theorem isrStep_breaks {state : Interrupted τ} {event : IsrEvent} {state' : Interrupted τ}
    (sound : Sound trace buffer size state) (untimely : ¬Timely buffer size.toNat state event)
    (step : isrStep trace state event = some state') :
    ¬state'.StaysIntact trace buffer size.toNat := by
  have txFn := sound.txFn
  cases event with
  | start => exact absurd trivial untimely
  | proceed => exact absurd trivial untimely
  | complete =>
      cases sound.phase with
      | idle inactive quiet started => exact absurd trivial untimely
      | @settled out lengths handed streaming outstanding bytes =>
          intro stays
          rw [isrStep_complete_of_streaming streaming.active outstanding] at step
          rcases Option.map_eq_some_iff.mp step with ⟨result, begun, rfl⟩
          refine beginChunk_not_inOrder streaming.complete txFn bytes (.inr ⟨rfl, ?_, ?_⟩)
            begun _ stays.intact.inOrder
          · rintro rfl
            exact untimely trivial
          · cases lengths with
            | nil => exact absurd trivial untimely
            | cons n lengths =>
                have short : ¬out.dp + 1024 ≤ buffer + size.toNat := untimely
                rw [streaming.dp] at short
                omega
      | @handing out lengths handed n frame streaming outstanding nonempty fits bytes short =>
          intro stays
          rw [isrStep_complete_of_streaming streaming.active outstanding] at step
          rcases Option.map_eq_some_iff.mp step with ⟨result, begun, rfl⟩
          exact beginChunk_not_inOrder streaming.complete txFn bytes
            (.inl ⟨by omega, fits⟩) begun _ stays.intact.inOrder
      | reducing streaming outstanding bytes =>
          exact not_staysIntact_of_lost_update streaming txFn outstanding bytes step

/-- The invariant entails the property. -/
theorem Sound.intact {state : Interrupted τ} (sound : Sound trace buffer size state) :
    state.Intact buffer size.toNat := by
  refine ⟨sound.inOrder, ?_⟩
  intro n frames unfinished
  cases sound.phase with
  | idle => cases unfinished
  | @settled out lengths handed streaming outstanding bytes =>
      cases lengths with
      | nil => cases unfinished
      | cons other lengths =>
          cases unfinished
          have accounting := streaming.remaining
          have inside := streaming.inside
          rw [pending_cons] at accounting
          change n.toNat ≤ out.remaining.toNat
          omega
  | handing streaming outstanding nonempty fits bytes short =>
      rcases short with rfl | rfl <;> cases unfinished
  | reducing => cases unfinished

/-- Undisturbed calls keep the invariant, and with it the property. -/
theorem Sound.staysIntact (controls : trace.Controls buffer size) (nonnull : buffer ≠ 0)
    {state : Interrupted τ} (sound : Sound trace buffer size state) :
    state.StaysIntact trace buffer size.toNat := by
  intro more final along executed
  have timely (state : Interrupted τ) (event : IsrEvent) (undisturbed : Undisturbed state event) :
      Timely buffer size.toNat state event := by
    cases event with
    | complete =>
        unfold Timely
        rw [show state.frames = [] from undisturbed]
        trivial
    | _ => trivial
  have guarded := along.mono timely
  exact ((isrStep_preserves controls nonnull).run sound guarded executed).intact

/-! ## Runs -/

/-- The invariant holds before the first start request. -/
theorem sound_of_running (running : out.Running trace buffer size) :
    Sound trace buffer size ⟨out, []⟩ := by
  have silent := running.silent
  have quiet : out.wire.outstanding = 0 := by rw [silent]
  refine ⟨running.ready, running.txFn, ⟨?_, ?_⟩, ?_, .idle running.inactive quiet ?_⟩
  · intro dump member
    rw [silent] at member
    cases member
  · intro dump member
    rw [silent] at member
    cases member
  · intro dump member
    rw [silent] at member
    cases member
  · exact fun nonempty => running.started fun zero => nonempty (by rw [zero]; rfl)

/-- In every run of start requests, completions at any point after `s_tx_fn` was called,
loads and stores, the dump is intact throughout, and stays so if it goes on undisturbed,
exactly when every completion is timely. -/
theorem trace_dump_intact_iff_timely (controls : trace.Controls buffer size)
    (nonnull : buffer ≠ 0) (running : out.Running trace buffer size)
    {events : List IsrEvent} {final : Interrupted τ}
    (executed : run (isrStep trace) ⟨out, []⟩ events = some final) :
    (∀ before after middle, events = before ++ after →
        run (isrStep trace) ⟨out, []⟩ before = some middle →
          middle.StaysIntact trace buffer size.toNat) ↔
      Along (isrStep trace) (Timely buffer size.toNat) ⟨out, []⟩ events :=
  forall_split_iff_along (isrStep_preserves controls nonnull)
    (fun _ sound => sound.staysIntact controls nonnull)
    (fun _ _ _ sound untimely step => isrStep_breaks sound untimely step)
    (sound_of_running running) executed

/-- A buffer of two chunks; the first completion arrives when the cursor was stored and
`s_remaining` not yet loaded. -/
theorem trace_dump_intact_iff_timely_example :
    ∃ final, run (isrStep kernelTrace) ⟨boot kernelTrace 64 2048 false, []⟩
        [.start, .proceed, .proceed, .complete, .proceed, .proceed, .proceed, .proceed, .proceed,
          .proceed, .complete] = some final ∧
      final.StaysIntact kernelTrace 64 2048 := by
  have controls : kernelTrace.Controls 64 2048 := kernelTrace_controls (by decide)
  obtain ⟨final, executed⟩ : ∃ final,
      run (isrStep kernelTrace) ⟨boot kernelTrace 64 2048 false, []⟩
        [.start, .proceed, .proceed, .complete, .proceed, .proceed, .proceed, .proceed, .proceed,
          .proceed, .complete] = some final :=
    ⟨_, rfl⟩
  refine ⟨final, executed, (trace_dump_intact_iff_timely controls (by decide)
    (running_boot controls (by decide) rfl) executed).mpr ?_ _ [] final rfl executed⟩
  have cursor : 64 + 1024 + 1024 ≤ 64 + 2048 := by decide
  iterate 3 refine (along_cons_of_step rfl).mpr ⟨trivial, ?_⟩
  refine (along_cons_of_step rfl).mpr ⟨cursor, ?_⟩
  iterate 7 refine (along_cons_of_step rfl).mpr ⟨trivial, ?_⟩
  trivial

/-- The first completion arrives as soon as `s_tx_fn` was called: the first chunk is
handed over twice. -/
theorem trace_dump_early_completion :
    ∃ final, run (isrStep kernelTrace) ⟨boot kernelTrace 64 2048 false, []⟩
        [.start, .complete] = some final ∧
      final.out.wire.dumps = [[⟨64, 1024⟩, ⟨64, 1024⟩]] ∧ ¬final.Intact 64 2048 := by
  refine ⟨_, rfl, rfl, fun intact => ?_⟩
  have first : dumpBytes (Wire.mk [[⟨64, 1024⟩]] 0).current = List.range' 64 1024 :=
    List.append_nil _
  exact @Wire.not_inOrder_send ⟨[[⟨64, 1024⟩]], 0⟩ 64 2048 64 1024 1024 first (by decide)
    (.inl (by decide)) intact.inOrder

end EmbeddedBase.TraceX
