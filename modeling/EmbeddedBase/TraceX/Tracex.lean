/-!
# Trace recording control

The model of `tracex.c`.  The trace unit of the kernel is a parameter: a state
`τ` with `tx_trace_enable` and `tx_trace_disable`.  Addresses are numbers, and
`NULL` is `0`.
-/

namespace EmbeddedBase.TraceX

universe u

/-- The trace unit of the kernel, and whether it is recording. -/
structure TxTrace (τ : Type u) where
  txTraceEnable : Nat → BitVec 32 → Nat → τ → τ
  txTraceDisable : τ → τ
  recording : τ → Bool

/-- The documented effect of the trace unit's calls on a given buffer: enabling a
stopped unit starts recording, and disabling stops it. -/
structure TxTrace.Controls {τ : Type u} (trace : TxTrace τ) (buffer : Nat)
    (size : BitVec 32) : Prop where
  recording_enable : ∀ unit, trace.recording unit = false →
    trace.recording (trace.txTraceEnable buffer size 32 unit) = true
  recording_disable : ∀ unit, trace.recording (trace.txTraceDisable unit) = false

/-- The static variables of `tracex.c`, and the trace unit. -/
structure Tracex (τ : Type u) where
  traceBuffer : Nat
  traceSize : BitVec 32
  tracexStarted : Bool
  unit : τ

variable {τ : Type u}

/-- `tracex_init`. -/
def tracexInit (buffer : Nat) (size : BitVec 32) (tracex : Tracex τ) : Tracex τ :=
  { tracex with traceBuffer := buffer, traceSize := size }

/-- `tracex_get_buffer`. -/
def tracexGetBuffer (tracex : Tracex τ) : Nat :=
  tracex.traceBuffer

/-- `tracex_get_buffer_size`. -/
def tracexGetBufferSize (tracex : Tracex τ) : BitVec 32 :=
  tracex.traceSize

/-- `tracex_start`. -/
def tracexStart (trace : TxTrace τ) (tracex : Tracex τ) : Tracex τ :=
  if tracex.tracexStarted = true ∨ tracex.traceBuffer = 0 ∨ tracex.traceSize = 0 then
    tracex
  else
    { tracex with
      unit := trace.txTraceEnable tracex.traceBuffer tracex.traceSize 32 tracex.unit
      tracexStarted := true }

/-- `tracex_stop`. -/
def tracexStop (trace : TxTrace τ) (tracex : Tracex τ) : Tracex τ :=
  if tracex.tracexStarted = false then
    tracex
  else
    { tracex with unit := trace.txTraceDisable tracex.unit, tracexStarted := false }

/-- The module is set up with this buffer, and its flag tells whether the unit is
recording. -/
structure Tracex.Ready (trace : TxTrace τ) (buffer : Nat) (size : BitVec 32)
    (tracex : Tracex τ) : Prop where
  traceBuffer : tracex.traceBuffer = buffer
  traceSize : tracex.traceSize = size
  recording : trace.recording tracex.unit = tracex.tracexStarted

variable {trace : TxTrace τ} {buffer : Nat} {size : BitVec 32} {tracex : Tracex τ}

/-- `tracex_start` starts recording, unless the buffer is empty. -/
theorem tracexStart_ready (controls : trace.Controls buffer size) (nonnull : buffer ≠ 0)
    (ready : tracex.Ready trace buffer size) :
    (tracexStart trace tracex).Ready trace buffer size ∧
      (size ≠ 0 → (tracexStart trace tracex).tracexStarted = true) := by
  unfold tracexStart
  split
  · rename_i kept
    rw [ready.traceBuffer, ready.traceSize] at kept
    refine ⟨ready, fun nonempty => ?_⟩
    rcases kept with started | null | empty
    · exact started
    · exact absurd null nonnull
    · exact absurd empty nonempty
  · rename_i start
    have stopped : tracex.tracexStarted = false := by
      simpa using fun started => start (.inl started)
    refine ⟨⟨ready.traceBuffer, ready.traceSize, ?_⟩, fun _ => rfl⟩
    rw [ready.traceBuffer, ready.traceSize]
    exact controls.recording_enable _ (ready.recording.trans stopped)

/-- `tracex_stop` stops recording. -/
theorem tracexStop_ready (controls : trace.Controls buffer size)
    (ready : tracex.Ready trace buffer size) :
    (tracexStop trace tracex).Ready trace buffer size ∧
      (tracexStop trace tracex).tracexStarted = false := by
  unfold tracexStop
  split
  · rename_i stopped
    exact ⟨ready, stopped⟩
  · exact ⟨⟨ready.traceBuffer, ready.traceSize, controls.recording_disable _⟩, rfl⟩

end EmbeddedBase.TraceX
