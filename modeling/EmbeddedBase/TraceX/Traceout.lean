import EmbeddedBase.TraceX.Tracex

/-!
# Trace output streaming

The model of `traceout.c`.  The transmit callback acts on the state `ω` of the
wire.  A result of `none` is a call through a null `s_tx_fn`.
-/

namespace EmbeddedBase.TraceX

universe u v

/-- `traceout_tx_fn_t`, as an action on the wire. -/
abbrev TraceoutTxFn (ω : Type v) :=
  Nat → BitVec 16 → ω → ω

/-- The static variables of `traceout.c`, over those of `tracex.c` and the wire. -/
structure Traceout (τ : Type u) (ω : Type v) where
  tracex : Tracex τ
  txFn : Option (TraceoutTxFn ω)
  outputActive : Bool
  dp : Nat
  remaining : BitVec 32
  wire : ω

variable {τ : Type u} {ω : Type v}

/-- `TRACEOUT_CHUNK_BYTES`. -/
def traceoutChunkBytes : BitVec 32 := 1024

/-- The length `n` of the next chunk. -/
def chunkLength (remaining : BitVec 32) : BitVec 32 :=
  if traceoutChunkBytes < remaining then traceoutChunkBytes else remaining

theorem toNat_chunkLength (remaining : BitVec 32) :
    (chunkLength remaining).toNat = min 1024 remaining.toNat := by
  unfold chunkLength
  split
  · rename_i long
    exact (Nat.min_eq_left (Nat.le_of_lt (BitVec.lt_def.mp long))).symm
  · rename_i short
    exact (Nat.min_eq_right (Nat.le_of_not_lt fun long => short (BitVec.lt_def.mpr long))).symm

/-- `start_next_chunk`. -/
def startNextChunk (trace : TxTrace τ) (out : Traceout τ ω) : Option (Traceout τ ω) :=
  if out.remaining = 0 then
    some { out with outputActive := false, tracex := tracexStart trace out.tracex }
  else
    let n := chunkLength out.remaining
    out.txFn.map fun txFn =>
      let out := { out with wire := txFn out.dp (n.setWidth 16) out.wire }
      let out := { out with dp := out.dp + n.toNat }
      { out with remaining := out.remaining - n }

/-- `traceout_init`. -/
def traceoutInit (txFn : Option (TraceoutTxFn ω)) (out : Traceout τ ω) : Traceout τ ω :=
  { out with txFn := txFn }

/-- What `traceout_start_from_isr` does before it starts the first chunk. -/
def prepare (trace : TxTrace τ) (out : Traceout τ ω) : Traceout τ ω :=
  let tracex := tracexStop trace out.tracex
  { out with
    tracex := tracex
    dp := tracexGetBuffer tracex
    remaining := tracexGetBufferSize tracex
    outputActive := true }

/-- `traceout_start_from_isr`. -/
def traceoutStartFromIsr (trace : TxTrace τ) (out : Traceout τ ω) : Option (Traceout τ ω) :=
  if out.txFn.isNone ∨ out.outputActive = true then
    some out
  else
    startNextChunk trace (prepare trace out)

/-- `traceout_on_tx_complete_from_isr`. -/
def traceoutOnTxCompleteFromIsr (trace : TxTrace τ) (out : Traceout τ ω) :
    Option (Traceout τ ω) :=
  if out.outputActive = true then startNextChunk trace out else some out

/-! ## The call of the transmit function -/

/-- `start_next_chunk` up to and including its call of `s_tx_fn`; the second
component is the length the cursor still has to be advanced by. -/
def beginChunk (trace : TxTrace τ) (out : Traceout τ ω) :
    Option (Traceout τ ω × Option (BitVec 32)) :=
  if out.remaining = 0 then
    some ({ out with outputActive := false, tracex := tracexStart trace out.tracex }, none)
  else
    let n := chunkLength out.remaining
    out.txFn.map fun txFn =>
      ({ out with wire := txFn out.dp (n.setWidth 16) out.wire }, some n)

/-- `s_dp += n`. -/
def advanceCursor (n : BitVec 32) (out : Traceout τ ω) : Traceout τ ω :=
  { out with dp := out.dp + n.toNat }

/-- `s_remaining -= n`. -/
def reduceRemaining (n : BitVec 32) (out : Traceout τ ω) : Traceout τ ω :=
  { out with remaining := out.remaining - n }

/-- The two statements that follow the call of `s_tx_fn`. -/
def finishChunk : Traceout τ ω × Option (BitVec 32) → Traceout τ ω
  | (out, none) => out
  | (out, some n) => reduceRemaining n (advanceCursor n out)

theorem startNextChunk_eq (trace : TxTrace τ) (out : Traceout τ ω) :
    startNextChunk trace out = (beginChunk trace out).map finishChunk := by
  unfold startNextChunk beginChunk
  split
  · rfl
  · rw [Option.map_map]
    rfl

end EmbeddedBase.TraceX
