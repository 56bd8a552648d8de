import EmbeddedBase.TraceX.Traceout
import Mathlib.Data.List.Infix

/-!
# The dump as seen on the wire

An observer of the transmit callback.  It groups the chunks into dumps, one for
each start request made while no chunk is outstanding, and says what a trace dump
is: the bytes of the buffer, each once and in order.
-/

namespace EmbeddedBase.TraceX

/-- One call of the transmit callback. -/
structure Chunk where
  data : Nat
  len : BitVec 16
  deriving DecidableEq

/-- The addresses of the bytes handed over by the chunk. -/
def Chunk.bytes (chunk : Chunk) : List Nat :=
  List.range' chunk.data chunk.len.toNat

/-- The addresses of the bytes handed over by a dump, in order. -/
def dumpBytes (dump : List Chunk) : List Nat :=
  dump.flatMap Chunk.bytes

@[simp]
theorem dumpBytes_concat (dump : List Chunk) (chunk : Chunk) :
    dumpBytes (dump ++ [chunk]) = dumpBytes dump ++ chunk.bytes := by
  simp [dumpBytes]

/-- The dumps so far, newest first, and the number of transfers whose completion has
not been delivered. -/
structure Wire where
  dumps : List (List Chunk)
  outstanding : Nat
  deriving DecidableEq

namespace Wire

/-- The newest dump. -/
def current (wire : Wire) : List Chunk :=
  wire.dumps.headD []

/-- The dumps none of whose chunks is outstanding. -/
def finished (wire : Wire) : List (List Chunk) :=
  if wire.outstanding = 0 then wire.dumps else wire.dumps.tail

/-- The transmit callback: a chunk of the newest dump goes out. -/
def send : TraceoutTxFn Wire := fun data len wire =>
  ⟨(wire.current ++ [⟨data, len⟩]) :: wire.dumps.tail, wire.outstanding + 1⟩

/-- A start request begins a new dump when nothing is outstanding. -/
def request (wire : Wire) : Wire :=
  if wire.outstanding = 0 then { wire with dumps := [] :: wire.dumps } else wire

/-- One outstanding transfer completes. -/
def complete (wire : Wire) : Wire :=
  { wire with outstanding := wire.outstanding - 1 }

/-- No dump repeats, skips or overruns a byte of the buffer, and every finished dump
is the whole buffer. -/
structure InOrder (buffer size : Nat) (wire : Wire) : Prop where
  dumps_prefix : ∀ dump ∈ wire.dumps, dumpBytes dump <+: List.range' buffer size
  finished_eq : ∀ dump ∈ wire.finished, dumpBytes dump = List.range' buffer size

/-- Every chunk has between 1 and 1024 bytes. -/
def ChunksBounded (wire : Wire) : Prop :=
  ∀ dump ∈ wire.dumps, ∀ chunk ∈ dump, 1 ≤ chunk.len.toNat ∧ chunk.len.toNat ≤ 1024

end Wire

/-! ## The program before the first start request -/

universe u

variable {τ : Type u}

/-- `tracex_init` was given this buffer, recording was started, `traceout_init` was given
the observer's callback, and nothing was sent yet. -/
structure Traceout.Running (trace : TxTrace τ) (buffer : Nat) (size : BitVec 32)
    (out : Traceout τ Wire) : Prop where
  ready : out.tracex.Ready trace buffer size
  started : size ≠ 0 → out.tracex.tracexStarted = true
  txFn : out.txFn = some Wire.send
  inactive : out.outputActive = false
  silent : out.wire = ⟨[], 0⟩

/-- The initial values of the static variables, followed by `tracex_init`,
`tracex_start` and `traceout_init`. -/
def boot (trace : TxTrace τ) (buffer : Nat) (size : BitVec 32) (unit : τ) :
    Traceout τ Wire :=
  traceoutInit (some Wire.send)
    { tracex := tracexStart trace (tracexInit buffer size ⟨0, 0, false, unit⟩)
      txFn := none
      outputActive := false
      dp := 0
      remaining := 0
      wire := ⟨[], 0⟩ }

theorem running_boot {trace : TxTrace τ} {buffer : Nat} {size : BitVec 32}
    (controls : trace.Controls buffer size) (nonnull : buffer ≠ 0) {unit : τ}
    (stopped : trace.recording unit = false) :
    (boot trace buffer size unit).Running trace buffer size := by
  have initial : (tracexInit buffer size ⟨0, 0, false, unit⟩).Ready trace buffer size :=
    ⟨rfl, rfl, stopped⟩
  rcases tracexStart_ready controls nonnull initial with ⟨ready, started⟩
  exact ⟨ready, started, rfl, rfl, rfl⟩

/-- A trace unit that refuses a second start, and buffers too small for its tables. -/
def kernelTrace : TxTrace Bool where
  txTraceEnable _ size _ unit := unit || decide (2048 ≤ size.toNat)
  txTraceDisable _ := false
  recording unit := unit

theorem kernelTrace_controls {buffer : Nat} {size : BitVec 32} (large : 2048 ≤ size.toNat) :
    kernelTrace.Controls buffer size := by
  constructor
  · intro unit _
    simp [kernelTrace, large]
  · intro unit
    rfl

namespace Wire

/-! ## Handing over a chunk -/

/-- A nonempty stretch continues an initial stretch of the buffer exactly when it
starts where that ends and stays inside the buffer. -/
theorem range'_append_prefix_iff {start handed total data len : Nat} (nonempty : 0 < len) :
    List.range' start handed ++ List.range' data len <+: List.range' start total ↔
      data = start + handed ∧ handed + len ≤ total := by
  constructor
  · rintro ⟨rest, whole⟩
    have lengths := congrArg List.length whole
    simp only [List.length_append, List.length_range'] at lengths
    have next := congrArg (fun bytes => bytes[handed]?) whole
    simp only [List.append_assoc] at next
    rw [List.getElem?_append_right (by simp), List.length_range', Nat.sub_self,
      List.getElem?_append_left (by simpa using nonempty),
      List.getElem?_range' nonempty, List.getElem?_range' (by omega)] at next
    simp only [Option.some.injEq] at next
    omega
  · rintro ⟨rfl, inside⟩
    refine ⟨List.range' (start + handed + len) (total - (handed + len)), ?_⟩
    rw [List.append_assoc, List.range'_append_1, List.range'_append_1]
    congr 1
    omega

variable {wire : Wire} {buffer size : Nat} {data : Nat} {len : BitVec 16}

@[simp]
theorem current_send : (send data len wire).current = wire.current ++ [⟨data, len⟩] :=
  rfl

@[simp]
theorem finished_send : (send data len wire).finished = wire.dumps.tail :=
  if_neg (Nat.succ_ne_zero _)

theorem finished_of_quiet (quiet : wire.outstanding = 0) : wire.finished = wire.dumps :=
  if_pos quiet

theorem request_of_quiet (quiet : wire.outstanding = 0) :
    wire.request = ⟨[] :: wire.dumps, 0⟩ := by
  rw [request, if_pos quiet, quiet]

theorem request_of_outstanding (outstanding : wire.outstanding ≠ 0) : wire.request = wire :=
  if_neg outstanding

theorem chunksBounded_request (bounded : wire.ChunksBounded) : wire.request.ChunksBounded := by
  unfold request
  split
  · rintro dump member chunk inside
    rcases List.mem_cons.mp member with rfl | older
    · cases inside
    · exact bounded dump older chunk inside
  · exact bounded

theorem mem_dumps_iff {dump : List Chunk} (nonempty : wire.dumps ≠ []) :
    dump ∈ wire.dumps ↔ dump = wire.current ∨ dump ∈ wire.dumps.tail := by
  cases dumps : wire.dumps with
  | nil => exact absurd dumps nonempty
  | cons newest older => simp [current, dumps]

theorem chunksBounded_send (bounded : wire.ChunksBounded)
    (fits : 1 ≤ len.toNat ∧ len.toNat ≤ 1024) : (send data len wire).ChunksBounded := by
  rintro dump member chunk inside
  rcases List.mem_cons.mp member with rfl | older
  · rcases List.mem_append.mp inside with earlier | last
    · cases dumps : wire.dumps with
      | nil => simp [current, dumps] at earlier
      | cons newest older =>
          apply bounded newest (by simp [dumps]) chunk
          simpa [current, dumps] using earlier
    · cases List.mem_singleton.mp last
      exact fits
  · exact bounded dump (List.mem_of_mem_tail older) chunk inside

/-- A chunk that continues the newest dump inside the buffer keeps everything in
order. -/
theorem inOrder_send {handed : Nat} (older : ∀ dump ∈ wire.dumps.tail,
      dumpBytes dump = List.range' buffer size)
    (bytes : dumpBytes wire.current = List.range' buffer handed) (nonempty : 0 < len.toNat)
    (next : data = buffer + handed) (inside : handed + len.toNat ≤ size) :
    (send data len wire).InOrder buffer size := by
  constructor
  · intro dump member
    rcases List.mem_cons.mp member with rfl | member
    · rw [dumpBytes_concat, bytes]
      exact (range'_append_prefix_iff nonempty).mpr ⟨next, inside⟩
    · rw [older dump member]
  · rw [finished_send]
    exact older

/-- A chunk that does not continue the newest dump, or leaves the buffer, breaks the
order. -/
theorem not_inOrder_send {handed : Nat}
    (bytes : dumpBytes wire.current = List.range' buffer handed) (nonempty : 0 < len.toNat)
    (astray : data ≠ buffer + handed ∨ size < handed + len.toNat) :
    ¬(send data len wire).InOrder buffer size := by
  intro ordered
  have continues := ordered.dumps_prefix _ List.mem_cons_self
  rw [dumpBytes_concat, bytes] at continues
  have position := (range'_append_prefix_iff nonempty).mp continues
  rcases astray with elsewhere | outside
  · exact elsewhere position.1
  · omega

end Wire

end EmbeddedBase.TraceX
