import EmbeddedBase.TraceX.Interrupts

/-!
# Streaming with undisturbed handlers

Start requests and completions whose handlers run to completion one after the other.
Such an event is the interrupted semantics with every statement executed before the
next event, so its invariant carries over.
-/

namespace EmbeddedBase.TraceX

open EmbeddedBase.Transition

universe u

/-- A call of a handler. -/
inductive Event where
  /-- `traceout_start_from_isr`. -/
  | start
  /-- `traceout_on_tx_complete_from_isr` for an outstanding transfer. -/
  | complete
  /-- `traceout_on_tx_complete_from_isr` while nothing is outstanding. -/
  | spurious
  deriving DecidableEq

variable {τ : Type u}

/-- One handler call. -/
def streamStep (trace : TxTrace τ) : Step (Traceout τ Wire) Event
  | out, .start => traceoutStartFromIsr trace { out with wire := out.wire.request }
  | out, .complete =>
      if out.wire.outstanding = 0 then
        none
      else
        traceoutOnTxCompleteFromIsr trace { out with wire := out.wire.complete }
  | out, .spurious =>
      if out.wire.outstanding = 0 then traceoutOnTxCompleteFromIsr trace out else none

variable {trace : TxTrace τ} {buffer : Nat} {size : BitVec 32} {out out' : Traceout τ Wire}

/-! ## Handlers as undisturbed interrupts -/

/-- The statements left in the innermost call. -/
def statements : Traceout τ Wire × Option (BitVec 32) → List IsrEvent
  | (_, none) => []
  | (_, some _) => [.proceed, .proceed, .proceed, .proceed]

/-- Executing the statements left in a call finishes the chunk. -/
theorem run_statements (result : Traceout τ Wire × Option (BitVec 32)) :
    run (isrStep trace) (Interrupted.enter [] result) (statements result) =
      some ⟨finishChunk result, []⟩ := by
  rcases result with ⟨out, _ | n⟩ <;> rfl

/-- Statements are no completions, so they are always timely. -/
theorem along_statements (result : Traceout τ Wire × Option (BitVec 32)) (size : Nat)
    (state : Interrupted τ) :
    Along (isrStep trace) (Timely buffer size) state (statements result) := by
  rcases result with ⟨out, _ | n⟩
  · trivial
  · exact ⟨trivial, fun _ _ => ⟨trivial, fun _ _ => ⟨trivial, fun _ _ =>
      ⟨trivial, fun _ _ => trivial⟩⟩⟩⟩

/-- A call of `start_next_chunk` that nothing interrupts keeps the invariant. -/
theorem sound_of_startNextChunk (controls : trace.Controls buffer size)
    (nonnull : buffer ≠ 0) {event : IsrEvent} {entered : Traceout τ Wire}
    (sound : Sound trace buffer size ⟨out, []⟩)
    (step : isrStep trace ⟨out, []⟩ event =
      (beginChunk trace entered).map (Interrupted.enter []))
    (finished : startNextChunk trace entered = some out') :
    Sound trace buffer size ⟨out', []⟩ := by
  have timely : Timely buffer size.toNat ⟨out, []⟩ event := by
    cases event <;> trivial
  rw [startNextChunk_eq] at finished
  rcases Option.map_eq_some_iff.mp finished with ⟨result, begun, rfl⟩
  rw [begun] at step
  have preserves := isrStep_preserves controls nonnull
  exact preserves.run (preserves sound timely step) (along_statements _ _ _)
    (run_statements result)

/-- With no unfinished call, no session is active or a chunk is outstanding with the
cursor behind it. -/
theorem Phase.of_no_frames {size : Nat} (phase : Phase buffer size ⟨out, []⟩) :
    (out.outputActive = false ∧ out.wire.outstanding = 0 ∧
        (size ≠ 0 → out.tracex.tracexStarted = true)) ∨
      ∃ handed, Streaming buffer size [] handed out ∧ out.wire.outstanding = 1 ∧
        dumpBytes out.wire.current = List.range' buffer handed := by
  generalize same : Interrupted.mk out [] = state at phase
  cases phase with
  | idle inactive quiet started =>
      cases same
      exact .inl ⟨inactive, quiet, started⟩
  | @settled _ lengths handed streaming outstanding bytes =>
      cases lengths with
      | nil =>
          cases same
          exact .inr ⟨handed, streaming, outstanding, bytes⟩
      | cons n lengths => cases same
  | handing => cases same
  | reducing => cases same

/-! ## One handler call -/

/-- A start request outside a session. -/
theorem streamStep_start_of_idle (txFn : out.txFn = some Wire.send)
    (inactive : out.outputActive = false) :
    streamStep trace out .start =
      startNextChunk trace (prepare trace { out with wire := out.wire.request }) := by
  apply if_neg
  rintro (absent | active)
  · rw [txFn] at absent
    cases absent
  · rw [inactive] at active
    cases active

/-- A start request during a session. -/
theorem streamStep_start_of_streaming (active : out.outputActive = true)
    (outstanding : out.wire.outstanding = 1) :
    streamStep trace out .start = some out := by
  have kept := Wire.request_of_outstanding (by rw [outstanding]; exact Nat.one_ne_zero)
  exact (if_pos (.inr active)).trans (by rw [kept])

/-- A completion during a session. -/
theorem streamStep_complete_of_streaming (active : out.outputActive = true)
    (outstanding : out.wire.outstanding = 1) :
    streamStep trace out .complete =
      startNextChunk trace { out with wire := out.wire.complete } :=
  (if_neg (by rw [outstanding]; exact Nat.one_ne_zero)).trans (if_pos active)

/-- A completion outside a session. -/
theorem streamStep_spurious_of_idle (inactive : out.outputActive = false)
    (quiet : out.wire.outstanding = 0) :
    streamStep trace out .spurious = some out := by
  refine (if_pos quiet).trans (if_neg ?_)
  rw [inactive]
  exact Bool.noConfusion

/-- A handler call keeps the invariant. -/
theorem streamStep_preserves (controls : trace.Controls buffer size) (nonnull : buffer ≠ 0) :
    Preserves (streamStep trace) fun out => Sound trace buffer size ⟨out, []⟩ := by
  rintro out event out' sound step
  have txFn := sound.txFn
  rcases sound.phase.of_no_frames with ⟨inactive, quiet, _⟩ | ⟨_, streaming, outstanding, _⟩
  · cases event with
    | start =>
        rw [streamStep_start_of_idle txFn inactive] at step
        exact sound_of_startNextChunk controls nonnull sound
          (isrStep_start_of_idle txFn inactive) step
    | complete =>
        rw [streamStep, if_pos quiet] at step
        cases step
    | spurious =>
        rw [streamStep_spurious_of_idle inactive quiet] at step
        cases step
        exact sound
  · have active := streaming.active
    cases event with
    | start =>
        rw [streamStep_start_of_streaming active outstanding] at step
        cases step
        exact sound
    | complete =>
        rw [streamStep_complete_of_streaming active outstanding] at step
        exact sound_of_startNextChunk controls nonnull sound
          (isrStep_complete_of_streaming active outstanding) step
    | spurious =>
        rw [streamStep, if_neg (by rw [outstanding]; exact Nat.one_ne_zero)] at step
        cases step

/-- `start_next_chunk` sends a chunk and comes closer to the end, or finds nothing left
and sends nothing. -/
theorem startNextChunk_progress (txFn : out.txFn = some Wire.send) :
    ∃ next, startNextChunk trace out = some next ∧
      (out.remaining = 0 ∧ next.wire = out.wire ∨
        out.remaining ≠ 0 ∧ next.remaining.toNat < out.remaining.toNat ∧
          (∃ dump, next.wire.dumps = dump :: out.wire.dumps.tail) ∧
            next.wire.outstanding = out.wire.outstanding + 1) := by
  rw [startNextChunk_eq]
  by_cases empty : out.remaining = 0
  · rw [beginChunk_finish empty]
    exact ⟨_, rfl, .inl ⟨empty, rfl⟩⟩
  · rw [beginChunk_send txFn empty]
    refine ⟨_, rfl, .inr ⟨empty, ?_, ⟨_, rfl⟩, rfl⟩⟩
    have positive : 0 < out.remaining.toNat := by
      rw [Nat.pos_iff_ne_zero]
      exact fun zero => empty (BitVec.eq_of_toNat_eq zero)
    have length := toNat_chunkLength out.remaining
    change (out.remaining - chunkLength out.remaining).toNat < out.remaining.toNat
    rw [BitVec.toNat_sub_of_le (BitVec.le_def.mpr (by omega))]
    omega

/-- Delivering the outstanding completions brings the session to its end, and leaves
the earlier dumps alone. -/
theorem session_completes (controls : trace.Controls buffer size) (nonnull : buffer ≠ 0)
    (sound : Sound trace buffer size ⟨out, []⟩) (sending : out.wire.outstanding ≠ 0) :
    ∃ count final, run (streamStep trace) out (List.replicate count .complete) = some final ∧
      final.wire.outstanding = 0 ∧ ∃ dump, final.wire.dumps = dump :: out.wire.dumps.tail := by
  induction left : out.remaining.toNat using Nat.strong_induction_on generalizing out with
  | _ left ih =>
      rcases sound.phase.of_no_frames with ⟨_, quiet, _⟩ | ⟨_, streaming, outstanding, _⟩
      · exact absurd quiet sending
      · have step := @streamStep_complete_of_streaming _ trace _ streaming.active outstanding
        obtain ⟨next, started, progress⟩ := @startNextChunk_progress _ trace
          { out with wire := out.wire.complete } sound.txFn
        rw [started] at step
        have soundNext := streamStep_preserves controls nonnull sound step
        rcases progress with ⟨_, wire⟩ | ⟨_, closer, ⟨dump, dumps⟩, again⟩
        · refine ⟨1, next, ?_, ?_, ?_⟩
          · simp [run_cons, step]
          · rw [wire, Wire.complete, outstanding]
          · obtain ⟨dump, older, dumps⟩ := List.exists_cons_of_ne_nil streaming.opened
            refine ⟨dump, ?_⟩
            rw [wire, Wire.complete, dumps]
            rfl
        · have sendingNext : next.wire.outstanding ≠ 0 := by
            rw [again]
            exact Nat.succ_ne_zero _
          obtain ⟨count, final, executed, finished, newest, finalDumps⟩ :=
            ih _ (by rw [← left]; exact closer) soundNext sendingNext rfl
          refine ⟨count + 1, final, ?_, finished, newest, ?_⟩
          · rw [List.replicate_succ]
            exact run_cons_eq_some_iff.mpr ⟨next, step, executed⟩
          · rw [finalDumps, dumps]
            rfl

/-! ## Runs -/

/-- In every run of undisturbed handler calls, every dump is the buffer in order, in
chunks of 1 to 1024 bytes, at most one of them outstanding; recording is off exactly
while a chunk is outstanding; a start request changes nothing during a dump, which the
completions bring to its end, and otherwise begins a new one; spurious completions
change nothing. -/
theorem trace_dump_streams (controls : trace.Controls buffer size) (nonnull : buffer ≠ 0)
    {start final : Traceout τ Wire} (running : start.Running trace buffer size)
    {events : List Event} (executed : run (streamStep trace) start events = some final) :
    (final.wire.InOrder buffer size.toNat ∧ final.wire.ChunksBounded ∧
        final.wire.outstanding ≤ 1) ∧
      (size ≠ 0 →
        (trace.recording final.tracex.unit = true ↔ final.wire.outstanding = 0)) ∧
      (final.wire.outstanding ≠ 0 →
        streamStep trace final .start = some final ∧
          ∃ count finished,
            run (streamStep trace) final (List.replicate count .complete) = some finished ∧
              finished.wire.outstanding = 0 ∧
                ∃ dump, finished.wire.dumps = dump :: final.wire.dumps.tail) ∧
      (final.wire.outstanding = 0 →
        streamStep trace final .spurious = some final ∧
          ∃ next, streamStep trace final .start = some next ∧
            (∃ dump, next.wire.dumps = dump :: final.wire.dumps) ∧
              (next.wire.outstanding = 0 ↔ size = 0)) := by
  have sound := (streamStep_preserves controls nonnull).run (sound_of_running running) executed
  have recording : trace.recording final.tracex.unit = final.tracex.tracexStarted :=
    sound.ready.recording
  rcases sound.phase.of_no_frames with
    ⟨inactive, quiet, started⟩ | ⟨handed, streaming, outstanding, bytes⟩
  · refine ⟨⟨sound.inOrder, sound.bounded, by omega⟩, ?_, fun sending => absurd quiet sending,
      fun _ => ⟨streamStep_spurious_of_idle inactive quiet, ?_⟩⟩
    · intro nonempty
      have nonzero : size.toNat ≠ 0 := fun zero => nonempty (BitVec.eq_of_toNat_eq zero)
      rw [recording, started nonzero]
      simp [quiet]
    · obtain ⟨streaming, readyAgain, opened⟩ :=
        streaming_prepare controls sound.ready (sound.finished_of_quiet quiet) quiet
      obtain ⟨next, begun, progress⟩ := @startNextChunk_progress _ trace
        (prepare trace { final with wire := final.wire.request }) sound.txFn
      have whole : (prepare trace { final with wire := final.wire.request }).remaining = size :=
        readyAgain.traceSize
      refine ⟨next, (streamStep_start_of_idle sound.txFn inactive).trans begun, ?_⟩
      rw [whole, opened] at progress
      rcases progress with ⟨empty, wire⟩ | ⟨nonempty, _, dumps, again⟩
      · exact ⟨⟨[], by rw [wire]⟩, by simp [wire, empty]⟩
      · refine ⟨dumps, ?_⟩
        rw [again]
        exact ⟨fun zero => absurd zero (Nat.succ_ne_zero _), fun empty => absurd empty nonempty⟩
  · have sending : final.wire.outstanding ≠ 0 := by
      rw [outstanding]
      exact Nat.one_ne_zero
    refine ⟨⟨sound.inOrder, sound.bounded, by omega⟩, ?_, fun _ => ⟨?_, ?_⟩,
      fun quiet => absurd quiet sending⟩
    · intro _
      rw [recording, streaming.stopped]
      simp [sending]
    · exact streamStep_start_of_streaming streaming.active outstanding
    · exact session_completes controls nonnull sound sending

/-- A buffer of 2500 bytes, with a refused start request and a spurious completion:
recording is on again at the end, and the one dump is the buffer. -/
theorem trace_dump_streams_example :
    ∃ final, run (streamStep kernelTrace) (boot kernelTrace 64 2500 false)
        [.start, .complete, .start, .complete, .complete, .spurious] = some final ∧
      final.wire.dumps = [[⟨64, 1024⟩, ⟨1088, 1024⟩, ⟨2112, 452⟩]] ∧
      kernelTrace.recording final.tracex.unit = true := by
  have controls : kernelTrace.Controls 64 2500 := kernelTrace_controls (by decide)
  obtain ⟨final, executed⟩ : ∃ final,
      run (streamStep kernelTrace) (boot kernelTrace 64 2500 false)
        [.start, .complete, .start, .complete, .complete, .spurious] = some final := ⟨_, rfl⟩
  have wire : some final.wire =
      some ⟨[[⟨64, 1024⟩, ⟨1088, 1024⟩, ⟨2112, 452⟩]], 0⟩ := by
    rw [← Option.map_some, ← executed]
    rfl
  have streams := trace_dump_streams controls (by decide) (running_boot controls (by decide) rfl)
    executed
  refine ⟨final, executed, congrArg Wire.dumps (Option.some.inj wire), ?_⟩
  exact (streams.2.1 (by decide)).mpr (congrArg Wire.outstanding (Option.some.inj wire))

end EmbeddedBase.TraceX
