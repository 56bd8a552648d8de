import EmbeddedBase.Transition.Machine
import Mathlib.Data.List.Nodup
import Mathlib.Data.List.Range

/-!
# Components that hand out numbered slots

A component counts the slots it has handed out, and hands out the slot that the counter
names.  A run hands out the slots zero, one, two and so on, and a failed call costs none,
exactly when every call takes the next slot or leaves the counter alone.
-/

namespace EmbeddedBase.Transition

universe u v w

/-- What is seen of the slots: the counter, the replies of successful calls, and the slot
that such a call took. -/
structure SlotView (σ : Type u) (ο : Type w) where
  counter : σ → Nat
  succeeded : ο → Bool
  slot : ο → Option Nat

namespace SlotView

variable {σ : Type u} {ι : Type v} {ο : Type w}

/-- The replies of the successful calls of a run. -/
def successes (view : SlotView σ ο) (machine : Machine σ ι ο) (state : σ) (calls : List ι) :
    List ο :=
  (machine.replies state calls).filter view.succeeded

/-- The call takes the slot that the counter names, or fails and leaves the counter alone. -/
def TakesNext (view : SlotView σ ο) (machine : Machine σ ι ο) (state : σ) (call : ι) : Prop :=
  if view.succeeded (machine state call).1 then
    view.slot (machine state call).1 = some (view.counter state) ∧
      view.counter (machine state call).2 = view.counter state + 1
  else
    view.counter (machine state call).2 = view.counter state

/-- A failed call leaves the counter alone. -/
def FailureIsFree (view : SlotView σ ο) (machine : Machine σ ι ο) (state : σ) (call : ι) : Prop :=
  view.succeeded (machine state call).1 = false →
    view.counter (machine state call).2 = view.counter state

/-- A run from an unused component that loses no slot. -/
structure Exact (view : SlotView σ ο) (machine : Machine σ ι ο) (start : σ) (calls : List ι) :
    Prop where
  counted : ∀ before after, calls = before ++ after →
    view.counter (machine.final start before) = (view.successes machine start before).length
  inOrder : ∀ n reply, (view.successes machine start calls)[n]? = some reply →
    view.slot reply = some n
  distinct : ((view.successes machine start calls).map view.slot).Nodup
  failure : machine.Always (view.FailureIsFree machine) start calls

variable {view : SlotView σ ο} {machine : Machine σ ι ο}

@[simp]
theorem successes_nil (state : σ) : view.successes machine state [] = [] :=
  rfl

@[simp]
theorem successes_append (state : σ) (first second : List ι) :
    view.successes machine state (first ++ second) =
      view.successes machine state first ++
        view.successes machine (machine.final state first) second := by
  simp [successes]

theorem successes_cons_of_true {state : σ} {call : ι} (calls : List ι)
    (succeeds : view.succeeded (machine state call).1 = true) :
    view.successes machine state (call :: calls) =
      (machine state call).1 :: view.successes machine (machine state call).2 calls :=
  List.filter_cons_of_pos succeeds

theorem successes_cons_of_false {state : σ} {call : ι} (calls : List ι)
    (fails : view.succeeded (machine state call).1 = false) :
    view.successes machine state (call :: calls) =
      view.successes machine (machine state call).2 calls :=
  List.filter_cons_of_neg (Bool.eq_false_iff.mp fails)

theorem takesNext_of_true {state : σ} {call : ι}
    (succeeds : view.succeeded (machine state call).1 = true) :
    view.TakesNext machine state call ↔
      view.slot (machine state call).1 = some (view.counter state) ∧
        view.counter (machine state call).2 = view.counter state + 1 := by
  rw [TakesNext, if_pos succeeds]

theorem takesNext_of_false {state : σ} {call : ι}
    (fails : view.succeeded (machine state call).1 = false) :
    view.TakesNext machine state call ↔
      view.counter (machine state call).2 = view.counter state := by
  rw [TakesNext, if_neg (Bool.eq_false_iff.mp fails)]

/-- The slots of a run, from any value of the counter. -/
theorem slots_of_always {state : σ} {calls : List ι}
    (always : machine.Always (view.TakesNext machine) state calls) :
    view.counter (machine.final state calls) =
        view.counter state + (view.successes machine state calls).length ∧
      (view.successes machine state calls).map view.slot =
        (List.range' (view.counter state)
          (view.successes machine state calls).length).map some := by
  induction calls generalizing state with
  | nil => exact ⟨rfl, rfl⟩
  | cons call calls ih =>
      rcases always with ⟨step, later⟩
      rcases ih later with ⟨counted, inOrder⟩
      cases outcome : view.succeeded (machine state call).1 with
      | true =>
          rcases (takesNext_of_true outcome).mp step with ⟨taken, advanced⟩
          rw [advanced] at counted inOrder
          rw [successes_cons_of_true calls outcome]
          constructor
          · rw [Machine.final_cons, counted, List.length_cons]
            omega
          · rw [List.map_cons, taken, inOrder, List.length_cons, List.range'_succ, List.map_cons]
      | false =>
          have kept := (takesNext_of_false outcome).mp step
          rw [kept] at counted inOrder
          rw [successes_cons_of_false calls outcome]
          exact ⟨counted, inOrder⟩

/-- In an exact run every call takes the next slot or leaves the counter alone. -/
theorem Exact.takesNext {start : σ} {calls before after : List ι} {call : ι}
    (exact : view.Exact machine start calls) (split : calls = before ++ call :: after) :
    view.TakesNext machine (machine.final start before) call := by
  have counted := exact.counted before (call :: after) split
  have next := exact.counted (before ++ [call]) after (by rw [split]; simp)
  rw [Machine.final_append, successes_append] at next
  cases outcome : view.succeeded (machine (machine.final start before) call).1 with
  | true =>
      rw [takesNext_of_true outcome, counted]
      rw [successes_cons_of_true [] outcome] at next
      constructor
      · apply exact.inOrder
        rw [split, successes_append, successes_cons_of_true after outcome]
        simp
      · simpa using next
  | false =>
      rw [takesNext_of_false outcome, counted]
      rw [successes_cons_of_false [] outcome] at next
      simpa using next

/-- A run of such calls is exact when it starts from a counter of zero. -/
theorem exact_of_always {start : σ} {calls : List ι} (unused : view.counter start = 0)
    (always : machine.Always (view.TakesNext machine) start calls) :
    view.Exact machine start calls := by
  have slots := (slots_of_always always).2
  rw [unused, ← List.range_eq_range'] at slots
  constructor
  · rintro before after rfl
    rw [(slots_of_always ((Machine.always_append _ _ _ _ _).mp always).1).1, unused,
      Nat.zero_add]
  · intro n reply at_n
    have mapped : ((view.successes machine start calls).map view.slot)[n]? =
        some (view.slot reply) := by
      rw [List.getElem?_map, at_n]
      rfl
    have below : n < (view.successes machine start calls).length :=
      (List.getElem?_eq_some_iff.mp at_n).1
    rw [slots, List.getElem?_map, List.getElem?_range below] at mapped
    exact (Option.some.inj mapped).symm
  · rw [slots]
    exact List.nodup_range.map fun _ _ equal => Option.some.inj equal
  · rw [Machine.always_iff_forall_split] at always ⊢
    intro before call after split fails
    exact (takesNext_of_false fails).mp (always before call after split)

/-- From a counter of zero, a run loses no slot exactly when every call takes the next slot
or leaves the counter alone. -/
theorem exact_iff_always {start : σ} {calls : List ι} (unused : view.counter start = 0) :
    view.Exact machine start calls ↔ machine.Always (view.TakesNext machine) start calls := by
  constructor
  · intro exact
    rw [Machine.always_iff_forall_split]
    exact fun _ _ _ split => exact.takesNext split
  · exact exact_of_always unused

end SlotView

end EmbeddedBase.Transition
