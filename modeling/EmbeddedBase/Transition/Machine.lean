import Mathlib.Data.List.Basic

/-!
# Deterministic components with replies

An API whose every call returns a value is a total function from a state and a
call to a reply and a state.  The file gives the replies and the final state of
a call sequence, the invariant rule, and the simulation rule that transfers the
replies of an abstract component to a concrete one.
-/

namespace EmbeddedBase.Transition

universe u v w x

/-- A component that answers every call. -/
abbrev Machine (σ : Type u) (ι : Type v) (ο : Type w) :=
  σ → ι → ο × σ

namespace Machine

variable {σ : Type u} {ι : Type v} {ο : Type w} {τ : Type x}

/-- The state after the listed calls. -/
def final (machine : Machine σ ι ο) : σ → List ι → σ
  | state, [] => state
  | state, call :: calls => final machine (machine state call).2 calls

/-- The replies to the listed calls, in order. -/
def replies (machine : Machine σ ι ο) : σ → List ι → List ο
  | _, [] => []
  | state, call :: calls =>
      (machine state call).1 :: replies machine (machine state call).2 calls

@[simp]
theorem final_nil (machine : Machine σ ι ο) (state : σ) : machine.final state [] = state :=
  rfl

@[simp]
theorem final_cons (machine : Machine σ ι ο) (state : σ) (call : ι) (calls : List ι) :
    machine.final state (call :: calls) = machine.final (machine state call).2 calls :=
  rfl

@[simp]
theorem replies_nil (machine : Machine σ ι ο) (state : σ) :
    machine.replies state [] = [] :=
  rfl

@[simp]
theorem replies_cons (machine : Machine σ ι ο) (state : σ) (call : ι) (calls : List ι) :
    machine.replies state (call :: calls) =
      (machine state call).1 :: machine.replies (machine state call).2 calls :=
  rfl

@[simp]
theorem final_append (machine : Machine σ ι ο) (state : σ) (first second : List ι) :
    machine.final state (first ++ second) =
      machine.final (machine.final state first) second := by
  induction first generalizing state with
  | nil => rfl
  | cons call calls ih => exact ih _

@[simp]
theorem replies_append (machine : Machine σ ι ο) (state : σ) (first second : List ι) :
    machine.replies state (first ++ second) =
      machine.replies state first ++ machine.replies (machine.final state first) second := by
  induction first generalizing state with
  | nil => rfl
  | cons call calls ih => simp [ih]

@[simp]
theorem length_replies (machine : Machine σ ι ο) (state : σ) (calls : List ι) :
    (machine.replies state calls).length = calls.length := by
  induction calls generalizing state with
  | nil => rfl
  | cons call calls ih => simp [ih]

/-- A reply is given in the state left by the calls before it. -/
theorem getElem?_replies (machine : Machine σ ι ο) (state : σ) (calls : List ι) (k : Nat) :
    (machine.replies state calls)[k]? =
      calls[k]?.map fun call => (machine (machine.final state (calls.take k)) call).1 := by
  induction calls generalizing state k with
  | nil => rfl
  | cons call calls ih =>
      cases k with
      | zero => rfl
      | succ k => exact ih _ k

theorem final_take_succ (machine : Machine σ ι ο) (state : σ) {calls : List ι} {k : Nat}
    {call : ι} (at_k : calls[k]? = some call) :
    machine.final state (calls.take (k + 1)) =
      (machine (machine.final state (calls.take k)) call).2 := by
  rw [List.take_add_one, at_k, final_append]
  rfl

/-- What the guarded calls keep holds after every sequence of them. -/
theorem final_of_guarded {machine : Machine σ ι ο} {I : σ → Prop} {guard : ι → Prop} {start : σ}
    (keeps : ∀ state call, guard call → I state → I (machine state call).2) (initial : I start)
    {calls : List ι} (all : ∀ call ∈ calls, guard call) : I (machine.final start calls) := by
  induction calls generalizing start with
  | nil => exact initial
  | cons call calls ih =>
      exact ih (keeps start call (all call List.mem_cons_self) initial)
        fun other member => all other (List.mem_cons_of_mem call member)

/-- What is kept by every call holds after every call sequence. -/
theorem final_of_keeps {machine : Machine σ ι ο} {I : σ → Prop} {start : σ}
    (keeps : ∀ state call, I state → I (machine state call).2) (initial : I start)
    (calls : List ι) : I (machine.final start calls) :=
  final_of_guarded (fun state call (_ : True) => keeps state call) initial fun _ _ => trivial

/-! ## Guarded call sequences -/

/-- Every call of the sequence satisfies `guard` in the state it is made in. -/
def Always (machine : Machine σ ι ο) (guard : σ → ι → Prop) : σ → List ι → Prop
  | _, [] => True
  | state, call :: calls => guard state call ∧ machine.Always guard (machine state call).2 calls

@[simp]
theorem always_nil (machine : Machine σ ι ο) (guard : σ → ι → Prop) (state : σ) :
    machine.Always guard state [] :=
  trivial

@[simp]
theorem always_cons (machine : Machine σ ι ο) (guard : σ → ι → Prop) (state : σ)
    (call : ι) (calls : List ι) :
    machine.Always guard state (call :: calls) ↔
      guard state call ∧ machine.Always guard (machine state call).2 calls :=
  Iff.rfl

theorem always_append (machine : Machine σ ι ο) (guard : σ → ι → Prop) (state : σ)
    (first second : List ι) :
    machine.Always guard state (first ++ second) ↔
      machine.Always guard state first ∧
        machine.Always guard (machine.final state first) second := by
  induction first generalizing state with
  | nil => simp
  | cons call calls ih => simp [ih, and_assoc]

/-- The guard holds throughout exactly when it holds at every call, in the
state left by the calls before it. -/
theorem always_iff_forall_split {machine : Machine σ ι ο} {guard : σ → ι → Prop}
    {state : σ} {calls : List ι} :
    machine.Always guard state calls ↔
      ∀ before call after, calls = before ++ call :: after →
        guard (machine.final state before) call := by
  constructor
  · rintro always before call after rfl
    exact ((always_append _ _ _ _ _).mp always).2.1
  · intro all
    induction calls generalizing state with
    | nil => trivial
    | cons call calls ih =>
        refine ⟨all [] call calls rfl, ih ?_⟩
        intro before other after split
        exact all (call :: before) other after (by rw [split]; rfl)

/-- A predicate kept by every guarded call holds after every guarded call
sequence. -/
theorem Always.final {machine : Machine σ ι ο} {guard : σ → ι → Prop} {I : σ → Prop}
    (preserves : ∀ state call, I state → guard state call → I (machine state call).2)
    {calls : List ι} {state : σ} (initial : I state)
    (always : machine.Always guard state calls) : I (machine.final state calls) := by
  induction calls generalizing state with
  | nil => exact initial
  | cons call calls ih => exact ih (preserves state call initial always.1) always.2

/-! ## Simulation -/

/-- `R` relates the states of two components call by call, and related states
give the same replies. -/
def Simulates (concrete : Machine σ ι ο) (abstract : Machine τ ι ο)
    (admissible : ι → Prop) (R : σ → τ → Prop) : Prop :=
  ∀ ⦃state model call⦄, R state model → admissible call →
    (concrete state call).1 = (abstract model call).1 ∧
      R (concrete state call).2 (abstract model call).2

variable {concrete : Machine σ ι ο} {abstract : Machine τ ι ο} {admissible : ι → Prop}
  {R : σ → τ → Prop}

/-- Related states stay related along every admissible call sequence. -/
theorem Simulates.final (simulates : Simulates concrete abstract admissible R)
    {calls : List ι} {state : σ} {model : τ} (related : R state model)
    (all : ∀ call ∈ calls, admissible call) :
    R (concrete.final state calls) (abstract.final model calls) := by
  induction calls generalizing state model with
  | nil => exact related
  | cons call calls ih =>
      have step := simulates related (all call List.mem_cons_self)
      exact ih step.2 fun other member => all other (List.mem_cons_of_mem call member)

/-- A simulated component gives exactly the replies of its abstraction. -/
theorem Simulates.replies (simulates : Simulates concrete abstract admissible R)
    {calls : List ι} {state : σ} {model : τ} (related : R state model)
    (all : ∀ call ∈ calls, admissible call) :
    concrete.replies state calls = abstract.replies model calls := by
  induction calls generalizing state model with
  | nil => rfl
  | cons call calls ih =>
      have step := simulates related (all call List.mem_cons_self)
      rw [replies_cons, replies_cons, step.1,
        ih step.2 fun other member => all other (List.mem_cons_of_mem call member)]

end Machine

/-! ## Call histories -/

/-- The last of the values that the calls of a history have for `value`. -/
def lastSome {ι : Type u} {β : Type v} (value : ι → Option β) (history : List ι) : Option β :=
  (history.filterMap value).getLast?

@[simp]
theorem lastSome_nil {ι : Type u} {β : Type v} (value : ι → Option β) :
    lastSome value [] = none :=
  rfl

@[simp]
theorem lastSome_append_singleton {ι : Type u} {β : Type v} (value : ι → Option β)
    (history : List ι) (call : ι) :
    lastSome value (history ++ [call]) = (value call).or (lastSome value history) := by
  cases here : value call with
  | none => simp [lastSome, here]
  | some last => simp [lastSome, here]

end EmbeddedBase.Transition
