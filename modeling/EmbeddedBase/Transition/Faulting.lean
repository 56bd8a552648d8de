import EmbeddedBase.Transition.Machine

/-!
# Components whose calls may fault

A call of such a component has no result when it does something undefined; every later
call is undefined as well.  The simulation rule shows at once that no call faults and that
the replies are those of an abstract component.
-/

namespace EmbeddedBase.Transition

universe u v w x

/-- A component whose calls may fault. -/
abbrev Faulting (σ : Type u) (ι : Type v) (ο : Type w) :=
  σ → ι → Option (ο × σ)

namespace Faulting

variable {σ : Type u} {ι : Type v} {ο : Type w} {τ : Type x}

/-- One call, after which a fault is final. -/
def machine (component : Faulting σ ι ο) : Machine (Option σ) ι (Option ο) :=
  fun state call =>
    match state.bind fun state => component state call with
    | none => (none, none)
    | some outcome => (some outcome.1, some outcome.2)

theorem machine_of_eq_some {component : Faulting σ ι ο} {state state' : σ} {call : ι} {reply : ο}
    (step : component state call = some (reply, state')) :
    component.machine (some state) call = (some reply, some state') := by
  simp [machine, step]

theorem machine_of_eq_none {component : Faulting σ ι ο} {state : σ} {call : ι}
    (fault : component state call = none) :
    component.machine (some state) call = (none, none) := by
  simp [machine, fault]

/-- A guard on the states before a fault. -/
def Lift (guard : σ → ι → Prop) (state : Option σ) (call : ι) : Prop :=
  ∀ defined, state = some defined → guard defined call

/-- Every guarded call is defined, gives the abstract reply and keeps `R`. -/
def Simulates (component : Faulting σ ι ο) (abstract : Machine τ ι ο)
    (guard : σ → ι → Prop) (R : σ → τ → Prop) : Prop :=
  ∀ ⦃state model call⦄, R state model → guard state call →
    ∃ state', component state call = some ((abstract model call).1, state') ∧
      R state' (abstract model call).2

variable {component : Faulting σ ι ο} {abstract : Machine τ ι ο} {guard : σ → ι → Prop}
  {R : σ → τ → Prop}

theorem Simulates.final (simulates : Simulates component abstract guard R) {calls : List ι}
    {state : σ} {model : τ} (related : R state model)
    (guarded : component.machine.Always (Lift guard) (some state) calls) :
    ∃ state', component.machine.final (some state) calls = some state' ∧
      R state' (abstract.final model calls) := by
  induction calls generalizing state model with
  | nil => exact ⟨state, rfl, related⟩
  | cons call calls ih =>
      rcases simulates related (guarded.1 state rfl) with ⟨middle, step, held⟩
      have later := guarded.2
      rw [machine_of_eq_some step] at later
      rw [Machine.final_cons, Machine.final_cons, machine_of_eq_some step]
      exact ih held later

/-- No guarded call faults, and the replies are the abstract ones. -/
theorem Simulates.replies (simulates : Simulates component abstract guard R) {calls : List ι}
    {state : σ} {model : τ} (related : R state model)
    (guarded : component.machine.Always (Lift guard) (some state) calls) :
    component.machine.replies (some state) calls = (abstract.replies model calls).map some := by
  induction calls generalizing state model with
  | nil => rfl
  | cons call calls ih =>
      rcases simulates related (guarded.1 state rfl) with ⟨middle, step, held⟩
      have later := guarded.2
      rw [machine_of_eq_some step] at later
      rw [Machine.replies_cons, Machine.replies_cons, machine_of_eq_some step, List.map_cons,
        ih held later]

/-! ## Components without faults -/

/-- A component none of whose calls faults, as a machine. -/
def total (component : Faulting σ ι ο)
    (defined : ∀ state call, (component state call).isSome) : Machine σ ι ο :=
  fun state call => (component state call).get (defined state call)

theorem eq_some_total {component : Faulting σ ι ο}
    (defined : ∀ state call, (component state call).isSome) (state : σ) (call : ι) :
    component state call = some (component.total defined state call) :=
  (Option.some_get _).symm

/-- A call sequence of such a component has all its replies, and they are the machine's. -/
theorem run_total {component : Faulting σ ι ο}
    (defined : ∀ state call, (component state call).isSome) (state : σ) (calls : List ι) :
    component.machine.final (some state) calls =
        some ((component.total defined).final state calls) ∧
      component.machine.replies (some state) calls =
        ((component.total defined).replies state calls).map some := by
  induction calls generalizing state with
  | nil => exact ⟨rfl, rfl⟩
  | cons call calls ih =>
      have step := machine_of_eq_some (eq_some_total defined state call)
      rcases ih (component.total defined state call).2 with ⟨final, replies⟩
      rw [Machine.final_cons, Machine.final_cons, Machine.replies_cons, Machine.replies_cons,
        step, List.map_cons]
      exact ⟨final, congrArg _ replies⟩

/-! ## Properties of the calls so far -/

/-- When the guarded calls are defined and keep an invariant that entails `P`, and every
other call faults or breaks `P`, a run is defined with `P` throughout exactly when it is
guarded. -/
theorem forall_prefix_iff_always {admissible : ι → Prop} {I P : List ι → σ → Prop}
    (keeps : ∀ history state call, I history state → admissible call → guard state call →
      ∃ reply state', component state call = some (reply, state') ∧ I (history ++ [call]) state')
    (entails : ∀ history state, I history state → P history state)
    (breaks : ∀ history state call reply state', I history state → admissible call →
      ¬guard state call → component state call = some (reply, state') →
      ¬P (history ++ [call]) state')
    {calls : List ι} {history : List ι} {state : σ} (initial : I history state)
    (all : ∀ call ∈ calls, admissible call) :
    (∀ before after, calls = before ++ after → ∃ state',
        component.machine.final (some state) before = some state' ∧
          P (history ++ before) state') ↔
      component.machine.Always (Lift guard) (some state) calls := by
  induction calls generalizing history state with
  | nil =>
      constructor
      · exact fun _ => trivial
      · intro _ before after split
        rcases List.append_eq_nil_iff.mp split.symm with ⟨rfl, rfl⟩
        exact ⟨state, rfl, entails _ _ (by rwa [List.append_nil])⟩
  | cons call calls ih =>
      have first := all call List.mem_cons_self
      have rest : ∀ other ∈ calls, admissible other :=
        fun other member => all other (List.mem_cons_of_mem call member)
      rw [Machine.always_cons]
      constructor
      · intro holds
        rcases holds [call] calls rfl with ⟨state', reached, after⟩
        have guarded : guard state call := by
          by_contra unguarded
          cases step : component state call with
          | none =>
              rw [Machine.final_cons, machine_of_eq_none step] at reached
              cases reached
          | some outcome =>
              rw [Machine.final_cons, machine_of_eq_some step] at reached
              cases reached
              exact breaks _ _ _ _ _ initial first unguarded step after
        rcases keeps _ _ _ initial first guarded with ⟨reply, middle, step, kept⟩
        refine ⟨fun _ equal => by cases equal; exact guarded, ?_⟩
        rw [machine_of_eq_some step]
        apply (ih kept rest).mp
        intro before later split
        rcases holds (call :: before) later (by rw [split]; rfl) with ⟨final, executed, holds'⟩
        rw [Machine.final_cons, machine_of_eq_some step] at executed
        exact ⟨final, executed, by rwa [List.append_assoc]⟩
      · rintro ⟨guarded, always⟩ before later split
        rcases keeps _ _ _ initial first (guarded state rfl) with ⟨reply, middle, step, kept⟩
        rw [machine_of_eq_some step] at always
        cases before with
        | nil => exact ⟨state, rfl, entails _ _ (by rwa [List.append_nil])⟩
        | cons other before =>
            cases split
            rcases (ih kept rest).mpr always before later rfl with ⟨final, executed, holds⟩
            refine ⟨final, ?_, by rwa [List.append_assoc] at holds⟩
            rw [Machine.final_cons, machine_of_eq_some step]
            exact executed

end Faulting

end EmbeddedBase.Transition
