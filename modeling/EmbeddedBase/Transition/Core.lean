import Mathlib.Data.List.Basic

/-!
# Runs of labelled partial transitions

A component that reacts to events is an option-valued transition: `none` means
that the event cannot happen in that state.  This file fixes finite runs, their
concatenation, the induction rule for invariants, and a guarded form of that
rule for components whose invariant depends on how the environment behaves.
-/

namespace EmbeddedBase.Transition

universe u v

/-- A partial transition labelled by events. -/
abbrev Step (σ : Type u) (ε : Type v) :=
  σ → ε → Option σ

variable {σ : Type u} {ε : Type v}

/-- Take the listed events one after the other.  An event that is not enabled
makes the whole run undefined. -/
def run (next : Step σ ε) : σ → List ε → Option σ
  | state, [] => some state
  | state, event :: events => (next state event).bind fun state' => run next state' events

@[simp]
theorem run_nil (next : Step σ ε) (state : σ) : run next state [] = some state :=
  rfl

theorem run_cons (next : Step σ ε) (state : σ) (event : ε) (events : List ε) :
    run next state (event :: events) =
      (next state event).bind fun state' => run next state' events :=
  rfl

theorem run_cons_eq_some_iff {next : Step σ ε} {state final : σ} {event : ε}
    {events : List ε} :
    run next state (event :: events) = some final ↔
      ∃ state', next state event = some state' ∧ run next state' events = some final := by
  rw [run_cons]
  exact Option.bind_eq_some_iff

/-- A run over a concatenation splits at the seam. -/
theorem run_append_eq_some_iff {next : Step σ ε} {state final : σ}
    {first second : List ε} :
    run next state (first ++ second) = some final ↔
      ∃ middle, run next state first = some middle ∧
        run next middle second = some final := by
  induction first generalizing state with
  | nil => simp
  | cons event events ih =>
      simp only [List.cons_append, run_cons_eq_some_iff, ih]
      constructor
      · rintro ⟨state', step, middle, before, after⟩
        exact ⟨middle, ⟨state', step, before⟩, after⟩
      · rintro ⟨middle, ⟨state', step, before⟩, after⟩
        exact ⟨state', step, middle, before, after⟩

/-- A run that ends with one more event. -/
theorem run_concat_eq_some_iff {next : Step σ ε} {state final : σ}
    {events : List ε} {event : ε} :
    run next state (events ++ [event]) = some final ↔
      ∃ middle, run next state events = some middle ∧ next middle event = some final := by
  rw [run_append_eq_some_iff]
  simp [run_cons_eq_some_iff]

/-! ## Invariants -/

/-- Every enabled event keeps `I`. -/
def Preserves (next : Step σ ε) (I : σ → Prop) : Prop :=
  ∀ ⦃state event state'⦄, I state → next state event = some state' → I state'

/-- A preserved predicate holds at the end of every run from a state where it
holds. -/
theorem Preserves.run {next : Step σ ε} {I : σ → Prop} (preserves : Preserves next I)
    {events : List ε} {state final : σ} (initial : I state)
    (executed : Transition.run next state events = some final) : I final := by
  induction events generalizing state with
  | nil =>
      cases executed
      exact initial
  | cons event events ih =>
      rcases run_cons_eq_some_iff.mp executed with ⟨state', step, rest⟩
      exact ih (preserves initial step) rest

/-! ## Guarded runs -/

/-- Every event of the run satisfies `guard` in the state it happens in. -/
def Along (next : Step σ ε) (guard : σ → ε → Prop) : σ → List ε → Prop
  | _, [] => True
  | state, event :: events =>
      guard state event ∧
        ∀ state', next state event = some state' → Along next guard state' events

theorem along_cons_of_step {next : Step σ ε} {guard : σ → ε → Prop} {state state' : σ}
    {event : ε} {events : List ε} (step : next state event = some state') :
    Along next guard state (event :: events) ↔
      guard state event ∧ Along next guard state' events := by
  constructor
  · exact fun along => ⟨along.1, along.2 state' step⟩
  · rintro ⟨guarded, rest⟩
    refine ⟨guarded, fun other other_step => ?_⟩
    cases step.symm.trans other_step
    exact rest

/-- A run meets every weaker guard. -/
theorem Along.mono {next : Step σ ε} {guard weaker : σ → ε → Prop}
    (entails : ∀ state event, guard state event → weaker state event) {state : σ}
    {events : List ε} (along : Along next guard state events) :
    Along next weaker state events := by
  induction events generalizing state with
  | nil => trivial
  | cons event events ih =>
      exact ⟨entails state event along.1, fun state' step => ih (along.2 state' step)⟩

/-- Every event that meets the guard keeps `I`. -/
def PreservesUnder (next : Step σ ε) (guard : σ → ε → Prop) (I : σ → Prop) : Prop :=
  ∀ ⦃state event state'⦄, I state → guard state event →
    next state event = some state' → I state'

theorem PreservesUnder.run {next : Step σ ε} {guard : σ → ε → Prop} {I : σ → Prop}
    (preserves : PreservesUnder next guard I) {events : List ε} {state final : σ}
    (initial : I state) (guarded : Along next guard state events)
    (executed : Transition.run next state events = some final) : I final := by
  induction events generalizing state with
  | nil =>
      cases executed
      exact initial
  | cons event events ih =>
      rcases run_cons_eq_some_iff.mp executed with ⟨state', step, rest⟩
      exact ih (preserves initial guarded.1 step) (guarded.2 state' step) rest

/-- The guard holds along a run exactly when it holds at the event after each
of the run's prefixes. -/
theorem along_iff_forall_split {next : Step σ ε} {guard : σ → ε → Prop}
    {state : σ} {events : List ε} :
    Along next guard state events ↔
      ∀ before event after middle, events = before ++ event :: after →
        Transition.run next state before = some middle → guard middle event := by
  induction events generalizing state with
  | nil => simp [Along]
  | cons head events ih =>
      constructor
      · rintro ⟨first, rest⟩ before event after middle split executed
        cases before with
        | nil =>
            cases executed
            cases split
            exact first
        | cons other before =>
            cases split
            rcases run_cons_eq_some_iff.mp executed with ⟨state', step, executed⟩
            exact ih.mp (rest state' step) before event after middle rfl executed
      · intro all
        refine ⟨all [] head events state rfl rfl, fun state' step => ih.mpr ?_⟩
        intro before event after middle split executed
        exact all (head :: before) event after middle (by rw [split]; rfl)
          (run_cons_eq_some_iff.mpr ⟨state', step, executed⟩)

/-- When the guarded events keep an invariant that entails `P`, and every other
event breaks `P`, a run keeps `P` throughout exactly when it is guarded. -/
theorem forall_split_iff_along {next : Step σ ε} {guard : σ → ε → Prop}
    {I P : σ → Prop} (preserves : PreservesUnder next guard I)
    (entails : ∀ state, I state → P state)
    (breaks : ∀ state event state', I state → ¬guard state event →
      next state event = some state' → ¬P state')
    {events : List ε} {state final : σ} (initial : I state)
    (executed : Transition.run next state events = some final) :
    (∀ before after middle, events = before ++ after →
        Transition.run next state before = some middle → P middle) ↔
      Along next guard state events := by
  constructor
  · intro all
    induction events generalizing state with
    | nil => trivial
    | cons event events ih =>
        rcases run_cons_eq_some_iff.mp executed with ⟨state', step, rest⟩
        have after : P state' := all [event] events state' rfl (by simp [run_cons, step])
        have guarded : guard state event := by
          by_contra unguarded
          exact breaks state event state' initial unguarded step after
        refine ⟨guarded, fun other other_step => ?_⟩
        cases step.symm.trans other_step
        apply ih (preserves initial guarded step) rest
        intro before after middle split reached
        exact all (event :: before) after middle (by rw [split]; rfl)
          (run_cons_eq_some_iff.mpr ⟨state', step, reached⟩)
  · rintro guarded before after middle rfl reached
    apply entails
    refine preserves.run initial ?_ reached
    rw [along_iff_forall_split] at guarded ⊢
    rintro earlier event later state' rfl executed'
    exact guarded earlier event (later ++ after) state' (by simp) executed'

end EmbeddedBase.Transition
