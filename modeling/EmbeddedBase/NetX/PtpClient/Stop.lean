import EmbeddedBase.NetX.PtpClient.Serving

/-!
# Stopping the PTP client

A stop that has begun returns, whatever the other threads do, once the application's thread
and the client's have each been given a few steps.  It leaves the client as it was created,
its sockets unbound and empty, its timer inactive; and unless `tx_event_flags_get` failed it
leaves no request to stop for the next start.
-/

namespace EmbeddedBase.NetX

open EmbeddedBase.Transition

section

variable {κ : Type} {callback : ClockCallback κ} {system : PtpSystem κ} {succeeds : Bool}
  {env : PtpEnv κ} {msw lsw : BitVec 32}

/-- The client is stopped, and no call is under way. -/
structure AtRest (system : PtpSystem κ) : Prop where
  call : system.call = .outside
  threadState : system.threadState = .idle
  point : system.point = .ended
  timerActive : system.timerActive = false
  bound : ∀ socket, system.bound socket = false
  queue : ∀ socket, system.queue socket = []

def SystemStep.isCall : SystemStep κ → Bool
  | .call _ _ _ => true
  | _ => false

/-- The application's thread is in `_nx_ptp_client_stop`. -/
def PtpCall.InStop : PtpCall → Prop
  | .deactivate _ | .unbindGeneral _ | .unbindEvent _ | .setStop _ | .wait _ | .setIdle _ => True
  | _ => False

/-- The actions of a stop until it has set its event. -/
def PtpCall.ahead : PtpCall → Nat
  | .deactivate _ => 4
  | .unbindGeneral _ => 3
  | .unbindEvent _ => 2
  | .setStop _ => 1
  | _ => 0

/-- The actions of a stop that remain when the thread has ended. -/
def PtpCall.last : PtpCall → Nat
  | .wait _ => 2
  | .setIdle _ => 1
  | _ => 0

/-- The steps of a thread with nothing to receive until it has taken a stop and ended. -/
def ThreadPoint.remaining : ThreadPoint → Nat
  | .ended => 0
  | .leaving => 1
  | .waiting => 2
  | .entry | .receivingGeneral _ => 3
  | .receivingEvent _ => 4

theorem ThreadPoint.remaining_le (point : ThreadPoint) : point.remaining ≤ 4 := by
  cases point with
  | ended | leaving | waiting | entry => decide
  | receivingGeneral | receivingEvent => exact Nat.le_of_ble_eq_true rfl

/-- While a call is under way, the steps of the others leave it and what it and the thread
agree on alone. -/
theorem others_control (callback : ClockCallback κ) {step : SystemStep κ}
    (busy : system.call ≠ .outside) (call : step.isCall = false) (thread : step.isThread = false) :
    let after := (ptpThread callback system step).2
    after.call = system.call ∧ after.point = system.point ∧
      after.threadState = system.threadState ∧ after.events.stop = system.events.stop := by
  unfold ptpThread
  cases step with
  | call => cases call
  | thread => cases thread
  | receive socket packet =>
      dsimp only
      unfold PtpSystem.receive
      split
      · exact ⟨rfl, rfl, rfl, rfl⟩
      · exact ⟨rfl, rfl, rfl, rfl⟩
  | receiveNotify | timerHandler | timerSet =>
      dsimp only
      split
      · exact ⟨rfl, rfl, rfl, rfl⟩
      · exact ⟨rfl, rfl, rfl, rfl⟩
  | notify | clock => exact ⟨rfl, rfl, rfl, rfl⟩
  | start | stop =>
      dsimp only
      rw [if_neg busy]
      exact ⟨rfl, rfl, rfl, rfl⟩

theorem PtpCall.InStop.busy {call : PtpCall} (inside : call.InStop) : call ≠ .outside := by
  rintro rfl
  exact inside

/-- Only the application's thread moves its call. -/
theorem call_eq (callback : ClockCallback κ) {step : SystemStep κ} (busy : system.call ≠ .outside)
    (call : step.isCall = false) : (ptpThread callback system step).2.call = system.call := by
  cases thread : step.isThread with
  | false => exact (others_control callback busy call thread).1
  | true =>
      cases step with
      | thread succeeds env => exact (threadStep_takes callback succeeds env system).moves.call
      | _ => cases thread

/-- One action of a stop: it returns, and the client is at rest, or it goes on. -/
theorem callStep_inStop (sound : Sound system) (inside : system.call.InStop) :
    AtRest (callStep callback succeeds msw lsw system).2 ∨
      ((callStep callback succeeds msw lsw system).2.call.InStop ∧
        (callStep callback succeeds msw lsw system).2.call.ahead ≤ system.call.ahead - 1) := by
  have linked := sound.linked
  unfold Linked at linked
  unfold callStep
  cases call : system.call with
  | outside | configure | resume | identify | bindGeneral | bindEvent | join | activate =>
      rw [call] at inside
      exact absurd inside id
  | deactivate | unbindGeneral | unbindEvent => exact .inr ⟨trivial, Nat.le_refl _⟩
  | setStop frame =>
      dsimp only
      split
      · exact .inr ⟨trivial, Nat.le_refl _⟩
      · exact .inr ⟨trivial, Nat.le_refl _⟩
  | wait status =>
      dsimp only
      split
      · exact .inr ⟨trivial, Nat.le_refl _⟩
      · refine .inr ⟨?_, ?_⟩
        · rw [call]
          trivial
        · rw [call]
          exact Nat.le_refl _
  | setIdle status =>
      rw [call] at linked
      rcases linked with ⟨-, point, inactive, unbound⟩
      have empty (socket : PtpSocket) := sound.unbound socket (unbound socket)
      exact .inl ⟨rfl, rfl, point, inactive, unbound, empty⟩

/-- The application's thread sets the stop event. -/
theorem lowers_ahead (callback : ClockCallback κ) :
    (ptpThread callback).Lowers (fun _ => True)
      (fun system => Sound system ∧ system.call.InStop) AtRest (fun system => system.call.ahead)
      SystemStep.isCall := by
  rintro system step ⟨sound, inside⟩ -
  have still := sound_step callback system step sound
  cases call : step.isCall with
  | false =>
      have same := call_eq callback inside.busy call
      refine .inr ⟨⟨still, ?_⟩, ?_⟩
      · rw [same]
        exact inside
      · dsimp only
        rw [same]
        simp [call]
  | true =>
      cases step with
      | call succeeds msw lsw =>
          rcases callStep_inStop sound inside with rests | ⟨goesOn, less⟩
          · exact .inl rests
          · exact .inr ⟨⟨still, goesOn⟩, less⟩
      | _ => cases call

/-- A stop that has set its event. -/
def Waits (system : PtpSystem κ) : Prop :=
  Sound system ∧ system.call.InStop ∧ system.call.ahead = 0

theorem Waits.cases (waits : Waits system) :
    (∃ status, system.call = .wait status) ∨ ∃ status, system.call = .setIdle status := by
  rcases waits with ⟨-, inside, done⟩
  cases call : system.call with
  | wait status => exact .inl ⟨status, rfl⟩
  | setIdle status => exact .inr ⟨status, rfl⟩
  | deactivate | unbindGeneral | unbindEvent | setStop =>
      rw [call] at done
      cases done
  | outside | configure | resume | identify | bindGeneral | bindEvent | join | activate =>
      rw [call] at inside
      exact absurd inside id

/-- The thread is told to stop, and has nothing to receive. -/
theorem Waits.told (waits : Waits system) : Told system ∧ Emptied system := by
  have linked := waits.1.linked
  unfold Linked at linked
  rcases waits.cases with ⟨status, call⟩ | ⟨status, call⟩
  · rw [call] at linked
    exact ⟨linked.2.1, fun socket => waits.1.unbound socket (linked.2.2.2 socket)⟩
  · rw [call] at linked
    exact ⟨.inr (.inr linked.2.1), fun socket => waits.1.unbound socket (linked.2.2.2 socket)⟩

/-- A thread that is told to stop and has nothing to receive comes nearer to its end. -/
theorem ThreadTakes.remaining {result : PtpReply κ × PtpSystem κ}
    (takes : ThreadTakes callback succeeds env system result) (told : Told system)
    (emptied : Emptied system) : result.2.point.remaining ≤ system.point.remaining - 1 := by
  have set (waiting : system.point = .waiting) : system.events.stop = true := by
    refine told.resolve_right ?_
    rw [waiting]
    exact fun other => other.elim nofun nofun
  cases takes with
  | ended point =>
      rw [point]
      exact Nat.le_refl 0
  | enters point | fails point | stops point | turns point | waits point | ticksLater point
  | leaves point =>
      rw [point]
      exact Nat.le_refl _
  | sleeps point _ unset | wakes point unset | ticks point unset =>
      cases (set point).symm.trans unset
  | handlesEvent _ front | handlesGeneral _ front => cases front.symm.trans (emptied _)

/-- A stop that waits leaves the thread where it is. -/
theorem Waits.call_point (waits : Waits system) :
    (callStep callback succeeds msw lsw system).2.point = system.point := by
  unfold callStep
  rcases waits.cases with ⟨status, call⟩ | ⟨status, call⟩
  · rw [call]
    dsimp only
    split
    · rfl
    · rfl
  · rw [call]
    rfl

/-- A stop that waits goes on waiting, or returns. -/
theorem Waits.step (waits : Waits system) (callback : ClockCallback κ) (step : SystemStep κ) :
    AtRest (ptpThread callback system step).2 ∨ Waits (ptpThread callback system step).2 := by
  rcases lowers_ahead callback system step ⟨waits.1, waits.2.1⟩ trivial with
    rests | ⟨⟨sound, inside⟩, less⟩
  · exact .inl rests
  · dsimp only at less
    rw [waits.2.2, Nat.zero_sub] at less
    exact .inr ⟨sound, inside, Nat.le_zero.mp less⟩

theorem Waits.point (waits : Waits system) (callback : ClockCallback κ) {step : SystemStep κ}
    (thread : step.isThread = false) :
    (ptpThread callback system step).2.point = system.point := by
  cases call : step.isCall with
  | false => exact (others_control callback waits.2.1.busy call thread).2.1
  | true =>
      cases step with
      | call succeeds msw lsw => exact waits.call_point
      | _ => cases call

/-- The thread takes the stop event and ends. -/
theorem lowers_remaining (callback : ClockCallback κ) :
    (ptpThread callback).Lowers (fun _ => True) Waits AtRest
      (fun system => system.point.remaining) SystemStep.isThread := by
  rintro system step waits -
  rcases waits.step callback step with rests | still
  · exact .inl rests
  · refine .inr ⟨still, ?_⟩
    dsimp only
    cases thread : step.isThread with
    | false =>
        rw [waits.point callback thread]
        simp [thread]
    | true =>
        cases step with
        | thread succeeds env =>
            exact (threadStep_takes callback succeeds env system).remaining waits.told.1
              waits.told.2
        | _ => cases thread

/-- A stop that waits while the thread has ended. -/
theorem Waits.stopped (waits : Waits system) (ended : system.point = .ended) :
    system.threadState = .stopped := by
  have linked := waits.1.linked
  unfold Linked at linked
  rcases waits.cases with ⟨status, call⟩ | ⟨status, call⟩
  · rw [call] at linked
    rcases linked.1 with ⟨state, ⟨-, -, going⟩ | stopped⟩
    · exact absurd ended going
    · exact stopped.1
  · rw [call] at linked
    exact linked.1

/-- The stop sees that the thread has ended, and returns. -/
theorem lowers_last (callback : ClockCallback κ) :
    (ptpThread callback).Lowers (fun _ => True)
      (fun system => Waits system ∧ system.point = .ended) AtRest
      (fun system => system.call.last) SystemStep.isCall := by
  rintro system step ⟨waits, ended⟩ -
  rcases waits.step callback step with rests | still
  · exact .inl rests
  · refine .inr ⟨⟨still, ?_⟩, ?_⟩
    · cases thread : step.isThread with
      | false => rw [waits.point callback thread, ended]
      | true =>
          cases step with
          | thread succeeds env =>
              change (threadStep callback succeeds env system).2.point = .ended
              unfold threadStep
              rw [ended]
              exact ended
          | _ => cases thread
    · dsimp only
      cases call : step.isCall with
      | false =>
          rw [call_eq callback waits.2.1.busy call]
          simp [call]
      | true =>
          cases step with
          | call succeeds msw lsw =>
              change (callStep callback succeeds msw lsw system).2.call.last ≤ system.call.last - 1
              unfold callStep
              rcases waits.cases with ⟨status, call⟩ | ⟨status, call⟩
              · rw [call]
                dsimp only
                rw [if_pos (waits.stopped ended)]
                exact Nat.le_refl 1
              · rw [call]
                exact Nat.le_refl 0
          | _ => cases call

/-! ## The stop event -/

/-- `tx_event_flags_get` does not fail. -/
def SystemStep.Gets : SystemStep κ → Prop
  | .thread succeeds _ => succeeds = true
  | _ => True

/-- The stop event is set only for a stop that waits for the thread, and the thread leaves
its loop only for such a stop. -/
structure Obeys (system : PtpSystem κ) : Prop where
  stop : system.events.stop = true → (∃ status, system.call = .wait status) ∧
    system.threadState = .stopping ∧ system.point ≠ .leaving
  left : system.point = .leaving ∨ system.threadState = .stopped →
    (∃ status, system.call = .wait status) ∨ ∃ status, system.call = .setIdle status

/-- A step in the loop that takes no stop event. -/
theorem Obeys.inside {after : PtpSystem κ} (obeys : Obeys system) (call : after.call = system.call)
    (threadState : after.threadState = system.threadState)
    (stop : after.events.stop = true → system.events.stop = true)
    (point : after.point = .leaving → system.point = .leaving) : Obeys after where
  stop set := by
    rcases obeys.stop (stop set) with ⟨waits, stopping, inside⟩
    rw [call, threadState]
    exact ⟨waits, stopping, fun left => inside (point left)⟩
  left left := by
    rw [threadState] at left
    rw [call]
    exact obeys.left (left.imp_left point)

theorem ThreadTakes.obeys {result : PtpReply κ × PtpSystem κ}
    (takes : ThreadTakes callback true env system result) (obeys : Obeys system) :
    Obeys result.2 := by
  cases takes with
  | ended | sleeps => exact obeys
  | fails _ failed => cases failed
  | stops _ stop => exact ⟨nofun, fun _ => .inl (obeys.stop stop).1⟩
  | enters | handlesEvent | turns | handlesGeneral | waits | ticksLater =>
      exact obeys.inside rfl rfl id nofun
  | wakes | ticks => exact obeys.inside rfl rfl nofun nofun
  | leaves point =>
      exact ⟨fun set => absurd point (obeys.stop set).2.2, fun _ => obeys.left (.inl point)⟩

/-- A client that is not in a stop is not told to stop, and its thread is in its loop. -/
theorem Obeys.apart (obeys : Obeys system) (apart : ∀ status, system.call ≠ .wait status ∧
    system.call ≠ .setIdle status) :
    system.events.stop ≠ true ∧ system.point ≠ .leaving ∧ system.threadState ≠ .stopped := by
  have other :
      ¬((∃ status, system.call = .wait status) ∨ ∃ status, system.call = .setIdle status) := by
    rintro (⟨status, waits⟩ | ⟨status, sets⟩)
    · exact (apart status).1 waits
    · exact (apart status).2 sets
  exact ⟨fun set => other (.inl (obeys.stop set).1), fun left => other (obeys.left (.inl left)),
    fun stopped => other (obeys.left (.inr stopped))⟩

/-- A client that is told nothing, with its thread in its loop. -/
theorem obeys_of_apart {after : PtpSystem κ} (stop : after.events.stop ≠ true)
    (point : after.point ≠ .leaving) (threadState : after.threadState ≠ .stopped) :
    Obeys after where
  stop set := absurd set stop
  left left := absurd left (not_or.mpr ⟨point, threadState⟩)

theorem obeys_beginStop (refused status : PtpStatus) (stop : system.events.stop ≠ true)
    (point : system.point ≠ .leaving) (threadState : system.threadState ≠ .stopped) :
    Obeys (system.beginStop refused status).2 := by
  unfold PtpSystem.beginStop
  split
  · exact obeys_of_apart stop point nofun
  · rename_i stopped
    exact absurd stopped threadState
  · exact obeys_of_apart stop point threadState
  · exact obeys_of_apart stop point threadState

theorem obeys_call (obeys : Obeys system) (linked : Linked system) :
    Obeys (callStep callback succeeds msw lsw system).2 := by
  have apart := obeys.apart
  unfold Linked at linked
  unfold callStep
  cases call : system.call with
  | outside => exact obeys
  | configure parameters =>
      rcases apart (by rw [call]; exact fun _ => ⟨nofun, nofun⟩) with ⟨stop, -, stopped⟩
      dsimp only
      split
      · exact obeys_of_apart stop nofun stopped
      · exact obeys_of_apart stop nofun nofun
  | resume portIdentity =>
      rcases apart (by rw [call]; exact fun _ => ⟨nofun, nofun⟩) with ⟨stop, -, stopped⟩
      exact obeys_of_apart stop nofun stopped
  | identify portIdentity =>
      rcases apart (by rw [call]; exact fun _ => ⟨nofun, nofun⟩) with ⟨stop, point, stopped⟩
      cases portIdentity with
      | some portIdentity => exact obeys_of_apart stop point stopped
      | none =>
          dsimp only
          split
          · exact obeys_of_apart stop point stopped
          · exact obeys_beginStop .failed .failed stop point stopped
  | bindGeneral | bindEvent | join | activate =>
      rcases apart (by rw [call]; exact fun _ => ⟨nofun, nofun⟩) with ⟨stop, point, stopped⟩
      dsimp only
      split
      · exact obeys_of_apart stop point stopped
      · exact obeys_beginStop .failed .failed stop point stopped
  | deactivate | unbindGeneral | unbindEvent =>
      rcases apart (by rw [call]; exact fun _ => ⟨nofun, nofun⟩) with ⟨stop, point, stopped⟩
      exact obeys_of_apart stop point stopped
  | setStop frame =>
      rcases apart (by rw [call]; exact fun _ => ⟨nofun, nofun⟩) with ⟨-, point, stopped⟩
      rw [call] at linked
      rcases linked.1 with ⟨other, stopping, -⟩ | ended
      · dsimp only
        rw [if_neg other]
        exact ⟨fun _ => ⟨⟨frame.status, rfl⟩, stopping, point⟩, fun _ => .inl ⟨frame.status, rfl⟩⟩
      · exact absurd ended.1 stopped
  | wait status =>
      dsimp only
      split
      · rename_i stopped
        refine ⟨fun set => ?_, fun _ => .inr ⟨status, rfl⟩⟩
        cases (obeys.stop set).2.1.symm.trans stopped
      · exact obeys
  | setIdle status =>
      rw [call] at linked
      refine obeys_of_apart (fun set => ?_) (fun leaving => ?_) nofun
      · rcases (obeys.stop set).1 with ⟨other, waits⟩
        cases call.symm.trans waits
      · cases linked.2.1.symm.trans leaving

theorem obeys_step (callback : ClockCallback κ) {step : SystemStep κ} (gets : step.Gets)
    (obeys : Obeys system) (linked : Linked system) :
    Obeys (ptpThread callback system step).2 := by
  unfold ptpThread
  cases step with
  | thread succeeds env =>
      cases gets
      exact (threadStep_takes callback true env system).obeys obeys
  | call => exact obeys_call obeys linked
  | receive socket packet =>
      dsimp only
      unfold PtpSystem.receive
      split
      · exact obeys.inside rfl rfl id id
      · exact obeys
  | receiveNotify | timerHandler | timerSet =>
      dsimp only
      split
      · exact obeys.inside rfl rfl id id
      · exact obeys
  | notify | clock => exact obeys.inside rfl rfl id id
  | start parameters =>
      dsimp only
      split
      · rename_i outside
        rcases obeys.apart (by rw [outside]; exact fun _ => ⟨nofun, nofun⟩) with
          ⟨stop, point, stopped⟩
        unfold PtpSystem.beginStart
        split
        · exact obeys_of_apart stop point nofun
        · exact obeys_of_apart stop point stopped
      · exact obeys
  | stop =>
      dsimp only
      split
      · rename_i outside
        rcases obeys.apart (by rw [outside]; exact fun _ => ⟨nofun, nofun⟩) with
          ⟨stop, point, stopped⟩
        exact obeys_beginStop .notStarted .success stop point stopped
      · exact obeys

/-- As long as `tx_event_flags_get` does not fail, an idle client is not told to stop. -/
theorem idle_unstopped (callback : ClockCallback κ) (client : PtpClient κ)
    {steps : List (SystemStep κ)} (gets : ∀ step ∈ steps, step.Gets)
    (idle : ((ptpThread callback).final (.created client) steps).threadState = .idle) :
    ((ptpThread callback).final (.created client) steps).events.stop = false := by
  have keeps (system : PtpSystem κ) (step : SystemStep κ) (gets : step.Gets)
      (held : Obeys system ∧ Linked system) :
      Obeys (ptpThread callback system step).2 ∧ Linked (ptpThread callback system step).2 :=
    ⟨obeys_step callback gets held.1 held.2, linked_step callback system step held.2⟩
  have created : Obeys (.created client) := obeys_of_apart nofun nofun nofun
  rcases Machine.final_of_guarded keeps ⟨created, linked_run callback client []⟩ gets with
    ⟨obeys, -⟩
  refine eq_false_of_ne_true fun set => ?_
  cases idle.symm.trans (obeys.stop set).2.1

theorem PtpCall.InStop.ahead_le {call : PtpCall} (inside : call.InStop) : call.ahead ≤ 4 := by
  cases call with
  | deactivate | unbindGeneral | unbindEvent | setStop | wait | setIdle =>
      exact Nat.le_of_ble_eq_true rfl
  | outside | configure | resume | identify | bindGeneral | bindEvent | join | activate =>
      exact absurd inside id

theorem Waits.last_pos (waits : Waits system) : 0 < system.call.last ∧ system.call.last ≤ 2 := by
  rcases waits.cases with ⟨status, call⟩ | ⟨status, call⟩
  · rw [call]
    exact ⟨Nat.succ_pos 1, Nat.le_refl 2⟩
  · rw [call]
    exact ⟨Nat.succ_pos 0, Nat.le_succ 1⟩

theorem ended_of_remaining (none : system.point.remaining = 0) : system.point = .ended := by
  cases point : system.point with
  | ended => rfl
  | entry | waiting | receivingEvent | receivingGeneral | leaving =>
      rw [point] at none
      cases none

/-- A stop reaches a client at rest. -/
theorem stop_reaches (callback : ClockCallback κ) (sound : Sound system)
    (begun : system.call.InStop) {first middle last : List (SystemStep κ)}
    (sets : 4 ≤ first.countP SystemStep.isCall) (takes : 4 ≤ middle.countP SystemStep.isThread)
    (sees : 2 ≤ last.countP SystemStep.isCall) :
    (ptpThread callback).Reaches AtRest system (first ++ middle ++ last) := by
  have all (steps : List (SystemStep κ)) : ∀ step ∈ steps, True := fun _ _ => trivial
  rcases (lowers_ahead callback).run ⟨sound, begun⟩ (all first)
    (Nat.le_trans begun.ahead_le sets) with rests | ⟨⟨sound, inside⟩, done⟩
  · exact (rests.append_right middle).append_right last
  · have waits : Waits _ := ⟨sound, inside, done⟩
    rcases (lowers_remaining callback).run waits (all middle)
      (Nat.le_trans (ThreadPoint.remaining_le _) takes) with rests | ⟨waits, done⟩
    · exact (Machine.reaches_append rests).append_right last
    · rw [← Machine.final_append] at waits done
      rcases (lowers_last callback).run ⟨waits, ended_of_remaining done⟩ (all last)
        (Nat.le_trans waits.last_pos.2 sees) with rests | ⟨⟨waits, -⟩, done⟩
      · exact Machine.reaches_append rests
      · exact absurd done (Nat.ne_of_gt waits.last_pos.1)

/-- A stop that has begun, whether the application or a failed start called it, returns once
the application's thread has made four steps, then the client's four, then the application's
two, whatever runs between them: the client is then at rest, and unless `tx_event_flags_get`
has failed, its next start finds no request to stop. -/
theorem ptp_stop_returns (callback : ClockCallback κ) (client : PtpClient κ)
    {steps first middle last : List (SystemStep κ)}
    (begun : ((ptpThread callback).final (.created client) steps).call.InStop)
    (sets : 4 ≤ first.countP SystemStep.isCall) (takes : 4 ≤ middle.countP SystemStep.isThread)
    (sees : 2 ≤ last.countP SystemStep.isCall) :
    ∃ before after, first ++ middle ++ last = before ++ after ∧
      let system := (ptpThread callback).final (.created client) (steps ++ before)
      AtRest system ∧ ((∀ step ∈ steps ++ before, step.Gets) → system.events.stop = false) := by
  rcases stop_reaches callback (sound_run callback client steps) begun sets takes sees with
    ⟨before, after, split, rests⟩
  rw [← Machine.final_append] at rests
  exact ⟨before, after, split, rests,
    fun gets => idle_unstopped callback client gets rests.threadState⟩

end

/-- A stop that is called while the thread is to begin. -/
theorem ptp_stop_returns_early :
    let machine := ptpThread nxPtpClientSoftClockCallback
    let steps := startingSteps.dropLast ++ [.stop]
    let more := List.replicate 4 (.call true 0 0) ++ List.replicate 4 (.thread true sendingEnv) ++
      List.replicate 2 (.call true 0 0)
    ∃ before after, more = before ++ after ∧
      let system := machine.final (.created (createdClient ⟨0, 9, 0⟩)) (steps ++ before)
      AtRest system ∧ ((∀ step ∈ steps ++ before, step.Gets) → system.events.stop = false) :=
  ptp_stop_returns nxPtpClientSoftClockCallback (createdClient ⟨0, 9, 0⟩) trivial (by decide)
    (by decide) (by decide)

end EmbeddedBase.NetX
