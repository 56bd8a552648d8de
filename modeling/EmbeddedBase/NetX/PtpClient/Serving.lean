import EmbeddedBase.NetX.PtpClient.Sockets
import EmbeddedBase.Transition.Progress

/-!
# The packets that the PTP client's thread handles

In every interleaving of the threads the client is where the notes of the run bring it, and
each socket's packets leave it once and in their order.  When the packets that are queued
have been notified, the thread handles them all, whatever else runs between its steps.
-/

namespace EmbeddedBase.NetX

open EmbeddedBase.Transition

section

variable {κ : Type} {callback : ClockCallback κ} {system : PtpSystem κ} {succeeds : Bool}
  {env : PtpEnv κ} {msw lsw : BitVec 32} {socket : PtpSocket}

/-! ## Being woken -/

/-- The receive event is set, or a notification that will set it is to come. -/
def Notified (system : PtpSystem κ) : Prop :=
  system.events.rx = true ∨ 0 < system.unnotified

/-- A thread that is not about to receive the packets of a socket will be woken for them. -/
def Woken (system : PtpSystem κ) : Prop :=
  match system.point with
  | .entry | .waiting => ∀ socket, system.queue socket ≠ [] → Notified system
  | .receivingGeneral _ => system.queue .event ≠ [] → Notified system
  | .ended | .receivingEvent _ | .leaving => True

/-- Only bound sockets hold packets, and the thread will be woken for them. -/
structure Sound (system : PtpSystem κ) : Prop where
  linked : Linked system
  unbound : ∀ socket, system.bound socket = false → system.queue socket = []
  woken : Woken system

/-- Nothing has been queued, and nothing that was notified is forgotten. -/
theorem Woken.mono {after : PtpSystem κ} (woken : Woken system)
    (point : after.point = system.point)
    (queue : ∀ socket, after.queue socket ≠ [] → system.queue socket ≠ [])
    (notified : Notified system → Notified after) : Woken after := by
  unfold Woken at woken ⊢
  rw [point]
  split at woken
  · exact fun socket queued => notified (woken socket (queue socket queued))
  · exact fun socket queued => notified (woken socket (queue socket queued))
  · exact fun queued => notified (woken (queue .event queued))
  · trivial
  · trivial
  · trivial

theorem Woken.of_notified (notified : Notified system) : Woken system := by
  unfold Woken
  split
  · exact fun _ _ => notified
  · exact fun _ _ => notified
  · exact fun _ => notified
  · trivial
  · trivial
  · trivial

/-- A thread takes packets only from bound sockets. -/
theorem ThreadTakes.unbound {result : PtpReply κ × PtpSystem κ}
    (takes : ThreadTakes callback succeeds env system result)
    (unbound : ∀ socket, system.bound socket = false → system.queue socket = [])
    (socket : PtpSocket) (free : result.2.bound socket = false) : result.2.queue socket = [] := by
  rw [takes.moves.bound] at free
  have empty := unbound socket free
  have taken {other : PtpSocket} {packet : PtpPacket} {queue : List PtpPacket}
      (front : system.queue other = packet :: queue) :
      Function.update system.queue other queue socket = [] := by
    rw [Function.update_of_ne, empty]
    rintro rfl
    cases front.symm.trans empty
  cases takes with
  | handlesEvent _ front | handlesGeneral _ front => exact taken front
  | _ => exact empty

/-- A thread that waits again has found the sockets empty, or will be woken. -/
theorem ThreadTakes.woken {result : PtpReply κ × PtpSystem κ}
    (takes : ThreadTakes callback succeeds env system result) (woken : Woken system) :
    Woken result.2 := by
  cases takes with
  | ended | sleeps => exact woken
  | fails | stops | wakes | handlesEvent | handlesGeneral | leaves => trivial
  | enters point =>
      unfold Woken at woken
      rw [point] at woken
      exact woken
  | ticks point stop rx =>
      unfold Woken at woken
      rw [point] at woken
      have unset : ¬system.events.rx = true := by
        rw [rx]
        decide
      exact fun socket queued => .inr ((woken socket queued).resolve_left unset)
  | turns point empty => exact fun queued => absurd empty queued
  | waits point empty | ticksLater point empty =>
      unfold Woken at woken
      rw [point] at woken
      intro socket queued
      cases socket with
      | event => exact woken queued
      | general => exact absurd empty queued

/-- What the threads beside the client's and the IP thread do to the sockets, to where the
client's thread is, and to what wakes it. -/
structure Beside (system after : PtpSystem κ) : Prop where
  queue : ∀ socket, after.queue socket = [] ∨ after.queue socket = system.queue socket ∧
    (after.bound socket = false → system.bound socket = false)
  point : after.point = system.point ∨ after.point = .ended ∨
    ∃ portIdentity, system.call = .resume portIdentity
  notified : Notified system → Notified after

/-- The sockets and the thread are left alone. -/
theorem beside_same {after : PtpSystem κ} (queue : after.queue = system.queue)
    (bound : after.bound = system.bound) (point : after.point = system.point)
    (notified : Notified system → Notified after) : Beside system after where
  queue socket := .inr ⟨congrFun queue socket, fun free => bound ▸ free⟩
  point := .inl point
  notified := notified

theorem beginStop_beside (system : PtpSystem κ) (refused status : PtpStatus) :
    Beside system (system.beginStop refused status).2 := by
  unfold PtpSystem.beginStop
  split
  · exact beside_same rfl rfl rfl id
  · exact beside_same rfl rfl rfl id
  · exact beside_same rfl rfl rfl id
  · exact beside_same rfl rfl rfl id

theorem bind_beside {after : PtpSystem κ} (other : PtpSocket) (queue : after.queue = system.queue)
    (bound : after.bound = Function.update system.bound other true)
    (point : after.point = system.point) (notified : Notified system → Notified after) :
    Beside system after where
  queue socket := by
    refine .inr ⟨congrFun queue socket, fun free => ?_⟩
    rw [bound] at free
    by_cases same : socket = other
    · rw [same, Function.update_self] at free
      cases free
    · rwa [Function.update_of_ne same] at free
  point := .inl point
  notified := notified

theorem unbind_beside {after : PtpSystem κ} (other : PtpSocket)
    (queue : after.queue = Function.update system.queue other [])
    (bound : after.bound = Function.update system.bound other false)
    (point : after.point = system.point) (notified : Notified system → Notified after) :
    Beside system after where
  queue socket := by
    rw [queue, bound]
    by_cases same : socket = other
    · rw [same, Function.update_self]
      exact .inl rfl
    · rw [Function.update_of_ne same, Function.update_of_ne same]
      exact .inr ⟨rfl, id⟩
  point := .inl point
  notified := notified

theorem call_beside (callback : ClockCallback κ) (succeeds : Bool) (msw lsw : BitVec 32)
    (system : PtpSystem κ) :
    Beside system (callStep callback succeeds msw lsw system).2 := by
  unfold callStep
  cases call : system.call with
  | outside | deactivate | setStop | setIdle => exact beside_same rfl rfl rfl id
  | configure parameters =>
      dsimp only
      split
      · exact ⟨fun _ => .inr ⟨rfl, id⟩, .inr (.inl rfl), id⟩
      · exact ⟨fun _ => .inr ⟨rfl, id⟩, .inr (.inl rfl), id⟩
  | resume portIdentity => exact ⟨fun _ => .inr ⟨rfl, id⟩, .inr (.inr ⟨portIdentity, call⟩), id⟩
  | identify portIdentity =>
      cases portIdentity with
      | some portIdentity => exact beside_same rfl rfl rfl id
      | none =>
          dsimp only
          split
          · exact beside_same rfl rfl rfl id
          · exact beginStop_beside system .failed .failed
  | bindGeneral =>
      dsimp only
      split
      · exact bind_beside .general rfl rfl rfl id
      · exact beginStop_beside system .failed .failed
  | bindEvent =>
      dsimp only
      split
      · exact bind_beside .event rfl rfl rfl id
      · exact beginStop_beside system .failed .failed
  | join | activate =>
      dsimp only
      split
      · exact beside_same rfl rfl rfl id
      · exact beginStop_beside system .failed .failed
  | unbindGeneral => exact unbind_beside .general rfl rfl rfl id
  | unbindEvent => exact unbind_beside .event rfl rfl rfl id
  | wait status =>
      dsimp only
      split
      · exact beside_same rfl rfl rfl id
      · exact beside_same rfl rfl rfl id

theorem Beside.unbound {after : PtpSystem κ} (moves : Beside system after)
    (unbound : ∀ socket, system.bound socket = false → system.queue socket = [])
    (socket : PtpSocket) (free : after.bound socket = false) : after.queue socket = [] := by
  rcases moves.queue socket with empty | ⟨same, before⟩
  · exact empty
  · rw [same]
    exact unbound socket (before free)

theorem Beside.woken {after : PtpSystem κ} (moves : Beside system after)
    (sound : Sound system) : Woken after := by
  have queued (socket : PtpSocket) (some : after.queue socket ≠ []) : system.queue socket ≠ [] := by
    rcases moves.queue socket with empty | ⟨same, -⟩
    · exact absurd empty some
    · rwa [← same]
  rcases moves.point with same | ended | ⟨portIdentity, resume⟩
  · exact sound.woken.mono same queued moves.notified
  · unfold Woken
    rw [ended]
    trivial
  · have empty (socket : PtpSocket) : after.queue socket = [] := by
      have linked := sound.linked
      unfold Linked at linked
      rw [resume] at linked
      by_contra some
      exact queued socket some (sound.unbound socket (linked.2.2 socket))
    unfold Woken
    split
    · exact fun socket some => absurd (empty socket) some
    · exact fun socket some => absurd (empty socket) some
    · exact fun some => absurd (empty .event) some
    · trivial
    · trivial
    · trivial

theorem Beside.sound {after : PtpSystem κ} (moves : Beside system after)
    (sound : Sound system) (linked : Linked after) : Sound after :=
  ⟨linked, moves.unbound sound.unbound, moves.woken sound⟩

theorem receive_sound (sound : Sound system) {socket : PtpSocket} {packet : PtpPacket}
    (linked : Linked (system.receive socket packet).2) :
    Sound (system.receive socket packet).2 := by
  unfold PtpSystem.receive at *
  by_cases bound : system.bound socket
  · rw [if_pos bound] at *
    refine ⟨linked, fun other free => ?_, Woken.of_notified (.inr (Nat.succ_pos _))⟩
    dsimp only at *
    have different : other ≠ socket := by
      rintro rfl
      cases bound.symm.trans free
    rw [Function.update_of_ne different]
    exact sound.unbound other free
  · rw [if_neg bound]
    exact sound

theorem sound_step (callback : ClockCallback κ) (system : PtpSystem κ) (step : SystemStep κ)
    (sound : Sound system) : Sound (ptpThread callback system step).2 := by
  have linked := linked_step callback system step sound.linked
  have beside (moves : Beside system (ptpThread callback system step).2) :
      Sound (ptpThread callback system step).2 := moves.sound sound linked
  cases step with
  | receive socket packet => exact receive_sound sound linked
  | thread succeeds env =>
      have takes := threadStep_takes callback succeeds env system
      exact ⟨linked, takes.unbound sound.unbound, takes.woken sound.woken⟩
  | receiveNotify =>
      apply beside
      unfold ptpThread
      dsimp only
      split
      · exact beside_same rfl rfl rfl fun _ => .inl rfl
      · exact beside_same rfl rfl rfl id
  | timerHandler | timerSet =>
      apply beside
      unfold ptpThread
      dsimp only
      split
      · exact beside_same rfl rfl rfl id
      · exact beside_same rfl rfl rfl id
  | notify | clock => exact beside (beside_same rfl rfl rfl id)
  | start parameters =>
      apply beside
      unfold ptpThread PtpSystem.beginStart
      dsimp only
      split
      · split
        · exact beside_same rfl rfl rfl id
        · exact beside_same rfl rfl rfl id
      · exact beside_same rfl rfl rfl id
  | stop =>
      apply beside
      unfold ptpThread
      dsimp only
      split
      · exact beginStop_beside system .notStarted .success
      · exact beside_same rfl rfl rfl id
  | call succeeds msw lsw => exact beside (call_beside callback succeeds msw lsw system)

theorem sound_run (callback : ClockCallback κ) (client : PtpClient κ)
    (steps : List (SystemStep κ)) :
    Sound ((ptpThread callback).final (.created client) steps) :=
  Machine.final_of_keeps (sound_step callback)
    (show Sound (.created client) from ⟨linked_run callback client [], fun _ _ => rfl, trivial⟩)
    steps

/-! ## Serving -/

/-- No packet arrives, the application does nothing, and `tx_event_flags_get` does not fail. -/
def SystemStep.Undisturbed : SystemStep κ → Prop
  | .receive _ _ | .start _ | .stop | .call _ _ _ => False
  | .thread succeeds _ => succeeds = true
  | .receiveNotify | .timerHandler _ | .timerSet | .notify _ _ | .clock _ => True

def SystemStep.isThread : SystemStep κ → Bool
  | .thread _ _ => true
  | _ => false

/-- The thread is at work, is not told to stop, and all queued packets were notified. -/
structure Serves (system : PtpSystem κ) : Prop where
  started : system.point ≠ .ended
  going : system.point ≠ .leaving
  stop : system.events.stop = false
  notified : system.unnotified = 0

/-- The sockets are empty. -/
def Emptied (system : PtpSystem κ) : Prop :=
  ∀ socket, system.queue socket = []

/-- The steps of the thread until it has handled what is queued. -/
def PtpSystem.work (system : PtpSystem κ) : Nat :=
  let events := (system.queue .event).length
  let generals := (system.queue .general).length
  match system.point with
  | .ended | .leaving => 0
  | .entry => events + 2 * generals + 2
  | .waiting => events + 2 * generals + 1
  | .receivingEvent _ => events + 2 * generals
  | .receivingGeneral _ => if generals = 0 then events + 2 else events + 2 * generals - 1

theorem work_le (system : PtpSystem κ) :
    system.work ≤ (system.queue .event).length + 2 * (system.queue .general).length + 2 := by
  unfold PtpSystem.work
  dsimp only
  split
  · exact Nat.zero_le _
  · exact Nat.zero_le _
  · exact Nat.le_refl _
  · omega
  · omega
  · split <;> omega

theorem emptied_iff : Emptied system ↔
    (system.queue .event).length = 0 ∧ (system.queue .general).length = 0 := by
  constructor
  · intro emptied
    rw [emptied, emptied]
    exact ⟨rfl, rfl⟩
  · rintro ⟨event, general⟩ socket
    cases socket with
    | event => exact List.length_eq_zero_iff.mp event
    | general => exact List.length_eq_zero_iff.mp general

/-- A thread that serves and has no work left has emptied the sockets. -/
theorem Serves.emptied (serves : Serves system) (done : system.work = 0) : Emptied system := by
  unfold PtpSystem.work at done
  dsimp only at done
  cases point : system.point with
  | ended => exact absurd point serves.started
  | leaving => exact absurd point serves.going
  | entry | waiting =>
      rw [point] at done
      cases done
  | receivingEvent timer =>
      rw [point] at done
      dsimp only at done
      exact emptied_iff.mpr (by omega)
  | receivingGeneral timer =>
      rw [point] at done
      dsimp only at done
      split at done <;> omega

theorem ThreadTakes.emptied {result : PtpReply κ × PtpSystem κ}
    (takes : ThreadTakes callback succeeds env system result) (emptied : Emptied system) :
    Emptied result.2 := by
  cases takes with
  | handlesEvent _ front | handlesGeneral _ front => cases front.symm.trans (emptied _)
  | _ => exact emptied

/-- A thread that waits while packets are queued, all of them notified, is woken. -/
theorem Serves.rx (serves : Serves system) (woken : Woken system)
    (waiting : system.point = .waiting) (queued : ¬Emptied system) : system.events.rx = true := by
  unfold Woken at woken
  rw [waiting] at woken
  rcases not_forall.mp queued with ⟨socket, some⟩
  refine (woken socket some).resolve_right ?_
  rw [serves.notified]
  exact Nat.lt_irrefl 0

/-- A step of the thread takes one off its work, or none is left. -/
theorem ThreadTakes.serves {result : PtpReply κ × PtpSystem κ}
    (takes : ThreadTakes callback true env system result) (serves : Serves system)
    (woken : Woken system) :
    Emptied result.2 ∨ (Serves result.2 ∧ result.2.work ≤ system.work - 1) := by
  by_cases emptied : Emptied system
  · exact .inl (takes.emptied emptied)
  · right
    have wakes (waiting : system.point = .waiting) : system.events.rx = true :=
      serves.rx woken waiting emptied
    have queued := mt emptied_iff.mpr emptied
    rcases serves with ⟨started, going, stop, notified⟩
    cases takes with
    | ended point => exact absurd point started
    | leaves point => exact absurd point going
    | fails _ failed => cases failed
    | stops _ set => cases stop.symm.trans set
    | sleeps point unset => cases (wakes point).symm.trans unset
    | ticks point _ unset => cases (wakes point).symm.trans unset
    | enters point =>
        refine ⟨⟨nofun, nofun, stop, notified⟩, ?_⟩
        unfold PtpSystem.work
        rw [point]
        exact Nat.le_refl _
    | wakes point =>
        refine ⟨⟨nofun, nofun, rfl, notified⟩, ?_⟩
        unfold PtpSystem.work
        rw [point]
        exact Nat.le_refl _
    | handlesEvent point front =>
        refine ⟨⟨nofun, nofun, stop, notified⟩, ?_⟩
        unfold PtpSystem.work
        rw [point]
        dsimp only [PtpSystem.handle]
        rw [Function.update_self, Function.update_of_ne (by decide), front, List.length_cons]
        omega
    | turns point empty =>
        refine ⟨⟨nofun, nofun, stop, notified⟩, ?_⟩
        unfold PtpSystem.work
        rw [point]
        dsimp only
        rw [empty] at queued ⊢
        have some : (system.queue .general).length ≠ 0 := fun none => queued ⟨rfl, none⟩
        rw [if_neg some]
    | handlesGeneral point front =>
        refine ⟨⟨nofun, nofun, stop, notified⟩, ?_⟩
        unfold PtpSystem.work
        rw [point]
        dsimp only [PtpSystem.handle]
        rw [Function.update_self, Function.update_of_ne (by decide), front, List.length_cons,
          if_neg (Nat.succ_ne_zero _)]
        omega
    | waits point empty | ticksLater point empty =>
        refine ⟨⟨nofun, nofun, stop, notified⟩, ?_⟩
        unfold PtpSystem.work
        rw [point]
        dsimp only [PtpSystem.handle]
        rw [empty]
        simp

/-- An undisturbed step of another thread leaves the sockets, where the thread is and the
stop event alone. -/
theorem undisturbed_beside (callback : ClockCallback κ) (system : PtpSystem κ)
    {step : SystemStep κ} (undisturbed : step.Undisturbed) (other : step.isThread = false) :
    let after := (ptpThread callback system step).2
    after.queue = system.queue ∧ after.point = system.point ∧
      after.events.stop = system.events.stop ∧ after.unnotified ≤ system.unnotified := by
  unfold ptpThread
  cases step with
  | receive | start | stop | call => exact absurd undisturbed id
  | thread => cases other
  | receiveNotify =>
      dsimp only
      split
      · exact ⟨rfl, rfl, rfl, Nat.sub_le _ 1⟩
      · exact ⟨rfl, rfl, rfl, Nat.le_refl _⟩
  | timerHandler | timerSet =>
      dsimp only
      split
      · exact ⟨rfl, rfl, rfl, Nat.le_refl _⟩
      · exact ⟨rfl, rfl, rfl, Nat.le_refl _⟩
  | notify | clock => exact ⟨rfl, rfl, rfl, Nat.le_refl _⟩

theorem work_congr {after : PtpSystem κ} (queue : after.queue = system.queue)
    (point : after.point = system.point) : after.work = system.work := by
  unfold PtpSystem.work
  rw [queue, point]

/-- Until the sockets are empty, no undisturbed step adds work, and the thread's take some
off. -/
theorem lowers_work (callback : ClockCallback κ) :
    (ptpThread callback).Lowers SystemStep.Undisturbed
      (fun system => Serves system ∧ Sound system) Emptied PtpSystem.work SystemStep.isThread := by
  rintro system step ⟨serves, sound⟩ undisturbed
  have still := sound_step callback system step sound
  cases thread : step.isThread with
  | true =>
      cases step with
      | thread succeeds env =>
          cases undisturbed
          have takes := threadStep_takes callback true env system
          rcases takes.serves serves sound.woken with emptied | ⟨serves, less⟩
          · exact .inl emptied
          · exact .inr ⟨⟨serves, still⟩, less⟩
      | _ => cases thread
  | false =>
      rcases undisturbed_beside callback system undisturbed thread with
        ⟨queue, point, stop, notified⟩
      refine .inr ⟨⟨⟨?_, ?_, ?_, ?_⟩, still⟩, ?_⟩
      · rw [point]
        exact serves.started
      · rw [point]
        exact serves.going
      · rw [stop]
        exact serves.stop
      · rw [serves.notified] at notified
        exact Nat.le_zero.mp notified
      · rw [work_congr queue point]
        exact Nat.le_of_eq (by simp [thread])

theorem undisturbed_emptied (callback : ClockCallback κ) (system : PtpSystem κ)
    (step : SystemStep κ) (undisturbed : step.Undisturbed) (emptied : Emptied system) :
    Emptied (ptpThread callback system step).2 := by
  cases thread : step.isThread with
  | true =>
      cases step with
      | thread succeeds env =>
          exact (threadStep_takes callback succeeds env system).emptied emptied
      | _ => cases thread
  | false =>
      have queue := (undisturbed_beside callback system undisturbed thread).1
      intro socket
      rw [queue]
      exact emptied socket

/-- As many steps of the thread as its work empty the sockets. -/
theorem serves_run (callback : ClockCallback κ) (serves : Serves system) (sound : Sound system)
    {steps : List (SystemStep κ)} (undisturbed : ∀ step ∈ steps, step.Undisturbed)
    (enough : system.work ≤ steps.countP SystemStep.isThread) :
    Emptied ((ptpThread callback).final system steps) := by
  rcases (lowers_work callback).run ⟨serves, sound⟩ undisturbed enough with
    ⟨before, after, rfl, emptied⟩ | ⟨⟨serves, -⟩, done⟩
  · rw [Machine.final_append]
    exact Machine.final_of_guarded (undisturbed_emptied callback) emptied
      fun step member => undisturbed step (List.mem_append_right before member)
  · exact serves.emptied done

/-! ## What the notes are -/

/-- The note is not about a packet. -/
def PtpNote.Quiet : PtpNote κ → Prop
  | .queued _ _ | .dropped _ _ | .flushed _ _ | .handled _ _ _ => False
  | _ => True

/-- The note is of a packet that is handled. -/
def PtpNote.IsHandled (note : PtpNote κ) : Prop :=
  ∃ socket packet env, note = .handled socket packet env

/-- The note is of a packet that an unbinding releases. -/
def PtpNote.IsFlushed (note : PtpNote κ) : Prop :=
  ∃ socket packet, note = .flushed socket packet

/-- All notes are quiet or have the property. -/
def PtpReply.Only (reply : PtpReply κ) (property : PtpNote κ → Prop) : Prop :=
  ∀ entry ∈ reply, entry.1.Quiet ∨ property entry.1

variable {property : PtpNote κ → Prop}

theorem only_nil : PtpReply.Only ([] : PtpReply κ) property :=
  fun _ member => absurd member List.not_mem_nil

theorem only_singleton {note : PtpNote κ} (holds : note.Quiet ∨ property note)
    (effects : List PtpEffect) : PtpReply.Only [(note, effects)] property := by
  intro entry member
  rw [List.mem_singleton.mp member]
  exact holds

theorem ThreadTakes.only {result : PtpReply κ × PtpSystem κ}
    (takes : ThreadTakes callback succeeds env system result) :
    PtpReply.Only result.1 PtpNote.IsHandled := by
  cases takes with
  | ended | fails | sleeps | stops | wakes | turns | waits | leaves => exact only_nil
  | enters | ticks | ticksLater => exact only_singleton (.inl (by trivial)) _
  | handlesEvent | handlesGeneral => exact only_singleton (.inr ⟨_, _, _, rfl⟩) _

theorem unbind_only (other : PtpSocket) :
    PtpReply.Only (system.unbind other).1 PtpNote.IsFlushed := by
  intro entry member
  rcases List.mem_map.mp member with ⟨packet, -, rfl⟩
  exact .inr ⟨other, packet, rfl⟩

theorem beginStop_only (refused status : PtpStatus) :
    PtpReply.Only (system.beginStop refused status).1 property := by
  unfold PtpSystem.beginStop
  split
  · exact only_nil
  · exact only_nil
  · exact only_singleton (.inl (by trivial)) []
  · exact only_singleton (.inl (by trivial)) []

theorem call_only :
    PtpReply.Only (callStep callback succeeds msw lsw system).1 PtpNote.IsFlushed := by
  unfold callStep
  cases call : system.call with
  | outside | resume | deactivate | setStop => exact only_nil
  | configure parameters =>
      dsimp only
      split
      · exact only_singleton (.inl (by trivial)) _
      · intro entry member
        rcases List.mem_append.mp member with configured | returned
        · exact only_singleton (.inl (by trivial)) _ entry configured
        · exact only_singleton (.inl (by trivial)) _ entry returned
  | identify portIdentity =>
      cases portIdentity with
      | some portIdentity => exact only_singleton (.inl (by trivial)) _
      | none =>
          dsimp only
          split
          · exact only_singleton (.inl (by trivial)) _
          · exact beginStop_only .failed .failed
  | bindGeneral | bindEvent | join =>
      dsimp only
      split
      · exact only_nil
      · exact beginStop_only .failed .failed
  | activate =>
      dsimp only
      split
      · exact only_singleton (.inl (by trivial)) []
      · exact beginStop_only .failed .failed
  | unbindGeneral => exact unbind_only .general
  | unbindEvent => exact unbind_only .event
  | wait status =>
      dsimp only
      split
      · exact only_nil
      · exact only_nil
  | setIdle => exact only_singleton (.inl (by trivial)) []

/-- Nothing but an arrival makes a packet enter a socket or be dropped from it, and in an
undisturbed step packets leave only by being handled. -/
theorem step_only (callback : ClockCallback κ) (system : PtpSystem κ) {step : SystemStep κ}
    (quiet : ∀ socket packet, step ≠ .receive socket packet) :
    PtpReply.Only (ptpThread callback system step).1 fun note =>
      note.IsHandled ∨ (note.IsFlushed ∧ ¬step.Undisturbed) := by
  unfold ptpThread
  cases step with
  | receive socket packet => exact absurd rfl (quiet socket packet)
  | thread succeeds env =>
      have only := (threadStep_takes callback succeeds env system).only
      exact fun entry member => (only entry member).imp_right .inl
  | call =>
      exact fun entry member => (call_only entry member).imp_right fun flushed => .inr ⟨flushed, id⟩
  | receiveNotify | timerSet =>
      dsimp only
      split
      · exact only_nil
      · exact only_nil
  | timerHandler =>
      dsimp only
      split
      · exact only_singleton (.inl (by trivial)) _
      · exact only_nil
  | notify | clock => exact only_singleton (.inl (by trivial)) _
  | start parameters =>
      dsimp only
      unfold PtpSystem.beginStart
      split
      · split
        · exact only_nil
        · exact only_singleton (.inl (by trivial)) _
      · exact only_nil
  | stop =>
      dsimp only
      split
      · exact beginStop_only .notStarted .success
      · exact only_nil

/-- Packets leave the socket only by being handled, and none enters. -/
def Handles (socket : PtpSocket) (reply : PtpReply κ) : Prop :=
  ∀ entry ∈ reply,
    entry.1.queuedTo socket = none ∧ entry.1.leftFrom socket = entry.1.handledFrom socket

theorem undisturbed_handles (callback : ClockCallback κ) (socket : PtpSocket)
    (system : PtpSystem κ) {step : SystemStep κ} (undisturbed : step.Undisturbed) :
    Handles socket (ptpThread callback system step).1 := by
  have quiet (other : PtpSocket) (packet : PtpPacket) : step ≠ .receive other packet := by
    rintro rfl
    exact undisturbed
  rintro ⟨note, effects⟩ member
  rcases step_only callback system quiet _ member with silent | handled | flushed
  · cases note with
    | queued | dropped | flushed | handled => exact absurd silent id
    | _ => exact ⟨rfl, rfl⟩
  · rcases handled with ⟨_, _, _, rfl⟩
    exact ⟨rfl, rfl⟩
  · exact absurd undisturbed flushed.2

theorem handles_run (callback : ClockCallback κ) (socket : PtpSocket) (system : PtpSystem κ)
    {steps : List (SystemStep κ)} (undisturbed : ∀ step ∈ steps, step.Undisturbed) :
    Handles socket ((ptpThread callback).replies system steps).flatten := by
  induction steps generalizing system with
  | nil => exact fun _ member => absurd member List.not_mem_nil
  | cons step steps ih =>
      intro entry member
      rcases List.mem_append.mp member with first | later
      · exact undisturbed_handles callback socket system (undisturbed step List.mem_cons_self)
          entry first
      · exact ih _ (fun other among => undisturbed other (List.mem_cons_of_mem step among)) entry
          later

/-- A socket drops a packet only when it holds as many as it may. -/
theorem dropped_full {socket : PtpSocket} {packet : PtpPacket} {effects : List PtpEffect}
    (within : (system.queue socket).length ≤ maxQueueDepth) {step : SystemStep κ}
    (dropped : (.dropped socket packet, effects) ∈ (ptpThread callback system step).1) :
    (system.queue socket).length = maxQueueDepth := by
  by_cases arrival : ∃ other message, step = .receive other message
  · rcases arrival with ⟨other, message, rfl⟩
    change _ ∈ (system.receive other message).1 at dropped
    unfold PtpSystem.receive at dropped
    split at dropped
    · rcases List.mem_append.mp dropped with released | queued
      · rcases List.mem_map.mp released with ⟨oldest, taken, same⟩
        cases same
        have some := List.length_pos_of_mem taken
        rw [List.length_take, List.length_append, List.length_singleton] at some
        omega
      · cases List.mem_singleton.mp queued
    · cases dropped
  · have quiet (other : PtpSocket) (message : PtpPacket) : step ≠ .receive other message :=
      fun same => arrival ⟨other, message, same⟩
    rcases step_only callback system quiet _ dropped with silent | handled | flushed
    · exact absurd silent id
    · rcases handled with ⟨_, _, _, same⟩
      cases same
    · rcases flushed.1 with ⟨_, _, same⟩
      cases same

/-! ## Runs -/

/-- In every interleaving the client is where the notes bring it, one after the other; each
packet that a socket queued leaves it once, in its order, and is dropped only for a sixth; and
the thread handles all that is queued, in its order, unless it is disturbed. -/
theorem ptp_thread_serves (callback : ClockCallback κ) (client : PtpClient κ)
    (steps : List (SystemStep κ)) :
    let machine := ptpThread callback
    let system := machine.final (.created client) steps
    let notes := (machine.replies (.created client) steps).flatten
    (system.client = (ptpSession callback).final client (notes.map Prod.fst) ∧
        notes.map Prod.snd = (ptpSession callback).replies client (notes.map Prod.fst)) ∧
      ∀ socket,
        (notes.map Prod.fst).filterMap (PtpNote.leftFrom socket) ++ system.queue socket =
            (notes.map Prod.fst).filterMap (PtpNote.queuedTo socket) ∧
          (system.queue socket).length ≤ maxQueueDepth ∧
          (∀ step packet effects, (.dropped socket packet, effects) ∈ (machine system step).1 →
            (system.queue socket).length = maxQueueDepth) ∧
          (Serves system → ∀ more : List (SystemStep κ), (∀ step ∈ more, step.Undisturbed) →
            (system.queue .event).length + 2 * (system.queue .general).length + 2 ≤
              more.countP SystemStep.isThread →
            (((machine.replies system more).flatten.map Prod.fst).filterMap
                (PtpNote.handledFrom socket) = system.queue socket ∧
              (machine.final system more).queue socket = [])) := by
  intro machine system notes
  refine ⟨records_run callback _ steps, fun socket => ?_⟩
  have flow := flow_run callback socket (.created client) steps
  have conserves : notes.filterMap (socketFlow socket).leaves ++ system.queue socket =
      notes.filterMap (socketFlow socket).enters := flow.conserves rfl
  have within : (system.queue socket).length ≤ maxQueueDepth := flow.within (Nat.zero_le _)
  rw [List.filterMap_map, List.filterMap_map]
  refine ⟨conserves, within, fun step packet effects => dropped_full within, ?_⟩
  intro serves more undisturbed enough
  have sound : Sound system := sound_run callback client steps
  have emptied := serves_run callback serves sound undisturbed
    (Nat.le_trans (work_le system) enough) socket
  refine ⟨?_, emptied⟩
  have handles := handles_run callback socket system undisturbed
  have rest : _ ++ (machine.final system more).queue socket = system.queue socket ++ _ :=
    (flow_run callback socket system more).conserves rfl
  have none : ((machine.replies system more).flatten).filterMap (socketFlow socket).enters = [] :=
    List.filterMap_eq_nil_iff.mpr fun entry member => (handles entry member).1
  rw [emptied, none, List.append_nil, List.append_nil] at rest
  rw [List.filterMap_map, ← rest]
  exact List.filterMap_congr fun entry member => (handles entry member).2.symm

end

/-- A start in which every service succeeds, and the thread at its first wait. -/
def startingSteps : List (SystemStep PtpTime) :=
  .start ⟨none, 0, 0, true⟩ :: List.replicate 7 (.call true 0x0002 0x03040506) ++
    [.thread true sendingEnv]

/-- An announcement and a Sync that arrive before the thread wakes. -/
theorem ptp_thread_serves_two :
    let machine := ptpThread nxPtpClientSoftClockCallback
    let announcement := masterPacket 11 0 (List.replicate 30 0)
    let system := machine.final (.created (createdClient ⟨0, 9, 0⟩))
      (startingSteps ++ [.receive .general announcement, .receiveNotify,
        .receive .event (masterPacket 0 0 (secondsBytes 5)), .receiveNotify])
    let more := List.replicate 5 (.thread true sendingEnv)
    (((machine.replies system more).flatten.map Prod.fst).filterMap
        (PtpNote.handledFrom .general) = [announcement] ∧
      (machine.final system more).queue .general = []) :=
  ((ptp_thread_serves nxPtpClientSoftClockCallback (createdClient ⟨0, 9, 0⟩) _).2
      .general).2.2.2 ⟨by decide, by decide, rfl, rfl⟩ _ (by simp [SystemStep.Undisturbed])
    (by decide)

end EmbeddedBase.NetX
