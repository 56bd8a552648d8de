import EmbeddedBase.NetX.PtpClient.Handling
import Mathlib.Logic.Function.Basic

/-!
# The thread of the PTP client

The thread of `_nx_ptp_client_thread_entry` with its event flags and its two sockets, the
IP thread that fills the sockets, the timer, and the application's thread in
`_nx_ptp_client_start` and `_nx_ptp_client_stop`, one access to what they share at a time.
-/

namespace EmbeddedBase.NetX

open EmbeddedBase.Data
open EmbeddedBase.Transition

/-- `nx_ptp_client_event_socket` and `nx_ptp_client_general_socket`. -/
inductive PtpSocket where
  | event
  | general
  deriving DecidableEq

/-- `NX_PTP_CLIENT_THREAD_…`. -/
inductive PtpThreadState where
  | idle
  | running
  | stopping
  | stopped
  deriving DecidableEq

/-- Where the thread is: not running, at its start, in `tx_event_flags_get`, receiving from
the event socket or, when that was empty, from the general one, with the timer event still to
handle or not, or out of its loop. -/
inductive ThreadPoint where
  | ended
  | entry
  | waiting
  | receivingEvent (timer : Bool)
  | receivingGeneral (timer : Bool)
  | leaving
  deriving DecidableEq

/-- `NX_PTP_CLIENT_RX_EVENT`, `NX_PTP_CLIENT_TIMER_EVENT` and `NX_PTP_CLIENT_STOP_EVENT`. -/
structure PtpEvents where
  rx : Bool
  timer : Bool
  stop : Bool
  deriving DecidableEq

/-- The parameters of `_nx_ptp_client_start`. -/
structure StartParameters where
  portIdentity : Option (Vector UChar 10)
  domain : BitVec 32
  transportSpecific : BitVec 32
  eventCallback : Bool
  deriving DecidableEq

/-- `NX_SUCCESS`, `NX_PTP_CLIENT_ALREADY_STARTED`, `NX_PTP_CLIENT_NOT_STARTED`, or what a
service of the system returned. -/
inductive PtpStatus where
  | success
  | alreadyStarted
  | notStarted
  | failed
  deriving DecidableEq

/-- The local `state` of `_nx_ptp_client_stop`, and what the application's call returns. -/
structure StopFrame where
  state : PtpThreadState
  status : PtpStatus
  deriving DecidableEq

/-- Where the application's thread is: in neither function, before the next action of
`_nx_ptp_client_start`, or before the next of `_nx_ptp_client_stop`. -/
inductive PtpCall where
  | outside
  | configure (parameters : StartParameters)
  | resume (portIdentity : Option (Vector UChar 10))
  | identify (portIdentity : Option (Vector UChar 10))
  | bindGeneral
  | bindEvent
  | join
  | activate
  | deactivate (frame : StopFrame)
  | unbindGeneral (frame : StopFrame)
  | unbindEvent (frame : StopFrame)
  | setStop (frame : StopFrame)
  | wait (status : PtpStatus)
  | setIdle (status : PtpStatus)
  deriving DecidableEq

/-- The client with its thread, its sockets, its timer and the application's thread;
`unnotified` counts the packets queued whose notification is still to come, and `inHandler`
is whether the timer's handler is still to set its event. -/
structure PtpSystem (κ : Type) where
  client : PtpClient κ
  threadState : PtpThreadState
  point : ThreadPoint
  events : PtpEvents
  bound : PtpSocket → Bool
  queue : PtpSocket → List PtpPacket
  unnotified : Nat
  timerActive : Bool
  inHandler : Bool
  call : PtpCall

/-- A step of one of the threads, of the driver or of the clock. -/
inductive SystemStep (κ : Type) where
  | receive (socket : PtpSocket) (packet : PtpPacket)
  | receiveNotify
  | timerHandler (update : κ → κ)
  | timerSet
  | notify (packetPtr : Nat) (timestamp : PtpTime)
  | clock (run : κ → κ)
  | thread (succeeds : Bool) (env : PtpEnv κ)
  | start (parameters : StartParameters)
  | stop
  | call (succeeds : Bool) (msw lsw : BitVec 32)

/-- What happens: packets enter and leave the sockets, the client is used, a call returns. -/
inductive PtpNote (κ : Type) where
  | queued (socket : PtpSocket) (packet : PtpPacket)
  | dropped (socket : PtpSocket) (packet : PtpPacket)
  | flushed (socket : PtpSocket) (packet : PtpPacket)
  | handled (socket : PtpSocket) (packet : PtpPacket) (env : PtpEnv κ)
  | timer
  | notified (packetPtr : Nat) (timestamp : PtpTime)
  | clock (run : κ → κ)
  | entered
  | configured (domain transportSpecific : UChar) (eventCallback : Bool)
  | identified (portIdentity : Vector UChar 10)
  | returned (status : PtpStatus)

section

variable {κ : Type}

/-- The client alone, with what is done to it one after the other. -/
def ptpSession (callback : ClockCallback κ) :
    Machine (PtpClient κ) (PtpNote κ) (List PtpEffect) := fun client note =>
  match note with
  | .handled _ packet env => ptpClient callback client (.packet packet env)
  | .timer => ptpClient callback client .timer
  | .notified packetPtr timestamp => ptpClient callback client (.notify packetPtr timestamp)
  | .clock run => ptpClient callback client (.clock run)
  | .entered => ([], threadEntry client)
  | .configured domain transportSpecific eventCallback =>
      ([], { client with
        domain := domain
        transportSpecific := transportSpecific
        eventCallback := eventCallback })
  | .identified portIdentity => ([], { client with portIdentity := portIdentity })
  | .queued _ _ | .dropped _ _ | .flushed _ _ | .returned _ => ([], client)

/-- The notes of a step, each with what the client does to the outside. -/
abbrev PtpReply (κ : Type) := List (PtpNote κ × List PtpEffect)

/-- What is done to the client. -/
def PtpSystem.handle (callback : ClockCallback κ) (system : PtpSystem κ) (note : PtpNote κ) :
    PtpReply κ × PtpSystem κ :=
  let (effects, client) := ptpSession callback system.client note
  ([(note, effects)], { system with client := client })

/-! ## The sockets -/

/-- `NX_PTP_CLIENT_MAX_QUEUE_DEPTH`. -/
def maxQueueDepth : Nat := 5

/-- A packet arrives at a socket: over the depth of its queue, the oldest is released. -/
def PtpSystem.receive (system : PtpSystem κ) (socket : PtpSocket) (packet : PtpPacket) :
    PtpReply κ × PtpSystem κ :=
  if system.bound socket then
    let queue := system.queue socket ++ [packet]
    let surplus := queue.length - maxQueueDepth
    ((queue.take surplus).map (fun oldest => (.dropped socket oldest, [])) ++
        [(.queued socket packet, [])],
      { system with
        queue := Function.update system.queue socket (queue.drop surplus)
        unnotified := system.unnotified + 1 })
  else
    ([], system)

/-- `nx_udp_socket_bind`. -/
def PtpSystem.bind (system : PtpSystem κ) (socket : PtpSocket) : PtpSystem κ :=
  { system with bound := Function.update system.bound socket true }

/-- `nx_udp_socket_unbind`: the queued packets are released. -/
def PtpSystem.unbind (system : PtpSystem κ) (socket : PtpSocket) : PtpReply κ × PtpSystem κ :=
  ((system.queue socket).map fun packet => (.flushed socket packet, []),
    { system with
      bound := Function.update system.bound socket false
      queue := Function.update system.queue socket [] })

/-! ## The thread -/

/-- One step of `_nx_ptp_client_thread_entry`; `succeeds` is whether `tx_event_flags_get`
does. -/
def threadStep (callback : ClockCallback κ) (succeeds : Bool) (env : PtpEnv κ)
    (system : PtpSystem κ) : PtpReply κ × PtpSystem κ :=
  match system.point with
  | .ended => ([], system)
  | .entry => { system with point := .waiting }.handle callback .entered
  | .waiting =>
      let ptpEvents := system.events
      if succeeds = false then
        ([], { system with point := .leaving })
      else if ptpEvents.rx || ptpEvents.timer || ptpEvents.stop then
        -- `TX_OR_CLEAR` takes all the events that are set.
        let system := { system with events := ⟨false, false, false⟩ }
        if ptpEvents.stop then
          ([], { system with point := .leaving })
        else if ptpEvents.rx then
          ([], { system with point := .receivingEvent ptpEvents.timer })
        else
          system.handle callback .timer
      else
        ([], system)
  | .receivingEvent timer =>
      match system.queue .event with
      | packet :: queue =>
          { system with queue := Function.update system.queue .event queue }.handle callback
            (.handled .event packet env)
      | [] => ([], { system with point := .receivingGeneral timer })
  | .receivingGeneral timer =>
      match system.queue .general with
      | packet :: queue =>
          { system with
            queue := Function.update system.queue .general queue
            point := .receivingEvent timer }.handle callback (.handled .general packet env)
      | [] =>
          let system := { system with point := .waiting }
          if timer then system.handle callback .timer else ([], system)
  | .leaving => ([], { system with threadState := .stopped, point := .ended })

/-! ## Starting and stopping -/

/-- The application's call returns. -/
def PtpSystem.returns (system : PtpSystem κ) (status : PtpStatus) :
    PtpReply κ × PtpSystem κ :=
  ([(.returned status, [])], { system with call := .outside })

/-- The start of `_nx_ptp_client_stop`, called by the application or by
`_nx_ptp_client_start`: what is returned when the client is not running, and at the end. -/
def PtpSystem.beginStop (system : PtpSystem κ) (refused status : PtpStatus) :
    PtpReply κ × PtpSystem κ :=
  match system.threadState with
  | .running =>
      ([], { system with threadState := .stopping, call := .deactivate ⟨.running, status⟩ })
  | .stopped => ([], { system with call := .deactivate ⟨.stopped, status⟩ })
  | .idle | .stopping => system.returns refused

/-- The start of `_nx_ptp_client_start`. -/
def PtpSystem.beginStart (system : PtpSystem κ) (parameters : StartParameters) :
    PtpReply κ × PtpSystem κ :=
  if system.threadState = .idle then
    ([], { system with threadState := .running, call := .configure parameters })
  else
    system.returns .alreadyStarted

/-- The 64-bit EUI of an interface's address, with the port number 1. -/
def interfaceIdentity (msw lsw : BitVec 32) : Vector UChar 10 :=
  #v[(msw >>> 8).setWidth 8, msw.setWidth 8, (lsw >>> 24).setWidth 8, 0xff, 0xfe,
    (lsw >>> 16).setWidth 8, (lsw >>> 8).setWidth 8, lsw.setWidth 8, 0, 1]

/-- The next action of the application's call; `succeeds` is whether the service it uses
does, and the two words are what `nx_ip_interface_physical_address_get` gives. -/
def callStep (callback : ClockCallback κ) (succeeds : Bool) (msw lsw : BitVec 32)
    (system : PtpSystem κ) : PtpReply κ × PtpSystem κ :=
  match system.call with
  | .outside => ([], system)
  | .configure parameters =>
      -- The thread is terminated, and reset when the parameters are saved.
      let (reply, system) := { system with point := .ended }.handle callback
        (.configured (parameters.domain.setWidth 8) (parameters.transportSpecific.setWidth 8)
          parameters.eventCallback)
      if succeeds then
        (reply, { system with call := .resume parameters.portIdentity })
      else
        let (returned, system) := { system with threadState := .idle }.returns .failed
        (reply ++ returned, system)
  | .resume portIdentity => ([], { system with point := .entry, call := .identify portIdentity })
  | .identify (some portIdentity) =>
      { system with call := .bindGeneral }.handle callback (.identified portIdentity)
  | .identify none =>
      if succeeds then
        { system with call := .bindGeneral }.handle callback
          (.identified (interfaceIdentity msw lsw))
      else
        system.beginStop .failed .failed
  | .bindGeneral =>
      if succeeds then ([], { system.bind .general with call := .bindEvent })
      else system.beginStop .failed .failed
  | .bindEvent =>
      if succeeds then ([], { system.bind .event with call := .join })
      else system.beginStop .failed .failed
  | .join =>
      if succeeds then ([], { system with call := .activate })
      else system.beginStop .failed .failed
  | .activate =>
      if succeeds then { system with timerActive := true }.returns .success
      else system.beginStop .failed .failed
  | .deactivate frame => ([], { system with timerActive := false, call := .unbindGeneral frame })
  | .unbindGeneral frame =>
      let (reply, system) := system.unbind .general
      (reply, { system with call := .unbindEvent frame })
  | .unbindEvent frame =>
      let (reply, system) := system.unbind .event
      (reply, { system with call := .setStop frame })
  | .setStop frame =>
      ([], { system with
        events := { system.events with stop := true }
        call := if frame.state = .stopped then .setIdle frame.status else .wait frame.status })
  | .wait status =>
      if system.threadState = .stopped then ([], { system with call := .setIdle status })
      else ([], system)
  | .setIdle status => { system with threadState := .idle }.returns status

/-- The client, its thread, and what runs beside it.  The application's thread makes a call
when its last one has returned. -/
def ptpThread (callback : ClockCallback κ) :
    Machine (PtpSystem κ) (SystemStep κ) (PtpReply κ) := fun system step =>
  match step with
  | .receive socket packet => system.receive socket packet
  | .receiveNotify =>
      if 0 < system.unnotified then
        ([], { system with
          unnotified := system.unnotified - 1
          events := { system.events with rx := true } })
      else
        ([], system)
  | .timerHandler update =>
      if system.timerActive && !system.inHandler then
        { system with inHandler := true }.handle callback (.clock update)
      else
        ([], system)
  | .timerSet =>
      if system.inHandler then
        ([], { system with inHandler := false, events := { system.events with timer := true } })
      else
        ([], system)
  | .notify packetPtr timestamp => system.handle callback (.notified packetPtr timestamp)
  | .clock run => system.handle callback (.clock run)
  | .thread succeeds env => threadStep callback succeeds env system
  | .start parameters =>
      if system.call = .outside then system.beginStart parameters else ([], system)
  | .stop =>
      if system.call = .outside then system.beginStop .notStarted .success else ([], system)
  | .call succeeds msw lsw => callStep callback succeeds msw lsw system

/-- The system after `_nx_ptp_client_create`. -/
def PtpSystem.created (client : PtpClient κ) : PtpSystem κ where
  client := client
  threadState := .idle
  point := .ended
  events := ⟨false, false, false⟩
  bound := fun _ => false
  queue := fun _ => []
  unnotified := 0
  timerActive := false
  inHandler := false
  call := .outside

/-! ## Where the threads are -/

/-- A thread that was started runs, or its `tx_event_flags_get` has failed and it has ended. -/
def Going (system : PtpSystem κ) : Prop :=
  (system.threadState = .running ∧ system.point ≠ .ended) ∨
    (system.threadState = .stopped ∧ system.point = .ended)

/-- A thread that is to stop, in a call that read the state at first. -/
def Halting (system : PtpSystem κ) (state : PtpThreadState) : Prop :=
  (state ≠ .stopped ∧ system.threadState = .stopping ∧ system.point ≠ .ended) ∨
    (system.threadState = .stopped ∧ system.point = .ended)

/-- The stop event is set, or the thread has taken it. -/
def Told (system : PtpSystem κ) : Prop :=
  system.events.stop = true ∨ system.point = .leaving ∨ system.point = .ended

/-- Where the client's thread is, and what the sockets and the timer are like, at each action
of the application's. -/
def Linked (system : PtpSystem κ) : Prop :=
  match system.call with
  | .outside =>
      (system.threadState = .idle ∧ system.point = .ended ∧ ∀ socket, system.bound socket = false) ∨
        Going system
  | .configure _ | .resume _ =>
      system.threadState = .running ∧ system.point = .ended ∧ ∀ socket, system.bound socket = false
  | .identify _ | .bindGeneral => Going system ∧ ∀ socket, system.bound socket = false
  | .bindEvent | .join | .activate => Going system
  | .deactivate frame => Halting system frame.state
  | .unbindGeneral frame => Halting system frame.state ∧ system.timerActive = false
  | .unbindEvent frame =>
      Halting system frame.state ∧ system.timerActive = false ∧ system.bound .general = false
  | .setStop frame =>
      Halting system frame.state ∧ system.timerActive = false ∧
        ∀ socket, system.bound socket = false
  | .wait _ =>
      (∃ state, Halting system state) ∧ Told system ∧ system.timerActive = false ∧
        ∀ socket, system.bound socket = false
  | .setIdle _ =>
      system.threadState = .stopped ∧ system.point = .ended ∧ system.timerActive = false ∧
        ∀ socket, system.bound socket = false

variable {callback : ClockCallback κ} {system : PtpSystem κ} {succeeds : Bool} {env : PtpEnv κ}
  {msw lsw : BitVec 32}

/-- What one step of the thread does, and where it is then. -/
inductive ThreadTakes (callback : ClockCallback κ) (succeeds : Bool) (env : PtpEnv κ)
    (system : PtpSystem κ) : PtpReply κ × PtpSystem κ → Prop
  | ended (point : system.point = .ended) : ThreadTakes callback succeeds env system ([], system)
  | enters (point : system.point = .entry) : ThreadTakes callback succeeds env system
      ({ system with point := .waiting }.handle callback .entered)
  | fails (point : system.point = .waiting) (failed : succeeds = false) :
      ThreadTakes callback succeeds env system ([], { system with point := .leaving })
  | sleeps (point : system.point = .waiting) (rx : system.events.rx = false)
      (stop : system.events.stop = false) :
      ThreadTakes callback succeeds env system ([], system)
  | stops (point : system.point = .waiting) (stop : system.events.stop = true) :
      ThreadTakes callback succeeds env system
        ([], { system with events := ⟨false, false, false⟩, point := .leaving })
  | wakes (point : system.point = .waiting) (stop : system.events.stop = false)
      (rx : system.events.rx = true) :
      ThreadTakes callback succeeds env system
        ([], { system with
          events := ⟨false, false, false⟩
          point := .receivingEvent system.events.timer })
  | ticks (point : system.point = .waiting) (stop : system.events.stop = false)
      (rx : system.events.rx = false) :
      ThreadTakes callback succeeds env system
        ({ system with
          events := ⟨false, false, false⟩
          point := .waiting }.handle callback .timer)
  | handlesEvent {timer : Bool} {packet : PtpPacket} {queue : List PtpPacket}
      (point : system.point = .receivingEvent timer)
      (front : system.queue .event = packet :: queue) :
      ThreadTakes callback succeeds env system
        ({ system with
          queue := Function.update system.queue .event queue
          point := .receivingEvent timer }.handle callback (.handled .event packet env))
  | turns {timer : Bool} (point : system.point = .receivingEvent timer)
      (empty : system.queue .event = []) :
      ThreadTakes callback succeeds env system
        ([], { system with point := .receivingGeneral timer })
  | handlesGeneral {timer : Bool} {packet : PtpPacket} {queue : List PtpPacket}
      (point : system.point = .receivingGeneral timer)
      (front : system.queue .general = packet :: queue) :
      ThreadTakes callback succeeds env system
        ({ system with
          queue := Function.update system.queue .general queue
          point := .receivingEvent timer }.handle callback (.handled .general packet env))
  | waits (point : system.point = .receivingGeneral false) (empty : system.queue .general = []) :
      ThreadTakes callback succeeds env system ([], { system with point := .waiting })
  | ticksLater (point : system.point = .receivingGeneral true)
      (empty : system.queue .general = []) :
      ThreadTakes callback succeeds env system
        ({ system with point := .waiting }.handle callback .timer)
  | leaves (point : system.point = .leaving) :
      ThreadTakes callback succeeds env system
        ([], { system with threadState := .stopped, point := .ended })

theorem threadStep_takes (callback : ClockCallback κ) (succeeds : Bool) (env : PtpEnv κ)
    (system : PtpSystem κ) :
    ThreadTakes callback succeeds env system (threadStep callback succeeds env system) := by
  unfold threadStep
  cases point : system.point with
  | ended => exact .ended point
  | entry => exact .enters point
  | waiting =>
      by_cases failed : succeeds = false
      · dsimp only
        rw [if_pos failed]
        exact .fails point failed
      · dsimp only
        rw [if_neg failed]
        cases stop : system.events.stop with
        | true =>
            rw [Bool.or_true, if_pos rfl, if_pos rfl]
            exact .stops point stop
        | false =>
            cases rx : system.events.rx with
            | true =>
                rw [Bool.true_or, Bool.true_or, if_pos rfl, if_neg nofun, if_pos rfl]
                exact .wakes point stop rx
            | false =>
                rw [Bool.false_or, Bool.or_false]
                split
                · rw [if_neg nofun, if_neg nofun]
                  exact .ticks point stop rx
                · exact .sleeps point rx stop
  | receivingEvent timer =>
      dsimp only
      split
      · rename_i front
        exact .handlesEvent point front
      · rename_i empty
        exact .turns point empty
  | receivingGeneral timer =>
      dsimp only
      split
      · rename_i front
        exact .handlesGeneral point front
      · rename_i empty
        cases timer with
        | true => exact .ticksLater point empty
        | false => exact .waits point empty
  | leaving => exact .leaves point

/-- What a step of the thread changes of what the application's thread uses: nothing, but
that it ends, and that it may take the stop event. -/
structure ThreadMoves (system after : PtpSystem κ) : Prop where
  call : after.call = system.call
  bound : after.bound = system.bound
  timerActive : after.timerActive = system.timerActive
  moves :
    (after.threadState = system.threadState ∧ (after.point = .ended ↔ system.point = .ended)) ∨
      (system.point = .leaving ∧ after.threadState = .stopped ∧ after.point = .ended)
  told : Told system → Told after

/-- The thread stays in its loop. -/
theorem threadMoves_inside {after : PtpSystem κ} (call : after.call = system.call)
    (bound : after.bound = system.bound) (timerActive : after.timerActive = system.timerActive)
    (threadState : after.threadState = system.threadState)
    (inside : system.point ≠ .ended ∧ system.point ≠ .leaving) (point : after.point ≠ .ended)
    (told : system.events.stop = true → Told after) : ThreadMoves system after where
  call := call
  bound := bound
  timerActive := timerActive
  moves := .inl ⟨threadState, fun ended => absurd ended point, fun ended => absurd ended inside.1⟩
  told before := by
    rcases before with stop | leaving | ended
    · exact told stop
    · exact absurd leaving inside.2
    · exact absurd ended inside.1

theorem ThreadTakes.moves {result : PtpReply κ × PtpSystem κ}
    (takes : ThreadTakes callback succeeds env system result) : ThreadMoves system result.2 := by
  have inside {point : ThreadPoint} (here : system.point = point) (going : point ≠ .ended)
      (staying : point ≠ .leaving) : system.point ≠ .ended ∧ system.point ≠ .leaving := by
    rw [here]
    exact ⟨going, staying⟩
  cases takes with
  | ended => exact ⟨rfl, rfl, rfl, .inl ⟨rfl, Iff.rfl⟩, id⟩
  | enters point | turns point | waits point | ticksLater point =>
      exact threadMoves_inside rfl rfl rfl rfl (inside point nofun nofun) nofun .inl
  | fails point | stops point =>
      exact threadMoves_inside rfl rfl rfl rfl (inside point nofun nofun) nofun
        fun _ => .inr (.inl rfl)
  | sleeps point =>
      have here := inside point nofun nofun
      exact threadMoves_inside rfl rfl rfl rfl here here.1 .inl
  | wakes point stop | ticks point stop =>
      refine threadMoves_inside rfl rfl rfl rfl (inside point nofun nofun) nofun fun set => ?_
      cases stop.symm.trans set
  | handlesEvent point | handlesGeneral point =>
      exact threadMoves_inside rfl rfl rfl rfl (inside point nofun nofun) nofun .inl
  | leaves point => exact ⟨rfl, rfl, rfl, .inr ⟨point, rfl, rfl⟩, fun _ => .inr (.inr rfl)⟩

theorem ThreadMoves.going {after : PtpSystem κ} (moves : ThreadMoves system after)
    (going : Going system) : Going after := by
  rcases moves.moves with ⟨state, point⟩ | ⟨-, ended⟩
  · unfold Going
    rw [state, ne_eq after.point, point]
    exact going
  · exact .inr ended

theorem ThreadMoves.halting {after : PtpSystem κ} (moves : ThreadMoves system after)
    {state : PtpThreadState} (halting : Halting system state) : Halting after state := by
  rcases moves.moves with ⟨same, point⟩ | ⟨-, ended⟩
  · unfold Halting
    rw [same, ne_eq after.point, point]
    exact halting
  · exact .inr ended

theorem ThreadMoves.linked {after : PtpSystem κ} (moves : ThreadMoves system after)
    (linked : Linked system) : Linked after := by
  have ended (still : system.point = .ended) :
      after.threadState = system.threadState ∧ after.point = .ended := by
    rcases moves.moves with ⟨state, point⟩ | ⟨leaving, -⟩
    · exact ⟨state, point.mpr still⟩
    · exact absurd (leaving.symm.trans still) nofun
  unfold Linked at linked ⊢
  rw [moves.call, moves.bound, moves.timerActive]
  split at linked
  · rcases linked with ⟨idle, point, unbound⟩ | going
    · exact .inl ⟨(ended point).1.trans idle, (ended point).2, unbound⟩
    · exact .inr (moves.going going)
  · exact ⟨(ended linked.2.1).1.trans linked.1, (ended linked.2.1).2, linked.2.2⟩
  · exact ⟨(ended linked.2.1).1.trans linked.1, (ended linked.2.1).2, linked.2.2⟩
  · exact ⟨moves.going linked.1, linked.2⟩
  · exact ⟨moves.going linked.1, linked.2⟩
  · exact moves.going linked
  · exact moves.going linked
  · exact moves.going linked
  · exact moves.halting linked
  · exact ⟨moves.halting linked.1, linked.2⟩
  · exact ⟨moves.halting linked.1, linked.2⟩
  · exact ⟨moves.halting linked.1, linked.2⟩
  · rcases linked with ⟨⟨state, halting⟩, told, rest⟩
    exact ⟨⟨state, moves.halting halting⟩, moves.told told, rest⟩
  · exact ⟨(ended linked.2.1).1.trans linked.1, (ended linked.2.1).2, linked.2.2⟩

/-- A stop of a client whose thread runs or has ended. -/
theorem Going.beginStop (going : Going system) (refused status : PtpStatus) :
    Linked (system.beginStop refused status).2 := by
  unfold PtpSystem.beginStop
  rcases going with ⟨running, point⟩ | ⟨stopped, point⟩
  · rw [running]
    exact .inl ⟨nofun, rfl, point⟩
  · rw [stopped]
    dsimp only
    exact .inr ⟨rfl, point⟩

/-- Between the application's calls the client is idle, or its thread has been started. -/
theorem Linked.outside (linked : Linked system) (outside : system.call = .outside) :
    (system.threadState = .idle ∧ system.point = .ended ∧ ∀ socket, system.bound socket = false) ∨
      Going system := by
  unfold Linked at linked
  rw [outside] at linked
  exact linked

theorem callStep_linked (linked : Linked system) :
    Linked (callStep callback succeeds msw lsw system).2 := by
  have still := linked
  unfold Linked at linked
  unfold callStep
  cases call : system.call with
  | outside => exact still
  | configure parameters =>
      rw [call] at linked
      dsimp only
      split
      · exact ⟨linked.1, rfl, linked.2.2⟩
      · exact .inl ⟨rfl, rfl, linked.2.2⟩
  | resume portIdentity =>
      rw [call] at linked
      exact ⟨.inl ⟨linked.1, nofun⟩, linked.2.2⟩
  | identify portIdentity =>
      rw [call] at linked
      cases portIdentity with
      | some portIdentity => exact linked
      | none =>
          dsimp only
          split
          · exact linked
          · exact linked.1.beginStop .failed .failed
  | bindGeneral =>
      rw [call] at linked
      dsimp only
      split
      · exact linked.1
      · exact linked.1.beginStop .failed .failed
  | bindEvent | join =>
      rw [call] at linked
      dsimp only
      split
      · exact linked
      · exact Going.beginStop linked .failed .failed
  | activate =>
      rw [call] at linked
      dsimp only
      split
      · exact .inr linked
      · exact Going.beginStop linked .failed .failed
  | deactivate frame =>
      rw [call] at linked
      exact ⟨linked, rfl⟩
  | unbindGeneral frame =>
      rw [call] at linked
      exact ⟨linked.1, linked.2, rfl⟩
  | unbindEvent frame =>
      rw [call] at linked
      refine ⟨linked.1, linked.2.1, fun socket => ?_⟩
      cases socket with
      | event => rfl
      | general => exact linked.2.2
  | setStop frame =>
      rw [call] at linked
      rcases linked with ⟨halting, quiet⟩
      dsimp only
      by_cases stopped : frame.state = .stopped
      · rw [if_pos stopped]
        rcases halting with ⟨other, -⟩ | ended
        · exact absurd stopped other
        · exact ⟨ended.1, ended.2, quiet⟩
      · rw [if_neg stopped]
        exact ⟨⟨frame.state, halting⟩, .inl rfl, quiet⟩
  | wait status =>
      rw [call] at linked
      dsimp only
      split
      · rename_i stopped
        rcases linked with ⟨⟨state, halting⟩, -, quiet⟩
        rcases halting with ⟨-, stopping, -⟩ | ended
        · cases stopping.symm.trans stopped
        · exact ⟨ended.1, ended.2, quiet⟩
      · exact still
  | setIdle status =>
      rw [call] at linked
      exact .inl ⟨rfl, linked.2.1, linked.2.2.2⟩

theorem linked_step (callback : ClockCallback κ) (system : PtpSystem κ) (step : SystemStep κ)
    (linked : Linked system) : Linked (ptpThread callback system step).2 := by
  unfold ptpThread
  cases step with
  | receive socket packet =>
      dsimp only
      unfold PtpSystem.receive
      split
      · exact linked
      · exact linked
  | receiveNotify | timerHandler update =>
      dsimp only
      split
      · exact linked
      · exact linked
  | timerSet =>
      dsimp only
      split
      · exact linked
      · exact linked
  | notify | clock => exact linked
  | thread succeeds env => exact (threadStep_takes callback succeeds env system).moves.linked linked
  | start parameters =>
      dsimp only
      split
      · rename_i outside
        unfold PtpSystem.beginStart
        rcases linked.outside outside with ⟨idle, rest⟩ | ⟨running, point⟩ | ⟨stopped, point⟩
        · rw [if_pos idle]
          exact ⟨rfl, rest⟩
        · rw [if_neg fun idle => by cases running.symm.trans idle]
          exact .inr (.inl ⟨running, point⟩)
        · rw [if_neg fun idle => by cases stopped.symm.trans idle]
          exact .inr (.inr ⟨stopped, point⟩)
      · exact linked
  | stop =>
      dsimp only
      split
      · rename_i outside
        rcases linked.outside outside with ⟨idle, rest⟩ | going
        · unfold PtpSystem.beginStop
          rw [idle]
          exact .inl ⟨idle, rest⟩
        · exact going.beginStop .notStarted .success
      · exact linked
  | call succeeds msw lsw => exact callStep_linked linked

theorem linked_run (callback : ClockCallback κ) (client : PtpClient κ)
    (steps : List (SystemStep κ)) :
    Linked ((ptpThread callback).final (.created client) steps) :=
  Machine.final_of_keeps (linked_step callback)
    (show Linked (.created client) from .inl ⟨rfl, rfl, fun _ => rfl⟩) steps

end

end EmbeddedBase.NetX
