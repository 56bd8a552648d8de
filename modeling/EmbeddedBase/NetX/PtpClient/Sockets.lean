import EmbeddedBase.NetX.PtpClient.Thread
import EmbeddedBase.Transition.Flow

/-!
# The client and the sockets along the steps of the threads

Whichever thread makes a step, the client is where the step's notes bring it, and the packets
of each socket enter it at its end and leave it from its front.
-/

namespace EmbeddedBase.NetX

open EmbeddedBase.Transition

section

variable {κ : Type} {callback : ClockCallback κ} {system : PtpSystem κ} {succeeds : Bool}
  {env : PtpEnv κ} {msw lsw : BitVec 32}

/-! ## The client -/

/-- The notes bring the client to where it is after them, with their effects. -/
def Records (callback : ClockCallback κ) (client : PtpClient κ) (reply : PtpReply κ)
    (after : PtpClient κ) : Prop :=
  after = (ptpSession callback).final client (reply.map Prod.fst) ∧
    reply.map Prod.snd = (ptpSession callback).replies client (reply.map Prod.fst)

theorem Records.trans {client middle after : PtpClient κ} {first second : PtpReply κ}
    (before : Records callback client first middle) (later : Records callback middle second after) :
    Records callback client (first ++ second) after := by
  rcases before with ⟨rfl, before⟩
  rcases later with ⟨rfl, later⟩
  unfold Records
  rw [List.map_append, List.map_append, Machine.final_append, Machine.replies_append, before, later]
  exact ⟨rfl, rfl⟩

/-- Notes that are not about the client. -/
theorem records_of_passive {client : PtpClient κ} {reply : PtpReply κ}
    (passive : ∀ entry ∈ reply, ptpSession callback client entry.1 = (entry.2, client)) :
    Records callback client reply client := by
  induction reply with
  | nil => exact ⟨rfl, rfl⟩
  | cons entry reply ih =>
      have here : Records callback client [entry] client := by
        have same := passive entry List.mem_cons_self
        unfold Records
        simp [same]
      exact here.trans (ih fun other member => passive other (List.mem_cons_of_mem entry member))

theorem records_nil (client : PtpClient κ) : Records callback client [] client :=
  ⟨rfl, rfl⟩

theorem records_receive (socket : PtpSocket) (packet : PtpPacket) :
    Records callback system.client (system.receive socket packet).1
      (system.receive socket packet).2.client := by
  unfold PtpSystem.receive
  split
  · apply records_of_passive
    intro entry member
    rcases List.mem_append.mp member with dropped | queued
    · rcases List.mem_map.mp dropped with ⟨oldest, -, rfl⟩
      rfl
    · rw [List.mem_singleton.mp queued]
      rfl
  · exact records_nil system.client

theorem records_unbind (socket : PtpSocket) :
    Records callback system.client (system.unbind socket).1 (system.unbind socket).2.client := by
  apply records_of_passive
  intro entry member
  rcases List.mem_map.mp member with ⟨packet, -, rfl⟩
  rfl

theorem records_beginStop (refused status : PtpStatus) :
    Records callback system.client (system.beginStop refused status).1
      (system.beginStop refused status).2.client := by
  unfold PtpSystem.beginStop
  split
  · exact records_nil system.client
  · exact records_nil system.client
  · exact ⟨rfl, rfl⟩
  · exact ⟨rfl, rfl⟩

theorem ThreadTakes.records {result : PtpReply κ × PtpSystem κ}
    (takes : ThreadTakes callback succeeds env system result) :
    Records callback system.client result.1 result.2.client := by
  cases takes with
  | ended | fails | sleeps | stops | wakes | turns | waits | leaves =>
      exact records_nil system.client
  | enters | ticks | handlesEvent | handlesGeneral | ticksLater => exact ⟨rfl, rfl⟩

theorem records_call : Records callback system.client
    (callStep callback succeeds msw lsw system).1
    (callStep callback succeeds msw lsw system).2.client := by
  unfold callStep
  cases call : system.call with
  | outside | resume | deactivate | setStop => exact records_nil system.client
  | configure parameters =>
      dsimp only
      split
      · exact ⟨rfl, rfl⟩
      · exact ⟨rfl, rfl⟩
  | identify portIdentity =>
      cases portIdentity with
      | some portIdentity => exact ⟨rfl, rfl⟩
      | none =>
          dsimp only
          split
          · exact ⟨rfl, rfl⟩
          · exact records_beginStop .failed .failed
  | bindGeneral | bindEvent | join =>
      dsimp only
      split
      · exact records_nil system.client
      · exact records_beginStop .failed .failed
  | activate =>
      dsimp only
      split
      · exact ⟨rfl, rfl⟩
      · exact records_beginStop .failed .failed
  | unbindGeneral => exact records_unbind .general
  | unbindEvent => exact records_unbind .event
  | wait status =>
      dsimp only
      split
      · exact records_nil system.client
      · exact records_nil system.client
  | setIdle => exact ⟨rfl, rfl⟩

theorem records_step (callback : ClockCallback κ) (system : PtpSystem κ) (step : SystemStep κ) :
    Records callback system.client (ptpThread callback system step).1
      (ptpThread callback system step).2.client := by
  unfold ptpThread
  cases step with
  | receive socket packet => exact records_receive socket packet
  | receiveNotify | timerSet =>
      dsimp only
      split
      · exact records_nil system.client
      · exact records_nil system.client
  | timerHandler update =>
      dsimp only
      split
      · exact ⟨rfl, rfl⟩
      · exact records_nil system.client
  | notify | clock => exact ⟨rfl, rfl⟩
  | thread succeeds env => exact (threadStep_takes callback succeeds env system).records
  | start parameters =>
      dsimp only
      unfold PtpSystem.beginStart
      split
      · split
        · exact records_nil system.client
        · exact ⟨rfl, rfl⟩
      · exact records_nil system.client
  | stop =>
      dsimp only
      split
      · exact records_beginStop .notStarted .success
      · exact records_nil system.client
  | call => exact records_call

theorem records_run (callback : ClockCallback κ) (system : PtpSystem κ)
    (steps : List (SystemStep κ)) :
    Records callback system.client ((ptpThread callback).replies system steps).flatten
      ((ptpThread callback).final system steps).client := by
  induction steps generalizing system with
  | nil => exact records_nil system.client
  | cons step steps ih => exact (records_step callback system step).trans (ih _)

/-! ## The sockets -/

/-- The packet, if the socket is that one. -/
def PtpNote.queuedTo (socket : PtpSocket) : PtpNote κ → Option PtpPacket
  | .queued other packet => if other = socket then some packet else none
  | _ => none

@[inherit_doc PtpNote.queuedTo]
def PtpNote.handledFrom (socket : PtpSocket) : PtpNote κ → Option PtpPacket
  | .handled other packet _ => if other = socket then some packet else none
  | _ => none

@[inherit_doc PtpNote.queuedTo]
def PtpNote.leftFrom (socket : PtpSocket) : PtpNote κ → Option PtpPacket
  | .handled other packet _ | .dropped other packet | .flushed other packet =>
      if other = socket then some packet else none
  | _ => none

/-- The packets of a socket. -/
def socketFlow (socket : PtpSocket) :
    Flow (PtpSystem κ) (PtpNote κ × List PtpEffect) PtpPacket where
  contents system := system.queue socket
  capacity := maxQueueDepth
  enters entry := entry.1.queuedTo socket
  leaves entry := entry.1.leftFrom socket
  lost _ := false

variable {socket : PtpSocket}

/-- The notes are not about the packets of that socket. -/
def Apart (socket : PtpSocket) (reply : PtpReply κ) : Prop :=
  ∀ entry ∈ reply, entry.1.queuedTo socket = none ∧ entry.1.leftFrom socket = none

theorem apart_nil (socket : PtpSocket) : Apart socket ([] : PtpReply κ) :=
  fun _ member => absurd member List.not_mem_nil

theorem apart_singleton {note : PtpNote κ} (queued : note.queuedTo socket = none)
    (left : note.leftFrom socket = none) (effects : List PtpEffect) :
    Apart socket [(note, effects)] := by
  intro entry member
  rw [List.mem_singleton.mp member]
  exact ⟨queued, left⟩

/-- A step that leaves the sockets alone. -/
theorem flow_same {after : PtpSystem κ} {reply : PtpReply κ}
    (queue : after.queue = system.queue) (apart : Apart socket reply) :
    (socketFlow socket).Reports system reply after :=
  Flow.reports_of_same (congrFun queue socket) rfl
    (List.filterMap_eq_nil_iff.mpr fun entry member => (apart entry member).1)
    (List.filterMap_eq_nil_iff.mpr fun entry member => (apart entry member).2)

/-- A step on another socket. -/
theorem flow_other {after : PtpSystem κ} {reply : PtpReply κ} {other : PtpSocket}
    {queue : List PtpPacket} (changed : after.queue = Function.update system.queue other queue)
    (different : other ≠ socket) (apart : Apart socket reply) :
    (socketFlow socket).Reports system reply after := by
  refine Flow.reports_of_same ?_ rfl
    (List.filterMap_eq_nil_iff.mpr fun entry member => (apart entry member).1)
    (List.filterMap_eq_nil_iff.mpr fun entry member => (apart entry member).2)
  change after.queue socket = system.queue socket
  rw [changed, Function.update_of_ne (Ne.symm different)]

/-- Packets that are released leave, and none enters. -/
theorem filterMap_released (note : PtpPacket → PtpNote κ)
    (leaves : ∀ packet, (note packet).leftFrom socket = some packet)
    (enters : ∀ packet, (note packet).queuedTo socket = none) (packets : List PtpPacket) :
    (packets.map fun packet => (note packet, ([] : List PtpEffect))).filterMap
        (socketFlow socket).leaves = packets ∧
      (packets.map fun packet => (note packet, ([] : List PtpEffect))).filterMap
        (socketFlow socket).enters = [] := by
  induction packets with
  | nil => exact ⟨rfl, rfl⟩
  | cons packet packets ih =>
      have left : (socketFlow socket).leaves (note packet, []) = some packet := leaves packet
      have entered : (socketFlow socket).enters (note packet, []) = none := enters packet
      rw [List.map_cons, List.filterMap_cons_some left, List.filterMap_cons_none entered, ih.1]
      exact ⟨rfl, ih.2⟩

/-- The packet at the front of a socket is handled. -/
theorem flow_handled {after : PtpSystem κ} {other : PtpSocket} {packet : PtpPacket}
    {queue : List PtpPacket} {effects : List PtpEffect}
    (front : system.queue other = packet :: queue)
    (rest : after.queue = Function.update system.queue other queue) :
    (socketFlow socket).Reports system [(.handled other packet env, effects)] after := by
  by_cases same : other = socket
  · subst same
    have left : after.queue other = queue := by
      rw [rest, Function.update_self]
    refine Flow.reports_of_conserves ?_ ?_ rfl
    · unfold Flow.Conserves
      simp [socketFlow, PtpNote.leftFrom, PtpNote.queuedTo, left, front]
    · intro within
      dsimp only [socketFlow] at *
      rw [front] at within
      rw [left]
      exact Nat.le_of_succ_le within
  · have left : (PtpNote.handled other packet env).leftFrom socket = none := if_neg same
    exact flow_other rest same (apart_singleton rfl left effects)

theorem flow_receive (other : PtpSocket) (packet : PtpPacket) :
    (socketFlow socket).Reports system (system.receive other packet).1
      (system.receive other packet).2 := by
  unfold PtpSystem.receive
  split
  · by_cases same : other = socket
    · subst same
      refine Flow.reports_of_conserves ?_ (fun _ => ?_) rfl
      · have released (packets : List PtpPacket) :=
          filterMap_released (PtpNote.dropped other : PtpPacket → PtpNote κ)
            (fun _ => if_pos rfl) (fun _ => rfl) packets
        unfold Flow.Conserves
        rw [List.filterMap_append, List.filterMap_append, (released _).1, (released _).2]
        simp [socketFlow, PtpNote.leftFrom, PtpNote.queuedTo]
      · dsimp only [socketFlow]
        rw [Function.update_self, List.length_drop]
        omega
    · apply flow_other rfl same
      intro entry member
      rcases List.mem_append.mp member with dropped | queued
      · rcases List.mem_map.mp dropped with ⟨oldest, -, rfl⟩
        exact ⟨rfl, if_neg same⟩
      · rw [List.mem_singleton.mp queued]
        exact ⟨if_neg same, rfl⟩
  · exact flow_same rfl (apart_nil socket)

theorem flow_unbind {after : PtpSystem κ} {other : PtpSocket}
    (rest : after.queue = Function.update system.queue other []) :
    (socketFlow socket).Reports system (system.unbind other).1 after := by
  unfold PtpSystem.unbind
  by_cases same : other = socket
  · subst same
    have left : after.queue other = [] := by
      rw [rest, Function.update_self]
    refine Flow.reports_of_conserves ?_ (fun _ => ?_) rfl
    · have released := filterMap_released (PtpNote.flushed other : PtpPacket → PtpNote κ)
        (fun _ => if_pos rfl) (fun _ => rfl) (system.queue other)
      unfold Flow.Conserves
      rw [released.1, released.2]
      simp [socketFlow, left]
    · dsimp only [socketFlow]
      rw [left]
      exact Nat.zero_le maxQueueDepth
  · apply flow_other rest same
    intro entry member
    rcases List.mem_map.mp member with ⟨packet, -, rfl⟩
    exact ⟨rfl, if_neg same⟩

theorem flow_beginStop (refused status : PtpStatus) :
    (socketFlow socket).Reports system (system.beginStop refused status).1
      (system.beginStop refused status).2 := by
  unfold PtpSystem.beginStop
  split
  · exact flow_same rfl (apart_nil socket)
  · exact flow_same rfl (apart_nil socket)
  · exact flow_same rfl (apart_singleton rfl rfl [])
  · exact flow_same rfl (apart_singleton rfl rfl [])

theorem ThreadTakes.flow {result : PtpReply κ × PtpSystem κ}
    (takes : ThreadTakes callback succeeds env system result) :
    (socketFlow socket).Reports system result.1 result.2 := by
  cases takes with
  | ended | fails | sleeps | stops | wakes | turns | waits | leaves =>
      exact flow_same rfl (apart_nil socket)
  | enters | ticks | ticksLater => exact flow_same rfl (apart_singleton rfl rfl _)
  | handlesEvent _ front | handlesGeneral _ front => exact flow_handled front rfl

theorem flow_call : (socketFlow socket).Reports system
    (callStep callback succeeds msw lsw system).1
    (callStep callback succeeds msw lsw system).2 := by
  unfold callStep
  cases call : system.call with
  | outside | resume | deactivate | setStop => exact flow_same rfl (apart_nil socket)
  | configure parameters =>
      dsimp only
      split
      · exact flow_same rfl (apart_singleton rfl rfl _)
      · refine flow_same rfl ?_
        intro entry member
        rcases List.mem_append.mp member with configured | returned
        · rw [List.mem_singleton.mp configured]
          exact ⟨rfl, rfl⟩
        · rw [List.mem_singleton.mp returned]
          exact ⟨rfl, rfl⟩
  | identify portIdentity =>
      cases portIdentity with
      | some portIdentity => exact flow_same rfl (apart_singleton rfl rfl _)
      | none =>
          dsimp only
          split
          · exact flow_same rfl (apart_singleton rfl rfl _)
          · exact flow_beginStop .failed .failed
  | bindGeneral | bindEvent | join =>
      dsimp only
      split
      · exact flow_same rfl (apart_nil socket)
      · exact flow_beginStop .failed .failed
  | activate =>
      dsimp only
      split
      · exact flow_same rfl (apart_singleton rfl rfl _)
      · exact flow_beginStop .failed .failed
  | unbindGeneral | unbindEvent => exact flow_unbind rfl
  | wait status =>
      dsimp only
      split
      · exact flow_same rfl (apart_nil socket)
      · exact flow_same rfl (apart_nil socket)
  | setIdle => exact flow_same rfl (apart_singleton rfl rfl [])

/-- In every step of every thread, the packets of a socket enter it at its end and leave it
from its front. -/
theorem flow_step (callback : ClockCallback κ) (socket : PtpSocket) (system : PtpSystem κ)
    (step : SystemStep κ) : (socketFlow socket).Reports system (ptpThread callback system step).1
      (ptpThread callback system step).2 := by
  unfold ptpThread
  cases step with
  | receive other packet => exact flow_receive other packet
  | receiveNotify | timerSet =>
      dsimp only
      split
      · exact flow_same rfl (apart_nil socket)
      · exact flow_same rfl (apart_nil socket)
  | timerHandler update =>
      dsimp only
      split
      · exact flow_same rfl (apart_singleton rfl rfl _)
      · exact flow_same rfl (apart_nil socket)
  | notify | clock => exact flow_same rfl (apart_singleton rfl rfl _)
  | thread succeeds env => exact (threadStep_takes callback succeeds env system).flow
  | start parameters =>
      dsimp only
      unfold PtpSystem.beginStart
      split
      · split
        · exact flow_same rfl (apart_nil socket)
        · exact flow_same rfl (apart_singleton rfl rfl [])
      · exact flow_same rfl (apart_nil socket)
  | stop =>
      dsimp only
      split
      · exact flow_beginStop .notStarted .success
      · exact flow_same rfl (apart_nil socket)
  | call => exact flow_call

theorem flow_run (callback : ClockCallback κ) (socket : PtpSocket) (system : PtpSystem κ)
    (steps : List (SystemStep κ)) :
    (socketFlow socket).Reports system ((ptpThread callback).replies system steps).flatten
      ((ptpThread callback).final system steps) :=
  Flow.reports_run (fun state step (_ : True) => flow_step callback socket state step) system
    fun _ _ => trivial

end

end EmbeddedBase.NetX
