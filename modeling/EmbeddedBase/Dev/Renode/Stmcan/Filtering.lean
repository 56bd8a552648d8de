import EmbeddedBase.Dev.Renode.Stmcan.Device

/-!
# The acceptance filters over whole runs

After any writes of the filter registers from the reset on, of which the last activation
comes after the last assignment, a standard data frame reaches a FIFO of the emulator exactly
when the peripheral with the same registers would let it pass into that FIFO.
-/

namespace EmbeddedBase.Dev.Renode

open EmbeddedBase.Platforms.Stm32f405

namespace Filters

/-- The banks agree with the registers. -/
structure Current (filters : Filters) : Prop where
  mode : ∀ i, (filters.filterBanks i).mode = filters.filterMode i
  scale : ∀ i, (filters.filterBanks i).scale = filters.filterScale i
  assigned : ∀ i, (filters.filterBanks i).fifoAssignment = filters.fifoAssignment i
  active : ∀ i, (filters.filterBanks i).active = filters.filterActive i
  master : ∀ i, (filters.filterBanks i).belongsToMaster =
    decide (i.val < filters.can2StartBank.toNat)

/-- Each FIFO has the list of the banks that are assigned to it. -/
def Listed (filters : Filters) : Prop :=
  ∀ fifo i, i ∈ filters.fifoFiltersPrioritized fifo ↔
    (filters.filterBanks i).fifoAssignment = fifo

/-! ## Arranging the banks of a FIFO -/

section

variable {sort : BankSort} {filters : Filters}

/-- One round numbers at most the filters of a bank. -/
theorem prioritizeBank_bank (fifo : RxFifo) (locals : Prioritizing) (place i : Fin 28) :
    ∃ number, (prioritizeBank fifo locals place).filterBanks i =
      { locals.filterBanks i with firstFilterNumber := number } := by
  unfold prioritizeBank
  dsimp only
  split
  · by_cases same : i = place
    · subst same
      exact ⟨locals.firstFilterNumber, Function.update_self i _ _⟩
    · exact ⟨_, Function.update_of_ne same _ _⟩
  · exact ⟨_, rfl⟩

theorem prioritizeBank_listed (fifo : RxFifo) (locals : Prioritizing) (place : Fin 28) :
    (prioritizeBank fifo locals place).listed =
      locals.listed ++
        if (locals.filterBanks place).fifoAssignment = fifo then [place] else [] := by
  unfold prioritizeBank
  dsimp only
  split
  · rfl
  · exact (List.append_nil _).symm

/-- The loop lists the banks assigned to the FIFO, and numbers their filters. -/
theorem foldl_prioritizeBank (fifo : RxFifo) (places : List (Fin 28)) (locals : Prioritizing) :
    (places.foldl (prioritizeBank fifo) locals).listed =
        locals.listed ++
          places.filter (fun i => (locals.filterBanks i).fifoAssignment = fifo) ∧
      ∀ i, ∃ number, (places.foldl (prioritizeBank fifo) locals).filterBanks i =
        { locals.filterBanks i with firstFilterNumber := number } := by
  induction places generalizing locals with
  | nil =>
      refine ⟨(List.append_nil _).symm, ?_⟩
      intro i
      exact ⟨(locals.filterBanks i).firstFilterNumber, rfl⟩
  | cons place places ih =>
      rcases ih (prioritizeBank fifo locals place) with ⟨listed, banks⟩
      constructor
      · have assigned (i : Fin 28) :
            ((prioritizeBank fifo locals place).filterBanks i).fifoAssignment =
              (locals.filterBanks i).fifoAssignment := by
          rcases prioritizeBank_bank fifo locals place i with ⟨number, bank⟩
          rw [bank]
        rw [List.foldl_cons, listed, prioritizeBank_listed, List.filter_cons]
        simp only [assigned, List.append_assoc]
        split <;> simp_all
      · intro i
        rcases banks i with ⟨number, bank⟩
        rcases prioritizeBank_bank fifo locals place i with ⟨earlier, before⟩
        exact ⟨number, by rw [List.foldl_cons, bank, before]⟩

/-- Arranging numbers the filters, updates the owners and lists the banks of the FIFO. -/
theorem prioritize_eq (filters : Filters)
    (sorts : ∀ compare banks, (sort compare banks).Perm banks) (fifo : RxFifo) :
    ∃ (numbers : Fin 28 → BitVec 32) (listed : List (Fin 28)),
      filters.prioritizeFifoFilters sort fifo =
        { filters with
          filterBanks := fun i =>
            { filters.filterBanks i with
              firstFilterNumber := numbers i
              belongsToMaster := i.val < filters.can2StartBank.toNat }
          fifoFiltersPrioritized :=
            Function.update filters.fifoFiltersPrioritized fifo listed } ∧
      ∀ i, i ∈ listed ↔ (filters.filterBanks i).fifoAssignment = fifo := by
  rcases foldl_prioritizeBank fifo (List.finRange 28) ⟨0, filters.filterBanks, []⟩ with
    ⟨assigned, banks⟩
  choose numbers banks using banks
  unfold prioritizeFifoFilters
  generalize (List.finRange 28).foldl (prioritizeBank fifo) ⟨0, filters.filterBanks, []⟩ = locals
    at *
  rcases locals with ⟨number, filterBanks, listed⟩
  obtain rfl : filterBanks = _ := funext banks
  refine ⟨numbers, _, rfl, ?_⟩
  intro i
  rw [(sorts _ _).mem_iff, assigned, List.nil_append, List.mem_filter, decide_eq_true_iff]
  exact and_iff_right (List.mem_finRange i)

theorem Current.prioritize (sorts : ∀ compare banks, (sort compare banks).Perm banks)
    (current : filters.Current) (fifo : RxFifo) :
    (filters.prioritizeFifoFilters sort fifo).Current := by
  rcases prioritize_eq filters sorts fifo with ⟨numbers, listed, same, -⟩
  rw [same]
  exact ⟨current.mode, current.scale, current.assigned, current.active, fun _ => rfl⟩

/-- Every write keeps the banks in agreement with the registers. -/
theorem Current.write (sorts : ∀ compare banks, (sort compare banks).Perm banks)
    (current : filters.Current) (offset : RegisterOffset) (value : BitVec 32) :
    (filters.write sort offset value).Current := by
  rcases current with ⟨mode, scale, assigned, active, master⟩
  unfold Filters.write
  cases offset with
  | filter bankIdx regIdx =>
      dsimp only
      split
      · refine ⟨?_, ?_, ?_, ?_, ?_⟩
        · intro i
          unfold mapBanks
          dsimp only
          split <;> exact mode i
        · intro i
          unfold mapBanks
          dsimp only
          split <;> exact scale i
        · intro i
          unfold mapBanks
          dsimp only
          split <;> exact assigned i
        · intro i
          unfold mapBanks
          dsimp only
          split <;> exact active i
        · intro i
          unfold mapBanks
          dsimp only
          split <;> exact master i
      · exact ⟨mode, scale, assigned, active, master⟩
  | fmr => exact ⟨mode, scale, assigned, active, fun _ => rfl⟩
  | fm1r =>
      dsimp only
      split
      · exact ⟨fun _ => rfl, scale, assigned, active, master⟩
      · exact ⟨mode, scale, assigned, active, master⟩
  | fs1r =>
      dsimp only
      split
      · exact ⟨mode, fun _ => rfl, assigned, active, master⟩
      · exact ⟨mode, scale, assigned, active, master⟩
  | ffa1r =>
      dsimp only
      split
      · exact ⟨mode, scale, fun _ => rfl, active, master⟩
      · exact ⟨mode, scale, assigned, active, master⟩
  | fa1r =>
      apply Current.prioritize sorts
      apply Current.prioritize sorts
      exact ⟨mode, scale, assigned, fun _ => rfl, master⟩
  | _ => exact ⟨mode, scale, assigned, active, master⟩

theorem prioritize_assigned (sorts : ∀ compare banks, (sort compare banks).Perm banks)
    (fifo : RxFifo) (i : Fin 28) :
    ((filters.prioritizeFifoFilters sort fifo).filterBanks i).fifoAssignment =
      (filters.filterBanks i).fifoAssignment := by
  rcases prioritize_eq filters sorts fifo with ⟨numbers, listed, same, -⟩
  rw [same]

theorem mem_prioritize (sorts : ∀ compare banks, (sort compare banks).Perm banks)
    (fifo other : RxFifo) (i : Fin 28) :
    i ∈ (filters.prioritizeFifoFilters sort fifo).fifoFiltersPrioritized other ↔
      if other = fifo then (filters.filterBanks i).fifoAssignment = fifo
      else i ∈ filters.fifoFiltersPrioritized other := by
  rcases prioritize_eq filters sorts fifo with ⟨numbers, listed, same, mem⟩
  rw [same]
  dsimp only
  by_cases own : other = fifo
  · rw [own, Function.update_self, if_pos rfl]
    exact mem i
  · rw [Function.update_of_ne own, if_neg own]

/-- Activating lists the banks of both FIFOs anew. -/
theorem listed_activate (sorts : ∀ compare banks, (sort compare banks).Perm banks)
    (filters : Filters) (value : BitVec 32) : (filters.write sort .fa1r value).Listed := by
  intro fifo i
  unfold Filters.write
  dsimp only
  rw [prioritize_assigned sorts, prioritize_assigned sorts, mem_prioritize sorts,
    mem_prioritize sorts, prioritize_assigned sorts]
  match fifo with
  | .rxFifo0 => exact Iff.rfl
  | .rxFifo1 => exact Iff.rfl

/-- Only an assignment makes the lists stale. -/
theorem Listed.write (sorts : ∀ compare banks, (sort compare banks).Perm banks)
    (listed : filters.Listed) {offset : RegisterOffset} (other : offset ≠ .ffa1r)
    (value : BitVec 32) : (filters.write sort offset value).Listed := by
  cases offset with
  | fa1r => exact listed_activate sorts filters value
  | ffa1r => exact absurd rfl other
  | filter bankIdx regIdx =>
      unfold Filters.write
      dsimp only
      split
      · intro fifo i
        unfold mapBanks
        dsimp only
        split <;> exact listed fifo i
      · exact listed
  | fmr => exact listed
  | fm1r =>
      unfold Filters.write
      dsimp only
      split <;> exact listed
  | fs1r =>
      unfold Filters.write
      dsimp only
      split <;> exact listed
  | _ => exact listed

end

/-! ## Runs of writes -/

/-- The filters after a list of writes. -/
def writes (sort : BankSort) (filters : Filters) (list : List (RegisterOffset × BitVec 32)) :
    Filters :=
  list.foldl (fun filters write => filters.write sort write.1 write.2) filters

section

variable {sort : BankSort} {filters : Filters}

theorem Current.writes (sorts : ∀ compare banks, (sort compare banks).Perm banks)
    (current : filters.Current) (list : List (RegisterOffset × BitVec 32)) :
    (filters.writes sort list).Current := by
  induction list generalizing filters with
  | nil => exact current
  | cons write list ih => exact ih (current.write sorts write.1 write.2)

theorem Listed.writes (sorts : ∀ compare banks, (sort compare banks).Perm banks)
    (listed : filters.Listed) {list : List (RegisterOffset × BitVec 32)}
    (none : ∀ write ∈ list, write.1 ≠ .ffa1r) : (filters.writes sort list).Listed := by
  induction list generalizing filters with
  | nil => exact listed
  | cons write list ih =>
      apply ih (listed.write sorts (none write List.mem_cons_self) write.2)
      exact fun other member => none other (List.mem_cons_of_mem write member)

end

/-! ## The peripheral with the same registers -/

/-- The bank of the peripheral that the registers make, in list mode. -/
def registerBank (filters : Filters) (i : Fin 28) : Bank :=
  { filters.filterBanks i with scale := filters.filterScale i }.bank

/-- The active banks of the master or of the slave that are assigned to a FIFO, as the
registers have them. -/
def bxcan (filters : Filters) (isSlave : Bool) (fifo : RxFifo) : Bxcan where
  banks i :=
    if inside : i < 28 then
      if filters.filterActive ⟨i, inside⟩ ∧ filters.fifoAssignment ⟨i, inside⟩ = fifo ∧
          (i < filters.can2StartBank.toNat ↔ isSlave = false) then
        some (filters.registerBank ⟨i, inside⟩)
      else
        none
    else
      none

/-- The active banks are in list mode, and a 32-bit word lists an extended id or has the bits
clear that the emulator does not compare. -/
def ListsIds (filters : Filters) : Prop :=
  ∀ i, filters.filterActive i →
    filters.filterMode i = .identifierList ∧
      (filters.filterScale i = .bits32 →
        FilterBank.Comparable ((filters.filterBanks i).fr .first) ∧
          FilterBank.Comparable ((filters.filterBanks i).fr .second))

instance (filters : Filters) : Decidable filters.ListsIds :=
  inferInstanceAs (Decidable (∀ _, _))

section

variable {filters : Filters} (isSlave : Bool) (fifo : RxFifo) (id : BitVec 11)
  (data : List (BitVec 8))

/-- One bank of the list of a FIFO. -/
theorem matchMessage_current (current : filters.Current) (ids : filters.ListsIds) {i : Fin 28}
    (active : filters.filterActive i = true) (target : RxFifo) :
    (filters.filterBanks i).matchMessage (.ofFrame (standardFrame id data)) = some target ↔
      filters.fifoAssignment i = target ∧ (filters.registerBank i).Admits (.standard id false) := by
  rcases ids i active with ⟨list, comparable⟩
  have scale := current.scale i
  rw [FilterBank.matchMessage_iff id data ((current.mode i).trans list)
    (fun bits32 => comparable (scale.symm.trans bits32)), current.assigned i]
  unfold registerBank
  rw [← scale]

/-- The banks that count for a controller and a FIFO. -/
theorem accepts_bxcan_iff (frame : Frame) :
    (filters.bxcan isSlave fifo).Accepts frame ↔
      ∃ i : Fin 28, (filters.filterActive i = true ∧ filters.fifoAssignment i = fifo ∧
        (i.val < filters.can2StartBank.toNat ↔ isSlave = false)) ∧
        (filters.registerBank i).Admits frame := by
  unfold Bxcan.Accepts bxcan
  dsimp only
  constructor
  · rintro ⟨i, bank, set, admits⟩
    split at set
    · rename_i inside
      rcases Option.ite_none_right_eq_some.mp set with ⟨counts, same⟩
      cases same
      exact ⟨⟨i, inside⟩, counts, admits⟩
    · exact nomatch set
  · rintro ⟨i, counts, admits⟩
    exact ⟨i.val, filters.registerBank i, by rw [dif_pos i.isLt, if_pos counts], admits⟩

/-- A message passes into a FIFO exactly when the peripheral accepts its frame. -/
theorem filterCanMessage_iff (current : filters.Current) (listed : filters.Listed)
    (ids : filters.ListsIds) (target : RxFifo) :
    filters.filterCanMessage isSlave fifo (.ofFrame (standardFrame id data)) = some target ↔
      target = fifo ∧ (filters.bxcan isSlave fifo).Accepts (.standard id false) := by
  have counts (i : Fin 28) :
      i ∈ (filters.fifoFiltersPrioritized fifo).filter (fun i =>
        (filters.filterBanks i).belongsToMaster == !isSlave) ↔
      filters.fifoAssignment i = fifo ∧
        (i.val < filters.can2StartBank.toNat ↔ isSlave = false) := by
    rw [List.mem_filter, listed fifo i, current.assigned i, beq_iff_eq, current.master i]
    cases isSlave <;> simp
  have found {i : Fin 28} {target : RxFifo}
      (matched : (if (filters.filterBanks i).active then
        (filters.filterBanks i).matchMessage (.ofFrame (standardFrame id data)) else none) =
          some target) :
      filters.filterActive i = true ∧ filters.fifoAssignment i = target ∧
        (filters.registerBank i).Admits (.standard id false) := by
    rcases Option.ite_none_right_eq_some.mp matched with ⟨active, matched⟩
    rw [current.active i] at active
    exact ⟨active, (matchMessage_current id data current ids active target).mp matched⟩
  unfold filterCanMessage
  rw [accepts_bxcan_iff]
  constructor
  · intro passed
    rcases List.exists_of_findSome?_eq_some passed with ⟨i, member, matched⟩
    rcases (counts i).mp member with ⟨assigned, owner⟩
    rcases found matched with ⟨active, same, admits⟩
    exact ⟨same.symm.trans assigned, i, ⟨active, assigned, owner⟩, admits⟩
  · rintro ⟨rfl, i, ⟨active, assigned, owner⟩, admits⟩
    have matched := (matchMessage_current id data current ids active target).mpr
      ⟨assigned, admits⟩
    rcases passed : List.findSome? _ _ with - | other
    · have none := List.findSome?_eq_none_iff.mp passed i ((counts i).mpr ⟨assigned, owner⟩)
      rw [if_pos ((current.active i).trans active), matched] at none
      exact nomatch none
    · rcases List.exists_of_findSome?_eq_some passed with ⟨j, member, matched⟩
      rcases (counts j).mp member with ⟨assigned, owner⟩
      rw [← (found matched).2.1, assigned]

end

/-- The filters of the reset agree with their registers. -/
theorem current_initial : (Stmcan.initial false).filters.Current where
  mode i := (if_neg (Bool.eq_false_iff.mp (has_zero (bitMask i)))).symm
  scale i := (if_neg (Bool.eq_false_iff.mp (has_zero (bitMask i)))).symm
  assigned i := (if_neg (Bool.eq_false_iff.mp (has_zero (bitMask i)))).symm
  active i := (has_zero (bitMask i)).symm
  master _ := rfl

end Filters

/-! ## Frames -/

namespace Stmcan

/-- A FIFO gets a message at most through its own filters. -/
theorem received_mem_offer_iff {can : Stmcan} {isSlave : Bool} {fifo place : RxFifo}
    {msg : CanMessage}
    (own : ∀ place target, can.filters.filterCanMessage isSlave place msg = some target →
      target = place) :
    .received fifo msg ∈ (can.offer isSlave msg place).1 ↔
      place = fifo ∧ can.filters.filterCanMessage isSlave fifo msg = some fifo := by
  unfold offer
  split
  · rename_i target passed
    have same := own place target passed
    subst same
    simp only [List.mem_singleton, CanEffect.received.injEq, and_true]
    constructor
    · rintro rfl
      exact ⟨rfl, passed⟩
    · rintro ⟨rfl, -⟩
      rfl
  · rename_i refused
    simp only [List.not_mem_nil, false_iff]
    rintro ⟨rfl, passed⟩
    rw [refused] at passed
    exact nomatch passed

theorem filters_offer (can : Stmcan) (isSlave : Bool) (msg : CanMessage) (place : RxFifo) :
    (can.offer isSlave msg place).2.filters = can.filters := by
  unfold offer
  split
  · unfold receiveCanMessage setRfr updateFifoInterruptLine
    dsimp only
    split <;> rfl
  · rfl

theorem received_mem_offerBoth_iff {can : Stmcan} {isSlave : Bool} {fifo : RxFifo}
    {msg : CanMessage}
    (own : ∀ place target, can.filters.filterCanMessage isSlave place msg = some target →
      target = place) :
    .received fifo msg ∈ (can.offerBoth isSlave msg).1 ↔
      can.filters.filterCanMessage isSlave fifo msg = some fifo := by
  have filters := filters_offer can isSlave msg .rxFifo0
  change _ ∈ (can.offer isSlave msg .rxFifo0).1 ++
    ((can.offer isSlave msg .rxFifo0).2.offer isSlave msg .rxFifo1).1 ↔ _
  rw [List.mem_append, received_mem_offer_iff own, received_mem_offer_iff (by rwa [filters]),
    filters]
  match fifo with
  | .rxFifo0 => simp
  | .rxFifo1 => simp

end Stmcan

/-- After any writes of the filter registers from the reset on, the last assignment followed
by an activation, with the active banks in list mode: a standard data frame that comes in at
an awake controller, the master or its slave, reaches a FIFO exactly when the peripheral with
the same registers accepts it there. -/
theorem can_filters_agree {sort : BankSort}
    (sorts : ∀ compare banks, (sort compare banks).Perm banks)
    (before : List (RegisterOffset × BitVec 32)) (value : BitVec 32)
    {after : List (RegisterOffset × BitVec 32)} (none : ∀ write ∈ after, write.1 ≠ .ffa1r)
    {can : Stmcan}
    (written : can.filters =
      (Stmcan.initial false).filters.writes sort (before ++ (.fa1r, value) :: after))
    (ids : can.filters.ListsIds) (awake : has can.mcr Stmcan.mcrSleep = false)
    (normal : has can.btr Stmcan.btrLbkm = false) (isSlave : Bool) (fifo : RxFifo)
    (id : BitVec 11) (data : List (BitVec 8)) :
    .received fifo (.ofFrame (standardFrame id data)) ∈
        (can.onFrameReceived isSlave (standardFrame id data)).1 ↔
      (can.filters.bxcan isSlave fifo).Accepts (.standard id false) := by
  have current : can.filters.Current := by
    rw [written]
    exact Filters.current_initial.writes sorts _
  have listed : can.filters.Listed := by
    have split : can.filters =
        (((Stmcan.initial false).filters.writes sort before).write sort .fa1r value).writes sort
          after := by
      rw [written]
      exact List.foldl_append
    rw [split]
    exact (Filters.listed_activate sorts _ value).writes sorts none
  have passes (place target : RxFifo) :=
    Filters.filterCanMessage_iff isSlave place id data current listed ids target
  have received : can.onFrameReceived isSlave (standardFrame id data) =
      can.offerBoth isSlave (.ofFrame (standardFrame id data)) := by
    unfold Stmcan.onFrameReceived
    rw [awake, normal]
    rfl
  rw [received, Stmcan.received_mem_offerBoth_iff fun place target passed =>
    ((passes place target).mp passed).1, passes fifo fifo]
  exact and_iff_right rfl

/-- One bank that lists two ids, and the frame of the second one. -/
theorem can_filters_agree_second :
    let can : Stmcan :=
      { Stmcan.blank with
        filters := (Stmcan.initial false).filters.writes (fun _ banks => banks)
          ([(.fmr, 0x0E01), (.fm1r, 1), (.filter 0 .first, 0x00A000E0),
            (.filter 0 .second, 0x00A000E0), (.ffa1r, 1)] ++ (.fa1r, 1) :: [(.fmr, 0x0E00)]) }
    .received .rxFifo1 (.ofFrame (standardFrame 7 [3])) ∈
        (can.onFrameReceived false (standardFrame 7 [3])).1 ↔
      (can.filters.bxcan false .rxFifo1).Accepts (.standard 7 false) :=
  can_filters_agree (fun _ banks => .refl banks) _ 1 (by decide) rfl (by decide +kernel) rfl rfl
    false .rxFifo1 7 [3]

end EmbeddedBase.Dev.Renode
