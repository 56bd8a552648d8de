import EmbeddedBase.Middleware.HeapRingbuffer.Fifo
import Mathlib.Data.Set.Card

/-!
# Ownership of the element memory

From every well-formed state, whatever is called and whichever allocations fail, the ring
buffer owns exactly one element block for each element it holds, and `ringbuffer_destroy`
gives everything back.
-/

namespace EmbeddedBase.Middleware.HeapRingbuffer

open EmbeddedBase.Data
open EmbeddedBase.Transition

/-- The well-formed states. -/
structure WellFormed (ring : Address) (heap : Heap Block) (view : View) : Prop where
  ring_block : heap.blocks ring = some (.ring view.rb)
  buffer_eq : view.rb.buffer = some view.array
  array_block : heap.blocks view.array = some (.slots view.slots)
  positive : 1 ≤ view.rb.capacity.toNat
  front_lt : view.rb.front.toNat < view.rb.capacity.toNat
  count_le : view.rb.count.toNat ≤ view.rb.capacity.toNat
  rear_eq : view.rb.rear.toNat =
    (view.rb.front.toNat + view.rb.count.toNat) % view.rb.capacity.toNat
  length_eq : view.slots.slots.length = view.rb.capacity.toNat
  length_pending : view.pending.length = view.rb.count.toNat
  pending_slots : ∀ i pointer, view.pending[i]? = some pointer →
    view.slots.slots[(view.rb.front.toNat + i) % view.rb.capacity.toNat]? = some (some pointer)
  distinct : view.pending.Nodup
  elements : ∀ address ∈ view.pending, ∃ bytes,
    heap.blocks address = some (.element bytes) ∧ bytes.length = view.rb.elementSize.toNat

/-- The bytes of an element block. -/
def elementBytes (block : Option Block) : List (BitVec 8) :=
  match block with
  | some (.element bytes) => bytes
  | _ => []

/-- The queued elements, oldest first. -/
def contents (heap : Heap Block) (view : View) : List (List (BitVec 8)) :=
  view.pending.map fun address => elementBytes (heap.blocks address)

/-- The blocks that do not belong to the ring buffer. -/
def others (ring : Address) (heap : Heap Block) (view : View) (address : Address) :
    Option Block :=
  if address = ring ∨ address = view.array ∨ address ∈ view.pending then none
  else heap.blocks address

/-- A capacity with a slot array of just that length. -/
def exactShape (capacity elementSize : BitVec 32) (positive : 1 ≤ capacity.toNat) : Shape where
  capacity := capacity
  elementSize := elementSize
  length := capacity.toNat
  positive := positive

theorem slotAt_exactShape {capacity elementSize : BitVec 32} {positive : 1 ≤ capacity.toNat}
    {front : Nat} (inside : front < capacity.toNat) (i : Nat) :
    slotAt (exactShape capacity elementSize positive).capacity.toNat front i =
      (front + i) % capacity.toNat :=
  slotAt_of_lt inside i

section

variable {ring : Address} {heap : Heap Block} {view : View}

theorem WellFormed.represents (wellFormed : WellFormed ring heap view) :
    Represents (exactShape view.rb.capacity view.rb.elementSize wellFormed.positive) ring
      (others ring heap view) (contents heap view) heap view where
  ring_block := wellFormed.ring_block
  buffer_eq := wellFormed.buffer_eq
  array_block := wellFormed.array_block
  element_blocks := by
    rw [contents, List.map_map]
    apply List.map_congr_left
    intro address member
    rcases wellFormed.elements address member with ⟨bytes, block, _⟩
    rw [Function.comp_apply, block]
    rfl
  capacity_eq := rfl
  elementSize_eq := rfl
  length_eq := wellFormed.length_eq
  count_le := by
    rw [contents, List.length_map, wellFormed.length_pending]
    exact wellFormed.count_le
  count_eq := by rw [contents, List.length_map, wellFormed.length_pending]
  rear_eq := by
    rw [contents, List.length_map, wellFormed.length_pending,
      slotAt_exactShape wellFormed.front_lt, wellFormed.rear_eq]
  pending_slots i pointer at_i := by
    rw [slotAt_exactShape wellFormed.front_lt]
    exact wellFormed.pending_slots i pointer at_i
  distinct := wellFormed.distinct
  whole bytes member := by
    rcases List.mem_map.mp member with ⟨address, pending, rfl⟩
    rcases wellFormed.elements address pending with ⟨bytes, block, length⟩
    rw [block]
    exact length
  rest address awayRing awayArray away := by
    rw [others, if_neg]
    rintro (here | here | here)
    · exact awayRing here
    · exact awayArray here
    · exact away here
  frame_ring := if_pos (Or.inl rfl)
  frame_array := if_pos (Or.inr (Or.inl rfl))
  frame_pending _ member := if_pos (Or.inr (Or.inr member))

variable {capacity elementSize : BitVec 32} {positive : 1 ≤ capacity.toNat}
  {frame : Address → Option Block} {queued : List (List (BitVec 8))}

theorem Represents.wellFormed
    (represents : Represents (exactShape capacity elementSize positive) ring frame queued
      heap view) (front_lt : view.rb.front.toNat < capacity.toNat) :
    WellFormed ring heap view where
  ring_block := represents.ring_block
  buffer_eq := represents.buffer_eq
  array_block := represents.array_block
  positive := by
    rw [represents.capacity_eq]
    exact positive
  front_lt := by
    rw [represents.capacity_eq]
    exact front_lt
  count_le := by
    rw [represents.capacity_eq, represents.count_eq]
    exact represents.count_le
  rear_eq := by
    rw [represents.rear_eq, slotAt_exactShape front_lt, represents.count_eq,
      represents.capacity_eq]
    rfl
  length_eq := by
    rw [represents.capacity_eq]
    exact represents.length_eq
  length_pending := by rw [represents.length_pending, represents.count_eq]
  pending_slots i pointer at_i := by
    have slot := represents.pending_slots i pointer at_i
    rw [slotAt_exactShape front_lt] at slot
    rwa [represents.capacity_eq]
  distinct := represents.distinct
  elements address member := by
    rcases represents.pending_block member with ⟨bytes, among, block⟩
    exact ⟨bytes, block, by rw [represents.whole bytes among, represents.elementSize_eq]⟩

theorem Represents.contents_eq
    (represents : Represents (exactShape capacity elementSize positive) ring frame queued
      heap view) : contents heap view = queued := by
  have blocks : (view.pending.map heap.blocks).map elementBytes =
      (queued.map fun bytes => some (Block.element bytes)).map elementBytes := by
    rw [represents.element_blocks]
  rw [List.map_map, List.map_map] at blocks
  change contents heap view = queued.map id at blocks
  rw [blocks, List.map_id]

theorem Represents.others_eq
    (represents : Represents (exactShape capacity elementSize positive) ring frame queued
      heap view) : others ring heap view = frame := by
  funext address
  rw [others]
  by_cases owned : address = ring ∨ address = view.array ∨ address ∈ view.pending
  · rw [if_pos owned]
    rcases owned with rfl | rfl | member
    · exact represents.frame_ring.symm
    · exact represents.frame_array.symm
    · exact (represents.frame_pending address member).symm
  · rw [if_neg owned]
    exact represents.rest address (fun here => owned (Or.inl here))
      (fun here => owned (Or.inr (Or.inl here))) fun here => owned (Or.inr (Or.inr here))

/-- Exactly the pending blocks are element blocks of this ring buffer. -/
theorem WellFormed.element_block_iff (wellFormed : WellFormed ring heap view)
    {address : Address} :
    (others ring heap view address = none ∧ ∃ bytes, heap.blocks address = some (.element bytes)) ↔
      address ∈ view.pending := by
  constructor
  · rintro ⟨foreign, bytes, block⟩
    by_contra away
    rw [others, if_neg, block] at foreign
    · cases foreign
    · rintro (rfl | rfl | here)
      · rw [wellFormed.ring_block] at block
        cases block
      · rw [wellFormed.array_block] at block
        cases block
      · exact away here
  · intro member
    rcases wellFormed.elements address member with ⟨bytes, block, _⟩
    exact ⟨if_pos (Or.inr (Or.inr member)), bytes, block⟩

/-- There are as many live element blocks as elements. -/
theorem WellFormed.ncard_elements (wellFormed : WellFormed ring heap view) :
    {address | others ring heap view address = none ∧
      ∃ bytes, heap.blocks address = some (.element bytes)}.ncard = view.rb.count.toNat := by
  have owned : {address | others ring heap view address = none ∧
      ∃ bytes, heap.blocks address = some (.element bytes)} = ↑view.pending.toFinset := by
    ext address
    rw [Finset.mem_coe, List.mem_toFinset]
    exact wellFormed.element_block_iff
  rw [owned, Set.ncard_coe_finset, List.toFinset_card_of_nodup wellFormed.distinct,
    wellFormed.length_pending]

/-! ## Destroy -/

theorem WellFormed.not_mem_pending (wellFormed : WellFormed ring heap view) {address : Address}
    {block : Block} (live : heap.blocks address = some block)
    (other : ∀ bytes, block ≠ .element bytes) : address ∉ view.pending := by
  intro member
  rcases wellFormed.elements address member with ⟨bytes, element, _⟩
  rw [live] at element
  exact other bytes (Option.some.inj element)

/-- The index of the loop does not wrap. -/
theorem WellFormed.toNat_index (wellFormed : WellFormed ring heap view) {i : Nat}
    (within : i < view.rb.count.toNat) :
    ((view.rb.front + BitVec.ofNat 32 i) % view.rb.capacity).toNat =
      (view.rb.front.toNat + i) % view.rb.capacity.toNat := by
  have addressable := view.slots.addressable
  have front := wellFormed.front_lt
  have count := wellFormed.count_le
  rw [wellFormed.length_eq, sizeofPointer] at addressable
  have counter : (BitVec.ofNat 32 i).toNat = i := by
    rw [BitVec.toNat_ofNat, Nat.mod_eq_of_lt (by omega)]
  rw [BitVec.toNat_umod, BitVec.toNat_add_of_lt, counter]
  rw [counter]
  omega

/-- A pending block is live until the loop reaches it. -/
theorem WellFormed.element_live (wellFormed : WellFormed ring heap view) {i : Nat}
    (inside : i < view.pending.length) :
    ∃ bytes, (heap.clear (view.pending.take i)).blocks view.pending[i] =
      some (.element bytes) := by
  rcases wellFormed.elements _ (List.getElem_mem inside) with ⟨bytes, block, _⟩
  refine ⟨bytes, ?_⟩
  rw [Heap.blocks_clear, if_neg, block]
  intro member
  rcases List.getElem_of_mem member with ⟨j, below, equal⟩
  rw [List.getElem_take] at equal
  rw [List.length_take] at below
  have same := (List.Nodup.getElem_inj_iff wellFormed.distinct).mp equal
  omega

/-- The loop frees the pending blocks one after the other. -/
theorem WellFormed.destroyElements (wellFormed : WellFormed ring heap view) {i : Nat}
    (within : i ≤ view.rb.count.toNat) :
    destroyElements heap (some ring) i = some (heap.clear (view.pending.take i)) := by
  have ringAway := wellFormed.not_mem_pending wellFormed.ring_block (by simp)
  have arrayAway := wellFormed.not_mem_pending wellFormed.array_block (by simp)
  induction i with
  | zero => rfl
  | succ i ih =>
      have inside : i < view.pending.length := by
        rw [wellFormed.length_pending]
        exact within
      have ringLive : (heap.clear (view.pending.take i)).blocks ring = some (.ring view.rb) := by
        rw [Heap.blocks_clear, if_neg fun member => ringAway (List.mem_of_mem_take member),
          wellFormed.ring_block]
      have arrayLive : (heap.clear (view.pending.take i)).blocks view.array =
          some (.slots view.slots) := by
        rw [Heap.blocks_clear, if_neg fun member => arrayAway (List.mem_of_mem_take member),
          wellFormed.array_block]
      have slot := wellFormed.pending_slots i view.pending[i] (List.getElem?_eq_getElem inside)
      rcases wellFormed.element_live inside with ⟨bytes, elementLive⟩
      rw [HeapRingbuffer.destroyElements, ih (Nat.le_of_lt within)]
      dsimp only [Option.bind_eq_bind, Option.bind_some]
      rw [loadRing_of_live ringLive]
      dsimp only [Option.bind_some]
      rw [wellFormed.buffer_eq, readSlot_of_live arrayLive, wellFormed.toNat_index within,
        slot]
      dsimp only [Option.bind_some]
      rw [if_pos (by simp), Heap.free_of_live elementLive, ← Heap.clear_concat,
        List.take_add_one, List.getElem?_eq_getElem inside]
      rfl

/-- Destroying a ring buffer leaves the other blocks. -/
theorem WellFormed.ringbufferDestroy (wellFormed : WellFormed ring heap view) :
    ∃ heap', ringbufferDestroy heap (some ring) = some heap' ∧
      heap'.blocks = others ring heap view := by
  have all : view.pending.take view.rb.count.toNat = view.pending := by
    rw [← wellFormed.length_pending, List.take_length]
  have ringAway := wellFormed.not_mem_pending wellFormed.ring_block (by simp)
  have arrayAway := wellFormed.not_mem_pending wellFormed.array_block (by simp)
  have apart := wellFormed.represents.ring_ne_array
  have ringLive : (heap.clear view.pending).blocks ring = some (.ring view.rb) := by
    rw [Heap.blocks_clear, if_neg ringAway, wellFormed.ring_block]
  have arrayLive : (heap.clear view.pending).blocks view.array = some (.slots view.slots) := by
    rw [Heap.blocks_clear, if_neg arrayAway, wellFormed.array_block]
  refine ⟨((heap.clear view.pending).set view.array none).set ring none, ?_, ?_⟩
  · rw [HeapRingbuffer.ringbufferDestroy, loadRing_of_live wellFormed.ring_block]
    dsimp only [Option.bind_eq_bind, Option.bind_some]
    rw [wellFormed.destroyElements (Nat.le_refl _), all]
    dsimp only [Option.bind_some]
    rw [loadRing_of_live ringLive]
    dsimp only [Option.bind_some]
    rw [wellFormed.buffer_eq, Heap.free_of_live arrayLive]
    dsimp only [Option.bind_some]
    rw [Heap.free_of_live ((Heap.blocks_set_of_ne _ _ apart).trans ringLive)]
  · funext address
    rw [others]
    by_cases isRing : address = ring
    · rw [if_pos (Or.inl isRing), isRing, Heap.blocks_set_self]
    · rw [Heap.blocks_set_of_ne _ _ isRing]
      by_cases isArray : address = view.array
      · rw [if_pos (Or.inr (Or.inl isArray)), isArray, Heap.blocks_set_self]
      · rw [Heap.blocks_set_of_ne _ _ isArray, Heap.blocks_clear]
        simp [isRing, isArray]

end

/-! ## The ring buffer over whole runs -/

/-- What holds after a sequence of calls. -/
structure OwnsExactly (ring : Address) (heap : Heap Block) (view : View)
    (queued : List (List (BitVec 8))) (heap' : Heap Block) (view' : View) : Prop where
  wellFormed : WellFormed ring heap' view'
  capacity_eq : view'.rb.capacity = view.rb.capacity
  elementSize_eq : view'.rb.elementSize = view.rb.elementSize
  contents_eq : contents heap' view' = queued
  others_eq : others ring heap' view' = others ring heap view
  live_elements : {address | others ring heap view address = none ∧
    ∃ bytes, heap'.blocks address = some (.element bytes)}.ncard = view'.rb.count.toNat
  dequeue_empty : queued = [] → ∀ data,
    ringbufferDequeue heap' (some ring) data = some (data, heap')
  destroy : ∃ heap'', ringbufferDestroy heap' (some ring) = some heap'' ∧
    heap''.blocks = others ring heap view

theorem Represents.ownsExactly {ring : Address} {heap heap' : Heap Block} {view view' : View}
    {positive : 1 ≤ view.rb.capacity.toNat} {queued : List (List (BitVec 8))}
    (represents : Represents (exactShape view.rb.capacity view.rb.elementSize positive) ring
      (others ring heap view) queued heap' view')
    (front_lt : view'.rb.front.toNat < view.rb.capacity.toNat) :
    OwnsExactly ring heap view queued heap' view' where
  wellFormed := represents.wellFormed front_lt
  capacity_eq := represents.capacity_eq
  elementSize_eq := represents.elementSize_eq
  contents_eq := represents.contents_eq
  others_eq := represents.others_eq
  live_elements := by
    rw [← represents.others_eq]
    exact (represents.wellFormed front_lt).ncard_elements
  dequeue_empty none data := by
    subst none
    exact represents.dequeue_empty_eq data
  destroy := by
    rw [← represents.others_eq]
    exact (represents.wellFormed front_lt).ringbufferDestroy

/-- From every well-formed state every admissible call sequence is defined and gives the
replies of a bounded queue, and the element memory is owned exactly throughout. -/
theorem ringbuffer_fifo_and_ownership (ring : Address) (heap : Heap Block) (view : View)
    (wellFormed : WellFormed ring heap view) (calls : List Call)
    (admissible : (Faulting.machine (execute ring)).Always
      (Faulting.Lift (Admissible view.rb.elementSize.toNat)) (some heap) calls) :
    (Faulting.machine (execute ring)).replies (some heap) calls =
        ((fifo view.rb.capacity.toNat view.rb.elementSize.toNat).replies
          (contents heap view) calls).map some ∧
      ∃ heap' view', (Faulting.machine (execute ring)).final (some heap) calls = some heap' ∧
        OwnsExactly ring heap view
          ((fifo view.rb.capacity.toNat view.rb.elementSize.toNat).final
            (contents heap view) calls) heap' view' := by
  let shape := exactShape view.rb.capacity view.rb.elementSize wellFormed.positive
  have simulates := execute_simulates shape (Nat.le_refl _) (Nat.le_refl _) ring
    (others ring heap view)
  have related : Holds shape view.rb.capacity.toNat ring (others ring heap view) heap
      (contents heap view) :=
    ⟨view, wellFormed.represents, wellFormed.front_lt⟩
  constructor
  · exact simulates.replies related admissible
  · rcases simulates.final related admissible with
      ⟨heap', executed, view', represents, front_lt⟩
    exact ⟨heap', view', executed, represents.ownsExactly front_lt⟩

/-- A ring buffer of two slots that holds one element in its second slot. -/
def exampleView : View where
  rb := ⟨some 2, 2, 1, 1, 0, 1⟩
  array := 2
  slots := ⟨[none, some 3], by decide⟩
  pending := [3]

def exampleHeap : Heap Block :=
  ((Heap.empty.set 1 (some (.ring exampleView.rb))).set 2
    (some (.slots exampleView.slots))).set 3 (some (.element [7]))

theorem exampleHeap_wellFormed : WellFormed 1 exampleHeap exampleView where
  ring_block := rfl
  buffer_eq := rfl
  array_block := rfl
  positive := by decide
  front_lt := by decide
  count_le := by decide
  rear_eq := by decide
  length_eq := rfl
  length_pending := rfl
  pending_slots i pointer at_i := by
    cases i with
    | zero => exact congrArg some at_i
    | succ i => cases at_i
  distinct := by decide
  elements address member := by
    cases List.mem_singleton.mp member
    exact ⟨[7], rfl, rfl⟩

/-- One element is queued and one is taken. -/
theorem ringbuffer_fifo_and_ownership_example :
    (Faulting.machine (execute 1)).replies (some exampleHeap)
        [.enqueue [8] (some (4, fun _ => 0)), .dequeue [0]] =
        ((fifo 2 1).replies (contents exampleHeap exampleView)
          [.enqueue [8] (some (4, fun _ => 0)), .dequeue [0]]).map some ∧
      ∃ heap' view', (Faulting.machine (execute 1)).final (some exampleHeap)
          [.enqueue [8] (some (4, fun _ => 0)), .dequeue [0]] = some heap' ∧
        OwnsExactly 1 exampleHeap exampleView
          ((fifo 2 1).final (contents exampleHeap exampleView)
            [.enqueue [8] (some (4, fun _ => 0)), .dequeue [0]]) heap' view' := by
  apply ringbuffer_fifo_and_ownership 1 exampleHeap exampleView exampleHeap_wellFormed
  refine ⟨?_, fun _ _ => Nat.le_refl 1, trivial⟩
  rintro _ ⟨⟩
  refine ⟨Nat.le_refl 1, ?_⟩
  rintro _ ⟨⟩
  rfl

end EmbeddedBase.Middleware.HeapRingbuffer
