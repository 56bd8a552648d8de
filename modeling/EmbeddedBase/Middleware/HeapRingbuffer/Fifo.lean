import EmbeddedBase.Data.RingSlots
import EmbeddedBase.Middleware.HeapRingbuffer.Core
import EmbeddedBase.Transition.Faulting

/-!
# The heap ring buffer is a bounded FIFO queue

The heap splits into the ring buffer's own blocks and the rest.  The pending slots hold
distinct element blocks, oldest first; every call keeps that and gives the replies of a
bounded queue.
-/

namespace EmbeddedBase.Middleware.HeapRingbuffer

open EmbeddedBase.Data
open EmbeddedBase.Transition

/-! ## The queue -/

/-- A bounded queue of byte strings.  It takes an element when it is not full and memory
for it is proposed. -/
def fifo (capacity elementSize : Nat) : Machine (List (List (BitVec 8))) Call Reply :=
  fun contents call =>
    match call, contents with
    | .enqueue data proposal, contents =>
        if contents.length = capacity ∨ proposal.isNone then
          (.status (-1), contents)
        else
          (.status 0, contents ++ [data.take elementSize])
    | .dequeue data, [] => (.data data, [])
    | .dequeue data, oldest :: contents => (.data (splice data 0 oldest), contents)
    | .isEmpty, contents => (.flag contents.isEmpty, contents)
    | .isFull, contents => (.flag (decide (contents.length = capacity)), contents)

/-- The caller's objects hold an element, and `malloc` proposes a free address. -/
def Admissible (elementSize : Nat) (heap : Heap Block) (call : Call) : Prop :=
  match call with
  | .enqueue data proposal =>
      elementSize ≤ data.length ∧ ∀ proposed ∈ proposal, heap.blocks proposed.1 = none
  | .dequeue data => elementSize ≤ data.length
  | .isEmpty => True
  | .isFull => True

/-! ## Accesses to live blocks -/

section Accesses

variable {heap : Heap Block} {address : Address} {ring : Ringbuffer} {array : SlotArray}
  {bytes data : List (BitVec 8)} {n : BitVec 32}

theorem loadRing_of_live (live : heap.blocks address = some (.ring ring)) :
    loadRing heap (some address) = some ring := by
  simp [loadRing, live]

theorem storeRing_of_live {old : Block} (live : heap.blocks address = some old) :
    storeRing heap (some address) ring = some (heap.set address (some (.ring ring))) :=
  Heap.store_of_live live

theorem readSlot_of_live (live : heap.blocks address = some (.slots array)) (n : BitVec 32) :
    readSlot heap (some address) n = array.slots[n.toNat]? := by
  simp [readSlot, live]

theorem writeSlot_of_live (live : heap.blocks address = some (.slots array))
    (inside : n.toNat < array.slots.length) (pointer : Pointer) :
    writeSlot heap (some address) n pointer =
      some (heap.set address (some (.slots (array.set n.toNat pointer)))) := by
  rw [writeSlot, Heap.load_some, live]
  dsimp only
  rw [if_pos inside, Heap.store_of_live live]

theorem copyIn_of_live (live : heap.blocks address = some (.element bytes))
    (whole : bytes.length = n.toNat) (enough : n.toNat ≤ data.length) :
    copyIn heap (some address) data n =
      some (heap.set address (some (.element (data.take n.toNat)))) := by
  have length : (data.take n.toNat).length = bytes.length := by
    rw [List.length_take, Nat.min_eq_left enough, whole]
  have copied : splice bytes 0 (data.take n.toNat) = data.take n.toNat := by
    rw [splice, Nat.zero_add, length, List.drop_length, List.take_zero, List.nil_append,
      List.append_nil]
  rw [copyIn, Heap.load_some, live]
  dsimp only
  rw [if_pos ⟨Nat.le_of_eq whole.symm, enough⟩, Heap.store_of_live live, copied]

theorem copyOut_of_live (live : heap.blocks address = some (.element bytes))
    (whole : bytes.length = n.toNat) (enough : n.toNat ≤ data.length) :
    copyOut heap (some address) data n = some (splice data 0 bytes) := by
  rw [copyOut, Heap.load_some, live]
  dsimp only
  rw [if_pos ⟨Nat.le_of_eq whole.symm, enough⟩, ← whole, List.take_length]

end Accesses

/-! ## The invariant -/

/-- What stays fixed: the two sizes and the length of the slot array. -/
structure Shape where
  capacity : BitVec 32
  elementSize : BitVec 32
  length : Nat
  positive : 1 ≤ capacity.toNat

/-- The blocks of a ring buffer: its structure, its slot array, and the element blocks in
the pending slots, oldest first. -/
structure View where
  rb : Ringbuffer
  array : Address
  slots : SlotArray
  pending : List Address

/-- The structure and the slot array are in the heap. -/
structure Linked (ring : Address) (heap : Heap Block) (view : View) : Prop where
  ring_block : heap.blocks ring = some (.ring view.rb)
  buffer_eq : view.rb.buffer = some view.array
  array_block : heap.blocks view.array = some (.slots view.slots)

/-- The heap consists of a ring buffer that holds `contents`, and of `frame`. -/
structure Represents (shape : Shape) (ring : Address) (frame : Address → Option Block)
    (contents : List (List (BitVec 8))) (heap : Heap Block) (view : View) : Prop
    extends Linked ring heap view where
  element_blocks : view.pending.map heap.blocks =
    contents.map fun bytes => some (Block.element bytes)
  capacity_eq : view.rb.capacity = shape.capacity
  elementSize_eq : view.rb.elementSize = shape.elementSize
  length_eq : view.slots.slots.length = shape.length
  count_le : contents.length ≤ shape.capacity.toNat
  count_eq : view.rb.count.toNat = contents.length
  rear_eq : view.rb.rear.toNat =
    slotAt shape.capacity.toNat view.rb.front.toNat contents.length
  pending_slots : ∀ i pointer, view.pending[i]? = some pointer →
    view.slots.slots[slotAt shape.capacity.toNat view.rb.front.toNat i]? = some (some pointer)
  distinct : view.pending.Nodup
  whole : ∀ bytes ∈ contents, bytes.length = shape.elementSize.toNat
  rest : ∀ address, address ≠ ring → address ≠ view.array → address ∉ view.pending →
    heap.blocks address = frame address
  frame_ring : frame ring = none
  frame_array : frame view.array = none
  frame_pending : ∀ address ∈ view.pending, frame address = none

/-! ### The structure and the slot array -/

section Linked

variable {ring : Address} {heap : Heap Block} {view : View}

theorem Linked.ring_ne_array (linked : Linked ring heap view) : ring ≠ view.array := by
  intro equal
  have block := linked.ring_block
  rw [equal, linked.array_block] at block
  cases block

theorem Linked.ne_ring_of_fresh (linked : Linked ring heap view) {address : Address}
    (fresh : heap.blocks address = none) : address ≠ ring := by
  rintro rfl
  rw [linked.ring_block] at fresh
  cases fresh

theorem Linked.ne_array_of_fresh (linked : Linked ring heap view) {address : Address}
    (fresh : heap.blocks address = none) : address ≠ view.array := by
  rintro rfl
  rw [linked.array_block] at fresh
  cases fresh

/-- The index after a slot does not wrap: an array of pointers is far smaller than memory. -/
theorem toNat_add_one_of_lt {slots : SlotArray} {index : BitVec 32}
    (inside : index.toNat < slots.slots.length) : (index + 1).toNat = index.toNat + 1 := by
  have addressable := slots.addressable
  apply BitVec.toNat_add_of_lt
  rw [sizeofPointer] at addressable
  change index.toNat + 1 < 2 ^ 32
  omega

/-- The view after an element was queued at a new address. -/
def pushed (view : View) (address : Address) : View where
  rb := { view.rb with
    rear := (view.rb.rear + 1) % view.rb.capacity, count := view.rb.count + 1 }
  array := view.array
  slots := view.slots.set view.rb.rear.toNat (some address)
  pending := view.pending ++ [address]

/-- The heap after an element was queued at a new address. -/
def pushedHeap (view : View) (ring address : Address) (heap : Heap Block)
    (element : List (BitVec 8)) : Heap Block :=
  ((heap.set address (some (.element element))).set view.array
    (some (.slots (pushed view address).slots))).set ring (some (.ring (pushed view address).rb))

theorem Linked.pushed (linked : Linked ring heap view) (address : Address)
    (element : List (BitVec 8)) :
    Linked ring (pushedHeap view ring address heap element) (pushed view address) where
  ring_block := Heap.blocks_set_self _ _ _
  buffer_eq := linked.buffer_eq
  array_block :=
    (Heap.blocks_set_of_ne _ _ (Ne.symm linked.ring_ne_array)).trans (Heap.blocks_set_self _ _ _)

/-- An enqueue that finds room and memory. -/
theorem Linked.enqueue_eq (linked : Linked ring heap view)
    (notFull : ringbufferIsFull view.rb = false)
    (inside : view.rb.rear.toNat < view.slots.slots.length) {data : List (BitVec 8)}
    (enough : view.rb.elementSize.toNat ≤ data.length) {address : Address} (garbage : Garbage)
    (fresh : heap.blocks address = none) :
    ringbufferEnqueue heap (some ring) data (some (address, garbage)) =
      some (0, pushedHeap view ring address heap (data.take view.rb.elementSize.toNat)) := by
  have notRing := linked.ne_ring_of_fresh fresh
  have notArray := linked.ne_array_of_fresh fresh
  have ringNotArray := linked.ring_ne_array
  let element := (List.range view.rb.elementSize.toNat).map garbage
  let allocated := heap.set address (some (.element element))
  let slots := view.slots.set view.rb.rear.toNat (some address)
  let stored := allocated.set view.array (some (.slots slots))
  have arrayLive : allocated.blocks view.array = some (.slots view.slots) := by
    rw [Heap.blocks_set_of_ne _ _ (Ne.symm notArray), linked.array_block]
  have elementLive : stored.blocks address = some (.element element) := by
    rw [Heap.blocks_set_of_ne _ _ notArray, Heap.blocks_set_self]
  have whole : element.length = view.rb.elementSize.toNat := by
    rw [List.length_map, List.length_range]
  have written : slots.slots[view.rb.rear.toNat]? = some (some address) :=
    List.getElem?_set_self inside
  have malloced : heap.malloc (elementProposal view.rb.elementSize (some (address, garbage))) =
      (some address, allocated) :=
    Heap.malloc_of_fresh fresh
  have ringLive (block : Option Block) :
      (stored.set address block).blocks ring = some (.ring view.rb) := by
    rw [Heap.blocks_set_of_ne _ _ (Ne.symm notRing), Heap.blocks_set_of_ne _ _ ringNotArray,
      Heap.blocks_set_of_ne _ _ (Ne.symm notRing), linked.ring_block]
  rw [ringbufferEnqueue, loadRing_of_live linked.ring_block]
  dsimp only [Option.bind_eq_bind, Option.bind_some]
  rw [notFull, if_neg Bool.false_ne_true, malloced]
  dsimp only
  rw [linked.buffer_eq, writeSlot_of_live arrayLive inside]
  dsimp only [Option.bind_some]
  rw [readSlot_of_live (Heap.blocks_set_self _ _ _), written]
  dsimp only [Option.bind_some]
  rw [if_neg (by simp), copyIn_of_live elementLive whole enough]
  dsimp only [Option.bind_some]
  rw [storeRing_of_live (ringLive _)]
  dsimp only [Option.bind_some]
  rw [pushedHeap, Heap.set_comm _ (Ne.symm notArray), Heap.set_set, ← linked.buffer_eq]
  rfl

/-- An enqueue whose slot is not in the array. -/
theorem Linked.enqueue_outside (linked : Linked ring heap view)
    (notFull : ringbufferIsFull view.rb = false)
    (outside : view.slots.slots.length ≤ view.rb.rear.toNat) (data : List (BitVec 8))
    {address : Address} (garbage : Garbage) (fresh : heap.blocks address = none) :
    ringbufferEnqueue heap (some ring) data (some (address, garbage)) = none := by
  let element := (List.range view.rb.elementSize.toNat).map garbage
  let allocated := heap.set address (some (.element element))
  have arrayLive : allocated.blocks view.array = some (.slots view.slots) := by
    rw [Heap.blocks_set_of_ne _ _ (Ne.symm (linked.ne_array_of_fresh fresh)),
      linked.array_block]
  have malloced : heap.malloc (elementProposal view.rb.elementSize (some (address, garbage))) =
      (some address, allocated) :=
    Heap.malloc_of_fresh fresh
  have fault : writeSlot allocated (some view.array) view.rb.rear (some address) = none := by
    rw [writeSlot, Heap.load_some, arrayLive]
    exact if_neg (Nat.not_lt.mpr outside)
  rw [ringbufferEnqueue, loadRing_of_live linked.ring_block]
  dsimp only [Option.bind_eq_bind, Option.bind_some]
  rw [notFull, if_neg Bool.false_ne_true, malloced]
  dsimp only
  rw [linked.buffer_eq, fault]
  rfl

theorem Linked.enqueue_full (linked : Linked ring heap view)
    (full : ringbufferIsFull view.rb = true) (data : List (BitVec 8))
    (proposal : Option (Address × Garbage)) :
    ringbufferEnqueue heap (some ring) data proposal = some (-1, heap) := by
  rw [ringbufferEnqueue, loadRing_of_live linked.ring_block]
  dsimp only [Option.bind_eq_bind, Option.bind_some]
  rw [full, if_pos rfl]

/-- The view after `malloc` failed: its `NULL` is in the slot behind the last element. -/
def refused (view : View) : View :=
  { view with slots := view.slots.set view.rb.rear.toNat none }

/-- The heap after `malloc` failed. -/
def refusedHeap (view : View) (heap : Heap Block) : Heap Block :=
  heap.set view.array (some (.slots (refused view).slots))

theorem Linked.enqueue_refused (linked : Linked ring heap view)
    (notFull : ringbufferIsFull view.rb = false)
    (inside : view.rb.rear.toNat < view.slots.slots.length) (data : List (BitVec 8)) :
    ringbufferEnqueue heap (some ring) data none = some (-1, refusedHeap view heap) := by
  have written : (view.slots.set view.rb.rear.toNat none).slots[view.rb.rear.toNat]? =
      some none :=
    List.getElem?_set_self inside
  have malloced : heap.malloc (elementProposal view.rb.elementSize none) = (none, heap) := rfl
  rw [ringbufferEnqueue, loadRing_of_live linked.ring_block]
  dsimp only [Option.bind_eq_bind, Option.bind_some]
  rw [notFull, if_neg Bool.false_ne_true, malloced]
  dsimp only
  rw [linked.buffer_eq, writeSlot_of_live linked.array_block inside]
  dsimp only [Option.bind_some]
  rw [readSlot_of_live (Heap.blocks_set_self _ _ _), written]
  rfl

end Linked

/-! ### The pending elements -/

namespace Represents

variable {shape : Shape} {ring : Address} {frame : Address → Option Block}
  {contents : List (List (BitVec 8))} {heap : Heap Block} {view : View}

theorem length_pending (represents : Represents shape ring frame contents heap view) :
    view.pending.length = contents.length := by
  have blocks := congrArg List.length represents.element_blocks
  rwa [List.length_map, List.length_map] at blocks

theorem pending_block (represents : Represents shape ring frame contents heap view)
    {address : Address} (member : address ∈ view.pending) :
    ∃ bytes ∈ contents, heap.blocks address = some (.element bytes) := by
  have mapped := List.mem_map_of_mem (f := heap.blocks) member
  rw [represents.element_blocks] at mapped
  rcases List.mem_map.mp mapped with ⟨bytes, among, block⟩
  exact ⟨bytes, among, block.symm⟩

theorem ring_not_mem (represents : Represents shape ring frame contents heap view) :
    ring ∉ view.pending := by
  intro member
  rcases represents.pending_block member with ⟨bytes, _, block⟩
  rw [represents.ring_block] at block
  cases block

theorem array_not_mem (represents : Represents shape ring frame contents heap view) :
    view.array ∉ view.pending := by
  intro member
  rcases represents.pending_block member with ⟨bytes, _, block⟩
  rw [represents.array_block] at block
  cases block

theorem isFull_eq (represents : Represents shape ring frame contents heap view) :
    ringbufferIsFull view.rb = decide (contents.length = shape.capacity.toNat) := by
  rw [ringbufferIsFull, represents.capacity_eq, ← represents.count_eq]
  by_cases full : view.rb.count = shape.capacity
  · simp [full]
  · have different : view.rb.count.toNat ≠ shape.capacity.toNat :=
      fun equal => full (BitVec.eq_of_toNat_eq equal)
    simp [full, different]

theorem isEmpty_eq (represents : Represents shape ring frame contents heap view) :
    ringbufferIsEmpty view.rb = contents.isEmpty := by
  have count := represents.count_eq
  rw [ringbufferIsEmpty]
  cases contents with
  | nil =>
      have zero : view.rb.count = 0 := BitVec.eq_of_toNat_eq count
      simp [zero]
  | cons oldest contents =>
      have positive : view.rb.count ≠ 0 := by
        intro zero
        rw [zero] at count
        simp at count
      simpa using positive

theorem notFull (represents : Represents shape ring frame [] heap view) :
    ringbufferIsFull view.rb = false := by
  rw [represents.isFull_eq]
  exact decide_eq_false (Nat.ne_of_lt shape.positive)

/-- The slot behind the last element is not pending. -/
theorem pending_slots_set_rear (represents : Represents shape ring frame contents heap view)
    (room : contents.length ≠ shape.capacity.toNat) (value : Pointer) {i : Nat}
    {pointer : Address} (at_i : view.pending[i]? = some pointer) :
    (view.slots.slots.set view.rb.rear.toNat value)[
      slotAt shape.capacity.toNat view.rb.front.toNat i]? = some (some pointer) := by
  have earlier : i < view.pending.length := (List.getElem?_eq_some_iff.mp at_i).1
  have below : contents.length < shape.capacity.toNat :=
    Nat.lt_of_le_of_ne represents.count_le room
  rw [represents.length_pending] at earlier
  have different : view.rb.rear.toNat ≠
      slotAt shape.capacity.toNat view.rb.front.toNat i := by
    rw [represents.rear_eq]
    exact Ne.symm (slotAt_ne earlier below)
  rw [List.getElem?_set_ne different]
  exact represents.pending_slots i pointer at_i

theorem toNat_add_one_mod (represents : Represents shape ring frame contents heap view)
    {index : BitVec 32} (inside : index.toNat < view.slots.slots.length) :
    ((index + 1) % view.rb.capacity).toNat = (index.toNat + 1) % shape.capacity.toNat := by
  rw [BitVec.toNat_umod, toNat_add_one_of_lt inside, represents.capacity_eq]

/-! ### Enqueue -/

/-- Away from the three blocks it writes, an enqueue leaves the heap as it is. -/
theorem blocks_pushedHeap_of_ne (view : View) {ring address other : Address} (heap : Heap Block)
    (element : List (BitVec 8)) (awayRing : other ≠ ring) (awayArray : other ≠ view.array)
    (away : other ≠ address) :
    (pushedHeap view ring address heap element).blocks other = heap.blocks other := by
  rw [pushedHeap, Heap.blocks_set_of_ne _ _ awayRing, Heap.blocks_set_of_ne _ _ awayArray,
    Heap.blocks_set_of_ne _ _ away]

theorem not_mem_of_fresh (represents : Represents shape ring frame contents heap view)
    {address : Address} (fresh : heap.blocks address = none) : address ∉ view.pending := by
  intro member
  rcases represents.pending_block member with ⟨bytes, _, block⟩
  rw [fresh] at block
  cases block

theorem pushed_element_blocks (represents : Represents shape ring frame contents heap view)
    (element : List (BitVec 8)) {address : Address} (fresh : heap.blocks address = none) :
    (pushed view address).pending.map (pushedHeap view ring address heap element).blocks =
      (contents ++ [element]).map fun bytes => some (Block.element bytes) := by
  have new : (pushedHeap view ring address heap element).blocks address =
      some (.element element) := by
    rw [pushedHeap, Heap.blocks_set_of_ne _ _ (represents.ne_ring_of_fresh fresh),
      Heap.blocks_set_of_ne _ _ (represents.ne_array_of_fresh fresh), Heap.blocks_set_self]
  have old : view.pending.map (pushedHeap view ring address heap element).blocks =
      view.pending.map heap.blocks := by
    apply List.map_congr_left
    intro other member
    apply blocks_pushedHeap_of_ne
    · exact fun equal => represents.ring_not_mem (equal ▸ member)
    · exact fun equal => represents.array_not_mem (equal ▸ member)
    · exact fun equal => represents.not_mem_of_fresh fresh (equal ▸ member)
  change (view.pending ++ [address]).map _ = _
  rw [List.map_append, List.map_append, old, represents.element_blocks, List.map_singleton,
    List.map_singleton, new]

theorem pushed_pending_slots (represents : Represents shape ring frame contents heap view)
    (room : contents.length ≠ shape.capacity.toNat)
    (inside : view.rb.rear.toNat < view.slots.slots.length) {address pointer : Address} {i : Nat}
    (at_i : (pushed view address).pending[i]? = some pointer) :
    (pushed view address).slots.slots[
      slotAt shape.capacity.toNat view.rb.front.toNat i]? = some (some pointer) := by
  change (view.slots.slots.set view.rb.rear.toNat (some address))[
    slotAt _ view.rb.front.toNat i]? = _
  change (view.pending ++ [address])[i]? = some pointer at at_i
  have within : i < view.pending.length + 1 := by
    have found := List.getElem?_eq_some_iff.mp at_i
    simpa using found.1
  rcases Nat.lt_succ_iff_lt_or_eq.mp within with earlier | rfl
  · rw [List.getElem?_append_left earlier] at at_i
    exact represents.pending_slots_set_rear room (some address) at_i
  · rw [List.getElem?_concat_length] at at_i
    cases at_i
    rw [represents.length_pending, ← represents.rear_eq]
    exact List.getElem?_set_self inside

/-- The count after an enqueue does not wrap. -/
theorem toNat_count_add_one (represents : Represents shape ring frame contents heap view)
    (room : contents.length ≠ shape.capacity.toNat) :
    (view.rb.count + 1).toNat = contents.length + 1 := by
  have bound := shape.capacity.isLt
  have below : contents.length < shape.capacity.toNat :=
    Nat.lt_of_le_of_ne represents.count_le room
  rw [BitVec.toNat_add_of_lt, represents.count_eq]
  · rfl
  · rw [represents.count_eq]
    change contents.length + 1 < 2 ^ 32
    omega

theorem pushed_represents (represents : Represents shape ring frame contents heap view)
    (room : contents.length ≠ shape.capacity.toNat)
    (inside : view.rb.rear.toNat < view.slots.slots.length) {element : List (BitVec 8)}
    (whole : element.length = shape.elementSize.toNat) {address : Address}
    (fresh : heap.blocks address = none) :
    Represents shape ring frame (contents ++ [element]) (pushedHeap view ring address heap element)
      (pushed view address) := by
  have notPending := represents.not_mem_of_fresh fresh
  have length : (contents ++ [element]).length = contents.length + 1 := by
    rw [List.length_append, List.length_singleton]
  constructor
  case toLinked => exact represents.toLinked.pushed address element
  case element_blocks => exact represents.pushed_element_blocks element fresh
  case capacity_eq => exact represents.capacity_eq
  case elementSize_eq => exact represents.elementSize_eq
  case length_eq => exact (List.length_set).trans represents.length_eq
  case count_le =>
      rw [length]
      exact Nat.lt_of_le_of_ne represents.count_le room
  case count_eq => exact (represents.toNat_count_add_one room).trans length.symm
  case rear_eq =>
      change ((view.rb.rear + 1) % view.rb.capacity).toNat = slotAt _ view.rb.front.toNat _
      rw [represents.toNat_add_one_mod inside, represents.rear_eq, slotAt_add_one_mod, length]
  case pending_slots => exact fun i pointer => represents.pushed_pending_slots room inside
  case distinct =>
      apply List.nodup_append.mpr
      refine ⟨represents.distinct, List.nodup_cons.mpr ⟨List.not_mem_nil, List.nodup_nil⟩, ?_⟩
      intro other member new single equal
      rw [List.mem_singleton.mp single] at equal
      exact notPending (equal ▸ member)
  case whole =>
      intro bytes member
      rcases List.mem_append.mp member with earlier | last
      · exact represents.whole bytes earlier
      · rw [List.mem_singleton.mp last, whole]
  case rest =>
      intro other awayRing awayArray away
      have apart : other ∉ view.pending ∧ other ≠ address := by
        constructor
        · exact fun member => away (List.mem_append_left _ member)
        · rintro rfl
          exact away (List.mem_append_right _ List.mem_cons_self)
      rw [blocks_pushedHeap_of_ne view heap element awayRing awayArray apart.2]
      exact represents.rest other awayRing awayArray apart.1
  case frame_ring => exact represents.frame_ring
  case frame_array => exact represents.frame_array
  case frame_pending =>
      intro other member
      rcases List.mem_append.mp member with earlier | last
      · exact represents.frame_pending other earlier
      · rw [List.mem_singleton.mp last, ← represents.rest address
          (represents.ne_ring_of_fresh fresh) (represents.ne_array_of_fresh fresh) notPending,
          fresh]

theorem refused_represents (represents : Represents shape ring frame contents heap view)
    (room : contents.length ≠ shape.capacity.toNat) :
    Represents shape ring frame contents (refusedHeap view heap) (refused view) := by
  have elsewhere : ∀ other, other ≠ view.array →
      (refusedHeap view heap).blocks other = heap.blocks other :=
    fun other away => Heap.blocks_set_of_ne _ _ away
  constructor
  case toLinked =>
      constructor
      case ring_block =>
          rw [elsewhere ring represents.ring_ne_array]
          exact represents.ring_block
      case buffer_eq => exact represents.buffer_eq
      case array_block => exact Heap.blocks_set_self _ _ _
  case element_blocks =>
      rw [← represents.element_blocks]
      apply List.map_congr_left
      intro other member
      exact elsewhere other fun equal => represents.array_not_mem (equal ▸ member)
  case capacity_eq => exact represents.capacity_eq
  case elementSize_eq => exact represents.elementSize_eq
  case length_eq => exact (List.length_set).trans represents.length_eq
  case count_le => exact represents.count_le
  case count_eq => exact represents.count_eq
  case rear_eq => exact represents.rear_eq
  case pending_slots =>
      intro i pointer at_i
      exact represents.pending_slots_set_rear room none at_i
  case distinct => exact represents.distinct
  case whole => exact represents.whole
  case rest =>
      intro other awayRing awayArray away
      rw [elsewhere other awayArray]
      exact represents.rest other awayRing awayArray away
  case frame_ring => exact represents.frame_ring
  case frame_array => exact represents.frame_array
  case frame_pending => exact represents.frame_pending

/-! ### Dequeue -/

/-- The view after the oldest element was taken. -/
def popped (view : View) : View where
  rb := { view.rb with
    front := (view.rb.front + 1) % view.rb.capacity, count := view.rb.count - 1 }
  array := view.array
  slots := view.slots
  pending := view.pending.tail

/-- The heap after the oldest element, at `address`, was taken. -/
def poppedHeap (view : View) (ring address : Address) (heap : Heap Block) : Heap Block :=
  (heap.set address none).set ring (some (.ring (popped view).rb))

theorem dequeue_empty_eq (represents : Represents shape ring frame [] heap view)
    (data : List (BitVec 8)) :
    ringbufferDequeue heap (some ring) data = some (data, heap) := by
  rw [ringbufferDequeue, loadRing_of_live represents.ring_block]
  dsimp only [Option.bind_eq_bind, Option.bind_some]
  rw [represents.isEmpty_eq]
  rfl

/-- The blocks of the oldest element and of the others. -/
theorem exists_oldest {oldest : List (BitVec 8)}
    (represents : Represents shape ring frame (oldest :: contents) heap view) :
    ∃ address later, view.pending = address :: later ∧
      heap.blocks address = some (.element oldest) ∧
      later.map heap.blocks = contents.map fun bytes => some (Block.element bytes) := by
  have blocks := represents.element_blocks
  cases pending : view.pending with
  | nil =>
      rw [pending] at blocks
      cases blocks
  | cons address later =>
      rw [pending, List.map_cons, List.map_cons] at blocks
      rcases List.cons_eq_cons.mp blocks with ⟨first, rest⟩
      exact ⟨address, later, rfl, first, rest⟩

theorem dequeue_eq {oldest : List (BitVec 8)}
    (represents : Represents shape ring frame (oldest :: contents) heap view)
    {address : Address} {later : List Address} (pending : view.pending = address :: later)
    (block : heap.blocks address = some (.element oldest)) {data : List (BitVec 8)}
    (enough : shape.elementSize.toNat ≤ data.length) :
    ringbufferDequeue heap (some ring) data =
      some (splice data 0 oldest, poppedHeap view ring address heap) := by
  have slot : view.slots.slots[view.rb.front.toNat]? = some (some address) :=
    represents.pending_slots 0 address (by rw [pending]; rfl)
  have whole : oldest.length = view.rb.elementSize.toNat := by
    rw [represents.whole oldest List.mem_cons_self, represents.elementSize_eq]
  have notRing : ring ≠ address := by
    rintro rfl
    rw [represents.ring_block] at block
    cases block
  have ringLive : (heap.set address none).blocks ring = some (.ring view.rb) := by
    rw [Heap.blocks_set_of_ne _ _ notRing, represents.ring_block]
  rw [ringbufferDequeue, loadRing_of_live represents.ring_block]
  dsimp only [Option.bind_eq_bind, Option.bind_some]
  rw [represents.isEmpty_eq, List.isEmpty_cons, if_neg Bool.false_ne_true, represents.buffer_eq,
    readSlot_of_live represents.array_block, slot]
  dsimp only [Option.bind_some]
  rw [copyOut_of_live block whole (by rw [represents.elementSize_eq]; exact enough)]
  dsimp only [Option.bind_some]
  rw [Heap.free_of_live block]
  dsimp only [Option.bind_some]
  rw [storeRing_of_live ringLive, ← represents.buffer_eq]
  rfl

/-- Away from the two blocks it writes, a dequeue leaves the heap as it is. -/
theorem blocks_poppedHeap_of_ne (view : View) {ring address other : Address} (heap : Heap Block)
    (awayRing : other ≠ ring) (away : other ≠ address) :
    (poppedHeap view ring address heap).blocks other = heap.blocks other := by
  rw [poppedHeap, Heap.blocks_set_of_ne _ _ awayRing, Heap.blocks_set_of_ne _ _ away]

theorem popped_pending {address : Address} {later : List Address}
    (pending : view.pending = address :: later) : (popped view).pending = later := by
  change view.pending.tail = later
  rw [pending, List.tail_cons]

theorem popped_element_blocks
    (represents : Represents shape ring frame contents heap view)
    {address : Address} {later : List Address} (pending : view.pending = address :: later) :
    later.map (poppedHeap view ring address heap).blocks = later.map heap.blocks := by
  have distinct := represents.distinct
  have ring_not_mem := represents.ring_not_mem
  rw [pending] at distinct ring_not_mem
  apply List.map_congr_left
  intro other among
  apply blocks_poppedHeap_of_ne
  · exact fun equal => ring_not_mem (equal ▸ List.mem_cons_of_mem _ among)
  · exact fun equal => (List.nodup_cons.mp distinct).1 (equal ▸ among)

/-- The count before a dequeue is positive. -/
theorem toNat_count_sub_one {oldest : List (BitVec 8)}
    (represents : Represents shape ring frame (oldest :: contents) heap view) :
    (view.rb.count - 1).toNat = contents.length := by
  have count := represents.count_eq
  rw [List.length_cons] at count
  rw [BitVec.toNat_sub_of_le, count]
  · rfl
  · rw [BitVec.le_def, count]
    exact Nat.succ_le_succ (Nat.zero_le _)

theorem popped_represents {oldest : List (BitVec 8)}
    (represents : Represents shape ring frame (oldest :: contents) heap view)
    {address : Address} {later : List Address} (pending : view.pending = address :: later)
    (blocks : later.map heap.blocks = contents.map fun bytes => some (Block.element bytes)) :
    Represents shape ring frame contents (poppedHeap view ring address heap) (popped view) := by
  have distinct := represents.distinct
  rw [pending] at distinct
  have tail := popped_pending pending
  have member : address ∈ view.pending := by
    rw [pending]
    exact List.mem_cons_self
  have notArray : view.array ≠ address := fun equal => represents.array_not_mem (equal ▸ member)
  have inside : view.rb.front.toNat < view.slots.slots.length := by
    have slot := represents.pending_slots 0 address (by rw [pending]; rfl)
    exact (List.getElem?_eq_some_iff.mp slot).1
  constructor
  case toLinked =>
      refine ⟨Heap.blocks_set_self _ _ _, represents.buffer_eq, ?_⟩
      exact (blocks_poppedHeap_of_ne view heap (Ne.symm represents.ring_ne_array) notArray).trans
        represents.array_block
  case element_blocks => rw [tail, represents.popped_element_blocks pending, blocks]
  case capacity_eq => exact represents.capacity_eq
  case elementSize_eq => exact represents.elementSize_eq
  case length_eq => exact represents.length_eq
  case count_le => exact Nat.le_of_succ_le represents.count_le
  case count_eq => exact represents.toNat_count_sub_one
  case rear_eq =>
      change view.rb.rear.toNat = slotAt _ ((view.rb.front + 1) % view.rb.capacity).toNat _
      rw [represents.toNat_add_one_mod inside, slotAt_mod_front]
      exact represents.rear_eq
  case pending_slots =>
      intro i pointer at_i
      change view.slots.slots[
        slotAt _ ((view.rb.front + 1) % view.rb.capacity).toNat i]? = _
      rw [represents.toNat_add_one_mod inside, slotAt_mod_front]
      apply represents.pending_slots
      rw [tail] at at_i
      rw [pending, List.getElem?_cons_succ, at_i]
  case distinct =>
      rw [tail]
      exact (List.nodup_cons.mp distinct).2
  case whole => exact fun bytes among => represents.whole bytes (List.mem_cons_of_mem _ among)
  case rest =>
      intro other awayRing awayArray away
      rw [tail] at away
      by_cases freed : other = address
      · subst freed
        rw [represents.frame_pending other member, poppedHeap,
          Heap.blocks_set_of_ne _ _ awayRing, Heap.blocks_set_self]
      · rw [blocks_poppedHeap_of_ne view heap awayRing freed]
        apply represents.rest other awayRing awayArray
        rw [pending]
        exact List.not_mem_cons_of_ne_of_not_mem freed away
  case frame_ring => exact represents.frame_ring
  case frame_array => exact represents.frame_array
  case frame_pending =>
      intro other among
      apply represents.frame_pending
      rw [tail] at among
      rw [pending]
      exact List.mem_cons_of_mem _ among

end Represents

/-! ## Call sequences -/

/-- The ring buffer holds `contents`, in the first `limit` slots. -/
def Holds (shape : Shape) (limit : Nat) (ring : Address) (frame : Address → Option Block)
    (heap : Heap Block) (contents : List (List (BitVec 8))) : Prop :=
  ∃ view, Represents shape ring frame contents heap view ∧ view.rb.front.toNat < limit

section Calls

variable {shape : Shape} {limit : Nat} {ring : Address} {frame : Address → Option Block}
  {contents : List (List (BitVec 8))} {heap : Heap Block} {view : View}

theorem Represents.enqueue_simulates (represents : Represents shape ring frame contents heap view)
    (front_lt : view.rb.front.toNat < limit)
    (rear_lt : view.rb.rear.toNat < view.slots.slots.length) {data : List (BitVec 8)}
    {proposal : Option (Address × Garbage)}
    (admissible : Admissible shape.elementSize.toNat heap (.enqueue data proposal)) :
    ∃ heap', execute ring heap (.enqueue data proposal) =
        some ((fifo shape.capacity.toNat shape.elementSize.toNat contents
          (.enqueue data proposal)).1, heap') ∧
      Holds shape limit ring frame heap'
        (fifo shape.capacity.toNat shape.elementSize.toNat contents
          (.enqueue data proposal)).2 := by
  by_cases full : contents.length = shape.capacity.toNat
  · have isFull : ringbufferIsFull view.rb = true := by
      rw [represents.isFull_eq, decide_eq_true full]
    refine ⟨heap, ?_, view, ?_⟩
    · rw [fifo, if_pos (Or.inl full), execute, represents.enqueue_full isFull]
      rfl
    · rw [fifo, if_pos (Or.inl full)]
      exact ⟨represents, front_lt⟩
  · have notFull : ringbufferIsFull view.rb = false := by
      rw [represents.isFull_eq, decide_eq_false full]
    cases proposal with
    | none =>
        have refusal : contents.length = shape.capacity.toNat ∨
            (none : Option (Address × Garbage)).isNone = true := Or.inr rfl
        refine ⟨refusedHeap view heap, ?_, refused view, ?_⟩
        · rw [fifo, if_pos refusal, execute, represents.enqueue_refused notFull rear_lt]
          rfl
        · rw [fifo, if_pos refusal]
          exact ⟨represents.refused_represents full, front_lt⟩
    | some proposed =>
        rcases proposed with ⟨address, garbage⟩
        have fresh : heap.blocks address = none := admissible.2 (address, garbage) rfl
        have accepted : ¬(contents.length = shape.capacity.toNat ∨
            (some (address, garbage)).isNone = true) := by
          simp [full]
        refine ⟨pushedHeap view ring address heap
          (data.take shape.elementSize.toNat), ?_, pushed view address, ?_⟩
        · rw [fifo, if_neg accepted, execute, represents.enqueue_eq notFull rear_lt
            (by rw [represents.elementSize_eq]; exact admissible.1) garbage fresh,
            represents.elementSize_eq]
          rfl
        · rw [fifo, if_neg accepted]
          refine ⟨represents.pushed_represents full rear_lt ?_ fresh, front_lt⟩
          rw [List.length_take, Nat.min_eq_left admissible.1]

theorem Represents.dequeue_simulates (represents : Represents shape ring frame contents heap view)
    (capacity_le : shape.capacity.toNat ≤ limit) (front_lt : view.rb.front.toNat < limit)
    {data : List (BitVec 8)} (enough : shape.elementSize.toNat ≤ data.length) :
    ∃ heap', execute ring heap (.dequeue data) =
        some ((fifo shape.capacity.toNat shape.elementSize.toNat contents (.dequeue data)).1,
          heap') ∧
      Holds shape limit ring frame heap'
        (fifo shape.capacity.toNat shape.elementSize.toNat contents (.dequeue data)).2 := by
  cases contents with
  | nil =>
      refine ⟨heap, ?_, view, represents, front_lt⟩
      rw [execute, represents.dequeue_empty_eq]
      rfl
  | cons oldest contents =>
      rcases represents.exists_oldest with ⟨address, later, pending, block, blocks⟩
      refine ⟨Represents.poppedHeap view ring address heap, ?_, Represents.popped view, ?_, ?_⟩
      · rw [execute, represents.dequeue_eq pending block enough]
        rfl
      · exact represents.popped_represents pending blocks
      · change ((view.rb.front + 1) % view.rb.capacity).toNat < limit
        rw [BitVec.toNat_umod, represents.capacity_eq]
        exact Nat.lt_of_lt_of_le (Nat.mod_lt _ shape.positive) capacity_le

end Calls

/-- Every admissible call is one of the bounded queue. -/
theorem execute_simulates (shape : Shape) {limit : Nat}
    (capacity_le : shape.capacity.toNat ≤ limit) (limit_le : limit ≤ shape.length)
    (ring : Address) (frame : Address → Option Block) :
    Faulting.Simulates (execute ring) (fifo shape.capacity.toNat shape.elementSize.toNat)
      (Admissible shape.elementSize.toNat) (Holds shape limit ring frame) := by
  rintro heap contents call ⟨view, represents, front_lt⟩ admissible
  have rear_lt : view.rb.rear.toNat < view.slots.slots.length := by
    rw [represents.rear_eq, represents.length_eq]
    exact Nat.lt_of_lt_of_le (slotAt_lt shape.positive capacity_le front_lt _) limit_le
  cases call with
  | enqueue data proposal => exact represents.enqueue_simulates front_lt rear_lt admissible
  | dequeue data => exact represents.dequeue_simulates capacity_le front_lt admissible
  | isEmpty =>
      refine ⟨heap, ?_, view, represents, front_lt⟩
      rw [execute, loadRing_of_live represents.ring_block, Option.map_some,
        represents.isEmpty_eq]
      rfl
  | isFull =>
      refine ⟨heap, ?_, view, represents, front_lt⟩
      rw [execute, loadRing_of_live represents.ring_block, Option.map_some,
        represents.isFull_eq]
      rfl

end EmbeddedBase.Middleware.HeapRingbuffer
