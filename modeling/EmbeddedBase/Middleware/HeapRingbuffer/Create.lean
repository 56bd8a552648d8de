import EmbeddedBase.Middleware.HeapRingbuffer.Fifo

/-!
# A freshly created heap ring buffer

`ringbuffer_create` leaves `front`, `rear` and `count` as it finds them in memory, and sizes
the slot array in elements instead of pointers.  The file proves exactly when the result
nevertheless works.
-/

namespace EmbeddedBase.Middleware.HeapRingbuffer

open EmbeddedBase.Data
open EmbeddedBase.Transition

/-- Every admissible call sequence on the ring buffer is defined and gives the replies of a
bounded queue that holds `contents`. -/
def Works (capacity elementSize : BitVec 32) (ring : Address)
    (contents : List (List (BitVec 8))) (heap : Heap Block) : Prop :=
  ∀ calls, (Faulting.machine (execute ring)).Always
      (Faulting.Lift (Admissible elementSize.toNat)) (some heap) calls →
    (Faulting.machine (execute ring)).replies (some heap) calls =
      ((fifo capacity.toNat elementSize.toNat).replies contents calls).map some

/-! ## What is created -/

/-- The blocks of a new ring buffer. -/
structure Created (capacity elementSize : BitVec 32) (junk : Ringbuffer) (ring : Address)
    (heap heap' : Heap Block) (view : View) : Prop extends Linked ring heap' view where
  rb_eq : view.rb =
    { junk with buffer := some view.array, capacity := capacity, elementSize := elementSize }
  slots_eq : view.slots.slots =
    List.replicate (capacity.toNat * elementSize.toNat / sizeofPointer) none
  pending_eq : view.pending = []
  ring_fresh : heap.blocks ring = none
  array_fresh : heap.blocks view.array = none
  rest : ∀ address, address ≠ ring → address ≠ view.array →
    heap'.blocks address = heap.blocks address

theorem callocProposal_eq_some {capacity elementSize : BitVec 32} {buffer : Option Address}
    {array : Address} {block : Block}
    (proposal : callocProposal capacity elementSize buffer = some (array, block)) :
    ∃ slots, block = .slots slots ∧ slots.slots =
      List.replicate (capacity.toNat * elementSize.toNat / sizeofPointer) none := by
  rw [callocProposal] at proposal
  by_cases fits : capacity.toNat * elementSize.toNat < 2 ^ 32
  · rw [dif_pos fits] at proposal
    cases buffer with
    | none => cases proposal
    | some address =>
        cases proposal
        exact ⟨_, rfl, rfl⟩
  · rw [dif_neg fits] at proposal
    cases proposal

section Create

variable {heap : Heap Block} {capacity elementSize : BitVec 32} {junk : Ringbuffer}
  {ring array : Address} {buffer : Option Address}

/-- The structure `ringbuffer_create` leaves in the memory it got. -/
def newRingbuffer (capacity elementSize : BitVec 32) (junk : Ringbuffer) (array : Address) :
    Ringbuffer :=
  { junk with buffer := some array, capacity := capacity, elementSize := elementSize }

/-- Without memory for the slot array the structure is freed again. -/
theorem ringbufferCreate_of_refused (ringFresh : heap.blocks ring = none)
    (refused : ((heap.set ring (some (.ring junk))).malloc
      (callocProposal capacity elementSize buffer)).1 = none) :
    ∃ heap', ringbufferCreate heap capacity elementSize (some (ring, junk)) buffer =
      some (none, heap') := by
  generalize heldEq : heap.set ring (some (Block.ring junk)) = held at refused
  have ringLive : held.blocks ring = some (.ring junk) := by
    rw [← heldEq, Heap.blocks_set_self]
  cases allocation : held.malloc (callocProposal capacity elementSize buffer) with
  | mk pointer allocated =>
      rw [allocation] at refused
      cases refused
      cases Heap.malloc_eq_none allocation
      rw [ringbufferCreate, Option.map_some, Heap.malloc_of_fresh ringFresh]
      dsimp only
      rw [if_neg (by simp), heldEq, allocation]
      dsimp only
      rw [loadRing_of_live ringLive]
      dsimp only [Option.bind_eq_bind, Option.bind_some]
      rw [storeRing_of_live ringLive]
      dsimp only [Option.bind_some]
      rw [if_pos rfl, Heap.free_of_live (Heap.blocks_set_self _ _ _)]
      exact ⟨_, rfl⟩

/-- With both blocks allocated, the structure points to the array. -/
theorem ringbufferCreate_of_allocated (ringFresh : heap.blocks ring = none) {block : Block}
    (apart : array ≠ ring)
    (allocation : (heap.set ring (some (.ring junk))).malloc
        (callocProposal capacity elementSize buffer) =
      (some array, (heap.set ring (some (.ring junk))).set array (some block))) :
    ringbufferCreate heap capacity elementSize (some (ring, junk)) buffer =
      some (some ring, ((heap.set ring (some (.ring junk))).set array (some block)).set ring
        (some (.ring (newRingbuffer capacity elementSize junk array)))) := by
  have ringKept : ((heap.set ring (some (.ring junk))).set array (some block)).blocks ring =
      some (.ring junk) := by
    rw [Heap.blocks_set_of_ne _ _ (Ne.symm apart), Heap.blocks_set_self]
  rw [ringbufferCreate, Option.map_some, Heap.malloc_of_fresh ringFresh]
  dsimp only
  rw [if_neg (by simp), allocation]
  dsimp only
  rw [loadRing_of_live ringKept]
  dsimp only [Option.bind_eq_bind, Option.bind_some]
  rw [storeRing_of_live ringKept]
  dsimp only [Option.bind_some]
  rw [if_neg (by simp), loadRing_of_live (Heap.blocks_set_self _ _ _)]
  dsimp only [Option.bind_some]
  rw [storeRing_of_live (Heap.blocks_set_self _ _ _), Heap.set_set]
  rfl

theorem created_of_slots (ringFresh : heap.blocks ring = none)
    (arrayFresh : heap.blocks array = none) (apart : array ≠ ring) {slots : SlotArray}
    (zeroed : slots.slots =
      List.replicate (capacity.toNat * elementSize.toNat / sizeofPointer) none) :
    Created capacity elementSize junk ring heap
      (((heap.set ring (some (.ring junk))).set array (some (.slots slots))).set ring
        (some (.ring (newRingbuffer capacity elementSize junk array))))
      ⟨newRingbuffer capacity elementSize junk array, array, slots, []⟩ where
  ring_block := Heap.blocks_set_self _ _ _
  buffer_eq := rfl
  array_block := (Heap.blocks_set_of_ne _ _ apart).trans (Heap.blocks_set_self _ _ _)
  rb_eq := rfl
  slots_eq := zeroed
  pending_eq := rfl
  ring_fresh := ringFresh
  array_fresh := arrayFresh
  rest := by
    intro address awayRing awayArray
    rw [Heap.blocks_set_of_ne _ _ awayRing, Heap.blocks_set_of_ne _ _ awayArray,
      Heap.blocks_set_of_ne _ _ awayRing]

theorem ringbufferCreate_created {heap' : Heap Block}
    (created : ringbufferCreate heap capacity elementSize (some (ring, junk)) buffer =
      some (some ring, heap')) :
    ∃ view, Created capacity elementSize junk ring heap heap' view := by
  cases ringBlock : heap.blocks ring with
  | some old =>
      rw [ringbufferCreate, Option.map_some] at created
      simp [Heap.malloc, ringBlock] at created
  | none =>
      cases allocation : (heap.set ring (some (Block.ring junk))).malloc
          (callocProposal capacity elementSize buffer) with
      | mk pointer allocated =>
          cases pointer with
          | none =>
              rcases ringbufferCreate_of_refused ringBlock (congrArg Prod.fst allocation) with
                ⟨heap'', refused⟩
              rw [refused] at created
              cases created
          | some array =>
              rcases Heap.malloc_eq_some allocation with ⟨block, proposal, fresh, rfl⟩
              rcases callocProposal_eq_some proposal with ⟨slots, rfl, zeroed⟩
              have apart : array ≠ ring := by
                rintro rfl
                rw [Heap.blocks_set_self] at fresh
                cases fresh
              rw [ringbufferCreate_of_allocated ringBlock apart allocation] at created
              cases created
              rw [Heap.blocks_set_of_ne _ _ apart] at fresh
              exact ⟨_, created_of_slots ringBlock fresh apart zeroed⟩

end Create

section Works

variable {capacity elementSize : BitVec 32} {junk : Ringbuffer} {ring : Address}
  {heap heap' : Heap Block} {view : View}

theorem Created.isFull_eq (created : Created capacity elementSize junk ring heap heap' view)
    (positive : 1 ≤ capacity.toNat) (empty : junk.count = 0) :
    ringbufferIsFull view.rb = false := by
  have nonzero : (0 : BitVec 32) ≠ capacity := by
    rintro rfl
    exact absurd positive (by decide)
  rw [ringbufferIsFull, created.rb_eq, empty]
  simpa using nonzero

/-- With a zero count and equal positions the structure is that of an empty queue. -/
theorem Created.represents (created : Created capacity elementSize junk ring heap heap' view)
    (positive : 1 ≤ capacity.toNat) (empty : junk.count = 0) (aligned : junk.front = junk.rear) :
    Represents ⟨capacity, elementSize, capacity.toNat * elementSize.toNat / sizeofPointer,
      positive⟩ ring heap.blocks [] heap' view where
  toLinked := created.toLinked
  element_blocks := by
    rw [created.pending_eq]
    rfl
  capacity_eq := by rw [created.rb_eq]
  elementSize_eq := by rw [created.rb_eq]
  length_eq := by rw [created.slots_eq, List.length_replicate]
  count_le := Nat.zero_le _
  count_eq := by
    rw [created.rb_eq, empty]
    rfl
  rear_eq := by
    rw [created.rb_eq, aligned]
    rfl
  pending_slots i pointer at_i := by
    rw [created.pending_eq] at at_i
    cases at_i
  distinct := by
    rw [created.pending_eq]
    exact List.nodup_nil
  whole _ member := absurd member List.not_mem_nil
  rest address awayRing awayArray _ := created.rest address awayRing awayArray
  frame_ring := created.ring_fresh
  frame_array := created.array_fresh
  frame_pending _ member := by
    rw [created.pending_eq] at member
    exact absurd member List.not_mem_nil

/-- The positions that lie in the slot array. -/
theorem lt_slots_iff {index size : Nat} :
    index < size / sizeofPointer ↔ (index + 1) * sizeofPointer ≤ size :=
  Nat.le_div_iff_mul_le (by decide)

/-- Where the memory happened to be right, the ring buffer works. -/
theorem Created.works (created : Created capacity elementSize junk ring heap heap' view)
    (positive : 1 ≤ capacity.toNat) (empty : junk.count = 0) (aligned : junk.front = junk.rear)
    (wide : sizeofPointer ≤ elementSize.toNat)
    (inside : (junk.front.toNat + 1) * sizeofPointer ≤ capacity.toNat * elementSize.toNat) :
    Works capacity elementSize ring [] heap' := by
  intro calls admissible
  have covered : capacity.toNat ≤ capacity.toNat * elementSize.toNat / sizeofPointer := by
    rw [Nat.le_div_iff_mul_le (by decide)]
    exact Nat.mul_le_mul_left _ wide
  apply (execute_simulates ⟨capacity, elementSize, _, positive⟩ covered (Nat.le_refl _) ring
    heap.blocks).replies _ admissible
  refine ⟨view, created.represents positive empty aligned, ?_⟩
  rw [created.rb_eq]
  exact lt_slots_iff.mpr inside

/-! ## When it does not work -/

variable {contents : List (List (BitVec 8))}

/-- A working ring buffer answers a call as the queue does, and works afterwards. -/
theorem Works.head (works : Works capacity elementSize ring contents heap) (call : Call)
    (admissible : Admissible elementSize.toNat heap call) :
    ∃ next, execute ring heap call =
        some ((fifo capacity.toNat elementSize.toNat contents call).1, next) ∧
      Works capacity elementSize ring (fifo capacity.toNat elementSize.toNat contents call).2
        next := by
  have guarded : Faulting.Lift (Admissible elementSize.toNat) (some heap) call := by
    rintro _ ⟨⟩
    exact admissible
  cases step : execute ring heap call with
  | none =>
      have replies := works [call] ⟨guarded, trivial⟩
      rw [Machine.replies_cons, Faulting.machine_of_eq_none step] at replies
      cases replies
  | some outcome =>
      rcases outcome with ⟨reply, next⟩
      have replies := works [call] ⟨guarded, trivial⟩
      rw [Machine.replies_cons, Faulting.machine_of_eq_some step] at replies
      have same := Option.some.inj (List.cons_eq_cons.mp replies).1
      refine ⟨next, by rw [same], ?_⟩
      intro calls later
      have always : (Faulting.machine (execute ring)).Always
          (Faulting.Lift (Admissible elementSize.toNat))
          (Faulting.machine (execute ring) (some heap) call).2 calls := by
        rw [Faulting.machine_of_eq_some step]
        exact later
      have all := works (call :: calls) ⟨guarded, always⟩
      rw [Machine.replies_cons, Faulting.machine_of_eq_some step] at all
      exact (List.cons_eq_cons.mp all).2

/-- An element of zero bytes. -/
def zeros (elementSize : BitVec 32) : List (BitVec 8) :=
  List.replicate elementSize.toNat 0

@[simp]
theorem length_zeros (elementSize : BitVec 32) :
    (zeros elementSize).length = elementSize.toNat :=
  List.length_replicate

theorem take_zeros (elementSize : BitVec 32) :
    (zeros elementSize).take elementSize.toNat = zeros elementSize :=
  List.take_of_length_le (Nat.le_of_eq (length_zeros elementSize))

/-- An enqueue for which `malloc` proposes a free address. -/
theorem admissible_enqueue {address : Address} (fresh : heap.blocks address = none) :
    Admissible elementSize.toNat heap
      (.enqueue (zeros elementSize) (some (address, fun _ => 0))) := by
  refine ⟨Nat.le_of_eq (length_zeros elementSize).symm, ?_⟩
  rintro _ ⟨⟩
  exact fresh

theorem admissible_dequeue : Admissible elementSize.toNat heap (.dequeue (zeros elementSize)) :=
  Nat.le_of_eq (length_zeros elementSize).symm

/-- What the queue does with an enqueue that finds memory. -/
theorem fifo_enqueue (positive : 1 ≤ capacity.toNat) (data : List (BitVec 8)) (address : Address)
    (garbage : Garbage) :
    fifo capacity.toNat elementSize.toNat [] (.enqueue data (some (address, garbage))) =
      (.status 0, [data.take elementSize.toNat]) := by
  have room : ¬(([] : List (List (BitVec 8))).length = capacity.toNat ∨
      (some (address, garbage)).isNone = true) := by
    simp
    exact Nat.ne_of_lt positive
  rw [fifo, if_neg room]
  rfl

/-- The first enqueue writes inside the slot array. -/
theorem Works.rear_lt (works : Works capacity elementSize ring [] heap)
    (linked : Linked ring heap view) (notFull : ringbufferIsFull view.rb = false) :
    view.rb.rear.toNat < view.slots.slots.length := by
  by_contra outside
  rcases heap.exists_fresh with ⟨address, fresh⟩
  rcases works.head _ (admissible_enqueue fresh) with ⟨next, step, _⟩
  rw [execute, linked.enqueue_outside notFull (Nat.not_lt.mp outside) _ _ fresh] at step
  cases step

/-- From an empty queue, an element can be queued. -/
theorem Works.enqueue (works : Works capacity elementSize ring [] heap)
    (positive : 1 ≤ capacity.toNat) (linked : Linked ring heap view)
    (notFull : ringbufferIsFull view.rb = false)
    (size : view.rb.elementSize = elementSize) :
    ∃ address, heap.blocks address = none ∧
      Works capacity elementSize ring [zeros elementSize]
        (pushedHeap view ring address heap (zeros elementSize)) := by
  have inside := works.rear_lt linked notFull
  rcases heap.exists_fresh with ⟨address, fresh⟩
  rcases works.head _ (admissible_enqueue fresh) with ⟨next, step, later⟩
  have enough : view.rb.elementSize.toNat ≤ (zeros elementSize).length := by
    rw [size, length_zeros]
  rw [fifo_enqueue positive, take_zeros] at step later
  rw [execute, linked.enqueue_eq notFull inside enough _ fresh, size, take_zeros] at step
  cases step
  exact ⟨address, fresh, later⟩

/-- The count is zero. -/
theorem Created.count_eq (created : Created capacity elementSize junk ring heap heap' view)
    (works : Works capacity elementSize ring [] heap') : junk.count = 0 := by
  rcases works.head .isEmpty trivial with ⟨next, step, _⟩
  rw [execute, loadRing_of_live created.ring_block, Option.map_some] at step
  have flag : ringbufferIsEmpty view.rb = true := by
    cases empty : ringbufferIsEmpty view.rb with
    | true => rfl
    | false =>
        rw [empty] at step
        cases step
  rw [ringbufferIsEmpty, created.rb_eq] at flag
  simpa using flag

/-- A dequeue from a slot that is missing or holds `NULL`. -/
theorem Linked.dequeue_fault (linked : Linked ring heap view)
    (notEmpty : ringbufferIsEmpty view.rb = false)
    (slot : ∀ address, view.slots.slots[view.rb.front.toNat]? ≠ some (some address))
    (data : List (BitVec 8)) : ringbufferDequeue heap (some ring) data = none := by
  rw [ringbufferDequeue, loadRing_of_live linked.ring_block]
  dsimp only [Option.bind_eq_bind, Option.bind_some]
  rw [notEmpty, if_neg Bool.false_ne_true, linked.buffer_eq,
    readSlot_of_live linked.array_block]
  cases read : view.slots.slots[view.rb.front.toNat]? with
  | none => rfl
  | some pointer =>
      cases pointer with
      | none => rfl
      | some address => exact absurd read (slot address)

/-- The two positions agree: otherwise the first dequeue reads a `NULL` slot, or none. -/
theorem Created.front_eq (created : Created capacity elementSize junk ring heap heap' view)
    (positive : 1 ≤ capacity.toNat) (works : Works capacity elementSize ring [] heap') :
    junk.front = junk.rear := by
  by_contra apart
  have empty := created.count_eq works
  have notFull := created.isFull_eq positive empty
  have size : view.rb.elementSize = elementSize := by rw [created.rb_eq]
  rcases works.enqueue positive created.toLinked notFull size with ⟨address, fresh, later⟩
  have linked := created.toLinked.pushed address (zeros elementSize)
  have notEmpty : ringbufferIsEmpty (pushed view address).rb = false := by
    rw [ringbufferIsEmpty]
    change (view.rb.count + 1 == 0) = false
    rw [created.rb_eq, empty]
    rfl
  have elsewhere : view.rb.rear.toNat ≠ view.rb.front.toNat := by
    rw [created.rb_eq]
    exact fun equal => apart (BitVec.eq_of_toNat_eq equal.symm)
  have slot : ∀ pointer, (pushed view address).slots.slots[
      (pushed view address).rb.front.toNat]? ≠ some (some pointer) := by
    intro pointer
    change (view.slots.slots.set view.rb.rear.toNat (some address))[view.rb.front.toNat]? ≠ _
    rw [List.getElem?_set_ne elsewhere, created.slots_eq, List.getElem?_replicate]
    by_cases inside : view.rb.front.toNat <
        capacity.toNat * elementSize.toNat / sizeofPointer
    · simp [inside]
    · simp [inside]
  rcases later.head _ admissible_dequeue with ⟨next, step, _⟩
  rw [execute, linked.dequeue_fault notEmpty slot] at step
  cases step

/-- With a slot array shorter than the capacity, taking and queueing one element at a time
runs past its end. -/
theorem Works.covered {shape : Shape} {frame : Address → Option Block}
    (works : Works shape.capacity shape.elementSize ring [] heap)
    (represents : Represents shape ring frame [] heap view) {distance : Nat}
    (before : view.rb.front.toNat + distance + 1 = shape.capacity.toNat) :
    shape.capacity.toNat ≤ shape.length := by
  induction distance generalizing heap view with
  | zero =>
      have notFull := represents.notFull
      have inside := works.rear_lt represents.toLinked notFull
      rw [represents.rear_eq, represents.length_eq, List.length_nil, slotAt_zero] at inside
      omega
  | succ distance ih =>
      have notFull := represents.notFull
      have inside := works.rear_lt represents.toLinked notFull
      rcases works.enqueue shape.positive represents.toLinked notFull represents.elementSize_eq
        with ⟨address, fresh, holding⟩
      have room : ([] : List (List (BitVec 8))).length ≠ shape.capacity.toNat :=
        Nat.ne_of_lt shape.positive
      have queued := represents.pushed_represents room inside (length_zeros _) fresh
      rcases queued.exists_oldest with ⟨oldest, later, pending, block, blocks⟩
      rcases holding.head _ admissible_dequeue with ⟨next, step, empty⟩
      rw [execute, queued.dequeue_eq pending block (Nat.le_of_eq (length_zeros _).symm)] at step
      cases step
      apply ih empty (queued.popped_represents pending blocks)
      have inArray : view.rb.front.toNat < view.slots.slots.length := by
        rwa [represents.rear_eq, List.length_nil, slotAt_zero] at inside
      have moved := represents.toNat_add_one_mod inArray
      change ((view.rb.front + 1) % view.rb.capacity).toNat + distance + 1 = _
      rw [moved, Nat.mod_eq_of_lt (by omega)]
      omega

end Works

/-- A created ring buffer works exactly when its memory happened to hold a zero count and
equal positions inside the array, and an element is not smaller than a pointer. -/
theorem ringbuffer_create_works_iff (heap heap' : Heap Block) (capacity elementSize : BitVec 32)
    (positive : 1 ≤ capacity.toNat) (junk : Ringbuffer) (ring : Address) (buffer : Option Address)
    (created : ringbufferCreate heap capacity elementSize (some (ring, junk)) buffer =
      some (some ring, heap')) :
    Works capacity elementSize ring [] heap' ↔
      junk.count = 0 ∧ junk.front = junk.rear ∧ sizeofPointer ≤ elementSize.toNat ∧
        (junk.front.toNat + 1) * sizeofPointer ≤ capacity.toNat * elementSize.toNat := by
  rcases ringbufferCreate_created created with ⟨view, blocks⟩
  constructor
  · intro works
    have empty := blocks.count_eq works
    have aligned := blocks.front_eq positive works
    have represents := blocks.represents positive empty aligned
    have inside := works.rear_lt blocks.toLinked (blocks.isFull_eq positive empty)
    rw [blocks.slots_eq, List.length_replicate, blocks.rb_eq] at inside
    refine ⟨empty, aligned, ?_, ?_⟩
    · by_contra narrow
      have short : capacity.toNat * elementSize.toNat / sizeofPointer < capacity.toNat := by
        apply Nat.div_lt_of_lt_mul
        rw [Nat.mul_comm]
        exact Nat.mul_lt_mul_of_pos_right (Nat.not_le.mp narrow) positive
      have front : view.rb.front.toNat < capacity.toNat := by
        rw [blocks.rb_eq, aligned]
        exact Nat.lt_trans inside short
      have covered := works.covered represents
        (show view.rb.front.toNat + (capacity.toNat - view.rb.front.toNat - 1) + 1 =
          capacity.toNat by omega)
      exact absurd covered (Nat.not_le.mpr short)
    · rw [aligned]
      exact lt_slots_iff.mp inside
  · rintro ⟨empty, aligned, wide, inside⟩
    exact blocks.works positive empty aligned wide inside

/-- Two slots for elements of four bytes, in memory that was zero. -/
theorem ringbuffer_create_works_iff_example :
    ∃ heap', ringbufferCreate Heap.empty 2 4 (some (1, ⟨none, 0, 0, 0, 0, 0⟩)) (some 2) =
      some (some 1, heap') ∧ Works 2 4 1 [] heap' :=
  ⟨_, rfl, (ringbuffer_create_works_iff Heap.empty _ 2 4 (by decide) ⟨none, 0, 0, 0, 0, 0⟩ 1
    (some 2) rfl).mpr ⟨rfl, rfl, by decide, by decide⟩⟩

/-- A count left in memory makes a new ring buffer answer wrongly.  In memory that was zero,
elements smaller than a pointer leave no room for the first slot. -/
theorem ringbuffer_create_fails :
    (∃ heap', ringbufferCreate Heap.empty 2 4 (some (1, ⟨none, 0, 0, 0, 0, 5⟩)) (some 2) =
        some (some 1, heap') ∧ ¬Works 2 4 1 [] heap') ∧
      ∃ heap', ringbufferCreate Heap.empty 2 1 (some (1, ⟨none, 0, 0, 0, 0, 0⟩)) (some 2) =
        some (some 1, heap') ∧ ¬Works 2 1 1 [] heap' := by
  constructor
  · refine ⟨_, rfl, fun works => ?_⟩
    rcases @ringbufferCreate_created Heap.empty 2 4 ⟨none, 0, 0, 0, 0, 5⟩ 1 (some 2) _ rfl with
      ⟨view, blocks⟩
    exact absurd (blocks.count_eq works) (by decide)
  · refine ⟨_, rfl, fun works => ?_⟩
    rcases @ringbufferCreate_created Heap.empty 2 1 ⟨none, 0, 0, 0, 0, 0⟩ 1 (some 2) _ rfl with
      ⟨view, blocks⟩
    have inside := works.rear_lt blocks.toLinked (blocks.isFull_eq (by decide) rfl)
    rw [blocks.slots_eq, List.length_replicate] at inside
    exact absurd inside (Nat.not_lt_zero _)

end EmbeddedBase.Middleware.HeapRingbuffer
