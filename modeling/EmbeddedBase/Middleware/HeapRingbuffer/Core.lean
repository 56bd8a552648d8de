import EmbeddedBase.Data.ByteRange
import EmbeddedBase.Data.Heap

/-!
# The heap ring buffer

The model of `heap_ringbuffer.c` with a `size_t` of 32 bits and pointers of four bytes.
What the allocator does is an input of each call: the block it proposes, with the content
its memory happens to have.  Undefined behaviour has no result.
-/

namespace EmbeddedBase.Middleware.HeapRingbuffer

open EmbeddedBase.Data

/-- `ringbuffer_t`. -/
structure Ringbuffer where
  buffer : Pointer
  capacity : BitVec 32
  elementSize : BitVec 32
  front : BitVec 32
  rear : BitVec 32
  count : BitVec 32

/-- `sizeof(void *)`. -/
def sizeofPointer : Nat := 4

/-- An array of pointers; its size in bytes is a `size_t`. -/
structure SlotArray where
  slots : List Pointer
  addressable : slots.length * sizeofPointer < 2 ^ 32

/-- `array[index] = pointer`. -/
def SlotArray.set (array : SlotArray) (index : Nat) (pointer : Pointer) : SlotArray where
  slots := array.slots.set index pointer
  addressable := by
    rw [List.length_set]
    exact array.addressable

/-- The blocks that `heap_ringbuffer.c` allocates. -/
inductive Block
  | ring (rb : Ringbuffer)
  | slots (array : SlotArray)
  | element (bytes : List (BitVec 8))

/-- What memory contains before it is written. -/
abbrev Garbage := Nat → BitVec 8

/-! ## Memory accesses -/

/-- `*rb`. -/
def loadRing (heap : Heap Block) (rb : Pointer) : Option Ringbuffer :=
  match heap.load rb with
  | some (.ring ring) => some ring
  | _ => none

/-- `*rb = ring`. -/
def storeRing (heap : Heap Block) (rb : Pointer) (ring : Ringbuffer) : Option (Heap Block) :=
  heap.store rb (.ring ring)

/-- `buffer[index]`. -/
def readSlot (heap : Heap Block) (buffer : Pointer) (index : BitVec 32) : Option Pointer :=
  match heap.load buffer with
  | some (.slots array) => array.slots[index.toNat]?
  | _ => none

/-- `buffer[index] = pointer`. -/
def writeSlot (heap : Heap Block) (buffer : Pointer) (index : BitVec 32) (pointer : Pointer) :
    Option (Heap Block) :=
  match heap.load buffer with
  | some (.slots array) =>
      if index.toNat < array.slots.length then
        heap.store buffer (.slots (array.set index.toNat pointer))
      else
        none
  | _ => none

/-- `memcpy` from an object of the caller into an element. -/
def copyIn (heap : Heap Block) (element : Pointer) (data : List (BitVec 8)) (n : BitVec 32) :
    Option (Heap Block) :=
  match heap.load element with
  | some (.element bytes) =>
      if n.toNat ≤ bytes.length ∧ n.toNat ≤ data.length then
        heap.store element (.element (splice bytes 0 (data.take n.toNat)))
      else
        none
  | _ => none

/-- `memcpy` from an element into an object of the caller, which it returns. -/
def copyOut (heap : Heap Block) (element : Pointer) (data : List (BitVec 8)) (n : BitVec 32) :
    Option (List (BitVec 8)) :=
  match heap.load element with
  | some (.element bytes) =>
      if n.toNat ≤ bytes.length ∧ n.toNat ≤ data.length then
        some (splice data 0 (bytes.take n.toNat))
      else
        none
  | _ => none

/-- The block `malloc(size)` returns for an element. -/
def elementProposal (size : BitVec 32) (proposal : Option (Address × Garbage)) :
    Option (Address × Block) :=
  proposal.map fun proposed =>
    (proposed.1, .element ((List.range size.toNat).map proposed.2))

/-- The zeroed block `calloc(capacity, size)` returns, as an array of pointers.  There is
none where the product is not a `size_t`. -/
def callocProposal (capacity size : BitVec 32) (proposal : Option Address) :
    Option (Address × Block) :=
  if fits : capacity.toNat * size.toNat < 2 ^ 32 then
    proposal.map fun address =>
      (address, .slots
        { slots := List.replicate (capacity.toNat * size.toNat / sizeofPointer) none
          addressable := by
            rw [List.length_replicate]
            exact Nat.lt_of_le_of_lt (Nat.div_mul_le_self _ _) fits })
  else
    none

/-! ## The functions -/

/-- `ringbuffer_create`; `ring` is what the first `malloc` proposes, with the previous
content of that memory, and `buffer` what `calloc` proposes. -/
def ringbufferCreate (heap : Heap Block) (capacity elementSize : BitVec 32)
    (ring : Option (Address × Ringbuffer)) (buffer : Option Address) :
    Option (Pointer × Heap Block) := do
  let (rb, heap) := heap.malloc (ring.map fun proposed => (proposed.1, .ring proposed.2))
  if rb = none then
    some (none, heap)
  else
    let (array, heap) := heap.malloc (callocProposal capacity elementSize buffer)
    let fields ← loadRing heap rb
    let heap ← storeRing heap rb { fields with buffer := array }
    if array = none then
      let heap ← heap.free rb
      some (none, heap)
    else
      let fields ← loadRing heap rb
      let heap ← storeRing heap rb
        { fields with capacity := capacity, elementSize := elementSize }
      some (rb, heap)

/-- `ringbuffer_is_empty`. -/
def ringbufferIsEmpty (ring : Ringbuffer) : Bool :=
  ring.count == 0

/-- `ringbuffer_is_full`. -/
def ringbufferIsFull (ring : Ringbuffer) : Bool :=
  ring.count == ring.capacity

/-- `ringbuffer_enqueue`. -/
def ringbufferEnqueue (heap : Heap Block) (rb : Pointer) (data : List (BitVec 8))
    (proposal : Option (Address × Garbage)) : Option (Int × Heap Block) := do
  let ring ← loadRing heap rb
  if ringbufferIsFull ring then
    some (-1, heap)
  else
    let (element, heap) := heap.malloc (elementProposal ring.elementSize proposal)
    let heap ← writeSlot heap ring.buffer ring.rear element
    let slot ← readSlot heap ring.buffer ring.rear
    if slot = none then
      some (-1, heap)
    else
      let heap ← copyIn heap slot data ring.elementSize
      let heap ← storeRing heap rb
        { ring with rear := (ring.rear + 1) % ring.capacity, count := ring.count + 1 }
      some (0, heap)

/-- `ringbuffer_dequeue`; the list is the caller's object after the call. -/
def ringbufferDequeue (heap : Heap Block) (rb : Pointer) (data : List (BitVec 8)) :
    Option (List (BitVec 8) × Heap Block) := do
  let ring ← loadRing heap rb
  if ringbufferIsEmpty ring then
    some (data, heap)
  else
    let slot ← readSlot heap ring.buffer ring.front
    let data ← copyOut heap slot data ring.elementSize
    let heap ← heap.free slot
    let heap ← storeRing heap rb
      { ring with front := (ring.front + 1) % ring.capacity, count := ring.count - 1 }
    some (data, heap)

/-- The first iterations of the loop of `ringbuffer_destroy`, up to the given number. -/
def destroyElements (heap : Heap Block) (rb : Pointer) : Nat → Option (Heap Block)
  | 0 => some heap
  | i + 1 => do
      let heap ← destroyElements heap rb i
      let ring ← loadRing heap rb
      let slot ← readSlot heap ring.buffer ((ring.front + BitVec.ofNat 32 i) % ring.capacity)
      if slot ≠ none then heap.free slot else some heap

/-- `ringbuffer_destroy`; the loop does not change the count that bounds it. -/
def ringbufferDestroy (heap : Heap Block) (rb : Pointer) : Option (Heap Block) := do
  let ring ← loadRing heap rb
  let heap ← destroyElements heap rb ring.count.toNat
  let ring ← loadRing heap rb
  let heap ← heap.free ring.buffer
  heap.free rb

/-! ## Call sequences -/

/-- The calls on a ring buffer.  The data is the caller's object, and `proposal` what
`malloc` proposes. -/
inductive Call
  | enqueue (data : List (BitVec 8)) (proposal : Option (Address × Garbage))
  | dequeue (data : List (BitVec 8))
  | isEmpty
  | isFull

/-- What a call returns, or stores in the caller's object. -/
inductive Reply
  | status (code : Int)
  | data (bytes : List (BitVec 8))
  | flag (value : Bool)
  deriving DecidableEq

/-- One call on the ring buffer at `ring`. -/
def execute (ring : Address) (heap : Heap Block) (call : Call) :
    Option (Reply × Heap Block) :=
  match call with
  | .enqueue data proposal =>
      (ringbufferEnqueue heap (some ring) data proposal).map fun outcome =>
        (.status outcome.1, outcome.2)
  | .dequeue data =>
      (ringbufferDequeue heap (some ring) data).map fun outcome => (.data outcome.1, outcome.2)
  | .isEmpty =>
      (loadRing heap (some ring)).map fun fields => (.flag (ringbufferIsEmpty fields), heap)
  | .isFull =>
      (loadRing heap (some ring)).map fun fields => (.flag (ringbufferIsFull fields), heap)

end EmbeddedBase.Middleware.HeapRingbuffer
