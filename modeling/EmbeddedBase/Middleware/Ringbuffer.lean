import EmbeddedBase.Data.Object
import EmbeddedBase.Data.RingSlots
import EmbeddedBase.Transition.Core

/-!
# The stack ring buffer

The model of `ringbuffer.c` with a `size_t` of 32 bits.  A failed assertion and an access
outside an object have no result.  After any number of insertions the buffer holds exactly
the most recent elements.
-/

namespace EmbeddedBase.Middleware.Ringbuffer

open EmbeddedBase.Data
open EmbeddedBase.Transition

/-- `ringbuf_t`, with the object its `buf` points to. -/
structure Ringbuf where
  buf : Object 32
  size : BitVec 32
  headIdx : BitVec 32
  currElements : BitVec 32
  elementSize : BitVec 32

/-- `get_nth_element`: an offset into the buffer. -/
def getNthElement (rb : Ringbuf) (n : BitVec 32) : Option (BitVec 32) :=
  if n < rb.currElements then
    let index := (rb.headIdx + rb.size - rb.currElements + n) % rb.size
    some (index * rb.elementSize)
  else
    none

/-- `rb_init`. -/
def rbInit (buffer : Object 32) (size elementSize : BitVec 32) : Ringbuf where
  buf := buffer
  size := size
  headIdx := 0
  currElements := 0
  elementSize := elementSize

/-- `rb_get_head`. -/
def rbGetHead (rb : Ringbuf) : Option (BitVec 32) :=
  if 0 < rb.currElements then
    let lastEntryIdx := (rb.headIdx + rb.size - 1) % rb.size
    some (lastEntryIdx * rb.elementSize)
  else
    none

/-- `rb_get_tail`. -/
def rbGetTail (rb : Ringbuf) : Option (BitVec 32) :=
  if 0 < rb.currElements then
    let tailIdx := (rb.headIdx + rb.size - rb.currElements) % rb.size
    some (tailIdx * rb.elementSize)
  else
    none

/-- The first iterations of the loop of `rb_get_last_n`, up to the given number. -/
def copyElements (rb : Ringbuf) (buf : Object 32) (startIdx : BitVec 32) :
    Nat → Option (Object 32)
  | 0 => some buf
  | i + 1 => do
      let dest ← copyElements rb buf startIdx i
      let src ← getNthElement rb (startIdx + BitVec.ofNat 32 i)
      let data ← rb.buf.read src rb.elementSize
      dest.write (BitVec.ofNat 32 i * rb.elementSize) data

/-- `rb_get_last_n`. -/
def rbGetLastN (rb : Ringbuf) (buf : Object 32) (n : BitVec 32) : Option (Object 32) :=
  let count := if n > rb.currElements then rb.currElements else n
  copyElements rb buf (rb.currElements - count) count.toNat

/-- `rb_insert`; `data` is the object the pointer designates. -/
def rbInsert (rb : Ringbuf) (data : List (BitVec 8)) : Option Ringbuf :=
  if rb.elementSize.toNat ≤ data.length then do
    let buf ← rb.buf.write (rb.headIdx * rb.elementSize) (data.take rb.elementSize.toNat)
    some
      { rb with
        buf := buf
        headIdx := (rb.headIdx + 1) % rb.size
        currElements :=
          if rb.currElements < rb.size then rb.currElements + 1 else rb.currElements }
  else
    none

/-! ## Contents -/

/-- What `rb_init` expects of its arguments. -/
structure Suitable (buffer : Object 32) (size elementSize : BitVec 32) : Prop where
  positive : 1 ≤ size.toNat
  small : size.toNat ≤ 2 ^ 31
  nonempty : 1 ≤ elementSize.toNat
  room : size.toNat * elementSize.toNat ≤ buffer.length

/-- After the insertion of `elements`, each element less than a turn old is in its slot. -/
structure Holds (buffer : Object 32) (size elementSize : BitVec 32)
    (elements : List (List (BitVec 8))) (rb : Ringbuf) : Prop
    extends Suitable buffer size elementSize where
  size_eq : rb.size = size
  elementSize_eq : rb.elementSize = elementSize
  length_eq : rb.buf.length = buffer.length
  whole : ∀ element ∈ elements, element.length = elementSize.toNat
  headIdx_eq : rb.headIdx.toNat = elements.length % size.toNat
  currElements_eq : rb.currElements.toNat = min elements.length size.toNat
  slots : ∀ j (inside : j < elements.length), elements.length ≤ j + size.toNat →
    readRange rb.buf.bytes (j % size.toNat * elementSize.toNat) elementSize.toNat = elements[j]
  outside : ∀ i, size.toNat * elementSize.toNat ≤ i → rb.buf.bytes i = buffer.bytes i

section Contents

variable {buffer : Object 32} {size elementSize : BitVec 32}
  {elements : List (List (BitVec 8))} {rb : Ringbuf}

theorem holds_rbInit (suitable : Suitable buffer size elementSize) :
    Holds buffer size elementSize [] (rbInit buffer size elementSize) where
  toSuitable := suitable
  size_eq := rfl
  elementSize_eq := rfl
  length_eq := rfl
  whole _ member := absurd member List.not_mem_nil
  headIdx_eq := (Nat.zero_mod _).symm
  currElements_eq := (Nat.zero_min _).symm
  slots j inside := absurd inside (Nat.not_lt_zero j)
  outside _ _ := rfl

theorem Holds.headIdx_lt (holds : Holds buffer size elementSize elements rb) :
    rb.headIdx.toNat < size.toNat := by
  rw [holds.headIdx_eq]
  exact Nat.mod_lt _ holds.positive

/-- The offset of a slot does not wrap. -/
theorem Holds.toNat_slot (holds : Holds buffer size elementSize elements rb)
    {index : BitVec 32} (inside : index.toNat < size.toNat) :
    (index * rb.elementSize).toNat = index.toNat * elementSize.toNat := by
  have block := slot_block_le elementSize.toNat inside
  rw [holds.elementSize_eq]
  apply @Object.toNat_mul_of_le 32 buffer
  exact Nat.le_trans block holds.room

theorem Holds.toNat_headIdx_add_one (holds : Holds buffer size elementSize elements rb) :
    (rb.headIdx + 1).toNat = rb.headIdx.toNat + 1 := by
  have below := holds.headIdx_lt
  have small := holds.small
  apply BitVec.toNat_add_of_lt
  change rb.headIdx.toNat + 1 < 2 ^ 32
  omega

/-- The sums of the index computations do not wrap. -/
theorem Holds.toNat_headIdx_add_size (holds : Holds buffer size elementSize elements rb) :
    (rb.headIdx + rb.size).toNat = rb.headIdx.toNat + rb.size.toNat := by
  have below := holds.headIdx_lt
  have small := holds.small
  apply BitVec.toNat_add_of_lt
  rw [holds.size_eq]
  omega

theorem Holds.toNat_sub (holds : Holds buffer size elementSize elements rb) {back : BitVec 32}
    (turn : back.toNat ≤ size.toNat) :
    (rb.headIdx + rb.size - back).toNat = rb.headIdx.toNat + rb.size.toNat - back.toNat := by
  have sum := holds.toNat_headIdx_add_size
  rw [BitVec.toNat_sub_of_le, sum]
  rw [BitVec.le_def, sum, holds.size_eq]
  exact Nat.le_trans turn (Nat.le_add_left _ _)

theorem Holds.toNat_sub_add (holds : Holds buffer size elementSize elements rb)
    {back steps : BitVec 32} (turn : back.toNat ≤ size.toNat)
    (short : steps.toNat < back.toNat) :
    (rb.headIdx + rb.size - back + steps).toNat =
      rb.headIdx.toNat + rb.size.toNat - back.toNat + steps.toNat := by
  have below := holds.headIdx_lt
  have small := holds.small
  have difference := holds.toNat_sub turn
  rw [BitVec.toNat_add_of_lt, difference]
  rw [difference, holds.size_eq]
  omega

/-- Going back from the slot to fill next. -/
theorem Holds.toNat_index (holds : Holds buffer size elementSize elements rb)
    {back steps : BitVec 32} (turn : back.toNat ≤ size.toNat)
    (enough : back.toNat ≤ elements.length) (short : steps.toNat < back.toNat) :
    ((rb.headIdx + rb.size - back + steps) % rb.size).toNat =
      (elements.length - back.toNat + steps.toNat) % size.toNat := by
  rw [BitVec.toNat_umod, holds.toNat_sub_add turn short, holds.headIdx_eq,
    holds.size_eq, mod_add_sub_add_mod _ turn enough]

/-- The offset points at an element inside the first `size * elementSize` bytes. -/
def PointsAt (rb : Ringbuf) (offset : BitVec 32) (element : List (BitVec 8)) : Prop :=
  offset.toNat + rb.elementSize.toNat ≤ rb.size.toNat * rb.elementSize.toNat ∧
    readRange rb.buf.bytes offset.toNat rb.elementSize.toNat = element

theorem Holds.pointsAt (holds : Holds buffer size elementSize elements rb)
    {back steps : BitVec 32} (turn : back.toNat ≤ size.toNat)
    (enough : back.toNat ≤ elements.length) (short : steps.toNat < back.toNat) :
    PointsAt rb ((rb.headIdx + rb.size - back + steps) % rb.size * rb.elementSize)
      (elements.getD (elements.length - back.toNat + steps.toNat) []) := by
  have index := holds.toNat_index turn enough short
  have inside : ((rb.headIdx + rb.size - back + steps) % rb.size).toNat < size.toNat := by
    rw [index]
    exact Nat.mod_lt _ holds.positive
  have below : elements.length - back.toNat + steps.toNat < elements.length := by omega
  rw [PointsAt, holds.toNat_slot inside, holds.size_eq, holds.elementSize_eq]
  constructor
  · rw [holds.size_eq] at inside
    exact slot_block_le _ inside
  · rw [holds.size_eq] at index
    rw [index, holds.slots _ below (by omega), List.getD_eq_getElem _ _ below]

/-- The offset an insertion writes at. -/
theorem Holds.toNat_dest (holds : Holds buffer size elementSize elements rb) :
    (rb.headIdx * rb.elementSize).toNat =
      elements.length % size.toNat * elementSize.toNat := by
  rw [holds.toNat_slot holds.headIdx_lt, holds.headIdx_eq]

/-- One insertion, written out. -/
theorem Holds.rbInsert_eq (holds : Holds buffer size elementSize elements rb)
    {data : List (BitVec 8)} (whole : data.length = elementSize.toNat) :
    rbInsert rb data = some
      { rb with
        buf := rb.buf.withBytes (writeRange rb.buf.bytes
          (elements.length % size.toNat * elementSize.toNat) data)
        headIdx := (rb.headIdx + 1) % rb.size
        currElements :=
          if rb.currElements < rb.size then rb.currElements + 1 else rb.currElements } := by
  have block := slot_block_le elementSize.toNat holds.headIdx_lt
  have inside : (rb.headIdx * rb.elementSize).toNat + data.length ≤ rb.buf.length := by
    rw [holds.toNat_slot holds.headIdx_lt, whole, holds.length_eq]
    exact Nat.le_trans block holds.room
  have all : data.take rb.elementSize.toNat = data := by
    rw [holds.elementSize_eq, ← whole, List.take_length]
  rw [rbInsert, if_pos (by rw [holds.elementSize_eq, whole]), all, Object.write_of_le inside,
    holds.toNat_dest]
  rfl

/-- The number of elements grows up to the size. -/
theorem Holds.toNat_currElements_insert (holds : Holds buffer size elementSize elements rb) :
    (if rb.currElements < rb.size then rb.currElements + 1 else rb.currElements).toNat =
      min (elements.length + 1) size.toNat := by
  by_cases more : rb.currElements < rb.size
  · have below : min elements.length size.toNat < size.toNat := by
      rw [← holds.currElements_eq, ← holds.size_eq]
      exact more
    have small := holds.small
    rw [if_pos more, BitVec.toNat_add_of_lt]
    · rw [holds.currElements_eq]
      change min elements.length size.toNat + 1 = _
      omega
    · rw [holds.currElements_eq]
      change min elements.length size.toNat + 1 < 2 ^ 32
      omega
  · have full : ¬min elements.length size.toNat < size.toNat := by
      rw [← holds.currElements_eq, ← holds.size_eq]
      exact more
    rw [if_neg more, holds.currElements_eq]
    omega

/-- The new element is in its slot, and those less than a turn old stay in theirs. -/
theorem Holds.slots_insert (holds : Holds buffer size elementSize elements rb)
    {data : List (BitVec 8)} (whole : data.length = elementSize.toNat) {j : Nat}
    (within : j < (elements ++ [data]).length) (recent : elements.length < j + size.toNat) :
    readRange (writeRange rb.buf.bytes (elements.length % size.toNat * elementSize.toNat) data)
      (j % size.toNat * elementSize.toNat) elementSize.toNat = (elements ++ [data])[j] := by
  rw [List.length_append, List.length_singleton] at within
  by_cases last : j = elements.length
  · subst last
    rw [List.getElem_concat_length rfl, ← whole, readRange_writeRange_self]
  · have earlier : j < elements.length := by omega
    have different : j % size.toNat ≠ elements.length % size.toNat :=
      mod_ne_mod_of_lt earlier recent
    rw [List.getElem_append_left earlier, readRange_writeRange_of_disjoint]
    · exact holds.slots j earlier (Nat.le_of_lt recent)
    · rw [whole]
      exact slot_blocks_disjoint _ different

/-- An insertion adds its element and drops the one that is a turn older. -/
theorem Holds.rbInsert (holds : Holds buffer size elementSize elements rb)
    {data : List (BitVec 8)} (whole : data.length = elementSize.toNat) :
    ∃ rb', rbInsert rb data = some rb' ∧
      Holds buffer size elementSize (elements ++ [data]) rb' := by
  refine ⟨_, holds.rbInsert_eq whole, ?_⟩
  have inside : elements.length % size.toNat < size.toNat := Nat.mod_lt _ holds.positive
  constructor
  case toSuitable => exact holds.toSuitable
  case size_eq => exact holds.size_eq
  case elementSize_eq => exact holds.elementSize_eq
  case length_eq => exact holds.length_eq
  case whole =>
      intro element member
      rcases List.mem_append.mp member with earlier | last
      · exact holds.whole element earlier
      · rw [List.mem_singleton.mp last, whole]
  case headIdx_eq =>
      rw [BitVec.toNat_umod, holds.toNat_headIdx_add_one, holds.headIdx_eq, holds.size_eq,
        mod_add_one_mod, List.length_append, List.length_singleton]
  case currElements_eq =>
      dsimp only
      rw [holds.toNat_currElements_insert, List.length_append, List.length_singleton]
  case slots =>
      intro j within recent
      rw [List.length_append, List.length_singleton] at recent
      exact holds.slots_insert whole within recent
  case outside =>
      intro i beyond
      have block := slot_block_le elementSize.toNat inside
      dsimp only [Object.bytes_withBytes]
      rw [writeRange_of_ge _ _ (by omega)]
      exact holds.outside i beyond

/-- A run of insertions. -/
theorem Holds.run {later : List (List (BitVec 8))}
    (holds : Holds buffer size elementSize elements rb)
    (whole : ∀ element ∈ later, element.length = elementSize.toNat) :
    ∃ rb', run Ringbuffer.rbInsert rb later = some rb' ∧
      Holds buffer size elementSize (elements ++ later) rb' := by
  induction later generalizing elements rb with
  | nil => exact ⟨rb, rfl, by rwa [List.append_nil]⟩
  | cons element later ih =>
      rcases holds.rbInsert (whole element List.mem_cons_self) with ⟨middle, step, held⟩
      rcases ih held fun other member => whole other (List.mem_cons_of_mem element member) with
        ⟨rb', rest, final⟩
      refine ⟨rb', run_cons_eq_some_iff.mpr ⟨middle, step, rest⟩, ?_⟩
      rwa [List.append_assoc] at final

/-! ## Reading -/

theorem Holds.currElements_le_size (holds : Holds buffer size elementSize elements rb) :
    rb.currElements.toNat ≤ size.toNat := by
  rw [holds.currElements_eq]
  exact Nat.min_le_right _ _

theorem Holds.currElements_le_length (holds : Holds buffer size elementSize elements rb) :
    rb.currElements.toNat ≤ elements.length := by
  rw [holds.currElements_eq]
  exact Nat.min_le_left _ _

theorem Holds.getNthElement (holds : Holds buffer size elementSize elements rb)
    {n : BitVec 32} (inside : n < rb.currElements) :
    ∃ offset, getNthElement rb n = some offset ∧
      PointsAt rb offset
        (elements.getD (elements.length - rb.currElements.toNat + n.toNat) []) := by
  refine ⟨_, if_pos inside, ?_⟩
  exact holds.pointsAt holds.currElements_le_size holds.currElements_le_length inside

/-- The element the loop of `rb_get_last_n` asks for in iteration `i`. -/
theorem Holds.getNthElement_last (holds : Holds buffer size elementSize elements rb)
    {count : BitVec 32} (few : count.toNat ≤ rb.currElements.toNat) {i : Nat}
    (within : i < count.toNat) (below : elements.length - count.toNat + i < elements.length) :
    ∃ offset, Ringbuffer.getNthElement rb (rb.currElements - count + BitVec.ofNat 32 i) =
        some offset ∧
      PointsAt rb offset elements[elements.length - count.toNat + i] := by
  have addressable := count.isLt
  have bound := rb.currElements.isLt
  have enough := holds.currElements_le_length
  have counter : (BitVec.ofNat 32 i).toNat = i := by
    rw [BitVec.toNat_ofNat, Nat.mod_eq_of_lt (by omega)]
  have difference := BitVec.toNat_sub_of_le (BitVec.le_def.mpr few)
  have place : (rb.currElements - count + BitVec.ofNat 32 i).toNat =
      rb.currElements.toNat - count.toNat + i := by
    rw [BitVec.toNat_add_of_lt, difference, counter]
    rw [difference, counter]
    omega
  have inside : rb.currElements - count + BitVec.ofNat 32 i < rb.currElements := by
    rw [BitVec.lt_def, place]
    omega
  have index : elements.length - rb.currElements.toNat +
      (rb.currElements.toNat - count.toNat + i) = elements.length - count.toNat + i := by
    omega
  rcases holds.getNthElement inside with ⟨offset, found, points⟩
  rw [place, index, List.getD_eq_getElem _ _ below] at points
  exact ⟨offset, found, points⟩

/-- What is pointed at can be read. -/
theorem PointsAt.read {offset : BitVec 32} {element : List (BitVec 8)}
    (holds : Holds buffer size elementSize elements rb) (points : PointsAt rb offset element) :
    rb.buf.read offset rb.elementSize = some element := by
  have inside := points.1
  rw [Object.read_of_le, points.2]
  rw [holds.length_eq]
  rw [holds.size_eq, holds.elementSize_eq] at inside
  rw [holds.elementSize_eq]
  exact Nat.le_trans inside holds.room

/-- The bytes of some of the elements. -/
theorem Holds.length_flatten (holds : Holds buffer size elementSize elements rb)
    {some : List (List (BitVec 8))} (among : ∀ element ∈ some, element ∈ elements) :
    some.flatten.length = some.length * elementSize.toNat := by
  induction some with
  | nil => simp
  | cons element others ih =>
      have rest := ih fun other member => among other (List.mem_cons_of_mem element member)
      rw [List.flatten_cons, List.length_append, rest,
        holds.whole element (among element List.mem_cons_self), List.length_cons,
        Nat.succ_mul, Nat.add_comm]

/-- The loop copies the last elements one by one. -/
theorem Holds.copyElements (holds : Holds buffer size elementSize elements rb)
    {dest : Object 32} {count : BitVec 32} (few : count.toNat ≤ rb.currElements.toNat)
    (space : count.toNat * elementSize.toNat ≤ dest.length) {i : Nat}
    (within : i ≤ count.toNat) :
    copyElements rb dest (rb.currElements - count) i = some (dest.withBytes
      (writeRange dest.bytes 0
        ((elements.drop (elements.length - count.toNat)).take i).flatten)) := by
  induction i with
  | zero =>
      rw [Ringbuffer.copyElements, List.take_zero, List.flatten_nil, writeRange_nil]
      rfl
  | succ i ih =>
      have addressable := count.isLt
      have block := slot_block_le elementSize.toNat within
      have enough := holds.currElements_le_length
      have below : elements.length - count.toNat + i < elements.length := by omega
      rcases holds.getNthElement_last few within below with ⟨offset, found, points⟩
      have within' : i < (elements.drop (elements.length - count.toNat)).length := by
        rw [List.length_drop]
        omega
      have copied : ((elements.drop (elements.length - count.toNat)).take i).flatten.length =
          i * elementSize.toNat := by
        rw [holds.length_flatten, List.length_take, Nat.min_eq_left (Nat.le_of_lt within')]
        intro element member
        exact List.mem_of_mem_drop (List.mem_of_mem_take member)
      have target : (BitVec.ofNat 32 i * rb.elementSize).toNat = i * elementSize.toNat := by
        have counter : (BitVec.ofNat 32 i).toNat = i := by
          rw [BitVec.toNat_ofNat, Nat.mod_eq_of_lt (by omega)]
        rw [holds.elementSize_eq, @Object.toNat_mul_of_le 32 dest, counter]
        rw [counter]
        exact Nat.le_trans block space
      rw [Ringbuffer.copyElements, ih (Nat.le_of_lt within)]
      dsimp only [Option.bind_eq_bind, Option.bind_some]
      rw [found]
      dsimp only [Option.bind_some]
      rw [points.read holds]
      dsimp only [Option.bind_some]
      rw [Object.write_of_le, target]
      · rw [List.take_add_one, List.getElem?_eq_getElem within', List.getElem_drop,
          List.flatten_append, Object.bytes_withBytes, ← writeRange_append, Nat.zero_add, copied]
        simp [Object.withBytes]
      · rw [target, holds.whole _ (List.getElem_mem below)]
        exact Nat.le_trans block space

theorem Holds.currElements_pos (holds : Holds buffer size elementSize elements rb)
    (inserted : 1 ≤ elements.length) : 0 < rb.currElements := by
  have positive := holds.positive
  rw [BitVec.lt_def, holds.currElements_eq]
  change 0 < min elements.length size.toNat
  omega

theorem Holds.rbGetHead (holds : Holds buffer size elementSize elements rb)
    (inserted : 1 ≤ elements.length) :
    ∃ offset, rbGetHead rb = some offset ∧
      PointsAt rb offset (elements.getD (elements.length - 1) []) := by
  have nonempty := holds.currElements_pos inserted
  have points := @Holds.pointsAt buffer size elementSize elements rb holds 1#32 0#32
    holds.positive inserted (by decide)
  rw [BitVec.add_zero] at points
  exact ⟨_, if_pos nonempty, points⟩

theorem Holds.rbGetTail (holds : Holds buffer size elementSize elements rb)
    (inserted : 1 ≤ elements.length) :
    ∃ offset, rbGetTail rb = some offset ∧
      PointsAt rb offset (elements.getD (elements.length - rb.currElements.toNat) []) := by
  have nonempty := holds.currElements_pos inserted
  have points := @Holds.pointsAt buffer size elementSize elements rb holds rb.currElements 0#32
    holds.currElements_le_size holds.currElements_le_length nonempty
  rw [BitVec.add_zero] at points
  exact ⟨_, if_pos nonempty, points⟩

theorem Holds.rbGetLastN (holds : Holds buffer size elementSize elements rb)
    {dest : Object 32} {n : BitVec 32}
    (space : min n.toNat rb.currElements.toNat * elementSize.toNat ≤ dest.length) :
    rbGetLastN rb dest n = some (dest.withBytes (writeRange dest.bytes 0
      (elements.drop (elements.length - min n.toNat rb.currElements.toNat)).flatten)) := by
  have enough := holds.currElements_le_length
  rw [Ringbuffer.rbGetLastN]
  by_cases many : n > rb.currElements
  · have count : min n.toNat rb.currElements.toNat = rb.currElements.toNat :=
      Nat.min_eq_right (Nat.le_of_lt (BitVec.lt_def.mp many))
    rw [count] at space ⊢
    rw [if_pos many, holds.copyElements (Nat.le_refl _) space (Nat.le_refl _),
      List.take_of_length_le]
    rw [List.length_drop]
    omega
  · have few : n.toNat ≤ rb.currElements.toNat := BitVec.le_def.mp (BitVec.not_lt.mp many)
    have count : min n.toNat rb.currElements.toNat = n.toNat := Nat.min_eq_left few
    rw [count] at space ⊢
    rw [if_neg many, holds.copyElements few space (Nat.le_refl _), List.take_of_length_le]
    rw [List.length_drop]
    omega

end Contents

/-! ## The most recent elements -/

/-- What must hold of the ring buffer after the insertion of `elements`. -/
structure KeepsMostRecent (buffer : Object 32) (size elementSize : BitVec 32)
    (elements : List (List (BitVec 8))) (rb : Ringbuf) : Prop where
  headIdx_lt : rb.headIdx.toNat < size.toNat
  currElements_eq : rb.currElements.toNat = min elements.length size.toNat
  next_exact : (rb.headIdx + 1).toNat = rb.headIdx.toNat + 1
  sum_exact : (rb.headIdx + rb.size).toNat = rb.headIdx.toNat + size.toNat
  count_le_sum : rb.currElements.toNat ≤ rb.headIdx.toNat + size.toNat
  index_exact : ∀ n < rb.currElements,
    (rb.headIdx + rb.size - rb.currElements + n).toNat =
      rb.headIdx.toNat + size.toNat - rb.currElements.toNat + n.toNat
  dest_inside : (rb.headIdx * rb.elementSize).toNat + elementSize.toNat ≤
    size.toNat * elementSize.toNat
  outside : ∀ i, size.toNat * elementSize.toNat ≤ i → rb.buf.bytes i = buffer.bytes i
  nth : ∀ n < rb.currElements, ∃ offset, getNthElement rb n = some offset ∧
    PointsAt rb offset (elements.getD (elements.length - rb.currElements.toNat + n.toNat) [])
  head : 1 ≤ elements.length → ∃ offset, rbGetHead rb = some offset ∧
    PointsAt rb offset (elements.getD (elements.length - 1) [])
  tail : 1 ≤ elements.length → ∃ offset, rbGetTail rb = some offset ∧
    PointsAt rb offset (elements.getD (elements.length - rb.currElements.toNat) [])
  lastN : ∀ (n : BitVec 32) (dest : Object 32),
    min n.toNat rb.currElements.toNat * elementSize.toNat ≤ dest.length →
    ∃ dest', rbGetLastN rb dest n = some dest' ∧
      readRange dest'.bytes 0 (min n.toNat rb.currElements.toNat * elementSize.toNat) =
        (elements.drop (elements.length - min n.toNat rb.currElements.toNat)).flatten ∧
      ∀ i, min n.toNat rb.currElements.toNat * elementSize.toNat ≤ i →
        dest'.bytes i = dest.bytes i

theorem Holds.keepsMostRecent {buffer : Object 32} {size elementSize : BitVec 32}
    {elements : List (List (BitVec 8))} {rb : Ringbuf}
    (holds : Holds buffer size elementSize elements rb) :
    KeepsMostRecent buffer size elementSize elements rb where
  headIdx_lt := holds.headIdx_lt
  currElements_eq := holds.currElements_eq
  next_exact := holds.toNat_headIdx_add_one
  sum_exact := by rw [holds.toNat_headIdx_add_size, holds.size_eq]
  count_le_sum := Nat.le_trans holds.currElements_le_size (Nat.le_add_left _ _)
  index_exact n inside := by
    rw [holds.toNat_sub_add holds.currElements_le_size inside, holds.size_eq]
  dest_inside := by
    rw [holds.toNat_slot holds.headIdx_lt]
    exact slot_block_le _ holds.headIdx_lt
  outside := holds.outside
  nth _ := holds.getNthElement
  head := holds.rbGetHead
  tail := holds.rbGetTail
  lastN n dest space := by
    refine ⟨_, holds.rbGetLastN space, ?_⟩
    have enough := holds.currElements_le_length
    have length : (elements.drop (elements.length -
        min n.toNat rb.currElements.toNat)).flatten.length =
        min n.toNat rb.currElements.toNat * elementSize.toNat := by
      rw [holds.length_flatten fun _ member => List.mem_of_mem_drop member, List.length_drop]
      congr 1
      omega
    constructor
    · rw [← length, Object.bytes_withBytes, readRange_writeRange_self]
    · intro i beyond
      rw [Object.bytes_withBytes, writeRange_of_ge _ _ (by omega)]

/-- After any number of insertions into a fresh ring buffer, no assertion having failed and
no access having left the buffer, it holds exactly the most recent elements. -/
theorem rb_keeps_most_recent (buffer : Object 32) (size elementSize : BitVec 32)
    (suitable : Suitable buffer size elementSize) (elements : List (List (BitVec 8)))
    (whole : ∀ element ∈ elements, element.length = elementSize.toNat) :
    ∃ rb, run rbInsert (rbInit buffer size elementSize) elements = some rb ∧
      KeepsMostRecent buffer size elementSize elements rb := by
  rcases (holds_rbInit suitable).run whole with ⟨rb, executed, holds⟩
  exact ⟨rb, executed, holds.keepsMostRecent⟩

/-- Three insertions into a buffer of two elements of two bytes. -/
theorem rb_keeps_most_recent_example :
    ∃ rb, run rbInsert (rbInit ⟨fun _ => 0, 4, by decide⟩ 2 2) [[1, 2], [3, 4], [5, 6]] = some rb ∧
      KeepsMostRecent ⟨fun _ => 0, 4, by decide⟩ 2 2 [[1, 2], [3, 4], [5, 6]] rb :=
  rb_keeps_most_recent ⟨fun _ => 0, 4, by decide⟩ 2 2
    ⟨by decide, by decide, by decide, by decide⟩ [[1, 2], [3, 4], [5, 6]] (by decide)

end EmbeddedBase.Middleware.Ringbuffer
