import EmbeddedBase.Data.BitField
import EmbeddedBase.Transition.Machine

/-!
# The bitstream packer

The model of `bitstream.c`.  A `size_t` is a natural number below `2 ^ w`, and
its sums and products are reduced modulo `2 ^ w` where the C code computes them.
`bitstream_add` and `bitstream_add_signed` differ in how they clamp the value and
share the loop that ORs its bits into the buffer.
-/

namespace EmbeddedBase.Middleware.Bitstream

open EmbeddedBase.Data
open EmbeddedBase.Transition

/-- `bitstream_t`; `data` is the buffer the pointer refers to. -/
structure BitstreamT where
  data : List (BitVec 8)
  bytes : Nat
  totalBits : Nat
  overflow : Bool
  deriving DecidableEq

/-- `bitstream_init`; the `memset` clears the first `bytes` bytes of the buffer. -/
def bitstreamInit (data : List (BitVec 8)) (bytes : Nat) : BitstreamT where
  data := zeroPrefix data bytes
  bytes := bytes
  totalBits := 0
  overflow := false

section

variable (w : Nat)

/-- The buffer after the first iterations of the packing loop.  Iteration `i`
tests bit `num_bits - 1 - i` of the value and, when it is set, switches on bit
`total_bits + i` of the buffer. -/
def packLoop (bits : BitVec 32) (numBits totalBits : Nat) (data : List (BitVec 8)) :
    Nat → List (BitVec 8)
  | 0 => data
  | i + 1 =>
      let packed := packLoop bits numBits totalBits data i
      if bits &&& (1#32 <<< (numBits - 1 - i)) ≠ 0#32 then
        orBit packed ((totalBits + i) % 2 ^ w)
      else
        packed

/-- The common end of the two functions: pack the bits, advance `total_bits`,
record the overflow, and return. -/
def appendBits (bitstream : BitstreamT) (bits : BitVec 32) (numBits : Nat)
    (overflow : Bool) : Int × BitstreamT :=
  let packed : BitstreamT :=
    { bitstream with
      data := packLoop w bits numBits bitstream.totalBits bitstream.data numBits
      totalBits := (bitstream.totalBits + numBits) % 2 ^ w }
  if overflow then (1, { packed with overflow := true }) else (0, packed)

/-- The capacity test both functions start with. -/
def noSpace (bitstream : BitstreamT) (numBits : Nat) : Bool :=
  decide ((bitstream.bytes * 8) % 2 ^ w < (bitstream.totalBits + numBits) % 2 ^ w)

/-- `bitstream_add`.  `pow(2, num_bits)` is exact at every width whose result
the comparison or the assignment can use. -/
def bitstreamAdd (bitstream : BitstreamT) (value : BitVec 32) (numBits : Nat) :
    Int × BitstreamT :=
  if noSpace w bitstream numBits then
    (-1, bitstream)
  else
    let overflow := decide (2 ^ numBits ≤ value.toNat)
    let value := if overflow then BitVec.ofNat 32 (2 ^ numBits - 1) else value
    appendBits w bitstream value numBits overflow

/-- `bitstream_add_signed`.  The bounds are computed in 64 bits and narrowed to
`int32_t`. -/
def bitstreamAddSigned (bitstream : BitstreamT) (value : BitVec 32) (numBits : Nat) :
    Int × BitstreamT :=
  if noSpace w bitstream numBits then
    (-1, bitstream)
  else
    let shift := (numBits + 2 ^ w - 1) % 2 ^ w
    let maxValue := ((1#64 <<< shift) - 1#64).setWidth 32
    let minValue := (-(1#64 <<< shift)).setWidth 32
    let overflow := maxValue.slt value || value.slt minValue
    let value :=
      if overflow then (if maxValue.slt value then maxValue else minValue) else value
    let mask := (1#32 <<< numBits) - 1#32
    appendBits w bitstream (value &&& mask) numBits overflow

end

/-! ## Calls -/

/-- A call of one of the two packing functions. -/
inductive Call where
  | add (value : BitVec 32) (numBits : Nat)
  | addSigned (value : BitVec 32) (numBits : Nat)
  deriving DecidableEq

namespace Call

/-- The width the call asks for. -/
def numBits : Call → Nat
  | add _ numBits => numBits
  | addSigned _ numBits => numBits

/-- The widths the packer is meant for: up to the whole argument, and for a
signed field at least a sign bit and less than the whole argument. -/
def Admissible : Call → Prop
  | add _ numBits => numBits ≤ 32
  | addSigned _ numBits => 1 ≤ numBits ∧ numBits ≤ 31

theorem Admissible.numBits_le {call : Call} (admissible : call.Admissible) :
    call.numBits ≤ 32 := by
  cases call with
  | add value numBits => exact admissible
  | addSigned value numBits => exact admissible.2.trans (by omega)

end Call

/-- The packer as a component that answers calls. -/
def packer (w : Nat) : Machine BitstreamT Call Int
  | bitstream, .add value numBits => bitstreamAdd w bitstream value numBits
  | bitstream, .addSigned value numBits => bitstreamAddSigned w bitstream value numBits

end EmbeddedBase.Middleware.Bitstream
