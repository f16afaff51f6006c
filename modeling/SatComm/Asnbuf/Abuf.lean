import SatComm.Bits.Basic

/-!
# The bit-wise buffer `abuf_t`

`asnbuf.h` builds ASN.1 UPER messages in a heap block: `head` is the block, `data` the first
byte in use, `tail` the byte being filled, with `tail_bits_left` bits of it still unused,
`head_headspace_bits` the bits of the first byte that do not belong to the message and `end`
one past the block (`abuf_alloc` sets `end = head + size`, whatever the comment beside the
field says). Addresses are natural numbers and every abuf owns its block, so one memory per
abuf is enough.

`written` is a ghost: the addresses stored to so far, latest first. No operation reads it.
-/

namespace SatComm.Asnbuf

open Bits

/-- `abuf_t`. -/
structure Abuf where
  mem : Mem
  head : Nat
  size : Nat
  headHeadspaceBits : Nat
  tailBitsLeft : Nat
  data : Nat
  tail : Nat
  end_ : Nat
  written : List Nat

namespace Abuf

/-- `*p`, as an unsigned byte. -/
def peek (bp : Abuf) (p : Nat) : Nat := bp.mem.byte p

/-- `*p = v`: the low eight bits of `v` go to address `p`. -/
def poke (bp : Abuf) (p v : Nat) : Abuf :=
  { bp with mem := bp.mem.store p v, written := p :: bp.written }

section poke

variable (bp : Abuf) (p v : Nat)

@[simp] theorem poke_mem : (bp.poke p v).mem = bp.mem.store p v := rfl
@[simp] theorem poke_head : (bp.poke p v).head = bp.head := rfl
@[simp] theorem poke_size : (bp.poke p v).size = bp.size := rfl
@[simp] theorem poke_headHeadspaceBits :
    (bp.poke p v).headHeadspaceBits = bp.headHeadspaceBits := rfl
@[simp] theorem poke_tailBitsLeft : (bp.poke p v).tailBitsLeft = bp.tailBitsLeft := rfl
@[simp] theorem poke_data : (bp.poke p v).data = bp.data := rfl
@[simp] theorem poke_tail : (bp.poke p v).tail = bp.tail := rfl
@[simp] theorem poke_end : (bp.poke p v).end_ = bp.end_ := rfl
@[simp] theorem poke_written : (bp.poke p v).written = p :: bp.written := rfl

end poke

/-- The tail pointer and the free bits of its byte. -/
def withTail (bp : Abuf) (tail tailBitsLeft : Nat) : Abuf :=
  { bp with tail := tail, tailBitsLeft := tailBitsLeft }

section withTail

variable (bp : Abuf) (t l : Nat)

@[simp] theorem withTail_mem : (bp.withTail t l).mem = bp.mem := rfl
@[simp] theorem withTail_head : (bp.withTail t l).head = bp.head := rfl
@[simp] theorem withTail_size : (bp.withTail t l).size = bp.size := rfl
@[simp] theorem withTail_headHeadspaceBits :
    (bp.withTail t l).headHeadspaceBits = bp.headHeadspaceBits := rfl
@[simp] theorem withTail_tailBitsLeft : (bp.withTail t l).tailBitsLeft = l := rfl
@[simp] theorem withTail_data : (bp.withTail t l).data = bp.data := rfl
@[simp] theorem withTail_tail : (bp.withTail t l).tail = t := rfl
@[simp] theorem withTail_end : (bp.withTail t l).end_ = bp.end_ := rfl
@[simp] theorem withTail_written : (bp.withTail t l).written = bp.written := rfl

end withTail

/-! ## The bit string of an abuf -/

/-- The position of the first bit of the message. -/
def startPos (bp : Abuf) : Nat := 8 * bp.data + bp.headHeadspaceBits

/-- The position of the first unused bit. -/
def tailPos (bp : Abuf) : Nat := 8 * bp.tail + (8 - bp.tailBitsLeft)

/-- The message: the bits between `startPos` and `tailPos`. -/
def bits (bp : Abuf) : List Bool := bp.mem.bits bp.startPos (bp.tailPos - bp.startPos)

/-- Everything a writer at the tail leaves alone: the block and the front of the message. -/
structure SameFrame (bp bp' : Abuf) : Prop where
  head : bp'.head = bp.head
  size : bp'.size = bp.size
  headHeadspaceBits : bp'.headHeadspaceBits = bp.headHeadspaceBits
  data : bp'.data = bp.data
  end_ : bp'.end_ = bp.end_

theorem SameFrame.refl (bp : Abuf) : SameFrame bp bp := ⟨rfl, rfl, rfl, rfl, rfl⟩

theorem SameFrame.trans {a b c : Abuf} (h : SameFrame a b) (h' : SameFrame b c) :
    SameFrame a c :=
  ⟨h'.head.trans h.head, h'.size.trans h.size,
    h'.headHeadspaceBits.trans h.headHeadspaceBits, h'.data.trans h.data, h'.end_.trans h.end_⟩

theorem SameFrame.startPos {bp bp' : Abuf} (h : SameFrame bp bp') :
    bp'.startPos = bp.startPos := by
  rw [Abuf.startPos, Abuf.startPos, h.data, h.headHeadspaceBits]

theorem sameFrame_poke (bp : Abuf) (p v : Nat) : SameFrame bp (bp.poke p v) :=
  ⟨rfl, rfl, rfl, rfl, rfl⟩

theorem sameFrame_withTail (bp : Abuf) (t l : Nat) : SameFrame bp (bp.withTail t l) :=
  ⟨rfl, rfl, rfl, rfl, rfl⟩

end Abuf

open Abuf

/-! ## Construction -/

/-- `abuf_alloc`: `head` is the block `calloc` returns. No abuf comes out when a parameter is
out of range (result `-1`). -/
def abufAlloc (head size headroom : Nat) : Option Abuf :=
  if size ≠ 0 ∧ headroom < size then
    some
      { mem := fun _ => 0
        head := head
        size := size
        headHeadspaceBits := 0
        tailBitsLeft := 8
        data := head + headroom
        tail := head + headroom
        end_ := head + size
        written := [] }
  else none

/-- `abuf_purge`: clear the block and start again behind `headroom` bytes. Out-of-range
parameters leave the abuf alone. -/
def abufPurge (bp : Abuf) (headroom : Nat) : Abuf :=
  if headroom < bp.size then
    { bp with
      mem := fun a => if bp.head ≤ a ∧ a < bp.head + bp.size then 0 else bp.mem a
      data := bp.head + headroom
      tail := bp.head + headroom
      tailBitsLeft := 8
      headHeadspaceBits := 0 }
  else bp

/-- `abuf_reset`: start again behind `headroom` bytes, with the old content of the block. -/
def abufReset (bp : Abuf) (headroom : Nat) : Abuf :=
  { bp with
    data := bp.head + headroom
    tail := bp.head + headroom
    tailBitsLeft := 8
    headHeadspaceBits := 0
    end_ := bp.head + bp.size }

/-! ## Sizes -/

/-- `abuf_bits_len`. -/
def abufBitsLen (bp : Abuf) : Int :=
  ((bp.tail : Int) - bp.data + 1) * 8 - bp.headHeadspaceBits - bp.tailBitsLeft

/-- `abuf_byte_len`. -/
def abufByteLen (bp : Abuf) : Int :=
  ((bp.tail : Int) - bp.data) + if bp.tailBitsLeft ≠ 8 then 1 else 0

/-- `abuf_tailroom`: negative once `tail` has passed `end`. -/
def abufTailroom (bp : Abuf) : Int := (bp.end_ : Int) - bp.tail

/-- `abuf_headroom_bits`. -/
def abufHeadroomBits (bp : Abuf) : Int :=
  ((bp.data : Int) - bp.head) * 8 + bp.headHeadspaceBits

/-- `abuf_check_put_tailroom`: the number of further bytes `bitlen` bits need, `-1` when they
are not there. -/
def abufCheckPutTailroom (bp : Abuf) (bitlen : Int) : Int :=
  if 0 < bitlen then
    let rest := bitlen - bp.tailBitsLeft
    if 0 < rest then
      let tailroomB := (rest + 7) / 8
      if abufTailroom bp < tailroomB then -1 else tailroomB
    else 0
  else 1

/-! ## Moving the ends -/

/-- `abuf_tail_ready`: leave a full tail byte when `abuf_tailroom` is not zero. -/
def abufTailReady (bp : Abuf) : Abuf :=
  if bp.tailBitsLeft < 1 then
    if abufTailroom bp ≠ 0 then bp.withTail (bp.tail + 1) 8 else bp
  else bp

/-- `abuf_trim`: drop an unfilled byte at either end. -/
def abufTrim (bp : Abuf) : Abuf :=
  let bp := if bp.headHeadspaceBits = 8 then
    { bp with data := bp.data + 1, headHeadspaceBits := 0 } else bp
  if bp.tailBitsLeft = 8 then bp.withTail (bp.tail - 1) 0 else bp

/-- `abuf_put`: advance the tail by whole bytes; the old tail, or nothing without room. -/
def abufPut (bp : Abuf) (bytes : Nat) : Option Nat × Abuf :=
  if bp.end_ < bp.tail + bytes then (none, bp)
  else (some bp.tail, bp.withTail (bp.tail + bytes) bp.tailBitsLeft)

/-- `abuf_pull`: advance `data`, also when that passes the tail; only then is the result
`NULL`. -/
def abufPull (bp : Abuf) (bytes : Int) : Option Nat × Abuf :=
  let bp' := { bp with data := (bp.data + bytes).toNat }
  (if bp'.tail < bp'.data then none else some bp.data, bp')

theorem abufTailReady_mem (bp : Abuf) : (abufTailReady bp).mem = bp.mem := by
  unfold abufTailReady
  split
  · split <;> rfl
  · rfl

theorem abufTailReady_written (bp : Abuf) : (abufTailReady bp).written = bp.written := by
  unfold abufTailReady
  split
  · split <;> rfl
  · rfl

theorem sameFrame_abufTailReady (bp : Abuf) : SameFrame bp (abufTailReady bp) := by
  unfold abufTailReady
  split
  · split
    · exact sameFrame_withTail bp _ _
    · exact .refl bp
  · exact .refl bp

/-- A tail that is not at `end` keeps its bit position and gets a free bit. -/
theorem abufTailReady_spec {bp : Abuf} (hroom : bp.tailBitsLeft = 0 → bp.tail ≠ bp.end_)
    (hle : bp.tailBitsLeft ≤ 8) :
    (abufTailReady bp).tailPos = bp.tailPos ∧ 0 < (abufTailReady bp).tailBitsLeft ∧
      (abufTailReady bp).tailBitsLeft ≤ 8 := by
  unfold abufTailReady
  split
  · rename_i h0
    have hz : bp.tailBitsLeft = 0 := by omega
    have hne := hroom hz
    rw [if_pos (by unfold abufTailroom; omega)]
    refine ⟨?_, by simp, by simp⟩
    simp only [tailPos, withTail_tail, withTail_tailBitsLeft, hz]
    omega
  · exact ⟨rfl, by omega, hle⟩

theorem abufTailReady_eq_self {bp : Abuf} (h : 0 < bp.tailBitsLeft) : abufTailReady bp = bp := by
  unfold abufTailReady
  rw [if_neg (by omega)]

end SatComm.Asnbuf
