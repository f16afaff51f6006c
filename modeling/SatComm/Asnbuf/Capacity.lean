import SatComm.Asnbuf.Ncat

/-!
# How much an abuf takes

A block of `size` bytes behind `headroom` bytes has room for `8 * (size - headroom)` bits. The
writer keeps its contract, store inside the block and append the whole field or nothing, for
exactly the call sequences that stay within that number: `abuf_check_put_tailroom` counts the
room of the byte at `end`, which is not there, and the branch for short fields counts none.
-/

namespace SatComm.Asnbuf

open Bits Abuf

/-- What one call owes its caller: result `0` with its bits appended, or result `-1` with the
bit string and its length as before. -/
def AllOrNothing (bp : Abuf) (f : Field) : Prop :=
  let r := asnNcatBits bp f.value f.width
  (r.1 = 0 ∧ r.2.bits = bp.bits ++ toBits f.width f.value) ∨
    (r.1 = -1 ∧ r.2.bits = bp.bits ∧ abufBitsLen r.2 = abufBitsLen bp)

/-- The contract of a sequence of calls: every store of every call hits the block, and every
call appends its field or nothing. -/
def CallsOk (bp : Abuf) : List Field → Prop
  | [] => True
  | f :: fs =>
    let bp' := (asnNcatBits bp f.value f.width).2
    StoresIn bp bp' bp.head (bp.head + bp.size) ∧ AllOrNothing bp f ∧ CallsOk bp' fs

/-- The write position of an abuf, inside its block. -/
structure InBlock (bp : Abuf) : Prop where
  ready : Ready bp
  front : bp.startPos ≤ bp.tailPos
  lower : bp.head ≤ bp.tail
  upper : bp.tailPos ≤ 8 * bp.end_
  block : bp.end_ = bp.head + bp.size

theorem inBlock_abufAlloc {head size headroom : Nat} {bp : Abuf}
    (h : abufAlloc head size headroom = some bp) :
    InBlock bp ∧ bp.tailPos = 8 * (head + headroom) ∧ bp.end_ = head + size ∧
      headroom < size := by
  unfold abufAlloc at h
  split at h
  · rename_i hsz
    obtain rfl := Option.some.inj h
    refine ⟨⟨ready_of_empty rfl, ?_, ?_, ?_, rfl⟩, ?_, rfl, hsz.2⟩
    · simp [startPos, tailPos]
    · simp
    · simp only [tailPos]
      omega
    · simp [tailPos]
  · cases h

/-- A call with room keeps the write position inside the block. -/
theorem InBlock.asnNcatBits {bp : Abuf} (hb : InBlock bp) {f : Field} (hw : 0 < f.width)
    (hroom : bp.tailPos + f.width ≤ 8 * bp.end_) :
    InBlock (asnNcatBits bp f.value f.width).2 := by
  obtain ⟨-, happ, hrdy, -⟩ := asnNcatBits_spec hb.ready.toFillable f.value hw hroom
  have hpos := happ.tailPos
  have hle := happ.tail_le hb.ready.le hrdy.pos
  have hfront := hb.front
  rw [length_toBits] at hpos
  refine ⟨hrdy, ?_, ?_, ?_, ?_⟩
  · rw [happ.frame.startPos]
    omega
  · rw [happ.frame.head]
    exact hb.lower.trans hle
  · rw [happ.frame.end_]
    omega
  · rw [happ.frame.end_, happ.frame.head, happ.frame.size]
    exact hb.block

/-- A call with room owes nothing. -/
theorem call_of_fits {bp : Abuf} (hb : InBlock bp) {f : Field} (hw : 0 < f.width)
    (hroom : bp.tailPos + f.width ≤ 8 * bp.end_) :
    StoresIn bp (asnNcatBits bp f.value f.width).2 bp.head (bp.head + bp.size) ∧
      AllOrNothing bp f := by
  obtain ⟨hres, happ, -, hst⟩ := asnNcatBits_spec hb.ready.toFillable f.value hw hroom
  rw [hb.block] at hst
  exact ⟨hst.mono hb.lower le_rfl, .inl ⟨hres, happ.bits hb.front⟩⟩

/-- A call without room breaks the contract. -/
theorem not_call_of_overflow {bp : Abuf} (hb : InBlock bp) {f : Field}
    (hroom : 8 * bp.end_ < bp.tailPos + f.width) :
    ¬ (StoresIn bp (asnNcatBits bp f.value f.width).2 bp.head (bp.head + bp.size) ∧
      AllOrNothing bp f) := by
  rintro ⟨⟨ys, hys, hin⟩, hall⟩
  rcases asnNcatBits_overflow hb.ready f.value hb.upper hroom with ⟨new, hnew, hend⟩ | ⟨hres, hlen⟩
  · have hsame : ys = new := List.append_cancel_right (hys.symm.trans hnew)
    have := (hin bp.end_ (hsame ▸ hend)).2
    have hblock := hb.block
    omega
  · have hpos := hb.ready.pos
    rcases hall with ⟨h0, -⟩ | ⟨-, -, hsame⟩
    · rw [hres] at h0
      cases h0
    · rw [hlen] at hsame
      omega

theorem callsOk_iff_of_inBlock (fields : List Field) {bp : Abuf} (hb : InBlock bp)
    (hw : ∀ f ∈ fields, 0 < f.width) :
    CallsOk bp fields ↔ bp.tailPos + fieldWidth fields ≤ 8 * bp.end_ := by
  induction fields generalizing bp with
  | nil => simpa [CallsOk] using hb.upper
  | cons f fs ih =>
    rw [CallsOk, fieldWidth_cons]
    have hf : 0 < f.width := hw f (by simp)
    by_cases hroom : bp.tailPos + f.width ≤ 8 * bp.end_
    · obtain ⟨hst, hall⟩ := call_of_fits hb hf hroom
      have happ := (asnNcatBits_spec hb.ready.toFillable f.value hf hroom).2.1
      have hpos := happ.tailPos
      rw [length_toBits] at hpos
      rw [ih (hb.asnNcatBits hf hroom) (fun g hg => hw g (by simp [hg])), happ.frame.end_, hpos]
      constructor
      · intro h
        omega
      · intro h
        exact ⟨hst, hall, by omega⟩
    · constructor
      · intro h
        exact absurd ⟨h.1, h.2.1⟩ (not_call_of_overflow hb (by omega))
      · intro h
        omega

/-- The writer keeps its contract over a whole call sequence if and only if the fields fit
behind the headroom. -/
theorem callsOk_iff_fits {head size headroom : Nat} {bp : Abuf}
    (halloc : abufAlloc head size headroom = some bp) (fields : List Field)
    (hw : ∀ f ∈ fields, 1 ≤ f.width ∧ f.width ≤ 32) :
    CallsOk bp fields ↔ fieldWidth fields ≤ 8 * (size - headroom) := by
  obtain ⟨hb, hpos, hend, hlt⟩ := inBlock_abufAlloc halloc
  rw [callsOk_iff_of_inBlock fields hb fun f hf => (hw f hf).1, hpos, hend]
  omega

/-- An abuf with one byte of room takes a whole byte. -/
theorem callsOk_one_byte :
    ∃ bp, abufAlloc 4096 8 7 = some bp ∧ CallsOk bp [⟨8, 0xab⟩] := by
  refine ⟨_, rfl, ?_⟩
  have halloc : abufAlloc 4096 8 7 = some _ := rfl
  exact (callsOk_iff_fits halloc [⟨8, 0xab⟩] (by simp)).mpr (by decide)

/-- One byte of room, a whole byte and one more bit: the last call clears, then fills, the
byte behind the block. -/
theorem not_callsOk_full_block :
    ¬ ∀ (head size headroom : Nat) (bp : Abuf) (fields : List Field),
      abufAlloc head size headroom = some bp →
      (∀ f ∈ fields, 1 ≤ f.width ∧ f.width ≤ 32) → CallsOk bp fields := by
  intro h
  have hok := h 4096 8 7 _ [⟨8, 0xab⟩, ⟨1, 1⟩] rfl (by simp)
  obtain ⟨-, -, ⟨new, hnew, hin⟩, -⟩ := hok
  have hnew' : [4104, 4104] ++ [4103, 4103] = new ++ [4103, 4103] := hnew
  have hsame := List.append_cancel_right hnew'
  have hlt : 4104 < 4104 := (hin 4104 (by simp [← hsame])).2
  exact lt_irrefl _ hlt

end SatComm.Asnbuf
