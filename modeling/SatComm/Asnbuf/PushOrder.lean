import SatComm.Asnbuf.Push

/-!
# Pushing fields in reverse order

`asn_push_bits` puts a field in front of the message when there is headroom for it and does
nothing otherwise. Fields pushed one after the other, the last one first, give the bit string
that `asn_ncat_bits` gives for them in order.
-/

namespace SatComm.Asnbuf

open Bits Abuf

/-- Push a list of fields, one `asn_push_bits` call each, ignoring the results. -/
def pushAll (bp : Abuf) (fields : List Field) : Abuf :=
  fields.foldl (fun bp f => (asnPushBits bp f.value f.width).2) bp

theorem le_abufHeadroomBits_iff {bp : Abuf} {n : Nat} :
    (n : Int) ≤ abufHeadroomBits bp ↔ 8 * bp.head + n ≤ bp.startPos := by
  simp only [abufHeadroomBits, startPos]
  omega

theorem Pushed.bits {bp bp' : Abuf} {bs : List Bool} (h : Pushed bp bp' bs)
    (hord : bp.startPos ≤ bp.tailPos) : bp'.bits = bs ++ bp.bits := by
  have hstart := h.startPos
  have htail : bp'.tailPos = bp.tailPos := by rw [tailPos, tailPos, h.tail, h.tailBitsLeft]
  rw [Abuf.bits, htail,
    show bp.tailPos - bp'.startPos = bs.length + (bp.tailPos - bp.startPos) by omega,
    Mem.bits_add, h.new, hstart]
  congr 1
  exact Mem.bits_congr fun q hq _ => h.kept q hq

theorem Pushed.bitsLen {bp bp' : Abuf} {bs : List Bool} (h : Pushed bp bp' bs) :
    abufBitsLen bp' = abufBitsLen bp + bs.length := by
  have hstart := h.startPos
  simp only [Abuf.startPos] at hstart
  simp only [abufBitsLen, h.tail, h.tailBitsLeft]
  omega

/-- Fields pushed with headroom for all of them: the last one pushed comes first. -/
theorem pushAll_spec (fields : List Field) {bp : Abuf} (hw : ∀ f ∈ fields, 0 < f.width)
    (hh : bp.headHeadspaceBits < 8) (hhead : 0 < bp.head)
    (hroom : 8 * bp.head + fieldWidth fields ≤ bp.startPos) :
    Pushed bp (pushAll bp fields) (fieldBits fields.reverse) ∧
      (pushAll bp fields).headHeadspaceBits < 8 := by
  induction fields generalizing bp with
  | nil => exact ⟨.refl bp, hh⟩
  | cons f fs ih =>
    rw [fieldWidth_cons] at hroom
    obtain ⟨hfirst, hh'⟩ :=
      asnPushBits_spec f.value (hw f List.mem_cons_self) hh.le hhead (by omega)
    have hstart := hfirst.startPos
    rw [length_toBits] at hstart
    obtain ⟨hrest, hh''⟩ := ih (fun g hg => hw g (List.mem_cons_of_mem f hg)) hh'
      (hfirst.head.symm ▸ hhead) (by rw [hfirst.head]; omega)
    have hsplit : fieldBits (f :: fs).reverse = fieldBits fs.reverse ++ toBits f.width f.value := by
      simp [fieldBits]
    rw [hsplit]
    exact ⟨hfirst.trans hrest, hh''⟩

/-- What `asn_push_bits` owes its caller: the `k` low bits of `d` in front of everything that was
there, or nothing. -/
def PushContract (bp : Abuf) (d k : Nat) : Prop :=
  let r := asnPushBits bp d k
  if (k : Int) ≤ abufHeadroomBits bp then
    r.1 = k ∧
      (r.2.startPos + k = bp.startPos ∧ r.2.mem.bits r.2.startPos k = toBits k d) ∧
      (r.2.tailPos = bp.tailPos ∧ ∀ q, bp.startPos ≤ q → r.2.mem.bit q = bp.mem.bit q) ∧
      (bp.startPos ≤ bp.tailPos → r.2.bits = toBits k d ++ bp.bits) ∧
      abufBitsLen r.2 = abufBitsLen bp + k
  else r = (-1, bp)

theorem pushContract_of_headspace {bp : Abuf} (d : Nat) {k : Nat}
    (hh : bp.headHeadspaceBits ≤ 7) (hhead : 0 < bp.head) (hk : 0 < k) : PushContract bp d k := by
  unfold PushContract
  by_cases hroom : (k : Int) ≤ abufHeadroomBits bp
  · obtain ⟨hpush, -⟩ := asnPushBits_spec d hk (show bp.headHeadspaceBits ≤ 8 by omega) hhead
      (le_abufHeadroomBits_iff.mp hroom)
    have hres : (asnPushBits bp d k).1 = k := by rw [asnPushBits, if_pos ⟨hk.ne', hroom⟩]
    have hstart := hpush.startPos
    have hnew := hpush.new
    have hlen := hpush.bitsLen
    rw [length_toBits] at hstart hnew hlen
    have htail : (asnPushBits bp d k).2.tailPos = bp.tailPos := by
      rw [tailPos, tailPos, hpush.tail, hpush.tailBitsLeft]
    simp only
    rw [if_pos hroom]
    exact ⟨hres, ⟨hstart, hnew⟩, ⟨htail, hpush.kept⟩, hpush.bits, hlen⟩
  · simp only
    rw [if_neg hroom, asnPushBits, if_neg fun h => hroom h.2]

/-- A push puts its field in front or leaves the abuf as it was. Fields pushed in reverse order
give the string that appending them in order gives. -/
theorem push_reverse_eq_ncat :
    (∀ (bp : Abuf) (d k : Nat), bp.headHeadspaceBits ≤ 7 → 0 < bp.head → 1 ≤ k → k ≤ 32 →
      PushContract bp d k) ∧
    ∀ (front back : Abuf) (fields : List Field), (∀ f ∈ fields, 1 ≤ f.width ∧ f.width ≤ 32) →
      front.headHeadspaceBits ≤ 7 → 0 < front.head → front.startPos ≤ front.tailPos →
      (fieldWidth fields : Int) ≤ abufHeadroomBits front →
      Fillable back → back.startPos ≤ back.tailPos →
      back.tailPos + fieldWidth fields ≤ 8 * back.end_ →
      (pushAll front fields.reverse).bits = fieldBits fields ++ front.bits ∧
        (ncatAll back fields).bits = back.bits ++ fieldBits fields := by
  refine ⟨fun bp d k hh hhead hk _ => pushContract_of_headspace d hh hhead hk, ?_⟩
  intro front back fields hw hh hhead hord hroom hfill hord' hroom'
  have hwidth : fieldWidth fields.reverse = fieldWidth fields := by
    simp [fieldWidth, List.sum_reverse]
  have hpush := (pushAll_spec fields.reverse
    (fun f hf => (hw f (List.mem_reverse.mp hf)).1) (by omega) hhead
    (by rw [hwidth]; exact le_abufHeadroomBits_iff.mp hroom)).1
  rw [List.reverse_reverse] at hpush
  exact ⟨hpush.bits hord,
    (ncatAll_spec fields hfill (fun f hf => (hw f hf).1) hroom').1.bits hord'⟩

/-- Three fields pushed into the headroom of an empty abuf, and appended to it. -/
theorem push_reverse_eq_ncat_three_fields :
    ∃ bp, abufAlloc 4096 16 8 = some bp ∧ PushContract bp 300 13 ∧
      (pushAll bp [⟨5, 21⟩, ⟨8, 200⟩, ⟨19, 300000⟩].reverse).bits =
        (ncatAll bp [⟨5, 21⟩, ⟨8, 200⟩, ⟨19, 300000⟩]).bits := by
  obtain ⟨bp, hbp⟩ : ∃ bp, abufAlloc 4096 16 8 = some bp := ⟨_, rfl⟩
  obtain rfl := Option.some.inj hbp
  refine ⟨_, rfl, push_reverse_eq_ncat.1 _ 300 13 (by decide) (by decide) (by decide)
    (by decide), ?_⟩
  obtain ⟨hpush, happ⟩ := push_reverse_eq_ncat.2
    { mem := fun _ => 0, head := 4096, size := 16, headHeadspaceBits := 0, tailBitsLeft := 8,
      data := 4104, tail := 4104, end_ := 4112, written := [] }
    { mem := fun _ => 0, head := 4096, size := 16, headHeadspaceBits := 0, tailBitsLeft := 8,
      data := 4104, tail := 4104, end_ := 4112, written := [] }
    [⟨5, 21⟩, ⟨8, 200⟩, ⟨19, 300000⟩] (by simp) (by decide) (by decide) (by decide) (by decide)
    (fillable_of_empty rfl) (by decide) (by decide)
  exact hpush.trans happ.symm

end SatComm.Asnbuf
