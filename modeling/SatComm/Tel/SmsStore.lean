import Mathlib.Data.List.Induction
import Mathlib.Order.Bounds.Basic
import SatComm.Tel.SmsManager

/-!
# The order of the stored messages

As long as the indices of the messages are strictly increasing, the messages up to the first gap
have the indices that are their positions. So the index after them is at once the smallest one that
is free and the position between them and the rest, and the message that is put there keeps the
order.
-/

namespace SatComm

namespace Tel

namespace SmsManager

open Runs

/-- The indices are strictly increasing, and there are not too many messages. -/
structure Ordered (limit : StorageLimit) (store : List Sms) : Prop where
  increasing : store.Pairwise fun sms sms' => sms.msgIndex < sms'.msgIndex
  length_le : store.length ≤ limit.maxCount

/-- A message that is stored gets the smallest index that is free and comes between the others,
which stay as they are. A message is stored as long as there is room on the SIM. -/
def Stores (limit : StorageLimit) (store : List Sms) : Event → Prop
  | .incomingSms storage incoming =>
    if storage = .sim ∧ store.length < limit.maxCount then
      ∃ before after index, store = before ++ after ∧
        IsLeast {index | ∀ sms ∈ store, sms.msgIndex ≠ index} index ∧
        step limit store (.incomingSms storage incoming) = before ++ newSms incoming index :: after
    else step limit store (.incomingSms storage incoming) = store
  | _ => True

variable {limit : StorageLimit} {store : List Sms}

/-! ## The index of a new message -/

theorem firstGap_spec (sms : Sms) (rest : List Sms)
    (h : (sms :: rest).Pairwise fun sms sms' => sms.msgIndex < sms'.msgIndex) :
    ∃ before after, sms :: rest = before ++ after ∧
      before.map Sms.msgIndex = List.range' sms.msgIndex before.length ∧
      (firstGap (sms :: rest)).getD (sms.msgIndex + (sms :: rest).length) =
        sms.msgIndex + before.length ∧
      ∀ sms' ∈ after, sms.msgIndex + before.length < sms'.msgIndex := by
  induction rest generalizing sms with
  | nil => exact ⟨[sms], [], rfl, rfl, rfl, nofun⟩
  | cons next rest ih =>
    obtain ⟨hsms, hrest⟩ := List.pairwise_cons.mp h
    rw [firstGap]
    split
    · rename_i hgap
      have hlt : sms.msgIndex + 1 < next.msgIndex := by
        have := hsms next List.mem_cons_self
        omega
      refine ⟨[sms], next :: rest, rfl, rfl, rfl, ?_⟩
      intro sms' hmem
      rcases List.mem_cons.mp hmem with rfl | hmem
      · exact hlt
      · exact Nat.lt_trans hlt ((List.pairwise_cons.mp hrest).1 sms' hmem)
    · rename_i hnext
      have hnext : next.msgIndex = sms.msgIndex + 1 := not_not.mp hnext
      obtain ⟨before, after, happend, hbefore, hgap, hafter⟩ := ih next hrest
      rw [hnext] at hbefore hgap hafter
      refine ⟨sms :: before, after, by rw [happend]; rfl, ?_, ?_, ?_⟩
      · rw [List.map_cons, hbefore, List.length_cons, List.range'_succ]
      · have hlength : sms.msgIndex + (sms :: next :: rest).length =
            sms.msgIndex + 1 + (next :: rest).length := by
          rw [List.length_cons]
          omega
        rw [hlength, hgap, List.length_cons]
        omega
      · intro sms' hmem
        have := hafter sms' hmem
        rw [List.length_cons]
        omega

/-- The messages before the new index have their positions as indices, the others greater ones. -/
theorem getNewSmsIndex_spec
    (h : store.Pairwise fun sms sms' => sms.msgIndex < sms'.msgIndex) :
    ∃ before after, store = before ++ after ∧
      before.map Sms.msgIndex = List.range before.length ∧
      getNewSmsIndex store = before.length ∧
      ∀ sms ∈ after, before.length < sms.msgIndex := by
  cases store with
  | nil => exact ⟨[], [], rfl, rfl, rfl, nofun⟩
  | cons sms rest =>
    rw [getNewSmsIndex]
    split
    · rename_i hzero
      have hzero : sms.msgIndex = 0 := hzero
      obtain ⟨before, after, happend, hbefore, hgap, hafter⟩ := firstGap_spec sms rest h
      rw [hzero, Nat.zero_add] at hgap hafter
      rw [hzero] at hbefore
      refine ⟨before, after, happend, ?_, ?_, ?_⟩
      · rw [hbefore, List.range_eq_range']
      · rw [← Nat.zero_add before.length, ← hgap]
      · exact fun sms' hmem => by simpa using hafter sms' hmem
    · rename_i hne
      refine ⟨[], sms :: rest, rfl, rfl, rfl, ?_⟩
      intro sms' hmem
      have hpos : 0 < sms.msgIndex := Nat.pos_of_ne_zero hne
      rcases List.mem_cons.mp hmem with rfl | hmem
      · exact hpos
      · exact Nat.lt_trans hpos ((List.pairwise_cons.mp h).1 sms' hmem)

theorem isLeast_getNewSmsIndex
    (h : store.Pairwise fun sms sms' => sms.msgIndex < sms'.msgIndex) :
    IsLeast {index | ∀ sms ∈ store, sms.msgIndex ≠ index} (getNewSmsIndex store) := by
  obtain ⟨before, after, rfl, hbefore, hindex, hafter⟩ := getNewSmsIndex_spec h
  have hmem : ∀ index, index ∈ before.map Sms.msgIndex ↔ index < before.length := by
    intro index
    rw [hbefore, List.mem_range]
  rw [hindex]
  constructor
  · intro sms hsms heq
    rcases List.mem_append.mp hsms with hsms | hsms
    · have := (hmem sms.msgIndex).mp (List.mem_map_of_mem hsms)
      omega
    · have := hafter sms hsms
      omega
  · intro index hfree
    by_contra hlt
    obtain ⟨sms, hsms, heq⟩ := List.mem_map.mp ((hmem index).mpr (Nat.lt_of_not_le hlt))
    exact hfree sms (List.mem_append_left _ hsms) heq

/-! ## The place of a new message -/

/-- The elements of `moved` go one place up and the one behind them is overwritten. -/
theorem shift_set (before moved : List Sms) (last : Sms) (after : List Sms) (sms : Sms) :
    (shift before.length (before.length + moved.length) (before ++ moved ++ last :: after)).set
      before.length sms = before ++ sms :: moved ++ after := by
  -- From the end of `moved`, as the loop goes.
  induction moved using List.reverseRecOn generalizing last after with
  | nil =>
    have hshift : ∀ store, shift before.length before.length store = store := by
      intro store
      cases before.length with
      | zero => rfl
      | succ n => rw [shift, if_neg (Nat.lt_irrefl _)]
    simp [hshift]
  | append_singleton moved x ih =>
    rw [List.length_append, List.length_singleton, ← Nat.add_assoc, shift,
      if_pos (by omega)]
    have hget : (before ++ (moved ++ [x]) ++ last :: after)[before.length + moved.length]? = some x := by
      simp
    have hset : (before ++ (moved ++ [x]) ++ last :: after).set (before.length + moved.length + 1) x =
        before ++ moved ++ x :: x :: after := by
      have hlength : (before ++ (moved ++ [x])).length = before.length + moved.length + 1 := by
        rw [List.length_append, List.length_append, List.length_singleton, Nat.add_assoc]
      rw [List.set_append_right _ _ (Nat.le_of_eq hlength), hlength, Nat.sub_self]
      simp
    rw [hget]
    dsimp only
    rw [hset, ih]
    simp

theorem sortDatabase_append (before after : List Sms) (sms : Sms) :
    sortDatabase (before ++ after ++ [sms]) sms before.length = before ++ sms :: after := by
  have hlength : (before ++ after ++ [sms]).length = before.length + after.length + 1 := by
    rw [List.length_append, List.length_append, List.length_singleton]
  rw [sortDatabase, if_neg (by omega), hlength, Nat.add_sub_cancel]
  simpa using shift_set before after sms [] sms

/-- The difference does not wrap as long as there are not too many messages. -/
theorem availableCount_eq (h : store.length ≤ limit.maxCount) :
    availableCount limit.maxCount store.length = limit.maxCount - store.length := by
  have := limit.maxCount_lt
  unfold availableCount
  omega

/-- Where there is room the message is put behind those that have their positions as indices. -/
theorem handleIncomingSms_eq (h : Ordered limit store) {storage : StorageType}
    (incoming : IncomingSms) (hstored : storage = .sim ∧ store.length < limit.maxCount) :
    ∃ before after, store = before ++ after ∧
      before.map Sms.msgIndex = List.range before.length ∧
      (∀ sms ∈ after, before.length < sms.msgIndex) ∧ getNewSmsIndex store = before.length ∧
      handleIncomingSms limit store storage incoming =
        before ++ newSms incoming before.length :: after := by
  obtain ⟨before, after, happend, hbefore, hindex, hafter⟩ := getNewSmsIndex_spec h.increasing
  refine ⟨before, after, happend, hbefore, hafter, hindex, ?_⟩
  have hroom : availableCount limit.maxCount store.length > 0 := by
    rw [availableCount_eq h.length_le]
    exact Nat.sub_pos_of_lt hstored.2
  unfold handleIncomingSms
  rw [if_pos hstored.1, if_pos hroom, hindex, happend]
  exact sortDatabase_append before after _

theorem handleIncomingSms_eq_self (h : Ordered limit store) {storage : StorageType}
    (incoming : IncomingSms) (hnot : ¬ (storage = .sim ∧ store.length < limit.maxCount)) :
    handleIncomingSms limit store storage incoming = store := by
  unfold handleIncomingSms
  dsimp only
  rw [availableCount_eq h.length_le]
  split_ifs with hsim hroom
  · exact absurd ⟨hsim, Nat.lt_of_sub_pos hroom⟩ hnot
  · rfl
  · rfl

theorem Ordered.stores (h : Ordered limit store) (e : Event) : Stores limit store e := by
  cases e with
  | incomingSms storage incoming =>
    rw [Stores, step]
    split
    · rename_i hstored
      obtain ⟨before, after, happend, -, -, hindex, heq⟩ := handleIncomingSms_eq h incoming hstored
      have hleast := isLeast_getNewSmsIndex h.increasing
      rw [hindex] at hleast
      exact ⟨before, after, before.length, happend, hleast, heq⟩
    · rename_i hnot
      exact handleIncomingSms_eq_self h incoming hnot
  | deleteMessage | setTag => trivial

theorem Ordered.handleIncomingSms (h : Ordered limit store) (storage : StorageType)
    (incoming : IncomingSms) :
    Ordered limit (handleIncomingSms limit store storage incoming) := by
  by_cases hstored : storage = .sim ∧ store.length < limit.maxCount
  · obtain ⟨before, after, happend, hbefore, hafter, -, heq⟩ :=
      handleIncomingSms_eq h incoming hstored
    have hincreasing := h.increasing
    rw [happend] at hincreasing
    obtain ⟨hbefore', hafter', hcross⟩ := List.pairwise_append.mp hincreasing
    have hlt : ∀ sms ∈ before, sms.msgIndex < before.length := by
      intro sms hmem
      rw [← List.mem_range, ← hbefore]
      exact List.mem_map_of_mem hmem
    rw [heq]
    constructor
    · refine List.pairwise_append.mpr ⟨hbefore', List.pairwise_cons.mpr ⟨hafter, hafter'⟩, ?_⟩
      intro sms hmem sms' hmem'
      rcases List.mem_cons.mp hmem' with rfl | hmem'
      · exact hlt sms hmem
      · exact hcross sms hmem sms' hmem'
    · have hlength := hstored.2
      rw [happend, List.length_append] at hlength
      rw [List.length_append, List.length_cons]
      omega
  · rw [handleIncomingSms_eq_self h incoming hstored]
    exact h

/-! ## The other requests -/

theorem Ordered.of_sublist {store' : List Sms} (h : Ordered limit store)
    (hsublist : store'.Sublist store) : Ordered limit store' :=
  ⟨h.increasing.sublist hsublist, Nat.le_trans hsublist.length_le h.length_le⟩

theorem deletedSmsatIndex_sublist (store : List Sms) (index : List Nat) :
    (deletedSmsatIndex store index).Sublist store := by
  induction index generalizing store with
  | nil => exact List.Sublist.refl _
  | cons i index ih => exact (ih (store.eraseIdx i)).trans (List.eraseIdx_sublist store i)

/-- Deleting by tag leaves the messages with other tags. -/
theorem deletedSmsatIndex_indexsToDelete (tagType : SmsTagType) (kept rest : List Sms)
    {i adjust : Nat} (h : i = kept.length + adjust) :
    deletedSmsatIndex (kept ++ rest) (indexsToDelete tagType rest i adjust) =
      kept ++ rest.filter fun sms => getTagType sms.tagType ≠ tagType := by
  induction rest generalizing kept i adjust with
  | nil => rfl
  | cons sms rest ih =>
    rw [indexsToDelete]
    split
    · rename_i htag
      have hi : i - adjust = kept.length := by omega
      rw [deletedSmsatIndex, List.foldl_cons, hi, List.eraseIdx_append_of_length_le (Nat.le_refl _),
        Nat.sub_self, List.eraseIdx_cons_zero, List.filter_cons_of_neg (by simpa using htag)]
      exact ih kept (by omega)
    · rename_i htag
      rw [List.filter_cons_of_pos (by simpa using htag)]
      have hi : i + 1 = (kept ++ [sms]).length + adjust := by
        rw [List.length_append, List.length_singleton]
        omega
      simpa using ih (kept ++ [sms]) hi

theorem deleteMessage_sublist (store : List Sms) (configured : Bool) (deleteType : DeleteType)
    (tagType : SmsTagType) (messageIndex : Nat) :
    (deleteMessage store configured deleteType tagType messageIndex).Sublist store := by
  unfold deleteMessage
  split
  · cases deleteType with
    | deleteMessagesByTag => exact deletedSmsatIndex_sublist store _
    | deleteMsgAtIndex => exact deletedSmsatIndex_sublist store _
    | deleteAll => exact List.nil_sublist store
    | unknown => exact List.Sublist.refl store
  · exact List.Sublist.refl store

theorem Ordered.setTag (h : Ordered limit store) (configured : Bool) (messageIndex : Nat)
    (tagType : SmsTagType) : Ordered limit (setTag store configured messageIndex tagType) := by
  unfold SmsManager.setTag
  split_ifs
  · exact h
  · constructor
    · refine List.pairwise_map.mpr (h.increasing.imp ?_)
      intro sms sms' hlt
      split_ifs <;> exact hlt
    · rw [List.length_map]
      exact h.length_le
  · exact h

theorem Ordered.step (h : Ordered limit store) (e : Event) : Ordered limit (step limit store e) := by
  cases e with
  | incomingSms storage incoming => exact h.handleIncomingSms storage incoming
  | deleteMessage configured deleteType tagType messageIndex =>
    exact h.of_sublist (deleteMessage_sublist store configured deleteType tagType messageIndex)
  | setTag configured messageIndex tagType => exact h.setTag configured messageIndex tagType

/-- Along every run from a store in order that is not too large, all stores are so, and every
message that is stored gets the smallest free index and leaves the others as they are. -/
theorem ordered_and_stores (h : Ordered limit store) (es : List Event) :
    (∀ n, Ordered limit ((es.take n).foldl (step limit) store)) ∧
      Along (step limit) (Stores limit) store es := by
  constructor
  · rw [← along_reached_iff (Ordered limit) h]
    exact along_of_invariant (Ordered limit) (fun _ e hs => hs.step e)
      (fun _ e hs => hs.step e) es h
  · exact along_of_invariant (Ordered limit) (fun _ e hs => hs.step e)
      (fun _ e hs => hs.stores e) es h

def sampleSms : IncomingSms := ⟨"text", "sender", "receiver", "GSM7", "pdu", 0, 0, 1, true⟩

/-- Two messages leave a gap, and there is room for one more. -/
theorem ordered_and_stores_gap :
    Ordered ⟨3, by decide⟩ [newSms sampleSms 0, newSms sampleSms 2] ∧
      (∀ n, Ordered ⟨3, by decide⟩
        (([.incomingSms .sim sampleSms, .setTag true 1 .mtRead, .incomingSms .sim sampleSms,
          .deleteMessage true .deleteMessagesByTag .mtNotRead 0] : List Event).take n |>.foldl
            (step ⟨3, by decide⟩) [newSms sampleSms 0, newSms sampleSms 2])) := by
  have h : Ordered ⟨3, by decide⟩ [newSms sampleSms 0, newSms sampleSms 2] :=
    ⟨by decide, by decide⟩
  exact ⟨h, (ordered_and_stores h _).1⟩

end SmsManager

end Tel

end SatComm
