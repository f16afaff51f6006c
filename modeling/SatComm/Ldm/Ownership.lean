import SatComm.Ldm.Slots

/-!
# Every slot has one owner

A slot belongs to the free list, to one vehicle, or to the caller that obtained it. `Sound` says
this as a permutation: free slots, slots of vehicles and held slots together are the numbers of
all slots. It survives every call except three: installing for a vehicle whose slot is the one
that says "absent", installing the slot that says "collected", and the slot number that does not
fit in 32 bits.
-/

namespace SatComm.Ldm

open Runs

/-- The slots of vehicles, as the code reads the map. -/
def live (s : Ldm) : List Nat := (Assoc.values s.bsmIdIndexMap).filter (· ≠ dirtyData)

/-- Every owner's slot. -/
def owned (s : Ldm) : List Nat := s.bsmFreeSlotIndices ++ s.live ++ s.held

/-- Every slot is owned exactly once. -/
def OwnedOnce (s : Ldm) : Prop := ∀ slot < s.bsmContents.length, s.owned.count slot = 1

/-- The calls after which every slot still has one owner. -/
def KeepsOwners (s : Ldm) : Event → Prop
  | .getFreeBsmSlotIdx => s.bsmFreeSlotIndices ≠ [] ∨ s.bsmContents.length < 2 ^ 32
  | .setIndex rvId slot _ =>
    slot ∈ s.held →
      slot ≠ dirtyData ∧ Assoc.find s.bsmIdIndexMap rvId ≠ some invalidData
  | _ => True

structure Sound (s : Ldm) : Prop where
  sorted : Assoc.Sorted s.bsmIdIndexMap
  perm : s.owned.Perm (List.range s.bsmContents.length)

theorem Sound.ownedOnce {s : Ldm} (h : Sound s) : OwnedOnce s := by
  intro slot hslot
  rw [h.perm.count_eq]
  exact List.count_eq_one_of_mem List.nodup_range (List.mem_range.mpr hslot)

theorem sound_new (size : BitVec 16) : Sound (Ldm.new size) where
  sorted := List.Pairwise.nil
  perm := by simp [Ldm.new, Ldm.owned, Ldm.live, Assoc.values]

/-! ## Writing to the map -/

/-- `v` counts as the slot of a vehicle unless it says "collected". -/
def asLive (v : Nat) : List Nat := if v = dirtyData then [] else [v]

theorem live_perm {s : Ldm} {vs : List Nat} {v : Nat}
    (h : (Assoc.values s.bsmIdIndexMap).Perm (v :: vs)) :
    s.live.Perm (asLive v ++ vs.filter (· ≠ dirtyData)) := by
  refine (h.filter _).trans ?_
  unfold asLive
  by_cases hv : v = dirtyData <;> simp [hv]

/-- Installing a slot for a vehicle that has one, or had one that was collected. -/
theorem live_assign {s : Ldm} {id : VehicleId} {old : Nat} (hm : Assoc.Sorted s.bsmIdIndexMap)
    (h : Assoc.find s.bsmIdIndexMap id = some old) :
    ∃ rest, s.live.Perm (asLive old ++ rest) ∧
      ∀ new, (({ s with bsmIdIndexMap := Assoc.assign s.bsmIdIndexMap id new } : Ldm).live).Perm
        (asLive new ++ rest) := by
  obtain ⟨rest, hold, hnew⟩ := Assoc.exists_values_assign hm h
  exact ⟨rest.filter (· ≠ dirtyData), live_perm hold, fun new => live_perm (hnew new)⟩

theorem live_insert {s : Ldm} {id : VehicleId} (h : Assoc.find s.bsmIdIndexMap id = none)
    (new : Nat) :
    (({ s with bsmIdIndexMap := Assoc.insert s.bsmIdIndexMap id new } : Ldm).live).Perm
      (asLive new ++ s.live) :=
  live_perm (Assoc.values_insert h new)

@[simp]
theorem asLive_of_ne {v : Nat} (h : v ≠ dirtyData) : asLive v = [v] := if_neg h

@[simp]
theorem asLive_dirty : asLive dirtyData = [] := if_pos rfl

/-! ## Contents -/

@[simp]
theorem store_free (s : Ldm) (slot : Nat) (mc : Option (BitVec 64)) :
    (s.store slot mc).bsmFreeSlotIndices = s.bsmFreeSlotIndices := by
  cases mc <;> rfl

@[simp]
theorem store_map (s : Ldm) (slot : Nat) (mc : Option (BitVec 64)) :
    (s.store slot mc).bsmIdIndexMap = s.bsmIdIndexMap := by
  cases mc <;> rfl

@[simp]
theorem store_held (s : Ldm) (slot : Nat) (mc : Option (BitVec 64)) :
    (s.store slot mc).held = s.held := by
  cases mc <;> rfl

@[simp]
theorem store_length (s : Ldm) (slot : Nat) (mc : Option (BitVec 64)) :
    (s.store slot mc).bsmContents.length = s.bsmContents.length := by
  cases mc <;> simp [Ldm.store]

@[simp]
theorem store_live (s : Ldm) (slot : Nat) (mc : Option (BitVec 64)) :
    (s.store slot mc).live = s.live := by
  simp [live]

theorem Sound.store {s : Ldm} (h : Sound s) (slot : Nat) (mc : Option (BitVec 64)) :
    Sound (s.store slot mc) where
  sorted := by simpa using h.sorted
  perm := by simpa [Ldm.owned, Ldm.live] using h.perm

/-! ## Installing a slot -/

/-- What `setIndex` does to the owners of slots, by what the map holds for the vehicle. -/
theorem owned_setIndex {s : Ldm} (hm : Assoc.Sorted s.bsmIdIndexMap) (id : VehicleId)
    (slot : Nat) (mc : Option (BitVec 64)) :
    ((s.setIndex id slot mc).bsmFreeSlotIndices ++ (s.setIndex id slot mc).live).Perm
      ((if Assoc.find s.bsmIdIndexMap id = some invalidData then [] else asLive slot) ++
        (s.bsmFreeSlotIndices ++ s.live)) := by
  unfold setIndex
  simp only [store_free, store_live]
  cases hf : Assoc.find s.bsmIdIndexMap id with
  | none =>
    have hused : s.getIndex id = invalidData := by simp [getIndex, hf]
    have hlive := live_insert hf slot
    rw [if_neg (by simp [hused]), if_neg (by rw [hused]; decide), if_neg (by simp)]
    rw [List.perm_iff_count]
    intro a
    have := hlive.count_eq a
    simp only [List.count_append] at this ⊢
    omega
  | some old =>
    have hused : s.getIndex id = old := by simp [getIndex, hf]
    obtain ⟨rest, hold, hnew⟩ := live_assign hm hf
    by_cases hinv : old = invalidData
    · rw [if_neg (by simp [hused, hinv]), if_neg (by rw [hused, hinv]; decide),
        if_pos (by rw [hinv]), Assoc.insert_of_find hm hf]
      exact List.Perm.refl _
    · have hne : some old ≠ some invalidData := by simpa using hinv
      rw [if_neg hne]
      by_cases hdirty : old = dirtyData
      · rw [if_neg (by simp [hused, hdirty]), if_pos (by rw [hused, hdirty])]
        subst hdirty
        rw [List.perm_iff_count]
        intro a
        have h₁ := hold.count_eq a
        have h₂ := (hnew slot).count_eq a
        simp only [asLive_dirty, List.nil_append, List.count_append] at h₁ h₂ ⊢
        omega
      · rw [if_pos (by rw [hused]; exact ⟨hinv, hdirty⟩), hused]
        -- the vehicle's former slot moves to the free list
        rw [List.perm_iff_count]
        intro a
        have h₁ := hold.count_eq a
        have h₂ := (hnew slot).count_eq a
        rw [asLive_of_ne hdirty] at h₁
        simp only [List.count_append] at h₁ h₂ ⊢
        have hsame : ({ s with
            bsmFreeSlotIndices := s.bsmFreeSlotIndices ++ [old]
            bsmIdIndexMap := Assoc.assign s.bsmIdIndexMap id slot } : Ldm).live =
            ({ s with bsmIdIndexMap := Assoc.assign s.bsmIdIndexMap id slot } : Ldm).live := rfl
        rw [hsame]
        omega

theorem sorted_setIndex {s : Ldm} (hm : Assoc.Sorted s.bsmIdIndexMap) (id : VehicleId)
    (slot : Nat) (mc : Option (BitVec 64)) :
    Assoc.Sorted (s.setIndex id slot mc).bsmIdIndexMap := by
  unfold setIndex
  simp only [store_map]
  split_ifs
  · exact hm.assign id slot
  · exact hm.assign id slot
  · exact hm.insert id slot

theorem length_setIndex (s : Ldm) (id : VehicleId) (slot : Nat) (mc : Option (BitVec 64)) :
    (s.setIndex id slot mc).bsmContents.length = s.bsmContents.length := by
  unfold setIndex
  simp only [store_length]
  split_ifs <;> rfl

theorem perm_owned_of_setIndex {s : Ldm} (hm : Assoc.Sorted s.bsmIdIndexMap) (id : VehicleId)
    {slot : Nat} (hslot : slot ∈ s.held) (mc : Option (BitVec 64)) :
    ((if Assoc.find s.bsmIdIndexMap id = some invalidData ∨ slot = dirtyData then [slot] else [])
      ++ (step s (.setIndex id slot mc)).owned).Perm s.owned := by
  have hmoved := owned_setIndex hm id slot mc
  have hheld := List.perm_cons_erase hslot
  simp only [step, if_pos hslot]
  rw [List.perm_iff_count]
  intro a
  have h₁ := hmoved.count_eq a
  have h₂ := hheld.count_eq a
  simp only [owned, List.count_append] at h₁ h₂ ⊢
  have hlive : ({ s.setIndex id slot mc with held := s.held.erase slot } : Ldm).live =
      (s.setIndex id slot mc).live := rfl
  rw [hlive]
  by_cases hinv : Assoc.find s.bsmIdIndexMap id = some invalidData
  · rw [if_pos (Or.inl hinv)]
    rw [if_pos hinv] at h₁
    simp only [List.count_nil, List.count_cons] at h₁ h₂ ⊢
    omega
  · rw [if_neg hinv] at h₁
    by_cases hdirty : slot = dirtyData
    · rw [if_pos (Or.inr hdirty)]
      subst hdirty
      rw [asLive_dirty] at h₁
      simp only [List.count_nil, List.count_cons] at h₁ h₂ ⊢
      omega
    · rw [if_neg (by simp [hinv, hdirty])]
      rw [asLive_of_ne hdirty] at h₁
      simp only [List.count_nil, List.count_cons] at h₁ h₂ ⊢
      omega

theorem Sound.setIndex {s : Ldm} (h : Sound s) {id : VehicleId} {slot : Nat}
    {mc : Option (BitVec 64)} (hkeep : KeepsOwners s (.setIndex id slot mc)) :
    Sound (step s (.setIndex id slot mc)) := by
  by_cases hslot : slot ∈ s.held
  · obtain ⟨hdirty, hinv⟩ := hkeep hslot
    have hperm := perm_owned_of_setIndex h.sorted id hslot mc
    rw [if_neg (by simp [hdirty, hinv]), List.nil_append] at hperm
    have hlen : (step s (.setIndex id slot mc)).bsmContents.length = s.bsmContents.length := by
      simp only [step, if_pos hslot]
      exact length_setIndex s id slot mc
    refine ⟨?_, ?_⟩
    · simp only [step, if_pos hslot]
      exact sorted_setIndex h.sorted id slot mc
    · rw [hlen]
      exact hperm.trans h.perm
  · simpa [step, hslot] using h

/-- The slot of a call that `KeepsOwners` excludes is lost. -/
theorem not_ownedOnce_setIndex {s : Ldm} (h : Sound s) {id : VehicleId} {slot : Nat}
    {mc : Option (BitVec 64)} (hkeep : ¬ KeepsOwners s (.setIndex id slot mc)) :
    ¬ OwnedOnce (step s (.setIndex id slot mc)) := by
  simp only [KeepsOwners, Classical.not_imp] at hkeep
  obtain ⟨hslot, hbad⟩ := hkeep
  have hbad : Assoc.find s.bsmIdIndexMap id = some invalidData ∨ slot = dirtyData := by
    by_cases hdirty : slot = dirtyData
    · exact Or.inr hdirty
    · by_contra hne
      exact hbad ⟨hdirty, fun heq => hne (Or.inl heq)⟩
  have hperm := perm_owned_of_setIndex h.sorted id hslot mc
  rw [if_pos hbad] at hperm
  have hlt : slot < s.bsmContents.length :=
    List.mem_range.mp (h.perm.mem_iff.mp (List.mem_append_right _ hslot))
  intro howned
  have hlen : (step s (.setIndex id slot mc)).bsmContents.length = s.bsmContents.length := by
    simp only [step, if_pos hslot]
    exact length_setIndex s id slot mc
  have hnew := howned slot (hlen ▸ hlt)
  have hcount := hperm.count_eq slot
  have hold := h.ownedOnce slot hlt
  rw [List.count_append, List.count_singleton_self] at hcount
  omega

/-! ## Obtaining a slot -/

theorem Sound.getFreeBsmSlotIdx {s : Ldm} (h : Sound s)
    (hkeep : KeepsOwners s .getFreeBsmSlotIdx) : Sound (step s .getFreeBsmSlotIdx) := by
  have hold := h.perm
  cases hfree : s.bsmFreeSlotIndices with
  | cons slot rest =>
    refine ⟨by simpa [step, Ldm.getFreeBsmSlotIdx, hfree] using h.sorted, ?_⟩
    have hlen : (step s .getFreeBsmSlotIdx).bsmContents = s.bsmContents := by
      simp [step, Ldm.getFreeBsmSlotIdx, hfree]
    rw [hlen]
    refine List.Perm.trans ?_ hold
    have hmiddle : (step s .getFreeBsmSlotIdx).owned = (rest ++ s.live) ++ slot :: s.held := by
      simp [step, Ldm.getFreeBsmSlotIdx, hfree, owned, live]
    rw [hmiddle, owned, hfree, List.cons_append, List.cons_append]
    exact List.perm_middle
  | nil =>
    have hroom : s.bsmContents.length < 2 ^ 32 := hkeep.resolve_left (by simp [hfree])
    refine ⟨by simpa [step, Ldm.getFreeBsmSlotIdx, hfree] using h.sorted, ?_⟩
    have hlen : (step s .getFreeBsmSlotIdx).bsmContents.length = s.bsmContents.length + 1 := by
      simp [step, Ldm.getFreeBsmSlotIdx, hfree]
    have hmiddle : (step s .getFreeBsmSlotIdx).owned =
        s.live ++ s.bsmContents.length :: s.held := by
      simpa [step, Ldm.getFreeBsmSlotIdx, hfree, owned, live] using hroom
    rw [owned, hfree, List.nil_append] at hold
    rw [hlen, hmiddle, List.range_succ]
    exact List.perm_middle.trans ((hold.cons _).trans (List.perm_append_singleton _ _).symm)

theorem not_ownedOnce_getFreeBsmSlotIdx {s : Ldm} (h : Sound s)
    (hkeep : ¬ KeepsOwners s .getFreeBsmSlotIdx) : ¬ OwnedOnce (step s .getFreeBsmSlotIdx) := by
  simp only [KeepsOwners, not_or, not_not, not_lt] at hkeep
  obtain ⟨hfree, hfull⟩ := hkeep
  intro howned
  have hnew := howned s.bsmContents.length (by simp [step, Ldm.getFreeBsmSlotIdx, hfree])
  have hnot : s.bsmContents.length ∉ s.owned := by
    intro hmem
    exact absurd (List.mem_range.mp (h.perm.mem_iff.mp hmem)) (lt_irrefl _)
  have hother : s.bsmContents.length % 2 ^ 32 ≠ s.bsmContents.length := by
    have := Nat.mod_lt s.bsmContents.length (show 0 < 2 ^ 32 by decide)
    omega
  have hmiddle : (step s .getFreeBsmSlotIdx).owned =
      s.live ++ s.bsmContents.length % 2 ^ 32 :: s.held := by
    simp [step, Ldm.getFreeBsmSlotIdx, hfree, owned, live]
  rw [owned, hfree, List.nil_append] at hnot
  have hzero := List.count_eq_zero_of_not_mem hnot
  rw [List.count_append] at hzero
  rw [hmiddle, List.count_append, List.count_cons_of_ne hother] at hnew
  omega

/-! ## The garbage collector -/

theorem Sound.collect {s : Ldm} (h : Sound s) (timeThreshold : BitVec 8)
    (now : VehicleId → BitVec 64) {element : VehicleId × Nat}
    (hfind : Assoc.find s.bsmIdIndexMap element.1 = some element.2) :
    Sound (collect timeThreshold now s element) := by
  unfold Ldm.collect
  split
  · rename_i hold
    have hlive : element.2 ≠ dirtyData := by
      simp only [isOld, Bool.and_eq_true, bne_iff_ne] at hold
      exact hold.1
    obtain ⟨rest, hbefore, hafter⟩ := live_assign h.sorted hfind
    refine ⟨h.sorted.assign _ _, List.Perm.trans ?_ h.perm⟩
    rw [List.perm_iff_count]
    intro a
    have h₁ := hbefore.count_eq a
    have h₂ := (hafter dirtyData).count_eq a
    rw [asLive_of_ne hlive] at h₁
    simp only [owned, List.count_append, asLive_dirty, List.count_nil] at h₁ h₂ ⊢
    have hsame : ({ s with
        bsmFreeSlotIndices := s.bsmFreeSlotIndices ++ [element.2]
        bsmIdIndexMap := Assoc.assign s.bsmIdIndexMap element.1 dirtyData } : Ldm).live =
        ({ s with bsmIdIndexMap := Assoc.assign s.bsmIdIndexMap element.1 dirtyData } : Ldm).live :=
      rfl
    rw [hsame]
    omega
  · exact h

theorem find_collect_of_ne {s : Ldm} (timeThreshold : BitVec 8) (now : VehicleId → BitVec 64)
    {element : VehicleId × Nat} {id : VehicleId} (h : id ≠ element.1) :
    Assoc.find (collect timeThreshold now s element).bsmIdIndexMap id =
      Assoc.find s.bsmIdIndexMap id := by
  unfold collect
  split
  · exact Assoc.find_assign_of_ne h
  · rfl

/-- The elements still to be visited are as they were when the loop started. -/
theorem Sound.foldl_collect {s : Ldm} (h : Sound s) (timeThreshold : BitVec 8)
    (now : VehicleId → BitVec 64) {elements : List (VehicleId × Nat)}
    (hdistinct : Assoc.Sorted elements)
    (hfind : ∀ e ∈ elements, Assoc.find s.bsmIdIndexMap e.1 = some e.2) :
    Sound (elements.foldl (Ldm.collect timeThreshold now) s) := by
  induction elements generalizing s with
  | nil => exact h
  | cons e elements ih =>
    obtain ⟨he, hdistinct⟩ := List.pairwise_cons.mp hdistinct
    refine ih (h.collect timeThreshold now (hfind e List.mem_cons_self)) hdistinct ?_
    intro e' he'
    rw [find_collect_of_ne timeThreshold now (he e' he').ne']
    exact hfind e' (List.mem_cons_of_mem _ he')

theorem Sound.gbCollector {s : Ldm} (h : Sound s) (timeThreshold : BitVec 8)
    (now : VehicleId → BitVec 64) : Sound (s.gbCollector timeThreshold now) :=
  h.foldl_collect timeThreshold now h.sorted fun _ he => Assoc.find_of_mem h.sorted he

/-! ## Runs -/

theorem Sound.step {s : Ldm} (h : Sound s) {e : Event} (hkeep : KeepsOwners s e) :
    Sound (Ldm.step s e) := by
  cases e with
  | getFreeBsmSlotIdx => exact h.getFreeBsmSlotIdx hkeep
  | receive slot tst => exact h.store slot (some tst)
  | setIndex id slot mc => exact h.setIndex hkeep
  | gbCollector timeThreshold now => exact h.gbCollector timeThreshold now

theorem ownedOnce_step_iff {s : Ldm} (h : Sound s) (e : Event) :
    OwnedOnce (step s e) ↔ KeepsOwners s e := by
  constructor
  · intro howned
    by_contra hkeep
    cases e with
    | getFreeBsmSlotIdx => exact not_ownedOnce_getFreeBsmSlotIdx h hkeep howned
    | receive slot tst => exact hkeep trivial
    | setIndex id slot mc => exact not_ownedOnce_setIndex h hkeep howned
    | gbCollector timeThreshold now => exact hkeep trivial
  · intro hkeep
    exact (h.step hkeep).ownedOnce

/-- In a run from a new map every slot is owned exactly once in every state, exactly when no call
installs a slot for a vehicle whose slot is `INVALID_DATA`, installs the slot `DIRTY_DATA`, or
obtains a slot whose number exceeds 32 bits. -/
theorem ownedOnce_reached_iff (size : BitVec 16) (es : List Event) :
    (∀ n, OwnedOnce ((es.take n).foldl step (new size))) ↔
      Along step KeepsOwners (new size) es := by
  rw [← along_reached_iff OwnedOnce (sound_new size).ownedOnce]
  exact along_congr Sound (fun _ e h => ownedOnce_step_iff h e)
    (fun _ _ h hkeep => h.step hkeep) es (sound_new size)

/-- The first `n` slots of a new map are handed out in order. -/
theorem foldl_getFreeBsmSlotIdx (size : BitVec 16) {n : Nat} (hn : n ≤ size.toNat) :
    Sound ((List.replicate n Event.getFreeBsmSlotIdx).foldl step (new size)) ∧
      ((List.replicate n Event.getFreeBsmSlotIdx).foldl step (new size)).bsmFreeSlotIndices =
        List.range' n (size.toNat - n) ∧
      ((List.replicate n Event.getFreeBsmSlotIdx).foldl step (new size)).held =
        (List.range n).reverse := by
  induction n with
  | zero => exact ⟨sound_new size, by simp [new, List.range_eq_range'], rfl⟩
  | succ n ih =>
    obtain ⟨hsound, hfree, hheld⟩ := ih (by omega)
    rw [List.replicate_succ', List.foldl_concat]
    have hnext : List.range' n (size.toNat - n) =
        n :: List.range' (n + 1) (size.toNat - (n + 1)) := by
      rw [show size.toNat - n = size.toNat - (n + 1) + 1 by omega, List.range'_succ]
    rw [hnext] at hfree
    refine ⟨hsound.getFreeBsmSlotIdx (Or.inl (by simp [hfree])), ?_, ?_⟩
    · simp [step, Ldm.getFreeBsmSlotIdx, hfree]
    · simp [step, Ldm.getFreeBsmSlotIdx, hfree, hheld, List.range_succ]

theorem slot_lost_of_lt {size : BitVec 16} {slot : Nat} (hslot : slot = dirtyData)
    (hlt : slot < size.toNat) (id : VehicleId) :
    ¬ ∀ n, OwnedOnce (((List.replicate (slot + 1) Event.getFreeBsmSlotIdx ++
      [Event.setIndex id slot none]).take n).foldl step (new size)) := by
  intro hall
  obtain ⟨hsound, -, hheld⟩ := foldl_getFreeBsmSlotIdx size (n := slot + 1) hlt
  have hlast := hall (slot + 2)
  rw [List.take_of_length_le (by simp), List.foldl_concat] at hlast
  refine not_ownedOnce_setIndex hsound ?_ hlast
  intro hkeep
  have hmem : slot ∈ (List.range (slot + 1)).reverse := by simp
  exact (hkeep (hheld ▸ hmem)).1 hslot

/-- With 15002 slots the last one obtained is lost when it is installed. -/
theorem slot_lost_at_dirtyData :
    ¬ ∀ n, OwnedOnce (((List.replicate 15002 Event.getFreeBsmSlotIdx ++
      [Event.setIndex 7 15001 none]).take n).foldl step (new 15002)) :=
  slot_lost_of_lt rfl (by decide) 7

end SatComm.Ldm
