import Mathlib.Data.List.TakeWhile
import SatComm.Listener.Manager

/-!
# Finding a registered listener

A search for a live listener goes to the right of every expired one it meets. It is sure to find
the listener as long as no expired one stands behind it; and a listener that is put in comes to its
place as long as no expired one stands behind a live one that is greater. `Ahead` says this of a
set. The live listeners of a set then stay in the order of their addresses.
-/

namespace SatComm

namespace Listeners

open Trees Runs

variable {β : Type} {n : Nat}

namespace ListenerManager

/-- A live listener that is registered is taken out with success, and found where it is asked
for. -/
def Finds (b : Balancing β Listener) (m : ListenerManager β n) : Event n → Prop
  | .deRegisterListener listener indications =>
    ∀ i, m.lock listener → indications i → listener ∈ m.listeners i →
      listener ∉ (m.deRegisterListener b listener indications).1.listeners i ∧
        (m.deRegisterListener b listener indications).2.1 = .success
  | .isEnableAnyIndication listener =>
    m.lock listener → (∃ i, listener ∈ m.listeners i) → m.isEnableAnyIndication listener
  | _ => True

/-- No expired listener stands behind a live one that is not below the given one. -/
def Ahead (m : ListenerManager β n) (listener : Listener) (i : Fin n) : Prop :=
  (m.listeners i).Pairwise fun x y => m.lock x → listener.address ≤ x.address → m.lock y

/-- The expired listeners are ahead of the live one that the step looks for or puts in. -/
def Clear (m : ListenerManager β n) : Event n → Prop
  | .registerListener listener indications =>
    m.lock listener → ∀ i, indications i → listener ∉ m.listeners i → m.Ahead listener i
  | .deRegisterListener listener indications =>
    m.lock listener → ∀ i, indications i → listener ∈ m.listeners i → m.Ahead listener i
  | .isEnableAnyIndication listener =>
    m.lock listener → ∀ i, listener ∈ m.listeners i → m.Ahead listener i
  | _ => True

instance (m : ListenerManager β n) (listener : Listener) (i : Fin n) :
    Decidable (m.Ahead listener i) := inferInstanceAs (Decidable (List.Pairwise _ _))

instance (m : ListenerManager β n) : DecidablePred m.Clear
  | .registerListener .. => inferInstanceAs (Decidable (_ → ∀ _, _ → _ ∉ _ → _))
  | .deRegisterListener .. => inferInstanceAs (Decidable (_ → ∀ _, _ → _ ∈ _ → _))
  | .isEnableAnyIndication _ => inferInstanceAs (Decidable (_ → ∀ _, _ ∈ _ → _))
  | .getAvailableListeners _ | .expire _ => inferInstanceAs (Decidable True)

/-- The live listeners of each set are in the order of their addresses. -/
structure Kept (m : ListenerManager β n) : Prop where
  sorted : ∀ i, (m.listeners i).Pairwise fun x y => m.lock x → m.lock y → x.address < y.address
  past : ∀ i, ∀ x ∈ m.listeners i, x.generation ≤ m.generation x.address

/-! ## The comparator -/

section Comparator

variable {m : ListenerManager β n} {x y : Listener}

theorem lock_iff : m.lock x ↔ x.generation = m.generation x.address := beq_iff_eq

/-- One object lives at an address. -/
theorem eq_of_lock (hx : m.lock x) (hy : m.lock y) (h : x.address = y.address) : x = y := by
  have hgeneration : x.generation = y.generation := by
    rw [lock_iff.mp hx, lock_iff.mp hy, h]
  cases x
  cases y
  cases h
  cases hgeneration
  rfl

theorem setPredicate_of_lock (hx : m.lock x) (hy : m.lock y) :
    m.setPredicate x y = decide (x.address < y.address) := by
  simp [setPredicate, hx, hy]

/-- An expired listener is below every live one. -/
theorem setPredicate_of_not_lock_left (hx : ¬ m.lock x) (hy : m.lock y) : m.setPredicate x y := by
  simp [setPredicate, hx, hy]

theorem not_setPredicate_of_not_lock_right (hy : ¬ m.lock y) : ¬ m.setPredicate x y := by
  simp [setPredicate, hy]

theorem setPredicate_irrefl (x : Listener) : ¬ m.setPredicate x x := by
  unfold setPredicate
  split_ifs <;> simp

/-- Of two listeners one is below the other, if the second is live. -/
theorem setPredicate_eq_not (hy : m.lock y) (hne : x ≠ y) :
    m.setPredicate x y = ! m.setPredicate y x := by
  by_cases hx : m.lock x
  · have haddress : x.address ≠ y.address := fun h => hne (eq_of_lock hx hy h)
    rw [setPredicate_of_lock hx hy, setPredicate_of_lock hy hx, ← decide_not]
    exact decide_eq_decide.mpr (by omega)
  · rw [setPredicate_of_not_lock_left hx hy]
    simpa using not_setPredicate_of_not_lock_right hx

/-- Only the listener itself is at its address. -/
theorem any_lock_iff (hx : m.lock x) (l : List Listener) :
    (l.any fun existed => m.lock existed && existed.address == x.address) ↔ x ∈ l := by
  rw [List.any_eq_true]
  constructor
  · rintro ⟨y, hmem, hy⟩
    obtain ⟨hlock, haddress⟩ := Bool.and_eq_true_iff.mp hy
    exact eq_of_lock hlock hx (beq_iff_eq.mp haddress) ▸ hmem
  · intro hmem
    exact ⟨x, hmem, Bool.and_eq_true_iff.mpr ⟨hx, beq_self_eq_true _⟩⟩

end Comparator

/-! ## One set -/

section Search

variable {b : Balancing β Listener} {m : ListenerManager β n} {listener : Listener} {i : Fin n}

/-- In front of a registered listener are smaller and expired ones, and behind it live ones that
are greater. -/
theorem exists_append (h : m.Kept) (hlock : m.lock listener) (hahead : m.Ahead listener i)
    (hmem : listener ∈ m.listeners i) :
    ∃ before after, m.listeners i = before ++ listener :: after ∧
      (∀ x ∈ before, m.setPredicate x listener ∧ ¬ m.setPredicate listener x) ∧
      ∀ x ∈ after, ¬ m.setPredicate x listener ∧ m.setPredicate listener x := by
  obtain ⟨before, after, hlist⟩ := List.append_of_mem hmem
  have hsorted := h.sorted i
  rw [Ahead, hlist] at hahead
  rw [hlist] at hsorted
  obtain ⟨-, hsorted, hcross⟩ := List.pairwise_append.mp hsorted
  refine ⟨before, after, hlist, ?_, ?_⟩
  · intro x hx
    by_cases hxlock : m.lock x
    · have hlt := hcross x hx listener List.mem_cons_self hxlock hlock
      rw [setPredicate_of_lock hxlock hlock, setPredicate_of_lock hlock hxlock]
      exact ⟨by simpa using hlt, by simpa using Nat.le_of_lt hlt⟩
    · exact ⟨setPredicate_of_not_lock_left hxlock hlock, not_setPredicate_of_not_lock_right hxlock⟩
  · intro x hx
    obtain ⟨-, hbehind, -⟩ := List.pairwise_append.mp hahead
    have hxlock := (List.pairwise_cons.mp hbehind).1 x hx hlock (Nat.le_refl _)
    have hlt := (List.pairwise_cons.mp hsorted).1 x hx hlock hxlock
    rw [setPredicate_of_lock hxlock hlock, setPredicate_of_lock hlock hxlock]
    exact ⟨by simpa using Nat.le_of_lt hlt, by simpa using hlt⟩

theorem find?_eq (h : m.Kept) (hlock : m.lock listener) (hahead : m.Ahead listener i)
    (hmem : listener ∈ m.listeners i) :
    (m.registrationMap i).find? m.setPredicate listener = some listener := by
  obtain ⟨before, after, hlist, hbefore, hafter⟩ := exists_append h hlock hahead hmem
  exact Balancing.find?_of_append hlist (fun x hx => (hbefore x hx).1)
    ⟨setPredicate_irrefl _, setPredicate_irrefl _⟩ fun x hx => (hafter x hx).1

/-- A registered listener is taken out, and nothing else. -/
theorem deRegisterAt_of_mem (h : m.Kept) (hlock : m.lock listener) (hahead : m.Ahead listener i)
    (hmem : listener ∈ m.listeners i) :
    ((m.deRegisterAt b listener i).1.inorder).Sublist (m.listeners i) ∧
      listener ∉ (m.deRegisterAt b listener i).1.inorder ∧ (m.deRegisterAt b listener i).2.1 := by
  obtain ⟨before, after, hlist, hbefore, hafter⟩ := exists_append h hlock hahead hmem
  obtain ⟨herased, hcount⟩ := Balancing.erase_of_append (b := b) hlist hbefore
    ⟨setPredicate_irrefl listener, setPredicate_irrefl listener⟩ hafter
  rw [deRegisterAt, if_pos (by rw [hcount]; exact Nat.one_ne_zero), herased, hlist]
  refine ⟨(List.sublist_cons_self _ _).append_left _, ?_, rfl⟩
  rw [List.mem_append]
  rintro (hmem | hmem)
  · exact setPredicate_irrefl _ (hbefore _ hmem).1
  · exact setPredicate_irrefl _ (hafter _ hmem).2

theorem deRegisterAt_of_notMem (hlock : m.lock listener) (hmem : listener ∉ m.listeners i) :
    (m.deRegisterAt b listener i).1 = m.registrationMap i := by
  have hcount : (b.erase m.setPredicate (m.registrationMap i) listener).2 = 0 := by
    apply Balancing.erase_snd_of_forall
    intro x hx
    exact setPredicate_eq_not hlock (ne_of_mem_of_not_mem hx hmem)
  rw [deRegisterAt, if_neg (not_not_intro hcount)]
  exact Balancing.erase_of_eq_zero hcount

/-- Where `Ahead` holds, the place of a new listener is behind smaller and expired ones and before
live ones that are greater. -/
theorem inorder_insert_eq (h : m.Kept) (hlock : m.lock listener) (hahead : m.Ahead listener i)
    (hmem : listener ∉ m.listeners i) :
    ∃ before after, m.listeners i = before ++ after ∧
      (b.insert m.setPredicate (m.registrationMap i) listener).inorder =
        before ++ listener :: after ∧
      (∀ x ∈ before, m.lock x → x.address < listener.address) ∧
      ∀ x ∈ after, m.lock x ∧ listener.address < x.address := by
  have hcut : ∀ x, (! m.setPredicate listener x) = false ↔
      m.lock x ∧ listener.address < x.address := by
    intro x
    by_cases hx : m.lock x
    · simp [setPredicate_of_lock hlock hx, hx]
    · simp [not_setPredicate_of_not_lock_right hx, hx]
  have hmono : (m.listeners i).Pairwise fun x y =>
      (! m.setPredicate listener y) → ! m.setPredicate listener x := by
    refine (List.pairwise_and_iff.mpr ⟨hahead, h.sorted i⟩).imp ?_
    rintro x y ⟨hbehind, hsorted⟩ hy
    by_contra hx
    obtain ⟨hxlock, hlt⟩ := (hcut x).mp (by simpa using hx)
    have hylock := hbehind hxlock (Nat.le_of_lt hlt)
    exact absurd ((hcut y).mpr ⟨hylock, Nat.lt_trans hlt (hsorted hxlock hylock)⟩) (by simp [hy])
  have hlist := List.takeWhile_append_dropWhile
    (p := fun x => ! m.setPredicate listener x) (l := m.listeners i)
  have hbefore : ∀ x ∈ (m.listeners i).takeWhile fun x => ! m.setPredicate listener x,
      ¬ m.setPredicate listener x ∧ m.setPredicate x listener := by
    intro x hx
    have hnot : ¬ m.setPredicate listener x := by simpa using List.mem_takeWhile_imp hx
    refine ⟨hnot, ?_⟩
    have hne := ne_of_mem_of_not_mem ((List.takeWhile_prefix _).subset hx) hmem
    rw [setPredicate_eq_not hlock hne]
    simpa using hnot
  have hafter : ∀ x ∈ (m.listeners i).dropWhile fun x => ! m.setPredicate listener x,
      m.lock x ∧ listener.address < x.address := by
    intro x hx
    exact (hcut x).mp (by simpa using Tree.not_cut_of_mem_dropWhile hmono hx)
  refine ⟨_, _, hlist.symm, Balancing.inorder_insert_of_append hlist.symm hbefore ?_, ?_, hafter⟩
  · intro x hx
    simpa using (hcut x).mpr (hafter x hx)
  · intro x hx hxlock
    simpa [setPredicate_of_lock hxlock hlock] using (hbefore x hx).2

end Search

/-! ## The steps -/

section Steps

variable {b : Balancing β Listener} {m : ListenerManager β n}

theorem kept_insert (h : m.Kept) {listener : Listener} {i : Fin n} (hlock : m.lock listener)
    (hahead : listener ∉ m.listeners i → m.Ahead listener i) :
    ((m.registerAt b listener i).1.inorder.Pairwise fun x y =>
      m.lock x → m.lock y → x.address < y.address) ∧
    ∀ x ∈ (m.registerAt b listener i).1.inorder, x.generation ≤ m.generation x.address := by
  by_cases hmem : listener ∈ m.listeners i
  · have hregister : (m.registerAt b listener i).1 = m.registrationMap i := by
      rw [registerAt, if_neg (List.ne_nil_of_mem hmem), if_pos ((any_lock_iff hlock _).mpr hmem)]
    rw [hregister]
    exact ⟨h.sorted i, h.past i⟩
  · have hregister : (m.registerAt b listener i).1 =
        b.insert m.setPredicate (m.registrationMap i) listener := by
      rw [registerAt, if_neg (mt (any_lock_iff hlock _).mp hmem)]
      split <;> rfl
    obtain ⟨before, after, hlist, hinsert, hbefore, hafter⟩ :=
      inorder_insert_eq (b := b) h hlock (hahead hmem) hmem
    have hsorted := h.sorted i
    have hpast := h.past i
    rw [hlist] at hsorted hpast
    obtain ⟨hsorted₁, hsorted₂, hcross⟩ := List.pairwise_append.mp hsorted
    rw [hregister, hinsert]
    constructor
    · refine List.pairwise_append.mpr ⟨hsorted₁, List.pairwise_cons.mpr ⟨?_, hsorted₂⟩, ?_⟩
      · exact fun x hx _ _ => (hafter x hx).2
      · rintro x hx y hy hxlock hylock
        rcases List.mem_cons.mp hy with rfl | hy
        · exact hbefore x hx hxlock
        · exact hcross x hx y hy hxlock hylock
    · intro x hx
      rcases List.mem_append.mp hx with hx | hx
      · exact hpast x (List.mem_append_left _ hx)
      · rcases List.mem_cons.mp hx with rfl | hx
        · exact Nat.le_of_eq (lock_iff.mp hlock)
        · exact hpast x (List.mem_append_right _ hx)

theorem kept_of_forall {m' : ListenerManager β n} (hgeneration : m'.generation = m.generation)
    (h : ∀ i, ((m'.listeners i).Pairwise fun x y => m.lock x → m.lock y → x.address < y.address) ∧
      ∀ x ∈ m'.listeners i, x.generation ≤ m.generation x.address) : m'.Kept := by
  have hlock : m'.lock = m.lock := by
    funext x
    rw [lock, lock, hgeneration]
  constructor
  · rw [hlock]
    exact fun i => (h i).1
  · rw [hgeneration]
    exact fun i => (h i).2

/-- Sets that lose elements stay in order. -/
theorem Kept.of_sublist {m' : ListenerManager β n} (h : m.Kept)
    (hgeneration : m'.generation = m.generation)
    (hsublist : ∀ i, (m'.listeners i).Sublist (m.listeners i)) : m'.Kept :=
  kept_of_forall hgeneration fun i =>
    ⟨(h.sorted i).sublist (hsublist i), fun x hx => h.past i x ((hsublist i).subset hx)⟩

theorem Kept.registerListener (h : m.Kept) {listener : Listener} {indications : Fin n → Bool}
    (hclear : m.Clear (.registerListener listener indications)) :
    (m.registerListener b listener indications).1.Kept := by
  unfold ListenerManager.registerListener
  split
  · exact h
  · rename_i hlock
    have hlock : m.lock listener := by simpa using hlock
    split
    · exact h
    · refine kept_of_forall (m := m) rfl fun i => ?_
      rw [listeners]
      dsimp only
      split
      · rename_i hi
        exact kept_insert h hlock (hclear hlock i hi)
      · exact ⟨h.sorted i, h.past i⟩

theorem Kept.deRegisterListener (h : m.Kept) {listener : Listener} {indications : Fin n → Bool}
    (hclear : m.Clear (.deRegisterListener listener indications)) :
    (m.deRegisterListener b listener indications).1.Kept := by
  unfold ListenerManager.deRegisterListener
  split
  · exact h
  · rename_i hlock
    have hlock : m.lock listener := by simpa using hlock
    split
    · exact h
    · refine Kept.of_sublist h rfl fun i => ?_
      rw [listeners]
      dsimp only
      split
      · rename_i hi
        by_cases hmem : listener ∈ m.listeners i
        · exact (deRegisterAt_of_mem h hlock (hclear hlock i hi hmem) hmem).1
        · rw [deRegisterAt_of_notMem hlock hmem]
          exact List.Sublist.refl _
      · exact List.Sublist.refl _

theorem Kept.getAvailableListeners (h : m.Kept) (indication : Nat) :
    (m.getAvailableListeners b indication).1.Kept := by
  unfold ListenerManager.getAvailableListeners
  split
  · rename_i hlt
    refine Kept.of_sublist h rfl fun i => ?_
    show (Function.update m.registrationMap _ _ i).inorder.Sublist _
    by_cases hi : i = ⟨indication, hlt⟩
    · rw [hi, Function.update_self, Balancing.inorder_purge]
      exact List.filter_sublist
    · rw [Function.update_of_ne hi]
      exact List.Sublist.refl _
  · exact h

/-- A listener that expires was the one that lived at its address. -/
theorem Kept.expire (h : m.Kept) (address : Nat) : (m.expire address).Kept := by
  have hle : ∀ a, m.generation a ≤ (m.expire address).generation a := by
    intro a
    show _ ≤ Function.update m.generation address _ a
    by_cases ha : a = address
    · rw [ha, Function.update_self]
      exact Nat.le_succ _
    · rw [Function.update_of_ne ha]
  have hlock : ∀ i, ∀ x ∈ m.listeners i, (m.expire address).lock x → m.lock x := by
    intro i x hx hlock
    have := lock_iff.mp hlock
    have := hle x.address
    have := h.past i x hx
    exact lock_iff.mpr (by omega)
  constructor
  · intro i
    refine (h.sorted i).imp_of_mem ?_
    exact fun hx hy hlt hxlock hylock => hlt (hlock i _ hx hxlock) (hlock i _ hy hylock)
  · exact fun i x hx => Nat.le_trans (h.past i x hx) (hle x.address)

theorem Kept.step (h : m.Kept) {e : Event n} (hclear : m.Clear e) : (m.step b e).Kept := by
  cases e with
  | registerListener listener indications => exact h.registerListener hclear
  | deRegisterListener listener indications => exact h.deRegisterListener hclear
  | getAvailableListeners indication => exact h.getAvailableListeners indication
  | isEnableAnyIndication listener => exact h
  | expire address => exact h.expire address

theorem Kept.finds (h : m.Kept) {e : Event n} (hclear : m.Clear e) : m.Finds b e := by
  cases e with
  | deRegisterListener listener indications =>
    intro i hlock hi hmem
    obtain ⟨-, hnot, hexisted⟩ :=
      deRegisterAt_of_mem (b := b) h hlock (hclear hlock i hi hmem) hmem
    have hsome : ¬ ∀ i, indications i = false := fun hnone => by simp [hnone i] at hi
    unfold ListenerManager.deRegisterListener
    rw [if_neg (by simp [hlock]), if_neg hsome]
    refine ⟨?_, if_pos ⟨i, hi, hexisted⟩⟩
    simpa [listeners, hi] using hnot
  | isEnableAnyIndication listener =>
    rintro hlock ⟨i, hmem⟩
    apply List.any_eq_true.mpr
    refine ⟨i, List.mem_finRange i, ?_⟩
    rw [find?_eq h hlock (hclear hlock i hmem) hmem]
    rfl
  | registerListener | getAvailableListeners | expire => trivial

end Steps

theorem kept_new : (new : ListenerManager β n).Kept := ⟨fun _ => List.Pairwise.nil, nofun⟩

/-- Every live registration is found, in every run in which the expired listeners of a set are
ahead of the live one that is looked for or put in. -/
theorem finds_of_clear (b : Balancing β Listener) (es : List (Event n))
    (h : Along (step b) Clear new es) : Along (step b) (Finds b) new es :=
  h.of_invariant Kept (fun _ _ hm hclear => hm.step hclear) (fun _ _ hm hclear => hm.finds hclear)
    kept_new

/-- The smaller of two listeners expires, then the other one is taken out. -/
theorem finds_of_clear_two :
    Along (step (Balancing.plain ())) (Finds (Balancing.plain ())) (new : ListenerManager Unit 1)
      [.registerListener ⟨1, 0⟩ fun _ => true, .registerListener ⟨2, 0⟩ fun _ => true, .expire 1,
        .isEnableAnyIndication ⟨2, 0⟩, .deRegisterListener ⟨2, 0⟩ fun _ => true] :=
  finds_of_clear (Balancing.plain ()) _ (by decide)

/-- The greater of two listeners is at the root and expires: the search for the other one, which is
to the left of it, goes to the right. -/
theorem exists_not_finds :
    ¬ Along (step (Balancing.plain ())) (Finds (Balancing.plain ())) (new : ListenerManager Unit 1)
      [.registerListener ⟨2, 0⟩ fun _ => true, .registerListener ⟨1, 0⟩ fun _ => true, .expire 2,
        .deRegisterListener ⟨1, 0⟩ fun _ => true] := by
  rintro ⟨-, -, -, hfinds, -⟩
  have hremoved := (hfinds 0 (by decide) rfl (by decide)).2
  revert hremoved
  decide

end ListenerManager

end Listeners

end SatComm
