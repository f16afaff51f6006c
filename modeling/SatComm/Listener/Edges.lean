import Mathlib.Data.List.Chain
import SatComm.Listener.Manager

/-!
# First and last registrations

`registerListener` tells its caller for which indications the listener is the first, and
`deRegisterListener` for which it was the last. A set that `getAvailableListeners` empties, since
all its listeners have expired, was not given up by anyone: the next registration is a first one
again. Without such a step the two alternate.
-/

namespace SatComm

namespace Listeners

open Trees Runs

variable {β : Type} {n : Nat}

inductive Edge
  | first | last
deriving DecidableEq, Repr

namespace ListenerManager

/-- What the step tells its caller of the indication. -/
def edges (b : Balancing β Listener) (m : ListenerManager β n) (i : Fin n) : Event n → List Edge
  | .registerListener listener indications =>
    if (m.registerListener b listener indications).2.2 i then [.first] else []
  | .deRegisterListener listener indications =>
    if (m.deRegisterListener b listener indications).2.2 i then [.last] else []
  | _ => []

def history (b : Balancing β Listener) (i : Fin n) : ListenerManager β n → List (Event n) → List Edge
  | _, [] => []
  | m, e :: es => m.edges b i e ++ history b i (m.step b e) es

end ListenerManager

/-- First and last registrations in turn, a first one at the start. -/
def Alternating (edges : List Edge) : Prop := edges.IsChain (· ≠ ·) ∧ edges.head? ≠ some .last

namespace ListenerManager

/-- A set that is purged was empty or has a live listener. -/
def Survives (m : ListenerManager β n) : Event n → Prop
  | .getAvailableListeners indication =>
    ∀ i : Fin n, i.val = indication → m.listeners i = [] ∨ ∃ x ∈ m.listeners i, m.lock x
  | _ => True

instance (m : ListenerManager β n) : DecidablePred m.Survives
  | .getAvailableListeners _ => inferInstanceAs (Decidable (∀ _ : Fin n, _ → _ = [] ∨ ∃ x ∈ _, _))
  | .registerListener .. | .deRegisterListener .. | .isEnableAnyIndication _ | .expire _ =>
    inferInstanceAs (Decidable True)

/-- The edge of a step, by whether the set has listeners before and after it. -/
inductive Turns : Bool → List Edge → Bool → Prop
  | none (active : Bool) : Turns active [] active
  | first : Turns false [.first] true
  | last : Turns true [.last] false

variable {b : Balancing β Listener} {m : ListenerManager β n}

theorem turns_registerAt (listener : Listener) (i : Fin n) :
    Turns (m.getActiveIndications i) (if (m.registerAt b listener i).2.2 then [.first] else [])
      (! (m.registerAt b listener i).1.inorder.isEmpty) := by
  have hinsert : (b.insert m.setPredicate (m.registrationMap i) listener).inorder.isEmpty = false :=
    List.isEmpty_eq_false_iff.mpr (Balancing.inorder_insert_ne_nil _ _)
  unfold getActiveIndications registerAt
  split
  · rename_i hnil
    rw [hnil, hinsert]
    exact .first
  · rename_i hne
    have hactive : (m.listeners i).isEmpty = false := List.isEmpty_eq_false_iff.mpr hne
    split
    · exact .none _
    · rw [hactive, hinsert]
      exact .none _

theorem turns_deRegisterAt (listener : Listener) (i : Fin n) :
    Turns (m.getActiveIndications i) (if (m.deRegisterAt b listener i).2.2 then [.last] else [])
      (! (m.deRegisterAt b listener i).1.inorder.isEmpty) := by
  unfold getActiveIndications deRegisterAt
  dsimp only
  split
  · rename_i hcount
    have hle : (b.erase m.setPredicate (m.registrationMap i) listener).2 ≤
        (m.registrationMap i).inorder.length := Balancing.erase_snd_le _ _
    have hactive : (m.listeners i).isEmpty = false := by
      apply List.isEmpty_eq_false_iff.mpr
      rintro hnil
      rw [listeners] at hnil
      rw [hnil] at hle
      exact hcount (Nat.le_zero.mp hle)
    rw [hactive]
    dsimp only
    cases (b.erase m.setPredicate (m.registrationMap i) listener).1.inorder.isEmpty with
    | true => exact .last
    | false => exact .none _
  · rename_i hcount
    rw [Balancing.erase_of_eq_zero (not_not.mp hcount)]
    exact .none _

theorem turns_registerListener (listener : Listener) (indications : Fin n → Bool) (i : Fin n) :
    Turns (m.getActiveIndications i) (m.edges b i (.registerListener listener indications))
      ((m.registerListener b listener indications).1.getActiveIndications i) := by
  have hturns := turns_registerAt (b := b) (m := m) listener i
  rw [edges, registerListener]
  by_cases hlock : ! m.lock listener
  · rw [if_pos hlock]
    exact .none _
  · by_cases hnone : ∀ i, indications i = false
    · rw [if_neg hlock, if_pos hnone]
      exact .none _
    · rw [if_neg hlock, if_neg hnone]
      cases hi : indications i with
      | false => simpa [getActiveIndications, listeners, hi] using Turns.none _
      | true => simpa [getActiveIndications, listeners, hi] using hturns

theorem turns_deRegisterListener (listener : Listener) (indications : Fin n → Bool) (i : Fin n) :
    Turns (m.getActiveIndications i) (m.edges b i (.deRegisterListener listener indications))
      ((m.deRegisterListener b listener indications).1.getActiveIndications i) := by
  have hturns := turns_deRegisterAt (b := b) (m := m) listener i
  rw [edges, deRegisterListener]
  by_cases hlock : ! m.lock listener
  · rw [if_pos hlock]
    exact .none _
  · by_cases hnone : ∀ i, indications i = false
    · rw [if_neg hlock, if_pos hnone]
      exact .none _
    · rw [if_neg hlock, if_neg hnone]
      cases hi : indications i with
      | false => simpa [getActiveIndications, listeners, hi] using Turns.none _
      | true => simpa [getActiveIndications, listeners, hi] using hturns

/-- A purge that leaves a listener in the set is no edge. -/
theorem getActiveIndications_getAvailableListeners {indication : Nat}
    (h : m.Survives (.getAvailableListeners indication)) (i : Fin n) :
    (m.getAvailableListeners b indication).1.getActiveIndications i = m.getActiveIndications i := by
  unfold getAvailableListeners
  split
  · rename_i hlt
    unfold getActiveIndications listeners
    dsimp only
    by_cases hi : i = ⟨indication, hlt⟩
    · rw [hi, Function.update_self, Balancing.inorder_purge]
      rcases h ⟨indication, hlt⟩ rfl with hnil | ⟨x, hmem, hlock⟩
      · rw [listeners] at hnil
        rw [hnil]
        rfl
      · have hfilter : x ∈ (m.listeners ⟨indication, hlt⟩).filter m.lock :=
          List.mem_filter.mpr ⟨hmem, hlock⟩
        have hpurged := List.isEmpty_eq_false_iff.mpr (List.ne_nil_of_mem hfilter)
        have hactive := List.isEmpty_eq_false_iff.mpr (List.ne_nil_of_mem hmem)
        rw [listeners] at hpurged hactive
        rw [hpurged, hactive]
    · rw [Function.update_of_ne hi]
  · rfl

theorem turns_step {e : Event n} (h : m.Survives e) (i : Fin n) :
    Turns (m.getActiveIndications i) (m.edges b i e) ((m.step b e).getActiveIndications i) := by
  cases e with
  | registerListener listener indications => exact turns_registerListener listener indications i
  | deRegisterListener listener indications => exact turns_deRegisterListener listener indications i
  | getAvailableListeners indication =>
    rw [step, getActiveIndications_getAvailableListeners h]
    exact .none _
  | isEnableAnyIndication | expire => exact .none _

/-- From any state the next edge is a last one if the indication is active, and a first one
otherwise. -/
theorem history_isChain (es : List (Event n)) (h : Along (step b) Survives m es) (i : Fin n) :
    (m.history b i es).IsChain (· ≠ ·) ∧
      (m.history b i es).head? ≠ some (if m.getActiveIndications i then .first else .last) := by
  induction es generalizing m with
  | nil => exact ⟨.nil, nofun⟩
  | cons e es ih =>
    obtain ⟨hchain, hhead⟩ := ih h.2
    have hturns := turns_step (b := b) h.1 i
    rw [history]
    generalize m.edges b i e = edges at hturns ⊢
    generalize m.getActiveIndications i = active at hturns ⊢
    generalize (m.step b e).getActiveIndications i = active' at hturns hhead
    cases hturns with
    | none => exact ⟨hchain, hhead⟩
    | first => exact ⟨hchain.cons fun _ hnext heq => hhead (heq ▸ hnext), nofun⟩
    | last => exact ⟨hchain.cons fun _ hnext heq => hhead (heq ▸ hnext), nofun⟩

/-- The first and the last registrations for an indication alternate, in every run in which no
purge empties a set. -/
theorem alternating_of_survives (b : Balancing β Listener) (es : List (Event n))
    (h : Along (step b) Survives new es) (i : Fin n) : Alternating (new.history b i es) :=
  history_isChain es h i

/-- Two listeners come, one expires and is purged, the other one leaves, and the next one comes. -/
theorem alternating_of_survives_two :
    Alternating ((new : ListenerManager Unit 1).history (Balancing.plain ()) 0
      [.registerListener ⟨1, 0⟩ fun _ => true, .registerListener ⟨2, 0⟩ fun _ => true, .expire 1,
        .getAvailableListeners 0, .deRegisterListener ⟨2, 0⟩ fun _ => true,
        .registerListener ⟨1, 1⟩ fun _ => true]) :=
  alternating_of_survives (Balancing.plain ()) _ (by decide) 0

/-- The only listener expires and is purged: two first registrations follow one another. -/
theorem exists_not_alternating :
    ¬ Alternating ((new : ListenerManager Unit 1).history (Balancing.plain ()) 0
      [.registerListener ⟨1, 0⟩ fun _ => true, .expire 1, .getAvailableListeners 0,
        .registerListener ⟨2, 0⟩ fun _ => true]) := by
  have hhistory : (new : ListenerManager Unit 1).history (Balancing.plain ()) 0
      [.registerListener ⟨1, 0⟩ fun _ => true, .expire 1, .getAvailableListeners 0,
        .registerListener ⟨2, 0⟩ fun _ => true] = [.first, .first] := by
    decide
  rw [hhistory]
  rintro ⟨hchain, -⟩
  cases hchain with
  | cons_cons hne _ => exact hne rfl

end ListenerManager

end Listeners

end SatComm
