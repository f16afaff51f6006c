import Mathlib.Data.List.Basic

/-!
# Lists that are worked off until an item is refused

A loop takes the items of a list one after the other and stops at the first status that is not the
good one. Where a refused item changes nothing, every item is done in the end just if whatever
stands behind a refused one, and is not done already, also stands before it.
-/

namespace Runs

variable {σ α β : Type*} [DecidableEq β]

def untilRefused (step : σ → α → β × σ) (ok : β) (s : σ) : List α → β × σ
  | [] => (ok, s)
  | x :: xs => if (step s x).1 = ok then untilRefused step ok (step s x).2 xs else step s x

variable {step : σ → α → β × σ} {ok : β} {s : σ} {x : α} {xs : List α}

theorem untilRefused_of_ok (h : (step s x).1 = ok) :
    untilRefused step ok s (x :: xs) = untilRefused step ok (step s x).2 xs := by
  rw [untilRefused, if_pos h]

theorem untilRefused_of_refused (h : (step s x).1 ≠ ok) :
    untilRefused step ok s (x :: xs) = step s x := by
  rw [untilRefused, if_neg h]

/-- What every step keeps, the loop keeps. -/
theorem untilRefused_invariant (P : σ → Prop)
    (hstep : ∀ s, ∀ x ∈ xs, P s → P (step s x).2) (h : P s) :
    P (untilRefused step ok s xs).2 := by
  induction xs generalizing s with
  | nil => exact h
  | cons x xs ih =>
    obtain ⟨hfirst, hrest⟩ : (∀ s, P s → P (step s x).2) ∧
        ∀ s, ∀ y ∈ xs, P s → P (step s y).2 :=
      ⟨fun s => hstep s x List.mem_cons_self,
        fun s y hy => hstep s y (List.mem_cons_of_mem _ hy)⟩
    by_cases hok : (step s x).1 = ok
    · rw [untilRefused_of_ok hok]
      exact ih hrest (hfirst s h)
    · rw [untilRefused_of_refused hok]
      exact hfirst s h

/-- The steps do their items. `Refused s front x` is that `x` is refused after all of `front`
went well from `s` on. -/
structure Does (step : σ → α → β × σ) (ok : β) (Done : σ → α → Prop)
    (Refused : σ → List α → α → Prop) : Prop where
  refused_nil : ∀ s x, Refused s [] x ↔ (step s x).1 ≠ ok
  refused_cons : ∀ s x front y, (step s x).1 = ok →
    (Refused s (x :: front) y ↔ Refused (step s x).2 front y)
  done : ∀ s x y, (step s x).1 = ok → (Done (step s x).2 y ↔ Done s y ∨ y = x)
  same : ∀ s x, (step s x).1 ≠ ok → (step s x).2 = s ∧ Done s x

/-- Behind a refused item there is nothing to do but what stands before it. -/
def Unbroken (Done : σ → α → Prop) (Refused : σ → List α → α → Prop) (s : σ) (xs : List α) :
    Prop :=
  ∀ front x back, xs = front ++ x :: back → Refused s front x →
    ∀ y ∈ back, Done s y ∨ y ∈ front

namespace Does

variable {Done : σ → α → Prop} {Refused : σ → List α → α → Prop}

theorem done_untilRefused_of_done (h : Does step ok Done Refused) (hx : Done s x) :
    Done (untilRefused step ok s xs).2 x := by
  apply untilRefused_invariant (fun s => Done s x) _ hx
  intro s y _ hs
  by_cases hok : (step s y).1 = ok
  · exact (h.done s y x hok).mpr (.inl hs)
  · rw [(h.same s y hok).1]
    exact hs

omit [DecidableEq β] in
theorem unbroken_of_refused (h : Does step ok Done Refused) (hx : (step s x).1 ≠ ok) :
    Unbroken Done Refused s (x :: xs) ↔ ∀ y ∈ xs, Done s y := by
  constructor
  · intro hunbroken y hy
    exact (hunbroken [] x xs rfl ((h.refused_nil s x).mpr hx) y hy).resolve_right List.not_mem_nil
  · intro hall front z back heq _ y hy
    apply Or.inl
    cases front with
    | nil =>
      obtain ⟨-, rfl⟩ := List.cons.inj heq
      exact hall y hy
    | cons w front =>
      obtain ⟨-, rfl⟩ := List.cons.inj heq
      exact hall y (List.mem_append_right _ (List.mem_cons_of_mem _ hy))

omit [DecidableEq β] in
theorem unbroken_of_ok (h : Does step ok Done Refused) (hx : (step s x).1 = ok) :
    Unbroken Done Refused s (x :: xs) ↔ Unbroken Done Refused (step s x).2 xs := by
  constructor
  · intro hunbroken front z back heq hz y hy
    rw [h.done s x y hx]
    rcases hunbroken (x :: front) z back (congrArg (x :: ·) heq)
        ((h.refused_cons s x front z hx).mpr hz) y hy with hdone | hmem
    · exact .inl (.inl hdone)
    · rcases List.mem_cons.mp hmem with rfl | hmem
      · exact .inl (.inr rfl)
      · exact .inr hmem
  · intro hunbroken front z back heq hz y hy
    cases front with
    | nil =>
      obtain ⟨rfl, -⟩ := List.cons.inj heq
      exact absurd hx ((h.refused_nil s x).mp hz)
    | cons w front =>
      obtain ⟨rfl, rfl⟩ := List.cons.inj heq
      rcases hunbroken front z back rfl ((h.refused_cons s x front z hx).mp hz) y hy
        with hdone | hmem
      · rcases (h.done s x y hx).mp hdone with hdone | rfl
        · exact .inl hdone
        · exact .inr List.mem_cons_self
      · exact .inr (List.mem_cons_of_mem _ hmem)

theorem forall_done_iff (h : Does step ok Done Refused) (s : σ) (xs : List α) :
    (∀ y ∈ xs, Done (untilRefused step ok s xs).2 y) ↔ Unbroken Done Refused s xs := by
  induction xs generalizing s with
  | nil =>
    constructor
    · intro _ front x back heq
      exact absurd heq.symm (List.append_ne_nil_of_right_ne_nil _ (List.cons_ne_nil _ _))
    · intro _ y hy
      cases hy
  | cons x xs ih =>
    by_cases hok : (step s x).1 = ok
    · have hx : Done (untilRefused step ok (step s x).2 xs).2 x :=
        h.done_untilRefused_of_done ((h.done s x x hok).mpr (.inr rfl))
      rw [untilRefused_of_ok hok, h.unbroken_of_ok hok, List.forall_mem_cons, ih]
      exact ⟨fun hall => hall.2, fun hunbroken => ⟨hx, hunbroken⟩⟩
    · obtain ⟨hsame, hx⟩ := h.same s x hok
      rw [untilRefused_of_refused hok, h.unbroken_of_refused hok, hsame, List.forall_mem_cons]
      exact ⟨fun hall => hall.2, fun hall => ⟨hx, hall⟩⟩

end Does

end Runs
