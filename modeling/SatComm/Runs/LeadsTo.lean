import Mathlib.Data.Nat.Find
import Mathlib.Data.List.Infix
import Mathlib.Tactic.Common

/-!
# What an infinite run comes to

`LeadsTo run P Q`: from every time at which `P` holds on, `Q` holds sometime. The rules compose such
facts: two in a row, one for each number below a bound, and the exit from a phase in which the run
does not stay.
-/

namespace Runs

variable {σ α : Type*} {run : ℕ → σ} {P Q R : σ → Prop}

/-- Whenever `P` holds, `Q` holds then or later. -/
def LeadsTo (run : ℕ → σ) (P Q : σ → Prop) : Prop :=
  ∀ n, P (run n) → ∃ m, n ≤ m ∧ Q (run m)

namespace LeadsTo

theorem refl (run : ℕ → σ) (P : σ → Prop) : LeadsTo run P P := fun n h => ⟨n, Nat.le_refl n, h⟩

theorem trans (hPQ : LeadsTo run P Q) (hQR : LeadsTo run Q R) : LeadsTo run P R := by
  intro n hP
  obtain ⟨m, hnm, hQ⟩ := hPQ n hP
  obtain ⟨k, hmk, hR⟩ := hQR m hQ
  exact ⟨k, hnm.trans hmk, hR⟩

/-- After a fixed number of steps. -/
theorem after (k : ℕ) (h : ∀ n, P (run n) → Q (run (n + k))) : LeadsTo run P Q :=
  fun n hP => ⟨n + k, Nat.le_add_right n k, h n hP⟩

/-- Induction on a counter that reaches its bound. -/
theorem count {P : ℕ → σ → Prop} (N : ℕ) (h : ∀ i < N, LeadsTo run (P i) (P (i + 1))) :
    LeadsTo run (P 0) (P N) := by
  induction N with
  | zero => exact refl run (P 0)
  | succ N ih =>
    exact (ih fun i hi => h i (hi.trans N.lt_succ_self)).trans (h N N.lt_succ_self)

/-- The run leaves the phase `P`, and it can only leave it to `Q`. -/
theorem exit (hstep : ∀ n, P (run n) → P (run (n + 1)) ∨ Q (run (n + 1)))
    (hleave : ∀ n, ∃ m, n ≤ m ∧ ¬ P (run m)) : LeadsTo run P Q := by
  intro n hP
  obtain ⟨m, hnm, hm⟩ := hleave n
  induction hnm using Nat.decreasingInduction with
  | self => exact absurd hP hm
  | of_succ n hn ih =>
    rcases hstep n hP with hstay | hout
    · obtain ⟨k, hk, hQ⟩ := ih hstay
      exact ⟨k, (Nat.le_succ n).trans hk, hQ⟩
    · exact ⟨n + 1, Nat.le_succ n, hout⟩

end LeadsTo

/-- A list that only grows along the run is at all times a beginning of what it sometimes is, if it
sometimes is long enough. -/
theorem prefix_of_grows {f : σ → List α} (hgrows : ∀ n, f (run n) <+: f (run (n + 1)))
    {n m : ℕ} (hlong : (f (run n)).length < (f (run m)).length) : f (run n) <+: f (run m) := by
  have hmono : ∀ {i j : ℕ}, i ≤ j → f (run i) <+: f (run j) := by
    intro i j hij
    induction hij with
    | refl => exact List.prefix_refl _
    | step _ ih => exact ih.trans (hgrows _)
  rcases Nat.le_total n m with hnm | hmn
  · exact hmono hnm
  · exact absurd (hmono hmn).length_le (by omega)

end Runs
