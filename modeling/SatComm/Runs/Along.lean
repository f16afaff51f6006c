import Mathlib.Data.List.Basic
import Mathlib.Tactic.Common

/-!
# Conditions along a run

Here every label is enabled in every state. A condition on single steps, read in the state
before the step, is followed along a list of labels. `along_congr` compares two such conditions
where an invariant holds; `Along.invariant` carries the invariant to the state at the end.
-/

namespace Runs

variable {σ ε : Type*}

/-- `C` holds of every step of the run, in the state before it. -/
def Along (step : σ → ε → σ) (C : σ → ε → Prop) : σ → List ε → Prop
  | _, [] => True
  | s, e :: es => C s e ∧ Along step C (step s e) es

instance instDecidableAlong (step : σ → ε → σ) (C : σ → ε → Prop)
    [inst : ∀ s e, Decidable (C s e)] : ∀ s es, Decidable (Along step C s es)
  | _, [] => inferInstanceAs (Decidable True)
  | s, e :: es =>
    have := instDecidableAlong step C (step s e) es
    inferInstanceAs (Decidable (C s e ∧ Along step C (step s e) es))

variable {step : σ → ε → σ} {C D : σ → ε → Prop}

@[simp]
theorem along_nil (s : σ) : Along step C s [] := trivial

@[simp]
theorem along_cons (s : σ) (e : ε) (es : List ε) :
    Along step C s (e :: es) ↔ C s e ∧ Along step C (step s e) es := Iff.rfl

theorem along_append (s : σ) (es es' : List ε) :
    Along step C s (es ++ es') ↔ Along step C s es ∧ Along step C (es.foldl step s) es' := by
  induction es generalizing s with
  | nil => simp
  | cons e es ih => rw [List.cons_append, along_cons, along_cons, ih, List.foldl_cons, and_assoc]

theorem along_and (s : σ) (es : List ε) :
    Along step (fun s e => C s e ∧ D s e) s es ↔ Along step C s es ∧ Along step D s es := by
  induction es generalizing s with
  | nil => simp
  | cons e es ih => rw [along_cons, along_cons, along_cons, ih, and_and_and_comm]

/-- A condition that each label meets in every state. -/
theorem along_of_mem {s : σ} {es : List ε} (h : ∀ e ∈ es, ∀ s, C s e) : Along step C s es := by
  induction es generalizing s with
  | nil => exact along_nil s
  | cons e es ih =>
    exact ⟨h e List.mem_cons_self s, ih fun e' he' => h e' (List.mem_cons_of_mem e he')⟩

theorem along_congr_of_mem {s : σ} {es : List ε} (h : ∀ e ∈ es, ∀ s, C s e ↔ D s e) :
    Along step C s es ↔ Along step D s es := by
  induction es generalizing s with
  | nil => exact Iff.rfl
  | cons e es ih =>
    rw [along_cons, along_cons, h e List.mem_cons_self s,
      ih fun e' he' => h e' (List.mem_cons_of_mem e he')]

/-- What one step of `C` keeps holds in the state at the end of a run of `C`. -/
theorem Along.invariant (Inv : σ → Prop) (hkeep : ∀ s e, Inv s → C s e → Inv (step s e))
    {s : σ} {es : List ε} (h : Inv s) (hC : Along step C s es) : Inv (es.foldl step s) := by
  induction es generalizing s with
  | nil => exact h
  | cons e es ih => exact ih (hkeep s e h hC.1) hC.2

/-- What `C` gives where the invariant holds is given along a run of `C`, which keeps it. -/
theorem Along.of_invariant (Inv : σ → Prop) (hkeep : ∀ s e, Inv s → C s e → Inv (step s e))
    (hD : ∀ s e, Inv s → C s e → D s e) {s : σ} {es : List ε} (hC : Along step C s es) (h : Inv s) :
    Along step D s es := by
  induction es generalizing s with
  | nil => exact along_nil s
  | cons e es ih => exact ⟨hD s e h hC.1, ih hC.2 (hkeep s e h hC.1)⟩

/-- What holds where an invariant of the steps holds is given along every run. -/
theorem along_of_invariant (Inv : σ → Prop) (hkeep : ∀ s e, Inv s → Inv (step s e))
    (hD : ∀ s e, Inv s → D s e) {s : σ} (es : List ε) (h : Inv s) : Along step D s es := by
  induction es generalizing s with
  | nil => exact along_nil s
  | cons e es ih => exact ⟨hD s e h, ih (hkeep s e h)⟩

/-- Two conditions that agree where `Inv` holds, one of which keeps `Inv`, agree along runs. -/
theorem along_congr (Inv : σ → Prop) (hiff : ∀ s e, Inv s → (C s e ↔ D s e))
    (hkeep : ∀ s e, Inv s → D s e → Inv (step s e)) {s : σ} (es : List ε) (h : Inv s) :
    Along step C s es ↔ Along step D s es := by
  induction es generalizing s with
  | nil => exact Iff.rfl
  | cons e es ih =>
    rw [along_cons, along_cons, hiff s e h]
    exact and_congr_right fun hD => ih (hkeep s e h hD)

/-- A property of the state after each step, as a property of every state the run comes to. -/
theorem along_reached_iff (P : σ → Prop) {s : σ} (h : P s) (es : List ε) :
    Along step (fun s e => P (step s e)) s es ↔ ∀ n, P ((es.take n).foldl step s) := by
  induction es generalizing s with
  | nil => simp [h]
  | cons e es ih =>
    rw [along_cons]
    constructor
    · rintro ⟨he, hrest⟩ n
      cases n with
      | zero => exact h
      | succ n => exact (ih he).mp hrest n
    · intro hall
      have he : P (step s e) := by simpa using hall 1
      exact ⟨he, (ih he).mpr fun n => hall (n + 1)⟩

end Runs
