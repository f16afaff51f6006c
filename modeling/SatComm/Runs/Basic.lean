import Mathlib

/-!
# Runs of a step function

A system is a step function on states and labels, undefined where a label is not enabled. A
run is guarded by a condition on each step, read in the state before it; the condition `True`
gives all runs. `Reachable.invariant` is the induction rule: what holds at the start and is
kept by every guarded step holds in every state a guarded run reaches.
-/

namespace Runs

variable {σ ε : Type*}

/-- The states that runs from `init` reach when every step meets `ok` in the state before it. -/
inductive Reachable (step : σ → ε → Option σ) (ok : σ → ε → Prop) (init : σ) : σ → Prop
  | start : Reachable step ok init init
  | step {s s' : σ} (e : ε) :
    Reachable step ok init s → ok s e → step s e = some s' → Reachable step ok init s'

/-- The condition that every step meets. -/
def anyStep : σ → ε → Prop := fun _ _ => True

/-- The state after a list of labels, each of which has to be enabled and to meet `ok`. -/
def run (step : σ → ε → Option σ) (ok : σ → ε → Prop) [∀ s e, Decidable (ok s e)] :
    σ → List ε → Option σ
  | s, [] => some s
  | s, e :: es => if ok s e then (step s e).bind fun s' => run step ok s' es else none

instance (s : σ) (e : ε) : Decidable (anyStep s e) := inferInstanceAs (Decidable True)

variable {step : σ → ε → Option σ} {ok : σ → ε → Prop} {init : σ}

/-- The induction rule for guarded runs. -/
theorem Reachable.invariant {Inv : σ → Prop} (hinit : Inv init)
    (hstep : ∀ s e s', ok s e → step s e = some s' → Inv s → Inv s') {s : σ}
    (h : Reachable step ok init s) : Inv s := by
  induction h with
  | start => exact hinit
  | step e _ hok hs ih => exact hstep _ e _ hok hs ih

theorem reachable_of_run [∀ s e, Decidable (ok s e)] {s s' : σ} (es : List ε)
    (hs : Reachable step ok init s) (h : run step ok s es = some s') :
    Reachable step ok init s' := by
  induction es generalizing s with
  | nil => exact Option.some.inj h ▸ hs
  | cons e es ih =>
    rw [run] at h
    split at h
    · rename_i hok
      obtain ⟨t, ht, hrest⟩ := Option.bind_eq_some_iff.mp h
      exact ih (.step e hs hok ht) hrest
    · cases h

/-- A run that can be computed reaches a state with what was computed from it. -/
theorem exists_reachable_of_run (step : σ → ε → Option σ) (ok : σ → ε → Prop)
    [∀ s e, Decidable (ok s e)] (init : σ) {β : Type*} (f : σ → β) (b : β) (es : List ε)
    (h : (run step ok init es).map f = some b) :
    ∃ s, Reachable step ok init s ∧ f s = b := by
  obtain ⟨s, hs, hb⟩ := Option.map_eq_some_iff.mp h
  exact ⟨s, reachable_of_run es .start hs, hb⟩

end Runs
