import Mathlib.Tactic.Common

/-!
# Runs that come to an end

A program is a partial step: it has halted where no step is left. `RunsTo step s t` says that the
run from `s` halts in `t`. A state and its successor have the same outcome, so a loop is followed
by rewriting; a loop that an invariant keeps from halting has no outcome.
-/

namespace Runs

variable {σ : Type*} {step : σ → Option σ} {s s' t t' : σ}

inductive RunsTo (step : σ → Option σ) : σ → σ → Prop
  | halt {s : σ} : step s = none → RunsTo step s s
  | next {s s' t : σ} : step s = some s' → RunsTo step s' t → RunsTo step s t

theorem runsTo_of_none (h : step s = none) : RunsTo step s t ↔ t = s := by
  constructor
  · intro hrun
    cases hrun with
    | halt _ => rfl
    | next hs _ =>
      rw [h] at hs
      cases hs
  · rintro rfl
    exact .halt h

theorem runsTo_of_some (h : step s = some s') : RunsTo step s t ↔ RunsTo step s' t := by
  constructor
  · intro hrun
    cases hrun with
    | halt hs =>
      rw [h] at hs
      cases hs
    | next hs hrest =>
      rw [h] at hs
      obtain rfl := Option.some.inj hs
      exact hrest
  · exact .next h

/-- A run has at most one outcome. -/
theorem RunsTo.unique (h : RunsTo step s t) (h' : RunsTo step s t') : t = t' := by
  induction h with
  | halt hs => exact ((runsTo_of_none hs).mp h').symm
  | next hs _ ih => exact ih ((runsTo_of_some hs).mp h')

/-- A run does not halt while it stays in a set of states that all have a successor in it. -/
theorem not_runsTo_of_invariant (Inv : σ → Prop)
    (hstep : ∀ s, Inv s → ∃ s', step s = some s' ∧ Inv s') (h : Inv s) : ¬ RunsTo step s t := by
  intro hrun
  induction hrun with
  | halt hs =>
    obtain ⟨s', hs', -⟩ := hstep _ h
    rw [hs] at hs'
    cases hs'
  | next hs _ ih =>
    obtain ⟨s', hs', hinv⟩ := hstep _ h
    rw [hs] at hs'
    obtain rfl := Option.some.inj hs'
    exact ih hinv

/-- A loop that takes the elements of a list off its front as long as they are to be dropped, and
comes round with the same list otherwise, leaves the list empty or does not halt. -/
theorem runsTo_drain {α β : Type*} {loop : List α → β → σ} {drop : α → Prop}
    (hpop : ∀ e q b, drop e → step (loop (e :: q) b) = some (loop q b))
    (hstay : ∀ e q b, ¬ drop e → ∃ b', step (loop (e :: q) b) = some (loop (e :: q) b'))
    (q : List α) (b : β) :
    RunsTo step (loop q b) t ↔ (∀ e ∈ q, drop e) ∧ RunsTo step (loop [] b) t := by
  induction q with
  | nil => simp
  | cons e q ih =>
    by_cases he : drop e
    · rw [runsTo_of_some (hpop e q b he), ih]
      simp [he]
    · refine iff_of_false ?_ fun h => he (h.1 e List.mem_cons_self)
      refine not_runsTo_of_invariant (fun s => ∃ b, s = loop (e :: q) b) ?_ ⟨b, rfl⟩
      rintro s ⟨b, rfl⟩
      obtain ⟨b', hb'⟩ := hstay e q b he
      exact ⟨_, hb', b', rfl⟩

end Runs
