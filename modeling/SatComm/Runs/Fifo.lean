import Mathlib

/-!
# A bounded memory

A list that remembers the last `cap` things it was told: a new one goes to the back and, when
the list is full, pushes the front one out. What was told survives fewer than `cap` new things.
-/

namespace Fifo

variable {α : Type*}

/-- Remember `x`, at most `cap` things in all. -/
def remember (cap : Nat) (l : List α) (x : α) : List α :=
  (if cap ≤ l.length then l.tail else l) ++ [x]

/-- `n` is remembered, and `since` came after it. -/
def Recent (l : List α) (n : α) (since : List α) : Prop := ∃ older, l = older ++ n :: since

theorem Recent.mem {l since : List α} {n : α} (h : Recent l n since) : n ∈ l := by
  obtain ⟨older, rfl⟩ := h
  simp

theorem recent_remember (cap : Nat) (l : List α) (n : α) : Recent (remember cap l n) n [] :=
  ⟨_, rfl⟩

theorem Recent.remember {cap : Nat} {l since : List α} {n : α} (h : Recent l n since) (x : α)
    (hroom : since.length + 1 < cap) : Recent (remember cap l x) n (since ++ [x]) := by
  obtain ⟨older, rfl⟩ := h
  unfold Fifo.remember
  split
  · rename_i hfull
    cases older with
    | nil =>
      simp only [List.nil_append, List.length_cons] at hfull
      omega
    | cons o older => exact ⟨older, by simp⟩
  · exact ⟨older, by simp⟩

end Fifo
