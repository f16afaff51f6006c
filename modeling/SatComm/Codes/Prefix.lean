import Mathlib

/-!
# Prefix codes

A set of words is prefix free when none of them is a proper prefix of another. A prefix-free
set without the empty word is uniquely decodable, so a code whose words are prefix free is
injective on lists.
-/

namespace Codes

open InformationTheory

variable {α β γ : Type*}

/-- No word of the set is a proper prefix of another one. -/
def PrefixFree (S : Set (List β)) : Prop := ∀ u ∈ S, ∀ v ∈ S, u <+: v → u = v

theorem PrefixFree.uniquelyDecodable {S : Set (List β)} (h : PrefixFree S) (hne : [] ∉ S) :
    UniquelyDecodable S := by
  intro L₁ L₂ h₁ h₂ heq
  induction L₁ generalizing L₂ with
  | nil =>
    cases L₂ with
    | nil => rfl
    | cons v L₂ =>
      have hv : v = [] := by simpa using (List.append_eq_nil_iff.mp heq.symm).1
      exact absurd (hv ▸ h₂ v List.mem_cons_self) hne
  | cons u L₁ ih =>
    cases L₂ with
    | nil =>
      have hu : u = [] := by simpa using (List.append_eq_nil_iff.mp heq).1
      exact absurd (hu ▸ h₁ u List.mem_cons_self) hne
    | cons v L₂ =>
      have hcat : u ++ L₁.flatten = v ++ L₂.flatten := heq
      have huv : u = v := by
        rcases List.prefix_or_prefix_of_prefix (List.prefix_append u L₁.flatten)
          (hcat ▸ List.prefix_append v L₂.flatten) with hp | hp
        · exact h u (h₁ u List.mem_cons_self) v (h₂ v List.mem_cons_self) hp
        · exact (h v (h₂ v List.mem_cons_self) u (h₁ u List.mem_cons_self) hp).symm
      subst huv
      rw [ih L₂ (fun w hw => h₁ w (List.mem_cons_of_mem u hw))
        (fun w hw => h₂ w (List.mem_cons_of_mem u hw)) (List.append_cancel_left hcat)]

theorem PrefixFree.map {S : Set (List β)} (h : PrefixFree S) {f : β → γ}
    (hf : Function.Injective f) : PrefixFree (List.map f '' S) := by
  rintro _ ⟨u, hu, rfl⟩ _ ⟨v, hv, rfl⟩ hp
  rw [h u hu v hv ((List.prefix_map_iff_of_injective hf).mp hp)]

theorem map_injOn {code : α → List β} {S : Set α} (hinj : Set.InjOn code S) :
    Set.InjOn (List.map code) {l | ∀ v ∈ l, v ∈ S} := by
  intro l₁ h₁
  induction l₁ with
  | nil => exact fun l₂ _ heq => (List.map_eq_nil_iff.mp heq.symm).symm
  | cons u l₁ ih =>
    intro l₂ h₂ heq
    obtain ⟨v, l₂, rfl, huv, hl⟩ := List.map_eq_cons_iff.mp heq.symm
    rw [hinj (h₁ u List.mem_cons_self) (h₂ v List.mem_cons_self) huv.symm,
      ih (fun w hw => h₁ w (List.mem_cons_of_mem u hw))
        (fun w hw => h₂ w (List.mem_cons_of_mem v hw)) hl.symm]

/-- A list of values is determined by its words, written one after the other. -/
theorem flatMap_injOn {code : α → List β} {S : Set α} (hpre : PrefixFree (code '' S))
    (hne : ∀ v ∈ S, code v ≠ []) (hinj : Set.InjOn code S) :
    Set.InjOn (List.flatMap code) {l | ∀ v ∈ l, v ∈ S} := by
  intro l₁ h₁ l₂ h₂ heq
  have hnil : [] ∉ code '' S := by
    rintro ⟨v, hv, hnil⟩
    exact hne v hv hnil
  have hwords : ∀ l ∈ {l : List α | ∀ v ∈ l, v ∈ S}, ∀ w ∈ l.map code, w ∈ code '' S := by
    intro l hl w hw
    obtain ⟨v, hv, rfl⟩ := List.mem_map.mp hw
    exact ⟨v, hl v hv, rfl⟩
  have hmap : l₁.map code = l₂.map code := by
    apply hpre.uniquelyDecodable hnil _ _ (hwords l₁ h₁) (hwords l₂ h₂)
    rwa [← List.flatMap_def, ← List.flatMap_def]
  exact map_injOn hinj h₁ h₂ hmap

end Codes
