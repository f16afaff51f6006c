import SatComm.GeoNet.Receive

/-!
# One packet, two tables

A rule for `Receive` on two routers whose tables are related. All that `Receive` does to a table,
for a packet other than a beacon, is at most one duplicate check, one update and two more
lookups, all for the source of the packet. If these give the same answers and keep the tables
related, the two routers decide alike and stay related. `R₀` relates the tables up to the
update and `R₁` after it. With equal tables this is a rule for one router.
-/

namespace SatComm.GeoNet

variable {τ τ' : Type} [EntryMap τ] [EntryMap τ']

/-- Equal answers, related tables. -/
def Alike {α : Type} (R : τ → τ' → Prop) (x : α × τ) (x' : α × τ') : Prop :=
  x.1 = x'.1 ∧ R x.2 x'.2

/-- A beacon, or a single-hop broadcast, which is treated like one. -/
def Packet.isBeacon (p : Packet) : Bool := p.ht == 1 || (p.ht == 5 && p.hst == 0)

variable (cfg : Config) (env : Env) (p : Packet)

/-- The table operations of one packet keep the tables related. -/
structure InStep (R₀ R₁ : τ → τ' → Prop) : Prop where
  check : ∀ {t t'}, R₀ t t' →
    Alike R₀ (isDuplicated cfg.lifetimeLocTE t (env.now 0) p.mid p.sn)
      (isDuplicated cfg.lifetimeLocTE t' (env.now 0) p.mid p.sn)
  update : ∀ {t t'}, R₀ t t' →
    R₁ (update cfg.lifetimeLocTE t (env.now 1) env.raw p.soPv)
      (update cfg.lifetimeLocTE t' (env.now 1) env.raw p.soPv)
  lookup : ∀ {t t'} (k : Nat), 2 ≤ k → k < 4 → R₁ t t' →
    Alike R₁ (find cfg.lifetimeLocTE t (env.now k) p.mid)
      (find cfg.lifetimeLocTE t' (env.now k) p.mid)
  clear : ∀ {t t'}, R₁ t t' →
    R₁ (setEntry t p.mid fun e => { e with locationServicePending := false })
      (setEntry t' p.mid fun e => { e with locationServicePending := false })

/-- The two routers have decided alike. -/
structure SameOutcome (R₀ R₁ : τ → τ' → Prop) (x : Int × RouterOf τ) (x' : Int × RouterOf τ')
    (count : Nat) : Prop where
  result : x.1 = x'.1
  count_left : x.2.neighborCount = count
  count_right : x'.2.neighborCount = count
  table : R₀ x.2.table x'.2.table ∨ R₁ x.2.table x'.2.table

variable {cfg env p} {R₀ R₁ : τ → τ' → Prop}

namespace InStep

variable (h : InStep cfg env p R₀ R₁)

include h

theorem cbf {t : τ} {t' : τ'} (k : Nat) (h₂ : 2 ≤ k) (h₄ : k < 4) (ht : R₁ t t') :
    R₁ (cbf cfg env t k p) (GeoNet.cbf cfg env t' k p) := by
  unfold GeoNet.cbf lookupSource
  split
  · exact ht
  · exact (h.lookup k h₂ h₄ ht).2

theorem forwardAlgorithmSelect {t : τ} {t' : τ'} (ht : R₁ t t') :
    R₁ (forwardAlgorithmSelect cfg env t 2 p) (GeoNet.forwardAlgorithmSelect cfg env t' 2 p) := by
  unfold GeoNet.forwardAlgorithmSelect
  split
  · split
    · exact h.cbf 2 (by decide) (by decide) ht
    · exact ht
  · have hfind := h.lookup 2 (by decide) (by decide) ht
    rcases hf : find cfg.lifetimeLocTE t (env.now 2) p.mid with ⟨found, s⟩
    rcases hf' : find cfg.lifetimeLocTE t' (env.now 2) p.mid with ⟨found', s'⟩
    rw [hf, hf'] at hfind
    obtain ⟨rfl, hs⟩ : found = found' ∧ R₁ s s' := hfind
    cases found with
    | none => exact hs
    | some e =>
      simp only
      split
      · exact hs
      · split
        · exact h.cbf 3 (by decide) (by decide) hs
        · exact hs

/-- A packet that is dropped as a duplicate, or taken to the next stage. -/
theorem checked {r : RouterOf τ} {r' : RouterOf τ'} (ht : R₀ r.table r'.table)
    (hcount : r.neighborCount = r'.neighborCount) {x : Int × RouterOf τ} {x' : Int × RouterOf τ'}
    (hdup : ∀ t t', isDuplicated cfg.lifetimeLocTE r.table (env.now 0) p.mid p.sn = (true, t) →
      isDuplicated cfg.lifetimeLocTE r'.table (env.now 0) p.mid p.sn = (true, t') →
      x = (-1, { r with table := t }) ∧ x' = (-1, { r' with table := t' }))
    (hnew : ∀ t t', isDuplicated cfg.lifetimeLocTE r.table (env.now 0) p.mid p.sn = (false, t) →
      isDuplicated cfg.lifetimeLocTE r'.table (env.now 0) p.mid p.sn = (false, t') → R₀ t t' →
      SameOutcome R₀ R₁ x x' r.neighborCount) :
    SameOutcome R₀ R₁ x x' r.neighborCount := by
  have hcheck := h.check ht
  rcases hd : isDuplicated cfg.lifetimeLocTE r.table (env.now 0) p.mid p.sn with ⟨dup, t⟩
  rcases hd' : isDuplicated cfg.lifetimeLocTE r'.table (env.now 0) p.mid p.sn with ⟨dup', t'⟩
  rw [hd, hd'] at hcheck
  obtain ⟨rfl, hs⟩ : dup = dup' ∧ R₀ t t' := hcheck
  cases dup with
  | true =>
    obtain ⟨rfl, rfl⟩ := hdup t t' hd hd'
    exact ⟨rfl, rfl, hcount.symm, .inl hs⟩
  | false => exact hnew t t' hd hd' hs

variable {r : RouterOf τ} {r' : RouterOf τ'}

theorem receiveTsb (ht : R₀ r.table r'.table) (hcount : r.neighborCount = r'.neighborCount) :
    SameOutcome R₀ R₁ (receiveTsb cfg env r p) (GeoNet.receiveTsb cfg env r' p)
      r.neighborCount := by
  unfold GeoNet.receiveTsb
  refine h.checked ht hcount (fun t t' hd hd' => by rw [hd, hd']; exact ⟨rfl, rfl⟩) ?_
  intro t t' hd hd' hs
  rw [hd, hd']
  exact ⟨rfl, rfl, hcount.symm, .inr (h.update hs)⟩

theorem receiveGbcGac (ht : R₀ r.table r'.table) (hcount : r.neighborCount = r'.neighborCount) :
    SameOutcome R₀ R₁ (receiveGbcGac cfg env r p) (GeoNet.receiveGbcGac cfg env r' p)
      r.neighborCount := by
  unfold GeoNet.receiveGbcGac
  refine h.checked ht hcount (fun t t' hd hd' => by rw [hd, hd']; exact ⟨rfl, rfl⟩) ?_
  intro t t' hd hd' hs
  rw [hd, hd', ← hcount]
  refine ⟨rfl, rfl, rfl, .inr ?_⟩
  simp only
  split
  · exact h.forwardAlgorithmSelect (h.update hs)
  · exact h.update hs

/-- A GUC packet to be forwarded, once it is not a duplicate. -/
theorem forward {t : τ} {t' : τ'} (hcount : r.neighborCount = r'.neighborCount) (hs : R₀ t t') :
    SameOutcome R₀ R₁
      (let t := GeoNet.update cfg.lifetimeLocTE t (env.now 1) env.raw p.soPv
      if p.rhl = 0 then (-1, { r with table := t })
      else if r.neighborCount = 0 ∧ p.scf then (1, { r with table := t })
      else if cfg.nonAreaForwardingAlgorithm = .cbf then
        (1, { r with table := GeoNet.cbf cfg env t 2 p })
      else (1, { r with table := t }))
      (let t := GeoNet.update cfg.lifetimeLocTE t' (env.now 1) env.raw p.soPv
      if p.rhl = 0 then (-1, { r' with table := t })
      else if r'.neighborCount = 0 ∧ p.scf then (1, { r' with table := t })
      else if cfg.nonAreaForwardingAlgorithm = .cbf then
        (1, { r' with table := GeoNet.cbf cfg env t 2 p })
      else (1, { r' with table := t }))
      r.neighborCount := by
  have hupd := h.update hs
  rw [← hcount]
  simp only
  split
  · exact ⟨rfl, rfl, rfl, .inr hupd⟩
  · split
    · exact ⟨rfl, rfl, rfl, .inr hupd⟩
    · split
      · exact ⟨rfl, rfl, rfl, .inr (h.cbf 2 (by decide) (by decide) hupd)⟩
      · exact ⟨rfl, rfl, rfl, .inr hupd⟩

theorem receiveGuc (ht : R₀ r.table r'.table) (hcount : r.neighborCount = r'.neighborCount) :
    SameOutcome R₀ R₁ (receiveGuc cfg env r p) (GeoNet.receiveGuc cfg env r' p)
      r.neighborCount := by
  unfold GeoNet.receiveGuc
  split
  · refine h.checked ht hcount (fun t t' hd hd' => by rw [hd, hd']; exact ⟨rfl, rfl⟩) ?_
    intro t t' hd hd' hs
    rw [hd, hd']
    exact ⟨rfl, rfl, hcount.symm, .inr (h.update hs)⟩
  · by_cases halg : cfg.nonAreaForwardingAlgorithm ≠ .cbf
    · rw [if_pos halg, if_pos halg]
      refine h.checked ht hcount (fun t t' hd hd' => by rw [hd, hd']; exact ⟨rfl, rfl⟩) ?_
      intro t t' hd hd' hs
      rw [hd, hd']
      exact h.forward hcount hs
    · rw [if_neg halg, if_neg halg]
      exact h.forward hcount ht

theorem receiveLocationService (ht : R₀ r.table r'.table)
    (hcount : r.neighborCount = r'.neighborCount) :
    SameOutcome R₀ R₁ (receiveLocationService cfg env r p)
      (GeoNet.receiveLocationService cfg env r' p) r.neighborCount := by
  unfold GeoNet.receiveLocationService
  split
  · split
    · refine h.checked ht hcount (fun t t' hd hd' => by rw [hd, hd']; exact ⟨rfl, rfl⟩) ?_
      intro t t' hd hd' hs
      rw [hd, hd']
      exact ⟨rfl, rfl, hcount.symm, .inr (h.update hs)⟩
    · exact ⟨rfl, rfl, hcount.symm, .inl ht⟩
  · split
    · refine h.checked ht hcount (fun t t' hd hd' => by rw [hd, hd']; exact ⟨rfl, rfl⟩) ?_
      intro t t' hd hd' hs
      rw [hd, hd']
      exact ⟨rfl, rfl, hcount.symm, .inr (h.clear (h.update hs))⟩
    · exact h.receiveGuc ht hcount

/-- Any packet but a beacon. -/
theorem dispatch (hbeacon : p.isBeacon = false) (ht : R₀ r.table r'.table)
    (hcount : r.neighborCount = r'.neighborCount) :
    SameOutcome R₀ R₁ (dispatch cfg env r p) (GeoNet.dispatch cfg env r' p) r.neighborCount := by
  unfold GeoNet.dispatch
  split
  · rename_i hht
    simp [Packet.isBeacon, hht] at hbeacon
  · exact h.receiveGuc ht hcount
  · exact h.receiveGbcGac ht hcount
  · exact h.receiveGbcGac ht hcount
  · rename_i hht
    have hst : p.hst ≠ 0 := by
      intro h0
      simp [Packet.isBeacon, hht, h0] at hbeacon
    rw [if_neg hst, if_neg hst]
    exact h.receiveTsb ht hcount
  · exact h.receiveLocationService ht hcount
  · exact ⟨rfl, rfl, hcount.symm, .inl ht⟩

end InStep

/-! ## One router -/

/-- What the table operations of one packet take from `P₀` to `P₁`. -/
structure Carried (cfg : Config) (env : Env) (p : Packet) (P₀ P₁ : τ → Prop) : Prop where
  check : ∀ {t}, P₀ t → P₀ (isDuplicated cfg.lifetimeLocTE t (env.now 0) p.mid p.sn).2
  update : ∀ {t}, P₀ t → P₁ (update cfg.lifetimeLocTE t (env.now 1) env.raw p.soPv)
  lookup : ∀ {t} (k : Nat), 2 ≤ k → k < 4 → P₁ t → P₁ (find cfg.lifetimeLocTE t (env.now k) p.mid).2
  clear : ∀ {t}, P₁ t → P₁ (setEntry t p.mid fun e => { e with locationServicePending := false })

theorem Carried.dispatch {P₀ P₁ : τ → Prop} (h : Carried cfg env p P₀ P₁) {r : RouterOf τ}
    (hbeacon : p.isBeacon = false) (ht : P₀ r.table) :
    (dispatch cfg env r p).2.neighborCount = r.neighborCount ∧
      (P₀ (GeoNet.dispatch cfg env r p).2.table ∨ P₁ (GeoNet.dispatch cfg env r p).2.table) := by
  have hstep : InStep cfg env p (fun t t' => t = t' ∧ P₀ t) (fun t t' => t = t' ∧ P₁ t) := by
    constructor
    · rintro t _ ⟨rfl, hP⟩
      exact ⟨rfl, rfl, h.check hP⟩
    · rintro t _ ⟨rfl, hP⟩
      exact ⟨rfl, h.update hP⟩
    · rintro t _ k h₂ h₄ ⟨rfl, hP⟩
      exact ⟨rfl, rfl, h.lookup k h₂ h₄ hP⟩
    · rintro t _ ⟨rfl, hP⟩
      exact ⟨rfl, h.clear hP⟩
  have hsame := hstep.dispatch (r := r) hbeacon ⟨rfl, ht⟩ rfl
  exact ⟨hsame.count_left, hsame.table.imp And.right And.right⟩

end SatComm.GeoNet
