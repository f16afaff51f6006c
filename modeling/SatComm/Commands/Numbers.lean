import SatComm.Commands.Requests

/-!
# The numbers of the requests

Since the service last became unavailable every callback was added under a number of its own
(`Numbered`). A result whose request was made since then finds its own callback or none, and an
older one finds the callback of another request (`late_result_iff`).
-/

namespace SatComm

namespace Commands

open Assoc Runs

theorem getNextCommandId_eq {n : Int} (hn : 0 ≤ n) (hlt : n < 2147483647) :
    getNextCommandId n = n + 1 := by
  have hinc : increment n = n + 1 := if_neg (by omega)
  rw [getNextCommandId, hinc, if_neg]
  simp only [INVALID_COMMAND_ID]
  omega

namespace CommandCallbackManager

variable {α : Type} {m : CommandCallbackManager α}

theorem addCallback_eq (hn : 0 ≤ m.commandId) (hlt : m.commandId < 2147483647)
    (callback : Option α) :
    m.addCallback callback =
      (⟨m.commandId + 1, m.funCallbackMap.set (m.commandId + 1) callback⟩, m.commandId + 1) := by
  rw [addCallback, getNextCommandId_eq hn hlt]

/-- What is found is a callback of the map, and nothing else is dropped. -/
theorem get?_of_findAndRemove (m : CommandCallbackManager α) (cmdId k : Int) :
    (m.findAndRemoveCallback cmdId).1.commandId = m.commandId ∧
      ((m.findAndRemoveCallback cmdId).1.funCallbackMap.get? k = m.funCallbackMap.get? k ∨
        k = cmdId ∧ (m.findAndRemoveCallback cmdId).1.funCallbackMap.get? k = none) := by
  rw [findAndRemoveCallback]
  split
  · exact ⟨rfl, .inl rfl⟩
  cases hget : m.funCallbackMap.get? cmdId with
  | none => exact ⟨rfl, .inl rfl⟩
  | some callback =>
    refine ⟨rfl, ?_⟩
    by_cases hk : k = cmdId
    · exact .inr ⟨hk, by simp [hk]⟩
    · exact .inl (by simp [hk])

theorem get?_of_found {cmdId : Int} {callback : α}
    (h : (m.findAndRemoveCallback cmdId).2 = some callback) :
    m.funCallbackMap.get? cmdId = some (some callback) := by
  rw [findAndRemoveCallback] at h
  split at h
  · cases h
  cases hget : m.funCallbackMap.get? cmdId with
  | none =>
    rw [hget] at h
    cases h
  | some found =>
    rw [hget] at h
    rw [show found = some callback from h]

theorem found_of_get? {cmdId : Int} (hpos : 0 < cmdId) {callback : Option α}
    (h : m.funCallbackMap.get? cmdId = some callback) :
    m.findAndRemoveCallback cmdId =
      ({ m with funCallbackMap := m.funCallbackMap.erase cmdId }, callback) := by
  rw [findAndRemoveCallback, if_neg (by omega), h]

/-- The callbacks that were added and not yet found. -/
def callbacks (m : CommandCallbackManager α) : List α := m.funCallbackMap.values.filterMap id

theorem callbacks_findAndRemove (m : CommandCallbackManager α) (cmdId : Int) :
    m.callbacks.Perm ((m.findAndRemoveCallback cmdId).2.toList ++
      (m.findAndRemoveCallback cmdId).1.callbacks) := by
  rw [findAndRemoveCallback]
  split
  · exact List.Perm.refl _
  cases hget : m.funCallbackMap.get? cmdId with
  | none => exact List.Perm.refl _
  | some callback =>
    have hperm := (Map.values_erase hget).filterMap id
    cases callback with
    | none => exact hperm
    | some callback => exact hperm

theorem callbacks_set {cmdId : Int} (h : m.funCallbackMap.get? cmdId = none) (n : Int)
    (callback : Option α) :
    (callbacks ⟨n, m.funCallbackMap.set cmdId callback⟩).Perm
      (callback.toList ++ m.callbacks) := by
  have hperm := (Map.values_set h callback).filterMap id
  cases callback with
  | none => exact hperm
  | some callback => exact hperm

end CommandCallbackManager

/-- What a request adds. -/
structure Registers (m m' : CommandCallbackManager Callback) (r : Request) : Prop where
  number : ¬ r.Numbers r.cmdId → r.cmdId = INVALID_COMMAND_ID
  le : m.commandId ≤ m'.commandId
  range : ∀ k, r.Numbers k → m.commandId < k ∧ k ≤ m'.commandId
  added : ∀ k, r.Numbers k →
    m'.funCallbackMap.get? k = some (if r.callback then some r.passed else none)
  kept : ∀ k, ¬ r.Numbers k → m'.funCallbackMap.get? k = m.funCallbackMap.get? k
  callbacks : (∀ k, m.commandId < k → m.funCallbackMap.get? k = none) →
    m'.callbacks.Perm ((if r.callback then [r.passed] else []) ++
      (if r.doubled then [r.passed] else []) ++ m.callbacks)

/-- A request without a callback adds none, but for `getStreamTypes`. -/
theorem register_none {m : CommandCallbackManager Callback} {op : Operation}
    (h : op ≠ .getStreamTypes) : register m op none = (m, INVALID_COMMAND_ID) := by
  rw [register, if_neg h]
  rfl

theorem register_once {m : CommandCallbackManager Callback} (hn : 0 ≤ m.commandId)
    (hlt : m.commandId < 2147483646) {op : Operation} {callback : Option Callback}
    (h : op = .getStreamTypes ↔ callback = none) :
    register m op callback = (⟨m.commandId + 1,
      m.funCallbackMap.set (m.commandId + 1) callback⟩, m.commandId + 1) := by
  rw [register, ← CommandCallbackManager.addCallback_eq hn (by omega)]
  cases callback with
  | none =>
    rw [if_pos (h.mpr rfl)]
    rfl
  | some callback =>
    rw [if_neg fun hop => Option.some_ne_none callback (h.mp hop)]
    rfl

theorem register_twice {m : CommandCallbackManager Callback} (hn : 0 ≤ m.commandId)
    (hlt : m.commandId < 2147483646) (callback : Callback) :
    register m .getStreamTypes (some callback) = (⟨m.commandId + 2,
      (m.funCallbackMap.set (m.commandId + 1) (some callback)).set (m.commandId + 2)
        (some callback)⟩, m.commandId + 2) := by
  rw [register, if_pos rfl, Option.isSome_some, if_pos rfl,
    CommandCallbackManager.addCallback_eq hn (by omega),
    CommandCallbackManager.addCallback_eq (by simp only; omega) (by simp only; omega)]
  simp only [add_assoc]
  rfl

section Registers

variable {m : CommandCallbackManager Callback} {serial epoch : Nat} {op : Operation}

theorem registers_none (h : op ≠ .getStreamTypes) :
    Registers m m ⟨serial, epoch, op, false, INVALID_COMMAND_ID⟩ := by
  have hnone : ∀ k, ¬ Request.Numbers ⟨serial, epoch, op, false, INVALID_COMMAND_ID⟩ k := by
    intro k
    simp [Request.Numbers, Request.doubled, h]
  refine ⟨fun _ => rfl, le_refl _, fun k hk => (hnone k hk).elim, fun k hk => (hnone k hk).elim,
    fun k _ => rfl, fun _ => ?_⟩
  simp [Request.doubled]

theorem registers_once {callback : Bool} (h : op = .getStreamTypes ↔ callback = false) :
    Registers m ⟨m.commandId + 1, m.funCallbackMap.set (m.commandId + 1)
      (if callback then some ⟨serial, op⟩ else none)⟩
      ⟨serial, epoch, op, callback, m.commandId + 1⟩ := by
  have hnumbers : ∀ k, Request.Numbers ⟨serial, epoch, op, callback, m.commandId + 1⟩ k ↔
      k = m.commandId + 1 := by
    intro k
    cases callback with
    | true =>
      have hop : op ≠ .getStreamTypes := fun hop => Bool.noConfusion (h.mp hop)
      simp [Request.Numbers, Request.doubled, hop]
    | false => simp [Request.Numbers, Request.doubled, h.mpr rfl]
  refine ⟨fun hk => absurd ((hnumbers _).mpr rfl) hk, by simp, ?_, ?_, ?_, ?_⟩
  · intro k hk
    rw [(hnumbers k).mp hk]
    exact ⟨by omega, le_refl _⟩
  · intro k hk
    rw [(hnumbers k).mp hk]
    exact Map.get?_set_self _ _ _
  · intro k hk
    exact Map.get?_set_of_ne _ _ fun heq => hk ((hnumbers k).mpr heq)
  · intro hfresh
    have hperm := CommandCallbackManager.callbacks_set (hfresh (m.commandId + 1) (by omega))
      (m.commandId + 1) (if callback then some ⟨serial, op⟩ else none)
    refine hperm.trans (List.Perm.of_eq ?_)
    cases callback with
    | true =>
      have hop : op ≠ .getStreamTypes := fun hop => Bool.noConfusion (h.mp hop)
      simp [Request.doubled, Request.passed, hop]
    | false => simp [Request.doubled]

theorem registers_twice :
    Registers m ⟨m.commandId + 2, (m.funCallbackMap.set (m.commandId + 1)
      (some ⟨serial, .getStreamTypes⟩)).set (m.commandId + 2) (some ⟨serial, .getStreamTypes⟩)⟩
      ⟨serial, epoch, .getStreamTypes, true, m.commandId + 2⟩ := by
  have hnumbers : ∀ k, Request.Numbers ⟨serial, epoch, .getStreamTypes, true, m.commandId + 2⟩ k ↔
      k = m.commandId + 2 ∨ k = m.commandId + 1 := by
    intro k
    simp only [Request.Numbers, Request.doubled]
    simp
    omega
  refine ⟨fun hk => absurd ((hnumbers _).mpr (.inl rfl)) hk, by simp, ?_, ?_, ?_, ?_⟩
  · intro k hk
    simp only
    rcases (hnumbers k).mp hk with rfl | rfl <;> omega
  · intro k hk
    rcases (hnumbers k).mp hk with rfl | rfl <;> simp [Request.passed]
  · intro k hk
    have hne := mt (hnumbers k).mpr hk
    push Not at hne
    simp [hne.1, hne.2]
  · intro hfresh
    have hfirst := CommandCallbackManager.callbacks_set (hfresh (m.commandId + 1) (by omega))
      (m.commandId + 1) (some (Callback.mk serial .getStreamTypes))
    have hnext : (m.funCallbackMap.set (m.commandId + 1)
        (some (Callback.mk serial .getStreamTypes))).get? (m.commandId + 2) = none := by
      rw [Map.get?_set_of_ne _ _ (by omega)]
      exact hfresh (m.commandId + 2) (by omega)
    have hsecond := CommandCallbackManager.callbacks_set
      (m := ⟨m.commandId + 1, m.funCallbackMap.set (m.commandId + 1)
        (some (Callback.mk serial .getStreamTypes))⟩) hnext (m.commandId + 2)
      (some (Callback.mk serial .getStreamTypes))
    exact hsecond.trans (hfirst.cons _)

end Registers

theorem registers_register {m : CommandCallbackManager Callback} (hn : 0 ≤ m.commandId)
    (hlt : m.commandId < 2147483646) (serial epoch : Nat) (op : Operation) (callback : Bool) :
    let r := register m op (if callback then some ⟨serial, op⟩ else none)
    Registers m r.1 ⟨serial, epoch, op, callback, r.2⟩ := by
  by_cases hop : op = .getStreamTypes
  · subst hop
    cases callback with
    | true =>
      simp only [if_true, register_twice hn hlt]
      exact registers_twice
    | false =>
      have h : Operation.getStreamTypes = .getStreamTypes ↔ false = false := iff_of_true rfl rfl
      simp only [Bool.false_eq_true, if_false, register_once hn hlt (iff_of_true rfl rfl)]
      exact registers_once h
  · cases callback with
    | true =>
      have h : op = .getStreamTypes ↔ true = false := iff_of_false hop Bool.noConfusion
      simp only [if_true, register_once hn hlt (iff_of_false hop (Option.some_ne_none _))]
      exact registers_once h
    | false =>
      simp only [Bool.false_eq_true, if_false, register_none hop]
      exact registers_none hop

namespace Client

/-- Since the service last became unavailable every callback has a number of its own. -/
structure Numbered (c : Client) : Prop where
  nonneg : 0 ≤ c.cmdCallbackMgr.commandId
  sent : ∀ r ∈ c.sent, r ∈ c.asked
  serial : ∀ r ∈ c.asked, c.asked[r.serial]? = some r
  epochs : ∀ r ∈ c.asked, r.epoch ≤ c.epoch
  number : ∀ r ∈ c.asked, ¬ r.Numbers r.cmdId → r.cmdId = INVALID_COMMAND_ID
  range : ∀ r ∈ c.asked, r.epoch = c.epoch → ∀ k, r.Numbers k →
    0 < k ∧ k ≤ c.cmdCallbackMgr.commandId
  fresh : ∀ k, c.cmdCallbackMgr.commandId < k → c.cmdCallbackMgr.funCallbackMap.get? k = none
  separate : ∀ r ∈ c.asked, ∀ r' ∈ c.asked, r.epoch = c.epoch → r'.epoch = c.epoch →
    ∀ k, r.Numbers k → r'.Numbers k → r = r'
  waiting : ∀ k callback, c.cmdCallbackMgr.funCallbackMap.get? k = some (some callback) →
    ∃ r ∈ c.asked, r.epoch = c.epoch ∧ r.callback = true ∧ r.Numbers k ∧ callback = r.passed
  entry : ∀ r ∈ c.asked, r.epoch = c.epoch → r.callback = true →
    ∀ op, c.callbackMap.get? r.cmdId = some op → op = r.op

theorem numbers_cmdId {r : Request} (h : r.callback = true) : r.Numbers r.cmdId :=
  .inl ⟨.inl h, rfl⟩

theorem numbered_new : new.Numbered := by
  refine ⟨le_refl _, ?_, ?_, ?_, ?_, ?_, fun k _ => rfl, ?_, ?_, ?_⟩
  · exact fun r hr => (List.not_mem_nil hr).elim
  · exact fun r hr => (List.not_mem_nil hr).elim
  · exact fun r hr => (List.not_mem_nil hr).elim
  · exact fun r hr => (List.not_mem_nil hr).elim
  · exact fun r hr => (List.not_mem_nil hr).elim
  · exact fun r hr => (List.not_mem_nil hr).elim
  · intro k callback hget
    cases hget
  · exact fun r hr => (List.not_mem_nil hr).elim

/-- What a request leaves. -/
theorem request_eq {c : Client} (h : c.Numbered) (hlt : c.cmdCallbackMgr.commandId < 2147483646)
    (op : Operation) (callback : Bool) :
    c.request op callback = c ∨ ∃ (r : Request) (m : CommandCallbackManager Callback),
      r.serial = c.asked.length ∧ r.epoch = c.epoch ∧ r.op = op ∧
        Registers c.cmdCallbackMgr m r ∧
        c.request op callback = { c with
          cmdCallbackMgr := m
          callbackMap := c.callbackMap.set r.cmdId op
          sent := c.sent ++ [r]
          asked := c.asked ++ [r] } := by
  rw [request]
  split
  · exact .inl rfl
  · exact .inr ⟨_, _, rfl, rfl, rfl,
      registers_register h.nonneg hlt c.asked.length c.epoch op callback, rfl⟩

theorem Numbered.request {c : Client} (h : c.Numbered)
    (hlt : c.cmdCallbackMgr.commandId < 2147483646) (op : Operation) (callback : Bool) :
    (c.request op callback).Numbered := by
  rcases request_eq h hlt op callback with heq | ⟨r, m, hserial, hepoch, rfl, hreg, heq⟩
  · rw [heq]
    exact h
  have hmem {r' : Request} : r' ∈ c.asked ++ [r] ↔ r' ∈ c.asked ∨ r' = r := by simp
  rw [heq]
  refine ⟨h.nonneg.trans hreg.le, ?_, ?_, ?_, ?_, ?_, ?_, ?_, ?_, ?_⟩
  · intro r' hr'
    rcases List.mem_append.mp hr' with hr' | hr'
    · exact hmem.mpr (.inl (h.sent r' hr'))
    · exact hmem.mpr (.inr (List.mem_singleton.mp hr'))
  · intro r' hr'
    rcases hmem.mp hr' with hr' | rfl
    · have hget := h.serial r' hr'
      have hlt := (List.getElem?_eq_some_iff.mp hget).1
      simp only [List.getElem?_append_left hlt, hget]
    · simp only [hserial, List.getElem?_concat_length]
  · intro r' hr'
    rcases hmem.mp hr' with hr' | rfl
    · exact h.epochs r' hr'
    · exact hepoch.le
  · intro r' hr'
    rcases hmem.mp hr' with hr' | rfl
    · exact h.number r' hr'
    · exact hreg.number
  · intro r' hr' hnow k hk
    rcases hmem.mp hr' with hr' | rfl
    · have hrange := h.range r' hr' hnow k hk
      exact ⟨hrange.1, hrange.2.trans hreg.le⟩
    · have hrange := hreg.range k hk
      exact ⟨by have := h.nonneg; omega, hrange.2⟩
  · intro k hk
    simp only at hk ⊢
    have hout : ¬ r.Numbers k := fun hnum => by
      have := (hreg.range k hnum).2
      omega
    rw [hreg.kept k hout]
    exact h.fresh k (by have := hreg.le; omega)
  · intro r' hr' r'' hr'' hnow hnow' k hk hk'
    rcases hmem.mp hr' with hin | heq
    · rcases hmem.mp hr'' with hin' | heq'
      · exact h.separate r' hin r'' hin' hnow hnow' k hk hk'
      · have hold := (h.range r' hin hnow k hk).2
        have hnew := (hreg.range k (heq' ▸ hk')).1
        omega
    · rcases hmem.mp hr'' with hin' | heq'
      · have hold := (h.range r'' hin' hnow' k hk').2
        have hnew := (hreg.range k (heq ▸ hk)).1
        omega
      · exact heq.trans heq'.symm
  · intro k callback hget
    by_cases hnum : r.Numbers k
    · have hadded := hreg.added k hnum
      simp only [hadded] at hget
      cases hcb : r.callback with
      | true =>
        simp only [hcb, if_true] at hget
        exact ⟨r, hmem.mpr (.inr rfl), hepoch, hcb, hnum, (Option.some.inj (Option.some.inj hget)).symm⟩
      | false =>
        simp only [hcb] at hget
        cases hget
    · simp only [hreg.kept k hnum] at hget
      obtain ⟨r', hr', hrest⟩ := h.waiting k callback hget
      exact ⟨r', hmem.mpr (.inl hr'), hrest⟩
  · intro r' hr' hnow hcb op hget
    simp only [Map.get?_set] at hget
    rcases hmem.mp hr' with hr' | rfl
    · split at hget
      · rename_i hsame
        -- a request of this epoch has another number, and none has the invalid one
        exfalso
        have hold := h.range r' hr' hnow _ (numbers_cmdId hcb)
        by_cases hnum : r.Numbers r.cmdId
        · have hnew := (hreg.range _ hnum).1
          omega
        · have hinvalid := hreg.number hnum
          simp only [INVALID_COMMAND_ID] at hinvalid
          omega
      · exact h.entry r' hr' hnow hcb op hget
    · rw [if_pos rfl] at hget
      exact (Option.some.inj hget).symm

/-- An answer drops what is under a number. -/
theorem Numbered.drop {c c' : Client} (h : c.Numbered) (hasked : c'.asked = c.asked)
    (hepoch : c'.epoch = c.epoch) (hsent : ∀ r ∈ c'.sent, r ∈ c.sent)
    (hid : c'.cmdCallbackMgr.commandId = c.cmdCallbackMgr.commandId)
    (hget : ∀ k v, c'.cmdCallbackMgr.funCallbackMap.get? k = some v →
      c.cmdCallbackMgr.funCallbackMap.get? k = some v)
    (hentry : ∀ k op, c'.callbackMap.get? k = some op → c.callbackMap.get? k = some op) :
    c'.Numbered where
  nonneg := hid ▸ h.nonneg
  sent := fun r hr => hasked ▸ h.sent r (hsent r hr)
  serial := by rw [hasked]; exact h.serial
  epochs := by rw [hasked, hepoch]; exact h.epochs
  number := by rw [hasked]; exact h.number
  range := by rw [hasked, hepoch, hid]; exact h.range
  fresh := by
    intro k hk
    rw [hid] at hk
    cases hk' : c'.cmdCallbackMgr.funCallbackMap.get? k with
    | none => rfl
    | some v =>
      have hnone := h.fresh k hk
      rw [hget k v hk'] at hnone
      cases hnone
  separate := by rw [hasked, hepoch]; exact h.separate
  waiting := by
    rw [hasked, hepoch]
    exact fun k callback hk => h.waiting k callback (hget k _ hk)
  entry := by
    rw [hasked, hepoch]
    exact fun r hr hnow hcb op hk => h.entry r hr hnow hcb op (hentry _ op hk)

theorem Numbered.refuse {c : Client} (h : c.Numbered) (r : Request) : (c.refuse r).Numbered := by
  have hfound := CommandCallbackManager.get?_of_findAndRemove c.cmdCallbackMgr r.cmdId
  refine h.drop rfl rfl (fun _ => id) ?_ ?_ ?_
  · rw [Client.refuse]
    split
    · exact (hfound 0).1
    · rfl
  · intro k v hget
    rw [Client.refuse] at hget
    split at hget
    · rcases (hfound k).2 with hkeep | ⟨-, hnone⟩
      · exact hkeep.symm.trans hget
      · rw [hnone] at hget
        cases hget
    · exact hget
  · intro k op hget
    simp only [Client.refuse, Map.get?_erase] at hget
    split at hget
    · cases hget
    · exact hget

/-- What the interface is told of a result, and the callback that is found. -/
def told (c : Client) (r : Request) : Client :=
  { c with
    cmdCallbackMgr := (c.cmdCallbackMgr.findAndRemoveCallback r.cmdId).1
    callbackMap := c.callbackMap.erase r.cmdId }

/-- A result is not known, executes no callback or executes the one that is found. -/
theorem result_cases {c c' : Client} {r : Request} (hs : c.result r = some c') :
    c.callbackMap.get? r.cmdId = none ∧ c' = c ∨
      (c.cmdCallbackMgr.findAndRemoveCallback r.cmdId).2 = none ∧ c' = c.told r ∨
      ∃ callback, (c.cmdCallbackMgr.findAndRemoveCallback r.cmdId).2 = some callback ∧
        c' = { c.told r with executed := c.executed ++ [(callback.serial, r.serial)] } := by
  rw [result] at hs
  cases hentry : c.callbackMap.get? r.cmdId with
  | none =>
    rw [hentry] at hs
    exact .inl ⟨rfl, (Option.some.inj hs).symm⟩
  | some op =>
    rw [hentry] at hs
    simp only at hs
    split at hs
    · cases hfound : (c.cmdCallbackMgr.findAndRemoveCallback r.cmdId).2 with
      | none =>
        rw [hfound] at hs
        exact .inr (.inl ⟨rfl, (Option.some.inj hs).symm⟩)
      | some callback =>
        rw [hfound] at hs
        simp only at hs
        split at hs
        · exact .inr (.inr ⟨callback, rfl, (Option.some.inj hs).symm⟩)
        · cases hs
    · cases hs

theorem Numbered.told {c : Client} (h : c.Numbered) (r : Request) : (c.told r).Numbered := by
  have hfound := CommandCallbackManager.get?_of_findAndRemove c.cmdCallbackMgr r.cmdId
  refine h.drop rfl rfl (fun _ => id) (hfound 0).1 ?_ ?_
  · intro k v hget
    rcases (hfound k).2 with hkeep | ⟨-, hnone⟩
    · exact hkeep.symm.trans hget
    · rw [Client.told, hnone] at hget
      cases hget
  · intro k op hget
    simp only [Client.told, Map.get?_erase] at hget
    split at hget
    · cases hget
    · exact hget

theorem Numbered.result {c c' : Client} (h : c.Numbered) {r : Request}
    (hs : c.result r = some c') : c'.Numbered := by
  rcases result_cases hs with ⟨-, rfl⟩ | ⟨-, rfl⟩ | ⟨callback, -, rfl⟩
  · exact h
  · exact h.told r
  · exact (h.told r).drop rfl rfl (fun _ => id) rfl (fun _ _ => id) fun _ _ => id

/-- After a reset no request is of the present epoch. -/
theorem Numbered.reset {c : Client} (h : c.Numbered) :
    Numbered { c with cmdCallbackMgr := c.cmdCallbackMgr.reset, epoch := c.epoch + 1 } := by
  have hnone : ∀ r ∈ c.asked, r.epoch ≠ c.epoch + 1 := fun r hr => by
    have := h.epochs r hr
    omega
  refine ⟨le_refl _, h.sent, h.serial, ?_, h.number, ?_, fun _ _ => rfl, ?_, ?_, ?_⟩
  · exact fun r hr => (h.epochs r hr).trans (Nat.le_succ _)
  · exact fun r hr hnow => absurd hnow (hnone r hr)
  · exact fun r hr _ _ hnow => absurd hnow (hnone r hr)
  · intro k callback hget
    cases hget
  · exact fun r hr hnow => absurd hnow (hnone r hr)

theorem Numbered.erase {c : Client} (h : c.Numbered) (i : Nat) :
    Numbered { c with sent := c.sent.eraseIdx i } :=
  h.drop rfl rfl (fun _ hr => List.mem_of_mem_eraseIdx hr) rfl (fun _ _ => id) fun _ _ => id

/-- What a step does. -/
theorem step_cases {c c' : Client} {l : Label} (hs : c.step l = some c') :
    (∃ op callback, l = .request op callback ∧ c' = c.request op callback) ∨
      (∃ i r, l = .refuse i ∧ c.sent[i]? = some r ∧
        c' = { c with sent := c.sent.eraseIdx i }.refuse r) ∨
      (∃ i r, l = .result i ∧ c.sent[i]? = some r ∧
        { c with sent := c.sent.eraseIdx i }.result r = some c') ∨
      l = .reset ∧ c' = { c with cmdCallbackMgr := c.cmdCallbackMgr.reset, epoch := c.epoch + 1 } := by
  cases l with
  | request op callback => exact .inl ⟨op, callback, rfl, (Option.some.inj hs).symm⟩
  | refuse i =>
    rw [step] at hs
    cases hi : c.sent[i]? with
    | none =>
      rw [hi] at hs
      cases hs
    | some r =>
      rw [hi] at hs
      exact .inr (.inl ⟨i, r, rfl, hi, (Option.some.inj hs).symm⟩)
  | result i =>
    rw [step] at hs
    cases hi : c.sent[i]? with
    | none =>
      rw [hi] at hs
      cases hs
    | some r =>
      rw [hi] at hs
      exact .inr (.inr (.inl ⟨i, r, rfl, hi, hs⟩))
  | reset => exact .inr (.inr (.inr ⟨rfl, (Option.some.inj hs).symm⟩))

theorem Numbered.step {c c' : Client} (h : c.Numbered) {l : Label} (hb : c.Bounded l)
    (hs : c.step l = some c') : c'.Numbered := by
  rcases step_cases hs with ⟨op, callback, rfl, rfl⟩ | ⟨i, r, rfl, -, rfl⟩ | ⟨i, r, rfl, -, hr⟩ |
    ⟨rfl, rfl⟩
  · exact h.request hb op callback
  · exact (h.erase i).refuse r
  · exact (h.erase i).result hr
  · exact h.reset

theorem numbered_of_reachable {c : Client} (h : Reachable step Bounded new c) : c.Numbered :=
  h.invariant numbered_new fun _ _ _ hb hs hinv => hinv.step hb hs

/-- The callback that a request of this epoch finds is its own. -/
theorem Numbered.own {c : Client} (h : c.Numbered) {r : Request} (hr : r ∈ c.asked)
    (hnow : r.epoch = c.epoch) {callback : Callback}
    (hfound : (c.cmdCallbackMgr.findAndRemoveCallback r.cmdId).2 = some callback) :
    r.callback = true ∧ callback = r.passed := by
  obtain ⟨r', hr', hnow', hcb, hnum, rfl⟩ :=
    h.waiting _ _ (CommandCallbackManager.get?_of_found hfound)
  have hrange := (h.range r' hr' hnow' _ hnum).1
  by_cases hown : r.Numbers r.cmdId
  · rw [h.separate r hr r' hr' hnow hnow' _ hown hnum]
    exact ⟨hcb, rfl⟩
  · have hinvalid := h.number r hr hown
    simp only [INVALID_COMMAND_ID] at hinvalid
    omega

/-- An older request finds the callback of another. -/
theorem Numbered.other {c : Client} (h : c.Numbered) {r : Request} (hr : r ∈ c.asked)
    (hold : r.epoch ≠ c.epoch) {callback : Callback}
    (hfound : (c.cmdCallbackMgr.findAndRemoveCallback r.cmdId).2 = some callback) :
    callback.serial ≠ r.serial := by
  obtain ⟨r', hr', hnow', -, -, rfl⟩ :=
    h.waiting _ _ (CommandCallbackManager.get?_of_found hfound)
  intro heq
  have hsame := h.serial r' hr'
  rw [show r'.serial = r.serial from heq, h.serial r hr] at hsame
  rw [Option.some.inj hsame] at hold
  exact hold hnow'

/-- Two requests of the same kind, the service becoming unavailable between them. -/
def lateResult : List Label := [.request .setVolume true, .reset, .request .setVolume true]

/-- The result of a request with a callback that was made since the service last became unavailable
is always told as it should be. Where any result executes a callback, it is the one of its own
request just if the service was available since. -/
theorem late_result_iff (c : Client) (h : Reachable step Bounded new c) {i : Nat} {r : Request}
    (hi : c.sent[i]? = some r) :
    (r.callback = true → r.epoch = c.epoch → (c.step (.result i)).isSome) ∧
      ∀ c' n, c.step (.result i) = some c' → c'.executed = c.executed ++ [(n, r.serial)] →
        (n = r.serial ↔ r.epoch = c.epoch) := by
  have hnumbered := (numbered_of_reachable h).erase i
  have hr : r ∈ c.asked := (numbered_of_reachable h).sent r (List.mem_of_getElem? hi)
  constructor
  · intro hcb hnow
    simp only [step, hi, Client.result]
    cases hentry : c.callbackMap.get? r.cmdId with
    | none => rfl
    | some op =>
      have hop : op = r.op := hnumbered.entry r hr hnow hcb op hentry
      simp only [hop, if_true]
      cases hfound : (c.cmdCallbackMgr.findAndRemoveCallback r.cmdId).2 with
      | none => rfl
      | some callback =>
        have hown := (hnumbered.own hr hnow hfound).2
        simp [hown, Request.passed]
  · intro c' n hs hexec
    simp only [step, hi] at hs
    rcases result_cases hs with ⟨-, rfl⟩ | ⟨-, rfl⟩ | ⟨callback, hfound, rfl⟩
    · exact absurd (congrArg List.length hexec) (by simp)
    · exact absurd (congrArg List.length hexec) (by simp [Client.told])
    · have hn : callback.serial = n :=
        congrArg Prod.fst (List.singleton_inj.mp (List.append_cancel_left hexec))
      rw [← hn]
      constructor
      · intro heq
        by_contra hold
        exact hnumbered.other hr hold hfound heq
      · intro hnow
        rw [(hnumbered.own hr hnow hfound).2]
        rfl

theorem late_result_second : ∃ c c' : Client, c.step (.result 0) = some c' ∧
    c'.executed = c.executed ++ [(1, 0)] ∧ (1 = 0 ↔ 0 = c.epoch) := by
  obtain ⟨c, hc, hstate⟩ := exists_reachable_of_run step Bounded new
    (fun c => (c.sent[0]?, c.executed, (c.step (.result 0)).map Client.executed))
    (some ⟨0, 0, .setVolume, true, 1⟩, [], some [(1, 0)]) lateResult (by decide)
  obtain ⟨hsent, hrest⟩ := Prod.mk.inj hstate
  obtain ⟨hexecuted, hresult⟩ := Prod.mk.inj hrest
  obtain ⟨c', hs, hexec⟩ := Option.map_eq_some_iff.mp hresult
  have hone : c'.executed = c.executed ++ [(1, 0)] := by rw [hexec, hexecuted]; rfl
  exact ⟨c, c', hs, hone, (late_result_iff c hc hsent).2 c' 1 hs hone⟩

end Client

end Commands

end SatComm
