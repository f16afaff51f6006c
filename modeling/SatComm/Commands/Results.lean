import SatComm.Commands.Numbers

/-!
# Requests that wait for late results

Where results from before the service became unavailable come before the next request, every
callback that is executed gets the result of its own request (`own_results`). What is left in the
map besides the requests on their way are the callbacks that `getStreamTypes` added a second time
(`kept_callbacks`): they are dropped when the service becomes unavailable, and not before.
-/

namespace SatComm

namespace Commands

open Assoc Runs

namespace Client

/-- The callbacks of the requests that are not answered. -/
def pending (c : Client) : List Callback :=
  (c.sent.filter fun r => r.callback && r.epoch = c.epoch).map Request.passed

/-- The callbacks of `getStreamTypes`. -/
def leftover (c : Client) : List Callback :=
  (c.asked.filter fun r => r.doubled && r.epoch = c.epoch).map Request.passed

/-- Every request waits for its own result. -/
structure Matched (c : Client) : Prop where
  numbered : c.Numbered
  late : (∀ r ∈ c.sent, r.epoch = c.epoch) ∨ c.cmdCallbackMgr = .new
  waits : ∀ r ∈ c.sent, r.callback = true → r.epoch = c.epoch →
    c.cmdCallbackMgr.funCallbackMap.get? r.cmdId = some (some r.passed) ∧
      c.callbackMap.get? r.cmdId = some r.op
  serials : (c.sent.map Request.serial).Nodup
  own : ∀ p ∈ c.executed, p.1 = p.2
  once : (c.executed.map Prod.fst).Nodup
  answered : ∀ p ∈ c.executed, p.1 < c.asked.length ∧ ∀ r ∈ c.sent, r.serial ≠ p.1
  kept : c.cmdCallbackMgr.callbacks.Perm (c.pending ++ c.leftover)

theorem serial_lt {c : Client} (h : c.Numbered) {r : Request} (hr : r ∈ c.asked) :
    r.serial < c.asked.length := (List.getElem?_eq_some_iff.mp (h.serial r hr)).1

theorem matched_new : new.Matched := by
  refine ⟨numbered_new, .inr rfl, ?_, List.nodup_nil, ?_, List.nodup_nil, ?_, List.Perm.refl _⟩
  · exact fun r hr => (List.not_mem_nil hr).elim
  · exact fun p hp => (List.not_mem_nil hp).elim
  · exact fun p hp => (List.not_mem_nil hp).elim

theorem perm_append_append {α : Type*} {a b l p q : List α} (h : l.Perm (p ++ q)) :
    (a ++ b ++ l).Perm (p ++ a ++ (q ++ b)) := by
  rw [← Multiset.coe_eq_coe] at h ⊢
  simp only [← Multiset.coe_add] at h ⊢
  rw [h]
  abel

theorem Matched.request {c : Client} (h : c.Matched)
    (hlt : c.cmdCallbackMgr.commandId < 2147483646) (hnow : ∀ r ∈ c.sent, r.epoch = c.epoch)
    (op : Operation) (callback : Bool) : (c.request op callback).Matched := by
  have hnum := h.numbered
  have hnumbered := hnum.request hlt op callback
  rcases request_eq hnum hlt op callback with heq | ⟨r, m, hserial, hepoch, rfl, hreg, heq⟩
  · rw [heq]
    exact h
  rw [heq] at hnumbered ⊢
  have hnumber : r.cmdId = INVALID_COMMAND_ID ∨ c.cmdCallbackMgr.commandId < r.cmdId := by
    by_cases hown : r.Numbers r.cmdId
    · exact .inr (hreg.range _ hown).1
    · exact .inl (hreg.number hown)
  refine ⟨hnumbered, .inl ?_, ?_, ?_, h.own, h.once, ?_, ?_⟩
  · intro r' hr'
    rcases List.mem_append.mp hr' with hr' | hr'
    · exact hnow r' hr'
    · rw [List.mem_singleton.mp hr']
      exact hepoch
  · intro r' hr' hcb hnow'
    rcases List.mem_append.mp hr' with hin | hin
    · have hwaits := h.waits r' hin hcb hnow'
      have hrange := hnum.range r' (hnum.sent r' hin) hnow' _ (numbers_cmdId hcb)
      have hout : ¬ r.Numbers r'.cmdId := fun hk => by
        have := (hreg.range _ hk).1
        omega
      have hne : r'.cmdId ≠ r.cmdId := by
        simp only [INVALID_COMMAND_ID] at hnumber
        omega
      rw [hreg.kept _ hout, Map.get?_set_of_ne _ _ hne]
      exact hwaits
    · rw [List.mem_singleton.mp hin] at hcb ⊢
      have hadded := hreg.added _ (numbers_cmdId hcb)
      rw [hcb, if_pos rfl] at hadded
      exact ⟨hadded, Map.get?_set_self _ _ _⟩
  · rw [List.map_append]
    apply h.serials.append (List.nodup_singleton _)
    intro n hn hnew
    obtain ⟨r', hr', rfl⟩ := List.mem_map.mp hn
    have hlast : r'.serial = r.serial := List.mem_singleton.mp hnew
    have := serial_lt hnum (hnum.sent r' hr')
    omega
  · intro p hp
    obtain ⟨hlt, hne⟩ := h.answered p hp
    refine ⟨by simp only [List.length_append]; omega, ?_⟩
    intro r' hr'
    rcases List.mem_append.mp hr' with hr' | hr'
    · exact hne r' hr'
    · rw [List.mem_singleton.mp hr', hserial]
      omega
  · have hfresh := hreg.callbacks hnum.fresh
    refine hfresh.trans ?_
    have hpending : pending { c with
        cmdCallbackMgr := m
        callbackMap := c.callbackMap.set r.cmdId r.op
        sent := c.sent ++ [r]
        asked := c.asked ++ [r] } = c.pending ++ if r.callback then [r.passed] else [] := by
      cases hcb : r.callback <;> simp [pending, List.filter_append, hcb, hepoch]
    have hleftover : leftover { c with
        cmdCallbackMgr := m
        callbackMap := c.callbackMap.set r.cmdId r.op
        sent := c.sent ++ [r]
        asked := c.asked ++ [r] } = c.leftover ++ if r.doubled then [r.passed] else [] := by
      cases hd : r.doubled <;> simp [leftover, List.filter_append, hd, hepoch]
    rw [hpending, hleftover]
    exact perm_append_append h.kept

/-- A request of this epoch with a callback has its number for itself. -/
theorem Matched.ne_cmdId {c : Client} (h : c.Matched) {r r' : Request} (hr : r ∈ c.sent)
    (hr' : r' ∈ c.sent) (hcb : r'.callback = true) (hnow : r'.epoch = c.epoch)
    (hne : r'.serial ≠ r.serial) : r'.cmdId ≠ r.cmdId := by
  intro heq
  have hnum := h.numbered
  have hrange := hnum.range r' (hnum.sent r' hr') hnow _ (numbers_cmdId hcb)
  rcases h.late with hall | hnew
  · by_cases hown : r.Numbers r.cmdId
    · have hsame := hnum.separate r' (hnum.sent r' hr') r (hnum.sent r hr) hnow (hall r hr) _
        (numbers_cmdId hcb) (heq ▸ hown)
      exact hne (congrArg Request.serial hsame)
    · have hinvalid := hnum.number r (hnum.sent r hr) hown
      simp only [INVALID_COMMAND_ID] at hinvalid
      omega
  · have hwaits := (h.waits r' hr' hcb hnow).1
    rw [hnew] at hwaits
    cases hwaits

/-- What an answer to a request does. -/
structure Answers (c c' : Client) (i : Nat) (r : Request) : Prop where
  sent : c'.sent = c.sent.eraseIdx i
  asked : c'.asked = c.asked
  epoch : c'.epoch = c.epoch
  others : ∀ k, k ≠ r.cmdId →
    c'.cmdCallbackMgr.funCallbackMap.get? k = c.cmdCallbackMgr.funCallbackMap.get? k ∧
      c'.callbackMap.get? k = c.callbackMap.get? k
  new : c.cmdCallbackMgr = .new → c'.cmdCallbackMgr = .new
  callbacks : c.cmdCallbackMgr.callbacks.Perm
    ((if r.callback && r.epoch = c.epoch then [r.passed] else []) ++ c'.cmdCallbackMgr.callbacks)
  executed : c'.executed = c.executed ∨ c'.executed = c.executed ++ [(r.serial, r.serial)]

theorem Matched.answer {c c' : Client} (h : c.Matched) {i : Nat} {r : Request}
    (hi : c.sent[i]? = some r) (hnum : c'.Numbered) (ha : c.Answers c' i r) : c'.Matched := by
  have hr := List.mem_of_getElem? hi
  obtain ⟨hlt, rfl⟩ := List.getElem?_eq_some_iff.mp hi
  have hperm : (c.sent[i] :: c'.sent).Perm c.sent := by
    rw [ha.sent]
    exact List.getElem_cons_eraseIdx_perm hlt
  have hsub : ∀ r' ∈ c'.sent, r' ∈ c.sent :=
    fun r' hr' => hperm.mem_iff.mp (List.mem_cons_of_mem _ hr')
  have hserials : (c.sent[i].serial :: c'.sent.map Request.serial).Nodup :=
    (hperm.map Request.serial).nodup_iff.mpr h.serials
  have hne : ∀ r' ∈ c'.sent, r'.serial ≠ c.sent[i].serial := by
    intro r' hr' heq
    apply (List.nodup_cons.mp hserials).1
    rw [← heq]
    exact List.mem_map_of_mem hr'
  refine ⟨hnum, ?_, ?_, (List.nodup_cons.mp hserials).2, ?_, ?_, ?_, ?_⟩
  · rcases h.late with hall | hnew
    · left
      intro r' hr'
      rw [ha.epoch]
      exact hall r' (hsub r' hr')
    · exact .inr (ha.new hnew)
  · intro r' hr' hcb hnow
    rw [ha.epoch] at hnow
    have hother := ha.others _ (h.ne_cmdId hr (hsub r' hr') hcb hnow (hne r' hr'))
    rw [hother.1, hother.2]
    exact h.waits r' (hsub r' hr') hcb hnow
  · intro p hp
    rcases ha.executed with hexec | hexec
    · exact h.own p (hexec ▸ hp)
    · rw [hexec] at hp
      rcases List.mem_append.mp hp with hp | hp
      · exact h.own p hp
      · rw [List.mem_singleton.mp hp]
  · rcases ha.executed with hexec | hexec
    · rw [hexec]
      exact h.once
    · rw [hexec, List.map_append]
      apply h.once.append (List.nodup_singleton _)
      intro n hn hnew
      obtain ⟨p, hp, rfl⟩ := List.mem_map.mp hn
      exact (h.answered p hp).2 _ hr (List.mem_singleton.mp hnew).symm
  · intro p hp
    rw [ha.asked]
    have hcases : p ∈ c.executed ∨ p = (c.sent[i].serial, c.sent[i].serial) := by
      rcases ha.executed with hexec | hexec
      · exact .inl (hexec ▸ hp)
      · rw [hexec] at hp
        rcases List.mem_append.mp hp with hp | hp
        · exact .inl hp
        · exact .inr (List.mem_singleton.mp hp)
    rcases hcases with hp | rfl
    · obtain ⟨hlt, hother⟩ := h.answered p hp
      exact ⟨hlt, fun r' hr' => hother r' (hsub r' hr')⟩
    · exact ⟨serial_lt h.numbered (h.numbered.sent _ hr), hne⟩
  · have hpending : c.pending.Perm
        ((if c.sent[i].callback && c.sent[i].epoch = c.epoch then [c.sent[i].passed] else []) ++
          c'.pending) := by
      have hfilter := (hperm.symm.filter fun r => r.callback && r.epoch = c.epoch).map
        Request.passed
      rw [List.filter_cons] at hfilter
      rw [pending, pending, ha.epoch]
      split at hfilter <;> rename_i hcase <;> simpa [hcase] using hfilter
    have hleftover : c'.leftover = c.leftover := by rw [leftover, leftover, ha.asked, ha.epoch]
    have hboth := (ha.callbacks.symm.trans h.kept).trans (hpending.append_right c.leftover)
    rw [List.append_assoc] at hboth
    rw [hleftover]
    exact (List.perm_append_left_iff _).mp hboth

/-- What a request finds when it is answered. -/
theorem Matched.found {c : Client} (h : c.Matched) {r : Request} (hr : r ∈ c.sent) :
    (c.cmdCallbackMgr.findAndRemoveCallback r.cmdId).2 =
      if r.callback && r.epoch = c.epoch then some r.passed else none := by
  have hnum := h.numbered
  split
  · rename_i hcase
    rw [Bool.and_eq_true, decide_eq_true_eq] at hcase
    have hrange := hnum.range r (hnum.sent r hr) hcase.2 _ (numbers_cmdId hcase.1)
    rw [CommandCallbackManager.found_of_get? hrange.1 (h.waits r hr hcase.1 hcase.2).1]
  · rename_i hcase
    cases hfound : (c.cmdCallbackMgr.findAndRemoveCallback r.cmdId).2 with
    | none => rfl
    | some callback =>
      exfalso
      have hnow : r.epoch = c.epoch := by
        rcases h.late with hall | hnew
        · exact hall r hr
        · have hget := CommandCallbackManager.get?_of_found hfound
          rw [hnew] at hget
          cases hget
      have hown := (hnum.own (hnum.sent r hr) hnow hfound).1
      simp [hown, hnow] at hcase

theorem findAndRemove_new (cmdId : Int) :
    ((CommandCallbackManager.new : CommandCallbackManager Callback).findAndRemoveCallback
      cmdId).1 = .new := by
  rw [CommandCallbackManager.findAndRemoveCallback]
  split <;> rfl

theorem Matched.others {c : Client} {r : Request} {k : Int} (hk : k ≠ r.cmdId) :
    (c.told r).cmdCallbackMgr.funCallbackMap.get? k = c.cmdCallbackMgr.funCallbackMap.get? k ∧
      (c.told r).callbackMap.get? k = c.callbackMap.get? k := by
  have hfound := (CommandCallbackManager.get?_of_findAndRemove c.cmdCallbackMgr r.cmdId k).2
  refine ⟨?_, by simp [told, hk]⟩
  rcases hfound with hkeep | ⟨heq, -⟩
  · exact hkeep
  · exact absurd heq hk

theorem Matched.callbacks {c : Client} (h : c.Matched) {r : Request} (hr : r ∈ c.sent) :
    c.cmdCallbackMgr.callbacks.Perm ((if r.callback && r.epoch = c.epoch then [r.passed] else []) ++
      (c.told r).cmdCallbackMgr.callbacks) := by
  have hperm := CommandCallbackManager.callbacks_findAndRemove c.cmdCallbackMgr r.cmdId
  rw [h.found hr] at hperm
  split at hperm <;> rename_i hcase
  · rw [if_pos hcase]
    exact hperm
  · rw [if_neg hcase]
    exact hperm

theorem Matched.refuse {c : Client} (h : c.Matched) {i : Nat} {r : Request}
    (hi : c.sent[i]? = some r) : ({ c with sent := c.sent.eraseIdx i }.refuse r).Matched := by
  have hr := List.mem_of_getElem? hi
  apply h.answer hi ((h.numbered.erase i).refuse r)
  cases hcb : r.callback with
  | true =>
    have heq : { c with sent := c.sent.eraseIdx i }.refuse r =
        { c with sent := c.sent.eraseIdx i }.told r := by simp [Client.refuse, told, hcb]
    rw [heq]
    exact ⟨rfl, rfl, rfl, fun k hk => Matched.others hk,
      fun hnew => by simp [told, hnew, findAndRemove_new], h.callbacks hr, .inl rfl⟩
  | false =>
    refine ⟨rfl, rfl, rfl, fun k hk => ?_, fun hnew => ?_, ?_, .inl rfl⟩
    · simp [Client.refuse, hcb, hk]
    · simp [Client.refuse, hcb, hnew]
    · simp [Client.refuse, hcb]

theorem Matched.result {c c' : Client} (h : c.Matched) {i : Nat} {r : Request}
    (hi : c.sent[i]? = some r)
    (hs : { c with sent := c.sent.eraseIdx i }.result r = some c') : c'.Matched := by
  have hr := List.mem_of_getElem? hi
  apply h.answer hi ((h.numbered.erase i).result hs)
  rcases result_cases hs with ⟨hnone, rfl⟩ | ⟨-, rfl⟩ | ⟨callback, hfound, rfl⟩
  · refine ⟨rfl, rfl, rfl, fun k hk => ⟨rfl, rfl⟩, id, ?_, .inl rfl⟩
    split
    · rename_i hcase
      rw [Bool.and_eq_true, decide_eq_true_eq] at hcase
      have hentry := (h.waits r hr hcase.1 hcase.2).2
      rw [show c.callbackMap.get? r.cmdId = none from hnone] at hentry
      cases hentry
    · exact List.Perm.refl _
  · exact ⟨rfl, rfl, rfl, fun k hk => Matched.others hk,
      fun hnew => by simp [told, hnew, findAndRemove_new], h.callbacks hr, .inl rfl⟩
  · have hown := h.found hr
    rw [show (c.cmdCallbackMgr.findAndRemoveCallback r.cmdId).2 = some callback from hfound] at hown
    split at hown
    · rw [Option.some.inj hown]
      exact ⟨rfl, rfl, rfl, fun k hk => Matched.others hk,
        fun hnew => by simp [told, hnew, findAndRemove_new], h.callbacks hr, .inr rfl⟩
    · cases hown

theorem Matched.reset {c : Client} (h : c.Matched) :
    Matched { c with cmdCallbackMgr := c.cmdCallbackMgr.reset, epoch := c.epoch + 1 } := by
  have hnone : ∀ r ∈ c.asked, r.epoch ≠ c.epoch + 1 := fun r hr => by
    have := h.numbered.epochs r hr
    omega
  have hsent : ∀ r ∈ c.sent, r.epoch ≠ c.epoch + 1 := fun r hr => hnone r (h.numbered.sent r hr)
  refine ⟨h.numbered.reset, .inr rfl, ?_, h.serials, h.own, h.once, h.answered, ?_⟩
  · exact fun r hr _ hnow => absurd hnow (hsent r hr)
  · have hpending : pending { c with
        cmdCallbackMgr := c.cmdCallbackMgr.reset, epoch := c.epoch + 1 } = [] := by
      rw [pending, List.map_eq_nil_iff, List.filter_eq_nil_iff]
      intro r hr
      simp [hsent r hr]
    have hleftover : leftover { c with
        cmdCallbackMgr := c.cmdCallbackMgr.reset, epoch := c.epoch + 1 } = [] := by
      rw [leftover, List.map_eq_nil_iff, List.filter_eq_nil_iff]
      intro r hr
      simp [hnone r hr]
    rw [hpending, hleftover]
    exact List.Perm.refl _

theorem Matched.step {c c' : Client} (h : c.Matched) {l : Label} (hpaced : c.Paced l)
    (hs : c.step l = some c') : c'.Matched := by
  rcases step_cases hs with ⟨op, callback, rfl, rfl⟩ | ⟨i, r, rfl, hi, rfl⟩ | ⟨i, r, rfl, hi, hr⟩ |
    ⟨rfl, rfl⟩
  · exact h.request hpaced.1 hpaced.2 op callback
  · exact h.refuse hi
  · exact h.result hi hr
  · exact h.reset

theorem matched_of_reachable {c : Client} (h : Reachable step Paced new c) : c.Matched :=
  h.invariant matched_new fun _ _ _ hpaced hs hinv => hinv.step hpaced hs

/-- Every callback gets the result of its own request, and once. The result of a request executes
its callback if it comes while the service is available, and executes none if it comes later. -/
theorem own_results (c : Client) (h : Reachable step Paced new c) :
    (∀ p ∈ c.executed, p.1 = p.2) ∧ (c.executed.map Prod.fst).Nodup ∧
      ∀ i r c', c.sent[i]? = some r → c.step (.result i) = some c' →
        c'.executed = if r.callback && r.epoch = c.epoch then
          c.executed ++ [(r.serial, r.serial)] else c.executed := by
  have hmatched := matched_of_reachable h
  refine ⟨hmatched.own, hmatched.once, ?_⟩
  intro i r c' hi hs
  have hr := List.mem_of_getElem? hi
  have hfound := hmatched.found hr
  simp only [Client.step, hi] at hs
  rcases result_cases hs with ⟨hnone, rfl⟩ | ⟨hnone, rfl⟩ | ⟨callback, hsome, rfl⟩
  · split
    · rename_i hcase
      rw [Bool.and_eq_true, decide_eq_true_eq] at hcase
      have hentry := (hmatched.waits r hr hcase.1 hcase.2).2
      rw [show c.callbackMap.get? r.cmdId = none from hnone] at hentry
      cases hentry
    · rfl
  · rw [show (c.cmdCallbackMgr.findAndRemoveCallback r.cmdId).2 = none from hnone] at hfound
    split at hfound
    · cases hfound
    · rename_i hcase
      rw [if_neg hcase]
      rfl
  · rw [show (c.cmdCallbackMgr.findAndRemoveCallback r.cmdId).2 = some callback from hsome]
      at hfound
    split at hfound
    · rename_i hcase
      rw [if_pos hcase, Option.some.inj hfound]
      rfl
    · cases hfound

theorem own_results_first : ∃ c : Client, c.sent = [⟨0, 0, .setVolume, true, 1⟩] ∧
    (∀ p ∈ c.executed, p.1 = p.2) ∧ ∀ c', c.step (.result 0) = some c' →
      c'.executed = c.executed ++ [(0, 0)] := by
  obtain ⟨c, hc, hstate⟩ := exists_reachable_of_run step Paced new
    (fun c => (c.sent, c.epoch)) ([⟨0, 0, .setVolume, true, 1⟩], 0)
    [.request .setVolume true, .request .getStreamTypes true, .result 1] (by decide)
  obtain ⟨hsent, hepoch⟩ := Prod.mk.inj hstate
  have hresults := own_results c hc
  refine ⟨c, hsent, hresults.1, ?_⟩
  intro c' hs
  have hexec := hresults.2.2 0 _ c' (by rw [hsent]; rfl) hs
  simpa [hepoch] using hexec

/-- The map holds the callbacks of the requests on their way and one more for every `getStreamTypes`
since the service last became unavailable. -/
theorem kept_callbacks (c : Client) (h : Reachable step Paced new c) :
    c.cmdCallbackMgr.callbacks.Perm (c.pending ++ c.leftover) := (matched_of_reachable h).kept

theorem kept_callbacks_getStreamTypes : ∃ c : Client, c.sent = [] ∧
    c.cmdCallbackMgr.callbacks.Perm [⟨0, .getStreamTypes⟩] := by
  obtain ⟨c, hc, hstate⟩ := exists_reachable_of_run step Paced new
    (fun c => (c.sent, c.pending ++ c.leftover)) ([], [⟨0, .getStreamTypes⟩])
    [.request .getStreamTypes true, .request .getDevices true, .result 0, .result 0] (by decide)
  obtain ⟨hsent, hkept⟩ := Prod.mk.inj hstate
  exact ⟨c, hsent, hkept ▸ kept_callbacks c hc⟩

end Client

end Commands

end SatComm
