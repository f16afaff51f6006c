import SatComm.Tel.Active

/-!
# What a request leaves alone

Hold is to change the call of a phone with an index, and the other call control requests calls of
one phone. But `holdCall` takes any active call whose index is not zero, the answer of a waiting
call puts the active calls of both phones on hold and activates the last call with its index, and
`resumeBackgroundCalls` resumes a call of any phone. `changeCallState` writes to the first call with
the index and the phone of the call it is given, so a request may do this without any effect.

Nothing is assumed of the list of calls but that equal addresses are the same object.
-/

namespace SatComm

namespace Tel

open Lookup CallInfo

namespace CallManager

/-- The requests that only move calls between states. -/
inductive Control
  | hold (phoneId callIndex : Int)
  | answer (phoneId callIndex : Int)
  | hangupForegroundResumeBackground (phoneId : Int)
  | hangupWaitingOrBackground (phoneId : Int)
  | resume (phoneId callIndex : Int)
  | swap (callToHoldIndex phoneId callToActivateIndex : Int)
deriving DecidableEq, Repr

def Control.request : Control → Request
  | hold phoneId callIndex => .hold phoneId callIndex
  | answer phoneId callIndex => .answer phoneId callIndex
  | hangupForegroundResumeBackground phoneId => .hangupForegroundResumeBackground phoneId
  | hangupWaitingOrBackground phoneId => .hangupWaitingOrBackground phoneId
  | resume phoneId callIndex => .resume phoneId callIndex
  | swap callToHoldIndex phoneId callToActivateIndex =>
    .swap callToHoldIndex phoneId callToActivateIndex

/-- The keys of the calls that a request is to leave alone. -/
def Control.Spares : Control → Int × Int → Prop
  | hold phoneId callIndex, k => k ≠ (callIndex, phoneId)
  | answer phoneId _, k => k.2 ≠ phoneId
  | hangupForegroundResumeBackground phoneId, k => k.2 ≠ phoneId
  | hangupWaitingOrBackground phoneId, k => k.2 ≠ phoneId
  | resume phoneId _, k => k.2 ≠ phoneId
  | swap _ phoneId _, k => k.2 ≠ phoneId

/-- Every call keeps its index and its phone, and where `K` holds of these, its state. -/
def Keeps (K : Int × Int → Prop) (calls calls' : List CallInfo) : Prop :=
  List.Forall₂ (fun a b => b.key = a.key ∧ (K a.key → b.callState = a.callState)) calls calls'

/-- The request leaves the calls alone that it is to leave alone. -/
def Frames (m : CallManager) (control : Control) : Prop :=
  Keeps control.Spares m.calls (m.serve control.request).calls

/-- Equal addresses are the same object. -/
def Objects (calls : List CallInfo) : Prop :=
  ∀ a ∈ calls, ∀ b ∈ calls, a.address = b.address → a = b

/-- What `changeCallState` would write for `call` is there already. -/
def Idles (state : CallState) (calls : List CallInfo) (call : CallInfo) : Prop :=
  ∀ found, first key call.key calls = some found → found.callState = state

/-! ## Keeping -/

variable {K : Int × Int → Prop} {calls calls' calls'' : List CallInfo}

theorem keeps_map_iff {f : CallInfo → CallInfo} :
    Keeps K calls (calls.map f) ↔
      ∀ a ∈ calls, (f a).key = a.key ∧ (K a.key → (f a).callState = a.callState) := by
  rw [Keeps, List.forall₂_map_right_iff, List.forall₂_same]

theorem Keeps.refl (calls : List CallInfo) : Keeps K calls calls := by
  rw [Keeps, List.forall₂_same]
  exact fun a _ => ⟨rfl, fun _ => rfl⟩

theorem Keeps.symm (h : Keeps K calls calls') : Keeps K calls' calls := by
  refine List.Forall₂.flip (h.imp fun a b hab => ?_)
  exact ⟨hab.1.symm, fun hk => (hab.2 (hab.1 ▸ hk)).symm⟩

theorem Keeps.trans (h : Keeps K calls calls') (h' : Keeps K calls' calls'') :
    Keeps K calls calls'' := by
  induction h generalizing calls'' with
  | nil => exact h'
  | cons hhead htail ih =>
    cases h' with
    | cons hhead' htail' =>
      refine .cons ⟨hhead'.1.trans hhead.1, fun hk => ?_⟩ (ih htail')
      exact (hhead'.2 (hhead.1 ▸ hk)).trans (hhead.2 hk)

/-! ## One write -/

/-- A write to the first call with a key. -/
def marked (state : CallState) (calls : List CallInfo) (k : Int × Int) (call : CallInfo) :
    CallInfo :=
  if first key k calls = some call then call.withState state else call

theorem key_marked (state : CallState) (calls : List CallInfo) (k : Int × Int) (call : CallInfo) :
    (marked state calls k call).key = call.key := by
  unfold marked
  split_ifs <;> rfl

theorem address_marked (state : CallState) (calls : List CallInfo) (k : Int × Int)
    (call : CallInfo) : (marked state calls k call).address = call.address := by
  unfold marked
  split_ifs <;> rfl

theorem marked_of_ne {state : CallState} {k : Int × Int} {call : CallInfo} (h : call.key ≠ k) :
    marked state calls k call = call :=
  if_neg fun hfirst => h (first_eq_some hfirst).2

theorem Objects.map {f : CallInfo → CallInfo} (h : Objects calls)
    (haddress : ∀ a, (f a).address = a.address) : Objects (calls.map f) := by
  intro a ha b hb hab
  obtain ⟨x, hx, rfl⟩ := List.mem_map.mp ha
  obtain ⟨y, hy, rfl⟩ := List.mem_map.mp hb
  rw [haddress, haddress] at hab
  rw [h x hx y hy hab]

/-- A change to a state other than dialing writes to the first call, whatever eCall redials. -/
theorem calls_changeCallState {m : CallManager} (h : Objects m.calls) (phoneId : Int)
    {state : CallState} (index : Int) (hstate : state ≠ .dialing) :
    (m.changeCallState phoneId state index).calls =
      m.calls.map (marked state m.calls (index, phoneId)) := by
  have hupdate : m.changeCallState phoneId state index = m.update phoneId state index :=
    if_neg fun hdialing => hstate hdialing.2
  have hfind := m.findMatchingCall_eq phoneId index
  rw [findMatchingCall] at hfind
  rw [hupdate, update, (triggerCallInfoChangeEvent_fields _ index phoneId).1,
    findCallAndUpdateCallState, hfind]
  cases hfirst : first key (index, phoneId) m.calls with
  | none =>
    have hsame : ∀ call ∈ m.calls, marked state m.calls (index, phoneId) call = call := by
      intro call _
      rw [marked, hfirst, if_neg (by simp)]
    rw [List.map_congr_left hsame, List.map_id']
  | some found =>
    apply List.map_congr_left
    intro call hcall
    rw [marked, hfirst, write]
    by_cases heq : found = call
    · rw [if_pos (congrArg _ heq.symm), if_pos (congrArg some heq)]
      rfl
    · have haddress : call.address ≠ found.address := fun haddress =>
        heq (h call hcall found (first_eq_some hfirst).1 haddress).symm
      rw [if_neg haddress, if_neg fun hsome => heq (Option.some.inj hsome)]

theorem Objects.changeCallState {m : CallManager} (h : Objects m.calls) (phoneId : Int)
    {state : CallState} (index : Int) (hstate : state ≠ .dialing) :
    Objects (m.changeCallState phoneId state index).calls := by
  rw [calls_changeCallState h phoneId index hstate]
  exact h.map (address_marked _ _ _)

/-- Only the call with the index and the phone changes. -/
theorem keeps_changeCallState {m : CallManager} (h : Objects m.calls) (phoneId : Int)
    {state : CallState} (index : Int) (hstate : state ≠ .dialing) (hK : ¬K (index, phoneId)) :
    Keeps K m.calls (m.changeCallState phoneId state index).calls := by
  rw [calls_changeCallState h phoneId index hstate, keeps_map_iff]
  intro a _
  refine ⟨key_marked _ _ _ a, fun hk => ?_⟩
  have hne : a.key ≠ (index, phoneId) := fun hkey => hK (hkey ▸ hk)
  rw [marked_of_ne hne]

/-- Nothing changes where the write has no effect. -/
theorem keeps_changeCallState_iff {m : CallManager} (h : Objects m.calls) {call : CallInfo}
    {state : CallState} (hstate : state ≠ .dialing) (hK : K call.key) :
    Keeps K m.calls (m.changeCallState call.phoneId state call.index).calls ↔
      Idles state m.calls call := by
  rw [calls_changeCallState h call.phoneId call.index hstate, keeps_map_iff]
  constructor
  · intro hkeeps found hfound
    obtain ⟨hmem, hkey⟩ := first_eq_some hfound
    have hsame := (hkeeps found hmem).2 (hkey ▸ hK)
    have hmarked : marked state m.calls (call.index, call.phoneId) found = found.withState state :=
      if_pos hfound
    rw [hmarked] at hsame
    exact hsame.symm
  · intro hidles a _
    refine ⟨key_marked _ _ _ a, fun _ => ?_⟩
    unfold marked
    split_ifs with hfirst
    · exact (hidles a hfirst).symm
    · rfl

/-! ## Loops -/

/-- A loop leaves alone what each of its turns leaves alone. -/
theorem keeps_foldl {turn : CallManager → Nat → CallManager}
    (hturn : ∀ m n, Objects m.calls → Keeps K m.calls (turn m n).calls ∧ Objects (turn m n).calls)
    {m : CallManager} (h : Objects m.calls) (positions : List Nat) :
    Keeps K m.calls (positions.foldl turn m).calls := by
  induction positions generalizing m with
  | nil => exact .refl _
  | cons n positions ih =>
    obtain ⟨hkeeps, hobjects⟩ := hturn m n h
    exact hkeeps.trans (ih hobjects)

variable (K) in
/-- A turn that changes the call at a position if it passes a test. -/
theorem keeps_atCall {test : CallInfo → Prop} [DecidablePred test] (state : CallState)
    (hstate : state ≠ .dialing) (htest : ∀ call, test call → ¬K call.key) {m : CallManager}
    (h : Objects m.calls) (position : Nat) :
    Keeps K m.calls (atCall (fun m call =>
        if test call then m.changeCallState call.phoneId state call.index else m) m position).calls ∧
      Objects (atCall (fun m call =>
        if test call then m.changeCallState call.phoneId state call.index else m)
          m position).calls := by
  unfold atCall
  cases m.calls[position]? with
  | none => exact ⟨.refl _, h⟩
  | some call =>
    dsimp only
    split_ifs with hcall
    · exact ⟨keeps_changeCallState h _ _ hstate (htest call hcall),
        h.changeCallState _ _ hstate⟩
    · exact ⟨.refl _, h⟩

theorem first_map {f : CallInfo → CallInfo} (hkey : ∀ a, (f a).key = a.key) (k : Int × Int)
    (calls : List CallInfo) : first key k (calls.map f) = (first key k calls).map f := by
  induction calls with
  | nil => rfl
  | cons a calls ih =>
    unfold first at ih ⊢
    rw [List.map_cons, List.find?_cons, List.find?_cons, hkey, ih]
    cases decide (a.key = k) <;> rfl

theorem ends_append_iff {test : CallInfo → Prop} {passed : List CallInfo} {call other : CallInfo} :
    Ends test calls (passed ++ [call]) other ↔
      Ends test calls passed other ∨
        first key other.key calls = some other ∧ call.key = other.key ∧ test call := by
  unfold Ends
  simp only [List.mem_append, List.mem_singleton, or_and_right, exists_or, exists_eq_left, and_or_left]

/-- The first calls with the keys of the calls passed that pass the test. -/
def loopMarked (state : CallState) (test : CallInfo → Prop) [DecidablePred test]
    (calls passed : List CallInfo) (call : CallInfo) : CallInfo :=
  if Ends test calls passed call then call.withState state else call

section loopMarked

variable {state : CallState} {test : CallInfo → Prop} [DecidablePred test]
  {passed before after : List CallInfo} {call : CallInfo}

theorem key_loopMarked (call : CallInfo) :
    (loopMarked state test calls passed call).key = call.key := by
  unfold loopMarked
  split_ifs <;> rfl

theorem address_loopMarked (call : CallInfo) :
    (loopMarked state test calls passed call).address = call.address := by
  unfold loopMarked
  split_ifs <;> rfl

/-- The turn at a call that passes the test. -/
theorem marked_loopMarked (h : Objects calls) (htest : test call) {other : CallInfo}
    (hother : other ∈ calls) :
    marked state (calls.map (loopMarked state test calls before)) (call.index, call.phoneId)
        (loopMarked state test calls before other) =
      loopMarked state test calls (before ++ [call]) other := by
  have hk : (call.index, call.phoneId) = call.key := rfl
  rw [hk]
  by_cases hfirst : first key call.key calls = some other
  · have hkey : other.key = call.key := (first_eq_some hfirst).2
    have hends : Ends test calls (before ++ [call]) other :=
      ends_append_iff.mpr (.inr ⟨hkey ▸ hfirst, hkey.symm, htest⟩)
    rw [marked, first_map key_loopMarked, hfirst, Option.map_some, if_pos rfl, loopMarked,
      loopMarked, if_pos hends]
    split_ifs <;> rfl
  · have hne : first key call.key (calls.map (loopMarked state test calls before)) ≠
        some (loopMarked state test calls before other) := by
      rw [first_map key_loopMarked]
      intro hsome
      obtain ⟨found, hfound, heq⟩ := Option.map_eq_some_iff.mp hsome
      have haddress := congrArg CallInfo.address heq
      rw [address_loopMarked, address_loopMarked] at haddress
      rw [h found (first_eq_some hfound).1 other hother haddress] at hfound
      exact hfirst hfound
    rw [marked, if_neg hne]
    refine if_congr ?_ rfl rfl
    rw [ends_append_iff, or_iff_left]
    rintro ⟨hother', hkey, -⟩
    exact hfirst (hkey ▸ hother')

/-- Where a call fails the test once it is marked, the loop that marks calls marks for each call that
passes the test the first one with its key. -/
theorem calls_markingLoop {m : CallManager} (h : Objects m.calls) (hstate : state ≠ .dialing)
    (hmarked : ∀ call : CallInfo, ¬test (call.withState state)) :
    (m.forEachCall fun m call =>
        if test call then m.changeCallState call.phoneId state call.index else m).calls =
      m.calls.map (loopMarked state test m.calls m.calls) := by
  refine foldl_positions (P := fun before (s : CallManager) =>
    s.calls = m.calls.map (loopMarked state test m.calls before)) _ m.calls ?_ ?_
  · have hnone : loopMarked state test m.calls [] = id := by
      funext call
      exact if_neg fun hends => by simpa using hends.2
    rw [hnone, List.map_id]
  · intro before call after s hsplit hcalls
    have hposition : s.calls = before.map (loopMarked state test m.calls before) ++
        loopMarked state test m.calls before call ::
          after.map (loopMarked state test m.calls before) := by
      rw [hcalls]
      nth_rewrite 2 [hsplit]
      rw [List.map_append, List.map_cons]
    have hturn := atCall_eq hposition fun m call =>
      if test call then m.changeCallState call.phoneId state call.index else m
    rw [List.length_map] at hturn
    rw [hturn]
    split_ifs with htest
    · have hends : ¬Ends test m.calls before call := fun hends => by
        rw [loopMarked, if_pos hends] at htest
        exact hmarked call htest
      have hsame : loopMarked state test m.calls before call = call := if_neg hends
      have hobjects : Objects s.calls := hcalls ▸ h.map address_loopMarked
      rw [hsame] at htest ⊢
      rw [calls_changeCallState hobjects _ _ hstate, hcalls, List.map_map]
      exact List.map_congr_left fun other hother => marked_loopMarked h htest hother
    · rw [hcalls]
      refine List.map_congr_left fun other _ => if_congr ?_ rfl rfl
      rw [ends_append_iff, or_iff_left_of_imp]
      rintro ⟨hfirst, hkey, hcall⟩
      -- the call at the position fails the test because it has been marked itself
      have hends : Ends test m.calls before call := by
        by_contra hends
        rw [loopMarked, if_neg hends] at htest
        exact htest hcall
      have heq : call = other := Option.some.inj (hends.1.symm.trans (hkey ▸ hfirst))
      exact heq ▸ hends

end loopMarked

/-! ## The requests -/

/-- What `hangupWaitingOrBackgroundCalls` looks for. -/
def Background (phoneId : Int) (call : CallInfo) : Prop :=
  call.phoneId = phoneId ∧ (call.callState = .onHold ∨ call.callState = .incoming)

instance (phoneId : Int) : DecidablePred (Background phoneId) := fun _ =>
  inferInstanceAs (Decidable (_ ∧ (_ ∨ _)))

/-- What `holdActiveCalls` looks for. -/
def ActiveElsewhere (index : Int) (call : CallInfo) : Prop :=
  call.index ≠ index ∧ call.callState = .active

instance (index : Int) : DecidablePred (ActiveElsewhere index) := fun _ =>
  inferInstanceAs (Decidable (_ ∧ _))

variable {m : CallManager}

theorem calls_hangupWaitingOrBackgroundCalls (h : Objects m.calls) (phoneId : Int) :
    (m.hangupWaitingOrBackgroundCalls phoneId).calls =
      m.calls.map (loopMarked .ended (Background phoneId) m.calls m.calls) :=
  calls_markingLoop h (by decide) fun _ htest => by simp [withState] at htest

theorem calls_hangupForegroundgroundCalls (h : Objects m.calls) (phoneId : Int) :
    (m.hangupForegroundgroundCalls phoneId).calls =
      m.calls.map (loopMarked .ended (Foreground phoneId) m.calls m.calls) :=
  calls_markingLoop h (by decide) fun _ htest => by simp [withState] at htest

theorem calls_holdActiveCalls (h : Objects m.calls) (index : Int) :
    (m.holdActiveCalls index).calls =
      m.calls.map (loopMarked .onHold (ActiveElsewhere index) m.calls m.calls) :=
  calls_markingLoop h (by decide) fun _ htest => by simp [withState] at htest

/-- A loop over the calls of a phone leaves the others alone. -/
theorem loopMarked_of_phoneId_ne {state : CallState} {test : CallInfo → Prop} [DecidablePred test]
    {phoneId : Int} (htest : ∀ call, test call → call.phoneId = phoneId) {call : CallInfo}
    (hne : call.phoneId ≠ phoneId) : loopMarked state test m.calls m.calls call = call := by
  refine if_neg ?_
  rintro ⟨-, other, -, hkey, hother⟩
  exact hne ((congrArg Prod.snd hkey).symm.trans (htest other hother))

theorem keeps_loopMarked {state : CallState} {test : CallInfo → Prop} [DecidablePred test]
    {phoneId : Int} (htest : ∀ call, test call → call.phoneId = phoneId) :
    Keeps (fun k => k.2 ≠ phoneId) m.calls
      (m.calls.map (loopMarked state test m.calls m.calls)) := by
  rw [keeps_map_iff]
  intro call _
  refine ⟨key_loopMarked call, fun hne => ?_⟩
  rw [loopMarked_of_phoneId_ne htest hne]

/-- A turn of `swapCalls` changes calls of the phone. -/
theorem keeps_swapCalls (h : Objects m.calls) (callHoldIndex phoneIndex callActivateIndex : Int) :
    Keeps (fun k => k.2 ≠ phoneIndex) m.calls
      (m.swapCalls callHoldIndex phoneIndex callActivateIndex).calls := by
  apply keeps_foldl _ h
  intro s position hobjects
  have hphone (index : Int) (state : CallState) (call : CallInfo)
      (hcall : call.phoneId = phoneIndex ∧ call.index = index ∧ call.callState = state) :
      ¬call.key.2 ≠ phoneIndex := fun hne => hne hcall.1
  obtain ⟨hactivate, hobjects'⟩ :=
    keeps_atCall (fun k => k.2 ≠ phoneIndex) .active (by decide) (hphone callHoldIndex .onHold)
      hobjects position
  obtain ⟨hhold, hobjects''⟩ :=
    keeps_atCall (fun k => k.2 ≠ phoneIndex) .onHold (by decide) (hphone callActivateIndex .active)
      hobjects' position
  exact ⟨hactivate.trans hhold, hobjects''⟩

/-- When a request leaves alone what it is to leave alone. Hold: the first active call of the phone
with an index other than zero is the one to be held. The answer of a waiting call: no active call of
another phone has another index, and the last call with the index is of the phone.
`HangupForegroundResumeBackground`: a call of the phone is left that waits, or the first call left
on hold is of the phone. Or the write has no effect. -/
def Confined (m : CallManager) : Control → Prop
  | .hold phoneId callIndex =>
    ∀ call, m.calls.find? (fun call =>
        call.phoneId == phoneId && call.index != 0 && call.callState == .active) = some call →
      call.index = callIndex ∨ Idles .onHold m.calls call
  | .answer phoneId callIndex =>
    ∀ info, m.findMatchingCall phoneId callIndex = some info → info.callState = .waiting →
      (∀ call ∈ m.calls, call.phoneId ≠ phoneId → call.index ≠ callIndex →
          call.callState = .active → Idles .onHold m.calls call) ∧
        ∀ call, m.calls.reverse.find? (fun call => call.index == callIndex) = some call →
          call.phoneId = phoneId ∨ Idles .active m.calls call
  | .hangupForegroundResumeBackground phoneId =>
    (∃ call ∈ m.calls, call.phoneId = phoneId ∧ call.callState = .waiting ∧
        ¬Ends (Foreground phoneId) m.calls m.calls call) ∨
      ∀ call, m.calls.find? (fun call =>
          decide (call.callState = .onHold ∧ ¬Ends (Foreground phoneId) m.calls m.calls call)) =
          some call →
        call.phoneId = phoneId ∨ Idles .active m.calls call
  | .hangupWaitingOrBackground _ => True
  | .resume _ _ => True
  | .swap _ _ _ => True

theorem frames_hold_iff (h : Objects m.calls) (phoneId callIndex : Int) :
    Frames m (.hold phoneId callIndex) ↔ Confined m (.hold phoneId callIndex) := by
  have hserve : m.serve (Control.hold phoneId callIndex).request =
      m.holdCall phoneId callIndex := rfl
  rw [Frames, hserve, holdCall, Confined]
  cases hfind : m.calls.find? fun call =>
      call.phoneId == phoneId && call.index != 0 && call.callState == .active with
  | none => simpa using Keeps.refl m.calls
  | some call =>
    have hphone : call.phoneId = phoneId := by
      have htest := List.find?_some hfind
      simp only [Bool.and_eq_true, beq_iff_eq] at htest
      exact htest.1.1
    simp only [Option.some.injEq, forall_eq']
    by_cases hindex : call.index = callIndex
    · refine iff_of_true ?_ (.inl hindex)
      apply keeps_changeCallState h _ _ (by decide)
      rw [hindex, hphone]
      exact fun hne => hne rfl
    · have hkey : call.key ≠ (callIndex, phoneId) := fun hkey => hindex (congrArg Prod.fst hkey)
      simp only [hindex, false_or]
      exact keeps_changeCallState_iff h (by decide) hkey

theorem Objects.loopMarked {state : CallState} {test : CallInfo → Prop} [DecidablePred test]
    (h : Objects calls) (passed : List CallInfo) :
    Objects (calls.map (loopMarked state test calls passed)) :=
  h.map address_loopMarked

/-- The calls of other phones after the answer of a waiting call. -/
theorem keeps_changeCallStateofActiveCalls_iff (h : Objects m.calls) {phoneId index : Int}
    {call : CallInfo}
    (hlast : m.calls.reverse.find? (fun call => call.index == index) = some call) :
    Keeps (fun k => k.2 ≠ phoneId) m.calls (m.changeCallStateofActiveCalls index).calls ↔
      (∀ call ∈ m.calls, call.phoneId ≠ phoneId → call.index ≠ index → call.callState = .active →
          Idles .onHold m.calls call) ∧
        (call.phoneId = phoneId ∨ Idles .active m.calls call) := by
  have hindex : call.index = index := by simpa using List.find?_some hlast
  have hheld := calls_holdActiveCalls h index
  have hobjects : Objects (m.holdActiveCalls index).calls := hheld ▸ h.loopMarked m.calls
  rw [changeCallStateofActiveCalls, hlast]
  dsimp only
  rw [calls_changeCallState hobjects call.phoneId call.index (by decide), hheld, List.map_map,
    keeps_map_iff]
  generalize hg : CallManager.loopMarked .onHold (ActiveElsewhere index) m.calls m.calls = g
  have hkey : ∀ a, (g a).key = a.key := hg ▸ key_loopMarked
  have hsame : ∀ a, a.index = index → g a = a := by
    intro a ha
    rw [← hg]
    refine if_neg ?_
    rintro ⟨-, other, -, hkey, hother, -⟩
    exact hother ((congrArg Prod.fst hkey).trans ha)
  have hother : ∀ a, a.index ≠ index →
      marked .active (m.calls.map g) (call.index, call.phoneId) (g a) = g a := by
    intro a ha
    refine marked_of_ne fun hk => ha ?_
    rw [hkey] at hk
    exact (congrArg Prod.fst hk).trans hindex
  constructor
  · intro hkeeps
    constructor
    · intro active hactive hphone hne hstate found hfound
      obtain ⟨hmem, hkeyFound⟩ := first_eq_some hfound
      have hfoundIndex : found.index ≠ index := fun heq =>
        hne ((congrArg Prod.fst hkeyFound).symm.trans heq)
      have hends : Ends (ActiveElsewhere index) m.calls m.calls found :=
        ⟨hkeyFound ▸ hfound, active, hactive, hkeyFound.symm, hne, hstate⟩
      have hkept := (hkeeps found hmem).2 fun heq =>
        hphone ((congrArg Prod.snd hkeyFound).symm.trans heq)
      rw [Function.comp_apply, hother found hfoundIndex, ← hg, CallManager.loopMarked,
        if_pos hends] at hkept
      exact hkept.symm
    · rw [or_iff_not_imp_left]
      intro hphone found hfound
      obtain ⟨hmem, hkeyFound⟩ := first_eq_some hfound
      have hfoundIndex : found.index = index := (congrArg Prod.fst hkeyFound).trans hindex
      have hfirst : first key (call.index, call.phoneId) (m.calls.map g) = some found := by
        rw [first_map hkey, show (call.index, call.phoneId) = call.key from rfl, hfound,
          Option.map_some, hsame found hfoundIndex]
      have hkept := (hkeeps found hmem).2 fun heq =>
        hphone ((congrArg Prod.snd hkeyFound).symm.trans heq)
      rw [Function.comp_apply, hsame found hfoundIndex, marked, if_pos hfirst] at hkept
      exact hkept.symm
  · rintro ⟨helsewhere, hlastCall⟩ a ha
    refine ⟨(key_marked _ _ _ _).trans (hkey a), fun hphone => ?_⟩
    rw [Function.comp_apply]
    by_cases haIndex : a.index = index
    · rw [hsame a haIndex, marked]
      split_ifs with hfirst
      · rw [first_map hkey] at hfirst
        obtain ⟨found, hfound, hga⟩ := Option.map_eq_some_iff.mp hfirst
        have hkeyFound := (first_eq_some hfound).2
        have hfoundIndex : found.index = index := (congrArg Prod.fst hkeyFound).trans hindex
        rw [hsame found hfoundIndex] at hga
        subst hga
        have hcallPhone : call.phoneId ≠ phoneId := fun heq =>
          hphone ((congrArg Prod.snd hkeyFound).trans heq)
        exact (hlastCall.resolve_left hcallPhone found hfound).symm
      · rfl
    · rw [hother a haIndex, ← hg, CallManager.loopMarked]
      split_ifs with hends
      · obtain ⟨hfirst, active, hactive, hkeyActive, hne, hstate⟩ := hends
        have hidles := helsewhere active hactive
          (fun heq => hphone ((congrArg Prod.snd hkeyActive).symm.trans heq)) hne hstate
        exact (hidles a (hkeyActive ▸ hfirst)).symm
      · rfl

theorem frames_answer_iff (h : Objects m.calls) (phoneId callIndex : Int) :
    Frames m (.answer phoneId callIndex) ↔ Confined m (.answer phoneId callIndex) := by
  have hserve : m.serve (Control.answer phoneId callIndex).request =
      m.answer phoneId callIndex := rfl
  rw [Frames, hserve, answer, Confined]
  cases hfind : m.findMatchingCall phoneId callIndex with
  | none => simpa using Keeps.refl m.calls
  | some info =>
    rw [findMatchingCall_eq] at hfind
    obtain ⟨hmem, hkey⟩ := first_eq_some hfind
    have hindex : info.index = callIndex := congrArg Prod.fst hkey
    have hphone : info.phoneId = phoneId := congrArg Prod.snd hkey
    simp only [Option.some.injEq, forall_eq']
    split_ifs with hincoming hwaiting
    · refine iff_of_true ?_ fun hstate => ?_
      · apply keeps_changeCallState h _ _ (by decide)
        exact fun hne => hne hphone
      · rw [hincoming] at hstate
        cases hstate
    · obtain ⟨call, hlast⟩ : ∃ call,
          m.calls.reverse.find? (fun call => call.index == callIndex) = some call := by
        rw [← Option.isSome_iff_exists, List.find?_isSome]
        exact ⟨info, List.mem_reverse.mpr hmem, beq_iff_eq.mpr hindex⟩
      rw [hindex]
      simp only [hlast, hwaiting, Option.some.injEq, forall_eq', forall_const]
      exact keeps_changeCallStateofActiveCalls_iff h hlast
    · exact iff_of_true (.refl _) fun hstate => absurd hstate hwaiting

theorem callState_loopMarked_iff {state other : CallState} {test : CallInfo → Prop}
    [DecidablePred test] (hne : other ≠ state) (call : CallInfo) :
    (loopMarked state test m.calls m.calls call).callState = other ↔
      call.callState = other ∧ ¬Ends test m.calls m.calls call := by
  unfold loopMarked
  split_ifs with hends
  · simp [withState, hends, hne.symm]
  · simp [hends]

section HangupForeground

variable (h : Objects m.calls) (phoneId : Int)
include h

/-- The calls of the phone that wait when its foreground calls have ended. -/
theorem waits_hangupForegroundgroundCalls_iff :
    ((m.hangupForegroundgroundCalls phoneId).calls.find? fun call =>
        call.phoneId == phoneId && call.callState == .waiting).isSome ↔
      ∃ call ∈ m.calls, call.phoneId = phoneId ∧ call.callState = .waiting ∧
        ¬Ends (Foreground phoneId) m.calls m.calls call := by
  rw [List.find?_isSome, calls_hangupForegroundgroundCalls h]
  simp only [List.mem_map, exists_exists_and_eq_and, Bool.and_eq_true, beq_iff_eq,
    callState_loopMarked_iff (show CallState.waiting ≠ .ended by decide)]
  refine exists_congr fun call => and_congr_right fun _ => and_congr_left fun _ => ?_
  have hkey : (loopMarked .ended (Foreground phoneId) m.calls m.calls call).key = call.key :=
    key_loopMarked call
  rw [show (loopMarked .ended (Foreground phoneId) m.calls m.calls call).phoneId = call.phoneId from
    congrArg Prod.snd hkey]

/-- The first call that is left on hold. -/
theorem find_onHold_hangupForegroundgroundCalls :
    ((m.hangupForegroundgroundCalls phoneId).calls.find? fun call => call.callState == .onHold) =
      m.calls.find? fun call =>
        decide (call.callState = .onHold ∧ ¬Ends (Foreground phoneId) m.calls m.calls call) := by
  have htest : ((fun call : CallInfo => call.callState == .onHold) ∘
      loopMarked .ended (Foreground phoneId) m.calls m.calls) = fun call =>
        decide (call.callState = .onHold ∧ ¬Ends (Foreground phoneId) m.calls m.calls call) := by
    funext call
    rw [Function.comp_apply, Bool.eq_iff_iff, beq_iff_eq, decide_eq_true_iff]
    exact callState_loopMarked_iff (by decide) call
  rw [calls_hangupForegroundgroundCalls h, List.find?_map, htest]
  cases hfind : m.calls.find? fun call =>
      decide (call.callState = .onHold ∧ ¬Ends (Foreground phoneId) m.calls m.calls call) with
  | none => rfl
  | some call =>
    have hleft := List.find?_some hfind
    rw [decide_eq_true_iff] at hleft
    exact congrArg some (if_neg hleft.2)

theorem idles_hangupForegroundgroundCalls_iff {state : CallState} {call : CallInfo}
    (hphone : call.phoneId ≠ phoneId) :
    Idles state (m.hangupForegroundgroundCalls phoneId).calls call ↔ Idles state m.calls call := by
  have hfirst : first key call.key (m.hangupForegroundgroundCalls phoneId).calls =
      first key call.key m.calls := by
    rw [calls_hangupForegroundgroundCalls h, first_map key_loopMarked]
    cases hfound : first key call.key m.calls with
    | none => rfl
    | some found =>
      have hsnd : found.phoneId = call.phoneId := congrArg Prod.snd (first_eq_some hfound).2
      exact congrArg some
        (loopMarked_of_phoneId_ne (fun call hcall => hcall.1) (hsnd.trans_ne hphone))
  rw [Idles, hfirst, Idles]

theorem frames_hangupForegroundResumeBackground_iff :
    Frames m (.hangupForegroundResumeBackground phoneId) ↔
      Confined m (.hangupForegroundResumeBackground phoneId) := by
  have hserve : m.serve (Control.hangupForegroundResumeBackground phoneId).request =
      (m.hangupForegroundgroundCalls phoneId).resumeBackgroundCalls phoneId := rfl
  have hforeground := calls_hangupForegroundgroundCalls h phoneId
  have hobjects : Objects (m.hangupForegroundgroundCalls phoneId).calls :=
    hforeground ▸ h.loopMarked m.calls
  have hkeeps : Keeps (fun k => k.2 ≠ phoneId) m.calls
      (m.hangupForegroundgroundCalls phoneId).calls :=
    hforeground ▸ keeps_loopMarked fun call hcall => hcall.1
  have hphone {call : CallInfo} (hcall : call.phoneId = phoneId) :
      ¬(fun k : Int × Int => k.2 ≠ phoneId) (call.index, call.phoneId) := fun hne => hne hcall
  rw [Frames, hserve, resumeBackgroundCalls, Confined, ← waits_hangupForegroundgroundCalls_iff h,
    find_onHold_hangupForegroundgroundCalls h]
  cases hwaits : (m.hangupForegroundgroundCalls phoneId).calls.find? fun call =>
      call.phoneId == phoneId && call.callState == .waiting with
  | some call =>
    have htest := List.find?_some hwaits
    simp only [Bool.and_eq_true, beq_iff_eq] at htest
    exact iff_of_true (hkeeps.trans (keeps_changeCallState hobjects _ _ (by decide)
      (hphone htest.1))) (.inl rfl)
  | none =>
    simp only [Option.isSome_none, Bool.false_eq_true, false_or]
    cases hfind : m.calls.find? fun call =>
        decide (call.callState = .onHold ∧ ¬Ends (Foreground phoneId) m.calls m.calls call) with
    | none => exact iff_of_true hkeeps fun call hcall => by cases hcall
    | some call =>
      simp only [Option.some.injEq, forall_eq']
      by_cases hcall : call.phoneId = phoneId
      · exact iff_of_true (hkeeps.trans (keeps_changeCallState hobjects _ _ (by decide)
          (hphone hcall))) (.inl hcall)
      · rw [or_iff_right hcall, ← idles_hangupForegroundgroundCalls_iff h phoneId hcall,
          ← keeps_changeCallState_iff (K := fun k => k.2 ≠ phoneId) hobjects (by decide) hcall]
        exact ⟨hkeeps.symm.trans, hkeeps.trans⟩

end HangupForeground

/-- A call control request leaves alone what it is to leave alone exactly where it is confined. -/
theorem frames_iff (h : Objects m.calls) (control : Control) :
    Frames m control ↔ Confined m control := by
  cases control with
  | hold phoneId callIndex => exact frames_hold_iff h phoneId callIndex
  | answer phoneId callIndex => exact frames_answer_iff h phoneId callIndex
  | hangupForegroundResumeBackground phoneId =>
    exact frames_hangupForegroundResumeBackground_iff h phoneId
  | hangupWaitingOrBackground phoneId =>
    refine iff_of_true ?_ trivial
    have hserve : m.serve (Control.hangupWaitingOrBackground phoneId).request =
      m.hangupWaitingOrBackgroundCalls phoneId := rfl
    rw [Frames, hserve, calls_hangupWaitingOrBackgroundCalls h]
    exact keeps_loopMarked fun call hcall => hcall.1
  | resume phoneId callIndex => exact iff_of_true (keeps_swapCalls h _ _ _) trivial
  | swap callToHoldIndex phoneId callToActivateIndex =>
    exact iff_of_true (keeps_swapCalls h _ _ _) trivial

/-- Two calls of a phone, of which the second one is active. -/
def twoCalls : CallManager :=
  { new with
    calls := [⟨0, .dialing, 1, .outgoing, "1", 1, false, false, false⟩,
      ⟨1, .active, 2, .outgoing, "2", 1, false, false, false⟩] }

theorem objects_twoCalls : Objects twoCalls.calls := by
  unfold Objects
  decide

/-- To hold the call that is dialing puts the active one on hold. -/
theorem not_frames_twoCalls :
    ¬∀ (m : CallManager) (control : Control), Objects m.calls → Frames m control := by
  intro h
  have hconfined := (frames_hold_iff objects_twoCalls 1 1).mp
    (h twoCalls (.hold 1 1) objects_twoCalls)
  rcases hconfined ⟨1, .active, 2, .outgoing, "2", 1, false, false, false⟩ (by decide) with
    hindex | hidles
  · exact absurd hindex (by decide)
  · exact absurd (hidles _ rfl) (by decide)

/-- To hold the active call. -/
theorem frames_twoCalls : Frames twoCalls (.hold 1 2) := by
  refine (frames_iff objects_twoCalls (.hold 1 2)).mpr fun call hcall => .inl ?_
  obtain rfl := Option.some.inj hcall
  rfl

end CallManager

end Tel

end SatComm
