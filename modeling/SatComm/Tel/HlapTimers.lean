import SatComm.Runs.Along
import Mathlib.Data.List.Nodup

/-!
# The HLAP timers

A start of an HLAP timer records the timer as active and leaves a thread behind that sleeps for
the delay of the timer. When it wakes it looks at the recorded status alone: if the timer is
active it has expired. A thread that sleeps for a start that was stopped is still there when the
timer is started again, and then takes the new start for its own. Expiries belong to the latest
start along every run that starts no timer for which a thread still sleeps.

The timers are those of one SIM slot, over a clock in milliseconds.
-/

namespace SatComm

namespace Tel

open Runs

inductive HlapTimer
  | t2 | t5 | t6 | t7 | t9 | t10
deriving DecidableEq, Repr

inductive HlapTimerStatus
  | unknown | inactive | active
deriving DecidableEq, Repr

inductive TimerRequest
  | start | stop
deriving DecidableEq, Repr

/-- `ecallHlapTimerStatus` of the slot. -/
abbrev HlapStatus := HlapTimer → HlapTimerStatus

namespace HlapStatus

def updateEcallHlapTimer (st : HlapStatus) (timer : HlapTimer) (status : HlapTimerStatus) :
    HlapStatus := Function.update st timer status

/-- T9 and T10 are reset when T2 starts with call setup. -/
def resets (st : HlapStatus) (timer other : HlapTimer) : Bool :=
  timer = .t2 && (other = .t9 || other = .t10) && st other = .active

def startTimer (st : HlapStatus) (timer : HlapTimer) : HlapStatus := fun other =>
  if other = timer then .active else if st.resets timer other then .inactive else st other

def sendEvent (st : HlapStatus) (timer : HlapTimer) : TimerRequest → HlapStatus
  | .start => st.updateEcallHlapTimer timer .active
  | .stop => st.updateEcallHlapTimer timer .inactive

def expiryTimer (st : HlapStatus) (timer : HlapTimer) : HlapStatus :=
  st.updateEcallHlapTimer timer .inactive

variable (st : HlapStatus) (timer : HlapTimer)

@[simp]
theorem startTimer_self : st.startTimer timer timer = .active := if_pos rfl

theorem startTimer_of_ne {timer other : HlapTimer} (h : other ≠ timer) (h9 : other ≠ .t9)
    (h10 : other ≠ .t10) : st.startTimer timer other = st other := by
  simp [startTimer, resets, h, h9, h10]

@[simp]
theorem sendEvent_start_self : st.sendEvent timer .start timer = .active :=
  Function.update_self timer _ _

@[simp]
theorem sendEvent_stop_self : st.sendEvent timer .stop timer = .inactive :=
  Function.update_self timer _ _

theorem sendEvent_of_ne {timer other : HlapTimer} (h : other ≠ timer) (request : TimerRequest) :
    st.sendEvent timer request other = st other := by
  cases request <;> exact Function.update_of_ne h _ _

theorem update_ne_active {other : HlapTimer} (h : st other ≠ .active) :
    st.updateEcallHlapTimer timer .inactive other ≠ .active := by
  by_cases heq : other = timer
  · rw [heq, updateEcallHlapTimer, Function.update_self]
    nofun
  · rw [updateEcallHlapTimer, Function.update_of_ne heq]
    exact h

@[simp]
theorem sendEvent_start_stop :
    (st.sendEvent timer .start).sendEvent timer .stop = st.sendEvent timer .stop :=
  Function.update_idem _ _ _

end HlapStatus

/-- A thread of `startTimers`. `stopped` says whether its start has been stopped since. -/
structure Sleeper where
  timer : HlapTimer
  since : Nat
  wakeAt : Nat
  stopped : Bool
deriving DecidableEq, Repr

def Sleeper.stopIf (p : HlapTimer → Bool) (x : Sleeper) : Sleeper :=
  { x with stopped := x.stopped || p x.timer }

/-- `started` is the time of the latest start. -/
structure HlapClock where
  now : Nat
  status : HlapStatus
  sleepers : List Sleeper
  started : HlapTimer → Option Nat

inductive TimerStep
  | startTimer (timer : HlapTimer)
  | sendStop (timer : HlapTimer)
  | expiryTimer (timer : HlapTimer)
  | elapse (milliseconds : Nat)
  | wake (n : Nat)
deriving DecidableEq, Repr

/-- The delay that `startTimers` sleeps for. A negative one is no sleep. -/
def delay (eCallConfig : HlapTimer → Int) (timer : HlapTimer) : Nat :=
  if timer = .t5 ∨ timer = .t6 then 5000 else (eCallConfig timer).toNat

namespace HlapClock

def new : HlapClock where
  now := 0
  status _ := .inactive
  sleepers := []
  started _ := none

def stop (s : HlapClock) (timer : HlapTimer) (status : HlapStatus) : HlapClock :=
  { s with
    status := status
    sleepers := s.sleepers.map (Sleeper.stopIf fun other => other = timer) }

/-- `triggerTimerExpiry`, as far as it concerns the timers. -/
def triggerTimerExpiry (s : HlapClock) (timer : HlapTimer) : HlapClock :=
  { s with status := s.status.updateEcallHlapTimer timer .inactive }

/-- The thread with number `n` goes on if its sleep is over. -/
def wake (s : HlapClock) (n : Nat) : HlapClock :=
  match s.sleepers[n]? with
  | some x =>
    if x.wakeAt ≤ s.now then
      let woken : HlapClock := { s with sleepers := s.sleepers.eraseIdx n }
      if s.status x.timer = .active then woken.triggerTimerExpiry x.timer else woken
    else s
  | none => s

def step (eCallConfig : HlapTimer → Int) (s : HlapClock) : TimerStep → HlapClock
  | .startTimer timer =>
    { s with
      status := s.status.startTimer timer
      started := Function.update s.started timer (some s.now)
      sleepers := s.sleepers.map (Sleeper.stopIf (s.status.resets timer)) ++
        [⟨timer, s.now, s.now + delay eCallConfig timer, false⟩] }
  | .sendStop timer => s.stop timer (s.status.sendEvent timer .stop)
  | .expiryTimer timer => s.stop timer (s.status.expiryTimer timer)
  | .elapse milliseconds => { s with now := s.now + milliseconds }
  | .wake n => s.wake n

variable (eCallConfig : HlapTimer → Int)

/-- The step makes the thread `x` call `triggerTimerExpiry`. -/
def Triggers (s : HlapClock) (e : TimerStep) (x : Sleeper) : Prop :=
  ∃ n, e = .wake n ∧ s.sleepers[n]? = some x ∧ x.wakeAt ≤ s.now ∧ s.status x.timer = .active

/-- An expiry comes no earlier than the delay after the latest start, and for a start that was
not stopped. -/
def ExpiresLatest (s : HlapClock) (e : TimerStep) : Prop :=
  ∀ x, s.Triggers e x →
    (∃ since ∈ s.started x.timer, since + delay eCallConfig x.timer ≤ s.now) ∧ x.stopped = false

/-- No thread sleeps for a timer that is started. -/
def StartsAlone (s : HlapClock) : TimerStep → Prop
  | .startTimer timer => ∀ x ∈ s.sleepers, x.timer ≠ timer
  | _ => True

instance (s : HlapClock) : DecidablePred s.StartsAlone
  | .startTimer _ => inferInstanceAs (Decidable (∀ _ ∈ _, _ ≠ _))
  | .sendStop _ | .expiryTimer _ | .elapse _ | .wake _ => inferInstanceAs (Decidable True)

/-- The threads sleep for the latest starts, and none of a stopped start finds its timer
active. -/
structure Latest (s : HlapClock) : Prop where
  since : ∀ x ∈ s.sleepers, s.started x.timer = some x.since
  wakeAt : ∀ x ∈ s.sleepers, x.wakeAt = x.since + delay eCallConfig x.timer
  stopped : ∀ x ∈ s.sleepers, x.stopped = true → s.status x.timer ≠ .active

variable {eCallConfig}

theorem Latest.expiresLatest {s : HlapClock} (h : s.Latest eCallConfig) (e : TimerStep) :
    s.ExpiresLatest eCallConfig e := by
  rintro x ⟨n, rfl, hfound, hdue, hactive⟩
  have hmem : x ∈ s.sleepers := List.mem_of_getElem? hfound
  refine ⟨⟨x.since, h.since x hmem, h.wakeAt x hmem ▸ hdue⟩, ?_⟩
  by_contra hstopped
  exact h.stopped x hmem (Bool.not_eq_false _ ▸ hstopped) hactive

/-- A stop marks the threads of the timers it makes inactive. -/
theorem Latest.mark {s : HlapClock} (h : s.Latest eCallConfig) {status : HlapStatus}
    {p : HlapTimer → Bool} (hp : ∀ timer, p timer = true → status timer = .inactive)
    (hkeep : ∀ x ∈ s.sleepers, p x.timer = false → status x.timer = s.status x.timer) :
    Latest eCallConfig
      { s with status := status, sleepers := s.sleepers.map (Sleeper.stopIf p) } := by
  constructor
  · intro x hx
    obtain ⟨y, hy, rfl⟩ := List.mem_map.mp hx
    exact h.since y hy
  · intro x hx
    obtain ⟨y, hy, rfl⟩ := List.mem_map.mp hx
    exact h.wakeAt y hy
  · intro x hx hstopped
    obtain ⟨y, hy, rfl⟩ := List.mem_map.mp hx
    rw [Sleeper.stopIf, Bool.or_eq_true] at hstopped
    show status y.timer ≠ .active
    cases hpy : p y.timer with
    | true => simp [hp y.timer hpy]
    | false =>
      rw [hkeep y hy hpy]
      exact h.stopped y hy (hstopped.resolve_right (by simp [hpy]))

theorem Latest.stop {s : HlapClock} (h : s.Latest eCallConfig) (timer : HlapTimer) :
    (s.stop timer (s.status.updateEcallHlapTimer timer .inactive)).Latest eCallConfig := by
  apply h.mark
  · intro other hother
    rw [of_decide_eq_true hother]
    exact Function.update_self timer _ _
  · intro x _ hx
    exact Function.update_of_ne (of_decide_eq_false hx) _ _

theorem Latest.wake {s : HlapClock} (h : s.Latest eCallConfig) (n : Nat) :
    (s.wake n).Latest eCallConfig := by
  have hsub : ∀ {x}, x ∈ s.sleepers.eraseIdx n → x ∈ s.sleepers := List.mem_of_mem_eraseIdx
  have hwoken : Latest eCallConfig { s with sleepers := s.sleepers.eraseIdx n } :=
    ⟨fun x hx => h.since x (hsub hx), fun x hx => h.wakeAt x (hsub hx),
      fun x hx => h.stopped x (hsub hx)⟩
  unfold HlapClock.wake
  split
  · rename_i x hfound
    dsimp only
    split_ifs with hdue hactive
    · refine ⟨hwoken.since, hwoken.wakeAt, fun y hy hstopped => ?_⟩
      show Function.update s.status x.timer .inactive y.timer ≠ .active
      by_cases hxy : y.timer = x.timer
      · simp [hxy]
      · rw [Function.update_of_ne hxy]
        exact hwoken.stopped y hy hstopped
    · exact hwoken
    · exact h
  · exact h

theorem Latest.startTimer {s : HlapClock} (h : s.Latest eCallConfig) {timer : HlapTimer}
    (halone : s.StartsAlone (.startTimer timer)) :
    (s.step eCallConfig (.startTimer timer)).Latest eCallConfig := by
  have hmarked : Latest eCallConfig
      { s with
        status := s.status.startTimer timer
        sleepers := s.sleepers.map (Sleeper.stopIf (s.status.resets timer)) } := by
    apply h.mark
    · intro other hresets
      have hne : other ≠ timer := by
        rintro rfl
        cases other <;> simp [HlapStatus.resets] at hresets
      rw [HlapStatus.startTimer, if_neg hne, if_pos hresets]
    · intro x hx hresets
      rw [HlapStatus.startTimer, if_neg (halone x hx), hresets]
      rfl
  -- The threads that were there sleep for other timers, whose starts stay the latest.
  have hother : ∀ x ∈ s.sleepers.map (Sleeper.stopIf (s.status.resets timer)),
      x.timer ≠ timer := by
    intro x hx
    obtain ⟨y, hy, rfl⟩ := List.mem_map.mp hx
    exact halone y hy
  constructor
  · intro x hx
    rcases List.mem_append.mp hx with hold | hnew
    · have hstarted := Function.update_of_ne (hother x hold) (some s.now) s.started
      exact hstarted.trans (hmarked.since x hold)
    · rw [List.mem_singleton.mp hnew]
      exact Function.update_self timer _ _
  · intro x hx
    rcases List.mem_append.mp hx with hold | hnew
    · exact hmarked.wakeAt x hold
    · rw [List.mem_singleton.mp hnew]
  · intro x hx
    rcases List.mem_append.mp hx with hold | hnew
    · exact hmarked.stopped x hold
    · rw [List.mem_singleton.mp hnew]
      exact fun hfalse => absurd hfalse (by simp)

theorem Latest.step {s : HlapClock} {e : TimerStep} (h : s.Latest eCallConfig)
    (halone : s.StartsAlone e) : (s.step eCallConfig e).Latest eCallConfig := by
  cases e with
  | startTimer timer => exact h.startTimer halone
  | sendStop timer => exact h.stop timer
  | expiryTimer timer => exact h.stop timer
  | elapse milliseconds => exact ⟨h.since, h.wakeAt, h.stopped⟩
  | wake n => exact h.wake n

theorem latest_new : new.Latest eCallConfig := by
  constructor <;> simp [new]

/-- Along a run that starts no timer while a thread sleeps for it, every expiry belongs to the
latest start. -/
theorem expiresLatest_of_startsAlone (eCallConfig : HlapTimer → Int) (es : List TimerStep)
    (h : Along (step eCallConfig) StartsAlone new es) :
    Along (step eCallConfig) (ExpiresLatest eCallConfig) new es := by
  have hkeep : ∀ s e, Latest eCallConfig s → StartsAlone s e → Latest eCallConfig (s.step _ e) :=
    fun s e hs halone => hs.step halone
  exact h.of_invariant (Latest eCallConfig) hkeep (fun s e hs _ => hs.expiresLatest e) latest_new

/-- The delays of the system state that the simulation ships with. -/
def shippedConfig : HlapTimer → Int
  | .t2 | .t9 => 3600000
  | .t7 => 20000
  | .t10 => 43200000
  | .t5 | .t6 => 0

/-- T7 runs and is stopped, its thread wakes, and T7 runs again until it expires. -/
def stoppedOnce : List TimerStep :=
  [.startTimer .t7, .elapse 4000, .sendStop .t7, .elapse 16000, .wake 0, .startTimer .t7,
    .elapse 20000, .wake 0]

theorem expiresLatest_stoppedOnce :
    Along (step shippedConfig) StartsAlone new stoppedOnce ∧
      Along (step shippedConfig) (ExpiresLatest shippedConfig) new stoppedOnce :=
  have halone : Along (step shippedConfig) StartsAlone new stoppedOnce := by decide
  ⟨halone, expiresLatest_of_startsAlone shippedConfig stoppedOnce halone⟩

/-- T7 is stopped after four seconds and started again one second later. The first thread wakes
fifteen seconds after the second start. -/
def restarted : List TimerStep :=
  [.startTimer .t7, .elapse 4000, .sendStop .t7, .elapse 1000, .startTimer .t7, .elapse 15000,
    .wake 0]

theorem not_expiresLatest_restarted :
    ¬ Along (step shippedConfig) (ExpiresLatest shippedConfig) new restarted := by
  intro h
  have hlast : ExpiresLatest shippedConfig ((restarted.take 6).foldl (step shippedConfig) new)
      (.wake 0) := ((along_append new (restarted.take 6) [.wake 0]).mp h).2.1
  obtain ⟨⟨since, hsince, hdelay⟩, -⟩ :=
    hlast ⟨.t7, 0, 20000, true⟩ ⟨0, rfl, by decide, by decide, by decide⟩
  have heq : since = 5000 := (Option.some.inj hsince).symm
  rw [heq] at hdelay
  exact absurd hdelay (by decide)

end HlapClock

end Tel

end SatComm
