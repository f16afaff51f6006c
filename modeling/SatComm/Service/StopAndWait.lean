import SatComm.Service.Lifecycle

/-!
# Stop-and-wait across sessions

The worker may have one chunk on its way, waits only for a chunk whose acknowledgement can
still come, and sends nothing once it is told to stop. The first holds in every run. The other
two need `shutdown` to come at the right moment: `inFlight_` is only ever lowered by an
acknowledgement, which nobody delivers once the listener is gone, and `running_` is tested
well before the call it should prevent, and raised again by a worker that is only starting.
-/

namespace SatComm.Service

open Runs

/-! ## The moments -/

/-- The worker is in one of its two waits. -/
def waiting : Worker → Bool
  | .wait _ | .await .. | .awaitAck .. => true
  | _ => false

/-- The worker will test `running_` before it calls `sendData` again. -/
def testsRunningFirst : Worker → Bool
  | .none | .exited | .wait _ | .check .running | .failed .. | .requeue .. | .await .. |
    .awaitAck .. | .acked .. => true
  | .chunk p _ offset => p.bytes.length ≤ offset
  | _ => false

/-- `running_` is cleared only while the worker will still test it, and the listener is removed
only when no chunk is unacknowledged. -/
def CleanShutdown (s : State) : Event → Prop
  | .shutdown => testsRunningFirst s.worker = true
  | .control .. => s.control = .deregister → s.unacked = []
  | _ => True

instance (s : State) : (e : Event) → Decidable (CleanShutdown s e)
  | .shutdown => inferInstanceAs (Decidable (testsRunningFirst s.worker = true))
  | .control .. => inferInstanceAs (Decidable (s.control = .deregister → s.unacked = []))
  | .work | .probe .. | .sendData _ | .sendAudioFrame .. | .init .. | .ack _ | .ntnState .. |
    .serviceStatus .. | .capabilities _ => inferInstanceAs (Decidable True)

/-! ## One chunk at a time -/

/-- The worker is between a look at a lowered `inFlight_` and the next `sendData` result. -/
def gatePassed : Worker → Bool
  | .popped _ | .probe _ | .store .. | .chunk .. | .send .. | .failed .. => true
  | _ => false

/-- The worker has raised `inFlight_` for a call that has not succeeded. -/
def calling : Worker → Bool
  | .send .. | .failed .. => true
  | _ => false

/-- The worker has left its inner wait. -/
def leftWait : Worker → Bool
  | .acked .. => true
  | _ => false

theorem gatePassed_of_calling {w : Worker} (h : calling w = true) : gatePassed w = true := by
  cases w <;> simp_all [calling, gatePassed]

structure OneInFlight (s : State) : Prop where
  life : Life s
  atMostOne : s.unacked.length ≤ 1
  raised : s.unacked ≠ [] → s.inFlight = true
  up : calling s.worker = true → s.inFlight = true
  none : gatePassed s.worker = true → s.unacked = []
  left : leftWait s.worker = true → s.running = true → s.unacked = []

theorem oneInFlight_init (o : Option Nat) : OneInFlight (State.init o) :=
  ⟨life_init o, by simp [State.init], by simp [State.init], by simp [State.init, calling],
    fun _ => rfl, fun _ _ => rfl⟩

theorem OneInFlight.worker {s s' : State} (hi : OneInFlight s) (h : WorkerMove s s') :
    OneInFlight s' := by
  have hl := hi.life.worker h
  obtain ⟨-, h₁, h₂, h₃, h₄, h₅⟩ := hi
  cases h <;> refine ⟨hl, h₁, ?_, ?_, ?_, ?_⟩ <;> clear hl h₁ <;>
    simp_all [gatePassed, calling, leftWait]

/-- Steps that leave the flags and the worker alone. -/
theorem OneInFlight.congr {s s' : State} (hi : OneInFlight s) (hl : Life s')
    (hu : s'.unacked = s.unacked) (hf : s'.inFlight = s.inFlight) (hw : s'.worker = s.worker)
    (hr : s'.running = true → s.running = true) : OneInFlight s' := by
  refine ⟨hl, ?_, ?_, ?_, ?_, ?_⟩
  · rw [hu]
    exact hi.atMostOne
  · rw [hu, hf]
    exact hi.raised
  · rw [hw, hf]
    exact hi.up
  · rw [hw, hu]
    exact hi.none
  · rw [hw, hu]
    exact fun h h' => hi.left h (hr h')

theorem OneInFlight.control {s s' : State} (hi : OneInFlight s) (h : ControlMove s s') :
    OneInFlight s' := by
  have hl := hi.life.control h
  cases h with
  | start hc hw =>
    exact ⟨hl, hi.atMostOne, hi.raised, by simp [calling], by simp [gatePassed], by simp [leftWait]⟩
  | join hc hw =>
    exact ⟨hl, hi.atMostOne, hi.raised, by simp [calling], by simp [gatePassed], by simp [leftWait]⟩
  | raise hc =>
    -- there is no worker yet
    have hw : s.worker = .none := hi.life.noWorker (by simp [hc, Control.starting])
    exact ⟨hl, hi.atMostOne, hi.raised, hi.up, hi.none, by simp [hw, leftWait]⟩
  | _ => exact hi.congr hl rfl rfl rfl id

/-- The acknowledged chunk was the only one. -/
theorem OneInFlight.erase {s : State} (hi : OneInFlight s) {n : Nat} (h : n ∈ s.unacked) :
    s.unacked.erase n = [] := by
  have hlen := List.length_erase_of_mem h
  have hle := hi.atMostOne
  exact List.length_eq_zero_iff.mp (by omega)

theorem oneInFlight_step {s s' : State} (e : Event) (h : step s e = some s')
    (hi : OneInFlight s) : OneInFlight s' := by
  have hl := life_step e h hi.life
  cases e with
  | work => exact hi.worker (workerMove_of_workerStep h)
  | probe ec n =>
    obtain ⟨p, hw, rfl⟩ := probeStep_spec h
    have hnone := hi.none (by rw [hw]; rfl)
    exact ⟨hl, hi.atMostOne, hi.raised, by simp [calling], fun _ => hnone, by simp [leftWait]⟩
  | sendData ec =>
    obtain ⟨p, m, offset, hw, ⟨-, rfl⟩ | ⟨-, rfl⟩⟩ := sendStep_spec h
    · have hnone := hi.none (by rw [hw]; rfl)
      have hup := hi.up (by rw [hw]; rfl)
      exact ⟨hl, by simp [hnone], fun _ => hup, by simp [calling], by simp [gatePassed],
        by simp [leftWait]⟩
    · have hnone := hi.none (by rw [hw]; rfl)
      have hup := hi.up (by rw [hw]; rfl)
      exact ⟨hl, hi.atMostOne, hi.raised, fun _ => hup, fun _ => hnone, by simp [leftWait]⟩
  | sendAudioFrame bytes emergency =>
    obtain rfl := Option.some.inj h
    rcases sendAudioFrame_spec s bytes emergency with ⟨-, heq⟩ | ⟨-, -, heq⟩
    · rw [heq]
      exact hi
    · exact hi.congr hl (by rw [heq]) (by rw [heq]) (by rw [heq]) (by rw [heq]; exact id)
  | init manager ready =>
    obtain ⟨-, -, c, -, rfl⟩ := initStep_spec h
    exact hi.congr hl rfl rfl rfl id
  | control b ec n ns ss => exact hi.control (controlMove_of_controlStep h)
  | shutdown =>
    obtain ⟨-, rfl⟩ := shutdownStep_spec h
    exact hi.congr hl rfl rfl rfl (by simp)
  | ack n =>
    obtain ⟨hmem, ⟨-, -, rfl⟩ | ⟨-, rfl⟩⟩ := ackStep_spec h
    · have hnil := hi.erase hmem
      refine ⟨hl, by simp [hnil], by simp [hnil], fun hc => ?_, fun _ => hnil, fun _ _ => hnil⟩
      -- a worker that is calling has nothing to be acknowledged
      rw [hi.none (gatePassed_of_calling hc)] at hmem
      cases hmem
    · have hnil := hi.erase hmem
      exact ⟨hl, by simp [hnil], by simp [hnil], hi.up, fun _ => hnil, fun _ _ => hnil⟩
  | ntnState state ss =>
    obtain ⟨-, rfl⟩ := callback_spec h
    exact hi.congr hl rfl rfl rfl id
  | serviceStatus status ns =>
    obtain ⟨-, rfl⟩ := callback_spec h
    exact hi.congr hl rfl rfl rfl id
  | capabilities n =>
    obtain ⟨-, ⟨-, rfl⟩ | ⟨-, rfl⟩⟩ := capabilities_spec h
    · exact hi
    · exact hi.congr hl rfl rfl rfl id

/-! ## Waiting for something, and stopping -/

structure PaceInv (s : State) : Prop where
  one : OneInFlight s
  /-- What is unacknowledged belongs to the listener that is registered. -/
  seen : ∀ n ∈ s.unacked, s.registered = true ∧ n = s.session
  /-- `inFlight_` is raised for a chunk, or for a call that is being made. -/
  really : s.inFlight = true → s.unacked ≠ [] ∨ calling s.worker = true
  stop : s.stopped = true → s.running = false ∧ testsRunningFirst s.worker = true
  fresh : s.control.starting = true ∨ s.control = .register → s.stopped = false
  early : ∀ c ∈ s.calls, c.stopped = false

theorem paceInv_init (o : Option Nat) : PaceInv (State.init o) where
  one := oneInFlight_init o
  seen := by simp [State.init]
  really := by simp [State.init]
  stop := by simp [State.init]
  fresh := by simp [State.init]
  early := by simp [State.init]

theorem PaceInv.worker {s s' : State} (hi : PaceInv s) (h : WorkerMove s s') : PaceInv s' := by
  have hone := hi.one.worker h
  obtain ⟨-, h₁, h₂, h₃, h₄, h₅⟩ := hi
  cases h with
  | raise hw hlt =>
    -- a worker that is told to stop does not get here
    refine ⟨hone, h₁, fun _ => .inr rfl, fun hst => ?_, h₄, h₅⟩
    have hge := (h₃ hst).2
    simp only [hw, testsRunningFirst, decide_eq_true_eq] at hge
    omega
  | _ =>
    refine ⟨hone, h₁, ?_, ?_, h₄, h₅⟩ <;> clear hone h₁ h₄ h₅
    · clear h₃
      simp_all [calling]
    · clear h₂
      simp_all [testsRunningFirst]

/-- Without a listener nothing is unacknowledged. -/
theorem PaceInv.unacked_nil {s : State} (hi : PaceInv s) (h : s.registered = false) :
    s.unacked = [] := by
  apply List.eq_nil_iff_forall_not_mem.mpr
  intro n hn
  have := (hi.seen n hn).1
  rw [h] at this
  cases this

theorem PaceInv.control {s s' : State} (hi : PaceInv s) (h : ControlMove s s')
    (hok : s.control = .deregister → s.unacked = []) : PaceInv s' := by
  have hone := hi.one.control h
  have hnone := hi.one.life.noWorker
  have hno := hi.one.life.noListener
  have hnil := hi.unacked_nil
  obtain ⟨-, h₁, h₂, h₃, h₄, h₅⟩ := hi
  cases h with
  | register hc =>
    have hnil' : s.unacked = [] := hnil (hno (.inl (by simp [State.closed, hc])))
    refine ⟨hone, by simp [hnil'], h₂, h₃, ?_, h₅⟩
    exact fun _ => h₄ (.inr hc)
  | drain hc =>
    refine ⟨hone, h₁, h₂, h₃, ?_, by simp⟩
    simp [Control.starting]
  | join hc hw =>
    refine ⟨hone, h₁, ?_, fun hst => ⟨(h₃ hst).1, rfl⟩, by simp [Control.starting], h₅⟩
    rcases hw with hw | hw
    · simpa [hw, calling] using h₂
    · simpa [hw, calling] using h₂
  | deregister hc hn =>
    have hnil' := hok hc
    refine ⟨hone, by simp [hnil'], h₂, h₃, ?_, h₅⟩
    simp [Control.starting]
  | _ =>
    refine ⟨hone, h₁, ?_, ?_, ?_, h₅⟩ <;>
      simp_all [calling, testsRunningFirst, Control.starting, Control.joined, State.closed]

/-- Steps that leave the flags, the worker and the calls alone. -/
theorem PaceInv.congr {s s' : State} (hi : PaceInv s) (hone : OneInFlight s')
    (hu : s'.unacked = s.unacked) (hreg : s'.registered = s.registered)
    (hs : s'.session = s.session) (hf : s'.inFlight = s.inFlight) (hw : s'.worker = s.worker)
    (hr : s'.running = s.running) (hst : s'.stopped = s.stopped) (hc : s'.control = s.control)
    (hcalls : s'.calls = s.calls) : PaceInv s' := by
  refine ⟨hone, ?_, ?_, ?_, ?_, ?_⟩
  · rw [hu, hreg, hs]
    exact hi.seen
  · rw [hf, hu, hw]
    exact hi.really
  · rw [hst, hr, hw]
    exact hi.stop
  · rw [hc, hst]
    exact hi.fresh
  · rw [hcalls]
    exact hi.early

theorem paceInv_step {s s' : State} (e : Event) (hok : CleanShutdown s e)
    (h : step s e = some s') (hi : PaceInv s) : PaceInv s' := by
  have hone := oneInFlight_step e h hi.one
  cases e with
  | work => exact hi.worker (workerMove_of_workerStep h)
  | probe ec n =>
    obtain ⟨p, hw, rfl⟩ := probeStep_spec h
    have hstop := hi.stop
    have hreally := hi.really
    rw [hw] at hstop hreally
    exact ⟨hone, hi.seen, by simpa [calling] using hreally,
      by simpa [testsRunningFirst] using hstop, hi.fresh, hi.early⟩
  | sendData ec =>
    have hstop : ∀ {p : Pdu} {m offset : Nat}, s.worker = .send p m offset →
        s.stopped = false := by
      intro p m offset hw
      have hst := hi.stop
      simpa [hw, testsRunningFirst] using hst
    have hearly : ∀ {p : Pdu} {m offset : Nat}, s.worker = .send p m offset →
        ∀ c ∈ s.calls ++ [callAt s p m offset ec], c.stopped = false := by
      intro p m offset hw c hc
      rcases List.mem_append.mp hc with hc | hc
      · exact hi.early c hc
      · rw [List.mem_singleton.mp hc]
        exact hstop hw
    obtain ⟨p, m, offset, hw, ⟨-, rfl⟩ | ⟨-, rfl⟩⟩ := sendStep_spec h
    · have hnone := hi.one.none (by rw [hw]; rfl)
      have hreg := hi.one.life.listener (.inl (by simp [hw]))
      refine ⟨hone, ?_, by simp, by simp [hstop hw], hi.fresh, hearly hw⟩
      simp [hnone, hreg]
    · exact ⟨hone, hi.seen, fun _ => .inr rfl, by simp [hstop hw], hi.fresh, hearly hw⟩
  | sendAudioFrame bytes emergency =>
    obtain rfl := Option.some.inj h
    rcases sendAudioFrame_spec s bytes emergency with ⟨-, heq⟩ | ⟨-, -, heq⟩
    · rw [heq]
      exact hi
    · rw [heq] at hone ⊢
      exact hi.congr hone rfl rfl rfl rfl rfl rfl rfl rfl rfl
  | init manager ready =>
    obtain ⟨-, -, c, -, rfl⟩ := initStep_spec h
    exact ⟨hone, hi.seen, hi.really, by simp, fun _ => rfl, hi.early⟩
  | control b ec n ns ss => exact hi.control (controlMove_of_controlStep h) hok
  | shutdown =>
    obtain ⟨-, rfl⟩ := shutdownStep_spec h
    exact ⟨hone, hi.seen, hi.really, fun _ => ⟨rfl, hok⟩, by simp [Control.starting], hi.early⟩
  | ack n =>
    obtain ⟨hmem, ⟨-, -, rfl⟩ | ⟨hnot, rfl⟩⟩ := ackStep_spec h
    · have hnil := hi.one.erase hmem
      exact ⟨hone, by simp [hnil], by simp, hi.stop, hi.fresh, hi.early⟩
    · exact absurd (hi.seen n hmem) hnot
  | ntnState state ss =>
    obtain ⟨-, rfl⟩ := callback_spec h
    exact hi.congr hone rfl rfl rfl rfl rfl rfl rfl rfl rfl
  | serviceStatus status ns =>
    obtain ⟨-, rfl⟩ := callback_spec h
    exact hi.congr hone rfl rfl rfl rfl rfl rfl rfl rfl rfl
  | capabilities n =>
    obtain ⟨-, ⟨-, rfl⟩ | ⟨-, rfl⟩⟩ := capabilities_spec h
    · exact hi
    · exact hi.congr hone rfl rfl rfl rfl rfl rfl rfl rfl rfl

/-! ## The result -/

/-- Stop-and-wait in a state: at most one chunk is unacknowledged; a worker that waits with
`inFlight_` raised waits for a chunk of the registered session; no call was made after
`stopWorker_` had cleared `running_`. -/
structure StopAndWait (s : State) : Prop where
  one : s.unacked.length ≤ 1
  opens : s.inFlight = true → waiting s.worker = true →
    s.registered = true ∧ s.session ∈ s.unacked
  silent : ∀ c ∈ s.calls, c.stopped = false

theorem PaceInv.stopAndWait {s : State} (hi : PaceInv s) : StopAndWait s where
  one := hi.one.atMostOne
  opens hf hw := by
    rcases hi.really hf with hne | hc
    · obtain ⟨n, hn⟩ := List.exists_mem_of_ne_nil _ hne
      obtain ⟨hreg, rfl⟩ := hi.seen n hn
      exact ⟨hreg, hn⟩
    · cases hworker : s.worker <;> simp_all [waiting, calling]
  silent := hi.early

/-- Stop-and-wait holds in every state of every run with clean shutdowns, over any number of
sessions. -/
theorem stopAndWait_of_cleanShutdown (o : Option Nat) {s : State}
    (h : Reachable step CleanShutdown (State.init o) s) : StopAndWait s :=
  (h.invariant (paceInv_init o) fun _ e _ hok hs hi => paceInv_step e hok hs hi).stopAndWait

/-- A chunk is sent and acknowledged, the service is shut down and brought up again, and the
next chunk is on its way. -/
theorem stopAndWait_second_session :
    ∃ s, Reachable step CleanShutdown (State.init none) s ∧
      (s.session, s.unacked, s.inFlight, waiting s.worker) = (2, [2], true, true) ∧
      StopAndWait s := by
  obtain ⟨s, hs, heq⟩ := exists_reachable_of_run step CleanShutdown (State.init none)
    (fun s => (s.session, s.unacked, s.inFlight, waiting s.worker)) (2, [2], true, true)
    (List.flatten [bringUp 4, [.sendAudioFrame [1, 2, 3] false], takeFrame,
      [.work, .sendData .success, .ack 1, .shutdown], List.replicate 2 .work, tearDown,
      bringUp 4, [.sendAudioFrame [4] false], takeFrame, [.work, .sendData .success]])
    (by decide)
  exact ⟨s, hs, heq, stopAndWait_of_cleanShutdown none hs⟩

/-- A shutdown before the acknowledgement: the next session waits for a chunk that is not
its own. -/
theorem not_stopAndWait_stale_inFlight :
    ¬ ∀ (o : Option Nat) (s : State), Reachable step anyStep (State.init o) s →
      StopAndWait s := by
  intro h
  obtain ⟨s, hs, heq⟩ := exists_reachable_of_run step anyStep (State.init none)
    (fun s => (s.session, s.unacked, s.inFlight, waiting s.worker)) (2, [], true, true)
    (List.flatten [bringUp 4, [.sendAudioFrame [1, 2, 3] false], takeFrame,
      [.work, .sendData .success, .shutdown], List.replicate 2 .work, tearDown, [.ack 1],
      bringUp 4, [.work]])
    (by decide)
  simp only [Prod.mk.injEq] at heq
  obtain ⟨hsess, hun, hf, hw⟩ := heq
  have hmem := ((h none s hs).opens hf hw).2
  rw [hun] at hmem
  cases hmem

end SatComm.Service
