import SatComm.Service.State

/-!
# What a step can do, and the life cycle of the worker thread

`WorkerMove` lists the steps of `workerLoop_`, each with its guard, so that an invariant is
checked move by move. `Life` ties the worker thread to the calls of `init` and `shutdown`:
outside `shutdown`'s join there is a thread only between a complete `init` and the next
`shutdown`, and the listener is registered as long as there is one.
-/

namespace SatComm.Service

/-! ## The moves of the worker -/

/-- The steps of `workerLoop_` that do not call the manager. -/
inductive WorkerMove (s : State) : State → Prop
  | begin (hw : s.worker = .created) :
    WorkerMove s { s with running := true, worker := .wait .running }
  /-- Inside the predicate of the outer wait, or back to its start. -/
  | look {l l' : Load} (hw : s.worker = .wait l) : WorkerMove s { s with worker := .wait l' }
  /-- The predicate of the outer wait is true. -/
  | wake {l : Load} (hw : s.worker = .wait l) : WorkerMove s { s with worker := .check .running }
  | goOn (hw : s.worker = .check .running) (hr : s.running = true) :
    WorkerMove s { s with worker := .check .queue }
  | leave (hw : s.worker = .check .running) (hr : s.running = false) :
    WorkerMove s { s with worker := .exited }
  | again {l : Load} (hw : s.worker = .check l) (hl : l ≠ .running) :
    WorkerMove s { s with worker := .wait .running }
  | nonempty (hw : s.worker = .check .queue) : WorkerMove s { s with worker := .check .service }
  | gateOpen (hw : s.worker = .check .service) (hg : s.serviceOk = true) :
    WorkerMove s { s with worker := .check .inFlight }
  | pop {p : Pdu} {q : List Pdu} (hw : s.worker = .check .inFlight) (hf : s.inFlight = false)
    (hq : s.q = p :: q) : WorkerMove s { s with q := q, worker := .popped p }
  | loadMtu {p : Pdu} (hw : s.worker = .popped p) (hm : s.mtu ≠ 0) :
    WorkerMove s { s with worker := .chunk p s.mtu 0 }
  | unknownMtu {p : Pdu} (hw : s.worker = .popped p) (hm : s.mtu = 0) :
    WorkerMove s { s with worker := .probe p }
  | storeMtu {p : Pdu} {m : Nat} (hw : s.worker = .store p m) :
    WorkerMove s { s with mtu := m, worker := .chunk p m 0 }
  | raise {p : Pdu} {m offset : Nat} (hw : s.worker = .chunk p m offset)
    (hlt : offset < p.bytes.length) :
    WorkerMove s { s with inFlight := true, worker := .send p m offset }
  | frameDone {p : Pdu} {m offset : Nat} (hw : s.worker = .chunk p m offset)
    (hge : p.bytes.length ≤ offset) : WorkerMove s { s with worker := .wait .running }
  | lower {p : Pdu} {m offset : Nat} (hw : s.worker = .failed p m offset) :
    WorkerMove s { s with inFlight := false, worker := .requeue p m offset }
  | requeue {p : Pdu} {m offset : Nat} {q : List Pdu} (hw : s.worker = .requeue p m offset) :
    WorkerMove s { s with q := q, worker := .wait .running }
  | stillRunning {p : Pdu} {m offset : Nat} (hw : s.worker = .await p m offset)
    (hr : s.running = true) : WorkerMove s { s with worker := .awaitAck p m offset }
  | stopSeen {p : Pdu} {m offset : Nat} (hw : s.worker = .await p m offset)
    (hr : s.running = false) : WorkerMove s { s with worker := .acked p m offset }
  | stillInFlight {p : Pdu} {m offset : Nat} (hw : s.worker = .awaitAck p m offset)
    (hf : s.inFlight = true) : WorkerMove s { s with worker := .await p m offset }
  | ackSeen {p : Pdu} {m offset : Nat} (hw : s.worker = .awaitAck p m offset)
    (hf : s.inFlight = false) : WorkerMove s { s with worker := .acked p m offset }
  | nextChunk {p : Pdu} {m offset : Nat} (hw : s.worker = .acked p m offset)
    (hr : s.running = true) :
    WorkerMove s { s with worker := .chunk p m (offset + sendSz p m offset) }
  | giveUp {p : Pdu} {m offset : Nat} (hw : s.worker = .acked p m offset)
    (hr : s.running = false) : WorkerMove s { s with worker := .exited }

/-- Nothing else happens in `workerLoop_`. -/
theorem workerMove_of_workerStep {s s' : State} (h : workerStep s = some s') :
    WorkerMove s s' := by
  unfold workerStep at h
  split at h
  case h_1 hw => exact Option.some.inj h ▸ .begin hw
  case h_2 hw =>
    obtain rfl := Option.some.inj h
    split
    · exact .look hw
    · exact .wake hw
  case h_3 hw =>
    obtain rfl := Option.some.inj h
    split <;> exact .look hw
  case h_4 hw =>
    obtain rfl := Option.some.inj h
    split <;> exact .look hw
  case h_5 hw =>
    obtain rfl := Option.some.inj h
    split
    · exact .look hw
    · exact .wake hw
  case h_6 hw =>
    obtain rfl := Option.some.inj h
    split
    · exact .goOn hw ‹_›
    · exact .leave hw (Bool.eq_false_of_not_eq_true ‹_›)
  case h_7 hw =>
    obtain rfl := Option.some.inj h
    split
    · exact .again hw (by decide)
    · exact .nonempty hw
  case h_8 hw =>
    obtain rfl := Option.some.inj h
    split
    · exact .gateOpen hw ‹_›
    · exact .again hw (by decide)
  case h_9 hw =>
    split at h
    · exact Option.some.inj h ▸ .again hw (by decide)
    · split at h
      · cases h
      · exact Option.some.inj h ▸ .pop hw (Bool.eq_false_of_not_eq_true ‹_›) ‹_›
  case h_10 hw =>
    obtain rfl := Option.some.inj h
    split
    · exact .unknownMtu hw ‹_›
    · exact .loadMtu hw ‹_›
  case h_11 hw => exact Option.some.inj h ▸ .storeMtu hw
  case h_12 hw =>
    split at h
    · exact Option.some.inj h ▸ .raise hw ‹_›
    · exact Option.some.inj h ▸ .frameDone hw (by omega)
  case h_13 hw => exact Option.some.inj h ▸ .lower hw
  case h_14 hw =>
    simp only at h
    split at h
    · exact Option.some.inj h ▸ .requeue hw
    · exact Option.some.inj h ▸ .requeue hw
  case h_15 hw =>
    obtain rfl := Option.some.inj h
    split
    · exact .stillRunning hw ‹_›
    · exact .stopSeen hw (Bool.eq_false_of_not_eq_true ‹_›)
  case h_16 hw =>
    obtain rfl := Option.some.inj h
    split
    · exact .stillInFlight hw ‹_›
    · exact .ackSeen hw (Bool.eq_false_of_not_eq_true ‹_›)
  case h_17 hw =>
    obtain rfl := Option.some.inj h
    split
    · exact .nextChunk hw ‹_›
    · exact .giveUp hw (Bool.eq_false_of_not_eq_true ‹_›)
  all_goals cases h

/-- The thread is there before and after a move, and the life cycle does not move. -/
theorem WorkerMove.frame {s s' : State} (h : WorkerMove s s') :
    s.worker ≠ .none ∧ s'.worker ≠ .none ∧ s'.control = s.control ∧ s'.ntn = s.ntn ∧
      s'.registered = s.registered := by
  cases h <;> simp_all

/-! ## The calls into the manager -/

/-- The limit the worker stores after its capability probe. -/
theorem probeStep_spec {s s' : State} {ec : ErrorCode} {n : Nat}
    (h : probeStep s ec n = some s') :
    ∃ p, s.worker = .probe p ∧
      s' = { s with reported := reportOf s ec n, worker := .store p (probedMtu ec n) } := by
  unfold probeStep at h
  split at h
  · exact ⟨_, ‹_›, (Option.some.inj h).symm⟩
  · cases h

/-- The record of a call made at `offset`. -/
def callAt (s : State) (p : Pdu) (m offset : Nat) (ec : ErrorCode) : SendCall :=
  { bytes := (p.bytes.drop offset).take (sendSz p m offset), emergency := p.emergency,
    result := ec, mtu := s.mtu, reported := s.reported, serviceOk := s.serviceOk,
    stopped := s.stopped }

theorem sendStep_spec {s s' : State} {ec : ErrorCode} (h : sendStep s ec = some s') :
    ∃ p m offset, s.worker = .send p m offset ∧
      ((ec = .success ∧ s' = { s with unacked := s.session :: s.unacked
                                      calls := s.calls ++ [callAt s p m offset ec]
                                      worker := .await p m offset }) ∨
        (ec ≠ .success ∧ s' = { s with calls := s.calls ++ [callAt s p m offset ec]
                                       worker := .failed p m offset })) := by
  unfold sendStep at h
  split at h
  · rename_i p m offset hw
    simp only at h
    split at h
    · exact ⟨p, m, offset, hw, .inl ⟨‹_›, (Option.some.inj h).symm⟩⟩
    · exact ⟨p, m, offset, hw, .inr ⟨‹_›, (Option.some.inj h).symm⟩⟩
  · cases h

/-- The acknowledgement of a chunk: seen or not, one chunk less is waited for. -/
theorem ackStep_spec {s s' : State} {n : Nat} (h : ackStep s n = some s') :
    n ∈ s.unacked ∧
      ((s.registered = true ∧ n = s.session ∧
          s' = { s with unacked := s.unacked.erase n, inFlight := false }) ∨
        (¬ (s.registered = true ∧ n = s.session) ∧
          s' = { s with unacked := s.unacked.erase n })) := by
  unfold ackStep at h
  split at h
  · rename_i hmem
    refine ⟨hmem, ?_⟩
    simp only at h
    split at h
    · rename_i hseen
      exact .inl ⟨hseen.1, hseen.2, (Option.some.inj h).symm⟩
    · exact .inr ⟨‹_›, (Option.some.inj h).symm⟩
  · cases h

/-! ## Producers and callbacks -/

/-- A frame is refused and nothing changes, or it goes to the end of the queue. -/
theorem sendAudioFrame_spec (s : State) (bytes : List UInt8) (emergency : Bool) :
    ((sendAudioFrame s bytes emergency).1 ≠ .success ∧
        (sendAudioFrame s bytes emergency).2 = s) ∨
      ((sendAudioFrame s bytes emergency).1 = .success ∧ bytes ≠ [] ∧
        (sendAudioFrame s bytes emergency).2 =
          { s with
            q := s.q ++ [⟨bytes, emergency⟩]
            accepted := s.accepted ++ [⟨bytes, emergency⟩] }) := by
  unfold sendAudioFrame
  split
  · exact .inl ⟨by simp, rfl⟩
  · split
    · exact .inl ⟨by simp, rfl⟩
    · rename_i hne
      exact .inr ⟨rfl, by simpa using hne, rfl⟩

/-- A callback needs the listener. -/
theorem callback_spec {s s' t : State}
    (h : (if s.registered then some t else none) = some s') : s.registered = true ∧ s' = t := by
  split at h
  · exact ⟨‹_›, (Option.some.inj h).symm⟩
  · cases h

theorem capabilities_spec {s s' : State} {n : Nat} (h : step s (.capabilities n) = some s') :
    s.registered = true ∧
      ((n = 0 ∧ s' = s) ∨ (0 < n ∧ s' = { s with mtu := n, reported := some n })) := by
  obtain ⟨hreg, rfl⟩ := callback_spec h
  refine ⟨hreg, ?_⟩
  unfold onCapabilitiesChange
  split
  · exact .inr ⟨‹_›, rfl⟩
  · exact .inl ⟨by omega, rfl⟩

/-! ## The moves of `init` and `shutdown` -/

theorem initStep_spec {s s' : State} {manager : Bool} {ready : ServiceStatus}
    (h : initStep s manager ready = some s') :
    s.control = .idle ∧ s.ntn = false ∧ ∃ c, (c = .register ∧ manager = true ∨ c = .idle) ∧
      s' = { s with ntn := manager, stopped := false, control := c } := by
  unfold initStep at h
  split at h
  · rename_i hs
    refine ⟨hs.1, hs.2, _, ?_, (Option.some.inj h).symm⟩
    split
    · exact .inl ⟨rfl, And.left ‹_›⟩
    · exact .inr rfl
  · cases h

theorem shutdownStep_spec {s s' : State} (h : shutdownStep s = some s') :
    s.control = .idle ∧ s' = { s with running := false, stopped := true, control := .join } := by
  unfold shutdownStep at h
  split at h
  · exact ⟨‹_›, (Option.some.inj h).symm⟩
  · cases h

/-- The steps of `init` behind `getNtnManager` and of `shutdown` behind the store to
`running_`. -/
inductive ControlMove (s : State) : State → Prop
  | register (hc : s.control = .register) :
    ControlMove s { s with registered := true, session := s.session + 1, control := .prime }
  | refused (hc : s.control = .register) : ControlMove s { s with control := .idle }
  | prime {n : Nat} (hc : s.control = .prime) (hn : 0 < n) :
    ControlMove s { s with reported := some n, control := .storeMtu n }
  | noPrime (hc : s.control = .prime) : ControlMove s { s with control := .observe }
  | storeMtu {n : Nat} (hc : s.control = .storeMtu n) :
    ControlMove s { s with mtu := n, control := .observe }
  | observe {ok : Bool} (hc : s.control = .observe) :
    ControlMove s { s with control := .storeGate ok }
  | storeGate {ok : Bool} (hc : s.control = .storeGate ok) :
    ControlMove s { s with serviceOk := ok, control := .raise }
  | raise (hc : s.control = .raise) : ControlMove s { s with running := true, control := .start }
  | start (hc : s.control = .start) (hw : s.worker = .none) :
    ControlMove s { s with worker := .created, control := .idle }
  | joinable (hc : s.control = .start) (hw : s.worker ≠ .none) :
    ControlMove s { s with control := .idle }
  | join (hc : s.control = .join) (hw : s.worker = .none ∨ s.worker = .exited) :
    ControlMove s { s with worker := .none, control := .drain }
  | drain (hc : s.control = .drain) :
    ControlMove s { s with q := [], accepted := [], calls := [], control := .deregister }
  | deregister (hc : s.control = .deregister) (hn : s.ntn = true) :
    ControlMove s { s with registered := false, control := .release }
  | noManager (hc : s.control = .deregister) (hn : s.ntn = false) :
    ControlMove s { s with control := .idle }
  | release (hc : s.control = .release) : ControlMove s { s with ntn := false, control := .idle }

theorem controlMove_of_controlStep {s s' : State} {registers : Bool} {ec : ErrorCode} {n : Nat}
    {ns : NtnState} {ss : ServiceStatus} (h : controlStep s registers ec n ns ss = some s') :
    ControlMove s s' := by
  unfold controlStep at h
  split at h
  case h_1 => cases h
  case h_2 hc =>
    split at h
    · exact Option.some.inj h ▸ .register hc
    · exact Option.some.inj h ▸ .refused hc
  case h_3 hc =>
    obtain rfl := Option.some.inj h
    unfold reportOf
    split
    · exact .prime hc (And.right ‹_›)
    · exact .noPrime hc
  case h_4 hc => exact Option.some.inj h ▸ .storeMtu hc
  case h_5 hc => exact Option.some.inj h ▸ .observe hc
  case h_6 hc => exact Option.some.inj h ▸ .storeGate hc
  case h_7 hc => exact Option.some.inj h ▸ .raise hc
  case h_8 hc =>
    obtain rfl := Option.some.inj h
    split
    · exact .start hc ‹_›
    · exact .joinable hc ‹_›
  case h_9 hc =>
    split at h
    · exact Option.some.inj h ▸ .join hc ‹_›
    · cases h
  case h_10 hc => exact Option.some.inj h ▸ .drain hc
  case h_11 hc =>
    split at h
    · exact Option.some.inj h ▸ .deregister hc ‹_›
    · exact Option.some.inj h ▸ .noManager hc (Bool.eq_false_of_not_eq_true ‹_›)
  case h_12 hc => exact Option.some.inj h ▸ .release hc

/-! ## The life cycle -/

/-- `init` has registered the listener and not yet started the worker. -/
def Control.starting : Control → Bool
  | .prime | .storeMtu _ | .observe | .storeGate _ | .raise | .start => true
  | _ => false

/-- `shutdown` has joined the worker. -/
def Control.joined : Control → Bool
  | .drain | .deregister | .release => true
  | _ => false

/-- There is no session: no manager, or one that `init` has just got. -/
def State.closed (s : State) : Bool :=
  (s.control == .idle && !s.ntn) || s.control == .register

structure Life (s : State) : Prop where
  noWorker : s.closed = true ∨ s.control.starting = true ∨ s.control.joined = true →
    s.worker = .none
  listener : s.worker ≠ .none ∨ s.control.starting = true → s.registered = true
  noListener : s.closed = true ∨ s.control = .release → s.registered = false
  manager : s.registered = true ∨ s.control = .register → s.ntn = true

theorem life_init (o : Option Nat) : Life (State.init o) :=
  ⟨fun _ => rfl, by simp [State.init, Control.starting], fun _ => rfl, by simp [State.init]⟩

/-- Steps that move neither the life cycle nor the existence of the thread. -/
theorem Life.congr {s s' : State} (hl : Life s) (hw : s'.worker = .none ↔ s.worker = .none)
    (hc : s'.control = s.control) (hn : s'.ntn = s.ntn) (hr : s'.registered = s.registered) :
    Life s' := by
  have hopen : s'.closed = s.closed := by rw [State.closed, State.closed, hc, hn]
  refine ⟨?_, ?_, ?_, ?_⟩
  · rw [hopen, hc, hw]
    exact hl.noWorker
  · rw [hr, hc, ne_eq, hw]
    exact hl.listener
  · rw [hopen, hc, hr]
    exact hl.noListener
  · rw [hr, hc, hn]
    exact hl.manager

theorem Life.worker {s s' : State} (hl : Life s) (h : WorkerMove s s') : Life s' := by
  obtain ⟨hw, hw', hc, hn, hr⟩ := h.frame
  exact hl.congr (by simp [hw, hw']) hc hn hr

theorem Life.control {s s' : State} (hl : Life s) (h : ControlMove s s') : Life s' := by
  obtain ⟨hw, hli, hno, hm⟩ := hl
  cases h <;> constructor <;> simp_all [State.closed, Control.starting, Control.joined]

theorem life_step {s s' : State} (e : Event) (h : step s e = some s') (hl : Life s) :
    Life s' := by
  cases e with
  | work => exact hl.worker (workerMove_of_workerStep h)
  | probe ec n =>
    obtain ⟨p, hw, rfl⟩ := probeStep_spec h
    exact hl.congr (by simp [hw]) rfl rfl rfl
  | sendData ec =>
    obtain ⟨p, m, offset, hw, ⟨-, rfl⟩ | ⟨-, rfl⟩⟩ := sendStep_spec h
    · exact hl.congr (by simp [hw]) rfl rfl rfl
    · exact hl.congr (by simp [hw]) rfl rfl rfl
  | sendAudioFrame bytes emergency =>
    obtain rfl := Option.some.inj h
    rcases sendAudioFrame_spec s bytes emergency with ⟨-, heq⟩ | ⟨-, -, heq⟩
    · rw [heq]
      exact hl
    · rw [heq]
      exact hl.congr Iff.rfl rfl rfl rfl
  | init manager ready =>
    obtain ⟨hc, hn, c, hcases, rfl⟩ := initStep_spec h
    obtain ⟨hw, hli, hno, hm⟩ := hl
    rcases hcases with ⟨rfl, rfl⟩ | rfl
    · constructor <;> simp_all [State.closed, Control.starting, Control.joined]
    · constructor <;> simp_all [State.closed, Control.starting, Control.joined]
  | control b ec n ns ss => exact hl.control (controlMove_of_controlStep h)
  | shutdown =>
    obtain ⟨hc, rfl⟩ := shutdownStep_spec h
    obtain ⟨hw, hli, hno, hm⟩ := hl
    constructor <;> simp_all [State.closed, Control.starting, Control.joined]
  | ack n =>
    obtain ⟨-, ⟨-, -, rfl⟩ | ⟨-, rfl⟩⟩ := ackStep_spec h
    · exact hl.congr Iff.rfl rfl rfl rfl
    · exact hl.congr Iff.rfl rfl rfl rfl
  | ntnState state ss =>
    obtain ⟨-, rfl⟩ := callback_spec h
    exact hl.congr Iff.rfl rfl rfl rfl
  | serviceStatus status ns =>
    obtain ⟨-, rfl⟩ := callback_spec h
    exact hl.congr Iff.rfl rfl rfl rfl
  | capabilities n =>
    obtain ⟨-, ⟨-, rfl⟩ | ⟨-, rfl⟩⟩ := capabilities_spec h
    · exact hl
    · exact hl.congr Iff.rfl rfl rfl rfl

end SatComm.Service
