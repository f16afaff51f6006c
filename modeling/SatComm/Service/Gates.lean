import SatComm.Service.Lifecycle

/-!
# The gates of a `sendData` call

Each chunk should respect the MTU, the configured cap and the service gate of the moment it is
sent. The worker looks at the gate once, before it takes a frame, and at `mtu_` once, after it
has taken it; it never looks at `max_tx_pdu_override`. So the chunks respect the gates in the
runs in which these two looks stay good until the frame is sent.
-/

namespace SatComm.Service

open Runs

/-! ## The gates -/

/-- What a call owes: between one byte and `mtu_`, which no report contradicts, no more than the
configured cap, and an open service gate. -/
structure GatesRespected (maxTxPduOverride : Option Nat) (c : SendCall) : Prop where
  nonempty : 1 ≤ c.bytes.length
  mtu : c.bytes.length ≤ c.mtu
  reported : ∀ r, c.reported = some r → c.bytes.length ≤ r
  cap : ∀ n, maxTxPduOverride = some n → c.bytes.length ≤ n
  service : c.serviceOk = true

/-- The frame being sent, its size limit, and how much of it is past `sendData`. -/
def sending : Worker → Option (Pdu × Nat × Nat)
  | .chunk p m offset | .send p m offset => some (p, m, offset)
  | .await p m offset | .awaitAck p m offset | .acked p m offset =>
    some (p, m, offset + sendSz p m offset)
  | _ => none

/-- The size of the next chunk of the frame being sent, when one is left. The later chunks are
no larger. -/
def nextSize (w : Worker) : Option Nat :=
  match sending w with
  | some (p, m, offset) => if offset < p.bytes.length then some (sendSz p m offset) else none
  | none => none

/-- The worker has seen an open gate and has a chunk to send for it. -/
def counting (w : Worker) : Bool :=
  match w with
  | .check .inFlight | .popped _ | .probe _ | .store .. => true
  | w => (nextSize w).isSome

/-- The worker has a size limit to store to `mtu_`. -/
def storesLimit : Worker → Bool
  | .store .. => true
  | _ => false

/-- `init` has a size limit to store to `mtu_`. -/
def primesMtu : Control → Bool
  | .storeMtu _ => true
  | _ => false

/-- The first, largest chunk of a frame is within the configured cap. -/
def WithinCap (s : State) (p : Pdu) (m : Nat) : Prop :=
  ∀ n ∈ s.maxTxPduOverride, sendSz p m 0 ≤ n

instance (s : State) (p : Pdu) (m : Nat) : Decidable (WithinCap s p m) :=
  inferInstanceAs (Decidable (∀ n ∈ s.maxTxPduOverride, _))

/-- The looks of the worker stay good: the limit of a frame keeps its chunks within the cap,
the fallback limit is not taken once a size was reported, no report crosses a store to `mtu_`
or undercuts the next chunk, and the service gate does not close on a worker that counts on
it. -/
def SteadyGates (s : State) : Event → Prop
  | .work =>
    match s.worker with
    | .popped p => s.mtu ≠ 0 → WithinCap s p s.mtu
    | .store p m => WithinCap s p m
    | _ => True
  | .probe ec n => (ec = .success ∧ 0 < n) ∨ s.reported = none
  | .capabilities n => 0 < n →
    storesLimit s.worker = false ∧ primesMtu s.control = false ∧ ∀ k ∈ nextSize s.worker, k ≤ n
  | .ntnState state ss =>
    counting s.worker = true → (onNtnStateChange s state ss).serviceOk = true
  | .serviceStatus status ns =>
    counting s.worker = true → (onServiceStatusChange s status ns).serviceOk = true
  | _ => True

instance (s : State) : (e : Event) → Decidable (SteadyGates s e)
  | .work =>
    match h : s.worker with
    | .popped p => decidable_of_iff (s.mtu ≠ 0 → WithinCap s p s.mtu) (by simp [SteadyGates, h])
    | .store p m => decidable_of_iff (WithinCap s p m) (by simp [SteadyGates, h])
    | .none | .created | .wait _ | .check _ | .probe _ | .chunk .. | .send .. | .failed .. |
      .requeue .. | .await .. | .awaitAck .. | .acked .. | .exited =>
      decidable_of_iff True (by simp [SteadyGates, h])
  | .probe ec n => inferInstanceAs (Decidable ((ec = .success ∧ 0 < n) ∨ s.reported = none))
  | .capabilities n => inferInstanceAs (Decidable (0 < n → _ ∧ _ ∧ ∀ k ∈ nextSize s.worker, k ≤ n))
  | .ntnState state ss => inferInstanceAs (Decidable (_ → (onNtnStateChange s state ss).serviceOk = true))
  | .serviceStatus status ns =>
    inferInstanceAs (Decidable (_ → (onServiceStatusChange s status ns).serviceOk = true))
  | .sendData _ | .sendAudioFrame .. | .init .. | .control .. | .shutdown | .ack _ =>
    inferInstanceAs (Decidable True)

/-! ## The invariant -/

theorem sendSz_pos {p : Pdu} {m offset : Nat} (hm : 0 < m) (h : offset < p.bytes.length) :
    0 < sendSz p m offset := by
  unfold sendSz
  simp only
  split <;> omega

theorem sendSz_le_remain (p : Pdu) (m offset : Nat) :
    sendSz p m offset ≤ p.bytes.length - offset := by
  unfold sendSz
  simp only
  split <;> omega

/-- Chunks do not grow. -/
theorem sendSz_anti (p : Pdu) (m : Nat) {i j : Nat} (h : i ≤ j) :
    sendSz p m j ≤ sendSz p m i := by
  unfold sendSz
  simp only
  split
  · split <;> omega
  · split <;> omega

theorem sendSz_le_limit (p : Pdu) (m offset : Nat) : sendSz p m offset ≤ m := by
  unfold sendSz
  simp only
  split <;> omega

theorem probedMtu_pos (ec : ErrorCode) (n : Nat) : 0 < probedMtu ec n := by
  unfold probedMtu
  by_cases h : (if ec = .success then n else 0) = 0
  · rw [if_pos h]
    omega
  · rw [if_neg h]
    omega

theorem nextSize_of_sending {w : Worker} {p : Pdu} {m offset k : Nat}
    (h : sending w = some (p, m, offset)) :
    nextSize w = some k ↔ offset < p.bytes.length ∧ sendSz p m offset = k := by
  rw [nextSize, h]
  simp

theorem counting_of_nextSize {w : Worker} {k : Nat} (h : nextSize w = some k) :
    counting w = true := by
  unfold counting
  split <;> simp_all

structure GateInv (o : Option Nat) (s : State) : Prop where
  life : Life s
  config : s.maxTxPduOverride = o
  known : storesLimit s.worker = false → primesMtu s.control = false →
    ∀ r, s.reported = some r → s.mtu = r
  stores : ∀ p m, s.worker = .store p m → 0 < m ∧ (s.reported = none ∨ s.reported = some m)
  primes : ∀ n, s.control = .storeMtu n → s.reported = some n
  limit : ∀ p m offset, sending s.worker = some (p, m, offset) → 0 < m
  left : ∀ p m offset, s.worker = .send p m offset → offset < p.bytes.length
  fits : ∀ k, nextSize s.worker = some k → k ≤ s.mtu ∧ ∀ n, o = some n → k ≤ n
  service : counting s.worker = true → s.serviceOk = true
  calls : ∀ c ∈ s.calls, GatesRespected o c

theorem gateInv_init (o : Option Nat) : GateInv o (State.init o) where
  life := life_init o
  config := rfl
  known := by simp [State.init]
  stores := by simp [State.init]
  primes := by simp [State.init]
  limit := by simp [State.init, sending]
  left := by simp [State.init]
  fits := by simp [State.init, nextSize, sending]
  service := by simp [State.init, counting, nextSize, sending]
  calls := by simp [State.init]

/-- A worker that exists keeps `init` out of the way. -/
theorem Life.primesMtu_eq {s : State} (hl : Life s) (hw : s.worker ≠ .none) :
    primesMtu s.control = false := by
  cases hc : s.control with
  | storeMtu n => exact absurd (hl.noWorker (.inr (.inl (by rw [hc]; rfl)))) hw
  | _ => rfl

/-- The worker starts on a frame with the limit `m`, which is in `mtu_`. -/
theorem GateInv.first {o : Option Nat} {s : State} (hi : GateInv o s) {p : Pdu} {m : Nat}
    (hl : Life { s with mtu := m, worker := .chunk p m 0 }) (hm : 0 < m)
    (hr : ∀ r, s.reported = some r → m = r) (hcap : WithinCap s p m) (hs : s.serviceOk = true) :
    GateInv o { s with mtu := m, worker := .chunk p m 0 } where
  life := hl
  config := hi.config
  known _ _ r h := hr r h
  stores := by simp
  primes := hi.primes
  limit p' m' offset h := by
    simp only [sending, Option.some.injEq, Prod.mk.injEq] at h
    omega
  left := by simp
  fits k hk := by
    rw [nextSize_of_sending rfl] at hk
    obtain ⟨-, rfl⟩ := hk
    refine ⟨sendSz_le_limit p m 0, fun n hn => ?_⟩
    exact hcap n (by rw [hi.config, hn]; rfl)
  service _ := hs
  calls := hi.calls

theorem GateInv.worker {o : Option Nat} {s s' : State} (hi : GateInv o s) (h : WorkerMove s s')
    (hok : SteadyGates s .work) : GateInv o s' := by
  have hl := hi.life.worker h
  have hprime : primesMtu s.control = false := hi.life.primesMtu_eq h.frame.1
  cases h with
  | @loadMtu p hw hm =>
    simp only [SteadyGates, hw] at hok
    exact hi.first hl (by omega) (hi.known (by simp [hw, storesLimit]) hprime) (hok hm)
      (hi.service (by simp [hw, counting]))
  | @storeMtu p m hw =>
    simp only [SteadyGates, hw] at hok
    obtain ⟨hm, hrep⟩ := hi.stores p m hw
    refine hi.first hl hm (fun r hr => ?_) hok (hi.service (by simp [hw, counting]))
    rcases hrep with hrep | hrep
    · rw [hrep] at hr
      cases hr
    · rw [hrep] at hr
      exact Option.some.inj hr
  | @raise p m offset hw hlt =>
    obtain ⟨-, h₁, h₂, -, h₄, h₅, -, h₇, h₈, h₉⟩ := hi
    rw [hw] at h₂ h₅ h₇ h₈
    refine ⟨hl, h₁, h₂, by simp, h₄, h₅, ?_, h₇, h₈, h₉⟩
    rintro p' m' offset' h'
    obtain ⟨rfl, -, rfl⟩ := Worker.send.inj h'
    exact hlt
  | _ =>
    obtain ⟨-, h₁, h₂, -, h₄, h₅, -, h₇, h₈, h₉⟩ := hi
    refine ⟨hl, h₁, ?_, by simp, h₄, ?_, by simp, ?_, ?_, h₉⟩
    -- the worker has no limit to store before or after
    · clear hl hok h₁ h₄ h₅ h₇ h₈ h₉
      simp_all [storesLimit]
    -- it goes on with the frame it was sending, if any
    · clear hl hok h₁ h₂ h₄ h₇ h₈ h₉
      simp_all [sending]
    · clear hl hok h₁ h₂ h₄ h₅ h₈ h₉
      simp_all [nextSize, sending]
    · clear hl hok h₁ h₂ h₄ h₅ h₇ h₉
      simp_all [counting, nextSize, sending]

/-- The call the worker makes respects the gates. -/
theorem GateInv.call {o : Option Nat} {s : State} (hi : GateInv o s) {p : Pdu} {m offset : Nat}
    (hw : s.worker = .send p m offset) (ec : ErrorCode) :
    GatesRespected o (callAt s p m offset ec) := by
  have hsend : sending s.worker = some (p, m, offset) := by rw [hw]; rfl
  have hlt := hi.left p m offset hw
  have hnext := (nextSize_of_sending hsend).mpr ⟨hlt, rfl⟩
  obtain ⟨hmtu, hcap⟩ := hi.fits _ hnext
  have hlen : (callAt s p m offset ec).bytes.length = sendSz p m offset := by
    have := sendSz_le_remain p m offset
    simp only [callAt, List.length_take, List.length_drop]
    omega
  have hnone : s.worker ≠ .none := by simp [hw]
  refine ⟨?_, ?_, ?_, ?_, ?_⟩
  · rw [hlen]
    exact sendSz_pos (hi.limit p m offset hsend) hlt
  · rw [hlen]
    exact hmtu
  · intro r hr
    rw [hlen, ← hi.known (by simp [hw, storesLimit]) (hi.life.primesMtu_eq hnone) r hr]
    exact hmtu
  · rw [hlen]
    exact hcap
  · exact hi.service (counting_of_nextSize hnext)

theorem GateInv.send {o : Option Nat} {s s' : State} (hi : GateInv o s) {ec : ErrorCode}
    (h : sendStep s ec = some s') (hl : Life s') : GateInv o s' := by
  obtain ⟨p, m, offset, hw, hs'⟩ := sendStep_spec h
  have hsend : sending s.worker = some (p, m, offset) := by rw [hw]; rfl
  have hlt := hi.left p m offset hw
  have hnext := (nextSize_of_sending hsend).mpr ⟨hlt, rfl⟩
  have hfits := hi.fits _ hnext
  have hcalls : ∀ c ∈ s.calls ++ [callAt s p m offset ec], GatesRespected o c := by
    intro c hc
    rcases List.mem_append.mp hc with hc | hc
    · exact hi.calls c hc
    · rw [List.mem_singleton.mp hc]
      exact hi.call hw ec
  have hknown := hi.known (by simp [hw, storesLimit])
  have hserv : s.serviceOk = true := hi.service (counting_of_nextSize hnext)
  rcases hs' with ⟨-, rfl⟩ | ⟨-, rfl⟩
  · refine ⟨hl, hi.config, fun _ => hknown, by simp, hi.primes, ?_, by simp, ?_,
      fun _ => hserv, hcalls⟩
    · intro p' m' offset' h'
      simp only [sending, Option.some.injEq, Prod.mk.injEq] at h'
      obtain ⟨-, rfl, -⟩ := h'
      exact hi.limit p m offset hsend
    · intro k hk
      rw [nextSize_of_sending rfl] at hk
      have hle : k ≤ sendSz p m offset := hk.2 ▸ sendSz_anti p m (by omega)
      exact ⟨hle.trans hfits.1, fun n hn => hle.trans (hfits.2 n hn)⟩
  · exact ⟨hl, hi.config, fun _ => hknown, by simp, hi.primes, by simp [sending], by simp,
      by simp [nextSize, sending], fun _ => hserv, hcalls⟩

theorem GateInv.probe {o : Option Nat} {s s' : State} (hi : GateInv o s) {ec : ErrorCode}
    {n : Nat} (h : probeStep s ec n = some s') (hl : Life s')
    (hok : (ec = .success ∧ 0 < n) ∨ s.reported = none) : GateInv o s' := by
  obtain ⟨p, hw, rfl⟩ := probeStep_spec h
  have hprime : primesMtu s.control = false := hi.life.primesMtu_eq (by simp [hw])
  have hserv : s.serviceOk = true := hi.service (by simp [hw, counting])
  have hlimit : 0 < probedMtu ec n ∧
      (reportOf s ec n = none ∨ reportOf s ec n = some (probedMtu ec n)) := by
    by_cases hrep : ec = .success ∧ 0 < n
    · have hn : n ≠ 0 := by omega
      simp [probedMtu, reportOf, hrep, hn]
    · have hnone := hok.resolve_left hrep
      exact ⟨probedMtu_pos ec n, .inl (by rw [reportOf, if_neg hrep, hnone])⟩
  refine ⟨hl, hi.config, by simp [storesLimit], ?_, ?_, by simp [sending], by simp,
    by simp [nextSize, sending], fun _ => hserv, hi.calls⟩
  · rintro p' m' h'
    obtain ⟨-, rfl⟩ := Worker.store.inj h'
    exact hlimit
  · intro k hk
    simp only at hk
    rw [hk] at hprime
    cases hprime

/-- Without a worker under way only `mtu_` and the past calls matter. -/
theorem gateInv_of_idle {o : Option Nat} {s : State} (hl : Life s)
    (hw : s.worker = .none ∨ s.worker = .created) (hc : s.maxTxPduOverride = o)
    (hk : primesMtu s.control = false → ∀ r, s.reported = some r → s.mtu = r)
    (hp : ∀ n, s.control = .storeMtu n → s.reported = some n)
    (hcalls : ∀ c ∈ s.calls, GatesRespected o c) : GateInv o s := by
  rcases hw with hw | hw
  · exact ⟨hl, hc, fun _ => hk, by simp [hw], hp, by simp [hw, sending], by simp [hw],
      by simp [hw, nextSize, sending], by simp [hw, counting, nextSize, sending], hcalls⟩
  · exact ⟨hl, hc, fun _ => hk, by simp [hw], hp, by simp [hw, sending], by simp [hw],
      by simp [hw, nextSize, sending], by simp [hw, counting, nextSize, sending], hcalls⟩

theorem GateInv.control {o : Option Nat} {s s' : State} (hi : GateInv o s)
    (h : ControlMove s s') : GateInv o s' := by
  have hl := hi.life.control h
  have hnone : s.control ≠ .join → s.control ≠ .idle → s.worker = .none := by
    intro hj hid
    apply hi.life.noWorker
    cases hc : s.control <;> simp_all [State.closed, Control.starting, Control.joined]
  have hknown : s.worker = .none ∨ s.worker = .exited → primesMtu s.control = false →
      ∀ r, s.reported = some r → s.mtu = r := by
    rintro (hw | hw)
    · exact hi.known (by simp [hw, storesLimit])
    · exact hi.known (by simp [hw, storesLimit])
  have hprimes := hi.primes
  have hcalls := hi.calls
  cases h with
  | join hc hw =>
    exact gateInv_of_idle hl (.inl rfl) hi.config
      (fun _ => hknown hw (by simp [hc, primesMtu])) (by simp) hcalls
  | start hc hw =>
    exact gateInv_of_idle hl (.inr rfl) hi.config
      (fun _ => hknown (.inl hw) (by simp [hc, primesMtu])) (by simp) hcalls
  | drain hc =>
    have hw := hnone (by simp [hc]) (by simp [hc])
    exact gateInv_of_idle hl (.inl hw) hi.config
      (fun _ => hknown (.inl hw) (by simp [hc, primesMtu])) (by simp) (by simp)
  | prime hc hn =>
    have hw := hnone (by simp [hc]) (by simp [hc])
    exact gateInv_of_idle hl (.inl hw) hi.config (by simp [primesMtu]) (by simp) hcalls
  | storeMtu hc =>
    have hw := hnone (by simp [hc]) (by simp [hc])
    exact gateInv_of_idle hl (.inl hw) hi.config
      (fun _ r hr => by simpa [hprimes _ hc] using hr) (by simp) hcalls
  | _ =>
    have hw : s.worker = .none := hnone (by simp_all) (by simp_all)
    exact gateInv_of_idle hl (.inl hw) hi.config
      (fun _ => hknown (.inl hw) (by simp_all [primesMtu])) (by simp) hcalls

/-- Steps that touch neither the gates nor the worker nor the calls. -/
theorem GateInv.congr {o : Option Nat} {s s' : State} (hi : GateInv o s) (hl : Life s')
    (ho : s'.maxTxPduOverride = s.maxTxPduOverride) (hm : s'.mtu = s.mtu)
    (hr : s'.reported = s.reported) (hs : counting s.worker = true → s'.serviceOk = true)
    (hw : s'.worker = s.worker) (hc : primesMtu s'.control = primesMtu s.control)
    (hp : ∀ n, s'.control = .storeMtu n → s.control = .storeMtu n)
    (hcalls : s'.calls = s.calls) : GateInv o s' := by
  refine ⟨hl, ho.trans hi.config, ?_, ?_, ?_, ?_, ?_, ?_, ?_, ?_⟩
  · rw [hw, hc, hr, hm]
    exact hi.known
  · rw [hw, hr]
    exact hi.stores
  · rw [hr]
    exact fun n hn => hi.primes n (hp n hn)
  · rw [hw]
    exact hi.limit
  · rw [hw]
    exact hi.left
  · rw [hw, hm]
    exact hi.fits
  · rw [hw]
    exact hs
  · rw [hcalls]
    exact hi.calls

theorem gateInv_step {o : Option Nat} {s s' : State} (e : Event) (hok : SteadyGates s e)
    (h : step s e = some s') (hi : GateInv o s) : GateInv o s' := by
  have hl := life_step e h hi.life
  cases e with
  | work => exact hi.worker (workerMove_of_workerStep h) hok
  | probe ec n => exact hi.probe h hl hok
  | sendData ec => exact hi.send h hl
  | sendAudioFrame bytes emergency =>
    obtain rfl := Option.some.inj h
    rcases sendAudioFrame_spec s bytes emergency with ⟨-, heq⟩ | ⟨-, -, heq⟩
    · rw [heq]
      exact hi
    · rw [heq] at hl ⊢
      exact hi.congr hl rfl rfl rfl hi.service rfl rfl (fun _ => id) rfl
  | init manager ready =>
    obtain ⟨hc, -, c, hcases, rfl⟩ := initStep_spec h
    rcases hcases with ⟨rfl, -⟩ | rfl
    · exact hi.congr hl rfl rfl rfl hi.service rfl (by rw [hc]; rfl) (by simp) rfl
    · exact hi.congr hl rfl rfl rfl hi.service rfl (by rw [hc]) (by simp) rfl
  | control b ec n ns ss => exact hi.control (controlMove_of_controlStep h)
  | shutdown =>
    obtain ⟨hc, rfl⟩ := shutdownStep_spec h
    exact hi.congr hl rfl rfl rfl hi.service rfl (by rw [hc]; rfl) (by simp) rfl
  | ack n =>
    obtain ⟨-, ⟨-, -, rfl⟩ | ⟨-, rfl⟩⟩ := ackStep_spec h
    · exact hi.congr hl rfl rfl rfl hi.service rfl rfl (fun _ => id) rfl
    · exact hi.congr hl rfl rfl rfl hi.service rfl rfl (fun _ => id) rfl
  | ntnState state ss =>
    obtain ⟨-, rfl⟩ := callback_spec h
    exact hi.congr hl rfl rfl rfl hok rfl rfl (fun _ => id) rfl
  | serviceStatus status ns =>
    obtain ⟨-, rfl⟩ := callback_spec h
    exact hi.congr hl rfl rfl rfl hok rfl rfl (fun _ => id) rfl
  | capabilities n =>
    obtain ⟨-, ⟨-, rfl⟩ | ⟨hn, rfl⟩⟩ := capabilities_spec h
    · exact hi
    · obtain ⟨hstore, hprime, hsmall⟩ := hok hn
      refine ⟨hl, hi.config, fun _ _ r hr => Option.some.inj hr, ?_, ?_, hi.limit, hi.left,
        fun k hk => ⟨hsmall k hk, (hi.fits k hk).2⟩, hi.service, hi.calls⟩
      · intro p m hw
        simp only at hw
        simp [hw, storesLimit] at hstore
      · intro k hc
        simp only at hc
        simp [hc, primesMtu] at hprime

/-! ## The result -/

/-- In every run with steady gates, under every configuration, each `sendData` call respects
the gates in force when it is made. -/
theorem gatesRespected_of_steadyGates (o : Option Nat) {s : State}
    (h : Reachable step SteadyGates (State.init o) s) : ∀ c ∈ s.calls, GatesRespected o c :=
  (h.invariant (gateInv_init o) fun _ e _ hok hs hi => gateInv_step e hok hs hi).calls

/-- A cap of four bytes, a reported size of two, and a frame of three bytes. -/
theorem gatesRespected_two_chunks :
    ∃ s, Reachable step SteadyGates (State.init (some 4)) s ∧ s.calls.length = 2 ∧
      ∀ c ∈ s.calls, GatesRespected (some 4) c := by
  obtain ⟨s, hs, hlen⟩ := exists_reachable_of_run step SteadyGates (State.init (some 4))
    (fun s => s.calls.length) 2
    (List.flatten [bringUp 2, [.sendAudioFrame [1, 2, 3] true], takeFrame,
      [.work, .sendData .success, .ack 1], List.replicate 4 .work, [.sendData .success]])
    (by decide)
  exact ⟨s, hs, hlen, gatesRespected_of_steadyGates (some 4) hs⟩

/-- The service gate closes while the first of two chunks waits for its acknowledgement, and
the second one is sent all the same. -/
theorem not_gatesRespected_closed_gate :
    ¬ ∀ (o : Option Nat) (s : State), Reachable step anyStep (State.init o) s →
      ∀ c ∈ s.calls, GatesRespected o c := by
  intro h
  obtain ⟨s, hs, hclosed⟩ := exists_reachable_of_run step anyStep (State.init none)
    (fun s => s.calls.map SendCall.serviceOk) [true, false]
    (List.flatten [bringUp 2, [.sendAudioFrame [1, 2, 3] true], takeFrame,
      [.work, .sendData .success, .ntnState .outOfService .serviceAvailable, .ack 1],
      List.replicate 4 .work, [.sendData .success]])
    (by decide)
  have hmem : false ∈ s.calls.map SendCall.serviceOk := by simp [hclosed]
  obtain ⟨c, hc, hfalse⟩ := List.mem_map.mp hmem
  have htrue := (h none s hs c hc).service
  rw [hfalse] at htrue
  cases htrue

end SatComm.Service
