import SatComm.Runs.Delivery
import SatComm.Service.Lifecycle

/-!
# The order of the uplink

Between two drains of the queue the chunks of the successful `sendData` calls should deliver
the accepted frames. They do as long as no success follows a failure: the worker answers a
failed call by queueing what comes behind the failed chunk, and it does so at the back of the
queue.
-/

namespace SatComm.Service

open Delivery Runs

/-! ## Frames and chunks -/

/-- A frame as a byte string with its emergency flag. -/
def Pdu.frame (p : Pdu) : List UInt8 × Bool := (p.bytes, p.emergency)

/-- The payload of a call with its emergency flag. -/
def SendCall.chunk (c : SendCall) : List UInt8 × Bool := (c.bytes, c.emergency)

/-- The accepted frames, in the order of acceptance. -/
def State.frames (s : State) : List (List UInt8 × Bool) := s.accepted.map Pdu.frame

/-- The chunks of the successful calls, in the order of the calls. -/
def State.sent (s : State) : List (List UInt8 × Bool) :=
  (s.calls.filter fun c => c.result = .success).map SendCall.chunk

/-- No call failed since the queue was last drained. -/
def State.AllSent (s : State) : Prop := ∀ c ∈ s.calls, c.result = .success

/-- No `sendData` call succeeds after a failed one. -/
def NoSuccessAfterFailure (s : State) (e : Event) : Prop :=
  e = .sendData .success → s.AllSent

instance (s : State) (e : Event) : Decidable (NoSuccessAfterFailure s e) :=
  inferInstanceAs (Decidable (e = .sendData .success → ∀ c ∈ s.calls, c.result = .success))

/-! ## The invariant -/

/-- The frame the worker holds, and how many of its bytes are sent. -/
def inHand : Worker → Option (Pdu × Nat)
  | .popped p | .probe p | .store p _ => some (p, 0)
  | .chunk p _ offset | .send p _ offset => some (p, offset)
  | .await p m offset | .awaitAck p m offset | .acked p m offset =>
    some (p, offset + sendSz p m offset)
  | _ => none

/-- The stream that was sent ends where the frame in hand, or else the queue, goes on. -/
def Aligned (s : State) : Prop :=
  match inHand s.worker with
  | none => ∃ done, s.accepted = done ++ s.q ∧ stream s.sent = stream (done.map Pdu.frame)
  | some (p, n) =>
    ∃ done, s.accepted = done ++ p :: s.q ∧
      stream s.sent = stream (done.map Pdu.frame) ++ p.bytes.take n

theorem aligned_iff_free {s : State} (h : inHand s.worker = none) :
    Aligned s ↔
      ∃ done, s.accepted = done ++ s.q ∧ stream s.sent = stream (done.map Pdu.frame) := by
  rw [Aligned, h]

theorem aligned_iff_inHand {s : State} {p : Pdu} {n : Nat} (h : inHand s.worker = some (p, n)) :
    Aligned s ↔ ∃ done, s.accepted = done ++ p :: s.q ∧
      stream s.sent = stream (done.map Pdu.frame) ++ p.bytes.take n := by
  rw [Aligned, h]

/-- A failed call is being dealt with. -/
def inFailure : Worker → Bool
  | .failed .. | .requeue .. => true
  | _ => false

structure UplinkInv (s : State) : Prop where
  life : Life s
  delivers : Delivers s.frames s.sent
  failed : inFailure s.worker = true → ¬ s.AllSent
  aligned : s.worker ≠ .exited → s.control ≠ .drain → s.AllSent → Aligned s

theorem uplinkInv_init (o : Option Nat) : UplinkInv (State.init o) where
  life := life_init o
  delivers := delivers_nil _
  failed := by simp [State.init, inFailure]
  aligned _ _ _ := (aligned_iff_free rfl).mpr ⟨[], rfl, rfl⟩

/-- `Aligned` reads the queue, the frames, the calls and the frame in hand. -/
theorem Aligned.congr {s s' : State} (h : Aligned s) (hw : inHand s'.worker = inHand s.worker)
    (hq : s'.q = s.q) (ha : s'.accepted = s.accepted) (hc : s'.calls = s.calls) :
    Aligned s' := by
  unfold Aligned State.sent at *
  rw [hw, hq, ha, hc]
  exact h

/-- Steps without a call and without a new frame. -/
theorem UplinkInv.congr {s s' : State} (hi : UplinkInv s) (hl : Life s')
    (ha : s'.accepted = s.accepted) (hc : s'.calls = s.calls)
    (hf : inFailure s'.worker = true → inFailure s.worker = true)
    (hal : s'.worker ≠ .exited → s'.control ≠ .drain → s.AllSent → Aligned s') :
    UplinkInv s' := by
  have hsent : s'.sent = s.sent := by rw [State.sent, hc, State.sent]
  have hall : s'.AllSent ↔ s.AllSent := by rw [State.AllSent, hc, State.AllSent]
  refine ⟨hl, ?_, ?_, ?_⟩
  · rw [State.frames, ha, hsent]
    exact hi.delivers
  · rw [hall]
    exact fun h => hi.failed (hf h)
  · rw [hall]
    exact hal

theorem UplinkInv.worker {s s' : State} (hi : UplinkInv s) (h : WorkerMove s s') :
    UplinkInv s' := by
  have hl := hi.life.worker h
  have hal := hi.aligned
  cases h with
  | @pop p q hw hf hq =>
    refine hi.congr hl rfl rfl (by simp [inFailure]) fun _ hd hall => ?_
    obtain ⟨done, hacc, hsent⟩ :=
      (aligned_iff_free (by rw [hw]; rfl)).mp (hal (by simp [hw]) hd hall)
    refine (aligned_iff_inHand rfl).mpr ⟨done, hq ▸ hacc, ?_⟩
    rw [List.take_zero, List.append_nil]
    exact hsent
  | @frameDone p m offset hw hge =>
    refine hi.congr hl rfl rfl (by simp [inFailure]) fun _ hd hall => ?_
    obtain ⟨done, hacc, hsent⟩ :=
      (aligned_iff_inHand (by rw [hw]; rfl)).mp (hal (by simp [hw]) hd hall)
    refine (aligned_iff_free rfl).mpr ⟨done ++ [p], by simpa using hacc, ?_⟩
    rw [List.take_of_length_le hge] at hsent
    refine hsent.trans ?_
    simp [Pdu.frame]
  | lower hw =>
    refine hi.congr hl rfl rfl (by simp [hw, inFailure]) fun _ _ hall => ?_
    exact absurd hall (hi.failed (by simp [hw, inFailure]))
  | requeue hw =>
    refine hi.congr hl rfl rfl (by simp [inFailure]) fun _ _ hall => ?_
    exact absurd hall (hi.failed (by simp [hw, inFailure]))
  | leave hw hr => exact hi.congr hl rfl rfl (by simp [inFailure]) fun hne => absurd rfl hne
  | giveUp hw hr => exact hi.congr hl rfl rfl (by simp [inFailure]) fun hne => absurd rfl hne
  | _ =>
    -- the frame in hand and the number of its sent bytes stay
    refine hi.congr hl rfl rfl (by simp [inFailure]) fun _ hd hall => ?_
    exact (hal (by simp_all) hd hall).congr (by simp_all [inHand]) rfl rfl rfl

/-- A successful call sends the next piece of the frame in hand. -/
theorem UplinkInv.success {s : State} (hi : UplinkInv s) {p : Pdu} {m offset : Nat}
    (hw : s.worker = .send p m offset) (hall : s.AllSent) :
    UplinkInv { s with unacked := s.session :: s.unacked
                       calls := s.calls ++ [callAt s p m offset .success]
                       worker := .await p m offset } := by
  have hc : s.control ≠ .drain := by
    intro hc
    have := hi.life.noWorker (.inr (.inr (by rw [hc]; rfl)))
    rw [hw] at this
    cases this
  obtain ⟨done, hacc, hsent⟩ :=
    (aligned_iff_inHand (by rw [hw]; rfl)).mp (hi.aligned (by simp [hw]) hc hall)
  set s' : State := { s with unacked := s.session :: s.unacked
                             calls := s.calls ++ [callAt s p m offset .success]
                             worker := .await p m offset } with hs'
  have hnew : s'.sent = s.sent ++ [(callAt s p m offset .success).chunk] := by
    simp [hs', State.sent, callAt]
  have hframes : s.frames = done.map Pdu.frame ++ p.frame :: s.q.map Pdu.frame := by
    rw [State.frames, hacc]
    simp
  have hcut : p.bytes.take (offset + sendSz p m offset) =
      p.bytes.take offset ++ (p.bytes.drop offset).take (sendSz p m offset) := List.take_add
  have hpiece : p.frame.1 = p.bytes.take offset ++ (callAt s p m offset .success).chunk.1 ++
      p.bytes.drop (offset + sendSz p m offset) := by
    change p.bytes = p.bytes.take offset ++ (p.bytes.drop offset).take _ ++ _
    rw [← hcut, List.take_append_drop]
  refine ⟨?_, ?_, by simp [hs', inFailure], fun _ _ _ => ?_⟩
  · exact hi.life.congr (by simp [hw, hs']) rfl rfl rfl
  · have hd := hi.delivers
    rw [hnew]
    change Delivers s.frames _
    rw [hframes] at hd ⊢
    exact hd.chunk hpiece rfl hsent
  · refine (aligned_iff_inHand rfl).mpr ⟨done, hacc, ?_⟩
    rw [hnew, stream_append, hsent, hcut]
    simp [SendCall.chunk, callAt]

/-- A failed call sends nothing and ends the good part of the session. -/
theorem UplinkInv.failure {s : State} (hi : UplinkInv s) {p : Pdu} {m offset : Nat}
    {ec : ErrorCode} (hw : s.worker = .send p m offset) (hec : ec ≠ .success) :
    UplinkInv { s with calls := s.calls ++ [callAt s p m offset ec]
                       worker := .failed p m offset } := by
  have hnot : ¬ State.AllSent { s with calls := s.calls ++ [callAt s p m offset ec]
                                       worker := .failed p m offset } := by
    intro h
    exact hec (h (callAt s p m offset ec) (by simp))
  refine ⟨hi.life.congr (by simp [hw]) rfl rfl rfl, ?_, fun _ => hnot,
    fun _ _ h => absurd h hnot⟩
  have hsame : State.sent { s with calls := s.calls ++ [callAt s p m offset ec]
                                   worker := .failed p m offset } = s.sent := by
    simp [State.sent, callAt, hec]
  rw [hsame]
  exact hi.delivers

theorem UplinkInv.accept {s : State} (hi : UplinkInv s) (p : Pdu) :
    UplinkInv { s with q := s.q ++ [p], accepted := s.accepted ++ [p] } := by
  refine ⟨hi.life.congr Iff.rfl rfl rfl rfl, ?_, hi.failed, fun hne hd hall => ?_⟩
  · have h := hi.delivers.frame p.frame
    rw [State.frames] at h ⊢
    rw [List.map_append]
    exact h
  · have hal := hi.aligned hne hd hall
    cases hw : inHand s.worker with
    | none =>
      obtain ⟨done, hacc, hsent⟩ := (aligned_iff_free hw).mp hal
      refine (aligned_iff_free ?_).mpr ⟨done, by simp [hacc], hsent⟩
      exact hw
    | some pn =>
      obtain ⟨done, hacc, hsent⟩ := (aligned_iff_inHand hw).mp hal
      refine (aligned_iff_inHand ?_).mpr ⟨done, by simp [hacc], hsent⟩
      exact hw

theorem UplinkInv.control {s s' : State} (hi : UplinkInv s) (h : ControlMove s s') :
    UplinkInv s' := by
  have hl := hi.life.control h
  have hal := hi.aligned
  cases h with
  | drain hc =>
    have hnone : s.worker = .none := hi.life.noWorker (.inr (.inr (by rw [hc]; rfl)))
    refine ⟨hl, delivers_nil _, by simp [hnone, inFailure], fun _ _ _ => ?_⟩
    exact (aligned_iff_free (by simp [hnone, inHand])).mpr ⟨[], rfl, rfl⟩
  | join hc hw => exact hi.congr hl rfl rfl (by simp [inFailure]) fun _ hd => absurd rfl hd
  | start hc hw =>
    refine hi.congr hl rfl rfl (by simp [inFailure]) fun _ _ hall => ?_
    exact (hal (by simp [hw]) (by simp [hc]) hall).congr (by simp [hw, inHand]) rfl rfl rfl
  | _ =>
    refine hi.congr hl rfl rfl id fun hne _ hall => ?_
    exact (hal hne (by simp_all) hall).congr rfl rfl rfl rfl

theorem uplinkInv_step {s s' : State} (e : Event) (hok : NoSuccessAfterFailure s e)
    (h : step s e = some s') (hi : UplinkInv s) : UplinkInv s' := by
  have hl := life_step e h hi.life
  -- steps that write neither the queue, nor the logs, nor the worker
  have hquiet : s'.q = s.q → s'.accepted = s.accepted → s'.calls = s.calls →
      s'.worker = s.worker → (s'.control ≠ .drain → s.control ≠ .drain) → UplinkInv s' := by
    intro hq ha hc hw hd
    refine hi.congr hl ha hc (by rw [hw]; exact id) fun hne hnd hall => ?_
    exact (hi.aligned (hw ▸ hne) (hd hnd) hall).congr (by rw [hw]) hq ha hc
  cases e with
  | work => exact hi.worker (workerMove_of_workerStep h)
  | probe ec n =>
    obtain ⟨p, hw, rfl⟩ := probeStep_spec h
    refine hi.congr hl rfl rfl (by simp [inFailure]) fun _ hd hall => ?_
    exact (hi.aligned (by simp [hw]) hd hall).congr (by simp [hw, inHand]) rfl rfl rfl
  | sendData ec =>
    obtain ⟨p, m, offset, hw, ⟨rfl, rfl⟩ | ⟨hec, rfl⟩⟩ := sendStep_spec h
    · exact hi.success hw (hok rfl)
    · exact hi.failure hw hec
  | sendAudioFrame bytes emergency =>
    obtain rfl := Option.some.inj h
    rcases sendAudioFrame_spec s bytes emergency with ⟨-, heq⟩ | ⟨-, -, heq⟩
    · rw [heq]
      exact hi
    · rw [heq]
      exact hi.accept _
  | init manager ready =>
    obtain ⟨hc, -, c, -, rfl⟩ := initStep_spec h
    exact hquiet rfl rfl rfl rfl (by simp [hc])
  | control b ec n ns ss => exact hi.control (controlMove_of_controlStep h)
  | shutdown =>
    obtain ⟨hc, rfl⟩ := shutdownStep_spec h
    exact hquiet rfl rfl rfl rfl (by simp [hc])
  | ack n =>
    obtain ⟨-, ⟨-, -, rfl⟩ | ⟨-, rfl⟩⟩ := ackStep_spec h
    · exact hquiet rfl rfl rfl rfl id
    · exact hquiet rfl rfl rfl rfl id
  | ntnState state ss =>
    obtain ⟨-, rfl⟩ := callback_spec h
    exact hquiet rfl rfl rfl rfl id
  | serviceStatus status ns =>
    obtain ⟨-, rfl⟩ := callback_spec h
    exact hquiet rfl rfl rfl rfl id
  | capabilities n =>
    obtain ⟨-, ⟨-, rfl⟩ | ⟨-, rfl⟩⟩ := capabilities_spec h
    · exact hi
    · exact hquiet rfl rfl rfl rfl id

/-! ## The result -/

/-- In every run in which no `sendData` call succeeds after a failed one, the successful calls
deliver the accepted frames in order, chunk by chunk. -/
theorem delivers_of_noSuccessAfterFailure (o : Option Nat) {s : State}
    (h : Reachable step NoSuccessAfterFailure (State.init o) s) : Delivers s.frames s.sent :=
  (h.invariant (uplinkInv_init o) fun _ e _ hok hs hi => uplinkInv_step e hok hs hi).delivers

/-- A frame of three bytes, sent as two chunks. -/
theorem delivers_two_chunks :
    ∃ s, Reachable step NoSuccessAfterFailure (State.init none) s ∧
      s.sent = [([1, 2], true), ([3], true)] ∧ Delivers s.frames s.sent := by
  obtain ⟨s, hs, hsent⟩ := exists_reachable_of_run step NoSuccessAfterFailure
    (State.init none) State.sent [([1, 2], true), ([3], true)]
    (List.flatten [bringUp 2, [.sendAudioFrame [1, 2, 3] true], takeFrame,
      [.work, .sendData .success, .ack 1], List.replicate 4 .work, [.sendData .success]])
    (by decide)
  exact ⟨s, hs, hsent, delivers_of_noSuccessAfterFailure none hs⟩

/-- The first of two chunks fails: the second one is sent, and nothing of the first. -/
theorem not_delivers_after_failure :
    ¬ ∀ (o : Option Nat) (s : State), Reachable step anyStep (State.init o) s →
      Delivers s.frames s.sent := by
  intro h
  obtain ⟨s, hs, heq⟩ := exists_reachable_of_run step anyStep (State.init none)
    (fun s => (s.frames, s.sent)) ([([1, 2, 3, 4], true)], [([3, 4], true)])
    (List.flatten [bringUp 2, [.sendAudioFrame [1, 2, 3, 4] true], takeFrame,
      [.work, .sendData (.other 1), .work, .work], takeFrame.tail, [.work, .sendData .success]])
    (by decide)
  obtain ⟨hframes, hsent⟩ := Prod.mk.inj heq
  have hprefix := (h none s hs).inOrder
  rw [hframes, hsent] at hprefix
  exact absurd hprefix (by decide)

end SatComm.Service
