import SatComm.Audio.Steps

/-!
# Whose streams are cleaned up

A deletion takes a stream out of the array and frees its identifier, but the client that created it
goes on listing the identifier. The next stream gets it, for whichever client, and the disconnect of
the first client closes that stream. While nothing that exists is deleted, bitmap, array and lists
agree, and a client lists the streams that were created for it.
-/

namespace SatComm

namespace Audio

open Runs

variable {s s' : AudioService} {clientId : Int}

/-- Bitmap, array and lists agree on the identifier, and the disconnect of a client leaves the
streams of the others. -/
structure AgreedOn (s : AudioService) (id : StreamId) : Prop where
  used_iff : s.streamIdIndexes id = true ↔ ∃ stream, s.streamsCache id = some stream
  listed_iff : (∃ stream, s.streamsCache id = some stream) ↔
    ∃ k, s.listings k id = 1 ∧ ∀ k', k' ≠ k → s.listings k' id = 0
  unlisted : s.streamsCache id = none → ∀ k, s.listings k id = 0
  others : ∀ k s' stream, s.handleClientDisconnect k = some s' →
    s.streamsCache id = some stream → stream.createdFor ≠ k → s'.streamsCache id = some stream

/-- The stream of a transcoder is opened. -/
def Setup.Opens (setup : Setup) : Prop :=
  setup.stream = true ∧ setup.buffer = true ∧ setup.backend = .success

instance (setup : Setup) : Decidable setup.Opens := inferInstanceAs (Decidable (_ ∧ _ ∧ _))

/-- No stream is deleted: not by a request, and not because a transcoder gets the first of its
streams only. A client that connects lists none. -/
def DeletesNone (s : AudioService) : Task → Prop
  | .connect clientId => ∀ id, s.listings clientId id = 0
  | .deleteStream streamId _ => s.streamsCache streamId = none
  | .createTranscoder _ inSetup outSetup _ =>
    s.ssrInProgress = true ∨ ¬ inSetup.Opens ∨ (∀ id, s.streamIdIndexes id = true) ∨
      outSetup.Opens ∧ ∃ id id', id ≠ id' ∧ s.streamIdIndexes id = false ∧
        s.streamIdIndexes id' = false
  | .deleteTranscoder inStreamId outStreamId _ _ =>
    s.streamsCache inStreamId = none ∧ s.streamsCache outStreamId = none
  | .disconnect _ | .ssr _ | .createStream .. => True

instance (s : AudioService) : DecidablePred (DeletesNone s)
  | .connect _ => inferInstanceAs (Decidable (∀ _, _))
  | .deleteStream .. => inferInstanceAs (Decidable (_ = _))
  | .createTranscoder .. => inferInstanceAs (Decidable (_ ∨ _ ∨ _ ∨ _))
  | .deleteTranscoder .. => inferInstanceAs (Decidable (_ ∧ _))
  | .disconnect _ | .ssr _ | .createStream .. => inferInstanceAs (Decidable True)

/-- The invariant. A stream is listed by the client that it was created for, once. -/
structure Agreed (s : AudioService) : Prop where
  used_iff : ∀ id, s.streamIdIndexes id = true ↔ (s.streamsCache id).isSome = true
  listings : ∀ id k, s.listings k id =
    (s.streamsCache id).elim 0 fun stream => if stream.createdFor = k then 1 else 0

namespace Agreed

theorem new : Agreed .new := ⟨fun _ => by simp [AudioService.new], fun _ _ => rfl⟩

theorem agreedOn (h : Agreed s) (id : StreamId) : AgreedOn s id := by
  constructor
  · rw [h.used_iff, Option.isSome_iff_exists]
  · constructor
    · rintro ⟨stream, hcached⟩
      refine ⟨stream.createdFor, by simp [h.listings, hcached], fun k' hk' => ?_⟩
      simp [h.listings, hcached, hk'.symm]
    · rintro ⟨k, hone, -⟩
      rw [h.listings] at hone
      cases hcached : s.streamsCache id with
      | none => simp [hcached] at hone
      | some stream => exact ⟨stream, rfl⟩
  · intro hnone k
    simp [h.listings, hnone]
  · intro k s' stream hstep hcached hother
    obtain ⟨hcloses, -, -⟩ := AudioService.handleClientDisconnect_cases hstep
    rw [hcloses.stays id, hcached]
    simp [h.listings, hcached, hother]

theorem of_eq (h : Agreed s) (hindexes : s'.streamIdIndexes = s.streamIdIndexes)
    (hcache : s'.streamsCache = s.streamsCache)
    (hclients : s'.audioClientsList = s.audioClientsList) : Agreed s' := by
  constructor
  · rw [hindexes, hcache]
    exact h.used_iff
  · rw [AudioService.listings_congr hclients, hcache]
    exact h.listings

theorem unused (h : Agreed s) {id : StreamId} (hbit : s.streamIdIndexes id = false) :
    s.streamsCache id = none := by
  have hnot := (h.used_iff id).not.mp (by simp [hbit])
  simpa using hnot

theorem connect (h : Agreed s) (hnone : ∀ id, s.listings clientId id = 0) :
    Agreed (s.handleClientConnect clientId) := by
  refine ⟨h.used_iff, fun id k => ?_⟩
  rw [AudioService.listings_handleClientConnect]
  split_ifs with hk
  · rw [hk]
    exact (hnone id).symm.trans (h.listings id clientId)
  · exact h.listings id k

theorem disconnect (h : Agreed s) (hstep : s.handleClientDisconnect clientId = some s') :
    Agreed s' := by
  obtain ⟨hcloses, hindexes, hlistings⟩ := AudioService.handleClientDisconnect_cases hstep
  constructor
  · intro id
    rw [hindexes]
    split_ifs with hid
    · simp [hcloses.gone id hid]
    · rw [hcloses.stays id hid]
      exact h.used_iff id
  · intro id k
    rw [hlistings]
    by_cases hid : 0 < s.listings clientId id
    · -- nobody else lists it
      rw [hcloses.gone id hid]
      split_ifs with hk
      · rfl
      · rw [h.listings] at hid ⊢
        cases hcached : s.streamsCache id with
        | none => rfl
        | some stream =>
          simp only [hcached, Option.elim_some] at hid ⊢
          split_ifs at hid with hfor
          · rw [hfor, if_neg (Ne.symm hk)]
            rfl
          · exact absurd hid (lt_irrefl 0)
    · rw [hcloses.stays id hid]
      split_ifs with hk
      · rw [hk, ← h.listings]
        omega
      · exact h.listings id k

theorem offline (h : Agreed s) : Agreed (s.handleSSREvent .audioOffline) := by
  obtain ⟨hcloses, hindexes, hlistings⟩ := s.handleSSREvent_offline
  have hgone : ∀ id, (s.handleSSREvent .audioOffline).streamsCache id = none := by
    intro id
    cases hcached : s.streamsCache id with
    | none =>
      rw [hcloses.stays id, hcached]
      simp [h.listings, hcached]
    | some stream =>
      apply hcloses.gone
      exact ⟨stream.createdFor, by simp [h.listings, hcached]⟩
  constructor
  · intro id
    simp [hindexes, hgone]
  · intro id k
    rw [hlistings, hgone]
    rfl

theorem create {config : StreamConfiguration} {resources : Setup} {purpose : StreamPurpose}
    {ec : ErrorCode} {streamId : StreamId} (h : Agreed s)
    (hpurpose : purpose = .default ∨ config.type ≠ .voiceCall)
    (hstep : s.doCreateStream clientId config resources purpose = some (ec, streamId, s')) :
    Agreed s' := by
  obtain ⟨-, -, rfl⟩ | ⟨-, -, hraised, -⟩ |
    ⟨-, -, -, hfree, stream, hsetup, hcreated⟩ := AudioService.doCreateStream_cases hstep
  · exact h
  · exact h.of_eq hraised.streamIdIndexes hraised.streamsCache hraised.audioClientsList
  · obtain ⟨hfor, -⟩ := AudioService.setup_cases hpurpose hsetup
    constructor
    · intro id
      rw [hcreated.streamIdIndexes, hcreated.streamsCache, Function.update_apply,
        Function.update_apply]
      split_ifs
      · simp
      · exact h.used_iff id
    · intro id k
      rw [hcreated.listings, hcreated.streamsCache, h.listings, Function.update_apply]
      by_cases hid : id = streamId
      · subst hid
        simp only [h.unused hfree, hfor, Option.elim_none, Option.elim_some, if_true, and_true,
          zero_add, eq_comm]
      · simp [hid]

/-- Where the first stream of a transcoder is there, so is the second. -/
theorem second_stream {inSetup outSetup : Setup} {backend ec : ErrorCode}
    {inStreamId outStreamId : StreamId} {t u : AudioService}
    (hok : DeletesNone s (.createTranscoder clientId inSetup outSetup backend))
    (hin : s.doCreateStream clientId (.ofType .play) inSetup .transcoderIn =
      some (.success, inStreamId, t))
    (hout : t.doCreateStream clientId (.ofType .capture) outSetup .transcoderOut =
      some (ec, outStreamId, u)) : ec = .success := by
  obtain ⟨-, hec, -⟩ | ⟨-, hec, -⟩ | ⟨hssr, -, hstream, hfree, stream, hsetup, hcreated⟩ :=
    AudioService.doCreateStream_cases hin
  · exact absurd rfl hec
  · exact absurd rfl hec
  have hopens : inSetup.Opens := by
    have hec : (if inSetup.buffer = true then inSetup.backend else .noMemory) = .success :=
      congrArg Prod.fst (Option.some.inj hsetup)
    split_ifs at hec with hbuffer
    exact ⟨hstream, hbuffer, hec⟩
  obtain ⟨⟨houtStream, houtBuffer, houtBackend⟩, id, id', hne, hid, hid'⟩ :
      outSetup.Opens ∧ ∃ id id', id ≠ id' ∧ s.streamIdIndexes id = false ∧
        s.streamIdIndexes id' = false := by
    obtain hssr' | hclosed | hfull | hok := hok
    · cases hssr.symm.trans hssr'
    · exact absurd hopens hclosed
    · cases hfree.symm.trans (hfull inStreamId)
    · exact hok
  obtain ⟨hssr', -⟩ | ⟨-, hec, -, hfail⟩ | ⟨-, hec, -⟩ := AudioService.doCreateStream_cases hout
  · cases (hcreated.ssrInProgress.trans hssr).symm.trans hssr'
  · exfalso
    obtain hfail | hfull | ⟨stream', hsetup'⟩ := hfail
    · cases houtStream.symm.trans hfail
    · -- only one of the two is taken
      have htaken : ∀ x, s.streamIdIndexes x = false → x = inStreamId := by
        intro x hx
        by_contra hother
        have hset := hfull x
        rw [hcreated.streamIdIndexes, Function.update_of_ne hother, hx] at hset
        cases hset
      exact hne ((htaken id hid).trans (htaken id' hid').symm)
    · apply hec
      have hfst : (if outSetup.buffer = true then outSetup.backend else .noMemory) = ec :=
        congrArg Prod.fst (Option.some.inj hsetup')
      rw [← hfst, if_pos houtBuffer, houtBackend]
  · exact hec

theorem createTranscoder {inSetup outSetup : Setup} {backend : ErrorCode} (h : Agreed s)
    (hok : DeletesNone s (.createTranscoder clientId inSetup outSetup backend))
    (hstep : s.doCreateTranscoder clientId inSetup outSetup backend = some s') : Agreed s' := by
  obtain ⟨ec, inStreamId, t, hin, hrest⟩ := AudioService.doCreateTranscoder_cases hstep
  have ht : Agreed t := h.create (.inr (by decide)) hin
  obtain ⟨-, rfl⟩ | ⟨rfl, ec', outStreamId, u, hout, hrest⟩ := hrest
  · exact ht
  obtain ⟨hec', rfl⟩ | ⟨-, rfl⟩ := hrest
  · exact absurd (second_stream hok hin hout) hec'
  · exact ht.create (.inr (by decide)) hout

/-- What one task preserves. -/
theorem step {task : Task} (h : Agreed s) (hok : DeletesNone s task)
    (hstep : step s task = some s') : Agreed s' := by
  cases task with
  | connect clientId =>
    cases hstep
    exact h.connect hok
  | disconnect clientId => exact h.disconnect hstep
  | ssr event =>
    cases hstep
    cases event with
    | audioOnline => exact h.of_eq rfl rfl rfl
    | audioOffline => exact h.offline
  | createStream clientId config resources =>
    obtain ⟨⟨ec, streamId, t⟩, hcreate, rfl⟩ := Option.map_eq_some_iff.mp hstep
    exact h.create (.inl rfl) hcreate
  | deleteStream streamId backend =>
    cases hstep
    rw [AudioService.doDeleteStream_of_none backend hok]
    exact h
  | createTranscoder clientId inSetup outSetup backend => exact h.createTranscoder hok hstep
  | deleteTranscoder inStreamId outStreamId inBackend outBackend =>
    cases hstep
    rw [AudioService.doDeleteTranscoder, AudioService.doDeleteStream_of_none inBackend hok.1,
      AudioService.doDeleteStream_of_none outBackend hok.2]
    exact h

end Agreed

/-- While no stream is deleted, bitmap, array and lists agree, and each client's streams are left
by the disconnects of the others. -/
theorem agreedOn_of_deletesNone (h : Reachable step DeletesNone .new s) (id : StreamId) :
    AgreedOn s id :=
  have hagreed : Agreed s := h.invariant Agreed.new fun _ _ _ hok hstep hs => hs.step hok hstep
  hagreed.agreedOn id

namespace Example

def tone : StreamConfiguration where
  type := .toneGenerator
  slotId := 1
  deviceTypes := [1]
  voicePaths := []
  enableHpcm := false

/-- Every allocation succeeds, and the backend opens the stream. -/
def opened : Setup where
  stream := true
  buffer := true
  privateStreamData := true
  backend := .success

/-- Client 1 deletes its stream, and client 2 creates one. -/
def reused : List Task :=
  [.connect 1, .connect 2, .createStream 1 tone opened, .deleteStream 0 .success,
    .createStream 2 tone opened]

end Example

theorem agreedOn_of_deletesNone_disconnect :
    ∃ s : AudioService, (s.streamIdIndexes 0 = false ∧ s.streamIdIndexes 1 = true) ∧
      ∀ id, AgreedOn s id := by
  obtain ⟨s, hs, hbits⟩ := exists_reachable_of_run step DeletesNone .new
    (fun s : AudioService => (s.streamIdIndexes 0, s.streamIdIndexes 1)) (false, true)
    [.connect 1, .connect 2, .createStream 1 Example.tone Example.opened,
      .createStream 2 Example.tone Example.opened, .disconnect 1] (by decide)
  exact ⟨s, Prod.ext_iff.mp hbits, fun id => agreedOn_of_deletesNone hs id⟩

/-- Both clients list the one stream, and it is the first's disconnect that closes it. -/
theorem not_agreedOn_reused :
    ¬ ∀ s : AudioService, Reachable step anyStep .new s → ∀ id, AgreedOn s id := by
  intro h
  obtain ⟨s, hs, hclosed⟩ := exists_reachable_of_run step anyStep .new
    (fun s : AudioService => ((s.streamsCache 0).map Stream.createdFor,
      (s.handleClientDisconnect 1).map fun s => (s.streamsCache 0).isSome))
    (some 2, some false) Example.reused (by decide)
  obtain ⟨hfor, hgone⟩ := Prod.ext_iff.mp hclosed
  obtain ⟨stream, hcached, hcreated⟩ := Option.map_eq_some_iff.mp hfor
  obtain ⟨s', hstep, hnone⟩ := Option.map_eq_some_iff.mp hgone
  have hkept := (h s hs 0).others 1 s' stream hstep hcached (by simp [hcreated])
  simp [hkept] at hnone

end Audio

end SatComm
