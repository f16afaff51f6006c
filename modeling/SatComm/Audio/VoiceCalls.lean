import SatComm.Audio.Steps

/-!
# The voice call list

A creation raises the entry of its slot before the stream is set up and does not lower it where that
fails; the clean-up of a voice call lowers the entry whatever other voice calls the slot has. Where
voice calls are set up or find another one in their slot, and the calls of a slot end together, an
entry is raised while its slot has a voice call, and in-call playback and capture are let through
then.
-/

namespace SatComm

namespace Audio

open Runs

variable {s s' : AudioService} {clientId : Int} {slot : Fin 3} {id : StreamId}

/-- The entries say which slots have a voice call, and in-call accesses follow them. -/
structure Registered (s : AudioService) : Prop where
  raised_iff : ∀ slot, s.voiceCallList slot ≠ 0 ↔ ∃ id, s.HoldsVoice slot id
  access_iff : ∀ id stream slot backend, s.streamsCache id = some stream →
    stream.isIncallStream = true → voiceCallIndex? stream.slotId = some slot →
    (stream.access backend s.voiceCallList = some .success ↔ ∃ id', s.HoldsVoice slot id')

namespace AudioService

instance (s : AudioService) (slot : Fin 3) (id : StreamId) : Decidable (s.HoldsVoice slot id) :=
  match h : s.streamsCache id with
  | none => isFalse fun ⟨_, hcached, _⟩ => nomatch h.symm.trans hcached
  | some stream => decidable_of_iff (stream.VoiceOf slot) ⟨fun hvoice => ⟨stream, h, hvoice⟩,
      fun ⟨_, hcached, hvoice⟩ => Option.some.inj (h.symm.trans hcached) ▸ hvoice⟩

/-- The voice calls of a slot end together. -/
def EndsSlots (s : AudioService) (closed : StreamId → Prop) : Prop :=
  ∀ slot id id', s.HoldsVoice slot id → s.HoldsVoice slot id' → closed id → closed id'

instance (s : AudioService) (closed : StreamId → Prop) [DecidablePred closed] :
    Decidable (s.EndsSlots closed) :=
  inferInstanceAs (Decidable (∀ _, _))

/-- Another client has the stream in its lists. -/
def ListedByOther (s : AudioService) (clientId : Int) (id : StreamId) : Prop :=
  ∃ p ∈ s.audioClientsList.pairs, p.1 ≠ clientId ∧ id ∈ p.2.streamIds

instance (s : AudioService) (clientId : Int) (id : StreamId) :
    Decidable (s.ListedByOther clientId id) :=
  inferInstanceAs (Decidable (∃ _ ∈ _, _))

end AudioService

/-- A voice call is set up: it has two devices, its data is allocated, and the backend opens it
where it has a part in it. -/
def StreamConfiguration.SetsUp (config : StreamConfiguration) (resources : Setup) : Prop :=
  config.deviceTypes.length = 2 ∧ resources.privateStreamData = true ∧
    (config.deviceTypes.head? = some DEVICE_TYPE_BT_SCO_SPEAKER ∨
      config.deviceTypes.head? = some DEVICE_TYPE_BT_SCO_MIC ∨ config.enableHpcm = true ∨
      resources.backend = .success)

instance (config : StreamConfiguration) (resources : Setup) : Decidable (config.SetsUp resources) :=
  inferInstanceAs (Decidable (_ ∧ _ ∧ _))

/-- A voice call is created or its slot has one already. Deletions and disconnects end the voice
calls of a slot together, and who connects does not lose a voice call that only it lists. -/
def KeepsSlots (s : AudioService) : Task → Prop
  | .connect clientId => ∀ slot id, s.HoldsVoice slot id → 0 < s.listings clientId id →
    s.ListedByOther clientId id
  | .disconnect clientId => s.EndsSlots fun id => 0 < s.listings clientId id
  | .createStream _ config resources => s.ssrInProgress = true ∨ ∀ slot, config.VoiceOf slot →
    (∃ id, s.HoldsVoice slot id) ∨
      resources.stream = true ∧ (∃ id, s.streamIdIndexes id = false) ∧ config.SetsUp resources
  | .deleteStream streamId _ => s.EndsSlots (· = streamId)
  | .deleteTranscoder inStreamId outStreamId _ _ =>
    s.EndsSlots fun id => id = inStreamId ∨ id = outStreamId
  | .ssr _ | .createTranscoder .. => True

instance (s : AudioService) : DecidablePred (KeepsSlots s)
  | .connect _ => inferInstanceAs (Decidable (∀ _, _))
  | .disconnect clientId =>
    inferInstanceAs (Decidable (s.EndsSlots fun id => 0 < s.listings clientId id))
  | .createStream .. => inferInstanceAs (Decidable (_ ∨ _))
  | .deleteStream streamId _ => inferInstanceAs (Decidable (s.EndsSlots (· = streamId)))
  | .deleteTranscoder inStreamId outStreamId _ _ =>
    inferInstanceAs (Decidable (s.EndsSlots fun id => id = inStreamId ∨ id = outStreamId))
  | .ssr _ | .createTranscoder .. => inferInstanceAs (Decidable True)

/-- The invariant. A voice call has its bit and a client that lists it, so that an SSR event finds
it and no other stream takes its place. -/
structure Tracked (s : AudioService) : Prop where
  raised_iff : ∀ slot, s.voiceCallList slot ≠ 0 ↔ ∃ id, s.HoldsVoice slot id
  used : ∀ slot id, s.HoldsVoice slot id → s.streamIdIndexes id = true
  listed : ∀ slot id, s.HoldsVoice slot id → ∃ k, 0 < s.listings k id

namespace AudioService

theorem Closes.holdsVoice_iff {closed : StreamId → Prop} (h : s.Closes closed s') :
    s'.HoldsVoice slot id ↔ ¬ closed id ∧ s.HoldsVoice slot id := by
  by_cases hid : closed id
  · simp [HoldsVoice, h.gone id hid, hid]
  · simp [HoldsVoice, h.stays id hid, hid]

/-- Ending the calls of a slot together keeps its entry right. -/
theorem Closes.raised_iff {closed : StreamId → Prop} (h : s.Closes closed s')
    (hends : s.EndsSlots closed)
    (hraised : ∀ slot, s.voiceCallList slot ≠ 0 ↔ ∃ id, s.HoldsVoice slot id) (slot : Fin 3) :
    s'.voiceCallList slot ≠ 0 ↔ ∃ id, s'.HoldsVoice slot id := by
  simp only [h.holdsVoice_iff]
  by_cases hex : ∃ id, closed id ∧ s.HoldsVoice slot id
  · obtain ⟨id, hid, hvoice⟩ := hex
    rw [h.lowered slot id hid hvoice]
    simp only [ne_eq, not_true_eq_false, false_iff, not_exists, not_and]
    intro id' hid' hvoice'
    exact hid' (hends slot id id' hvoice hvoice' hid)
  · rw [h.unlowered slot fun id hid hvoice => hex ⟨id, hid, hvoice⟩, hraised]
    constructor
    · rintro ⟨id, hvoice⟩
      exact ⟨id, fun hid => hex ⟨id, hid, hvoice⟩, hvoice⟩
    · rintro ⟨id, -, hvoice⟩
      exact ⟨id, hvoice⟩

end AudioService

theorem holdsVoice_congr (h : s'.streamsCache = s.streamsCache) (slot : Fin 3) (id : StreamId) :
    s'.HoldsVoice slot id ↔ s.HoldsVoice slot id := by
  rw [AudioService.HoldsVoice, h, AudioService.HoldsVoice]

theorem holdsVoice_cacheStream {stream : Stream} {streamId : StreamId}
    (h : s'.streamsCache = Function.update s.streamsCache streamId (some stream)) (slot : Fin 3)
    (id : StreamId) :
    s'.HoldsVoice slot id ↔
      if id = streamId then stream.VoiceOf slot else s.HoldsVoice slot id := by
  rw [AudioService.HoldsVoice, h, Function.update_apply]
  split_ifs
  · simp
  · rfl

/-- Only a creation that succeeds changes what the slots have. -/
theorem holdsVoice_doCreateStream {config : StreamConfiguration} {resources : Setup}
    {purpose : StreamPurpose} {ec : ErrorCode} {streamId : StreamId}
    (hpurpose : purpose = .default ∨ config.type ≠ .voiceCall)
    (hstep : s.doCreateStream clientId config resources purpose = some (ec, streamId, s'))
    (slot : Fin 3) (id : StreamId) :
    s'.HoldsVoice slot id ↔
      if ec = .success ∧ id = streamId then config.VoiceOf slot else s.HoldsVoice slot id := by
  obtain ⟨-, hec, rfl⟩ | ⟨-, hec, hraised, -⟩ | ⟨-, rfl, -, -, stream, hsetup, hcreated⟩ :=
    AudioService.doCreateStream_cases hstep
  · rw [if_neg fun h => hec h.1]
  · rw [if_neg fun h => hec h.1]
    exact holdsVoice_congr hraised.streamsCache slot id
  · rw [← (AudioService.setup_cases hpurpose hsetup).2 slot,
      holdsVoice_cacheStream hcreated.streamsCache]
    simp only [true_and]

theorem setupStream_of_setsUp {config : StreamConfiguration} {resources : Setup} (clientId : Int)
    (htype : config.type = .voiceCall) (h : config.SetsUp resources) :
    ∃ stream, Stream.setupStream config resources clientId = some (.success, stream) := by
  obtain ⟨hlength, hdata, hspecial⟩ := h
  unfold Stream.setupStream
  simp only [htype, hlength, ne_eq, not_true_eq_false, if_false, Stream.createStream, hdata,
    if_true, Option.some.injEq, Prod.mk.injEq, exists_eq_right']
  split_ifs with hopen
  · rfl
  · simp only [Stream.Special, Stream.new, decide_eq_true_eq, not_or] at hopen
    obtain ⟨-, ⟨hspeaker, hmic⟩, hhpcm⟩ := hopen
    obtain h | h | h | h := hspecial
    · exact absurd h hspeaker
    · exact absurd h hmic
    · exact absurd h hhpcm
    · exact h

namespace Tracked

theorem new : Tracked .new := by
  have hnone : ∀ slot id, ¬ AudioService.new.HoldsVoice slot id := by
    rintro slot id ⟨stream, hcached, -⟩
    cases hcached
  exact ⟨fun slot => ⟨fun hraised => absurd rfl hraised, fun ⟨id, hvoice⟩ =>
    absurd hvoice (hnone slot id)⟩, fun slot id hvoice =>
    absurd hvoice (hnone slot id), fun slot id hvoice => absurd hvoice (hnone slot id)⟩

theorem registered (h : Tracked s) : Registered s := by
  refine ⟨h.raised_iff, fun id stream slot backend _ hincall hslot => ?_⟩
  have hspecial : stream.Special := .inl hincall
  rw [← h.raised_iff, Stream.access, if_pos hspecial, hslot, Option.map_some, Option.some.injEq]
  simp [hincall]

theorem of_eq (h : Tracked s) (hlist : s'.voiceCallList = s.voiceCallList)
    (hcache : s'.streamsCache = s.streamsCache) (hindexes : s'.streamIdIndexes = s.streamIdIndexes)
    (hclients : s'.audioClientsList = s.audioClientsList) : Tracked s' := by
  have hholds : ∀ slot id, s'.HoldsVoice slot id ↔ s.HoldsVoice slot id := by
    intro slot id
    simp only [AudioService.HoldsVoice, hcache]
  constructor
  · simp only [hholds, hlist]
    exact h.raised_iff
  · simp only [hholds, hindexes]
    exact h.used
  · simp only [hholds, AudioService.listings_congr hclients]
    exact h.listed

theorem connect (h : Tracked s)
    (hok : ∀ slot id, s.HoldsVoice slot id → 0 < s.listings clientId id →
      s.ListedByOther clientId id) : Tracked (s.handleClientConnect clientId) := by
  refine ⟨h.raised_iff, h.used, fun slot id hvoice => ?_⟩
  obtain ⟨k, hk⟩ := h.listed slot id hvoice
  obtain ⟨k', hne, hk'⟩ : ∃ k', k' ≠ clientId ∧ 0 < s.listings k' id := by
    by_cases heq : k = clientId
    · obtain ⟨⟨k', client⟩, hmem, hne, hid⟩ := hok slot id hvoice (heq ▸ hk)
      exact ⟨k', hne, AudioService.listings_pos.mpr ⟨client, Assoc.Map.mem_pairs.mp hmem, hid⟩⟩
    · exact ⟨k, heq, hk⟩
  refine ⟨k', ?_⟩
  rw [AudioService.listings_handleClientConnect, if_neg hne]
  exact hk'

theorem disconnect (h : Tracked s)
    (hok : s.EndsSlots fun id => 0 < s.listings clientId id)
    (hstep : s.handleClientDisconnect clientId = some s') : Tracked s' := by
  obtain ⟨hcloses, hindexes, hlistings⟩ := AudioService.handleClientDisconnect_cases hstep
  constructor
  · exact hcloses.raised_iff hok h.raised_iff
  · intro slot id hvoice
    obtain ⟨hid, hvoice⟩ := hcloses.holdsVoice_iff.mp hvoice
    rw [hindexes, if_neg hid]
    exact h.used slot id hvoice
  · intro slot id hvoice
    obtain ⟨hid, hvoice⟩ := hcloses.holdsVoice_iff.mp hvoice
    obtain ⟨k, hk⟩ := h.listed slot id hvoice
    have hne : k ≠ clientId := by
      rintro rfl
      exact hid hk
    exact ⟨k, by rwa [hlistings, if_neg hne]⟩

theorem offline (h : Tracked s) : Tracked (s.handleSSREvent .audioOffline) := by
  obtain ⟨hcloses, hindexes, hlistings⟩ := s.handleSSREvent_offline
  -- every voice call is listed, so all of them end
  have hnone : ∀ slot id, ¬ (s.handleSSREvent .audioOffline).HoldsVoice slot id := by
    intro slot id hvoice
    obtain ⟨hid, hvoice⟩ := hcloses.holdsVoice_iff.mp hvoice
    exact hid (h.listed slot id hvoice)
  have hends : s.EndsSlots fun id => ∃ k, 0 < s.listings k id :=
    fun slot id id' _ hvoice' _ => h.listed slot id' hvoice'
  exact ⟨hcloses.raised_iff hends h.raised_iff, fun slot id hvoice => absurd hvoice (hnone slot id),
    fun slot id hvoice => absurd hvoice (hnone slot id)⟩

theorem delete {streamId : StreamId} (backend : ErrorCode) (h : Tracked s)
    (hends : s.EndsSlots (· = streamId)) : Tracked (s.doDeleteStream streamId backend).2 := by
  have hcloses := s.closes_doDeleteStream streamId backend
  constructor
  · exact hcloses.raised_iff hends h.raised_iff
  · intro slot id hvoice
    obtain ⟨hid, hvoice⟩ := hcloses.holdsVoice_iff.mp hvoice
    rw [AudioService.streamIdIndexes_doDeleteStream backend hid]
    exact h.used slot id hvoice
  · intro slot id hvoice
    obtain ⟨-, hvoice⟩ := hcloses.holdsVoice_iff.mp hvoice
    rw [AudioService.listings_doDeleteStream]
    exact h.listed slot id hvoice

/-- The slots between the two deletions do not matter. -/
theorem deleteTranscoder {inStreamId outStreamId : StreamId} (inBackend outBackend : ErrorCode)
    (h : Tracked s) (hends : s.EndsSlots fun id => id = inStreamId ∨ id = outStreamId) :
    Tracked (s.doDeleteTranscoder inStreamId outStreamId inBackend outBackend) := by
  have hcloses := (s.closes_doDeleteStream inStreamId inBackend).trans
    ((s.doDeleteStream inStreamId inBackend).2.closes_doDeleteStream outStreamId outBackend)
  constructor
  · exact hcloses.raised_iff hends h.raised_iff
  · intro slot id hvoice
    obtain ⟨hid, hvoice⟩ := hcloses.holdsVoice_iff.mp hvoice
    rw [not_or] at hid
    rw [AudioService.doDeleteTranscoder, AudioService.streamIdIndexes_doDeleteStream _ hid.2,
      AudioService.streamIdIndexes_doDeleteStream _ hid.1]
    exact h.used slot id hvoice
  · intro slot id hvoice
    obtain ⟨-, hvoice⟩ := hcloses.holdsVoice_iff.mp hvoice
    rw [AudioService.doDeleteTranscoder, AudioService.listings_doDeleteStream,
      AudioService.listings_doDeleteStream]
    exact h.listed slot id hvoice

/-- A creation that fails raises an entry of a slot that has a voice call, or none. -/
theorem raised {config : StreamConfiguration} (h : Tracked s)
    (hother : ∀ slot, config.VoiceOf slot → ∃ id, s.HoldsVoice slot id)
    (hraised : s.Raised config s') : Tracked s' := by
  have hholds := holdsVoice_congr hraised.streamsCache
  constructor
  · intro slot
    simp only [hholds, hraised.voiceCallList]
    split_ifs with hvoice
    · exact iff_of_true one_ne_zero (hother slot hvoice)
    · exact h.raised_iff slot
  · simp only [hholds, hraised.streamIdIndexes]
    exact h.used
  · simp only [hholds, AudioService.listings_congr hraised.audioClientsList]
    exact h.listed

theorem create {config : StreamConfiguration} {resources : Setup} {purpose : StreamPurpose}
    {ec : ErrorCode} {streamId : StreamId} (h : Tracked s)
    (hpurpose : purpose = .default ∨ config.type ≠ .voiceCall)
    (hok : KeepsSlots s (.createStream clientId config resources))
    (hstep : s.doCreateStream clientId config resources purpose = some (ec, streamId, s')) :
    Tracked s' := by
  have hholds := holdsVoice_doCreateStream hpurpose hstep
  obtain ⟨-, -, rfl⟩ | ⟨hssr, hec, hraised, hfail⟩ | ⟨-, rfl, -, hfree, stream, -, hcreated⟩ :=
    AudioService.doCreateStream_cases hstep
  · exact h
  · refine h.raised (fun slot hvoice => ?_) hraised
    obtain hother | ⟨hstream, ⟨id, hid⟩, hopens⟩ := hok.resolve_left (by simp [hssr]) slot hvoice
    · exact hother
    · exfalso
      obtain hfail | hfull | ⟨stream, hsetup⟩ := hfail
      · cases hstream.symm.trans hfail
      · cases hid.symm.trans (hfull id)
      · obtain rfl := hpurpose.resolve_right (not_not.mpr hvoice.1)
        obtain ⟨stream', hopened⟩ := setupStream_of_setsUp clientId hvoice.1 hopens
        have hpair := Option.some.inj (hsetup.symm.trans hopened)
        exact hec (congrArg Prod.fst hpair)
  · simp only [true_and] at hholds
    have hnew : ∀ slot, ¬ s.HoldsVoice slot streamId := by
      intro slot hvoice
      cases hfree.symm.trans (h.used slot streamId hvoice)
    constructor
    · intro slot
      simp only [hholds, hcreated.voiceCallList]
      split_ifs with hvoice
      · exact iff_of_true one_ne_zero ⟨streamId, by rwa [if_pos rfl]⟩
      · rw [h.raised_iff]
        apply exists_congr
        intro id
        split_ifs with hid
        · exact iff_of_false (hid ▸ hnew slot) hvoice
        · rfl
    · intro slot id hvoice
      rw [hholds] at hvoice
      rw [hcreated.streamIdIndexes, Function.update_apply]
      split_ifs at hvoice ⊢ with hid
      · rfl
      · exact h.used slot id hvoice
    · intro slot id hvoice
      rw [hholds] at hvoice
      simp only [hcreated.listings]
      split_ifs at hvoice with hid
      · refine ⟨clientId, ?_⟩
        rw [if_pos ⟨rfl, hid⟩]
        exact Nat.succ_pos _
      · obtain ⟨k, hk⟩ := h.listed slot id hvoice
        exact ⟨k, Nat.add_pos_left hk _⟩

/-- The streams of a transcoder are no voice calls, whether they stay or not. -/
theorem createTranscoder {inSetup outSetup : Setup} {backend : ErrorCode} (h : Tracked s)
    (hstep : s.doCreateTranscoder clientId inSetup outSetup backend = some s') : Tracked s' := by
  obtain ⟨ec, inStreamId, t, hin, hrest⟩ := AudioService.doCreateTranscoder_cases hstep
  have hnone : ∀ (s : AudioService) type resources, type ≠ .voiceCall →
      KeepsSlots s (.createStream clientId (.ofType type) resources) :=
    fun s type resources htype => .inr fun slot hvoice => absurd hvoice.1 htype
  have ht : Tracked t := h.create (.inr (by decide)) (hnone s .play inSetup nofun) hin
  obtain ⟨-, rfl⟩ | ⟨rfl, ec', outStreamId, u, hout, hrest⟩ := hrest
  · exact ht
  have hu : Tracked u := ht.create (.inr (by decide)) (hnone t .capture outSetup nofun) hout
  obtain ⟨hec', rfl⟩ | ⟨-, rfl⟩ := hrest
  · apply hu.delete
    rintro slot id id' hvoice - rfl
    rw [holdsVoice_doCreateStream (.inr (by decide)) hout, if_neg fun h => hec' h.1,
      holdsVoice_doCreateStream (.inr (by decide)) hin, if_pos ⟨rfl, rfl⟩] at hvoice
    cases hvoice.1
  · exact hu

/-- What one task preserves. -/
theorem step {task : Task} (h : Tracked s) (hok : KeepsSlots s task)
    (hstep : step s task = some s') : Tracked s' := by
  cases task with
  | connect clientId =>
    cases hstep
    exact h.connect hok
  | disconnect clientId => exact h.disconnect hok hstep
  | ssr event =>
    cases hstep
    cases event with
    | audioOnline => exact h.of_eq rfl rfl rfl rfl
    | audioOffline => exact h.offline
  | createStream clientId config resources =>
    obtain ⟨⟨ec, streamId, t⟩, hcreate, rfl⟩ := Option.map_eq_some_iff.mp hstep
    exact h.create (.inl rfl) hok hcreate
  | deleteStream streamId backend =>
    cases hstep
    exact h.delete backend hok
  | createTranscoder clientId inSetup outSetup backend => exact h.createTranscoder hstep
  | deleteTranscoder inStreamId outStreamId inBackend outBackend =>
    cases hstep
    exact h.deleteTranscoder inBackend outBackend hok

end Tracked

/-- While voice calls are set up and the calls of a slot end together, an entry is raised while its
slot has a voice call, and in-call accesses succeed then. -/
theorem registered_of_keepsSlots (h : Reachable step KeepsSlots .new s) : Registered s :=
  have htracked : Tracked s :=
    h.invariant Tracked.new fun _ _ _ hok hstep hs => hs.step hok hstep
  htracked.registered

namespace Example

/-- A voice call of slot 1. -/
def voiceCall : StreamConfiguration where
  type := .voiceCall
  slotId := 1
  deviceTypes := [1, 257]
  voicePaths := []
  enableHpcm := false

/-- The second device is missing. -/
def oneDevice : StreamConfiguration := { voiceCall with deviceTypes := [1] }

/-- The backend refuses the stream. -/
def refused : Setup where
  stream := true
  buffer := true
  privateStreamData := true
  backend := .genericFailure

def accepted : Setup := { refused with backend := .success }

end Example

theorem registered_of_keepsSlots_two_calls :
    ∃ s : AudioService, s.voiceCallList 1 = 1 ∧ Registered s := by
  obtain ⟨s, hs, hraised⟩ := exists_reachable_of_run step KeepsSlots .new
    (fun s : AudioService => s.voiceCallList 1) 1
    [.connect 1, .createStream 1 Example.voiceCall Example.accepted,
      .createStream 1 Example.voiceCall Example.refused] (by decide)
  exact ⟨s, hraised, registered_of_keepsSlots hs⟩

/-- The only voice call of the slot is refused, as it has one device. -/
theorem not_registered_refused :
    ¬ ∀ s : AudioService, Reachable step anyStep .new s → Registered s := by
  intro h
  obtain ⟨s, hs, hstate⟩ := exists_reachable_of_run step anyStep .new
    (fun s : AudioService => (decide (s.voiceCallList 1 = 0), decide (∃ id, s.HoldsVoice 1 id)))
    (false, false) [.connect 1, .createStream 1 Example.oneDevice Example.accepted] (by decide)
  obtain ⟨hraised, hnone⟩ := Prod.ext_iff.mp hstate
  exact of_decide_eq_false hnone (((h s hs).raised_iff 1).mp (of_decide_eq_false hraised))

end Audio

end SatComm
