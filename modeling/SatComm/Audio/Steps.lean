import SatComm.Audio.Service

/-!
# What a task of the audio service does

Every clean-up closes a set of streams: they leave the array, and the entries of their slots are
lowered (`Closes`). A creation that fails leaves nothing but a raised entry of the voice call list,
and one that succeeds puts a stream under an identifier that was free. The search for a stream among
the clients changes none of their lists.
-/

namespace SatComm

namespace Audio

/-- A voice call of the slot with this entry. -/
def Stream.VoiceOf (stream : Stream) (slot : Fin 3) : Prop :=
  stream.type = .voiceCall ∧ voiceCallIndex? stream.slotId = some slot

instance (stream : Stream) (slot : Fin 3) : Decidable (stream.VoiceOf slot) :=
  inferInstanceAs (Decidable (_ ∧ _))

/-- A voice call of the slot is asked for. -/
def StreamConfiguration.VoiceOf (config : StreamConfiguration) (slot : Fin 3) : Prop :=
  config.type = .voiceCall ∧ voiceCallIndex? config.slotId = some slot

instance (config : StreamConfiguration) (slot : Fin 3) : Decidable (config.VoiceOf slot) :=
  inferInstanceAs (Decidable (_ ∧ _))

theorem Stream.lowered_apply (stream : Stream) (voiceCallList : VoiceCallList) (slot : Fin 3) :
    stream.lowered voiceCallList slot = if stream.VoiceOf slot then 0 else voiceCallList slot := by
  by_cases hvoice : stream.VoiceOf slot
  · rw [if_pos hvoice, lowered, hvoice.1, hvoice.2]
    exact Function.update_self ..
  · rw [if_neg hvoice, lowered]
    cases htype : stream.type with
    | voiceCall =>
      cases hslot : voiceCallIndex? stream.slotId with
      | none => rfl
      | some slot' =>
        have hne : slot ≠ slot' := by
          rintro rfl
          exact hvoice ⟨htype, hslot⟩
        exact Function.update_of_ne hne ..
    | _ => rfl

namespace AudioClient

variable {client : AudioClient} {streamId streamId' : StreamId} {type : StreamType}

@[simp]
theorem streamIds_new : AudioClient.new.streamIds = [] := rfl

/-- What the client lists is one more time the stream. -/
theorem streamIds_associateStream (client : AudioClient) (streamId : StreamId)
    (type : StreamType) :
    (client.associateStream streamId type).streamIds.Perm (streamId :: client.streamIds) := by
  rw [List.perm_iff_count]
  intro id
  cases type <;>
    simp only [streamIds, associateStream, types, List.flatMap_cons, List.flatMap_nil,
      Function.update_apply, reduceCtorEq, if_true, if_false, List.count_append, List.count_cons,
      List.count_nil] <;>
    omega

@[simp]
theorem disassociateStream_none (client : AudioClient) (streamId : StreamId) :
    (client.disassociateStream streamId .none).2 = client := rfl

end AudioClient

namespace AudioService

variable {s s' s'' : AudioService} {streamId id : StreamId} {clientId k : Int} {slot : Fin 3}
  {config : StreamConfiguration} {resources : Setup} {purpose : StreamPurpose} {ec : ErrorCode}

/-- How often a client lists a stream. -/
def listings (s : AudioService) (clientId : Int) (streamId : StreamId) : Nat :=
  (s.audioClientsList.get? clientId).elim 0 fun client => client.streamIds.count streamId

/-- The stream is there, and it is a voice call of the slot. -/
def HoldsVoice (s : AudioService) (slot : Fin 3) (streamId : StreamId) : Prop :=
  ∃ stream, s.streamsCache streamId = some stream ∧ stream.VoiceOf slot

theorem listings_of_get? {client : AudioClient}
    (h : s.audioClientsList.get? clientId = some client) :
    s.listings clientId streamId = client.streamIds.count streamId := by
  simp [listings, h]

theorem listings_pos : 0 < s.listings clientId streamId ↔
    ∃ client, s.audioClientsList.get? clientId = some client ∧ streamId ∈ client.streamIds := by
  unfold listings
  cases s.audioClientsList.get? clientId with
  | none => simp
  | some client => simp [List.count_pos_iff]

theorem listings_congr (h : s'.audioClientsList = s.audioClientsList) :
    s'.listings = s.listings := by
  funext
  simp only [listings, h]

/-! ## Clients -/

theorem listings_handleClientConnect :
    (s.handleClientConnect clientId).listings k id =
      if k = clientId then 0 else s.listings k id := by
  simp only [listings, handleClientConnect, Assoc.Map.get?_set]
  split_ifs <;> simp

theorem listings_associateStream {client : AudioClient} (type : StreamType)
    (h : s.audioClientsList.get? clientId = some client) :
    (s.associateStream clientId client type streamId).listings k id =
      s.listings k id + if k = clientId ∧ id = streamId then 1 else 0 := by
  simp only [listings, associateStream, Assoc.Map.get?_set]
  by_cases hk : k = clientId
  · subst hk
    have hcount := (client.streamIds_associateStream streamId type).count_eq id
    rw [if_pos rfl, Option.elim_some, h, Option.elim_some, hcount, List.count_cons]
    simp only [beq_iff_eq, true_and, eq_comm (a := streamId)]
  · simp [hk]

theorem listings_disassociateAllStreams : s.disassociateAllStreams.listings k id = 0 := by
  simp only [listings, disassociateAllStreams, Assoc.Map.get?_filterMap]
  cases s.audioClientsList.get? k <;> simp [AudioClient.disassociateAllStreams]

/-- The search for the stream changes nothing. -/
theorem disassociateStream_eq (s : AudioService) (streamId : StreamId) :
    ∃ clients, s.disassociateStream streamId = { s with audioClientsList := clients } ∧
      ∀ k, clients.get? k = s.audioClientsList.get? k := by
  unfold disassociateStream
  split
  · rename_i clientId client hfind
    refine ⟨_, rfl, fun k => ?_⟩
    have hmem := Assoc.Map.mem_pairs.mp (List.mem_of_find?_eq_some hfind)
    rw [Assoc.Map.get?_set, AudioClient.disassociateStream_none]
    split_ifs with hk
    · rw [hk, hmem]
    · rfl
  · exact ⟨_, rfl, fun _ => rfl⟩

@[simp]
theorem listings_disassociateStream : (s.disassociateStream streamId).listings = s.listings := by
  obtain ⟨clients, heq, hget⟩ := s.disassociateStream_eq streamId
  funext
  simp only [heq, listings, hget]

@[simp]
theorem streamsCache_disassociateStream :
    (s.disassociateStream streamId).streamsCache = s.streamsCache := by
  obtain ⟨clients, heq, -⟩ := s.disassociateStream_eq streamId
  rw [heq]

@[simp]
theorem streamIdIndexes_disassociateStream :
    (s.disassociateStream streamId).streamIdIndexes = s.streamIdIndexes := by
  obtain ⟨clients, heq, -⟩ := s.disassociateStream_eq streamId
  rw [heq]

@[simp]
theorem voiceCallList_disassociateStream :
    (s.disassociateStream streamId).voiceCallList = s.voiceCallList := by
  obtain ⟨clients, heq, -⟩ := s.disassociateStream_eq streamId
  rw [heq]

/-! ## Clean-up -/

/-- The streams in `closed` are gone, and the entries of their slots are lowered. -/
structure Closes (s : AudioService) (closed : StreamId → Prop) (s' : AudioService) : Prop where
  gone : ∀ id, closed id → s'.streamsCache id = none
  stays : ∀ id, ¬ closed id → s'.streamsCache id = s.streamsCache id
  lowered : ∀ slot id, closed id → s.HoldsVoice slot id → s'.voiceCallList slot = 0
  unlowered : ∀ slot, (∀ id, closed id → ¬ s.HoldsVoice slot id) →
    s'.voiceCallList slot = s.voiceCallList slot

theorem Closes.refl (s : AudioService) : s.Closes (fun _ => False) s :=
  ⟨nofun, fun _ _ => rfl, nofun, fun _ _ => rfl⟩

theorem Closes.congr {closed closed' : StreamId → Prop} (h : s.Closes closed s')
    (hiff : ∀ id, closed' id ↔ closed id) : s.Closes closed' s' := by
  obtain rfl : closed' = closed := funext fun id => propext (hiff id)
  exact h

theorem Closes.trans {closed closed' : StreamId → Prop} (h : s.Closes closed s')
    (h' : s'.Closes closed' s'') : s.Closes (fun id => closed id ∨ closed' id) s'' := by
  have hholds : ∀ slot id, ¬ closed id → (s'.HoldsVoice slot id ↔ s.HoldsVoice slot id) := by
    intro slot id hid
    simp only [HoldsVoice, h.stays id hid]
  have hgone : ∀ slot id, closed id → ¬ s'.HoldsVoice slot id := by
    rintro slot id hid ⟨stream, hcached, -⟩
    rw [h.gone id hid] at hcached
    cases hcached
  -- an entry that is down stays down
  have hzero : ∀ slot, s'.voiceCallList slot = 0 → s''.voiceCallList slot = 0 := by
    intro slot hslot
    by_cases hex : ∃ id, closed' id ∧ s'.HoldsVoice slot id
    · obtain ⟨id, hid, hvoice⟩ := hex
      exact h'.lowered slot id hid hvoice
    · rw [h'.unlowered slot fun id hid hvoice => hex ⟨id, hid, hvoice⟩, hslot]
  constructor
  · intro id hid
    by_cases hid' : closed' id
    · exact h'.gone id hid'
    · rw [h'.stays id hid', h.gone id (hid.resolve_right hid')]
  · intro id hid
    rw [not_or] at hid
    rw [h'.stays id hid.2, h.stays id hid.1]
  · intro slot id hid hvoice
    by_cases hfirst : closed id
    · exact hzero slot (h.lowered slot id hfirst hvoice)
    · exact h'.lowered slot id (hid.resolve_left hfirst) ((hholds slot id hfirst).mpr hvoice)
  · intro slot hnone
    have hsecond : ∀ id, closed' id → ¬ s'.HoldsVoice slot id := by
      intro id hid hvoice
      have hfirst : ¬ closed id := fun hfirst => hgone slot id hfirst hvoice
      exact hnone id (.inr hid) ((hholds slot id hfirst).mp hvoice)
    rw [h'.unlowered slot hsecond, h.unlowered slot fun id hid => hnone id (.inl hid)]

/-- The array and the list decide what is closed. -/
theorem Closes.of_eq {closed : StreamId → Prop} (h : s.Closes closed s')
    (hcache : s''.streamsCache = s'.streamsCache) (hlist : s''.voiceCallList = s'.voiceCallList) :
    s.Closes closed s'' := by
  obtain ⟨hgone, hstays, hlowered, hunlowered⟩ := h
  exact ⟨hcache ▸ hgone, hcache ▸ hstays, hlist ▸ hlowered, hlist ▸ hunlowered⟩

theorem closes_closeStream (s : AudioService) (streamId : StreamId) :
    s.Closes (· = streamId) (s.closeStream streamId) := by
  unfold closeStream
  cases hcached : s.streamsCache streamId with
  | none =>
    refine ⟨?_, ?_, ?_, fun _ _ => rfl⟩
    · rintro _ rfl
      exact Function.update_self ..
    · intro id hid
      exact Function.update_of_ne hid ..
    · rintro slot _ rfl ⟨stream, hstream, -⟩
      rw [hcached] at hstream
      cases hstream
  | some stream =>
    refine ⟨?_, ?_, ?_, ?_⟩
    · rintro _ rfl
      exact Function.update_self ..
    · intro id hid
      exact Function.update_of_ne hid ..
    · rintro slot _ rfl ⟨stream', hstream, hvoice⟩
      obtain rfl : stream = stream' := Option.some.inj (hcached.symm.trans hstream)
      exact (stream.lowered_apply ..).trans (if_pos hvoice)
    · intro slot hnone
      exact (stream.lowered_apply ..).trans
        (if_neg fun hvoice => hnone streamId rfl ⟨stream, hcached, hvoice⟩)

/-- A loop over identifiers closes their streams when each round does. -/
theorem closes_foldl {f : AudioService → StreamId → AudioService}
    (hf : ∀ (s : AudioService) streamId, s.Closes (· = streamId) (f s streamId))
    (ids : List StreamId) (s : AudioService) : s.Closes (· ∈ ids) (ids.foldl f s) := by
  induction ids generalizing s with
  | nil => exact (Closes.refl s).congr fun id => by simp
  | cons streamId ids ih =>
    exact ((hf s streamId).trans (ih (f s streamId))).congr fun id => List.mem_cons

theorem closes_giveUpStream (s : AudioService) (streamId : StreamId) :
    s.Closes (· = streamId) (s.giveUpStream streamId) := by
  have hsame : s.Closes (fun _ => False) (s.disassociateStream streamId) :=
    (Closes.refl s).of_eq streamsCache_disassociateStream voiceCallList_disassociateStream
  have hround : s.Closes (· = streamId) ((s.disassociateStream streamId).closeStream streamId) :=
    (hsame.trans (closes_closeStream _ streamId)).congr fun id => by simp
  exact hround.of_eq rfl rfl

theorem audioClientsList_closeStream (s : AudioService) (streamId : StreamId) :
    (s.closeStream streamId).audioClientsList = s.audioClientsList := by
  unfold closeStream
  split <;> rfl

theorem streamIdIndexes_closeStream (s : AudioService) (streamId : StreamId) :
    (s.closeStream streamId).streamIdIndexes = s.streamIdIndexes := by
  unfold closeStream
  split <;> rfl

theorem listings_giveUpStream (s : AudioService) (streamId : StreamId) :
    (s.giveUpStream streamId).listings = s.listings := by
  have hlist : (s.giveUpStream streamId).audioClientsList =
      (s.disassociateStream streamId).audioClientsList := audioClientsList_closeStream ..
  rw [listings_congr hlist, listings_disassociateStream]

theorem streamIdIndexes_giveUpStream (s : AudioService) (streamId : StreamId) :
    (s.giveUpStream streamId).streamIdIndexes =
      Function.update s.streamIdIndexes streamId false := by
  rw [giveUpStream, releaseStreamId, streamIdIndexes_closeStream,
    streamIdIndexes_disassociateStream]

theorem listings_foldl_giveUpStream (ids : List StreamId) (s : AudioService) :
    (ids.foldl giveUpStream s).listings = s.listings := by
  induction ids generalizing s with
  | nil => rfl
  | cons streamId ids ih => rw [List.foldl_cons, ih, listings_giveUpStream]

theorem streamIdIndexes_foldl_giveUpStream (ids : List StreamId) (s : AudioService) :
    (ids.foldl giveUpStream s).streamIdIndexes id =
      if id ∈ ids then false else s.streamIdIndexes id := by
  induction ids generalizing s with
  | nil => simp
  | cons streamId ids ih =>
    rw [List.foldl_cons, ih, streamIdIndexes_giveUpStream, Function.update_apply]
    by_cases hid : id = streamId <;> simp [hid]

/-- A disconnect closes and releases what the client lists. -/
theorem handleClientDisconnect_cases (h : s.handleClientDisconnect clientId = some s') :
    s.Closes (fun id => 0 < s.listings clientId id) s' ∧
    (∀ id, s'.streamIdIndexes id =
      if 0 < s.listings clientId id then false else s.streamIdIndexes id) ∧
    ∀ k id, s'.listings k id = if k = clientId then 0 else s.listings k id := by
  obtain ⟨client, hclient, rfl⟩ := Option.map_eq_some_iff.mp h
  have hmem : ∀ id, 0 < s.listings clientId id ↔ id ∈ client.streamIds := by
    intro id
    rw [listings_of_get? hclient, List.count_pos_iff]
  refine ⟨?_, fun id => ?_, fun k id => ?_⟩
  · exact ((closes_foldl closes_giveUpStream _ s).congr hmem).of_eq rfl rfl
  · exact (streamIdIndexes_foldl_giveUpStream _ s).trans (by simp only [hmem])
  · rw [← listings_foldl_giveUpStream client.streamIds s]
    simp only [listings, Assoc.Map.get?_erase]
    split_ifs <;> rfl

/-- An SSR event closes what any client lists and releases everything. -/
theorem handleSSREvent_offline (s : AudioService) :
    s.Closes (fun id => ∃ k, 0 < s.listings k id) (s.handleSSREvent .audioOffline) ∧
    (∀ id, (s.handleSSREvent .audioOffline).streamIdIndexes id = false) ∧
    ∀ k id, (s.handleSSREvent .audioOffline).listings k id = 0 := by
  have hmem : ∀ id, (∃ k, 0 < s.listings k id) ↔
      id ∈ s.audioClientsList.values.flatMap AudioClient.streamIds := by
    intro id
    simp only [listings_pos, List.mem_flatMap, Assoc.Map.mem_values]
    constructor
    · rintro ⟨k, client, hget, hid⟩
      exact ⟨client, ⟨k, hget⟩, hid⟩
    · rintro ⟨client, ⟨k, hget⟩, hid⟩
      exact ⟨k, client, hget, hid⟩
  refine ⟨?_, fun _ => rfl, fun _ _ => listings_disassociateAllStreams⟩
  have hstart : s.Closes (fun _ => False) { s with ssrInProgress := true } :=
    (Closes.refl s).of_eq rfl rfl
  have hloop := hstart.trans (closes_foldl closes_closeStream
    (s.audioClientsList.values.flatMap AudioClient.streamIds) { s with ssrInProgress := true })
  exact (hloop.congr fun id => by rw [hmem, false_or]).of_eq rfl rfl

/-! ## Deletion -/

theorem doDeleteStream_of_none (backend : ErrorCode) (h : s.streamsCache streamId = none) :
    (s.doDeleteStream streamId backend).2 = s := by
  rw [doDeleteStream, h]

theorem closes_doDeleteStream (s : AudioService) (streamId : StreamId) (backend : ErrorCode) :
    s.Closes (· = streamId) (s.doDeleteStream streamId backend).2 := by
  have hclose := closes_closeStream s streamId
  unfold closeStream at hclose
  unfold doDeleteStream
  cases hcached : s.streamsCache streamId with
  | none =>
    simp only [hcached] at hclose
    refine hclose.of_eq ?_ rfl
    exact (Function.update_eq_self_iff.mpr hcached.symm).symm
  | some stream =>
    simp only [hcached] at hclose
    apply hclose.of_eq
    · exact streamsCache_disassociateStream
    · exact congrArg stream.lowered voiceCallList_disassociateStream

theorem listings_doDeleteStream (s : AudioService) (streamId : StreamId) (backend : ErrorCode) :
    (s.doDeleteStream streamId backend).2.listings = s.listings := by
  unfold doDeleteStream
  split
  · rfl
  · exact (listings_congr rfl).trans (listings_disassociateStream.trans (listings_congr rfl))

theorem streamIdIndexes_doDeleteStream (backend : ErrorCode) (h : id ≠ streamId) :
    (s.doDeleteStream streamId backend).2.streamIdIndexes id = s.streamIdIndexes id := by
  unfold doDeleteStream
  split
  · rfl
  · exact (congrFun streamIdIndexes_disassociateStream id).trans (Function.update_of_ne h ..)

/-! ## Creation -/

theorem getNextAvailableStreamID_eq_none (h : s.getNextAvailableStreamID = none) (id : StreamId) :
    s.streamIdIndexes id = true := by
  have hnone := List.find?_eq_none.mp (Option.map_eq_none_iff.mp h) id (List.mem_finRange id)
  simpa using hnone

theorem getNextAvailableStreamID_eq_some (h : s.getNextAvailableStreamID = some (streamId, s')) :
    s.streamIdIndexes streamId = false ∧
      s' = { s with streamIdIndexes := Function.update s.streamIdIndexes streamId true } := by
  obtain ⟨x, hfind, heq⟩ := Option.map_eq_some_iff.mp h
  obtain ⟨rfl, rfl⟩ := Prod.mk.inj heq
  exact ⟨by simpa using List.find?_some hfind, rfl⟩

/-- What a creation leaves that fails outside an SSR. -/
structure Raised (s : AudioService) (config : StreamConfiguration) (s' : AudioService) :
    Prop where
  streamIdIndexes : s'.streamIdIndexes = s.streamIdIndexes
  streamsCache : s'.streamsCache = s.streamsCache
  audioClientsList : s'.audioClientsList = s.audioClientsList
  ssrInProgress : s'.ssrInProgress = s.ssrInProgress
  voiceCallList : ∀ slot,
    s'.voiceCallList slot = if config.VoiceOf slot then 1 else s.voiceCallList slot

/-- What a creation leaves that succeeds. -/
structure Created (s : AudioService) (clientId : Int) (config : StreamConfiguration)
    (streamId : StreamId) (stream : Stream) (s' : AudioService) : Prop where
  streamIdIndexes : s'.streamIdIndexes = Function.update s.streamIdIndexes streamId true
  streamsCache : s'.streamsCache = Function.update s.streamsCache streamId (some stream)
  listings : ∀ k id,
    s'.listings k id = s.listings k id + if k = clientId ∧ id = streamId then 1 else 0
  ssrInProgress : s'.ssrInProgress = s.ssrInProgress
  voiceCallList : ∀ slot,
    s'.voiceCallList slot = if config.VoiceOf slot then 1 else s.voiceCallList slot

theorem raised_of_raiseVoiceCall (h : s.raiseVoiceCall config = some s') :
    s.Raised config s' := by
  unfold raiseVoiceCall at h
  split_ifs at h with htype
  · obtain ⟨slot', hslot, rfl⟩ := Option.map_eq_some_iff.mp h
    refine ⟨rfl, rfl, rfl, rfl, fun slot => ?_⟩
    apply (Function.update_apply ..).trans
    simp only [StreamConfiguration.VoiceOf, htype, hslot, true_and, Option.some.injEq, eq_comm]
  · cases h
    exact ⟨rfl, rfl, rfl, rfl, fun slot => (if_neg fun hvoice => htype hvoice.1).symm⟩

/-- The identifier that was reserved is released again. -/
theorem Raised.releaseStreamId (h : s.Raised config s')
    (hfree : s.streamIdIndexes streamId = false) :
    s.Raised config (AudioService.releaseStreamId { s' with
      streamIdIndexes := Function.update s'.streamIdIndexes streamId true } streamId) := by
  refine ⟨?_, h.streamsCache, h.audioClientsList, h.ssrInProgress, h.voiceCallList⟩
  show Function.update (Function.update s'.streamIdIndexes streamId true) streamId false = _
  rw [Function.update_idem, h.streamIdIndexes, Function.update_eq_self_iff, hfree]

/-- The stream is cached, and its client lists it. -/
theorem Raised.created (h : s.Raised config s') {client : AudioClient} (stream : Stream)
    (hclient : s'.audioClientsList.get? clientId = some client) :
    s.Created clientId config streamId stream
      (({ s' with
        streamIdIndexes := Function.update s'.streamIdIndexes streamId true }.cacheStream streamId
          stream).associateStream clientId client config.type streamId) := by
  refine ⟨?_, ?_, fun k id => ?_, h.ssrInProgress, h.voiceCallList⟩
  · exact congrArg (Function.update · streamId true) h.streamIdIndexes
  · exact congrArg (Function.update · streamId (some stream)) h.streamsCache
  · generalize hu : { s' with
      streamIdIndexes := Function.update s'.streamIdIndexes streamId true }.cacheStream streamId
        stream = u
    have hclients : u.audioClientsList = s'.audioClientsList := hu ▸ rfl
    rw [listings_associateStream _ (hclients ▸ hclient),
      listings_congr (hclients.trans h.audioClientsList)]

theorem Stream.setupStream_fields {stream : Stream}
    (h : Stream.setupStream config resources clientId = some (ec, stream)) :
    stream.createdFor = clientId ∧ stream.type = config.type ∧ stream.slotId = config.slotId := by
  unfold Stream.setupStream at h
  dsimp only at h
  split at h
  · split at h <;> cases h <;> exact ⟨rfl, rfl, rfl⟩
  · obtain ⟨device, -, h⟩ := Option.bind_eq_some_iff.mp h
    split at h <;> cases h <;> exact ⟨rfl, rfl, rfl⟩
  · split at h
    · obtain ⟨device, -, h⟩ := Option.bind_eq_some_iff.mp h
      cases h
      exact ⟨rfl, rfl, rfl⟩
    · cases h
      exact ⟨rfl, rfl, rfl⟩
  all_goals
    cases h
    exact ⟨rfl, rfl, rfl⟩

/-- The stream is for the client that asked, and its kind is the one it was asked for. -/
theorem setup_cases {stream : Stream}
    (hpurpose : purpose = .default ∨ config.type ≠ .voiceCall)
    (h : setup purpose config resources clientId = some (ec, stream)) :
    stream.createdFor = clientId ∧ ∀ slot, stream.VoiceOf slot ↔ config.VoiceOf slot := by
  have htranscoder : ∀ type ec', type ≠ .voiceCall → config.type ≠ .voiceCall →
      some (ec', Stream.new (.ofType type) clientId) = some (ec, stream) →
      stream.createdFor = clientId ∧ ∀ slot, stream.VoiceOf slot ↔ config.VoiceOf slot := by
    rintro type ec' htype hconfig heq
    cases heq
    exact ⟨rfl, fun slot => ⟨fun hvoice => absurd hvoice.1 htype,
      fun hvoice => absurd hvoice.1 hconfig⟩⟩
  have hsame : stream.createdFor = clientId → stream.type = config.type →
      stream.slotId = config.slotId →
      stream.createdFor = clientId ∧ ∀ slot, stream.VoiceOf slot ↔ config.VoiceOf slot := by
    intro hfor htype hslot
    refine ⟨hfor, fun slot => ?_⟩
    rw [Stream.VoiceOf, htype, hslot, StreamConfiguration.VoiceOf]
  cases purpose with
  | transcoderIn => exact htranscoder .play _ nofun (hpurpose.resolve_left nofun) h
  | transcoderOut => exact htranscoder .capture _ nofun (hpurpose.resolve_left nofun) h
  | default =>
    obtain ⟨hfor, htype, hslot⟩ := Stream.setupStream_fields h
    exact hsame hfor htype hslot

/-- Everything a creation can do. -/
theorem doCreateStream_cases
    (h : s.doCreateStream clientId config resources purpose = some (ec, streamId, s')) :
    s.ssrInProgress = true ∧ ec ≠ .success ∧ s' = s ∨
    s.ssrInProgress = false ∧ ec ≠ .success ∧ s.Raised config s' ∧
      (resources.stream = false ∨ (∀ id, s.streamIdIndexes id = true) ∨
        ∃ stream, setup purpose config resources clientId = some (ec, stream)) ∨
    s.ssrInProgress = false ∧ ec = .success ∧ resources.stream = true ∧
      s.streamIdIndexes streamId = false ∧
      ∃ stream, setup purpose config resources clientId = some (.success, stream) ∧
        s.Created clientId config streamId stream s' := by
  unfold doCreateStream at h
  by_cases hssr : s.ssrInProgress = true
  · rw [if_pos hssr] at h
    cases h
    exact .inl ⟨hssr, nofun, rfl⟩
  · rw [if_neg hssr] at h
    have hssr' : s.ssrInProgress = false := by simpa using hssr
    obtain ⟨t, hraise, h⟩ := Option.bind_eq_some_iff.mp h
    have hraised := raised_of_raiseVoiceCall hraise
    by_cases hstream : resources.stream = false
    · rw [if_pos hstream] at h
      cases h
      exact .inr (.inl ⟨hssr', nofun, hraised, .inl hstream⟩)
    · rw [if_neg hstream] at h
      split at h
      · rename_i hfull
        cases h
        have hall := getNextAvailableStreamID_eq_none hfull
        rw [hraised.streamIdIndexes] at hall
        exact .inr (.inl ⟨hssr', nofun, hraised, .inr (.inl hall)⟩)
      · rename_i x u hnext
        obtain ⟨hfree, rfl⟩ := getNextAvailableStreamID_eq_some hnext
        rw [hraised.streamIdIndexes] at hfree
        obtain ⟨⟨ec', stream⟩, hsetup, h⟩ := Option.bind_eq_some_iff.mp h
        by_cases hfail : ec' ≠ .success
        · simp only [if_pos hfail, Option.some.injEq, Prod.mk.injEq] at h
          obtain ⟨rfl, rfl, rfl⟩ := h
          exact .inr (.inl ⟨hssr', hfail, hraised.releaseStreamId hfree,
            .inr (.inr ⟨stream, hsetup⟩)⟩)
        · simp only [if_neg hfail] at h
          obtain ⟨client, hclient, h⟩ := Option.bind_eq_some_iff.mp h
          obtain rfl : ec' = .success := not_not.mp hfail
          simp only [Option.some.injEq, Prod.mk.injEq] at h
          obtain ⟨rfl, rfl, rfl⟩ := h
          exact .inr (.inr ⟨hssr', rfl, by simpa using hstream, hfree, stream, hsetup,
            hraised.created stream hclient⟩)

/-- Everything the creation of a transcoder can do. -/
theorem doCreateTranscoder_cases {inSetup outSetup : Setup} {backend : ErrorCode}
    (h : s.doCreateTranscoder clientId inSetup outSetup backend = some s') :
    ∃ ec inStreamId t,
      s.doCreateStream clientId (.ofType .play) inSetup .transcoderIn = some (ec, inStreamId, t) ∧
      (ec ≠ .success ∧ s' = t ∨
        ec = .success ∧ ∃ ec' outStreamId u,
          t.doCreateStream clientId (.ofType .capture) outSetup .transcoderOut =
            some (ec', outStreamId, u) ∧
          (ec' ≠ .success ∧ s' = (u.doDeleteStream inStreamId backend).2 ∨
            ec' = .success ∧ s' = u)) := by
  obtain ⟨⟨ec, inStreamId, t⟩, hin, h⟩ := Option.bind_eq_some_iff.mp h
  refine ⟨ec, inStreamId, t, hin, ?_⟩
  by_cases hec : ec ≠ .success
  · simp only [if_pos hec, Option.some.injEq] at h
    exact .inl ⟨hec, h.symm⟩
  · simp only [if_neg hec] at h
    obtain ⟨⟨ec', outStreamId, u⟩, hout, h⟩ := Option.bind_eq_some_iff.mp h
    refine .inr ⟨not_not.mp hec, ec', outStreamId, u, hout, ?_⟩
    by_cases hec' : ec' ≠ .success
    · simp only [if_pos hec', Option.some.injEq] at h
      exact .inl ⟨hec', h.symm⟩
    · simp only [if_neg hec', Option.some.injEq] at h
      exact .inr ⟨not_not.mp hec', h.symm⟩

end AudioService

end Audio

end SatComm
