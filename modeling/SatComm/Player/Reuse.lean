import SatComm.Player.Visits

/-!
# Reusing a stream

A stream that is kept for the next entry is to be as good as one that was opened for it. The player
compares the entry with the one before it in the list, which need not be the one that was played
last: this is right for a playlist in which no such comparison misleads.
-/

namespace SatComm

namespace Player

namespace Entries

/-- The stream was created with the configuration of the entry, and the player knows its format. -/
def Write.Faithful (cfgs : List PlaybackConfig) (w : Write) : Prop :=
  ∃ cfg stream, cfgs[w.index]? = some cfg ∧ w.stream = some stream ∧
    stream.Equal cfg.streamConfig ∧
    setFormatAndOffset cfg.streamConfig.format = some (w.isCompressed, w.contentOffset)

/-- Where an entry has the configuration of the one before it in the list, it has that of the entry
that is played last before it. -/
def PredecessorTells (cfgs : List PlaybackConfig) : Prop :=
  ∀ m n last cfg, m < n → visit cfgs m = some last → last.Due →
    (∀ k, m < k → k < n → ¬ PlaysAt cfgs k) → Reached cfgs n cfg → sameAsBefore cfgs n = true →
    last.streamConfig.Equal cfg.streamConfig

variable {cfgs : List PlaybackConfig} {cfg : PlaybackConfig} {m n : ℕ} {s : State}
  {stream : StreamConfig} {files : String → List UInt8}

/-- How much of a file in this format is not to be played. -/
def headerBytes (format : AudioFormat) : ℕ :=
  match setFormatAndOffset format with
  | some (_, contentOffset) => contentOffset
  | none => 0

/-! ## Equal configurations -/

namespace StreamConfig.Equal

variable {a b c : StreamConfig}

theorem refl (a : StreamConfig) : a.Equal a := ⟨rfl, rfl, rfl, rfl, rfl, fun _ => rfl⟩

theorem symm (h : a.Equal b) : b.Equal a :=
  ⟨h.type.symm, h.sampleRate.symm, h.format.symm, h.channelTypeMask.symm, h.deviceTypes.symm,
    fun hformat => (h.formatParams (by rw [h.format]; exact hformat)).symm⟩

theorem trans (h : a.Equal b) (h' : b.Equal c) : a.Equal c :=
  ⟨h.type.trans h'.type, h.sampleRate.trans h'.sampleRate, h.format.trans h'.format,
    h.channelTypeMask.trans h'.channelTypeMask, h.deviceTypes.trans h'.deviceTypes,
    fun hformat => (h.formatParams hformat).trans (h'.formatParams (h.format ▸ hformat))⟩

end StreamConfig.Equal

/-! ## Entries that are played -/

/-- A run in which every write is accepted in full. -/
abbrev Comes (files : String → List UInt8) (cfgs : List PlaybackConfig) (s : State) : Prop :=
  Runs.Reachable (step files) Accepts (initial cfgs) s

/-- The next turn, with buffers of one byte for a new stream. -/
theorem Comes.turn {s' : State} (h : Comes files cfgs s)
    (hs : s.executePlayback files ⟨1, false⟩ = some s') : Comes files cfgs s' :=
  .step (.player ⟨1, false⟩) h rfl hs

/-- The player comes to the entry `n`. -/
structure StartOf (files : String → List UInt8) (cfgs : List PlaybackConfig) (n : ℕ) (s : State) :
    Prop extends Before cfgs n s where
  comes : Comes files cfgs s
  thread : s.thread = .turn .selectFile
  closed : s.isFileOpened = false
  buffers : (streamBefore cfgs n).isSome → 0 < s.bufferSize

/-- The samples of the entry are read from here on. -/
structure ReadsFrom (files : String → List UInt8) (cfgs : List PlaybackConfig) (n : ℕ)
    (cfg : PlaybackConfig) (position : ℕ) (s : State) : Prop extends Playing cfgs n cfg s where
  comes : Comes files cfgs s
  thread : s.thread = .turn .playSamples
  buffers : 0 < s.bufferSize
  position : s.position = position
  eof : s.eof = false

/-- The samples of the entry were written. -/
structure Wrote (files : String → List UInt8) (cfgs : List PlaybackConfig) (n : ℕ)
    (cfg : PlaybackConfig) (s : State) : Prop extends Played cfgs n cfg s where
  comes : Comes files cfgs s
  thread : s.thread = .turn .selectFile
  buffers : 0 < s.bufferSize

/-- A stream for the entry can be had, with buffers. -/
theorem exists_reinitAudioStream (h : Opening cfgs n cfg s)
    (hknown : OpensAt cfgs n → cfg.streamConfig.format ≠ .unknown)
    (hbuffers : (streamBefore cfgs n).isSome → 0 < s.bufferSize) :
    ∃ t, s.reinitAudioStream 1 = some t ∧ 0 < t.bufferSize ∧ t.position = s.position ∧
      t.eof = s.eof ∧ t.written = s.written ∧ t.numTimesFilePlayed = s.numTimesFilePlayed := by
  rcases reinitAudioStream_cases h 1 with ⟨hopens, heq⟩ | ⟨hopens, heq⟩
  · refine ⟨_, heq, hbuffers ?_, rfl, rfl, rfl, rfl⟩
    rw [opensAt_iff h.visit h.due, not_not] at hopens
    exact hopens.1
  · rw [heq, State.openStream, h.get, h.visit]
    dsimp only
    have hformat : ∃ pair, setFormatAndOffset cfg.streamConfig.format = some pair := by
      have hne := hknown hopens
      cases hfmt : cfg.streamConfig.format with
      | unknown => exact absurd hfmt hne
      | pcm16BitSigned | amrNb | amrWb | amrWbPlus => exact ⟨_, rfl⟩
    obtain ⟨⟨isCompressed, contentOffset⟩, hpair⟩ := hformat
    rw [hpair]
    exact ⟨_, rfl, Nat.one_pos, rfl, rfl, rfl, rfl⟩

/-- The first repetition reads the file from its beginning. -/
theorem StartOf.exists_reads (h : StartOf files cfgs n s) (hreached : Reached cfgs n cfg) :
    ∃ t, ReadsFrom files cfgs n cfg 0 t ∧ t.written = [] ∧ t.numTimesFilePlayed = 0 := by
  have hselect : Comes files cfgs s.selectFile :=
    h.comes.turn (by rw [State.executePlayback]; simp only [h.thread])
  rw [selectFile_first h.toAt hreached.visit hreached.due h.none h.closed] at hselect
  have hopen : Comes files cfgs { ({ s with curPbCfg := cfg }.first.seek 0) with
      isFileOpened := true, thread := .turn .reinitStream } :=
    hselect.turn (if_neg hreached.named)
  have hopening : Opening cfgs n cfg { ({ s with curPbCfg := cfg }.first.seek 0) with
      isFileOpened := true, thread := .turn .reinitStream } :=
    ⟨⟨⟨h.configs, h.index, h.passed⟩, h.stream.of_eq rfl rfl rfl rfl, h.none⟩, hreached.visit,
      hreached.due, rfl, rfl⟩
  obtain ⟨t, ht, hbuffers, hposition, heof, hwritten, htimes⟩ :=
    exists_reinitAudioStream hopening hreached.known h.buffers
  obtain ⟨hplaying, hthread, -⟩ := reinitAudioStream_playing hopening rfl hreached.named ht
  exact ⟨t, ⟨hplaying, hopen.turn ht, hthread, hbuffers, hposition, heof⟩, hwritten,
    htimes.trans h.none⟩

/-- What one call reads is written, and the rest of the file is left. -/
theorem playAudioSamples_reads (s : State) (content : List UInt8) :
    ∃ read, content.drop s.position = read ++ content.drop (s.position + read.length) ∧
      (read.length < s.bufferSize → content.drop (s.position + read.length) = []) ∧
      read.length ≤ s.bufferSize ∧
      s.playAudioSamples content = { s with
        position := s.position + read.length
        eof := s.eof || decide (read.length < s.bufferSize)
        thread := .testingEof
        written := s.written ++ read
        writes := (s.playAudioSamples content).writes } := by
  refine ⟨(content.drop s.position).take s.bufferSize, ?_, ?_, List.length_take_le _ _, ?_⟩
  · rw [← List.drop_drop, List.take_eq_take_min, List.length_take_of_le (Nat.min_le_right _ _)]
    exact (List.take_append_drop _ _).symm
  · intro hshort
    rw [List.length_take, List.length_drop] at hshort ⊢
    apply List.drop_eq_nil_of_le
    omega
  · unfold State.playAudioSamples
    dsimp only
    split_ifs with hread
    · simp only [hread.1, List.append_nil]
    · rfl

/-- At the end of the file the repetition is reported. -/
theorem exists_wrote_of_eof (h : Playing cfgs n cfg s) (hcomes : Comes files cfgs s)
    (hthread : s.thread = .testingEof) (heof : s.eof = true) (hbuffers : 0 < s.bufferSize) :
    ∃ t, Wrote files cfgs n cfg t ∧
      t.played = s.played ++ [⟨n % 2 ^ 32, cfg.absoluteFilePath, s.written⟩] ∧
      (cfg.repeatInfo.type = .count → t.numTimesFilePlayed = s.numTimesFilePlayed + 1) := by
  have htest : Comes files cfgs { s with thread := .turn .filePlayEnd } :=
    hcomes.turn (by simp only [State.executePlayback, hthread, heof, if_true])
  have hend : Comes files cfgs { s with thread := .turn .reportPlayed } := htest.turn rfl
  have hplaying : Playing cfgs n cfg { s with thread := .turn .reportPlayed } :=
    h.congr rfl rfl rfl rfl rfl rfl (h.stream.of_eq rfl rfl rfl rfl)
  refine ⟨_, ⟨reportPlayed_played hplaying, hend.turn rfl, rfl, hbuffers⟩, ?_, ?_⟩
  · simp only [State.reportPlayed, h.index, h.name]
  · intro htype
    simp only [State.reportPlayed, h.config, htype]

/-- Before the end of the file the next samples are read. -/
theorem readsFrom_of_not_eof (h : Playing cfgs n cfg s) (hcomes : Comes files cfgs s)
    (hthread : s.thread = .testingEof) (heof : s.eof = false) (hbuffers : 0 < s.bufferSize) :
    ReadsFrom files cfgs n cfg s.position { s with thread := .turn .playSamples } where
  toPlaying := h.congr rfl rfl rfl rfl rfl rfl (h.stream.of_eq rfl rfl rfl rfl)
  comes := hcomes.turn
    (by simp only [State.executePlayback, hthread, heof, Bool.false_eq_true, if_false])
  thread := rfl
  buffers := hbuffers
  position := rfl
  eof := heof

/-- What is left of the file is written, and then the repetition is reported. -/
theorem ReadsFrom.exists_wrote {p : ℕ} (h : ReadsFrom files cfgs n cfg p s) :
    ∃ t, Wrote files cfgs n cfg t ∧
      t.played = s.played ++ [⟨n % 2 ^ 32, cfg.absoluteFilePath,
        s.written ++ (files cfg.absoluteFilePath).drop p⟩] ∧
      (cfg.repeatInfo.type = .count → t.numTimesFilePlayed = s.numTimesFilePlayed + 1) := by
  obtain ⟨k, hk⟩ : ∃ k, (files cfg.absoluteFilePath).length - p < k :=
    ⟨_, Nat.lt_succ_self _⟩
  induction k generalizing s p with
  | zero => exact absurd hk (Nat.not_lt_zero _)
  | succ k ih =>
    have hplay : Comes files cfgs (s.playAudioSamples (files cfg.absoluteFilePath)) := by
      rw [← h.name]
      exact h.comes.turn (by rw [State.executePlayback]; simp only [h.thread])
    have hplaying : Playing cfgs n cfg (s.playAudioSamples (files cfg.absoluteFilePath)) :=
      playAudioSamples_playing h.toPlaying
    obtain ⟨read, hrest, hlast, hle, heq⟩ :=
      playAudioSamples_reads s (files cfg.absoluteFilePath)
    rw [h.position] at hrest hlast
    rw [heq] at hplay hplaying
    by_cases hshort : read.length < s.bufferSize
    · obtain ⟨t, hwrote, hplayed, htimes⟩ := exists_wrote_of_eof hplaying hplay rfl
        (by simp only [decide_eq_true hshort, Bool.or_true]) h.buffers
      refine ⟨t, hwrote, ?_, htimes⟩
      rw [hplayed, hrest, hlast hshort, List.append_nil]
    · have hreads := readsFrom_of_not_eof hplaying hplay rfl
        (by simp only [decide_eq_false hshort, h.eof, Bool.or_false]) h.buffers
      have hbuffers := h.buffers
      have hfits : p + read.length ≤ (files cfg.absoluteFilePath).length := by
        have hlength := congrArg List.length hrest
        rw [List.length_append, List.length_drop, List.length_drop] at hlength
        omega
      have hless : (files cfg.absoluteFilePath).length - (s.position + read.length) < k := by
        rw [h.position]
        omega
      obtain ⟨t, hwrote, hplayed, htimes⟩ := ih hreads hless
      refine ⟨t, hwrote, ?_, htimes⟩
      rw [hplayed, h.position, hrest, List.append_assoc]

/-- Where a file is played again from. -/
theorem adjusted_position {c : StreamConfig} (h : StreamIs (some c) s) :
    (if s.isCompressed then s.contentOffset else 0) = headerBytes c.format := by
  have hformat := (h.created c rfl).2
  rw [headerBytes, hformat]
  cases hc : c.format <;> rw [hc] at hformat
  · cases hformat
  · obtain ⟨hcompressed, hoffset⟩ := Prod.mk.inj (Option.some.inj hformat)
    rw [← hcompressed, ← hoffset]
    rfl
  all_goals
    obtain ⟨hcompressed, -⟩ := Prod.mk.inj (Option.some.inj hformat)
    rw [← hcompressed]
    rfl

/-- Another repetition begins behind the header that a file for the open stream has. -/
theorem Wrote.exists_reads (h : Wrote files cfgs n cfg s)
    (hmore : cfg.repeatInfo.type = .count → s.numTimesFilePlayed < cfg.repeatInfo.count)
    (hstream : streamBefore cfgs (n + 1) = some stream) :
    ∃ t, ReadsFrom files cfgs n cfg (headerBytes stream.format) t ∧ t.written = [] ∧
      t.numTimesFilePlayed = s.numTimesFilePlayed := by
  have hselect : Comes files cfgs s.selectFile :=
    h.comes.turn (by rw [State.executePlayback]; simp only [h.thread])
  rcases selectFile_played h.toPlayed with ⟨heq, -⟩ | ⟨-, htype, hdone⟩
  · rw [heq] at hselect
    have his := h.stream
    rw [hstream] at his
    exact ⟨{ s with curPbCfg := cfg }.again, ⟨⟨⟨⟨h.configs, h.index, h.passed⟩, h.reached,
      h.stream.of_eq rfl rfl rfl rfl, rfl, h.name, h.opened⟩, hmore⟩, hselect, rfl, h.buffers,
      adjusted_position his, rfl⟩, rfl, rfl⟩
  · exact absurd (hmore htype) hdone

/-- The other repetitions follow, and then the player comes to the next entry. -/
theorem Wrote.exists_next (h : Wrote files cfgs n cfg s) (htype : cfg.repeatInfo.type = .count) :
    ∃ t, StartOf files cfgs (n + 1) t := by
  obtain ⟨stream, hstream⟩ := h.reached.exists_stream
  obtain ⟨k, hk⟩ : ∃ k, cfg.repeatInfo.count.toNat - s.numTimesFilePlayed.toNat < k :=
    ⟨_, Nat.lt_succ_self _⟩
  induction k generalizing s with
  | zero => exact absurd hk (Nat.not_lt_zero _)
  | succ k ih =>
    by_cases hmore : s.numTimesFilePlayed < cfg.repeatInfo.count
    · obtain ⟨t, hreads, -, htimes⟩ := h.exists_reads (fun _ => hmore) hstream
      obtain ⟨u, hwrote, -, hcounted⟩ := hreads.exists_wrote
      refine ih hwrote ?_
      have hless := UInt32.lt_iff_toNat_lt.mp hmore
      have hcount := cfg.repeatInfo.count.toNat_lt
      rw [hcounted htype, htimes, UInt32.toNat_add, UInt32.toNat_one]
      omega
    · have hselect : Comes files cfgs s.selectFile :=
        h.comes.turn (by rw [State.executePlayback]; simp only [h.thread])
      rcases selectFile_played h.toPlayed with ⟨-, hless⟩ | ⟨heq, -, -⟩
      · exact absurd (hless htype) hmore
      · rw [heq] at hselect
        have hnext : Before cfgs (n + 1) { s with
            curPbCfg := cfg
            numTimesFilePlayed := 0
            curFileIdx := s.curFileIdx + 1
            isFileOpened := false
            thread := .turn .selectFile } :=
          ⟨⟨h.configs, toNat_succ_index h.index, h.reached.next (by rw [htype]; nofun)⟩,
            h.stream.of_eq rfl rfl rfl rfl, rfl⟩
        exact ⟨_, hnext, hselect.turn rfl, rfl, rfl, fun _ => h.buffers⟩

/-! ## Every entry is come to -/

theorem Passed.of_succ (h : Passed cfgs (n + 1)) : Passed cfgs n :=
  ⟨fun k hk => h.finite k (Nat.lt_succ_of_lt hk), fun k hk => h.named k (Nat.lt_succ_of_lt hk),
    fun k hk => h.known k (Nat.lt_succ_of_lt hk)⟩

theorem StartOf.exists_next (h : StartOf files cfgs n s) (hpassed : Passed cfgs (n + 1)) :
    ∃ t, StartOf files cfgs (n + 1) t := by
  obtain ⟨cfg, hcfg, htype⟩ := hpassed.finite n (Nat.lt_succ_self n)
  by_cases hdue : cfg.Due
  · have hreached : Reached cfgs n cfg := ⟨h.passed, hcfg, hdue,
      hpassed.named n (Nat.lt_succ_self n) cfg hcfg hdue,
      hpassed.known n (Nat.lt_succ_self n) cfg hcfg⟩
    obtain ⟨t, hreads, -, -⟩ := h.exists_reads hreached
    obtain ⟨u, hwrote, -, -⟩ := hreads.exists_wrote
    exact hwrote.exists_next (hdue.resolve_left htype).1
  · have hselect : Comes files cfgs s.selectFile :=
      h.comes.turn (by rw [State.executePlayback]; simp only [h.thread])
    rw [selectFile_over h.toAt hcfg hdue] at hselect
    have hstream := streamBefore_of_not_playsAt (mt (playsAt_iff hcfg).mp hdue)
    refine ⟨{ s with curPbCfg := cfg, curFileIdx := s.curFileIdx + 1 },
      ⟨⟨h.configs, toNat_succ_index h.index, hpassed⟩, ?_, h.none⟩, hselect, h.thread, h.closed, ?_⟩
    · rw [hstream]
      exact h.stream.of_eq rfl rfl rfl rfl
    · rw [hstream]
      exact h.buffers

theorem exists_startOf (files : String → List UInt8) (hpassed : Passed cfgs n) :
    ∃ s, StartOf files cfgs n s := by
  induction n with
  | zero =>
    exact ⟨_, ⟨⟨rfl, rfl, hpassed⟩, ⟨rfl, nofun⟩, rfl⟩,
      Comes.turn Runs.Reachable.start rfl, rfl, rfl, nofun⟩
  | succ n ih =>
    obtain ⟨s, hs⟩ := ih hpassed.of_succ
    exact hs.exists_next hpassed

/-- Samples of a file that is not empty are written. -/
theorem exists_write (hreached : Reached cfgs n cfg) (hfile : files cfg.absoluteFilePath ≠ []) :
    ∃ s, Comes files cfgs s ∧ ∃ w ∈ s.writes, w.OfEntry cfgs n := by
  obtain ⟨s, hs⟩ := exists_startOf files hreached.passed
  obtain ⟨t, ht, -, -⟩ := hs.exists_reads hreached
  have hplay : Comes files cfgs (t.playAudioSamples (files cfg.absoluteFilePath)) := by
    rw [← ht.name]
    exact ht.comes.turn (by rw [State.executePlayback]; simp only [ht.thread])
  have hread : ((files cfg.absoluteFilePath).drop t.position).take t.bufferSize ≠ [] := by
    rw [ht.position, List.drop_zero, Ne, List.take_eq_nil_iff, not_or]
    exact ⟨Nat.ne_of_gt ht.buffers, hfile⟩
  refine ⟨_, hplay, _, ?_, ht.ofEntry (((files cfg.absoluteFilePath).drop t.position).take
    t.bufferSize)⟩
  unfold State.playAudioSamples
  dsimp only
  rw [if_neg (fun hboth => hread hboth.1)]
  exact List.mem_append_right _ List.mem_cons_self

/-! ## What comparisons with the predecessor tell -/

theorem Passed.reached (h : Passed cfgs n) (hlt : m < n) (hcfg : visit cfgs m = some cfg)
    (hdue : cfg.Due) : Reached cfgs m cfg where
  passed := ⟨fun k hk => h.finite k (hk.trans hlt), fun k hk => h.named k (hk.trans hlt),
    fun k hk => h.known k (hk.trans hlt)⟩
  visit := hcfg
  due := hdue
  named := h.named m hlt cfg hcfg hdue
  known := h.known m hlt cfg hcfg

/-- Nothing happens to the stream where no entry is played. -/
theorem streamBefore_of_last (hlt : m < n) (hnone : ∀ k, m < k → k < n → ¬ PlaysAt cfgs k) :
    streamBefore cfgs n = streamBefore cfgs (m + 1) := by
  induction n, hlt using Nat.le_induction with
  | base => rfl
  | succ n hle ih =>
    rw [streamBefore_of_not_playsAt (hnone n hle (Nat.lt_succ_self n))]
    exact ih fun k hk hlt => hnone k hk (Nat.lt_succ_of_lt hlt)

theorem exists_last (h : (streamBefore cfgs n).isSome) :
    ∃ m < n, PlaysAt cfgs m ∧ ∀ k, m < k → k < n → ¬ PlaysAt cfgs k := by
  induction n with
  | zero => cases h
  | succ n ih =>
    by_cases hplays : PlaysAt cfgs n
    · exact ⟨n, Nat.lt_succ_self n, hplays, fun k hk hlt => by omega⟩
    · rw [streamBefore_of_not_playsAt hplays] at h
      obtain ⟨m, hlt, hm, hnone⟩ := ih h
      refine ⟨m, Nat.lt_succ_of_lt hlt, hm, ?_⟩
      intro k hk hle
      rcases Nat.lt_succ_iff_lt_or_eq.mp hle with hless | rfl
      · exact hnone k hk hless
      · exact hplays

/-- The stream that is open for an entry has its configuration. -/
theorem PredecessorTells.equal (h : PredecessorTells cfgs) (hreached : Reached cfgs n cfg)
    (hstream : streamBefore cfgs (n + 1) = some stream) : stream.Equal cfg.streamConfig := by
  induction n using Nat.strong_induction_on generalizing cfg with
  | _ n ih =>
    by_cases hopens : OpensAt cfgs n
    · rw [streamBefore_of_opensAt hreached.visit hopens] at hstream
      obtain rfl := Option.some.inj hstream
      exact StreamConfig.Equal.refl _
    · rw [streamBefore_of_not_opensAt hopens] at hstream
      rw [opensAt_iff hreached.visit hreached.due, not_not] at hopens
      obtain ⟨m, hlt, ⟨last, hlast, hdue⟩, hnone⟩ := exists_last hopens.1
      rw [streamBefore_of_last hlt hnone] at hstream
      have hequal := ih m hlt (hreached.passed.reached hlt hlast hdue) hstream
      exact hequal.trans (h m n last cfg hlt hlast hdue hnone hreached hopens.2)

theorem Write.OfEntry.faithful_iff_equal {w : Write} (hw : w.OfEntry cfgs n)
    (hreached : Reached cfgs n cfg) (hstream : streamBefore cfgs (n + 1) = some stream) :
    w.Faithful cfgs ↔ stream.Equal cfg.streamConfig := by
  have hindex : cfgs[w.index]? = some cfg := by
    rw [hw.index]
    exact hreached.visit
  have hopen : w.stream = some stream := hw.stream.trans hstream
  constructor
  · rintro ⟨cfg', stream', hcfg', hstream', hequal, -⟩
    obtain rfl := Option.some.inj (hindex.symm.trans hcfg')
    obtain rfl := Option.some.inj (hopen.symm.trans hstream')
    exact hequal
  · intro hequal
    refine ⟨cfg, stream, hindex, hopen, hequal, ?_⟩
    rw [← hequal.format]
    exact hw.format stream hopen

/-- In every run the samples of every entry are written to a stream with the configuration of the
entry, if and only if no comparison with the entry before it in the list misleads. -/
theorem stream_reuse_iff (cfgs : List PlaybackConfig) :
    (∀ files s, Runs.Reachable (step files) Runs.anyStep (initial cfgs) s →
      ∀ w ∈ s.writes, w.Faithful cfgs) ↔ PredecessorTells cfgs := by
  constructor
  · intro h m n last cfg hlt hlast hdue hnone hreached hsame
    -- every file has one byte, so that there are samples of every entry
    have hequal : ∀ {n cfg stream}, Reached cfgs n cfg → streamBefore cfgs (n + 1) = some stream →
        stream.Equal cfg.streamConfig := by
      intro n cfg stream hreached hstream
      obtain ⟨s, hs, w, hw, hof⟩ : ∃ s, Comes (fun _ => [0]) cfgs s ∧
          ∃ w ∈ s.writes, w.OfEntry cfgs n := exists_write hreached (by simp)
      have hrun : Runs.Reachable (step fun _ => [0]) Runs.anyStep (initial cfgs) s :=
        hs.invariant .start fun _ e _ _ hstep hreach => .step e hreach trivial hstep
      exact (hof.faithful_iff_equal hreached hstream).mp (h _ s hrun w hw)
    have hplayed : (streamBefore cfgs n).isSome :=
      isSome_streamBefore.mpr ⟨m, hlt, (playsAt_iff hlast).mpr hdue⟩
    have hopens : ¬ OpensAt cfgs n := by
      rw [opensAt_iff hreached.visit hreached.due, not_not]
      exact ⟨hplayed, hsame⟩
    obtain ⟨stream, hstream⟩ := Option.isSome_iff_exists.mp hplayed
    have hnow := hequal hreached ((streamBefore_of_not_opensAt hopens).trans hstream)
    have hthen := hequal (hreached.passed.reached hlt hlast hdue)
      ((streamBefore_of_last hlt hnone).symm.trans hstream)
    exact hthen.symm.trans hnow
  · intro h files s hs w hw
    obtain ⟨n, cfg, hreached, hof⟩ := (inv_of_reachable hs).writes w hw
    obtain ⟨stream, hstream⟩ := hreached.exists_stream
    exact (hof.faithful_iff_equal hreached hstream).mpr (h.equal hreached hstream)

/-- A PCM file, a file in AMR format that is skipped, and another one in that format, which is played
on the stream of the first. -/
def skippedBetween : List PlaybackConfig :=
  let pcm : StreamConfig := ⟨.play, 8000, 1, .pcm16BitSigned, [1], none⟩
  let amr : StreamConfig := ⟨.play, 8000, 1, .amrNb, [1], some ⟨16, .fileStorageFormat⟩⟩
  [⟨⟨"a", ⟨.count, 1⟩⟩, pcm⟩, ⟨⟨"b", ⟨.skip, 0⟩⟩, amr⟩, ⟨⟨"c", ⟨.count, 1⟩⟩, amr⟩]

theorem stream_reuse_misleads : ¬ ∀ files s,
    Runs.Reachable (step files) Runs.anyStep (initial skippedBetween) s →
      ∀ w ∈ s.writes, w.Faithful skippedBetween := by
  intro h
  obtain ⟨s, hs, hwrites⟩ := Runs.exists_reachable_of_run (step fun _ => [0]) Runs.anyStep
    (initial skippedBetween) (fun s => s.writes.getLast?.map fun w => (w.index, w.isCompressed))
    (some (2, false)) (List.replicate 15 (.player ⟨2, false⟩)) (by decide)
  obtain ⟨w, hw, heq⟩ := Option.map_eq_some_iff.mp hwrites
  obtain ⟨hindex, hcompressed⟩ := Prod.mk.inj heq
  obtain ⟨cfg, stream, hcfg, -, -, hformat⟩ := h _ s hs w (List.mem_of_getLast? hw)
  rw [hindex] at hcfg
  cases hcfg
  rw [hcompressed] at hformat
  cases hformat

end Entries

end Player

end SatComm
