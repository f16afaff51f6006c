import SatComm.Player.Entries

/-!
# The entries as they come

The player comes to the entries of its playlist in order, and to the first one again after `2 ^ 32`
of them. What stream is open at an entry is said of the playlist alone: a stream is opened for the
first entry that is played, and for each other one that is played and differs from the entry before
it. Every write of a run goes to this stream. Where nothing fails, a run plays every entry up to the
first one that is played indefinitely.
-/

namespace SatComm

namespace Player

namespace Entries

/-! ## What is said of the playlist -/

/-- The entry that is got to after `n` others. -/
def visit (cfgs : List PlaybackConfig) (n : ℕ) : Option PlaybackConfig := cfgs[n % 2 ^ 32]?

/-- The entry is played. -/
def PlaybackConfig.Due (cfg : PlaybackConfig) : Prop :=
  cfg.repeatInfo.type = .indefinitely ∨ cfg.repeatInfo.type = .count ∧ cfg.repeatInfo.count ≠ 0

/-- The entry is played more than once. -/
def PlaybackConfig.Repeats (cfg : PlaybackConfig) : Prop :=
  cfg.repeatInfo.type = .indefinitely ∨ cfg.repeatInfo.type = .count ∧ 1 < cfg.repeatInfo.count

instance (cfg : PlaybackConfig) : Decidable cfg.Due := inferInstanceAs (Decidable (_ ∨ _))

def PlaysAt (cfgs : List PlaybackConfig) (n : ℕ) : Prop := ∃ cfg ∈ visit cfgs n, cfg.Due

/-- The entry has the configuration of the one before it in the list. -/
def sameAsBefore (cfgs : List PlaybackConfig) (n : ℕ) : Bool :=
  match visit cfgs (n - 1), visit cfgs n with
  | some old, some cur => old.streamConfig.isSame cur.streamConfig
  | _, _ => false

/-- A stream is opened for the entry. -/
def OpensAt (cfgs : List PlaybackConfig) (n : ℕ) : Prop :=
  PlaysAt cfgs n ∧ ((∀ k < n, ¬ PlaysAt cfgs k) ∨ sameAsBefore cfgs n = false)

/-- The stream at the entry `n` was opened for the entry `m`. -/
structure OpenedFor (cfgs : List PlaybackConfig) (m n : ℕ) : Prop where
  le : m ≤ n
  opens : OpensAt cfgs m
  kept : ∀ k, m < k → k ≤ n → ¬ OpensAt cfgs k

/-- No entry ends the playback before the entry `n`. -/
structure Passed (cfgs : List PlaybackConfig) (n : ℕ) : Prop where
  finite : ∀ k < n, ∃ cfg ∈ visit cfgs k, cfg.repeatInfo.type ≠ .indefinitely
  named : ∀ k < n, ∀ cfg ∈ visit cfgs k, cfg.Due → cfg.absoluteFilePath ≠ ""
  known : ∀ k < n, ∀ cfg ∈ visit cfgs k, OpensAt cfgs k → cfg.streamConfig.format ≠ .unknown

/-- The entry `n` is got to and can be played. -/
structure Reached (cfgs : List PlaybackConfig) (n : ℕ) (cfg : PlaybackConfig) : Prop where
  passed : Passed cfgs n
  visit : visit cfgs n = some cfg
  due : cfg.Due
  named : cfg.absoluteFilePath ≠ ""
  known : OpensAt cfgs n → cfg.streamConfig.format ≠ .unknown

/-- The configuration of the stream that is open before the entry `n`. -/
def streamBefore (cfgs : List PlaybackConfig) : ℕ → Option StreamConfig
  | 0 => none
  | n + 1 =>
    match visit cfgs n with
    | none => streamBefore cfgs n
    | some cfg =>
      if cfg.Due then
        if (streamBefore cfgs n).isSome ∧ sameAsBefore cfgs n then streamBefore cfgs n
        else some cfg.streamConfig
      else streamBefore cfgs n

variable {cfgs : List PlaybackConfig} {cfg : PlaybackConfig} {m n : ℕ} {s : State}
  {stream : StreamConfig} {files : String → List UInt8}

theorem playsAt_iff (h : visit cfgs n = some cfg) : PlaysAt cfgs n ↔ cfg.Due := by
  constructor
  · rintro ⟨cfg', hcfg', hdue⟩
    obtain rfl := Option.some.inj (h.symm.trans hcfg')
    exact hdue
  · exact fun hdue => ⟨cfg, h, hdue⟩

theorem streamBefore_of_not_playsAt (h : ¬ PlaysAt cfgs n) :
    streamBefore cfgs (n + 1) = streamBefore cfgs n := by
  rw [streamBefore]
  split
  · rfl
  · rename_i cfg hcfg
    rw [if_neg (mt (playsAt_iff hcfg).mpr h)]

/-- Once an entry was played, a stream is open. -/
theorem isSome_streamBefore : (streamBefore cfgs n).isSome ↔ ∃ k < n, PlaysAt cfgs k := by
  induction n with
  | zero => exact ⟨nofun, fun ⟨k, hk, _⟩ => absurd hk (Nat.not_lt_zero k)⟩
  | succ n ih =>
    by_cases hplays : PlaysAt cfgs n
    · refine iff_of_true ?_ ⟨n, Nat.lt_succ_self n, hplays⟩
      obtain ⟨cfg, hcfg, hdue⟩ := hplays
      rw [streamBefore, hcfg]
      simp only [if_pos hdue]
      split_ifs with hsame
      · exact hsame.1
      · rfl
    · rw [streamBefore_of_not_playsAt hplays, ih]
      constructor
      · rintro ⟨k, hk, hplaysk⟩
        exact ⟨k, Nat.lt_succ_of_lt hk, hplaysk⟩
      · rintro ⟨k, hk, hplaysk⟩
        rcases Nat.lt_succ_iff_lt_or_eq.mp hk with hlt | rfl
        · exact ⟨k, hlt, hplaysk⟩
        · exact absurd hplaysk hplays

theorem opensAt_iff (h : visit cfgs n = some cfg) (hdue : cfg.Due) :
    OpensAt cfgs n ↔ ¬ ((streamBefore cfgs n).isSome ∧ sameAsBefore cfgs n = true) := by
  rw [isSome_streamBefore, OpensAt, playsAt_iff h, and_iff_right hdue, not_and_or,
    Bool.not_eq_true]
  push Not
  exact Iff.rfl

theorem streamBefore_of_opensAt (h : visit cfgs n = some cfg) (hopens : OpensAt cfgs n) :
    streamBefore cfgs (n + 1) = some cfg.streamConfig := by
  have hdue := (playsAt_iff h).mp hopens.1
  rw [streamBefore, h]
  simp only [if_pos hdue, if_neg ((opensAt_iff h hdue).mp hopens)]

theorem streamBefore_of_not_opensAt (hopens : ¬ OpensAt cfgs n) :
    streamBefore cfgs (n + 1) = streamBefore cfgs n := by
  by_cases hplays : PlaysAt cfgs n
  · obtain ⟨cfg, hcfg, hdue⟩ := hplays
    rw [opensAt_iff hcfg hdue, not_not] at hopens
    rw [streamBefore, hcfg]
    simp only [if_pos hdue, if_pos hopens]
  · exact streamBefore_of_not_playsAt hplays

/-- The stream was opened for the last entry that one was opened for. -/
theorem exists_openedFor (h : streamBefore cfgs (n + 1) = some stream) :
    ∃ m cfg, OpenedFor cfgs m n ∧ visit cfgs m = some cfg ∧ stream = cfg.streamConfig := by
  induction n with
  | zero =>
    by_cases hopens : OpensAt cfgs 0
    · obtain ⟨cfg, hcfg, -⟩ := hopens.1
      rw [streamBefore_of_opensAt hcfg hopens] at h
      exact ⟨0, cfg, ⟨Nat.le_refl 0, hopens, fun k hlt hle => by omega⟩, hcfg,
        (Option.some.inj h).symm⟩
    · rw [streamBefore_of_not_opensAt hopens] at h
      cases h
  | succ n ih =>
    by_cases hopens : OpensAt cfgs (n + 1)
    · obtain ⟨cfg, hcfg, -⟩ := hopens.1
      rw [streamBefore_of_opensAt hcfg hopens] at h
      exact ⟨n + 1, cfg, ⟨Nat.le_refl _, hopens, fun k hlt hle => by omega⟩, hcfg,
        (Option.some.inj h).symm⟩
    · rw [streamBefore_of_not_opensAt hopens] at h
      obtain ⟨m, cfg, hopened, hcfg, hstream⟩ := ih h
      refine ⟨m, cfg, ⟨Nat.le_succ_of_le hopened.le, hopened.opens, ?_⟩, hcfg, hstream⟩
      intro k hlt hle
      rcases Nat.le_succ_iff.mp hle with hle | rfl
      · exact hopened.kept k hlt hle
      · exact hopens

theorem streamBefore_of_openedFor (h : OpenedFor cfgs m n) (hcfg : visit cfgs m = some cfg) :
    streamBefore cfgs (n + 1) = some cfg.streamConfig := by
  obtain ⟨hle, hopens, hkept⟩ := h
  induction n, hle using Nat.le_induction with
  | base => exact streamBefore_of_opensAt hcfg hopens
  | succ n hle ih =>
    rw [streamBefore_of_not_opensAt (hkept (n + 1) (Nat.lt_succ_of_le hle) (Nat.le_refl _))]
    exact ih fun k hlt hk => hkept k hlt (Nat.le_succ_of_le hk)

/-! ## The playlist as far as it was passed -/

theorem passed_zero (cfgs : List PlaybackConfig) : Passed cfgs 0 :=
  ⟨fun k hk => absurd hk (Nat.not_lt_zero k), fun k hk => absurd hk (Nat.not_lt_zero k),
    fun k hk => absurd hk (Nat.not_lt_zero k)⟩

/-- An entry that is not played is passed. -/
theorem Passed.over (h : Passed cfgs n) (hcfg : visit cfgs n = some cfg) (hdue : ¬ cfg.Due) :
    Passed cfgs (n + 1) := by
  have hplays : ¬ PlaysAt cfgs n := mt (playsAt_iff hcfg).mp hdue
  refine ⟨fun k hk => ?_, fun k hk cfg' hcfg' hdue' => ?_, fun k hk cfg' hcfg' hopens => ?_⟩ <;>
    rcases Nat.lt_succ_iff_lt_or_eq.mp hk with hlt | rfl
  · exact h.finite k hlt
  · exact ⟨cfg, hcfg, fun htype => hdue (.inl htype)⟩
  · exact h.named k hlt cfg' hcfg' hdue'
  · exact absurd ((playsAt_iff hcfg').mpr hdue') hplays
  · exact h.known k hlt cfg' hcfg' hopens
  · exact absurd hopens.1 hplays

/-- So is one that was played as often as it says. -/
theorem Reached.next (h : Reached cfgs n cfg) (htype : cfg.repeatInfo.type ≠ .indefinitely) :
    Passed cfgs (n + 1) := by
  refine ⟨fun k hk => ?_, fun k hk cfg' hcfg' hdue => ?_, fun k hk cfg' hcfg' hopens => ?_⟩ <;>
    rcases Nat.lt_succ_iff_lt_or_eq.mp hk with hlt | rfl
  · exact h.passed.finite k hlt
  · exact ⟨cfg, h.visit, htype⟩
  · exact h.passed.named k hlt cfg' hcfg' hdue
  · obtain rfl := Option.some.inj (h.visit.symm.trans hcfg')
    exact h.named
  · exact h.passed.known k hlt cfg' hcfg' hopens
  · obtain rfl := Option.some.inj (h.visit.symm.trans hcfg')
    exact h.known hopens

/-! ## What is known along a run -/

/-- The stream of the player is this one. -/
structure StreamIs (stream : Option StreamConfig) (s : State) : Prop where
  opened : s.isStreamOpened = stream.isSome
  created : ∀ c ∈ stream, s.audioPlayStream = some c ∧
    setFormatAndOffset c.format = some (s.isCompressed, s.contentOffset)

/-- The entry `n` is the next one, or is being played. -/
structure At (cfgs : List PlaybackConfig) (n : ℕ) (s : State) : Prop where
  configs : s.playbackConfigs = cfgs
  index : s.curFileIdx.toNat = n % 2 ^ 32
  passed : Passed cfgs n

/-- Nothing of the entry `n` was done. -/
structure Before (cfgs : List PlaybackConfig) (n : ℕ) (s : State) : Prop extends At cfgs n s where
  stream : StreamIs (streamBefore cfgs n) s
  none : s.numTimesFilePlayed = 0

/-- The file of the entry is to be opened, or was opened. -/
structure Opening (cfgs : List PlaybackConfig) (n : ℕ) (cfg : PlaybackConfig) (s : State) : Prop
    extends Before cfgs n s where
  visit : visit cfgs n = some cfg
  due : cfg.Due
  config : s.curPbCfg = cfg
  name : s.curFileName = cfg.absoluteFilePath

/-- The file of the entry is open, and a stream for it. -/
structure InFile (cfgs : List PlaybackConfig) (n : ℕ) (cfg : PlaybackConfig) (s : State) : Prop
    extends At cfgs n s where
  reached : Reached cfgs n cfg
  stream : StreamIs (streamBefore cfgs (n + 1)) s
  config : s.curPbCfg = cfg
  name : s.curFileName = cfg.absoluteFilePath
  opened : s.isFileOpened = true

/-- The entry is being played once more. -/
structure Playing (cfgs : List PlaybackConfig) (n : ℕ) (cfg : PlaybackConfig) (s : State) : Prop
    extends InFile cfgs n cfg s where
  more : cfg.repeatInfo.type = .count → s.numTimesFilePlayed < cfg.repeatInfo.count

/-- The entry was played. -/
structure Played (cfgs : List PlaybackConfig) (n : ℕ) (cfg : PlaybackConfig) (s : State) : Prop
    extends InFile cfgs n cfg s where
  once : cfg.repeatInfo.type = .count → s.numTimesFilePlayed ≠ 0

def Phase (cfgs : List PlaybackConfig) (s : State) : Prop :=
  match s.thread with
  | .turn .initPlayer => Before cfgs 0 s ∧ s.isFileOpened = false
  | .turn .selectFile =>
    (∃ n, Before cfgs n s ∧ s.isFileOpened = false) ∨ ∃ n cfg, Played cfgs n cfg s
  | .turn .initFile => ∃ n cfg, Opening cfgs n cfg s
  | .turn .reinitStream =>
    ∃ n cfg, Opening cfgs n cfg s ∧ s.isFileOpened = true ∧ cfg.absoluteFilePath ≠ ""
  | .turn .playSamples | .testingEof | .turn .filePlayEnd | .turn .reportPlayed =>
    ∃ n cfg, Playing cfgs n cfg s
  | .turn .deinitFile => ∃ n, Before cfgs n s
  | .turn .reportFinish | .turn .reportError | .turn .terminate | .ended => True

/-- The write is one for the entry `n`, to the stream that is open for it. -/
structure Write.OfEntry (cfgs : List PlaybackConfig) (n : ℕ) (w : Write) : Prop where
  index : w.index = n % 2 ^ 32
  stream : w.stream = streamBefore cfgs (n + 1)
  format : ∀ c ∈ w.stream, setFormatAndOffset c.format = some (w.isCompressed, w.contentOffset)

structure Inv (cfgs : List PlaybackConfig) (s : State) : Prop where
  phase : Phase cfgs s
  writes : ∀ w ∈ s.writes, ∃ n cfg, Reached cfgs n cfg ∧ w.OfEntry cfgs n

/-- The next entry, after the one at this index. -/
theorem toNat_succ_index {i : UInt32} (h : i.toNat = n % 2 ^ 32) :
    (i + 1).toNat = (n + 1) % 2 ^ 32 := by
  rw [UInt32.toNat_add, h, UInt32.toNat_one]
  omega

/-- The one before it. -/
theorem toNat_pred_index {i : UInt32} (h : i.toNat = (n + 1) % 2 ^ 32) :
    (i - 1).toNat = n % 2 ^ 32 := by
  rw [UInt32.toNat_sub, h, UInt32.toNat_one]
  omega

theorem At.get (h : At cfgs n s) : s.config s.curFileIdx = visit cfgs n := by
  rw [State.config, h.configs, h.index]
  rfl

/-- Where a stream is open, the player compares the entry with the one before it. -/
theorem At.same (h : At cfgs n s) (hopened : (streamBefore cfgs n).isSome) :
    s.isStreamConfigurationSame = sameAsBefore cfgs n := by
  obtain ⟨k, hk, -⟩ := isSome_streamBefore.mp hopened
  obtain ⟨n, rfl⟩ := Nat.exists_eq_succ_of_ne_zero (Nat.ne_zero_of_lt hk)
  have hbefore : s.config (s.curFileIdx - 1) = visit cfgs n := by
    rw [State.config, h.configs, toNat_pred_index h.index]
    rfl
  rw [State.isStreamConfigurationSame, hbefore, h.get]
  rfl

theorem StreamIs.of_eq {s' : State} {st : Option StreamConfig} (h : StreamIs st s)
    (hopened : s'.isStreamOpened = s.isStreamOpened)
    (hstream : s'.audioPlayStream = s.audioPlayStream)
    (hcompressed : s'.isCompressed = s.isCompressed)
    (hoffset : s'.contentOffset = s.contentOffset) : StreamIs st s' := by
  refine ⟨hopened.trans h.opened, ?_⟩
  rw [hstream, hcompressed, hoffset]
  exact h.created

/-! ## The turns -/

theorem selectFile_eq (h : At cfgs n s) (hcfg : visit cfgs n = some cfg) :
    s.selectFile = match cfg.repeatInfo.type with
      | .count =>
        if cfg.repeatInfo.count = 0 then
          { s with curPbCfg := cfg, curFileIdx := s.curFileIdx + 1 }
        else if s.numTimesFilePlayed = 0 then { s with curPbCfg := cfg }.first
        else if s.numTimesFilePlayed < cfg.repeatInfo.count then { s with curPbCfg := cfg }.again
        else { s with
          curPbCfg := cfg
          numTimesFilePlayed := 0
          curFileIdx := s.curFileIdx + 1
          thread := .turn .deinitFile }
      | .skip => { s with curPbCfg := cfg, curFileIdx := s.curFileIdx + 1 }
      | .indefinitely =>
        if s.isFileOpened then { s with curPbCfg := cfg }.again
        else { s with curPbCfg := cfg }.first := by
  cases htype : cfg.repeatInfo.type <;> simp only [State.selectFile, h.get, hcfg, htype]

/-- An entry that is not played is passed over. -/
theorem selectFile_over (h : At cfgs n s) (hcfg : visit cfgs n = some cfg) (hdue : ¬ cfg.Due) :
    s.selectFile = { s with curPbCfg := cfg, curFileIdx := s.curFileIdx + 1 } := by
  rw [selectFile_eq h hcfg]
  unfold PlaybackConfig.Due at hdue
  push Not at hdue
  cases htype : cfg.repeatInfo.type with
  | count => simp only [hdue.2 htype, if_true]
  | skip => rfl
  | indefinitely => exact absurd htype hdue.1

/-- The file of an entry that is played is opened first. -/
theorem selectFile_first (h : At cfgs n s) (hcfg : visit cfgs n = some cfg) (hdue : cfg.Due)
    (hnone : s.numTimesFilePlayed = 0) (hclosed : s.isFileOpened = false) :
    s.selectFile = { s with curPbCfg := cfg }.first := by
  rw [selectFile_eq h hcfg]
  rcases hdue with htype | ⟨htype, hcount⟩
  · simp only [htype, hclosed, Bool.false_eq_true, if_false]
  · simp only [htype, if_neg hcount, if_pos hnone]

/-- An entry that was played is played again or is done. -/
theorem selectFile_played (h : Played cfgs n cfg s) :
    (s.selectFile = { s with curPbCfg := cfg }.again ∧
      (cfg.repeatInfo.type = .count → s.numTimesFilePlayed < cfg.repeatInfo.count)) ∨
    s.selectFile = { s with
      curPbCfg := cfg
      numTimesFilePlayed := 0
      curFileIdx := s.curFileIdx + 1
      thread := .turn .deinitFile } ∧
      cfg.repeatInfo.type = .count ∧ ¬ s.numTimesFilePlayed < cfg.repeatInfo.count := by
  have hselect := selectFile_eq h.toAt h.reached.visit
  rcases h.reached.due with htype | ⟨htype, hcount⟩
  · simp only [htype] at hselect
    rw [if_pos h.opened] at hselect
    refine Or.inl ⟨hselect, ?_⟩
    rw [htype]
    nofun
  · simp only [htype, if_neg hcount, if_neg (h.once htype)] at hselect
    split_ifs at hselect with hmore
    · exact Or.inl ⟨hselect, fun _ => hmore⟩
    · exact Or.inr ⟨hselect, htype, hmore⟩

theorem selectFile_phase (h : Phase cfgs s) (hthread : s.thread = .turn .selectFile) :
    Phase cfgs s.selectFile := by
  rw [Phase, hthread] at h
  rcases h with ⟨n, hbefore, hclosed⟩ | ⟨n, cfg, hplayed⟩
  · cases hcfg : visit cfgs n with
    | none =>
      have hselect : s.selectFile = { s with thread := .turn .reportFinish } := by
        rw [State.selectFile, hbefore.get, hcfg]
      rw [hselect]
      trivial
    | some cfg =>
      by_cases hdue : cfg.Due
      · rw [selectFile_first hbefore.toAt hcfg hdue hbefore.none hclosed]
        exact ⟨n, cfg, ⟨⟨⟨hbefore.configs, hbefore.index, hbefore.passed⟩,
          hbefore.stream.of_eq rfl rfl rfl rfl, hbefore.none⟩, hcfg, hdue, rfl, rfl⟩⟩
      · rw [selectFile_over hbefore.toAt hcfg hdue]
        have hstream := streamBefore_of_not_playsAt (mt (playsAt_iff hcfg).mp hdue)
        unfold Phase
        rw [hthread]
        refine Or.inl ⟨n + 1, ⟨⟨hbefore.configs, toNat_succ_index hbefore.index,
          hbefore.passed.over hcfg hdue⟩, ?_, hbefore.none⟩, hclosed⟩
        rw [hstream]
        exact hbefore.stream.of_eq rfl rfl rfl rfl
  · rcases selectFile_played hplayed with ⟨hselect, hmore⟩ | ⟨hselect, htype, -⟩
    · rw [hselect]
      exact ⟨n, cfg, ⟨⟨⟨hplayed.configs, hplayed.index, hplayed.passed⟩, hplayed.reached,
        hplayed.stream.of_eq rfl rfl rfl rfl, rfl, hplayed.name, hplayed.opened⟩, hmore⟩⟩
    · rw [hselect]
      exact ⟨n + 1, ⟨⟨hplayed.configs, toNat_succ_index hplayed.index,
        hplayed.reached.next (by rw [htype]; nofun)⟩, hplayed.stream.of_eq rfl rfl rfl rfl, rfl⟩⟩

/-- The stream is kept where none is opened for the entry. -/
theorem reinitAudioStream_cases (h : Opening cfgs n cfg s) (bufferSize : ℕ) :
    (¬ OpensAt cfgs n ∧
      s.reinitAudioStream bufferSize = some { s with thread := .turn .playSamples }) ∨
    (OpensAt cfgs n ∧ s.reinitAudioStream bufferSize = s.openStream bufferSize) := by
  have hkeeps : (s.isStreamOpened ∧ s.isStreamConfigurationSame) ↔ ¬ OpensAt cfgs n := by
    rw [opensAt_iff h.visit h.due, not_not, h.stream.opened]
    constructor
    · rintro ⟨hsome, hsame⟩
      exact ⟨hsome, h.same hsome ▸ hsame⟩
    · rintro ⟨hsome, hsame⟩
      exact ⟨hsome, (h.same hsome).trans hsame⟩
  unfold State.reinitAudioStream
  by_cases hkept : s.isStreamOpened ∧ s.isStreamConfigurationSame
  · exact Or.inl ⟨hkeeps.mp hkept, if_pos hkept⟩
  · exact Or.inr ⟨not_not.mp (mt hkeeps.mpr hkept), if_neg hkept⟩

/-- The stream that is kept or opened is the one of the playlist. -/
theorem reinitAudioStream_playing {s' : State} {bufferSize : ℕ} (h : Opening cfgs n cfg s)
    (hopened : s.isFileOpened = true) (hnamed : cfg.absoluteFilePath ≠ "")
    (hs : s.reinitAudioStream bufferSize = some s') :
    Playing cfgs n cfg s' ∧ s'.thread = .turn .playSamples ∧ s'.writes = s.writes := by
  have hmore : cfg.repeatInfo.type = .count → s.numTimesFilePlayed < cfg.repeatInfo.count := by
    intro htype
    rw [h.none]
    rcases h.due with hindefinite | ⟨-, hcount⟩
    · rw [htype] at hindefinite
      cases hindefinite
    · exact UInt32.pos_iff_ne_zero.mpr hcount
  rcases reinitAudioStream_cases h bufferSize with ⟨hopens, heq⟩ | ⟨hopens, heq⟩
  · rw [heq] at hs
    cases hs
    refine ⟨⟨⟨⟨h.configs, h.index, h.passed⟩, ⟨h.passed, h.visit, h.due, hnamed,
      fun hopen => absurd hopen hopens⟩, ?_, h.config, h.name, hopened⟩, hmore⟩, rfl, rfl⟩
    rw [streamBefore_of_not_opensAt hopens]
    exact h.stream.of_eq rfl rfl rfl rfl
  · rw [heq, State.openStream, h.get, h.visit] at hs
    dsimp only at hs
    cases hformat : setFormatAndOffset cfg.streamConfig.format with
    | none =>
      rw [hformat] at hs
      cases hs
    | some pair =>
      rw [hformat] at hs
      cases hs
      have hknown : cfg.streamConfig.format ≠ .unknown := by
        intro hunknown
        rw [hunknown] at hformat
        cases hformat
      refine ⟨⟨⟨⟨h.configs, h.index, h.passed⟩, ⟨h.passed, h.visit, h.due, hnamed,
        fun _ => hknown⟩, ?_, h.config, h.name, hopened⟩, hmore⟩, rfl, rfl⟩
      rw [streamBefore_of_opensAt h.visit hopens]
      refine ⟨rfl, ?_⟩
      rintro c hc
      obtain rfl := Option.some.inj hc
      exact ⟨rfl, hformat⟩

/-- Whatever is played or found to be at its end, the entry is the same. -/
theorem Playing.congr {s' : State} (h : Playing cfgs n cfg s)
    (hconfigs : s'.playbackConfigs = s.playbackConfigs) (hindex : s'.curFileIdx = s.curFileIdx)
    (htimes : s'.numTimesFilePlayed = s.numTimesFilePlayed) (hconfig : s'.curPbCfg = s.curPbCfg)
    (hname : s'.curFileName = s.curFileName) (hopened : s'.isFileOpened = s.isFileOpened)
    (hstream : StreamIs (streamBefore cfgs (n + 1)) s') : Playing cfgs n cfg s' :=
  ⟨⟨⟨hconfigs.trans h.configs, hindex ▸ h.index, h.passed⟩, h.reached, hstream,
    hconfig.trans h.config, hname.trans h.name, hopened.trans h.opened⟩, htimes ▸ h.more⟩

theorem playAudioSamples_playing {content : List UInt8} (h : Playing cfgs n cfg s) :
    Playing cfgs n cfg (s.playAudioSamples content) := by
  unfold State.playAudioSamples
  dsimp only
  split_ifs <;> exact h.congr rfl rfl rfl rfl rfl rfl (h.stream.of_eq rfl rfl rfl rfl)

theorem playAudioSamples_thread (s : State) (content : List UInt8) :
    (s.playAudioSamples content).thread = .testingEof := by
  unfold State.playAudioSamples
  dsimp only
  split_ifs <;> rfl

theorem Reached.exists_stream (h : Reached cfgs n cfg) :
    ∃ stream, streamBefore cfgs (n + 1) = some stream := by
  rw [← Option.isSome_iff_exists, isSome_streamBefore]
  exact ⟨n, Nat.lt_succ_self n, (playsAt_iff h.visit).mpr h.due⟩

/-- What is written goes to the stream of the entry. -/
theorem Playing.ofEntry (h : Playing cfgs n cfg s) (samples : List UInt8) : Write.OfEntry cfgs n
    ⟨s.curFileIdx.toNat, s.audioPlayStream, s.isCompressed, s.contentOffset, samples⟩ := by
  obtain ⟨c, hc⟩ := h.reached.exists_stream
  obtain ⟨hstream, hformat⟩ := h.stream.created c hc
  refine ⟨h.index, hstream.trans hc.symm, ?_⟩
  intro c' hc'
  obtain rfl := Option.some.inj (hstream.symm.trans hc')
  exact hformat

theorem playAudioSamples_writes {content : List UInt8} (h : Playing cfgs n cfg s) {w : Write}
    (hw : w ∈ (s.playAudioSamples content).writes) : w ∈ s.writes ∨ w.OfEntry cfgs n := by
  unfold State.playAudioSamples at hw
  dsimp only at hw
  split_ifs at hw
  · exact Or.inl hw
  · rcases List.mem_append.mp hw with hw | hw
    · exact Or.inl hw
    · rw [List.mem_singleton.mp hw]
      exact Or.inr (h.ofEntry _)

theorem reportPlayed_played (h : Playing cfgs n cfg s) : Played cfgs n cfg s.reportPlayed := by
  refine ⟨⟨⟨h.configs, h.index, h.passed⟩, h.reached, h.stream.of_eq rfl rfl rfl rfl, h.config,
    h.name, h.opened⟩, ?_⟩
  intro htype
  have hless := UInt32.lt_iff_toNat_lt.mp (h.more htype)
  have hcount := cfg.repeatInfo.count.toNat_lt
  simp only [State.reportPlayed, h.config, htype]
  rw [Ne, ← UInt32.toNat_inj, UInt32.toNat_add, UInt32.toNat_one, UInt32.toNat_zero]
  omega

/-- The turns that lie between two entries leave what was written. -/
theorem selectFile_writes (s : State) : s.selectFile.writes = s.writes := by
  unfold State.selectFile State.again State.first
  split
  · rfl
  · dsimp only
    split
    · split_ifs <;> rfl
    · rfl
    · split_ifs <;> rfl

theorem executePlayback_inv {s' : State} {choice : Choice} (h : Inv cfgs s)
    (hs : s.executePlayback files choice = some s') : Inv cfgs s' := by
  have hphase := h.phase
  unfold State.executePlayback at hs
  split at hs
  · rename_i hthread
    rw [Phase, hthread] at hphase
    obtain ⟨hbefore, hclosed⟩ := hphase
    cases hs
    exact ⟨Or.inl ⟨0, ⟨⟨hbefore.configs, hbefore.index, hbefore.passed⟩,
      hbefore.stream.of_eq rfl rfl rfl rfl, hbefore.none⟩, hclosed⟩, h.writes⟩
  · rename_i hthread
    cases hs
    refine ⟨selectFile_phase hphase hthread, ?_⟩
    rw [selectFile_writes]
    exact h.writes
  · rename_i hthread
    rw [Phase, hthread] at hphase
    obtain ⟨n, cfg, hopening⟩ := hphase
    unfold State.initFileToPlay at hs
    split_ifs at hs with hnamed
    cases hs
    refine ⟨⟨n, cfg, ⟨⟨⟨hopening.configs, hopening.index, hopening.passed⟩,
      hopening.stream.of_eq rfl rfl rfl rfl, hopening.none⟩, hopening.visit, hopening.due,
      hopening.config, hopening.name⟩, rfl, ?_⟩, h.writes⟩
    rw [← hopening.name]
    exact hnamed
  · rename_i hthread
    rw [Phase, hthread] at hphase
    obtain ⟨n, cfg, hopening, hopened, hnamed⟩ := hphase
    obtain ⟨hplaying, hnext, hwrites⟩ := reinitAudioStream_playing hopening hopened hnamed hs
    refine ⟨?_, hwrites ▸ h.writes⟩
    rw [Phase, hnext]
    exact ⟨n, cfg, hplaying⟩
  · rename_i hthread
    rw [Phase, hthread] at hphase
    obtain ⟨n, cfg, hplaying⟩ := hphase
    cases hs
    refine ⟨?_, ?_⟩
    · rw [Phase, playAudioSamples_thread]
      exact ⟨n, cfg, playAudioSamples_playing hplaying⟩
    · intro w hw
      rcases playAudioSamples_writes hplaying hw with hold | hnew
      · exact h.writes w hold
      · exact ⟨n, cfg, hplaying.reached, hnew⟩
  · rename_i hthread
    rw [Phase, hthread] at hphase
    obtain ⟨n, cfg, hplaying⟩ := hphase
    cases hs
    refine ⟨?_, h.writes⟩
    unfold Phase
    cases s.eof <;>
      exact ⟨n, cfg, hplaying.congr rfl rfl rfl rfl rfl rfl (hplaying.stream.of_eq rfl rfl rfl rfl)⟩
  · rename_i hthread
    rw [Phase, hthread] at hphase
    obtain ⟨n, cfg, hplaying⟩ := hphase
    cases hs
    refine ⟨?_, h.writes⟩
    unfold Phase
    cases choice.limited <;>
      exact ⟨n, cfg, hplaying.congr rfl rfl rfl rfl rfl rfl (hplaying.stream.of_eq rfl rfl rfl rfl)⟩
  · rename_i hthread
    rw [Phase, hthread] at hphase
    obtain ⟨n, cfg, hplaying⟩ := hphase
    cases hs
    exact ⟨Or.inr ⟨n, cfg, reportPlayed_played hplaying⟩, h.writes⟩
  · rename_i hthread
    rw [Phase, hthread] at hphase
    obtain ⟨n, hbefore⟩ := hphase
    cases hs
    exact ⟨Or.inl ⟨n, ⟨⟨hbefore.configs, hbefore.index, hbefore.passed⟩,
      hbefore.stream.of_eq rfl rfl rfl rfl, hbefore.none⟩, rfl⟩, h.writes⟩
  · cases hs
    exact ⟨trivial, h.writes⟩
  all_goals cases hs

theorem Before.writeComplete (h : Before cfgs n s) (rejected : ℕ) :
    Before cfgs n (s.writeComplete rejected) :=
  ⟨⟨h.configs, h.index, h.passed⟩, h.stream.of_eq rfl rfl rfl rfl, h.none⟩

theorem Opening.writeComplete (h : Opening cfgs n cfg s) (rejected : ℕ) :
    Opening cfgs n cfg (s.writeComplete rejected) :=
  ⟨h.toBefore.writeComplete rejected, h.visit, h.due, h.config, h.name⟩

theorem InFile.writeComplete (h : InFile cfgs n cfg s) (rejected : ℕ) :
    InFile cfgs n cfg (s.writeComplete rejected) :=
  ⟨⟨h.configs, h.index, h.passed⟩, h.reached, h.stream.of_eq rfl rfl rfl rfl, h.config, h.name,
    h.opened⟩

/-- An answer only moves the position in the file. -/
theorem writeComplete_phase (h : Phase cfgs s) (rejected : ℕ) :
    Phase cfgs (s.writeComplete rejected) := by
  have hthread : (s.writeComplete rejected).thread = s.thread := rfl
  unfold Phase at h ⊢
  rw [hthread]
  split at h
  · exact ⟨h.1.writeComplete rejected, h.2⟩
  · rcases h with ⟨n, hbefore, hclosed⟩ | ⟨n, cfg, hplayed⟩
    · exact Or.inl ⟨n, hbefore.writeComplete rejected, hclosed⟩
    · exact Or.inr ⟨n, cfg, hplayed.toInFile.writeComplete rejected, hplayed.once⟩
  · obtain ⟨n, cfg, hopening⟩ := h
    exact ⟨n, cfg, hopening.writeComplete rejected⟩
  · obtain ⟨n, cfg, hopening, hrest⟩ := h
    exact ⟨n, cfg, hopening.writeComplete rejected, hrest⟩
  iterate 4
    · obtain ⟨n, cfg, hplaying⟩ := h
      exact ⟨n, cfg, hplaying.toInFile.writeComplete rejected, hplaying.more⟩
  · obtain ⟨n, hbefore⟩ := h
    exact ⟨n, hbefore.writeComplete rejected⟩
  all_goals trivial

theorem initial_inv (cfgs : List PlaybackConfig) : Inv cfgs (initial cfgs) := by
  refine ⟨⟨⟨⟨rfl, rfl, passed_zero cfgs⟩, ⟨rfl, nofun⟩, rfl⟩, rfl⟩, ?_⟩
  exact fun w hw => absurd hw List.not_mem_nil

theorem step_inv {s' : State} (e : Step) (hs : step files s e = some s') (h : Inv cfgs s) :
    Inv cfgs s' := by
  cases e with
  | player choice => exact executePlayback_inv h hs
  | writeComplete rejected =>
    cases hs
    exact ⟨writeComplete_phase h.phase rejected, h.writes⟩

/-- In every run, what is written goes to the stream of the entry that it is of. -/
theorem inv_of_reachable {ok : State → Step → Prop}
    (h : Runs.Reachable (step files) ok (initial cfgs) s) : Inv cfgs s :=
  h.invariant (initial_inv cfgs) fun _ e _ _ hs hinv => step_inv e hs hinv

end Entries

end Player

end SatComm
