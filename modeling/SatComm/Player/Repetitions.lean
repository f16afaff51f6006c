import SatComm.Player.Reuse

/-!
# The repetitions of a file

The first repetition of a file reads it from its beginning, and the later ones from behind the
header, if the open stream is for a compressed format. So the repetitions of an entry are what they
are to be where there is no header to skip.
-/

namespace SatComm

namespace Player

namespace Entries

/-- The whole file was written, without its header. -/
def Repetition.Whole (files : String → List UInt8) (cfgs : List PlaybackConfig) (r : Repetition) :
    Prop :=
  ∃ cfg, cfgs[r.index]? = some cfg ∧
    r.written = (files cfg.absoluteFilePath).drop (headerBytes cfg.streamConfig.format)

/-- No entry with samples has a header, and none that is played more than once is played on a stream
for a format with a header. -/
def NoHeaders (files : String → List UInt8) (cfgs : List PlaybackConfig) : Prop :=
  ∀ n cfg, Reached cfgs n cfg → files cfg.absoluteFilePath ≠ [] →
    headerBytes cfg.streamConfig.format = 0 ∧
      (cfg.Repeats → ∀ m opener, OpenedFor cfgs m n → visit cfgs m = some opener →
        headerBytes opener.streamConfig.format = 0)

variable {cfgs : List PlaybackConfig} {cfg : PlaybackConfig} {n start : ℕ} {s : State}
  {stream : StreamConfig} {files : String → List UInt8}

/-- Where a repetition of the entry may begin. -/
def StartsAt (cfgs : List PlaybackConfig) (n : ℕ) (cfg : PlaybackConfig) (start : ℕ) : Prop :=
  start = 0 ∨ cfg.Repeats ∧ ∃ stream, streamBefore cfgs (n + 1) = some stream ∧
    start = headerBytes stream.format

/-- What was written and what is left are the file from the start of the repetition on. -/
structure Reads (files : String → List UInt8) (cfgs : List PlaybackConfig) (n : ℕ)
    (cfg : PlaybackConfig) (s : State) : Prop extends Playing cfgs n cfg s where
  rest : ∃ start, StartsAt cfgs n cfg start ∧ s.written ++
    (files cfg.absoluteFilePath).drop s.position = (files cfg.absoluteFilePath).drop start
  done : s.eof = true → (files cfg.absoluteFilePath).drop s.position = []

/-- The repetition is over. -/
structure Done (files : String → List UInt8) (cfgs : List PlaybackConfig) (n : ℕ)
    (cfg : PlaybackConfig) (s : State) : Prop extends Playing cfgs n cfg s where
  written : ∃ start, StartsAt cfgs n cfg start ∧
    s.written = (files cfg.absoluteFilePath).drop start

/-- What is known of the file, by where the thread stands. -/
def FilePhase (files : String → List UInt8) (cfgs : List PlaybackConfig) (s : State) : Prop :=
  match s.thread with
  | .turn .reinitStream => s.position = 0 ∧ s.eof = false ∧ s.written = []
  | .turn .playSamples | .testingEof => ∃ n cfg, Reads files cfgs n cfg s
  | .turn .filePlayEnd | .turn .reportPlayed => ∃ n cfg, Done files cfgs n cfg s
  | _ => True

/-- The repetition is one of the entry `n`. -/
structure Repetition.OfEntry (files : String → List UInt8) (cfgs : List PlaybackConfig) (n : ℕ)
    (cfg : PlaybackConfig) (r : Repetition) : Prop where
  reached : Reached cfgs n cfg
  index : r.index = n % 2 ^ 32
  written : ∃ start, StartsAt cfgs n cfg start ∧
    r.written = (files cfg.absoluteFilePath).drop start

structure FileInv (files : String → List UInt8) (cfgs : List PlaybackConfig) (s : State) : Prop
    extends Inv cfgs s where
  file : FilePhase files cfgs s
  played : ∀ r ∈ s.played, ∃ n cfg, r.OfEntry files cfgs n cfg

/-! ## The turns -/

/-- Where an entry is played again, it is one that is played more than once. -/
theorem Played.repeats (h : Played cfgs n cfg s)
    (hmore : cfg.repeatInfo.type = .count → s.numTimesFilePlayed < cfg.repeatInfo.count) :
    cfg.Repeats := by
  rcases h.reached.due with htype | ⟨htype, -⟩
  · exact Or.inl htype
  · refine Or.inr ⟨htype, ?_⟩
    have hless := UInt32.lt_iff_toNat_lt.mp (hmore htype)
    have hne := h.once htype
    rw [Ne, ← UInt32.toNat_inj, UInt32.toNat_zero] at hne
    rw [UInt32.lt_iff_toNat_lt, UInt32.toNat_one]
    omega

theorem selectFile_file (h : Phase cfgs s) (hthread : s.thread = .turn .selectFile) :
    FilePhase files cfgs s.selectFile := by
  rw [Phase, hthread] at h
  rcases h with ⟨n, hbefore, hclosed⟩ | ⟨n, cfg, hplayed⟩
  · cases hcfg : visit cfgs n with
    | none =>
      rw [State.selectFile, hbefore.get, hcfg]
      trivial
    | some cfg =>
      by_cases hdue : cfg.Due
      · rw [selectFile_first hbefore.toAt hcfg hdue hbefore.none hclosed]
        trivial
      · rw [selectFile_over hbefore.toAt hcfg hdue, FilePhase, hthread]
        trivial
  · obtain ⟨stream, hstream⟩ := hplayed.reached.exists_stream
    rcases selectFile_played hplayed with ⟨heq, hmore⟩ | ⟨heq, -, -⟩
    · rw [heq]
      have his := hplayed.stream
      rw [hstream] at his
      refine ⟨n, cfg, ⟨⟨⟨⟨hplayed.configs, hplayed.index, hplayed.passed⟩, hplayed.reached,
        hplayed.stream.of_eq rfl rfl rfl rfl, rfl, hplayed.name, hplayed.opened⟩, hmore⟩,
        ⟨headerBytes stream.format, Or.inr ⟨hplayed.repeats hmore, stream, hstream, rfl⟩, ?_⟩,
        fun heof => absurd heof Bool.false_ne_true⟩⟩
      exact congrArg (List.drop · (files cfg.absoluteFilePath))
        (adjusted_position (his.of_eq rfl rfl rfl rfl))
    · rw [heq]
      trivial

theorem reinitAudioStream_file {s' : State} {bufferSize : ℕ}
    (hs : s.reinitAudioStream bufferSize = some s') : s'.position = s.position ∧ s'.eof = s.eof ∧
      s'.written = s.written ∧ s'.played = s.played := by
  unfold State.reinitAudioStream State.openStream at hs
  split_ifs at hs
  · cases hs
    exact ⟨rfl, rfl, rfl, rfl⟩
  · split at hs
    · cases hs
    · split at hs
      · cases hs
      · cases hs
        exact ⟨rfl, rfl, rfl, rfl⟩

theorem Reads.playAudioSamples (h : Reads files cfgs n cfg s) :
    Reads files cfgs n cfg (s.playAudioSamples (files cfg.absoluteFilePath)) := by
  have hplaying : Playing cfgs n cfg (s.playAudioSamples (files cfg.absoluteFilePath)) :=
    playAudioSamples_playing h.toPlaying
  obtain ⟨read, hread, hlast, -, heq⟩ := playAudioSamples_reads s (files cfg.absoluteFilePath)
  obtain ⟨start, hstart, hrest⟩ := h.rest
  rw [heq] at hplaying ⊢
  refine ⟨hplaying, ⟨start, hstart, ?_⟩, ?_⟩
  · rw [List.append_assoc, ← hread]
    exact hrest
  · intro heof
    rcases Bool.or_eq_true_iff.mp heof with hbefore | hshort
    · have hnone := h.done hbefore
      rw [hread] at hnone
      exact (List.append_eq_nil_iff.mp hnone).2
    · exact hlast (of_decide_eq_true hshort)

theorem selectFile_played_log (s : State) : s.selectFile.played = s.played := by
  unfold State.selectFile State.again State.first
  split
  · rfl
  · dsimp only
    split
    · split_ifs <;> rfl
    · rfl
    · split_ifs <;> rfl

theorem playAudioSamples_played (s : State) (content : List UInt8) :
    (s.playAudioSamples content).played = s.played := by
  obtain ⟨read, -, -, -, heq⟩ := playAudioSamples_reads s content
  rw [heq]

/-- A turn that reports nothing leaves what was reported. -/
theorem FileInv.of_played {s' : State} (h : FileInv files cfgs s) (hinv : Inv cfgs s')
    (hfile : FilePhase files cfgs s') (hplayed : s'.played = s.played) : FileInv files cfgs s' :=
  ⟨hinv, hfile, hplayed ▸ h.played⟩

theorem executePlayback_fileInv {s' : State} {choice : Choice} (h : FileInv files cfgs s)
    (hlimited : choice.limited = false) (hs : s.executePlayback files choice = some s') :
    FileInv files cfgs s' := by
  have hinv := executePlayback_inv h.toInv hs
  have hphase := h.phase
  have hfile := h.file
  unfold State.executePlayback at hs
  split at hs
  · cases hs
    exact h.of_played hinv trivial rfl
  · rename_i hthread
    cases hs
    exact h.of_played hinv (selectFile_file hphase hthread) (selectFile_played_log s)
  · unfold State.initFileToPlay at hs
    split_ifs at hs
    cases hs
    exact h.of_played hinv ⟨rfl, rfl, rfl⟩ rfl
  · rename_i hthread
    rw [Phase, hthread] at hphase
    obtain ⟨n, cfg, hopening, hopened, hnamed⟩ := hphase
    rw [FilePhase, hthread] at hfile
    obtain ⟨hplaying, hnext, -⟩ := reinitAudioStream_playing hopening hopened hnamed hs
    obtain ⟨hposition, heof, hwritten, hplayed⟩ := reinitAudioStream_file hs
    refine h.of_played hinv ?_ hplayed
    rw [FilePhase, hnext]
    refine ⟨n, cfg, hplaying, ⟨0, Or.inl rfl, ?_⟩, ?_⟩
    · rw [hwritten, hposition, hfile.1, hfile.2.2, List.nil_append]
    · rw [heof, hfile.2.1]
      exact fun hend => absurd hend Bool.false_ne_true
  · rename_i hthread
    rw [FilePhase, hthread] at hfile
    obtain ⟨n, cfg, hreads⟩ := hfile
    cases hs
    refine h.of_played hinv ?_ (playAudioSamples_played s _)
    rw [FilePhase, playAudioSamples_thread, hreads.name]
    exact ⟨n, cfg, hreads.playAudioSamples⟩
  · rename_i hthread
    rw [FilePhase, hthread] at hfile
    obtain ⟨n, cfg, hreads⟩ := hfile
    cases hs
    refine h.of_played hinv ?_ rfl
    have hplaying : ∀ thread, Playing cfgs n cfg { s with thread := thread } := fun thread =>
      hreads.congr rfl rfl rfl rfl rfl rfl (hreads.stream.of_eq rfl rfl rfl rfl)
    by_cases heof : s.eof = true
    · obtain ⟨start, hstart, hrest⟩ := hreads.rest
      rw [hreads.done heof, List.append_nil] at hrest
      rw [if_pos heof]
      exact ⟨n, cfg, hplaying _, start, hstart, hrest⟩
    · rw [if_neg heof]
      exact ⟨n, cfg, hplaying _, hreads.rest, hreads.done⟩
  · rename_i hthread
    rw [FilePhase, hthread] at hfile
    obtain ⟨n, cfg, hdone⟩ := hfile
    cases hs
    refine h.of_played hinv ?_ rfl
    rw [hlimited]
    exact ⟨n, cfg, hdone.congr rfl rfl rfl rfl rfl rfl (hdone.stream.of_eq rfl rfl rfl rfl),
      hdone.written⟩
  · rename_i hthread
    rw [FilePhase, hthread] at hfile
    obtain ⟨n, cfg, hdone⟩ := hfile
    cases hs
    refine ⟨hinv, trivial, ?_⟩
    intro r hr
    rcases List.mem_append.mp hr with hold | hnew
    · exact h.played r hold
    · rw [List.mem_singleton.mp hnew]
      exact ⟨n, cfg, hdone.reached, hdone.index, hdone.written⟩
  · cases hs
    exact h.of_played hinv trivial rfl
  · cases hs
    exact h.of_played hinv trivial rfl
  all_goals cases hs

/-- In every run in which the writes are accepted in full. -/
theorem fileInv_of_comes (h : Comes files cfgs s) : FileInv files cfgs s := by
  refine h.invariant ⟨initial_inv cfgs, trivial, fun r hr => absurd hr List.not_mem_nil⟩ ?_
  intro s e s' hok hs hinv
  cases e with
  | player choice => exact executePlayback_fileInv hinv hok hs
  | writeComplete rejected => exact absurd hok id

/-- Only a whole file is written from its beginning. -/
theorem Repetition.Whole.headerBytes_eq {r : Repetition} {k : ℕ} (h : r.Whole files cfgs)
    (hreached : Reached cfgs n cfg) (hindex : r.index = n % 2 ^ 32)
    (hwritten : r.written = (files cfg.absoluteFilePath).drop k)
    (hfile : files cfg.absoluteFilePath ≠ []) (hzero : k = 0 ∨
      headerBytes cfg.streamConfig.format = 0) : headerBytes cfg.streamConfig.format = k := by
  obtain ⟨cfg', hcfg', hwhole⟩ := h
  rw [hindex] at hcfg'
  obtain rfl := Option.some.inj (hreached.visit.symm.trans hcfg')
  have hlength := congrArg List.length (hwritten.symm.trans hwhole)
  have hpos := List.length_pos_of_ne_nil hfile
  rw [List.length_drop, List.length_drop] at hlength
  omega

/-- In every run every repetition of an entry writes the file without its header, if and only if no
file that has samples has a header to skip. -/
theorem repetitions_whole_iff (files : String → List UInt8) (cfgs : List PlaybackConfig) :
    (∀ s, Runs.Reachable (step files) Accepts (initial cfgs) s →
      ∀ r ∈ s.played, r.Whole files cfgs) ↔ NoHeaders files cfgs := by
  constructor
  · intro h n cfg hreached hfile
    obtain ⟨s, hs⟩ := exists_startOf files hreached.passed
    obtain ⟨t, ht, hnone, htimes⟩ := hs.exists_reads hreached
    obtain ⟨u, hu, hplayed, hcounted⟩ := ht.exists_wrote
    rw [hnone, List.nil_append] at hplayed
    have hfirst := h u hu.comes _ (hplayed ▸ List.mem_append_right _ List.mem_cons_self)
    have hheader := hfirst.headerBytes_eq hreached rfl rfl hfile (Or.inl rfl)
    refine ⟨hheader, ?_⟩
    intro hrepeats m opener hopened hvisit
    have hmore : cfg.repeatInfo.type = .count →
        u.numTimesFilePlayed < cfg.repeatInfo.count := by
      intro htype
      rw [hcounted htype, htimes]
      rcases hrepeats with hindefinite | ⟨-, hcount⟩
      · rw [htype] at hindefinite
        cases hindefinite
      · exact hcount
    obtain ⟨v, hv, hagain, -⟩ := hu.exists_reads hmore (streamBefore_of_openedFor hopened hvisit)
    obtain ⟨w, hw, hlast, -⟩ := hv.exists_wrote
    rw [hagain, List.nil_append] at hlast
    have hsecond := h w hw.comes _ (hlast ▸ List.mem_append_right _ List.mem_cons_self)
    rw [← hsecond.headerBytes_eq hreached rfl rfl hfile (Or.inr hheader), hheader]
  · intro h s hs r hr
    obtain ⟨n, cfg, hreached, hindex, start, hstart, hwritten⟩ := (fileInv_of_comes hs).played r hr
    refine ⟨cfg, by rw [hindex]; exact hreached.visit, ?_⟩
    rw [hwritten]
    by_cases hfile : files cfg.absoluteFilePath = []
    · rw [hfile, List.drop_nil, List.drop_nil]
    · obtain ⟨hheader, hopener⟩ := h n cfg hreached hfile
      rw [hheader]
      rcases hstart with rfl | ⟨hrepeats, stream, hstream, rfl⟩
      · rfl
      · obtain ⟨m, opener, hopened, hvisit, rfl⟩ := exists_openedFor hstream
        rw [hopener hrepeats m opener hopened hvisit]

/-- `#!AMR`, the end of the line, and one byte of samples. -/
def amrFile : List UInt8 := [35, 33, 65, 77, 82, 10, 7]

def playedTwice : List PlaybackConfig :=
  [⟨⟨"a", ⟨.count, 2⟩⟩, ⟨.play, 8000, 1, .amrNb, [1], none⟩⟩]

/-- The header is written with the first repetition. -/
theorem header_written : ¬ ∀ s,
    Runs.Reachable (step fun _ => amrFile) Accepts (initial playedTwice) s →
      ∀ r ∈ s.played, r.Whole (fun _ => amrFile) playedTwice := by
  intro h
  obtain ⟨s, hs, hplayed⟩ := Runs.exists_reachable_of_run (step fun _ => amrFile) Accepts
    (initial playedTwice) (fun s => s.played) [⟨0, "a", amrFile⟩, ⟨0, "a", [7]⟩]
    (List.replicate 13 (.player ⟨8, false⟩)) (by decide)
  obtain ⟨cfg, hcfg, hwhole⟩ := h s hs _ (hplayed ▸ List.mem_cons_self)
  cases hcfg
  cases hwhole

end Entries

end Player

end SatComm
