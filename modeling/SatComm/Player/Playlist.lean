import SatComm.Player.Session
import SatComm.Runs.LeadsTo

/-!
# What a playlist means

A session in which every operation succeeds and nobody stops it plays the entries of its playlist
in order, each as often as it says. The loop selects an entry, plays it, and comes back to the
selection with the number of times it was played; between two entries the file is closed and the
counter is zero. The position in the playlist is a 32-bit number, so that a playlist which is longer
than its range never ends.
-/

namespace SatComm

namespace Player

namespace Playlist

/-- Every operation of a turn succeeds; a stream may ask for the last buffers again. -/
structure Succeeds (r : Results) : Prop where
  register : r.registerForSSREvent = .success
  fopen : r.fopen = true
  reinit : r.reinitAudioStream = .success
  play : r.playAudioSamples = .success
  finalize : r.finalizePlayback = .success ∨ r.finalizePlayback = .requestRateLimited
  fseek : r.fseek = true
  fclose : r.fclose = true
  deinit : r.deinitAudioStream = .success

/-- The thread runs alone, with the results `r n` in step `n`. -/
def runs (r : ℕ → Results) (s : State) : ℕ → State
  | 0 => s
  | n + 1 => ((runs r s n).advance (r n)).getD (runs r s n)

/-- The thread is sending the samples of a file. -/
def Sending (s : State) : Prop :=
  ∃ l, (s.control = .loop l ∨ s.control = .turn l) ∧
    (l.nextState = .playSamples ∨ l.nextState = .filePlayEnd)

/-- The samples of every file come to an end. -/
def PlaysThrough (r : ℕ → Results) (s : State) : Prop :=
  ∀ n, ∃ m, n ≤ m ∧ ¬ Sending (runs r s m)

/-- No session is there, and none is being ended. -/
structure Rests (s : State) : Prop where
  noSession : s.isPlayInProgress = false
  idle : s.control = .idle
  noTask : s.tasks = []

/-- How often an entry is played that is not played indefinitely. -/
def times (cfg : PlaybackConfig) : ℕ :=
  match cfg.repeatInfo.type with
  | .count => cfg.repeatInfo.count.toNat
  | .skip | .indefinitely => 0

def isIndefinite (cfg : PlaybackConfig) : Bool := cfg.repeatInfo.type = .indefinitely

/-- The notifications of one entry that is played `k` times. -/
def filePlayed (cfg : PlaybackConfig) (index k : ℕ) : List (ℕ × Notification) :=
  List.replicate k (index, .filePlayed cfg.absoluteFilePath)

/-- The notifications of the first `n` entries, each with the position of its entry. -/
def filesPlayed (cfgs : List PlaybackConfig) (n : ℕ) : List (ℕ × Notification) :=
  (cfgs.take n).zipIdx.flatMap fun (cfg, index) => filePlayed cfg index (times cfg)

/-- The notifications as the listener of a session gets them. -/
def entries (session listener : ℕ) (ns : List (ℕ × Notification)) : List Entry :=
  ns.map fun (index, notification) => ⟨session, listener, index, notification⟩

/-- What a session is about, and the log when it started. -/
structure Session where
  configs : List PlaybackConfig
  listener : ℕ
  session : ℕ
  before : List Entry

/-- The log when these notifications of the session have been given. -/
def Session.log (c : Session) (ns : List (ℕ × Notification)) : List Entry :=
  c.before ++ entries c.session c.listener ns

/-- The session started in `s`. -/
def started (s : State) (configs : List PlaybackConfig) (listener : ℕ) : Session :=
  ⟨configs, listener, s.listeners.length, s.log⟩

/-- The session is over: its end was the last notification, the file and the stream are closed. -/
structure Finished (c : Session) (s : State) : Prop where
  idle : s.control = .idle
  noSession : s.isPlayInProgress = false
  log : s.log = c.log ((0, .playbackStarted) :: filesPlayed c.configs c.configs.length ++
    [(c.configs.length, .playbackFinished)])
  fileClosed : s.isFileOpened = false
  streamClosed : s.isStreamOpened = false

/-- The run gives the notifications that the playlist asks for. -/
structure Meets (c : Session) (run : ℕ → State) : Prop where
  finite : (∀ cfg ∈ c.configs, isIndefinite cfg = false) → ∃ n, ∀ m, n ≤ m → Finished c (run m)
  indefinite : ∀ j cfg, c.configs[j]? = some cfg → isIndefinite cfg →
    (∀ cfg ∈ c.configs.take j, isIndefinite cfg = false) →
      (∀ k, ∃ n, (run n).log = c.log ((0, .playbackStarted) :: filesPlayed c.configs j ++
        filePlayed cfg j k)) ∧
      ∀ n, ∃ k, (run n).log <+: c.log ((0, .playbackStarted) :: filesPlayed c.configs j ++
        filePlayed cfg j k)

/-- The positions up to the first entry that is played indefinitely, or to the end, can be counted
with 32 bits. -/
def InRange (cfgs : List PlaybackConfig) : Prop :=
  cfgs.findIdx isIndefinite < 2 ^ 32

instance (cfgs : List PlaybackConfig) : Decidable (InRange cfgs) :=
  inferInstanceAs (Decidable (_ < _))

variable {r : ℕ → Results} {s t : State} {c : Session} {l : Locals} {x : Results} {i num : ℕ}
  {n : ℕ} {opened : Bool} {ns : List (ℕ × Notification)} {cfg : PlaybackConfig}

/-! ## The notifications of the first entries -/

theorem filesPlayed_succ {cfgs : List PlaybackConfig} (h : cfgs[i]? = some cfg) :
    filesPlayed cfgs (i + 1) = filesPlayed cfgs i ++ filePlayed cfg i (times cfg) := by
  obtain ⟨hi, -⟩ := List.getElem?_eq_some_iff.mp h
  have hlen : (cfgs.take i).length = i := List.length_take_of_le hi.le
  rw [filesPlayed, List.take_add_one, h, List.zipIdx_append, List.flatMap_append, hlen, filesPlayed]
  simp

theorem filePlayed_succ (cfg : PlaybackConfig) (i k : ℕ) :
    filePlayed cfg i (k + 1) = filePlayed cfg i k ++ [(i, .filePlayed cfg.absoluteFilePath)] :=
  List.replicate_succ'

theorem Session.log_append (c : Session) (ns : List (ℕ × Notification)) (index : ℕ)
    (notification : Notification) : c.log (ns ++ [(index, notification)]) =
      c.log ns ++ [⟨c.session, c.listener, index, notification⟩] := by
  rw [Session.log, Session.log, entries, List.map_append, ← entries, List.append_assoc]
  rfl

/-! ## One turn of the loop -/

/-- The session `c` runs, nobody has stopped it, and `ns` are its notifications so far. -/
structure At (c : Session) (i num : ℕ) (ns : List (ℕ × Notification)) (s : State) (l : Locals) :
    Prop where
  configs : s.playbackConfigs = c.configs
  noStop : s.hasUserRequestedStop = false
  noSsr : s.hasSsrOccurred = false
  noTask : s.tasks = []
  listener : s.statusListener = c.listener
  session : s.session = c.session
  index : l.curFileIdx.toNat = i
  played : l.numTimesFilePlayed.toNat = num
  log : s.log = c.log ns

/-- At the test of the loop, with this state of the player next. -/
structure Next (st : PlayerState) (s : State) (l : Locals) : Prop where
  control : s.control = .loop l
  state : l.nextState = st

theorem advance_loop (hl : t.control = .loop l) (hstop : t.hasUserRequestedStop = false)
    (hssr : t.hasSsrOccurred = false) (x : Results) :
    t.advance x = some { t with control := .turn l } := by
  simp only [State.advance, hl, hstop, hssr, Bool.not_false, Bool.and_self, if_true]

theorem runs_add_two (h : At c i num ns (runs r s n) l) (hl : (runs r s n).control = .loop l) :
    runs r s (n + 2) =
      { runs r s n with control := .turn l }.executePlayback l (r (n + 1)) := by
  have htest : runs r s (n + 1) = { runs r s n with control := .turn l } := by
    rw [runs, advance_loop hl h.noStop h.noSsr, Option.getD_some]
  rw [runs, htest]
  rfl

/-- What a turn does, the run comes to. -/
theorem leads_of_turn {P : State → Locals → Prop} {Q : State → Prop}
    (hr : ∀ n, Succeeds (r n))
    (hP : ∀ t l, P t l → t.control = .loop l ∧ ∃ i num ns, At c i num ns t l)
    (hQ : ∀ t l x, P t l → Succeeds x → Q ({ t with control := .turn l }.executePlayback l x)) :
    Runs.LeadsTo (runs r s) (fun t => ∃ l, P t l) Q := by
  refine .after 2 fun n hn => ?_
  obtain ⟨l, hl⟩ := hn
  obtain ⟨hcontrol, i, num, ns, hat⟩ := hP _ l hl
  rw [runs_add_two hat hcontrol]
  exact hQ _ l _ hl (hr _)

/-! ## From the selection of a file to the next selection -/

/-- At the selection of the next file. -/
structure Selecting (c : Session) (i num : ℕ) (opened : Bool) (ns : List (ℕ × Notification))
    (s : State) (l : Locals) : Prop extends Next .selectFile s l, At c i num ns s l where
  file : s.isFileOpened = opened
  name : opened = true → ∀ cfg, c.configs[i]? = some cfg → s.curFileName = cfg.absoluteFilePath

/-- In the middle of a file. -/
structure InFile (c : Session) (i num : ℕ) (cfg : PlaybackConfig) (ns : List (ℕ × Notification))
    (s : State) (l : Locals) : Prop extends At c i num ns s l where
  config : l.curPbCfg = cfg
  name : s.curFileName = cfg.absoluteFilePath

/-- The samples of the file are being sent. -/
def Plays (c : Session) (i num : ℕ) (cfg : PlaybackConfig) (ns : List (ℕ × Notification))
    (s : State) : Prop :=
  ∃ l, (s.control = .loop l ∨ s.control = .turn l) ∧
    (l.nextState = .playSamples ∨ l.nextState = .filePlayEnd) ∧
    InFile c i num cfg ns s l ∧ s.isFileOpened = true

/-- The counter after a file was played. -/
def counted (cfg : PlaybackConfig) (num : ℕ) : ℕ :=
  match cfg.repeatInfo.type with
  | .count => num + 1
  | .skip | .indefinitely => num

theorem toNat_succ {a : UInt32} {n : ℕ} (h : a.toNat = n) (hn : n + 1 < 2 ^ 32) :
    (a + 1).toNat = n + 1 := by
  rw [UInt32.toNat_add, h]
  exact Nat.mod_eq_of_lt hn

theorem eq_zero_iff {a : UInt32} {n : ℕ} (h : a.toNat = n) : a = 0 ↔ n = 0 := by
  rw [← h, ← UInt32.toNat_inj]
  rfl

/-- An entry is still to be played when it was played `num` times. -/
def Due (cfg : PlaybackConfig) (num : ℕ) : Prop :=
  isIndefinite cfg = true ∨ cfg.repeatInfo.type = .count ∧ num < cfg.repeatInfo.count.toNat

theorem selectFile_over (hget : t.playbackConfigs[l.curFileIdx.toNat]? = some cfg)
    (htimes : times cfg = 0) (hfinite : isIndefinite cfg = false) : t.selectFile l x =
      { t with control := .loop { l with curPbCfg := cfg, curFileIdx := l.curFileIdx + 1 } } := by
  simp only [State.selectFile, hget]
  cases htype : cfg.repeatInfo.type with
  | count =>
    have hzero : cfg.repeatInfo.count = 0 := by
      rw [times, htype] at htimes
      exact (eq_zero_iff rfl).mpr htimes
    simp only [hzero, if_true]
  | skip => rfl
  | indefinitely => simp [isIndefinite, htype] at hfinite

theorem selectFile_first (hget : t.playbackConfigs[l.curFileIdx.toNat]? = some cfg)
    (hdue : Due cfg num) (hzero : num = 0) (hnum : l.numTimesFilePlayed.toNat = num)
    (hclosed : t.isFileOpened = false) :
    t.selectFile l x = t.first { l with curPbCfg := cfg } := by
  simp only [State.selectFile, hget]
  rcases hdue with hindefinite | ⟨htype, hless⟩
  · simp only [isIndefinite, decide_eq_true_eq] at hindefinite
    simp only [hindefinite, hclosed, Bool.false_eq_true, if_false]
  · have hcount : cfg.repeatInfo.count ≠ 0 := by
      rw [Ne, eq_zero_iff rfl]
      omega
    simp only [htype, if_neg hcount, (eq_zero_iff hnum).mpr hzero, if_true]

theorem selectFile_again (hget : t.playbackConfigs[l.curFileIdx.toNat]? = some cfg)
    (hdue : Due cfg num) (hnonzero : isIndefinite cfg = false → num ≠ 0)
    (hnum : l.numTimesFilePlayed.toNat = num) (hopen : t.isFileOpened = true) :
    t.selectFile l x = t.again { l with curPbCfg := cfg } x := by
  simp only [State.selectFile, hget]
  rcases hdue with hindefinite | ⟨htype, hless⟩
  · simp only [isIndefinite, decide_eq_true_eq] at hindefinite
    simp only [hindefinite, hopen, if_true]
  · have hcount : cfg.repeatInfo.count ≠ 0 := by
      rw [Ne, eq_zero_iff rfl]
      omega
    have hplayed : l.numTimesFilePlayed ≠ 0 := by
      rw [Ne, eq_zero_iff hnum]
      exact hnonzero (by simp [isIndefinite, htype])
    have hlt : l.numTimesFilePlayed < cfg.repeatInfo.count := by
      rw [UInt32.lt_iff_toNat_lt, hnum]
      exact hless
    simp only [htype, if_neg hcount, if_neg hplayed, if_pos hlt]

theorem selectFile_done (hget : t.playbackConfigs[l.curFileIdx.toNat]? = some cfg)
    (htype : cfg.repeatInfo.type = .count) (hall : l.numTimesFilePlayed = cfg.repeatInfo.count)
    (hnonzero : cfg.repeatInfo.count ≠ 0) : t.selectFile l x =
      { t with control := .loop { l with
        curPbCfg := cfg
        numTimesFilePlayed := 0
        curFileIdx := l.curFileIdx + 1
        nextState := .deinitFile } } := by
  have hnot : ¬ cfg.repeatInfo.count < cfg.repeatInfo.count := UInt32.lt_irrefl _
  simp only [State.selectFile, hget, htype, hall, if_neg hnonzero, if_neg hnot]

/-- The entry at the selection. -/
theorem Selecting.get (h : Selecting c i num opened ns t l) (hcfg : c.configs[i]? = some cfg) :
    t.playbackConfigs[l.curFileIdx.toNat]? = some cfg := by
  rw [h.configs, h.index, hcfg]

/-- At the selection the thread takes the turn of `SELECT_FILE`. -/
theorem leads_of_select {Q : State → Prop} (hr : ∀ n, Succeeds (r n))
    (hQ : ∀ t l x, Selecting c i num opened ns t l → Succeeds x →
      Q ({ t with control := .turn l }.selectFile l x)) :
    Runs.LeadsTo (runs r s) (fun t => ∃ l, Selecting c i num opened ns t l) Q := by
  refine leads_of_turn hr (fun t l h => ⟨h.control, i, num, ns, h.toAt⟩) fun t l x h hx => ?_
  rw [State.executePlayback, h.state]
  exact hQ t l x h hx

/-- An entry that is not played is passed over. -/
theorem pass_over (hr : ∀ n, Succeeds (r n)) (hcfg : c.configs[i]? = some cfg)
    (htimes : times cfg = 0) (hfinite : isIndefinite cfg = false) (hi : i + 1 < 2 ^ 32) :
    Runs.LeadsTo (runs r s) (fun t => ∃ l, Selecting c i num false ns t l)
      (fun t => ∃ l, Selecting c (i + 1) num false ns t l) := by
  refine leads_of_select hr fun t l x h _ => ?_
  have hover := selectFile_over (t := { t with control := .turn l }) (x := x) (h.get hcfg) htimes
    hfinite
  rw [hover]
  exact ⟨_, ⟨⟨rfl, h.state⟩, ⟨h.configs, h.noStop, h.noSsr, h.noTask, h.listener, h.session,
    toNat_succ h.index hi, h.played, h.log⟩, h.file, nofun⟩⟩

/-- A file that is played the first time is opened, and then the stream for it. -/
theorem plays_of_first (hr : ∀ n, Succeeds (r n)) (hcfg : c.configs[i]? = some cfg)
    (hdue : Due cfg 0) (hnamed : cfg.absoluteFilePath ≠ "") :
    Runs.LeadsTo (runs r s) (fun t => ∃ l, Selecting c i 0 false ns t l)
      (Plays c i 0 cfg ns) := by
  have hselect : Runs.LeadsTo (runs r s) (fun t => ∃ l, Selecting c i 0 false ns t l)
      (fun t => ∃ l, Next .initFile t l ∧ InFile c i 0 cfg ns t l) := by
    refine leads_of_select hr fun t l x h _ => ?_
    have hfirst := selectFile_first (t := { t with control := .turn l }) (x := x) (h.get hcfg)
      hdue rfl h.played h.file
    rw [hfirst]
    exact ⟨_, ⟨rfl, rfl⟩, ⟨h.configs, h.noStop, h.noSsr, h.noTask, h.listener, h.session, h.index,
      h.played, h.log⟩, rfl, rfl⟩
  have hopen : Runs.LeadsTo (runs r s)
      (fun t => ∃ l, Next .initFile t l ∧ InFile c i 0 cfg ns t l)
      (fun t => ∃ l, Next .reinitStream t l ∧ InFile c i 0 cfg ns t l ∧ t.isFileOpened = true) := by
    refine leads_of_turn hr (fun t l h => ⟨h.1.control, i, 0, ns, h.2.toAt⟩) fun t l x h hx => ?_
    obtain ⟨hnext, h⟩ := h
    have hname : t.curFileName ≠ "" := by
      rw [h.name]
      exact hnamed
    simp only [State.executePlayback, hnext.state, State.initFileToPlay, if_neg hname, hx.fopen,
      if_true]
    exact ⟨_, ⟨rfl, rfl⟩, ⟨⟨h.configs, h.noStop, h.noSsr, h.noTask, h.listener, h.session, h.index,
      h.played, h.log⟩, h.config, h.name⟩, rfl⟩
  refine (hselect.trans hopen).trans ?_
  refine leads_of_turn hr (fun t l h => ⟨h.1.control, i, 0, ns, h.2.1.toAt⟩) fun t l x h hx => ?_
  obtain ⟨hnext, h, hfile⟩ := h
  simp only [State.executePlayback, hnext.state, State.reinitAudioStream, hx.reinit, if_true]
  exact ⟨_, .inl rfl, .inl rfl, ⟨⟨h.configs, h.noStop, h.noSsr, h.noTask, h.listener, h.session,
    h.index, h.played, h.log⟩, h.config, h.name⟩, hfile⟩

/-- A file that is played again is read from its beginning. -/
theorem plays_of_again (hr : ∀ n, Succeeds (r n)) (hcfg : c.configs[i]? = some cfg)
    (hdue : Due cfg num) (hnonzero : isIndefinite cfg = false → num ≠ 0) :
    Runs.LeadsTo (runs r s) (fun t => ∃ l, Selecting c i num true ns t l)
      (Plays c i num cfg ns) := by
  refine leads_of_select hr fun t l x h hx => ?_
  have hagain := selectFile_again (t := { t with control := .turn l }) (x := x) (h.get hcfg) hdue
    hnonzero h.played h.file
  rw [hagain]
  simp only [State.again, State.adjustFileAndState, hx.fseek, if_true]
  exact ⟨_, .inl rfl, .inl rfl, ⟨⟨h.configs, h.noStop, h.noSsr, h.noTask, h.listener, h.session,
    h.index, h.played, h.log⟩, rfl, h.name rfl cfg hcfg⟩, h.file⟩

/-- The samples were sent and the file was played. -/
def Played (c : Session) (i num : ℕ) (cfg : PlaybackConfig) (ns : List (ℕ × Notification))
    (s : State) : Prop :=
  ∃ l, Next .reportPlayed s l ∧ InFile c i num cfg ns s l ∧ s.isFileOpened = true

/-- One step while the samples are being sent. -/
theorem plays_step (hx : Succeeds x) (h : Plays c i num cfg ns t) :
    Plays c i num cfg ns ((t.advance x).getD t) ∨ Played c i num cfg ns ((t.advance x).getD t) := by
  obtain ⟨l, hloop | hturn, hstate, h, hfile⟩ := h
  · rw [advance_loop hloop h.noStop h.noSsr]
    exact .inl ⟨l, .inr rfl, hstate, ⟨⟨h.configs, h.noStop, h.noSsr, h.noTask, h.listener,
      h.session, h.index, h.played, h.log⟩, h.config, h.name⟩, hfile⟩
  · have hkeep : ∀ st, InFile c i num cfg ns (t.next l .success st) { l with nextState := st } :=
      fun st => ⟨⟨h.configs, h.noStop, h.noSsr, h.noTask, h.listener, h.session, h.index, h.played,
        h.log⟩, h.config, h.name⟩
    have hturn' : (t.advance x).getD t = t.executePlayback l x := by
      simp only [State.advance, hturn, Option.getD_some]
    rw [hturn']
    rcases hstate with hstate | hstate
    · simp only [State.executePlayback, hstate, hx.play, if_true]
      refine .inl ⟨_, .inl rfl, ?_, hkeep _, hfile⟩
      cases x.eof
      · exact .inl rfl
      · exact .inr rfl
    · rcases hx.finalize with hdone | hlimited
      · simp only [State.executePlayback, hstate, hdone, if_true]
        exact .inr ⟨_, ⟨rfl, rfl⟩, hkeep _, hfile⟩
      · have hnot : ErrorCode.requestRateLimited ≠ .success := nofun
        simp only [State.executePlayback, hstate, hlimited, if_neg hnot, if_true]
        exact .inl ⟨_, .inl rfl, .inl rfl, hkeep _, hfile⟩

/-- A file whose samples are being sent is reported. -/
theorem reported (hr : ∀ n, Succeeds (r n)) (hthrough : PlaysThrough r s) (hdue : Due cfg num)
    (hcfg : c.configs[i]? = some cfg) :
    Runs.LeadsTo (runs r s) (Plays c i num cfg ns)
      (fun t => ∃ l, Selecting c i (counted cfg num) true
        (ns ++ [(i, .filePlayed cfg.absoluteFilePath)]) t l) := by
  have hexit : Runs.LeadsTo (runs r s) (Plays c i num cfg ns) (Played c i num cfg ns) := by
    refine .exit (fun n h => plays_step (hr n) h) fun n => ?_
    obtain ⟨m, hm, hnot⟩ := hthrough n
    refine ⟨m, hm, fun h => hnot ?_⟩
    obtain ⟨l, hcontrol, hstate, -⟩ := h
    exact ⟨l, hcontrol, hstate⟩
  refine hexit.trans (leads_of_turn hr (fun t l h => ⟨h.1.control, i, num, ns, h.2.1.toAt⟩) ?_)
  intro t l x h _
  obtain ⟨hnext, h, hfile⟩ := h
  simp only [State.executePlayback, hnext.state, h.config]
  have hlog : t.log ++ [⟨t.session, t.statusListener, l.curFileIdx.toNat,
      .filePlayed t.curFileName⟩] = c.log (ns ++ [(i, .filePlayed cfg.absoluteFilePath)]) := by
    rw [Session.log_append, h.log, h.session, h.listener, h.index, h.name]
  refine ⟨_, ⟨⟨rfl, rfl⟩, ⟨h.configs, h.noStop, h.noSsr, h.noTask, h.listener, h.session, h.index,
    ?_, hlog⟩, hfile, ?_⟩⟩
  · rcases hdue with hindefinite | ⟨htype, hless⟩
    · simp only [isIndefinite, decide_eq_true_eq] at hindefinite
      simp only [hindefinite, counted]
      exact h.played
    · simp only [htype, counted]
      exact toNat_succ h.played (by have := cfg.repeatInfo.count.toNat_lt; omega)
  · intro _ cfg' hcfg'
    obtain rfl : cfg = cfg' := Option.some.inj (hcfg.symm.trans hcfg')
    exact h.name

/-- An entry that was played as often as it says is left with its file closed. -/
theorem left (hr : ∀ n, Succeeds (r n)) (hcfg : c.configs[i]? = some cfg)
    (htype : cfg.repeatInfo.type = .count) (hnonzero : cfg.repeatInfo.count.toNat ≠ 0)
    (hi : i + 1 < 2 ^ 32) :
    Runs.LeadsTo (runs r s)
      (fun t => ∃ l, Selecting c i cfg.repeatInfo.count.toNat true ns t l)
      (fun t => ∃ l, Selecting c (i + 1) 0 false ns t l) := by
  have hselect : Runs.LeadsTo (runs r s)
      (fun t => ∃ l, Selecting c i cfg.repeatInfo.count.toNat true ns t l)
      (fun t => ∃ l, Next .deinitFile t l ∧ At c (i + 1) 0 ns t l ∧ t.isFileOpened = true) := by
    refine leads_of_select hr fun t l x h _ => ?_
    have hdone := selectFile_done (t := { t with control := .turn l }) (x := x) (h.get hcfg) htype
      (UInt32.toNat_inj.mp h.played) (fun hz => hnonzero ((eq_zero_iff rfl).mp hz))
    rw [hdone]
    exact ⟨_, ⟨rfl, rfl⟩, ⟨h.configs, h.noStop, h.noSsr, h.noTask, h.listener, h.session,
      toNat_succ h.index hi, rfl, h.log⟩, h.file⟩
  refine hselect.trans
    (leads_of_turn hr (fun t l h => ⟨h.1.control, i + 1, 0, ns, h.2.1⟩) fun t l x h hx => ?_)
  obtain ⟨hnext, h, hfile⟩ := h
  simp only [State.executePlayback, hnext.state, State.deinitFileToPlay, hfile, hx.fclose,
    Bool.and_self, if_true]
  exact ⟨_, ⟨⟨rfl, rfl⟩, ⟨h.configs, h.noStop, h.noSsr, h.noTask, h.listener, h.session, h.index,
    h.played, h.log⟩, rfl, nofun⟩⟩

/-! ## The whole playlist -/

/-- A file that is due at the selection is played once. -/
theorem played_once (hr : ∀ n, Succeeds (r n)) (hthrough : PlaysThrough r s)
    (hcfg : c.configs[i]? = some cfg) (hdue : Due cfg num) (hnamed : cfg.absoluteFilePath ≠ "")
    (hopened : opened = false → num = 0)
    (hagain : opened = true → isIndefinite cfg = false → num ≠ 0) :
    Runs.LeadsTo (runs r s) (fun t => ∃ l, Selecting c i num opened ns t l)
      (fun t => ∃ l, Selecting c i (counted cfg num) true
        (ns ++ [(i, .filePlayed cfg.absoluteFilePath)]) t l) := by
  cases opened with
  | false =>
    obtain rfl := hopened rfl
    exact (plays_of_first hr hcfg hdue hnamed).trans (reported hr hthrough hdue hcfg)
  | true => exact (plays_of_again hr hcfg hdue (hagain rfl)).trans (reported hr hthrough hdue hcfg)

/-- An entry that is not played indefinitely is played as often as it says. -/
theorem entry_played (hr : ∀ n, Succeeds (r n)) (hthrough : PlaysThrough r s)
    (hcfg : c.configs[i]? = some cfg) (hfinite : isIndefinite cfg = false)
    (hnamed : times cfg ≠ 0 → cfg.absoluteFilePath ≠ "") (hi : i + 1 < 2 ^ 32) :
    Runs.LeadsTo (runs r s) (fun t => ∃ l, Selecting c i 0 false ns t l)
      (fun t => ∃ l, Selecting c (i + 1) 0 false (ns ++ filePlayed cfg i (times cfg)) t l) := by
  by_cases htimes : times cfg = 0
  · rw [htimes, filePlayed, List.replicate_zero, List.append_nil]
    exact pass_over hr hcfg htimes hfinite hi
  · have htype : cfg.repeatInfo.type = .count := by
      cases htype : cfg.repeatInfo.type with
      | count => rfl
      | skip => exact absurd (by rw [times, htype]) htimes
      | indefinitely => simp [isIndefinite, htype] at hfinite
    have hcount : times cfg = cfg.repeatInfo.count.toNat := by rw [times, htype]
    have hall : Runs.LeadsTo (runs r s) (fun t => ∃ l, Selecting c i 0 false ns t l)
        (fun t => ∃ l, Selecting c i (times cfg) (decide (0 < times cfg))
          (ns ++ filePlayed cfg i (times cfg)) t l) := by
      have h : Runs.LeadsTo (runs r s) _ _ := Runs.LeadsTo.count
        (P := fun k t => ∃ l, Selecting c i k (decide (0 < k)) (ns ++ filePlayed cfg i k) t l)
        (times cfg) fun k hk => ?_
      · simpa [filePlayed] using h
      · have hdue : Due cfg k := .inr ⟨htype, hcount ▸ hk⟩
        have honce : Runs.LeadsTo (runs r s) (fun t => ∃ l, Selecting c i k (decide (0 < k))
            (ns ++ filePlayed cfg i k) t l) _ :=
          played_once hr hthrough hcfg hdue (hnamed htimes) (by simp) (by simp; omega)
        rw [filePlayed_succ, ← List.append_assoc]
        simpa [counted, htype] using honce
    refine hall.trans ?_
    rw [decide_eq_true (Nat.pos_of_ne_zero htimes), hcount]
    exact left hr hcfg htype (hcount ▸ htimes) hi

/-- The entries before the first one that is played indefinitely are played in order. -/
theorem entries_played (hr : ∀ n, Succeeds (r n)) (hthrough : PlaysThrough r s)
    (j : ℕ) (hnamed : ∀ cfg ∈ c.configs.take j, times cfg ≠ 0 → cfg.absoluteFilePath ≠ "")
    (hj : j ≤ c.configs.length) (hfinite : ∀ cfg ∈ c.configs.take j, isIndefinite cfg = false)
    (hrange : j < 2 ^ 32) :
    Runs.LeadsTo (runs r s) (fun t => ∃ l, Selecting c 0 0 false [(0, .playbackStarted)] t l)
      (fun t => ∃ l, Selecting c j 0 false
        ((0, .playbackStarted) :: filesPlayed c.configs j) t l) := by
  refine Runs.LeadsTo.count (P := fun i t => ∃ l, Selecting c i 0 false
    ((0, .playbackStarted) :: filesPlayed c.configs i) t l) j fun i hi => ?_
  have hlt : i < c.configs.length := by omega
  have hcfg : c.configs[i]? = some c.configs[i] := List.getElem?_eq_getElem hlt
  have hmem : c.configs[i] ∈ c.configs.take j := by
    rw [List.mem_take_iff_getElem]
    exact ⟨i, by omega, rfl⟩
  rw [filesPlayed_succ hcfg]
  exact entry_played hr hthrough hcfg (hfinite _ hmem)
    (hnamed _ hmem) (by omega)

/-- An entry that is played indefinitely is played any number of times. -/
theorem played_again (hr : ∀ n, Succeeds (r n)) (hthrough : PlaysThrough r s)
    (hcfg : c.configs[i]? = some cfg) (hindefinite : isIndefinite cfg = true)
    (hnamed : cfg.absoluteFilePath ≠ "") (k : ℕ) :
    Runs.LeadsTo (runs r s) (fun t => ∃ l, Selecting c i 0 false ns t l)
      (fun t => ∃ l, Selecting c i 0 (decide (0 < k)) (ns ++ filePlayed cfg i k) t l) := by
  have h : Runs.LeadsTo (runs r s) _ _ := Runs.LeadsTo.count
    (P := fun k t => ∃ l, Selecting c i 0 (decide (0 < k)) (ns ++ filePlayed cfg i k) t l)
    k fun k _ => ?_
  · simpa [filePlayed] using h
  · have honce : Runs.LeadsTo (runs r s) (fun t => ∃ l, Selecting c i 0 (decide (0 < k))
        (ns ++ filePlayed cfg i k) t l) _ :=
      played_once hr hthrough hcfg (.inl hindefinite) hnamed (fun _ => rfl) (by simp [hindefinite])
    have hcounted : counted cfg 0 = 0 := by
      simp only [isIndefinite, decide_eq_true_eq] at hindefinite
      simp only [counted, hindefinite]
    rw [hcounted] at honce
    rw [filePlayed_succ, ← List.append_assoc]
    simpa using honce

theorem deinitAudioStream_eq (hx : x.deinitAudioStream = .success) :
    t.deinitAudioStream x = { t with isStreamOpened := false } := by
  unfold State.deinitAudioStream
  split_ifs with hopen
  · rfl
  · have hclosed : t.isStreamOpened = false := by simpa [hx] using hopen
    rw [← hclosed]

/-- Behind the last entry the session finishes, and stays so. -/
theorem finishes (hr : ∀ n, Succeeds (r n)) :
    Runs.LeadsTo (runs r s)
      (fun t => ∃ l, Selecting c c.configs.length 0 false
        ((0, .playbackStarted) :: filesPlayed c.configs c.configs.length) t l)
      (fun t => Finished c t ∧ t.tasks = []) := by
  have hend : Runs.LeadsTo (runs r s)
      (fun t => ∃ l, Selecting c c.configs.length 0 false
        ((0, .playbackStarted) :: filesPlayed c.configs c.configs.length) t l)
      (fun t => ∃ l, Next .reportFinish t l ∧ At c c.configs.length 0
        ((0, .playbackStarted) :: filesPlayed c.configs c.configs.length) t l ∧
        t.isFileOpened = false) := by
    refine leads_of_select hr fun t l x h _ => ?_
    have hget : t.playbackConfigs[l.curFileIdx.toNat]? = none := by
      rw [h.configs, h.index, List.getElem?_eq_none (Nat.le_refl _)]
    simp only [State.selectFile, hget]
    exact ⟨_, ⟨rfl, rfl⟩, ⟨h.configs, h.noStop, h.noSsr, h.noTask, h.listener, h.session, h.index,
      h.played, h.log⟩, h.file⟩
  refine hend.trans
    (leads_of_turn hr (fun t l h => ⟨h.1.control, _, 0, _, h.2.1⟩) fun t l x h hx => ?_)
  obtain ⟨hnext, h, hfile⟩ := h
  simp only [State.executePlayback, hnext.state, h.noStop, Bool.false_eq_true, if_false,
    deinitAudioStream_eq hx.deinit]
  have hlog : t.log ++ [⟨t.session, t.statusListener, l.curFileIdx.toNat, .playbackFinished⟩] =
      c.log ((0, .playbackStarted) :: filesPlayed c.configs c.configs.length ++
        [(c.configs.length, .playbackFinished)]) := by
    rw [Session.log_append, h.log, h.session, h.listener, h.index]
  exact ⟨⟨rfl, rfl, hlog, hfile, rfl⟩, h.noTask⟩

theorem runs_of_over (ht : (runs r s n).control = .idle) (htasks : (runs r s n).tasks = []) :
    ∀ m, n ≤ m → runs r s m = runs r s n := by
  intro m hm
  induction hm with
  | refl => rfl
  | step _ ih =>
    rw [runs, ih]
    simp only [State.advance, ht, htasks, Option.getD_none]

/-- A session is started when nothing else is there, and its task gets to the first selection. -/
theorem begins (hrest : Rests s) {configs : List PlaybackConfig} (hne : configs ≠ [])
    (listener : ℕ) (hr : ∀ n, Succeeds (r n)) :
    ∃ n l, Selecting (started s configs listener) 0 0 false [(0, .playbackStarted)]
      (runs r (s.startPlayback configs listener true).2 n) l := by
  have hstart : (s.startPlayback configs listener true).2 =
      { { s with statusListener := listener, playbackConfigs := configs }.resetState with
        tasks := [s.listeners.length]
        listeners := s.listeners ++ [listener]
        isPlayInProgress := true } := by
    simp only [State.startPlayback, hrest.noSession, if_neg hne, if_true, Bool.false_eq_true,
      if_false, State.resetState, hrest.noTask, List.nil_append]
  have hrun : ∀ n, runs r (s.startPlayback configs listener true).2 n =
      runs r { { s with statusListener := listener, playbackConfigs := configs }.resetState with
        tasks := [s.listeners.length]
        listeners := s.listeners ++ [listener]
        isPlayInProgress := true } n := by
    intro n
    rw [hstart]
  have hidle : (runs r (s.startPlayback configs listener true).2 1).control =
      .loop Locals.initial := by
    rw [hrun, runs, runs, State.advance]
    simp only [State.resetState, hrest.idle, Option.getD_some]
  have hat : At (started s configs listener) 0 0 []
      (runs r (s.startPlayback configs listener true).2 1) Locals.initial := by
    rw [hrun, runs, runs, State.advance]
    simp only [State.resetState, hrest.idle, Option.getD_some]
    exact ⟨rfl, rfl, rfl, rfl, rfl, rfl, rfl, rfl, (List.append_nil _).symm⟩
  have hfile : (runs r (s.startPlayback configs listener true).2 1).isFileOpened = false := by
    rw [hrun, runs, runs, State.advance]
    simp only [State.resetState, hrest.idle, Option.getD_some]
  refine ⟨3, ?_⟩
  rw [runs_add_two hat hidle]
  generalize runs r (s.startPlayback configs listener true).2 1 = t at hat hfile
  simp only [State.executePlayback, Locals.initial, (hr 2).register, if_true]
  have hlog := Session.log_append (started s configs listener) [] 0 .playbackStarted
  refine ⟨_, ⟨⟨rfl, rfl⟩, ⟨hat.configs, hat.noStop, hat.noSsr, hat.noTask, hat.listener,
    hat.session, rfl, rfl, ?_⟩, hfile, nofun⟩⟩
  refine Eq.trans ?_ hlog.symm
  rw [← hat.log, ← hat.session, ← hat.listener]
  rfl

/-- The log only grows. -/
theorem log_grows (t : State) (x : Results) : t.log <+: ((t.advance x).getD t).log := by
  unfold State.advance
  split
  · split
    · exact List.prefix_refl _
    · exact List.prefix_refl _
  · split <;> exact List.prefix_refl _
  · rename_i l _
    rcases executePlayback_cases t l x with hgoes | hfin
    · rcases hgoes.log with hsame | ⟨_, _, _, hmore⟩
      · exact hsame ▸ List.prefix_refl _
      · exact hmore ▸ List.prefix_append _ _
    · obtain ⟨_, hmore⟩ := hfin.log
      exact hmore ▸ List.prefix_append _ _
  · exact (terminatePlayback_keeps t x).2.1 ▸ List.prefix_refl _
  · exact List.prefix_refl _
  · exact List.prefix_append _ _

theorem findIdx_of_first {configs : List PlaybackConfig} {j : ℕ} (hcfg : configs[j]? = some cfg)
    (hindefinite : isIndefinite cfg = true)
    (hfinite : ∀ cfg ∈ configs.take j, isIndefinite cfg = false) :
    configs.findIdx isIndefinite = j := by
  obtain ⟨hj, rfl⟩ := List.getElem?_eq_some_iff.mp hcfg
  refine (List.findIdx_eq hj).mpr ⟨hindefinite, fun i hi => hfinite _ ?_⟩
  rw [List.mem_take_iff_getElem]
  exact ⟨i, by omega, rfl⟩

/-- A playlist in range is played as it says. -/
theorem meets_of_inRange (hrest : Rests s) {configs : List PlaybackConfig} (hne : configs ≠ [])
    (listener : ℕ) (hnamed : ∀ cfg ∈ configs.take (configs.findIdx isIndefinite + 1),
      times cfg ≠ 0 ∨ isIndefinite cfg = true → cfg.absoluteFilePath ≠ "") (hrange : InRange configs) (hr : ∀ n, Succeeds (r n))
    (hthrough : PlaysThrough r (s.startPlayback configs listener true).2) :
    Meets (started s configs listener) (runs r (s.startPlayback configs listener true).2) := by
  have hbegins := begins hrest hne listener hr
  obtain ⟨n, hbegin⟩ := hbegins
  refine ⟨fun hfinite => ?_, fun j cfg hcfg hindefinite hfinite => ?_⟩
  · have hidx : configs.findIdx isIndefinite = configs.length := List.findIdx_eq_length.mpr hfinite
    have hlen : configs.length < 2 ^ 32 := by rwa [InRange, hidx] at hrange
    rw [hidx] at hnamed
    have hall := (entries_played (c := started s configs listener) hr hthrough configs.length
      (fun cfg hmem ht => hnamed cfg (List.take_subset_take_left _ (Nat.le_succ _) hmem) (.inl ht))
      (Nat.le_refl _)
      (fun cfg hmem => hfinite cfg (List.mem_of_mem_take hmem)) hlen).trans (finishes hr)
    obtain ⟨m, -, hover, htasks⟩ := hall n hbegin
    refine ⟨m, fun k hk => ?_⟩
    rw [runs_of_over hover.idle htasks k hk]
    exact hover
  · have hjlt : j < configs.length := (List.getElem?_eq_some_iff.mp hcfg).1
    have hidx : configs.findIdx isIndefinite = j := findIdx_of_first hcfg hindefinite hfinite
    have hj : j < 2 ^ 32 := by rwa [InRange, hidx] at hrange
    rw [hidx] at hnamed
    have hmem : cfg ∈ configs.take (j + 1) := by
      rw [List.take_add_one, show configs[j]? = some cfg from hcfg]
      exact List.mem_append_right _ (Option.mem_toList.mpr rfl)
    have htimes : ∀ k, ∃ n, (runs r (s.startPlayback configs listener true).2 n).log =
        (started s configs listener).log
          ((0, .playbackStarted) :: filesPlayed configs j ++ filePlayed cfg j k) := by
      intro k
      obtain ⟨m, -, l, hl⟩ := ((entries_played (c := started s configs listener) hr hthrough j
        (fun cfg hmem ht =>
          hnamed cfg (List.take_subset_take_left _ (Nat.le_succ _) hmem) (.inl ht))
        hjlt.le hfinite hj).trans
        (played_again hr hthrough hcfg hindefinite (hnamed cfg hmem (.inr hindefinite)) k)) n hbegin
      exact ⟨m, hl.log⟩
    refine ⟨htimes, fun n => ?_⟩
    obtain ⟨m, hm⟩ := htimes
      ((runs r (s.startPlayback configs listener true).2 n).log.length + 1)
    have hgrow : (runs r (s.startPlayback configs listener true).2 n).log <+:
        (runs r (s.startPlayback configs listener true).2 m).log := by
      refine Runs.prefix_of_grows (f := State.log) (fun n => log_grows _ _) ?_
      rw [hm]
      simp only [Session.log, entries, filePlayed, List.length_append, List.length_map,
        List.length_cons, List.length_replicate]
      omega
    rw [hm] at hgrow
    exact ⟨_, hgrow⟩

/-! ## Playlists out of range -/

theorem smooth_succeeds : Succeeds smooth := ⟨rfl, rfl, rfl, rfl, .inl rfl, rfl, rfl, rfl⟩

/-- How many steps are left until the file has been sent. -/
def stepsLeft (t : State) : ℕ :=
  match t.control with
  | .loop l => if l.nextState = .playSamples then 4 else if l.nextState = .filePlayEnd then 2 else 0
  | .turn l => if l.nextState = .playSamples then 3 else if l.nextState = .filePlayEnd then 1 else 0
  | _ => 0

theorem stepsLeft_pos (h : Sending t) : 0 < stepsLeft t := by
  obtain ⟨l, hl | hl, hst | hst⟩ := h <;> simp [stepsLeft, hl, hst]

theorem stepsLeft_next (h : 0 < stepsLeft t) :
    stepsLeft ((t.advance smooth).getD t) < stepsLeft t := by
  cases hcontrol : t.control with
  | loop l =>
    simp only [stepsLeft, hcontrol] at h ⊢
    simp only [State.advance, hcontrol]
    by_cases hgo : (!t.hasUserRequestedStop && !t.hasSsrOccurred) = true
    · simp only [if_pos hgo, Option.getD_some]
      split_ifs at h ⊢ <;> omega
    · simp only [if_neg hgo, Option.getD_some]
      exact h
  | turn l =>
    simp only [stepsLeft, hcontrol] at h ⊢
    simp only [State.advance, hcontrol, Option.getD_some, State.executePlayback]
    by_cases hplay : l.nextState = .playSamples
    · simp [hplay, smooth, State.next]
    · by_cases hend : l.nextState = .filePlayEnd
      · simp [hend, smooth, State.next]
      · simp [hplay, hend] at h
  | _ => simp [stepsLeft, hcontrol] at h

theorem smooth_playsThrough (s : State) : PlaysThrough (fun _ => smooth) s := by
  intro n
  induction hk : stepsLeft (runs (fun _ => smooth) s n) using Nat.strong_induction_on generalizing n
    with
  | _ k ih =>
    by_cases hsending : Sending (runs (fun _ => smooth) s n)
    · have hless := stepsLeft_next (stepsLeft_pos hsending)
      obtain ⟨m, hm, hnot⟩ := ih _ (hk ▸ hless) (n + 1) rfl
      exact ⟨m, (Nat.le_succ n).trans hm, hnot⟩
    · exact ⟨n, Nat.le_refl n, hsending⟩

/-- A notification that the thread adds comes from a position that fits into 32 bits. -/
theorem log_step (t : State) (x : Results) : ((t.advance x).getD t).log = t.log ∨
    ∃ e : Entry, e.index < 2 ^ 32 ∧ ((t.advance x).getD t).log = t.log ++ [e] := by
  unfold State.advance
  split
  · split <;> exact .inl rfl
  · split <;> exact .inl rfl
  · rename_i l _
    rcases executePlayback_cases t l x with hgoes | hfin
    · rcases hgoes.log with hsame | ⟨l', _, _, hmore⟩
      · exact .inl hsame
      · exact .inr ⟨_, l'.curFileIdx.toNat_lt, hmore⟩
    · obtain ⟨l', hmore⟩ := hfin.log
      exact .inr ⟨_, l'.curFileIdx.toNat_lt, hmore⟩
  · exact .inl (terminatePlayback_keeps t x).2.1
  · exact .inl rfl
  · rename_i l _
    exact .inr ⟨_, l.curFileIdx.toNat_lt, rfl⟩

theorem index_lt (r : ℕ → Results) (s : State) (n : ℕ) :
    ∃ es, (runs r s n).log = s.log ++ es ∧ ∀ e ∈ es, e.index < 2 ^ 32 := by
  induction n with
  | zero => exact ⟨[], (List.append_nil _).symm, fun e he => absurd he List.not_mem_nil⟩
  | succ n ih =>
    obtain ⟨es, hlog, hes⟩ := ih
    rw [runs]
    rcases log_step (runs r s n) (r n) with hsame | ⟨e, he, hmore⟩
    · exact ⟨es, hsame.trans hlog, hes⟩
    · refine ⟨es ++ [e], by rw [hmore, hlog, List.append_assoc], fun e' he' => ?_⟩
      rcases List.mem_append.mp he' with hold | hnew
      · exact hes e' hold
      · rw [List.mem_singleton.mp hnew]
        exact he

/-- No notification of the session comes from a position out of range. -/
theorem log_ne (hbefore : c.before = s.log) {ns : List (ℕ × Notification)} {index : ℕ}
    (hindex : 2 ^ 32 ≤ index) (notification : Notification) (n : ℕ) :
    (runs r s n).log ≠ c.log (ns ++ [(index, notification)]) := by
  intro hlog
  obtain ⟨es, hes, hlt⟩ := index_lt r s n
  rw [hes, Session.log, hbefore] at hlog
  have hentries := List.append_cancel_left hlog
  have hmem : (⟨c.session, c.listener, index, notification⟩ : Entry) ∈ es := by
    rw [hentries, entries, List.map_append]
    exact List.mem_append_right _ List.mem_cons_self
  exact absurd (hlt _ hmem) (Nat.not_lt.mpr hindex)

/-- A playlist out of range is not played as it says. -/
theorem not_meets (hrange : ¬ InRange c.configs) (hbefore : c.before = s.log) (r : ℕ → Results) :
    ¬ Meets c (runs r s) := by
  intro hmeets
  rw [InRange, Nat.not_lt] at hrange
  by_cases hfinite : ∀ cfg ∈ c.configs, isIndefinite cfg = false
  · obtain ⟨n, hn⟩ := hmeets.finite hfinite
    rw [List.findIdx_eq_length.mpr hfinite] at hrange
    exact log_ne hbefore hrange _ n (hn n (Nat.le_refl n)).log
  · have hex : ∃ cfg ∈ c.configs, isIndefinite cfg = true := by
      push Not at hfinite
      obtain ⟨cfg, hmem, hcfg⟩ := hfinite
      exact ⟨cfg, hmem, by simpa using hcfg⟩
    have hlt := List.findIdx_lt_length.mpr hex
    have hget := List.getElem?_eq_getElem hlt
    obtain ⟨htimes, -⟩ := hmeets.indefinite _ _ hget List.findIdx_getElem fun cfg hcfg => by
      obtain ⟨i, hi, rfl⟩ := List.mem_take_iff_getElem.mp hcfg
      exact List.not_of_lt_findIdx (by omega)
    obtain ⟨n, hn⟩ := htimes 1
    exact log_ne hbefore hrange _ n hn

/-- A session in which every operation succeeds and which nobody stops plays its playlist as it
says, for every way in which the samples are sent, exactly when the playlist is in range. -/
theorem playlist_meaning (hrest : Rests s) {configs : List PlaybackConfig} (hne : configs ≠ [])
    (listener : ℕ) (hnamed : ∀ cfg ∈ configs.take (configs.findIdx isIndefinite + 1),
      times cfg ≠ 0 ∨ isIndefinite cfg = true → cfg.absoluteFilePath ≠ "") :
    (∀ r : ℕ → Results, (∀ n, Succeeds (r n)) →
        PlaysThrough r (s.startPlayback configs listener true).2 →
        Meets (started s configs listener) (runs r (s.startPlayback configs listener true).2)) ↔
      InRange configs := by
  constructor
  · intro h
    by_contra hrange
    exact not_meets (c := started s configs listener) hrange (startPlayback_log s _ _ _).symm _
      (h (fun _ => smooth) (fun _ => smooth_succeeds) (smooth_playsThrough _))
  · intro hrange r hr hthrough
    exact meets_of_inRange hrest hne listener hnamed hrange hr hthrough

theorem initial_rests : Rests initial := ⟨rfl, rfl, rfl⟩

/-- A file played twice, one that is skipped, and one played once. -/
def threeEntries : List PlaybackConfig :=
  [⟨"a.wav", ⟨.count, 2⟩⟩, ⟨"b.wav", ⟨.skip, 0⟩⟩, ⟨"c.wav", ⟨.count, 1⟩⟩]

theorem playlist_meaning_threeEntries :
    Meets (started initial threeEntries 7)
      (runs (fun _ => smooth) (initial.startPlayback threeEntries 7 true).2) :=
  (playlist_meaning initial_rests (by decide) 7 (by decide)).mpr (by decide)
    (fun _ => smooth) (fun _ => smooth_succeeds) (smooth_playsThrough _)

/-- As many entries as the position can count, all skipped. -/
def tooMany : List PlaybackConfig := List.replicate (2 ^ 32) ⟨"a.wav", ⟨.skip, 0⟩⟩

/-- The playlist is passed over again and again, and never finishes. -/
theorem tooMany_not_met : (∀ n : ℕ, Succeeds ((fun _ => smooth) n)) ∧
    PlaysThrough (fun _ => smooth) (initial.startPlayback tooMany 7 true).2 ∧
    ¬ Meets (started initial tooMany 7)
      (runs (fun _ => smooth) (initial.startPlayback tooMany 7 true).2) := by
  have hrange : ¬ InRange tooMany := by
    have hfinite : ∀ cfg ∈ tooMany, isIndefinite cfg = false := by
      intro cfg hcfg
      rw [List.eq_of_mem_replicate hcfg]
      rfl
    rw [InRange, List.findIdx_eq_length.mpr hfinite, tooMany, List.length_replicate]
    exact Nat.lt_irrefl _
  exact ⟨fun _ => smooth_succeeds, smooth_playsThrough _,
    not_meets (c := started initial tooMany 7) hrange
      (startPlayback_log initial tooMany 7 true).symm _⟩

end Playlist

end Player

end SatComm
