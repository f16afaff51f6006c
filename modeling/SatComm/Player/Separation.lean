import SatComm.Player.Session

/-!
# Sessions that do not mix

A session reports to the listener that `startPlayback` has stored, and its end is the last thing
that it reports. When it finishes, the report is made under `playerMtx_`; when it is terminated,
`isPlayInProgress_` is cleared first and the report comes after `playerMtx_` was released, so that
the next session can put its own listener in the place of the old one.
-/

namespace SatComm

namespace Player

namespace Separation

variable {s s' : State}

/-- The session is over for `startPlayback`, and its end is not reported yet. -/
def Ending (s : State) : Prop :=
  match s.control with
  | .deregistering _ | .reporting _ => True
  | _ => False

instance (s : State) : Decidable (Ending s) :=
  match h : s.control with
  | .deregistering _ | .reporting _ => isTrue (by rw [Ending, h]; trivial)
  | .idle | .loop _ | .turn _ | .terminating _ _ => isFalse (by rw [Ending, h]; exact id)

/-- No playlist is accepted between the end of a session and its report. -/
def Apart (s : State) : Step → Prop
  | .startPlayback playbackConfigs _ _ =>
    s.isPlayInProgress = false → playbackConfigs ≠ [] → ¬ Ending s
  | .stopPlayback | .onServiceStatusChange _ | .player _ => True

instance (s : State) (e : Step) : Decidable (Apart s e) :=
  match e with
  | .startPlayback playbackConfigs _ _ => inferInstanceAs
    (Decidable (s.isPlayInProgress = false → playbackConfigs ≠ [] → ¬ Ending s))
  | .stopPlayback | .onServiceStatusChange _ | .player _ => isTrue trivial

/-- The notifications of every session went to its own listener, and nothing of it comes after its
end. -/
structure Separate (s : State) : Prop where
  listener : ∀ e ∈ s.log, s.listeners[e.session]? = some e.listener
  last : ∀ before e after, s.log = before ++ e :: after → e.notification.ends →
    ∀ e' ∈ after, e'.session ≠ e.session

/-- The session `n` is the one that reports, and its end is not reported. -/
structure Live (s : State) (n : ℕ) : Prop where
  listener : s.listeners[n]? = some s.statusListener
  notEnded : ∀ e ∈ s.log, e.notification.ends → e.session ≠ n

/-- Which session is there, by where the thread stands. -/
def Phase (s : State) : Prop :=
  match s.control with
  | .idle => s.isPlayInProgress = false ∧ s.tasks = [] ∨
      s.isPlayInProgress = true ∧ ∃ n, s.tasks = [n] ∧ Live s n
  | .loop _ | .turn _ | .terminating _ _ =>
    s.isPlayInProgress = true ∧ s.tasks = [] ∧ Live s s.session
  | .deregistering _ | .reporting _ =>
    s.isPlayInProgress = false ∧ s.tasks = [] ∧ Live s s.session

structure Inv (s : State) : Prop where
  separate : Separate s
  phase : Phase s

theorem initial_inv : Inv initial where
  separate := ⟨fun _ he => absurd he List.not_mem_nil, fun before e after h => by
    simp [initial] at h⟩
  phase := .inl ⟨rfl, rfl⟩

theorem Live.congr {n : ℕ} (h : Live s n) (hlisteners : s'.listeners = s.listeners)
    (hlistener : s'.statusListener = s.statusListener) (hlog : s'.log = s.log) : Live s' n where
  listener := by rw [hlisteners, hlistener, h.listener]
  notEnded := by
    rw [hlog]
    exact h.notEnded

theorem Separate.congr (h : Separate s) (hlisteners : s'.listeners = s.listeners)
    (hlog : s'.log = s.log) : Separate s' where
  listener := by
    rw [hlisteners, hlog]
    exact h.listener
  last := by
    rw [hlog]
    exact h.last

/-- A notification of the session that reports. -/
theorem Separate.report (h : Separate s) (hlive : Live s s.session) {l : Locals}
    {notification : Notification} (hlisteners : s'.listeners = s.listeners)
    (hlog : s'.log = (s.report l notification).log) : Separate s' where
  listener := by
    rw [hlisteners, hlog]
    intro e he
    rcases List.mem_append.mp he with hold | hnew
    · exact h.listener e hold
    · rw [List.mem_singleton.mp hnew]
      exact hlive.listener
  last := by
    rw [hlog]
    intro before e after hsplit hends e' he'
    rcases List.eq_nil_or_concat after with rfl | ⟨init, last, rfl⟩
    · exact absurd he' List.not_mem_nil
    · rw [List.concat_eq_append] at hsplit he'
      have hsplit' : s.log ++ [⟨s.session, s.statusListener, l.curFileIdx.toNat, notification⟩] =
          (before ++ e :: init) ++ [last] := by
        rw [List.append_assoc, List.cons_append]
        exact hsplit
      obtain ⟨hinit, hlast⟩ := List.append_inj' hsplit' rfl
      rcases List.mem_append.mp he' with hmid | hnew
      · exact h.last before e init hinit hends e' hmid
      · rw [List.mem_singleton.mp hnew, ← List.singleton_inj.mp hlast]
        have hmem : e ∈ s.log := by
          rw [hinit]
          exact List.mem_append_right _ List.mem_cons_self
        exact (hlive.notEnded e hmem hends).symm

/-- The session goes on reporting after a notification that is not its end. -/
theorem Live.report (h : Live s s.session) {l : Locals} {notification : Notification}
    (hends : notification.ends = false) (hlisteners : s'.listeners = s.listeners)
    (hlistener : s'.statusListener = s.statusListener)
    (hlog : s'.log = (s.report l notification).log) : Live s' s.session where
  listener := by rw [hlisteners, hlistener, h.listener]
  notEnded := by
    rw [hlog]
    intro e he hends'
    rcases List.mem_append.mp he with hold | hnew
    · exact h.notEnded e hold hends'
    · rw [List.mem_singleton.mp hnew, hends] at hends'
      cases hends'

/-! ## The steps -/

theorem startPlayback_inv {playbackConfigs : List PlaybackConfig} {statusListener : ℕ}
    {added : Bool} (h : Inv s)
    (hok : Apart s (.startPlayback playbackConfigs statusListener added)) :
    Inv (s.startPlayback playbackConfigs statusListener added).2 := by
  unfold State.startPlayback
  by_cases hplay : s.isPlayInProgress = true
  · rw [if_pos hplay]
    exact h
  by_cases hne : playbackConfigs = []
  · rw [if_neg hplay, if_pos hne]
    exact h
  have hnot : s.isPlayInProgress = false := by simpa using hplay
  have hidle : s.control = .idle ∧ s.tasks = [] := by
    have hending := hok hnot hne
    have hphase := h.phase
    unfold Phase at hphase
    unfold Ending at hending
    split at hphase
    · rename_i hidle
      rcases hphase with ⟨-, htasks⟩ | ⟨hyes, -⟩
      · exact ⟨hidle, htasks⟩
      · exact absurd hyes hplay
    · exact absurd hphase.1 hplay
    · exact absurd hphase.1 hplay
    · exact absurd hphase.1 hplay
    · rename_i hc
      rw [hc] at hending
      exact absurd trivial hending
    · rename_i hc
      rw [hc] at hending
      exact absurd trivial hending
  rw [if_neg hplay, if_neg hne]
  cases added with
  | false =>
    refine ⟨h.separate.congr rfl rfl, ?_⟩
    simp only [Phase, hidle.1, State.resetState, Bool.false_eq_true, if_false]
    exact .inl ⟨hnot, hidle.2⟩
  | true =>
    have hless : ∀ e ∈ s.log, e.session < s.listeners.length := fun e he =>
      (List.getElem?_eq_some_iff.mp (h.separate.listener e he)).1
    refine ⟨⟨fun e he => ?_, h.separate.last⟩, ?_⟩
    · change (s.listeners ++ [statusListener])[e.session]? = some e.listener
      rw [List.getElem?_append_left (hless e he)]
      exact h.separate.listener e he
    · simp only [Phase, hidle.1, State.resetState, if_true]
      refine .inr ⟨trivial, s.listeners.length, by rw [hidle.2]; rfl, ?_, ?_⟩
      · exact List.getElem?_concat_length
      · exact fun e he _ => (hless e he).ne

/-- A step that only sets flags. -/
theorem Inv.flags (h : Inv s) (stop ssr : Bool) :
    Inv { s with hasUserRequestedStop := stop, hasSsrOccurred := ssr } where
  separate := h.separate.congr rfl rfl
  phase := by
    have hphase := h.phase
    unfold Phase at hphase ⊢
    cases hc : s.control with
    | idle =>
      rw [hc] at hphase
      rcases hphase with hno | ⟨hyes, n, htasks, hlive⟩
      · exact .inl hno
      · exact .inr ⟨hyes, n, htasks, hlive.congr rfl rfl rfl⟩
    | _ =>
      rw [hc] at hphase
      exact ⟨hphase.1, hphase.2.1, hphase.2.2.congr rfl rfl rfl⟩

theorem advance_inv {r : Results} (h : Inv s) (hs : s.advance r = some s') : Inv s' := by
  have hphase := h.phase
  unfold Phase at hphase
  unfold State.advance at hs
  cases hc : s.control with
  | idle =>
    simp only [hc] at hs hphase
    cases htasks : s.tasks with
    | nil =>
      rw [htasks] at hs
      cases hs
    | cons n tasks =>
      rw [htasks] at hs hphase
      cases hs
      rcases hphase with ⟨-, hno⟩ | ⟨hyes, m, hm, hlive⟩
      · cases hno
      · cases hm
        exact ⟨h.separate.congr rfl rfl, hyes, rfl, hlive.congr rfl rfl rfl⟩
  | loop l =>
    simp only [hc] at hs hphase
    obtain ⟨hyes, htasks, hlive⟩ := hphase
    split_ifs at hs <;> cases hs
    · exact ⟨h.separate.congr rfl rfl, hyes, htasks, hlive.congr rfl rfl rfl⟩
    · exact ⟨h.separate.congr rfl rfl, hyes, htasks, hlive.congr rfl rfl rfl⟩
  | turn l =>
    simp only [hc] at hs hphase
    obtain ⟨hyes, htasks, hlive⟩ := hphase
    cases hs
    rcases executePlayback_cases s l r with hgoes | hfin
    · have hsep : Separate (s.executePlayback l r) := by
        rcases hgoes.log with hsame | ⟨l', notification, -, hmore⟩
        · exact h.separate.congr hgoes.listeners hsame
        · exact h.separate.report hlive hgoes.listeners hmore
      have hlive' : Live (s.executePlayback l r) (s.executePlayback l r).session := by
        rw [hgoes.session]
        rcases hgoes.log with hsame | ⟨l', notification, hends, hmore⟩
        · exact hlive.congr hgoes.listeners hgoes.statusListener hsame
        · exact hlive.report hends hgoes.listeners hgoes.statusListener hmore
      have hrest := And.intro (hgoes.isPlayInProgress.trans hyes)
        (And.intro (hgoes.tasks.trans htasks) hlive')
      refine ⟨hsep, ?_⟩
      unfold Phase
      rcases hgoes.control with ⟨l', hl'⟩ | ⟨l', inLoop, hl'⟩ <;> (rw [hl']; exact hrest)
    · obtain ⟨l', hmore⟩ := hfin.log
      refine ⟨h.separate.report hlive hfin.listeners hmore, ?_⟩
      unfold Phase
      rw [hfin.control]
      exact .inl ⟨hfin.isPlayInProgress, hfin.tasks.trans htasks⟩
  | terminating l inLoop =>
    simp only [hc] at hs hphase
    obtain ⟨hyes, htasks, hlive⟩ := hphase
    obtain ⟨hkeeps, hlog, hno⟩ := terminatePlayback_keeps s r
    cases hs
    have hlive' : Live (s.terminatePlayback r) (s.terminatePlayback r).session := by
      rw [hkeeps.session]
      exact hlive.congr hkeeps.listeners hkeeps.statusListener hlog
    refine ⟨h.separate.congr hkeeps.listeners hlog, ?_⟩
    cases inLoop <;>
      exact ⟨hno, hkeeps.tasks.trans htasks, hlive'.congr rfl rfl rfl⟩
  | deregistering l =>
    simp only [hc] at hs hphase
    cases hs
    exact ⟨h.separate.congr rfl rfl, hphase.1, hphase.2.1, hphase.2.2.congr rfl rfl rfl⟩
  | reporting l =>
    simp only [hc] at hs hphase
    cases hs
    exact ⟨h.separate.report hphase.2.2 rfl rfl, .inl ⟨hphase.1, hphase.2.1⟩⟩

theorem step_inv (e : Step) (hok : Apart s e) (hs : step s e = some s') (h : Inv s) : Inv s' := by
  cases e with
  | startPlayback playbackConfigs statusListener added =>
    cases hs
    exact startPlayback_inv h hok
  | stopPlayback =>
    cases hs
    unfold State.stopPlayback
    split_ifs
    · exact h.flags true _
    · exact h
  | onServiceStatusChange available =>
    cases hs
    exact h.flags _ _
  | player r => exact advance_inv h hs

/-! ## Separation -/

/-- When no playlist is accepted between the end of a session and its report, every session reports
to its own listener only, and its end, at most once and last. -/
theorem sessions_separate (h : Runs.Reachable step Apart initial s) : Separate s :=
  (h.invariant initial_inv fun _ e _ hok hs hinv => step_inv e hok hs hinv).separate

/-- A playlist of one file. -/
def oneFile : List PlaybackConfig := [⟨"a.wav", ⟨.count, 1⟩⟩]

/-- A session is stopped, and the next one starts when its end has been reported. -/
theorem sessions_separate_restarted : ∃ s : State,
    s.log = [⟨0, 1, 0, .playbackStopped⟩, ⟨1, 2, 0, .playbackStarted⟩] ∧ Separate s := by
  obtain ⟨s, hs, hlog⟩ := Runs.exists_reachable_of_run step Apart initial (fun s => s.log)
    [⟨0, 1, 0, .playbackStopped⟩, ⟨1, 2, 0, .playbackStarted⟩]
    [.startPlayback oneFile 1 true, .stopPlayback, .player smooth, .player smooth, .player smooth,
      .player smooth, .player smooth, .startPlayback oneFile 2 true, .player smooth,
      .player smooth, .player smooth]
    (by decide)
  exact ⟨s, hlog, sessions_separate hs⟩

/-- The next session starts between the end of a stopped session and its report: the end of the
first session is reported to the listener of the second one. -/
theorem sessions_mixed : ∃ s, Runs.Reachable step Runs.anyStep initial s ∧ ¬ Separate s := by
  obtain ⟨s, hs, hlog⟩ := Runs.exists_reachable_of_run step Runs.anyStep initial
    (fun s => (s.log, s.listeners)) ([⟨0, 2, 0, .playbackStopped⟩], [1, 2])
    [.startPlayback oneFile 1 true, .stopPlayback, .player smooth, .player smooth, .player smooth,
      .startPlayback oneFile 2 true, .player smooth, .player smooth]
    (by decide)
  obtain ⟨hlog, hlisteners⟩ := Prod.mk.inj hlog
  refine ⟨s, hs, fun h => ?_⟩
  have hlistener := h.listener ⟨0, 2, 0, .playbackStopped⟩ (by rw [hlog]; exact List.mem_cons_self)
  rw [hlisteners] at hlistener
  cases hlistener

end Separation

end Player

end SatComm
