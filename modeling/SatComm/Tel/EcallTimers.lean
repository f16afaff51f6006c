import SatComm.Tel.EcallStateMachine

/-!
# Timers of the call phase

T2, T5, T6 and T7 belong to the call. A hangup stops T2 and nothing else, so a machine that waits
for a failing T5, T6 or T7 goes to the PSAP callback with that timer active; and a call whose
origination fails starts T5 on its way out of call setup. `stops_iff` says for which
configurations no run of the machine ends with one of these timers active.
-/

namespace SatComm

namespace Tel

open Runs

namespace EcallStateMachine

/-- No timer of the call phase is recorded as active. -/
def Quiet (st : HlapStatus) : Prop :=
  ∀ timer ∈ [HlapTimer.t2, .t5, .t6, .t7], st timer ≠ .active

/-- The machine does not rest in the callback or the redial with such a timer active. -/
def EndsQuiet (m : EcallStateMachine) : Prop :=
  m.currentState = some .psapCallback ∨ m.currentState = some .modemRedial → Quiet m.status

/-- A configuration with which every timer of the call phase is stopped. -/
structure Stops (cfg : EcallConfig) : Prop where
  origination : cfg.eCallRedialConfig = .callOrig → ¬ cfg.isNGeCall → ¬ cfg.isMsdTransmitted
  transmission : cfg.eCallRedialConfig ≠ .callOrig → ¬ cfg.isNGeCall → cfg.isMsdTransmitted →
    cfg.eCallRedialConfig = .success ∧ ¬ cfg.parseVectortoString .t5Failed ∧
      ¬ cfg.parseVectortoString .t7Failed ∧
      (cfg.parseVectortoString .t6Failed → cfg.isCustomNumbereCall)
  pull : cfg.eCallRedialConfig ≠ .callOrig → ¬ cfg.isNGeCall → ¬ cfg.isMsdTransmitted →
    cfg.isCustomNumbereCall ∨ cfg.isALACKConfigEnabled ∨
      ¬ cfg.parseVectortoString .t6Failed ∧ ¬ cfg.parseVectortoString .t7Failed

variable (cfg : EcallConfig)

/-- T2 runs during a call that was set up, the other timers only while a chain runs. -/
structure Calm (st : HlapStatus) : Prop where
  t2 : cfg.eCallRedialConfig = .callOrig → st .t2 ≠ .active
  t5 : st .t5 ≠ .active
  t6 : st .t6 ≠ .active
  t7 : st .t7 ≠ .active

/-- The states in which a machine that stops its timers rests. -/
structure Rests (m : EcallStateMachine) : Prop where
  calm : Calm cfg m.status
  ended : m.currentState = some .psapCallback ∨ m.currentState = some .modemRedial →
    m.status .t2 ≠ .active
  setUp : m.currentState ≠ some .callConnect ∧ m.currentState ≠ some .decodeSendMSD ∧
    m.currentState ≠ some .crcCheckOnMSD
  conversed : m.currentState = some .callConversation →
    cfg.eCallRedialConfig ≠ .callOrig ∧ ¬ cfg.isALACKConfigEnabled
  decoded : m.currentState = some .decodeMSD → cfg.eCallRedialConfig ≠ .callOrig
  started : m.started = true

variable {cfg} {m : EcallStateMachine}

theorem Rests.endsQuiet (h : Rests cfg m) : EndsQuiet m := by
  intro hstate timer htimer
  simp only [List.mem_cons, List.not_mem_nil, or_false] at htimer
  rcases htimer with rfl | rfl | rfl | rfl
  · exact h.ended hstate
  · exact h.calm.t5
  · exact h.calm.t6
  · exact h.calm.t7

theorem Calm.update {st : HlapStatus} (h : Calm cfg st) (timer : HlapTimer) :
    Calm cfg (st.updateEcallHlapTimer timer .inactive) where
  t2 horig := st.update_ne_active timer (h.t2 horig)
  t5 := st.update_ne_active timer h.t5
  t6 := st.update_ne_active timer h.t6
  t7 := st.update_ne_active timer h.t7

theorem Rests.update (h : Rests cfg m) (timer : HlapTimer) :
    Rests cfg { m with status := m.status.updateEcallHlapTimer timer .inactive } where
  calm := h.calm.update timer
  ended hstate := m.status.update_ne_active timer (h.ended hstate)
  setUp := h.setUp
  conversed := h.conversed
  decoded := h.decoded
  started := h.started

theorem Calm.tells {m' : EcallStateMachine} (h : Calm cfg m.status) (htells : Tells m m') :
    Calm cfg m'.status where
  t2 horig := htells.status .t2 nofun nofun ▸ h.t2 horig
  t5 := htells.status .t5 nofun nofun ▸ h.t5
  t6 := htells.status .t6 nofun nofun ▸ h.t6
  t7 := htells.status .t7 nofun nofun ▸ h.t7

theorem Rests.tells {m' : EcallStateMachine} (h : Rests cfg m) (htells : Tells m m') :
    Rests cfg m' where
  calm := h.calm.tells htells
  ended hstate :=
    htells.status .t2 nofun nofun ▸ h.ended (htells.currentState ▸ hstate)
  setUp := htells.currentState ▸ h.setUp
  conversed hstate := h.conversed (htells.currentState ▸ hstate)
  decoded hstate := h.decoded (htells.currentState ▸ hstate)
  started := htells.started.trans h.started

theorem Rests.onExit_eq (h : Rests cfg m) : onExit cfg m = m :=
  onExit_of_ne h.setUp.1 h.setUp.2.2

theorem Calm.rests_of_ends {m' : EcallStateMachine} (h : Calm cfg m.status) (hends : Ends cfg m m') :
    Rests cfg m' := by
  have ht2 : m'.status .t2 ≠ .active := by
    rw [hends.t2]
    split_ifs with horig
    · exact h.t2 horig
    · nofun
  refine ⟨⟨fun _ => ht2, ?_, ?_, ?_⟩, fun _ => ht2, ?_, ?_, ?_, hends.started⟩
  · exact hends.status .t5 nofun nofun nofun ▸ h.t5
  · exact hends.status .t6 nofun nofun nofun ▸ h.t6
  · exact hends.status .t7 nofun nofun nofun ▸ h.t7
  all_goals rcases hends.currentState with hstate | hstate <;> rw [hstate] <;> simp

theorem Calm.psapCallback (h : Calm cfg (onExit cfg m).status) (hstarted : m.started = true)
    (hne : m.currentState ≠ some .psapCallback) :
    Rests cfg (changeState cfg m .psapCallback (PSAPCallback.onEnter cfg)) :=
  h.rests_of_ends (ends_changeState hstarted hne)

/-! ## The chains of state changes -/

theorem Calm.callConversation (h : Calm cfg (onExit cfg m).status) (hstarted : m.started = true)
    (hne : m.currentState ≠ some .callConversation)
    (horig : cfg.eCallRedialConfig ≠ .callOrig) :
    Rests cfg (changeState cfg m .callConversation (CallConversation.onEnter cfg)) := by
  rw [changeState_eq hstarted hne, CallConversation.onEnter]
  split_ifs with halack
  · exact Calm.psapCallback h (onExit_started.trans hstarted) nofun
  · refine ⟨h, by simp, by simp, fun _ => ⟨horig, halack⟩, by simp, ?_⟩
    exact onExit_started.trans hstarted

theorem Rests.callConversation (h : Rests cfg m)
    (horig : cfg.eCallRedialConfig ≠ .callOrig) :
    Rests cfg (changeState cfg m .callConversation (CallConversation.onEnter cfg)) := by
  by_cases hstate : m.currentState = some .callConversation
  · rw [changeState, if_neg (not_not.mpr h.started), if_pos hstate]
    exact h
  · exact Calm.callConversation (h.onExit_eq.symm ▸ h.calm) h.started hstate horig

theorem Calm.acknowledged (h : Calm cfg m.status) (hstarted : m.started = true)
    (hstate : m.currentState = some .decodeMSD) (horig : cfg.eCallRedialConfig ≠ .callOrig) :
    Rests cfg (DecodeMSD.acknowledged cfg m) := by
  have hnext : ∀ m' : EcallStateMachine, m'.status = m.status → m'.started = m.started →
      m'.currentState = m.currentState →
      Rests cfg (changeState cfg m' .callConversation (CallConversation.onEnter cfg)) := by
    intro m' hstatus hstarted' hstate'
    have hexit : onExit cfg m' = m' := by
      apply onExit_of_ne <;> rw [hstate', hstate] <;> nofun
    refine Calm.callConversation ?_ (hstarted'.trans hstarted) ?_ horig
    · rw [hexit, hstatus]
      exact h
    · rw [hstate', hstate]
      nofun
  unfold DecodeMSD.acknowledged
  split_ifs
  · exact hnext _ rfl rfl rfl
  · exact hnext _ rfl rfl rfl
  · exact hnext _ rfl rfl rfl

theorem Calm.decodeMSD (h : Calm cfg m.status) (hstarted : m.started = true)
    (hstate : m.currentState = some .decodeMSD) (horig : cfg.eCallRedialConfig ≠ .callOrig)
    (h6 : ¬ cfg.isNGeCall → cfg.parseVectortoString .t6Failed → cfg.isCustomNumbereCall) :
    Rests cfg (DecodeMSD.onEnter cfg m) := by
  unfold DecodeMSD.onEnter
  split_ifs with hng hfailed hcustom
  · exact Calm.acknowledged h hstarted hstate horig
  · refine ⟨h, ?_, ?_, ?_, fun _ => horig, hstarted⟩ <;> simp [hstate]
  · exact absurd (h6 hng hfailed) hcustom
  · refine Calm.acknowledged ?_ hstarted hstate horig
    show Calm cfg ((m.status.sendEvent .t6 .start).sendEvent .t6 .stop)
    rw [HlapStatus.sendEvent_start_stop]
    exact h.update .t6

/-- T7 is stopped on the way from the check to the decoding. -/
theorem Calm.crcCheckOnMSD (h : Calm cfg m.status) (hstarted : m.started = true)
    (hstate : m.currentState = some .crcCheckOnMSD) (horig : cfg.eCallRedialConfig ≠ .callOrig)
    (h6 : ¬ cfg.isNGeCall → cfg.parseVectortoString .t6Failed → cfg.isCustomNumbereCall)
    (h7 : ¬ cfg.parseVectortoString .t7Failed) : Rests cfg (CRCCheckonMSD.onEnter cfg m) := by
  have hstate' : (m.sendEvent .t7 .start).currentState = some .crcCheckOnMSD := hstate
  have hexit : onExit cfg (m.sendEvent .t7 .start) =
      ((m.sendEvent .t7 .start).sendEvent .t7 .stop).msdTransmissionStatus .llAckReceived := by
    rw [onExit, hstate']
    exact if_pos h7
  have hstarted' : (m.sendEvent .t7 .start).started = true := hstarted
  rw [CRCCheckonMSD.onEnter, if_pos h7,
    changeState_eq hstarted' (currentState_ne hstate' .decodeMSD nofun), hexit]
  refine Calm.decodeMSD ?_ hstarted rfl horig h6
  show Calm cfg ((m.status.sendEvent .t7 .start).sendEvent .t7 .stop)
  rw [HlapStatus.sendEvent_start_stop]
  exact h.update .t7

theorem Calm.toCrcCheckOnMSD (h : Calm cfg m.status) (hstarted : m.started = true)
    (hstate : m.currentState = some .decodeSendMSD) (horig : cfg.eCallRedialConfig ≠ .callOrig)
    (h6 : ¬ cfg.isNGeCall → cfg.parseVectortoString .t6Failed → cfg.isCustomNumbereCall)
    (h7 : ¬ cfg.parseVectortoString .t7Failed) :
    Rests cfg (changeState cfg m .crcCheckOnMSD (CRCCheckonMSD.onEnter cfg)) := by
  have hexit : onExit cfg m = m :=
    onExit_of_ne (currentState_ne hstate _ nofun) (currentState_ne hstate _ nofun)
  rw [changeState_eq hstarted (currentState_ne hstate .crcCheckOnMSD nofun), hexit]
  exact Calm.crcCheckOnMSD h hstarted rfl horig h6 h7

theorem onExit_of_decodeSendMSD (hstate : m.currentState = some .decodeSendMSD) :
    onExit cfg m = m := by
  apply onExit_of_ne <;> rw [hstate] <;> nofun

/-- An eCall over IMS runs no timer but T2. -/
theorem Calm.decodeSendMSD_of_isNGeCall (h : Calm cfg m.status) (hng : cfg.isNGeCall = true)
    (hstarted : m.started = true) (hstate : m.currentState = some .decodeSendMSD)
    (horig : cfg.eCallRedialConfig ≠ .callOrig) : Rests cfg (DecodeSendMSD.onEnter cfg m) := by
  have hexit : ∀ {m'}, Tells m m' → onExit cfg m' = m' :=
    fun htells => onExit_of_decodeSendMSD (htells.currentState.trans hstate)
  have hne : ∀ (state : StateID) {m'}, Tells m m' → state ≠ .decodeSendMSD →
      m'.currentState ≠ some state := by
    intro state m' htells hstate' heq
    exact hstate' (Option.some.inj (heq.symm.trans (htells.currentState.trans hstate)))
  rw [DecodeSendMSD.onEnter, if_neg (not_not.mpr hng)]
  by_cases hmsd : cfg.isMsdTransmitted
  · rw [if_pos hmsd]
    extract_lets m₁ m₂
    have htells : Tells m m₂ := by
      unfold m₂ m₁
      split_ifs
      · exact (Tells.refl m).request _
      · exact ((Tells.refl m).request _).request _
    have hstarted₂ : m₂.started = true := htells.started.trans hstarted
    split_ifs with hdrop
    · have htells' := htells.request (.msdTransmissionStatus .outbandFailure)
      refine Calm.psapCallback ?_ hstarted₂ (hne _ htells' nofun)
      rw [show onExit cfg (m₂.msdTransmissionStatus .outbandFailure) = _ from hexit htells']
      exact h.tells htells'
    · rw [changeState_eq hstarted₂ (hne .decodeMSD htells nofun), hexit htells]
      have hcalm := h.tells htells
      exact Calm.decodeMSD hcalm hstarted₂ rfl horig fun hcs => absurd hng hcs
  · rw [if_neg hmsd]
    have htells := (Tells.refl m).request (.changeCallState .active)
    refine Calm.callConversation (m := m.changeCallState .active) ?_ hstarted (hne _ htells nofun)
      horig
    rw [show onExit cfg (m.changeCallState .active) = _ from hexit htells]
    exact h.tells htells

theorem Calm.decodeSendMSD_of_not_isMsdTransmitted (h : Calm cfg m.status) (hstops : Stops cfg)
    (hcs : ¬ cfg.isNGeCall) (hmsd : ¬ cfg.isMsdTransmitted) (hstarted : m.started = true)
    (hstate : m.currentState = some .decodeSendMSD) (horig : cfg.eCallRedialConfig ≠ .callOrig)
    (halack : m.eventId = .msdPullRequestFromPsap → ¬ cfg.isALACKConfigEnabled) :
    Rests cfg (DecodeSendMSD.onEnter cfg m) := by
  rw [DecodeSendMSD.onEnter, if_pos hcs, if_neg hmsd]
  extract_lets m₁
  by_cases hpull : ¬ cfg.isCustomNumbereCall ∧ m.eventId = .msdPullRequestFromPsap
  · -- The chain through the check ends in the conversation, where the state change that follows
    -- it finds the machine.
    have hfailures := ((hstops.pull horig hcs hmsd).resolve_left hpull.1).resolve_left
      (halack hpull.2)
    have hrests : Rests cfg m₁ := by
      unfold m₁
      rw [if_pos hpull]
      exact Calm.toCrcCheckOnMSD h hstarted hstate horig
        (fun _ h6 => absurd h6 hfailures.1) hfailures.2
    exact (hrests.tells ((Tells.refl m₁).request _)).callConversation horig
  · have heq : m₁ = m := if_neg hpull
    rw [heq]
    refine Calm.callConversation ?_ hstarted ?_ horig
    · rw [show onExit cfg (m.changeCallState .active) = _ from onExit_of_decodeSendMSD hstate]
      exact h
    · rw [show (m.changeCallState .active).currentState = _ from hstate]
      nofun

/-- The MSD is sent during call setup, and T5 is stopped before it is checked. -/
theorem Calm.decodeSendMSD_of_isMsdTransmitted (h : Calm cfg (m.status.sendEvent .t5 .stop))
    (hstops : Stops cfg) (hcs : ¬ cfg.isNGeCall) (hmsd : cfg.isMsdTransmitted)
    (hstarted : m.started = true) (hstate : m.currentState = some .decodeSendMSD)
    (horig : cfg.eCallRedialConfig ≠ .callOrig) (hsetUp : m.eventId = .none) :
    Rests cfg (DecodeSendMSD.onEnter cfg m) := by
  obtain ⟨hsuccess, h5, h7, h6⟩ := hstops.transmission horig hcs hmsd
  rw [DecodeSendMSD.onEnter, if_pos hcs, if_pos hmsd, if_neg (by rw [hsetUp]; nofun)]
  dsimp only
  rw [if_pos ⟨h5, hsuccess⟩]
  exact Calm.toCrcCheckOnMSD h hstarted hstate horig (fun _ => h6) h7

/-- The MSD is sent again for a pull request. -/
theorem Calm.decodeSendMSD_of_pull (h : Calm cfg m.status) (hstops : Stops cfg)
    (hcs : ¬ cfg.isNGeCall) (hmsd : cfg.isMsdTransmitted) (hstarted : m.started = true)
    (hstate : m.currentState = some .decodeSendMSD) (horig : cfg.eCallRedialConfig ≠ .callOrig)
    (hpull : m.eventId = .msdPullRequestFromPsap) : Rests cfg (DecodeSendMSD.onEnter cfg m) := by
  obtain ⟨-, -, h7, h6⟩ := hstops.transmission horig hcs hmsd
  rw [DecodeSendMSD.onEnter, if_pos hcs, if_pos hmsd, if_pos hpull]
  exact Calm.toCrcCheckOnMSD h hstarted hstate horig (fun _ => h6) h7

theorem Calm.startTimer {st : HlapStatus} (h : Calm cfg st)
    (horig : cfg.eCallRedialConfig ≠ .callOrig) : Calm cfg (st.startTimer .t2) where
  t2 hcall := absurd hcall horig
  t5 := by simpa [HlapStatus.startTimer_of_ne] using h.t5
  t6 := by simpa [HlapStatus.startTimer_of_ne] using h.t6
  t7 := by simpa [HlapStatus.startTimer_of_ne] using h.t7

/-- Call setup starts T2, and T5 if the MSD is sent over CS. -/
theorem Stops.rests_of_setUp (hstops : Stops cfg) {st : HlapStatus} (h : Calm cfg st)
    (hsetUp : SetUp cfg st m) (horig : cfg.eCallRedialConfig ≠ .callOrig) :
    Rests cfg (DecodeSendMSD.onEnter cfg m) := by
  have hcalm := h.startTimer horig
  have hstatus := hsetUp.status
  by_cases hsends : ¬ cfg.isNGeCall ∧ cfg.isMsdTransmitted
  · obtain ⟨hsuccess, h5, -, -⟩ := hstops.transmission horig hsends.1 hsends.2
    rw [if_pos hsends, if_pos ⟨h5, by rw [hsuccess]; nofun⟩] at hstatus
    refine Calm.decodeSendMSD_of_isMsdTransmitted ?_ hstops hsends.1 hsends.2 hsetUp.started
      hsetUp.currentState horig hsetUp.eventId
    rw [hstatus, HlapStatus.sendEvent_start_stop]
    exact hcalm.update .t5
  · rw [if_neg hsends] at hstatus
    rw [← hstatus] at hcalm
    by_cases hng : cfg.isNGeCall
    · exact Calm.decodeSendMSD_of_isNGeCall hcalm hng hsetUp.started hsetUp.currentState horig
    · refine Calm.decodeSendMSD_of_not_isMsdTransmitted hcalm hstops hng
        (fun hmsd => hsends ⟨hng, hmsd⟩) hsetUp.started hsetUp.currentState horig fun hpull => ?_
      exact absurd (hsetUp.eventId.symm.trans hpull) nofun

theorem Stops.rests_start (hstops : Stops cfg) {st : HlapStatus} (h : Quiet st) (mode : ECallMode) :
    Rests cfg (start cfg st mode) := by
  have hcalm : Calm cfg st := ⟨fun _ => h .t2 (by simp), h .t5 (by simp), h .t6 (by simp),
    h .t7 (by simp)⟩
  by_cases horig : cfg.eCallRedialConfig = .callOrig
  · obtain ⟨m, hstart, hstate, hstarted, hstatus⟩ := exists_start_eq_of_callOrig st mode horig
    have hexit : onExit cfg m = m := by
      rw [onExit, hstate]
      exact if_neg fun hcs => hstops.origination horig hcs.1 hcs.2
    rw [hstart]
    exact Calm.psapCallback (by rw [hexit, hstatus]; exact hcalm) hstarted
      (currentState_ne hstate _ nofun)
  · obtain ⟨m, hsetUp, hstart⟩ := exists_start_eq st mode horig
    rw [hstart]
    exact hstops.rests_of_setUp hcalm hsetUp horig

/-! ## Events -/

theorem Rests.psapCallback (h : Rests cfg m) (hne : m.currentState ≠ some .psapCallback) :
    Rests cfg (changeState cfg m .psapCallback (PSAPCallback.onEnter cfg)) :=
  Calm.psapCallback (h.onExit_eq.symm ▸ h.calm) h.started hne

theorem Rests.pull (h : Rests cfg m) (hstops : Stops cfg)
    (hstate : m.currentState = some .callConversation) :
    Rests cfg (changeState cfg m.beginUpdate .decodeSendMSD (DecodeSendMSD.onEnter cfg)) := by
  obtain ⟨horig, halack⟩ := h.conversed hstate
  have hstate' : m.beginUpdate.currentState = some .callConversation := hstate
  have hstarted : m.beginUpdate.started = true := h.started
  have hexit : onExit cfg m.beginUpdate = m.beginUpdate := by
    apply onExit_of_ne <;> rw [hstate'] <;> nofun
  rw [changeState_eq hstarted (currentState_ne hstate' .decodeSendMSD nofun), hexit]
  have hcalm : Calm cfg m.beginUpdate.status := h.calm
  by_cases hng : cfg.isNGeCall
  · exact Calm.decodeSendMSD_of_isNGeCall hcalm hng hstarted rfl horig
  · by_cases hmsd : cfg.isMsdTransmitted
    · exact Calm.decodeSendMSD_of_pull hcalm hstops hng hmsd hstarted rfl horig rfl
    · exact Calm.decodeSendMSD_of_not_isMsdTransmitted hcalm hstops hng hmsd hstarted rfl horig
        fun _ => halack

theorem Rests.onEvent_callConversation (h : Rests cfg m) (hstops : Stops cfg)
    (hstate : m.currentState = some .callConversation) (event : TelEvent) :
    Rests cfg (CallConversation.onEvent cfg m event) := by
  have hne : m.currentState ≠ some .psapCallback := by
    rw [hstate]
    nofun
  cases event with
  | hangupRequestFromUser => exact h.psapCallback hne
  | hangupRequestFromPsap => exact h.psapCallback hne
  | msdPullRequestFromPsap name =>
    cases name with
    | csECall => exact h.pull hstops hstate
    | ngECall =>
      -- Only the requests, the event and the flag change.
      unfold CallConversation.onEvent
      dsimp only
      split_ifs <;> exact ⟨h.calm, h.ended, h.setUp, h.conversed, h.decoded, h.started⟩
  | onTimerExpiry timer =>
    cases timer with
    | t2 => exact Rests.psapCallback ((h.update .t2).tells ((Tells.refl _).request _)) hne
    | _ => exact h
  | onNetworkDeregistrationRequest => exact h

theorem Rests.onEvent_decodeMSD (h : Rests cfg m) (hstate : m.currentState = some .decodeMSD)
    (event : TelEvent) : Rests cfg (DecodeMSD.onEvent cfg m event) := by
  unfold DecodeMSD.onEvent
  extract_lets m₁ m₂ m₃
  have h₁ : Rests cfg m₁ := by
    unfold m₁
    split_ifs with hexpired
    · exact Rests.callConversation ((h.update .t6).tells ((Tells.refl _).request _))
        (h.decoded hstate)
    · exact h
  split_ifs with hhangup
  · have hm₁ : m₁ = m := by
      apply if_neg
      rintro ⟨-, -, rfl⟩
      cases hhangup
    have h₃ : Rests cfg m₃ ∧ m₃.currentState = some .decodeMSD := by
      unfold m₃ m₂
      rw [hm₁]
      split_ifs
      · exact ⟨(h.tells ((Tells.refl m).request _)).update .t2, hstate⟩
      · exact ⟨h.tells ((Tells.refl m).request _), hstate⟩
    apply h₃.1.psapCallback
    rw [h₃.2]
    nofun
  · exact h₁

theorem Rests.onEvent_psapCallback (h : Rests cfg m) (event : TelEvent) :
    (PSAPCallback.onEvent cfg m event).currentState = none ∨
      Rests cfg (PSAPCallback.onEvent cfg m event) := by
  unfold PSAPCallback.onEvent
  split
  · split_ifs
    · exact .inl rfl
    · exact .inr h
  · dsimp only
    split_ifs
    · exact .inl rfl
    · exact .inr (h.update .t10)
  · exact .inr (h.update .t10)
  · exact .inr h

theorem Rests.onEvent_modemRedial (h : Rests cfg m) (event : TelEvent) :
    Rests cfg (ModemRedial.onEvent m event) := by
  unfold ModemRedial.onEvent
  split
  · exact h.update .t9
  · exact h.update .t10
  · exact h

theorem Rests.onEvent (h : Rests cfg m) (hstops : Stops cfg) (event : TelEvent) :
    (onEvent cfg m event).currentState = none ∨ Rests cfg (onEvent cfg m event) := by
  unfold EcallStateMachine.onEvent
  split
  case h_1 hstate => exact absurd hstate h.setUp.1
  case h_2 hstate => exact .inr (h.onEvent_modemRedial event)
  case h_3 hstate => exact absurd hstate h.setUp.2.1
  case h_4 hstate => exact absurd hstate h.setUp.2.2
  case h_5 hstate => exact .inr (h.onEvent_decodeMSD hstate event)
  case h_6 hstate => exact h.onEvent_psapCallback event
  case h_7 hstate => exact .inr (h.onEvent_callConversation hstops hstate event)
  case h_8 hstate => exact .inl hstate

/-- A machine that was stopped, or one that rests with its timers stopped. -/
def Settles (cfg : EcallConfig) (m : EcallStateMachine) : Prop :=
  m.currentState = none ∨ Rests cfg m

theorem Settles.endsQuiet (h : Settles cfg m) : EndsQuiet m := by
  rcases h with hnone | hrests
  · rintro (hstate | hstate) <;> rw [hnone] at hstate <;> cases hstate
  · exact hrests.endsQuiet

theorem Settles.onEvent (h : Settles cfg m) (hstops : Stops cfg) (event : TelEvent) :
    Settles cfg (onEvent cfg m event) := by
  rcases h with hnone | hrests
  · have heq : EcallStateMachine.onEvent cfg m event = m := by
      rw [EcallStateMachine.onEvent, hnone]
    exact heq.symm ▸ .inl hnone
  · exact hrests.onEvent hstops event

theorem Settles.step (h : Settles cfg m) (hstops : Stops cfg) (e : Input) :
    Settles cfg (step cfg m e) := by
  cases e with
  | wake timer =>
    unfold EcallStateMachine.step
    dsimp only
    split_ifs
    · refine Settles.onEvent ?_ hstops _
      exact h.imp id fun hrests => hrests.update timer
    · exact h
  | hangupFromUser => exact h.onEvent hstops _
  | hangupFromPsap => exact h.onEvent hstops _
  | msdPull name => exact h.onEvent hstops _
  | requestNetworkDeregistration =>
    unfold EcallStateMachine.step
    dsimp only
    split_ifs
    · exact h.onEvent hstops _
    · exact h
  | setECallOperatingMode mode =>
    exact h.imp id fun hrests => ⟨hrests.calm, hrests.ended, hrests.setUp, hrests.conversed,
      hrests.decoded, hrests.started⟩

theorem Settles.run (h : Settles cfg m) (hstops : Stops cfg) (es : List Input) :
    Settles cfg (es.foldl (EcallStateMachine.step cfg) m) := by
  induction es generalizing m with
  | nil => exact h
  | cons e es ih => exact ih (h.step hstops e)

/-! ## Timers that are left active -/

/-- The machine rests in a state of the call with a timer active. -/
structure Waits (m : EcallStateMachine) (state : StateID) (timer : HlapTimer) : Prop where
  currentState : m.currentState = some state
  started : m.started = true
  active : m.status timer = .active

theorem not_endsQuiet_of_ends {m' : EcallStateMachine} {timer : HlapTimer} (hends : Ends cfg m m')
    (htimer : timer ∈ [HlapTimer.t5, .t6, .t7]) (hactive : m.status timer = .active) :
    ¬ EndsQuiet m' := by
  intro hquiet
  have hne : timer ≠ .t2 ∧ timer ≠ .t9 ∧ timer ≠ .t10 := by
    refine ⟨?_, ?_, ?_⟩ <;> rintro rfl <;> simp at htimer
  have hkeeps := hends.status timer hne.1 hne.2.1 hne.2.2
  exact hquiet hends.currentState timer (List.mem_cons_of_mem _ htimer) (hkeeps.trans hactive)

theorem DecodeSendMSD.onEvent_hangup :
    DecodeSendMSD.onEvent cfg m .hangupRequestFromUser = hangup cfg m := by
  simp [DecodeSendMSD.onEvent, isHangup]

theorem DecodeMSD.onEvent_hangup :
    DecodeMSD.onEvent cfg m .hangupRequestFromUser =
      changeState cfg
        (if cfg.isCustomNumbereCall ∧ cfg.isNGeCall then m.changeCallState .ended
          else (m.changeCallState .ended).sendEvent .t2 .stop)
        .psapCallback (PSAPCallback.onEnter cfg) := by
  cases hcustom : cfg.isCustomNumbereCall <;> cases hng : cfg.isNGeCall <;>
    simp [DecodeMSD.onEvent, isHangup, hcustom, hng]

attribute [local simp] startTimer sendEvent expiryTimer request changeCallState onECallRedial
  msdTransmissionStatus setUpdateInProgress beginUpdate changeState onExit

variable {st : HlapStatus}

theorem SetUp.waits_t5 (h : SetUp cfg st m) (hcs : ¬ cfg.isNGeCall) (hmsd : cfg.isMsdTransmitted)
    (hwaits : ¬ (¬ cfg.parseVectortoString .t5Failed ∧ cfg.eCallRedialConfig = .success)) :
    Waits (DecodeSendMSD.onEnter cfg m) .decodeSendMSD .t5 := by
  have hactive : m.status .t5 = .active := by
    rw [h.status, if_pos ⟨hcs, hmsd⟩]
    split_ifs <;> simp
  rw [DecodeSendMSD.onEnter, if_pos hcs, if_pos hmsd, if_neg (by rw [h.eventId]; nofun),
    if_neg hwaits]
  exact ⟨h.currentState, h.started, hactive⟩

theorem SetUp.waits_t7 (h : SetUp cfg st m) (hcs : ¬ cfg.isNGeCall) (hmsd : cfg.isMsdTransmitted)
    (h5 : ¬ cfg.parseVectortoString .t5Failed) (hsuccess : cfg.eCallRedialConfig = .success)
    (h7 : cfg.parseVectortoString .t7Failed) :
    Waits (DecodeSendMSD.onEnter cfg m) .crcCheckOnMSD .t7 := by
  constructor <;> simp [DecodeSendMSD.onEnter, CRCCheckonMSD.onEnter, hcs, hmsd, h.eventId,
    h.currentState, h.started, h5, hsuccess, h7]

theorem SetUp.waits_t6 (h : SetUp cfg st m) (hcs : ¬ cfg.isNGeCall) (hmsd : cfg.isMsdTransmitted)
    (h5 : ¬ cfg.parseVectortoString .t5Failed) (hsuccess : cfg.eCallRedialConfig = .success)
    (h7 : ¬ cfg.parseVectortoString .t7Failed) (h6 : cfg.parseVectortoString .t6Failed)
    (hcustom : ¬ cfg.isCustomNumbereCall) :
    Waits (DecodeSendMSD.onEnter cfg m) .decodeMSD .t6 := by
  constructor <;> simp [DecodeSendMSD.onEnter, CRCCheckonMSD.onEnter, CRCCheckonMSD.onExit,
    DecodeMSD.onEnter, hcs, hmsd, h.eventId, h.currentState, h.started, h5, hsuccess, h7, h6,
    hcustom]

/-- The states of a call that is going on. A failing T7 is not stopped when the check is left. -/
def Ongoing (cfg : EcallConfig) (state : StateID) : Prop :=
  state = .decodeSendMSD ∨ state = .crcCheckOnMSD ∧ cfg.parseVectortoString .t7Failed ∨
    state = .decodeMSD ∨ state = .callConversation

theorem Waits.ends {state : StateID} {timer : HlapTimer} (h : Waits m state timer)
    (hongoing : Ongoing cfg state) (htimer : timer ∈ [HlapTimer.t5, .t6, .t7]) :
    ¬ EndsQuiet (changeState cfg m .psapCallback (PSAPCallback.onEnter cfg)) := by
  have hexit : onExit cfg m = m := by
    rw [onExit, h.currentState]
    rcases hongoing with rfl | ⟨rfl, h7⟩ | rfl | rfl
    · rfl
    · exact if_neg (not_not.mpr h7)
    · rfl
    · rfl
  have hne : m.currentState ≠ some .psapCallback := by
    rw [h.currentState]
    rcases hongoing with rfl | ⟨rfl, -⟩ | rfl | rfl <;> nofun
  exact not_endsQuiet_of_ends (hexit ▸ ends_changeState h.started hne) htimer h.active

theorem Waits.sendEvent {state : StateID} {timer : HlapTimer} (h : Waits m state timer)
    (htimer : timer ∈ [HlapTimer.t5, .t6, .t7]) :
    Waits ((m.changeCallState .ended).sendEvent .t2 .stop) state timer := by
  have hne : timer ≠ .t2 := by
    rintro rfl
    simp at htimer
  exact ⟨h.currentState, h.started, (HlapStatus.sendEvent_of_ne m.status hne .stop).trans h.active⟩

/-- A hangup leaves a timer active for which the machine waits. -/
theorem Waits.hangup {state : StateID} {timer : HlapTimer} (h : Waits m state timer)
    (hongoing : Ongoing cfg state) (htimer : timer ∈ [HlapTimer.t5, .t6, .t7]) :
    ¬ EndsQuiet (step cfg m .hangupFromUser) := by
  have hstopped := (h.sendEvent htimer).ends hongoing htimer
  have hdecoded : Waits (m.changeCallState .ended) state timer :=
    ⟨h.currentState, h.started, h.active⟩
  rw [step, onEvent, h.currentState]
  rcases hongoing with rfl | ⟨rfl, h7⟩ | rfl | rfl
  · show ¬ EndsQuiet (DecodeSendMSD.onEvent cfg m .hangupRequestFromUser)
    rw [DecodeSendMSD.onEvent_hangup]
    exact hstopped
  · exact hstopped
  · show ¬ EndsQuiet (DecodeMSD.onEvent cfg m .hangupRequestFromUser)
    rw [DecodeMSD.onEvent_hangup]
    split_ifs
    · exact hdecoded.ends (.inr (.inr (.inl rfl))) htimer
    · exact hstopped
  · exact h.ends (.inr (.inr (.inr rfl))) htimer

/-- A call without an MSD over CS is in conversation, and a pull request then waits for a failing
timer in vain. -/
theorem SetUp.waits_pull (h : SetUp cfg st m) (hcs : ¬ cfg.isNGeCall)
    (hmsd : ¬ cfg.isMsdTransmitted) (hcustom : ¬ cfg.isCustomNumbereCall)
    (halack : ¬ cfg.isALACKConfigEnabled)
    (hfailed : cfg.parseVectortoString .t6Failed ∨ cfg.parseVectortoString .t7Failed) :
    ∃ timer ∈ [HlapTimer.t5, .t6, .t7],
      Waits (step cfg (DecodeSendMSD.onEnter cfg m) (.msdPull .csECall)) .callConversation timer := by
  by_cases h7 : cfg.parseVectortoString .t7Failed
  · refine ⟨.t7, by simp, ?_⟩
    constructor <;> simp [step, onEvent, CallConversation.onEvent, DecodeSendMSD.onEnter,
      CRCCheckonMSD.onEnter, CRCCheckonMSD.onExit, CallConversation.onEnter, hcs, hmsd, h.eventId,
      h.currentState, h.started, h7, hcustom, halack]
  · have h6 := hfailed.resolve_right h7
    refine ⟨.t6, by simp, ?_⟩
    constructor <;> simp [step, onEvent, CallConversation.onEvent, DecodeSendMSD.onEnter,
      CRCCheckonMSD.onEnter, CRCCheckonMSD.onExit, DecodeMSD.onEnter, CallConversation.onEnter, hcs,
      hmsd, h.eventId, h.currentState, h.started, h7, h6, hcustom, halack]

/-- A call over CS whose origination fails starts T5 when it leaves call setup. -/
theorem not_endsQuiet_of_callOrig (st : HlapStatus) (mode : ECallMode)
    (horig : cfg.eCallRedialConfig = .callOrig) (hcs : ¬ cfg.isNGeCall)
    (hmsd : cfg.isMsdTransmitted) : ¬ EndsQuiet (start cfg st mode) := by
  obtain ⟨m, hstart, hstate, hstarted, -⟩ := exists_start_eq_of_callOrig st mode horig
  have hends : Ends cfg (onExit cfg m) (start cfg st mode) :=
    hstart ▸ ends_changeState hstarted (currentState_ne hstate _ nofun)
  have hactive : (onExit cfg m).status .t5 = .active := by
    rw [onExit, hstate]
    dsimp only
    rw [CallConnect.onExit, if_pos ⟨hcs, hmsd⟩]
    split_ifs <;> simp
  exact not_endsQuiet_of_ends hends (by simp) hactive

/-- The timers of the call phase are stopped in every run that starts with none of them active,
exactly for the configurations that `Stops` describes. -/
theorem endsQuiet_iff_stops (cfg : EcallConfig) :
    (∀ st, Quiet st → ∀ (mode : ECallMode) (es : List Input),
      EndsQuiet (es.foldl (step cfg) (start cfg st mode))) ↔ Stops cfg := by
  constructor
  · intro hall
    have hquiet : Quiet fun _ => .inactive := fun _ _ => nofun
    have hruns := hall _ hquiet .normal
    refine ⟨fun horig hcs hmsd => ?_, fun horig hcs hmsd => ?_, fun horig hcs hmsd => ?_⟩
    · exact not_endsQuiet_of_callOrig _ _ horig hcs hmsd (hruns [])
    all_goals
      obtain ⟨m, hsetUp, hstart⟩ := exists_start_eq (fun _ => .inactive) .normal horig
      rw [hstart] at hruns
    · have h5 : ¬ cfg.parseVectortoString .t5Failed ∧ cfg.eCallRedialConfig = .success := by
        by_contra hwaits
        exact (hsetUp.waits_t5 hcs hmsd hwaits).hangup (.inl rfl) (by simp)
          (hruns [.hangupFromUser])
      have h7 : ¬ cfg.parseVectortoString .t7Failed := fun h7 =>
        (hsetUp.waits_t7 hcs hmsd h5.1 h5.2 h7).hangup (.inr (.inl ⟨rfl, h7⟩)) (by simp)
          (hruns [.hangupFromUser])
      refine ⟨h5.2, h5.1, h7, fun h6 => ?_⟩
      by_contra hcustom
      exact (hsetUp.waits_t6 hcs hmsd h5.1 h5.2 h7 h6 hcustom).hangup (.inr (.inr (.inl rfl)))
        (by simp) (hruns [.hangupFromUser])
    · by_contra hnot
      push Not at hnot
      obtain ⟨hcustom, halack, hfailed⟩ := hnot
      obtain ⟨timer, htimer, hwaits⟩ := hsetUp.waits_pull hcs hmsd (by simpa using hcustom)
        (by simpa using halack) (by grind)
      exact hwaits.hangup (.inr (.inr (.inr rfl))) htimer
        (hruns [.msdPull .csECall, .hangupFromUser])
  · intro hstops st hquiet mode es
    exact (Settles.run (.inr (hstops.rests_start hquiet mode)) hstops es).endsQuiet

/-- A regulatory eCall over CS with its MSD, configured with a failing T7. -/
def failingT7 : EcallConfig where
  result := [.t7Failed]
  isMsdTransmitted := true
  isNGeCall := false
  isALACKConfigEnabled := false
  isCustomNumbereCall := false
  eCallRedialConfig := .success
  callOrigFailureTimeGap := []
  callDropTimeGap := []

/-- The user hangs up while T7 runs. -/
theorem not_endsQuiet_failingT7 :
    Quiet (fun _ => .inactive) ∧
      ¬ EndsQuiet ([Input.hangupFromUser].foldl (step failingT7)
        (start failingT7 (fun _ => .inactive) .normal)) := by
  refine ⟨fun _ _ => nofun, fun hquiet => ?_⟩
  exact hquiet (.inl rfl) .t7 (by decide) rfl

end EcallStateMachine

end Tel

end SatComm
