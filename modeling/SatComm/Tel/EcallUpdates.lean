import SatComm.Tel.EcallStateMachine

/-!
# Updates of the MSD

A pull request over CS raises `updateInProgress_`, and it is lowered when the decoding of the MSD
is acknowledged. Where the decoding is not reached, or its timer fails, the machine comes back to
the conversation with the flag raised, and every later request is refused.
`updatesFree_iff` says for which configurations this cannot happen.
-/

namespace SatComm

namespace Tel

namespace EcallStateMachine

/-- No update is in progress while the machine rests in the conversation. -/
def UpdatesFree (m : EcallStateMachine) : Prop :=
  m.currentState = some .callConversation → m.updateInProgress = false

variable (cfg : EcallConfig)

/-- The call is set up, and the sending of its MSD over CS does not wait for T5 in vain. -/
structure Reaches : Prop where
  origination : cfg.eCallRedialConfig ≠ .callOrig
  transmission : cfg.isMsdTransmitted → cfg.eCallRedialConfig ≠ .callDrop
  t5 : ¬ cfg.isNGeCall → cfg.isMsdTransmitted →
    cfg.eCallRedialConfig = .success ∨ cfg.parseVectortoString .t5Failed

/-- The machine can come to rest in the conversation. -/
structure Converses : Prop extends Reaches cfg where
  alack : ¬ cfg.isALACKConfigEnabled

/-- A pull request over CS ends with the flag lowered. -/
structure Lowers : Prop where
  transmitted : ¬ cfg.isNGeCall → cfg.isMsdTransmitted →
    ¬ cfg.parseVectortoString .t7Failed ∧
      (cfg.parseVectortoString .t6Failed → cfg.isCustomNumbereCall)
  notTransmitted : ¬ cfg.isNGeCall → ¬ cfg.isMsdTransmitted →
    ¬ cfg.isCustomNumbereCall ∧ ¬ cfg.parseVectortoString .t6Failed ∧
      ¬ cfg.parseVectortoString .t7Failed
  overIms : cfg.isNGeCall → cfg.isMsdTransmitted

/-- The flag is raised only where the machine does not go on to the conversation. -/
structure Free (m : EcallStateMachine) : Prop where
  started : m.started = true
  setUp : m.currentState ≠ some .callConnect
  conversed : m.currentState = some .callConversation →
    Converses cfg ∧ m.updateInProgress = false
  sending : m.currentState = some .decodeSendMSD →
    cfg.eCallRedialConfig ≠ .callOrig ∧ m.updateInProgress = false
  checking : m.currentState = some .crcCheckOnMSD → Reaches cfg ∧ m.updateInProgress = false
  decoding : m.currentState = some .decodeMSD →
    Reaches cfg ∧ (m.updateInProgress = false ∨ cfg.isCustomNumbereCall)

variable {cfg} {m : EcallStateMachine}

theorem Free.updatesFree (h : Free cfg m) : UpdatesFree m := fun hstate => (h.conversed hstate).2

theorem free_of_ends {m' : EcallStateMachine} (hends : Ends cfg m m') : Free cfg m' := by
  refine ⟨hends.started, ?_, ?_, ?_, ?_, ?_⟩ <;>
    rcases hends.currentState with hstate | hstate <;> rw [hstate] <;> nofun

theorem free_psapCallback (hstarted : m.started = true)
    (hne : m.currentState ≠ some .psapCallback) :
    Free cfg (changeState cfg m .psapCallback (PSAPCallback.onEnter cfg)) :=
  free_of_ends (ends_changeState hstarted hne)

/-! ## The chains of state changes -/

theorem free_callConversation (hreaches : Reaches cfg) (hflag : m.updateInProgress = false)
    (hstarted : m.started = true) (hne : m.currentState ≠ some .callConversation) :
    Free cfg (changeState cfg m .callConversation (CallConversation.onEnter cfg)) := by
  rw [changeState_eq hstarted hne, CallConversation.onEnter]
  split_ifs with halack
  · exact free_psapCallback (onExit_started.trans hstarted) nofun
  · refine ⟨onExit_started.trans hstarted, nofun, fun _ => ⟨⟨hreaches, halack⟩, ?_⟩, nofun, nofun,
      nofun⟩
    exact onExit_updateInProgress.trans hflag

theorem free_acknowledged (hreaches : Reaches cfg) (hstarted : m.started = true)
    (hstate : m.currentState = some .decodeMSD)
    (hflag : m.eventId = .msdPullRequestFromPsap ∨ m.updateInProgress = false) :
    Free cfg (DecodeMSD.acknowledged cfg m) := by
  have hne : m.currentState ≠ some .callConversation := currentState_ne hstate _ nofun
  unfold DecodeMSD.acknowledged
  split_ifs with hpull halack
  · exact free_callConversation hreaches rfl hstarted hne
  · exact free_callConversation hreaches (hflag.resolve_left hpull) hstarted hne
  · exact free_callConversation hreaches (hflag.resolve_left hpull) hstarted hne

theorem free_decodeMSD (hreaches : Reaches cfg) (hstarted : m.started = true)
    (hstate : m.currentState = some .decodeMSD)
    (hflag : m.eventId = .msdPullRequestFromPsap ∨ m.updateInProgress = false)
    (h6 : m.updateInProgress = false ∨ cfg.isNGeCall ∨
      (cfg.parseVectortoString .t6Failed → cfg.isCustomNumbereCall)) :
    Free cfg (DecodeMSD.onEnter cfg m) := by
  unfold DecodeMSD.onEnter
  split_ifs with hng hfailed hcustom
  · exact free_acknowledged hreaches hstarted hstate hflag
  · refine ⟨hstarted, ?_, ?_, ?_, ?_, fun _ => ⟨hreaches, .inr hcustom⟩⟩ <;> rw [hstate] <;> nofun
  · have hlowered : m.updateInProgress = false :=
      h6.resolve_right (not_or.mpr ⟨hng, fun h => hcustom (h hfailed)⟩)
    refine ⟨hstarted, ?_, ?_, ?_, ?_, fun _ => ⟨hreaches, .inl hlowered⟩⟩ <;>
      rw [show (m.startTimer .t6).currentState = _ from hstate] <;> nofun
  · exact free_acknowledged hreaches hstarted hstate hflag

theorem free_crcCheckOnMSD (hreaches : Reaches cfg) (hstarted : m.started = true)
    (hstate : m.currentState = some .crcCheckOnMSD)
    (hflag : m.eventId = .msdPullRequestFromPsap ∨ m.updateInProgress = false)
    (h7 : m.updateInProgress = false ∨ ¬ cfg.parseVectortoString .t7Failed)
    (h6 : m.updateInProgress = false ∨ cfg.isNGeCall ∨
      (cfg.parseVectortoString .t6Failed → cfg.isCustomNumbereCall)) :
    Free cfg (CRCCheckonMSD.onEnter cfg m) := by
  unfold CRCCheckonMSD.onEnter
  split_ifs with hfailed
  · have hlowered := h7.resolve_right (not_not.mpr hfailed)
    refine ⟨hstarted, ?_, ?_, ?_, fun _ => ⟨hreaches, hlowered⟩, ?_⟩ <;>
      rw [show (m.startTimer .t7).currentState = _ from hstate] <;> nofun
  · have hstarted' : (m.sendEvent .t7 .start).started = true := hstarted
    have hne : (m.sendEvent .t7 .start).currentState ≠ some .decodeMSD :=
      currentState_ne hstate _ nofun
    have heventId : (onExit cfg (m.sendEvent .t7 .start)).eventId = m.eventId := onExit_eventId
    have hupdate : (onExit cfg (m.sendEvent .t7 .start)).updateInProgress = m.updateInProgress :=
      onExit_updateInProgress
    rw [changeState_eq hstarted' hne]
    refine free_decodeMSD hreaches (onExit_started.trans hstarted) rfl ?_ ?_
    · exact heventId ▸ hupdate ▸ hflag
    · exact hupdate ▸ h6

theorem free_toCrcCheckOnMSD (hreaches : Reaches cfg) (hstarted : m.started = true)
    (hstate : m.currentState = some .decodeSendMSD)
    (hflag : m.eventId = .msdPullRequestFromPsap ∨ m.updateInProgress = false)
    (h7 : m.updateInProgress = false ∨ ¬ cfg.parseVectortoString .t7Failed)
    (h6 : m.updateInProgress = false ∨ cfg.isNGeCall ∨
      (cfg.parseVectortoString .t6Failed → cfg.isCustomNumbereCall)) :
    Free cfg (changeState cfg m .crcCheckOnMSD (CRCCheckonMSD.onEnter cfg)) := by
  have hexit : onExit cfg m = m :=
    onExit_of_ne (currentState_ne hstate _ nofun) (currentState_ne hstate _ nofun)
  rw [changeState_eq hstarted (currentState_ne hstate .crcCheckOnMSD nofun), hexit]
  exact free_crcCheckOnMSD hreaches hstarted rfl hflag h7 h6

theorem free_decodeSendMSD_of_isNGeCall (hng : cfg.isNGeCall) (hstarted : m.started = true)
    (hstate : m.currentState = some .decodeSendMSD)
    (horig : cfg.eCallRedialConfig ≠ .callOrig)
    (hflag : m.eventId = .msdPullRequestFromPsap ∨ m.updateInProgress = false)
    (hlowered : ¬ cfg.isMsdTransmitted → m.updateInProgress = false) :
    Free cfg (DecodeSendMSD.onEnter cfg m) := by
  unfold DecodeSendMSD.onEnter
  rw [if_neg (not_not.mpr hng)]
  by_cases hmsd : cfg.isMsdTransmitted
  · rw [if_pos hmsd]
    extract_lets m₁ m₂
    have htells : Tells m m₂ := by
      unfold m₂ m₁
      split_ifs
      · exact (Tells.refl m).request _
      · exact ((Tells.refl m).request _).request _
    have hstarted₂ : m₂.started = true := htells.started.trans hstarted
    have hstate₂ : m₂.currentState = some .decodeSendMSD := htells.currentState.trans hstate
    split_ifs with hdrop
    · exact free_psapCallback hstarted₂ (currentState_ne hstate₂ _ nofun)
    · have hreaches : Reaches cfg := ⟨horig, fun _ => hdrop, fun hcs => absurd hng hcs⟩
      have hexit : onExit cfg m₂ = m₂ :=
        onExit_of_ne (currentState_ne hstate₂ _ nofun) (currentState_ne hstate₂ _ nofun)
      rw [changeState_eq hstarted₂ (currentState_ne hstate₂ .decodeMSD nofun), hexit]
      have hflag₂ : m₂.eventId = .msdPullRequestFromPsap ∨ m₂.updateInProgress = false :=
        htells.eventId ▸ htells.updateInProgress ▸ hflag
      exact free_decodeMSD hreaches hstarted₂ rfl hflag₂ (.inr (.inl hng))
  · rw [if_neg hmsd]
    have hreaches : Reaches cfg := ⟨horig, fun h => absurd h hmsd, fun _ h => absurd h hmsd⟩
    exact free_callConversation (m := m.changeCallState .active) hreaches (hlowered hmsd) hstarted
      (currentState_ne hstate _ nofun)

/-- The flag is lowered at the start, and the sending that call setup begins leaves it so. -/
theorem SetUp.free {st : HlapStatus} (h : SetUp cfg st m)
    (horig : cfg.eCallRedialConfig ≠ .callOrig) : Free cfg (DecodeSendMSD.onEnter cfg m) := by
  have hsetUp : m.eventId ≠ .msdPullRequestFromPsap := by
    rw [h.eventId]
    nofun
  by_cases hng : cfg.isNGeCall
  · exact free_decodeSendMSD_of_isNGeCall hng h.started h.currentState horig
      (.inr h.updateInProgress) fun _ => h.updateInProgress
  · unfold DecodeSendMSD.onEnter
    rw [if_pos hng]
    by_cases hmsd : cfg.isMsdTransmitted
    · rw [if_pos hmsd, if_neg hsetUp]
      extract_lets m₁
      split_ifs with h5
      · have hreaches : Reaches cfg :=
          ⟨horig, fun _ => by rw [h5.2]; nofun, fun _ _ => .inl h5.2⟩
        exact free_toCrcCheckOnMSD hreaches h.started h.currentState (.inr h.updateInProgress)
          (.inl h.updateInProgress) (.inl h.updateInProgress)
      · refine ⟨h.started, ?_, ?_, fun _ => ⟨horig, h.updateInProgress⟩, ?_, ?_⟩ <;>
          rw [show m₁.currentState = _ from h.currentState] <;> nofun
    · rw [if_neg hmsd, if_neg fun hpull => hsetUp hpull.2]
      have hreaches : Reaches cfg := ⟨horig, fun h => absurd h hmsd, fun _ h => absurd h hmsd⟩
      exact free_callConversation (m := m.changeCallState .active) hreaches h.updateInProgress
        h.started (currentState_ne h.currentState _ nofun)

/-! ## Pull requests -/

/-- The chain of a pull request for a call without an MSD comes to rest in the conversation. -/
theorem pull_crcCheckOnMSD (hcs : ¬ cfg.isNGeCall) (h6 : ¬ cfg.parseVectortoString .t6Failed)
    (h7 : ¬ cfg.parseVectortoString .t7Failed) (halack : ¬ cfg.isALACKConfigEnabled)
    (hstarted : m.started = true) (hstate : m.currentState = some .decodeSendMSD)
    (hpull : m.eventId = .msdPullRequestFromPsap) :
    let m' := changeState cfg m .crcCheckOnMSD (CRCCheckonMSD.onEnter cfg)
    m'.currentState = some .callConversation ∧ m'.updateInProgress = false ∧
      m'.started = true := by
  simp [changeState, onExit, CRCCheckonMSD.onEnter, CRCCheckonMSD.onExit, DecodeMSD.onEnter,
    DecodeMSD.acknowledged, CallConversation.onEnter, sendEvent, msdTransmissionStatus, request,
    setUpdateInProgress, hcs, h6, h7, halack, hstarted, hstate, hpull]

theorem free_pull (hconverses : Converses cfg) (hlowers : Lowers cfg) (hstarted : m.started = true)
    (hstate : m.currentState = some .decodeSendMSD)
    (hpull : m.eventId = .msdPullRequestFromPsap) : Free cfg (DecodeSendMSD.onEnter cfg m) := by
  have hreaches := hconverses.toReaches
  by_cases hng : cfg.isNGeCall
  · exact free_decodeSendMSD_of_isNGeCall hng hstarted hstate hreaches.origination (.inl hpull)
      fun hmsd => absurd (hlowers.overIms hng) hmsd
  · unfold DecodeSendMSD.onEnter
    rw [if_pos hng]
    by_cases hmsd : cfg.isMsdTransmitted
    · obtain ⟨h7, h6⟩ := hlowers.transmitted hng hmsd
      rw [if_pos hmsd, if_pos hpull]
      exact free_toCrcCheckOnMSD hreaches hstarted hstate (.inl hpull) (.inr h7) (.inr (.inr h6))
    · obtain ⟨hcustom, h6, h7⟩ := hlowers.notTransmitted hng hmsd
      rw [if_neg hmsd, if_pos ⟨hcustom, hpull⟩]
      have hchain := pull_crcCheckOnMSD (m := m.msdTransmissionStatus .started) hng h6 h7
        hconverses.alack hstarted hstate hpull
      generalize changeState cfg _ .crcCheckOnMSD _ = m' at hchain ⊢
      obtain ⟨hstate', hflag, hstarted'⟩ := hchain
      rw [changeState_self (m := m'.changeCallState .active) hstate']
      refine ⟨hstarted', currentState_ne hstate' _ nofun, fun _ => ⟨hconverses, hflag⟩, ?_, ?_, ?_⟩ <;>
        exact fun h => absurd h (currentState_ne hstate' _ nofun)

/-! ## Events -/

theorem Free.psapCallback (h : Free cfg m) (hne : m.currentState ≠ some .psapCallback) :
    Free cfg (changeState cfg m .psapCallback (PSAPCallback.onEnter cfg)) :=
  free_psapCallback h.started hne

theorem Free.onEvent_callConversation (h : Free cfg m) (hlowers : Converses cfg → Lowers cfg)
    (hstate : m.currentState = some .callConversation) (event : TelEvent) :
    Free cfg (CallConversation.onEvent cfg m event) := by
  have hconverses := (h.conversed hstate).1
  have hne : m.currentState ≠ some .psapCallback := currentState_ne hstate _ nofun
  cases event with
  | hangupRequestFromUser => exact h.psapCallback hne
  | hangupRequestFromPsap => exact h.psapCallback hne
  | msdPullRequestFromPsap name =>
    cases name with
    | csECall =>
      have hexit : onExit cfg m.beginUpdate = m.beginUpdate :=
        onExit_of_ne (currentState_ne hstate _ nofun) (currentState_ne hstate _ nofun)
      show Free cfg (changeState cfg m.beginUpdate .decodeSendMSD (DecodeSendMSD.onEnter cfg))
      rw [changeState_eq (m := m.beginUpdate) h.started
        (currentState_ne hstate .decodeSendMSD nofun), hexit]
      exact free_pull hconverses (hlowers hconverses) h.started rfl rfl
    | ngECall =>
      have hother : ∀ state : StateID, state ≠ .callConversation → m.currentState ≠ some state :=
        fun state hne => currentState_ne hstate state hne.symm
      unfold CallConversation.onEvent
      dsimp only
      split_ifs
      all_goals
        exact ⟨h.started, h.setUp, fun _ => ⟨hconverses, rfl⟩,
          fun heq => absurd heq (hother _ nofun), fun heq => absurd heq (hother _ nofun),
          fun heq => absurd heq (hother _ nofun)⟩
  | onTimerExpiry timer =>
    cases timer with
    | t2 => exact free_psapCallback h.started hne
    | _ => exact h
  | onNetworkDeregistrationRequest => exact h

theorem Free.onEvent_decodeSendMSD (h : Free cfg m)
    (hstate : m.currentState = some .decodeSendMSD) (event : TelEvent) :
    Free cfg (DecodeSendMSD.onEvent cfg m event) := by
  obtain ⟨horig, hflag⟩ := h.sending hstate
  unfold DecodeSendMSD.onEvent
  extract_lets m₁ m₂
  by_cases hexpired : (cfg.parseVectortoString .t5Failed ∨ cfg.eCallRedialConfig = .callDrop) ∧
      event = .onTimerExpiry .t5
  · -- A hangup is not an expiry.
    have hhangup : isHangup event = false := by
      rw [hexpired.2]
      rfl
    rw [hhangup, if_neg nofun]
    unfold m₂
    rw [if_pos hexpired]
    split_ifs with hdrop
    · exact free_psapCallback (m := m₁) h.started (currentState_ne hstate _ nofun)
    · have hreaches : Reaches cfg := ⟨horig, fun _ => hdrop,
        fun _ _ => .inr (hexpired.1.resolve_right hdrop)⟩
      exact free_callConversation (m := m₁) hreaches hflag h.started
        (currentState_ne hstate _ nofun)
  · unfold m₂
    rw [if_neg hexpired]
    split_ifs
    · exact free_psapCallback h.started (currentState_ne hstate _ nofun)
    · exact h

theorem Free.onEvent_crcCheckOnMSD (h : Free cfg m)
    (hstate : m.currentState = some .crcCheckOnMSD) (event : TelEvent) :
    Free cfg (CRCCheckonMSD.onEvent cfg m event) := by
  obtain ⟨hreaches, hflag⟩ := h.checking hstate
  have hne := fun state => currentState_ne hstate state
  cases event with
  | onTimerExpiry timer =>
    cases timer with
    | t7 =>
      show Free cfg (changeState cfg (EcallStateMachine.msdTransmissionStatus _ _) _ _)
      exact free_callConversation hreaches hflag h.started (hne _ nofun)
    | _ => exact h
  | hangupRequestFromUser => exact free_psapCallback h.started (hne _ nofun)
  | hangupRequestFromPsap => exact free_psapCallback h.started (hne _ nofun)
  | msdPullRequestFromPsap name => exact h
  | onNetworkDeregistrationRequest => exact h

theorem Free.onEvent_decodeMSD (h : Free cfg m) (hstate : m.currentState = some .decodeMSD)
    (event : TelEvent) : Free cfg (DecodeMSD.onEvent cfg m event) := by
  obtain ⟨hreaches, hflag⟩ := h.decoding hstate
  unfold DecodeMSD.onEvent
  extract_lets m₁ m₂ m₃
  have h₁ : Free cfg m₁ := by
    unfold m₁
    split_ifs with hexpired
    · exact free_callConversation (m := (m.expiryTimer .t6).msdTransmissionStatus .failure) hreaches
        (hflag.resolve_right hexpired.1) h.started (currentState_ne hstate _ nofun)
    · exact h
  split_ifs with hhangup
  · have hm₁ : m₁ = m := by
      apply if_neg
      rintro ⟨-, -, rfl⟩
      cases hhangup
    have h₃ : m₃.started = true ∧ m₃.currentState = some .decodeMSD := by
      unfold m₃ m₂
      rw [hm₁]
      split_ifs
      · exact ⟨h.started, hstate⟩
      · exact ⟨h.started, hstate⟩
    exact free_psapCallback h₃.1 (currentState_ne h₃.2 _ nofun)
  · exact h₁

/-- A machine that was stopped, or one whose flag is not stuck. -/
def Serves (cfg : EcallConfig) (m : EcallStateMachine) : Prop :=
  m.currentState = none ∨ Free cfg m

theorem Serves.updatesFree (h : Serves cfg m) : UpdatesFree m := by
  rcases h with hnone | hfree
  · intro hstate
    rw [hnone] at hstate
    cases hstate
  · exact hfree.updatesFree

theorem Free.withStatus (h : Free cfg m) (status : HlapStatus) :
    Free cfg { m with status := status } :=
  ⟨h.started, h.setUp, h.conversed, h.sending, h.checking, h.decoding⟩

theorem Free.onEvent_psapCallback (h : Free cfg m) (event : TelEvent) :
    Serves cfg (PSAPCallback.onEvent cfg m event) := by
  unfold PSAPCallback.onEvent
  split
  · split_ifs
    · exact .inl rfl
    · exact .inr h
  · dsimp only
    split_ifs
    · exact .inl rfl
    · exact .inr (h.withStatus _)
  · exact .inr (h.withStatus _)
  · exact .inr h

theorem Free.onEvent_modemRedial (h : Free cfg m) (event : TelEvent) :
    Free cfg (ModemRedial.onEvent m event) := by
  unfold ModemRedial.onEvent
  split
  · exact h.withStatus _
  · exact h.withStatus _
  · exact h

theorem Serves.onEvent (h : Serves cfg m) (hlowers : Converses cfg → Lowers cfg)
    (event : TelEvent) : Serves cfg (onEvent cfg m event) := by
  rcases h with hnone | hfree
  · have heq : EcallStateMachine.onEvent cfg m event = m := by
      rw [EcallStateMachine.onEvent, hnone]
    exact heq.symm ▸ .inl hnone
  · unfold EcallStateMachine.onEvent
    split
    case h_1 hstate => exact absurd hstate hfree.setUp
    case h_2 => exact .inr (hfree.onEvent_modemRedial event)
    case h_3 hstate => exact .inr (hfree.onEvent_decodeSendMSD hstate event)
    case h_4 hstate => exact .inr (hfree.onEvent_crcCheckOnMSD hstate event)
    case h_5 hstate => exact .inr (hfree.onEvent_decodeMSD hstate event)
    case h_6 => exact hfree.onEvent_psapCallback event
    case h_7 hstate => exact .inr (hfree.onEvent_callConversation hlowers hstate event)
    case h_8 hstate => exact .inl hstate

theorem Serves.step (h : Serves cfg m) (hlowers : Converses cfg → Lowers cfg) (e : Input) :
    Serves cfg (step cfg m e) := by
  cases e with
  | wake timer =>
    unfold EcallStateMachine.step
    dsimp only
    split_ifs
    · apply Serves.onEvent _ hlowers
      exact h.imp id fun hfree => hfree.withStatus _
    · exact h
  | hangupFromUser => exact h.onEvent hlowers _
  | hangupFromPsap => exact h.onEvent hlowers _
  | msdPull name => exact h.onEvent hlowers _
  | requestNetworkDeregistration =>
    unfold EcallStateMachine.step
    dsimp only
    split_ifs
    · exact h.onEvent hlowers _
    · exact h
  | setECallOperatingMode mode =>
    exact h.imp id fun hfree => ⟨hfree.started, hfree.setUp, hfree.conversed, hfree.sending,
      hfree.checking, hfree.decoding⟩

theorem Serves.run (h : Serves cfg m) (hlowers : Converses cfg → Lowers cfg) (es : List Input) :
    Serves cfg (es.foldl (EcallStateMachine.step cfg) m) := by
  induction es generalizing m with
  | nil => exact h
  | cons e es ih => exact ih (h.step hlowers e)

theorem serves_start (st : HlapStatus) (mode : ECallMode) : Serves cfg (start cfg st mode) := by
  by_cases horig : cfg.eCallRedialConfig = .callOrig
  · obtain ⟨m, hstart, hstate, hstarted, -⟩ := exists_start_eq_of_callOrig st mode horig
    rw [hstart]
    exact .inr (free_psapCallback hstarted (currentState_ne hstate _ nofun))
  · obtain ⟨m, hsetUp, hstart⟩ := exists_start_eq st mode horig
    rw [hstart]
    exact .inr (hsetUp.free horig)

/-! ## Flags that stay raised -/

/-- The machine is in conversation. -/
structure InConversation (m : EcallStateMachine) : Prop where
  currentState : m.currentState = some .callConversation
  started : m.started = true

attribute [local simp] startTimer sendEvent expiryTimer request changeCallState onECallRedial
  msdTransmissionStatus setUpdateInProgress beginUpdate changeState onExit step onEvent
  CallConversation.onEvent CallConversation.onEnter DecodeSendMSD.onEnter CRCCheckonMSD.onEnter
  CRCCheckonMSD.onExit CRCCheckonMSD.onEvent DecodeMSD.onEnter DecodeMSD.onEvent isHangup

variable {st : HlapStatus}

/-- Where the MSD is not sent with the call, call setup ends in the conversation. -/
theorem SetUp.inConversation (h : SetUp cfg st m) (halack : ¬ cfg.isALACKConfigEnabled)
    (hmsd : ¬ cfg.isMsdTransmitted) : InConversation (DecodeSendMSD.onEnter cfg m) := by
  by_cases hng : cfg.isNGeCall
  · constructor <;> simp [h.currentState, h.started, hng, hmsd, halack]
  · constructor <;> simp [h.currentState, h.started, h.eventId, hng, hmsd, halack]

theorem not_updatesFree (hstate : m.currentState = some .callConversation)
    (hflag : m.updateInProgress = true) : ¬ UpdatesFree m :=
  fun h => Bool.false_ne_true ((h hstate).symm.trans hflag)

/-- A request is answered with the flag left raised. -/
theorem InConversation.stuck (h : InConversation m) (halack : ¬ cfg.isALACKConfigEnabled)
    (hmsd : ¬ cfg.isMsdTransmitted)
    (hfails : cfg.isNGeCall ∨ cfg.isCustomNumbereCall ∨ cfg.parseVectortoString .t6Failed ∨
      cfg.parseVectortoString .t7Failed) :
    ¬ UpdatesFree (step cfg m (.msdPull .csECall)) := by
  by_cases hng : cfg.isNGeCall
  · apply not_updatesFree <;> simp [h.currentState, h.started, hng, hmsd, halack]
  by_cases hcustom : cfg.isCustomNumbereCall
  · apply not_updatesFree <;> simp [h.currentState, h.started, hng, hmsd, halack, hcustom]
  by_cases h7 : cfg.parseVectortoString .t7Failed
  · apply not_updatesFree <;> simp [h.currentState, h.started, hng, hmsd, halack, hcustom, h7]
  · have h6 := ((hfails.resolve_left hng).resolve_left hcustom).resolve_right h7
    apply not_updatesFree <;> simp [h.currentState, h.started, hng, hmsd, halack, hcustom, h7, h6]

/-- The decoding of the MSD waits for a timer that fails. -/
def Waiting (cfg : EcallConfig) : Prop :=
  cfg.parseVectortoString .t7Failed ∨
    cfg.parseVectortoString .t6Failed ∧ ¬ cfg.isCustomNumbereCall

/-- The timer for which the sending or the decoding waits expires, and the call is in
conversation. -/
theorem SetUp.exists_inConversation (h : SetUp cfg st m) (hconverses : Converses cfg)
    (hcs : ¬ cfg.isNGeCall) (hmsd : cfg.isMsdTransmitted) (hwaiting : Waiting cfg) :
    ∃ es : List Input, InConversation (es.foldl (step cfg) (DecodeSendMSD.onEnter cfg m)) := by
  have halack := hconverses.alack
  have hdrop := hconverses.transmission hmsd
  by_cases h5 : ¬ cfg.parseVectortoString .t5Failed ∧ cfg.eCallRedialConfig = .success
  · obtain ⟨h5, hsuccess⟩ := h5
    by_cases h7 : cfg.parseVectortoString .t7Failed
    · refine ⟨[.wake .t7], ?_⟩
      constructor <;> simp [h.currentState, h.started, h.eventId, hcs, hmsd, halack, h5, hsuccess, h7]
    · obtain ⟨h6, hcustom⟩ := hwaiting.resolve_left h7
      refine ⟨[.wake .t6], ?_⟩
      constructor <;> simp [h.currentState, h.started, h.eventId, hcs, hmsd, halack, h5, hsuccess, h7,
        h6, hcustom]
  · have hfails : cfg.parseVectortoString .t5Failed := by
      by_contra hnot
      exact h5 ⟨hnot, (hconverses.t5 hcs hmsd).resolve_right hnot⟩
    have hactive : m.status .t5 = .active := by
      rw [h.status, if_pos ⟨hcs, hmsd⟩, if_neg fun h => h.1 hfails]
      simp
    refine ⟨[.wake .t5], ?_⟩
    constructor <;> simp [DecodeSendMSD.onEvent, h.currentState, h.started, h.eventId, hcs, hmsd,
      halack, hdrop, hfails, hactive]

/-- The timer for which a request waits expires, and the flag is left raised. -/
theorem InConversation.exists_stuck (h : InConversation m) (halack : ¬ cfg.isALACKConfigEnabled)
    (hcs : ¬ cfg.isNGeCall) (hmsd : cfg.isMsdTransmitted) (hwaiting : Waiting cfg) :
    ∃ es : List Input, ¬ UpdatesFree (es.foldl (step cfg) m) := by
  by_cases h7 : cfg.parseVectortoString .t7Failed
  · refine ⟨[.msdPull .csECall, .wake .t7], ?_⟩
    apply not_updatesFree <;> simp [h.currentState, h.started, hcs, hmsd, halack, h7]
  · obtain ⟨h6, hcustom⟩ := hwaiting.resolve_left h7
    refine ⟨[.msdPull .csECall, .wake .t6], ?_⟩
    apply not_updatesFree <;> simp [h.currentState, h.started, hcs, hmsd, halack, h7, h6, hcustom]

/-- No update stays in progress in any run, exactly for the configurations with which the
conversation is not reached or every pull request lowers the flag. -/
theorem updatesFree_iff (cfg : EcallConfig) :
    (∀ (st : HlapStatus) (mode : ECallMode) (es : List Input),
      UpdatesFree (es.foldl (step cfg) (start cfg st mode))) ↔
      (Converses cfg → Lowers cfg) := by
  constructor
  · intro hall hconverses
    have hruns := hall (fun _ => .inactive) .normal
    obtain ⟨m, hsetUp, hstart⟩ :=
      exists_start_eq (fun _ => .inactive) .normal hconverses.origination
    rw [hstart] at hruns
    have htransmitted : ¬ cfg.isNGeCall → cfg.isMsdTransmitted → ¬ Waiting cfg := by
      intro hcs hmsd hwaiting
      obtain ⟨es, hes⟩ := hsetUp.exists_inConversation hconverses hcs hmsd hwaiting
      obtain ⟨es', hes'⟩ := hes.exists_stuck hconverses.alack hcs hmsd hwaiting
      have hrun := hruns (es ++ es')
      rw [List.foldl_append] at hrun
      exact hes' hrun
    have hpull : ¬ cfg.isMsdTransmitted → ¬ (cfg.isNGeCall ∨ cfg.isCustomNumbereCall ∨
        cfg.parseVectortoString .t6Failed ∨ cfg.parseVectortoString .t7Failed) := by
      intro hmsd hfails
      exact (hsetUp.inConversation hconverses.alack hmsd).stuck hconverses.alack hmsd hfails
        (hruns [.msdPull .csECall])
    refine ⟨fun hcs hmsd => ?_, fun _ hmsd => ?_, fun hng => ?_⟩
    · obtain ⟨h7, h6⟩ := not_or.mp (htransmitted hcs hmsd)
      exact ⟨h7, fun hfailed => not_not.mp fun hcustom => h6 ⟨hfailed, hcustom⟩⟩
    · obtain ⟨-, hcustom, h6, h7⟩ := by simpa only [not_or] using hpull hmsd
      exact ⟨hcustom, h6, h7⟩
    · by_contra hmsd
      exact hpull hmsd (.inl hng)
  · intro hlowers st mode es
    exact ((serves_start st mode).run hlowers es).updatesFree

/-- A custom number eCall over CS without an MSD. -/
def customNumberWithoutMsd : EcallConfig where
  result := [.success]
  isMsdTransmitted := false
  isNGeCall := false
  isALACKConfigEnabled := false
  isCustomNumbereCall := true
  eCallRedialConfig := .success
  callOrigFailureTimeGap := []
  callDropTimeGap := []

/-- The PSAP pulls the MSD once. -/
theorem not_updatesFree_customNumberWithoutMsd :
    ¬ UpdatesFree ([Input.msdPull .csECall].foldl (step customNumberWithoutMsd)
      (start customNumberWithoutMsd (fun _ => .inactive) .normal)) :=
  fun h => Bool.false_ne_true (h rfl).symm

end EcallStateMachine

end Tel

end SatComm
