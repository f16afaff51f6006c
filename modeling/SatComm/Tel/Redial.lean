import SatComm.Codes.Decimal
import SatComm.Tel.EcallStateMachine
import Mathlib.Algebra.Ring.Int.Defs

/-!
# The redial configuration

`ConfigureECallRedial` checks the time gaps for a cause and stores them as a text. The eCall state
machine reads the text twice when it redials: for the number of attempts, and for the time gaps,
which it sleeps through before the attempts. What is accepted is what the redialing sets out to do.
-/

namespace SatComm

namespace Tel

open Codes

/-! ## Configuration -/

/-- `RedialConfigType` of the request; `other` is what no case matches. -/
inductive RedialConfigType
  | callOrig | callDrop | other
deriving DecidableEq, Repr

/-- The time gaps are numbers of type `int`. -/
structure RedialRequest where
  config : RedialConfigType
  timeGap : List Int
  isInt : ∀ d ∈ timeGap, -2 ^ 31 ≤ d ∧ d < 2 ^ 31

/-- The object `eCallRedialTimeGap` in the state of the first slot. -/
structure RedialTimeGap where
  callOrigFailure : List Char
  callDrop : List Char
deriving DecidableEq, Repr

/-- The rest of the response is the same for every request. -/
inductive ConfigureReply (ε : Type)
  | internal (message : String)
  | requestNotSupported
  | configured (error : ε)
deriving DecidableEq, Repr

def isSpace (c : Char) : Bool := c = ' ' || (9 ≤ c.toNat && c.toNat ≤ 13)

def fitsInt (d : Int) : Bool := -2 ^ 31 ≤ d && d < 2 ^ 31

/-- `CommonUtils::convertIntVectorToString`. -/
def convertIntVectorToString (integers : List Int) : List Char :=
  integers.flatMap fun d => decimal d ++ [' ']

/-- `CommonUtils::convertStringToVector`. -/
def convertStringToVector (input : List Char) : List Int :=
  (numbers isSpace fitsInt).readAll input

def timeGapAsPer3gpp : List Int := [5000, 60000, 60000, 60000, 180000]

/-- The loop over the time gaps, from an index on. -/
def isTimeGapDataAsPer3gpp : Nat → List Int → Bool
  | _, [] => true
  | i, d :: data =>
    if i ≤ 4 ∧ d < timeGapAsPer3gpp.getD i 0 then false
    else if 5 ≤ i ∧ d < timeGapAsPer3gpp.getD 4 0 then false
    else isTimeGapDataAsPer3gpp (i + 1) data

/-- `CallManagerServerImpl::ConfigureECallRedial`; `error` is the configured response. -/
def configureECallRedial {ε : Type} (error : ε) (stored : RedialTimeGap) (request : RedialRequest) :
    ConfigureReply ε × RedialTimeGap :=
  let data := request.timeGap
  match request.config with
  | .callOrig =>
    if data.length < 1 ∨ 10 ≤ data.length then (.requestNotSupported, stored)
    else if isTimeGapDataAsPer3gpp 0 data then
      (.configured error, { stored with callOrigFailure := convertIntVectorToString data })
    else (.requestNotSupported, stored)
  | .callDrop =>
    if data.length < 1 ∨ 2 < data.length then (.requestNotSupported, stored)
    else if isTimeGapDataAsPer3gpp 0 data then
      (.configured error, { stored with callDrop := convertIntVectorToString data })
    else (.requestNotSupported, stored)
  | .other => (.internal " Incorrect redial config", stored)

/-! ## Redialing -/

/-- `EcallStateMachine::getConfiguredRedialParameters`. -/
def getConfiguredRedialParameters (stored : RedialTimeGap) : RedialConfig → List Int
  | .callOrig => convertStringToVector stored.callOrigFailure
  | .callDrop => convertStringToVector stored.callDrop
  | .success => []
  | .invalid => []

/-- `EcallStateMachine::getConfiguredRedialAttempts`, which reads the text for itself. -/
def getConfiguredRedialAttempts (stored : RedialTimeGap) : RedialConfig → Int
  | .callOrig => (convertStringToVector stored.callOrigFailure).length
  | .callDrop => (convertStringToVector stored.callDrop).length
  | .success => -1
  | .invalid => -1

/-- What `ModemRedial::onEnter` does; the timer is T10. -/
inductive RedialAct
  | sleepFor (milliseconds : Int)
  | sendEvent (request : TimerRequest)
  | startTimer
  | request (r : ServiceRequest)
deriving DecidableEq

section

variable (config : RedialConfig) (mode : ECallMode)

/-- What every turn of the loop but the last does behind the sleeping. -/
def dialAgain : List RedialAct :=
  (if mode = .eCallOnly ∧ config = .callOrig then [RedialAct.sendEvent .start] else []) ++
    ([RedialAct.request (.changeCallState .dialing), .sleepFor 1000] ++
      ((if config = .callOrig then
          RedialAct.request (.onECallRedial true .callOrigFailure) ::
            (if mode = .eCallOnly then [RedialAct.sendEvent .stop] else [])
        else [RedialAct.request (.onECallRedial true .callDrop)]) ++
        [RedialAct.sleepFor 1000, .request (.changeCallState .ended)]))

/-- What the last turn does. -/
def dialLast : List RedialAct :=
  [RedialAct.sleepFor 1000, .request (.changeCallState .dialing), .sleepFor 1000,
    .request (.onECallRedial false .maxRedialAttempted), .sleepFor 1000,
    .request (.changeCallState .ended)] ++
    (if mode = .eCallOnly then [RedialAct.startTimer] else [])

/-- A turn of the loop in `ModemRedial::onEnter`. -/
def dialRound (totalRedialAttempts : Int) (timeGap : List Int) (dialAttempts : Nat) :
    List RedialAct :=
  RedialAct.sleepFor (timeGap.getD (dialAttempts - 1) 0) ::
    ((if (dialAttempts : Int) < totalRedialAttempts then dialAgain config mode else []) ++
      (if (dialAttempts : Int) = totalRedialAttempts then dialLast mode else []))

/-- `ModemRedial::onEnter`. What is stored may have changed from the first reading to the second. -/
def redial (stored stored' : RedialTimeGap) : List RedialAct :=
  let totalRedialAttempts := getConfiguredRedialAttempts stored config
  let timeGap := getConfiguredRedialParameters stored' config
  (List.range' 1 totalRedialAttempts.toNat).flatMap
    (dialRound config mode totalRedialAttempts timeGap)

end

/-! ## What is accepted -/

/-- The least time gap that is accepted at a position. -/
def leastTimeGap (i : Nat) : Int := timeGapAsPer3gpp.getD (min i 4) 0

/-- The number of time gaps that a cause may have. -/
def mostTimeGaps : RedialConfigType → Nat
  | .callOrig => 9
  | .callDrop => 2
  | .other => 0

structure Accepted (request : RedialRequest) : Prop where
  nonempty : 1 ≤ request.timeGap.length
  within : request.timeGap.length ≤ mostTimeGaps request.config
  least : ∀ i d, request.timeGap[i]? = some d → leastTimeGap i ≤ d

theorem isTimeGapDataAsPer3gpp_iff (i : Nat) (data : List Int) :
    isTimeGapDataAsPer3gpp i data = true ↔ ∀ k d, data[k]? = some d → leastTimeGap (i + k) ≤ d := by
  induction data generalizing i with
  | nil => simp [isTimeGapDataAsPer3gpp]
  | cons d data ih =>
    have hleast : isTimeGapDataAsPer3gpp i (d :: data) = true ↔
        leastTimeGap i ≤ d ∧ isTimeGapDataAsPer3gpp (i + 1) data = true := by
      rw [isTimeGapDataAsPer3gpp, leastTimeGap]
      rcases le_or_gt i 4 with hle | hlt
      · rw [Nat.min_eq_left hle]
        have hfive : ¬5 ≤ i := by omega
        simp [hle, hfive]
      · rw [Nat.min_eq_right hlt.le]
        have hfour : ¬i ≤ 4 := by omega
        have hfive : 5 ≤ i := hlt
        simp [hfour, hfive]
    rw [hleast, ih]
    constructor
    · rintro ⟨hfirst, hrest⟩ k d' hk
      cases k with
      | zero =>
        obtain rfl := Option.some.inj hk
        exact hfirst
      | succ k =>
        rw [Nat.add_comm k, ← Nat.add_assoc]
        exact hrest k d' hk
    · intro hall
      refine ⟨hall 0 d rfl, fun k d' hk => ?_⟩
      rw [Nat.add_assoc, Nat.add_comm 1]
      exact hall (k + 1) d' hk

/-- The text for the cause of a request. -/
def RedialTimeGap.put (stored : RedialTimeGap) (text : List Char) : RedialConfigType → RedialTimeGap
  | .callOrig => { stored with callOrigFailure := text }
  | .callDrop => { stored with callDrop := text }
  | .other => stored

theorem config_ne_other {request : RedialRequest} (h : Accepted request) :
    request.config ≠ .other := by
  intro hother
  have hwithin := h.within
  rw [hother, mostTimeGaps] at hwithin
  exact absurd (h.nonempty.trans hwithin) (by decide)

theorem accepted_iff (request : RedialRequest) :
    Accepted request ↔ 1 ≤ request.timeGap.length ∧
      request.timeGap.length ≤ mostTimeGaps request.config ∧
        isTimeGapDataAsPer3gpp 0 request.timeGap = true := by
  rw [isTimeGapDataAsPer3gpp_iff]
  simp only [Nat.zero_add]
  exact ⟨fun h => ⟨h.nonempty, h.within, h.least⟩, fun h => ⟨h.1, h.2.1, h.2.2⟩⟩

section

variable {ε : Type} (error : ε) (stored : RedialTimeGap) {request : RedialRequest}

theorem configureECallRedial_of_accepted (h : Accepted request) :
    configureECallRedial error stored request =
      (.configured error, stored.put (convertIntVectorToString request.timeGap) request.config) := by
  obtain ⟨hnonempty, hwithin, hleast⟩ := (accepted_iff request).mp h
  rw [configureECallRedial]
  cases hconfig : request.config with
  | callOrig =>
    rw [hconfig, mostTimeGaps] at hwithin
    dsimp only
    rw [if_neg (by omega), if_pos hleast, RedialTimeGap.put]
  | callDrop =>
    rw [hconfig, mostTimeGaps] at hwithin
    dsimp only
    rw [if_neg (by omega), if_pos hleast, RedialTimeGap.put]
  | other => exact absurd hconfig (config_ne_other h)

theorem configureECallRedial_of_not_accepted (h : ¬Accepted request) :
    ∃ reply, reply ≠ .configured error ∧
      configureECallRedial error stored request = (reply, stored) := by
  rw [accepted_iff] at h
  rw [configureECallRedial]
  cases hconfig : request.config with
  | callOrig =>
    rw [hconfig, mostTimeGaps] at h
    refine ⟨.requestNotSupported, by simp, ?_⟩
    dsimp only
    split_ifs with hsize hleast
    · rfl
    · exact absurd ⟨by omega, by omega, hleast⟩ h
    · rfl
  | callDrop =>
    rw [hconfig, mostTimeGaps] at h
    refine ⟨.requestNotSupported, by simp, ?_⟩
    dsimp only
    split_ifs with hsize hleast
    · rfl
    · exact absurd ⟨by omega, by omega, hleast⟩ h
    · rfl
  | other => exact ⟨.internal " Incorrect redial config", by simp, rfl⟩

theorem stored_of_accepted (h : Accepted request) :
    (configureECallRedial error stored request).2 =
      stored.put (convertIntVectorToString request.timeGap) request.config := by
  rw [configureECallRedial_of_accepted error stored h]

theorem stored_of_not_accepted (h : ¬Accepted request) :
    (configureECallRedial error stored request).2 = stored := by
  obtain ⟨reply, -, heq⟩ := configureECallRedial_of_not_accepted error stored h
  rw [heq]

theorem configured_iff (request : RedialRequest) :
    (configureECallRedial error stored request).1 = .configured error ↔ Accepted request := by
  by_cases h : Accepted request
  · rw [configureECallRedial_of_accepted error stored h]
    simp [h]
  · obtain ⟨reply, hne, heq⟩ := configureECallRedial_of_not_accepted error stored h
    rw [heq]
    simp [h, hne]

end

/-- Numbers that fit are read back from their text. -/
theorem convertStringToVector_of_fits {integers : List Int} (h : ∀ d ∈ integers, fitsInt d = true) :
    convertStringToVector (convertIntVectorToString integers) = integers := by
  apply readAll_numbers
  · decide
  · intro c hc
    have hlow : 48 ≤ c.toNat := by
      simp only [Char.isDigit, Bool.and_eq_true, decide_eq_true_eq] at hc
      exact UInt32.le_iff_toNat_le.mp hc.1
    have hne : c ≠ ' ' := by
      rintro rfl
      cases hc
    have hhigh : ¬c.toNat ≤ 13 := by omega
    simp [isSpace, hne, hhigh]
  · decide
  · exact h

/-- The text that an accepted request stores is read back. -/
theorem convertStringToVector_convertIntVectorToString (request : RedialRequest) :
    convertStringToVector (convertIntVectorToString request.timeGap) = request.timeGap := by
  refine convertStringToVector_of_fits fun d hd => ?_
  obtain ⟨hlow, hhigh⟩ := request.isInt d hd
  exact Bool.and_eq_true_iff.mpr ⟨decide_eq_true hlow, decide_eq_true hhigh⟩

/-! ## What redialing does -/

def RedialAct.request? : RedialAct → Option ServiceRequest
  | request r => some r
  | sleepFor _ => none
  | sendEvent _ => none
  | startTimer => none

def RedialConfigType.cause : RedialConfigType → RedialConfig
  | callOrig => .callOrig
  | callDrop => .callDrop
  | other => .invalid

def RedialConfig.reason : RedialConfig → ReasonType
  | .callOrig => .callOrigFailure
  | _ => .callDrop

/-- A round: the time gap, and the call that dials, is reported on and ends. -/
structure Round (config : RedialConfig) (timeGap : Int) (last : Prop) [Decidable last]
    (acts : List RedialAct) : Prop where
  gap : acts.head? = some (.sleepFor timeGap)
  requests : acts.filterMap RedialAct.request? =
    [.changeCallState .dialing,
      if last then .onECallRedial false .maxRedialAttempted else .onECallRedial true config.reason,
      .changeCallState .ended]

/-- The rounds of a redialing, one for each time gap. -/
def Rounds (config : RedialConfig) (timeGap : List Int) (acts : List RedialAct) : Prop :=
  ∃ rounds : List (List RedialAct), acts = rounds.flatten ∧ rounds.length = timeGap.length ∧
    ∀ k round gap, rounds[k]? = some round → timeGap[k]? = some gap →
      Round config gap (k + 1 = timeGap.length) round

variable {config : RedialConfig} {mode : ECallMode} {timeGap : List Int}

theorem round_dialRound (hconfig : config = .callOrig ∨ config = .callDrop) {k : Nat} {gap : Int}
    (hk : timeGap[k]? = some gap) :
    Round config gap (k + 1 = timeGap.length)
      (dialRound config mode timeGap.length timeGap (k + 1)) := by
  have hlt : k < timeGap.length := (List.getElem?_eq_some_iff.mp hk).1
  have hgap : timeGap.getD (k + 1 - 1) 0 = gap := by
    rw [Nat.add_sub_cancel, List.getD_eq_getElem?_getD, hk, Option.getD_some]
  constructor
  · rw [dialRound, hgap]
    rfl
  · by_cases hlast : k + 1 = timeGap.length
    · have hnot : ¬((k + 1 : Nat) : Int) < timeGap.length := by omega
      have heq : ((k + 1 : Nat) : Int) = timeGap.length := by omega
      rw [dialRound, if_neg hnot, if_pos heq, if_pos hlast]
      cases mode <;> rfl
    · have hless : ((k + 1 : Nat) : Int) < timeGap.length := by omega
      have hne : ¬((k + 1 : Nat) : Int) = timeGap.length := by omega
      rw [dialRound, if_pos hless, if_neg hne, if_neg hlast]
      rcases hconfig with rfl | rfl <;> cases mode <;> rfl

theorem rounds_redial (hconfig : config = .callOrig ∨ config = .callDrop)
    {stored stored' : RedialTimeGap} (hsame : getConfiguredRedialParameters stored' config =
      getConfiguredRedialParameters stored config) :
    Rounds config (getConfiguredRedialParameters stored config)
      (redial config mode stored stored') := by
  have hattempts : getConfiguredRedialAttempts stored config =
      (getConfiguredRedialParameters stored config).length := by
    rcases hconfig with rfl | rfl <;> rfl
  generalize htimeGap : getConfiguredRedialParameters stored config = timeGap at hattempts hsame ⊢
  refine ⟨(List.range' 1 timeGap.length).map (dialRound config mode timeGap.length timeGap),
    ?_, ?_, ?_⟩
  · rw [redial, hattempts, hsame, Int.toNat_natCast, List.flatMap_def]
  · rw [List.length_map, List.length_range']
  · intro k round gap hround hgap
    have hlt : k < timeGap.length := (List.getElem?_eq_some_iff.mp hgap).1
    rw [List.getElem?_map, List.getElem?_range' hlt, Option.map_some, Option.some.injEq] at hround
    rw [← hround, Nat.one_mul, Nat.add_comm 1]
    exact round_dialRound hconfig hgap

/-! ## From the configuration to the redialing -/

section

variable (stored : RedialTimeGap) (text : List Char)

theorem getConfiguredRedialParameters_put {config : RedialConfigType} (h : config ≠ .other) :
    getConfiguredRedialParameters (stored.put text config) config.cause =
      convertStringToVector text := by
  cases config with
  | callOrig => rfl
  | callDrop => rfl
  | other => exact absurd rfl h

theorem getConfiguredRedialParameters_put_of_ne {config config' : RedialConfigType}
    (h : config' ≠ config) :
    getConfiguredRedialParameters (stored.put text config') config.cause =
      getConfiguredRedialParameters stored config.cause := by
  cases config <;> cases config' <;> first | rfl | exact absurd rfl h

end

section

variable {ε : Type} (error : ε)

/-- What is stored after some requests. -/
def configureAll (stored : RedialTimeGap) (requests : List RedialRequest) : RedialTimeGap :=
  requests.foldl (fun stored request => (configureECallRedial error stored request).2) stored

/-- Only an accepted request for a cause replaces its time gaps. -/
theorem getConfiguredRedialParameters_configureECallRedial (stored : RedialTimeGap)
    (config : RedialConfigType) {request : RedialRequest}
    (h : request.config = config → ¬Accepted request) :
    getConfiguredRedialParameters (configureECallRedial error stored request).2 config.cause =
      getConfiguredRedialParameters stored config.cause := by
  by_cases haccepted : Accepted request
  · rw [stored_of_accepted error stored haccepted]
    exact getConfiguredRedialParameters_put_of_ne _ _ fun hconfig => h hconfig haccepted
  · rw [stored_of_not_accepted error stored haccepted]

theorem getConfiguredRedialParameters_configureAll (stored : RedialTimeGap)
    (config : RedialConfigType) {later : List RedialRequest}
    (h : ∀ request ∈ later, request.config = config → ¬Accepted request) :
    getConfiguredRedialParameters (configureAll error stored later) config.cause =
      getConfiguredRedialParameters stored config.cause := by
  induction later generalizing stored with
  | nil => rfl
  | cons request later ih =>
    obtain ⟨hfirst, hrest⟩ := List.forall_mem_cons.mp h
    rw [configureAll, List.foldl_cons]
    exact (ih _ hrest).trans
      (getConfiguredRedialParameters_configureECallRedial error stored config hfirst)

theorem getConfiguredRedialParameters_later (stored : RedialTimeGap) {request : RedialRequest}
    (haccepted : Accepted request) {later : List RedialRequest}
    (h : ∀ r ∈ later, r.config = request.config → ¬Accepted r) :
    getConfiguredRedialParameters (configureAll error stored (request :: later))
      request.config.cause = request.timeGap := by
  rw [configureAll, List.foldl_cons]
  apply (getConfiguredRedialParameters_configureAll error _ request.config h).trans
  rw [stored_of_accepted error stored haccepted,
    getConfiguredRedialParameters_put stored _ (config_ne_other haccepted),
    convertStringToVector_convertIntVectorToString]

end

end Tel

end SatComm
