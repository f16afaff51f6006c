import SatComm.Runs.Along

/-!
# The PINs of a SIM card

A card has two PINs, each with a password, a PUK, a counter of retries for each of the two and a
flag whether it is enabled. `ChangePinLock`, `UnlockByPin` and `SetCardLock` check a PIN,
`UnlockByPuk` checks a PUK; a counter at -1 blocks. The requests for the first PIN also look for
the application they name, to set its state.

A request that unlocks the first PIN with the right PUK changes the PIN before it looks for the
application, and the search leaves an error behind for every application it passes.
-/

namespace SatComm

namespace Card

namespace Pins

open Runs

inductive CardLockType
  | pin1
  | pin2
  | puk1
  | puk2
  | fdn
  | other (value : Int)
deriving DecidableEq, Repr

inductive Status
  | success
  | other (value : Int)
deriving DecidableEq, Repr

inductive ErrorCode
  | success
  | pinBlocked
  | passwordIncorrect
  | invalidArg
  | requestNotSupported
  | other (value : Int)
deriving DecidableEq, Repr

inductive Pin
  | pin1
  | pin2
deriving DecidableEq, Repr

/-- `Pin1password`, `changeCardPassword.retryCountPin1`, `Puk1password`,
`unlockCardByPuk.retryCountPin1` and `setCardLock.isPin1Available`, and the same for the second
PIN. -/
structure Lock where
  password : String
  retryCount : Int
  pukPassword : String
  pukRetryCount : Int
  isAvailable : Bool
deriving DecidableEq, Repr

structure Application where
  appId : String
  appState : Int
deriving DecidableEq, Repr

/-- The state of the card in one slot. A request is for one slot and leaves the other card alone. -/
structure CardState where
  pin1 : Lock
  pin2 : Lock
  getApplications : List Application
deriving DecidableEq, Repr

/-- What the configuration file gives for a request. -/
structure ApiConfigure where
  status : Status
  error : ErrorCode
  delay : Int
  isCallback : Bool
deriving DecidableEq, Repr

structure Reply where
  error : ErrorCode
  status : Status
  delay : Int
  isCallback : Bool
  /-- `none` where the variable was not set. -/
  retryCount : Option Int
  isCardInfoChanged : Bool
deriving DecidableEq, Repr

structure ChangePinLockRequest where
  lockType : CardLockType
  oldPin : String
  newPin : String
  aid : String
  api : ApiConfigure
deriving DecidableEq, Repr

structure UnlockByPinRequest where
  lockType : CardLockType
  pin : String
  aid : String
  api : ApiConfigure
deriving DecidableEq, Repr

structure UnlockByPukRequest where
  lockType : CardLockType
  puk : String
  newPin : String
  aid : String
  api : ApiConfigure
deriving DecidableEq, Repr

structure SetCardLockRequest where
  lockType : CardLockType
  pwd : String
  enable : Bool
  aid : String
  api : ApiConfigure
deriving DecidableEq, Repr

/-- The states of an application that needs the PUK and of one that is ready. -/
def pukState : Int := 3

def readyState : Int := 5

/-- The search for an application, the error that it leaves and whether it found one. -/
def setAppState (appId : String) (state : Int) :
    List Application → ErrorCode → List Application × ErrorCode × Bool
  | [], error => ([], error, false)
  | app :: apps, error =>
    if app.appId = appId then ({ app with appState := state } :: apps, error, true)
    else
      let rest := setAppState appId state apps .invalidArg
      (app :: rest.1, rest.2)

def ApiConfigure.reply (api : ApiConfigure) (error : ErrorCode) (retryCount : Option Int)
    (isCardInfoChanged : Bool) : Reply :=
  ⟨error, api.status, api.delay, api.isCallback, retryCount, isCardInfoChanged⟩

namespace CardState

def lock (c : CardState) : Pin → Lock
  | .pin1 => c.pin1
  | .pin2 => c.pin2

def setLock (c : CardState) (p : Pin) (l : Lock) : CardState :=
  match p with
  | .pin1 => { c with pin1 := l }
  | .pin2 => { c with pin2 := l }

/-- An answer after the search for the application, which only the requests for the first PIN
make. -/
def search (c : CardState) (p : Pin) (aid : String) (state : Int) (api : ApiConfigure)
    (error : ErrorCode) (retryCount : Int) : CardState × Reply :=
  match p with
  | .pin1 =>
    let found := setAppState aid state c.getApplications error
    ({ c with getApplications := found.1 }, api.reply found.2.1 (some retryCount) found.2.2)
  | .pin2 => (c, api.reply error (some retryCount) false)

/-- The check of a PIN. The right password is accepted while the counter is not at -1. -/
def checkPin (c : CardState) (p : Pin) (pwd aid : String) (api : ApiConfigure)
    (accept : Lock → Lock) : CardState × Reply :=
  let l := c.lock p
  if pwd = l.password ∧ l.retryCount ≠ -1 then
    (c.setLock p (accept l), api.reply api.error (some l.retryCount) false)
  else if l.retryCount < 0 then c.search p aid pukState api .pinBlocked l.retryCount
  else
    (c.setLock p { l with retryCount := l.retryCount - 1 },
      api.reply .passwordIncorrect (some (l.retryCount - 1)) (p == .pin1))

/-- The check of a PUK. -/
def checkPuk (c : CardState) (p : Pin) (puk newPin aid : String) (api : ApiConfigure) :
    CardState × Reply :=
  let l := c.lock p
  if puk = l.pukPassword ∧ l.pukRetryCount ≠ -1 then
    (c.setLock p { l with password := newPin, retryCount := 3 }).search p aid readyState api
      api.error l.pukRetryCount
  else if l.pukRetryCount < 0 then (c, api.reply .pinBlocked (some l.pukRetryCount) false)
  else
    (c.setLock p { l with pukRetryCount := l.pukRetryCount - 1 },
      api.reply .passwordIncorrect (some (l.pukRetryCount - 1)) true)

def changePinLock (c : CardState) (request : ChangePinLockRequest) : CardState × Reply :=
  let check (p : Pin) := c.checkPin p request.oldPin request.aid request.api fun l =>
    { l with password := request.newPin }
  if request.api.status ≠ .success then (c, request.api.reply request.api.error none false)
  else match request.lockType with
    | .pin1 => check .pin1
    | .pin2 => check .pin2
    | _ => (c, request.api.reply .requestNotSupported none false)

def unlockByPin (c : CardState) (request : UnlockByPinRequest) : CardState × Reply :=
  let check (p : Pin) := c.checkPin p request.pin request.aid request.api id
  if request.api.status ≠ .success then (c, request.api.reply request.api.error none false)
  else match request.lockType with
    | .pin1 => check .pin1
    | .pin2 => check .pin2
    | _ => (c, request.api.reply .invalidArg none false)

def unlockByPuk (c : CardState) (request : UnlockByPukRequest) : CardState × Reply :=
  let check (p : Pin) := c.checkPuk p request.puk request.newPin request.aid request.api
  if request.api.status ≠ .success then (c, request.api.reply request.api.error none false)
  else match request.lockType with
    | .puk1 => check .pin1
    | .puk2 => check .pin2
    | _ => (c, request.api.reply .requestNotSupported none false)

def setCardLock (c : CardState) (request : SetCardLockRequest) : CardState × Reply :=
  let check (p : Pin) := c.checkPin p request.pwd request.aid request.api fun l =>
    { l with isAvailable := request.enable }
  if request.api.status ≠ .success then (c, request.api.reply request.api.error none false)
  else match request.lockType with
    | .pin1 => check .pin1
    | .fdn => check .pin2
    | _ => (c, request.api.reply .requestNotSupported none false)

end CardState

inductive Request
  | changePinLock (request : ChangePinLockRequest)
  | unlockByPin (request : UnlockByPinRequest)
  | unlockByPuk (request : UnlockByPukRequest)
  | setCardLock (request : SetCardLockRequest)
deriving DecidableEq, Repr

namespace Request

def api : Request → ApiConfigure
  | .changePinLock request => request.api
  | .unlockByPin request => request.api
  | .unlockByPuk request => request.api
  | .setCardLock request => request.api

/-- The configured result is success. -/
def Configured (e : Request) : Prop := e.api.status = .success ∧ e.api.error = .success

/-- The password or the PUK that is given. -/
def given : Request → String
  | .changePinLock request => request.oldPin
  | .unlockByPin request => request.pin
  | .unlockByPuk request => request.puk
  | .setCardLock request => request.pwd

/-- What the right password gives. -/
def accept : Request → Lock → Lock
  | .changePinLock request, l => { l with password := request.newPin }
  | .setCardLock request, l => { l with isAvailable := request.enable }
  | .unlockByPin _, l | .unlockByPuk _, l => l

/-- The PIN that is checked. -/
def pin? : Request → Option Pin
  | .changePinLock request =>
    match request.lockType with
    | .pin1 => some .pin1
    | .pin2 => some .pin2
    | _ => none
  | .unlockByPin request =>
    match request.lockType with
    | .pin1 => some .pin1
    | .pin2 => some .pin2
    | _ => none
  | .setCardLock request =>
    match request.lockType with
    | .pin1 => some .pin1
    | .fdn => some .pin2
    | _ => none
  | .unlockByPuk _ => none

/-- The PIN whose PUK is checked. -/
def puk? : Request → Option Pin
  | .unlockByPuk request =>
    match request.lockType with
    | .puk1 => some .pin1
    | .puk2 => some .pin2
    | _ => none
  | _ => none

end Request

def answer (c : CardState) : Request → CardState × Reply
  | .changePinLock request => c.changePinLock request
  | .unlockByPin request => c.unlockByPin request
  | .unlockByPuk request => c.unlockByPuk request
  | .setCardLock request => c.setCardLock request

def step (c : CardState) (e : Request) : CardState := (answer c e).1

def error (c : CardState) (e : Request) : ErrorCode := (answer c e).2.error

/-! ## What is protected -/

/-- The request has the PIN, or the PUK, that it takes to change a PIN, and is not blocked. -/
inductive Entitled (c : CardState) (p : Pin) : Request → Prop
  | changePinLock (request : ChangePinLockRequest) :
    (Request.changePinLock request).pin? = some p → request.oldPin = (c.lock p).password →
    (c.lock p).retryCount ≠ -1 → Entitled c p (.changePinLock request)
  | unlockByPuk (request : UnlockByPukRequest) :
    (Request.unlockByPuk request).puk? = some p → request.puk = (c.lock p).pukPassword →
    (c.lock p).pukRetryCount ≠ -1 → Entitled c p (.unlockByPuk request)

/-- An `UnlockByPuk` with the right PUK. -/
def RightPuk (c : CardState) (p : Pin) (e : Request) : Prop :=
  e.puk? = some p ∧ e.given = (c.lock p).pukPassword

/-- Both PINs and both flags are as before. -/
def Unchanged (c c' : CardState) : Prop :=
  ∀ p, (c'.lock p).password = (c.lock p).password ∧ (c'.lock p).isAvailable = (c.lock p).isAvailable

/-- All four counters are in their range. -/
def InRange (c : CardState) : Prop :=
  ∀ p, (-1 ≤ (c.lock p).retryCount ∧ (c.lock p).retryCount ≤ 3) ∧
    -1 ≤ (c.lock p).pukRetryCount ∧ (c.lock p).pukRetryCount ≤ 3

structure Protected (c : CardState) (es : List Request) : Prop where
  inRange : ∀ n, InRange ((es.take n).foldl step c)
  changes : Along step (fun c e => ∀ p, ((step c e).lock p).password ≠ (c.lock p).password →
    Entitled c p e) c es
  blocked : ∀ before between e rest p, es = before ++ (between ++ e :: rest) →
    ((before.foldl step c).lock p).retryCount = -1 →
    Along step (fun c e => ¬ RightPuk c p e) (before.foldl step c) between → e.pin? = some p →
    error ((before ++ between).foldl step c) e ≠ .success
  errors : Along step (fun c e => error c e ≠ .success → Unchanged c (step c e)) c es

/-- Where an `UnlockByPuk` changes the first PIN, the application it names is the first one, or
there is none. -/
def Listed (c : CardState) : Request → Prop
  | .unlockByPuk request => request.lockType = .puk1 → request.puk = c.pin1.pukPassword →
      c.pin1.pukRetryCount ≠ -1 → request.newPin ≠ c.pin1.password →
      ∀ app ∈ c.getApplications.head?, app.appId = request.aid
  | .changePinLock _ | .unlockByPin _ | .setCardLock _ => True

instance (c : CardState) (e : Request) : Decidable (Listed c e) := by
  cases e <;> unfold Listed <;> infer_instance

/-! ## What a request does -/

/-- The locks and the answer after a request. -/
inductive Outcome (c : CardState) (e : Request) : Prop
  | accepted (p : Pin) (hpin : e.pin? = some p) (hgiven : e.given = (c.lock p).password)
    (hcount : (c.lock p).retryCount ≠ -1) (herror : error c e = .success)
    (hlock : (step c e).lock = Function.update c.lock p (e.accept (c.lock p)))
  | unlocked (p : Pin) (request : UnlockByPukRequest) (hrequest : e = .unlockByPuk request)
    (hpuk : e.puk? = some p) (hgiven : request.puk = (c.lock p).pukPassword)
    (hcount : (c.lock p).pukRetryCount ≠ -1)
    (herror : error c e = .success ↔
      (p = .pin1 → ∀ app ∈ c.getApplications.head?, app.appId = request.aid))
    (hlock : (step c e).lock = Function.update c.lock p
      { c.lock p with password := request.newPin, retryCount := 3 })
  | wrongPin (p : Pin) (hpin : e.pin? = some p) (hcount : 0 ≤ (c.lock p).retryCount)
    (herror : error c e ≠ .success)
    (hlock : (step c e).lock = Function.update c.lock p
      { c.lock p with retryCount := (c.lock p).retryCount - 1 })
  | wrongPuk (p : Pin) (hpuk : e.puk? = some p) (hcount : 0 ≤ (c.lock p).pukRetryCount)
    (hwrong : ∀ q, RightPuk c q e → (c.lock q).pukRetryCount = -1)
    (herror : error c e ≠ .success) (hlock : (step c e).lock = Function.update c.lock p
      { c.lock p with pukRetryCount := (c.lock p).pukRetryCount - 1 })
  | refused (hwrong : ∀ q, RightPuk c q e → (c.lock q).pukRetryCount = -1)
    (herror : error c e ≠ .success) (hlock : (step c e).lock = c.lock)

variable {c : CardState} {e : Request} {p : Pin}

theorem lock_setLock (c : CardState) (p : Pin) (l : Lock) :
    (c.setLock p l).lock = Function.update c.lock p l := by
  funext q
  cases p <;> cases q <;> rfl

theorem lock_search (c : CardState) (p : Pin) (aid : String) (state : Int) (api : ApiConfigure)
    (err : ErrorCode) (retryCount : Int) :
    (c.search p aid state api err retryCount).1.lock = c.lock := by
  cases p with
  | pin1 =>
    funext q
    cases q <;> rfl
  | pin2 => rfl

theorem setAppState_invalidArg (appId : String) (state : Int) (apps : List Application) :
    (setAppState appId state apps .invalidArg).2.1 = .invalidArg := by
  induction apps with
  | nil => rfl
  | cons app apps ih =>
    unfold setAppState
    split_ifs
    · rfl
    · exact ih

/-- Only a search that passes no application leaves the answer as it was. -/
theorem setAppState_error (appId : String) (state : Int) (apps : List Application)
    (err : ErrorCode) : (setAppState appId state apps err).2.1 =
      if ∀ app ∈ apps.head?, app.appId = appId then err else .invalidArg := by
  cases apps with
  | nil => simp [setAppState]
  | cons app apps =>
    by_cases happ : app.appId = appId
    · simp [setAppState, happ]
    · simp [setAppState, happ, setAppState_invalidArg]

theorem error_search (c : CardState) (p : Pin) (aid : String) (state : Int) (api : ApiConfigure)
    (err : ErrorCode) (retryCount : Int) :
    (c.search p aid state api err retryCount).2.error =
      if p = .pin1 → ∀ app ∈ c.getApplications.head?, app.appId = aid then err
      else .invalidArg := by
  cases p with
  | pin1 =>
    show (setAppState aid state c.getApplications err).2.1 = _
    rw [setAppState_error]
    exact if_congr ⟨fun h _ => h, fun h => h rfl⟩ rfl rfl
  | pin2 =>
    rw [if_pos nofun]
    rfl

theorem getApplications_setLock (c : CardState) (p : Pin) (l : Lock) :
    (c.setLock p l).getApplications = c.getApplications := by
  cases p <;> rfl

/-- Checks of a PIN and of a PUK are different requests. -/
theorem puk?_eq_none (h : e.pin? = some p) : e.puk? = none := by
  cases e with
  | unlockByPuk request => cases h
  | changePinLock request | unlockByPin request | setCardLock request => rfl

theorem outcome_checkPin {aid : String} {api : ApiConfigure} (hapi : api.error = .success)
    (hpin : e.pin? = some p) (h : answer c e = c.checkPin p e.given aid api e.accept) :
    Outcome c e := by
  unfold CardState.checkPin at h
  dsimp only at h
  by_cases hright : e.given = (c.lock p).password ∧ (c.lock p).retryCount ≠ -1
  · rw [if_pos hright] at h
    refine .accepted p hpin hright.1 hright.2 ?_ ?_
    · rw [error, h]
      exact hapi
    · rw [step, h]
      exact lock_setLock c p _
  · rw [if_neg hright] at h
    by_cases hblocked : (c.lock p).retryCount < 0
    · rw [if_pos hblocked] at h
      refine .refused (fun q hq => ?_) ?_ ?_
      · rw [RightPuk, puk?_eq_none hpin] at hq
        cases hq.1
      · rw [error, h, error_search]
        split_ifs <;> nofun
      · rw [step, h]
        exact lock_search ..
    · rw [if_neg hblocked] at h
      refine .wrongPin p hpin (Int.not_lt.mp hblocked) ?_ ?_
      · rw [error, h]
        nofun
      · rw [step, h]
        exact lock_setLock c p _

theorem outcome_checkPuk {request : UnlockByPukRequest} (hapi : request.api.error = .success)
    (hpuk : (Request.unlockByPuk request).puk? = some p)
    (h : c.unlockByPuk request =
      c.checkPuk p request.puk request.newPin request.aid request.api) :
    Outcome c (.unlockByPuk request) := by
  have hanswer : answer c (.unlockByPuk request) = c.unlockByPuk request := rfl
  rw [h] at hanswer
  unfold CardState.checkPuk at hanswer
  dsimp only at hanswer
  by_cases hright : request.puk = (c.lock p).pukPassword ∧ (c.lock p).pukRetryCount ≠ -1
  · rw [if_pos hright] at hanswer
    refine .unlocked p request rfl hpuk hright.1 hright.2 ?_ ?_
    · rw [error, hanswer, error_search, getApplications_setLock, hapi]
      split_ifs with hfirst
      · exact iff_of_true rfl hfirst
      · exact iff_of_false nofun hfirst
    · rw [step, hanswer, lock_search]
      exact lock_setLock c p _
  · rw [if_neg hright] at hanswer
    have hwrong : ∀ q, RightPuk c q (.unlockByPuk request) → (c.lock q).pukRetryCount = -1 := by
      rintro q ⟨hq, hgiven⟩
      obtain rfl : p = q := Option.some.inj (hpuk.symm.trans hq)
      exact not_not.mp fun hcount => hright ⟨hgiven, hcount⟩
    by_cases hblocked : (c.lock p).pukRetryCount < 0
    · rw [if_pos hblocked] at hanswer
      refine .refused hwrong ?_ ?_
      · rw [error, hanswer]
        nofun
      · rw [step, hanswer]
    · rw [if_neg hblocked] at hanswer
      refine .wrongPuk p hpuk (Int.not_lt.mp hblocked) hwrong ?_ ?_
      · rw [error, hanswer]
        nofun
      · rw [step, hanswer]
        exact lock_setLock c p _

/-- What a request does to the locks and answers. -/
theorem outcome (h : e.Configured) : Outcome c e := by
  obtain ⟨hstatus, hapi⟩ := h
  cases e with
  | changePinLock request =>
    obtain ⟨lockType, oldPin, newPin, aid, ⟨status, err, delay, callback⟩⟩ := request
    obtain rfl : status = .success := hstatus
    cases lockType with
    | pin1 | pin2 => exact outcome_checkPin hapi rfl rfl
    | puk1 | puk2 | fdn | other => exact .refused (fun _ h => nomatch h.1) nofun rfl
  | unlockByPin request =>
    obtain ⟨lockType, pin, aid, ⟨status, err, delay, callback⟩⟩ := request
    obtain rfl : status = .success := hstatus
    cases lockType with
    | pin1 | pin2 => exact outcome_checkPin hapi rfl rfl
    | puk1 | puk2 | fdn | other => exact .refused (fun _ h => nomatch h.1) nofun rfl
  | unlockByPuk request =>
    obtain ⟨lockType, puk, newPin, aid, ⟨status, err, delay, callback⟩⟩ := request
    obtain rfl : status = .success := hstatus
    cases lockType with
    | puk1 | puk2 => exact outcome_checkPuk hapi rfl rfl
    | pin1 | pin2 | fdn | other => exact .refused (fun _ h => nomatch h.1) nofun rfl
  | setCardLock request =>
    obtain ⟨lockType, pwd, enable, aid, ⟨status, err, delay, callback⟩⟩ := request
    obtain rfl : status = .success := hstatus
    cases lockType with
    | pin1 | fdn => exact outcome_checkPin hapi rfl rfl
    | pin2 | puk1 | puk2 | other => exact .refused (fun _ h => nomatch h.1) nofun rfl

/-! ## What one request keeps -/

@[simp] theorem accept_retryCount (e : Request) (l : Lock) :
    (e.accept l).retryCount = l.retryCount := by
  cases e <;> rfl

@[simp] theorem accept_pukRetryCount (e : Request) (l : Lock) :
    (e.accept l).pukRetryCount = l.pukRetryCount := by
  cases e <;> rfl

theorem lock_cases {c' : CardState} {q : Pin} {l : Lock}
    (h : c'.lock = Function.update c.lock p l) : q = p ∧ c'.lock q = l ∨ c'.lock q = c.lock q := by
  rw [h]
  by_cases hq : q = p
  · subst hq
    exact .inl ⟨rfl, Function.update_self ..⟩
  · exact .inr (Function.update_of_ne hq ..)

theorem inRange_step (hc : InRange c) (h : e.Configured) : InRange (step c e) := by
  have hupdate : ∀ {p : Pin} {l : Lock}, (step c e).lock = Function.update c.lock p l →
      ((-1 ≤ l.retryCount ∧ l.retryCount ≤ 3) ∧ -1 ≤ l.pukRetryCount ∧ l.pukRetryCount ≤ 3) →
      InRange (step c e) := by
    intro p l hlock hl q
    rcases lock_cases (q := q) hlock with ⟨-, hq⟩ | hq
    · rw [hq]
      exact hl
    · rw [hq]
      exact hc q
  cases outcome (c := c) h with
  | accepted p hpin hgiven hcount herror hlock =>
    refine hupdate hlock ?_
    rw [accept_retryCount, accept_pukRetryCount]
    exact hc p
  | unlocked p request hrequest hpuk hgiven hcount herror hlock =>
    exact hupdate hlock ⟨⟨by dsimp only; omega, by dsimp only; omega⟩, (hc p).2⟩
  | wrongPin p hpin hcount herror hlock =>
    have hp := hc p
    exact hupdate hlock ⟨⟨by dsimp only; omega, by dsimp only; omega⟩, hp.2⟩
  | wrongPuk p hpuk hcount hwrong herror hlock =>
    have hp := hc p
    exact hupdate hlock ⟨hp.1, by dsimp only; omega, by dsimp only; omega⟩
  | refused hwrong herror hlock =>
    intro q
    rw [hlock]
    exact hc q

theorem entitled_of_changed (h : e.Configured) {q : Pin}
    (hchanged : ((step c e).lock q).password ≠ (c.lock q).password) : Entitled c q e := by
  cases outcome (c := c) h with
  | accepted p hpin hgiven hcount herror hlock =>
    rcases lock_cases (q := q) hlock with ⟨rfl, hq⟩ | hq
    · rw [hq] at hchanged
      cases e with
      | changePinLock request => exact .changePinLock request hpin hgiven hcount
      | unlockByPin | unlockByPuk | setCardLock => exact absurd rfl hchanged
    · rw [hq] at hchanged
      exact absurd rfl hchanged
  | unlocked p request hrequest hpuk hgiven hcount herror hlock =>
    rcases lock_cases (q := q) hlock with ⟨rfl, hq⟩ | hq
    · subst hrequest
      exact .unlockByPuk request hpuk hgiven hcount
    · rw [hq] at hchanged
      exact absurd rfl hchanged
  | wrongPin p hpin hcount herror hlock =>
    rcases lock_cases (q := q) hlock with ⟨rfl, hq⟩ | hq <;> rw [hq] at hchanged <;>
      exact absurd rfl hchanged
  | wrongPuk p hpuk hcount hwrong herror hlock =>
    rcases lock_cases (q := q) hlock with ⟨rfl, hq⟩ | hq <;> rw [hq] at hchanged <;>
      exact absurd rfl hchanged
  | refused hwrong herror hlock =>
    rw [hlock] at hchanged
    exact absurd rfl hchanged

/-- A blocked PIN is answered with an error. -/
theorem error_of_blocked (h : e.Configured) (hpin : e.pin? = some p)
    (hblocked : (c.lock p).retryCount = -1) : error c e ≠ .success := by
  cases outcome (c := c) h with
  | accepted q hq hgiven hcount herror hlock =>
    obtain rfl : p = q := Option.some.inj (hpin.symm.trans hq)
    exact absurd hblocked hcount
  | unlocked q request hrequest hpuk hgiven hcount herror hlock =>
    rw [puk?_eq_none hpin] at hpuk
    cases hpuk
  | wrongPin q hq hcount herror hlock => exact herror
  | wrongPuk q hpuk hcount hwrong herror hlock => exact herror
  | refused hwrong herror hlock => exact herror

/-- It stays blocked until the right PUK is given. -/
theorem blocked_step (h : e.Configured) (hpuk : ¬ RightPuk c p e)
    (hblocked : (c.lock p).retryCount = -1) : ((step c e).lock p).retryCount = -1 := by
  cases outcome (c := c) h with
  | accepted q hq hgiven hcount herror hlock =>
    rcases lock_cases (q := p) hlock with ⟨rfl, hp⟩ | hp
    · exact absurd hblocked hcount
    · rw [hp, hblocked]
  | unlocked q request hrequest hq hgiven hcount herror hlock =>
    rcases lock_cases (q := p) hlock with ⟨rfl, hp⟩ | hp
    · subst hrequest
      exact absurd ⟨hq, hgiven⟩ hpuk
    · rw [hp, hblocked]
  | wrongPin q hq hcount herror hlock =>
    rcases lock_cases (q := p) hlock with ⟨rfl, hp⟩ | hp
    · rw [hblocked] at hcount
      exact absurd hcount (by decide)
    · rw [hp, hblocked]
  | wrongPuk q hq hcount hwrong herror hlock =>
    rcases lock_cases (q := p) hlock with ⟨rfl, hp⟩ | hp
    · rw [hp]
      exact hblocked
    · rw [hp, hblocked]
  | refused hwrong herror hlock => rw [hlock, hblocked]

theorem unchanged_of_update {l : Lock} (hlock : (step c e).lock = Function.update c.lock p l)
    (hl : l.password = (c.lock p).password ∧ l.isAvailable = (c.lock p).isAvailable) :
    Unchanged c (step c e) := by
  intro q
  rcases lock_cases (q := q) hlock with ⟨rfl, hq⟩ | hq
  · rw [hq]
    exact hl
  · rw [hq]
    exact ⟨rfl, rfl⟩

theorem listed_of_wrong (h : ∀ q, RightPuk c q e → (c.lock q).pukRetryCount = -1) :
    Listed c e := by
  cases e with
  | unlockByPuk request =>
    intro htype hpuk hcount
    have hright : RightPuk c .pin1 (.unlockByPuk request) := ⟨by rw [Request.puk?, htype], hpuk⟩
    exact absurd (h .pin1 hright) hcount
  | changePinLock | unlockByPin | setCardLock => exact trivial

theorem listed_of_pin (h : e.pin? = some p) : Listed c e :=
  listed_of_wrong fun q hq => by
    rw [RightPuk, puk?_eq_none h] at hq
    cases hq.1

/-- An error leaves the PINs and flags alone exactly when the search for the application does not
make it. -/
theorem unchanged_iff_listed (h : e.Configured) :
    (error c e ≠ .success → Unchanged c (step c e)) ↔ Listed c e := by
  cases outcome (c := c) h with
  | accepted p hpin hgiven hcount herror hlock =>
    exact iff_of_true (fun hne => absurd herror hne) (listed_of_pin hpin)
  | wrongPin p hpin hcount herror hlock =>
    exact iff_of_true (fun _ => unchanged_of_update hlock ⟨rfl, rfl⟩) (listed_of_pin hpin)
  | wrongPuk p hpuk hcount hwrong herror hlock =>
    exact iff_of_true (fun _ => unchanged_of_update hlock ⟨rfl, rfl⟩) (listed_of_wrong hwrong)
  | refused hwrong herror hlock =>
    refine iff_of_true (fun _ q => ?_) (listed_of_wrong hwrong)
    rw [hlock]
    exact ⟨rfl, rfl⟩
  | unlocked p request hrequest hpuk hgiven hcount herror hlock =>
    subst hrequest
    cases p with
    | pin1 =>
      have htype : request.lockType = .puk1 := by
        rw [Request.puk?] at hpuk
        split at hpuk
        · assumption
        · cases hpuk
        · cases hpuk
      have hnew : Unchanged c (step c (.unlockByPuk request)) ↔
          request.newPin = c.pin1.password := by
        refine ⟨fun hsame => ?_, fun heq => unchanged_of_update hlock ⟨heq, rfl⟩⟩
        have hpin := (hsame .pin1).1
        rw [hlock, Function.update_self] at hpin
        exact hpin
      rw [hnew]
      constructor
      · intro hsame _ _ _ hne
        by_contra hfirst
        exact hne (hsame fun heq => hfirst (herror.mp heq rfl))
      · intro hlisted hne
        by_contra hchanged
        exact hne (herror.mpr fun _ => hlisted htype hgiven hcount hchanged)
    | pin2 =>
      refine iff_of_true (fun hne => absurd (herror.mpr nofun) hne) fun htype => ?_
      rw [Request.puk?, htype] at hpuk
      cases hpuk

/-! ## Along a run -/

theorem inRange_run (hc : InRange c) {es : List Request} (hes : ∀ e ∈ es, e.Configured) :
    InRange (es.foldl step c) :=
  Along.invariant (C := fun _ e => e.Configured) InRange (fun _ _ h he => inRange_step h he) hc
    (along_of_mem fun e he _ => hes e he)

theorem blocked_run {es : List Request} (hes : ∀ e ∈ es, e.Configured)
    (hpuk : Along step (fun c e => ¬ RightPuk c p e) c es)
    (hblocked : (c.lock p).retryCount = -1) : ((es.foldl step c).lock p).retryCount = -1 := by
  refine Along.invariant (C := fun c e => e.Configured ∧ ¬ RightPuk c p e)
    (fun c => (c.lock p).retryCount = -1) (fun c e h he => blocked_step he.1 he.2 h) hblocked ?_
  exact (along_and ..).mpr ⟨along_of_mem fun e he _ => hes e he, hpuk⟩

/-- The card is protected along a run exactly when every request that sets a new first PIN by its
PUK names the first application. -/
theorem protected_iff_listed (c : CardState) (hc : InRange c) (es : List Request)
    (hes : ∀ e ∈ es, e.Configured) : Protected c es ↔ Along step Listed c es := by
  have hiff : Along step (fun c e => error c e ≠ .success → Unchanged c (step c e)) c es ↔
      Along step Listed c es :=
    along_congr_of_mem fun e he c => unchanged_iff_listed (hes e he)
  refine ⟨fun h => hiff.mp h.errors, fun h => ⟨fun n => ?_, ?_, ?_, hiff.mpr h⟩⟩
  · exact inRange_run hc fun e he => hes e (List.mem_of_mem_take he)
  · exact along_of_mem fun e he c q => entitled_of_changed (hes e he)
  · rintro before between e rest p rfl hblocked hpuk hpin
    have hbetween : ∀ e ∈ between, e.Configured := fun e' he' =>
      hes e' (List.mem_append_right _ (List.mem_append_left _ he'))
    rw [List.foldl_append]
    refine error_of_blocked (hes e ?_) hpin (blocked_run hbetween hpuk hblocked)
    exact List.mem_append_right _ (List.mem_append_right _ List.mem_cons_self)

/-- A card with two applications. -/
def card : CardState where
  pin1 := ⟨"1234", 0, "1111", 3, true⟩
  pin2 := ⟨"5678", 3, "2222", 3, true⟩
  getApplications := [⟨"a", 5⟩, ⟨"b", 5⟩]

def configured : ApiConfigure := ⟨.success, .success, 0, true⟩

/-- The first PIN is lost, and set again for the first application. -/
def lostPin : List Request :=
  [.changePinLock ⟨.pin1, "1234", "4321", "a", configured⟩,
    .unlockByPin ⟨.pin1, "0", "a", configured⟩,
    .setCardLock ⟨.pin1, "4321", false, "a", configured⟩,
    .unlockByPuk ⟨.puk1, "1111", "1234", "a", configured⟩,
    .setCardLock ⟨.pin1, "1234", false, "a", configured⟩]

theorem protected_iff_listed_lostPin :
    (Protected card lostPin ↔ Along step Listed card lostPin) ∧ Along step Listed card lostPin ∧
      (lostPin.foldl step card).pin1 = ⟨"1234", 3, "1111", 3, false⟩ :=
  ⟨protected_iff_listed card (by unfold InRange; intro p; cases p <;> decide) lostPin
    (by unfold Request.Configured; decide), by decide, by decide⟩

/-- The second application is named, and the new PIN is set although the answer is an error. -/
theorem pin_set_with_error : ¬ ∀ (c : CardState) (es : List Request), InRange c →
    (∀ e ∈ es, e.Configured) → Protected c es := by
  intro h
  have hprotected := h card [.unlockByPuk ⟨.puk1, "1111", "4321", "b", configured⟩]
    (by unfold InRange; intro p; cases p <;> decide) (by unfold Request.Configured; decide)
  have hsame := (hprotected.errors.1 (by decide)) .pin1
  revert hsame
  decide

end Pins

end Card

end SatComm
