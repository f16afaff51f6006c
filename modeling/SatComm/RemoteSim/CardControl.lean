import SatComm.RemoteSim.Messages

/-!
# The card behind the provider

The provider turns messages of the daemon into calls of the SAP card manager. It opens a connection
to the card when it has none, which blocks the calling thread until the manager answers or 5
seconds are over. Two threads open connections, the one that reads the messages and the one of the
card listener, and no lock is held from the test of the connection to the flag that is set at last;
so these are steps of their own. `connection_kept` follows what the provider does when it has a
connection and no thread is about to open another one.
-/

namespace SatComm

namespace RemoteSim

/-- A call of the SAP card manager. -/
inductive SapCall
  | transmitApdu (args : TransmitApdu)
  | openConnection
  | closeConnection
  | requestAtr (msgType : UInt8)
  | requestSimPowerOn
  | requestSimPowerOff
  | requestSimReset
deriving DecidableEq, Repr

inductive CardState
  | absent
  | present
  | other
deriving DecidableEq, Repr

/-- How far a thread is with opening a connection: it has found that there is none, it waits in
`openSapConn`, or it has the answer that the connection is open. -/
inductive Opening
  | found
  | waiting
  | answered
deriving DecidableEq, Repr

/-- The thread that reads messages: opening a connection for `connectToCard` or for `powerUpCard`,
or waiting for the power. -/
inductive MainThread
  | idle
  | connecting (stage : Opening)
  | opening (stage : Opening)
  | poweringOn
deriving DecidableEq, Repr

structure CardControl where
  cardPresent : Bool
  cardConnected : Bool
  main : MainThread
  /-- The thread of the card listener opens a connection. -/
  inserting : Option Opening
deriving DecidableEq, Repr

/-- What comes to the provider, and how its threads go on when they open a connection; `listener` is
the thread. `accepted` is the status of the call of the manager that blocks. -/
inductive Input
  | message (buf : List UInt8) (accepted : Bool)
  | cardInfoChanged (state : CardState) (daemonConnected : Bool)
  | openConnection (listener accepted : Bool)
  | opened (listener : Bool) (result : Option Bool)
  | connected (listener accepted : Bool)
  | poweredOn (result : Option Bool)
  | resetDone (success : Bool)
  | closed (success : Bool)
  | poweredOff
deriving DecidableEq, Repr

/-- What the provider does: a call of the manager or a message to the daemon. -/
inductive Output
  | call (c : SapCall)
  | send (m : ProviderMsg)
deriving DecidableEq, Repr

namespace MainThread

def stage : MainThread → Option Opening
  | connecting stage => some stage
  | opening stage => some stage
  | idle => none
  | poweringOn => none

/-- The thread comes to a stage of the opening, or returns without a connection. -/
def goTo : MainThread → Option Opening → MainThread
  | connecting _, some stage => connecting stage
  | opening _, some stage => opening stage
  | _, _ => idle

end MainThread

namespace CardControl

def stage (s : CardControl) (listener : Bool) : Option Opening :=
  if listener then s.inserting else s.main.stage

/-- A thread is about to open a connection. -/
def Opens (s : CardControl) : Prop := ∃ listener, s.stage listener ≠ none

def goTo (s : CardControl) (listener : Bool) (stage : Option Opening) : CardControl :=
  if listener then { s with inserting := stage } else { s with main := s.main.goTo stage }

/-- `openSapConn` up to its wait. Two threads in it share one promise; the second one breaks it,
which ends the process. -/
def openSapConn (s : CardControl) (listener accepted : Bool) :
    Option (CardControl × List Output) :=
  if s.stage listener = some .found then
    if s.cardPresent = false then some (s.goTo listener none, [])
    else if s.stage (!listener) = some .waiting then none
    else
      some (s.goTo listener (if accepted then some .waiting else none), [.call .openConnection])
  else none

/-- The end of the wait in `openSapConn`. -/
def onOpened (s : CardControl) (listener : Bool) (result : Option Bool) :
    Option (CardControl × List Output) :=
  if s.stage listener = some .waiting then
    some (s.goTo listener (if result = some true then some .answered else none), [])
  else none

def connectToCard (s : CardControl) : CardControl × List Output :=
  if s.cardConnected = false then ({ s with main := .connecting .found }, [])
  else (s, [.call (.requestAtr cardResetMsg)])

/-- `requestPowerOn` behind the opening. -/
def powerOn (s : CardControl) (accepted : Bool) : CardControl × List Output :=
  ({ s with main := if accepted then .poweringOn else .idle }, [.call .requestSimPowerOn])

def powerUpCard (s : CardControl) (accepted : Bool) : CardControl × List Output :=
  if s.cardConnected = false then ({ s with main := .opening .found }, [])
  else s.powerOn accepted

/-- A call that is made only with an open connection. -/
def ifConnected (s : CardControl) (c : SapCall) : CardControl × List Output :=
  (s, if s.cardConnected then [.call c] else [])

def disconnectFromCard (s : CardControl) : CardControl × List Output :=
  s.ifConnected .closeConnection

def powerDownCard (s : CardControl) : CardControl × List Output :=
  s.ifConnected .requestSimPowerOff

def resetCard (s : CardControl) : CardControl × List Output := s.ifConnected .requestSimReset

def connectAfterCardInsertion (s : CardControl) (daemonConnected : Bool) :
    CardControl × List Output :=
  if s.cardConnected = false ∧ daemonConnected = true then ({ s with inserting := some .found }, [])
  else (s, [.call (.requestAtr cardInsertedMsg)])

def onCardInfoChanged (s : CardControl) (state : CardState) (daemonConnected : Bool) :
    CardControl × List Output :=
  match state with
  | .absent => ({ s with cardPresent := false, cardConnected := false }, [.send .cardRemoved])
  | .present => connectAfterCardInsertion { s with cardPresent := true } daemonConnected
  | .other => (s, [])

/-- The flag is set behind the wait in `openSapConn`, and the thread goes on. -/
def onConnected (s : CardControl) (listener accepted : Bool) : Option (CardControl × List Output) :=
  if listener then
    if s.inserting = some .answered then
      some ({ s with inserting := none, cardConnected := true },
        [.call (.requestAtr cardInsertedMsg)])
    else none
  else
    match s.main with
    | .connecting .answered =>
      some ({ s with main := .idle, cardConnected := true }, [.call (.requestAtr cardResetMsg)])
    | .opening .answered => some (powerOn { s with cardConnected := true } accepted)
    | _ => none

def onRequest (s : CardControl) (r : Request) (accepted : Bool) : CardControl × List Output :=
  match r with
  | .transmitApdu args => (s, [.call (.transmitApdu args)])
  | .connectToCard => s.connectToCard
  | .disconnectFromCard => s.disconnectFromCard
  | .powerUpCard => s.powerUpCard accepted
  | .powerDownCard => s.powerDownCard
  | .resetCard => s.resetCard
  | .sendConnKeepaliveResponse => (s, [.send .connKeepalive])

/-- A message is read by the main thread when it does not wait. -/
def onMessage (s : CardControl) (buf : List UInt8) (accepted : Bool) :
    Option (CardControl × List Output) :=
  if s.main = .idle then
    match handleDaemonMsg s.cardConnected buf with
    | some r => some (s.onRequest r accepted)
    | none => some (s, [])
  else none

def step (s : CardControl) : Input → Option (CardControl × List Output)
  | .message buf accepted => s.onMessage buf accepted
  | .cardInfoChanged state daemonConnected =>
    if s.inserting = none then some (s.onCardInfoChanged state daemonConnected) else none
  | .openConnection listener accepted => s.openSapConn listener accepted
  | .opened listener result => s.onOpened listener result
  | .connected listener accepted => s.onConnected listener accepted
  | .poweredOn result =>
    if s.main = .poweringOn then
      some ({ s with main := .idle },
        if result = some true then [.call (.requestAtr cardResetMsg)] else [])
    else none
  | .resetDone success => some (s, if success then [.call (.requestAtr cardResetMsg)] else [])
  | .closed _ => some (s, [])
  | .poweredOff => some (s, [])

/-- The provider after `init`: the state of the card is known, and there is no connection. -/
def initial (cardPresent : Bool) : CardControl := ⟨cardPresent, false, .idle, none⟩

/-- The state after a list of inputs, each of which has to be enabled, and all that was done. -/
def run : CardControl → List Input → Option (CardControl × List Output)
  | s, [] => some (s, [])
  | s, i :: is => (s.step i).bind fun r => (run r.1 is).map fun r' => (r'.1, r.2 ++ r'.2)

/-- The provider takes the connection for open, and no thread is about to open one. -/
structure Occupied (s : CardControl) : Prop where
  connected : s.cardConnected = true
  free : ¬ s.Opens

/-- The card is taken out. -/
def Removal (i : Input) : Prop := ∃ daemonConnected, i = .cardInfoChanged .absent daemonConnected

/-- The APDU of a request. -/
def apdu : Request → Option TransmitApdu
  | .transmitApdu args => some args
  | .connectToCard => none
  | .disconnectFromCard => none
  | .powerUpCard => none
  | .powerDownCard => none
  | .resetCard => none
  | .sendConnKeepaliveResponse => none

/-- The APDU that a message asks for. -/
def apduOf (cardConnected : Bool) : Input → Option TransmitApdu
  | .message buf _ => (handleDaemonMsg cardConnected buf).bind apdu
  | .cardInfoChanged .. => none
  | .openConnection .. => none
  | .opened .. => none
  | .connected .. => none
  | .poweredOn _ => none
  | .resetDone _ => none
  | .closed _ => none
  | .poweredOff => none

/-- The APDU that a call hands to the SIM. -/
def transmitted : Output → Option TransmitApdu
  | .call (.transmitApdu args) => some args
  | .call .openConnection => none
  | .call .closeConnection => none
  | .call (.requestAtr _) => none
  | .call .requestSimPowerOn => none
  | .call .requestSimPowerOff => none
  | .call .requestSimReset => none
  | .send _ => none

/-- The message that is sent. -/
def sent : Output → Option ProviderMsg
  | .call _ => none
  | .send m => some m

/-- What an output has to do with APDUs: none is made up, and no answer is. -/
structure Hands (args : Option TransmitApdu) (out : List Output) : Prop where
  apdus : out.filterMap transmitted = args.toList
  sent : ∀ m ∈ out.filterMap sent, m = .cardRemoved ∨ m = .connKeepalive

theorem hands_nil : Hands none [] := ⟨rfl, by simp⟩

/-- A call other than that for an APDU. -/
theorem hands_call {c : SapCall} (h : transmitted (.call c) = none) : Hands none [.call c] :=
  ⟨by simp [h], by simp [CardControl.sent]⟩

theorem openSapConn_hands {s s' : CardControl} {listener accepted : Bool} {out : List Output}
    (hs : s.openSapConn listener accepted = some (s', out)) : Hands none out := by
  rw [openSapConn] at hs
  split_ifs at hs <;> cases hs
  · exact hands_nil
  · exact hands_call rfl
  · exact hands_call rfl

theorem onOpened_hands {s s' : CardControl} {listener : Bool} {result : Option Bool}
    {out : List Output} (hs : s.onOpened listener result = some (s', out)) : Hands none out := by
  rw [onOpened] at hs
  split_ifs at hs <;> cases hs <;> exact hands_nil

theorem onConnected_hands {s s' : CardControl} {listener accepted : Bool} {out : List Output}
    (hs : s.onConnected listener accepted = some (s', out)) : Hands none out := by
  rw [onConnected] at hs
  split_ifs at hs
  · cases hs
    exact hands_call rfl
  · split at hs
    · cases hs
      exact hands_call rfl
    · cases hs
      exact hands_call rfl
    · cases hs

theorem ifConnected_hands (s : CardControl) {c : SapCall} (h : transmitted (.call c) = none) :
    Hands none (s.ifConnected c).2 := by
  rw [ifConnected]
  split
  · exact hands_call h
  · exact hands_nil

theorem onRequest_hands (s : CardControl) (r : Request) (accepted : Bool) :
    Hands (apdu r) (s.onRequest r accepted).2 := by
  cases r with
  | transmitApdu args => exact ⟨rfl, by simp [CardControl.sent, onRequest]⟩
  | connectToCard =>
    rw [onRequest, connectToCard]
    split
    · exact hands_nil
    · exact hands_call rfl
  | disconnectFromCard => exact ifConnected_hands s rfl
  | powerUpCard =>
    rw [onRequest, powerUpCard]
    split
    · exact hands_nil
    · exact hands_call rfl
  | powerDownCard => exact ifConnected_hands s rfl
  | resetCard => exact ifConnected_hands s rfl
  | sendConnKeepaliveResponse => exact ⟨rfl, by simp [CardControl.sent, onRequest]⟩

theorem onCardInfoChanged_hands (s : CardControl) (state : CardState) (daemonConnected : Bool) :
    Hands none (s.onCardInfoChanged state daemonConnected).2 := by
  cases state with
  | absent => exact ⟨rfl, by simp [CardControl.sent, onCardInfoChanged]⟩
  | present =>
    rw [onCardInfoChanged, connectAfterCardInsertion]
    split
    · exact hands_nil
    · exact hands_call rfl
  | other => exact hands_nil

/-- Only a message that asks for it makes the provider transmit an APDU. -/
theorem step_hands {s s' : CardControl} {i : Input} {out : List Output}
    (hs : s.step i = some (s', out)) : Hands (apduOf s.cardConnected i) out := by
  cases i with
  | message buf accepted =>
    rw [step, onMessage] at hs
    split at hs
    · cases hr : handleDaemonMsg s.cardConnected buf with
      | none =>
        rw [hr] at hs
        cases hs
        rw [apduOf, hr]
        exact hands_nil
      | some r =>
        rw [hr] at hs
        obtain ⟨rfl, rfl⟩ := Prod.ext_iff.mp (Option.some.inj hs)
        rw [apduOf, hr]
        exact onRequest_hands s r accepted
    · cases hs
  | cardInfoChanged state daemonConnected =>
    rw [step] at hs
    split at hs
    · obtain ⟨rfl, rfl⟩ := Prod.ext_iff.mp (Option.some.inj hs)
      exact onCardInfoChanged_hands s state daemonConnected
    · cases hs
  | openConnection listener accepted => exact openSapConn_hands hs
  | opened listener result => exact onOpened_hands hs
  | connected listener accepted => exact onConnected_hands hs
  | poweredOn result =>
    rw [step] at hs
    split at hs
    · cases hs
      split
      · exact hands_call rfl
      · exact hands_nil
    · cases hs
  | resetDone success =>
    cases hs
    cases success
    · exact hands_nil
    · exact hands_call rfl
  | closed success =>
    cases hs
    exact hands_nil
  | poweredOff =>
    cases hs
    exact hands_nil

/-- What one step does to a provider that takes the connection for open. -/
structure Keeps (s' : CardControl) (out : List Output) : Prop where
  occupied : s'.Occupied
  noOpening : Output.call .openConnection ∉ out

theorem Occupied.stage {s : CardControl} (h : s.Occupied) (listener : Bool) :
    s.stage listener = none := by
  by_contra hne
  exact h.free ⟨listener, hne⟩

theorem occupied_of_stages {s : CardControl} (hconn : s.cardConnected = true)
    (hlistener : s.inserting = none) (hmain : s.main.stage = none) : s.Occupied := by
  refine ⟨hconn, ?_⟩
  rintro ⟨listener, hne⟩
  cases listener
  · exact hne hmain
  · exact hne hlistener

theorem Occupied.powerOn {s : CardControl} (h : s.Occupied) (accepted : Bool) :
    (s.powerOn accepted).1.Occupied := by
  refine occupied_of_stages h.connected (h.stage true) ?_
  cases accepted <;> rfl

/-- With a connection that is taken for open, no request opens one. -/
theorem Occupied.onRequest {s : CardControl} (h : s.Occupied) (r : Request) (accepted : Bool) :
    Keeps (s.onRequest r accepted).1 (s.onRequest r accepted).2 := by
  have hconn := h.connected
  have hnot : ¬ s.cardConnected = false := by simp [hconn]
  cases r with
  | transmitApdu args => exact ⟨h, by simp [CardControl.onRequest]⟩
  | connectToCard =>
    rw [CardControl.onRequest, connectToCard, if_neg hnot]
    exact ⟨h, by simp⟩
  | disconnectFromCard =>
    exact ⟨h, by simp [CardControl.onRequest, disconnectFromCard, ifConnected, hconn]⟩
  | powerUpCard =>
    rw [CardControl.onRequest, powerUpCard, if_neg hnot]
    exact ⟨h.powerOn accepted, by simp [CardControl.powerOn]⟩
  | powerDownCard =>
    exact ⟨h, by simp [CardControl.onRequest, powerDownCard, ifConnected, hconn]⟩
  | resetCard => exact ⟨h, by simp [CardControl.onRequest, resetCard, ifConnected, hconn]⟩
  | sendConnKeepaliveResponse => exact ⟨h, by simp [CardControl.onRequest]⟩

theorem Occupied.onCardInfoChanged {s : CardControl} (h : s.Occupied) {state : CardState}
    (hstate : state ≠ .absent) (daemonConnected : Bool) :
    Keeps (s.onCardInfoChanged state daemonConnected).1
      (s.onCardInfoChanged state daemonConnected).2 := by
  cases state with
  | absent => exact absurd rfl hstate
  | present =>
    have hskip : ¬ (s.cardConnected = false ∧ daemonConnected = true) := by simp [h.connected]
    rw [CardControl.onCardInfoChanged, connectAfterCardInsertion, if_neg hskip]
    exact ⟨⟨h.connected, h.free⟩, by simp⟩
  | other => exact ⟨h, by simp [CardControl.onCardInfoChanged]⟩

/-- No thread goes on that is not about to open a connection. -/
theorem Occupied.goes_on {s : CardControl} (h : s.Occupied) (listener : Bool) :
    (∀ accepted, s.openSapConn listener accepted = none) ∧
      (∀ result, s.onOpened listener result = none) ∧
        ∀ accepted, s.onConnected listener accepted = none := by
  have hstage := h.stage listener
  refine ⟨fun accepted => ?_, fun result => ?_, fun accepted => ?_⟩
  · rw [openSapConn, hstage, if_neg (by simp)]
  · rw [onOpened, hstage, if_neg (by simp)]
  · have hmain : s.main.stage = none := h.stage false
    have hinserting : s.inserting = none := h.stage true
    rw [onConnected, hinserting]
    cases hthread : s.main with
    | idle => cases listener <;> rfl
    | poweringOn => cases listener <;> rfl
    | connecting stage =>
      rw [hthread] at hmain
      cases hmain
    | opening stage =>
      rw [hthread] at hmain
      cases hmain

/-- One step of a provider that takes the connection for open, unless the card is taken out. -/
theorem Occupied.step {s s' : CardControl} {i : Input} {out : List Output} (h : s.Occupied)
    (hi : ¬ Removal i) (hs : s.step i = some (s', out)) : Keeps s' out := by
  cases i with
  | message buf accepted =>
    rw [CardControl.step, onMessage] at hs
    split at hs
    · split at hs
      · rename_i r hr
        obtain ⟨rfl, rfl⟩ := Prod.ext_iff.mp (Option.some.inj hs)
        exact h.onRequest r accepted
      · cases hs
        exact ⟨h, by simp⟩
    · cases hs
  | cardInfoChanged state daemonConnected =>
    rw [CardControl.step] at hs
    split at hs
    · obtain ⟨rfl, rfl⟩ := Prod.ext_iff.mp (Option.some.inj hs)
      refine h.onCardInfoChanged ?_ daemonConnected
      rintro rfl
      exact hi ⟨daemonConnected, rfl⟩
    · cases hs
  | openConnection listener accepted =>
    rw [CardControl.step, (h.goes_on listener).1] at hs
    cases hs
  | opened listener result =>
    rw [CardControl.step, (h.goes_on listener).2.1] at hs
    cases hs
  | connected listener accepted =>
    rw [CardControl.step, (h.goes_on listener).2.2] at hs
    cases hs
  | poweredOn result =>
    rw [CardControl.step] at hs
    split at hs
    · cases hs
      refine ⟨occupied_of_stages h.connected (h.stage true) rfl, ?_⟩
      split <;> simp
    · cases hs
  | resetDone success =>
    cases hs
    exact ⟨h, by cases success <;> simp⟩
  | closed success =>
    cases hs
    exact ⟨h, by simp⟩
  | poweredOff =>
    cases hs
    exact ⟨h, by simp⟩

theorem run_cons {s s' : CardControl} {i : Input} {is : List Input} {out : List Output}
    (h : s.run (i :: is) = some (s', out)) :
    ∃ t done rest, s.step i = some (t, done) ∧ t.run is = some (s', rest) ∧ out = done ++ rest := by
  obtain ⟨⟨t, done⟩, ht, hrest⟩ := Option.bind_eq_some_iff.mp h
  obtain ⟨⟨u, rest⟩, hu, heq⟩ := Option.map_eq_some_iff.mp hrest
  cases heq
  exact ⟨t, done, rest, ht, hu, rfl⟩

theorem Occupied.run {s s' : CardControl} {is : List Input} {out : List Output} (h : s.Occupied)
    (hkeep : ∀ i ∈ is, ¬ Removal i) (hs : s.run is = some (s', out)) :
    s'.Occupied ∧ Output.call .openConnection ∉ out ∧
      out.filterMap transmitted = is.filterMap (apduOf true) := by
  induction is generalizing s out with
  | nil =>
    cases hs
    exact ⟨h, by simp, rfl⟩
  | cons i is ih =>
    obtain ⟨t, done, rest, ht, hrest, rfl⟩ := run_cons hs
    have hstep := h.step (hkeep i List.mem_cons_self) ht
    obtain ⟨hocc, hopen, hapdus⟩ := ih hstep.occupied
      (fun j hj => hkeep j (List.mem_cons_of_mem i hj)) hrest
    refine ⟨hocc, ?_, ?_⟩
    · intro hmem
      rcases List.mem_append.mp hmem with hmem | hmem
      · exact hstep.noOpening hmem
      · exact hopen hmem
    · have hdone := (step_hands ht).apdus
      rw [h.connected] at hdone
      rw [List.filterMap_append, hdone, hapdus]
      cases hi : apduOf true i with
      | none => simp [hi]
      | some args => simp [hi]

/-- The first connection, of which the reader is the only thread. -/
def connectedOnce : CardControl := ⟨true, true, .idle, none⟩

example : (initial true).run
    [.message [cardConnectMsg] true, .openConnection false true, .opened false (some true),
      .connected false true] =
    some (connectedOnce, [.call .openConnection, .call (.requestAtr cardResetMsg)]) := rfl

/-- The listener finds no connection, and then the reader sets the flag: the listener opens another
connection. -/
def overtaken : List Input :=
  [.message [cardConnectMsg] true, .cardInfoChanged .present true, .openConnection false true,
    .opened false (some true), .connected false true, .openConnection true true]

example : ((initial true).run overtaken).map Prod.snd = some
    [.call .openConnection, .call (.requestAtr cardResetMsg), .call .openConnection] := rfl

end CardControl

end RemoteSim

end SatComm
