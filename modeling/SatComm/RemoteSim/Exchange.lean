import SatComm.RemoteSim.CardControl
import SatComm.Runs.Basic

/-!
# APDUs between the modem and a remote SIM

The modem, the daemon, the provider and the SIM take steps in any order; between daemon and provider
is one stream of bytes each way. `Faithful` relates, over all interleavings in which a read returns
one message, what the modem is told to what the SIM answered, and this to what the modem asked.
-/

namespace SatComm

namespace RemoteSim

/-- What the daemon writes, each in one message. -/
inductive DaemonMsg
  | apduRequest (id : Nat) (c : Command)
  | cardConnect
  | cardDisconnect
  | cardPowerUp
  | cardPowerDown
  | cardReset
  | connKeepalive

def DaemonMsg.bytes : DaemonMsg → List UInt8
  | .apduRequest id c => sendApduRequest id c.encode
  | .cardConnect => [cardConnectMsg]
  | .cardDisconnect => [cardDisconnectMsg]
  | .cardPowerUp => [cardPowerUpMsg]
  | .cardPowerDown => [cardPowerDownMsg]
  | .cardReset => [cardResetMsg]
  | .connKeepalive => [connKeepaliveMsg]

/-- What the SIM is asked with a message. -/
def DaemonMsg.apdu : DaemonMsg → Option TransmitApdu
  | .apduRequest id c => some (c.transmit (UInt8.ofNat id))
  | .cardConnect => none
  | .cardDisconnect => none
  | .cardPowerUp => none
  | .cardPowerDown => none
  | .cardReset => none
  | .connKeepalive => none

/-- An answer of the SIM as the modem is told it. -/
def Event.answer : Event → Option (UInt8 × List UInt8)
  | .sendApdu apduId apdu => some (apduId, apdu)
  | .sendCardReset _ => none
  | .sendCardInserted _ => none
  | .sendCardRemoved => none

/-- An answer that one length byte can tell. -/
def shortAnswer (apduId : UInt8) (data : List Int) : Option (UInt8 × List UInt8) :=
  if data.length ≤ 255 then some (apduId, storedBytes data) else none

def ProviderMsg.answer : ProviderMsg → Option (UInt8 × List UInt8)
  | .apduResponse data apduId => shortAnswer apduId data
  | .cardReset _ => none
  | .cardInserted _ => none
  | .cardRemoved => none
  | .connKeepalive => none

structure Exchange where
  /-- The bytes that were written to either side and not read. -/
  toProvider : List UInt8
  toDaemon : List UInt8
  card : CardControl
  /-- The APDUs the SIM has yet to answer. -/
  pending : List TransmitApdu
  told : List Event
  /-- Where in the two streams the messages are. -/
  toRead : List DaemonMsg
  toHear : List ProviderMsg
  /-- What the modem asked, what reached the SIM, what the SIM answered, how often the connection
  was made anew. -/
  asked : List TransmitApdu
  transmitted : List TransmitApdu
  answered : List (TransmitApdu × List Int)
  relinks : Nat

inductive Label
  | write (m : DaemonMsg)
  | providerReads (n : Nat) (accepted : Bool)
  | card (i : Input)
  | atrResponse (msgType : UInt8) (responseAtr : List Int)
  | simAnswers (k : Nat) (data : List Int)
  | daemonReads (n : Nat)
  | relink

namespace Exchange

/-- A message of the provider. -/
def send (s : Exchange) (m : ProviderMsg) : Exchange :=
  { s with toDaemon := s.toDaemon ++ m.bytes, toHear := s.toHear ++ [m] }

/-- The provider does what its control of the card told; `accepted` is the status of a
`transmitApdu`. -/
def perform (s : Exchange) (accepted : Bool) (o : Output) : Exchange :=
  match o with
  | .send m => s.send m
  | .call (.transmitApdu args) =>
    { s with
      transmitted := s.transmitted ++ [args]
      pending := if accepted then s.pending ++ [args] else s.pending }
  | .call _ => s

/-- `AtrResponseCallback`. -/
def atrResponse (s : Exchange) (msgType : UInt8) (responseAtr : List Int) : Exchange :=
  if msgType = cardResetMsg then s.send (.cardReset responseAtr)
  else if msgType = cardInsertedMsg then s.send (.cardInserted responseAtr)
  else s

/-- A read returns at most `BUF_LEN` bytes, and at least one. -/
def Readable (stream : List UInt8) (n : Nat) : Prop := 0 < n ∧ n ≤ stream.length ∧ n ≤ 1024

instance (stream : List UInt8) (n : Nat) : Decidable (Readable stream n) :=
  inferInstanceAs (Decidable (_ ∧ _))

def step (s : Exchange) : Label → Option Exchange
  | .write m => some
      { s with
        toProvider := s.toProvider ++ m.bytes
        toRead := s.toRead ++ [m]
        asked := s.asked ++ m.apdu.toList }
  | .providerReads n accepted =>
    if Readable s.toProvider n then
      (s.card.step (.message (s.toProvider.take n) accepted)).map fun r =>
        r.2.foldl (perform · accepted)
          { s with
            card := r.1
            toProvider := s.toProvider.drop n
            toRead := s.toRead.tail }
    else none
  | .card (.message ..) => none
  | .card i => (s.card.step i).map fun r => r.2.foldl (perform · true) { s with card := r.1 }
  | .atrResponse msgType responseAtr => some (s.atrResponse msgType responseAtr)
  | .simAnswers k data => s.pending[k]?.map fun args =>
      { s.send (.apduResponse data args.apduId) with
        pending := s.pending.eraseIdx k
        answered := s.answered ++ [(args, data)] }
  | .daemonReads n =>
    if Readable s.toDaemon n then some
      { s with
        toDaemon := s.toDaemon.drop n
        toHear := s.toHear.tail
        told := s.told ++ (handleClientMsg (s.toDaemon.take n)).toList }
    else none
  | .relink => some
      { s with
        toProvider := []
        toDaemon := []
        toRead := []
        toHear := []
        relinks := s.relinks + 1 }

/-- A read returns one message. -/
def Aligned (s : Exchange) : Label → Prop
  | .providerReads n _ => ∃ m ∈ s.toRead.head?, n = m.bytes.length
  | .daemonReads n => ∃ m ∈ s.toHear.head?, n = m.bytes.length
  | .write _ => True
  | .card _ => True
  | .atrResponse .. => True
  | .simAnswers .. => True
  | .relink => True

def initial (cardPresent : Bool) : Exchange :=
  { toProvider := [], toDaemon := [], card := .initial cardPresent, pending := [], told := []
    toRead := [], toHear := [], asked := [], transmitted := [], answered := [], relinks := 0 }

/-- The answers of the SIM that one length byte can tell. -/
def answers (s : Exchange) : List (UInt8 × List UInt8) :=
  s.answered.filterMap fun a => shortAnswer a.1.apduId a.2

/-- The answers that the modem was told, and those on the way to it. -/
def delivered (s : Exchange) : List (UInt8 × List UInt8) :=
  s.told.filterMap Event.answer ++ s.toHear.filterMap ProviderMsg.answer

structure Faithful (s : Exchange) : Prop where
  toProvider : s.toProvider = s.toRead.flatMap DaemonMsg.bytes
  toDaemon : s.toDaemon = s.toHear.flatMap ProviderMsg.bytes
  asked : (s.transmitted ++ s.toRead.filterMap DaemonMsg.apdu).Sublist s.asked
  answered : (s.answered.map Prod.fst ++ s.pending).Subperm s.transmitted
  told : s.delivered.Sublist s.answers
  all : s.relinks = 0 → s.delivered = s.answers

/-- What the provider did, in all: it changed no other part of the state. -/
structure Performed (s : Exchange) (accepted : Bool) (out : List Output) (s' : Exchange) :
    Prop where
  toProvider : s'.toProvider = s.toProvider
  toRead : s'.toRead = s.toRead
  told : s'.told = s.told
  asked : s'.asked = s.asked
  answered : s'.answered = s.answered
  relinks : s'.relinks = s.relinks
  toDaemon : s'.toDaemon = s.toDaemon ++ (out.filterMap CardControl.sent).flatMap ProviderMsg.bytes
  toHear : s'.toHear = s.toHear ++ out.filterMap CardControl.sent
  transmitted : s'.transmitted = s.transmitted ++ out.filterMap CardControl.transmitted
  pending : s'.pending =
    s.pending ++ if accepted then out.filterMap CardControl.transmitted else []

theorem performed_nil (s : Exchange) (accepted : Bool) : Performed s accepted [] s where
  toProvider := rfl
  toRead := rfl
  told := rfl
  asked := rfl
  answered := rfl
  relinks := rfl
  toDaemon := by simp
  toHear := by simp
  transmitted := by simp
  pending := by simp

/-- A call that is not for an APDU changes nothing here. -/
theorem performed_call {s s' : Exchange} {accepted : Bool} {c : SapCall}
    (hc : CardControl.transmitted (.call c) = none) (hs : s' = s) :
    Performed s accepted [.call c] s' := by
  subst hs
  constructor <;> simp [CardControl.sent, hc]

theorem performed_singleton (s : Exchange) (accepted : Bool) (o : Output) :
    Performed s accepted [o] (s.perform accepted o) := by
  cases o with
  | send m => constructor <;> simp [perform, send, CardControl.sent, CardControl.transmitted]
  | call c =>
    cases c with
    | transmitApdu args =>
      cases accepted <;> constructor <;>
        simp [perform, CardControl.sent, CardControl.transmitted]
    | openConnection => exact performed_call rfl rfl
    | closeConnection => exact performed_call rfl rfl
    | requestAtr msgType => exact performed_call rfl rfl
    | requestSimPowerOn => exact performed_call rfl rfl
    | requestSimPowerOff => exact performed_call rfl rfl
    | requestSimReset => exact performed_call rfl rfl

theorem Performed.append {s t u : Exchange} {accepted : Bool} {out out' : List Output}
    (h : Performed s accepted out t) (h' : Performed t accepted out' u) :
    Performed s accepted (out ++ out') u where
  toProvider := h'.toProvider.trans h.toProvider
  toRead := h'.toRead.trans h.toRead
  told := h'.told.trans h.told
  asked := h'.asked.trans h.asked
  answered := h'.answered.trans h.answered
  relinks := h'.relinks.trans h.relinks
  toDaemon := by
    rw [h'.toDaemon, h.toDaemon, List.filterMap_append, List.flatMap_append, List.append_assoc]
  toHear := by rw [h'.toHear, h.toHear, List.filterMap_append, List.append_assoc]
  transmitted := by rw [h'.transmitted, h.transmitted, List.filterMap_append, List.append_assoc]
  pending := by
    rw [h'.pending, h.pending, List.filterMap_append, List.append_assoc]
    cases accepted <;> simp

theorem performed_foldl (s : Exchange) (accepted : Bool) (out : List Output) :
    Performed s accepted out (out.foldl (perform · accepted) s) := by
  induction out generalizing s with
  | nil => exact performed_nil s accepted
  | cons o out ih => exact (performed_singleton s accepted o).append (ih (s.perform accepted o))

/-- Messages without an answer do not change what is delivered. -/
theorem filterMap_answer_sent {args : Option TransmitApdu} {out : List Output}
    (h : CardControl.Hands args out) :
    (out.filterMap CardControl.sent).filterMap ProviderMsg.answer = [] := by
  apply List.filterMap_eq_nil_iff.mpr
  intro m hm
  rcases h.sent m hm with rfl | rfl
  · rfl
  · rfl

/-- The provider hands to the SIM at most what the next message in its stream asked for. -/
theorem Faithful.perform {s s' : Exchange} {args : Option TransmitApdu} {accepted : Bool}
    {out : List Output} (h : s.Faithful) (hout : CardControl.Hands args out)
    (hargs : (s.transmitted ++ args.toList ++ s.toRead.filterMap DaemonMsg.apdu).Sublist s.asked)
    (hs : Performed s accepted out s') : s'.Faithful := by
  have hdel : s'.delivered = s.delivered := by
    rw [delivered, delivered, hs.told, hs.toHear, List.filterMap_append,
      filterMap_answer_sent hout, List.append_nil]
  have hans : s'.answers = s.answers := by rw [answers, answers, hs.answered]
  refine ⟨?_, ?_, ?_, ?_, ?_, ?_⟩
  · rw [hs.toProvider, hs.toRead, h.toProvider]
  · rw [hs.toDaemon, hs.toHear, h.toDaemon, List.flatMap_append]
  · rw [hs.transmitted, hs.toRead, hs.asked, hout.apdus]
    exact hargs
  · rw [hs.answered, hs.pending, hs.transmitted, ← List.append_assoc, hout.apdus]
    cases accepted with
    | true => exact (List.subperm_append_right _).mpr h.answered
    | false =>
      simp only [Bool.false_eq_true, ↓reduceIte, List.append_nil]
      exact h.answered.trans (List.sublist_append_left _ _).subperm
  · rw [hdel, hans]
    exact h.told
  · rw [hs.relinks, hdel, hans]
    exact h.all

theorem Faithful.send {s : Exchange} {m : ProviderMsg} (h : s.Faithful) (hm : m.answer = none) :
    (s.send m).Faithful := by
  have hdel : (s.send m).delivered = s.delivered := by
    simp [delivered, Exchange.send, hm]
  refine ⟨h.toProvider, ?_, h.asked, h.answered, ?_, ?_⟩
  · simp [Exchange.send, h.toDaemon]
  · rw [hdel]
    exact h.told
  · intro hz
    rw [hdel]
    exact h.all hz

theorem Body.spares_nil (b : Body) : b.Spares [] := by
  cases b with
  | case1 => simp [Body.Spares]
  | case2 le => exact .inl rfl
  | case3 data => simp [Body.Spares]
  | case4 data le => trivial

/-- A message that was read alone asks for its own APDU, or for none without a connection. -/
theorem apdu_of_message (connected : Bool) (m : DaemonMsg) :
    (handleDaemonMsg connected m.bytes).bind CardControl.apdu = m.apdu ∨
      (handleDaemonMsg connected m.bytes).bind CardControl.apdu = none := by
  cases m with
  | apduRequest id c =>
    cases connected with
    | false => exact .inr rfl
    | true =>
      have hkept : c.body.Kept c.body.encode :=
        .inl ⟨[], (List.append_nil _).symm, Body.spares_nil c.body⟩
      have hread := (handleDaemonMsg_header c id c.body.encode).mpr
        ((readBody_eq_iff c.body (List.prefix_append c.body.encode [])).mpr hkept)
      refine .inl ?_
      rw [DaemonMsg.bytes]
      exact congrArg (Option.bind · CardControl.apdu) hread
  | cardConnect => exact .inl rfl
  | cardDisconnect => exact .inl rfl
  | cardPowerUp => exact .inl rfl
  | cardPowerDown => exact .inl rfl
  | cardReset => exact .inl rfl
  | connKeepalive => exact .inl rfl

/-- A message that was read alone tells the modem its own answer, if one byte can tell its
length. -/
theorem answer_of_message (m : ProviderMsg) :
    (handleClientMsg m.bytes).bind Event.answer = m.answer := by
  cases m with
  | apduResponse data apduId =>
    have hmsg : handleClientMsg (ProviderMsg.apduResponse data apduId).bytes =
        handleApduTransfer (sendApduResponse data apduId) := rfl
    rw [hmsg, sendApduResponse, handleApduTransfer_eq, toNat_length_byte, length_storedBytes]
    by_cases h : data.length ≤ 255
    · have hall := bytesFrom_append (storedBytes data) []
      rw [List.append_nil, length_storedBytes] at hall
      rw [if_pos (by omega), Nat.mod_eq_of_lt (by omega), hall]
      simp [Event.answer, ProviderMsg.answer, shortAnswer, h]
    · rw [if_neg (by omega)]
      simp [ProviderMsg.answer, shortAnswer, h]
  | cardReset atr =>
    have hmsg : handleClientMsg (ProviderMsg.cardReset atr).bytes =
        (answerToReset (sendCardResetResponse atr)).map .sendCardReset := rfl
    rw [hmsg]
    cases answerToReset (sendCardResetResponse atr) <;> rfl
  | cardInserted atr =>
    have hmsg : handleClientMsg (ProviderMsg.cardInserted atr).bytes =
        (answerToReset (sendCardInsertedMessage atr)).map .sendCardInserted := rfl
    rw [hmsg]
    cases answerToReset (sendCardInsertedMessage atr) <;> rfl
  | cardRemoved => rfl
  | connKeepalive => rfl

/-- What a stream holds when a read took its first message. -/
theorem drop_read {α : Type*} {bytes : α → List UInt8} {stream : List UInt8} {m : α}
    {rest : List α} (h : stream = (m :: rest).flatMap bytes) :
    stream.take (bytes m).length = bytes m ∧ stream.drop (bytes m).length = rest.flatMap bytes := by
  rw [h, List.flatMap_cons]
  exact ⟨List.take_left, List.drop_left⟩

theorem Faithful.write {s s' : Exchange} {m : DaemonMsg} (h : s.Faithful)
    (hs : s.step (.write m) = some s') : s'.Faithful := by
  cases hs
  refine ⟨?_, h.toDaemon, ?_, h.answered, h.told, h.all⟩
  · simp [h.toProvider]
  · have hmsgs : (s.toRead ++ [m]).filterMap DaemonMsg.apdu =
        s.toRead.filterMap DaemonMsg.apdu ++ m.apdu.toList := by
      cases hm : m.apdu <;> simp [hm]
    rw [hmsgs, ← List.append_assoc]
    exact h.asked.append_right _

theorem Faithful.providerReads {s s' : Exchange} {n : Nat} {accepted : Bool} (h : s.Faithful)
    (hn : s.Aligned (.providerReads n accepted))
    (hs : s.step (.providerReads n accepted) = some s') : s'.Faithful := by
  obtain ⟨m, hm, rfl⟩ := hn
  obtain ⟨rest, hread⟩ : ∃ rest, s.toRead = m :: rest := by
    cases hr : s.toRead with
    | nil => simp [hr] at hm
    | cons m' rest =>
      rw [hr] at hm
      cases hm
      exact ⟨rest, rfl⟩
  obtain ⟨htake, hdrop⟩ := drop_read (hread ▸ h.toProvider)
  simp only [step] at hs
  split at hs
  · obtain ⟨⟨card, out⟩, hcard, rfl⟩ := Option.map_eq_some_iff.mp hs
    have hhands := CardControl.step_hands hcard
    have htail : s.toRead.tail = rest := by rw [hread]; rfl
    have hasked := h.asked
    rw [hread] at hasked
    have hbase : Faithful { s with
        card := card, toProvider := rest.flatMap DaemonMsg.bytes, toRead := rest } := by
      refine ⟨rfl, h.toDaemon, ?_, h.answered, h.told, h.all⟩
      refine (List.Sublist.append_left ?_ s.transmitted).trans hasked
      exact (List.sublist_cons_self m rest).filterMap _
    rw [hdrop, htail]
    refine hbase.perform hhands ?_ (performed_foldl _ accepted out)
    rw [CardControl.apduOf, htake]
    rcases apdu_of_message s.card.cardConnected m with hapdu | hapdu
    · rw [hapdu]
      cases hm : m.apdu with
      | none => simpa [hm] using hasked
      | some args => simpa [hm] using hasked
    · rw [hapdu]
      simpa using hbase.asked
  · cases hs

theorem Faithful.card {s s' : Exchange} {i : Input} (h : s.Faithful)
    (hs : s.step (.card i) = some s') : s'.Faithful := by
  have hother : ∀ {i : Input}, (∀ c, CardControl.apduOf c i = none) →
      ((s.card.step i).map fun r => r.2.foldl (Exchange.perform · true) { s with card := r.1 }) =
        some s' → s'.Faithful := by
    intro i hi heq
    obtain ⟨⟨card, out⟩, hcard, rfl⟩ := Option.map_eq_some_iff.mp heq
    have hhands := CardControl.step_hands hcard
    rw [hi] at hhands
    have hbase : Faithful { s with card := card } :=
      ⟨h.toProvider, h.toDaemon, h.asked, h.answered, h.told, h.all⟩
    refine hbase.perform hhands ?_ (performed_foldl _ true out)
    simpa using h.asked
  cases i with
  | message buf accepted => cases hs
  | cardInfoChanged state daemonConnected => exact hother (fun _ => rfl) hs
  | openConnection listener accepted =>
    exact hother (i := .openConnection listener accepted) (fun _ => rfl) hs
  | opened listener result => exact hother (i := .opened listener result) (fun _ => rfl) hs
  | connected listener accepted =>
    exact hother (i := .connected listener accepted) (fun _ => rfl) hs
  | poweredOn result => exact hother (fun _ => rfl) hs
  | resetDone success => exact hother (i := .resetDone success) (fun _ => rfl) hs
  | closed success => exact hother (i := .closed success) (fun _ => rfl) hs
  | poweredOff => exact hother (i := .poweredOff) (fun _ => rfl) hs

theorem Faithful.atrResponse {s : Exchange} (h : s.Faithful) (msgType : UInt8)
    (responseAtr : List Int) : (s.atrResponse msgType responseAtr).Faithful := by
  rw [Exchange.atrResponse]
  split
  · exact h.send rfl
  · split
    · exact h.send rfl
    · exact h

theorem eraseIdx_perm {α : Type*} {l : List α} {k : Nat} {x : α} (h : l[k]? = some x) :
    (x :: l.eraseIdx k).Perm l := by
  obtain ⟨hk, rfl⟩ := List.getElem?_eq_some_iff.mp h
  exact List.getElem_cons_eraseIdx_perm hk

theorem Faithful.simAnswers {s s' : Exchange} {k : Nat} {data : List Int} (h : s.Faithful)
    (hs : s.step (.simAnswers k data) = some s') : s'.Faithful := by
  obtain ⟨args, hk, rfl⟩ := Option.map_eq_some_iff.mp hs
  have hnew : [ProviderMsg.apduResponse data args.apduId].filterMap ProviderMsg.answer =
      [(args, data)].filterMap fun a => shortAnswer a.1.apduId a.2 := rfl
  refine ⟨h.toProvider, ?_, h.asked, ?_, ?_, ?_⟩
  · simp [Exchange.send, h.toDaemon]
  · refine List.Subperm.trans (List.Perm.subperm ?_) h.answered
    rw [List.map_append, List.append_assoc]
    exact (eraseIdx_perm hk).append_left _
  · simp only [delivered, answers, Exchange.send, List.filterMap_append, hnew, ← List.append_assoc]
    exact h.told.append_right _
  · intro hz
    have hall := h.all hz
    simp only [delivered, answers] at hall
    simp only [delivered, answers, Exchange.send, List.filterMap_append, hnew, ← List.append_assoc,
      hall]

theorem Faithful.daemonReads {s s' : Exchange} {n : Nat} (h : s.Faithful)
    (hn : s.Aligned (.daemonReads n)) (hs : s.step (.daemonReads n) = some s') :
    s'.Faithful := by
  obtain ⟨m, hm, rfl⟩ := hn
  obtain ⟨rest, hhear⟩ : ∃ rest, s.toHear = m :: rest := by
    cases hr : s.toHear with
    | nil => simp [hr] at hm
    | cons m' rest =>
      rw [hr] at hm
      cases hm
      exact ⟨rest, rfl⟩
  obtain ⟨htake, hdrop⟩ := drop_read (hhear ▸ h.toDaemon)
  simp only [step] at hs
  split at hs
  · cases hs
    have htail : s.toHear.tail = rest := by rw [hhear]; rfl
    rw [htake, hdrop, htail]
    have hsame : s.delivered =
        (s.told ++ (handleClientMsg m.bytes).toList).filterMap Event.answer ++
          rest.filterMap ProviderMsg.answer := by
      have hevent : (handleClientMsg m.bytes).toList.filterMap Event.answer = m.answer.toList := by
        rw [← answer_of_message m]
        cases handleClientMsg m.bytes with
        | none => rfl
        | some e => cases he : e.answer <;> simp [he]
      rw [delivered, hhear, List.filterMap_append, hevent]
      cases hans : m.answer <;> simp [hans]
    refine ⟨h.toProvider, rfl, h.asked, h.answered, ?_, ?_⟩
    · have htold := h.told
      rw [hsame] at htold
      exact htold
    · intro hz
      have hall := h.all hz
      rw [hsame] at hall
      exact hall
  · cases hs

theorem Faithful.relink {s s' : Exchange} (h : s.Faithful) (hs : s.step .relink = some s') :
    s'.Faithful := by
  cases hs
  refine ⟨rfl, rfl, ?_, h.answered, ?_, fun hz => absurd hz (Nat.succ_ne_zero _)⟩
  · simpa using (List.sublist_append_left _ _).trans h.asked
  · have htold : (s.told.filterMap Event.answer).Sublist s.answers :=
      (List.sublist_append_left _ _).trans h.told
    rw [delivered, List.filterMap_nil, List.append_nil]
    exact htold

theorem faithful_initial (cardPresent : Bool) : (initial cardPresent).Faithful :=
  ⟨rfl, rfl, List.Sublist.refl _, List.Subperm.refl _, List.Sublist.refl _, fun _ => rfl⟩

/-- A step of any party keeps the exchange faithful when its read returns one message. -/
theorem Faithful.step {s s' : Exchange} {l : Label} (h : s.Faithful) (hl : s.Aligned l)
    (hs : s.step l = some s') : s'.Faithful := by
  cases l with
  | write m => exact h.write hs
  | providerReads n accepted => exact h.providerReads hl hs
  | card i => exact h.card hs
  | atrResponse msgType responseAtr =>
    cases hs
    exact h.atrResponse msgType responseAtr
  | simAnswers k data => exact h.simAnswers hs
  | daemonReads n => exact h.daemonReads hl hs
  | relink => exact h.relink hs

theorem faithful_of_reachable {cardPresent : Bool} {s : Exchange}
    (h : Runs.Reachable step Aligned (initial cardPresent) s) : s.Faithful :=
  h.invariant (faithful_initial cardPresent) fun _ _ _ hok hs hinv => hinv.step hok hs

instance (s : Exchange) : ∀ l, Decidable (s.Aligned l)
  | .providerReads n _ => inferInstanceAs (Decidable (∃ m ∈ s.toRead.head?, n = m.bytes.length))
  | .daemonReads n => inferInstanceAs (Decidable (∃ m ∈ s.toHear.head?, n = m.bytes.length))
  | .write _ => inferInstanceAs (Decidable True)
  | .card _ => inferInstanceAs (Decidable True)
  | .atrResponse .. => inferInstanceAs (Decidable True)
  | .simAnswers .. => inferInstanceAs (Decidable True)
  | .relink => inferInstanceAs (Decidable True)

/-- A connect request, an APDU, and its answer. -/
def oneApdu : List Label :=
  [.write .cardConnect, .providerReads 1 true, .card (.openConnection false true),
    .card (.opened false (some true)), .card (.connected false true),
    .write (.apduRequest 7 selectMf), .providerReads 9 true, .simAnswers 0 [0x90, 0],
    .daemonReads 5]

end Exchange

end RemoteSim

end SatComm
