import SatComm.RemoteSim.Messages
import Mathlib.Algebra.Ring.Int.Defs

/-!
# The daemon's view of its client and of the modem

The loop of the daemon accepts a client, reads from it, asks a silent one for a sign of life and
drops one that gives none, and tells the modem whether there is a client. What happened is kept in a
log, the latest first. The flags of the daemon are functions of that log (`told_runDaemon`); what
they stand for is read off there.
-/

namespace SatComm

namespace RemoteSim

namespace Supervision

structure Daemon where
  clientConnected : Bool
  pendingKeepalive : Bool
  lastReceivedMsgTime : Int
  modemConnected : Bool
deriving DecidableEq, Repr

inductive Note
  | accepted (now : Int)
  | received (now : Int) (buf : List UInt8)
  | closed
  | hungUp
  | asked (now : Int)
  | timedOut (now : Int)
  | available
  | unavailable
  | serviceUp
  | serviceDown
deriving DecidableEq, Repr

/-- What one turn of the loop finds. `read` is what a read gives, if it gives any; `readTime` and
`currentTime` are the clock after the read and at the end of the turn. -/
structure Turn where
  pollIn : Bool
  read : Option (List UInt8)
  hangUp : Bool
  readTime : Int
  currentTime : Int
deriving DecidableEq, Repr

inductive Happening
  | turn (t : Turn)
  | serviceAvailable
  | serviceUnavailable
deriving DecidableEq, Repr

/-- The part of `handleClientConnection` that reads. -/
def readClient (s : Daemon) (t : Turn) : Daemon × List Note :=
  if t.pollIn then
    match t.read with
    | none => ({ s with clientConnected := false }, [.closed])
    | some buf =>
      ({ s with pendingKeepalive := false, lastReceivedMsgTime := t.readTime },
        [.received t.readTime buf])
  else (s, [])

def checkErrors (s : Daemon) (t : Turn) : Daemon × List Note :=
  if s.clientConnected = true ∧ t.hangUp = true then
    ({ s with clientConnected := false }, [.hungUp])
  else (s, [])

def superviseClient (s : Daemon) (t : Turn) : Daemon × List Note :=
  if s.clientConnected = true ∧ 10 < t.currentTime - s.lastReceivedMsgTime then
    if s.pendingKeepalive = false then ({ s with pendingKeepalive := true }, [.asked t.currentTime])
    else if 13 < t.currentTime - s.lastReceivedMsgTime then
      ({ s with clientConnected := false, pendingKeepalive := false }, [.timedOut t.currentTime])
    else (s, [])
  else (s, [])

def acceptClientConnection (s : Daemon) (t : Turn) : Daemon × List Note :=
  ({ s with clientConnected := true, lastReceivedMsgTime := t.currentTime },
    [.accepted t.currentTime])

/-- Do `f` and put what it notes in front of the log. -/
def noting (f : Daemon → Daemon × List Note) (r : Daemon × List Note) : Daemon × List Note :=
  ((f r.1).1, (f r.1).2 ++ r.2)

def handleClientConnection (t : Turn) (r : Daemon × List Note) : Daemon × List Note :=
  if r.1.clientConnected then
    noting (superviseClient · t) (noting (checkErrors · t) (noting (readClient · t) r))
  else noting (acceptClientConnection · t) r

def notifyModemConnAvailable (s : Daemon) : Daemon × List Note :=
  if s.modemConnected = false then ({ s with modemConnected := true }, [.available]) else (s, [])

def notifyModemConnUnavailable (s : Daemon) : Daemon × List Note :=
  if s.modemConnected = true then ({ s with modemConnected := false }, [.unavailable]) else (s, [])

/-- The end of a turn of the loop. -/
def notifyModem (s : Daemon) : Daemon × List Note :=
  if s.clientConnected = true ∧ s.modemConnected = false then notifyModemConnAvailable s
  else if s.clientConnected = false ∧ s.modemConnected = true then notifyModemConnUnavailable s
  else (s, [])

/-- `onServiceStatusChange(SERVICE_AVAILABLE)`. -/
def onServiceAvailable (s : Daemon) : Daemon × List Note :=
  if s.clientConnected then notifyModemConnAvailable s else (s, [])

def step (r : Daemon × List Note) : Happening → Daemon × List Note
  | .turn t => noting notifyModem (handleClientConnection t r)
  | .serviceAvailable => noting onServiceAvailable (r.1, .serviceUp :: r.2)
  | .serviceUnavailable => noting notifyModemConnUnavailable (r.1, .serviceDown :: r.2)

/-- After `initDaemon`, which accepted a client, at the start of the loop. -/
def initial (now : Int) : Daemon × List Note :=
  (⟨true, false, now, true⟩, [.available, .accepted now])

section Log

variable {α : Type*}

/-- What the latest note of a kind says. -/
def latest (f : Note → Option α) (d : α) : List Note → α
  | [] => d
  | n :: log => (f n).getD (latest f d log)

def connection : Note → Option Bool
  | .accepted _ => some true
  | .closed => some false
  | .hungUp => some false
  | .timedOut _ => some false
  | _ => none

/-- There is a client. -/
def connected (log : List Note) : Bool := latest connection false log

def heard : Note → Option Int
  | .accepted now => some now
  | .received now _ => some now
  | _ => none

/-- When something came from a client last, be it its connection. -/
def heardAt (log : List Note) : Int := latest heard 0 log

def request : Note → Option Bool
  | .asked _ => some true
  | .received .. => some false
  | .timedOut _ => some false
  | _ => none

/-- A client was asked, and since then no message came and no client timed out. -/
def unanswered (log : List Note) : Bool := latest request false log

def availability : Note → Option Bool
  | .available => some true
  | .unavailable => some false
  | _ => none

/-- The last call for the modem was that a connection is available. -/
def announced (log : List Note) : Bool := latest availability false log

def requestHere : Note → Option Bool
  | .asked _ => some true
  | .received .. => some false
  | .accepted _ => some false
  | _ => none

/-- The client of now was asked, and no message came since. -/
def askedHere (log : List Note) : Bool := latest requestHere false log

/-- A request was open when the client of now was accepted, and nothing was asked or received
since. -/
def leftOpen : List Note → Bool
  | [] => false
  | .accepted _ :: log => unanswered log
  | .asked _ :: _ => false
  | .received .. :: _ => false
  | _ :: log => leftOpen log

def service : Note → Option Bool
  | .serviceUp => some true
  | .serviceDown => some false
  | _ => none

/-- The remote SIM service of the modem is there, as it is at the start. -/
def serviceIsUp (log : List Note) : Bool := latest service true log

/-- The last announcement of a connection was made while the service was not there. -/
def announcedInVain : List Note → Bool
  | [] => false
  | .available :: log => !serviceIsUp log
  | _ :: log => announcedInVain log

/-- The service that is there was told of a connection and not of its end. -/
def modemKnows : List Note → Bool
  | [] => false
  | .available :: log => serviceIsUp log
  | .unavailable :: _ => false
  | .serviceDown :: _ => false
  | _ :: log => modemKnows log

end Log

/-- The state is what the log tells. -/
structure Told (r : Daemon × List Note) : Prop where
  client : r.1.clientConnected = connected r.2
  pending : r.1.pendingKeepalive = unanswered r.2
  heard : r.1.lastReceivedMsgTime = heardAt r.2
  modem : r.1.modemConnected = announced r.2

/-- One note, when the state changes as it tells. -/
theorem Told.note {r : Daemon × List Note} (h : Told r) {s : Daemon} {n : Note}
    (hclient : s.clientConnected = (connection n).getD r.1.clientConnected)
    (hpending : s.pendingKeepalive = (request n).getD r.1.pendingKeepalive)
    (hheard : s.lastReceivedMsgTime = (Supervision.heard n).getD r.1.lastReceivedMsgTime)
    (hmodem : s.modemConnected = (availability n).getD r.1.modemConnected) : Told (s, n :: r.2) where
  client := by rw [hclient, h.client]; rfl
  pending := by rw [hpending, h.pending]; rfl
  heard := by rw [hheard, h.heard]; rfl
  modem := by rw [hmodem, h.modem]; rfl

section Parts

variable {r : Daemon × List Note} (h : Told r) (t : Turn)

include h

theorem Told.readClient : Told (noting (readClient · t) r) := by
  simp only [noting, Supervision.readClient]
  split
  · split
    · exact h.note rfl rfl rfl rfl
    · exact h.note rfl rfl rfl rfl
  · exact h

theorem Told.checkErrors : Told (noting (checkErrors · t) r) := by
  simp only [noting, Supervision.checkErrors]
  split
  · exact h.note rfl rfl rfl rfl
  · exact h

theorem Told.superviseClient : Told (noting (superviseClient · t) r) := by
  simp only [noting, Supervision.superviseClient]
  split
  · split
    · exact h.note rfl rfl rfl rfl
    · split
      · exact h.note rfl rfl rfl rfl
      · exact h
  · exact h

theorem Told.handleClientConnection : Told (handleClientConnection t r) := by
  rw [Supervision.handleClientConnection]
  split
  · exact ((h.readClient t).checkErrors t).superviseClient t
  · exact h.note rfl rfl rfl rfl

theorem Told.notifyModemConnAvailable : Told (noting notifyModemConnAvailable r) := by
  simp only [noting, Supervision.notifyModemConnAvailable]
  split
  · exact h.note rfl rfl rfl rfl
  · exact h

theorem Told.notifyModemConnUnavailable : Told (noting notifyModemConnUnavailable r) := by
  simp only [noting, Supervision.notifyModemConnUnavailable]
  split
  · exact h.note rfl rfl rfl rfl
  · exact h

theorem Told.notifyModem : Told (noting notifyModem r) := by
  by_cases hup : r.1.clientConnected = true ∧ r.1.modemConnected = false
  · have heq : noting Supervision.notifyModem r =
        noting Supervision.notifyModemConnAvailable r := by
      simp only [noting, Supervision.notifyModem, if_pos hup]
    rw [heq]
    exact h.notifyModemConnAvailable
  · by_cases hdown : r.1.clientConnected = false ∧ r.1.modemConnected = true
    · have heq : noting Supervision.notifyModem r =
          noting Supervision.notifyModemConnUnavailable r := by
        simp only [noting, Supervision.notifyModem, if_neg hup, if_pos hdown]
      rw [heq]
      exact h.notifyModemConnUnavailable
    · have heq : noting Supervision.notifyModem r = r := by
        simp only [noting, Supervision.notifyModem, if_neg hup, if_neg hdown, List.nil_append]
      rw [heq]
      exact h

end Parts

theorem told_initial (now : Int) : Told (initial now) := ⟨rfl, rfl, rfl, rfl⟩

theorem Told.step {r : Daemon × List Note} (h : Told r) (e : Happening) : Told (step r e) := by
  cases e with
  | turn t => exact (h.handleClientConnection t).notifyModem
  | serviceAvailable =>
    have hnote : Told (r.1, .serviceUp :: r.2) := h.note rfl rfl rfl rfl
    by_cases hup : r.1.clientConnected = true
    · have heq : Supervision.step r .serviceAvailable =
          noting Supervision.notifyModemConnAvailable (r.1, .serviceUp :: r.2) := by
        simp only [Supervision.step, noting, onServiceAvailable, if_pos hup]
      rw [heq]
      exact hnote.notifyModemConnAvailable
    · have heq : Supervision.step r .serviceAvailable = (r.1, .serviceUp :: r.2) := by
        simp only [Supervision.step, noting, onServiceAvailable, if_neg hup, List.nil_append]
      rw [heq]
      exact hnote
  | serviceUnavailable =>
    have hnote : Told (r.1, .serviceDown :: r.2) := h.note rfl rfl rfl rfl
    exact hnote.notifyModemConnUnavailable

/-- The daemon after a list of happenings. -/
def runDaemon (now : Int) (es : List Happening) : Daemon × List Note := es.foldl step (initial now)

theorem told_runDaemon (now : Int) (es : List Happening) : Told (runDaemon now es) := by
  have hrun : ∀ r, Told r → Told (es.foldl step r) := by
    induction es with
    | nil => exact fun _ h => h
    | cons e es ih => exact fun r h => ih _ (h.step e)
  exact hrun _ (told_initial now)

/-- What has to have happened for a note to be made. -/
def Fits : Note → List Note → Prop
  | .accepted _, log => connected log = false
  | .received .., log => connected log = true
  | .closed, log => connected log = true
  | .hungUp, log => connected log = true
  | .asked now, log => connected log = true ∧ unanswered log = false ∧ 10 < now - heardAt log
  | .timedOut now, log => connected log = true ∧ unanswered log = true ∧ 13 < now - heardAt log
  | .available, log => announced log = false
  | .unavailable, log => announced log = true
  | .serviceUp, _ => True
  | .serviceDown, _ => True

/-- Each note fits what was in the log before. -/
def Sound (log : List Note) : Prop :=
  ∀ later n earlier, log = later ++ n :: earlier → Fits n earlier

theorem sound_nil : Sound [] := by
  intro later n earlier h
  simp at h

theorem Sound.cons {n : Note} {log : List Note} (h : Sound log) (hn : Fits n log) :
    Sound (n :: log) := by
  intro later n' earlier heq
  cases later with
  | nil =>
    cases heq
    exact hn
  | cons _ later =>
    cases heq
    exact h later n' earlier rfl

section SoundParts

variable {r : Daemon × List Note} (h : Told r) (hs : Sound r.2) (t : Turn)

include h hs

theorem sound_readClient (hc : r.1.clientConnected = true) : Sound (noting (readClient · t) r).2 := by
  have hconn : connected r.2 = true := h.client ▸ hc
  simp only [noting, readClient]
  split
  · split
    · exact hs.cons hconn
    · exact hs.cons hconn
  · exact hs

theorem sound_checkErrors : Sound (noting (checkErrors · t) r).2 := by
  simp only [noting, checkErrors]
  split
  · rename_i hc
    exact hs.cons (h.client.symm.trans hc.1)
  · exact hs

theorem sound_superviseClient : Sound (noting (superviseClient · t) r).2 := by
  simp only [noting, superviseClient]
  split
  · rename_i hc
    obtain ⟨hconn, hten⟩ := hc
    rw [h.client] at hconn
    split
    · rename_i hpending
      exact hs.cons ⟨hconn, h.pending ▸ hpending, h.heard ▸ hten⟩
    · rename_i hpending
      split
      · rename_i hthirteen
        refine hs.cons ⟨hconn, ?_, h.heard ▸ hthirteen⟩
        rw [← h.pending]
        simpa using hpending
      · exact hs
  · exact hs

theorem sound_handleClientConnection : Sound (handleClientConnection t r).2 := by
  rw [handleClientConnection]
  split
  · rename_i hc
    have hread := sound_readClient h hs t hc
    have herrors := sound_checkErrors (h.readClient t) hread t
    exact sound_superviseClient ((h.readClient t).checkErrors t) herrors t
  · rename_i hc
    refine hs.cons ?_
    rw [Fits, ← h.client]
    simpa using hc

theorem sound_notifyModemConnAvailable : Sound (noting notifyModemConnAvailable r).2 := by
  simp only [noting, notifyModemConnAvailable]
  split
  · rename_i hm
    exact hs.cons (h.modem.symm.trans hm)
  · exact hs

theorem sound_notifyModemConnUnavailable : Sound (noting notifyModemConnUnavailable r).2 := by
  simp only [noting, notifyModemConnUnavailable]
  split
  · rename_i hm
    exact hs.cons (h.modem.symm.trans hm)
  · exact hs

theorem sound_notifyModem : Sound (noting notifyModem r).2 := by
  simp only [noting, notifyModem]
  split
  · exact sound_notifyModemConnAvailable h hs
  · split
    · exact sound_notifyModemConnUnavailable h hs
    · exact hs

theorem sound_step (e : Happening) : Sound (step r e).2 := by
  cases e with
  | turn t => exact sound_notifyModem (h.handleClientConnection t) (sound_handleClientConnection h hs t)
  | serviceAvailable =>
    have hnote : Told (r.1, .serviceUp :: r.2) := h.note rfl rfl rfl rfl
    have hsound : Sound (.serviceUp :: r.2) := hs.cons trivial
    simp only [step, noting, onServiceAvailable]
    split
    · exact sound_notifyModemConnAvailable hnote hsound
    · exact hsound
  | serviceUnavailable =>
    have hnote : Told (r.1, .serviceDown :: r.2) := h.note rfl rfl rfl rfl
    exact sound_notifyModemConnUnavailable hnote (hs.cons trivial)

end SoundParts

theorem sound_runDaemon (now : Int) (es : List Happening) : Sound (runDaemon now es).2 := by
  have hrun : ∀ r, Told r → Sound r.2 → Sound (es.foldl step r).2 := by
    induction es with
    | nil => exact fun _ _ hs => hs
    | cons e es ih => exact fun r h hs => ih _ (h.step e) (sound_step h hs e)
  have haccepted : Sound [.accepted now] := sound_nil.cons (n := .accepted now) rfl
  exact hrun _ (told_initial now) (haccepted.cons (n := .available) rfl)

/-- A request that is open while there is a client was made to this client, or was left open when
it was accepted. -/
theorem askedHere_eq {log : List Note} (hc : connected log = true) (hu : unanswered log = true) :
    askedHere log = !leftOpen log := by
  induction log with
  | nil => cases hc
  | cons n log ih =>
    cases n with
    | accepted now =>
      have hrest : leftOpen (.accepted now :: log) = unanswered log := rfl
      have hopen : unanswered log = true := hu
      rw [hrest, hopen]
      rfl
    | received now buf => cases hu
    | closed => cases hc
    | hungUp => cases hc
    | asked now => rfl
    | timedOut now => cases hc
    | available => exact ih hc hu
    | unavailable => exact ih hc hu
    | serviceUp => exact ih hc hu
    | serviceDown => exact ih hc hu

/-- Nothing comes from the client in this turn, and its connection shows no error. -/
def Quiet (t : Turn) : Prop := t.pollIn = false ∧ t.hangUp = false

theorem handleClientConnection_quiet {r : Daemon × List Note} {t : Turn} (ht : Quiet t)
    (hc : r.1.clientConnected = true) :
    handleClientConnection t r = noting (superviseClient · t) r := by
  obtain ⟨hpoll, hhang⟩ := ht
  have hread : noting (readClient · t) r = r := by
    simp [noting, readClient, hpoll]
  have herrors : noting (checkErrors · t) r = r := by
    simp [noting, checkErrors, hhang]
  rw [handleClientConnection, if_pos hc, hread, herrors]

theorem runDaemon_concat (now : Int) (es : List Happening) (e : Happening) :
    runDaemon now (es ++ [e]) = step (runDaemon now es) e := by
  rw [runDaemon, List.foldl_append]
  rfl

/-- What the end of a turn notes says nothing of the client. -/
theorem connected_notifyModem (r : Daemon × List Note) :
    connected (noting notifyModem r).2 = connected r.2 ∧
      unanswered (noting notifyModem r).2 = unanswered r.2 := by
  simp only [noting, notifyModem, notifyModemConnAvailable, notifyModemConnUnavailable]
  split
  · split
    · exact ⟨rfl, rfl⟩
    · exact ⟨rfl, rfl⟩
  · split
    · split
      · exact ⟨rfl, rfl⟩
      · exact ⟨rfl, rfl⟩
    · exact ⟨rfl, rfl⟩

/-- The supervision of the client, in every run. A client that is dropped for its silence has sent
nothing for more than 13 seconds, and it was asked unless the client before it left a request open;
one that is asked has sent nothing for more than 10 seconds, and no request is open. Conversely a
turn that finds a client silent for that long drops it if a request is open, and else asks. -/
theorem client_supervised (start : Int) (es : List Happening) :
    (∀ later now earlier, (runDaemon start es).2 = later ++ .timedOut now :: earlier →
      connected earlier = true ∧ 13 < now - heardAt earlier ∧
        askedHere earlier = !leftOpen earlier) ∧
      (∀ later now earlier, (runDaemon start es).2 = later ++ .asked now :: earlier →
        connected earlier = true ∧ 10 < now - heardAt earlier ∧ unanswered earlier = false) ∧
      ∀ t, Quiet t → connected (runDaemon start es).2 = true →
        13 < t.currentTime - heardAt (runDaemon start es).2 →
          connected (runDaemon start (es ++ [.turn t])).2 = !unanswered (runDaemon start es).2 ∧
            unanswered (runDaemon start (es ++ [.turn t])).2 =
              !unanswered (runDaemon start es).2 := by
  have hsound := sound_runDaemon start es
  have htold := told_runDaemon start es
  refine ⟨?_, ?_, ?_⟩
  · intro later now earlier hlog
    obtain ⟨hconn, hopen, hlong⟩ := hsound later _ earlier hlog
    exact ⟨hconn, hlong, askedHere_eq hconn hopen⟩
  · intro later now earlier hlog
    obtain ⟨hconn, hopen, hlong⟩ := hsound later _ earlier hlog
    exact ⟨hconn, hlong, hopen⟩
  · intro t ht hconn hlong
    have hc : (runDaemon start es).1.clientConnected = true := htold.client.trans hconn
    rw [← htold.heard] at hlong
    obtain ⟨hsame, hsame'⟩ := connected_notifyModem (handleClientConnection t (runDaemon start es))
    rw [runDaemon_concat, step, hsame, hsame', handleClientConnection_quiet ht hc]
    simp only [noting, superviseClient]
    rw [if_pos ⟨hc, by omega⟩, if_pos hlong]
    cases hp : (runDaemon start es).1.pendingKeepalive with
    | false =>
      rw [← htold.pending, hp]
      exact ⟨hconn, rfl⟩
    | true =>
      rw [← htold.pending, hp]
      exact ⟨rfl, rfl⟩

/-- Two logs that tell the same of the modem. -/
structure SameModem (log log' : List Note) : Prop where
  announced : announced log' = announced log
  inVain : announcedInVain log' = announcedInVain log
  service : serviceIsUp log' = serviceIsUp log
  knows : modemKnows log' = modemKnows log

theorem SameModem.refl (log : List Note) : SameModem log log := ⟨rfl, rfl, rfl, rfl⟩

theorem SameModem.trans {log log' log'' : List Note} (h : SameModem log log')
    (h' : SameModem log' log'') : SameModem log log'' :=
  ⟨h'.announced.trans h.announced, h'.inVain.trans h.inVain, h'.service.trans h.service,
    h'.knows.trans h.knows⟩

theorem sameModem_readClient (r : Daemon × List Note) (t : Turn) :
    SameModem r.2 (noting (readClient · t) r).2 := by
  simp only [noting, readClient]
  split
  · split
    · exact ⟨rfl, rfl, rfl, rfl⟩
    · exact ⟨rfl, rfl, rfl, rfl⟩
  · exact SameModem.refl _

theorem sameModem_checkErrors (r : Daemon × List Note) (t : Turn) :
    SameModem r.2 (noting (checkErrors · t) r).2 := by
  simp only [noting, checkErrors]
  split
  · exact ⟨rfl, rfl, rfl, rfl⟩
  · exact SameModem.refl _

theorem sameModem_superviseClient (r : Daemon × List Note) (t : Turn) :
    SameModem r.2 (noting (superviseClient · t) r).2 := by
  simp only [noting, superviseClient]
  split
  · split
    · exact ⟨rfl, rfl, rfl, rfl⟩
    · split
      · exact ⟨rfl, rfl, rfl, rfl⟩
      · exact SameModem.refl _
  · exact SameModem.refl _

theorem sameModem_handleClientConnection (r : Daemon × List Note) (t : Turn) :
    SameModem r.2 (handleClientConnection t r).2 := by
  rw [handleClientConnection]
  split
  · exact ((sameModem_readClient r t).trans (sameModem_checkErrors _ t)).trans
      (sameModem_superviseClient _ t)
  · exact ⟨rfl, rfl, rfl, rfl⟩

/-- The modem knows of the connection that was announced to it, unless in vain. -/
def Known (log : List Note) : Prop :=
  modemKnows log = (announced log && !announcedInVain log)

theorem Known.same {log log' : List Note} (h : Known log) (hsame : SameModem log log') :
    Known log' := by
  rw [Known, hsame.knows, hsame.announced, hsame.inVain]
  exact h

theorem known_available (log : List Note) : Known (.available :: log) := by
  simp [Known, modemKnows, announced, latest, availability, announcedInVain]

theorem known_unavailable (log : List Note) : Known (.unavailable :: log) := rfl

theorem Known.notifyModemConnAvailable {r : Daemon × List Note} (h : Known r.2) :
    Known (noting notifyModemConnAvailable r).2 := by
  simp only [noting, Supervision.notifyModemConnAvailable]
  split
  · exact known_available r.2
  · exact h

theorem Known.notifyModemConnUnavailable {r : Daemon × List Note} (h : Known r.2) :
    Known (noting notifyModemConnUnavailable r).2 := by
  simp only [noting, Supervision.notifyModemConnUnavailable]
  split
  · exact known_unavailable r.2
  · exact h

theorem Known.step {r : Daemon × List Note} (h : Known r.2) (hr : Told r) (e : Happening) :
    Known (step r e).2 := by
  cases e with
  | turn t =>
    have hclient := h.same (sameModem_handleClientConnection r t)
    simp only [Supervision.step, noting, notifyModem]
    split
    · exact hclient.notifyModemConnAvailable
    · split
      · exact hclient.notifyModemConnUnavailable
      · exact hclient
  | serviceAvailable =>
    have hnote : Known (.serviceUp :: r.2) := h
    simp only [Supervision.step, noting, onServiceAvailable]
    split
    · exact Known.notifyModemConnAvailable (r := (r.1, .serviceUp :: r.2)) hnote
    · exact hnote
  | serviceUnavailable =>
    simp only [Supervision.step, noting, Supervision.notifyModemConnUnavailable]
    split
    · exact known_unavailable _
    · rename_i hm
      have hnot : announced r.2 = false := by
        rw [← hr.modem]
        simpa using hm
      have hcons : announced (.serviceDown :: r.2) = announced r.2 := rfl
      rw [List.nil_append, Known, hcons, hnot]
      rfl

theorem known_runDaemon (start : Int) (es : List Happening) : Known (runDaemon start es).2 := by
  have hrun : ∀ r, Told r → Known r.2 → Known (es.foldl step r).2 := by
    induction es with
    | nil => exact fun _ _ h => h
    | cons e es ih => exact fun r hr h => ih _ (hr.step e) (h.step hr e)
  exact hrun _ (told_initial start) (known_available _)

/-- At the end of a turn the announcement is that of the connection. -/
theorem announced_turn {r : Daemon × List Note} (hr : Told r) (t : Turn) :
    announced (step r (.turn t)).2 = connected (step r (.turn t)).2 := by
  have hstep := hr.step (.turn t)
  rw [← hstep.modem, ← hstep.client]
  simp only [step, noting, notifyModem, notifyModemConnAvailable, notifyModemConnUnavailable]
  split
  · rename_i hup
    rw [if_pos hup.2]
    exact hup.1.symm
  · rename_i hup
    split
    · rename_i hdown
      rw [if_pos hdown.2]
      exact hdown.1.symm
    · rename_i hdown
      cases hc : (handleClientConnection t r).1.clientConnected with
      | true =>
        cases hm : (handleClientConnection t r).1.modemConnected with
        | true => rfl
        | false => exact absurd ⟨hc, hm⟩ hup
      | false =>
        cases hm : (handleClientConnection t r).1.modemConnected with
        | true => exact absurd ⟨hc, hm⟩ hdown
        | false => rfl

/-- At the end of every turn of every run, the modem knows of the client unless it was last
announced while the service was away. -/
theorem modemKnows_turn (start : Int) (es : List Happening) (t : Turn) :
    modemKnows (runDaemon start (es ++ [.turn t])).2 =
      (connected (runDaemon start (es ++ [.turn t])).2 &&
        !announcedInVain (runDaemon start (es ++ [.turn t])).2) := by
  have hsame := announced_turn (told_runDaemon start es) t
  rw [← runDaemon_concat] at hsame
  rw [← hsame]
  exact known_runDaemon start (es ++ [.turn t])

/-- Nothing is announced anew while the announcement stands. -/
theorem announcedInVain_turn {r : Daemon × List Note} (hr : Told r) (t : Turn)
    (h : announced r.2 = true) :
    announcedInVain (step r (.turn t)).2 = announcedInVain r.2 := by
  have hsame := sameModem_handleClientConnection r t
  have hm : (handleClientConnection t r).1.modemConnected = true := by
    rw [(hr.handleClientConnection t).modem, hsame.announced, h]
  rw [← hsame.inVain]
  simp only [step, noting, notifyModem, notifyModemConnUnavailable]
  rw [if_neg (by simp [hm])]
  split
  · rfl
  · rfl

/-- A turn announces a client that is not announced, in vain when the service is away. -/
theorem announcedInVain_turn_down {r : Daemon × List Note} (hr : Told r) (t : Turn)
    (h : announced r.2 = false) (hdown : serviceIsUp r.2 = false)
    (hc : connected (step r (.turn t)).2 = true) :
    announcedInVain (step r (.turn t)).2 = true := by
  have hsame := sameModem_handleClientConnection r t
  have hstep := announced_turn hr t
  have hm : (handleClientConnection t r).1.modemConnected = false := by
    rw [(hr.handleClientConnection t).modem, hsame.announced, h]
  simp only [step, noting, notifyModem, notifyModemConnAvailable] at hstep hc ⊢
  by_cases hup : (handleClientConnection t r).1.clientConnected = true
  · rw [if_pos ⟨hup, hm⟩, if_pos hm]
    have heq : announcedInVain (.available :: (handleClientConnection t r).2) =
        !serviceIsUp (handleClientConnection t r).2 := rfl
    rw [List.singleton_append, heq, hsame.service, hdown]
    rfl
  · rw [if_neg (by simp [hup]), if_neg (by simp [hm]), List.nil_append, hsame.announced, h] at hstep
    rw [if_neg (by simp [hup]), if_neg (by simp [hm]), List.nil_append, ← hstep] at hc
    cases hc

theorem announced_serviceUnavailable {r : Daemon × List Note} (hr : Told r) :
    announced (step r .serviceUnavailable).2 = false ∧
      serviceIsUp (step r .serviceUnavailable).2 = false := by
  simp only [step, noting, notifyModemConnUnavailable]
  split
  · exact ⟨rfl, rfl⟩
  · rename_i hm
    have hnot : announced r.2 = false := by
      rw [← hr.modem]
      simpa using hm
    exact ⟨hnot, rfl⟩

/-- A service that has come back is told of a client that is not announced. -/
theorem serviceAvailable_of_not_announced {r : Daemon × List Note} (hr : Told r)
    (hc : connected r.2 = true) (h : announced r.2 = false) :
    announced (step r .serviceAvailable).2 = true ∧
      announcedInVain (step r .serviceAvailable).2 = false := by
  have hclient := hr.client.trans hc
  have hm := hr.modem.trans h
  simp only [step, noting, onServiceAvailable, notifyModemConnAvailable, if_pos hclient, if_pos hm]
  exact ⟨rfl, rfl⟩

/-- A service that has come back is told nothing while an announcement stands. -/
theorem serviceAvailable_of_announced {r : Daemon × List Note} (hr : Told r)
    (h : announced r.2 = true) :
    announced (step r .serviceAvailable).2 = true ∧
      announcedInVain (step r .serviceAvailable).2 = announcedInVain r.2 := by
  have hm := hr.modem.trans h
  simp only [step, noting, onServiceAvailable, notifyModemConnAvailable]
  split
  · rw [if_neg (by simp [hm])]
    exact ⟨h, rfl⟩
  · exact ⟨h, rfl⟩

/-- Turns while the service is away announce the client in vain, the first of them. -/
theorem turns_in_vain {r : Daemon × List Note} (hr : Told r) (turns : List Turn)
    (hc : ∀ n, connected (((turns.take n).map .turn).foldl step r).2 = true)
    (h : announced r.2 = true ∧ announcedInVain r.2 = true) :
    announced ((turns.map .turn).foldl step r).2 = true ∧
      announcedInVain ((turns.map .turn).foldl step r).2 = true := by
  induction turns generalizing r with
  | nil => exact h
  | cons t turns ih =>
    apply ih (hr.step (.turn t)) (fun n => hc (n + 1))
    refine ⟨?_, ?_⟩
    · rw [announced_turn hr t]
      exact hc 1
    · rw [announcedInVain_turn hr t h.1]
      exact h.2

/-- The service of the modem goes away and comes back while the client stays. It is told of the
client if and only if no turn of the loop falls in between. -/
theorem restart_known_iff (start : Int) (es : List Happening) (turns : List Turn) (t : Turn)
    (hc : ∀ n, connected (runDaemon start
      (es ++ .serviceUnavailable :: (turns.take n).map .turn)).2 = true)
    (hend : connected (runDaemon start
      (es ++ .serviceUnavailable :: turns.map .turn ++ [.serviceAvailable, .turn t])).2 = true) :
    modemKnows (runDaemon start
        (es ++ .serviceUnavailable :: turns.map .turn ++ [.serviceAvailable, .turn t])).2 = true ↔
      turns = [] := by
  have hsplit : es ++ .serviceUnavailable :: turns.map .turn ++ [.serviceAvailable, .turn t] =
      (es ++ .serviceUnavailable :: turns.map .turn ++ [.serviceAvailable]) ++ [.turn t] := by
    simp
  have hknows := modemKnows_turn start
    (es ++ .serviceUnavailable :: turns.map .turn ++ [.serviceAvailable]) t
  rw [← hsplit, hend, Bool.true_and] at hknows
  rw [hknows, hsplit, runDaemon_concat, runDaemon_concat]
  have hdown : ∀ l : List Turn, runDaemon start (es ++ .serviceUnavailable :: l.map .turn) =
      (l.map .turn).foldl step (step (runDaemon start es) .serviceUnavailable) := by
    intro l
    rw [runDaemon, List.foldl_append]
    rfl
  have htold := (told_runDaemon start es).step .serviceUnavailable
  obtain ⟨hnot, haway⟩ := announced_serviceUnavailable (told_runDaemon start es)
  simp only [hdown] at hc ⊢
  cases turns with
  | nil =>
    obtain ⟨hann, hvain⟩ := serviceAvailable_of_not_announced htold (hc 0) hnot
    have hlast := announcedInVain_turn (htold.step .serviceAvailable) t hann
    rw [List.map_nil, List.foldl_nil, hlast, hvain]
    exact iff_of_true rfl rfl
  | cons t' turns =>
    have hfirst : announced (step (step (runDaemon start es) .serviceUnavailable) (.turn t')).2 =
        true := by
      rw [announced_turn htold t']
      exact hc 1
    have hvain := announcedInVain_turn_down htold t' hnot haway (hc 1)
    obtain ⟨hann, hvain'⟩ := turns_in_vain (htold.step (.turn t')) turns
      (fun n => hc (n + 1)) ⟨hfirst, hvain⟩
    have hall : ∀ l : List Turn, ∀ r, Told r → Told ((l.map .turn).foldl step r) := by
      intro l
      induction l with
      | nil => exact fun _ h => h
      | cons u l ih => exact fun r h => ih _ (h.step (.turn u))
    have hback := hall turns _ (htold.step (.turn t'))
    obtain ⟨hann', hsame⟩ := serviceAvailable_of_announced hback hann
    have hlast := announcedInVain_turn (hback.step .serviceAvailable) t hann'
    rw [List.map_cons, List.foldl_cons, hlast, hsame, hvain']
    exact iff_of_false (by decide) (List.cons_ne_nil t' turns)

/-- One quiet turn between. -/
theorem restart_between_turns :
    modemKnows (runDaemon 0 ([] ++ .serviceUnavailable :: [(⟨false, none, false, 1, 1⟩ : Turn)].map
        .turn ++ [.serviceAvailable, .turn ⟨false, none, false, 2, 2⟩])).2 = true ↔
      [(⟨false, none, false, 1, 1⟩ : Turn)] = [] := by
  apply restart_known_iff 0 [] [⟨false, none, false, 1, 1⟩] ⟨false, none, false, 2, 2⟩
  · intro n
    cases n with
    | zero => rfl
    | succ n => cases n <;> rfl
  · rfl

end Supervision

end RemoteSim

end SatComm
