import SatComm.GeoNet.Outgoing

/-!
# The location service

`LocationServiceSync` transmits a location request, waits for a reply or for the timer to run out,
and does so again: `while ((count < itsGnLocationServiceMaxRetrans) || (status != timeout))`. So a
reply does not end the loop. It goes on for the configured number of rounds, and then until a wait
times out, after which it purges the packets that wait for the address, whose entry it removes.
-/

namespace SatComm.GeoNet.LocationService

open Runs Outgoing

variable {κ : Type}

/-- `std::cv_status`. -/
inductive CvStatus
  | noTimeout
  | timeout
deriving DecidableEq, Repr

inductive SyncAction (κ : Type)
  | send (t : Transmission κ)
  | flushQueue (qid : BitVec 32) (addr : Mid) (purge : Bool)
  | remove (addr : Mid)
deriving DecidableEq

/-! ## The request -/

def requestData (itsGnMaxPacketLifetime : Int) (raw : GnData) : GnData :=
  { initDefaultGnData itsGnMaxPacketLifetime raw with pktType := .ls }

/-- `GeoNetRouterImpl::InitLSRequest`, behind the octet of the family. The eight octets of a
`gn_addr_t` are copied from a link-layer address that has six. -/
def initLsRequest (cfg : Outgoing.Config) (env : Outgoing.Env) (data : GnData) (sn : BitVec 16)
    (addr : Mid) (beyond : BitVec 16) : List UInt8 :=
  0x03 :: (initBhAndCh cfg data ++ octets16 sn ++ [0, 0] ++ initSourceLpv cfg env ++
    octets32 (ntohl (addr.extractLsb' 16 32)) ++ octets16 (ntohs (addr.extractLsb' 0 16)) ++
    octets16 beyond)

/-! ## The loop -/

/-- A run of the service: what the request is made of, and the outcome of the `i`-th wait. -/
structure SyncCall (κ : Type) where
  itsGnLocationServiceMaxRetrans : Int
  itsGnMaxPacketLifetime : Int
  cfg : Outgoing.Config
  env : Outgoing.Env
  dfTxcb : Option κ
  raw : GnData
  sn : BitVec 16
  addr : Mid
  beyond : BitVec 16
  outcome : Nat → CvStatus

def SyncCall.request (c : SyncCall κ) : List UInt8 :=
  initLsRequest c.cfg c.env (requestData c.itsGnMaxPacketLifetime c.raw) c.sn c.addr c.beyond

structure SyncState (κ : Type) where
  count : Nat
  actions : List (SyncAction κ)
  returned : Bool

def syncStart : SyncState κ := ⟨0, [], false⟩

variable (c : SyncCall κ)

def transmitRequest : List (SyncAction κ) :=
  match c.dfTxcb with
  | none => []
  | some txcb => [.send ⟨txcb, c.request, c.request.length % 2 ^ 16⟩]

/-- `GeoNetRouterImpl::LocationServiceSync`, round by round. -/
def locationServiceSync (s : SyncState κ) : Option (SyncState κ) :=
  if s.returned then none
  else
    let count := s.count + 1
    let actions := s.actions ++ transmitRequest c
    let status := c.outcome s.count
    if count < c.itsGnLocationServiceMaxRetrans ∨ status ≠ .timeout then
      some ⟨count, actions, false⟩
    else if status = .timeout then
      some ⟨count, actions ++ [.flushQueue lsQ c.addr true, .remove c.addr], true⟩
    else some ⟨count, actions, true⟩

/-! ## What the service is for -/

def SyncAction.isSend : SyncAction κ → Bool
  | .send _ => true
  | .flushQueue .. => false
  | .remove _ => false

/-- As many waits as are configured have timed out in a row. -/
def AllTimedOut : Prop :=
  ∀ i : Nat, i < c.itsGnLocationServiceMaxRetrans → c.outcome i = .timeout

/-- The service returns after the first wait that is notified, or gives up after the number of
transmissions that is configured. -/
structure Serves (s : SyncState κ) : Prop where
  returns : RunsTo (locationServiceSync c) syncStart s
  bounded : s.actions.countP SyncAction.isSend ≤ c.itsGnLocationServiceMaxRetrans
  stops : ∀ i, c.outcome i = .noTimeout → s.count ≤ i + 1
  purges : .flushQueue lsQ c.addr true ∈ s.actions ↔ AllTimedOut c
  removes : .remove c.addr ∈ s.actions ↔ AllTimedOut c

/-! ## Runs -/

variable {c} {s : SyncState κ} {n : Nat}

variable (c) in
/-- The loop goes on after this round. -/
def GoesOn (i : Nat) : Prop :=
  ((i + 1 : Nat) : Int) < c.itsGnLocationServiceMaxRetrans ∨ c.outcome i ≠ .timeout

variable (c) in
def requests (n : Nat) : List (SyncAction κ) := (List.replicate n (transmitRequest c)).flatten

variable (c) in
/-- The state in which the service returns. -/
def gaveUp (n : Nat) : SyncState κ :=
  ⟨n, requests c n ++ [.flushQueue lsQ c.addr true, .remove c.addr], true⟩

theorem requests_succ (n : Nat) : requests c (n + 1) = requests c n ++ transmitRequest c := by
  rw [requests, List.replicate_succ', List.flatten_concat, requests]

theorem round_of_goesOn (h : GoesOn c n) :
    locationServiceSync c ⟨n, requests c n, false⟩ = some ⟨n + 1, requests c (n + 1), false⟩ := by
  rw [requests_succ]
  exact if_pos h

theorem round_of_not_goesOn (h : ¬GoesOn c n) :
    locationServiceSync c ⟨n, requests c n, false⟩ = some (gaveUp c (n + 1)) := by
  have htimeout : c.outcome n = .timeout := by
    by_contra hne
    exact h (.inr hne)
  rw [gaveUp, requests_succ]
  exact (if_neg h).trans (if_pos htimeout)

/-- The service returns from the first round after which the loop does not go on. -/
theorem runsTo_iff_from (k : Nat) :
    RunsTo (locationServiceSync c) ⟨k, requests c k, false⟩ s ↔
      ∃ n, k ≤ n ∧ ¬GoesOn c n ∧ (∀ i, k ≤ i → i < n → GoesOn c i) ∧ s = gaveUp c (n + 1) := by
  constructor
  · intro hrun
    generalize hstart : (⟨k, requests c k, false⟩ : SyncState κ) = start at hrun
    induction hrun generalizing k with
    | halt hnone =>
      subst hstart
      by_cases hon : GoesOn c k
      · rw [round_of_goesOn hon] at hnone
        cases hnone
      · rw [round_of_not_goesOn hon] at hnone
        cases hnone
    | next hround hrest ih =>
      subst hstart
      by_cases hon : GoesOn c k
      · rw [round_of_goesOn hon] at hround
        obtain ⟨n, hle, hoff, hbefore, hs⟩ := ih (k + 1) (Option.some.inj hround)
        refine ⟨n, by omega, hoff, fun i hi hlt => ?_, hs⟩
        rcases hi.eq_or_lt with rfl | hgt
        · exact hon
        · exact hbefore i hgt hlt
      · rw [round_of_not_goesOn hon] at hround
        obtain rfl := Option.some.inj hround
        exact ⟨k, le_rfl, hon, fun i hi hlt => absurd hi (by omega),
          (runsTo_of_none (by rfl)).mp hrest⟩
  · rintro ⟨n, hle, hoff, hbefore, rfl⟩
    induction hdistance : n - k generalizing k with
    | zero =>
      obtain rfl : k = n := by omega
      rw [runsTo_of_some (round_of_not_goesOn hoff), runsTo_of_none (by rfl)]
    | succ distance ih =>
      rw [runsTo_of_some (round_of_goesOn (hbefore k le_rfl (by omega)))]
      exact ih (k + 1) (by omega) (fun i hi => hbefore i (by omega)) (by omega)

theorem runsTo_iff :
    RunsTo (locationServiceSync c) syncStart s ↔
      ∃ n, ¬GoesOn c n ∧ (∀ i < n, GoesOn c i) ∧ s = gaveUp c (n + 1) := by
  have hstart : (syncStart : SyncState κ) = ⟨0, requests c 0, false⟩ := rfl
  rw [hstart, runsTo_iff_from]
  simp

theorem countP_requests_le (n : Nat) : (requests c n).countP SyncAction.isSend ≤ n := by
  induction n with
  | zero => exact le_rfl
  | succ n ih =>
    have hone : (transmitRequest c).countP SyncAction.isSend ≤ 1 := by
      unfold transmitRequest
      split
      · exact Nat.zero_le 1
      · exact le_rfl
    rw [requests_succ, List.countP_append]
    omega

theorem countP_gaveUp_le (n : Nat) : (gaveUp c n).actions.countP SyncAction.isSend ≤ n := by
  have h := countP_requests_le (c := c) n
  simpa [gaveUp, SyncAction.isSend] using h

/-- The service does what it is for exactly if no wait is notified before it gives up. -/
theorem serves_iff (c : SyncCall κ) (hpos : 1 ≤ c.itsGnLocationServiceMaxRetrans) :
    (∃ s, Serves c s) ↔ AllTimedOut c := by
  constructor
  · rintro ⟨s, hreturns, -, hstops, -, -⟩ i hi
    obtain ⟨n, hoff, -, rfl⟩ := runsTo_iff.mp hreturns
    by_contra hne
    have hnotified : c.outcome i = .noTimeout := by
      cases houtcome : c.outcome i with
      | noTimeout => rfl
      | timeout => exact absurd houtcome hne
    -- the wait after which the service returns is the one that is notified
    have hle : n + 1 ≤ i + 1 := hstops i hnotified
    have hmax : ¬((n + 1 : Nat) : Int) < c.itsGnLocationServiceMaxRetrans := fun h => hoff (.inl h)
    obtain rfl : n = i := by omega
    exact hoff (.inr hne)
  · intro hall
    obtain ⟨n, hn⟩ : ∃ n : Nat, c.itsGnLocationServiceMaxRetrans = (n + 1 : Nat) :=
      ⟨(c.itsGnLocationServiceMaxRetrans - 1).toNat, by omega⟩
    have hpurged : SyncAction.flushQueue lsQ c.addr true ∈ (gaveUp c (n + 1)).actions := by
      simp [gaveUp]
    have hremoved : SyncAction.remove c.addr ∈ (gaveUp c (n + 1)).actions := by
      simp [gaveUp]
    refine ⟨gaveUp c (n + 1), ?_, ?_, ?_, iff_of_true hpurged hall, iff_of_true hremoved hall⟩
    · refine runsTo_iff.mpr ⟨n, ?_, fun i hi => .inl (by omega), rfl⟩
      rintro (hlt | hne)
      · omega
      · exact hne (hall n (by omega))
    · rw [hn]
      exact_mod_cast countP_gaveUp_le (n + 1)
    · intro i hnotified
      by_contra hlt
      have hcount : (gaveUp c (n + 1)).count = n + 1 := rfl
      have htimeout := hall i (by omega)
      rw [hnotified] at htimeout
      cases htimeout

/-- A service that is to transmit ten times at most. -/
def tenRounds (outcome : Nat → CvStatus) : SyncCall Unit where
  itsGnLocationServiceMaxRetrans := 10
  itsGnMaxPacketLifetime := 600
  cfg := ⟨Forwarding.contentionBased, 0, true, 60⟩
  env := ⟨Forwarding.centred, 0, 0, 0, true, 0, 0, 0⟩
  dfTxcb := some ()
  raw := ⟨0, .any, false, 0, .gnAddr, 0, ⟨0, 0, 0, 0, 0, .circle⟩, 0, 0, 0⟩
  sn := 0
  addr := 1
  beyond := 0
  outcome := outcome

/-- The first wait is notified, and no other. -/
def repliedAtOnce : SyncCall Unit := tenRounds fun i => if i = 0 then .noTimeout else .timeout

/-- It transmits the request ten times, and purges the packets. -/
theorem not_serves_repliedAtOnce :
    ¬∀ c : SyncCall Unit, 1 ≤ c.itsGnLocationServiceMaxRetrans → ∃ s, Serves c s := by
  intro h
  obtain ⟨s, hreturns, -, hstops, -, -⟩ := h repliedAtOnce (by decide)
  have hlast : ¬GoesOn repliedAtOnce 9 := by
    simp [GoesOn, repliedAtOnce, tenRounds]
  have hbefore : ∀ i < 9, GoesOn repliedAtOnce i := by
    intro i hi
    left
    simp only [repliedAtOnce, tenRounds]
    omega
  obtain rfl := hreturns.unique (runsTo_iff.mpr ⟨9, hlast, hbefore, rfl⟩)
  exact absurd (hstops 0 rfl) (by decide)

/-- A service that gets no reply. -/
def neverReplied : SyncCall Unit := tenRounds fun _ => .timeout

theorem serves_neverReplied : ∃ s, Serves neverReplied s :=
  (serves_iff neverReplied (by decide)).mpr fun _ _ => rfl

end SatComm.GeoNet.LocationService
