import SatComm.GeoNet.LocationTable

/-!
# `GeoNetRouterImpl::Receive`

The result of `Receive` and what it does to the location table. `-1` drops a packet, `0` passes
it up and `1` means that the router is done with it. Forwarding only matters here for the
lookups it makes; queues, next hops and transmissions are left out. Positions are floating
point, so the outcome of each area test comes with the call, as do the readings of the clock.
-/

namespace SatComm.GeoNet

/-- `AF_Algorithm`. -/
inductive AfAlgorithm
  | unspecified
  | simple
  | cbf
  | af
deriving DecidableEq, Repr

/-- `NAF_Algorithm`. -/
inductive NafAlgorithm
  | unspecified
  | greedy
  | cbf
deriving DecidableEq, Repr

structure Config where
  localAddr : GnAddr
  lifetimeLocTE : Nat
  areaForwardingAlgorithm : AfAlgorithm
  nonAreaForwardingAlgorithm : NafAlgorithm
deriving DecidableEq, Repr

/-- The header fields of a packet, each as the receive function of its type reads it. -/
structure Packet where
  version : Nat
  bhNh : Nat
  rhl : Nat
  chNh : Nat
  ht : Nat
  hst : Nat
  tc : Nat
  mhl : Nat
  sn : Nat
  soPv : Lpv
  deAddr : GnAddr
  reqAddr : GnAddr
deriving DecidableEq, Repr

/-- What the surroundings answer during one call: the clock, reading by reading, the area
tests for the router in `ReceiveGBCGAC`, for the router in `ForwardAlgorithmSelect` and for the
sender there, and the memory that a new entry gets. -/
structure Env where
  now : Nat → Nat
  position : Int
  forwardPosition : Int
  senderPosition : Int
  raw : Raw

/-- A router whose location table is a `τ`. -/
structure RouterOf (τ : Type) where
  table : τ
  neighborCount : Nat

abbrev Router := RouterOf Table

namespace Packet

variable (cfg : Config) (p : Packet)

def mid : Mid := p.soPv.gnAddr.mid

def toUs : Bool := gnAddrMatch p.deAddr cfg.localAddr

def requestsUs : Bool := gnAddrMatch p.reqAddr cfg.localAddr

def fromUs : Bool := gnAddrMatch p.soPv.gnAddr cfg.localAddr

/-- `TC_SCF`. -/
def scf : Bool := p.tc % 2 == 1

end Packet

section receive

variable {τ : Type} [EntryMap τ] (cfg : Config) (env : Env)

/-! ## Forwarding -/

/-- `Find` on the source of a packet, for the `k`-th reading of the clock. -/
def lookupSource (t : τ) (k : Nat) (p : Packet) : τ :=
  (find cfg.lifetimeLocTE t (env.now k) p.mid).2

/-- `NAF_CBF` and `AF_CBF` look the source up, unless it is the router itself. -/
def cbf (t : τ) (k : Nat) (p : Packet) : τ :=
  if p.fromUs cfg then t else lookupSource cfg env t k p

/-- `ForwardAlgorithmSelect`. The contention-based cases fall through to the default. -/
def forwardAlgorithmSelect (t : τ) (k : Nat) (p : Packet) : τ :=
  if 0 ≤ env.forwardPosition then
    if cfg.areaForwardingAlgorithm = .cbf then cbf cfg env t k p else t
  else
    match find cfg.lifetimeLocTE t (env.now k) p.mid with
    | (none, t) => t
    | (some e, t) =>
      if e.lpv.pai = 1 ∧ 0 ≤ env.senderPosition then t
      else if cfg.nonAreaForwardingAlgorithm = .cbf then cbf cfg env t (k + 1) p
      else t

/-! ## One function for each packet type -/

/-- `ReceiveBeacon_or_SHB`. -/
def receiveBeaconOrShb (shb : Bool) (r : RouterOf τ) (p : Packet) : Int × RouterOf τ :=
  let t := update cfg.lifetimeLocTE r.table (env.now 0) env.raw p.soPv
  (if shb then 0 else 1,
    { table := setEntry t p.mid fun e => { e with isNeighbor := true }
      neighborCount := r.neighborCount + 1 })

/-- `ReceiveGUC`. -/
def receiveGuc (r : RouterOf τ) (p : Packet) : Int × RouterOf τ :=
  if p.toUs cfg then
    match isDuplicated cfg.lifetimeLocTE r.table (env.now 0) p.mid p.sn with
    | (true, t) => (-1, { r with table := t })
    | (false, t) => (1, { r with table := update cfg.lifetimeLocTE t (env.now 1) env.raw p.soPv })
  else
    let (dup, t) :=
      if cfg.nonAreaForwardingAlgorithm ≠ .cbf then
        isDuplicated cfg.lifetimeLocTE r.table (env.now 0) p.mid p.sn
      else (false, r.table)
    if dup then (-1, { r with table := t })
    else
      let t := update cfg.lifetimeLocTE t (env.now 1) env.raw p.soPv
      if p.rhl = 0 then (-1, { r with table := t })
      else if r.neighborCount = 0 ∧ p.scf then (1, { r with table := t })
      else if cfg.nonAreaForwardingAlgorithm = .cbf then
        (1, { r with table := cbf cfg env t 2 p })
      else (1, { r with table := t })

/-- `ReceiveGBCGAC`. -/
def receiveGbcGac (r : RouterOf τ) (p : Packet) : Int × RouterOf τ :=
  match isDuplicated cfg.lifetimeLocTE r.table (env.now 0) p.mid p.sn with
  | (true, t) => (-1, { r with table := t })
  | (false, t) =>
    let t := update cfg.lifetimeLocTE t (env.now 1) env.raw p.soPv
    let t :=
      if 0 < p.rhl ∧ r.neighborCount ≠ 0 then forwardAlgorithmSelect cfg env t 2 p else t
    (if 0 ≤ env.position then 0 else 1, { r with table := t })

/-- `ReceiveLocationService`; `hst` is `0` for a request. A reply for somebody else is treated
as a GUC packet. -/
def receiveLocationService (r : RouterOf τ) (p : Packet) : Int × RouterOf τ :=
  if p.hst = 0 then
    if p.requestsUs cfg then
      match isDuplicated cfg.lifetimeLocTE r.table (env.now 0) p.mid p.sn with
      | (true, t) => (-1, { r with table := t })
      | (false, t) => (1, { r with table := update cfg.lifetimeLocTE t (env.now 1) env.raw p.soPv })
    else (-1, r)
  else if p.toUs cfg then
    match isDuplicated cfg.lifetimeLocTE r.table (env.now 0) p.mid p.sn with
    | (true, t) => (-1, { r with table := t })
    | (false, t) =>
      let t := update cfg.lifetimeLocTE t (env.now 1) env.raw p.soPv
      (1, { r with table := setEntry t p.mid fun e => { e with locationServicePending := false } })
  else receiveGuc cfg env r p

/-- `ReceiveTSB`. -/
def receiveTsb (r : RouterOf τ) (p : Packet) : Int × RouterOf τ :=
  match isDuplicated cfg.lifetimeLocTE r.table (env.now 0) p.mid p.sn with
  | (true, t) => (-1, { r with table := t })
  | (false, t) => (0, { r with table := update cfg.lifetimeLocTE t (env.now 1) env.raw p.soPv })

/-! ## The dispatcher -/

/-- The checks of the basic and the common header that come before the hop limit. -/
def headerOk (p : Packet) : Bool :=
  p.version ≤ 1 && (0 < p.bhNh && p.bhNh ≤ 2) && (0 < p.chNh && p.chNh ≤ 3) &&
    (0 < p.ht && p.ht ≤ 6) && (!(p.ht == 2 || p.ht == 3) || p.hst ≤ 2) &&
    (!(p.ht == 5 || p.ht == 6) || p.hst ≤ 1)

/-- `if (bh->rhl > 0) bh->rhl--`. -/
def hop (p : Packet) : Packet := { p with rhl := p.rhl - 1 }

/-- The `switch` over BEACON, GEOUNICAST, GEOANYCAST, GEOBROADCAST, TSB and LS. -/
def dispatch (r : RouterOf τ) (p : Packet) : Int × RouterOf τ :=
  match p.ht with
  | 1 => receiveBeaconOrShb cfg env false r p
  | 2 => receiveGuc cfg env r p
  | 3 | 4 => receiveGbcGac cfg env r p
  | 5 => if p.hst = 0 then receiveBeaconOrShb cfg env true r p else receiveTsb cfg env r p
  | 6 => receiveLocationService cfg env r p
  | _ => (-1, r)

/-- `Receive`. -/
def receive (r : RouterOf τ) (p : Packet) : Int × RouterOf τ :=
  if !headerOk p then (-1, r)
  else if (hop p).mhl < (hop p).rhl then (-1, r)
  else dispatch cfg env r (hop p)

end receive

/-! ## Runs -/

/-- What happens to the router and its table. -/
inductive TableEvent
  | receive (env : Env) (p : Packet)
  | find (now : Nat) (mid : Mid)
  | update (now : Nat) (raw : Raw) (soPv : Lpv)
  | updateDestination (now : Nat) (raw : Raw) (dePv : Spv)
  | remove (mid : Mid)
  | refresh (now : Mid → Nat)

/-- One of these, where `refresh` is one round of `RefreshTask`. -/
def stepWith {τ : Type} [EntryMap τ] (refresh : Nat → τ → (Mid → Nat) → τ) (cfg : Config)
    (r : RouterOf τ) : TableEvent → RouterOf τ
  | .receive env p => (receive cfg env r p).2
  | .find now mid => { r with table := (find cfg.lifetimeLocTE r.table now mid).2 }
  | .update now raw soPv => { r with table := update cfg.lifetimeLocTE r.table now raw soPv }
  | .updateDestination now raw dePv =>
    { r with table := (updateDestination cfg.lifetimeLocTE r.table now raw dePv).1 }
  | .remove mid => { r with table := remove r.table mid }
  | .refresh now => { r with table := refresh cfg.lifetimeLocTE r.table now }

/-- With keys by value. -/
def tableStep (cfg : Config) (r : Router) (e : TableEvent) : Router := stepWith refresh cfg r e

def runAll (cfg : Config) (r : Router) (es : List TableEvent) : Router := es.foldl (tableStep cfg) r

/-- A router that has just started. -/
def Router.init : Router := ⟨Table.empty, 0⟩

end SatComm.GeoNet
