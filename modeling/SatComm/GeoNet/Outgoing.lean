import SatComm.GeoNet.Flush
import SatComm.GeoNet.Forwarding

/-!
# Transmitting packets

`Transmit` pushes the octet of the C-V2X family and a GeoNetworking header in front of a payload,
and one function for each packet type fills in the header and queues or sends the packet. The
sending of `GeoBroadcast` and `GeoAnycast` packets lacks its `break` and goes on as for `TSB`.
-/

namespace SatComm.GeoNet

/-- What the router does besides changing its tables. -/
inductive Action (κ : Type)
  | enqueue (c : EnqueueCall (Option κ))
  | flushQueue (qid : BitVec 32) (addr : Option Mid) (purge : Bool)
  | send (t : Transmission κ)
  | locationServiceStart (addr : Mid)

namespace Outgoing

open Forwarding (OrderedEntryMap Hop)

/-- `DestinationType`. -/
inductive DestinationType
  | geoArea
  | gnAddr
deriving DecidableEq, Repr

/-- `GnData_t`, as far as transmission reads it. -/
structure GnData where
  upperProt : Nat
  pktType : PacketType
  isShb : Bool
  payloadLen : Int
  dType : DestinationType
  dAddr : Mid
  dArea : GeoArea
  maxLt : Int
  maxHl : Int
  tc : Int
deriving DecidableEq, Repr

/-- `GeoNetRouterImpl::InitDefaultGnData`. What it does not initialize is in `raw`. -/
def initDefaultGnData (itsGnMaxPacketLifetime : Int) (raw : GnData) : GnData :=
  { raw with
    upperProt := 0
    pktType := .any
    payloadLen := 0
    dType := .gnAddr
    dAddr := BitVec.allOnes 48
    maxLt := itsGnMaxPacketLifetime
    maxHl := -1
    tc := -1 }

/-- What transmission reads of `GnConfig_t`, too. -/
structure Config extends GeoNet.Config where
  itsGnProtocolVersion : Int
  itsGnIsMobile : Bool
  itsGnDefaultPacketLifetime : Int
deriving DecidableEq, Repr

/-- The rest of `gn_epv_t`; the reserved bits of the local address and the local `NextAddr`, which
are not initialized; the clock of the queues. -/
structure Env extends Forwarding.Env where
  tstEpv : BitVec 32
  sEpv : BitVec 16
  hEpv : BitVec 16
  paiEpv : Bool
  reserved : BitVec 10
  nextAddr : Mid
  ts : Int

/-- The octets between the head and the data of the buffer, the octets from its data on, and the
router. -/
structure State (τ : Type) where
  headroom : List UInt8
  packet : List UInt8
  router : RouterOf τ
  sequenceNumber : BitVec 16

/-! ## Headers -/

def octets16 (v : BitVec 16) : List UInt8 := [⟨v.extractLsb' 0 8⟩, ⟨v.extractLsb' 8 8⟩]

def octets32 (v : BitVec 32) : List UInt8 :=
  octets16 (v.extractLsb' 0 16) ++ octets16 (v.extractLsb' 16 16)

/-- Two fields of four bits. -/
def nibbles (high low : Int) : UInt8 := UInt8.ofInt (16 * (high % 16) + low % 16)


section

variable (cfg : Config) (env : Env) (data : GnData)

/-- The header subtype. The case of `GEOUNICAST` falls through to the one of `TSB`. -/
def hst : Int :=
  match data.pktType with
  | .any | .beacon | .geoUnicast | .tsb => if data.isShb then 0 else 1
  | .geoAnycast | .geoBroadcast => data.dArea.areaType.code
  | .ls => 0

def mhl : UInt8 := if 0 < data.maxHl then UInt8.ofInt data.maxHl else 1

/-- The lifetime asked for, as the `uint32_t` that `EncodeLifeTime` takes. -/
def lifetime : Nat :=
  ((if data.maxLt < 0 then cfg.itsGnDefaultPacketLifetime else data.maxLt) % 2 ^ 32).toNat

/-- `GeoNetRouterImpl::InitBH_and_CH`, which does not fail for a type of `PacketType`. -/
def initBhAndCh : List UInt8 :=
  [nibbles cfg.itsGnProtocolVersion 1, 0, encodeLifeTime (lifetime cfg data), mhl data] ++
    [nibbles data.upperProt 0, nibbles data.pktType.code (hst data),
      UInt8.ofInt data.tc, if cfg.itsGnIsMobile then 0x80 else 0] ++
    octets16 (ntohs (BitVec.ofInt 16 data.payloadLen)) ++ [mhl data, 0]

/-- The octets of the local address. -/
def localGnAddr : List UInt8 :=
  octets16 (env.reserved.setWidth 16 ||| BitVec.ofNat 16 cfg.localAddr.st <<< 10 |||
      BitVec.ofNat 16 cfg.localAddr.m <<< 15) ++
    octets32 (ntohl (cfg.localAddr.mid.extractLsb' 16 32)) ++
    octets16 (ntohs (cfg.localAddr.mid.extractLsb' 0 16))

/-- `GeoNetRouterImpl::InitSourceLPV`. -/
def initSourceLpv : List UInt8 :=
  localGnAddr cfg env ++ octets32 (ntohl env.tstEpv) ++
    octets32 (ntohl (BitVec.ofInt 32 env.latitudeEpv)) ++
    octets32 (ntohl (BitVec.ofInt 32 env.longitudeEpv)) ++
    octets16 (((ntohs env.sEpv).extractLsb' 0 15).setWidth 16 |||
      if env.paiEpv then 1 <<< 15 else 0) ++
    octets16 (ntohs env.hEpv)

/-- `GeoNetRouterImpl::InitDestinationArea`. -/
def initDestinationArea : List UInt8 :=
  octets32 (ntohl (BitVec.ofInt 32 data.dArea.gpLatitude)) ++
    octets32 (ntohl (BitVec.ofInt 32 data.dArea.gpLongitude)) ++
    octets16 (ntohs (BitVec.ofNat 16 data.dArea.distA)) ++
    octets16 (ntohs (BitVec.ofNat 16 data.dArea.distB)) ++
    octets16 (ntohs (BitVec.ofNat 16 data.dArea.angle))

/-! ## The functions -/

/-- Octets written behind the first one. -/
def writeHeader (header packet : List UInt8) : List UInt8 :=
  packet.take 1 ++ header ++ packet.drop (1 + header.length)

/-- `sizeof` of the headers. -/
def sizeofGuc : Nat := 60

def sizeofGbcGac : Nat := 56

def sizeofTsb : Nat := 40

def sizeofShb : Nat := 40

variable {τ κ : Type} [OrderedEntryMap τ] (txcb : Option κ)

/-- `TC_SCF`. -/
def tcScf : Bool := data.tc % 2 == 1

/-- A call of `Enqueue` for a packet. -/
def enqueueCall (qid : BitVec 32) (packet : List UInt8) (addr : Option Mid) : Action κ :=
  .enqueue ⟨qid, packet, txcb, addr, env.ts⟩

/-- `GeoNetRouterImpl::TransmitGUC`. The position of the destination is not filled in. -/
def transmitGuc (s : State τ) : Int × State τ × List (Action κ) :=
  let header :=
    initBhAndCh cfg data ++ octets16 s.sequenceNumber ++ [0, 0] ++ initSourceLpv cfg env
  let s :=
    { s with packet := writeHeader header s.packet, sequenceNumber := s.sequenceNumber + 1 }
  match find cfg.lifetimeLocTE s.router.table (env.now 0) data.dAddr with
  | (none, t) =>
    (1, { s with router := { s.router with table := t } },
      [enqueueCall env txcb lsQ s.packet (some data.dAddr), .locationServiceStart data.dAddr])
  | (some e, t) =>
    let s := { s with router := { s.router with table := t } }
    if e.isNeighbor then (0, s, [])
    else if s.router.neighborCount = 0 then
      (1, s, [enqueueCall env txcb ucQ s.packet (some data.dAddr)])
    else if cfg.nonAreaForwardingAlgorithm = .unspecified ∨
        cfg.nonAreaForwardingAlgorithm = .greedy then
      let hop :=
        Forwarding.nafGf env.toEnv t .geoUnicast (s.packet.drop 1) env.nextAddr
      (hop.ret, s, [])
    else
      let (hop, t) :=
        Forwarding.nafCbf cfg.toConfig env.toEnv t 1 .geoUnicast (s.packet.drop 1) env.nextAddr
      (hop.ret, { s with router := { s.router with table := t } }, [])

/-- `GeoNetRouterImpl::TransmitGBCGAC`. The length that is sent leaves out the first octet. -/
def transmitGbcGac (s : State τ) : Int × State τ × List (Action κ) :=
  if data.dType ≠ .geoArea then (-1, s, [])
  else
    let header :=
      initBhAndCh cfg data ++ octets16 s.sequenceNumber ++ [0, 0] ++ initSourceLpv cfg env ++
        initDestinationArea data ++ [0, 0]
    let s :=
      { s with packet := writeHeader header s.packet, sequenceNumber := s.sequenceNumber + 1 }
    if s.router.neighborCount = 0 ∧ tcScf data then
      (0, s, [enqueueCall env txcb bcQ s.packet none])
    else
      let (hop, t) :=
        Forwarding.forwardAlgorithmSelect cfg.toConfig env.toEnv s.router.table 0
          (s.packet.drop 1) env.nextAddr
      let s := { s with router := { s.router with table := t } }
      match txcb with
      | some cb =>
        if hop.ret = 1 then
          (0, s, [.send ⟨cb, s.packet, ((data.payloadLen + sizeofGbcGac) % 2 ^ 16).toNat⟩])
        else (hop.ret, s, [])
      | none => (hop.ret, s, [])

/-- Store the packet if nobody is there, else send it, for broadcasts that are not geographic. -/
def storeOrSend (s : State τ) : Int × State τ × List (Action κ) :=
  if s.router.neighborCount = 0 ∧ tcScf data then
    (1, s, [enqueueCall env txcb bcQ s.packet none])
  else
    match txcb with
    | some cb => (0, s, [.send ⟨cb, s.packet, s.packet.length % 2 ^ 16⟩])
    | none => (-1, s, [])

/-- `GeoNetRouterImpl::TransmitTSB`. -/
def transmitTsb (s : State τ) : Int × State τ × List (Action κ) :=
  let header :=
    initBhAndCh cfg data ++ octets16 s.sequenceNumber ++ [0, 0] ++ initSourceLpv cfg env
  storeOrSend env data txcb
    { s with packet := writeHeader header s.packet, sequenceNumber := s.sequenceNumber + 1 }

/-- `GeoNetRouterImpl::TransmitSHB`. -/
def transmitShb (s : State τ) : Int × State τ × List (Action κ) :=
  let header := initBhAndCh cfg data ++ initSourceLpv cfg env ++ [0, 0, 0, 0]
  storeOrSend env data txcb { s with packet := writeHeader header s.packet }

/-- The check of the headroom, `abuf_push`, and the octet of the family. -/
def makeRoom (size : Nat) (s : State τ) : Option (State τ) :=
  if s.headroom.length < size + 1 then none
  else
    let kept := s.headroom.length - (size + 1)
    some
      { s with
        headroom := s.headroom.take kept
        packet := 0x03 :: (s.headroom.drop (kept + 1) ++ s.packet) }

/-- The case of `TSB`, with the value that `retVal` has when it is reached. -/
def transmitTsbCase (retVal : Int) (s : State τ) : Int × State τ × List (Action κ) :=
  if data.isShb then
    match makeRoom sizeofShb s with
    | none => (retVal, s, [])
    | some s => transmitShb cfg env data txcb s
  else
    match makeRoom sizeofTsb s with
    | none => (retVal, s, [])
    | some s => transmitTsb cfg env data txcb s

/-- `GeoNetRouterImpl::Transmit`. -/
def transmit (s : State τ) : Int × State τ × List (Action κ) :=
  match data.pktType with
  | .geoUnicast =>
    match makeRoom sizeofGuc s with
    | none => (-1, s, [])
    | some s => transmitGuc cfg env data txcb s
  | .geoAnycast | .geoBroadcast =>
    match makeRoom sizeofGbcGac s with
    | none => (-1, s, [])
    | some s =>
      let (retVal, s, actions) := transmitGbcGac cfg env data txcb s
      -- no `break`
      let (retVal, s, actions') := transmitTsbCase cfg env data txcb retVal s
      (retVal, s, actions ++ actions')
  | .tsb => transmitTsbCase cfg env data txcb (-1) s
  | .any | .beacon | .ls => (-1, s, [])

end

end Outgoing

end SatComm.GeoNet
