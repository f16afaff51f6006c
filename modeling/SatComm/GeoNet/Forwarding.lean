import SatComm.GeoNet.Verdicts
import SatComm.Runs.Assoc

/-!
# Forwarding algorithms

`ForwardAlgorithmSelect` chooses between an algorithm for routers inside of the destination area of
a packet and one for routers outside. Both contention-based cases lack their `break`, so that the
result of `AF_CBF` is overwritten by a broadcast and the one of `NAF_CBF` by greedy forwarding. The
timeouts that these two compute are not used and left out.

A result of `1` sends the packet to the address returned, `0` queues it and `-1` discards it.
-/

namespace SatComm.GeoNet.Forwarding

/-- What `FindShortestLocTe` uses of `std::map`, too: the entries in the order of the keys. -/
class OrderedEntryMap (τ : Type) extends EntryMap τ where
  toList : τ → List LocTableEntry

/-- The readings of the clock, the position of the router, and what floating point and `int`
operations give. -/
structure Env where
  now : Nat → Nat
  latitudeEpv : Int
  longitudeEpv : Int
  geoDistance : Int → Int → Int → Int → Int
  cartesianTransform : Transform
  int : Int → Int

/-- The result of an algorithm and the next hop, `NextAddr`. -/
structure Hop where
  ret : Int
  nextAddr : Mid
deriving DecidableEq, Repr

/-- `ll_bc`. -/
def llBc : Mid := -1

/-- `TC_SCF`. -/
def tcScf (buffer : List UInt8) : Bool := Buffer.tc buffer % 2 == 1

/-! ## The code -/

section

variable {τ : Type} [OrderedEntryMap τ] (cfg : Config) (env : Env)

def soAddr (buffer : List UInt8) : GnAddr := (Buffer.soPv buffer).gnAddr

/-- A packet of our own. -/
def fromUs (buffer : List UInt8) : Bool := gnAddrMatch (soAddr buffer) cfg.localAddr

/-- A latitude or longitude of a table entry in network order, as `getLPV` gives it. -/
def network (v : Int) : Int := (ntohl (BitVec.ofInt 32 v)).toInt

/-- `LocationTable::FindShortestLocTe`: the first of the neighbours that are closest. -/
def findShortestLocTe (t : τ) (latitude longitude : Int) : Option LocTableEntry × Int :=
  (OrderedEntryMap.toList t).foldl
    (fun best e =>
      if e.isNeighbor then
        let d := env.geoDistance latitude longitude e.lpv.latitude e.lpv.longitude
        if d < best.2 then (some e, d) else best
      else best)
    (none, 2 ^ 31 - 1)

/-- The neighbour that is closer to a position than the router is. -/
def closer (t : τ) (latitude longitude : Int) : Option LocTableEntry :=
  let mfr := env.geoDistance latitude longitude env.latitudeEpv env.longitudeEpv
  let (next, shortestDis) := findShortestLocTe env t latitude longitude
  if shortestDis < mfr then next else none

/-- `GeoNetRouterImpl::NAF_GF`. -/
def nafGf (t : τ) (pktType : PacketType) (buffer : List UInt8) (nextAddr : Mid) : Hop :=
  let forward (latitude longitude : BitVec 32) : Hop :=
    match closer env t latitude.toInt longitude.toInt with
    | some next => ⟨1, next.gnAddr.mid⟩
    | none => if tcScf buffer then ⟨0, nextAddr⟩ else ⟨1, llBc⟩
  match pktType with
  | .geoUnicast => forward (load32 buffer 52) (load32 buffer 56)
  | .geoAnycast => forward (Buffer.gpLatitude buffer) (Buffer.gpLongitude buffer)
  | _ => ⟨-1, nextAddr⟩

/-- How much closer to a position the router is than the sender. -/
def progress (lpv : Lpv) (latitude longitude : BitVec 32) : Int :=
  let dle :=
    env.geoDistance latitude.toInt longitude.toInt env.latitudeEpv env.longitudeEpv
  let dse :=
    env.geoDistance latitude.toInt longitude.toInt (network lpv.latitude) (network lpv.longitude)
  env.int (dse - dle)

/-- `GeoNetRouterImpl::NAF_CBF`, for the `k`-th reading of the clock. -/
def nafCbf (t : τ) (k : Nat) (pktType : PacketType) (buffer : List UInt8) (nextAddr : Mid) :
    Hop × τ :=
  let forward (latitude longitude : BitVec 32) : Hop × τ :=
    if fromUs cfg buffer then (⟨1, llBc⟩, t)
    else
      match find cfg.lifetimeLocTE t (env.now k) (soAddr buffer).mid with
      | (some e, t) =>
        if e.lpv.pai = 1 then
          if 0 < progress env e.lpv latitude longitude then (⟨0, nextAddr⟩, t)
          else (⟨-1, nextAddr⟩, t)
        else (⟨0, nextAddr⟩, t)
      | (none, t) => (⟨0, nextAddr⟩, t)
  match pktType with
  | .geoUnicast => forward (load32 buffer 52) (load32 buffer 56)
  | .geoAnycast => forward (Buffer.gpLatitude buffer) (Buffer.gpLongitude buffer)
  | .geoBroadcast => forward (Buffer.gpLatitude buffer) (Buffer.gpLongitude buffer)
  | _ => (⟨-1, nextAddr⟩, t)

/-- `GeoNetRouterImpl::AF_CBF`. -/
def afCbf (t : τ) (k : Nat) (buffer : List UInt8) (nextAddr : Mid) : Hop × τ :=
  if fromUs cfg buffer then (⟨1, llBc⟩, t)
  else (⟨0, nextAddr⟩, (find cfg.lifetimeLocTE t (env.now k) (soAddr buffer).mid).2)

/-- The types of packets with a destination area. -/
def areaPacketType (buffer : List UInt8) : Option PacketType :=
  if Buffer.ht buffer = 3 then some .geoAnycast
  else if Buffer.ht buffer = 4 then some .geoBroadcast
  else none

/-- The relative position of the router, or of a sender, in `ForwardAlgorithmSelect`. -/
def forwardPosition (buffer : List UInt8) (latitude longitude : Int) : Int :=
  (forwardedArea buffer).position env.int env.cartesianTransform latitude longitude

/-- The sender is inside of the area, and its position is accurate. -/
def senderInside (buffer : List UInt8) (e : LocTableEntry) : Prop :=
  e.lpv.pai = 1 ∧
    0 ≤ forwardPosition env buffer (network e.lpv.latitude) (network e.lpv.longitude)

instance (buffer : List UInt8) (e : LocTableEntry) : Decidable (senderInside env buffer e) :=
  inferInstanceAs (Decidable (_ ∧ _))

/-- `GeoNetRouterImpl::ForwardAlgorithmSelect`. -/
def forwardAlgorithmSelect (t : τ) (k : Nat) (buffer : List UInt8) (nextAddr : Mid) : Hop × τ :=
  match areaPacketType buffer with
  | none => (⟨-1, nextAddr⟩, t)
  | some pktType =>
    if 0 ≤ forwardPosition env buffer env.latitudeEpv env.longitudeEpv then
      match cfg.areaForwardingAlgorithm with
      -- falls through to the default
      | .cbf => (⟨1, llBc⟩, (afCbf cfg env t k buffer nextAddr).2)
      | _ => (⟨1, llBc⟩, t)
    else
      match find cfg.lifetimeLocTE t (env.now k) (soAddr buffer).mid with
      | (some e, t) =>
        if senderInside env buffer e then (⟨-1, nextAddr⟩, t)
        else
          match cfg.nonAreaForwardingAlgorithm with
          -- falls through to the default
          | .cbf =>
            let (hop, t) := nafCbf cfg env t (k + 1) pktType buffer nextAddr
            (nafGf env t pktType buffer hop.nextAddr, t)
          | _ => (nafGf env t pktType buffer nextAddr, t)
      | (none, t) => (⟨1, llBc⟩, t)

/-! ## What is configured -/

/-- The decision of the configured algorithm. -/
def configured (t : τ) (k : Nat) (buffer : List UInt8) (nextAddr : Mid) : Hop :=
  match areaPacketType buffer with
  | none => ⟨-1, nextAddr⟩
  | some pktType =>
    if 0 ≤ forwardPosition env buffer env.latitudeEpv env.longitudeEpv then
      if cfg.areaForwardingAlgorithm = .cbf then (afCbf cfg env t k buffer nextAddr).1
      else ⟨1, llBc⟩
    else
      let (sender, t) := find cfg.lifetimeLocTE t (env.now k) (soAddr buffer).mid
      if sender.any fun e => senderInside env buffer e then ⟨-1, nextAddr⟩
      else if cfg.nonAreaForwardingAlgorithm = .cbf then
        (nafCbf cfg env t (k + 1) pktType buffer nextAddr).1
      else nafGf env t pktType buffer nextAddr

/-- Greedy forwarding of an anycast packet ends with a broadcast: no neighbour is closer, and the
packet is not to be stored; or the closer one has the broadcast address. -/
def GreedyBroadcasts (t : τ) (buffer : List UInt8) : Prop :=
  match closer env t (Buffer.gpLatitude buffer).toInt (Buffer.gpLongitude buffer).toInt with
  | some next => next.gnAddr.mid = llBc
  | none => tcScf buffer = false

/-- Greedy forwarding of an anycast packet queues it: no neighbour is closer, and the packet is to
be stored. -/
def GreedyQueues (t : τ) (buffer : List UInt8) : Prop :=
  closer env t (Buffer.gpLatitude buffer).toInt (Buffer.gpLongitude buffer).toInt = none ∧
    tcScf buffer = true

/-- The sender's position is accurate, and the router is not closer to the destination. -/
def Backward (buffer : List UInt8) (sender : Option LocTableEntry) : Prop :=
  ∃ e, sender = some e ∧ e.lpv.pai = 1 ∧
    progress env e.lpv (Buffer.gpLatitude buffer) (Buffer.gpLongitude buffer) ≤ 0

/-- Greedy forwarding does what contention-based forwarding would do: it discards a broadcast
packet of somebody else that moves backward, broadcasts an anycast packet of our own, and queues
one of somebody else that does not move backward. -/
def GreedyInstead (t : τ) (k : Nat) (pktType : PacketType) (buffer : List UInt8) : Prop :=
  let (sender, t') := find cfg.lifetimeLocTE t (env.now k) (soAddr buffer).mid
  match pktType with
  | .geoBroadcast => fromUs cfg buffer = false ∧ Backward env buffer sender
  | _ =>
    if fromUs cfg buffer then GreedyBroadcasts env t buffer
    else ¬ Backward env buffer sender ∧ GreedyQueues env t' buffer

/-- The cases in which no other algorithm is used than the configured one, or one that decides
alike. Inside of the area, contention-based forwarding is not configured, or the packet is our
own. Outside, the sender is in the table, and it is inside or contention-based forwarding is not
configured or does not differ; or it is not in the table, and a broadcast is what is wanted. -/
def Unbroken (t : τ) (k : Nat) (buffer : List UInt8) : Prop :=
  ∀ pktType, areaPacketType buffer = some pktType →
    if 0 ≤ forwardPosition env buffer env.latitudeEpv env.longitudeEpv then
      cfg.areaForwardingAlgorithm = .cbf → fromUs cfg buffer = true
    else
      match find cfg.lifetimeLocTE t (env.now k) (soAddr buffer).mid with
      | (some e, t) =>
        ¬ senderInside env buffer e → cfg.nonAreaForwardingAlgorithm = .cbf →
          GreedyInstead cfg env t (k + 1) pktType buffer
      | (none, t) =>
        if cfg.nonAreaForwardingAlgorithm = .cbf then fromUs cfg buffer = true
        else pktType = .geoAnycast ∧ GreedyBroadcasts env t buffer

/-! ## The algorithms -/

variable {cfg} {env} {t : τ} {k : Nat} {buffer : List UInt8} {nextAddr : Mid}

theorem nafGf_anycast (t : τ) (buffer : List UInt8) (nextAddr : Mid) :
    nafGf env t .geoAnycast buffer nextAddr =
      match closer env t (Buffer.gpLatitude buffer).toInt (Buffer.gpLongitude buffer).toInt with
      | some next => ⟨1, next.gnAddr.mid⟩
      | none => if tcScf buffer then ⟨0, nextAddr⟩ else ⟨1, llBc⟩ := rfl

theorem nafGf_anycast_eq_broadcast :
    nafGf env t .geoAnycast buffer nextAddr = ⟨1, llBc⟩ ↔ GreedyBroadcasts env t buffer := by
  rw [nafGf_anycast, GreedyBroadcasts]
  cases closer env t (Buffer.gpLatitude buffer).toInt (Buffer.gpLongitude buffer).toInt with
  | some next => simp
  | none => cases tcScf buffer <;> simp

theorem nafGf_anycast_eq_queue :
    nafGf env t .geoAnycast buffer nextAddr = ⟨0, nextAddr⟩ ↔ GreedyQueues env t buffer := by
  rw [nafGf_anycast, GreedyQueues]
  cases closer env t (Buffer.gpLatitude buffer).toInt (Buffer.gpLongitude buffer).toInt with
  | some next => simp
  | none => cases tcScf buffer <;> simp

theorem nafGf_anycast_ne_discard :
    nafGf env t .geoAnycast buffer nextAddr ≠ ⟨-1, nextAddr⟩ := by
  rw [nafGf_anycast]
  cases closer env t (Buffer.gpLatitude buffer).toInt (Buffer.gpLongitude buffer).toInt with
  | some next => simp
  | none => cases tcScf buffer <;> simp

theorem areaPacketType_cases {pktType : PacketType} (h : areaPacketType buffer = some pktType) :
    pktType = .geoAnycast ∨ pktType = .geoBroadcast := by
  unfold areaPacketType at h
  split_ifs at h
  · exact .inl (Option.some.inj h).symm
  · exact .inr (Option.some.inj h).symm

theorem nafCbf_of_fromUs {pktType : PacketType} (h : areaPacketType buffer = some pktType)
    (hus : fromUs cfg buffer = true) :
    nafCbf cfg env t k pktType buffer nextAddr = (⟨1, llBc⟩, t) := by
  rcases areaPacketType_cases h with rfl | rfl <;> simp [nafCbf, hus]

variable (nextAddr) in
/-- The packet of another station is queued, unless it moves backward. -/
theorem nafCbf_of_other {pktType : PacketType} {sender : Option LocTableEntry} {t' : τ}
    (h : areaPacketType buffer = some pktType) (hus : fromUs cfg buffer = false)
    (hfind : find cfg.lifetimeLocTE t (env.now k) (soAddr buffer).mid = (sender, t')) :
    ∃ ret, nafCbf cfg env t k pktType buffer nextAddr = (⟨ret, nextAddr⟩, t') ∧
      ((Backward env buffer sender ∧ ret = -1) ∨ (¬ Backward env buffer sender ∧ ret = 0)) := by
  have hforward : nafCbf cfg env t k pktType buffer nextAddr =
      nafCbf cfg env t k .geoAnycast buffer nextAddr := by
    rcases areaPacketType_cases h with rfl | rfl <;> rfl
  rw [hforward, nafCbf]
  simp only [hus, hfind, Bool.false_eq_true, if_false]
  cases sender with
  | none => exact ⟨0, rfl, .inr ⟨by simp [Backward], rfl⟩⟩
  | some e =>
    by_cases hpai : e.lpv.pai = 1
    · by_cases hprogress :
          0 < progress env e.lpv (Buffer.gpLatitude buffer) (Buffer.gpLongitude buffer)
      · refine ⟨0, by simp [hpai, hprogress], .inr ⟨?_, rfl⟩⟩
        rintro ⟨e', he, -, hle⟩
        obtain rfl := Option.some.inj he
        omega
      · refine ⟨-1, by simp [hpai, hprogress], .inl ⟨?_, rfl⟩⟩
        exact ⟨e, rfl, hpai, by omega⟩
    · refine ⟨0, by simp [hpai], .inr ⟨?_, rfl⟩⟩
      rintro ⟨e', he, hpai', -⟩
      obtain rfl := Option.some.inj he
      exact hpai hpai'

variable (cfg) (env) (t) (k) (nextAddr) in
/-- Where `NAF_CBF` is overwritten by `NAF_GF`. -/
theorem overwritten_iff {pktType : PacketType} (h : areaPacketType buffer = some pktType) :
    nafGf env (nafCbf cfg env t k pktType buffer nextAddr).2 pktType buffer
        (nafCbf cfg env t k pktType buffer nextAddr).1.nextAddr =
      (nafCbf cfg env t k pktType buffer nextAddr).1 ↔
      GreedyInstead cfg env t k pktType buffer := by
  unfold GreedyInstead
  obtain ⟨sender, t', hfind⟩ :
      ∃ sender t', find cfg.lifetimeLocTE t (env.now k) (soAddr buffer).mid = (sender, t') :=
    ⟨_, _, rfl⟩
  simp only [hfind]
  cases hus : fromUs cfg buffer with
  | true =>
    rw [nafCbf_of_fromUs h hus]
    rcases areaPacketType_cases h with rfl | rfl
    · simp [nafGf_anycast_eq_broadcast]
    · simp [nafGf]
  | false =>
    obtain ⟨ret, hnaf, hret⟩ := nafCbf_of_other nextAddr h hus hfind
    rw [hnaf]
    rcases areaPacketType_cases h with rfl | rfl
    · rcases hret with ⟨hback, rfl⟩ | ⟨hback, rfl⟩
      · simp [hback, nafGf_anycast_ne_discard]
      · simp [hback, nafGf_anycast_eq_queue]
    · rcases hret with ⟨hback, rfl⟩ | ⟨hback, rfl⟩
      · simp [hback, nafGf]
      · simp [hback, nafGf]

/-- `ForwardAlgorithmSelect` decides as the configured algorithm does exactly where no missing
`break` and no missing sender changes the decision. -/
theorem forwardAlgorithmSelect_eq_configured_iff (cfg : Config) (env : Env) (t : τ) (k : Nat)
    (buffer : List UInt8) (nextAddr : Mid) :
    (forwardAlgorithmSelect cfg env t k buffer nextAddr).1 =
      configured cfg env t k buffer nextAddr ↔ Unbroken cfg env t k buffer := by
  unfold forwardAlgorithmSelect configured Unbroken
  cases h : areaPacketType buffer with
  | none => simp
  | some pktType =>
    simp only [Option.some_inj, forall_eq']
    by_cases hin : 0 ≤ forwardPosition env buffer env.latitudeEpv env.longitudeEpv
    · simp only [if_pos hin]
      have hcode : (match cfg.areaForwardingAlgorithm with
          | .cbf => (⟨1, llBc⟩, (afCbf cfg env t k buffer nextAddr).2)
          | _ => (⟨1, llBc⟩, t) : Hop × τ).1 = ⟨1, llBc⟩ := by
        cases cfg.areaForwardingAlgorithm <;> rfl
      rw [hcode]
      by_cases haf : cfg.areaForwardingAlgorithm = .cbf
      · cases hus : fromUs cfg buffer <;> simp [haf, hus, afCbf]
      · simp [haf]
    · simp only [if_neg hin]
      obtain ⟨sender, t', hfind⟩ :
          ∃ sender t', find cfg.lifetimeLocTE t (env.now k) (soAddr buffer).mid = (sender, t') :=
        ⟨_, _, rfl⟩
      simp only [hfind]
      cases sender with
      | none =>
        simp only [Option.any_none, Bool.false_eq_true, if_false]
        by_cases hnaf : cfg.nonAreaForwardingAlgorithm = .cbf
        · simp only [if_pos hnaf]
          cases hus : fromUs cfg buffer with
          | true => simp [nafCbf_of_fromUs h hus]
          | false =>
            obtain ⟨sender', t'', hfind'⟩ : ∃ sender' t'',
                find cfg.lifetimeLocTE t' (env.now (k + 1)) (soAddr buffer).mid = (sender', t'') :=
              ⟨_, _, rfl⟩
            obtain ⟨ret, hcbf, hret⟩ := nafCbf_of_other nextAddr h hus hfind'
            have hne : (1 : Int) ≠ ret := by
              rcases hret with ⟨-, rfl⟩ | ⟨-, rfl⟩ <;> decide
            simp [hcbf, hne]
        · simp only [if_neg hnaf]
          rcases areaPacketType_cases h with rfl | rfl
          · rw [eq_comm, nafGf_anycast_eq_broadcast]
            simp
          · simp [nafGf]
      | some e =>
        by_cases hinside : senderInside env buffer e
        · simp [hinside]
        · by_cases hnaf : cfg.nonAreaForwardingAlgorithm = .cbf
          · have hoverwritten := overwritten_iff cfg env t' (k + 1) nextAddr h
            simp [hinside, hnaf, hoverwritten]
          · cases hcase : cfg.nonAreaForwardingAlgorithm with
            | unspecified => simp [hinside]
            | greedy => simp [hinside]
            | cbf => exact absurd hcase hnaf

end

/-! ## An overwritten decision -/

/-- `AddrCompare` compares the octets from the first on. -/
local instance : LinearOrder Mid := LinearOrder.lift' BitVec.toNat fun _ _ => BitVec.eq_of_toNat_eq

/-- A table as a list in the order of its keys. -/
abbrev SortedTable := List (Mid × LocTableEntry)

instance : OrderedEntryMap SortedTable where
  lookup := Assoc.find
  assign := Assoc.assign
  insert := Assoc.insert
  erase t mid := t.filter fun p => p.1 ≠ mid
  toList := Assoc.values

/-- The router is in the centre of the area; contention-based forwarding is configured. -/
def centred : Env := ⟨fun _ => 0, 0, 0, fun _ _ _ _ => 0, fun _ _ _ _ _ => (0, 0), id⟩

def contentionBased : Config := ⟨⟨0, 0, 0⟩, 20, .cbf, .greedy⟩

/-- A packet of another station in the circle, to be queued, is broadcast. -/
theorem overwrites_afCbf :
    (forwardAlgorithmSelect contentionBased centred ([] : SortedTable) 0
        (List.replicate 5 0 ++ [0x30] ++ List.replicate 12 0 ++ List.replicate 38 1) 0).1 ≠
      configured contentionBased centred ([] : SortedTable) 0
        (List.replicate 5 0 ++ [0x30] ++ List.replicate 12 0 ++ List.replicate 38 1) 0 := by
  decide

end SatComm.GeoNet.Forwarding
