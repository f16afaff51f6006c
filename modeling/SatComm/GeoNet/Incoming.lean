import SatComm.GeoNet.Outgoing

/-!
# Receiving packets to forward

`ReceiveGBCGAC` and `ReceiveTSB` queue a packet that is to be forwarded. Both queue a copy where
the packet is passed up, too. The copy of `ReceiveGBCGAC` is released at the end of the block that
makes it, before it is queued: `released` is what its memory holds then. Both allocate one octet for
the whole copy; what is written behind it is taken to stay there as long as the copy does.
-/

namespace SatComm.GeoNet.Incoming

open Forwarding (OrderedEntryMap)

/-- The memory of a new table entry, the local `NextAddr`, the clock of the queues, and the released
copy. -/
structure Env extends Forwarding.Env where
  raw : Raw
  nextAddr : Mid
  ts : Int
  released : List UInt8

section

variable {τ κ : Type} [OrderedEntryMap τ] (cfg : Config) (env : Env) (dfTxcb : Option κ)

/-- A call of `Enqueue` with the default callback. -/
def enqueueCall (packet : List UInt8) : Action κ := .enqueue ⟨bcQ, packet, dfTxcb, none, env.ts⟩

/-- The relative position of the router in `ReceiveGBCGAC`. -/
def position (buffer : List UInt8) : Int :=
  (receivedArea buffer).position env.int env.cartesianTransform env.latitudeEpv env.longitudeEpv

/-- What `ReceiveGBCGAC` forwards: the packet, or its copy. -/
def forwarded (buffer : List UInt8) : List UInt8 :=
  forwardedPacket (position env buffer) buffer env.released

/-- `GeoNetRouterImpl::ReceiveGBCGAC`. -/
def receiveGbcGac (r : RouterOf τ) (buffer : List UInt8) : Int × RouterOf τ × List (Action κ) :=
  let soPv := Buffer.soPv buffer
  match isDuplicated cfg.lifetimeLocTE r.table (env.now 0) soPv.gnAddr.mid
      (Buffer.sn buffer).toNat with
  | (true, t) => (-1, { r with table := t }, [])
  | (false, t) =>
    let t := update cfg.lifetimeLocTE t (env.now 1) env.raw soPv
    let flush := Action.flushQueue (lsQ ||| ucQ) (some soPv.gnAddr.mid) false
    let packet := forwarded env buffer
    let ret : Int := if 0 ≤ position env buffer then 0 else 1
    if Buffer.rhl buffer = 0 then (ret, { r with table := t }, [flush])
    else if r.neighborCount = 0 then
      (ret, { r with table := t }, [flush, enqueueCall env dfTxcb packet])
    else
      let (hop, t) :=
        Forwarding.forwardAlgorithmSelect cfg env.toEnv t 2 packet env.nextAddr
      (ret, { r with table := t },
        if hop.ret = 0 then [flush, enqueueCall env dfTxcb packet] else [flush])

/-- `GeoNetRouterImpl::ReceiveTSB`. -/
def receiveTsb (r : RouterOf τ) (buffer : List UInt8) : Int × RouterOf τ × List (Action κ) :=
  let soPv := Buffer.soPv buffer
  match isDuplicated cfg.lifetimeLocTE r.table (env.now 0) soPv.gnAddr.mid
      (Buffer.sn buffer).toNat with
  | (true, t) => (-1, { r with table := t }, [])
  | (false, t) =>
    let t := update cfg.lifetimeLocTE t (env.now 1) env.raw soPv
    let flush := Action.flushQueue (ucQ ||| lsQ) (some soPv.gnAddr.mid) false
    (0, { r with table := t },
      if Buffer.rhl buffer ≠ 0 ∧ r.neighborCount = 0 ∧ Forwarding.tcScf buffer then
        [flush, enqueueCall env dfTxcb buffer]
      else [flush])

/-- `if (bh->rhl > 0) bh->rhl--`, in the buffer. -/
def hop (buffer : List UInt8) : List UInt8 :=
  if Buffer.rhl buffer = 0 then buffer else buffer.set 3 (octet buffer 3 - 1)

/-- The readings for the receive functions that test no area. -/
def withoutAreas : GeoNet.Env := ⟨env.now, 0, 0, 0, env.raw⟩

/-- `GeoNetRouterImpl::Receive`. The functions for the other types of packets queue nothing. -/
def receive (r : RouterOf τ) (buffer : List UInt8) : Int × RouterOf τ × List (Action κ) :=
  if !headerOk (Packet.ofBuffer buffer) then (-1, r, [])
  else
    let buffer := hop buffer
    if Buffer.mhl buffer < Buffer.rhl buffer then (-1, r, [])
    else
      let others : Int × RouterOf τ × List (Action κ) :=
        let (ret, r) := dispatch cfg (withoutAreas env) r (Packet.ofBuffer buffer)
        (ret, r, [])
      let (ret, r, actions) :=
        match Buffer.ht buffer with
        | 3 | 4 => receiveGbcGac cfg env dfTxcb r buffer
        | 5 => if Buffer.hst buffer = 0 then others else receiveTsb cfg env dfTxcb r buffer
        | _ => others
      (ret, r, .flushQueue bcQ none false :: actions)

end

end SatComm.GeoNet.Incoming
