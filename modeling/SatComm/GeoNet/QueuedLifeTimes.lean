import SatComm.GeoNet.Incoming

/-!
# The lifetimes of queued packets

`FlushQueueSync` takes the third octet of a queued buffer for the lifetime. In a packet that was
received this is the octet `lt` of the basic header. A packet to be transmitted has the octet of
the family in front: there it is the reserved octet, which is always zero.
-/

namespace SatComm.GeoNet

open Forwarding (OrderedEntryMap)

variable {τ κ : Type}

/-- A call that may queue packets. -/
inductive RouterCall (τ κ : Type)
  | transmit (cfg : Outgoing.Config) (env : Outgoing.Env) (data : Outgoing.GnData)
      (txcb : Option κ) (s : Outgoing.State τ)
  | receive (cfg : Config) (env : Incoming.Env) (dfTxcb : Option κ) (r : RouterOf τ)
      (buffer : List UInt8)

namespace RouterCall

variable [OrderedEntryMap τ]

def actions : RouterCall τ κ → List (Action κ)
  | transmit cfg env data txcb s => (Outgoing.transmit cfg env data txcb s).2.2
  | receive cfg env dfTxcb r buffer => (Incoming.receive cfg env dfTxcb r buffer).2.2

/-- The octet `lt` of the basic header of the packet that a call of `Enqueue` queues: behind the
octet of the family, or in the packet received. -/
def lt (call : RouterCall τ κ) (c : EnqueueCall (Option κ)) : UInt8 :=
  match call with
  | transmit .. => octet c.buffer 3
  | receive _ _ _ _ buffer => Buffer.lt buffer

/-- A packet to be transmitted has a lifetime that is coded as none. A packet received is not a copy
that was released, or the octet in its place means the same. -/
def Kept : RouterCall τ κ → Prop
  | transmit cfg _ data _ _ =>
    Outgoing.lifetime cfg data < 50 ∨ Outgoing.lifetime cfg data = 1000 ∨
      10000 ≤ Outgoing.lifetime cfg data
  | receive _ env _ _ buffer =>
    Buffer.ht buffer = 3 ∨ Buffer.ht buffer = 4 → 0 ≤ Incoming.position env buffer →
      decodeLifeTime (octet env.released 2) = decodeLifeTime (Buffer.lt buffer)

end RouterCall

/-! ## Transmission -/

namespace Outgoing

/-- Behind the octet of the family stands a basic header. -/
def Headed (cfg : Config) (data : GnData) (buffer : List UInt8) : Prop :=
  octet buffer 2 = 0 ∧ octet buffer 3 = encodeLifeTime (lifetime cfg data)

/-- Every packet that is queued has its header. -/
def AllHeaded (cfg : Config) (data : GnData) (actions : List (Action κ)) : Prop :=
  ∀ c, .enqueue c ∈ actions → Headed cfg data c.buffer

variable {cfg : Config} {env : Env} {data : GnData} {txcb : Option κ} {s : State τ}

theorem headed_writeHeader (family : UInt8) (rest packet : List UInt8) :
    Headed cfg data (writeHeader (initBhAndCh cfg data ++ rest) (family :: packet)) :=
  ⟨rfl, rfl⟩

theorem allHeaded_nil : AllHeaded cfg data ([] : List (Action κ)) := by
  intro c hc
  cases hc

theorem allHeaded_singleton {c : EnqueueCall (Option κ)} (h : Headed cfg data c.buffer) :
    AllHeaded cfg data [.enqueue c] := by
  intro c' hc
  obtain rfl := Action.enqueue.inj (List.mem_singleton.mp hc)
  exact h

theorem AllHeaded.append {actions actions' : List (Action κ)} (h : AllHeaded cfg data actions)
    (h' : AllHeaded cfg data actions') : AllHeaded cfg data (actions ++ actions') := by
  intro c hc
  rcases List.mem_append.mp hc with hc | hc
  · exact h c hc
  · exact h' c hc

theorem allHeaded_storeOrSend (h : Headed cfg data s.packet) :
    AllHeaded cfg data (storeOrSend env data txcb s).2.2 := by
  unfold storeOrSend
  split
  · exact allHeaded_singleton h
  · cases txcb with
    | some cb =>
      intro c hc
      cases List.mem_singleton.mp hc
    | none => exact allHeaded_nil

/-- There is room for the octet of the family. -/
theorem makeRoom_packet {size : Nat} {s' : State τ} (h : makeRoom size s = some s') :
    ∃ packet, s'.packet = 0x03 :: packet := by
  unfold makeRoom at h
  split at h
  · cases h
  · obtain rfl := Option.some.inj h
    exact ⟨_, rfl⟩

theorem allHeaded_transmitTsbCase (retVal : Int) :
    AllHeaded cfg data (transmitTsbCase cfg env data txcb retVal s).2.2 := by
  unfold transmitTsbCase
  split
  · split
    · exact allHeaded_nil
    · rename_i s' hroom
      obtain ⟨packet, hpacket⟩ := makeRoom_packet hroom
      apply allHeaded_storeOrSend
      simp only [hpacket, List.append_assoc]
      exact headed_writeHeader _ _ _
  · split
    · exact allHeaded_nil
    · rename_i s' hroom
      obtain ⟨packet, hpacket⟩ := makeRoom_packet hroom
      apply allHeaded_storeOrSend
      simp only [hpacket, List.append_assoc]
      exact headed_writeHeader _ _ _

variable [OrderedEntryMap τ]

theorem allHeaded_transmitGuc {family : UInt8} {packet : List UInt8}
    (h : s.packet = family :: packet) :
    AllHeaded cfg data (transmitGuc cfg env data txcb s).2.2 := by
  have hheaded : Headed cfg data (writeHeader
      (initBhAndCh cfg data ++ octets16 s.sequenceNumber ++ [0, 0] ++ initSourceLpv cfg env)
      s.packet) := by
    rw [h, List.append_assoc, List.append_assoc]
    exact headed_writeHeader _ _ _
  unfold transmitGuc
  dsimp only
  rcases find cfg.lifetimeLocTE s.router.table (env.now 0) data.dAddr with ⟨_ | e, t⟩
  · dsimp only
    rw [← List.singleton_append]
    refine AllHeaded.append (allHeaded_singleton hheaded) ?_
    intro c hc
    cases List.mem_singleton.mp hc
  · dsimp only
    split_ifs
    · exact allHeaded_nil
    · exact allHeaded_singleton hheaded
    · exact allHeaded_nil
    · exact allHeaded_nil

theorem allHeaded_transmitGbcGac {family : UInt8} {packet : List UInt8}
    (h : s.packet = family :: packet) :
    AllHeaded cfg data (transmitGbcGac cfg env data txcb s).2.2 := by
  have hheaded : Headed cfg data (writeHeader
      (initBhAndCh cfg data ++ octets16 s.sequenceNumber ++ [0, 0] ++ initSourceLpv cfg env ++
        initDestinationArea data ++ [0, 0]) s.packet) := by
    simp only [h, List.append_assoc]
    exact headed_writeHeader _ _ _
  unfold transmitGbcGac
  split
  · exact allHeaded_nil
  · simp only
    split
    · exact allHeaded_singleton hheaded
    · cases txcb with
      | none => exact allHeaded_nil
      | some cb =>
        simp only
        split
        · intro c hc
          cases List.mem_singleton.mp hc
        · exact allHeaded_nil

/-- Every packet that `Transmit` queues has its header behind the octet of the family. -/
theorem allHeaded_transmit : AllHeaded cfg data (transmit cfg env data txcb s).2.2 := by
  have harea {s' : State τ} (hroom : makeRoom sizeofGbcGac s = some s') :
      AllHeaded cfg data ((transmitGbcGac cfg env data txcb s').2.2 ++
        (transmitTsbCase cfg env data txcb (transmitGbcGac cfg env data txcb s').1
          (transmitGbcGac cfg env data txcb s').2.1).2.2) := by
    obtain ⟨packet, hpacket⟩ := makeRoom_packet hroom
    exact (allHeaded_transmitGbcGac hpacket).append (allHeaded_transmitTsbCase _)
  unfold transmit
  cases data.pktType
  case geoUnicast =>
    dsimp only
    cases hroom : makeRoom sizeofGuc s with
    | none => exact allHeaded_nil
    | some s' =>
      obtain ⟨packet, hpacket⟩ := makeRoom_packet hroom
      exact allHeaded_transmitGuc hpacket
  case geoAnycast | geoBroadcast =>
    dsimp only
    cases hroom : makeRoom sizeofGbcGac s with
    | none => exact allHeaded_nil
    | some s' => exact harea hroom
  case tsb => exact allHeaded_transmitTsbCase (-1)
  case any | beacon | ls => exact allHeaded_nil

end Outgoing

/-! ## Reception -/

namespace Incoming

variable {buffer : List UInt8}

theorem octet_hop {i : Nat} (h : i ≠ 3) : octet (hop buffer) i = octet buffer i := by
  unfold hop octet
  split
  · rfl
  · simp [List.getElem?_set_ne (Ne.symm h)]

theorem ht_hop (buffer : List UInt8) : Buffer.ht (hop buffer) = Buffer.ht buffer := by
  rw [Buffer.ht, Buffer.ht, octet_hop (by decide)]

theorem position_hop (env : Env) : position env (hop buffer) = position env buffer := by
  have htype : Buffer.areaType (hop buffer) = Buffer.areaType buffer := by
    rw [Buffer.areaType, Buffer.areaType, Buffer.hst, Buffer.hst, octet_hop (by decide)]
  have harea : receivedArea (hop buffer) = receivedArea buffer := by
    simp [receivedArea, Buffer.gpLatitude, Buffer.gpLongitude, Buffer.distA, Buffer.distB,
      Buffer.angle, htype, load32, load16, octet_hop]
  rw [position, position, harea]

variable [OrderedEntryMap τ] {cfg : GeoNet.Config} {env : Env} {dfTxcb : Option κ}
  {r : RouterOf τ} {c : EnqueueCall (Option κ)}

theorem buffer_of_mem_receiveGbcGac
    (h : .enqueue c ∈ (receiveGbcGac cfg env dfTxcb r buffer).2.2) :
    c.buffer = forwarded env buffer := by
  have hflush (qid : BitVec 32) (addr : Option Mid) (purge : Bool) :
      Action.enqueue c ∉ [Action.flushQueue qid addr purge] := by simp
  have hqueued (qid : BitVec 32) (addr : Option Mid) (purge : Bool) (packet : List UInt8)
      (h : Action.enqueue c ∈
        [Action.flushQueue qid addr purge, enqueueCall env dfTxcb packet]) :
      c.buffer = packet := by
    simp only [enqueueCall, List.mem_cons, reduceCtorEq, List.not_mem_nil, or_false, false_or,
      Action.enqueue.injEq] at h
    rw [h]
  unfold receiveGbcGac at h
  dsimp only at h
  split at h
  · cases h
  · generalize (if 0 ≤ position env buffer then (0 : Int) else 1) = ret at h
    split_ifs at h
    · exact absurd h (hflush _ _ _)
    · exact hqueued _ _ _ _ h
    · exact hqueued _ _ _ _ h
    · exact absurd h (hflush _ _ _)

theorem buffer_of_mem_receiveTsb (h : .enqueue c ∈ (receiveTsb cfg env dfTxcb r buffer).2.2) :
    c.buffer = buffer := by
  unfold receiveTsb at h
  dsimp only at h
  split at h
  · cases h
  · split_ifs at h
    · simp only [enqueueCall, List.mem_cons, reduceCtorEq, List.not_mem_nil, or_false, false_or,
        Action.enqueue.injEq] at h
      rw [h]
    · simp at h

/-- What `Receive` queues: the packet, or what `ReceiveGBCGAC` forwards. -/
theorem buffer_of_mem_receive (h : .enqueue c ∈ (receive cfg env dfTxcb r buffer).2.2) :
    if Buffer.ht buffer = 3 ∨ Buffer.ht buffer = 4 then c.buffer = forwarded env (hop buffer)
    else c.buffer = hop buffer := by
  unfold receive at h
  split at h
  · cases h
  · dsimp only at h
    split at h
    · cases h
    · rw [List.mem_cons] at h
      have h' := h.resolve_left (by simp)
      rw [← ht_hop buffer]
      split at h'
      · rename_i ht
        rw [if_pos (.inl ht)]
        exact buffer_of_mem_receiveGbcGac h'
      · rename_i ht
        rw [if_pos (.inr ht)]
        exact buffer_of_mem_receiveGbcGac h'
      · rename_i ht
        rw [if_neg (by omega)]
        split at h'
        · cases h'
        · exact buffer_of_mem_receiveTsb h'
      · cases h'

end Incoming

/-! ## Both -/

variable [OrderedEntryMap τ]

/-- The lifetime that is applied to a queued packet is the one of its basic header exactly for
packets of a lifetime that is coded as none, and for packets received whose queued octets are still
those of the packet. -/
theorem appliedLifeTime_iff (call : RouterCall τ κ) (c : EnqueueCall (Option κ))
    (h : .enqueue c ∈ call.actions) :
    decodeLifeTime (ltRead c.element) = decodeLifeTime (call.lt c) ↔ call.Kept := by
  have hread : ltRead c.element = octet c.buffer 2 := rfl
  rw [hread]
  cases call with
  | transmit cfg env data txcb s =>
    obtain ⟨hreserved, hlt⟩ := Outgoing.allHeaded_transmit c h
    have hzero : decodeLifeTime 0 = 0 := rfl
    rw [RouterCall.lt, RouterCall.Kept, hreserved, hlt, hzero, ← coded_eq_zero_iff, eq_comm]
    rfl
  | receive cfg env dfTxcb r buffer =>
    have hbuffer := Incoming.buffer_of_mem_receive h
    rw [RouterCall.lt, RouterCall.Kept]
    have hlt : octet (Incoming.hop buffer) 2 = Buffer.lt buffer := Incoming.octet_hop (by decide)
    split at hbuffer
    · rename_i ht
      rw [hbuffer, Incoming.forwarded, Incoming.position_hop]
      by_cases hin : 0 ≤ Incoming.position env buffer
      · simp [ht, hin, forwardedPacket]
      · simp [hin, hlt, forwardedPacket]
    · rename_i ht
      simp [hbuffer, hlt, ht]

/-- A single-hop broadcast with a lifetime of 60 ms, to be stored since nobody is there. -/
def storedShb : RouterCall Forwarding.SortedTable Unit :=
  .transmit ⟨Forwarding.contentionBased, 0, true, 60⟩ ⟨Forwarding.centred, 0, 0, 0, true, 0, 0, 0⟩
    ⟨1, .tsb, true, 0, .gnAddr, 0, ⟨0, 0, 0, 0, 0, .circle⟩, 60, 1, 1⟩ (some ())
    ⟨List.replicate 41 0, [], ⟨[], 0⟩, 0⟩

/-- Its lifetime is applied as none. -/
theorem not_appliedLifeTime_storedShb :
    ∃ c, .enqueue c ∈ storedShb.actions ∧
      decodeLifeTime (ltRead c.element) = 0 ∧ decodeLifeTime (storedShb.lt c) = 50 :=
  ⟨_, List.mem_cons_self, by decide, by decide⟩

/-- A lifetime of less than 50 ms is coded, and applied, as none. -/
def shortLivedShb : RouterCall Forwarding.SortedTable Unit :=
  .transmit ⟨Forwarding.contentionBased, 0, true, 60⟩ ⟨Forwarding.centred, 0, 0, 0, true, 0, 0, 0⟩
    ⟨1, .tsb, true, 0, .gnAddr, 0, ⟨0, 0, 0, 0, 0, .circle⟩, 40, 1, 1⟩ (some ())
    ⟨List.replicate 41 0, [], ⟨[], 0⟩, 0⟩

theorem appliedLifeTime_shortLivedShb :
    ∃ c, .enqueue c ∈ shortLivedShb.actions ∧
      decodeLifeTime (ltRead c.element) = decodeLifeTime (shortLivedShb.lt c) :=
  ⟨_, List.mem_cons_self,
    (appliedLifeTime_iff shortLivedShb _ List.mem_cons_self).mpr (.inl (by decide))⟩

end SatComm.GeoNet
