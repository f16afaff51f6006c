import SatComm.GeoNet.QueuedLifeTimes

/-!
# The payload of a packet received

`Receive` takes the length of the payload from the common header, and the application removes what
is in front of a payload of this length. Neither compares it, nor the size of the header, with the
number of octets that came in. Octets behind these are read as whatever the memory holds.
-/

namespace SatComm.GeoNet.Incoming

open Forwarding (OrderedEntryMap)
open Outgoing (GnData initDefaultGnData)

/-- `Buffer` and `BufLen`: the octets in memory, and how many of them came in. -/
structure Arrival where
  memory : List UInt8
  bufLen : Nat

/-- `ntohs(ch->pl)`. -/
def payloadLen (memory : List UInt8) : Int := (ntohs (load16 memory 8)).toNat

/-- The header types that pass the checks. -/
def packetType : Nat → PacketType
  | 1 => .beacon
  | 2 => .geoUnicast
  | 3 => .geoAnycast
  | 4 => .geoBroadcast
  | 5 => .tsb
  | 6 => .ls
  | _ => .any

/-- The `GnData_t` of a packet that is passed up. -/
def receivedData (itsGnMaxPacketLifetime : Int) (raw : GnData) (memory : List UInt8) : GnData :=
  { initDefaultGnData itsGnMaxPacketLifetime raw with
    upperProt := Buffer.chNh memory
    pktType := packetType (Buffer.ht memory)
    isShb := (Buffer.ht memory = 5 && Buffer.hst memory = 0) || raw.isShb
    payloadLen := payloadLen memory
    tc := Buffer.tc memory }

/-- `sizeof` of the header of the packet's type and subtype. -/
def headerSize (memory : List UInt8) : Nat :=
  match Buffer.ht memory with
  | 1 => 36
  | 2 => 60
  | 3 | 4 => 56
  | 5 => 40
  | 6 => if Buffer.hst memory = 0 then 48 else 60
  | _ => 0

/-- The packet has a header, and the payload is behind it. -/
structure Bounded (a : Arrival) (data : GnData) : Prop where
  header : headerSize a.memory ≤ a.bufLen
  nonneg : 0 ≤ data.payloadLen
  payload : data.payloadLen ≤ a.bufLen - headerSize a.memory

/-- The sequence number has not been recorded for the source. -/
def Fresh {τ : Type} [OrderedEntryMap τ] (cfg : Config) (env : Env) (r : RouterOf τ)
    (memory : List UInt8) : Prop :=
  (isDuplicated cfg.lifetimeLocTE r.table (env.now 0) (Buffer.soPv memory).gnAddr.mid
    (Buffer.sn memory).toNat).1 = false

/-- The packets that are passed up: the headers pass the checks, and the packet is a single-hop
broadcast, or another broadcast that is no duplicate, with the router in the area if there is one. -/
def PassedUp {τ : Type} [OrderedEntryMap τ] (cfg : Config) (env : Env) (r : RouterOf τ)
    (memory : List UInt8) : Prop :=
  headerOk (Packet.ofBuffer memory) = true ∧ Buffer.rhl (hop memory) ≤ Buffer.mhl memory ∧
    (Buffer.ht memory = 5 ∧ (Buffer.hst memory = 0 ∨ Fresh cfg env r memory) ∨
      (Buffer.ht memory = 3 ∨ Buffer.ht memory = 4) ∧ 0 ≤ position env memory ∧
        Fresh cfg env r memory)

/-! ## What the hop leaves -/

variable {memory : List UInt8}

theorem load16_hop {i : Nat} (h : 4 ≤ i) : load16 (hop memory) i = load16 memory i := by
  rw [load16, load16, octet_hop (by omega), octet_hop (by omega)]

theorem load32_hop {i : Nat} (h : 4 ≤ i) : load32 (hop memory) i = load32 memory i := by
  rw [load32, load32, load16_hop h, load16_hop (by omega)]

theorem hst_hop (memory : List UInt8) : Buffer.hst (hop memory) = Buffer.hst memory := by
  rw [Buffer.hst, Buffer.hst, octet_hop (by decide)]

theorem mhl_hop (memory : List UInt8) : Buffer.mhl (hop memory) = Buffer.mhl memory := by
  rw [Buffer.mhl, Buffer.mhl, octet_hop (by decide)]

theorem sn_hop (memory : List UInt8) : Buffer.sn (hop memory) = Buffer.sn memory :=
  load16_hop (by decide)

theorem soPv_hop (memory : List UInt8) : Buffer.soPv (hop memory) = Buffer.soPv memory := by
  simp [Buffer.soPv, loadLpv, loadGnAddr, loadMid, load16_hop, load32_hop]

/-! ## The result of `Receive` -/

variable {τ κ : Type} [OrderedEntryMap τ] {cfg : Config} {env : Env} {dfTxcb : Option κ}
  {r : RouterOf τ}

theorem receiveTsb_eq_zero_iff :
    (receiveTsb cfg env dfTxcb r (hop memory)).1 = 0 ↔ Fresh cfg env r memory := by
  unfold receiveTsb Fresh
  dsimp only
  rw [soPv_hop, sn_hop]
  split
  · rename_i hdup
    simp [hdup]
  · rename_i hdup
    simp [hdup]

theorem receiveGbcGac_eq_zero_iff :
    (receiveGbcGac cfg env dfTxcb r (hop memory)).1 = 0 ↔
      0 ≤ position env memory ∧ Fresh cfg env r memory := by
  unfold receiveGbcGac Fresh
  dsimp only
  rw [soPv_hop, sn_hop, position_hop]
  split
  · rename_i hdup
    simp [hdup]
  · rename_i hdup
    rw [hdup]
    by_cases hin : 0 ≤ position env memory
    · simp only [hin, if_true, true_and]
      split_ifs <;> simp
    · simp only [hin, if_false, false_and, iff_false]
      split_ifs <;> simp

/-- The functions for unicast packets and for the location service pass nothing up. -/
theorem receiveGuc_ne_zero {env : GeoNet.Env} {p : Packet} :
    (receiveGuc cfg env r p).1 ≠ 0 := by
  unfold receiveGuc
  split
  · split <;> simp
  · dsimp only
    split_ifs <;> simp

theorem receiveLocationService_ne_zero {env : GeoNet.Env} {p : Packet} :
    (receiveLocationService cfg env r p).1 ≠ 0 := by
  unfold receiveLocationService
  split
  · split
    · split <;> simp
    · simp
  · split
    · split <;> simp
    · exact receiveGuc_ne_zero

theorem dispatch_eq_zero_iff {env : GeoNet.Env} {p : Packet} (hht : p.ht ≠ 3 ∧ p.ht ≠ 4)
    (htsb : p.ht = 5 → p.hst = 0) : (dispatch cfg env r p).1 = 0 ↔ p.ht = 5 := by
  unfold dispatch
  split
  · rename_i h
    simp [receiveBeaconOrShb, h]
  · rename_i h
    simp [receiveGuc_ne_zero, h]
  · rename_i h
    exact absurd h hht.1
  · rename_i h
    exact absurd h hht.2
  · rename_i h
    simp [receiveBeaconOrShb, h, htsb h]
  · rename_i h
    simp [receiveLocationService_ne_zero, h]
  · rename_i hne _
    exact iff_of_false (by simp) hne

/-- `Receive` returns 0 for the packets that are passed up. -/
theorem receive_eq_zero_iff :
    (receive cfg env dfTxcb r memory).1 = 0 ↔ PassedUp cfg env r memory := by
  have hht : (Packet.ofBuffer (hop memory)).ht = Buffer.ht memory := ht_hop memory
  have hhst : (Packet.ofBuffer (hop memory)).hst = Buffer.hst memory := hst_hop memory
  -- what is left to `dispatch` passes the single-hop broadcasts up
  have hothers : Buffer.ht memory ≠ 3 ∧ Buffer.ht memory ≠ 4 →
      (Buffer.ht memory = 5 → Buffer.hst memory = 0) →
        ((dispatch cfg (withoutAreas env) r (Packet.ofBuffer (hop memory))).1 = 0 ↔
          Buffer.ht memory = 5) := by
    rw [← hht, ← hhst]
    exact dispatch_eq_zero_iff
  unfold receive PassedUp
  by_cases hok : headerOk (Packet.ofBuffer memory) = true
  · simp only [hok, Bool.not_true, Bool.false_eq_true, if_false, mhl_hop, true_and]
    by_cases hlimit : Buffer.mhl memory < Buffer.rhl (hop memory)
    · simp [hlimit]
    · simp only [hlimit, if_false, Nat.le_of_not_lt hlimit, true_and, ht_hop, hst_hop]
      split
      · rename_i h
        simp [receiveGbcGac_eq_zero_iff, h]
      · rename_i h
        simp [receiveGbcGac_eq_zero_iff, h]
      · rename_i h
        by_cases hst : Buffer.hst memory = 0
        · simp [hst, h, hothers]
        · simp [receiveTsb_eq_zero_iff, h, hst]
      · rename_i hgac hgbc htsb
        have hne : Buffer.ht memory ≠ 3 ∧ Buffer.ht memory ≠ 4 := ⟨hgac, hgbc⟩
        have htsb : Buffer.ht memory ≠ 5 := htsb
        have hzero := hothers hne fun h => absurd h htsb
        simpa [hne, htsb] using hzero
  · simp [hok]

/-! ## The payload -/

variable {a : Arrival} {data : GnData}

variable (cfg env dfTxcb r) in
/-- The payload of a packet that is passed up is bounded exactly if the packet has room for the
header and for as many octets as the common header says. -/
theorem bounded_iff (itsGnMaxPacketLifetime : Int) (raw : GnData) (a : Arrival) :
    ((receive cfg env dfTxcb r a.memory).1 = 0 →
        Bounded a (receivedData itsGnMaxPacketLifetime raw a.memory)) ↔
      (PassedUp cfg env r a.memory → headerSize a.memory + payloadLen a.memory ≤ a.bufLen) := by
  rw [receive_eq_zero_iff]
  refine imp_congr_right fun _ => ?_
  have hpayload :
      (receivedData itsGnMaxPacketLifetime raw a.memory).payloadLen = payloadLen a.memory := rfl
  have hnonneg : 0 ≤ payloadLen a.memory := Int.natCast_nonneg _
  constructor
  · rintro ⟨hheader, -, hbound⟩
    omega
  · intro hroom
    exact ⟨by omega, by omega, by omega⟩

/-- Nineteen octets of a single-hop broadcast, which is to have a payload of 65535. -/
def shortShb : Arrival := ⟨[1, 0, 0, 1, 16, 80, 0, 0, 255, 255, 1, 0, 0, 0, 0, 0, 0, 0, 0], 19⟩

theorem passedUp_shortShb (cfg : Config) (env : Env) (r : RouterOf τ) :
    PassedUp cfg env r shortShb.memory :=
  ⟨by decide, by decide, .inl ⟨by decide, .inl (by decide)⟩⟩

theorem not_bounded_shortShb :
    ¬∀ (cfg : Config) (env : Env) (dfTxcb : Option Unit) (r : RouterOf Forwarding.SortedTable)
      (itsGnMaxPacketLifetime : Int) (raw : GnData) (a : Arrival),
      (receive cfg env dfTxcb r a.memory).1 = 0 →
        Bounded a (receivedData itsGnMaxPacketLifetime raw a.memory) := by
  intro h
  have hbounded := h Forwarding.contentionBased ⟨Forwarding.centred, ⟨false, 0⟩, 0, 0, []⟩ none
    ⟨[], 0⟩ 0 ⟨0, .any, false, 0, .gnAddr, 0, ⟨0, 0, 0, 0, 0, .circle⟩, 0, 0, 0⟩ shortShb
    (receive_eq_zero_iff.mpr (passedUp_shortShb _ _ _))
  exact absurd hbounded.header (by decide)

end SatComm.GeoNet.Incoming
