import SatComm.GeoNet.QueuedLifeTimes

/-!
# One call, one packet

A call of `Transmit` is to push one header and the octet of the family in front of the payload, to
hand the packet over at most once, and to return the code of the function for the packet's type.
For `GeoBroadcast` and `GeoAnycast` packets the missing `break` does it all a second time, unless
the headroom that is left is too small for it.
-/

namespace SatComm.GeoNet

variable {τ κ : Type}

/-- The packet that is handed to the callback or put into a queue. -/
def Action.handed : Action κ → Option (List UInt8)
  | .enqueue c => some c.buffer
  | .send t => some t.buffer
  | .flushQueue .. | .locationServiceStart _ => none

namespace Outgoing

open Forwarding (OrderedEntryMap)

/-- The size of the header of the packet's own type, where `Transmit` knows the type. -/
def headerSize (data : GnData) : Option Nat :=
  match data.pktType with
  | .geoUnicast => some sizeofGuc
  | .geoAnycast | .geoBroadcast => some sizeofGbcGac
  | .tsb => some (if data.isShb then sizeofShb else sizeofTsb)
  | .any | .beacon | .ls => none

def IsArea (data : GnData) : Prop := data.pktType = .geoAnycast ∨ data.pktType = .geoBroadcast

def EnoughHeadroom (data : GnData) (s : State τ) : Prop :=
  ∀ size, headerSize data = some size → size + 1 ≤ s.headroom.length

/-- The octet of the family and a header stand in front of the payload. -/
def Framed (size : Nat) (payload packet : List UInt8) : Prop :=
  ∃ header : List UInt8, header.length = size ∧ packet = 0x03 :: (header ++ payload)

section

variable [OrderedEntryMap τ] (cfg : Config) (env : Env) (data : GnData) (txcb : Option κ)
  (s : State τ)

/-- The transmission of the packet's own type. -/
def ownTransmission : Int × State τ × List (Action κ) :=
  match data.pktType with
  | .geoUnicast => transmitGuc cfg env data txcb s
  | .geoAnycast | .geoBroadcast => transmitGbcGac cfg env data txcb s
  | .tsb => if data.isShb then transmitShb cfg env data txcb s else transmitTsb cfg env data txcb s
  | .any | .beacon | .ls => (-1, s, [])

/-- What `Transmit` is to do in one call. A packet of a type that it does not know is left alone. -/
structure Once : Prop where
  handed_once : ((transmit cfg env data txcb s).2.2.filterMap Action.handed).length ≤ 1
  handed_own : ∀ buffer ∈ (transmit cfg env data txcb s).2.2.filterMap Action.handed,
    buffer = (transmit cfg env data txcb s).2.1.packet ∧
      (Buffer.ht (buffer.drop 1) : Int) = data.pktType.code
  pushed : ∀ size, headerSize data = some size →
    Framed size s.packet (transmit cfg env data txcb s).2.1.packet ∧
      (transmit cfg env data txcb s).2.1.headroom =
        s.headroom.take (s.headroom.length - (size + 1))
  code : ∀ size s', headerSize data = some size → makeRoom size s = some s' →
    (transmit cfg env data txcb s).1 = (ownTransmission cfg env data txcb s').1
  unknown : headerSize data = none → transmit cfg env data txcb s = (-1, s, [])

end

/-! ## Headers -/

variable {cfg : Config} {env : Env} {data : GnData} {txcb : Option κ} {s : State τ} {size : Nat}
  {payload : List UInt8}

theorem Framed.writeHeader {header packet : List UInt8} (h : Framed size payload packet)
    (hlength : header.length ≤ size) : Framed size payload (writeHeader header packet) := by
  obtain ⟨room, hroom, rfl⟩ := h
  refine ⟨header ++ room.drop header.length, ?_, ?_⟩
  · rw [List.length_append, List.length_drop, hroom]
    omega
  · have hdrop : (room ++ payload).drop header.length = room.drop header.length ++ payload :=
      List.drop_append_of_le_length (hlength.trans_eq hroom.symm)
    simp [Outgoing.writeHeader, Nat.add_comm 1, hdrop]

/-- The high four bits of the octet. -/
theorem nibbles_shiftRight {high : Int} (low : Int) (h : 0 ≤ high) (hlt : high < 16) :
    (((nibbles high low).toNat >>> 4 : Nat) : Int) = high := by
  have hvalue : (nibbles high low).toNat = (16 * (high % 16) + low % 16).toNat := by
    rw [nibbles, UInt8.ofInt, UInt8.toNat_ofNat']
    omega
  rw [hvalue, Nat.shiftRight_eq_div_pow]
  omega

/-- The common header has the packet's type. -/
theorem ht_writeHeader {rest packet : List UInt8} (h : Framed size payload packet) :
    (Buffer.ht ((writeHeader (initBhAndCh cfg data ++ rest) packet).drop 1) : Int) =
      data.pktType.code := by
  obtain ⟨room, -, rfl⟩ := h
  have hoctet : octet ((writeHeader (initBhAndCh cfg data ++ rest)
      (0x03 :: (room ++ payload))).drop 1) 5 = nibbles data.pktType.code (hst data) := rfl
  rw [Buffer.ht, hoctet]
  apply nibbles_shiftRight <;> cases data.pktType <;> decide

/-! ## The room for a header -/

theorem makeRoom_eq_none_iff : makeRoom size s = none ↔ s.headroom.length < size + 1 := by
  unfold makeRoom
  split <;> simp_all

theorem makeRoom_spec {s' : State τ} (h : makeRoom size s = some s') :
    Framed size s.packet s'.packet ∧
      s'.headroom = s.headroom.take (s.headroom.length - (size + 1)) := by
  have hroom : ¬s.headroom.length < size + 1 := fun hlt => by
    rw [makeRoom_eq_none_iff.mpr hlt] at h
    cases h
  rw [makeRoom, if_neg hroom] at h
  obtain rfl := Option.some.inj h
  refine ⟨⟨_, ?_, rfl⟩, rfl⟩
  rw [List.length_drop]
  omega

/-! ## The functions for the types -/

/-- What each of these functions does with the packet. -/
structure Transmits (data : GnData) (size : Nat) (payload headroom : List UInt8)
    (result : Int × State τ × List (Action κ)) : Prop where
  framed : Framed size payload result.2.1.packet
  headroom : result.2.1.headroom = headroom
  handed : result.2.2.filterMap Action.handed = [] ∨
    result.2.2.filterMap Action.handed = [result.2.1.packet] ∧
      (Buffer.ht (result.2.1.packet.drop 1) : Int) = data.pktType.code

theorem transmits_storeOrSend {headroom : List UInt8} (hheadroom : s.headroom = headroom)
    (hframed : Framed size payload s.packet)
    (htype : (Buffer.ht (s.packet.drop 1) : Int) = data.pktType.code) :
    Transmits data size payload headroom (storeOrSend env data txcb s) := by
  unfold storeOrSend
  split
  · exact ⟨hframed, hheadroom, .inr ⟨rfl, htype⟩⟩
  · cases txcb with
    | none => exact ⟨hframed, hheadroom, .inl rfl⟩
    | some cb => exact ⟨hframed, hheadroom, .inr ⟨rfl, htype⟩⟩

theorem transmits_transmitTsb (h : Framed sizeofTsb payload s.packet) :
    Transmits data sizeofTsb payload s.headroom (transmitTsb cfg env data txcb s) := by
  unfold transmitTsb
  simp only [List.append_assoc]
  apply transmits_storeOrSend
  · rfl
  · exact h.writeHeader (Nat.le_of_eq rfl)
  · exact ht_writeHeader h

theorem transmits_transmitShb (h : Framed sizeofShb payload s.packet) :
    Transmits data sizeofShb payload s.headroom (transmitShb cfg env data txcb s) := by
  unfold transmitShb
  simp only [List.append_assoc]
  apply transmits_storeOrSend
  · rfl
  · exact h.writeHeader (Nat.le_of_eq rfl)
  · exact ht_writeHeader h

variable (cfg env txcb) in
theorem framed_transmitTsbCase (retVal : Int)
    (hroom : (if data.isShb then sizeofShb else sizeofTsb) + 1 ≤ s.headroom.length) :
    Framed (if data.isShb then sizeofShb else sizeofTsb) s.packet
      (transmitTsbCase cfg env data txcb retVal s).2.1.packet := by
  unfold transmitTsbCase
  split
  · rename_i hshb
    rw [if_pos hshb] at hroom
    cases hmade : makeRoom sizeofShb s with
    | none => exact absurd (makeRoom_eq_none_iff.mp hmade) (by omega)
    | some s' => exact (transmits_transmitShb (makeRoom_spec hmade).1).framed
  · rename_i htsb
    rw [if_neg htsb] at hroom
    cases hmade : makeRoom sizeofTsb s with
    | none => exact absurd (makeRoom_eq_none_iff.mp hmade) (by omega)
    | some s' => exact (transmits_transmitTsb (makeRoom_spec hmade).1).framed

/-- Without the room for a second header the case of `TSB` does nothing. -/
theorem transmitTsbCase_of_lt {retVal : Int} (h : s.headroom.length < sizeofTsb + 1) :
    transmitTsbCase cfg env data txcb retVal s = (retVal, s, []) := by
  unfold transmitTsbCase
  rw [makeRoom_eq_none_iff.mpr h, show sizeofShb = sizeofTsb from rfl,
    makeRoom_eq_none_iff.mpr h]
  split <;> rfl

section

variable [OrderedEntryMap τ]

theorem transmits_transmitGbcGac (h : Framed sizeofGbcGac payload s.packet) :
    Transmits data sizeofGbcGac payload s.headroom (transmitGbcGac cfg env data txcb s) := by
  unfold transmitGbcGac
  split
  · exact ⟨h, rfl, .inl rfl⟩
  · simp only [List.append_assoc]
    generalize hheader : octets16 s.sequenceNumber ++ ([0, 0] ++ (initSourceLpv cfg env ++
      (initDestinationArea data ++ [0, 0]))) = header
    have hlength : header.length = 44 := by rw [← hheader]; rfl
    have hframed :
        Framed sizeofGbcGac payload (writeHeader (initBhAndCh cfg data ++ header) s.packet) :=
      h.writeHeader (Nat.le_of_eq (by rw [List.length_append, hlength]; rfl))
    have htype :
        (Buffer.ht ((writeHeader (initBhAndCh cfg data ++ header) s.packet).drop 1) : Int) =
          data.pktType.code := ht_writeHeader h
    split
    · exact ⟨hframed, rfl, .inr ⟨rfl, htype⟩⟩
    · cases txcb with
      | none => exact ⟨hframed, rfl, .inl rfl⟩
      | some cb =>
        dsimp only
        split
        · exact ⟨hframed, rfl, .inr ⟨rfl, htype⟩⟩
        · exact ⟨hframed, rfl, .inl rfl⟩

theorem transmits_transmitGuc (h : Framed sizeofGuc payload s.packet) :
    Transmits data sizeofGuc payload s.headroom (transmitGuc cfg env data txcb s) := by
  unfold transmitGuc
  simp only [List.append_assoc]
  generalize hheader : octets16 s.sequenceNumber ++ ([0, 0] ++ initSourceLpv cfg env) = header
  have hlength : header.length = 28 := by rw [← hheader]; rfl
  have hframed : Framed sizeofGuc payload (writeHeader (initBhAndCh cfg data ++ header) s.packet) :=
    h.writeHeader (by rw [List.length_append, hlength]; exact Nat.le_of_ble_eq_true rfl)
  have htype : (Buffer.ht ((writeHeader (initBhAndCh cfg data ++ header) s.packet).drop 1) : Int) =
      data.pktType.code := ht_writeHeader h
  rcases find cfg.lifetimeLocTE s.router.table (env.now 0) data.dAddr with ⟨_ | e, t⟩
  · exact ⟨hframed, rfl, .inr ⟨rfl, htype⟩⟩
  · dsimp only
    split_ifs
    · exact ⟨hframed, rfl, .inl rfl⟩
    · exact ⟨hframed, rfl, .inr ⟨rfl, htype⟩⟩
    · exact ⟨hframed, rfl, .inl rfl⟩
    · exact ⟨hframed, rfl, .inl rfl⟩

variable (cfg env txcb) in
theorem transmits_ownTransmission {s' : State τ} (hsize : headerSize data = some size)
    (hroom : makeRoom size s = some s') :
    Transmits data size s.packet s'.headroom (ownTransmission cfg env data txcb s') := by
  have hframed := (makeRoom_spec hroom).1
  unfold ownTransmission
  unfold headerSize at hsize
  cases htype : data.pktType
  case geoUnicast =>
    rw [htype] at hsize
    cases hsize
    exact transmits_transmitGuc hframed
  case geoAnycast | geoBroadcast =>
    rw [htype] at hsize
    cases hsize
    exact transmits_transmitGbcGac hframed
  case tsb =>
    rw [htype] at hsize
    dsimp only
    split_ifs at hsize ⊢
    · cases hsize
      exact transmits_transmitShb hframed
    · cases hsize
      exact transmits_transmitTsb hframed
  case any | beacon | ls =>
    rw [htype] at hsize
    cases hsize

/-! ## The call -/

/-- A call that is nothing but the transmission of the packet's own type. -/
theorem once_of_transmit_eq {s' : State τ} (hsize : headerSize data = some size)
    (hroom : makeRoom size s = some s')
    (h : transmit cfg env data txcb s = ownTransmission cfg env data txcb s') :
    Once cfg env data txcb s := by
  obtain ⟨hframed, hheadroom, hhanded⟩ :=
    transmits_ownTransmission cfg env txcb hsize hroom
  rw [← h] at hframed hheadroom hhanded
  constructor
  · rcases hhanded with hnone | ⟨hone, -⟩
    · simp [hnone]
    · simp [hone]
  · intro buffer hbuffer
    rcases hhanded with hnone | ⟨hone, htype⟩
    · rw [hnone] at hbuffer
      cases hbuffer
    · rw [hone, List.mem_singleton] at hbuffer
      exact ⟨hbuffer, hbuffer ▸ htype⟩
  · intro size' hsize'
    obtain rfl := Option.some.inj (hsize.symm.trans hsize')
    exact ⟨hframed, hheadroom.trans (makeRoom_spec hroom).2⟩
  · intro size' s'' hsize' hroom'
    obtain rfl := Option.some.inj (hsize.symm.trans hsize')
    obtain rfl := Option.some.inj (hroom.symm.trans hroom')
    rw [h]
  · intro hnone
    rw [hsize] at hnone
    cases hnone

theorem once_of_unknown (hsize : headerSize data = none) : Once cfg env data txcb s := by
  have hleft : transmit cfg env data txcb s = (-1, s, []) := by
    unfold headerSize at hsize
    unfold transmit
    cases htype : data.pktType <;> simp [htype] at hsize ⊢
  constructor
  · simp [hleft]
  · simp [hleft]
  · simp [hsize]
  · simp [hsize]
  · exact fun _ => hleft

/-- In the case of the area packets the one of `TSB` follows. -/
theorem transmit_of_isArea {s' : State τ} (harea : IsArea data)
    (hroom : makeRoom sizeofGbcGac s = some s') :
    transmit cfg env data txcb s =
      ((transmitTsbCase cfg env data txcb (transmitGbcGac cfg env data txcb s').1
          (transmitGbcGac cfg env data txcb s').2.1).1,
        (transmitTsbCase cfg env data txcb (transmitGbcGac cfg env data txcb s').1
          (transmitGbcGac cfg env data txcb s').2.1).2.1,
        (transmitGbcGac cfg env data txcb s').2.2 ++
          (transmitTsbCase cfg env data txcb (transmitGbcGac cfg env data txcb s').1
            (transmitGbcGac cfg env data txcb s').2.1).2.2) := by
  unfold transmit
  rcases harea with htype | htype <;> simp only [htype, hroom]

theorem once_iff_of_isArea (harea : IsArea data) (h : sizeofGbcGac + 1 ≤ s.headroom.length) :
    Once cfg env data txcb s ↔ s.headroom.length < 98 := by
  have hsize : headerSize data = some sizeofGbcGac := by
    rcases harea with htype | htype <;> rw [headerSize, htype]
  cases hroom : makeRoom sizeofGbcGac s with
  | none => exact absurd (makeRoom_eq_none_iff.mp hroom) (by omega)
  | some s' =>
    have hown : ownTransmission cfg env data txcb s' = transmitGbcGac cfg env data txcb s' := by
      rcases harea with htype | htype <;> rw [ownTransmission, htype]
    have htransmits := transmits_ownTransmission cfg env txcb hsize hroom
    rw [hown] at htransmits
    have hheadroom :
        (transmitGbcGac cfg env data txcb s').2.1.headroom.length = s.headroom.length - 57 := by
      rw [htransmits.headroom, (makeRoom_spec hroom).2, List.length_take]
      exact Nat.min_eq_left (Nat.sub_le _ _)
    constructor
    · intro honce
      by_contra hlong
      -- there is room for the second header, and the packet is longer than it is to be
      have hroom' : (if data.isShb then sizeofShb else sizeofTsb) + 1 ≤
          (transmitGbcGac cfg env data txcb s').2.1.headroom.length := by
        rw [hheadroom, show sizeofShb = sizeofTsb from rfl, ite_self, sizeofTsb]
        omega
      have hsecond := framed_transmitTsbCase cfg env txcb
        (transmitGbcGac cfg env data txcb s').1 hroom'
      have honly := (honce.pushed _ hsize).1
      rw [transmit_of_isArea harea hroom] at honly
      obtain ⟨header, hheader, hpacket⟩ := htransmits.framed
      obtain ⟨header', hheader', hpacket'⟩ := hsecond
      obtain ⟨header'', hheader'', hpacket''⟩ := honly
      have hlength := congrArg List.length (hpacket'.symm.trans hpacket'')
      simp [hpacket, hheader, hheader', hheader''] at hlength
      omega
    · intro hshort
      have hlt : (transmitGbcGac cfg env data txcb s').2.1.headroom.length < sizeofTsb + 1 := by
        rw [hheadroom, sizeofTsb]
        omega
      apply once_of_transmit_eq hsize hroom
      rw [transmit_of_isArea harea hroom, transmitTsbCase_of_lt hlt, hown, List.append_nil]

variable (cfg env txcb) in
/-- With enough headroom a call of `Transmit` does what it is to do exactly for the packets that are
not `GeoBroadcast` or `GeoAnycast`, and for those whose headroom is too small for a second header. -/
theorem once_iff (h : EnoughHeadroom data s) :
    Once cfg env data txcb s ↔ ¬(IsArea data ∧ 98 ≤ s.headroom.length) := by
  by_cases harea : IsArea data
  · have hsize : headerSize data = some sizeofGbcGac := by
      rcases harea with htype | htype <;> rw [headerSize, htype]
    rw [once_iff_of_isArea harea (h _ hsize)]
    simp [harea]
  · refine iff_of_true ?_ fun h' => harea h'.1
    cases hsize : headerSize data with
    | none => exact once_of_unknown hsize
    | some size =>
      cases hroom : makeRoom size s with
      | none => exact absurd (makeRoom_eq_none_iff.mp hroom) (Nat.not_lt.mpr (h _ hsize))
      | some s' =>
        apply once_of_transmit_eq hsize hroom
        unfold headerSize at hsize
        unfold transmit ownTransmission
        cases htype : data.pktType
        case geoUnicast =>
          rw [htype] at hsize
          cases hsize
          simp only [hroom]
        case geoAnycast | geoBroadcast => simp [IsArea, htype] at harea
        case tsb =>
          rw [htype] at hsize
          unfold transmitTsbCase
          split_ifs at hsize ⊢ <;> cases hsize <;> simp only [hroom]
        case any | beacon | ls =>
          rw [htype] at hsize
          cases hsize

/-- A `GeoBroadcast` packet to an area around the sender, with a headroom of 128 octets, while there
are no neighbors. -/
def roomyGbc : GnData :=
  ⟨1, .geoBroadcast, false, 1, .geoArea, 0, ⟨0, 0, 1000, 1000, 0, .circle⟩, 60000, 1, 1⟩

def roomyState : State Forwarding.SortedTable := ⟨List.replicate 128 0, [0xAA], ⟨[], 0⟩, 0⟩

/-- There is room for a second header, and it is pushed. -/
theorem not_once_roomyGbc :
    ¬∀ (cfg : Config) (env : Env) (data : GnData) (txcb : Option Unit)
      (s : State Forwarding.SortedTable),
      EnoughHeadroom data s → Once cfg env data txcb s := by
  intro h
  have hroom : sizeofGbcGac + 1 ≤ roomyState.headroom.length := by
    simp [roomyState, sizeofGbcGac]
  have honce := h ⟨Forwarding.contentionBased, 0, true, 60⟩
    ⟨Forwarding.centred, 0, 0, 0, true, 0, 0, 0⟩ roomyGbc (some ()) roomyState (by
      intro size hsize
      cases hsize
      exact hroom)
  have hshort := (once_iff_of_isArea (.inr rfl) hroom).mp honce
  simp [roomyState] at hshort

/-- A headroom for one header only. -/
def tightState : State Forwarding.SortedTable := ⟨List.replicate 64 0, [0xAA], ⟨[], 0⟩, 0⟩

theorem once_tightState :
    Once ⟨Forwarding.contentionBased, 0, true, 60⟩ ⟨Forwarding.centred, 0, 0, 0, true, 0, 0, 0⟩
      roomyGbc (some ()) tightState :=
  (once_iff _ _ _ (fun size hsize => by
    cases hsize
    simp [tightState, sizeofGbcGac])).mpr (by simp [tightState])

end

end Outgoing

end SatComm.GeoNet
