import SatComm.Data.Connection

/-!
# The firewall of the simulation server

`FirewallServerImpl` keeps the firewall entries in its state file. An entry for the combined
protocol is stored as two, one for TCP and one for UDP, each with a handle of its own; the reply has
the handle of the second one. Whether an entry exists is asked with the protocol of the request.
-/

namespace SatComm

namespace Data

namespace Firewall

inductive BackhaulPreference
  | PREF_ETH | PREF_USB | PREF_WLAN | PREF_WWAN | PREF_BLE | INVALID
deriving DecidableEq, Repr

def convertEnumToBackhaulPrefString : BackhaulPreference → String
  | .PREF_ETH => "ETH"
  | .PREF_USB => "USB"
  | .PREF_WLAN => "WLAN"
  | .PREF_WWAN => "WWAN"
  | .PREF_BLE => "BLE"
  | .INVALID => "INVALID"

inductive Direction
  | DUMMY | UPLINK | DOWNLINK
deriving DecidableEq, Repr

structure Ipv4Params where
  srcAddr : String
  srcSubnetMask : String
  destAddr : String
  destSubnetMask : String
  value : Int
  mask : Int
deriving DecidableEq, Repr

structure Ipv6Params where
  srcAddr : String
  destAddr : String
  srcPrefixLen : Int
  dstPrefixLen : Int
  val : Int
  mask : Int
  flowLabel : Int
  natEnabled : Int
deriving DecidableEq, Repr

structure ProtocolParams where
  source_port : Int
  source_port_range : Int
  dest_port : Int
  dest_port_range : Int
  icmp_type : Int
  icmp_code : Int
  esp_spi : Int
deriving DecidableEq, Repr

structure AddFirewallEntryRequest where
  slot_id : Int
  profile_id : Int
  backhaul_type : BackhaulPreference
  fw_direction : Direction
  protocol : String
  ip_family_type : IpFamilyType
  ipv4_params : Ipv4Params
  ipv6_params : Ipv6Params
  protocol_params : ProtocolParams
  is_hw_accelerated : Bool
deriving DecidableEq, Repr

/-- A stored entry. The addresses are members only for their family. -/
structure FirewallEntry where
  backhaul : String
  slotId : Int
  profileId : Int
  fw_direction : Direction
  isHwAccelerated : Bool
  protocol : String
  ip_family_type : String
  ipv4 : Option Ipv4Params
  ipv6 : Option Ipv6Params
  protocolParams : ProtocolParams
  handle : Int
deriving DecidableEq, Repr

/-- The entries in the state file; an array without entries may also be missing or null there. -/
abbrev Entries := List FirewallEntry

namespace AddFirewallEntryRequest

def protocols (request : AddFirewallEntryRequest) : List String :=
  if "PROTO_TCP_UDP" = request.protocol then ["TCP", "UDP"] else [request.protocol]

/-- `newConfig`. -/
def entry (request : AddFirewallEntryRequest) (protocol : String) (handle : Int) :
    FirewallEntry where
  backhaul := convertEnumToBackhaulPrefString request.backhaul_type
  slotId := request.slot_id
  profileId := request.profile_id
  fw_direction := request.fw_direction
  isHwAccelerated := request.is_hw_accelerated
  protocol := protocol
  ip_family_type := convertIpFamilyEnumToString request.ip_family_type
  ipv4 := if convertIpFamilyEnumToString request.ip_family_type = "IPV4" then
      some request.ipv4_params else none
  ipv6 := if convertIpFamilyEnumToString request.ip_family_type = "IPV6" then
      some request.ipv6_params else none
  protocolParams := request.protocol_params
  handle := handle

/-- What `isFirewallEntryAvailable` compares; a member that is missing is read as no text. -/
def Matches (request : AddFirewallEntryRequest) (e : FirewallEntry) : Prop :=
  e.backhaul = convertEnumToBackhaulPrefString request.backhaul_type ∧
  e.slotId = request.slot_id ∧ e.profileId = request.profile_id ∧
  e.fw_direction = request.fw_direction ∧ e.protocol = request.protocol ∧
  (convertIpFamilyEnumToString request.ip_family_type = "IPV4" →
    request.ipv4_params.srcAddr = (e.ipv4.map Ipv4Params.srcAddr).getD "") ∧
  (convertIpFamilyEnumToString request.ip_family_type = "IPV6" →
    request.ipv6_params.srcAddr = (e.ipv6.map Ipv6Params.srcAddr).getD "")

instance (request : AddFirewallEntryRequest) : DecidablePred request.Matches :=
  fun _ => inferInstanceAs (Decidable (_ ∧ _ ∧ _ ∧ _ ∧ _ ∧ (_ → _) ∧ (_ → _)))

end AddFirewallEntryRequest

/-- The index of the first entry that is found. -/
def isFirewallEntryAvailable (entries : Entries) (request : AddFirewallEntryRequest) :
    Option Nat :=
  entries.findIdx? (fun e => request.Matches e)

structure AddFirewallEntryReply where
  handle : Int
  reply : Reply
deriving DecidableEq, Repr

/-- The loop over the protocols; `handles` are the values that `getHandle` gives, one a call. -/
def addEntries (request : AddFirewallEntryRequest) :
    Entries → Int → List String → (Nat → Int) → Entries × Int
  | entries, handle, [], _ => (entries, handle)
  | entries, _, protocol :: protocols, handles =>
    addEntries request (entries ++ [request.entry protocol (handles 0)]) (handles 0) protocols
      (fun call => handles (call + 1))

def AddFirewallEntry (entries : Entries) (request : AddFirewallEntryRequest)
    (handles : Nat → Int) (data : ApiResult) : Entries × AddFirewallEntryReply :=
  if data.Succeeds then
    if (isFirewallEntryAvailable entries request).isSome then
      (entries, ⟨0, { data with error := .noEffect }⟩)
    else
      let (entries, handle) := addEntries request entries 0 request.protocols handles
      (entries, ⟨handle, data⟩)
  else (entries, ⟨0, data⟩)

def RemoveFirewallEntry (entries : Entries) (entry_handle : Int) (data : ApiResult) :
    Entries × Reply :=
  if data.Succeeds then
    match entries.findIdx? (fun e => e.handle = entry_handle) with
    | some idx => (entries.eraseIdx idx, data)
    | none => (entries, { data with error := .internal })
  else (entries, data)

/-! ## Adding, repeating and removing -/

/-- The values that `getHandle` gives during a request are not in use. -/
def NotInUse (entries : Entries) (request : AddFirewallEntryRequest) (handles : Nat → Int) : Prop :=
  ∀ call < request.protocols.length, handles call ∉ entries.map FirewallEntry.handle ∧
    ∀ earlier < call, handles earlier ≠ handles call

instance (entries : Entries) (request : AddFirewallEntryRequest) (handles : Nat → Int) :
    Decidable (NotInUse entries request handles) :=
  inferInstanceAs (Decidable (∀ call < _, _ ∧ ∀ earlier < _, _))

/-- A request after which the removal of its handle succeeds and leaves the entries as they were,
and which has no effect when it is repeated. -/
structure Undone (entries : Entries) (request : AddFirewallEntryRequest) (handles : Nat → Int)
    (data removeData : ApiResult) : Prop where
  removed : ∃ reply, reply.Succeeds ∧
    RemoveFirewallEntry (AddFirewallEntry entries request handles data).1
      (AddFirewallEntry entries request handles data).2.handle removeData = (entries, reply)
  repeated : ∀ handles',
    (AddFirewallEntry (AddFirewallEntry entries request handles data).1 request handles' data).1 =
      (AddFirewallEntry entries request handles data).1 ∧
    (AddFirewallEntry (AddFirewallEntry entries request handles data).1 request handles'
      data).2.reply.error = .noEffect

variable {entries : Entries} {request : AddFirewallEntryRequest} {handles : Nat → Int}
  {data removeData : ApiResult}

/-- An entry that has the protocol of the request is found again. -/
theorem matches_entry (request : AddFirewallEntryRequest) (handle : Int) :
    request.Matches (request.entry request.protocol handle) := by
  refine ⟨rfl, rfl, rfl, rfl, rfl, ?_, ?_⟩ <;> intro hfamily <;>
    simp [AddFirewallEntryRequest.entry, hfamily]

theorem AddFirewallEntry_of_succeeds
    (h : (AddFirewallEntry entries request handles data).2.reply.Succeeds) :
    data.Succeeds ∧ AddFirewallEntry entries request handles data =
      ((addEntries request entries 0 request.protocols handles).1,
        ⟨(addEntries request entries 0 request.protocols handles).2, data⟩) := by
  unfold AddFirewallEntry at h ⊢
  split_ifs at h ⊢ with hdata hfound
  · exact absurd h.2 (by simp)
  · exact ⟨hdata, rfl⟩
  · exact absurd h hdata

theorem RemoveFirewallEntry_of_findIdx? (hdata : removeData.Succeeds) {handle : Int} {idx : Nat}
    (hidx : entries.findIdx? (fun e => e.handle = handle) = some idx) :
    RemoveFirewallEntry entries handle removeData = (entries.eraseIdx idx, removeData) := by
  unfold RemoveFirewallEntry
  rw [if_pos hdata, hidx]

/-- A handle that was not in use before is that of the entry put behind. -/
theorem findIdx?_append_entry {e : FirewallEntry} {rest : Entries}
    (hfresh : e.handle ∉ entries.map FirewallEntry.handle) :
    (entries ++ e :: rest).findIdx? (fun e' => e'.handle = e.handle) = some entries.length := by
  have hnone : entries.findIdx? (fun e' => e'.handle = e.handle) = none := by
    rw [List.findIdx?_eq_none_iff]
    intro e' he'
    have hne : e'.handle ≠ e.handle := fun h => hfresh (List.mem_map.2 ⟨e', he', h⟩)
    simpa using hne
  rw [List.findIdx?_append, hnone, List.findIdx?_cons]
  simp

theorem addEntries_single (hprotocol : request.protocol ≠ "PROTO_TCP_UDP") :
    addEntries request entries 0 request.protocols handles =
      (entries ++ [request.entry request.protocol (handles 0)], handles 0) := by
  rw [AddFirewallEntryRequest.protocols, if_neg (Ne.symm hprotocol)]
  rfl

theorem addEntries_combined (hprotocol : request.protocol = "PROTO_TCP_UDP") :
    addEntries request entries 0 request.protocols handles =
      (entries ++ [request.entry "TCP" (handles 0), request.entry "UDP" (handles 1)],
        handles 1) := by
  rw [AddFirewallEntryRequest.protocols, if_pos hprotocol.symm]
  simp [addEntries]

theorem undone_of_single
    (hsuccess : (AddFirewallEntry entries request handles data).2.reply.Succeeds)
    (hfresh : NotInUse entries request handles) (hprotocol : request.protocol ≠ "PROTO_TCP_UDP")
    (hremove : removeData.Succeeds) : Undone entries request handles data removeData := by
  obtain ⟨hdata, hadd⟩ := AddFirewallEntry_of_succeeds hsuccess
  rw [addEntries_single hprotocol] at hadd
  have hlength : 0 < request.protocols.length := by
    rw [AddFirewallEntryRequest.protocols, if_neg (Ne.symm hprotocol)]
    exact Nat.one_pos
  have hidx := @findIdx?_append_entry _
    (request.entry request.protocol (handles 0)) [] (hfresh 0 hlength).1
  constructor
  · refine ⟨removeData, hremove, ?_⟩
    rw [hadd]
    simp only
    refine (RemoveFirewallEntry_of_findIdx? hremove hidx).trans ?_
    simp [List.eraseIdx_append_of_length_le]
  · intro handles'
    rw [hadd]
    have hfound : (isFirewallEntryAvailable
        (entries ++ [request.entry request.protocol (handles 0)]) request).isSome := by
      rw [isFirewallEntryAvailable, List.findIdx?_isSome]
      simp [matches_entry]
    unfold AddFirewallEntry
    rw [if_pos hdata, if_pos hfound]
    exact ⟨rfl, rfl⟩

/-- Of the two entries for the combined protocol one stays. -/
theorem not_undone_of_combined
    (hsuccess : (AddFirewallEntry entries request handles data).2.reply.Succeeds)
    (hprotocol : request.protocol = "PROTO_TCP_UDP") :
    ¬ Undone entries request handles data removeData := by
  rintro ⟨⟨reply, -, hremoved⟩, -⟩
  obtain ⟨-, hadd⟩ := AddFirewallEntry_of_succeeds hsuccess
  rw [hadd, addEntries_combined hprotocol] at hremoved
  have hlength := congrArg (fun result => result.1.length) hremoved
  have hlong : ∀ (es : Entries) (handle : Int),
      es.length ≤ (RemoveFirewallEntry es handle removeData).1.length + 1 := by
    intro es handle
    unfold RemoveFirewallEntry
    split
    · split
      · rw [List.length_eraseIdx]
        split <;> omega
      · exact Nat.le_succ _
    · exact Nat.le_succ _
  have hshort := hlong (entries ++ [request.entry "TCP" (handles 0),
    request.entry "UDP" (handles 1)]) (handles 1)
  simp only at hlength
  rw [hlength, List.length_append] at hshort
  simp at hshort

/-- What the request does can be undone and is not done twice exactly if it is not for the combined
protocol. -/
theorem undone_iff (hsuccess : (AddFirewallEntry entries request handles data).2.reply.Succeeds)
    (hfresh : NotInUse entries request handles) :
    Undone entries request handles data removeData ↔
      request.protocol ≠ "PROTO_TCP_UDP" ∧ removeData.Succeeds := by
  constructor
  · intro h
    refine ⟨fun hprotocol => not_undone_of_combined hsuccess hprotocol h, ?_⟩
    by_contra hremove
    obtain ⟨reply, hreply, hremoved⟩ := h.removed
    rw [RemoveFirewallEntry, if_neg hremove] at hremoved
    exact hremove ((Prod.mk.inj hremoved).2 ▸ hreply)
  · rintro ⟨hprotocol, hremove⟩
    exact undone_of_single hsuccess hfresh hprotocol hremove

/-- A request for this protocol, with addresses of no family. -/
def requestFor (protocol : String) : AddFirewallEntryRequest where
  slot_id := 1
  profile_id := 5
  backhaul_type := .PREF_WWAN
  fw_direction := .UPLINK
  protocol := protocol
  ip_family_type := .unknown
  ipv4_params := ⟨"", "", "", "", 0, 0⟩
  ipv6_params := ⟨"", "", 0, 0, 0, 0, 0, 0⟩
  protocol_params := ⟨80, 0, 443, 0, 0, 0, 0⟩
  is_hw_accelerated := false

theorem udp_undone :
    Undone [] (requestFor "UDP") (fun call => call) ⟨.success, .success⟩ ⟨.success, .success⟩ :=
  (undone_iff (by decide) (by decide)).2 (by decide)

/-- The handle of the UDP entry is returned, and the TCP entry stays. -/
theorem combined_not_undone :
    ¬ ∀ (entries : Entries) (request : AddFirewallEntryRequest) (handles : Nat → Int)
      (data removeData : ApiResult),
      (AddFirewallEntry entries request handles data).2.reply.Succeeds →
      NotInUse entries request handles → removeData.Succeeds →
      Undone entries request handles data removeData := by
  intro h
  exact not_undone_of_combined (by decide) rfl (h [] (requestFor "PROTO_TCP_UDP")
    (fun call => call) ⟨.success, .success⟩ ⟨.success, .success⟩ (by decide) (by decide)
    (by decide))

end Firewall

end Data

end SatComm
