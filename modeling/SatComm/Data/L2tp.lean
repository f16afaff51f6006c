import SatComm.Runs.Basic
import SatComm.Data.Connection

/-!
# The L2TP configuration of the simulation server

`L2tpServerImpl` keeps the tunnels with their sessions in its state file. The number of tunnels is
compared with `>` before a tunnel is added, the number of sessions with `==` before a session is
added, and the sessions that come with a tunnel are not checked.

The local ids are unsigned and are read with `asInt`, which throws for a value that is no `int`.
The request then fails, with the file as it was.
-/

namespace SatComm

namespace Data

open Runs

inductive L2tpProtocol
  | none | ip | udp
deriving DecidableEq, Repr

def l2tpProtocolToString : L2tpProtocol → String
  | .ip => "IP"
  | .udp => "UDP"
  | .none => "NONE"

def maxTunnel : Nat := 2

def maxSession : Nat := 4

structure L2tpSessionConfig where
  locId : UInt32
  peerId : UInt32
deriving DecidableEq, Repr

structure L2tpTunnelConfig where
  l2tpProt : L2tpProtocol
  locId : UInt32
  peerId : UInt32
  localUdpPort : UInt32
  peerUdpPort : UInt32
  peerIpv6Addr : String
  peerIpv6GwAddr : String
  peerIpv4Addr : String
  peerIpv4GwAddr : String
  locIface : String
  ipFamilyType : IpFamilyType
  sessionConfig : List L2tpSessionConfig
deriving DecidableEq, Repr

/-- A stored tunnel. Ports and addresses are members only for their protocol and family. -/
structure Tunnel where
  prot : String
  localUdpPort : Option UInt32
  peerUdpPort : Option UInt32
  locId : UInt32
  peerId : UInt32
  peerIpv4Addr : Option String
  peerIpv4GwAddr : Option String
  peerIpv6Addr : Option String
  peerIpv6GwAddr : Option String
  locIface : String
  ipType : String
  sessionConfig : List L2tpSessionConfig
deriving DecidableEq, Repr

structure L2tpConfig where
  enable : Bool
  enableMtu : Bool
  enableTcpMss : Bool
  mtuSize : Int
  tunnelConfigs : List Tunnel
deriving DecidableEq, Repr

/-- The addresses that `inet_pton` takes. -/
structure InetPton where
  isValidIpv4Address : String → Bool
  isValidIpv6Address : String → Bool

/-- `Json::Value::asInt` of an unsigned value; it throws (`none`) where no `int` has the value. -/
def asInt? (x : UInt32) : Option Int := if x.toNat < 2 ^ 31 then some x.toNat else none

/-- An unsigned id that is passed as an `int`. -/
def toInt (x : UInt32) : Int := x.toBitVec.toInt

/-- The index of the first id that is equal, if there is one; `none` if `asInt` throws before. -/
def configExists : List UInt32 → Int → Nat → Option (Option Nat)
  | [], _, _ => some none
  | locId :: rest, configID, idx =>
    match asInt? locId with
    | none => none
    | some i => if configID = i then some (some idx) else configExists rest configID (idx + 1)

/-- The stored form of a tunnel. -/
def L2tpTunnelConfig.tunnel (request : L2tpTunnelConfig) : Tunnel where
  prot := l2tpProtocolToString request.l2tpProt
  localUdpPort := if l2tpProtocolToString request.l2tpProt = "UDP" then
      some request.localUdpPort else none
  peerUdpPort := if l2tpProtocolToString request.l2tpProt = "UDP" then
      some request.peerUdpPort else none
  locId := request.locId
  peerId := request.peerId
  peerIpv4Addr := if request.ipFamilyType = .ipv4 then some request.peerIpv4Addr else none
  peerIpv4GwAddr := if request.ipFamilyType = .ipv4 then some request.peerIpv4GwAddr else none
  peerIpv6Addr := if request.ipFamilyType = .ipv6 then some request.peerIpv6Addr else none
  peerIpv6GwAddr := if request.ipFamilyType = .ipv6 then some request.peerIpv6GwAddr else none
  locIface := request.locIface
  ipType := convertIpFamilyEnumToString request.ipFamilyType
  sessionConfig := request.sessionConfig

/-- The family is IPV4 or IPV6 and the address of the peer is valid; that of the gateway is only
logged. -/
def L2tpTunnelConfig.ValidPeer (inet : InetPton) (request : L2tpTunnelConfig) : Prop :=
  match request.ipFamilyType with
  | .ipv4 => inet.isValidIpv4Address request.peerIpv4Addr
  | .ipv6 => inet.isValidIpv6Address request.peerIpv6Addr
  | .dummy | .ipv4v6 | .unknown => False

instance (inet : InetPton) : DecidablePred (L2tpTunnelConfig.ValidPeer inet) := fun request => by
  unfold L2tpTunnelConfig.ValidPeer
  cases request.ipFamilyType <;> infer_instance

def Tunnel.sessionIds (t : Tunnel) : List UInt32 :=
  t.sessionConfig.map L2tpSessionConfig.locId

namespace L2tpConfig

def new : L2tpConfig where
  enable := false
  enableMtu := false
  enableTcpMss := false
  mtuSize := 0
  tunnelConfigs := []

def tunnelIds (s : L2tpConfig) : List UInt32 := s.tunnelConfigs.map Tunnel.locId

def setConfig (s : L2tpConfig) (enableConfig enableMtu enableMss : Bool) (mtuSize : Int)
    (data : ApiResult) : L2tpConfig × Option Reply :=
  if data.Succeeds then
    ({ s with
        enable := enableConfig
        enableMtu := enableMtu
        enableTcpMss := enableMss
        mtuSize := mtuSize }, some data)
  else (s, some data)

/-- The tunnel must not exist. -/
def checkNewTunnel (s : L2tpConfig) (locId : UInt32) (data : ApiResult) : Option ApiResult :=
  if ! s.enable then some { data with error := .notSupported }
  else (configExists s.tunnelIds (toInt locId) 0).map fun tunnelIdx =>
    if tunnelIdx.isSome then { data with error := .noEffect } else data

/-- The reply of a request that a check has passed or refused; no reply is an exception. -/
def addTunnel (inet : InetPton) (s : L2tpConfig) (request : L2tpTunnelConfig) (data : ApiResult) :
    L2tpConfig × Option Reply :=
  match s.checkNewTunnel request.locId data with
  | none => (s, none)
  | some data =>
    if data.Succeeds then
      if ¬ request.ValidPeer inet then (s, some { data with error := .internal })
      else if s.tunnelConfigs.length > maxTunnel then
        (s, some { data with error := .notSupported })
      else ({ s with tunnelConfigs := s.tunnelConfigs ++ [request.tunnel] }, some data)
    else (s, some data)

/-- The tunnel must exist: its index, or the error. -/
def checkTunnel (s : L2tpConfig) (tunnelId : Int) (data : ApiResult) :
    Option (ApiResult × Option Nat) :=
  if ! s.enable then some ({ data with error := .notSupported }, none)
  else (configExists s.tunnelIds tunnelId 0).map fun tunnelIdx =>
    if tunnelIdx.isSome then (data, tunnelIdx) else ({ data with error := .notSupported }, none)

def removeTunnel (s : L2tpConfig) (tunnelId : Int) (data : ApiResult) :
    L2tpConfig × Option Reply :=
  match s.checkTunnel tunnelId data with
  | none => (s, none)
  | some (data, tunnelIdx) =>
    if data.Succeeds then
      match tunnelIdx with
      | some tunnelIdx =>
        ({ s with tunnelConfigs := s.tunnelConfigs.eraseIdx tunnelIdx }, some data)
      | none => (s, some data)
    else (s, some data)

def modifySessions (s : L2tpConfig) (tunnelIdx : Nat)
    (f : List L2tpSessionConfig → List L2tpSessionConfig) : L2tpConfig :=
  { s with
    tunnelConfigs := s.tunnelConfigs.modify tunnelIdx fun t =>
      { t with sessionConfig := f t.sessionConfig } }

def sessionsAt (s : L2tpConfig) (tunnelIdx : Nat) : List L2tpSessionConfig :=
  (s.tunnelConfigs[tunnelIdx]?.map Tunnel.sessionConfig).getD []

def addSession (s : L2tpConfig) (tunnelId : UInt32) (session : L2tpSessionConfig)
    (data : ApiResult) : L2tpConfig × Option Reply :=
  match s.checkTunnel (toInt tunnelId) data with
  | none => (s, none)
  | some (data, tunnelIdx) =>
    if data.Succeeds then
      match tunnelIdx with
      | some tunnelIdx =>
        let sessionConfig := s.sessionsAt tunnelIdx
        if maxSession = sessionConfig.length then (s, some { data with error := .notSupported })
        else match configExists (sessionConfig.map L2tpSessionConfig.locId)
            (toInt session.locId) 0 with
          | none => (s, none)
          | some (some _) => (s, some { data with error := .noEffect })
          | some none => (s.modifySessions tunnelIdx (· ++ [session]), some data)
      | none => (s, some data)
    else (s, some data)

/-- A session that is not there leaves the file as it was, though it is written again. -/
def removeSession (s : L2tpConfig) (tunnelId sessionId : UInt32) (data : ApiResult) :
    L2tpConfig × Option Reply :=
  match s.checkTunnel (toInt tunnelId) data with
  | none => (s, none)
  | some (data, tunnelIdx) =>
    if data.Succeeds then
      match tunnelIdx with
      | some tunnelIdx =>
        match configExists ((s.sessionsAt tunnelIdx).map L2tpSessionConfig.locId)
            (toInt sessionId) 0 with
        | none => (s, none)
        | some none => (s, some { data with error := .notSupported })
        | some (some sessionIdx) =>
          (s.modifySessions tunnelIdx (·.eraseIdx sessionIdx), some data)
      | none => (s, some data)
    else (s, some data)

end L2tpConfig

inductive L2tpEvent
  | setConfig (enableConfig enableMtu enableMss : Bool) (mtuSize : Int) (data : ApiResult)
  | addTunnel (request : L2tpTunnelConfig) (data : ApiResult)
  | removeTunnel (tunnelId : Int) (data : ApiResult)
  | addSession (tunnelId : UInt32) (session : L2tpSessionConfig) (data : ApiResult)
  | removeSession (tunnelId sessionId : UInt32) (data : ApiResult)
deriving DecidableEq, Repr

namespace L2tpConfig

/-- The file and the reply after a request. -/
def handle (inet : InetPton) (s : L2tpConfig) : L2tpEvent → L2tpConfig × Option Reply
  | .setConfig enableConfig enableMtu enableMss mtuSize data =>
    s.setConfig enableConfig enableMtu enableMss mtuSize data
  | .addTunnel request data => s.addTunnel inet request data
  | .removeTunnel tunnelId data => s.removeTunnel tunnelId data
  | .addSession tunnelId session data => s.addSession tunnelId session data
  | .removeSession tunnelId sessionId data => s.removeSession tunnelId sessionId data

def step (inet : InetPton) (s : L2tpConfig) (e : L2tpEvent) : Option L2tpConfig :=
  some (s.handle inet e).1

/-- The limits and the local ids. -/
structure Within (s : L2tpConfig) : Prop where
  tunnels : s.tunnelConfigs.length ≤ maxTunnel
  tunnelIds : s.tunnelIds.Nodup
  sessions : ∀ t ∈ s.tunnelConfigs, t.sessionConfig.length ≤ maxSession
  sessionIds : ∀ t ∈ s.tunnelConfigs, t.sessionIds.Nodup

/-- The request was answered with an error, or ended in an exception. -/
def Failed (reply : Option Reply) : Prop := ∀ data ∈ reply, ¬ data.Succeeds

/-- A tunnel that is not refused is not the third one, and comes with at most four sessions, whose
local ids differ. -/
def FitsIn (inet : InetPton) (s : L2tpConfig) : L2tpEvent → Prop
  | .addTunnel request data => ∀ d ∈ s.checkNewTunnel request.locId data, d.Succeeds →
    request.ValidPeer inet →
      s.tunnelConfigs.length < maxTunnel ∧ request.sessionConfig.length ≤ maxSession ∧
        (request.sessionConfig.map L2tpSessionConfig.locId).Nodup
  | .setConfig .. | .removeTunnel .. | .addSession .. | .removeSession .. => True

instance (inet : InetPton) (s : L2tpConfig) : DecidablePred (FitsIn inet s)
  | .addTunnel .. => inferInstanceAs (Decidable (∀ d ∈ _, _ → _ → _ ∧ _ ∧ _))
  | .setConfig .. | .removeTunnel .. | .addSession .. | .removeSession .. =>
    inferInstanceAs (Decidable True)

/-! ## The search for an id -/

theorem toInt_of_asInt? {x : UInt32} {i : Int} (h : asInt? x = some i) : toInt x = i := by
  rw [asInt?] at h
  split_ifs at h with hlt
  obtain rfl := Option.some.inj h
  rw [toInt, BitVec.toInt_eq_toNat_of_lt]
  · rfl
  · have hnat : x.toBitVec.toNat < 2 ^ 31 := hlt
    omega

theorem asInt?_ne_of_configExists {ids : List UInt32} {configID : Int} {idx : Nat}
    (h : configExists ids configID idx = some none) :
    ∀ x ∈ ids, ∃ i, asInt? x = some i ∧ configID ≠ i := by
  induction ids generalizing idx with
  | nil =>
    intro x hx
    cases hx
  | cons y ids ih =>
    rw [configExists] at h
    cases hy : asInt? y with
    | none =>
      rw [hy] at h
      cases h
    | some i =>
      rw [hy] at h
      by_cases heq : configID = i
      · simp [heq] at h
      · simp only [heq, if_false] at h
        intro x hx
        rcases List.mem_cons.mp hx with rfl | hx
        · exact ⟨i, hy, heq⟩
        · exact ih h x hx

/-- An id that is not found is not there. -/
theorem not_mem_of_configExists {ids : List UInt32} {locId : UInt32} {idx : Nat}
    (h : configExists ids (toInt locId) idx = some none) : locId ∉ ids := by
  intro hmem
  obtain ⟨i, hi, hne⟩ := asInt?_ne_of_configExists h locId hmem
  exact hne (toInt_of_asInt? hi)

/-! ## The tunnels after a request -/

variable {s : L2tpConfig}

theorem within_of_nil (h : s.tunnelConfigs = []) : s.Within := by
  constructor <;> simp [h, tunnelIds]

/-- The limits depend on the tunnels only. -/
theorem Within.congr {s' : L2tpConfig} (h : s.Within)
    (htunnels : s'.tunnelConfigs = s.tunnelConfigs) : s'.Within := by
  refine ⟨htunnels ▸ h.tunnels, ?_, htunnels ▸ h.sessions, htunnels ▸ h.sessionIds⟩
  rw [L2tpConfig.tunnelIds, htunnels]
  exact h.tunnelIds

theorem Within.eraseIdx (h : s.Within) (n : Nat) :
    Within { s with tunnelConfigs := s.tunnelConfigs.eraseIdx n } := by
  have hsub := List.eraseIdx_sublist s.tunnelConfigs n
  exact ⟨hsub.length_le.trans h.tunnels, h.tunnelIds.sublist (hsub.map _),
    fun t ht => h.sessions t (hsub.subset ht), fun t ht => h.sessionIds t (hsub.subset ht)⟩

theorem mem_modify {α : Type*} {l : List α} {n : Nat} {f : α → α} {a : α}
    (h : a ∈ l.modify n f) : a ∈ l ∨ ∃ b, l[n]? = some b ∧ a = f b := by
  obtain ⟨i, hi⟩ := List.mem_iff_getElem?.mp h
  rw [List.getElem?_modify] at hi
  obtain ⟨b, hb, rfl⟩ := Option.map_eq_some_iff.mp hi
  split_ifs with hn
  · exact .inr ⟨b, hn ▸ hb, rfl⟩
  · exact .inl (List.mem_of_getElem? hb)

theorem tunnelIds_modifySessions (s : L2tpConfig) (n : Nat)
    (f : List L2tpSessionConfig → List L2tpSessionConfig) :
    (s.modifySessions n f).tunnelIds = s.tunnelIds := by
  apply List.ext_getElem?
  intro i
  simp only [tunnelIds, modifySessions, List.getElem?_map, List.getElem?_modify]
  cases s.tunnelConfigs[i]? with
  | none => rfl
  | some t => by_cases h : n = i <;> simp [h]

/-- A change of the sessions of one tunnel that keeps their limit and their ids. -/
theorem Within.modifySessions (h : s.Within) {n : Nat}
    {f : List L2tpSessionConfig → List L2tpSessionConfig}
    (hlength : (f (s.sessionsAt n)).length ≤ maxSession)
    (hnodup : ((f (s.sessionsAt n)).map L2tpSessionConfig.locId).Nodup) :
    (s.modifySessions n f).Within := by
  have hmem : ∀ t ∈ (s.modifySessions n f).tunnelConfigs,
      t ∈ s.tunnelConfigs ∨ t.sessionConfig = f (s.sessionsAt n) := by
    intro t ht
    rcases mem_modify ht with hold | ⟨old, hold, rfl⟩
    · exact .inl hold
    · right
      rw [sessionsAt, hold]
      rfl
  refine ⟨?_, ?_, fun t ht => ?_, fun t ht => ?_⟩
  · rw [L2tpConfig.modifySessions, List.length_modify]
    exact h.tunnels
  · rw [tunnelIds_modifySessions]
    exact h.tunnelIds
  · rcases hmem t ht with hold | hnew
    · exact h.sessions t hold
    · exact hnew ▸ hlength
  · rcases hmem t ht with hold | hnew
    · exact h.sessionIds t hold
    · exact (congrArg (fun l => (l.map L2tpSessionConfig.locId).Nodup) hnew).mpr hnodup

theorem Within.sessionsAt (h : s.Within) (n : Nat) :
    (s.sessionsAt n).length ≤ maxSession ∧
      ((s.sessionsAt n).map L2tpSessionConfig.locId).Nodup := by
  rw [L2tpConfig.sessionsAt]
  cases ht : s.tunnelConfigs[n]? with
  | none => simp
  | some t =>
    have hmem := List.mem_of_getElem? ht
    exact ⟨h.sessions t hmem, h.sessionIds t hmem⟩

/-! ## The requests -/

theorem locId_not_mem_of_checkNewTunnel {locId : UInt32} {data d : ApiResult}
    (h : s.checkNewTunnel locId data = some d) (hd : d.Succeeds) : locId ∉ s.tunnelIds := by
  rw [checkNewTunnel] at h
  split_ifs at h
  · obtain rfl := Option.some.inj h
    cases hd.2
  · obtain ⟨found, hfound, rfl⟩ := Option.map_eq_some_iff.mp h
    cases found with
    | none => exact not_mem_of_configExists hfound
    | some n => cases hd.2

theorem addTunnel_cases (inet : InetPton) (s : L2tpConfig) (request : L2tpTunnelConfig)
    (data : ApiResult) :
    (s.addTunnel inet request data).1 = s ∨
      ∃ d, s.checkNewTunnel request.locId data = some d ∧ d.Succeeds ∧ request.ValidPeer inet ∧
        s.addTunnel inet request data =
          ({ s with tunnelConfigs := s.tunnelConfigs ++ [request.tunnel] }, some d) := by
  rw [addTunnel]
  cases hcheck : s.checkNewTunnel request.locId data with
  | none => exact .inl rfl
  | some d =>
    dsimp only
    split_ifs with hd hpeer
    · exact .inl rfl
    · exact .inr ⟨d, rfl, hd, hpeer, rfl⟩
    · exact .inl rfl
    · exact .inl rfl

theorem removeTunnel_cases (s : L2tpConfig) (tunnelId : Int) (data : ApiResult) :
    (s.removeTunnel tunnelId data).1 = s ∨ ∃ n d, d.Succeeds ∧ s.removeTunnel tunnelId data =
      ({ s with tunnelConfigs := s.tunnelConfigs.eraseIdx n }, some d) := by
  rw [removeTunnel]
  cases s.checkTunnel tunnelId data with
  | none => exact .inl rfl
  | some c =>
    obtain ⟨d, tunnelIdx⟩ := c
    dsimp only
    split_ifs with hd
    · cases tunnelIdx with
      | none => exact .inl rfl
      | some n => exact .inr ⟨n, d, hd, rfl⟩
    · exact .inl rfl

theorem addSession_cases (s : L2tpConfig) (tunnelId : UInt32) (session : L2tpSessionConfig)
    (data : ApiResult) :
    (s.addSession tunnelId session data).1 = s ∨
      ∃ n d, d.Succeeds ∧ maxSession ≠ (s.sessionsAt n).length ∧
        configExists ((s.sessionsAt n).map L2tpSessionConfig.locId) (toInt session.locId) 0 =
          some none ∧
        s.addSession tunnelId session data = (s.modifySessions n (· ++ [session]), some d) := by
  rw [addSession]
  cases s.checkTunnel (toInt tunnelId) data with
  | none => exact .inl rfl
  | some c =>
    obtain ⟨d, tunnelIdx⟩ := c
    dsimp only
    split_ifs with hd
    · cases tunnelIdx with
      | none => exact .inl rfl
      | some n =>
        dsimp only
        split_ifs with hmax
        · exact .inl rfl
        · cases hfound : configExists ((s.sessionsAt n).map L2tpSessionConfig.locId)
              (toInt session.locId) 0 with
          | none => exact .inl rfl
          | some found =>
            cases found with
            | some m => exact .inl rfl
            | none => exact .inr ⟨n, d, hd, hmax, hfound, rfl⟩
    · exact .inl rfl

theorem removeSession_cases (s : L2tpConfig) (tunnelId sessionId : UInt32) (data : ApiResult) :
    (s.removeSession tunnelId sessionId data).1 = s ∨
      ∃ n i d, d.Succeeds ∧
        s.removeSession tunnelId sessionId data = (s.modifySessions n (·.eraseIdx i), some d) := by
  rw [removeSession]
  cases s.checkTunnel (toInt tunnelId) data with
  | none => exact .inl rfl
  | some c =>
    obtain ⟨d, tunnelIdx⟩ := c
    dsimp only
    split_ifs with hd
    · cases tunnelIdx with
      | none => exact .inl rfl
      | some n =>
        dsimp only
        cases configExists ((s.sessionsAt n).map L2tpSessionConfig.locId) (toInt sessionId) 0 with
        | none => exact .inl rfl
        | some found =>
          cases found with
          | none => exact .inl rfl
          | some i => exact .inr ⟨n, i, d, hd, rfl⟩
    · exact .inl rfl

/-- A failed request leaves the tunnels alone. -/
theorem tunnelConfigs_of_failed (inet : InetPton) (s : L2tpConfig) (e : L2tpEvent)
    (h : Failed (s.handle inet e).2) : (s.handle inet e).1.tunnelConfigs = s.tunnelConfigs := by
  cases e with
  | setConfig =>
    simp only [handle, setConfig]
    split_ifs <;> rfl
  | addTunnel request data =>
    rcases addTunnel_cases inet s request data with hsame | ⟨d, -, hd, -, heq⟩
    · exact congrArg tunnelConfigs hsame
    · exact absurd hd (h d (congrArg Prod.snd heq))
  | removeTunnel tunnelId data =>
    rcases removeTunnel_cases s tunnelId data with hsame | ⟨n, d, hd, heq⟩
    · exact congrArg tunnelConfigs hsame
    · exact absurd hd (h d (congrArg Prod.snd heq))
  | addSession tunnelId session data =>
    rcases addSession_cases s tunnelId session data with hsame | ⟨n, d, hd, -, -, heq⟩
    · exact congrArg tunnelConfigs hsame
    · exact absurd hd (h d (congrArg Prod.snd heq))
  | removeSession tunnelId sessionId data =>
    rcases removeSession_cases s tunnelId sessionId data with hsame | ⟨n, i, d, hd, heq⟩
    · exact congrArg tunnelConfigs hsame
    · exact absurd hd (h d (congrArg Prod.snd heq))

theorem within_addTunnel (h : s.Within) {request : L2tpTunnelConfig}
    (hfresh : request.locId ∉ s.tunnelIds) :
    Within { s with tunnelConfigs := s.tunnelConfigs ++ [request.tunnel] } ↔
      s.tunnelConfigs.length < maxTunnel ∧ request.sessionConfig.length ≤ maxSession ∧
        (request.sessionConfig.map L2tpSessionConfig.locId).Nodup := by
  constructor
  · intro hw
    have hlength := hw.tunnels
    have hmem : request.tunnel ∈ s.tunnelConfigs ++ [request.tunnel] := by simp
    rw [List.length_append, List.length_singleton] at hlength
    exact ⟨hlength, hw.sessions _ hmem, hw.sessionIds _ hmem⟩
  · rintro ⟨hlength, hsessions, hnodup⟩
    refine ⟨?_, ?_, fun t ht => ?_, fun t ht => ?_⟩
    · rw [List.length_append, List.length_singleton]
      exact hlength
    · rw [L2tpConfig.tunnelIds, List.map_append]
      exact List.nodup_append_comm.mp (List.nodup_cons.mpr ⟨hfresh, h.tunnelIds⟩)
    · rcases List.mem_append.mp ht with hold | hnew
      · exact h.sessions t hold
      · exact List.mem_singleton.mp hnew ▸ hsessions
    · rcases List.mem_append.mp ht with hold | hnew
      · exact h.sessionIds t hold
      · exact List.mem_singleton.mp hnew ▸ hnodup

/-- Within the limits a request stays there exactly where its tunnel fits in. -/
theorem Within.handle_iff (h : s.Within) (inet : InetPton) (e : L2tpEvent) :
    (s.handle inet e).1.Within ↔ s.FitsIn inet e := by
  cases e with
  | setConfig enableConfig enableMtu enableMss mtuSize data =>
    refine iff_of_true (h.congr ?_) trivial
    simp only [L2tpConfig.handle, setConfig]
    split_ifs <;> rfl
  | addTunnel request data =>
    rcases addTunnel_cases inet s request data with hsame | ⟨d, hcheck, hd, hpeer, heq⟩
    · refine iff_of_true ?_ ?_
      · exact (congrArg Within hsame).mpr h
      · -- within the limits a checked tunnel is added, so there was none that passed
        intro d hcheck hd hpeer
        have hmax : ¬ s.tunnelConfigs.length > maxTunnel := not_lt.mpr h.tunnels
        have hcheck' : s.checkNewTunnel request.locId data = some d := hcheck
        simp [L2tpConfig.addTunnel, hcheck', hd, hpeer, hmax] at hsame
        exact absurd (congrArg (fun c => c.tunnelConfigs.length) hsame) (by simp)
    · have hfresh := locId_not_mem_of_checkNewTunnel hcheck hd
      have hiff := within_addTunnel h hfresh
      constructor
      · intro hw
        have hw' : (s.addTunnel inet request data).1.Within := hw
        rw [heq] at hw'
        exact fun _ _ _ _ => hiff.mp hw'
      · intro hfits
        have hw := hiff.mpr (hfits d hcheck hd hpeer)
        exact (congrArg (fun r => Within r.1) heq).mpr hw
  | removeTunnel tunnelId data =>
    refine iff_of_true ?_ trivial
    rcases removeTunnel_cases s tunnelId data with hsame | ⟨n, d, -, heq⟩
    · exact (congrArg Within hsame).mpr h
    · exact (congrArg (fun r => Within r.1) heq).mpr (h.eraseIdx n)
  | addSession tunnelId session data =>
    refine iff_of_true ?_ trivial
    rcases addSession_cases s tunnelId session data with hsame | ⟨n, d, -, hmax, hfound, heq⟩
    · exact (congrArg Within hsame).mpr h
    · apply (congrArg (fun r => Within r.1) heq).mpr
      obtain ⟨hlength, hnodup⟩ := h.sessionsAt n
      apply h.modifySessions (n := n) (f := (· ++ [session]))
      · rw [List.length_append, List.length_singleton]
        omega
      · rw [List.map_append]
        exact List.nodup_append_comm.mp
          (List.nodup_cons.mpr ⟨not_mem_of_configExists hfound, hnodup⟩)
  | removeSession tunnelId sessionId data =>
    refine iff_of_true ?_ trivial
    rcases removeSession_cases s tunnelId sessionId data with hsame | ⟨n, i, d, -, heq⟩
    · exact (congrArg Within hsame).mpr h
    · apply (congrArg (fun r => Within r.1) heq).mpr
      obtain ⟨hlength, hnodup⟩ := h.sessionsAt n
      have hsub := List.eraseIdx_sublist (s.sessionsAt n) i
      exact h.modifySessions (n := n) (f := (·.eraseIdx i)) (hsub.length_le.trans hlength)
        (hnodup.sublist (hsub.map _))

/-! ## Runs -/

/-- From no tunnels, where every tunnel that is added fits in, the limits hold, a failed request
changes no tunnel, and the next tunnel has to fit in as well. -/
theorem within_of_fitsIn (inet : InetPton) {init : L2tpConfig} (hinit : init.tunnelConfigs = [])
    (h : Reachable (step inet) (FitsIn inet) init s) :
    s.Within ∧ (∀ e, Failed (s.handle inet e).2 →
      (s.handle inet e).1.tunnelConfigs = s.tunnelConfigs) ∧
    ∀ e, (s.handle inet e).1.Within ↔ s.FitsIn inet e := by
  have hs : s.Within := by
    apply h.invariant (within_of_nil hinit)
    intro s e s' hok hstep hs
    exact Option.some.inj hstep ▸ (hs.handle_iff inet e).mpr hok
  exact ⟨hs, tunnelConfigs_of_failed inet s, hs.handle_iff inet⟩

/-- The two addresses that the examples name are valid. -/
def inet : InetPton where
  isValidIpv4Address addr := addr = "192.168.1.1"
  isValidIpv6Address addr := addr = "2001:db8::1"

/-- L2TP is enabled, and a tunnel without sessions is added for each of the ids. -/
def addTunnels (locIds : List UInt32) : List L2tpEvent :=
  let api : ApiResult := ⟨.success, .success⟩
  .setConfig true false false 0 api :: locIds.map fun locId => .addTunnel
    ⟨.ip, locId, locId, 0, 0, "", "", "192.168.1.1", "192.168.1.254", "eth0", .ipv4, []⟩ api

theorem two_tunnels_within :
    ∃ s : L2tpConfig, s.tunnelIds = [1, 2] ∧ s.Within ∧ (∀ e, Failed (s.handle inet e).2 →
      (s.handle inet e).1.tunnelConfigs = s.tunnelConfigs) ∧
    ∀ e, (s.handle inet e).1.Within ↔ s.FitsIn inet e := by
  obtain ⟨s, hs, hids⟩ := exists_reachable_of_run (step inet) (FitsIn inet) new tunnelIds [1, 2]
    (addTunnels [1, 2]) (by decide)
  exact ⟨s, hids, within_of_fitsIn inet rfl hs⟩

/-- A third tunnel is added. -/
theorem third_tunnel_not_within :
    new.tunnelConfigs = [] ∧ ∃ s, Reachable (step inet) anyStep new s ∧ ¬ s.Within := by
  obtain ⟨s, hs, hlength⟩ := exists_reachable_of_run (step inet) anyStep new
    (fun s => s.tunnelConfigs.length) 3 (addTunnels [1, 2, 3]) (by decide)
  refine ⟨rfl, s, hs, fun hw => ?_⟩
  have hle := hw.tunnels
  rw [hlength] at hle
  simp [maxTunnel] at hle

end L2tpConfig

end Data

end SatComm
