import SatComm.Runs.Basic
import SatComm.Data.Connection

/-!
# The data profiles of the simulation server

`DataProfileServerImpl` keeps the profiles of a slot as an array of its state file. A new profile
gets the first id that the search from 1 to the greatest id does not find; the search reads that
greatest id from the front of a descending set also where the set is empty.

A profile that is not found sets `error`, but the reply carries `data.error`.
-/

namespace SatComm

namespace Data

open Runs

inductive TechPref
  | tp3gpp | tp3gpp2 | tpAny | unknown
deriving DecidableEq, Repr

inductive AuthProto
  | authNone | authPap | authChap | authPapChap
deriving DecidableEq, Repr

inductive EmergencyCapability
  | unspecified | allowed | notAllowed
deriving DecidableEq, Repr

def convertTechPrefEnumToString : TechPref → String
  | .tp3gpp => "TP_3GPP"
  | .tp3gpp2 => "TP_3GPP2"
  | .tpAny => "TP_ANY"
  | .unknown => "Unknown"

def convertTechPrefStringToEnum (techPref : String) : TechPref :=
  if techPref = "TP_3GPP" then .tp3gpp
  else if techPref = "TP_3GPP2" then .tp3gpp2
  else if techPref = "TP_ANY" then .tpAny
  else .unknown

def convertIpFamilyStringToEnum (ipFamily : String) : IpFamilyType :=
  if ipFamily = "IPV4" then .ipv4
  else if ipFamily = "IPV6" then .ipv6
  else if ipFamily = "IPV4V6" then .ipv4v6
  else .unknown

def convertAuthProtocolEnumToString : AuthProto → String
  | .authPap => "AUTH_PAP"
  | .authChap => "AUTH_CHAP"
  | .authPapChap => "AUTH_PAP_CHAP"
  | .authNone => "AUTH_NONE"

def convertAuthProtocolStringToEnum (authProtocol : String) : AuthProto :=
  if authProtocol = "AUTH_PAP" then .authPap
  else if authProtocol = "AUTH_CHAP" then .authChap
  else if authProtocol = "AUTH_PAP_CHAP" then .authPapChap
  else .authNone

/-- The number of the value in the interface. -/
def EmergencyCapability.toInt : EmergencyCapability → Int
  | .unspecified => 0
  | .allowed => 1
  | .notAllowed => 2

/-- `UNSPECIFIED` is stored as `NOT_ALLOWED`. -/
def EmergencyCapability.stored : EmergencyCapability → EmergencyCapability
  | .unspecified => .notAllowed
  | .allowed => .allowed
  | .notAllowed => .notAllowed

/-- The parameters that `CreateProfile` and `ModifyProfile` take. -/
structure ProfileParams where
  profileName : String
  apnName : String
  userName : String
  password : String
  apnTypes : String
  ipFamilyType : IpFamilyType
  techPreference : TechPref
  authType : AuthProto
  emergencyCapability : EmergencyCapability
deriving DecidableEq, Repr

/-- An element of the array. A missing `emergencyAllowed` reads as 0. -/
structure Profile where
  profileId : Int
  profileName : String
  apn : String
  username : String
  password : String
  apnTypes : String
  ipFamilyType : String
  techPref : String
  authProtocolType : String
  emergencyAllowed : Int
deriving DecidableEq, Repr

/-- The id and the technology that `DeleteProfile` and `RequestProfileById` look for. -/
structure ProfileKey where
  slotId : Int
  profileId : Int
  techPreference : TechPref
deriving DecidableEq, Repr

/-- The arrays of the two state files. -/
structure ProfileStore where
  slot1 : List Profile
  slot2 : List Profile
deriving DecidableEq, Repr

/-- What is stored for a profile. -/
def ProfileParams.profile (request : ProfileParams) (profileId : Int) : Profile where
  profileId := profileId
  profileName := request.profileName
  apn := request.apnName
  username := request.userName
  password := request.password
  apnTypes := request.apnTypes
  ipFamilyType := convertIpFamilyEnumToString request.ipFamilyType
  techPref := convertTechPrefEnumToString request.techPreference
  authProtocolType := convertAuthProtocolEnumToString request.authType
  emergencyAllowed := request.emergencyCapability.stored.toInt

/-- What `RequestProfileById` answers for a profile: its parameters and `emergencyAllowed`. -/
structure ProfileReply where
  profileId : Int
  profileName : String
  apnName : String
  userName : String
  password : String
  apnTypes : String
  ipFamilyType : IpFamilyType
  techPreference : TechPref
  authType : AuthProto
  emergencyCapability : Int
deriving DecidableEq, Repr

namespace Profile

def reply (p : Profile) : ProfileReply where
  profileId := p.profileId
  profileName := p.profileName
  apnName := p.apn
  userName := p.username
  password := p.password
  apnTypes := p.apnTypes
  ipFamilyType := convertIpFamilyStringToEnum p.ipFamilyType
  techPreference := convertTechPrefStringToEnum p.techPref
  authType := convertAuthProtocolStringToEnum p.authProtocolType
  emergencyCapability := p.emergencyAllowed

/-- The id and the technology are those of the request. -/
def Matches (request : ProfileKey) (p : Profile) : Prop :=
  p.profileId = request.profileId ∧
    p.techPref = convertTechPrefEnumToString request.techPreference

instance (request : ProfileKey) : DecidablePred (Matches request) :=
  fun _ => inferInstanceAs (Decidable (_ ∧ _))

end Profile

/-- The loop of `CreateProfile`: the first index that is not in the set, at most `n` indices on. -/
def freeIndex (profileList : List Int) : Nat → Int → Int
  | 0, index => index
  | n + 1, index => if index ∈ profileList then freeIndex profileList n (index + 1) else index

/-- The id of a new profile. `pastEnd` is what `*begin()` reads where the set is empty. -/
def newProfileId (profileList : List Int) (pastEnd : Int) : Int :=
  let maxProfile := profileList.max?.getD pastEnd
  let index := freeIndex profileList maxProfile.toNat 1
  if index = maxProfile then maxProfile + 1 else index

namespace ProfileStore

/-- Every slot id other than 2 has the file of slot 1. -/
def profiles (s : ProfileStore) (slotId : Int) : List Profile :=
  if slotId = 2 then s.slot2 else s.slot1

def writeToJsonFile (s : ProfileStore) (slotId : Int) (profiles : List Profile) : ProfileStore :=
  if slotId = 2 then { s with slot2 := profiles } else { s with slot1 := profiles }

def profileIds (s : ProfileStore) (slotId : Int) : List Int :=
  (s.profiles slotId).map Profile.profileId

/-- The store, the reply and the id of the new profile. -/
def createProfile (s : ProfileStore) (slotId : Int) (request : ProfileParams) (data : ApiResult)
    (pastEnd : Int) : ProfileStore × Reply × Option Int :=
  if data.status = .success then
    let profileId := newProfileId (s.profileIds slotId) pastEnd
    (s.writeToJsonFile slotId (s.profiles slotId ++ [request.profile profileId]), data,
      some profileId)
  else (s, data, none)

def deleteProfile (s : ProfileStore) (request : ProfileKey) (data : ApiResult) :
    ProfileStore × Reply :=
  if data.status = .success then
    if ∃ p ∈ s.profiles request.slotId, p.Matches request then
      (s.writeToJsonFile request.slotId
        ((s.profiles request.slotId).filter fun p => ¬ p.Matches request), data)
    else
      -- `EXTENDED_INTERNAL` goes to the local variable
      (s, data)
  else (s, data)

def modifyProfile (s : ProfileStore) (slotId profileId : Int) (request : ProfileParams)
    (data : ApiResult) : ProfileStore × Reply :=
  if data.status = .success then
    match (s.profiles slotId).findIdx? fun p => p.profileId = profileId with
    | some profileIndex =>
      (s.writeToJsonFile slotId ((s.profiles slotId).set profileIndex (request.profile profileId)),
        data)
    | none => (s, data)
  else (s, data)

/-- The reply and the profile, which stays empty where none is found. -/
def requestProfileById (s : ProfileStore) (request : ProfileKey) (data : ApiResult) :
    Reply × Option ProfileReply :=
  if data.status = .success then
    (data, ((s.profiles request.slotId).find? fun p => p.Matches request).map Profile.reply)
  else (data, none)

end ProfileStore

inductive ProfileEvent
  | createProfile (slotId : Int) (request : ProfileParams) (data : ApiResult) (pastEnd : Int)
  | deleteProfile (request : ProfileKey) (data : ApiResult)
  | modifyProfile (slotId profileId : Int) (request : ProfileParams) (data : ApiResult)
  | requestProfileById (request : ProfileKey) (data : ApiResult)
deriving DecidableEq, Repr

namespace ProfileEvent

/-- The configured results are SUCCESS. -/
def Configured : ProfileEvent → Prop
  | createProfile _ _ data _ | deleteProfile _ data | modifyProfile _ _ _ data |
    requestProfileById _ data => data = ⟨.success, .success⟩

instance : DecidablePred Configured
  | createProfile _ _ _ _ | deleteProfile _ _ | modifyProfile _ _ _ _ | requestProfileById _ _ =>
    inferInstanceAs (Decidable (_ = _))

end ProfileEvent

namespace ProfileStore

def step (s : ProfileStore) : ProfileEvent → Option ProfileStore
  | .createProfile slotId request data pastEnd =>
    some (s.createProfile slotId request data pastEnd).1
  | .deleteProfile request data => some (s.deleteProfile request data).1
  | .modifyProfile slotId profileId request data =>
    some (s.modifyProfile slotId profileId request data).1
  | .requestProfileById _ _ => some s

/-- Ids are positive and belong to one profile each. -/
def DistinctIds (s : ProfileStore) : Prop :=
  ∀ slotId, (∀ i ∈ s.profileIds slotId, 0 < i) ∧ (s.profileIds slotId).Nodup

/-- What a request promises: the least free id, one profile removed or rewritten in its place, and
an error where no profile matches. -/
def Serves (s : ProfileStore) : ProfileEvent → Prop
  | .createProfile slotId request data pastEnd => ∃ profileId,
    IsLeast {i : Int | 0 < i ∧ i ∉ s.profileIds slotId} profileId ∧
      s.createProfile slotId request data pastEnd =
        (s.writeToJsonFile slotId (s.profiles slotId ++ [request.profile profileId]), data,
          some profileId)
  | .deleteProfile request data =>
    (∀ before p after, s.profiles request.slotId = before ++ p :: after → p.Matches request →
      (s.deleteProfile request data).1 = s.writeToJsonFile request.slotId (before ++ after)) ∧
    ((∀ p ∈ s.profiles request.slotId, ¬ p.Matches request) →
      (s.deleteProfile request data).2.error ≠ .success ∧ (s.deleteProfile request data).1 = s)
  | .modifyProfile slotId profileId request data =>
    (∀ before p after, s.profiles slotId = before ++ p :: after → p.profileId = profileId →
      (s.modifyProfile slotId profileId request data).1 =
        s.writeToJsonFile slotId (before ++ request.profile profileId :: after)) ∧
    ((∀ p ∈ s.profiles slotId, p.profileId ≠ profileId) →
      (s.modifyProfile slotId profileId request data).2.error ≠ .success ∧
        (s.modifyProfile slotId profileId request data).1 = s)
  | .requestProfileById request data =>
    (∀ p ∈ s.profiles request.slotId, p.Matches request →
      (s.requestProfileById request data).2 = some p.reply) ∧
    ((∀ p ∈ s.profiles request.slotId, ¬ p.Matches request) →
      (s.requestProfileById request data).1.error ≠ .success)

/-- The request finds its profile, and a creation does not read 1 past the end of an empty set. -/
def Finds (s : ProfileStore) : ProfileEvent → Prop
  | .createProfile slotId _ _ pastEnd => s.profiles slotId = [] → pastEnd ≠ 1
  | .deleteProfile request _ | .requestProfileById request _ =>
    ∃ p ∈ s.profiles request.slotId, p.Matches request
  | .modifyProfile slotId profileId _ _ => ∃ p ∈ s.profiles slotId, p.profileId = profileId

/-! ## The search for an id -/

theorem freeIndex_spec (ids : List Int) (n : Nat) (index : Int) :
    index ≤ freeIndex ids n index ∧ freeIndex ids n index ≤ index + n ∧
      (∀ i, index ≤ i → i < freeIndex ids n index → i ∈ ids) ∧
      (freeIndex ids n index < index + n → freeIndex ids n index ∉ ids) := by
  induction n generalizing index with
  | zero =>
    rw [freeIndex]
    refine ⟨le_refl _, by simp, fun i h1 h2 => ?_, fun h => ?_⟩ <;> omega
  | succ n ih =>
    rw [freeIndex]
    split_ifs with hused
    · obtain ⟨hle, hup, hall, hfree⟩ := ih (index + 1)
      refine ⟨by omega, by push_cast; omega, fun i h1 h2 => ?_, fun h => hfree (by
        push_cast at h; omega)⟩
      rcases h1.eq_or_lt with rfl | hlt
      · exact hused
      · exact hall i (by omega) h2
    · exact ⟨le_refl _, by push_cast; omega, fun i h1 h2 => by omega, fun _ => hused⟩

theorem newProfileId_nil (pastEnd : Int) :
    newProfileId [] pastEnd = if pastEnd = 1 then 2 else 1 := by
  have hindex : freeIndex [] pastEnd.toNat 1 = 1 := by
    cases pastEnd.toNat with
    | zero => rfl
    | succ n => rfl
  simp only [newProfileId, List.max?_nil, Option.getD_none, hindex]
  split_ifs with h1 h2 h2
  · omega
  · omega
  · omega
  · rfl

theorem isLeast_newProfileId {ids : List Int} (hne : ids ≠ []) (hpos : ∀ i ∈ ids, 0 < i)
    (pastEnd : Int) : IsLeast {i : Int | 0 < i ∧ i ∉ ids} (newProfileId ids pastEnd) := by
  obtain ⟨m, hm⟩ := Option.isSome_iff_exists.mp (List.isSome_max?_of_ne_nil hne)
  obtain ⟨hmem, hmax⟩ := List.max?_eq_some_iff.mp hm
  have hmpos := hpos m hmem
  obtain ⟨hle, hup, hall, hfree⟩ := freeIndex_spec ids m.toNat 1
  have htoNat : (m.toNat : Int) = m := Int.toNat_of_nonneg hmpos.le
  rw [htoNat] at hup hfree
  have hnot : freeIndex ids m.toNat 1 ∉ ids := by
    rcases hup.eq_or_lt with heq | hlt
    · intro hin
      have hbound := hmax _ hin
      omega
    · exact hfree hlt
  -- the greatest id is used, so the search does not stop at it
  have hne' : freeIndex ids m.toNat 1 ≠ m := fun heq => hnot (by rwa [heq])
  simp only [newProfileId, hm, Option.getD_some, if_neg hne']
  refine ⟨⟨by omega, hnot⟩, fun i hi => ?_⟩
  by_contra hlt
  exact hi.2 (hall i (by have := hi.1; omega) (not_le.mp hlt))

/-! ## The arrays after a request -/

variable {s : ProfileStore}

theorem profileIds_writeToJsonFile (s : ProfileStore) (slotId : Int) (l : List Profile)
    (slotId' : Int) :
    (s.writeToJsonFile slotId l).profileIds slotId' = l.map Profile.profileId ∨
      (s.writeToJsonFile slotId l).profileIds slotId' = s.profileIds slotId' := by
  simp only [profileIds, profiles, writeToJsonFile]
  by_cases h : slotId = 2 <;> by_cases h' : slotId' = 2 <;> simp [h, h']

theorem DistinctIds.write (h : s.DistinctIds) (slotId : Int) {l : List Profile}
    (hpos : ∀ i ∈ l.map Profile.profileId, 0 < i) (hnodup : (l.map Profile.profileId).Nodup) :
    (s.writeToJsonFile slotId l).DistinctIds := by
  intro slotId'
  rcases profileIds_writeToJsonFile s slotId l slotId' with heq | heq
  · rw [heq]
    exact ⟨hpos, hnodup⟩
  · rw [heq]
    exact h slotId'

theorem profiles_eq_nil_iff (s : ProfileStore) (slotId : Int) :
    s.profileIds slotId = [] ↔ s.profiles slotId = [] := List.map_eq_nil_iff

theorem newProfileId_fresh (h : s.DistinctIds) (slotId pastEnd : Int) :
    0 < newProfileId (s.profileIds slotId) pastEnd ∧
      newProfileId (s.profileIds slotId) pastEnd ∉ s.profileIds slotId := by
  by_cases hne : s.profileIds slotId = []
  · rw [hne, newProfileId_nil]
    split_ifs <;> simp
  · exact (isLeast_newProfileId hne (h slotId).1 pastEnd).1

theorem DistinctIds.createProfile (h : s.DistinctIds) (slotId : Int) (request : ProfileParams)
    (data : ApiResult) (pastEnd : Int) :
    (s.createProfile slotId request data pastEnd).1.DistinctIds := by
  rw [ProfileStore.createProfile]
  split_ifs
  · obtain ⟨hpos, hnot⟩ := newProfileId_fresh h slotId pastEnd
    apply h.write
    · intro i hi
      rw [List.map_append, List.mem_append] at hi
      rcases hi with hi | hi
      · exact (h slotId).1 i hi
      · simp only [List.map_cons, List.map_nil, List.mem_singleton] at hi
        exact hi ▸ hpos
    · rw [List.map_append]
      exact List.nodup_append_comm.mp (List.nodup_cons.mpr ⟨hnot, (h slotId).2⟩)
  · exact h

theorem DistinctIds.deleteProfile (h : s.DistinctIds) (request : ProfileKey) (data : ApiResult) :
    (s.deleteProfile request data).1.DistinctIds := by
  rw [ProfileStore.deleteProfile]
  split_ifs
  · have hsub := (List.filter_sublist (p := fun p : Profile => decide (¬ p.Matches request))
      (l := s.profiles request.slotId)).map Profile.profileId
    exact h.write _ (fun i hi => (h request.slotId).1 i (hsub.subset hi))
      ((h request.slotId).2.sublist hsub)
  · exact h
  · exact h

theorem DistinctIds.modifyProfile (h : s.DistinctIds) (slotId profileId : Int)
    (request : ProfileParams) (data : ApiResult) :
    (s.modifyProfile slotId profileId request data).1.DistinctIds := by
  rw [ProfileStore.modifyProfile]
  split_ifs
  · cases hfind : (s.profiles slotId).findIdx? fun p => p.profileId = profileId with
    | none => exact h
    | some n =>
      obtain ⟨hlt, hn, -⟩ := List.findIdx?_eq_some_iff_getElem.mp hfind
      -- the profile at the position has the id already
      have hids : ((s.profiles slotId).set n (request.profile profileId)).map Profile.profileId =
          s.profileIds slotId := by
        rw [List.map_set]
        have hlt' : n < (s.profileIds slotId).length := by simpa [profileIds] using hlt
        refine List.set_getElem_self hlt' ▸ ?_
        simp_all [profileIds, ProfileParams.profile]
      apply h.write
      · rw [hids]
        exact (h slotId).1
      · rw [hids]
        exact (h slotId).2
  · exact h

theorem DistinctIds.step (h : s.DistinctIds) {s' : ProfileStore} {e : ProfileEvent}
    (hstep : s.step e = some s') : s'.DistinctIds := by
  cases e with
  | createProfile slotId request data pastEnd =>
    exact Option.some.inj hstep ▸ h.createProfile slotId request data pastEnd
  | deleteProfile request data => exact Option.some.inj hstep ▸ h.deleteProfile request data
  | modifyProfile slotId profileId request data =>
    exact Option.some.inj hstep ▸ h.modifyProfile slotId profileId request data
  | requestProfileById request data => exact Option.some.inj hstep ▸ h

/-! ## Requests that find their profile -/

section Unique

variable {l before after : List Profile} {p : Profile}

/-- A profile shares its id with none before and none after it. -/
theorem profileId_ne (hnodup : (l.map Profile.profileId).Nodup) (hl : l = before ++ p :: after) :
    (∀ q ∈ before, q.profileId ≠ p.profileId) ∧ ∀ q ∈ after, q.profileId ≠ p.profileId := by
  rw [hl, List.map_append, List.map_cons] at hnodup
  obtain ⟨-, hcons, hdisj⟩ := List.nodup_append.mp hnodup
  refine ⟨fun q hq => ?_, fun q hq heq => ?_⟩
  · exact hdisj _ (List.mem_map_of_mem hq) _ List.mem_cons_self
  · exact (List.nodup_cons.mp hcons).1 (heq ▸ List.mem_map_of_mem hq)

theorem filter_not_matches {request : ProfileKey} (hnodup : (l.map Profile.profileId).Nodup)
    (hl : l = before ++ p :: after) (hp : p.Matches request) :
    (l.filter fun q => ¬ q.Matches request) = before ++ after := by
  obtain ⟨hbefore, hafter⟩ := profileId_ne hnodup hl
  have hkeep : ∀ r : List Profile, (∀ q ∈ r, q.profileId ≠ p.profileId) →
      (r.filter fun q => ¬ q.Matches request) = r := by
    intro r hr
    rw [List.filter_eq_self]
    intro q hq
    exact decide_eq_true fun hmatch => hr q hq (hmatch.1.trans hp.1.symm)
  rw [hl, List.filter_append, List.filter_cons_of_neg (by simp [hp]), hkeep before hbefore,
    hkeep after hafter]

theorem find?_matches {request : ProfileKey} (hnodup : (l.map Profile.profileId).Nodup)
    (hp : p ∈ l) (hmatch : p.Matches request) :
    (l.find? fun q => q.Matches request) = some p := by
  obtain ⟨before, after, hl⟩ := List.append_of_mem hp
  obtain ⟨hbefore, -⟩ := profileId_ne hnodup hl
  rw [hl, List.find?_append, List.find?_eq_none.mpr, Option.none_or,
    List.find?_cons_of_pos (by simpa using hmatch)]
  intro q hq hmatch'
  exact hbefore q hq ((of_decide_eq_true hmatch').1.trans hmatch.1.symm)

theorem findIdx?_profileId (hnodup : (l.map Profile.profileId).Nodup)
    (hl : l = before ++ p :: after) :
    (l.findIdx? fun q => q.profileId = p.profileId) = some before.length := by
  obtain ⟨hbefore, -⟩ := profileId_ne hnodup hl
  rw [hl, List.findIdx?_append, List.findIdx?_eq_none_iff.mpr, List.findIdx?_cons]
  · simp
  · intro q hq
    exact decide_eq_false (hbefore q hq)

end Unique

theorem serves_createProfile_iff (h : s.DistinctIds) (slotId : Int) (request : ProfileParams)
    (pastEnd : Int) :
    s.Serves (.createProfile slotId request ⟨.success, .success⟩ pastEnd) ↔
      s.Finds (.createProfile slotId request ⟨.success, .success⟩ pastEnd) := by
  simp only [Serves, Finds, createProfile, if_true]
  constructor
  · rintro ⟨profileId, hleast, heq⟩ hnil rfl
    have hids : s.profileIds slotId = [] := (profiles_eq_nil_iff s slotId).mpr hnil
    have hid : newProfileId (s.profileIds slotId) 1 = profileId :=
      Option.some.inj (congrArg (fun r => r.2.2) heq)
    rw [hids, newProfileId_nil, if_pos rfl] at hid
    have hone : profileId ≤ 1 := hleast.2 (by simp [hids])
    omega
  · intro hnil
    refine ⟨_, ?_, rfl⟩
    by_cases hids : s.profileIds slotId = []
    · have hpast := hnil ((profiles_eq_nil_iff s slotId).mp hids)
      rw [hids, newProfileId_nil, if_neg hpast]
      exact ⟨by simp, fun i hi => hi.1⟩
    · exact isLeast_newProfileId hids (h slotId).1 pastEnd

theorem serves_deleteProfile_iff (h : s.DistinctIds) (request : ProfileKey) :
    s.Serves (.deleteProfile request ⟨.success, .success⟩) ↔
      s.Finds (.deleteProfile request ⟨.success, .success⟩) := by
  constructor
  · intro hserves
    by_contra hnone
    have hall : ∀ p ∈ s.profiles request.slotId, ¬ p.Matches request :=
      fun p hp hmatch => hnone ⟨p, hp, hmatch⟩
    apply (hserves.2 hall).1
    have hnone' : ¬ ∃ p ∈ s.profiles request.slotId, p.Matches request := hnone
    simp [deleteProfile, hnone']
  · intro hfinds
    refine ⟨fun before p after hl hp => ?_, fun hall => ?_⟩
    · have hfinds' : ∃ p ∈ s.profiles request.slotId, p.Matches request := hfinds
      rw [deleteProfile, if_pos rfl, if_pos hfinds']
      exact congrArg (s.writeToJsonFile request.slotId)
        (filter_not_matches (h request.slotId).2 hl hp)
    · obtain ⟨p, hp, hmatch⟩ := hfinds
      exact absurd hmatch (hall p hp)

theorem serves_modifyProfile_iff (h : s.DistinctIds) (slotId profileId : Int)
    (request : ProfileParams) :
    s.Serves (.modifyProfile slotId profileId request ⟨.success, .success⟩) ↔
      s.Finds (.modifyProfile slotId profileId request ⟨.success, .success⟩) := by
  constructor
  · intro hserves
    by_contra hnone
    have hall : ∀ p ∈ s.profiles slotId, p.profileId ≠ profileId :=
      fun p hp heq => hnone ⟨p, hp, heq⟩
    apply (hserves.2 hall).1
    have hfind : ((s.profiles slotId).findIdx? fun p => p.profileId = profileId) = none := by
      rw [List.findIdx?_eq_none_iff]
      intro p hp
      exact decide_eq_false (hall p hp)
    simp [modifyProfile, hfind]
  · intro hfinds
    refine ⟨fun before p after hl hp => ?_, fun hall => ?_⟩
    · subst hp
      simp only [modifyProfile, if_true, findIdx?_profileId (h slotId).2 hl]
      rw [hl, List.set_append_right _ _ (le_refl _), Nat.sub_self, List.set_cons_zero]
    · obtain ⟨p, hp, heq⟩ := hfinds
      exact absurd heq (hall p hp)

theorem serves_requestProfileById_iff (h : s.DistinctIds) (request : ProfileKey) :
    s.Serves (.requestProfileById request ⟨.success, .success⟩) ↔
      s.Finds (.requestProfileById request ⟨.success, .success⟩) := by
  constructor
  · intro hserves
    by_contra hnone
    apply hserves.2 (fun p hp hmatch => hnone ⟨p, hp, hmatch⟩)
    rfl
  · intro hfinds
    refine ⟨fun p hp hmatch => ?_, fun hall => ?_⟩
    · simp only [requestProfileById, if_true]
      rw [find?_matches (h request.slotId).2 hp hmatch, Option.map_some]
    · obtain ⟨p, hp, hmatch⟩ := hfinds
      exact absurd hmatch (hall p hp)

/-- In every run from distinct positive ids the ids stay so, and a request keeps its promise
exactly where it finds its profile. -/
theorem distinctIds_and_serves_iff {init : ProfileStore} (hinit : init.DistinctIds)
    (h : Reachable step (fun _ e => e.Configured) init s) :
    s.DistinctIds ∧ ∀ e : ProfileEvent, e.Configured → (s.Serves e ↔ s.Finds e) := by
  have hs : s.DistinctIds := h.invariant hinit fun s e s' _ hstep hs => hs.step hstep
  refine ⟨hs, fun e he => ?_⟩
  cases e with
  | createProfile slotId request data pastEnd =>
    obtain rfl : data = _ := he
    exact serves_createProfile_iff hs slotId request pastEnd
  | deleteProfile request data =>
    obtain rfl : data = _ := he
    exact serves_deleteProfile_iff hs request
  | modifyProfile slotId profileId request data =>
    obtain rfl : data = _ := he
    exact serves_modifyProfile_iff hs slotId profileId request
  | requestProfileById request data =>
    obtain rfl : data = _ := he
    exact serves_requestProfileById_iff hs request

/-- The first profile of the state file that comes with the server. -/
def oneProfile : ProfileStore where
  slot1 := [⟨1, "profile1", "ims", "", "", "0000000000000001", "IPV4", "TP_3GPP", "AUTH_PAP", 0⟩]
  slot2 := []

theorem distinctIds_oneProfile : oneProfile.DistinctIds := by
  intro slotId
  by_cases h : slotId = 2 <;> simp [profileIds, profiles, oneProfile, h]

theorem oneProfile_serves_iff :
    oneProfile.DistinctIds ∧
      ∀ e : ProfileEvent, e.Configured → (oneProfile.Serves e ↔ oneProfile.Finds e) :=
  distinctIds_and_serves_iff distinctIds_oneProfile .start

/-- A profile that is not there is deleted with success. -/
theorem delete_missing_not_serves :
    oneProfile.DistinctIds ∧ ∃ s, Reachable step (fun _ e => e.Configured) oneProfile s ∧
      ¬ s.Serves (.deleteProfile ⟨1, 7, .tp3gpp⟩ ⟨.success, .success⟩) := by
  refine ⟨distinctIds_oneProfile, oneProfile, .start, fun hserves => ?_⟩
  have hall : ∀ p ∈ oneProfile.profiles 1, ¬ p.Matches ⟨1, 7, .tp3gpp⟩ := by decide
  exact (hserves.2 hall).1 rfl

end ProfileStore

end Data

end SatComm
