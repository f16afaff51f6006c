import Mathlib.Algebra.Ring.Int.Defs
import Mathlib.Algebra.Ring.Nat
import Mathlib.Data.List.Induction
import SatComm.Codes.Decimal
import SatComm.Power.Server
import SatComm.Runs.Halting

/-!
# The data filters of the NAOIP trigger

On a suspend the configured filters are added at the data filter manager and the restrict mode is
switched on, on a resume the mode is switched off. The filters are added in a loop whose counter has
eight bits, and it is the last filter that says whether they were. They are only removed when the
server of the trigger stops.

The data filter manager is ready, and every call of it succeeds: a filter that is added is one more
rule.
-/

namespace SatComm

namespace PowerRef

open Power (TcuActivityState)
open Codes Runs

/-! ## The configured filters -/

inductive IpProtocol
  | PROTO_TCP | PROTO_UDP
deriving DecidableEq, Repr

structure PortInfo where
  port : Int
  range : Int
deriving DecidableEq, Repr

structure IpInfo where
  srcAddr : String
  destAddr : String
deriving DecidableEq, Repr

structure IpFilter where
  protocol : IpProtocol
  ipv4Info : Option IpInfo
  ipv6Info : Option IpInfo
  src : PortInfo
  dest : PortInfo
deriving DecidableEq, Repr

/-- A `filter` section of the filter file. -/
abbrev FilterMap := List (String × String)

/-- A key that is not there has the empty value. -/
def getValue (filter : FilterMap) (key : String) : String :=
  (filter.lookup key).getD ""

def getTypeOfFilter (filter : FilterMap) : IpProtocol :=
  if getValue filter "FILTER_PROTOCOL_TYPE" = "TCP" then .PROTO_TCP else .PROTO_UDP

/-- The addresses of a family, if one of them is there. -/
def ipInfo (filter : FilterMap) (srcKey destKey : String) : Option IpInfo :=
  if getValue filter srcKey ≠ "" ∨ getValue filter destKey ≠ "" then
    some ⟨getValue filter srcKey, getValue filter destKey⟩
  else none

/-- `isspace` in the C locale. -/
def isSpace (c : Char) : Bool := c = ' ' || (9 ≤ c.toNat && c.toNat ≤ 13)

/-- `std::stoi`; `none` where it throws. -/
def stoi (text : String) : Option Int :=
  (readNumber isSpace (fun d => -2 ^ 31 ≤ d && d < 2 ^ 31) text.toList).map (·.1)

/-- `none` where it throws. -/
def getPortInfo (filter : FilterMap) (key : String) : Option Int :=
  (stoi (getValue filter key)).filter (fun value => 0 ≤ value ∧ value ≤ 65535)

/-- The port and the range of one side, and whether they were read without an exception. -/
def readPort (filter : FilterMap) (portKey rangeKey : String) : PortInfo × Bool :=
  if getValue filter portKey = "" then (⟨0, 0⟩, true)
  else match getPortInfo filter portKey with
    | none => (⟨0, 0⟩, false)
    | some port =>
      if getValue filter rangeKey = "" then (⟨port, 0⟩, true)
      else match getPortInfo filter rangeKey with
        | none => (⟨port, 0⟩, false)
        | some range => (⟨port, range⟩, true)

/-- The filter of a section, with the keys of its protocol. After an exception at the source the
destination is not read. -/
def configureFilter (protocol : IpProtocol) (name : String) (filter : FilterMap) : IpFilter :=
  let source := readPort filter (name ++ "_SOURCE_PORT") (name ++ "_SOURCE_PORT_RANGE")
  let destination :=
    readPort filter (name ++ "_DESTINATION_PORT") (name ++ "_DESTINATION_PORT_RANGE")
  { protocol := protocol
    ipv4Info := ipInfo filter "SOURCE_IPV4_ADDRESS" "DESTINATION_IPV4_ADDRESS"
    ipv6Info := ipInfo filter "SOURCE_IPV6_ADDRESS" "DESTINATION_IPV6_ADDRESS"
    src := source.1
    dest := if source.2 then destination.1 else ⟨0, 0⟩ }

def configureTCPFilter : FilterMap → IpFilter := configureFilter .PROTO_TCP "TCP"

def configureUDPFilter : FilterMap → IpFilter := configureFilter .PROTO_UDP "UDP"

def configure (filter : FilterMap) : IpFilter :=
  match getTypeOfFilter filter with
  | .PROTO_TCP => configureTCPFilter filter
  | .PROTO_UDP => configureUDPFilter filter

/-! ## The trigger -/

/-- What the data filter manager has. -/
structure DataFilterManager where
  rules : List IpFilter
  restrictMode : Bool
deriving DecidableEq, Repr

namespace DataFilterManager

def addDataRestrictFilter (s : DataFilterManager) (filter : IpFilter) : DataFilterManager :=
  { s with rules := s.rules ++ [filter] }

def setDataRestrictMode (s : DataFilterManager) (filterMode : Bool) : DataFilterManager :=
  { s with restrictMode := filterMode }

/-- As `initializeSDK` leaves it. -/
def new : DataFilterManager where
  rules := []
  restrictMode := false

end DataFilterManager

/-- The loop of `addFilter`. -/
structure AddLoop where
  /-- A `uint8_t`. -/
  i : Nat
  manager : DataFilterManager
  isSuccess : Bool
deriving DecidableEq, Repr

def addLoop (vectorFilter : List FilterMap) (s : AddLoop) : Option AddLoop :=
  vectorFilter[s.i]?.map fun filter =>
    { i := (s.i + 1) % 2 ^ 8
      manager := s.manager.addDataRestrictFilter (configure filter)
      isSuccess := true }

/-- A call of `addFilter` that comes to its end, with what it returns. -/
def AddFilter (vectorFilter : List FilterMap) (s s' : DataFilterManager) (isSuccess : Bool) :
    Prop :=
  ∃ i, RunsTo (addLoop vectorFilter) ⟨0, s, false⟩ ⟨i, s', isSuccess⟩

def EnableFilter (vectorFilter : List FilterMap) (s s' : DataFilterManager) : Prop :=
  ∃ added isSuccess, AddFilter vectorFilter s added isSuccess ∧
    s' = if isSuccess then added.setDataRestrictMode true else added

def disableFilter (s : DataFilterManager) : DataFilterManager :=
  s.setDataRestrictMode false

/-- An event was processed. -/
structure Notification where
  triggeredState : TcuActivityState
  success : Bool
deriving DecidableEq, Repr

def OnEventProcessed (vectorFilter : List FilterMap) (s : DataFilterManager) (n : Notification)
    (s' : DataFilterManager) : Prop :=
  if n.success then
    match n.triggeredState with
    | .suspend => EnableFilter vectorFilter s s'
    | .resume => s' = disableFilter s
    | .shutdown | .unknown => s' = s
  else s' = s

/-- Notifications that have all been handled, one after the other. -/
inductive Handled (vectorFilter : List FilterMap) :
    List Notification → DataFilterManager → Prop
  | start : Handled vectorFilter [] .new
  | next {ns : List Notification} {n : Notification} {s s' : DataFilterManager} :
    Handled vectorFilter ns s → OnEventProcessed vectorFilter s n s' →
      Handled vectorFilter (ns ++ [n]) s'

/-- The states that were taken up. -/
def effective (ns : List Notification) : List TcuActivityState :=
  ns.filterMap fun n =>
    if n.success ∧ (n.triggeredState = .suspend ∨ n.triggeredState = .resume) then
      some n.triggeredState
    else none

/-- The notifications are all handled, and the filters and the mode follow them. -/
def Follows (vectorFilter : List FilterMap) (ns : List Notification) : Prop :=
  ∃ s, Handled vectorFilter ns s ∧
    (s.restrictMode = true ↔ (effective ns).getLast? = some .suspend) ∧
    ((effective ns).getLast? = some .suspend → s.rules = vectorFilter.map configure) ∧
    ((effective ns).getLast? = some .resume → s.rules = [])

variable {vectorFilter : List FilterMap} {s s' : DataFilterManager} {ns : List Notification}

/-! ## The loop -/

theorem runsTo_addLoop (hlength : vectorFilter.length < 2 ^ 8) {k : Nat}
    (hk : k ≤ vectorFilter.length) (s : DataFilterManager) (isSuccess : Bool) (t : AddLoop) :
    RunsTo (addLoop vectorFilter) ⟨k, s, isSuccess⟩ t ↔
      t = ⟨vectorFilter.length,
        { s with rules := s.rules ++ (vectorFilter.drop k).map configure },
        isSuccess || decide (k < vectorFilter.length)⟩ := by
  induction hk using Nat.decreasingInduction generalizing s isSuccess with
  | self =>
    have hnone : addLoop vectorFilter ⟨vectorFilter.length, s, isSuccess⟩ = none := by
      simp [addLoop]
    rw [runsTo_of_none hnone]
    simp
  | of_succ k hk ih =>
    have hnext : (k + 1) % 2 ^ 8 = k + 1 := Nat.mod_eq_of_lt (by omega)
    have hstep : addLoop vectorFilter ⟨k, s, isSuccess⟩ =
        some ⟨k + 1, s.addDataRestrictFilter (configure vectorFilter[k]), true⟩ := by
      simp only [addLoop, hnext, List.getElem?_eq_getElem hk, Option.map_some]
    rw [runsTo_of_some hstep, ih, List.drop_eq_getElem_cons hk]
    simp only [DataFilterManager.addDataRestrictFilter, List.map_cons, List.append_assoc,
      List.singleton_append, hk, decide_true, Bool.or_true, Bool.true_or]

theorem addFilter_iff {isSuccess : Bool} :
    AddFilter vectorFilter s s' isSuccess ↔ vectorFilter.length < 2 ^ 8 ∧
      s' = { s with rules := s.rules ++ vectorFilter.map configure } ∧
      isSuccess = decide (0 < vectorFilter.length) := by
  unfold AddFilter
  by_cases hlength : vectorFilter.length < 2 ^ 8
  · simp only [runsTo_addLoop hlength (Nat.zero_le _), AddLoop.mk.injEq, exists_eq_left, hlength,
      true_and, List.drop_zero, Bool.false_or]
  · refine iff_of_false ?_ (fun h => hlength h.1)
    rintro ⟨i, hrun⟩
    -- the counter comes back to zero and never leaves the list
    refine not_runsTo_of_invariant (fun t : AddLoop => t.i < 2 ^ 8) ?_ (by simp) hrun
    intro t ht
    have hi : t.i < vectorFilter.length := by omega
    refine ⟨_, by rw [addLoop, List.getElem?_eq_getElem hi, Option.map_some], ?_⟩
    exact Nat.mod_lt _ (by decide)

theorem enableFilter_iff :
    EnableFilter vectorFilter s s' ↔ vectorFilter.length < 2 ^ 8 ∧
      s' = { s with
        rules := s.rules ++ vectorFilter.map configure
        restrictMode := s.restrictMode || decide (0 < vectorFilter.length) } := by
  unfold EnableFilter
  simp only [addFilter_iff]
  constructor
  · rintro ⟨added, isSuccess, ⟨hlength, rfl, rfl⟩, rfl⟩
    refine ⟨hlength, ?_⟩
    by_cases hpos : 0 < vectorFilter.length <;> simp [hpos, DataFilterManager.setDataRestrictMode]
  · rintro ⟨hlength, rfl⟩
    refine ⟨_, _, ⟨hlength, rfl, rfl⟩, ?_⟩
    by_cases hpos : 0 < vectorFilter.length <;> simp [hpos, DataFilterManager.setDataRestrictMode]

/-! ## The notifications -/

theorem effective_append (ns ms : List Notification) :
    effective (ns ++ ms) = effective ns ++ effective ms :=
  List.filterMap_append

theorem mem_effective {state : TcuActivityState} (h : state ∈ effective ns) :
    state = .suspend ∨ state = .resume := by
  obtain ⟨n, -, hn⟩ := List.mem_filterMap.1 h
  split_ifs at hn with hstate
  exact Option.some.inj hn ▸ hstate.2

/-- A notification is a suspend, a resume or not taken up. -/
theorem effective_singleton (n : Notification) :
    (effective [n] = [.suspend] ∧ ∀ s s', OnEventProcessed vectorFilter s n s' ↔
      EnableFilter vectorFilter s s') ∨
    (effective [n] = [.resume] ∧ ∀ s s', OnEventProcessed vectorFilter s n s' ↔
      s' = disableFilter s) ∨
    (effective [n] = [] ∧ ∀ s s', OnEventProcessed vectorFilter s n s' ↔ s' = s) := by
  obtain ⟨state, success⟩ := n
  cases success with
  | false => exact .inr (.inr ⟨rfl, fun s s' => by simp [OnEventProcessed]⟩)
  | true =>
    cases state with
    | suspend => exact .inl ⟨rfl, fun s s' => by simp [OnEventProcessed]⟩
    | resume => exact .inr (.inl ⟨rfl, fun s s' => by simp [OnEventProcessed]⟩)
    | shutdown => exact .inr (.inr ⟨rfl, fun s s' => by simp [OnEventProcessed]⟩)
    | unknown => exact .inr (.inr ⟨rfl, fun s s' => by simp [OnEventProcessed]⟩)

/-- Every suspend adds the filters once more. -/
theorem Handled.rules (h : Handled vectorFilter ns s) :
    s.rules = (List.replicate ((effective ns).count .suspend)
      (vectorFilter.map configure)).flatten ∧
    (.suspend ∈ effective ns → vectorFilter.length < 2 ^ 8) ∧
    (s.restrictMode = true → 0 < vectorFilter.length) := by
  induction h with
  | start => exact ⟨rfl, nofun, nofun⟩
  | @next ns n s s' _ hstep ih =>
    obtain ⟨hrules, hlength, hmode⟩ := ih
    rw [effective_append]
    rcases @effective_singleton vectorFilter n with ⟨heff, hn⟩ | ⟨heff, hn⟩ |
      ⟨heff, hn⟩
    · obtain ⟨hshort, rfl⟩ := enableFilter_iff.1 ((hn s s').1 hstep)
      rw [heff]
      refine ⟨?_, fun _ => hshort, ?_⟩
      · simp [hrules, List.replicate_succ']
      · simp only [Bool.or_eq_true, decide_eq_true_eq]
        exact fun h => h.elim hmode id
    · obtain rfl := (hn s s').1 hstep
      rw [heff]
      refine ⟨?_, ?_, nofun⟩
      · simpa [disableFilter, DataFilterManager.setDataRestrictMode] using hrules
      · simpa using hlength
    · obtain rfl := (hn s s').1 hstep
      rw [heff, List.append_nil]
      exact ⟨hrules, hlength, hmode⟩

/-- Before the first suspend nothing is added. -/
theorem handled_of_not_suspended (h : .suspend ∉ effective ns) :
    Handled vectorFilter ns .new := by
  induction ns using List.reverseRecOn with
  | nil => exact .start
  | append_singleton ns n ih =>
    rw [effective_append, List.mem_append, not_or] at h
    refine .next (ih h.1) ?_
    rcases @effective_singleton vectorFilter n with ⟨heff, -⟩ | ⟨-, hn⟩ | ⟨-, hn⟩
    · rw [heff] at h
      simp at h
    · exact (hn _ _).2 rfl
    · exact (hn _ _).2 rfl

/-- After a first suspend that is the last notification taken up the filters are there once. -/
theorem handled_of_suspended {before : List TcuActivityState} (hbefore : .suspend ∉ before)
    (h : effective ns = before ++ [.suspend]) (hpos : 0 < vectorFilter.length)
    (hlength : vectorFilter.length < 2 ^ 8) :
    Handled vectorFilter ns ⟨vectorFilter.map configure, true⟩ := by
  induction ns using List.reverseRecOn with
  | nil => simp [effective] at h
  | append_singleton ns n ih =>
    rw [effective_append] at h
    rcases @effective_singleton vectorFilter n with ⟨heff, hn⟩ | ⟨heff, -⟩ |
      ⟨heff, hn⟩
    · rw [heff, List.append_cancel_right_eq] at h
      refine .next (handled_of_not_suspended (h ▸ hbefore)) ?_
      rw [hn, enableFilter_iff]
      exact ⟨hlength, by simp [DataFilterManager.new, hpos]⟩
    · rw [heff] at h
      have hlast := congrArg List.getLast? h
      simp at hlast
    · rw [heff, List.append_nil] at h
      exact .next (ih h) ((hn _ _).2 rfl)

theorem exists_prefix_of_effective {before after : List TcuActivityState}
    (h : effective ns = before ++ after) : ∃ ms, ms <+: ns ∧ effective ms = before := by
  obtain ⟨ms, rest, rfl, hms, -⟩ := List.filterMap_eq_append_iff.1 h
  exact ⟨ms, List.prefix_append ms rest, hms⟩

/-- A suspend comes at most once, as the last notification taken up, and then there are filters, but
not more than the counter counts. -/
def SuspendsOnce (vectorFilter : List FilterMap) (ns : List Notification) : Prop :=
  ∀ before after, effective ns = before ++ .suspend :: after →
    after = [] ∧ 0 < vectorFilter.length ∧ vectorFilter.length < 2 ^ 8

theorem SuspendsOnce.of_prefix {ms : List Notification} (h : SuspendsOnce vectorFilter ns)
    (hms : ms <+: ns) : SuspendsOnce vectorFilter ms := by
  obtain ⟨rest, rfl⟩ := hms
  intro before after heff
  obtain ⟨hnil, hlength⟩ := h before (after ++ effective rest)
    (by rw [effective_append, heff, List.append_assoc, List.cons_append])
  exact ⟨(List.append_eq_nil_iff.1 hnil).1, hlength⟩

theorem SuspendsOnce.follows (h : SuspendsOnce vectorFilter ns) : Follows vectorFilter ns := by
  by_cases hmem : .suspend ∈ effective ns
  · obtain ⟨before, after, heff, hfirst⟩ := List.eq_append_cons_of_mem hmem
    obtain ⟨rfl, hpos, hlength⟩ := h before after heff
    refine ⟨_, handled_of_suspended hfirst heff hpos hlength, ?_, fun _ => rfl, ?_⟩
    · simp [heff]
    · simp [heff]
  · have hnot : (effective ns).getLast? ≠ some .suspend :=
      fun hlast => hmem (List.mem_of_getLast? hlast)
    exact ⟨.new, handled_of_not_suspended hmem, by simp [DataFilterManager.new, hnot],
      fun hlast => absurd hlast hnot, fun _ => rfl⟩

/-- The first suspend must be the last notification taken up. -/
theorem suspendsOnce_of_follows (h : ∀ ms, ms <+: ns → Follows vectorFilter ms) :
    SuspendsOnce vectorFilter ns := by
  intro before after heff
  have hmem : TcuActivityState.suspend ∈ effective ns := by simp [heff]
  obtain ⟨front, rest, hfirst, hfront⟩ := List.eq_append_cons_of_mem hmem
  have hcount : front.count .suspend = 0 := List.count_eq_zero.2 hfront
  -- what holds when it is taken up
  obtain ⟨ms, hms, heffms⟩ := @exists_prefix_of_effective _ (front ++ [.suspend])
    rest (by rw [hfirst, List.append_assoc]; rfl)
  obtain ⟨s, hs, hmode, -, -⟩ := h ms hms
  obtain ⟨-, hlength, hpos⟩ := hs.rules
  have hshort := hlength (by simp [heffms])
  have hpos' := hpos (hmode.2 (by simp [heffms]))
  have hne : vectorFilter.map configure ≠ [] := by
    simpa using List.ne_nil_of_length_pos hpos'
  -- the filters stay if another notification is taken up
  have hrest : rest = [] := by
    cases rest with
    | nil => rfl
    | cons state rest =>
      exfalso
      obtain ⟨ms, hms, heffms⟩ := @exists_prefix_of_effective
        _ (front ++ [.suspend, state]) rest
        (by rw [hfirst, List.append_assoc]; rfl)
      obtain ⟨s, hs, -, hsuspend, hresume⟩ := h ms hms
      obtain ⟨hrules, -, -⟩ := hs.rules
      have hlast : (effective ms).getLast? = some state := by simp [heffms]
      rcases mem_effective (List.mem_of_getLast? hlast) with rfl | rfl
      · have honce := hsuspend hlast
        rw [hrules, heffms, List.count_append, hcount] at honce
        exact hne (by simpa [List.replicate_succ] using honce)
      · have hgone := hresume hlast
        rw [hrules, heffms, List.count_append, hcount] at hgone
        exact hne (by simpa using hgone)
  refine ⟨?_, hpos', hshort⟩
  rcases List.eq_nil_or_concat after with hnil | ⟨init, last, rfl⟩
  · exact hnil
  · rw [hfirst, hrest, List.concat_eq_append, ← List.cons_append, ← List.append_assoc] at heff
    have hfront' := (List.append_inj' heff rfl).1
    exact absurd (hfront' ▸ by simp) hfront

/-- The filters and the mode follow the notifications of every part of a run exactly if a suspend
comes at most once, at its end, and the number of filters is one that can be counted. -/
theorem follows_iff_suspendsOnce (vectorFilter : List FilterMap) (ns : List Notification) :
    (∀ ms, ms <+: ns → Follows vectorFilter ms) ↔ SuspendsOnce vectorFilter ns :=
  ⟨suspendsOnce_of_follows, fun h _ hms => (h.of_prefix hms).follows⟩

/-- A suspend and a resume, with one filter. -/
def suspendAndResume : List Notification := [⟨.suspend, true⟩, ⟨.resume, true⟩]

/-- The filter is still there after the resume. -/
theorem resume_not_followed :
    ¬ ∀ (vectorFilter : List FilterMap) (ns : List Notification), Follows vectorFilter ns := by
  intro h
  obtain ⟨s, hs, -, -, hresume⟩ := h [[]] suspendAndResume
  obtain ⟨hrules, -, -⟩ := hs.rules
  rw [hresume rfl] at hrules
  exact absurd (congrArg List.length hrules) (by decide)

end PowerRef

end SatComm
