import SatComm.Player.Attributes

/-!
# Attributes that stick

While a stream is open, the value in force is that of the request that the server got to last. The
last call that returned `SUCCESS` is the one whose caller woke up last. The two agree when the
callers wake up in the order of the answers, when no answer falls between the decision of the player
thread to set an attribute and the answer to that, and when no call that was answered for an older
stream is still to return then.

A stream that the player thread gives up is deleted behind its back: the player goes on asking for
it. So the player thread must not give up a stream either, which it does at every request to stop.
-/

namespace SatComm

namespace Player

namespace Attributes

section Attribute

variable {α : Type} {hasToBeSet : α → Bool} {allowed : α → Prop} {live : Option ℕ}
  {opened : List ℕ} {next : ℕ} {a a' : Attribute α}

/-- What the last successful call will be when the calls with an answer have returned in order. -/
def Attribute.expected (a : Attribute α) : Option α :=
  match a.answered.getLast? with
  | some c => some c.value
  | none => a.last

/-- The player thread has no request for the stream on its way. -/
def Attribute.NotReapplying (a : Attribute α) (stream : ℕ) : Prop :=
  ∀ r ∈ a.reapplying, r.2 ≠ stream

/-- The attribute while the stream `live` is not being deleted, or without a stream. -/
structure Agrees (hasToBeSet : α → Bool) (allowed : α → Prop) (live : Option ℕ) (next : ℕ)
    (a : Attribute α) : Prop where
  cache : a.cache = a.last
  lastAllowed : ∀ v, a.last = some v → allowed v
  waiting : ∀ c ∈ a.waiting, allowed c.value ∧ c.stream ≤ next
  answered : ∀ c ∈ a.answered, allowed c.value ∧ c.stream ≤ next
  reapplying : ∀ r ∈ a.reapplying, r.2 ≤ next
  decided : ∀ id, live = some id → a.decided = true →
    (∀ v, a.reapplying = some (v, id) → a.answered = [] ∧ a.last = some v) ∧
      (a.NotReapplying id → ∀ v, a.expected = some v → a.inForce = v)
  undecided : ∀ id, live = some id → a.decided = false → a.NotReapplying id ∧
    ((∀ c ∈ a.answered, c.stream ≠ id) ∧
        (∀ v, allowed v → hasToBeSet v = false → a.inForce = v) ∨
      a.expected = some a.inForce)

/-- The calls return in the order of their answers, none of them is given up, and none is answered
while the player thread sets the attribute. Without a stream that lives there is nothing to keep. -/
def InOrder (allowed : α → Prop) (live : Option ℕ) (a : Attribute α) : Event α → Prop
  | .set value => allowed value
  | .answer i => ∀ c ∈ a.waiting[i]?, live = some c.stream →
      a.NotReapplying c.stream ∧ c.cancelled = false
  | .finish i => live = none ∨ i = 0
  | .cancelAnswered _ => live = none
  | .cancelWaiting _ | .reapply => True

/-- When the player thread decides, no call with an answer is left that it would overrule, or that
was for an older stream. -/
def MayDecide (hasToBeSet : α → Bool) (live : Option ℕ) (a : Attribute α) : Prop :=
  if (a.cache.filter hasToBeSet).isSome then a.answered = []
  else ∀ c ∈ a.answered, live = some c.stream

theorem initial_agrees (value : α) (live : Option ℕ) (hlive : live = none) :
    Agrees hasToBeSet allowed live next (.initial value) := by
  subst hlive
  exact ⟨rfl, nofun, fun c hc => absurd hc List.not_mem_nil, fun c hc => absurd hc List.not_mem_nil,
    nofun, nofun, nofun⟩

theorem Agrees.request (h : Agrees hasToBeSet allowed live next a) {value : α}
    (hvalue : allowed value) : Agrees hasToBeSet allowed live next (a.request value next) where
  cache := h.cache
  lastAllowed := h.lastAllowed
  waiting c hc := by
    rcases List.mem_append.mp hc with hold | hnew
    · exact h.waiting c hold
    · rw [List.mem_singleton.mp hnew]
      exact ⟨hvalue, Nat.le_refl _⟩
  answered := h.answered
  reapplying := h.reapplying
  decided := h.decided
  undecided := h.undecided

theorem Agrees.store (h : Agrees hasToBeSet allowed none next a) {value : α}
    (hvalue : allowed value) : Agrees hasToBeSet allowed none next (a.store value) where
  cache := rfl
  lastAllowed _ hv := Option.some.inj hv ▸ hvalue
  waiting := h.waiting
  answered := h.answered
  reapplying := h.reapplying
  decided := nofun
  undecided := nofun

theorem expected_concat (l : List (Call α)) (c : Call α) (h : a.answered = l ++ [c]) :
    a.expected = some c.value := by
  rw [Attribute.expected, h, List.getLast?_concat]

theorem expected_nil (h : a.answered = []) : a.expected = a.last := by
  rw [Attribute.expected, h]
  rfl

/-- The server sets the value while nothing else is on its way. -/
theorem Agrees.serve {c : Call α} (h : Agrees hasToBeSet allowed live next a)
    (hc : allowed c.value ∧ c.stream ≤ next) (hfree : ∀ id, live = some id → a.NotReapplying id)
    (hwaiting : ∀ c ∈ a'.waiting, c ∈ a.waiting) (hcache : a'.cache = a.cache)
    (hlast : a'.last = a.last) (hanswered : a'.answered = a.answered ++ [c])
    (hforce : a'.inForce = c.value) (hreapplying : a'.reapplying = a.reapplying) :
    Agrees hasToBeSet allowed live next a' where
  cache := by rw [hcache, hlast, h.cache]
  lastAllowed := by
    rw [hlast]
    exact h.lastAllowed
  waiting d hd := h.waiting d (hwaiting d hd)
  answered d hd := by
    rw [hanswered] at hd
    rcases List.mem_append.mp hd with hold | hnew
    · exact h.answered d hold
    · rw [List.mem_singleton.mp hnew]
      exact hc
  reapplying := by
    rw [hreapplying]
    exact h.reapplying
  decided id hid _ := by
    refine ⟨fun v hv => ?_, fun _ v hv => ?_⟩
    · rw [hreapplying] at hv
      exact absurd rfl (hfree id hid _ hv)
    · rw [expected_concat _ _ hanswered] at hv
      rw [hforce]
      exact Option.some.inj hv
  undecided id hid _ := by
    refine ⟨fun r hr => hfree id hid r (hreapplying ▸ hr), .inr ?_⟩
    rw [expected_concat _ _ hanswered, hforce]

/-- Only the calls that wait have changed. -/
theorem Agrees.waits (h : Agrees hasToBeSet allowed live next a)
    {waiting : List (Call α)} (hwaiting : ∀ c ∈ waiting, allowed c.value ∧ c.stream ≤ next) :
    Agrees hasToBeSet allowed live next { a with waiting } :=
  ⟨h.cache, h.lastAllowed, hwaiting, h.answered, h.reapplying, h.decided, h.undecided⟩

/-- The stream that lives is the player's, and the only one that is open. -/
def OnlyLive (live : Option ℕ) (opened : List ℕ) (next : ℕ) : Prop :=
  ∀ id, live = some id → id = next ∧ opened = [next]

theorem Agrees.answer {i : ℕ} (h : Agrees hasToBeSet allowed live next a)
    (hlive : OnlyLive live opened next) (hok : InOrder allowed live a (.answer i))
    (hs : a.answer opened next i = some a') : Agrees hasToBeSet allowed live next a' := by
  unfold Attribute.answer at hs
  cases hget : a.waiting[i]? with
  | none =>
    rw [hget] at hs
    cases hs
  | some c =>
    simp only [hget] at hs
    have hmem : ∀ d ∈ a.waiting.eraseIdx i, d ∈ a.waiting := fun d hd =>
      List.mem_of_mem_eraseIdx hd
    have hc := h.waiting c (List.mem_of_getElem? hget)
    cases live with
    | none =>
      split_ifs at hs <;> cases hs
      · refine ⟨?_, ?_, ?_, ?_, ?_, nofun, nofun⟩ <;> simp only [Attribute.put_cache,
          Attribute.put_last, Attribute.put_waiting, Attribute.put_answered,
          Attribute.put_reapplying]
        · exact h.cache
        · exact h.lastAllowed
        · exact fun d hd => h.waiting d (hmem d hd)
        · intro d hd
          rcases List.mem_append.mp hd with hold | hnew
          · exact h.answered d hold
          · rw [List.mem_singleton.mp hnew]
            exact hc
        · exact h.reapplying
      · refine ⟨?_, ?_, ?_, ?_, ?_, nofun, nofun⟩ <;> simp only [Attribute.put_cache,
          Attribute.put_last, Attribute.put_waiting, Attribute.put_answered,
          Attribute.put_reapplying]
        · exact h.cache
        · exact h.lastAllowed
        · exact fun d hd => h.waiting d (hmem d hd)
        · exact h.answered
        · exact h.reapplying
    | some id =>
      obtain ⟨rfl, rfl⟩ := hlive id rfl
      by_cases hstream : c.stream = id
      · obtain ⟨hfree, hcancelled⟩ := hok c hget (by rw [hstream])
        have hopen : c.stream ∈ [id] := List.mem_singleton.mpr hstream
        rw [if_pos ⟨hopen, hcancelled⟩] at hs
        cases hs
        rw [hstream] at hfree
        refine h.serve hc (fun _ heq => Option.some.inj heq ▸ hfree) ?_ ?_ ?_ ?_ ?_ ?_
        · simpa only [Attribute.put_waiting] using hmem
        · simp only [Attribute.put_cache]
        · simp only [Attribute.put_last]
        · simp only [Attribute.put_answered]
        · simp only [Attribute.put, hstream, List.mem_singleton, and_self, if_true]
        · simp only [Attribute.put_reapplying]
      · have hclosed : c.stream ∉ [id] := fun hin => hstream (List.mem_singleton.mp hin)
        rw [if_neg fun hand => hclosed hand.1,
          Attribute.put_eq_self fun hand => hstream hand.2] at hs
        cases hs
        exact h.waits fun d hd => h.waiting d (hmem d hd)

/-- The first of the calls with an answer returns. -/
theorem expected_finish {c : Call α} {rest : List (Call α)} (h : a.answered = c :: rest) :
    { a with answered := rest, cache := some c.value, last := some c.value }.expected =
      a.expected := by
  simp only [Attribute.expected, h]
  cases rest with
  | nil => rfl
  | cons d rest => simp only [List.getLast?_cons, Option.getD_some]

theorem Agrees.finish {i : ℕ} (h : Agrees hasToBeSet allowed live next a)
    (hok : InOrder allowed live a (.finish i)) (hs : a.finish i = some a') :
    Agrees hasToBeSet allowed live next a' := by
  unfold Attribute.finish at hs
  cases hget : a.answered[i]? with
  | none =>
    rw [hget] at hs
    cases hs
  | some c =>
    simp only [hget] at hs
    cases hs
    have hc := h.answered c (List.mem_of_getElem? hget)
    have hallowed : ∀ v, some c.value = some v → allowed v := fun v hv =>
      Option.some.inj hv ▸ hc.1
    have hrest : ∀ d ∈ a.answered.eraseIdx i, allowed d.value ∧ d.stream ≤ next :=
      fun d hd => h.answered d (List.mem_of_mem_eraseIdx hd)
    rcases hok with rfl | rfl
    · exact ⟨rfl, hallowed, h.waiting, hrest, h.reapplying, nofun, nofun⟩
    · obtain ⟨rest, hcons⟩ : ∃ rest, a.answered = c :: rest := by
        cases hl : a.answered with
        | nil => simp [hl] at hget
        | cons d rest =>
          rw [hl] at hget
          exact ⟨rest, by rw [Option.some.inj hget]⟩
      have hexp := expected_finish hcons
      have herase : a.answered.eraseIdx 0 = rest := by rw [hcons]; rfl
      rw [herase] at hrest ⊢
      refine ⟨rfl, hallowed, h.waiting, hrest, h.reapplying, fun id hid hdecided => ?_,
        fun id hid hundecided => ?_⟩
      · obtain ⟨hsome, hnone⟩ := h.decided id hid hdecided
        refine ⟨fun v hv => ?_, ?_⟩
        · have hempty := (hsome v hv).1
          rw [hcons] at hempty
          cases hempty
        · intro hfree
          rw [hexp]
          exact hnone hfree
      · obtain ⟨hfree, hor⟩ := h.undecided id hid hundecided
        refine ⟨hfree, ?_⟩
        rw [hexp]
        rcases hor with ⟨hold, hneutral⟩ | hlast
        · exact .inl ⟨fun d hd => hold d (by rw [hcons]; exact .tail _ hd), hneutral⟩
        · exact .inr hlast

theorem Agrees.reapply (h : Agrees hasToBeSet allowed live next a)
    (hlive : OnlyLive live opened next) (hs : a.reapply opened next = some a') :
    Agrees hasToBeSet allowed live next a' := by
  unfold Attribute.reapply at hs
  cases hre : a.reapplying with
  | none =>
    rw [hre] at hs
    cases hs
  | some r =>
    obtain ⟨value, stream⟩ := r
    rw [hre] at hs
    cases hs
    refine ⟨?_, ?_, ?_, ?_, ?_, fun id hid hdecided => ?_, fun id hid hundecided => ?_⟩ <;>
      simp only [Attribute.put_cache, Attribute.put_last, Attribute.put_waiting,
        Attribute.put_answered, Attribute.put_reapplying, Attribute.put_decided,
        Attribute.NotReapplying] at *
    · exact h.cache
    · exact h.lastAllowed
    · exact h.waiting
    · exact h.answered
    · exact nofun
    · obtain ⟨rfl, rfl⟩ := hlive id hid
      obtain ⟨hsome, hnone⟩ := h.decided id hid hdecided
      refine ⟨nofun, fun _ v hv => ?_⟩
      by_cases hstream : stream = id
      · obtain ⟨hempty, hlast⟩ := hsome value (by rw [hre, hstream])
        rw [expected_nil (by simpa only [Attribute.put_answered] using hempty),
          Attribute.put_last] at hv
        simp only [Attribute.put, hstream, List.mem_singleton, and_self, if_true]
        exact Option.some.inj (hlast.symm.trans hv)
      · rw [Attribute.put_eq_self fun hand => hstream hand.2] at hv ⊢
        refine hnone (fun r hr heq => hstream ?_) v hv
        exact (congrArg Prod.snd (Option.some.inj (hre.symm.trans hr))).trans heq
    · obtain ⟨rfl, rfl⟩ := hlive id hid
      obtain ⟨hfree, hor⟩ := h.undecided id hid hundecided
      have hstream : stream ≠ id := hfree (value, stream) hre
      rw [Attribute.put_eq_self fun hand => hstream hand.2]
      exact ⟨nofun, hor⟩

theorem Agrees.cancelWaiting {i : ℕ} (h : Agrees hasToBeSet allowed live next a)
    (hs : a.cancelWaiting i = some a') : Agrees hasToBeSet allowed live next a' := by
  unfold Attribute.cancelWaiting at hs
  cases hget : a.waiting[i]? with
  | none =>
    rw [hget] at hs
    cases hs
  | some c =>
    simp only [hget] at hs
    cases hs
    refine h.waits fun d hd => ?_
    rcases List.mem_or_eq_of_mem_set hd with hold | rfl
    · exact h.waiting d hold
    · exact h.waiting c (List.mem_of_getElem? hget)

theorem Agrees.cancelAnswered {i : ℕ} (h : Agrees hasToBeSet allowed none next a)
    (hs : a.cancelAnswered i = some a') : Agrees hasToBeSet allowed none next a' := by
  unfold Attribute.cancelAnswered at hs
  split_ifs at hs
  cases hs
  exact ⟨h.cache, h.lastAllowed, h.waiting,
    fun d hd => h.answered d (List.mem_of_mem_eraseIdx hd), h.reapplying, nofun, nofun⟩

/-- A new stream, which no call was made for so far. -/
theorem Agrees.openStream (h : Agrees hasToBeSet allowed live next a) {value : α}
    (hneutral : ∀ v, allowed v → hasToBeSet v = false → value = v) :
    Agrees hasToBeSet allowed (some (next + 1)) (next + 1) (a.openStream value) where
  cache := h.cache
  lastAllowed := h.lastAllowed
  waiting c hc := ⟨(h.waiting c hc).1, (h.waiting c hc).2.trans (Nat.le_succ _)⟩
  answered c hc := ⟨(h.answered c hc).1, (h.answered c hc).2.trans (Nat.le_succ _)⟩
  reapplying r hr := (h.reapplying r hr).trans (Nat.le_succ _)
  decided _ _ hdecided := by cases hdecided
  undecided id hid _ := by
    obtain rfl := Option.some.inj hid
    refine ⟨fun r hr heq => ?_, .inl ⟨fun c hc heq => ?_, hneutral⟩⟩
    · have hle := h.reapplying r hr
      omega
    · have hle := (h.answered c hc).2
      omega

theorem decide_reapplying (a : Attribute α) (stream : ℕ) :
    (a.decide hasToBeSet stream).reapplying =
      (a.cache.filter hasToBeSet).map fun value => (value, stream) := rfl

/-- The player thread decides. -/
theorem Agrees.decide (h : Agrees hasToBeSet allowed (some next) next a)
    (hundecided : a.decided = false) (hmay : MayDecide hasToBeSet (some next) a) :
    Agrees hasToBeSet allowed (some next) next (a.decide hasToBeSet next) := by
  obtain ⟨-, hor⟩ := h.undecided next rfl hundecided
  refine ⟨h.cache, h.lastAllowed, h.waiting, h.answered, fun r hr => ?_, fun id hid _ => ?_,
    fun _ _ hno => by cases hno⟩
  · rw [decide_reapplying] at hr
    obtain ⟨v, -, rfl⟩ := Option.map_eq_some_iff.mp hr
    exact Nat.le_refl next
  · obtain rfl := Option.some.inj hid
    unfold MayDecide at hmay
    cases hfilter : a.cache.filter hasToBeSet with
    | some value =>
      rw [if_pos (by rw [hfilter]; rfl)] at hmay
      have hsome : (a.decide hasToBeSet next).reapplying = some (value, next) := by
        rw [decide_reapplying, hfilter, Option.map_some]
      refine ⟨fun v hv => ⟨hmay, ?_⟩, fun hfree => absurd rfl (hfree _ hsome)⟩
      have hvalue : value = v := congrArg Prod.fst (Option.some.inj (hsome.symm.trans hv))
      rw [← hvalue]
      exact h.cache.symm.trans (Option.filter_eq_some_iff.mp hfilter).1
    | none =>
      rw [if_neg (by rw [hfilter]; exact Bool.false_ne_true)] at hmay
      have hnone : (a.decide hasToBeSet next).reapplying = none := by
        rw [decide_reapplying, hfilter, Option.map_none]
      refine ⟨fun v hv => ?_, fun _ v hv => ?_⟩
      · rw [hnone] at hv
        cases hv
      · change a.expected = some v at hv
        change a.inForce = v
        rcases hor with ⟨hold, hneutral⟩ | hlast
        · have hempty : a.answered = [] := List.eq_nil_iff_forall_not_mem.mpr fun c hc =>
            hold c hc (Option.some.inj (hmay c hc)).symm
          rw [expected_nil hempty] at hv
          refine hneutral v (h.lastAllowed v hv) ?_
          rw [← h.cache] at hv
          rw [hv, Option.filter_some] at hfilter
          simpa using hfilter
        · exact Option.some.inj (hlast.symm.trans hv)

/-- With no call left that has an answer, the last successful call is in force. -/
theorem Agrees.inForce_eq (h : Agrees hasToBeSet allowed live next a) {id : ℕ}
    (hlive : live = some id) (hdecided : a.decided = true) (hnone : a.reapplying = none)
    (hanswered : a.answered = []) {v : α} (hlast : a.last = some v) : a.inForce = v := by
  refine (h.decided id hlive hdecided).2 (fun r hr => ?_) v ?_
  · rw [hnone] at hr
    cases hr
  · rw [expected_nil hanswered, hlast]

/-- The player thread keeps what it has decided, and what it has set. -/
def Kept (a a' : Attribute α) : Prop :=
  a'.decided = a.decided ∧ (a.reapplying = none → a'.reapplying = none)

end Attribute

variable {Level : Type} {levels : Levels Level} {s s' : State Level}

/-- The stream of the player while nobody is deleting it. -/
def State.live (s : State Level) : Option ℕ :=
  match s.thread with
  | .created _ | .applying _ | .opened => some s.audioPlayStream
  | .closed | .creating _ | .deleting | .deleted => none

/-- An event of an attribute keeps it in agreement. -/
theorem change_agrees {α : Type} {hasToBeSet : α → Bool} {allowed : α → Prop} {a a' : Attribute α}
    {accepted : α → Bool} {e : Event α}
    (h : Agrees hasToBeSet allowed s.live s.audioPlayStream a) (hok : InOrder allowed s.live a e)
    (hlive : OnlyLive s.live s.opened s.audioPlayStream)
    (hopen : s.isStreamOpened = false → s.live = none) (hs : s.change a accepted e = some a') :
    Agrees hasToBeSet allowed s.live s.audioPlayStream a' := by
  cases e with
  | set value =>
    simp only [State.change] at hs
    split_ifs at hs with hstream haccepted <;> cases hs
    · exact h.request hok
    · have hnone := hopen (by simpa using hstream)
      rw [hnone] at h ⊢
      exact h.store hok
    · exact h
  | answer i => exact h.answer hlive hok hs
  | finish i => exact h.finish hok hs
  | cancelWaiting i => exact h.cancelWaiting hs
  | cancelAnswered i =>
    rw [show s.live = none from hok] at h ⊢
    exact h.cancelAnswered hs
  | reapply => exact h.reapply hlive hs

theorem change_kept {α : Type} {a a' : Attribute α} {accepted : α → Bool} {e : Event α}
    (hs : s.change a accepted e = some a') : Kept a a' := by
  cases e with
  | set value =>
    simp only [State.change] at hs
    split_ifs at hs <;> cases hs <;> exact ⟨rfl, id⟩
  | answer i =>
    simp only [State.change, Attribute.answer] at hs
    split at hs
    · cases hs
    · split_ifs at hs <;> cases hs
      all_goals
        exact ⟨by simp only [Attribute.put_decided],
          fun hnone => by simpa only [Attribute.put_reapplying] using hnone⟩
  | finish i =>
    simp only [State.change, Attribute.finish] at hs
    split at hs <;> cases hs
    exact ⟨rfl, id⟩
  | cancelWaiting i =>
    simp only [State.change, Attribute.cancelWaiting] at hs
    split at hs <;> cases hs
    exact ⟨rfl, id⟩
  | cancelAnswered i =>
    simp only [State.change, Attribute.cancelAnswered] at hs
    split_ifs at hs
    cases hs
    exact ⟨rfl, id⟩
  | reapply =>
    simp only [State.change, Attribute.reapply] at hs
    split at hs <;> cases hs
    exact ⟨by simp only [Attribute.put_decided], fun _ => by simp only [Attribute.put_reapplying]⟩

/-! ## The player -/

/-- The stream of the player is there, and no request for another one is on its way. -/
structure IsOpen (s : State Level) : Prop where
  isStreamOpened : s.isStreamOpened = true
  opened : s.opened = [s.audioPlayStream]
  creations : s.creations = []
  deletions : s.deletions = []

/-- There is no stream. -/
structure IsClosed (s : State Level) : Prop where
  isStreamOpened : s.isStreamOpened = false
  opened : s.opened = []
  deletions : s.deletions = []

/-- The player thread is done with the attribute. -/
def Done {α : Type} (a : Attribute α) : Prop := a.decided = true ∧ a.reapplying = none

/-- How far the stream is set up, by where the thread stands. -/
def Stage (s : State Level) : Prop :=
  match s.thread with
  | .closed => IsClosed s ∧ s.creations = []
  | .creating config => IsClosed s ∧ s.creations = [config]
  | .created _ => IsOpen s ∧ s.device.decided = false ∧ s.volume.decided = false ∧
      s.mute.decided = false
  | .applying .device => IsOpen s ∧ s.device.decided = true ∧ s.volume.decided = false ∧
      s.mute.decided = false
  | .applying .volume => IsOpen s ∧ Done s.device ∧ s.volume.decided = true ∧
      s.mute.decided = false
  | .applying .mute => IsOpen s ∧ Done s.device ∧ Done s.volume ∧ s.mute.decided = true
  | .opened => IsOpen s ∧ Done s.device ∧ Done s.volume ∧ Done s.mute
  | .deleting => s.isStreamOpened = true ∧ s.opened = [s.audioPlayStream] ∧ s.creations = [] ∧
      s.deletions = [s.audioPlayStream]
  | .deleted => s.opened = [] ∧ s.creations = [] ∧ s.deletions = []

structure Agree (live : Option ℕ) (s : State Level) : Prop where
  volume : Agrees (fun _ => true) (fun _ => True) live s.audioPlayStream s.volume
  mute : Agrees id (fun _ => True) live s.audioPlayStream s.mute
  device : Agrees State.devicesToBeSet (· ≠ []) live s.audioPlayStream s.device

structure Inv (s : State Level) : Prop where
  agree : Agree s.live s
  stage : Stage s
  idle : s.isPlayInProgress = false → s.thread = .closed

/-- The player thread may go through the attributes from this one on. -/
def MayApplyMute (s : State Level) : Prop := MayDecide id s.live s.mute

def MayApplyVolume (s : State Level) : Prop :=
  MayDecide (fun _ => true) s.live s.volume ∧ (s.volume.cache.isNone → MayApplyMute s)

def MayApplyDevice (s : State Level) : Prop :=
  MayDecide State.devicesToBeSet s.live s.device ∧
    ((s.device.cache.filter State.devicesToBeSet).isNone → MayApplyVolume s)

/-- The calls and the player thread keep to the order of the answers, devices are given whenever
they are set, and the player thread does not give up a stream. -/
def Orderly (s : State Level) : Step Level → Prop
  | .volume e => InOrder (fun _ => True) s.live s.volume e
  | .mute e => InOrder (fun _ => True) s.live s.mute e
  | .device e => InOrder (· ≠ []) s.live s.device e
  | .initAudioStream =>
    match s.thread with
    | .created _ => MayApplyDevice s
    | .applying .device => MayApplyVolume s
    | .applying .volume => MayApplyMute s
    | _ => True
  | .giveUp => False
  | .startPlayback | .createStream _ | .createStreamComplete _ _ | .deinitAudioStream
  | .deleteStreamComplete _ | .closeStream | .endPlayback => True

instance {α : Type} (a : Attribute α) (stream : ℕ) : Decidable (a.NotReapplying stream) := by
  unfold Attribute.NotReapplying
  infer_instance

instance {α : Type} (allowed : α → Prop) [DecidablePred allowed] (live : Option ℕ)
    (a : Attribute α) (e : Event α) : Decidable (InOrder allowed live a e) := by
  cases e <;> unfold InOrder <;> infer_instance

instance {α : Type} (hasToBeSet : α → Bool) (live : Option ℕ) (a : Attribute α) :
    Decidable (MayDecide hasToBeSet live a) := by
  unfold MayDecide
  infer_instance

instance (s : State Level) : Decidable (MayApplyMute s) := by
  unfold MayApplyMute
  infer_instance

instance (s : State Level) : Decidable (MayApplyVolume s) := by
  unfold MayApplyVolume
  infer_instance

instance (s : State Level) : Decidable (MayApplyDevice s) := by
  unfold MayApplyDevice
  infer_instance

instance (s : State Level) (e : Step Level) : Decidable (Orderly s e) := by
  cases e with
  | initAudioStream =>
    unfold Orderly
    dsimp only
    split <;> infer_instance
  | _ =>
    unfold Orderly
    infer_instance

/-- The thread is setting up the stream that is there. -/
structure SetsUp (s : State Level) : Prop where
  isOpen : IsOpen s
  agree : Agree (some s.audioPlayStream) s
  busy : s.isPlayInProgress = true

/-- It has come to another attribute, or to the end of them. -/
theorem SetsUp.inv (h : SetsUp s) (hlive : s.live = some s.audioPlayStream) (hstage : Stage s) :
    Inv s := by
  refine ⟨?_, hstage, fun hidle => ?_⟩
  · rw [hlive]
    exact h.agree
  · rw [h.busy] at hidle
    cases hidle

theorem SetsUp.mute (h : SetsUp s) (hdevice : Done s.device) (hvolume : Done s.volume)
    (hmute : s.mute.decided = false) (hlive : s.live = some s.audioPlayStream)
    (hmay : MayApplyMute s) : Inv s.applyMute := by
  rw [MayApplyMute, hlive] at hmay
  have hagree := h.agree.mute.decide hmute hmay
  have hnext : ∀ thread, SetsUp { s with mute := s.mute.decide id s.audioPlayStream, thread } :=
    fun _ => ⟨⟨h.isOpen.1, h.isOpen.2, h.isOpen.3, h.isOpen.4⟩,
      ⟨h.agree.volume, hagree, h.agree.device⟩, h.busy⟩
  unfold State.applyMute
  cases hre : (s.mute.decide id s.audioPlayStream).reapplying with
  | none =>
    simp only [hre, Option.isSome_none, Bool.false_eq_true, if_false]
    exact (hnext .opened).inv rfl ⟨(hnext .opened).isOpen, hdevice, hvolume, rfl, hre⟩
  | some value =>
    simp only [hre, Option.isSome_some, if_true]
    exact (hnext (.applying .mute)).inv rfl
      ⟨(hnext (.applying .mute)).isOpen, hdevice, hvolume, rfl⟩

theorem SetsUp.volume (h : SetsUp s) (hdevice : Done s.device) (hvolume : s.volume.decided = false)
    (hmute : s.mute.decided = false) (hlive : s.live = some s.audioPlayStream)
    (hmay : MayApplyVolume s) : Inv s.applyVolume := by
  obtain ⟨hmay, hmayMute⟩ := hmay
  rw [hlive] at hmay
  have hagree := h.agree.volume.decide hvolume hmay
  have hnext : ∀ thread, SetsUp
      { s with volume := s.volume.decide (fun _ => true) s.audioPlayStream, thread } :=
    fun _ => ⟨⟨h.isOpen.1, h.isOpen.2, h.isOpen.3, h.isOpen.4⟩,
      ⟨hagree, h.agree.mute, h.agree.device⟩, h.busy⟩
  unfold State.applyVolume
  cases hre : (s.volume.decide (fun _ => true) s.audioPlayStream).reapplying with
  | none =>
    simp only [hre, Option.isSome_none, Bool.false_eq_true, if_false]
    have hcache : s.volume.cache.isNone = true := by
      cases hcache : s.volume.cache with
      | none => rfl
      | some v => simp [Attribute.decide, hcache] at hre
    exact (hnext s.thread).mute hdevice ⟨rfl, hre⟩ hmute hlive (hmayMute hcache)
  | some value =>
    simp only [hre, Option.isSome_some, if_true]
    exact (hnext (.applying .volume)).inv rfl
      ⟨(hnext (.applying .volume)).isOpen, hdevice, rfl, hmute⟩

theorem SetsUp.device (h : SetsUp s) (hdevice : s.device.decided = false)
    (hvolume : s.volume.decided = false) (hmute : s.mute.decided = false)
    (hlive : s.live = some s.audioPlayStream) (hmay : MayApplyDevice s) : Inv s.applyDevice := by
  obtain ⟨hmay, hmayVolume⟩ := hmay
  rw [hlive] at hmay
  have hagree := h.agree.device.decide hdevice hmay
  have hnext : ∀ thread, SetsUp
      { s with device := s.device.decide State.devicesToBeSet s.audioPlayStream, thread } :=
    fun _ => ⟨⟨h.isOpen.1, h.isOpen.2, h.isOpen.3, h.isOpen.4⟩,
      ⟨h.agree.volume, h.agree.mute, hagree⟩, h.busy⟩
  unfold State.applyDevice
  cases hre : (s.device.decide State.devicesToBeSet s.audioPlayStream).reapplying with
  | none =>
    simp only [hre, Option.isSome_none, Bool.false_eq_true, if_false]
    rw [decide_reapplying, Option.map_eq_none_iff] at hre
    have hnone : (s.device.cache.filter State.devicesToBeSet).isNone = true := by
      rw [hre]
      rfl
    exact (hnext s.thread).volume ⟨rfl, by rw [decide_reapplying, hre, Option.map_none]⟩ hvolume
      hmute hlive (hmayVolume hnone)
  | some value =>
    simp only [hre, Option.isSome_some, if_true]
    exact (hnext (.applying .device)).inv rfl
      ⟨(hnext (.applying .device)).isOpen, rfl, hvolume, hmute⟩

/-! ## The steps -/

theorem initial_inv (levels : Levels Level) : Inv (initial levels) where
  agree := ⟨initial_agrees _ _ rfl, initial_agrees _ _ rfl, initial_agrees _ _ rfl⟩
  stage := ⟨⟨rfl, rfl, rfl⟩, rfl⟩
  idle _ := rfl

/-- A stream lives only while the player's stream is there. -/
theorem Inv.isOpen (h : Inv s) {id : ℕ} (hlive : s.live = some id) : IsOpen s := by
  have hstage := h.stage
  unfold Stage at hstage
  unfold State.live at hlive
  cases hthread : s.thread with
  | created config =>
    rw [hthread] at hstage
    exact hstage.1
  | applying kind =>
    rw [hthread] at hstage
    cases kind <;> exact hstage.1
  | opened =>
    rw [hthread] at hstage
    exact hstage.1
  | closed | creating | deleting | deleted =>
    rw [hthread] at hlive
    cases hlive

theorem Inv.noLive (h : Inv s) (hclosed : s.isStreamOpened = false) : s.live = none := by
  cases hlive : s.live with
  | none => rfl
  | some id => exact Bool.noConfusion (hclosed.symm.trans (h.isOpen hlive).isStreamOpened)

theorem Inv.onlyLive (h : Inv s) : OnlyLive s.live s.opened s.audioPlayStream := by
  intro id hlive
  refine ⟨?_, (h.isOpen hlive).opened⟩
  unfold State.live at hlive
  split at hlive <;> cases hlive <;> rfl

/-- While a stream lives, the thread is setting it up or done with it. -/
theorem Inv.setsUp (h : Inv s) (hlive : s.live = some s.audioPlayStream) : SetsUp s := by
  have hagree := h.agree
  rw [hlive] at hagree
  refine ⟨h.isOpen hlive, hagree, Bool.eq_true_of_not_eq_false fun hidle => ?_⟩
  rw [State.live, h.idle hidle] at hlive
  cases hlive

theorem initAudioStream_inv (h : Inv s) (hok : Orderly s .initAudioStream)
    (hs : s.initAudioStream = some s') : Inv s' := by
  have hstage := h.stage
  unfold Stage at hstage
  unfold State.initAudioStream at hs
  unfold Orderly at hok
  split at hs
  · rename_i config hthread
    rw [hthread] at hstage
    simp only [hthread] at hok
    obtain ⟨-, hdevice, hvolume, hmute⟩ := hstage
    cases hs
    have hlive : s.live = some s.audioPlayStream := by rw [State.live, hthread]
    obtain ⟨hopen, hagree, hbusy⟩ := h.setsUp hlive
    exact SetsUp.device (s := { s with lastUsedDevices := _ })
      ⟨⟨hopen.1, hopen.2, hopen.3, hopen.4⟩, ⟨hagree.volume, hagree.mute, hagree.device⟩, hbusy⟩
      hdevice hvolume hmute hlive hok
  · rename_i hthread
    rw [hthread] at hstage
    simp only [hthread] at hok
    obtain ⟨-, hdevice, hvolume, hmute⟩ := hstage
    split_ifs at hs with hnone
    cases hs
    have hlive : s.live = some s.audioPlayStream := by rw [State.live, hthread]
    exact (h.setsUp hlive).volume ⟨hdevice, hnone⟩ hvolume hmute hlive hok
  · rename_i hthread
    rw [hthread] at hstage
    simp only [hthread] at hok
    obtain ⟨-, hdevice, hvolume, hmute⟩ := hstage
    split_ifs at hs with hnone
    cases hs
    have hlive : s.live = some s.audioPlayStream := by rw [State.live, hthread]
    exact (h.setsUp hlive).mute hdevice ⟨hvolume, Option.isNone_iff_eq_none.mp hnone⟩ hmute hlive
      hok
  · rename_i hthread
    rw [hthread] at hstage
    obtain ⟨hopen, hdevice, hvolume, hmute⟩ := hstage
    split_ifs at hs with hnone
    cases hs
    have hlive : s.live = some s.audioPlayStream := by rw [State.live, hthread]
    obtain ⟨-, hagree, hbusy⟩ := h.setsUp hlive
    have hopen' : IsOpen { s with thread := .opened } := ⟨hopen.1, hopen.2, hopen.3, hopen.4⟩
    exact SetsUp.inv ⟨hopen', ⟨hagree.volume, hagree.mute, hagree.device⟩, hbusy⟩ rfl
      ⟨hopen', hdevice, hvolume, hmute, hnone⟩
  · cases hs

theorem Done.kept {α : Type} {a a' : Attribute α} (h : Done a) (hkept : Kept a a') : Done a' :=
  ⟨hkept.1.trans h.1, hkept.2 h.2⟩

/-- The attributes change as an event changes them, and nothing else does. -/
theorem stage_kept (h : Stage s) {volume : Attribute Level} {mute : Attribute Bool}
    {device : Attribute (List DeviceType)} (hvolume : Kept s.volume volume)
    (hmute : Kept s.mute mute) (hdevice : Kept s.device device) :
    Stage { s with volume, mute, device } := by
  have hopen : ∀ {thread}, IsOpen s → IsOpen { s with thread, volume, mute, device } :=
    fun h => ⟨h.1, h.2, h.3, h.4⟩
  have hclosed : ∀ {thread}, IsClosed s → IsClosed { s with thread, volume, mute, device } :=
    fun h => ⟨h.1, h.2, h.3⟩
  unfold Stage at h ⊢
  cases hthread : s.thread with
  | closed =>
    rw [hthread] at h
    exact ⟨hclosed h.1, h.2⟩
  | creating config =>
    rw [hthread] at h
    exact ⟨hclosed h.1, h.2⟩
  | created config =>
    rw [hthread] at h
    exact ⟨hopen h.1, hdevice.1.trans h.2.1, hvolume.1.trans h.2.2.1, hmute.1.trans h.2.2.2⟩
  | applying kind =>
    rw [hthread] at h
    cases kind with
    | device =>
      exact ⟨hopen h.1, hdevice.1.trans h.2.1, hvolume.1.trans h.2.2.1, hmute.1.trans h.2.2.2⟩
    | volume =>
      exact ⟨hopen h.1, h.2.1.kept hdevice, hvolume.1.trans h.2.2.1, hmute.1.trans h.2.2.2⟩
    | mute => exact ⟨hopen h.1, h.2.1.kept hdevice, h.2.2.1.kept hvolume, hmute.1.trans h.2.2.2⟩
  | opened =>
    rw [hthread] at h
    exact ⟨hopen h.1, h.2.1.kept hdevice, h.2.2.1.kept hvolume, h.2.2.2.kept hmute⟩
  | deleting =>
    rw [hthread] at h
    exact h
  | deleted =>
    rw [hthread] at h
    exact h

theorem Kept.refl {α : Type} (a : Attribute α) : Kept a a := ⟨rfl, id⟩

/-- A stream that is not there any more, or will not be used any more. -/
theorem Agrees.drop {α : Type} {hasToBeSet : α → Bool} {allowed : α → Prop} {live : Option ℕ}
    {next : ℕ} {a : Attribute α} (h : Agrees hasToBeSet allowed live next a) :
    Agrees hasToBeSet allowed none next a :=
  ⟨h.cache, h.lastAllowed, h.waiting, h.answered, h.reapplying, nofun, nofun⟩

/-- The thread is where no stream lives; the attributes are as they were. -/
theorem Inv.drop (h : Inv s) (hlive : s'.live = none) (hstream : s'.audioPlayStream =
    s.audioPlayStream) (hvolume : s'.volume = s.volume) (hmute : s'.mute = s.mute)
    (hdevice : s'.device = s.device) (hstage : Stage s')
    (hidle : s'.isPlayInProgress = false → s'.thread = .closed) : Inv s' := by
  refine ⟨?_, hstage, hidle⟩
  rw [hlive]
  refine ⟨?_, ?_, ?_⟩
  · rw [hstream, hvolume]
    exact h.agree.volume.drop
  · rw [hstream, hmute]
    exact h.agree.mute.drop
  · rw [hstream, hdevice]
    exact h.agree.device.drop

theorem createStreamComplete_inv {i : ℕ} {level : Level} (h : Inv s)
    (hs : s.createStreamComplete i level = some s') : Inv s' := by
  unfold State.createStreamComplete at hs
  split at hs
  · cases hs
  · rename_i config hget
    cases hs
    have hmem := List.mem_of_getElem? hget
    have hstage := h.stage
    -- Only a player thread that waits for a stream has asked for one.
    obtain ⟨config', hthread⟩ : ∃ config', s.thread = .creating config' := by
      unfold Stage at hstage
      cases hthread : s.thread with
      | creating config' => exact ⟨config', rfl⟩
      | closed | deleting | deleted =>
        rw [hthread] at hstage
        simp only [hstage] at hmem
        cases hmem
      | created | opened =>
        rw [hthread] at hstage
        rw [hstage.1.creations] at hmem
        cases hmem
      | applying kind =>
        rw [hthread] at hstage
        cases kind <;> rw [hstage.1.creations] at hmem <;> cases hmem
    rw [Stage, hthread] at hstage
    obtain ⟨⟨-, hopened, hdeletions⟩, hcreations⟩ := hstage
    have hi : i = 0 := by
      rw [hcreations] at hget
      have hlt := (List.getElem?_eq_some_iff.mp hget).1
      exact Nat.lt_one_iff.mp hlt
    have hbusy : s.isPlayInProgress = true := Bool.eq_true_of_not_eq_false fun hidle => by
      rw [h.idle hidle] at hthread
      cases hthread
    simp only [hthread, hopened, hcreations, hi, List.nil_append]
    refine SetsUp.inv ⟨⟨rfl, rfl, rfl, hdeletions⟩, ⟨h.agree.volume.openStream nofun,
      h.agree.mute.openStream ?_, h.agree.device.openStream ?_⟩, hbusy⟩ rfl
      ⟨⟨rfl, rfl, rfl, hdeletions⟩, rfl, rfl, rfl⟩
    · intro v _ hv
      exact hv.symm
    · intro v hv hnot
      simp [State.devicesToBeSet, hv] at hnot

theorem deinitAudioStream_inv (h : Inv s) (hs : s.deinitAudioStream = some s') : Inv s' := by
  have hopen : s.live = some s.audioPlayStream → s.isPlayInProgress ∧ s.isStreamOpened →
      Inv { s with thread := .deleting, deletions := s.deletions ++ [s.audioPlayStream] } := by
    intro hlive hand
    have hisOpen := h.isOpen hlive
    refine h.drop rfl rfl rfl rfl rfl ⟨hisOpen.isStreamOpened, hisOpen.opened, hisOpen.creations,
      ?_⟩ fun hidle => ?_
    · simp only [hisOpen.deletions, List.nil_append]
    · simp only [hand.1] at hidle
      cases hidle
  have hstage := h.stage
  unfold State.deinitAudioStream at hs
  split at hs
  · rename_i hthread
    rw [Stage, hthread] at hstage
    rw [hstage.1.isStreamOpened] at hs
    simp only [Bool.false_eq_true, and_false, if_false, reduceCtorEq] at hs
  · rename_i config hthread
    split_ifs at hs with hand
    cases hs
    exact hopen (by rw [State.live, hthread]) hand
  · rename_i kind hthread
    split_ifs at hs with hand
    cases hs
    exact hopen (by rw [State.live, hthread]) hand
  · rename_i hthread
    split_ifs at hs with hand
    cases hs
    exact hopen (by rw [State.live, hthread]) hand
  · cases hs

theorem deleteStreamComplete_inv {i : ℕ} (h : Inv s) (hs : s.deleteStreamComplete i = some s') :
    Inv s' := by
  unfold State.deleteStreamComplete at hs
  split at hs
  · cases hs
  · rename_i stream hget
    have hmem := List.mem_of_getElem? hget
    have hstage := h.stage
    -- Only a player thread that waits for it has asked to delete a stream.
    have hthread : s.thread = .deleting := by
      unfold Stage at hstage
      cases hthread : s.thread with
      | deleting => rfl
      | closed | creating | created | opened =>
        rw [hthread] at hstage
        rw [hstage.1.deletions] at hmem
        cases hmem
      | applying kind =>
        rw [hthread] at hstage
        cases kind <;> rw [hstage.1.deletions] at hmem <;> cases hmem
      | deleted =>
        rw [hthread] at hstage
        rw [hstage.2.2] at hmem
        cases hmem
    rw [Stage, hthread] at hstage
    obtain ⟨-, hopened, hcreations, hdeletions⟩ := hstage
    rw [hdeletions] at hget
    obtain ⟨hlt, hstream⟩ := List.getElem?_eq_some_iff.mp hget
    have hi : i = 0 := Nat.lt_one_iff.mp hlt
    subst hi
    have hstream : stream = s.audioPlayStream := hstream.symm
    simp only [hthread, hopened, hstream, List.mem_singleton, if_true] at hs
    cases hs
    refine h.drop rfl rfl rfl rfl rfl ⟨?_, hcreations, ?_⟩ fun hidle => ?_
    · simp only [List.erase_cons_head]
    · simp only [hdeletions, List.eraseIdx_cons_zero]
    · have hclosed := h.idle hidle
      rw [hthread] at hclosed
      cases hclosed

theorem step_inv (e : Step Level) (hok : Orderly s e) (hs : step levels s e = some s')
    (h : Inv s) : Inv s' := by
  cases e with
  | volume e =>
    obtain ⟨a, ha, rfl⟩ := Option.map_eq_some_iff.mp hs
    exact ⟨⟨change_agrees h.agree.volume hok h.onlyLive h.noLive ha, h.agree.mute,
      h.agree.device⟩, stage_kept h.stage (change_kept ha) (.refl _) (.refl _), h.idle⟩
  | mute e =>
    obtain ⟨a, ha, rfl⟩ := Option.map_eq_some_iff.mp hs
    exact ⟨⟨h.agree.volume, change_agrees h.agree.mute hok h.onlyLive h.noLive ha,
      h.agree.device⟩, stage_kept h.stage (.refl _) (change_kept ha) (.refl _), h.idle⟩
  | device e =>
    obtain ⟨a, ha, rfl⟩ := Option.map_eq_some_iff.mp hs
    exact ⟨⟨h.agree.volume, h.agree.mute,
      change_agrees h.agree.device hok h.onlyLive h.noLive ha⟩,
      stage_kept h.stage (.refl _) (.refl _) (change_kept ha), h.idle⟩
  | startPlayback =>
    simp only [step] at hs
    split_ifs at hs with hbusy
    cases hs
    have hthread := h.idle (Bool.eq_false_of_not_eq_true hbusy)
    have hstage := h.stage
    rw [Stage, hthread] at hstage
    obtain ⟨hclosed, hcreations⟩ := hstage
    refine h.drop (by rw [State.live, hthread]) rfl rfl rfl rfl ?_ nofun
    rw [Stage, hthread]
    exact ⟨⟨rfl, hclosed.opened, hclosed.deletions⟩, hcreations⟩
  | createStream config =>
    obtain ⟨⟨hbusy, hthread⟩, hs⟩ := Option.ite_none_right_eq_some.mp hs
    cases hs
    have hstage := h.stage
    rw [Stage, hthread] at hstage
    obtain ⟨hclosed, hcreations⟩ := hstage
    refine h.drop rfl rfl rfl rfl rfl ⟨⟨hclosed.1, hclosed.2, hclosed.3⟩, ?_⟩ fun hidle => ?_
    · simp only [hcreations, List.nil_append]
    · simp only [hbusy] at hidle
      cases hidle
  | createStreamComplete i level => exact createStreamComplete_inv h hs
  | initAudioStream => exact initAudioStream_inv h hok hs
  | deinitAudioStream => exact deinitAudioStream_inv h hs
  | deleteStreamComplete i => exact deleteStreamComplete_inv h hs
  | closeStream =>
    obtain ⟨hthread, hs⟩ := Option.ite_none_right_eq_some.mp hs
    cases hs
    have hstage := h.stage
    rw [Stage, hthread] at hstage
    exact h.drop rfl rfl rfl rfl rfl ⟨⟨rfl, hstage.1, hstage.2.2⟩, hstage.2.1⟩ fun _ => rfl
  | giveUp => exact hok.elim
  | endPlayback =>
    obtain ⟨⟨-, hthread⟩, hs⟩ := Option.ite_none_right_eq_some.mp hs
    cases hs
    have hstage := h.stage
    rw [Stage, hthread] at hstage
    refine h.drop (by rw [State.live, hthread]) rfl rfl rfl rfl ?_ fun _ => hthread
    rw [Stage, hthread]
    exact ⟨⟨hstage.1.1, hstage.1.2, hstage.1.3⟩, hstage.2⟩

/-! ## What sticks -/

/-- No call waits, for its answer or to return. -/
def Attribute.Quiet {α : Type} (a : Attribute α) : Prop := a.waiting = [] ∧ a.answered = []

/-- Nothing is pending: the stream is set up, or there is none, or it was given up. -/
structure Quiet (s : State Level) : Prop where
  thread : s.thread = .opened ∨ s.thread = .closed ∨ s.isStreamOpened = false
  volume : s.volume.Quiet
  mute : s.mute.Quiet
  device : s.device.Quiet

instance {α : Type} (a : Attribute α) : Decidable a.Quiet :=
  inferInstanceAs (Decidable (a.waiting = [] ∧ a.answered = []))

instance (s : State Level) : Decidable (Quiet s) :=
  decidable_of_iff ((s.thread = .opened ∨ s.thread = .closed ∨ s.isStreamOpened = false) ∧
      s.volume.Quiet ∧ s.mute.Quiet ∧ s.device.Quiet)
    ⟨fun h => ⟨h.1, h.2.1, h.2.2.1, h.2.2.2⟩, fun h => ⟨h.thread, h.volume, h.mute, h.device⟩⟩

/-- The stream of the player is open at the server. -/
def State.IsThere (s : State Level) : Prop := s.audioPlayStream ∈ s.opened

instance (s : State Level) : Decidable s.IsThere :=
  inferInstanceAs (Decidable (s.audioPlayStream ∈ s.opened))

/-- The last successful calls are in force, and are what the calls of `get…` return. -/
structure Sticks (levels : Levels Level) (s : State Level) : Prop where
  volume : s.IsThere → ∀ v, s.volume.last = some v → s.volume.inForce = v
  mute : s.IsThere → ∀ v, s.mute.last = some v → s.mute.inForce = v
  device : s.IsThere → ∀ v, s.device.last = some v → s.device.inForce = v
  getVolume : ∀ v, s.volume.last = some v → s.getVolume levels = some v
  getMute : ∀ v, s.mute.last = some v → s.getMute = v
  getDevice : ∀ v, s.device.last = some v → s.getDevice = some v

/-- Nothing is pending and no stream is set up: there is none. -/
theorem Inv.closed_of_quiet (h : Inv s) (hquiet : Quiet s) (hthread : s.thread ≠ .opened) :
    s.isStreamOpened = false ∧ ¬ s.IsThere := by
  have hgone : ∀ {opened}, s.opened = opened → opened = [] → ¬ s.IsThere := by
    rintro _ rfl hopened hthere
    rw [State.IsThere, hopened] at hthere
    cases hthere
  have hstage := h.stage
  rcases hquiet.thread with hopened | hclosed | hnot
  · exact absurd hopened hthread
  · rw [Stage, hclosed] at hstage
    exact ⟨hstage.1.isStreamOpened, hgone rfl hstage.1.opened⟩
  · refine ⟨hnot, ?_⟩
    unfold Stage at hstage
    cases hthread' : s.thread with
    | closed | creating =>
      rw [hthread'] at hstage
      exact hgone rfl hstage.1.opened
    | created | opened =>
      rw [hthread'] at hstage
      exact Bool.noConfusion (hnot.symm.trans hstage.1.isStreamOpened)
    | applying kind =>
      rw [hthread'] at hstage
      cases kind <;> exact Bool.noConfusion (hnot.symm.trans hstage.1.isStreamOpened)
    | deleting =>
      rw [hthread'] at hstage
      exact Bool.noConfusion (hnot.symm.trans hstage.1)
    | deleted =>
      rw [hthread'] at hstage
      exact hgone rfl hstage.1

/-- Levels in percent. -/
def percent : Levels ℕ := ⟨fun level => level ≤ 100, 100⟩

/-- The player thread opens a stream of one device. -/
def opening : List (Step ℕ) :=
  [.startPlayback, .createStream ⟨[.device 1], false⟩, .createStreamComplete 0 100,
    .initAudioStream]

/-- After a request to stop, the player asks for the level of a stream that is deleted. -/
example :
    (Runs.run (step percent) Runs.anyStep (initial percent) (List.flatten [opening,
      [.volume (.set 50), .volume (.answer 0), .volume (.finish 0), .deinitAudioStream, .giveUp,
        .endPlayback, .deleteStreamComplete 0]])).map
      (fun s => (s.volume.last, s.getVolume percent)) = some (some 50, none) := by
  decide

end Attributes

end Player

end SatComm
