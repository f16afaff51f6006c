import SatComm.Player.Samples

/-!
# When a file is played without loss

The position of the file is behind what the server has accepted by what is in flight and what has
been read and not written. As long as the server refuses nothing, these lie one behind the other in
the file, so that what is accepted is always a beginning of it. A repetition is complete when no
write is in flight and the end-of-file mark is still set: a write that is cut short after the end of
the file was noticed takes the mark away, and has to be sent again.
-/

namespace SatComm

namespace Player

namespace Samples

variable {p : Recording} {s s' : State}

/-- `fread` has returned these bytes, and they are not written yet. -/
def State.pending (s : State) : List UInt8 :=
  match s.thread with
  | .reading read | .writing read => read
  | _ => []

/-- What was read is sure to be written. -/
def State.writes (s : State) : Bool :=
  match s.thread with
  | .writing _ => true
  | _ => false

/-- What the server has, in the order in which it was sent. -/
def State.sent (s : State) : List UInt8 := s.accepted ++ s.inFlight.flatten

/-- The threads that stand behind the wait for the last answers. -/
def Thread.ends : Thread → Bool
  | .finalizing | .resending | .stopping | .played => true
  | _ => false

/-- What holds where the player thread stands. -/
def Stands (s : State) : Thread → Prop
  | .waitingForAdsp => s.pool ≠ 0
  | .writing read => read ≠ []
  | .finalizing | .resending | .played => s.pool = 2
  | .stopping => s.pool = 2 ∧ s.eof
  | _ => True

/-- The buffers and the end-of-file mark. -/
structure Buffers (p : Recording) (s : State) : Prop where
  count : s.pool + s.inFlight.length + s.answering.toList.length + s.locked.toNat = 2
  refused_le : s.refused ≤ s.inFlight.length
  nonempty : [] ∉ s.inFlight
  eof_end : s.eof → p.content.length ≤ s.position
  stands : Stands s s.thread

/-- Where the file is read, while no error has occurred. -/
structure Exact (p : Recording) (s : State) : Prop where
  position : s.position = s.start + s.sent.length + s.pending.length
  accepted : s.accepted <+: p.content.drop s.start
  sent : s.refused = 0 → s.sent <+: p.content.drop s.start
  read : ∀ read, s.thread = .reading read → s.refused = 0 →
    read.length = p.bufferSize ∨ s.eof → s.sent ++ read <+: p.content.drop s.start
  write : ∀ read, s.thread = .writing read → s.refused = 0 →
    s.sent ++ read <+: p.content.drop s.start

/-- What every repetition that was reported without an error has played. -/
def Complete (p : Recording) (s : State) : Prop :=
  ∀ r ∈ s.reports, r.errored = false → r.accepted = p.content.drop r.start

/-- No error has occurred. -/
def Live (s : State) : Prop := s.errored = false ∧ s.thread ≠ .failed

structure Inv (p : Recording) (s : State) : Prop where
  buffers : Buffers p s
  exact : Live s → Exact p s
  complete : Complete p s

/-- No answer cuts a write short between the `fread` of a whole buffer and its write, or between the
last look at the end-of-file mark and the write of `playAudioSamples`, and when `finalizePlayback`
finds the stream ready, no answer has moved the position back since the end of the file was
noticed. -/
def InTime (p : Recording) (s : State) : Step → Prop
  | .answer bytesWritten => s.pending.length = p.bufferSize ∨ s.writes →
      ∀ buffer ∈ s.inFlight.head?, bytesWritten = buffer.length
  | .player => s.thread = .finalizing ∨ s.thread = .resending →
      s.errToReport = .success → s.isAdspWriteReady → s.eof
  | .answerError _ | .writeComplete | .onReadyForWrite => True

instance (p : Recording) (s : State) (e : Step) : Decidable (InTime p s e) :=
  match e with
  | .answer bytesWritten => inferInstanceAs (Decidable (s.pending.length = p.bufferSize ∨ s.writes →
      ∀ buffer ∈ s.inFlight.head?, bytesWritten = buffer.length))
  | .player => inferInstanceAs (Decidable (s.thread = .finalizing ∨ s.thread = .resending →
      s.errToReport = .success → s.isAdspWriteReady → s.eof))
  | .answerError _ | .writeComplete | .onReadyForWrite => isTrue trivial

theorem prefix_append_take {α : Type*} {xs ys : List α} (h : ys <+: xs) (n : Nat) :
    ys ++ (xs.drop ys.length).take n <+: xs := by
  obtain ⟨rest, rfl⟩ := h
  rw [List.drop_left]
  exact (List.prefix_append_right_inj ys).mpr (List.take_prefix n rest)

theorem initial_inv (p : Recording) : Inv p initial where
  buffers := ⟨rfl, Nat.le_refl _, List.not_mem_nil, nofun, trivial⟩
  exact _ := ⟨rfl, List.nil_prefix, fun _ => List.nil_prefix, nofun, nofun⟩
  complete := nofun

theorem locked_eq (s : State) (h : s.locked = false) (read : List UInt8) :
    s.thread ≠ .reading read ∧ s.thread ≠ .writing read := by
  constructor
  all_goals
    intro hr
    rw [State.locked, hr] at h
    cases h

theorem pending_reading {read : List UInt8} (h : s.thread = .reading read) : s.pending = read := by
  rw [State.pending, h]

theorem pending_writing {read : List UInt8} (h : s.thread = .writing read) : s.pending = read := by
  rw [State.pending, h]

theorem pending_eq (h : s.locked = false) : s.pending = [] := by
  unfold State.locked at h
  unfold State.pending
  split at h <;> simp_all

theorem Stands.all_back {t : Thread} (h : Stands s t) (hends : t.ends) : s.pool = 2 := by
  cases t with
  | stopping => exact h.1
  | finalizing | resending | played => exact h
  | _ => cases hends

/-- With all buffers back, nothing is on its way. -/
theorem Buffers.quiet (h : Buffers p s) (hpool : s.pool = 2) :
    s.inFlight = [] ∧ s.answering = none ∧ s.locked = false := by
  have hcount := h.count
  refine ⟨List.length_eq_zero_iff.mp (by omega), Option.toList_eq_nil_iff.mp
    (List.length_eq_zero_iff.mp (by omega)), ?_⟩
  cases hl : s.locked with
  | false => rfl
  | true =>
    rw [hl, Bool.toNat_true] at hcount
    omega

/-- What does not touch the file or the buffers in flight only has the buffers to count. -/
theorem Buffers.keep (h : Buffers p s)
    (hsame : s'.inFlight = s.inFlight ∧ s'.refused = s.refused ∧ s'.eof = s.eof ∧
      s'.position = s.position)
    (hcount : s'.pool + s.inFlight.length + s'.answering.toList.length + s'.locked.toNat = 2)
    (hstands : Stands s' s'.thread) : Buffers p s' := by
  obtain ⟨hflight, hrefused, heof, hposition⟩ := hsame
  refine ⟨?_, ?_, ?_, ?_, hstands⟩
  · rw [hflight]
    exact hcount
  · rw [hrefused, hflight]
    exact h.refused_le
  · rw [hflight]
    exact h.nonempty
  · rw [heof, hposition]
    exact h.eof_end

/-! ## The player thread -/

/-- The player thread goes on without touching the file. -/
theorem Inv.move (h : Inv p s) (t : Thread) (hfrom : s.locked = false) (hlive : s.thread ≠ .failed)
    (hto : { s with thread := t }.locked = false) (hstands : Stands s t) :
    Inv p { s with thread := t } where
  buffers := by
    have hcount := h.buffers.count
    rw [hfrom] at hcount
    refine h.buffers.keep ⟨rfl, rfl, rfl, rfl⟩ ?_ (by cases t <;> exact hstands)
    rw [hto]
    exact hcount
  exact herr := by
    have he := h.exact ⟨herr.1, hlive⟩
    refine ⟨?_, he.accepted, he.sent, fun read hr => absurd hr (locked_eq _ hto read).1,
      fun read hr => absurd hr (locked_eq _ hto read).2⟩
    have hpos := he.position
    rw [pending_eq hfrom] at hpos
    rw [pending_eq hto]
    exact hpos
  complete := h.complete

theorem Inv.fread (h : Inv p s) (hfree : s.locked = false) (hlive : s.thread ≠ .failed)
    (hpool : s.pool ≠ 0) : Inv p (s.fread p) where
  buffers := by
    refine ⟨?_, h.buffers.refused_le, h.buffers.nonempty, ?_, trivial⟩
    · have hcount := h.buffers.count
      rw [hfree] at hcount
      change s.pool - 1 + s.inFlight.length + s.answering.toList.length + 1 = 2
      simp only [Bool.toNat_false] at hcount
      omega
    · intro heof
      have hend := h.buffers.eof_end
      simp only [State.fread, Bool.or_eq_true, decide_eq_true_eq, List.length_take,
        List.length_drop] at heof hend ⊢
      rcases heof with heof | hshort
      · exact (hend heof).trans (by omega)
      · omega
  exact herr := by
    have he := h.exact ⟨herr.1, hlive⟩
    have hpos := he.position
    rw [pending_eq hfree, List.length_nil, Nat.add_zero] at hpos
    refine ⟨?_, he.accepted, he.sent, ?_, nofun⟩
    · exact congrArg (· + ((p.content.drop s.position).take p.bufferSize).length) hpos
    · intro read hread hrefused _
      obtain rfl : (p.content.drop s.position).take p.bufferSize = read := by
        simpa [State.fread] using hread
      have hnext := prefix_append_take (he.sent hrefused) p.bufferSize
      rw [List.drop_drop, ← hpos] at hnext
      exact hnext
  complete := h.complete

theorem Inv.fill (h : Inv p s) (hfree : s.locked = false) (hlive : s.thread ≠ .failed)
    (hpool : s.pool ≠ 0) : Inv p (s.fill p) := by
  unfold State.fill
  split
  · exact h.move _ hfree hlive rfl hpool
  · exact h.fread hfree hlive hpool

theorem Inv.checkRead {read : List UInt8} (h : Inv p s) (hread : s.thread = .reading read) :
    Inv p (s.checkRead p read) := by
  have hlocked : s.locked = true := by rw [State.locked, hread]
  have hpending : s.pending = read := pending_reading hread
  have hcount := h.buffers.count
  rw [hlocked, Bool.toNat_true] at hcount
  have he : s.errored = false → Exact p s := fun herr => h.exact ⟨herr, by rw [hread]; nofun⟩
  unfold State.checkRead
  split_ifs with hempty hshort
  · obtain ⟨rfl, heof⟩ := hempty
    refine ⟨h.buffers.keep ⟨rfl, rfl, rfl, rfl⟩ ?_ trivial, fun herr => ?_, h.complete⟩
    · change s.pool + 1 + s.inFlight.length + s.answering.toList.length + 0 = 2
      omega
    · have hpos := (he herr.1).position
      rw [hpending] at hpos
      exact ⟨hpos, (he herr.1).accepted, (he herr.1).sent, nofun, nofun⟩
  · refine ⟨h.buffers.keep ⟨rfl, rfl, rfl, rfl⟩ ?_ trivial,
      fun herr => absurd rfl herr.2, h.complete⟩
    change s.pool + 1 + s.inFlight.length + s.answering.toList.length + 0 = 2
    omega
  · have hfull : read.length = p.bufferSize ∨ s.eof := by
      by_contra hnot
      rw [not_or] at hnot
      exact hshort hnot
    have hnonempty : read ≠ [] := by
      rintro rfl
      have hnot : ¬ s.eof := fun heof => hempty ⟨rfl, heof⟩
      exact hshort ⟨p.bufferSize_pos.ne, hnot⟩
    refine ⟨h.buffers.keep ⟨rfl, rfl, rfl, rfl⟩ hcount hnonempty, fun herr => ?_, h.complete⟩
    have hpos := (he herr.1).position
    rw [hpending] at hpos
    refine ⟨hpos, (he herr.1).accepted, (he herr.1).sent, nofun, fun read' hread' hrefused => ?_⟩
    cases hread'
    exact (he herr.1).read read hread hrefused hfull

theorem Inv.write {read : List UInt8} (h : Inv p s) (hread : s.thread = .writing read) :
    Inv p (s.write read) := by
  have hlocked : s.locked = true := by rw [State.locked, hread]
  have hcount := h.buffers.count
  rw [hlocked, Bool.toNat_true] at hcount
  have hnonempty : Stands s (.writing read) := hread ▸ h.buffers.stands
  have hsent : s.accepted ++ (s.inFlight ++ [read]).flatten = s.sent ++ read := by
    rw [List.flatten_append, List.flatten_singleton, State.sent, List.append_assoc]
  refine ⟨⟨?_, ?_, ?_, h.buffers.eof_end, trivial⟩, fun herr => ?_, h.complete⟩
  · change s.pool + (s.inFlight ++ [read]).length + s.answering.toList.length + 0 = 2
    rw [List.length_append, List.length_singleton]
    omega
  · refine h.buffers.refused_le.trans ?_
    change s.inFlight.length ≤ (s.inFlight ++ [read]).length
    rw [List.length_append]
    exact Nat.le_add_right _ _
  · intro hmem
    rcases List.mem_append.mp hmem with hold | hnew
    · exact h.buffers.nonempty hold
    · exact hnonempty (List.mem_singleton.mp hnew).symm
  · have he : Exact p s := h.exact ⟨herr.1, by rw [hread]; nofun⟩
    refine ⟨?_, he.accepted, fun hrefused => ?_, nofun, nofun⟩
    · have hpos := he.position
      rw [pending_writing hread] at hpos
      change s.position = s.start + (s.accepted ++ (s.inFlight ++ [read]).flatten).length + 0
      rw [hsent, List.length_append]
      omega
    · change s.accepted ++ (s.inFlight ++ [read]).flatten <+: _
      rw [hsent]
      exact he.write read hread hrefused

/-- Behind the wait for the last answers, at the end of the file, everything was accepted. -/
theorem Inv.accepted_eq (h : Inv p s) (hlive : Live s) (hends : s.thread.ends) (heof : s.eof) :
    s.accepted = p.content.drop s.start := by
  have he := h.exact hlive
  obtain ⟨hflight, -, hfree⟩ := h.buffers.quiet (h.buffers.stands.all_back hends)
  have hpos := he.position
  rw [pending_eq hfree, State.sent, hflight, List.flatten_nil, List.append_nil,
    List.length_nil] at hpos
  refine he.accepted.eq_of_length_le ?_
  have hend := h.buffers.eof_end heof
  rw [List.length_drop]
  omega

theorem Inv.reportPlayed (h : Inv p s) (hends : s.thread.ends) (heof : s.eof) :
    Inv p s.reportPlayed := by
  have hlive : s.thread ≠ .failed := by
    intro hf
    rw [hf] at hends
    cases hends
  have hback := h.buffers.stands.all_back hends
  have hmove := h.move .played (h.buffers.quiet hback).2.2 hlive rfl hback
  refine ⟨hmove.buffers.keep ⟨rfl, rfl, rfl, rfl⟩ hmove.buffers.count hback, fun hl => ?_, ?_⟩
  · have he := hmove.exact hl
    exact ⟨he.position, he.accepted, he.sent, nofun, nofun⟩
  · intro r hr herr
    rcases List.mem_append.mp hr with hold | hnew
    · exact h.complete r hold herr
    · rw [List.mem_singleton] at hnew
      subst hnew
      exact h.accepted_eq ⟨herr, hlive⟩ hends heof

theorem Inv.adjust (h : Inv p s) (hplayed : s.thread = .played) :
    Inv p (s.adjustFileAndState p) := by
  have hback := h.buffers.stands.all_back (by rw [hplayed]; rfl)
  obtain ⟨hflight, -, hfree⟩ := h.buffers.quiet hback
  have hcount := h.buffers.count
  rw [hfree] at hcount
  refine ⟨⟨hcount, h.buffers.refused_le, h.buffers.nonempty, nofun, trivial⟩, fun hlive => ?_,
    h.complete⟩
  have hsent : (s.adjustFileAndState p).sent = [] := by
    change [] ++ s.inFlight.flatten = []
    rw [hflight]
    rfl
  refine ⟨?_, List.nil_prefix, fun _ => ?_, nofun, nofun⟩
  · rw [hsent]
    rfl
  · rw [hsent]
    exact List.nil_prefix

/-- What the player thread does keeps the invariant, when it is in time. -/
theorem advance_inv (h : Inv p s) (hok : InTime p s .player) (hs : s.advance p = some s') :
    Inv p s' := by
  have hstands := h.buffers.stands
  have hlive : s.thread ≠ .failed := by
    intro hf
    rw [State.advance, hf] at hs
    cases hs
  unfold State.advance at hs
  split at hs
  all_goals
    rename_i ht
    rw [ht] at hstands
    try have hfree : s.locked = false := by rw [State.locked, ht]
  · cases hs
    split_ifs with hpool
    · exact h.move _ hfree hlive rfl trivial
    · exact h.fill hfree hlive hpool
  · split_ifs at hs with hpool herr
    · cases hs
      exact h.move _ hfree hlive rfl trivial
    · cases hs
      exact h.fill hfree hlive hpool
  · split_ifs at hs
    cases hs
    exact h.fread hfree hlive hstands
  · cases hs
    exact h.checkRead ht
  · cases hs
    exact h.write ht
  · cases hs
    split <;> exact h.move _ hfree hlive rfl trivial
  · split_ifs at hs with hpool
    cases hs
    exact h.move _ hfree hlive rfl hpool
  · split_ifs at hs with hready
    · have heof := hok (.inl ht) hready.1 hready.2
      cases hs
      exact h.move _ hfree hlive rfl ⟨hstands, heof⟩
    · cases hs
      exact h.reportPlayed (by rw [ht]; rfl) (hok (.inl ht) hready.1 hready.2)
    · cases hs
      exact h.move _ hfree hlive rfl hstands
  · split_ifs at hs with herr hready
    · cases hs
      exact h.move _ hfree hlive rfl trivial
    · cases hs
      exact h.move _ hfree hlive rfl trivial
    · have heof := hok (.inr ht) (not_not.mp herr) (by simpa using hready)
      cases hs
      exact h.reportPlayed (by rw [ht]; rfl) heof
  · cases hs
    exact h.reportPlayed (by rw [ht]; rfl) hstands.2
  · cases hs
    exact h.adjust ht
  · cases hs

/-! ## The answers -/

/-- A step of another thread: what stands where the player thread stands still holds. -/
theorem Stands.mono {t : Thread} {s' : State} (h : Stands s t) (hpool : s.pool ≤ s'.pool)
    (htwo : s.pool = 2 → s'.pool = 2 ∧ s'.eof = s.eof) : Stands s' t := by
  cases t with
  | waitingForAdsp => exact fun hz => h (by omega)
  | writing read => exact h
  | finalizing | resending | played => exact (htwo h).1
  | stopping => exact ⟨(htwo h.1).1, by rw [(htwo h.1).2]; exact h.2⟩
  | _ => trivial

/-- The buffers after an answer: the oldest write has left, and the position may have moved
back. -/
theorem Buffers.answered {buffer : List UInt8} {rest : List (List UInt8)} (h : Buffers p s)
    (hflight : s.inFlight = buffer :: rest) (hans : s.answering = none)
    (hpool : s'.pool = s.pool) (hflight' : s'.inFlight = rest)
    (hans' : s'.answering.toList.length = 1) (hthread : s'.thread = s.thread)
    (hrefused : s'.refused ≤ rest.length)
    (heof : s'.eof = false ∨ s'.eof = s.eof ∧ s'.position = s.position) : Buffers p s' := by
  have hcount := h.count
  have hne := h.nonempty
  rw [hflight] at hne hcount
  rw [hans, List.length_cons] at hcount
  have hlocked : s'.locked = s.locked := by rw [State.locked, hthread, State.locked]
  have hless : s.pool ≠ 2 := by
    simp only [Option.toList_none, List.length_nil] at hcount
    omega
  refine ⟨?_, ?_, ?_, ?_, ?_⟩
  · rw [hpool, hflight', hans', hlocked]
    simp only [Option.toList_none, List.length_nil] at hcount
    omega
  · rw [hflight']
    exact hrefused
  · rw [hflight']
    exact fun hmem => hne (.tail _ hmem)
  · intro he
    rcases heof with hoff | ⟨hsame, hpos⟩
    · rw [hoff] at he
      cases he
    · rw [hpos]
      exact h.eof_end (hsame ▸ he)
  · rw [hthread]
    exact h.stands.mono hpool.ge fun htwo => absurd htwo hless

theorem Exact.length_le_position {buffer : List UInt8} {rest : List (List UInt8)} (h : Exact p s)
    (hflight : s.inFlight = buffer :: rest) : s.accepted.length + buffer.length ≤ s.position := by
  have hpos := h.position
  rw [State.sent, hflight, List.flatten_cons, List.length_append, List.length_append] at hpos
  omega

/-- What the server accepts of the oldest write goes on where it stopped. -/
theorem Exact.accepted_take {buffer : List UInt8} {rest : List (List UInt8)} {k : Nat}
    (h : Exact p s) (hflight : s.inFlight = buffer :: rest) (hrefused : s.refused ≠ 0 → k = 0) :
    s.accepted ++ buffer.take k <+: p.content.drop s.start := by
  by_cases hz : s.refused = 0
  · refine List.IsPrefix.trans ?_ (h.sent hz)
    rw [State.sent, hflight, List.flatten_cons, List.prefix_append_right_inj]
    exact (List.take_prefix k buffer).trans (List.prefix_append _ _)
  · rw [hrefused hz, List.take_zero, List.append_nil]
    exact h.accepted

section Answers

variable {k : Nat} {buffer : List UInt8} {rest : List (List UInt8)}

/-- The server leaves out bytes, and the reading goes back to them. -/
theorem answer_part_inv (h : Inv p s) (hok : InTime p s (.answer k))
    (hflight : s.inFlight = buffer :: rest) (hans : s.answering = none) (hle : k ≤ buffer.length)
    (hrefused : s.refused ≠ 0 → k = 0) (hpart : buffer.length ≠ k) :
    Inv p ((s.accept p buffer rest k).seekBack (buffer.length - k)) := by
  have hrest : (s.accept p buffer rest k).refused = rest.length := if_pos hpart
  by_cases hback : buffer.length - k ≤ s.position
  · rw [State.seekBack, if_pos (show _ ≤ (s.accept p buffer rest k).position from hback)]
    refine ⟨h.buffers.answered hflight hans rfl rfl rfl rfl hrest.le (.inl rfl),
      fun hl => ?_, h.complete⟩
    have he := h.exact hl
    have hpos := he.position
    have hacc := he.accepted_take hflight hrefused
    have hhead : buffer ∈ s.inFlight.head? := by
      rw [hflight]
      rfl
    refine ⟨?_, hacc, fun hz => ?_, fun read hread _ hfull => ?_, fun read hread _ => ?_⟩
    · change s.position - _ = s.start + (s.accepted ++ buffer.take k ++ rest.flatten).length +
        s.pending.length
      simp only [State.sent, hflight, List.flatten_cons, List.length_append,
        List.length_take, Nat.min_eq_left hle] at hpos ⊢
      omega
    · obtain rfl : rest = [] := List.length_eq_zero_iff.mp (hrest.symm.trans hz)
      change s.accepted ++ buffer.take k ++ [] <+: _
      rw [List.append_nil]
      exact hacc
    · rcases hfull with hfull | heof
      · have hpending : s.pending = read := pending_reading hread
        exact absurd (hok (.inl (by rw [hpending]; exact hfull)) buffer hhead).symm hpart
      · cases heof
    · have hwrites : s.writes = true := by
        rw [State.writes, show s.thread = .writing read from hread]
      exact absurd (hok (.inr hwrites) buffer hhead).symm hpart
  · rw [State.seekBack, if_neg (show ¬ _ ≤ (s.accept p buffer rest k).position from hback)]
    refine ⟨h.buffers.answered hflight hans rfl rfl rfl rfl hrest.le (.inr ⟨rfl, rfl⟩),
      fun hl => absurd ?_ hback, h.complete⟩
    have hlong := Exact.length_le_position (h.exact hl) hflight
    omega

/-- The server takes all bytes of the oldest write. -/
theorem answer_whole_inv (h : Inv p s) (hflight : s.inFlight = buffer :: rest)
    (hans : s.answering = none) (hle : k ≤ buffer.length) (hrefused : s.refused ≠ 0 → k = 0)
    (hfull : buffer.length = k) : Inv p (s.accept p buffer rest k) := by
  have hne : buffer ≠ [] := by
    rintro rfl
    exact h.buffers.nonempty (hflight ▸ List.mem_cons_self)
  have hz : s.refused = 0 := by
    by_contra hr
    exact hne (List.length_eq_zero_iff.mp (hfull.trans (hrefused hr)))
  have hrest : (s.accept p buffer rest k).refused = s.refused - 1 := if_neg (not_not.mpr hfull)
  refine ⟨h.buffers.answered hflight hans rfl rfl rfl rfl (by omega) (.inr ⟨rfl, rfl⟩),
    fun hl => ?_, h.complete⟩
  have he := h.exact hl
  have hsent : (s.accept p buffer rest k).sent = s.sent := by
    change s.accepted ++ buffer.take k ++ rest.flatten = s.sent
    rw [State.sent, hflight, List.flatten_cons, ← hfull, List.take_length, List.append_assoc]
  refine ⟨?_, he.accepted_take hflight hrefused, fun _ => ?_,
    fun read hread _ hwhole => ?_, fun read hread _ => ?_⟩
  · rw [hsent]
    exact he.position
  · rw [hsent]
    exact he.sent hz
  · rw [hsent]
    exact he.read read hread hz hwhole
  · rw [hsent]
    exact he.write read hread hz

theorem answer_inv (h : Inv p s) (hok : InTime p s (.answer k))
    (hs : s.answer p k = some s') : Inv p s' := by
  unfold State.answer at hs
  split at hs
  · cases hs
  rename_i buffer rest hflight
  split_ifs at hs with hcan hpart
  · obtain ⟨hans, hle, hzero⟩ := hcan
    cases hs
    exact answer_part_inv h hok hflight hans hle (fun hr => hzero (.inl hr)) hpart
  · obtain ⟨hans, hle, hzero⟩ := hcan
    cases hs
    exact answer_whole_inv h hflight hans hle (fun hr => hzero (.inl hr)) (not_not.mp hpart)

end Answers

theorem answerError_inv {ec : ErrorCode} (h : Inv p s) (hs : s.answerError ec = some s') :
    Inv p s' := by
  unfold State.answerError at hs
  split at hs
  · cases hs
  · rename_i buffer rest hflight
    split_ifs at hs with hcan
    cases hs
    have hcount := h.buffers.count
    rw [hflight, hcan.1, List.length_cons] at hcount
    have hle := h.buffers.refused_le
    rw [hflight, List.length_cons] at hle
    have hne := h.buffers.nonempty
    rw [hflight] at hne
    refine ⟨⟨?_, ?_, fun hmem => hne (.tail _ hmem), h.buffers.eof_end, ?_⟩,
      fun hl => absurd hl.1 (Bool.noConfusion), h.complete⟩
    · change s.pool + rest.length + 1 + s.locked.toNat = 2
      simp only [Option.toList_none, List.length_nil] at hcount
      omega
    · change s.refused - 1 ≤ rest.length
      omega
    · exact h.buffers.stands.mono (Nat.le_refl _) fun hpool => ⟨hpool, rfl⟩

theorem writeComplete_inv (h : Inv p s) (hs : s.writeComplete p = some s') : Inv p s' := by
  unfold State.writeComplete at hs
  split at hs
  · cases hs
  · rename_i ec rewindLength hans
    split_ifs at hs with hfree
    cases hs
    have hcount := h.buffers.count
    rw [hans] at hcount
    simp only [Option.toList_some, List.length_singleton] at hcount
    refine ⟨h.buffers.keep ⟨rfl, rfl, rfl, rfl⟩ ?_ ?_, fun hl => ?_, h.complete⟩
    · change s.pool + 1 + s.inFlight.length + 0 + s.locked.toNat = 2
      omega
    · exact h.buffers.stands.mono (Nat.le_succ _) fun hpool => by omega
    · have he := h.exact hl
      exact ⟨he.position, he.accepted, he.sent, he.read, he.write⟩

theorem onReadyForWrite_inv (h : Inv p s) (hs : s.onReadyForWrite p = some s') : Inv p s' := by
  unfold State.onReadyForWrite at hs
  split_ifs at hs
  cases hs
  refine ⟨h.buffers.keep ⟨rfl, rfl, rfl, rfl⟩ h.buffers.count ?_, fun hl => ?_, h.complete⟩
  · exact h.buffers.stands.mono (Nat.le_refl _) fun hpool => ⟨hpool, rfl⟩
  · have he := h.exact hl
    exact ⟨he.position, he.accepted, he.sent, he.read, he.write⟩

theorem step_inv (e : Step) (hok : InTime p s e) (hs : step p s e = some s') (h : Inv p s) :
    Inv p s' := by
  cases e with
  | player => exact advance_inv h hok hs
  | answer bytesWritten => exact answer_inv h hok hs
  | answerError ec => exact answerError_inv h hs
  | writeComplete => exact writeComplete_inv h hs
  | onReadyForWrite => exact onReadyForWrite_inv h hs

/-! ## Lossless playback -/

/-- When no write is cut short before the samples that follow it are written or after the end of
the file was noticed, every repetition that is reported has been played to its end. -/
theorem played_without_loss (p : Recording)
    (h : Runs.Reachable (step p) (InTime p) initial s) :
    ∀ r ∈ s.reports, r.errored = false → r.accepted = p.content.drop r.start :=
  (h.invariant (initial_inv p) fun _ e _ hok hs hinv => step_inv e hok hs hinv).complete

/-- Three samples, and buffers for two. -/
def threeSamples (isCompressed : Bool) : Recording where
  content := [1, 2, 3]
  bufferSize := 2
  bufferSize_pos := by decide
  isCompressed := isCompressed
  contentOffset := 0

/-- Both buffers are accepted whole. -/
theorem played_without_loss_three : ∃ s : State, s.reports = [⟨0, [1, 2, 3], false⟩] ∧
    ∀ r ∈ s.reports, r.errored = false → r.accepted = [1, 2, 3].drop r.start := by
  obtain ⟨s, hs, hreports⟩ := Runs.exists_reachable_of_run (step (threeSamples false))
    (InTime (threeSamples false)) initial (fun s => s.reports) [⟨0, [1, 2, 3], false⟩]
    [.player, .player, .player, .player, .answer 2, .player, .player, .player, .player,
      .writeComplete, .answer 1, .writeComplete, .player, .player]
    (by decide)
  exact ⟨s, hreports, played_without_loss (threeSamples false) hs⟩

/-- The last buffer of PCM samples is refused after the end of the file was noticed: the position
goes back, and the file is reported as played. -/
theorem played_with_loss : ∃ s, Runs.Reachable (step (threeSamples false)) Runs.anyStep initial s ∧
    ¬ ∀ r ∈ s.reports, r.errored = false →
      r.accepted = (threeSamples false).content.drop r.start := by
  obtain ⟨s, hs, hreports⟩ := Runs.exists_reachable_of_run (step (threeSamples false))
    Runs.anyStep initial (fun s => s.reports) [⟨0, [1, 2], false⟩]
    [.player, .player, .player, .player, .player, .player, .player, .player, .answer 2,
      .writeComplete, .answer 0, .writeComplete, .player, .player]
    (by decide)
  refine ⟨s, hs, fun hall => ?_⟩
  rw [hreports] at hall
  exact absurd (hall ⟨0, [1, 2], false⟩ List.mem_cons_self rfl) (by decide)

end Samples

end Player

end SatComm
