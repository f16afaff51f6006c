import SatComm.Runs.Halting
import SatComm.GeoNet.LifeTime
import SatComm.GeoNet.Queues

/-!
# Flushing the forwarding queues

`FlushQueueSync` runs three loops over the queues that `Qid` and `addr` select. A packet whose
lifetime has elapsed is dropped, the others go to their transmit callback. The loop over the
broadcast queue takes every packet out before it looks at it. The other two loops only take out
packets that are dropped, so they do not end while a packet is left that is not.
-/

namespace SatComm.GeoNet

open Runs

variable {κ : Type}

/-! ## The code -/

/-- A call of the transmit callback. -/
structure Transmission (κ : Type) where
  txcb : κ
  buffer : List UInt8
  len : Nat
deriving DecidableEq, Repr

/-- The octet that `FlushQueueSync` reads as `bh.lt`: the third of the buffer. -/
def ltRead (e : Qelement (Option κ)) : UInt8 := e.buffer.getD 2 0

/-- `(TsNow - e->Ts) > DecodeLifeTime(h->bh.lt)`, on 32-bit unsigned numbers. -/
def elapsed (tsNow : Int) (e : Qelement (Option κ)) : Bool :=
  decodeLifeTime (ltRead e) < ((tsNow - e.ts) % 2 ^ 32).toNat

/-- `if (e->txcb_) e->txcb_(e->Buffer, e->BufLen)`, with a length of 16 bits. -/
def transmit (e : Qelement (Option κ)) : List (Transmission κ) :=
  match e.txcb with
  | none => []
  | some txcb => [⟨txcb, e.buffer, e.buffer.length % 2 ^ 16⟩]

/-- The arguments of `FlushQueueSync`, and the clock. A null `addr` is `none`. -/
structure FlushCall where
  qid : BitVec 32
  addr : Option Mid
  purge : Bool
  tsNow : Int
deriving DecidableEq, Repr

/-- Where `FlushQueueSync` is. -/
inductive FlushLoop
  | uc
  | ls
  | bc
  | returned
deriving DecidableEq, Repr

structure FlushState (κ : Type) where
  loop : FlushLoop
  queues : Queues (Option κ)
  sent : List (Transmission κ)

variable (c : FlushCall)

/-- A round of the loop over the unicast queue of `addr`. -/
def ucRound (s : FlushState κ) : FlushState κ :=
  if c.qid &&& ucQ = 0 then { s with loop := .ls }
  else
    match c.addr with
    | none => { s with loop := .returned }
    | some addr =>
      match s.queues.ucMapQueue addr with
      | none => { s with loop := .ls }
      | some [] => { s with loop := .ls }
      | some (e :: q) =>
        if elapsed c.tsNow e then
          { s with
            queues :=
              { s.queues with
                ucMapQueue := Function.update s.queues.ucMapQueue addr (some q) } }
        -- the packet stays at the front
        else { s with sent := s.sent ++ transmit e }

/-- A round of the loop over the location service queue of `addr`. -/
def lsRound (s : FlushState κ) : FlushState κ :=
  if c.qid &&& lsQ = 0 then { s with loop := .bc }
  else
    match c.addr with
    | none => { s with loop := .returned }
    | some addr =>
      match s.queues.lsMapQueue addr with
      | none => { s with loop := .bc }
      | some [] => { s with loop := .bc }
      | some (e :: q) =>
        if c.purge || elapsed c.tsNow e then
          { s with
            queues :=
              { s.queues with
                lsMapQueue := Function.update s.queues.lsMapQueue addr (some q) } }
        else { s with sent := s.sent ++ transmit e }

/-- A round of the loop over the broadcast queue. -/
def bcRound (s : FlushState κ) : FlushState κ :=
  if c.qid &&& bcQ = 0 then { s with loop := .returned }
  else
    match s.queues.bcQueue with
    | [] => { s with loop := .returned }
    | e :: q =>
      { s with
        queues := { s.queues with bcQueue := q }
        sent := s.sent ++ if elapsed c.tsNow e then [] else transmit e }

/-- `GeoNetRouterImpl::FlushQueueSync`, round by round. -/
def flushQueueSync (s : FlushState κ) : Option (FlushState κ) :=
  match s.loop with
  | .uc => some (ucRound c s)
  | .ls => some (lsRound c s)
  | .bc => some (bcRound c s)
  | .returned => none

/-- The call starts with nothing sent. -/
def flushStart (Q : Queues (Option κ)) : FlushState κ := ⟨.uc, Q, []⟩

/-! ## What a flush is for -/

def FlushCall.ucStores : List Store :=
  if c.qid &&& ucQ = 0 then [] else (c.addr.map Store.uc).toList

def FlushCall.lsStores : List Store :=
  if c.qid &&& lsQ = 0 then [] else (c.addr.map Store.ls).toList

def FlushCall.bcStores : List Store := if c.qid &&& bcQ = 0 then [] else [.bc]

/-- The queues that the arguments select, in the order of the loops. -/
def FlushCall.stores : List Store := c.ucStores ++ c.lsStores ++ c.bcStores

/-- A queue for an address is only selected together with an address. -/
def FlushCall.Addressed : Prop := c.addr = none → c.qid &&& ucQ = 0 ∧ c.qid &&& lsQ = 0

/-- The lifetime has elapsed, or the packet waits for the location service and is purged. -/
def dropped (s : Store) (e : Qelement (Option κ)) : Bool :=
  match s with
  | .ls _ => c.purge || elapsed c.tsNow e
  | .uc _ => elapsed c.tsNow e
  | .bc => elapsed c.tsNow e

/-- The calls of the callbacks for a queue: one for each packet that is not dropped. -/
def delivered (s : Store) (q : List (Qelement (Option κ))) : List (Transmission κ) :=
  (q.filter fun e => !dropped c s e).flatMap transmit

/-- The queue of a store as the maps have it. -/
def Queues.entry (Q : Queues (Option κ)) : Store → Option (List (Qelement (Option κ)))
  | .ls addr => Q.lsMapQueue addr
  | .uc addr => Q.ucMapQueue addr
  | .bc => some Q.bcQueue

/-- The selected queues are empty, their packets have been sent or dropped, and the other queues
are as they were. -/
structure Flushed (Q : Queues (Option κ)) (s : FlushState κ) : Prop where
  empties : ∀ st ∈ c.stores, s.queues.content st = []
  sent : s.sent = c.stores.flatMap fun st => delivered c st (Q.content st)
  keeps : ∀ st, st ∉ c.stores → s.queues.entry st = Q.entry st

/-- Every packet of a selected unicast or location service queue is dropped; and where a queue for
an address is selected without one, there is no broadcast packet to flush. -/
structure Flushable (Q : Queues (Option κ)) : Prop where
  keyed : ∀ st ∈ c.ucStores ++ c.lsStores, ∀ e ∈ Q.content st, dropped c st e = true
  broadcast : c.Addressed ∨ ∀ st ∈ c.bcStores, Q.content st = []

/-! ## Emptying queues -/

def Queues.put (Q : Queues (Option κ)) (st : Store) (q : List (Qelement (Option κ))) :
    Queues (Option κ) :=
  match st with
  | .ls addr => { Q with lsMapQueue := Function.update Q.lsMapQueue addr (some q) }
  | .uc addr => { Q with ucMapQueue := Function.update Q.ucMapQueue addr (some q) }
  | .bc => { Q with bcQueue := q }

/-- A queue that is there is emptied. -/
def Queues.cleared (Q : Queues (Option κ)) (st : Store) : Queues (Option κ) :=
  if Q.entry st = none then Q else Q.put st []

section queues

variable {Q : Queues (Option κ)} {st st' : Store} {q q' : List (Qelement (Option κ))}

theorem content_eq_entry (Q : Queues (Option κ)) (st : Store) :
    Q.content st = (Q.entry st).getD [] := by
  cases st <;> rfl

@[simp] theorem entry_put_self : (Q.put st q).entry st = some q := by
  cases st <;> simp [Queues.put, Queues.entry]

theorem entry_put_of_ne (h : st' ≠ st) : (Q.put st q).entry st' = Q.entry st' := by
  cases st with
  | ls addr =>
    cases st' with
    | ls addr' => exact Function.update_of_ne (fun heq => h (congrArg Store.ls heq)) _ _
    | uc addr' => rfl
    | bc => rfl
  | uc addr =>
    cases st' with
    | ls addr' => rfl
    | uc addr' => exact Function.update_of_ne (fun heq => h (congrArg Store.uc heq)) _ _
    | bc => rfl
  | bc =>
    cases st' with
    | ls addr' => rfl
    | uc addr' => rfl
    | bc => exact absurd rfl h

@[simp] theorem put_put : (Q.put st q).put st q' = Q.put st q' := by
  cases st <;> simp [Queues.put]

theorem put_of_entry (h : Q.entry st = some q) : Q.put st q = Q := by
  cases st with
  | ls addr =>
    rw [Queues.put, ← show Q.lsMapQueue addr = some q from h, Function.update_eq_self]
  | uc addr =>
    rw [Queues.put, ← show Q.ucMapQueue addr = some q from h, Function.update_eq_self]
  | bc => rw [Queues.put, ← show Q.bcQueue = q from Option.some.inj h]

theorem cleared_of_content (h : Q.content st = []) : Q.cleared st = Q := by
  unfold Queues.cleared
  cases he : Q.entry st with
  | none => simp
  | some q =>
    rw [content_eq_entry, he, Option.getD_some] at h
    rw [if_neg (Option.some_ne_none q), put_of_entry (he.trans (congrArg some h))]

theorem entry_cleared_of_ne (h : st' ≠ st) : (Q.cleared st).entry st' = Q.entry st' := by
  unfold Queues.cleared
  split
  · rfl
  · exact entry_put_of_ne h

theorem content_cleared (Q : Queues (Option κ)) (st : Store) : (Q.cleared st).content st = [] := by
  rw [content_eq_entry, Queues.cleared]
  split
  · rename_i h
    rw [h, Option.getD_none]
  · rw [entry_put_self, Option.getD_some]

theorem entry_foldl_cleared {stores : List Store} (h : st ∉ stores) :
    (stores.foldl Queues.cleared Q).entry st = Q.entry st := by
  induction stores using List.reverseRecOn with
  | nil => rfl
  | append_singleton stores last ih =>
    rw [List.mem_append, not_or, List.mem_singleton] at h
    rw [List.foldl_concat, entry_cleared_of_ne h.2, ih h.1]

theorem content_foldl_cleared {stores : List Store} (h : st ∈ stores) :
    (stores.foldl Queues.cleared Q).content st = [] := by
  induction stores using List.reverseRecOn with
  | nil => cases h
  | append_singleton stores last ih =>
    rw [List.foldl_concat]
    by_cases hlast : st = last
    · rw [hlast, content_cleared]
    · rw [content_eq_entry, entry_cleared_of_ne hlast, ← content_eq_entry]
      rw [List.mem_append, List.mem_singleton] at h
      exact ih (h.resolve_right hlast)

end queues

/-! ## The loops -/

variable {c} {Q : Queues (Option κ)} {sent : List (Transmission κ)} {t : FlushState κ}

/-- The loop over the queue of an address ends where every packet is dropped, with the queue
empty. -/
theorem runsTo_keyed {st : Store} {here next : FlushLoop}
    (hempty : ∀ Q : Queues (Option κ), ∀ sent, Q.content st = [] →
      flushQueueSync c ⟨here, Q, sent⟩ = some ⟨next, Q, sent⟩)
    (hround : ∀ Q : Queues (Option κ), ∀ sent e q, Q.entry st = some (e :: q) →
      flushQueueSync c ⟨here, Q, sent⟩ =
        if dropped c st e then some ⟨here, Q.put st q, sent⟩
        else some ⟨here, Q, sent ++ transmit e⟩) :
    RunsTo (flushQueueSync c) ⟨here, Q, sent⟩ t ↔
      (∀ e ∈ Q.content st, dropped c st e = true) ∧
        RunsTo (flushQueueSync c) ⟨next, Q.cleared st, sent⟩ t := by
  cases he : Q.entry st with
  | none =>
    have hnil : Q.content st = [] := by rw [content_eq_entry, he, Option.getD_none]
    rw [runsTo_of_some (hempty Q sent hnil), cleared_of_content hnil, hnil]
    simp
  | some q =>
    have hcontent : Q.content st = q := by rw [content_eq_entry, he, Option.getD_some]
    let loop (q : List (Qelement (Option κ))) (sent : List (Transmission κ)) : FlushState κ :=
      ⟨here, Q.put st q, sent⟩
    have hdrain : RunsTo (flushQueueSync c) (loop q sent) t ↔
        (∀ e ∈ q, dropped c st e = true) ∧ RunsTo (flushQueueSync c) (loop [] sent) t := by
      refine runsTo_drain (fun e q sent he => ?_) (fun e q sent he => ⟨sent ++ transmit e, ?_⟩) q sent
      · rw [hround _ _ e q entry_put_self, if_pos he, put_put]
      · rw [hround _ _ e q entry_put_self, if_neg he]
    have hleave := hempty (Q.put st []) sent (by rw [content_eq_entry, entry_put_self]; rfl)
    have hcleared : Q.cleared st = Q.put st [] := by
      rw [Queues.cleared, he, if_neg (Option.some_ne_none q)]
    rw [runsTo_of_some hleave, ← hcleared] at hdrain
    rw [hcontent, ← hdrain]
    simp only [loop, put_of_entry he]

theorem runsTo_uc {addr : Mid} (hq : c.qid &&& ucQ ≠ 0) (ha : c.addr = some addr) :
    RunsTo (flushQueueSync c) ⟨.uc, Q, sent⟩ t ↔
      (∀ e ∈ Q.content (.uc addr), dropped c (.uc addr) e = true) ∧
        RunsTo (flushQueueSync c) ⟨.ls, Q.cleared (.uc addr), sent⟩ t := by
  refine runsTo_keyed (fun Q sent h => ?_) (fun Q sent e q he => ?_)
  · rw [flushQueueSync, ucRound, if_neg hq, ha]
    cases hm : Q.ucMapQueue addr with
    | none => simp only [hm]
    | some q =>
      have hnil : q = [] := by simpa [Queues.content, hm] using h
      simp only [hm, hnil]
  · have hm : Q.ucMapQueue addr = some (e :: q) := he
    rw [flushQueueSync, ucRound, if_neg hq, ha]
    have hdropped : dropped c (.uc addr) e = elapsed c.tsNow e := rfl
    rw [hdropped]
    simp only [hm]
    cases elapsed c.tsNow e <;> rfl

theorem runsTo_ls {addr : Mid} (hq : c.qid &&& lsQ ≠ 0) (ha : c.addr = some addr) :
    RunsTo (flushQueueSync c) ⟨.ls, Q, sent⟩ t ↔
      (∀ e ∈ Q.content (.ls addr), dropped c (.ls addr) e = true) ∧
        RunsTo (flushQueueSync c) ⟨.bc, Q.cleared (.ls addr), sent⟩ t := by
  refine runsTo_keyed (fun Q sent h => ?_) (fun Q sent e q he => ?_)
  · rw [flushQueueSync, lsRound, if_neg hq, ha]
    cases hm : Q.lsMapQueue addr with
    | none => simp only [hm]
    | some q =>
      have hnil : q = [] := by simpa [Queues.content, hm] using h
      simp only [hm, hnil]
  · have hm : Q.lsMapQueue addr = some (e :: q) := he
    rw [flushQueueSync, lsRound, if_neg hq, ha]
    have hdropped : dropped c (.ls addr) e = (c.purge || elapsed c.tsNow e) := rfl
    rw [hdropped]
    simp only [hm]
    cases c.purge || elapsed c.tsNow e <;> rfl

/-- The loop over the broadcast queue always ends: it takes a packet out in every round. -/
theorem runsTo_bc (hq : c.qid &&& bcQ ≠ 0) :
    RunsTo (flushQueueSync c) ⟨.bc, Q, sent⟩ t ↔
      t = ⟨.returned, Q.cleared .bc, sent ++ delivered c .bc (Q.content .bc)⟩ := by
  obtain ⟨ls, uc, q⟩ := Q
  induction q generalizing sent with
  | nil =>
    have hstep : flushQueueSync c ⟨.bc, ⟨ls, uc, []⟩, sent⟩ =
        some ⟨.returned, ⟨ls, uc, []⟩, sent⟩ := by
      rw [flushQueueSync, bcRound, if_neg hq]
    have hcleared : Queues.cleared ⟨ls, uc, []⟩ .bc = (⟨ls, uc, []⟩ : Queues (Option κ)) :=
      cleared_of_content rfl
    rw [runsTo_of_some hstep, runsTo_of_none (by rfl), hcleared]
    simp [delivered, Queues.content]
  | cons e q ih =>
    have hstep : flushQueueSync c ⟨.bc, ⟨ls, uc, e :: q⟩, sent⟩ =
        some ⟨.bc, ⟨ls, uc, q⟩, sent ++ if elapsed c.tsNow e then [] else transmit e⟩ := by
      rw [flushQueueSync, bcRound, if_neg hq]
    have hdelivered : delivered c .bc (e :: q) =
        (if elapsed c.tsNow e then [] else transmit e) ++ delivered c .bc q := by
      by_cases he : elapsed c.tsNow e = true <;> simp [delivered, dropped, he]
    rw [runsTo_of_some hstep, ih]
    simp only [Queues.content, hdelivered, List.append_assoc]
    rfl

/-! ## The whole call -/

theorem runsTo_ucStores (hargs : c.Addressed) :
    RunsTo (flushQueueSync c) ⟨.uc, Q, sent⟩ t ↔
      (∀ st ∈ c.ucStores, ∀ e ∈ Q.content st, dropped c st e = true) ∧
        RunsTo (flushQueueSync c) ⟨.ls, c.ucStores.foldl Queues.cleared Q, sent⟩ t := by
  by_cases hq : c.qid &&& ucQ = 0
  · have hstep : flushQueueSync c ⟨.uc, Q, sent⟩ = some ⟨.ls, Q, sent⟩ := by
      rw [flushQueueSync, ucRound, if_pos hq]
    rw [runsTo_of_some hstep, FlushCall.ucStores, if_pos hq]
    simp
  · cases ha : c.addr with
    | none => exact absurd (hargs ha).1 hq
    | some addr =>
      rw [runsTo_uc hq ha, FlushCall.ucStores, if_neg hq, ha]
      simp

theorem runsTo_lsStores (hargs : c.Addressed) :
    RunsTo (flushQueueSync c) ⟨.ls, Q, sent⟩ t ↔
      (∀ st ∈ c.lsStores, ∀ e ∈ Q.content st, dropped c st e = true) ∧
        RunsTo (flushQueueSync c) ⟨.bc, c.lsStores.foldl Queues.cleared Q, sent⟩ t := by
  by_cases hq : c.qid &&& lsQ = 0
  · have hstep : flushQueueSync c ⟨.ls, Q, sent⟩ = some ⟨.bc, Q, sent⟩ := by
      rw [flushQueueSync, lsRound, if_pos hq]
    rw [runsTo_of_some hstep, FlushCall.lsStores, if_pos hq]
    simp
  · cases ha : c.addr with
    | none => exact absurd (hargs ha).2 hq
    | some addr =>
      rw [runsTo_ls hq ha, FlushCall.lsStores, if_neg hq, ha]
      simp

theorem runsTo_bcStores :
    RunsTo (flushQueueSync c) ⟨.bc, Q, sent⟩ t ↔
      t = ⟨.returned, c.bcStores.foldl Queues.cleared Q,
        sent ++ c.bcStores.flatMap fun st => delivered c st (Q.content st)⟩ := by
  by_cases hq : c.qid &&& bcQ = 0
  · have hstep : flushQueueSync c ⟨.bc, Q, sent⟩ = some ⟨.returned, Q, sent⟩ := by
      rw [flushQueueSync, bcRound, if_pos hq]
    rw [runsTo_of_some hstep, runsTo_of_none (by rfl), FlushCall.bcStores, if_pos hq]
    simp
  · rw [runsTo_bc hq, FlushCall.bcStores, if_neg hq]
    simp

theorem mem_ucStores {st : Store} (h : st ∈ c.ucStores) : ∃ addr, st = .uc addr := by
  unfold FlushCall.ucStores at h
  split at h
  · cases h
  · obtain ⟨addr, -, rfl⟩ := by simpa using h
    exact ⟨addr, rfl⟩

theorem mem_lsStores {st : Store} (h : st ∈ c.lsStores) : ∃ addr, st = .ls addr := by
  unfold FlushCall.lsStores at h
  split at h
  · cases h
  · obtain ⟨addr, -, rfl⟩ := by simpa using h
    exact ⟨addr, rfl⟩

theorem mem_bcStores {st : Store} (h : st ∈ c.bcStores) : st = .bc := by
  unfold FlushCall.bcStores at h
  split at h
  · cases h
  · simpa using h

theorem content_foldl_cleared_of_not_mem {stores : List Store} {st : Store} (h : st ∉ stores) :
    (stores.foldl Queues.cleared Q).content st = Q.content st := by
  rw [content_eq_entry, entry_foldl_cleared h, ← content_eq_entry]

/-- With an address where one is needed, the call halts where the queues of the address have only
packets that are dropped. -/
theorem runsTo_flushStart (hargs : c.Addressed) :
    RunsTo (flushQueueSync c) (flushStart Q) t ↔
      (∀ st ∈ c.ucStores ++ c.lsStores, ∀ e ∈ Q.content st, dropped c st e = true) ∧
        t = ⟨.returned, c.stores.foldl Queues.cleared Q,
          c.bcStores.flatMap fun st => delivered c st (Q.content st)⟩ := by
  have hls : ∀ st ∈ c.lsStores, (c.ucStores.foldl Queues.cleared Q).content st = Q.content st := by
    intro st hst
    apply content_foldl_cleared_of_not_mem
    intro huc
    obtain ⟨_, rfl⟩ := mem_lsStores hst
    obtain ⟨_, heq⟩ := mem_ucStores huc
    cases heq
  have hbc : ∀ st ∈ c.bcStores,
      (c.lsStores.foldl Queues.cleared (c.ucStores.foldl Queues.cleared Q)).content st =
        Q.content st := by
    intro st hst
    rw [← List.foldl_append]
    apply content_foldl_cleared_of_not_mem
    intro hkeyed
    obtain rfl := mem_bcStores hst
    rcases List.mem_append.mp hkeyed with huc | hls
    · obtain ⟨_, heq⟩ := mem_ucStores huc
      cases heq
    · obtain ⟨_, heq⟩ := mem_lsStores hls
      cases heq
  have hsent : (c.bcStores.flatMap fun st => delivered c st
        ((c.lsStores.foldl Queues.cleared (c.ucStores.foldl Queues.cleared Q)).content st)) =
      c.bcStores.flatMap fun st => delivered c st (Q.content st) :=
    List.flatMap_congr fun st hst => by rw [hbc st hst]
  have hkeyed : (∀ st ∈ c.lsStores, ∀ e ∈ (c.ucStores.foldl Queues.cleared Q).content st,
        dropped c st e = true) ↔
      ∀ st ∈ c.lsStores, ∀ e ∈ Q.content st, dropped c st e = true :=
    forall₂_congr fun st hst => by rw [hls st hst]
  rw [flushStart, runsTo_ucStores hargs, runsTo_lsStores hargs, runsTo_bcStores, hsent, hkeyed,
    List.forall_mem_append, and_assoc, FlushCall.stores, List.foldl_append, List.foldl_append,
    List.nil_append]

/-- Without it, the call returns at once. -/
theorem runsTo_flushStart_of_not_addressed (hargs : ¬ c.Addressed) :
    RunsTo (flushQueueSync c) (flushStart Q) t ↔ t = ⟨.returned, Q, []⟩ := by
  obtain ⟨ha, hq⟩ := Classical.not_imp.mp hargs
  by_cases huc : c.qid &&& ucQ = 0
  · have hls : c.qid &&& lsQ ≠ 0 := fun hls => hq ⟨huc, hls⟩
    have hfirst : flushQueueSync c (flushStart Q) = some ⟨.ls, Q, []⟩ := by
      rw [flushQueueSync, flushStart, ucRound, if_pos huc]
    have hsecond : flushQueueSync c ⟨.ls, Q, []⟩ = some ⟨.returned, Q, []⟩ := by
      rw [flushQueueSync, lsRound, if_neg hls, ha]
    rw [runsTo_of_some hfirst, runsTo_of_some hsecond, runsTo_of_none (by rfl)]
  · have hfirst : flushQueueSync c (flushStart Q) = some ⟨.returned, Q, []⟩ := by
      rw [flushQueueSync, flushStart, ucRound, if_neg huc, ha]
    rw [runsTo_of_some hfirst, runsTo_of_none (by rfl)]

theorem delivered_eq_nil {st : Store} {q : List (Qelement (Option κ))}
    (h : ∀ e ∈ q, dropped c st e = true) : delivered c st q = [] := by
  have hnone : q.filter (fun e => !dropped c st e) = [] :=
    List.filter_eq_nil_iff.mpr fun e he => by simp [h e he]
  rw [delivered, hnone, List.flatMap_nil]

/-- `FlushQueueSync` returns, with the selected queues flushed, exactly for arguments and queues
that `Flushable` admits. -/
theorem flushQueueSync_flushes_iff (c : FlushCall) (Q : Queues (Option κ)) :
    (∃ s, RunsTo (flushQueueSync c) (flushStart Q) s ∧ Flushed c Q s) ↔ Flushable c Q := by
  by_cases hargs : c.Addressed
  · constructor
    · rintro ⟨s, hrun, -⟩
      exact ⟨((runsTo_flushStart hargs).mp hrun).1, .inl hargs⟩
    · rintro ⟨hkeyed, -⟩
      refine ⟨_, (runsTo_flushStart hargs).mpr ⟨hkeyed, rfl⟩, ?_, ?_, ?_⟩
      · exact fun st hst => content_foldl_cleared hst
      · have hnone : (c.ucStores ++ c.lsStores).flatMap
            (fun st => delivered c st (Q.content st)) = [] :=
          List.flatMap_eq_nil_iff.mpr fun st hst => delivered_eq_nil (hkeyed st hst)
        rw [FlushCall.stores, List.flatMap_append, hnone, List.nil_append]
      · exact fun st hst => entry_foldl_cleared hst
  · have hnone : c.addr = none := (Classical.not_imp.mp hargs).1
    have hstores : c.ucStores ++ c.lsStores = [] := by
      simp [FlushCall.ucStores, FlushCall.lsStores, hnone]
    simp only [runsTo_flushStart_of_not_addressed hargs, exists_eq_left]
    constructor
    · intro h
      refine ⟨?_, .inr fun st hst => h.empties st (List.mem_append_right _ hst)⟩
      rw [hstores]
      simp
    · rintro ⟨-, hbc⟩
      have hempty : ∀ st ∈ c.stores, Q.content st = [] := by
        rw [FlushCall.stores, hstores]
        exact hbc.resolve_left hargs
      refine ⟨hempty, ?_, fun _ _ => rfl⟩
      symm
      refine List.flatMap_eq_nil_iff.mpr fun st hst => delivered_eq_nil ?_
      rw [hempty st hst]
      exact fun e he => absurd he List.not_mem_nil

/-- A unicast packet of the first address that has just come in, with a lifetime of 600 ms. -/
def freshUnicast : Queues (Option Unit) :=
  { (Queues.empty : Queues (Option Unit)) with
    ucMapQueue := Function.update (fun _ => none) 0 (some [⟨[3, 1, 48, 1], some (), 0⟩]) }

/-- Its callback is called again and again. -/
theorem not_flushes_fresh_unicast :
    ¬ ∃ s, RunsTo (flushQueueSync ⟨ucQ, some 0, false, 10⟩) (flushStart freshUnicast) s ∧
      Flushed ⟨ucQ, some 0, false, 10⟩ freshUnicast s := by
  rintro ⟨s, hrun, -⟩
  have hargs : FlushCall.Addressed ⟨ucQ, some 0, false, 10⟩ := by
    intro h
    cases h
  have hdrop := ((runsTo_flushStart hargs).mp hrun).1 (.uc 0) (by decide)
    ⟨[3, 1, 48, 1], some (), 0⟩ (by decide)
  revert hdrop
  decide

end SatComm.GeoNet
