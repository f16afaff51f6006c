import SatComm.GeoNet.LocationTable

/-!
# The forwarding queues

`GeoNetRouterImpl::Enqueue` keeps packets that cannot be sent yet: one queue for each address in
`LsMapQueue_` (location service) and in `UcMapQueue_` (unicast), and one queue `BcQueue_` for
broadcast packets. `Qid` is tested bit by bit, so a packet goes to one of the three.

What the queues are for: each store remembers the last packets that were enqueued for it
(`KeepsLast`). With keys by value this is so exactly for calls that `Fits` admits: the location
service branch creates its queue in the unicast map, and a capacity that is not positive is never
met.
-/

namespace SatComm.GeoNet

/-- A queued packet: its own copy of the buffer, the transmit callback, the time of arrival. -/
structure Qelement (χ : Type) where
  buffer : List UInt8
  txcb : χ
  ts : Int
deriving DecidableEq, Repr

/-- The arguments of `Enqueue`, and the clock. A null `addr` is `none`. -/
structure EnqueueCall (χ : Type) where
  qid : BitVec 32
  buffer : List UInt8
  txcb : χ
  addr : Option Mid
  ts : Int
deriving DecidableEq, Repr

/-- The part of `GnConfig_t` that sizes the queues; both are `int`. -/
structure BufferSizes where
  itsGnUcForwardingPacketBufferSize : BitVec 32
  itsGnBcForwardingPacketBufferSize : BitVec 32
deriving DecidableEq, Repr

structure Queues (χ : Type) where
  lsMapQueue : Mid → Option (List (Qelement χ))
  ucMapQueue : Mid → Option (List (Qelement χ))
  bcQueue : List (Qelement χ)

def lsQ : BitVec 32 := 1

def ucQ : BitVec 32 := 1 <<< 2

def bcQ : BitVec 32 := 1 <<< 3

variable {χ : Type}

namespace Queues

def empty : Queues χ := ⟨fun _ => none, fun _ => none, []⟩

/-- `std::map::insert`: an address that is there already keeps its queue. -/
def insert (m : Mid → Option (List (Qelement χ))) (addr : Mid) (q : List (Qelement χ)) :
    Mid → Option (List (Qelement χ)) :=
  if (m addr).isSome then m else Function.update m addr (some q)

/-- The append path. `size()` is compared with an `int` that is converted to `size_t`. -/
def append (size : BitVec 32) (q : List (Qelement χ)) (e : Qelement χ) : List (Qelement χ) :=
  (if q.length = (size.signExtend 64).toNat then q.tail else q) ++ [e]

end Queues

def EnqueueCall.element (c : EnqueueCall χ) : Qelement χ := ⟨c.buffer, c.txcb, c.ts⟩

open Queues in
/-- `GeoNetRouterImpl::Enqueue`. -/
def enqueue (cfg : BufferSizes) (Q : Queues χ) (c : EnqueueCall χ) : Queues χ :=
  if c.qid &&& ucQ ≠ 0 then
    match c.addr with
    | none => Q
    | some addr =>
      match Q.ucMapQueue addr with
      | none => { Q with ucMapQueue := insert Q.ucMapQueue addr [c.element] }
      | some q =>
        { Q with
          ucMapQueue := Function.update Q.ucMapQueue addr
            (some (append cfg.itsGnUcForwardingPacketBufferSize q c.element)) }
  else if c.qid &&& lsQ ≠ 0 then
    match c.addr with
    | none => Q
    | some addr =>
      match Q.lsMapQueue addr with
      -- the new queue goes to the unicast map
      | none => { Q with ucMapQueue := insert Q.ucMapQueue addr [c.element] }
      | some q =>
        { Q with
          lsMapQueue := Function.update Q.lsMapQueue addr
            (some (append cfg.itsGnUcForwardingPacketBufferSize q c.element)) }
  else if c.qid &&& bcQ ≠ 0 then
    { Q with bcQueue := append cfg.itsGnBcForwardingPacketBufferSize Q.bcQueue c.element }
  else Q

/-! ## What the queues are for -/

/-- A queue of the router. -/
inductive Store
  | ls (addr : Mid)
  | uc (addr : Mid)
  | bc
deriving DecidableEq, Repr

/-- The queue a call names, if its arguments name one. -/
def EnqueueCall.store (c : EnqueueCall χ) : Option Store :=
  if c.qid &&& ucQ ≠ 0 then c.addr.map .uc
  else if c.qid &&& lsQ ≠ 0 then c.addr.map .ls
  else if c.qid &&& bcQ ≠ 0 then some .bc
  else none

def Queues.content (Q : Queues χ) : Store → List (Qelement χ)
  | .ls addr => (Q.lsMapQueue addr).getD []
  | .uc addr => (Q.ucMapQueue addr).getD []
  | .bc => Q.bcQueue

def BufferSizes.size (cfg : BufferSizes) : Store → BitVec 32
  | .ls _ => cfg.itsGnUcForwardingPacketBufferSize
  | .uc _ => cfg.itsGnUcForwardingPacketBufferSize
  | .bc => cfg.itsGnBcForwardingPacketBufferSize

/-- The configured capacity; a negative one leaves no room. -/
def BufferSizes.capacity (cfg : BufferSizes) (s : Store) : Nat := (cfg.size s).toInt.toNat

/-- The packets enqueued for a store, in order. -/
def sentTo (s : Store) (cs : List (EnqueueCall χ)) : List (Qelement χ) :=
  (cs.filter fun c => c.store = some s).map EnqueueCall.element

/-- Every store holds the last packets enqueued for it, as many as its capacity admits. -/
def KeepsLast (cfg : BufferSizes) (cs : List (EnqueueCall χ)) : Prop :=
  ∀ s, (cs.foldl (enqueue cfg) .empty).content s = (sentTo s cs).rtake (cfg.capacity s)

/-- The call names no queue, or the unicast or the broadcast queue with a positive capacity. -/
def Fits (cfg : BufferSizes) (c : EnqueueCall χ) : Prop :=
  match c.store with
  | none => True
  | some (.ls _) => False
  | some s => 0 < (cfg.size s).toInt

/-! ## One call -/

theorem toNat_signExtend_of_pos {size : BitVec 32} (h : 0 < size.toInt) :
    (size.signExtend 64).toNat = size.toInt.toNat := by
  have hmsb : size.msb = false := by
    by_contra hneg
    have := BitVec.toInt_neg_of_msb_true (by simpa using hneg)
    omega
  rw [BitVec.toInt_eq_toNat_of_msb hmsb, BitVec.signExtend_eq_setWidth_of_msb_false hmsb,
    BitVec.toNat_setWidth]
  have := size.isLt
  simp only [Int.toNat_natCast]
  omega

theorem append_rtake {size : BitVec 32} (h : 0 < size.toInt) (l : List (Qelement χ))
    (e : Qelement χ) :
    Queues.append size (l.rtake size.toInt.toNat) e = (l ++ [e]).rtake size.toInt.toNat := by
  obtain ⟨n, hn⟩ : ∃ n, size.toInt.toNat = n + 1 := ⟨size.toInt.toNat - 1, by omega⟩
  rw [Queues.append, toNat_signExtend_of_pos h, hn, List.rtake_concat_succ]
  congr 1
  simp only [List.rtake, List.length_drop, List.tail_drop]
  split
  · congr 1
    omega
  · rename_i hshort
    rw [show l.length - (n + 1) = 0 by omega, show l.length - n = 0 by omega]

theorem append_nil (size : BitVec 32) (e : Qelement χ) : Queues.append size [] e = [e] := by
  simp [Queues.append]

theorem append_ne_nil (size : BitVec 32) (q : List (Qelement χ)) (e : Qelement χ) :
    Queues.append size q e ≠ [] := by
  simp [Queues.append]

theorem sentTo_concat (s : Store) (cs : List (EnqueueCall χ)) (c : EnqueueCall χ) :
    sentTo s (cs ++ [c]) = sentTo s cs ++ if c.store = some s then [c.element] else [] := by
  by_cases h : c.store = some s <;> simp [sentTo, h]

theorem enqueue_of_none {c : EnqueueCall χ} (h : c.store = none) (cfg : BufferSizes)
    (Q : Queues χ) : enqueue cfg Q c = Q := by
  unfold EnqueueCall.store at h
  unfold enqueue
  split_ifs at h ⊢ with huc hls hbc
  · rw [Option.map_eq_none_iff.mp h]
  · rw [Option.map_eq_none_iff.mp h]
  · rfl

theorem enqueue_of_uc {c : EnqueueCall χ} {addr : Mid} (h : c.store = some (.uc addr))
    (cfg : BufferSizes) (Q : Queues χ) :
    enqueue cfg Q c =
      { Q with
        ucMapQueue := Function.update Q.ucMapQueue addr (some
          (Queues.append (cfg.size (.uc addr)) (Q.content (.uc addr)) c.element)) } := by
  unfold EnqueueCall.store at h
  unfold enqueue
  split_ifs at h ⊢ with huc hls hbc
  · obtain ⟨a, ha, heq⟩ := Option.map_eq_some_iff.mp h
    obtain rfl := Store.uc.inj heq
    cases hq : Q.ucMapQueue a with
    | none => simp [ha, hq, Queues.insert, Queues.content, append_nil]
    | some q => simp [ha, hq, Queues.content, BufferSizes.size]
  · simp at h
  · simp at h

/-- The create path of the location service branch fills the unicast map. -/
theorem enqueue_of_ls {c : EnqueueCall χ} {addr : Mid} (h : c.store = some (.ls addr))
    (cfg : BufferSizes) {Q : Queues χ} (hQ : Q.lsMapQueue addr = none) :
    enqueue cfg Q c =
      { Q with ucMapQueue := Queues.insert Q.ucMapQueue addr [c.element] } := by
  unfold EnqueueCall.store at h
  unfold enqueue
  split_ifs at h ⊢ with huc hls hbc
  · simp at h
  · obtain ⟨a, ha, heq⟩ := Option.map_eq_some_iff.mp h
    obtain rfl := Store.ls.inj heq
    simp [ha, hQ]
  · simp at h

theorem enqueue_of_bc {c : EnqueueCall χ} (h : c.store = some .bc) (cfg : BufferSizes)
    (Q : Queues χ) :
    enqueue cfg Q c =
      { Q with bcQueue := Queues.append (cfg.size .bc) (Q.content .bc) c.element } := by
  unfold EnqueueCall.store at h
  unfold enqueue
  split_ifs at h ⊢ with huc hls hbc
  · simp at h
  · simp at h
  · rfl

theorem content_enqueue_of_uc {c : EnqueueCall χ} {addr : Mid} (h : c.store = some (.uc addr))
    (cfg : BufferSizes) (Q : Queues χ) (s : Store) :
    (enqueue cfg Q c).content s =
      if s = .uc addr then Queues.append (cfg.size s) (Q.content s) c.element
      else Q.content s := by
  rw [enqueue_of_uc h]
  cases s with
  | ls b => simp [Queues.content]
  | bc => simp [Queues.content]
  | uc b =>
    by_cases hb : b = addr
    · subst hb
      simp [Queues.content]
    · simp [Queues.content, hb]

theorem content_enqueue_of_bc {c : EnqueueCall χ} (h : c.store = some .bc)
    (cfg : BufferSizes) (Q : Queues χ) (s : Store) :
    (enqueue cfg Q c).content s =
      if s = .bc then Queues.append (cfg.size s) (Q.content s) c.element else Q.content s := by
  rw [enqueue_of_bc h]
  cases s <;> simp [Queues.content]

/-- A call that fits adds its packet to the queue it names and to no other. -/
theorem content_enqueue {cfg : BufferSizes} {c : EnqueueCall χ} (h : Fits cfg c) (Q : Queues χ)
    (s : Store) :
    (enqueue cfg Q c).content s =
      if c.store = some s then Queues.append (cfg.size s) (Q.content s) c.element
      else Q.content s := by
  unfold Fits at h
  cases hs : c.store with
  | none => rw [enqueue_of_none hs]; simp
  | some t =>
    rw [hs] at h
    cases t with
    | ls addr => exact h.elim
    | uc addr => rw [content_enqueue_of_uc hs]; simp [eq_comm]
    | bc => rw [content_enqueue_of_bc hs]; simp [eq_comm]

theorem size_pos_of_fits {cfg : BufferSizes} {c : EnqueueCall χ} (h : Fits cfg c) {s : Store}
    (hs : c.store = some s) : 0 < (cfg.size s).toInt := by
  unfold Fits at h
  rw [hs] at h
  cases s with
  | ls addr => exact h.elim
  | uc addr => exact h
  | bc => exact h

theorem KeepsLast.concat {cfg : BufferSizes} {cs : List (EnqueueCall χ)} {c : EnqueueCall χ}
    (h : KeepsLast cfg cs) (hc : Fits cfg c) : KeepsLast cfg (cs ++ [c]) := by
  intro s
  rw [List.foldl_concat, content_enqueue hc, h s, sentTo_concat]
  by_cases hs : c.store = some s
  · rw [if_pos hs, if_pos hs]
    exact append_rtake (size_pos_of_fits hc hs) _ _
  · rw [if_neg hs, if_neg hs, List.append_nil]

/-! ## Calls that do not fit -/

/-- The location service map stays empty; the unicast map has no empty queues. -/
structure Filled (Q : Queues χ) : Prop where
  ls : ∀ addr, Q.lsMapQueue addr = none
  uc : ∀ addr q, Q.ucMapQueue addr = some q → q ≠ []

theorem ne_nil_of_update {m : Mid → Option (List (Qelement χ))} {a : Mid}
    {new : List (Qelement χ)} (hnew : new ≠ []) (hm : ∀ addr q, m addr = some q → q ≠ [])
    (addr : Mid) (q : List (Qelement χ)) (h : Function.update m a (some new) addr = some q) :
    q ≠ [] := by
  by_cases ha : addr = a
  · subst ha
    simp only [Function.update_self, Option.some.injEq] at h
    exact h ▸ hnew
  · rw [Function.update_of_ne ha] at h
    exact hm addr q h

theorem Filled.enqueue {Q : Queues χ} (h : Filled Q) (cfg : BufferSizes) (c : EnqueueCall χ) :
    Filled (GeoNet.enqueue cfg Q c) := by
  cases hs : c.store with
  | none => rwa [enqueue_of_none hs]
  | some t =>
    cases t with
    | bc => rw [enqueue_of_bc hs]; exact ⟨h.ls, h.uc⟩
    | uc a => rw [enqueue_of_uc hs]; exact ⟨h.ls, ne_nil_of_update (append_ne_nil _ _ _) h.uc⟩
    | ls a =>
      rw [enqueue_of_ls hs cfg (h.ls a)]
      refine ⟨h.ls, ?_⟩
      unfold Queues.insert
      split
      · exact h.uc
      · exact ne_nil_of_update (List.cons_ne_nil _ _) h.uc

theorem filled_foldl (cfg : BufferSizes) (cs : List (EnqueueCall χ)) :
    Filled (cs.foldl (enqueue cfg) .empty) := by
  induction cs using List.reverseRecOn with
  | nil => exact ⟨fun _ => rfl, fun _ _ h => nomatch h⟩
  | append_singleton cs c ih => rw [List.foldl_concat]; exact ih.enqueue cfg c

/-- No queue of the unicast map or of the broadcast queue is emptied by a call. -/
theorem content_enqueue_ne_nil {cfg : BufferSizes} {Q : Queues χ} {s : Store} (c : EnqueueCall χ)
    (hQ : Filled Q) (h : Q.content s ≠ []) : (enqueue cfg Q c).content s ≠ [] := by
  cases hs : c.store with
  | none => rwa [enqueue_of_none hs]
  | some t =>
    cases t with
    | uc a =>
      rw [content_enqueue_of_uc hs]
      split
      · exact append_ne_nil _ _ _
      · exact h
    | bc =>
      rw [content_enqueue_of_bc hs]
      split
      · exact append_ne_nil _ _ _
      · exact h
    | ls a =>
      rw [enqueue_of_ls hs cfg (hQ.ls a)]
      cases s with
      | ls b => exact h
      | bc => exact h
      | uc b =>
        simp only [Queues.content, Queues.insert] at h ⊢
        split
        · exact h
        · rename_i hnew
          by_cases hb : b = a
          · subst hb
            simp
          · rwa [Function.update_of_ne hb]

/-- Where the packets of a call end up: those for the location service in the unicast map. -/
def Store.actual : Store → Store
  | .ls addr => .uc addr
  | .uc addr => .uc addr
  | .bc => .bc

theorem content_enqueue_actual {cfg : BufferSizes} {Q : Queues χ} {c : EnqueueCall χ} {s : Store}
    (hQ : Filled Q) (hs : c.store = some s) : (enqueue cfg Q c).content s.actual ≠ [] := by
  cases s with
  | uc a =>
    rw [content_enqueue_of_uc hs, Store.actual, if_pos rfl]
    exact append_ne_nil _ _ _
  | bc =>
    rw [content_enqueue_of_bc hs, Store.actual, if_pos rfl]
    exact append_ne_nil _ _ _
  | ls a =>
    rw [enqueue_of_ls hs cfg (hQ.ls a)]
    simp only [Queues.content, Queues.insert, Store.actual]
    cases hq : Q.ucMapQueue a with
    | none => simp
    | some q => simpa [hq] using hQ.uc a q hq

theorem content_foldl_actual (cfg : BufferSizes) {cs : List (EnqueueCall χ)} {c : EnqueueCall χ}
    {s : Store} (hc : c ∈ cs) (hs : c.store = some s) :
    (cs.foldl (enqueue cfg) .empty).content s.actual ≠ [] := by
  induction cs using List.reverseRecOn with
  | nil => cases hc
  | append_singleton cs d ih =>
    rw [List.foldl_concat]
    rcases List.mem_append.mp hc with hold | hlast
    · exact content_enqueue_ne_nil d (filled_foldl cfg cs) (ih hold)
    · obtain rfl := List.mem_singleton.mp hlast
      exact content_enqueue_actual (filled_foldl cfg cs) hs

theorem sentTo_ne_nil {cs : List (EnqueueCall χ)} {c : EnqueueCall χ} {s : Store} (hc : c ∈ cs)
    (hs : c.store = some s) : sentTo s cs ≠ [] := by
  have hmem : c.element ∈ sentTo s cs :=
    List.mem_map_of_mem (List.mem_filter.mpr ⟨hc, by simpa using hs⟩)
  exact List.ne_nil_of_mem hmem

theorem capacity_pos_of_content {cfg : BufferSizes} {cs : List (EnqueueCall χ)} {s : Store}
    (h : KeepsLast cfg cs) (hne : (cs.foldl (enqueue cfg) .empty).content s ≠ []) :
    0 < cfg.capacity s := by
  by_contra hzero
  rw [h s, Nat.eq_zero_of_not_pos hzero, List.rtake_zero] at hne
  exact hne rfl

theorem KeepsLast.fits {cfg : BufferSizes} {cs : List (EnqueueCall χ)} (h : KeepsLast cfg cs)
    {c : EnqueueCall χ} (hc : c ∈ cs) : Fits cfg c := by
  unfold Fits
  split
  · trivial
  · rename_i addr hs
    -- the packet went to the unicast map; the location service map misses it
    have hpos : 0 < cfg.capacity (.uc addr) :=
      capacity_pos_of_content h (content_foldl_actual cfg hc hs)
    have hls := h (.ls addr)
    simp only [Queues.content, (filled_foldl cfg cs).ls, Option.getD_none] at hls
    have hlen := congrArg List.length hls
    have := List.length_pos_of_ne_nil (sentTo_ne_nil hc hs)
    have hsame : cfg.capacity (.ls addr) = cfg.capacity (.uc addr) := rfl
    simp only [List.rtake, List.length_nil, List.length_drop] at hlen
    omega
  · rename_i s hnot hs
    have hact : s.actual = s := by
      cases s with
      | ls addr => exact absurd rfl (hnot addr)
      | uc addr => rfl
      | bc => rfl
    have hpos := capacity_pos_of_content h (hact ▸ content_foldl_actual cfg hc hs)
    unfold BufferSizes.capacity at hpos
    omega

/-- The queues remember the last packets enqueued for them exactly when no call is for the
location service and the queues used have a positive capacity. -/
theorem keepsLast_iff_fits (cfg : BufferSizes) (cs : List (EnqueueCall χ)) :
    KeepsLast cfg cs ↔ ∀ c ∈ cs, Fits cfg c := by
  constructor
  · intro h c hc
    exact h.fits hc
  · induction cs using List.reverseRecOn with
    | nil =>
      intro _ s
      cases s <;> simp [Queues.content, Queues.empty, sentTo]
    | append_singleton cs c ih =>
      intro hfits
      have hold : KeepsLast cfg cs := ih fun d hd => hfits d (List.mem_append_left _ hd)
      exact hold.concat (hfits c (by simp))

end SatComm.GeoNet
