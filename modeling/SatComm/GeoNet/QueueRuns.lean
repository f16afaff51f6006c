import SatComm.GeoNet.Queues
import SatComm.Runs.Along
import SatComm.Runs.Keyed

/-!
# The queues in a reused memory

The keys of `LsMapQueue_` and `UcMapQueue_` are the pointers that `Enqueue` is called with. The
application passes the destination address of a description on its stack, so the next call may
find other octets behind the keys of the maps. As long as it finds the same ones (`Unchanged`), the
maps are those with keys by value.
-/

namespace SatComm.GeoNet

/-! ## The code -/

structure RefQueues (χ : Type) where
  /-- As the last call found it. -/
  memory : Nat → BitVec 8
  lsMapQueue : List (Nat × List (Qelement χ))
  ucMapQueue : List (Nat × List (Qelement χ))
  bcQueue : List (Qelement χ)

/-- The arguments of `Enqueue`, the clock, and the memory. A null `addr` is `none`. -/
structure RefCall (χ : Type) where
  memory : Nat → BitVec 8
  qid : BitVec 32
  buffer : List UInt8
  txcb : χ
  addr : Option Nat
  ts : Int

variable {χ : Type}

namespace RefCall

def element (c : RefCall χ) : Qelement χ := ⟨c.buffer, c.txcb, c.ts⟩

/-- The call with the address that its pointer points to. -/
def byValue (c : RefCall χ) : EnqueueCall χ :=
  ⟨c.qid, c.buffer, c.txcb, c.addr.map (readMid c.memory), c.ts⟩

end RefCall

namespace RefQueues

def empty : RefQueues χ := ⟨fun _ => 0, [], [], []⟩

/-- `Enqueue`, where `Q.memory` is the memory. -/
def store (cfg : BufferSizes) (Q : RefQueues χ) (c : RefCall χ) : RefQueues χ :=
  let read := readKey Q.memory
  if c.qid &&& ucQ ≠ 0 then
    match c.addr with
    | none => Q
    | some addr =>
      match Keyed.lookup read (read addr) Q.ucMapQueue with
      | none =>
        { Q with ucMapQueue := Keyed.insert read (read addr) addr [c.element] Q.ucMapQueue }
      | some q =>
        { Q with
          ucMapQueue := Keyed.assign read (read addr)
            (Queues.append cfg.itsGnUcForwardingPacketBufferSize q c.element) Q.ucMapQueue }
  else if c.qid &&& lsQ ≠ 0 then
    match c.addr with
    | none => Q
    | some addr =>
      match Keyed.lookup read (read addr) Q.lsMapQueue with
      -- the new queue goes to the unicast map
      | none =>
        { Q with ucMapQueue := Keyed.insert read (read addr) addr [c.element] Q.ucMapQueue }
      | some q =>
        { Q with
          lsMapQueue := Keyed.assign read (read addr)
            (Queues.append cfg.itsGnUcForwardingPacketBufferSize q c.element) Q.lsMapQueue }
  else if c.qid &&& bcQ ≠ 0 then
    { Q with bcQueue := Queues.append cfg.itsGnBcForwardingPacketBufferSize Q.bcQueue c.element }
  else Q

/-- `Enqueue` in the memory of the call. -/
def enqueue (cfg : BufferSizes) (Q : RefQueues χ) (c : RefCall χ) : RefQueues χ :=
  store cfg { Q with memory := c.memory } c

/-- What is found under each address. -/
def byValue (Q : RefQueues χ) : Queues χ where
  lsMapQueue addr := Keyed.lookup (readKey Q.memory) addr.toNat Q.lsMapQueue
  ucMapQueue addr := Keyed.lookup (readKey Q.memory) addr.toNat Q.ucMapQueue
  bcQueue := Q.bcQueue

/-- Every store holds the last packets enqueued for it, as many as its capacity admits. -/
def KeepsLast (cfg : BufferSizes) (cs : List (RefCall χ)) : Prop :=
  ∀ s, (cs.foldl (enqueue cfg) .empty).byValue.content s =
    (sentTo s (cs.map RefCall.byValue)).rtake (cfg.capacity s)

/-- The call finds what the keys point to as the last one did. -/
def Unchanged (Q : RefQueues χ) (c : RefCall χ) : Prop :=
  ∀ n ∈ Q.lsMapQueue ++ Q.ucMapQueue, readMid c.memory n.1 = readMid Q.memory n.1

/-! ## One call -/

/-- The keys of both maps are increasing. -/
structure Sorted (Q : RefQueues χ) : Prop where
  ls : Search.Increasing (Keyed.seen (readKey Q.memory)) Q.lsMapQueue
  uc : Search.Increasing (Keyed.seen (readKey Q.memory)) Q.ucMapQueue

/-- In the memory of a call. -/
theorem Sorted.over {Q : RefQueues χ} (h : Sorted Q) {c : RefCall χ} (hc : Unchanged Q c) :
    Sorted { Q with memory := c.memory } ∧ { Q with memory := c.memory }.byValue = Q.byValue := by
  have hls := Keyed.lookup_congr (readKey c.memory) h.ls fun n hn => by
    rw [readKey, readKey, hc n (List.mem_append_left _ hn)]
  have huc := Keyed.lookup_congr (readKey c.memory) h.uc fun n hn => by
    rw [readKey, readKey, hc n (List.mem_append_right _ hn)]
  refine ⟨⟨hls.1, huc.1⟩, ?_⟩
  simp only [byValue, hls.2, huc.2]

section

variable {memory : Nat → BitVec 8} {nodes nodes' : List (Nat × List (Qelement χ))}

/-- A map from addresses that was changed at one address. -/
theorem lookup_update (h : Search.Increasing (Keyed.seen (readKey memory)) nodes)
    (h' : Search.Increasing (Keyed.seen (readKey memory)) nodes') {addr : Mid} {k : Nat}
    {q : List (Qelement χ)} (hk : readKey memory k = addr.toNat)
    (hmem : ∀ n, n ∈ nodes' ↔
      (n ∈ nodes ∧ Keyed.seen (readKey memory) n ≠ addr.toNat) ∨ n ∈ [(k, q)]) :
    (fun a : Mid => Keyed.lookup (readKey memory) a.toNat nodes') =
      Function.update (fun a : Mid => Keyed.lookup (readKey memory) a.toNat nodes) addr (some q) := by
  funext a
  by_cases ha : a = addr
  · subst ha
    rw [Function.update_self, Keyed.lookup_eq_some_iff h']
    exact ⟨(k, q), (hmem _).mpr (.inr (List.mem_singleton_self _)), hk, rfl⟩
  · rw [Function.update_of_ne ha]
    refine Keyed.lookup_of_mem h h' ?_ hmem fun heq => ha (BitVec.eq_of_toNat_eq heq)
    intro n hn
    rw [List.mem_singleton.mp hn]
    exact hk

theorem lookup_assign (h : Search.Increasing (Keyed.seen (readKey memory)) nodes) {k : Nat}
    {q₀ : List (Qelement χ)}
    (hlook : Keyed.lookup (readKey memory) (readKey memory k) nodes = some q₀)
    (q : List (Qelement χ)) :
    Search.Increasing (Keyed.seen (readKey memory))
        (Keyed.assign (readKey memory) (readKey memory k) q nodes) ∧
      (fun a : Mid => Keyed.lookup (readKey memory) a.toNat
          (Keyed.assign (readKey memory) (readKey memory k) q nodes)) =
        Function.update (fun a : Mid => Keyed.lookup (readKey memory) a.toNat nodes)
          (readMid memory k) (some q) := by
  obtain ⟨h', m, -, hm, hmem⟩ := Keyed.assign_spec h (by rw [hlook]; rfl) q
  exact ⟨h', lookup_update h h' hm hmem⟩

theorem lookup_insert (h : Search.Increasing (Keyed.seen (readKey memory)) nodes) (k : Nat)
    (q : List (Qelement χ)) :
    Search.Increasing (Keyed.seen (readKey memory))
        (Keyed.insert (readKey memory) (readKey memory k) k q nodes) ∧
      (fun a : Mid => Keyed.lookup (readKey memory) a.toNat
          (Keyed.insert (readKey memory) (readKey memory k) k q nodes)) =
        Queues.insert (fun a : Mid => Keyed.lookup (readKey memory) a.toNat nodes)
          (readMid memory k) q := by
  unfold Queues.insert
  cases hlook : Keyed.lookup (readKey memory) (readKey memory k) nodes with
  | some q' =>
    have hsame : Keyed.insert (readKey memory) (readKey memory k) k q nodes = nodes := by
      simp [Keyed.insert, hlook]
    rw [hsame, if_pos (by simp [show (readMid memory k).toNat = readKey memory k from rfl, hlook])]
    exact ⟨h, rfl⟩
  | none =>
    obtain ⟨h', hmem⟩ := Keyed.insert_spec h rfl hlook q
    rw [if_neg (by simp [show (readMid memory k).toNat = readKey memory k from rfl, hlook])]
    exact ⟨h', lookup_update h h' rfl hmem⟩

end

/-- A new queue in the unicast map. -/
theorem Sorted.create {Q : RefQueues χ} (h : Sorted Q) (k : Nat) (q : List (Qelement χ)) :
    let Q' := { Q with
      ucMapQueue := Keyed.insert (readKey Q.memory) (readKey Q.memory k) k q Q.ucMapQueue }
    Sorted Q' ∧ Q'.byValue =
      { Q.byValue with
        ucMapQueue := Queues.insert Q.byValue.ucMapQueue (readMid Q.memory k) q } := by
  obtain ⟨hsorted, hlook⟩ := lookup_insert h.uc k q
  exact ⟨⟨h.ls, hsorted⟩, by rw [byValue, hlook]; rfl⟩

theorem Sorted.store {Q : RefQueues χ} (h : Sorted Q) {c : RefCall χ} (hc : Q.memory = c.memory)
    (cfg : BufferSizes) :
    Sorted (Q.store cfg c) ∧ (Q.store cfg c).byValue = GeoNet.enqueue cfg Q.byValue c.byValue := by
  unfold RefQueues.store GeoNet.enqueue
  simp only [RefCall.byValue, ← hc]
  split
  · cases c.addr with
    | none => exact ⟨h, rfl⟩
    | some k =>
      simp only [Option.map_some]
      have hvalue : Q.byValue.ucMapQueue (readMid Q.memory k) =
        Keyed.lookup (readKey Q.memory) (readKey Q.memory k) Q.ucMapQueue := rfl
      rw [hvalue]
      cases hlook : Keyed.lookup (readKey Q.memory) (readKey Q.memory k) Q.ucMapQueue with
      | none => exact h.create k [c.element]
      | some q =>
        obtain ⟨hsorted, hassign⟩ := lookup_assign h.uc hlook
          (Queues.append cfg.itsGnUcForwardingPacketBufferSize q c.element)
        exact ⟨⟨h.ls, hsorted⟩, congrArg (Queues.mk Q.byValue.lsMapQueue · Q.bcQueue) hassign⟩
  · split
    · cases c.addr with
      | none => exact ⟨h, rfl⟩
      | some k =>
        simp only [Option.map_some]
        have hvalue : Q.byValue.lsMapQueue (readMid Q.memory k) =
          Keyed.lookup (readKey Q.memory) (readKey Q.memory k) Q.lsMapQueue := rfl
        rw [hvalue]
        cases hlook : Keyed.lookup (readKey Q.memory) (readKey Q.memory k) Q.lsMapQueue with
        | none => exact h.create k [c.element]
        | some q =>
          obtain ⟨hsorted, hassign⟩ := lookup_assign h.ls hlook
            (Queues.append cfg.itsGnUcForwardingPacketBufferSize q c.element)
          exact ⟨⟨hsorted, h.uc⟩, congrArg (Queues.mk · Q.byValue.ucMapQueue Q.bcQueue) hassign⟩
    · split
      · exact ⟨⟨h.ls, h.uc⟩, rfl⟩
      · exact ⟨h, rfl⟩

/-- The call does what it does with keys by value. -/
theorem Sorted.enqueue {Q : RefQueues χ} (h : Sorted Q) {c : RefCall χ} (hc : Unchanged Q c)
    (cfg : BufferSizes) :
    Sorted (Q.enqueue cfg c) ∧
      (Q.enqueue cfg c).byValue = GeoNet.enqueue cfg Q.byValue c.byValue := by
  obtain ⟨hover, hvalue⟩ := h.over hc
  rw [← hvalue]
  exact hover.store rfl cfg

/-! ## Runs -/

theorem sorted_empty : Sorted (empty : RefQueues χ) := ⟨List.Pairwise.nil, List.Pairwise.nil⟩

theorem byValue_foldl (cfg : BufferSizes) {cs : List (RefCall χ)} {Q : RefQueues χ} (h : Sorted Q)
    (hcs : Runs.Along (enqueue cfg) Unchanged Q cs) :
    (cs.foldl (enqueue cfg) Q).byValue =
      (cs.map RefCall.byValue).foldl (GeoNet.enqueue cfg) Q.byValue := by
  induction cs generalizing Q with
  | nil => rfl
  | cons c cs ih =>
    obtain ⟨hsorted, hvalue⟩ := h.enqueue hcs.1 cfg
    rw [List.foldl_cons, ih hsorted hcs.2, hvalue, List.map_cons, List.foldl_cons]

/-- Where each call finds what the keys point to as the last one did, the queues remember the last
packets enqueued for them exactly when no call is for the location service and the queues used
have a positive capacity. -/
theorem keepsLast_iff (cfg : BufferSizes) (cs : List (RefCall χ))
    (h : Runs.Along (enqueue cfg) Unchanged .empty cs) :
    KeepsLast cfg cs ↔ ∀ c ∈ cs, Fits cfg c.byValue := by
  have hvalue : (cs.foldl (enqueue cfg) .empty).byValue =
      (cs.map RefCall.byValue).foldl (GeoNet.enqueue cfg) .empty := byValue_foldl cfg sorted_empty h
  rw [← List.forall_mem_map, ← keepsLast_iff_fits, KeepsLast, hvalue]
  exact Iff.rfl

/-- A call in a memory of one octet. -/
def callIn (octet : BitVec 8) (qid : BitVec 32) (packet : List UInt8) : RefCall Unit :=
  ⟨fun _ => octet, qid, packet, (), some 0, 0⟩

/-- Two unicast packets for one address. -/
theorem keepsLast_one_address :
    KeepsLast ⟨256, 1024⟩ [callIn 7 ucQ [1], callIn 7 ucQ [2]] := by
  apply (keepsLast_iff _ _ _).mpr
  · intro c hc
    simp only [List.mem_cons, List.not_mem_nil, or_false] at hc
    rcases hc with rfl | rfl
    · exact (by decide : (0 : Int) < (256 : BitVec 32).toInt)
    · exact (by decide : (0 : Int) < (256 : BitVec 32).toInt)
  · refine ⟨?_, ?_, trivial⟩
    · intro n hn
      cases hn
    · intro n _
      rfl

/-- A packet for the location service is stored in the unicast map. -/
theorem not_keepsLast_ls : ¬ KeepsLast ⟨256, 1024⟩ [callIn 7 lsQ [1]] := by
  intro h
  have hls := h (.ls (readMid (fun _ => 7) 0))
  revert hls
  decide +kernel

/-- Two addresses at one place: the packet for the second is put behind that for the first. -/
example : ([callIn 7 ucQ [1], callIn 9 ucQ [2]].foldl (enqueue ⟨256, 1024⟩) .empty).byValue.content
    (.uc (readMid (fun _ => 9) 0)) = [⟨[1], (), 0⟩, ⟨[2], (), 0⟩] := by
  decide +kernel

end RefQueues

end SatComm.GeoNet
