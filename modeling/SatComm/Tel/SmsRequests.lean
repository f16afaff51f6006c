import SatComm.Tel.SmsStore

/-!
# Requests for stored messages

Every phone has a store of its own. Deleting takes away just the messages that it is asked to.
`ReadMessage` and the loop of `SetTag` go by the index that a message has; `SetTag` refuses an index
before that by comparing it with the number of the messages, and reports success for every other.
-/

namespace SatComm

namespace Tel

namespace SmsManager

open Runs

/-! ## Deletion -/

/-- The stores by `phoneId`. -/
def PhoneStores : Type := Int → List Sms

/-- `SmsManagerServerImpl::DeleteMessage`, which rewrites the store of the phone. -/
def PhoneStores.deleteMessage (stores : PhoneStores) (phoneId : Int) (configured : Bool)
    (deleteType : DeleteType) (tagType : SmsTagType) (messageIndex : Nat) : PhoneStores :=
  Function.update stores phoneId
    (SmsManager.deleteMessage (stores phoneId) configured deleteType tagType messageIndex)

/-- No two messages have one index. -/
def Distinct (store : List Sms) : Prop :=
  store.Pairwise fun sms sms' => sms.msgIndex ≠ sms'.msgIndex

instance (store : List Sms) : Decidable (Distinct store) :=
  inferInstanceAs (Decidable (store.Pairwise _))

theorem Ordered.distinct {limit : StorageLimit} {store : List Sms} (h : Ordered limit store) :
    Distinct store :=
  h.increasing.imp Nat.ne_of_lt

theorem filter_msgIndex_of_forall_ne {store : List Sms} {messageIndex : Nat}
    (h : ∀ sms ∈ store, sms.msgIndex ≠ messageIndex) :
    (store.filter fun sms => sms.msgIndex ≠ messageIndex) = store :=
  List.filter_eq_self.mpr fun sms hsms => decide_eq_true (h sms hsms)

/-- The first message with the index is the only one. -/
theorem deletedSmsatIndex_findIdx? {store : List Sms} (h : Distinct store) (messageIndex : Nat) :
    deletedSmsatIndex store
        (store.findIdx? fun sms => sms.msgIndex == messageIndex).toList =
      store.filter fun sms => sms.msgIndex ≠ messageIndex := by
  induction store with
  | nil => rfl
  | cons sms store ih =>
    obtain ⟨hsms, hstore⟩ := List.pairwise_cons.mp h
    rw [List.findIdx?_cons]
    by_cases hindex : sms.msgIndex = messageIndex
    · rw [if_pos (beq_iff_eq.mpr hindex), List.filter_cons_of_neg (by simpa using hindex),
        filter_msgIndex_of_forall_ne fun sms' hsms' => hindex ▸ (hsms sms' hsms').symm]
      rfl
    · rw [if_neg (by simpa using hindex), List.filter_cons_of_pos (by simpa using hindex),
        ← ih hstore]
      cases store.findIdx? fun sms => sms.msgIndex == messageIndex <;> rfl

section

variable (stores : PhoneStores) (phoneId : Int) (deleteType : DeleteType) (tagType : SmsTagType)
  (messageIndex : Nat)

theorem PhoneStores.deleteMessage_self (configured : Bool) :
    stores.deleteMessage phoneId configured deleteType tagType messageIndex phoneId =
      SmsManager.deleteMessage (stores phoneId) configured deleteType tagType messageIndex :=
  Function.update_self _ _ _

/-- Deleting takes away the messages with the tag, the message with the index or all of them, and
nothing else of any phone; a request that is configured to fail takes nothing away. -/
theorem deleteMessage_exact (h : Distinct (stores phoneId)) :
    stores.deleteMessage phoneId true .deleteMessagesByTag tagType messageIndex phoneId =
        ((stores phoneId).filter fun sms => getTagType sms.tagType ≠ tagType) ∧
    stores.deleteMessage phoneId true .deleteMsgAtIndex tagType messageIndex phoneId =
        ((stores phoneId).filter fun sms => sms.msgIndex ≠ messageIndex) ∧
    stores.deleteMessage phoneId true .deleteAll tagType messageIndex phoneId = [] ∧
    stores.deleteMessage phoneId false deleteType tagType messageIndex phoneId = stores phoneId ∧
    ∀ configured, ∀ phoneId' ≠ phoneId,
      stores.deleteMessage phoneId configured deleteType tagType messageIndex phoneId' =
        stores phoneId' := by
  refine ⟨?_, ?_, ?_, ?_, ?_⟩
  · rw [PhoneStores.deleteMessage_self]
    exact deletedSmsatIndex_indexsToDelete tagType [] (stores phoneId) rfl
  · rw [PhoneStores.deleteMessage_self]
    exact deletedSmsatIndex_findIdx? h messageIndex
  · rw [PhoneStores.deleteMessage_self]
    rfl
  · rw [PhoneStores.deleteMessage_self]
    rfl
  · intro configured phoneId' hne
    exact Function.update_of_ne hne _ _

end

/-- Three messages of the first phone, two of them with one tag. -/
theorem deleteMessage_exact_threeMessages :
    let stores : PhoneStores := fun phoneId =>
      if phoneId = 1 then
        [newSms sampleSms 0, { newSms sampleSms 2 with tagType := "MT_READ" }, newSms sampleSms 3]
      else [newSms sampleSms 0]
    stores.deleteMessage 1 true .deleteMessagesByTag .mtNotRead 0 1 =
        [{ newSms sampleSms 2 with tagType := "MT_READ" }] ∧
      stores.deleteMessage 1 true .deleteMessagesByTag .mtNotRead 0 2 = [newSms sampleSms 0] := by
  intro stores
  obtain ⟨htag, -, -, -, hothers⟩ :=
    deleteMessage_exact stores 1 .deleteMessagesByTag .mtNotRead 0 (by decide)
  exact ⟨htag.trans (by decide), (hothers true 2 (by decide)).trans rfl⟩

/-! ## Reading and tagging -/

/-- The status that an API is configured with, or that a request changes it to. -/
inductive ApiStatus
  | success | invalidParam | failed
deriving DecidableEq, Repr

/-- The message that `SmsManagerServerImpl::ReadMessage` finds. -/
def readMessage (store : List Sms) (messageIndex : Nat) : Option Sms :=
  store.find? fun sms => sms.msgIndex == messageIndex

/-- The status that `SmsManagerServerImpl::SetTag` reports. -/
def setTagStatus (store : List Sms) (status : ApiStatus) (messageIndex : Nat) : ApiStatus :=
  if status = .success then
    if messageIndex > store.length then .invalidParam else status
  else status

/-- Success is reported where the message is found. It is the one that gets the tag, and nothing
else changes. -/
structure SetTagAgrees (store : List Sms) (messageIndex : Nat) (tagType : SmsTagType) : Prop where
  reports : setTagStatus store .success messageIndex = .success ↔
    (readMessage store messageIndex).isSome
  sets : ∀ sms, readMessage store messageIndex = some sms →
    ∃ before after, store = before ++ sms :: after ∧
      setTag store true messageIndex tagType =
        before ++ { sms with tagType := tagTypeToString tagType } :: after
  keeps : readMessage store messageIndex = none → setTag store true messageIndex tagType = store

section

variable {store : List Sms} {messageIndex : Nat} {tagType : SmsTagType}

theorem setTagStatus_eq_success_iff :
    setTagStatus store .success messageIndex = .success ↔ messageIndex ≤ store.length := by
  rw [setTagStatus, if_pos rfl]
  split_ifs with h
  · simpa using h
  · simpa using h

theorem isSome_readMessage :
    (readMessage store messageIndex).isSome ↔ ∃ sms ∈ store, sms.msgIndex = messageIndex := by
  simp [readMessage, List.find?_isSome]

theorem map_of_forall_ne (h : ∀ sms ∈ store, sms.msgIndex ≠ messageIndex) :
    (store.map fun sms =>
      if sms.msgIndex = messageIndex then { sms with tagType := tagTypeToString tagType }
      else sms) = store := by
  apply (List.map_congr_left fun sms hsms => if_neg (h sms hsms)).trans
  exact List.map_id store

theorem setTag_of_not_exists (h : ¬∃ sms ∈ store, sms.msgIndex = messageIndex) :
    setTag store true messageIndex tagType = store := by
  rw [setTag, if_pos rfl]
  split_ifs
  · rfl
  · apply map_of_forall_ne
    exact fun sms hsms hindex => h ⟨sms, hsms, hindex⟩

theorem setTag_of_mem {before after : List Sms} {sms : Sms}
    (h : Distinct (before ++ sms :: after))
    (hle : sms.msgIndex ≤ (before ++ sms :: after).length) :
    setTag (before ++ sms :: after) true sms.msgIndex tagType =
      before ++ { sms with tagType := tagTypeToString tagType } :: after := by
  obtain ⟨-, hafter, hcross⟩ := List.pairwise_append.mp h
  rw [setTag, if_pos rfl, if_neg (Nat.not_lt.mpr hle), List.map_append, List.map_cons, if_pos rfl,
    map_of_forall_ne fun sms' hsms' => hcross sms' hsms' sms List.mem_cons_self,
    map_of_forall_ne fun sms' hsms' => ((List.pairwise_cons.mp hafter).1 sms' hsms').symm]

theorem setTagAgrees_iff (h : Distinct store) :
    SetTagAgrees store messageIndex tagType ↔
      ((∃ sms ∈ store, sms.msgIndex = messageIndex) ↔ messageIndex ≤ store.length) := by
  constructor
  · intro hagrees
    rw [← isSome_readMessage, ← hagrees.reports]
    exact setTagStatus_eq_success_iff
  · intro hiff
    refine ⟨setTagStatus_eq_success_iff.trans (hiff.symm.trans isSome_readMessage.symm), ?_, ?_⟩
    · intro sms hread
      have hindex : sms.msgIndex = messageIndex := by
        simpa using List.find?_some hread
      have hmem := List.mem_of_find?_eq_some hread
      have hle := hiff.mp ⟨sms, hmem, hindex⟩
      subst hindex
      obtain ⟨before, after, rfl⟩ := List.append_of_mem hmem
      exact ⟨before, after, rfl, setTag_of_mem h hle⟩
    · intro hread
      apply setTag_of_not_exists
      rw [← isSome_readMessage, hread]
      simp

end

theorem Ordered.foldl {limit : StorageLimit} {store : List Sms} (h : Ordered limit store)
    (es : List Event) : Ordered limit (es.foldl (SmsManager.step limit) store) := by
  induction es generalizing store with
  | nil => exact h
  | cons e es ih => exact ih (h.step e)

/-- In every store that comes of one in order, `SetTag` agrees with `ReadMessage` about an index
just where a message has the index if and only if it is no greater than the number of messages. -/
theorem setTagAgrees_reached_iff (limit : StorageLimit) (store : List Sms)
    (h : Ordered limit store) (es : List Event) (messageIndex : Nat) (tagType : SmsTagType) :
    SetTagAgrees (es.foldl (step limit) store) messageIndex tagType ↔
      ((∃ sms ∈ es.foldl (step limit) store, sms.msgIndex = messageIndex) ↔
        messageIndex ≤ (es.foldl (step limit) store).length) :=
  setTagAgrees_iff (h.foldl es).distinct

/-- The second of two messages is left, and has the index 1. -/
theorem setTagAgrees_reached_second :
    SetTagAgrees
      (([.deleteMessage true .deleteMsgAtIndex .unknown 0] : List Event).foldl
        (step ⟨3, by decide⟩) [newSms sampleSms 0, newSms sampleSms 1]) 1 .mtRead := by
  apply (setTagAgrees_reached_iff ⟨3, by decide⟩ _ ⟨by decide, by decide⟩ _ 1 .mtRead).mpr
  decide

/-- With no message left, the index 0 is still reported as a success. -/
theorem not_setTagAgrees_empty :
    ¬SetTagAgrees
      (([.deleteMessage true .deleteAll .unknown 0] : List Event).foldl
        (step ⟨3, by decide⟩) [newSms sampleSms 0]) 0 .mtRead := by
  intro h
  have hfound := h.reports.mp rfl
  cases hfound

end SmsManager

end Tel

end SatComm
