import SatComm.Card.Access

/-!
# What is written is read back

Reads and writes accept the records of a file, and are exact about what they touch, unless the
record number leads to what is stored before the records, or the request is for the DF and not for
its first file.
-/

namespace SatComm

namespace Card

namespace Files

open Headed

/-- The configured result is success. -/
def ApiConfigure.Configured (api : ApiConfigure) : Prop :=
  api.status = .success ∧ api.error = .success

def Reply.Accepted (reply : Reply) : Prop := reply.status = .success ∧ reply.error = .success

inductive Request
  | readEFLinearFixed (request : ReadEFLinearFixedRequest)
  | writeEFLinearFixed (request : WriteEFLinearFixedRequest)
  | readEFLinearFixedAll (request : ReadEFLinearFixedAllRequest)
  | writeEFTransparent (request : WriteEFTransparentRequest)
deriving DecidableEq, Repr

/-- `ReadEFLinearFixed` gives this result. -/
def CardState.ReadsRecord (card : CardState) (aid : String) (fileId recordNumber : Int)
    (result : IccResult) : Prop :=
  ∀ api : ApiConfigure, api.Configured → ∃ reply,
    card.readEFLinearFixed ⟨fileId, recordNumber, aid, api⟩ = some reply ∧ reply.Accepted ∧
      reply.result = result

/-- `ReadEFTransparent` gives this result. -/
def CardState.ReadsTransparent (card : CardState) (aid : String) (fileId : Int)
    (result : IccResult) : Prop :=
  ∀ (size : Int) (api : ApiConfigure), 0 ≤ size → api.Configured →
    (card.readEFTransparent ⟨fileId, size, aid, api⟩).Accepted ∧
      (card.readEFTransparent ⟨fileId, size, aid, api⟩).result = result

/-- A write changes what is stored in a place and nothing else, and is read back; answered with an
error it changes nothing. -/
structure Content.Writes (c : Content) (answer : Option (CardState × Reply))
    (place : Option ℕ × EF) (data : List UInt8) (reads : CardState → IccResult → Prop) : Prop where
  written : ∀ card reply, answer = some (card, reply) → reply.Accepted →
    ∃ (c' : Content) (e : Entry), c'.card = card ∧ c'.named = c.named ∧ c.view place = some e ∧
      c'.view = Function.update c.view place (some (e.write data))
  readBack : ∀ card reply, answer = some (card, reply) → reply.Accepted →
    ∃ result, reads card result ∧ result.data = data.map fun b => (b.toNat : Int)
  rejected : ∀ card reply, answer = some (card, reply) → reply.error ≠ .success → card = c.card

/-- The directory of a request. -/
abbrev Content.at (c : Content) (aid : String) : Directory := c.directory (c.named aid)

/-- A request does what the files are for: record numbers are accepted exactly from 1 to the number
of records, all records are those that are read one by one, and writes are exact. -/
def Honoured (c : Content) : Request → Prop
  | .readEFLinearFixed request => request.api.Configured →
    ((∃ reply, c.card.readEFLinearFixed request = some reply ∧ reply.Accepted) ↔
      (c.at request.aid).Holds (.ofInt request.fileId) request.recordNumber)
  | .writeEFLinearFixed request =>
    (request.api.Configured →
      ((∃ card reply, c.card.writeEFLinearFixed request = some (card, reply) ∧ reply.Accepted) ↔
        (c.at request.aid).Holds (.ofInt request.fileId) request.recordNumber)) ∧
    c.Writes (c.card.writeEFLinearFixed request)
      (c.named request.aid, .record (.ofInt request.fileId) request.recordNumber)
      (bytes request.data)
      fun card => card.ReadsRecord request.aid request.fileId request.recordNumber
  | .readEFLinearFixedAll request => request.api.Configured →
    ∀ s ∈ (c.at request.aid).linearFixed, s.header.id = .ofInt request.fileId →
      ∃ reply, c.card.readEFLinearFixedAll request = some reply ∧
        reply.status = .success ∧ reply.error = .success ∧
        List.Forall₂
          (fun (j : ℕ) result => c.card.ReadsRecord request.aid request.fileId (j + 1) result)
          (List.range s.items.length) reply.records
  | .writeEFTransparent request =>
    c.Writes (some (c.card.writeEFTransparent request))
      (c.named request.aid, .transparent (.ofInt request.fileId)) (bytes request.data)
      fun card => card.ReadsTransparent request.aid request.fileId

/-- A record number that leads somewhere is at least 1, where the request can succeed; a write that
is answered with an error writes what is there already; and the records of a file of the DF read
like those at the front of the array, as they do for the first file. -/
def Regular (c : Content) : Request → Prop
  | .readEFLinearFixed request => request.api.Configured →
    ((c.at request.aid).located (.ofInt request.fileId) request.recordNumber).isSome →
      1 ≤ request.recordNumber
  | .writeEFLinearFixed request => request.api.status = .success →
    ∀ j ∈ (c.at request.aid).located (.ofInt request.fileId) request.recordNumber,
      let e := (flatten (c.at request.aid).linearFixed).getD j Entry.null
      if request.api.error = .success then 1 ≤ request.recordNumber
      else e.write (bytes request.data) = e
  | .readEFLinearFixedAll request => request.api.Configured → c.named request.aid = none →
    ∀ p ∈ find Entry.id (.ofInt request.fileId) c.df.linearFixed, ∀ j < p.2.items.length,
      ((flatten c.df.linearFixed).getD (1 + j) Entry.null).result =
        ((flatten c.df.linearFixed).getD (p.1 + 1 + j) Entry.null).result
  | .writeEFTransparent request => request.api.status = .success →
    ∀ i ∈ (c.at request.aid).position (.ofInt request.fileId),
      let e := (c.at request.aid).transparent.getD i Entry.null
      request.api.error ≠ .success ∨ c.named request.aid = none ∧ i ≠ 0 →
        e.write (bytes request.data) = e

/-! ## Records -/

section Records

variable {c : Content}

theorem Reply.accepted_reply_iff {api : ApiConfigure} {error : ErrorCode} {result : IccResult}
    (hstatus : api.status = .success) : (api.reply error result).Accepted ↔ error = .success :=
  and_iff_right hstatus

theorem readsRecord_of_located {aid : String} {fileId recordNumber : Int} {j : ℕ}
    (hj : (c.at aid).located (.ofInt fileId) recordNumber = some j) :
    c.card.ReadsRecord aid fileId recordNumber
      ((flatten (c.at aid).linearFixed).getD j Entry.null).result := by
  rintro api ⟨hstatus, herror⟩
  refine ⟨_, c.readEFLinearFixed_of_located hstatus hj, (Reply.accepted_reply_iff hstatus).mpr herror,
    ?_⟩
  exact if_pos herror

theorem readsRecord_unique {card : CardState} {aid : String} {fileId recordNumber : Int}
    {result result' : IccResult} (h : card.ReadsRecord aid fileId recordNumber result)
    (h' : card.ReadsRecord aid fileId recordNumber result') : result = result' := by
  have hconfigured : ApiConfigure.Configured ⟨.success, .success, 0, true⟩ := ⟨rfl, rfl⟩
  obtain ⟨reply, hreply, -, rfl⟩ := h _ hconfigured
  obtain ⟨reply', hreply', -, rfl⟩ := h' _ hconfigured
  rw [Option.some.inj (hreply.symm.trans hreply')]

theorem honoured_readEFLinearFixed_iff (request : ReadEFLinearFixedRequest) :
    Honoured c (.readEFLinearFixed request) ↔ Regular c (.readEFLinearFixed request) := by
  refine forall_congr' fun hconfigured => ?_
  obtain ⟨hstatus, herror⟩ := hconfigured
  rw [Directory.holds_iff]
  cases hj : (c.at request.aid).located (.ofInt request.fileId) request.recordNumber with
  | none =>
    have hnot : ¬ ∃ reply, c.card.readEFLinearFixed request = some reply ∧ reply.Accepted := by
      rintro ⟨reply, hreply, haccepted⟩
      have hfailed := c.readEFLinearFixed_of_not_located hstatus hj reply hreply
      rw [haccepted.2] at hfailed
      cases hfailed
    exact iff_of_true (iff_of_false hnot fun h => absurd h.1 nofun) nofun
  | some j =>
    have haccepted : ∃ reply, c.card.readEFLinearFixed request = some reply ∧ reply.Accepted :=
      ⟨_, c.readEFLinearFixed_of_located hstatus hj,
        (Reply.accepted_reply_iff hstatus).mpr herror⟩
    constructor
    · exact fun h _ => (h.mp haccepted).2
    · exact fun h => iff_of_true haccepted ⟨rfl, h rfl⟩

/-- An entry is exchanged for what is there. -/
theorem set_eq_self_iff {entries : List Entry} {j : ℕ} {e : Entry} (hj : j < entries.length) :
    entries.set j e = entries ↔ e = entries.getD j Entry.null := by
  rw [List.getD_eq_getElem _ _ hj]
  constructor
  · intro h
    have hget : (entries.set j e)[j]? = some e := List.getElem?_set_self hj
    rw [h, List.getElem?_eq_getElem hj] at hget
    exact (Option.some.inj hget).symm
  · rintro rfl
    exact List.set_getElem_self hj

theorem setLinearFixed_set_eq_self_iff {aid : String} {j : ℕ} {e : Entry}
    (hj : j < (flatten (c.at aid).linearFixed).length) :
    c.card.setLinearFixed (c.named aid) ((flatten (c.at aid).linearFixed).set j e) = c.card ↔
      e = (flatten (c.at aid).linearFixed).getD j Entry.null := by
  rw [← set_eq_self_iff hj]
  constructor
  · intro h
    have hread := congrArg (fun card => card.linearFixed (c.named aid)) h
    rwa [Content.linearFixed_setLinearFixed, Content.linearFixed_card] at hread
  · intro h
    rw [h, ← Content.linearFixed_card, Content.setLinearFixed_self]

/-- A record is exchanged in the content as it is in the array. -/
theorem exists_setRecord {aid : String} {id : UInt16} {recordNumber : Int} {j : ℕ} (e : Entry)
    (hj : (c.at aid).located id recordNumber = some j) (hlow : 1 ≤ recordNumber) :
    ∃ c' : Content, c'.card = c.card.setLinearFixed (c.named aid)
        ((flatten (c.at aid).linearFixed).set j e) ∧
      c'.named = c.named ∧ c'.at aid = (c.at aid).setRecord id recordNumber e ∧
      c'.view = Function.update c.view (c.named aid, .record id recordNumber) (some e) := by
  refine ⟨c.setDirectory (c.named aid) ((c.at aid).setRecord id recordNumber e), ?_,
    c.named_setDirectory _, ?_, c.view_setDirectory aid (Directory.entry_setRecord hj hlow)⟩
  · have hcard := c.card_setDirectory_linearFixed (c.named aid)
      (d := (c.at aid).setRecord id recordNumber e) rfl
    rwa [Directory.flatten_setRecord hj hlow] at hcard
  · rw [Content.at, c.named_setDirectory, c.directory_setDirectory aid _ rfl, if_pos rfl]

/-- A write to a record that is answered without an error is exact. -/
theorem writes_record {request : WriteEFLinearFixedRequest} {j : ℕ}
    (hconfigured : request.api.Configured)
    (hj : (c.at request.aid).located (.ofInt request.fileId) request.recordNumber = some j)
    (hlow : 1 ≤ request.recordNumber) :
    c.Writes (c.card.writeEFLinearFixed request)
      (c.named request.aid, .record (.ofInt request.fileId) request.recordNumber)
      (bytes request.data)
      fun card => card.ReadsRecord request.aid request.fileId request.recordNumber := by
  obtain ⟨answer, hanswer, hstatus, herror⟩ :=
    c.writeEFLinearFixed_of_located hconfigured.1 hj
  have hlt := Directory.lt_length_of_located hj
  have hentry := Directory.entry_record hj hlow
  rw [List.getElem?_eq_getElem hlt, ← List.getD_eq_getElem _ Entry.null hlt] at hentry
  obtain ⟨c', hcard, hnamed, hat, hview⟩ := exists_setRecord
    (((flatten (c.at request.aid).linearFixed).getD j Entry.null).write (bytes request.data)) hj hlow
  have hj' : (c'.at request.aid).located (.ofInt request.fileId) request.recordNumber = some j := by
    rw [hat, Directory.located_setRecord, hj]
  refine ⟨?_, ?_, ?_⟩
  · rintro card reply hreply -
    obtain ⟨rfl, rfl⟩ := Prod.mk.inj (Option.some.inj (hanswer.symm.trans hreply))
    exact ⟨c', _, hcard, hnamed, hentry, hview⟩
  · rintro card reply hreply -
    obtain ⟨rfl, rfl⟩ := Prod.mk.inj (Option.some.inj (hanswer.symm.trans hreply))
    have hreads := readsRecord_of_located hj'
    rw [hat, Directory.flatten_setRecord hj hlow, hcard] at hreads
    refine ⟨_, hreads, ?_⟩
    rw [List.getD_eq_getElem?_getD, List.getElem?_set_self hlt]
    exact convertStringToVector_write _ _
  · intro card reply hreply hfailed
    obtain ⟨rfl, rfl⟩ := Prod.mk.inj (Option.some.inj (hanswer.symm.trans hreply))
    exact absurd (herror.trans hconfigured.2) hfailed

/-- An answer with an error is exact when the card is as it was. -/
theorem writes_of_rejected {answer : Option (CardState × Reply)} {place : Option ℕ × EF}
    {data : List UInt8} {reads : CardState → IccResult → Prop}
    (h : ∀ card reply, answer = some (card, reply) → ¬ reply.Accepted ∧ card = c.card) :
    c.Writes answer place data reads where
  written card reply hreply haccepted := absurd haccepted (h card reply hreply).1
  readBack card reply hreply haccepted := absurd haccepted (h card reply hreply).1
  rejected card reply hreply _ := (h card reply hreply).2

theorem honoured_writeEFLinearFixed_iff (request : WriteEFLinearFixedRequest) :
    Honoured c (.writeEFLinearFixed request) ↔ Regular c (.writeEFLinearFixed request) := by
  unfold Honoured Regular
  dsimp only
  rw [Directory.holds_iff]
  by_cases hstatus : request.api.status = .success
  · cases hj : (c.at request.aid).located (.ofInt request.fileId) request.recordNumber with
    | none =>
      have hrejected : ∀ card reply, c.card.writeEFLinearFixed request = some (card, reply) →
          ¬ reply.Accepted ∧ card = c.card := by
        intro card reply hreply
        obtain ⟨hcard, hfailed⟩ := c.writeEFLinearFixed_of_not_located hstatus hj card reply hreply
        refine ⟨fun haccepted => ?_, hcard⟩
        rw [haccepted.2] at hfailed
        cases hfailed
      refine iff_of_true ⟨fun _ => iff_of_false ?_ fun h => absurd h.1 nofun,
        writes_of_rejected hrejected⟩ fun _ _ hnone => absurd hnone nofun
      rintro ⟨card, reply, hreply, haccepted⟩
      exact (hrejected card reply hreply).1 haccepted
    | some j =>
      obtain ⟨answer, hanswer, hok, herror⟩ := c.writeEFLinearFixed_of_located hstatus hj
      have hlt := Directory.lt_length_of_located hj
      constructor
      · rintro ⟨haccepts, hwrites⟩ - _ ⟨⟩
        split_ifs with hconfigured
        · exact ((haccepts ⟨hstatus, hconfigured⟩).mp
            ⟨_, answer, hanswer, hok, herror.trans hconfigured⟩).2
        · have hsame := hwrites.rejected _ answer hanswer fun h => hconfigured (herror.symm.trans h)
          exact (setLinearFixed_set_eq_self_iff hlt).mp hsame
      · intro hregular
        have hregular := hregular hstatus j rfl
        by_cases hconfigured : request.api.error = .success
        · rw [if_pos hconfigured] at hregular
          refine ⟨fun _ => iff_of_true ⟨_, answer, hanswer, hok, herror.trans hconfigured⟩
            ⟨rfl, hregular⟩, writes_record ⟨hstatus, hconfigured⟩ hj hregular⟩
        · rw [if_neg hconfigured] at hregular
          refine ⟨fun h => absurd h.2 hconfigured, writes_of_rejected fun card reply hreply => ?_⟩
          obtain ⟨rfl, rfl⟩ := Prod.mk.inj (Option.some.inj (hanswer.symm.trans hreply))
          exact ⟨fun haccepted => hconfigured (herror.symm.trans haccepted.2),
            (setLinearFixed_set_eq_self_iff hlt).mpr hregular⟩
  · refine iff_of_true ⟨fun h => absurd h.1 hstatus, writes_of_rejected fun card reply hreply => ?_⟩
      fun h => absurd h hstatus
    rw [CardState.writeEFLinearFixed] at hreply
    dsimp only at hreply
    rw [if_pos hstatus] at hreply
    cases hreply
    exact ⟨fun haccepted => hstatus haccepted.1, rfl⟩

end Records

/-! ## All records -/

section AllRecords

variable {c : Content} {aid : String} {id : UInt16} {i : ℕ} {s : Section Entry.numberOfRecords}

/-- Under an application the records are those of the file, under the DF those at the front. -/
theorem readAllIn_of_find (hfind : find Entry.id id (c.at aid).linearFixed = some (i, s)) :
    c.card.readAllIn (c.named aid) id = some (results (flatten (c.at aid).linearFixed)
      (if c.named aid = none then 1 else i + 1) s.items.length, true) := by
  cases hnamed : c.named aid with
  | none =>
    rw [Content.at, hnamed] at hfind ⊢
    obtain ⟨us, ts, hsplit, -, -, hi⟩ := exists_append_of_find hfind
    have hheader : (flatten (c.directory none).linearFixed).getD i Entry.null = s.header := by
      rw [hsplit, hi, List.getD_eq_getElem?_getD]
      have hget : (flatten (us ++ s :: ts))[(flatten us).length + 0]? = s.entries[0]? :=
        getElem?_flatten us (Nat.succ_pos s.items.length)
      rw [Nat.add_zero] at hget
      rw [hget]
      rfl
    have hmatch := @findmatchingrecord_flatten (c.directory none).linearFixed id 0
    rw [hfind] at hmatch
    dsimp only at hmatch
    rw [if_pos (Int.natCast_nonneg _)] at hmatch
    rw [CardState.readAllIn, CardState.readAllDF, CardState.findmatchingrecordDF,
      Content.linearFixed_card, hmatch, if_pos rfl]
    dsimp only [Option.map_some]
    rw [Int.toNat_natCast, hheader, s.count_header]
  | some index =>
    rw [Content.at, hnamed] at hfind ⊢
    have hwalk := @walkFiles_flatten (c.directory (some index)).linearFixed id
    rw [hfind] at hwalk
    rw [CardState.readAllIn, CardState.readAllADF, Content.linearFixed_card, hwalk,
      if_neg nofun]
    dsimp only [Option.map_some]
    rw [Int.toNat_natCast, s.count_header]

theorem readEFLinearFixedAll_of_find {request : ReadEFLinearFixedAllRequest}
    (hconfigured : request.api.Configured)
    (hfind : find Entry.id (.ofInt request.fileId) (c.at request.aid).linearFixed = some (i, s)) :
    ∃ reply, c.card.readEFLinearFixedAll request = some reply ∧ reply.status = .success ∧
      reply.error = .success ∧ reply.records = results (flatten (c.at request.aid).linearFixed)
        (if c.named request.aid = none then 1 else i + 1) s.items.length := by
  rw [CardState.readEFLinearFixedAll]
  dsimp only
  rw [if_neg (not_not.mpr hconfigured.1), Content.findAppId_card, readAllIn_of_find hfind]
  refine ⟨_, rfl, hconfigured.1, hconfigured.2, ?_⟩
  dsimp only
  rw [if_pos rfl, hconfigured.2]
  exact List.map_id _

/-- Read one by one, the records are the entries behind the header. -/
theorem readsRecord_iff {fileId : Int} {j : ℕ} {result : IccResult}
    (hfind : find Entry.id (.ofInt fileId) (c.at aid).linearFixed = some (i, s))
    (hj : j < s.items.length) :
    c.card.ReadsRecord aid fileId (j + 1) result ↔
      result = ((flatten (c.at aid).linearFixed).getD (i + 1 + j) Entry.null).result := by
  have hrange : (j : Int) + 1 ≤ s.items.length ∧ 0 ≤ (i : Int) + (j + 1) := ⟨by omega, by omega⟩
  have hlocated : (c.at aid).located (.ofInt fileId) (j + 1) = some (i + 1 + j) := by
    rw [Directory.located, hfind]
    dsimp only
    rw [if_pos hrange]
    congr 1
    omega
  have hreads := readsRecord_of_located hlocated
  constructor
  · exact fun h => readsRecord_unique h hreads
  · rintro rfl
    exact hreads

theorem honoured_readEFLinearFixedAll_iff (request : ReadEFLinearFixedAllRequest) :
    Honoured c (.readEFLinearFixedAll request) ↔ Regular c (.readEFLinearFixedAll request) := by
  refine forall_congr' fun hconfigured => ?_
  constructor
  · rintro h hnamed ⟨i, s⟩ hfind j hj
    have hd : c.df = c.at request.aid := by
      rw [Content.at, hnamed]
      rfl
    rw [hd] at hfind ⊢
    obtain ⟨hs, hid⟩ := Directory.mem_of_find hfind
    obtain ⟨reply, hreply, -, -, hrecords⟩ := h s hs hid
    obtain ⟨reply', hreply', -, -, hresults⟩ := readEFLinearFixedAll_of_find hconfigured hfind
    obtain rfl := Option.some.inj (hreply.symm.trans hreply')
    rw [hresults, if_pos hnamed, results, Int.toNat_natCast, List.forall₂_map_right_iff,
      List.forall₂_same] at hrecords
    exact (readsRecord_iff hfind hj).mp (hrecords j (List.mem_range.mpr hj))
  · intro h s hs hid
    obtain ⟨i, hfind⟩ := (c.at request.aid).exists_find hs hid
    obtain ⟨reply, hreply, hstatus, herror, hresults⟩ :=
      readEFLinearFixedAll_of_find hconfigured hfind
    refine ⟨reply, hreply, hstatus, herror, ?_⟩
    rw [hresults, results, Int.toNat_natCast, List.forall₂_map_right_iff, List.forall₂_same]
    intro j hmem
    have hj := List.mem_range.mp hmem
    rw [readsRecord_iff hfind hj]
    split_ifs with hnamed
    · have hd : c.df = c.at request.aid := by
        rw [Content.at, hnamed]
        rfl
      have hsame := h hnamed (i, s) (hd.symm ▸ hfind) j hj
      rwa [hd] at hsame
    · rfl

end AllRecords

/-! ## Transparent files -/

section Transparent

variable {c : Content}

theorem searchADF_eq (fileId : UInt16) (error : ErrorCode) (k : ℕ) (entries : List Entry) :
    searchADF fileId error k entries =
      match entries.findIdx? fun e => e.id = fileId with
      | some i => (some (k + i), error)
      | none => (none, .genericFailure) := by
  induction entries generalizing k with
  | nil => rfl
  | cons e entries ih =>
    rw [searchADF, List.findIdx?_cons]
    by_cases hid : e.id = fileId
    · rw [if_pos hid, if_pos (decide_eq_true hid)]
      rfl
    · rw [if_neg hid, if_neg (fun h => hid (of_decide_eq_true h)), ih]
      cases entries.findIdx? fun e => decide (e.id = fileId) with
      | none => rfl
      | some i =>
        dsimp only [Option.map_some]
        rw [Nat.add_right_comm, Nat.add_assoc]

/-- The files that are passed make the difference. -/
theorem searchDF_eq (fileId : UInt16) (error : ErrorCode) (k : ℕ) (entries : List Entry) :
    searchDF fileId error k entries =
      match entries.findIdx? fun e => e.id = fileId with
      | some i => (some (k + i), if i = 0 then error else .genericFailure)
      | none => (none, .genericFailure) := by
  induction entries generalizing k error with
  | nil => rfl
  | cons e entries ih =>
    rw [searchDF, List.findIdx?_cons]
    by_cases hid : e.id = fileId
    · rw [if_pos hid, if_pos (decide_eq_true hid)]
      rfl
    · rw [if_neg hid, if_neg (fun h => hid (of_decide_eq_true h)), ih]
      cases entries.findIdx? fun e => decide (e.id = fileId) with
      | none => rfl
      | some i =>
        dsimp only [Option.map_some]
        rw [ite_self, Nat.add_right_comm, Nat.add_assoc, if_neg (Nat.succ_ne_zero i)]

/-- The error of a write to a transparent file. -/
def writeError (directory : Option ℕ) (i : ℕ) (error : ErrorCode) : ErrorCode :=
  if directory = none ∧ i ≠ 0 then .genericFailure else error

theorem writeEFTransparent_of_position {request : WriteEFTransparentRequest} {i : ℕ}
    (hstatus : request.api.status = .success)
    (hi : (c.at request.aid).position (.ofInt request.fileId) = some i) :
    ∃ reply, c.card.writeEFTransparent request =
        (c.card.setTransparent (c.named request.aid)
          ((c.at request.aid).writeTransparent i (bytes request.data)).transparent, reply) ∧
      reply.status = .success ∧
      reply.error = writeError (c.named request.aid) i request.api.error := by
  rw [Directory.position] at hi
  rw [CardState.writeEFTransparent]
  dsimp only
  rw [if_neg (not_not.mpr hstatus), Content.findAppId_card, Content.transparent_card]
  cases hnamed : c.named request.aid with
  | none =>
    rw [Content.at, hnamed] at hi ⊢
    dsimp only
    rw [searchDF_eq, hi]
    dsimp only
    rw [Nat.zero_add]
    refine ⟨_, rfl, hstatus, ?_⟩
    by_cases hzero : i = 0 <;> simp [ApiConfigure.reply, writeError, hzero]
  | some index =>
    rw [Content.at, hnamed] at hi ⊢
    dsimp only
    rw [searchADF_eq, hi]
    dsimp only
    rw [Nat.zero_add]
    exact ⟨_, rfl, hstatus, rfl⟩

theorem writeEFTransparent_of_no_position {request : WriteEFTransparentRequest}
    (hstatus : request.api.status = .success)
    (hi : (c.at request.aid).position (.ofInt request.fileId) = none) :
    ∃ reply, c.card.writeEFTransparent request = (c.card, reply) ∧
      reply.error = .genericFailure := by
  rw [Directory.position] at hi
  rw [CardState.writeEFTransparent]
  dsimp only
  rw [if_neg (not_not.mpr hstatus), Content.findAppId_card, Content.transparent_card]
  cases hnamed : c.named request.aid with
  | none =>
    rw [Content.at, hnamed] at hi
    dsimp only
    rw [searchDF_eq, hi]
    exact ⟨_, rfl, rfl⟩
  | some index =>
    rw [Content.at, hnamed] at hi
    dsimp only
    rw [searchADF_eq, hi]
    exact ⟨_, rfl, rfl⟩

theorem readsTransparent_of_entry {aid : String} {fileId : Int} {e : Entry}
    (he : (c.at aid).entry (.transparent (.ofInt fileId)) = some e) :
    c.card.ReadsTransparent aid fileId e.result := by
  rintro size api hsize ⟨hstatus, herror⟩
  rw [CardState.readEFTransparent]
  dsimp only
  rw [if_neg (not_not.mpr hstatus), Content.findAppId_card, Content.transparent_card]
  have hfind : (c.directory (c.named aid)).transparent.find?
      (fun e => decide (e.id = .ofInt fileId ∧ 0 ≤ size)) = some e := by
    simp only [hsize, and_true]
    exact he
  rw [hfind]
  exact ⟨(Reply.accepted_reply_iff hstatus).mpr herror, if_pos herror⟩

/-- A transparent file is written in the content as it is in the array. -/
theorem exists_writeTransparent {aid : String} {id : UInt16} {i : ℕ} (data : List UInt8)
    (hi : (c.at aid).position id = some i) :
    ∃ c' : Content, c'.card = c.card.setTransparent (c.named aid)
        ((c.at aid).writeTransparent i data).transparent ∧
      c'.named = c.named ∧ c'.at aid = (c.at aid).writeTransparent i data ∧
      c'.view = Function.update c.view (c.named aid, .transparent id)
        (some (((c.at aid).transparent.getD i Entry.null).write data)) := by
  refine ⟨c.setDirectory (c.named aid) ((c.at aid).writeTransparent i data), ?_,
    c.named_setDirectory _, ?_, c.view_setDirectory aid (Directory.entry_writeTransparent hi)⟩
  · exact c.card_setDirectory_transparent (c.named aid) rfl
  · rw [Content.at, c.named_setDirectory, c.directory_setDirectory aid _ rfl, if_pos rfl]

theorem setTransparent_write_eq_self_iff {aid : String} {id : UInt16} {i : ℕ} (data : List UInt8)
    (hi : (c.at aid).position id = some i) :
    c.card.setTransparent (c.named aid) ((c.at aid).writeTransparent i data).transparent =
        c.card ↔
      ((c.at aid).transparent.getD i Entry.null).write data =
        (c.at aid).transparent.getD i Entry.null := by
  have hlt : i < (c.at aid).transparent.length :=
    (List.findIdx?_eq_some_iff_getElem.mp hi).1
  rw [← set_eq_self_iff hlt]
  constructor
  · intro h
    have hread := congrArg (fun card => card.transparent (c.named aid)) h
    rwa [Content.transparent_setTransparent, Content.transparent_card] at hread
  · intro h
    have hfiles : ((c.at aid).writeTransparent i data).transparent = (c.at aid).transparent := h
    rw [hfiles, ← Content.transparent_card, Content.setTransparent_self]

theorem entry_transparent {d : Directory} {id : UInt16} {i : ℕ} (hi : d.position id = some i) :
    d.entry (.transparent id) = some (d.transparent.getD i Entry.null) := by
  have hlt : i < d.transparent.length := (List.findIdx?_eq_some_iff_getElem.mp hi).1
  rw [Directory.position] at hi
  rw [Directory.entry, List.find?_eq_bind_findIdx?_getElem?, hi, Option.bind_some,
    List.getElem?_eq_getElem hlt, List.getD_eq_getElem _ _ hlt]

/-- A write to a transparent file that is answered without an error is exact. -/
theorem writes_transparent {request : WriteEFTransparentRequest} {i : ℕ} {reply : Reply}
    (hi : (c.at request.aid).position (.ofInt request.fileId) = some i)
    (herror : reply.error = .success) :
    c.Writes (some (c.card.setTransparent (c.named request.aid)
        ((c.at request.aid).writeTransparent i (bytes request.data)).transparent, reply))
      (c.named request.aid, .transparent (.ofInt request.fileId)) (bytes request.data)
      fun card => card.ReadsTransparent request.aid request.fileId := by
  obtain ⟨c', hcard, hnamed, hat, hview⟩ := exists_writeTransparent (bytes request.data) hi
  refine ⟨?_, ?_, ?_⟩
  · rintro _ _ ⟨⟩ -
    exact ⟨c', _, hcard, hnamed, entry_transparent hi, hview⟩
  · rintro _ _ ⟨⟩ -
    have hentry := @Directory.entry_writeTransparent _ _ (bytes request.data) _ hi
      (.transparent (.ofInt request.fileId))
    rw [if_pos rfl, ← hat] at hentry
    rw [← hcard]
    exact ⟨_, readsTransparent_of_entry hentry, convertStringToVector_write _ _⟩
  · rintro _ _ ⟨⟩ hfailed
    exact absurd herror hfailed

theorem honoured_writeEFTransparent_iff (request : WriteEFTransparentRequest) :
    Honoured c (.writeEFTransparent request) ↔ Regular c (.writeEFTransparent request) := by
  unfold Honoured Regular
  dsimp only
  by_cases hstatus : request.api.status = .success
  · cases hi : (c.at request.aid).position (.ofInt request.fileId) with
    | none =>
      obtain ⟨answer, hanswer, hfailed⟩ := writeEFTransparent_of_no_position hstatus hi
      refine iff_of_true (writes_of_rejected fun card reply hreply => ?_)
        fun _ _ hnone => absurd hnone nofun
      obtain ⟨rfl, rfl⟩ := Prod.mk.inj (hanswer.symm.trans (Option.some.inj hreply))
      refine ⟨fun haccepted => ?_, rfl⟩
      rw [haccepted.2] at hfailed
      cases hfailed
    | some i =>
      obtain ⟨answer, hanswer, hok, herror⟩ := writeEFTransparent_of_position hstatus hi
      have hsame := setTransparent_write_eq_self_iff (bytes request.data) hi
      constructor
      · rintro hwrites - _ ⟨⟩ hfails
        refine hsame.mp (hwrites.rejected _ answer (congrArg some hanswer) ?_)
        rw [herror, writeError]
        split_ifs with hother
        · exact nofun
        · exact hfails.resolve_right hother
      · intro hregular
        rw [hanswer]
        by_cases hsuccess : answer.error = .success
        · exact writes_transparent hi hsuccess
        · refine writes_of_rejected fun card reply hreply => ?_
          obtain ⟨rfl, rfl⟩ := Prod.mk.inj (Option.some.inj hreply)
          refine ⟨fun haccepted => hsuccess haccepted.2,
            hsame.mpr (hregular hstatus i rfl (or_iff_not_imp_right.mpr fun hother hok => ?_))⟩
          rw [herror, writeError, if_neg hother] at hsuccess
          exact hsuccess hok
  · refine iff_of_true (writes_of_rejected fun card reply hreply => ?_) fun h => absurd h hstatus
    rw [CardState.writeEFTransparent] at hreply
    dsimp only at hreply
    rw [if_pos hstatus] at hreply
    cases hreply
    exact ⟨fun haccepted => hstatus haccepted.1, rfl⟩

end Transparent

/-! ## Requests -/

/-- A request does what the files are for exactly when it is a regular one. -/
theorem honoured_iff_regular (c : Content) (request : Request) :
    Honoured c request ↔ Regular c request := by
  cases request with
  | readEFLinearFixed request => exact honoured_readEFLinearFixed_iff request
  | writeEFLinearFixed request => exact honoured_writeEFLinearFixed_iff request
  | readEFLinearFixedAll request => exact honoured_readEFLinearFixedAll_iff request
  | writeEFTransparent request => exact honoured_writeEFTransparent_iff request

/-- The second of two linear fixed files. -/
def secondFile : Section Entry.numberOfRecords :=
  ⟨⟨2, 1, 0, 0, [], []⟩, [⟨0, 0, 140, 1, [], []⟩], rfl⟩

/-- A DF with two linear fixed files of one record each. -/
def twoFiles : Content where
  applications := []
  df :=
    { linearFixed := [⟨⟨1, 1, 0, 0, [], []⟩, [⟨0, 0, 144, 0, [], []⟩], rfl⟩, secondFile]
      transparent := []
      nodup_linearFixed := by decide
      nodup_transparent := List.nodup_nil }

/-- The record of the first file is returned for the second one. -/
theorem first_file_returned : ¬ ∀ request, Honoured twoFiles request := by
  intro h
  have hall := (honoured_readEFLinearFixedAll_iff _).mp
    (h (.readEFLinearFixedAll ⟨2, "", ⟨.success, .success, 0, true⟩⟩))
  have hsame := hall ⟨rfl, rfl⟩ rfl (2, secondFile) rfl 0 Nat.zero_lt_one
  have hsw1 : (144 : Int) = 140 := congrArg IccResult.sw1 hsame
  exact absurd hsw1 (by decide)

end Files

end Card

end SatComm
