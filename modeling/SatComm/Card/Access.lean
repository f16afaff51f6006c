import Mathlib.Data.List.GetD
import SatComm.Card.Files

/-!
# Access to the files of a card

Well-formed content is a directory for each application and one for the DF, each with linear fixed
and transparent files of distinct ids. A record number leads to an entry of the array, from its
front up to the last record of the file; it is the numbers from 1 on that lead to the records.
-/

namespace SatComm

namespace Card

namespace Files

open Codes (decimal)
open Headed
open Tel (convertIntVectorToString convertStringToVector convertStringToVector_of_fits fitsInt)

/-! ## Content -/

/-- The files of a directory, with distinct ids. -/
structure Directory where
  linearFixed : List (Section Entry.numberOfRecords)
  transparent : List Entry
  nodup_linearFixed : (linearFixed.map fun s => s.header.id).Nodup
  nodup_transparent : (transparent.map Entry.id).Nodup

def Directory.empty : Directory := ⟨[], [], List.nodup_nil, List.nodup_nil⟩

/-- The content of a well-formed card. -/
structure Content where
  applications : List (String × Directory)
  df : Directory

/-- A file, a record of a file, counted from 1, or a transparent file. -/
inductive EF
  | file (id : UInt16)
  | record (id : UInt16) (recordNumber : Int)
  | transparent (id : UInt16)
deriving DecidableEq, Repr

def Directory.entry (d : Directory) : EF → Option Entry
  | .file id => (find Entry.id id d.linearFixed).map fun p => p.2.header
  | .record id recordNumber =>
    if recordNumber < 1 then none
    else (find Entry.id id d.linearFixed).bind fun p => p.2.items[(recordNumber - 1).toNat]?
  | .transparent id => d.transparent.find? fun e => e.id = id

/-- A list of which one element is exchanged, and its image. -/
theorem map_modify {α β : Type*} (l : List α) (index : ℕ) (f : α → β) {g : α → α} {h : β → β}
    (hfg : ∀ a, l[index]? = some a → f (g a) = h (f a)) :
    (l.modify index g).map f = (l.map f).modify index h := by
  apply List.ext_getElem?
  intro i
  rw [List.getElem?_map, List.getElem?_modify, List.getElem?_modify, List.getElem?_map]
  cases hi : l[i]? with
  | none => rfl
  | some a =>
    by_cases heq : index = i
    · subst heq
      simp [hfg a hi]
    · simp [heq]

namespace Content

/-- How the content is stored. -/
def card (c : Content) : CardState where
  adf := c.applications.map fun p => ⟨p.1, flatten p.2.linearFixed, p.2.transparent⟩
  dfLinearFixedEFRecords := flatten c.df.linearFixed
  dfTransparentEFRecords := c.df.transparent

/-- The first application with this id, or the DF. -/
def named (c : Content) (aid : String) : Option ℕ :=
  c.applications.findIdx? fun p => p.1 = aid

def directory (c : Content) : Option ℕ → Directory
  | some index => (c.applications[index]?).elim .empty Prod.snd
  | none => c.df

def setDirectory (c : Content) (directory : Option ℕ) (d : Directory) : Content :=
  match directory with
  | some index => { c with applications := c.applications.modify index fun p => (p.1, d) }
  | none => { c with df := d }

/-- What is stored in a place. -/
def view (c : Content) (place : Option ℕ × EF) : Option Entry := (c.directory place.1).entry place.2

variable (c : Content) (aid : String) (directory : Option ℕ) {d : Directory}

theorem findAppId_card : c.card.findAppId aid = c.named aid := by
  rw [CardState.findAppId, card, List.findIdx?_map]
  rfl

theorem linearFixed_card :
    c.card.linearFixed directory = flatten (c.directory directory).linearFixed := by
  cases directory with
  | none => rfl
  | some index =>
    rw [CardState.linearFixed, card, List.getElem?_map, Content.directory]
    cases c.applications[index]? <;> rfl

theorem transparent_card :
    c.card.transparent directory = (c.directory directory).transparent := by
  cases directory with
  | none => rfl
  | some index =>
    rw [CardState.transparent, card, List.getElem?_map, Content.directory]
    cases c.applications[index]? <;> rfl

/-- There is an application at an index that is found. -/
theorem exists_application {index : ℕ} (h : c.named aid = some index) :
    ∃ p, c.applications[index]? = some p := by
  obtain ⟨hlt, -⟩ := List.findIdx?_eq_some_iff_getElem.mp h
  exact ⟨_, List.getElem?_eq_getElem hlt⟩

theorem directory_setDirectory (hnamed : c.named aid = directory) (directory' : Option ℕ) :
    (c.setDirectory directory d).directory directory' =
      if directory' = directory then d else c.directory directory' := by
  cases directory with
  | none => cases directory' <;> rfl
  | some index =>
    obtain ⟨p, hp⟩ := c.exists_application aid hnamed
    cases directory' with
    | none => rfl
    | some index' =>
      by_cases heq : index' = index
      · subst heq
        simp [Content.directory, setDirectory, hp]
      · simp [Content.directory, setDirectory, heq, Ne.symm heq]

/-- The linear fixed files of a directory are exchanged. -/
theorem card_setDirectory_linearFixed
    (htransparent : d.transparent = (c.directory directory).transparent) :
    (c.setDirectory directory d).card =
      c.card.setLinearFixed directory (flatten d.linearFixed) := by
  cases directory with
  | none => simp [card, setDirectory, CardState.setLinearFixed, htransparent, Content.directory]
  | some index =>
    simp only [card, setDirectory, CardState.setLinearFixed]
    congr 1
    apply map_modify
    intro p hp
    simp only [Content.directory, hp, Option.elim] at htransparent
    rw [htransparent]

/-- The transparent files of a directory are exchanged. -/
theorem card_setDirectory_transparent
    (hlinearFixed : d.linearFixed = (c.directory directory).linearFixed) :
    (c.setDirectory directory d).card = c.card.setTransparent directory d.transparent := by
  cases directory with
  | none => simp [card, setDirectory, CardState.setTransparent, hlinearFixed, Content.directory]
  | some index =>
    simp only [card, setDirectory, CardState.setTransparent]
    congr 1
    apply map_modify
    intro p hp
    simp only [Content.directory, hp, Option.elim] at hlinearFixed
    rw [hlinearFixed]

theorem named_setDirectory : (c.setDirectory directory d).named = c.named := by
  cases directory with
  | none => rfl
  | some index =>
    have hids : (c.applications.modify index fun p => (p.1, d)).map Prod.fst =
        c.applications.map Prod.fst := by
      have hmap : (c.applications.modify index fun p => (p.1, d)).map Prod.fst =
          (c.applications.map Prod.fst).modify index id := map_modify _ _ _ fun _ _ => rfl
      rw [hmap, List.modify_id]
    funext aid
    have hfind := congrArg (List.findIdx? fun appId => decide (appId = aid)) hids
    rwa [List.findIdx?_map, List.findIdx?_map] at hfind

/-- One entry of a directory is exchanged. -/
theorem view_setDirectory {ef : EF} {e : Entry}
    (hentry : ∀ ef', d.entry ef' =
      if ef' = ef then some e else (c.directory (c.named aid)).entry ef') :
    (c.setDirectory (c.named aid) d).view =
      Function.update c.view (c.named aid, ef) (some e) := by
  funext place
  rw [view, directory_setDirectory c aid _ rfl, Function.update_apply]
  by_cases hplace : place.1 = c.named aid
  · rw [if_pos hplace, hentry]
    by_cases hef : place.2 = ef
    · rw [if_pos hef, if_pos (Prod.ext hplace hef)]
    · rw [if_neg hef, if_neg fun heq => hef (congrArg Prod.snd heq), view, hplace]
  · rw [if_neg hplace, if_neg fun heq => hplace (congrArg Prod.fst heq), view]

/-- What is stored in the array of a request is what is read there. -/
theorem linearFixed_setLinearFixed (entries : List Entry) :
    (c.card.setLinearFixed (c.named aid) entries).linearFixed (c.named aid) = entries := by
  cases hnamed : c.named aid with
  | none => rfl
  | some index =>
    obtain ⟨p, hp⟩ := c.exists_application aid hnamed
    simp [CardState.setLinearFixed, CardState.linearFixed, card, hp]

theorem transparent_setTransparent (entries : List Entry) :
    (c.card.setTransparent (c.named aid) entries).transparent (c.named aid) = entries := by
  cases hnamed : c.named aid with
  | none => rfl
  | some index =>
    obtain ⟨p, hp⟩ := c.exists_application aid hnamed
    simp [CardState.setTransparent, CardState.transparent, card, hp]

/-- Storing what is there changes nothing. -/
theorem setLinearFixed_self (card : CardState) :
    card.setLinearFixed directory (card.linearFixed directory) = card := by
  cases directory with
  | none => rfl
  | some index =>
    rw [CardState.setLinearFixed]
    congr 1
    apply List.ext_getElem?
    intro i
    rw [List.getElem?_modify]
    by_cases heq : index = i
    · subst heq
      cases hadf : card.adf[index]? <;> simp [CardState.linearFixed, hadf]
    · simp [heq]

theorem setTransparent_self (card : CardState) :
    card.setTransparent directory (card.transparent directory) = card := by
  cases directory with
  | none => rfl
  | some index =>
    rw [CardState.setTransparent]
    congr 1
    apply List.ext_getElem?
    intro i
    rw [List.getElem?_modify]
    by_cases heq : index = i
    · subst heq
      cases hadf : card.adf[index]? <;> simp [CardState.transparent, hadf]
    · simp [heq]

end Content

/-! ## Where a record number leads -/

/-- The index that a record number leads to: record 0 is the header, and the negative numbers lead to
what is stored before the file. -/
def Directory.located (d : Directory) (id : UInt16) (recordNumber : Int) : Option ℕ :=
  match find Entry.id id d.linearFixed with
  | some (i, s) =>
    if recordNumber ≤ s.items.length ∧ 0 ≤ i + recordNumber then some (i + recordNumber).toNat
    else none
  | none => none

/-- The file exists and has a record with this number. -/
def Directory.Holds (d : Directory) (id : UInt16) (recordNumber : Int) : Prop :=
  ∃ s ∈ d.linearFixed, s.header.id = id ∧ 1 ≤ recordNumber ∧ recordNumber ≤ s.items.length

section Located

variable {d : Directory} {id : UInt16} {recordNumber : Int} {i j : ℕ}
  {s : Section Entry.numberOfRecords}

/-- Since the ids are distinct, the file that is found is the one with the id. -/
theorem Directory.exists_find (hs : s ∈ d.linearFixed) (hid : s.header.id = id) :
    ∃ i, find Entry.id id d.linearFixed = some (i, s) := by
  obtain ⟨us, ts, hsplit⟩ := List.append_of_mem hs
  have hnodup := d.nodup_linearFixed
  rw [hsplit, List.map_append, List.map_cons] at hnodup
  refine ⟨_, hsplit ▸ find_append (fun t ht heq => ?_) hid⟩
  have hdisjoint := List.disjoint_of_nodup_append hnodup
  refine hdisjoint (List.mem_map_of_mem ht) ?_
  rw [heq, hid]
  exact List.mem_cons_self

theorem Directory.mem_of_find (h : find Entry.id id d.linearFixed = some (i, s)) :
    s ∈ d.linearFixed ∧ s.header.id = id := by
  obtain ⟨us, ts, hsplit, -, hid, -⟩ := exists_append_of_find h
  rw [hsplit]
  exact ⟨List.mem_append_right us List.mem_cons_self, hid⟩

theorem Directory.exists_find_of_located (h : d.located id recordNumber = some j) :
    ∃ i s, find Entry.id id d.linearFixed = some (i, s) ∧ recordNumber ≤ s.items.length ∧
      0 ≤ i + recordNumber ∧ j = (i + recordNumber).toNat := by
  unfold located at h
  split at h
  · rename_i i s hfind
    split_ifs at h with hrange
    cases h
    exact ⟨i, s, hfind, hrange.1, hrange.2, rfl⟩
  · cases h

/-- The records of the file are where their numbers lead, but more numbers lead somewhere. -/
theorem Directory.holds_iff :
    d.Holds id recordNumber ↔ (d.located id recordNumber).isSome ∧ 1 ≤ recordNumber := by
  constructor
  · rintro ⟨s, hs, hid, hlow, hhigh⟩
    obtain ⟨i, hfind⟩ := d.exists_find hs hid
    have hrange : recordNumber ≤ s.items.length ∧ 0 ≤ i + recordNumber := ⟨hhigh, by omega⟩
    rw [located, hfind]
    dsimp only
    rw [if_pos hrange]
    exact ⟨rfl, hlow⟩
  · rintro ⟨hsome, hlow⟩
    obtain ⟨j, hj⟩ := Option.isSome_iff_exists.mp hsome
    obtain ⟨i, s, hfind, hhigh, -, -⟩ := exists_find_of_located hj
    obtain ⟨hs, hid⟩ := mem_of_find hfind
    exact ⟨s, hs, hid, hlow, hhigh⟩

/-- It is an index of the array. -/
theorem Directory.lt_length_of_located (h : d.located id recordNumber = some j) :
    j < (flatten d.linearFixed).length := by
  obtain ⟨i, s, hfind, hhigh, hlow, rfl⟩ := exists_find_of_located h
  obtain ⟨us, ts, hsplit, -, -, rfl⟩ := exists_append_of_find hfind
  rw [hsplit, flatten_append, flatten_cons, List.length_append, List.length_cons, List.length_append]
  omega

/-- The records of a file are the entries behind its header. -/
theorem Directory.exists_record (h : d.located id recordNumber = some j) (hlow : 1 ≤ recordNumber) :
    ∃ i s, find Entry.id id d.linearFixed = some (i, s) ∧ j = i + ((recordNumber - 1).toNat + 1) ∧
      (recordNumber - 1).toNat < s.items.length := by
  obtain ⟨i, s, hfind, hhigh, -, rfl⟩ := exists_find_of_located h
  exact ⟨i, s, hfind, by omega, by omega⟩

theorem Directory.entry_record (h : d.located id recordNumber = some j) (hlow : 1 ≤ recordNumber) :
    d.entry (.record id recordNumber) = (flatten d.linearFixed)[j]? := by
  obtain ⟨i, s, hfind, rfl, hlt⟩ := exists_record h hlow
  rw [entry, if_neg (by omega), hfind, getElem?_of_find hfind hlt]
  rfl

end Located

/-! ## The walks -/

section Walks

variable {ss : List (Section Entry.numberOfRecords)} {id : UInt16}

theorem walkFiles_flatten :
    walkFiles (flatten ss) id =
      match find Entry.id id ss with
      | none => some (none, (flatten ss).length)
      | some (i, s) => some (some s.header, i) := by
  rw [walkFiles, walk_flatten]
  cases find Entry.id id ss <;> rfl

theorem findmatchingrecord_flatten (recordNum : Int) :
    findmatchingrecord (flatten ss) recordNum id =
      match find Entry.id id ss with
      | none => some (.genericFailure, (flatten ss).length)
      | some (i, s) =>
        some (if recordNum ≤ s.items.length then .success else .genericFailure, i) := by
  rw [findmatchingrecord, walkFiles_flatten]
  cases find Entry.id id ss with
  | none =>
    dsimp only [Option.map_some]
    rw [if_pos rfl]
  | some p =>
    dsimp only [Option.map_some]
    rw [p.2.count_header]

theorem findmatchingrecordIn_eq (c : CardState) (directory : Option ℕ) (recordNum : Int) :
    c.findmatchingrecordIn directory recordNum id =
      findmatchingrecord (c.linearFixed directory) recordNum id := by
  cases directory <;> rfl

end Walks

/-! ## Records -/

section Records

variable (c : Content) {directory : Option ℕ} {id : UInt16} {recordNumber : Int} {j : ℕ}

theorem at?_of_nonneg {entries : List Entry} {i : Int} (h : 0 ≤ i) :
    at? entries i = some (entries.getD i.toNat Entry.null) :=
  if_neg (Int.not_lt.mpr h)

theorem at?_of_neg {entries : List Entry} {i : Int} (h : i < 0) : at? entries i = none := if_pos h

theorem put_of_lt {entries : List Entry} {e : Entry} (h : j < entries.length) :
    put entries j e = entries.set j e := by
  rw [put, show j + 1 - entries.length = 0 by omega, List.replicate_zero, List.append_nil]

theorem Content.findmatchingrecordIn_of_located
    (hj : (c.directory directory).located id recordNumber = some j) :
    ∃ i : Int, c.card.findmatchingrecordIn directory recordNumber id = some (.success, i) ∧
      0 ≤ i + recordNumber ∧ j = (i + recordNumber).toNat := by
  obtain ⟨i, s, hfind, hhigh, hlow, rfl⟩ := Directory.exists_find_of_located hj
  refine ⟨i, ?_, hlow, rfl⟩
  rw [findmatchingrecordIn_eq, linearFixed_card, findmatchingrecord_flatten, hfind]
  dsimp only
  rw [if_pos hhigh]

/-- What leads nowhere is rejected, or leads to a negative index. -/
theorem Content.findmatchingrecordIn_of_not_located
    (hj : (c.directory directory).located id recordNumber = none) :
    ∃ i : Int, c.card.findmatchingrecordIn directory recordNumber id = some (.genericFailure, i) ∨
      c.card.findmatchingrecordIn directory recordNumber id = some (.success, i) ∧
        i + recordNumber < 0 := by
  rw [findmatchingrecordIn_eq, linearFixed_card, findmatchingrecord_flatten]
  rw [Directory.located] at hj
  cases hfind : find Entry.id id (c.directory directory).linearFixed with
  | none => exact ⟨_, Or.inl rfl⟩
  | some p =>
    refine ⟨p.1, ?_⟩
    rw [hfind] at hj
    dsimp only at hj ⊢
    by_cases hhigh : recordNumber ≤ p.2.items.length
    · rw [if_pos hhigh]
      refine Or.inr ⟨rfl, ?_⟩
      by_contra hlow
      rw [if_pos ⟨hhigh, Int.not_lt.mp hlow⟩] at hj
      cases hj
    · rw [if_neg hhigh]
      exact Or.inl rfl

/-- A request that leads to an entry reads it. -/
theorem Content.readEFLinearFixed_of_located {request : ReadEFLinearFixedRequest}
    (hstatus : request.api.status = .success)
    (hj : (c.directory (c.named request.aid)).located (.ofInt request.fileId)
      request.recordNumber = some j) :
    c.card.readEFLinearFixed request = some (request.api.reply request.api.error
      ((flatten (c.directory (c.named request.aid)).linearFixed).getD j Entry.null).result) := by
  obtain ⟨i, hmatch, hlow, rfl⟩ := c.findmatchingrecordIn_of_located hj
  rw [CardState.readEFLinearFixed, if_neg (not_not.mpr hstatus), findAppId_card, hmatch,
    Option.bind_some, linearFixed_card]
  dsimp only
  rw [at?_of_nonneg hlow]
  rfl

/-- A request that leads nowhere is answered with an error, or not at all. -/
theorem Content.readEFLinearFixed_of_not_located {request : ReadEFLinearFixedRequest}
    (hstatus : request.api.status = .success)
    (hj : (c.directory (c.named request.aid)).located (.ofInt request.fileId)
      request.recordNumber = none) :
    ∀ reply, c.card.readEFLinearFixed request = some reply → reply.error = .genericFailure := by
  intro reply hreply
  rw [CardState.readEFLinearFixed, if_neg (not_not.mpr hstatus), findAppId_card] at hreply
  obtain ⟨i, hmatch | ⟨hmatch, hlow⟩⟩ := c.findmatchingrecordIn_of_not_located hj
  · rw [hmatch] at hreply
    cases hreply
    rfl
  · rw [hmatch, Option.bind_some] at hreply
    dsimp only at hreply
    rw [at?_of_neg hlow] at hreply
    cases hreply

theorem Content.writeEFLinearFixed_of_located {request : WriteEFLinearFixedRequest}
    (hstatus : request.api.status = .success)
    (hj : (c.directory (c.named request.aid)).located (.ofInt request.fileId)
      request.recordNumber = some j) :
    ∃ reply, c.card.writeEFLinearFixed request =
        some (c.card.setLinearFixed (c.named request.aid)
          ((flatten (c.directory (c.named request.aid)).linearFixed).set j
            (((flatten (c.directory (c.named request.aid)).linearFixed).getD j Entry.null).write
              (bytes request.data))), reply) ∧
      reply.status = .success ∧ reply.error = request.api.error := by
  have hlt := Directory.lt_length_of_located hj
  obtain ⟨i, hmatch, hlow, rfl⟩ := c.findmatchingrecordIn_of_located hj
  rw [CardState.writeEFLinearFixed]
  dsimp only
  rw [if_neg (not_not.mpr hstatus), findAppId_card, hmatch, Option.bind_some, linearFixed_card]
  dsimp only
  rw [at?_of_nonneg hlow, Option.map_some, put_of_lt hlt]
  exact ⟨_, rfl, hstatus, rfl⟩

theorem Content.writeEFLinearFixed_of_not_located {request : WriteEFLinearFixedRequest}
    (hstatus : request.api.status = .success)
    (hj : (c.directory (c.named request.aid)).located (.ofInt request.fileId)
      request.recordNumber = none) :
    ∀ card reply, c.card.writeEFLinearFixed request = some (card, reply) →
      card = c.card ∧ reply.error = .genericFailure := by
  intro card reply hreply
  rw [CardState.writeEFLinearFixed] at hreply
  dsimp only at hreply
  rw [if_neg (not_not.mpr hstatus), findAppId_card] at hreply
  obtain ⟨i, hmatch | ⟨hmatch, hlow⟩⟩ := c.findmatchingrecordIn_of_not_located hj
  · rw [hmatch] at hreply
    cases hreply
    exact ⟨rfl, rfl⟩
  · rw [hmatch, Option.bind_some] at hreply
    dsimp only at hreply
    rw [at?_of_neg hlow] at hreply
    cases hreply

end Records

/-! ## Writes -/

section Writes

variable {d : Directory} {id : UInt16} {recordNumber : Int} {e : Entry} {data : List UInt8}
  {i j : ℕ}

@[simp]
theorem Entry.id_write (e : Entry) (data : List UInt8) : (e.write data).id = e.id := rfl

def Directory.setRecord (d : Directory) (id : UInt16) (recordNumber : Int) (e : Entry) :
    Directory where
  linearFixed := setItem Entry.id id (recordNumber - 1).toNat e d.linearFixed
  transparent := d.transparent
  nodup_linearFixed := by
    have hheaders := congrArg (List.map Entry.id)
      (@map_header_setItem _ _ _ _ Entry.id id d.linearFixed (recordNumber - 1).toNat e)
    rw [List.map_map, List.map_map] at hheaders
    exact hheaders.symm ▸ d.nodup_linearFixed
  nodup_transparent := d.nodup_transparent

theorem Directory.flatten_setRecord (h : d.located id recordNumber = some j)
    (hlow : 1 ≤ recordNumber) :
    flatten (d.setRecord id recordNumber e).linearFixed = (flatten d.linearFixed).set j e := by
  obtain ⟨i, s, hfind, rfl, hlt⟩ := exists_record h hlow
  exact flatten_setItem hfind hlt

/-- Only the record is another one. -/
theorem Directory.entry_setRecord (h : d.located id recordNumber = some j)
    (hlow : 1 ≤ recordNumber) (ef : EF) :
    (d.setRecord id recordNumber e).entry ef =
      if ef = .record id recordNumber then some e else d.entry ef := by
  obtain ⟨i, s, hfind, -, hlt⟩ := exists_record h hlow
  cases ef with
  | transparent id' => rfl
  | file id' =>
    rw [if_neg nofun, entry, entry, setRecord, find_setItem, Option.map_map]
    congr 1
    funext p
    by_cases heq : id' = id <;> simp [heq, Section.setItem]
  | record id' recordNumber' =>
    rw [entry, entry]
    by_cases hnone : recordNumber' < 1
    · have hne : EF.record id' recordNumber' ≠ .record id recordNumber := by
        rintro heq
        obtain ⟨rfl, rfl⟩ := EF.record.inj heq
        omega
      rw [if_pos hnone, if_pos hnone, if_neg hne]
    · rw [if_neg hnone, if_neg hnone, setRecord, find_setItem, Option.bind_map]
      by_cases hid : id' = id
      · subst hid
        rw [hfind, Option.bind_some, Option.bind_some, Function.comp_apply]
        dsimp only
        rw [if_pos rfl]
        by_cases hnumber : recordNumber' = recordNumber
        · rw [hnumber, if_pos rfl]
          exact List.getElem?_set_self hlt
        · have hne : EF.record id' recordNumber' ≠ .record id' recordNumber := fun heq =>
            hnumber (EF.record.inj heq).2
          rw [if_neg hne]
          exact List.getElem?_set_ne (by omega)
      · have hne : EF.record id' recordNumber' ≠ .record id recordNumber := fun heq =>
          hid (EF.record.inj heq).1
        rw [if_neg hne]
        congr 1
        funext p
        rw [Function.comp_apply, if_neg hid]

/-- Record numbers lead where they did. -/
theorem Directory.located_setRecord (id' : UInt16) (recordNumber' : Int) :
    (d.setRecord id recordNumber e).located id' recordNumber' = d.located id' recordNumber' := by
  rw [located, located, setRecord, find_setItem]
  cases find Entry.id id' d.linearFixed with
  | none => rfl
  | some p =>
    by_cases heq : id' = id
    · simp [heq, Section.setItem]
    · simp [heq]

/-- Where a transparent file is. -/
def Directory.position (d : Directory) (id : UInt16) : Option ℕ :=
  d.transparent.findIdx? fun e => e.id = id

theorem Directory.exists_append_of_position (h : d.position id = some i) :
    ∃ us e ts, d.transparent = us ++ e :: ts ∧ us.length = i ∧ e.id = id ∧
      ∀ t ∈ us, t.id ≠ id := by
  obtain ⟨hlt, hid, hbefore⟩ := List.findIdx?_eq_some_iff_getElem.mp h
  refine ⟨d.transparent.take i, d.transparent[i], d.transparent.drop (i + 1), ?_, ?_,
    of_decide_eq_true hid, ?_⟩
  · rw [← List.drop_eq_getElem_cons hlt, List.take_append_drop]
  · rw [List.length_take]
    omega
  · intro t ht heq
    obtain ⟨k, hk, rfl⟩ := List.getElem_of_mem ht
    rw [List.length_take] at hk
    rw [List.getElem_take] at heq
    exact hbefore k (by omega) (decide_eq_true heq)

/-- Write to a transparent file in place. -/
def Directory.writeTransparent (d : Directory) (i : ℕ) (data : List UInt8) : Directory where
  linearFixed := d.linearFixed
  transparent := d.transparent.set i ((d.transparent.getD i Entry.null).write data)
  nodup_linearFixed := d.nodup_linearFixed
  nodup_transparent := by
    rw [List.map_set, Entry.id_write]
    by_cases hlt : i < d.transparent.length
    · rw [List.getD_eq_getElem _ _ hlt, ← List.getElem_map Entry.id, List.set_getElem_self]
      · exact d.nodup_transparent
      · rwa [List.length_map]
    · rw [List.set_eq_of_length_le]
      · exact d.nodup_transparent
      · rw [List.length_map]
        omega

theorem Directory.entry_writeTransparent (h : d.position id = some i) (ef : EF) :
    (d.writeTransparent i data).entry ef =
      if ef = .transparent id then some ((d.transparent.getD i Entry.null).write data)
      else d.entry ef := by
  obtain ⟨us, e, ts, hsplit, rfl, hid, hus⟩ := exists_append_of_position h
  have hgetD : d.transparent.getD us.length Entry.null = e := by
    rw [hsplit, List.getD_eq_getElem?_getD, List.getElem?_append_right (Nat.le_refl _),
      Nat.sub_self]
    rfl
  cases ef with
  | file id' => rfl
  | record id' recordNumber => rfl
  | transparent id' =>
    rw [entry, entry, writeTransparent]
    dsimp only
    rw [hgetD, hsplit, List.set_append_right _ _ (Nat.le_refl _), Nat.sub_self, List.set_cons_zero,
      List.find?_append, List.find?_append, List.find?_cons, List.find?_cons, Entry.id_write]
    by_cases heq : id' = id
    · subst heq
      have hnone : us.find? (fun e => decide (e.id = id')) = none :=
        List.find?_eq_none.mpr fun t ht htrue => hus t ht (of_decide_eq_true htrue)
      rw [hnone, if_pos rfl, decide_eq_true hid]
      rfl
    · have hne : e.id ≠ id' := fun hid' => heq (hid'.symm.trans hid)
      have hne' : EF.transparent id' ≠ .transparent id := fun h => heq (EF.transparent.inj h)
      rw [if_neg hne', decide_eq_false hne]

/-- The data that are written are read back. -/
theorem convertStringToVector_write (e : Entry) (data : List UInt8) :
    convertStringToVector (e.write data).data = data.map fun b => (b.toNat : Int) := by
  have htext : (e.write data).data =
      convertIntVectorToString (data.map fun b => (b.toNat : Int)) := by
    rw [convertIntVectorToString, List.flatMap_map]
    rfl
  rw [htext]
  apply convertStringToVector_of_fits
  intro n hn
  obtain ⟨b, -, rfl⟩ := List.mem_map.mp hn
  have hlt : b.toNat < 256 := b.toNat_lt
  simp only [fitsInt, Bool.and_eq_true, decide_eq_true_eq]
  omega

end Writes

end Files

end Card

end SatComm
