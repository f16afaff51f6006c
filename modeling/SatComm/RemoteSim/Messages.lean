import Mathlib

/-!
# The messages of a remote SIM

The daemon, beside the modem, and the provider, beside the SIM card, write messages to a TCP
connection. A message has no length of its own: whatever one `read` returns is taken for one
message. `handleDaemonMsg_eq_iff` and `handleClientMsg_eq_iff` tell for which pieces of the stream
the receiver does what the sender meant.
-/

namespace SatComm

namespace RemoteSim

def apduTransferMsg : UInt8 := 0
def cardConnectMsg : UInt8 := 1
def cardDisconnectMsg : UInt8 := 2
def cardPowerUpMsg : UInt8 := 3
def cardPowerDownMsg : UInt8 := 4
def cardResetMsg : UInt8 := 5
def cardInsertedMsg : UInt8 := 6
def cardRemovedMsg : UInt8 := 7
def connKeepaliveMsg : UInt8 := 8

/-- A place of the buffer. The buffer is zeroed before each read, and no place behind `BUF_LEN` is
looked at. -/
def byteAt (buf : List UInt8) (i : Nat) : UInt8 := buf.getD i 0

/-- `n` bytes of the buffer from place `start` on. -/
def bytesFrom (buf : List UInt8) (start n : Nat) : List UInt8 :=
  (List.range n).map fun i => byteAt buf (i + start)

section Buffer

variable (xs ys : List UInt8) (x : UInt8)

@[simp]
theorem byteAt_nil (i : Nat) : byteAt [] i = 0 := rfl

@[simp]
theorem byteAt_cons_zero : byteAt (x :: xs) 0 = x := rfl

@[simp]
theorem byteAt_cons_succ (i : Nat) : byteAt (x :: xs) (i + 1) = byteAt xs i := rfl

theorem byteAt_append_right (i : Nat) : byteAt (xs ++ ys) (xs.length + i) = byteAt ys i := by
  simp only [byteAt, List.getD_eq_getElem?_getD]
  rw [List.getElem?_append_right (Nat.le_add_right _ _), Nat.add_sub_cancel_left]

theorem byteAt_of_length_le {i : Nat} (h : xs.length ≤ i) : byteAt xs i = 0 :=
  List.getD_eq_default xs 0 h

@[simp]
theorem length_bytesFrom (buf : List UInt8) (start n : Nat) : (bytesFrom buf start n).length = n :=
  by simp [bytesFrom]

theorem bytesFrom_cons_succ (start n : Nat) :
    bytesFrom (x :: xs) (start + 1) n = bytesFrom xs start n := rfl

/-- The bytes that stand at the start of the buffer. -/
theorem bytesFrom_append : bytesFrom (xs ++ ys) 0 xs.length = xs := by
  apply List.ext_getElem (length_bytesFrom _ _ _)
  intro i _ hi
  simp [bytesFrom, byteAt, List.getElem?_append_left hi, List.getElem?_eq_getElem hi]

end Buffer

/-- Data of a command, of a length that its one byte can tell. -/
structure Data where
  bytes : List UInt8
  nonempty : 0 < bytes.length
  short : bytes.length ≤ 255

/-- `Lc`. -/
def Data.lc (d : Data) : UInt8 := UInt8.ofNat d.bytes.length

@[simp]
theorem Data.toNat_lc (d : Data) : d.lc.toNat = d.bytes.length := by
  have := d.short
  simp only [Data.lc, UInt8.toNat_ofNat']
  omega

theorem Data.lc_ne_zero (d : Data) : d.lc ≠ 0 := by
  intro h
  have hlen := d.toNat_lc
  rw [h] at hlen
  exact absurd hlen.symm d.nonempty.ne'

/-- What follows CLA INS P1 P2, by the four cases of the specification. -/
inductive Body
  | case1
  | case2 (le : UInt8)
  | case3 (data : Data)
  | case4 (data : Data) (le : UInt8)

structure Command where
  cla : UInt8
  instruction : UInt8
  p1 : UInt8
  p2 : UInt8
  body : Body

def Body.lc : Body → UInt8
  | .case1 => 0
  | .case2 _ => 0
  | .case3 data => data.lc
  | .case4 data _ => data.lc

def Body.data : Body → List UInt8
  | .case1 => []
  | .case2 _ => []
  | .case3 data => data.bytes
  | .case4 data _ => data.bytes

def Body.le : Body → UInt8
  | .case1 => 0
  | .case2 le => le
  | .case3 _ => 0
  | .case4 _ le => le

def Body.encode : Body → List UInt8
  | .case1 => []
  | .case2 le => [le]
  | .case3 data => data.lc :: data.bytes
  | .case4 data le => data.lc :: (data.bytes ++ [le])

/-- The APDU of a command, as the modem gives it. -/
def Command.encode (c : Command) : List UInt8 :=
  c.cla :: c.instruction :: c.p1 :: c.p2 :: c.body.encode

/-- What the SIM is asked to do with one APDU; the callback remembers `apduId`. -/
structure TransmitApdu where
  cla : UInt8
  instruction : UInt8
  p1 : UInt8
  p2 : UInt8
  lc : UInt8
  data : List UInt8
  le : UInt8
  apduId : UInt8
deriving DecidableEq, Repr

/-- The fields of a command, asked for under the given id. -/
def Command.transmit (c : Command) (apduId : UInt8) : TransmitApdu :=
  ⟨c.cla, c.instruction, c.p1, c.p2, c.body.lc, c.body.data, c.body.le, apduId⟩

/-- The bytes the daemon writes for an APDU of the modem; the id of the modem is an unsigned int. -/
def sendApduRequest (id : Nat) (apdu : List UInt8) : List UInt8 :=
  apduTransferMsg :: UInt8.ofNat id :: apdu

/-- What the provider asks of the card services on one message. -/
inductive Request
  | transmitApdu (args : TransmitApdu)
  | connectToCard
  | disconnectFromCard
  | powerUpCard
  | powerDownCard
  | resetCard
  | sendConnKeepaliveResponse
deriving DecidableEq, Repr

/-- The arguments for `transmitApdu` that `bytes` bytes in `buf` stand for. -/
def sendApduToSim (cardConnected : Bool) (buf : List UInt8) : Option TransmitApdu :=
  let bytes := buf.length
  if cardConnected = false then none
  else if bytes < 6 then none
  else
    let lc := if bytes < 8 then 0 else byteAt buf 6
    if 0 < lc.toNat ∧ bytes < lc.toNat + 7 then none
    else
      let le :=
        if bytes = 7 then byteAt buf 6
        else if lc.toNat + 7 < bytes then byteAt buf (lc.toNat + 7)
        else 0
      some ⟨byteAt buf 2, byteAt buf 3, byteAt buf 4, byteAt buf 5, lc,
        bytesFrom buf 7 lc.toNat, le, byteAt buf 1⟩

/-- The provider's switch over the type of a message. -/
def handleDaemonMsg (cardConnected : Bool) (buf : List UInt8) : Option Request :=
  match (byteAt buf 0).toNat with
  | 0 => (sendApduToSim cardConnected buf).map .transmitApdu
  | 1 => some .connectToCard
  | 2 => some .disconnectFromCard
  | 3 => some .powerUpCard
  | 4 => some .powerDownCard
  | 5 => some .resetCard
  | 8 => some .sendConnKeepaliveResponse
  | _ => none

/-- The bytes behind a command that its reading survives. -/
def Body.Spares : Body → List UInt8 → Prop
  | .case1, behind => ∀ b ∈ behind.take 2, b = 0
  | .case2 le, behind => behind = [] ∨ le = 0 ∧ behind.head? = some 0
  | .case3 _, behind => ∀ b ∈ behind.head?, b = 0
  | .case4 _ _, _ => True

/-- The case has an `Le`, which is the last byte of the command. -/
def Body.HasLe : Body → Prop
  | .case1 => False
  | .case2 _ => True
  | .case3 _ => False
  | .case4 _ _ => True

/-- `Lc`, the data and `Le` as read from what follows CLA INS P1 P2. -/
def readBody (rest : List UInt8) : Option (UInt8 × List UInt8 × UInt8) :=
  let lc := if rest.length < 2 then 0 else byteAt rest 0
  if 0 < lc.toNat ∧ rest.length < lc.toNat + 1 then none
  else
    let le :=
      if rest.length = 1 then byteAt rest 0
      else if lc.toNat + 1 < rest.length then byteAt rest (lc.toNat + 1)
      else 0
    some (lc, bytesFrom rest 1 lc.toNat, le)

def Body.fields (b : Body) : UInt8 × List UInt8 × UInt8 := (b.lc, b.data, b.le)

section Read

variable (t id cla instruction p1 p2 : UInt8)

theorem sendApduToSim_cons (rest : List UInt8) :
    sendApduToSim true (t :: id :: cla :: instruction :: p1 :: p2 :: rest) =
      (readBody rest).map fun r => ⟨cla, instruction, p1, p2, r.1, r.2.1, r.2.2, id⟩ := by
  have hlen : (t :: id :: cla :: instruction :: p1 :: p2 :: rest).length = rest.length + 6 := rfl
  have hdata : ∀ n, bytesFrom (t :: id :: cla :: instruction :: p1 :: p2 :: rest) 7 n =
      bytesFrom rest 1 n := fun _ => rfl
  have hplace : ∀ n, byteAt (t :: id :: cla :: instruction :: p1 :: p2 :: rest) (n + 7) =
      byteAt rest (n + 1) := fun _ => rfl
  have hsix : byteAt (t :: id :: cla :: instruction :: p1 :: p2 :: rest) 6 = byteAt rest 0 := rfl
  have hcase : (rest.length + 6 < 8) = (rest.length < 2) := by
    apply propext
    omega
  have hone : (rest.length + 6 = 7) = (rest.length = 1) := by
    apply propext
    omega
  have hshort : ∀ n, (rest.length + 6 < n + 7) = (rest.length < n + 1) := by
    intro n
    apply propext
    omega
  have hlong : ∀ n, (n + 7 < rest.length + 6) = (n + 1 < rest.length) := by
    intro n
    apply propext
    omega
  simp only [sendApduToSim, readBody, hlen, hdata, hplace, hsix, hcase, hone, hshort, hlong]
  rw [if_neg (by decide), if_neg (by omega)]
  split
  · rfl
  · split
    · rfl
    · rfl

/-- Less than CLA INS P1 P2 is turned down. -/
theorem sendApduToSim_short {connected : Bool} {buf : List UInt8} (h : buf.length < 6) :
    sendApduToSim connected buf = none := by
  simp only [sendApduToSim, if_pos h]
  split <;> rfl

theorem readBody_nil : readBody [] = some (0, [], 0) := rfl

theorem readBody_singleton (b : UInt8) : readBody [b] = some (0, [], b) := rfl

theorem readBody_zero (b : UInt8) (rest : List UInt8) :
    readBody (0 :: b :: rest) = some (0, [], b) := by
  simp [readBody, bytesFrom]

/-- With an `Lc`, all of its data has to be there, and a byte behind the data is `Le`. -/
theorem readBody_data {lc : UInt8} (hlc : 0 < lc.toNat) {rest : List UInt8} (hrest : rest ≠ []) :
    readBody (lc :: rest) =
      if rest.length < lc.toNat then none
      else some (lc, bytesFrom rest 0 lc.toNat, byteAt rest lc.toNat) := by
  have hpos : 0 < rest.length := List.length_pos_iff.mpr hrest
  have htwo : ¬ rest.length + 1 < 2 := by omega
  simp only [readBody, List.length_cons, byteAt_cons_zero, byteAt_cons_succ, if_neg htwo]
  by_cases hshort : rest.length < lc.toNat
  · rw [if_pos ⟨hlc, by omega⟩, if_pos hshort]
  · rw [if_neg (by omega), if_neg hshort, if_neg (by omega), bytesFrom_cons_succ]
    by_cases hmore : lc.toNat < rest.length
    · rw [if_pos (by omega)]
    · rw [if_neg (by omega), byteAt_of_length_le rest (not_lt.mp hmore)]

/-- What is read of data and what is behind it. -/
theorem readBody_lc (data : Data) (behind : List UInt8) :
    readBody (data.lc :: (data.bytes ++ behind)) =
      some (data.lc, data.bytes, byteAt behind 0) := by
  have hpos := data.nonempty
  have hne : data.bytes ++ behind ≠ [] := by
    intro h
    rw [(List.append_eq_nil_iff.mp h).1] at hpos
    cases hpos
  rw [readBody_data (by rw [Data.toNat_lc]; exact hpos) hne, Data.toNat_lc,
    if_neg (by rw [List.length_append]; omega), bytesFrom_append]
  congr 3
  exact byteAt_append_right data.bytes behind 0

/-- Data that the read cut short is not transmitted under its `Lc`. -/
theorem readBody_cut {data : Data} {rest : List UInt8} (h : rest.length < data.bytes.length)
    {r : UInt8 × List UInt8 × UInt8} (hr : r.1 = data.lc) :
    readBody (data.lc :: rest) ≠ some r := by
  intro heq
  have hpos : 0 < data.lc.toNat := by
    rw [Data.toNat_lc]
    exact data.nonempty
  cases rest with
  | nil =>
    rw [readBody_singleton] at heq
    rw [← Option.some.inj heq] at hr
    exact data.lc_ne_zero hr.symm
  | cons b rest =>
    rw [readBody_data hpos (List.cons_ne_nil b rest), Data.toNat_lc, if_pos h] at heq
    cases heq

/-- A piece of the stream that starts with `xs` ends in `xs`, or goes on behind it. -/
theorem short_or_append_of_prefix {r xs ys : List UInt8} (h : r <+: xs ++ ys) :
    r.length < xs.length ∨ ∃ more, r = xs ++ more ∧ more <+: ys := by
  by_cases hlen : r.length < xs.length
  · exact .inl hlen
  · obtain ⟨more, hmore⟩ := List.prefix_of_prefix_length_le (List.prefix_append xs ys) h
      (not_lt.mp hlen)
    refine .inr ⟨more, hmore.symm, ?_⟩
    rw [← hmore] at h
    exact (List.prefix_append_right_inj xs).mp h

/-- What has been read is the body and bytes it spares, or lacks an `Le` of zero. -/
def Body.Kept (b : Body) (rest : List UInt8) : Prop :=
  (∃ more, rest = b.encode ++ more ∧ b.Spares more) ∨ b.HasLe ∧ rest ++ [0] = b.encode

theorem readBody_case1 (rest : List UInt8) :
    readBody rest = some Body.case1.fields ↔ Body.case1.Kept rest := by
  have hkept : Body.case1.Kept rest ↔ ∀ b ∈ rest.take 2, b = 0 := by
    simp [Body.Kept, Body.encode, Body.Spares, Body.HasLe]
  have hfields : Body.case1.fields = (0, [], 0) := rfl
  rw [hkept, hfields]
  cases rest with
  | nil =>
    rw [readBody_nil]
    simp
  | cons lc rest =>
    cases rest with
    | nil => simp [readBody_singleton]
    | cons le rest =>
      by_cases hlc : lc = 0
      · subst hlc
        simp [readBody_zero]
      · have hpos : 0 < lc.toNat := Nat.pos_of_ne_zero fun h => hlc (UInt8.toNat_inj.mp h)
        rw [readBody_data hpos (List.cons_ne_nil le rest)]
        constructor
        · intro h
          split at h
          · cases h
          · exact absurd (congrArg Prod.fst (Option.some.inj h)) hlc
        · intro h
          exact absurd (h lc List.mem_cons_self) hlc

theorem readBody_case2 {le : UInt8} {rest behind : List UInt8} (h : rest <+: le :: behind) :
    readBody rest = some (Body.case2 le).fields ↔ (Body.case2 le).Kept rest := by
  have hfields : (Body.case2 le).fields = (0, [], le) := rfl
  rw [hfields]
  rcases List.prefix_cons_iff.mp h with rfl | ⟨more, rfl, _⟩
  · rw [readBody_nil]
    simp [Body.Kept, Body.encode, Body.HasLe]
  · have hkept : (Body.case2 le).Kept (le :: more) ↔ more = [] ∨ le = 0 ∧ more.head? = some 0 := by
      simp [Body.Kept, Body.encode, Body.Spares, Body.HasLe]
    rw [hkept]
    cases more with
    | nil => simp [readBody_singleton]
    | cons b more =>
      by_cases hle : le = 0
      · subst hle
        simp [readBody_zero]
      · have hpos : 0 < le.toNat := Nat.pos_of_ne_zero fun h => hle (UInt8.toNat_inj.mp h)
        rw [readBody_data hpos (List.cons_ne_nil b more)]
        constructor
        · intro h
          split at h
          · cases h
          · exact absurd (congrArg Prod.fst (Option.some.inj h)) hle
        · rintro (h | ⟨h, _⟩)
          · cases h
          · exact absurd h hle

theorem readBody_case3 {data : Data} {rest behind : List UInt8}
    (h : rest <+: data.lc :: (data.bytes ++ behind)) :
    readBody rest = some (Body.case3 data).fields ↔ (Body.case3 data).Kept rest := by
  have hkept : (Body.case3 data).Kept rest ↔
      ∃ more, rest = data.lc :: (data.bytes ++ more) ∧ ∀ b ∈ more.head?, b = 0 := by
    simp [Body.Kept, Body.encode, Body.Spares, Body.HasLe]
  have hfields : (Body.case3 data).fields = (data.lc, data.bytes, 0) := rfl
  rw [hkept, hfields]
  rcases List.prefix_cons_iff.mp h with rfl | ⟨read, rfl, hread⟩
  · constructor
    · intro h
      exact absurd (congrArg Prod.fst (Option.some.inj h)) data.lc_ne_zero.symm
    · rintro ⟨more, h, _⟩
      cases h
  · rcases short_or_append_of_prefix hread with hshort | ⟨more, rfl, _⟩
    · constructor
      · intro h
        exact absurd h (readBody_cut hshort rfl)
      · rintro ⟨more, h, _⟩
        have hlen := congrArg List.length (List.cons.inj h).2
        rw [List.length_append] at hlen
        omega
    · rw [readBody_lc]
      cases more with
      | nil => simp
      | cons b more => simp

theorem readBody_case4 {data : Data} {le : UInt8} {rest behind : List UInt8}
    (h : rest <+: data.lc :: (data.bytes ++ le :: behind)) :
    readBody rest = some (Body.case4 data le).fields ↔ (Body.case4 data le).Kept rest := by
  have hkept : (Body.case4 data le).Kept rest ↔
      (∃ more, rest = data.lc :: (data.bytes ++ le :: more)) ∨
        rest ++ [0] = data.lc :: (data.bytes ++ [le]) := by
    simp [Body.Kept, Body.encode, Body.Spares, Body.HasLe]
  have hfields : (Body.case4 data le).fields = (data.lc, data.bytes, le) := rfl
  rw [hkept, hfields]
  have hpos := data.nonempty
  rcases List.prefix_cons_iff.mp h with rfl | ⟨read, rfl, hread⟩
  · constructor
    · intro h
      exact absurd (congrArg Prod.fst (Option.some.inj h)) data.lc_ne_zero.symm
    · rintro (⟨more, h⟩ | h)
      · cases h
      · have hlen := congrArg List.length h
        simp at hlen
  · rcases short_or_append_of_prefix hread with hshort | ⟨more, rfl, hmore⟩
    · constructor
      · intro h
        exact absurd h (readBody_cut hshort rfl)
      · rintro (⟨more, h⟩ | h)
        · have hlen := congrArg List.length (List.cons.inj h).2
          rw [List.length_append] at hlen
          omega
        · have hlen := congrArg List.length h
          simp at hlen
          omega
    · rw [readBody_lc]
      rcases List.prefix_cons_iff.mp hmore with rfl | ⟨more, rfl, _⟩
      · simp [eq_comm]
      · simp

theorem readBody_eq_iff (b : Body) {rest behind : List UInt8} (h : rest <+: b.encode ++ behind) :
    readBody rest = some b.fields ↔ b.Kept rest := by
  cases b with
  | case1 => exact readBody_case1 rest
  | case2 le => exact readBody_case2 h
  | case3 data => exact readBody_case3 h
  | case4 data le =>
    refine @readBody_case4 data le rest behind ?_
    simpa [Body.encode] using h

/-- The request of the daemon for a command of the modem. -/
def Command.request (c : Command) (id : Nat) : List UInt8 := sendApduRequest id c.encode

theorem Command.request_eq (c : Command) (id : Nat) :
    c.request id =
      [apduTransferMsg, UInt8.ofNat id, c.cla, c.instruction, c.p1, c.p2] ++ c.body.encode := rfl

theorem handleDaemonMsg_apdu (connected : Bool) (rest : List UInt8) :
    handleDaemonMsg connected (apduTransferMsg :: rest) =
      (sendApduToSim connected (apduTransferMsg :: rest)).map .transmitApdu := rfl

/-- Behind the header it is the body that counts. -/
theorem handleDaemonMsg_header (c : Command) (id : Nat) (rest : List UInt8) :
    handleDaemonMsg true
        ([apduTransferMsg, UInt8.ofNat id, c.cla, c.instruction, c.p1, c.p2] ++ rest) =
      some (.transmitApdu (c.transmit (UInt8.ofNat id))) ↔ readBody rest = some c.body.fields := by
  rw [List.cons_append, handleDaemonMsg_apdu]
  simp only [List.cons_append, List.nil_append, sendApduToSim_cons]
  cases readBody rest with
  | none => simp
  | some r =>
    obtain ⟨lc, data, le⟩ := r
    simp [Command.transmit, Body.fields]

/-- The provider transmits the command that the modem asked for from just these pieces of the
stream: all of the request with bytes behind it that the case of the command spares, or all but an
`Le` of zero. -/
theorem handleDaemonMsg_eq_iff (c : Command) (id : Nat) {buf behind : List UInt8}
    (h : buf <+: c.request id ++ behind) :
    handleDaemonMsg true buf = some (.transmitApdu (c.transmit (UInt8.ofNat id))) ↔
      (∃ more, buf = c.request id ++ more ∧ c.body.Spares more) ∨
        c.body.HasLe ∧ buf ++ [0] = c.request id := by
  rw [Command.request_eq, List.append_assoc] at h
  rcases short_or_append_of_prefix h with hshort | ⟨rest, rfl, hrest⟩
  · have hlen : buf.length < 6 := hshort
    constructor
    · intro heq
      cases buf with
      | nil => cases heq
      | cons t buf =>
        obtain rfl : t = apduTransferMsg := (List.cons_prefix_cons.mp h).1
        rw [handleDaemonMsg_apdu, sendApduToSim_short hlen] at heq
        cases heq
    · rintro (⟨more, heq, _⟩ | ⟨hle, heq⟩)
      · have := congrArg List.length heq
        simp [Command.request_eq] at this
        omega
      · have := congrArg List.length heq
        cases hb : c.body with
        | case1 => rw [hb] at hle; exact hle.elim
        | case2 le =>
          simp [Command.request_eq, hb, Body.encode] at this
          omega
        | case3 data => rw [hb] at hle; exact hle.elim
        | case4 data le =>
          simp [Command.request_eq, hb, Body.encode] at this
          omega
  · have hkept : c.body.Kept rest ↔
        (∃ more, [apduTransferMsg, UInt8.ofNat id, c.cla, c.instruction, c.p1, c.p2] ++ rest =
            c.request id ++ more ∧ c.body.Spares more) ∨
          c.body.HasLe ∧
            [apduTransferMsg, UInt8.ofNat id, c.cla, c.instruction, c.p1, c.p2] ++ rest ++ [0] =
              c.request id := by
      simp only [Body.Kept, Command.request_eq, List.append_assoc, List.append_cancel_left_eq]
    rw [handleDaemonMsg_header, readBody_eq_iff c.body hrest, hkept]

end Read

/-- SELECT of the MF. -/
def selectMf : Command := ⟨0, 0xA4, 0, 4, .case3 ⟨[0x3F, 0], by decide, by decide⟩⟩

theorem selectMf_before_request :
    selectMf.request 1 ++ selectMf.request 2 <+: selectMf.request 1 ++ selectMf.request 2 ∧
      (handleDaemonMsg true (selectMf.request 1 ++ selectMf.request 2) =
          some (.transmitApdu (selectMf.transmit (UInt8.ofNat 1))) ↔
        (∃ more, selectMf.request 1 ++ selectMf.request 2 = selectMf.request 1 ++ more ∧
          selectMf.body.Spares more) ∨
          selectMf.body.HasLe ∧
            selectMf.request 1 ++ selectMf.request 2 ++ [0] = selectMf.request 1) :=
  ⟨List.prefix_rfl, handleDaemonMsg_eq_iff selectMf 1 List.prefix_rfl⟩

/-- What the provider writes, each in one message. -/
inductive ProviderMsg
  | apduResponse (data : List Int) (apduId : UInt8)
  | cardReset (atr : List Int)
  | cardInserted (atr : List Int)
  | cardRemoved
  | connKeepalive
deriving DecidableEq, Repr

/-- A vector of int, stored as bytes. -/
def storedBytes (data : List Int) : List UInt8 := data.map UInt8.ofInt

def sendApduResponse (data : List Int) (apduId : UInt8) : List UInt8 :=
  apduTransferMsg :: apduId :: UInt8.ofNat data.length :: storedBytes data

def sendCardResetResponse (responseAtr : List Int) : List UInt8 :=
  cardResetMsg :: UInt8.ofNat responseAtr.length :: storedBytes responseAtr

def sendCardInsertedMessage (responseAtr : List Int) : List UInt8 :=
  cardInsertedMsg :: UInt8.ofNat responseAtr.length :: storedBytes responseAtr

def sendCardRemovedMessage : List UInt8 := [cardRemovedMsg]

def sendConnKeepaliveResponse : List UInt8 := [connKeepaliveMsg]

def ProviderMsg.bytes : ProviderMsg → List UInt8
  | .apduResponse data apduId => sendApduResponse data apduId
  | .cardReset atr => sendCardResetResponse atr
  | .cardInserted atr => sendCardInsertedMessage atr
  | .cardRemoved => sendCardRemovedMessage
  | .connKeepalive => sendConnKeepaliveResponse

/-- What the daemon tells the modem. -/
inductive Event
  | sendApdu (apduId : UInt8) (apdu : List UInt8)
  | sendCardReset (atr : List UInt8)
  | sendCardInserted (atr : List UInt8)
  | sendCardRemoved
deriving DecidableEq, Repr

def handleApduTransfer (buf : List UInt8) : Option Event :=
  let bytes : Int := buf.length
  if bytes < 3 then none
  else if ((byteAt buf 2).toNat : Int) ≠ bytes - 3 then none
  else some (.sendApdu (byteAt buf 1) (bytesFrom buf 3 (byteAt buf 2).toNat))

/-- The answer to reset of a message, if the length it tells is that of the message. -/
def answerToReset (buf : List UInt8) : Option (List UInt8) :=
  let bytes : Int := buf.length
  if ((byteAt buf 1).toNat : Int) ≠ bytes - 2 then none
  else some (bytesFrom buf 2 (byteAt buf 1).toNat)

def handleCardReset (buf : List UInt8) : Option Event :=
  (answerToReset buf).map .sendCardReset

def handleCardInserted (buf : List UInt8) : Option Event :=
  (answerToReset buf).map .sendCardInserted

/-- The daemon's switch over the type of a message. -/
def handleClientMsg (buf : List UInt8) : Option Event :=
  match (byteAt buf 0).toNat with
  | 0 => handleApduTransfer buf
  | 5 => handleCardReset buf
  | 6 => handleCardInserted buf
  | 7 => some .sendCardRemoved
  | _ => none

/-- What the modem is meant to be told. -/
def ProviderMsg.event : ProviderMsg → Option Event
  | .apduResponse data apduId => some (.sendApdu apduId (storedBytes data))
  | .cardReset atr => some (.sendCardReset (storedBytes atr))
  | .cardInserted atr => some (.sendCardInserted (storedBytes atr))
  | .cardRemoved => some .sendCardRemoved
  | .connKeepalive => none

/-- The pieces of the stream that tell the modem what the message means. -/
def ProviderMsg.ToldBy : ProviderMsg → List UInt8 → Prop
  | .apduResponse data apduId, buf => data.length ≤ 255 ∧ buf = sendApduResponse data apduId
  | .cardReset atr, buf => atr.length ≤ 255 ∧ buf = sendCardResetResponse atr
  | .cardInserted atr, buf => atr.length ≤ 255 ∧ buf = sendCardInsertedMessage atr
  | .cardRemoved, _ => True
  | .connKeepalive, _ => True

theorem length_storedBytes (data : List Int) : (storedBytes data).length = data.length :=
  List.length_map _

/-- What stands behind a length byte is the payload, if that byte tells the length of it. -/
theorem bytesFrom_eq_stored_iff {payload : List Int} {read : List UInt8} {n : Nat}
    (hn : n = payload.length % 256) (hread : n = read.length) :
    bytesFrom read 0 n = storedBytes payload ↔
      payload.length ≤ 255 ∧ read = storedBytes payload := by
  have hall : bytesFrom read 0 read.length = read := by
    have := bytesFrom_append read []
    rwa [List.append_nil] at this
  rw [hread, hall]
  constructor
  · intro heq
    refine ⟨?_, heq⟩
    have := congrArg List.length heq
    rw [length_storedBytes] at this
    omega
  · exact And.right

theorem toNat_length_byte (data : List Int) :
    (UInt8.ofNat data.length).toNat = data.length % 256 := by
  simp

theorem handleApduTransfer_eq (t id len : UInt8) (read : List UInt8) :
    handleApduTransfer (t :: id :: len :: read) =
      if len.toNat = read.length then some (.sendApdu id (bytesFrom read 0 len.toNat))
      else none := by
  have hdata : ∀ n, bytesFrom (t :: id :: len :: read) 3 n = bytesFrom read 0 n := fun _ => rfl
  have hlen : ((t :: id :: len :: read).length : Int) = read.length + 3 := by
    simp only [List.length_cons]
    omega
  simp only [handleApduTransfer, hdata, hlen, byteAt_cons_succ, byteAt_cons_zero]
  rw [if_neg (by omega)]
  by_cases h : len.toNat = read.length
  · rw [if_neg (by omega), if_pos h]
  · rw [if_pos (by omega), if_neg h]

theorem answerToReset_eq (t len : UInt8) (read : List UInt8) :
    answerToReset (t :: len :: read) =
      if len.toNat = read.length then some (bytesFrom read 0 len.toNat) else none := by
  have hdata : ∀ n, bytesFrom (t :: len :: read) 2 n = bytesFrom read 0 n := fun _ => rfl
  have hlen : ((t :: len :: read).length : Int) = read.length + 2 := by
    simp only [List.length_cons]
    omega
  simp only [answerToReset, hdata, hlen, byteAt_cons_succ, byteAt_cons_zero]
  by_cases h : len.toNat = read.length
  · rw [if_neg (by omega), if_pos h]
  · rw [if_pos (by omega), if_neg h]

theorem answerToReset_singleton (t : UInt8) : answerToReset [t] = none := rfl

/-- The answer to reset that was sent, from a piece of the stream behind the type. -/
theorem answerToReset_eq_iff (t : UInt8) (atr : List Int) {rest behind : List UInt8}
    (h : rest <+: UInt8.ofNat atr.length :: storedBytes atr ++ behind) :
    answerToReset (t :: rest) = some (storedBytes atr) ↔
      atr.length ≤ 255 ∧ rest = UInt8.ofNat atr.length :: storedBytes atr := by
  rcases List.prefix_cons_iff.mp h with rfl | ⟨read, rfl, -⟩
  · rw [answerToReset_singleton]
    simp
  · rw [answerToReset_eq, toNat_length_byte, List.cons.injEq, eq_self, true_and]
    by_cases hlen : atr.length % 256 = read.length
    · rw [if_pos hlen, Option.some.injEq]
      exact bytesFrom_eq_stored_iff rfl hlen
    · rw [if_neg hlen]
      constructor
      · intro h
        cases h
      · rintro ⟨hle, rfl⟩
        rw [length_storedBytes] at hlen
        omega

theorem handleApduTransfer_eq_iff (data : List Int) (id : UInt8) {rest behind : List UInt8}
    (h : rest <+: id :: UInt8.ofNat data.length :: storedBytes data ++ behind) :
    handleApduTransfer (apduTransferMsg :: rest) = some (.sendApdu id (storedBytes data)) ↔
      data.length ≤ 255 ∧ rest = id :: UInt8.ofNat data.length :: storedBytes data := by
  rcases List.prefix_cons_iff.mp h with rfl | ⟨rest, rfl, hrest⟩
  · simp [handleApduTransfer]
  rcases List.prefix_cons_iff.mp hrest with rfl | ⟨read, rfl, -⟩
  · simp [handleApduTransfer]
  · rw [handleApduTransfer_eq, toNat_length_byte]
    simp only [List.cons.injEq, true_and]
    by_cases hlen : data.length % 256 = read.length
    · rw [if_pos hlen, Option.some.injEq, Event.sendApdu.injEq, eq_self, true_and]
      exact bytesFrom_eq_stored_iff rfl hlen
    · rw [if_neg hlen]
      constructor
      · intro h
        cases h
      · rintro ⟨hle, rfl⟩
        rw [length_storedBytes] at hlen
        omega

/-- The daemon tells the modem what a message of the provider means from just these pieces of the
stream: a message with a payload when it was read whole and alone and its payload has at most 255
bytes, one without a payload however it was read. -/
theorem handleClientMsg_eq_iff (m : ProviderMsg) {buf behind : List UInt8} (hbuf : buf ≠ [])
    (h : buf <+: m.bytes ++ behind) : handleClientMsg buf = m.event ↔ m.ToldBy buf := by
  cases buf with
  | nil => exact absurd rfl hbuf
  | cons t rest =>
    cases m with
    | apduResponse data id =>
      obtain ⟨rfl, hrest⟩ := List.cons_prefix_cons.mp h
      refine (handleApduTransfer_eq_iff data id hrest).trans ?_
      simp [ProviderMsg.ToldBy, sendApduResponse]
    | cardReset atr =>
      obtain ⟨rfl, hrest⟩ := List.cons_prefix_cons.mp h
      have heq : handleClientMsg (cardResetMsg :: rest) =
          (answerToReset (cardResetMsg :: rest)).map .sendCardReset := rfl
      rw [heq]
      simp only [ProviderMsg.event, Option.map_eq_some_iff, Event.sendCardReset.injEq,
        exists_eq_right]
      refine (answerToReset_eq_iff cardResetMsg atr hrest).trans ?_
      simp [ProviderMsg.ToldBy, sendCardResetResponse]
    | cardInserted atr =>
      obtain ⟨rfl, hrest⟩ := List.cons_prefix_cons.mp h
      have heq : handleClientMsg (cardInsertedMsg :: rest) =
          (answerToReset (cardInsertedMsg :: rest)).map .sendCardInserted := rfl
      rw [heq]
      simp only [ProviderMsg.event, Option.map_eq_some_iff, Event.sendCardInserted.injEq,
        exists_eq_right]
      refine (answerToReset_eq_iff cardInsertedMsg atr hrest).trans ?_
      simp [ProviderMsg.ToldBy, sendCardInsertedMessage]
    | cardRemoved =>
      obtain ⟨rfl, _⟩ := List.cons_prefix_cons.mp h
      exact iff_of_true rfl trivial
    | connKeepalive =>
      obtain ⟨rfl, _⟩ := List.cons_prefix_cons.mp h
      exact iff_of_true rfl trivial

theorem response_before_removal :
    sendApduResponse [0x90] 3 ++ sendCardRemovedMessage <+:
        (ProviderMsg.apduResponse [0x90] 3).bytes ++ sendCardRemovedMessage ∧
      (handleClientMsg (sendApduResponse [0x90] 3 ++ sendCardRemovedMessage) =
          (ProviderMsg.apduResponse [0x90] 3).event ↔
        (ProviderMsg.apduResponse [0x90] 3).ToldBy
          (sendApduResponse [0x90] 3 ++ sendCardRemovedMessage)) :=
  ⟨List.prefix_rfl, handleClientMsg_eq_iff (.apduResponse [0x90] 3) (List.cons_ne_nil _ _)
    List.prefix_rfl⟩

end RemoteSim

end SatComm
