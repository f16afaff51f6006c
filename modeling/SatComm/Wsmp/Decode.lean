import SatComm.Wsmp.Encode

/-!
# `wsmp_decode`

The parser moves `data` through the received abuf. `abuf_pull` moves it even when that passes
`tail`, and only two of its results are looked at: the one for the TPID octet and the ones for
the ports. The one for the version octet is looked at too, but its failure leaves the return
code at `0`. Lengths are parsed without any bound, and a refused one is `-1`.

`consulted` is bookkeeping that nothing reads: the addresses that were looked at.
-/

namespace SatComm.Wsmp

open Bits Asnbuf

/-! ## The code -/

/-- What `wsmp_decode` sets of `wsmp_data_t`. -/
structure WsmpData where
  protoVersion : Nat
  nHeader : NHeader
  srcPort : Nat
  dstPort : Nat
  rate : Nat
  chan : Nat
  pwr : Nat
  tpid : Nat
  psid : Nat
  chanLoadPtr : Nat
  chanLoadLen : Nat
deriving DecidableEq, Repr

/-- `msg_contents`. -/
structure Msg where
  abuf : Abuf
  wsmp : WsmpData
  payloadLen : Int
  l3Payload : Nat
  l3PayloadLen : Int
  consulted : List Nat

namespace Msg

/-- `abuf_pull` without a look at its result. -/
def pull (mc : Msg) (n : Int) : Msg := { mc with abuf := (abufPull mc.abuf n).2 }

/-- `abuf_pull` does not return `NULL`. -/
def canPull (mc : Msg) (n : Int) : Bool := (abufPull mc.abuf n).1.isSome

def consult (mc : Msg) (ps : List Nat) : Msg := { mc with consulted := ps ++ mc.consulted }

def setWsmp (mc : Msg) (f : WsmpData → WsmpData) : Msg := { mc with wsmp := f mc.wsmp }

/-- The octet `i` places behind `data`. -/
def at_ (mc : Msg) (i : Nat) : Nat := mc.abuf.mem.byte (mc.abuf.data + i)

end Msg

/-- The octets a length parsed at `p` takes, or one that refuses it. -/
def lengthConsulted (m : Mem) (p : Nat) : List Nat :=
  if 128 ≤ m.byte p ∧ m.byte p < 192 then [p, p + 1] else [p]

/-- `parse_asn_variable_length_enc` at `data`. -/
def parseLength (mc : Msg) : Int × Msg :=
  let (len, c) := parseAsnVariableLengthEnc mc.abuf.mem ⟨mc.abuf.data, 8⟩
  let mc := mc.consult (lengthConsulted mc.abuf.mem mc.abuf.data)
  (len, { mc with abuf := { mc.abuf with data := c.cp } })

/-- A `uint32_t` taken as an `int`. -/
def toInt32 (n : Nat) : Int := if n < 2 ^ 31 then n else n - 2 ^ 32

/-- An element with a one-octet value: the value is read whatever the length says. -/
def valueElement (mc : Msg) (set : Nat → WsmpData → WsmpData) : Msg :=
  let p := mc.abuf.data
  let mc' := (mc.consult [p + 2, p + 1]).setWsmp (set (mc.at_ 2))
  mc'.pull (2 + mc.at_ 1)

/-- The channel load: its length, its place and the step over it. -/
def loadElement (mc : Msg) : Msg :=
  let (len, mc) := parseLength (mc.pull 1)
  let mc := mc.setWsmp fun w =>
    { w with chanLoadLen := (len % 2 ^ 32).toNat, chanLoadPtr := mc.abuf.data }
  mc.pull (toInt32 mc.wsmp.chanLoadLen)

/-- An element nobody knows. -/
def unknownElement (mc : Msg) : Msg :=
  let (len, mc) := parseLength (mc.pull 1)
  mc.pull len

/-- One round of the loop of `wsmp_decode_wave_element_extension`; whether it ends the loop, and
the message. -/
def element (mc : Msg) : Bool × Msg :=
  let id := mc.at_ 0
  let mc := mc.consult [mc.abuf.data]
  if id = 16 then (false, valueElement mc fun v w => { w with rate := v })
  else if id = 4 then (false, valueElement mc fun v w => { w with pwr := v })
  else if id = 15 then (false, valueElement mc fun v w => { w with chan := v })
  else if id = 23 then (false, loadElement mc)
  else if id = 128 ∨ id = 129 then (true, mc)
  else (false, unknownElement mc)

def elements : Nat → Msg → Msg
  | 0, mc => mc
  | n + 1, mc =>
    match element mc with
    | (true, mc) => mc
    | (false, mc) => elements n mc

/-- `wsmp_decode_wave_element_extension`: a count of `0` is read from the message. -/
def wsmpDecodeWaveElementExtension (mc : Msg) (qty : Nat) : Msg :=
  if qty = 0 then
    let (n, mc) := parseLength mc
    elements n.toNat mc
  else elements qty mc

/-- `WSMP_PSID_FIELD_SIZE`. -/
def psidFieldSize (val : Nat) : Nat :=
  if val &&& 0xe0 = 0xe0 then 4 else if val &&& 0xc0 = 0xc0 then 3
  else if val &&& 0x80 = 0x80 then 2 else 1

/-- `wsmp_decode_psid`. The differences are never negative. -/
def wsmpDecodePsid (m : Mem) (p : Nat) : Nat :=
  match psidFieldSize (m.byte p) with
  | 1 => m.byte p
  | 2 => (m.byte p <<< 8) + m.byte (p + 1) - 0x7f80
  | 3 => (m.byte p <<< 16) + (m.byte (p + 1) <<< 8) + m.byte (p + 2) - 0xbfbf80
  | _ =>
    (m.byte p <<< 24) + (m.byte (p + 1) <<< 16) + (m.byte (p + 2) <<< 8) + m.byte (p + 3) -
      0xdfdfbf80

/-- The PSID under `data`, and the step over it. -/
def takePsid (mc : Msg) : Msg :=
  let p := mc.abuf.data
  let size := psidFieldSize (mc.at_ 0)
  let mc' := (mc.consult (List.range' p size)).setWsmp fun w =>
    { w with psid := wsmpDecodePsid mc.abuf.mem p }
  mc'.pull size

/-- The end of `wsmp_decode_header` for the formats before 2016. -/
def decodeOldData (mc : Msg) : Int × Msg :=
  let p := mc.abuf.data
  let nextWeid := mc.at_ 0
  let len := mc.at_ 1 * 256 + mc.at_ 2
  let mc := mc.consult [p]
  if nextWeid = 128 ∨ nextWeid = 129 then
    let mc := { mc.consult [p + 2, p + 1] with payloadLen := len }
    let mc := mc.pull 3
    (0, if nextWeid = 129 then mc.pull 1 else mc)
  else (-1, mc)

/-- The length of the payload and the elements of the T-header. -/
def decodeLength (mc : Msg) : Msg :=
  let (len, mc) := parseLength mc
  let mc := { mc with payloadLen := len }
  if mc.wsmp.tpid % 2 = 1 then wsmpDecodeWaveElementExtension mc 0 else mc

/-- Both ports; these two pulls are checked. -/
def takePorts (mc : Msg) : Bool × Msg :=
  let p := mc.abuf.data
  let ok := mc.canPull 2 && (mc.pull 2).canPull 2
  let mc' :=
    if ok then
      (mc.consult (List.range' p 4)).setWsmp fun w =>
        { w with srcPort := mc.at_ 0 * 256 + mc.at_ 1, dstPort := mc.at_ 2 * 256 + mc.at_ 3 }
    else mc
  (ok, (mc'.pull 2).pull 2)

/-- The end of `wsmp_decode_header` for the 2016 format. -/
def decodeTransport (mc : Msg) : Int × Msg :=
  let nextWeid := mc.at_ 0
  let mc := mc.consult [mc.abuf.data]
  if mc.canPull 1 then
    let mc := (mc.setWsmp fun w => { w with tpid := nextWeid }).pull 1
    if 5 < nextWeid then (-1, mc)
    else
      let (ok, mc) := if 2 ≤ nextWeid then takePorts mc else (true, takePsid mc)
      if ok then
        let mc := decodeLength mc
        (0, if nextWeid = 129 then mc.pull 1 else mc)
      else (-1, mc)
  else (-1, mc.pull 1)

/-- `wsmp_decode_header`. -/
def wsmpDecodeHeader (mc : Msg) : Int × Msg :=
  let verOctet := mc.at_ 0
  if mc.canPull 1 then
    let mc := ((mc.consult [mc.abuf.data]).setWsmp fun w =>
      { w with protoVersion := verOctet &&& 0x7 }).pull 1
    let version := verOctet &&& 0x7
    if version = 1 ∨ version = 2 then
      decodeOldData (wsmpDecodeWaveElementExtension (takePsid mc) 4)
    else if version = 3 then
      let nHeader := NHeader.ofOctet verOctet
      let mc := mc.setWsmp fun w => { w with nHeader := nHeader }
      if nHeader.subtype ≠ 0 then (-1, mc)
      else if nHeader.optionIndicator then
        decodeTransport (wsmpDecodeWaveElementExtension mc 0)
      else decodeTransport mc
    else (-1, mc)
  -- `goto wsmp_decode_err` with a return code of `0`
  else (0, mc.pull 1)

/-- `wsmp_decode`. -/
def wsmpDecode (mc : Msg) : Int × Msg :=
  let (ret, mc) := wsmpDecodeHeader mc
  if ret < 0 then (-3, mc)
  else (0, { mc with l3Payload := mc.abuf.data, l3PayloadLen := mc.payloadLen })

end SatComm.Wsmp
