import Mathlib.Data.Finset.Basic

/-!
# The meta data of received packets

A packet that is received may begin with meta data: a start marker, the subframe number and the
subchannel index, other values in any order, and an end marker, and the same again. Each value has a
type, a length and its bytes. `getRxMetaDataInfo` reads one report after the other.

A pointer into the payload is the list of the bytes from there on. What is read behind the last one
gives `none`.
-/

namespace SatComm

namespace Cv2x

namespace MetaData

/-! ## Constants -/

def minMdLen : ℕ := 9

def minTlvLen : ℕ := 3

def tlvMdPaddingType : UInt8 := 0

def tlvMdStartType : UInt8 := 255

def tlvMdEndType : UInt8 := 1

def tlvMdSfnType : UInt8 := 2

def tlvMdSubchIdxType : UInt8 := 3

def tlvMdSfnLen : UInt8 := 2

def tlvMdSubchIdxLen : UInt8 := 1

def tlvMdEndLen : ℕ := 1

/-- The values that a report need not have. -/
inductive Tlv
  | dstId
  | rssi
  | sci
  | pktDelayEst
  | subchNum
deriving DecidableEq, Repr

def Tlv.type : Tlv → UInt8
  | .dstId => 4
  | .rssi => 5
  | .sci => 6
  | .pktDelayEst => 7
  | .subchNum => 8

def Tlv.len : Tlv → ℕ
  | .dstId => 4
  | .rssi => 2
  | .sci => 4
  | .pktDelayEst => 4
  | .subchNum => 1

/-- The case of a type. -/
def Tlv.ofType (type : UInt8) : Option Tlv :=
  [dstId, rssi, sci, pktDelayEst, subchNum].find? fun t => t.type = type

/-! ## Reports -/

inductive RxMetaDataValidityType
  | subframeNumber
  | subchannelIndex
  | subchannelNumber
  | prxRssi
  | drxRssi
  | l2DestId
  | sciFormat1
  | delayEstimation
deriving DecidableEq, Repr

structure RxPacketMetaDataReport where
  /-- The bits that are set. -/
  metaDataMask : Finset RxMetaDataValidityType
  sfn : UInt16
  subChannelIndex : UInt8
  subChannelNum : UInt8
  prxRssi : Int8
  drxRssi : Int8
  l2DestinationId : UInt32
  sciFormat1Info : UInt32
  delayEstimation : Int32
deriving DecidableEq

/-- `{0}` -/
def RxPacketMetaDataReport.zero : RxPacketMetaDataReport := ⟨∅, 0, 0, 0, 0, 0, 0, 0, 0⟩

/-- A `uint16_t` and a `uint32_t` in memory, the low byte first. -/
def load16 (a b : UInt8) : UInt16 := a.toUInt16 ||| b.toUInt16 <<< 8

def load32 (a b c d : UInt8) : UInt32 :=
  a.toUInt32 ||| b.toUInt32 <<< 8 ||| c.toUInt32 <<< 16 ||| d.toUInt32 <<< 24

/-- Store the value that is in these bytes. -/
def RxPacketMetaDataReport.set (r : RxPacketMetaDataReport) :
    Tlv → List UInt8 → Option RxPacketMetaDataReport
  | .dstId, [a, b, c, d] => some { r with
    l2DestinationId := load32 a b c d
    metaDataMask := r.metaDataMask ∪ {.l2DestId} }
  | .rssi, [a, b] => some { r with
    prxRssi := a.toInt8
    drxRssi := b.toInt8
    metaDataMask := r.metaDataMask ∪ {.prxRssi, .drxRssi} }
  | .sci, [a, b, c, d] => some { r with
    sciFormat1Info := load32 a b c d
    metaDataMask := r.metaDataMask ∪ {.sciFormat1} }
  | .pktDelayEst, [a, b, c, d] => some { r with
    delayEstimation := (load32 a b c d).toInt32
    metaDataMask := r.metaDataMask ∪ {.delayEstimation} }
  | .subchNum, [a] => some { r with
    subChannelNum := a
    metaDataMask := r.metaDataMask ∪ {.subchannelNumber} }
  | _, _ => none

/-! ## The parser -/

/-- The loop of `getFullRxMetaDataReport`, with the number of bytes up to `pEnd`: the number of those
behind the end marker if it is found. -/
def scan : ℕ → List UInt8 → ℕ → RxPacketMetaDataReport →
    Option (Option ℕ × RxPacketMetaDataReport)
  | 0, _, remaining, metaData => if remaining = 0 then some (none, metaData) else none
  | fuel + 1, pl, remaining, metaData =>
    if remaining = 0 then some (none, metaData)
    else
      match pl with
      | [] => none
      | type :: pl =>
        let remaining := remaining - 1
        if type = tlvMdPaddingType then scan fuel pl remaining metaData
        else if type = tlvMdEndType then some (some remaining, metaData)
        else
          match Tlv.ofType type with
          | none => some (none, metaData)
          | some t =>
            if 1 + t.len < remaining then
              match pl with
              | [] => none
              | len :: pl =>
                if len.toNat = t.len then
                  (metaData.set t (pl.take t.len)).bind fun metaData =>
                    scan fuel (pl.drop t.len) (remaining - 1 - t.len) metaData
                else some (none, metaData)
            else some (none, metaData)

/-- The length is 0 if there is no end marker. Each turn of the loop takes at least a byte. -/
def getFullRxMetaDataReport (payload : List UInt8) (length : ℕ)
    (metaData : RxPacketMetaDataReport) : Option (ℕ × RxPacketMetaDataReport) :=
  if length < minTlvLen then some (0, metaData)
  else
    (scan length payload length metaData).map fun p =>
      (p.1.elim 0 fun behind => length - behind, p.2)

def getTimeFrequency (payload : List UInt8) (payloadLength : ℕ)
    (metaData : RxPacketMetaDataReport) : Option (ℕ × RxPacketMetaDataReport) :=
  if payloadLength < minMdLen then some (0, metaData)
  else do
    if (← payload[0]?) ≠ tlvMdStartType then return (0, metaData)
    if (← payload[1]?) ≠ tlvMdSfnType then return (0, metaData)
    if (← payload[2]?) ≠ tlvMdSfnLen then return (0, metaData)
    let sfn := load16 (← payload[3]?) (← payload[4]?)
    if (← payload[5]?) ≠ tlvMdSubchIdxType then return (0, metaData)
    if (← payload[6]?) ≠ tlvMdSubchIdxLen then return (0, metaData)
    let subChannelIndex ← payload[7]?
    let metaDataLen := if (← payload[8]?) = tlvMdEndType then minMdLen else minMdLen - tlvMdEndLen
    return (metaDataLen, { metaData with
      sfn := sfn
      subChannelIndex := subChannelIndex
      metaDataMask := metaData.metaDataMask ∪ {.subframeNumber, .subchannelIndex} })

/-- The loop of `getRxMetaDataInfo`: `metaDataLen` and the reports. -/
def parse : ℕ → List UInt8 → ℕ → RxPacketMetaDataReport → ℕ → List RxPacketMetaDataReport →
    Option (ℕ × List RxPacketMetaDataReport)
  | 0, _, _, _, _, _ => none
  | fuel + 1, pl, plen, metaData, metaDataLen, metaDatas =>
    (getTimeFrequency pl plen metaData).bind fun (tfLen, metaData) =>
      if .subframeNumber ∈ metaData.metaDataMask ∧ .subchannelIndex ∈ metaData.metaDataMask then
        let pl := pl.drop tfLen
        let plen := plen - tfLen
        let push (reportLen : ℕ) (metaData : RxPacketMetaDataReport) :=
          let metaDatas := metaDatas ++ [metaData]
          let metaDataLen := metaDataLen + reportLen + tfLen
          if minMdLen < plen - reportLen then
            parse fuel (pl.drop reportLen) (plen - reportLen) metaData metaDataLen metaDatas
          else some (metaDataLen, metaDatas)
        if tfLen = minMdLen then push 0 metaData
        else
          (getFullRxMetaDataReport pl plen metaData).bind fun (reportLen, metaData) =>
            if reportLen = 0 then some (metaDataLen, metaDatas) else push reportLen metaData
      else some (metaDataLen, metaDatas)

/-- `getRxMetaDataInfo`, which returns `SUCCESS`. Each turn of the loop takes at least a byte. -/
def getRxMetaDataInfo (payload : List UInt8) : Option (ℕ × List RxPacketMetaDataReport) :=
  parse (payload.length + 1) payload payload.length RxPacketMetaDataReport.zero 0 []

end MetaData

end Cv2x

end SatComm
