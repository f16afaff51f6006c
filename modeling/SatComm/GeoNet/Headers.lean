import SatComm.GeoNet.Areas
import SatComm.GeoNet.Receive

/-!
# The octets of a packet

The headers are packed structures, laid over the buffer of a packet on a little-endian machine.
Numbers of more than one octet are in network order; a load without `ntohs` or `ntohl` gives them
with their octets reversed. Every packet starts with the basic header (4 octets) and the common
header (8 octets); the source position vector follows, in all but beacons and single-hop broadcasts
behind a sequence number and two reserved octets.
-/

namespace SatComm.GeoNet

/-! ## Loads -/

def octet (buffer : List UInt8) (i : Nat) : UInt8 := buffer.getD i 0

def load16 (buffer : List UInt8) (i : Nat) : BitVec 16 :=
  (octet buffer (i + 1)).toBitVec ++ (octet buffer i).toBitVec

def load32 (buffer : List UInt8) (i : Nat) : BitVec 32 :=
  load16 buffer (i + 2) ++ load16 buffer i

def ntohs (v : BitVec 16) : BitVec 16 := v.extractLsb' 0 8 ++ v.extractLsb' 8 8

def ntohl (v : BitVec 32) : BitVec 32 := ntohs (v.extractLsb' 0 16) ++ ntohs (v.extractLsb' 16 16)

/-- The six octets of a link-layer address, as they are compared. -/
def loadMid (buffer : List UInt8) (i : Nat) : Mid :=
  ntohl (load32 buffer i) ++ ntohs (load16 buffer (i + 4))

/-- A `gn_addr_t`: ten reserved bits, the station type, the bit `m`, the link-layer address. -/
def loadGnAddr (buffer : List UInt8) (i : Nat) : GnAddr where
  m := (load16 buffer i).toNat >>> 15
  st := ((load16 buffer i).toNat >>> 10) % 2 ^ 5
  mid := loadMid buffer (i + 2)

/-- A `gn_lpv_t`, in host order. -/
def loadLpv (buffer : List UInt8) (i : Nat) : Lpv where
  gnAddr := loadGnAddr buffer i
  tst := ntohl (load32 buffer (i + 8))
  latitude := (ntohl (load32 buffer (i + 12))).toInt
  longitude := (ntohl (load32 buffer (i + 16))).toInt
  pai := (load16 buffer (i + 20)).toNat >>> 15
  s := (load16 buffer (i + 20)).toNat % 2 ^ 15
  h := (ntohs (load16 buffer (i + 22))).toNat

/-! ## The fields -/

namespace Buffer

variable (buffer : List UInt8)

/-! The basic header. -/

def version : Nat := (octet buffer 0).toNat >>> 4

def bhNh : Nat := (octet buffer 0).toNat % 2 ^ 4

def lt : UInt8 := octet buffer 2

def rhl : Nat := (octet buffer 3).toNat

/-! The common header. -/

def chNh : Nat := (octet buffer 4).toNat >>> 4

def ht : Nat := (octet buffer 5).toNat >>> 4

def hst : Nat := (octet buffer 5).toNat % 2 ^ 4

def tc : Nat := (octet buffer 6).toNat

def mhl : Nat := (octet buffer 10).toNat

/-! What follows. -/

def sn : BitVec 16 := load16 buffer 12

def soPv : Lpv := loadLpv buffer 16

/-- In a beacon and in a single-hop broadcast. -/
def soPvOfShb : Lpv := loadLpv buffer 12

def deAddr : GnAddr := loadGnAddr buffer 40

def reqAddr : GnAddr := loadGnAddr buffer 40

end Buffer

/-- The fields of a packet, as the receive function of its type reads them. -/
def Packet.ofBuffer (buffer : List UInt8) : Packet where
  version := Buffer.version buffer
  bhNh := Buffer.bhNh buffer
  rhl := Buffer.rhl buffer
  chNh := Buffer.chNh buffer
  ht := Buffer.ht buffer
  hst := Buffer.hst buffer
  tc := Buffer.tc buffer
  mhl := Buffer.mhl buffer
  sn := (Buffer.sn buffer).toNat
  soPv :=
    if Buffer.ht buffer = 1 ∨ (Buffer.ht buffer = 5 ∧ Buffer.hst buffer = 0) then
      Buffer.soPvOfShb buffer
    else Buffer.soPv buffer
  deAddr := Buffer.deAddr buffer
  reqAddr := Buffer.reqAddr buffer

/-- `PacketType`; a single-hop broadcast has the number of a topologically scoped one. -/
inductive PacketType
  | any
  | beacon
  | geoUnicast
  | geoAnycast
  | geoBroadcast
  | tsb
  | ls
deriving DecidableEq, Repr

def PacketType.code : PacketType → Int
  | .any => 0
  | .beacon => 1
  | .geoUnicast => 2
  | .geoAnycast => 3
  | .geoBroadcast => 4
  | .tsb => 5
  | .ls => 6

/-! ## Destination areas -/

def GeoAreaType.code : GeoAreaType → Int
  | .circle => 0
  | .rect => 1
  | .elip => 2

/-- `GeoArea_t`. -/
structure GeoArea where
  gpLatitude : Int
  gpLongitude : Int
  distA : Nat
  distB : Nat
  angle : Nat
  areaType : GeoAreaType
deriving DecidableEq, Repr

namespace Buffer

variable (buffer : List UInt8)

/-- How both functions that test an area read its type. -/
def areaType : GeoAreaType :=
  if hst buffer = 0 then .circle else if hst buffer = 1 then .rect else .elip

def gpLatitude : BitVec 32 := load32 buffer 40

def gpLongitude : BitVec 32 := load32 buffer 44

def distA : BitVec 16 := load16 buffer 48

def distB : BitVec 16 := load16 buffer 50

def angle : BitVec 16 := load16 buffer 52

end Buffer

end SatComm.GeoNet
