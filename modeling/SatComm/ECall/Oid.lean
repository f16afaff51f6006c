import Mathlib

/-!
# The object identifier of additional data

`ECallMsd` reads an object identifier from its text with `operator>>` and encodes the numbers
one after the other. A text is a list of its octets.
-/

namespace SatComm.ECall

/-- A `std::string`. -/
abbrev Text := List UInt8

/-! ## Reading numbers -/

def isSpace (c : UInt8) : Bool := c == 32 || (9 ≤ c && c ≤ 13)

def isDigit (c : UInt8) : Bool := 48 ≤ c && c ≤ 57

/-- The number a string of decimal digits stands for. -/
def decimal (digits : Text) : Nat := digits.foldl (fun n c => 10 * n + (c.toNat - 48)) 0

/-- `stream >> value` for an `int`: white space, a sign, digits. No digits, or a number that is
no `int`, make the stream fail. -/
def extractInt (stream : Text) : Option (Int × Text) :=
  let stream := stream.dropWhile isSpace
  let (negative, stream) :=
    match stream with
    | 45 :: rest => (true, rest)
    | 43 :: rest => (false, rest)
    | _ => (false, stream)
  let digits := stream.takeWhile isDigit
  let value : Int := if negative then -(decimal digits) else decimal digits
  if digits = [] ∨ value < -2 ^ 31 ∨ 2 ^ 31 ≤ value then none
  else some (value, stream.dropWhile isDigit)

/-- `if (stream.peek() == '.') stream.ignore()`. -/
def skipDot (stream : Text) : Text :=
  match stream with
  | 46 :: rest => rest
  | _ => stream

/-- The loop of `convertOidToOctets`; `fuel` bounds the numbers read. -/
def readOctets : Nat → Text → List Int
  | 0, _ => []
  | fuel + 1, stream =>
    match extractInt stream with
    | none => []
    | some (octet, rest) => octet :: readOctets fuel (skipDot rest)

/-- `ECallMsd::convertOidToOctets`: every number takes at least one character. -/
def convertOidToOctets (oid : Text) : List Int := readOctets oid.length oid

/-! ## Encoding them -/

/-- The number of octets of `octet`, from its hexadecimal digits. -/
def byteCount (octet : Nat) : Nat :=
  let length := (Nat.toDigits 16 octet).length
  if length % 2 = 0 then length / 2 else length / 2 + 1

/-- What the first loop of `encodingToMultiByte` leaves in `temp` and `bitToCheck`. -/
def leadingByte (octet counter : Nat) : Nat × Nat :=
  if 2 < counter then (octet >>> (8 * (counter - 1)), 7 - (counter - 1))
  else if counter = 2 then (octet >>> 8, 7)
  else (octet, 7)

/-- The second loop: one more octet if a bit from `bitToCheck` to `7` of `temp` is set. -/
def outputCount (octet : Nat) : Nat :=
  let counter := byteCount octet
  let (temp, bitToCheck) := leadingByte octet counter
  if (List.range' bitToCheck (8 - bitToCheck)).any temp.testBit then counter + 1 else counter

/-- The last loop, from its second round on. -/
def upperOctets : Nat → Nat → Nat → List Nat
  | 0, _, _ => []
  | n + 1, temp, leftMostBit =>
    let left := temp >>> 8 <<< 1
    ((left ||| 0x80 ||| leftMostBit) &&& 0xff) :: upperOctets n left ((left >>> 7) &&& 1)

/-- `ECallMsd::encodingToMultiByte`, for values above 127. -/
def encodingToMultiByte (octet : Nat) : List Nat :=
  match outputCount octet with
  | 0 => []
  | n + 1 => ((octet &&& 0x7f) :: upperOctets n octet ((octet >>> 7) &&& 1)).reverse

/-- `ECallMsd::processOctet`. -/
def processOctet (oidValue : Int) : List Int :=
  if oidValue ≤ 127 then [oidValue] else (encodingToMultiByte oidValue.toNat).map Int.ofNat

/-- `ECallMsd::uperEncodingForOctets`. -/
def uperEncodingForOctets (octetOids : List Int) : List Int := octetOids.flatMap processOctet

example : uperEncodingForOctets (convertOidToOctets [49, 46, 51, 48, 48]) = [1, 130, 44] := by
  decide

end SatComm.ECall
