import SatComm.Runs.Along
import SatComm.Runs.Assoc

/-!
# The local dynamic map

`Ldm` keeps the last message of each remote vehicle in a slot of `bsmContents`. A receiver asks
for a free slot, decodes into it and installs it for the vehicle; the vehicle's former slot
becomes free. The garbage collector frees the slots of vehicles that have been silent. The map
from vehicles to slots says "absent" and "collected" with two slot numbers.

Slots are numbers; only the time stamp of a slot's message is kept of its content.
-/

namespace SatComm

/-- A `uint32_t`. -/
abbrev VehicleId := Fin (2 ^ 32)

/-- `held` is bookkeeping that nothing reads: the slots that callers have obtained and not yet
installed. -/
structure Ldm where
  /-- The time stamp of each slot's message, `none` where `j2735_msg` is null. -/
  bsmContents : List (Option (BitVec 64))
  bsmFreeSlotIndices : List Nat
  bsmIdIndexMap : List (VehicleId × Nat)
  held : List Nat
deriving DecidableEq, Repr

namespace Ldm

def dirtyData : Nat := 15001

def invalidData : Nat := 15000

/-- The constructor. -/
def new (size : BitVec 16) : Ldm where
  bsmContents := List.replicate size.toNat none
  bsmFreeSlotIndices := List.range size.toNat
  bsmIdIndexMap := []
  held := []

def getIndex (s : Ldm) (id : VehicleId) : Nat :=
  match Assoc.find s.bsmIdIndexMap id with
  | some slot => slot
  | none => invalidData

/-- Where `setIndex` copies a message given to it. -/
def store (s : Ldm) (slot : Nat) (mc : Option (BitVec 64)) : Ldm :=
  match mc with
  | some tst => { s with bsmContents := s.bsmContents.set slot (some tst) }
  | none => s

def setIndex (s : Ldm) (rvId : VehicleId) (freeSlotIndex : Nat) (mc : Option (BitVec 64)) : Ldm :=
  let usedSlotIndex := s.getIndex rvId
  let s' :=
    if usedSlotIndex ≠ invalidData ∧ usedSlotIndex ≠ dirtyData then
      { s with
        bsmFreeSlotIndices := s.bsmFreeSlotIndices ++ [usedSlotIndex]
        bsmIdIndexMap := Assoc.assign s.bsmIdIndexMap rvId freeSlotIndex }
    else if usedSlotIndex = dirtyData then
      { s with bsmIdIndexMap := Assoc.assign s.bsmIdIndexMap rvId freeSlotIndex }
    else { s with bsmIdIndexMap := Assoc.insert s.bsmIdIndexMap rvId freeSlotIndex }
  s'.store freeSlotIndex mc

/-- The slot returned is a `uint32_t`. -/
def getFreeBsmSlotIdx (s : Ldm) : Nat × Ldm :=
  match s.bsmFreeSlotIndices with
  | slot :: rest => (slot, { s with bsmFreeSlotIndices := rest })
  | [] => (s.bsmContents.length % 2 ^ 32, { s with bsmContents := s.bsmContents ++ [none] })

/-- The test of `gbCollector` on one element, with a clock that reads `now`. -/
def isOld (s : Ldm) (timeThreshold : BitVec 8) (now : BitVec 64) (slot : Nat) : Bool :=
  slot != dirtyData &&
    match s.bsmContents[slot]? with
    | some (some tst) => timeThreshold.toNat * 10000 < (now - tst).toNat
    | _ => false

/-- The loop body of `gbCollector`. -/
def collect (timeThreshold : BitVec 8) (now : VehicleId → BitVec 64) (s : Ldm)
    (element : VehicleId × Nat) : Ldm :=
  if s.isOld timeThreshold (now element.1) element.2 then
    { s with
      bsmFreeSlotIndices := s.bsmFreeSlotIndices ++ [element.2]
      bsmIdIndexMap := Assoc.assign s.bsmIdIndexMap element.1 dirtyData }
  else s

/-- One pass of `gbCollector`; the clock is read for each element. -/
def gbCollector (s : Ldm) (timeThreshold : BitVec 8) (now : VehicleId → BitVec 64) : Ldm :=
  s.bsmIdIndexMap.foldl (collect timeThreshold now) s

/-- The calls on a local dynamic map. `receive` is a receiver that decodes a message into a slot
it was given. -/
inductive Event
  | getFreeBsmSlotIdx
  | receive (slot : Nat) (tst : BitVec 64)
  | setIndex (rvId : VehicleId) (slot : Nat) (mc : Option (BitVec 64))
  | gbCollector (timeThreshold : BitVec 8) (now : VehicleId → BitVec 64)

/-- A caller installs only a slot that it holds, and then no longer holds it. -/
def step (s : Ldm) : Event → Ldm
  | .getFreeBsmSlotIdx =>
    let (slot, s') := s.getFreeBsmSlotIdx
    { s' with held := slot :: s'.held }
  | .receive slot tst => s.store slot (some tst)
  | .setIndex rvId slot mc =>
    if slot ∈ s.held then { s.setIndex rvId slot mc with held := s.held.erase slot } else s
  | .gbCollector timeThreshold now => s.gbCollector timeThreshold now

end Ldm

end SatComm
