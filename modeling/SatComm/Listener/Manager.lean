import SatComm.Runs.Along
import SatComm.Trees.Sets

/-!
# The listeners of each indication

`ListenerManager` keeps a set of weak pointers for every indication. The sets are ordered by
`SetPredicate`, which compares what the pointers lock to at the time: a pointer whose listener has
gone comes before every other, wherever it stands in the set.

The objects that come to stand at one address have generations: a pointer locks as long as the
object at its address is that of its own generation. The indications are the bits of a bitset.
-/

namespace SatComm

namespace Listeners

open Trees

structure Listener where
  address : Nat
  generation : Nat
deriving DecidableEq, Repr

inductive Status
  | success | invalidParam | already | noSuch
deriving DecidableEq, Repr

/-- The objects and the sets. The first are not part of the manager. -/
structure ListenerManager (β : Type) (n : Nat) where
  /-- The generation of the object at an address. -/
  generation : Nat → Nat
  registrationMap : Fin n → Tree β Listener

variable {β : Type} {n : Nat}

namespace ListenerManager

def new : ListenerManager β n where
  generation := fun _ => 0
  registrationMap := fun _ => .leaf

def lock (m : ListenerManager β n) (listener : Listener) : Bool :=
  listener.generation == m.generation listener.address

def setPredicate (m : ListenerManager β n) (lhs rhs : Listener) : Bool :=
  if ! m.lock rhs then false
  else if ! m.lock lhs then true
  else lhs.address < rhs.address

def listeners (m : ListenerManager β n) (i : Fin n) : List Listener := (m.registrationMap i).inorder

variable (b : Balancing β Listener)

/-- One turn of the loop in `registerListener`: the set, whether the listener is new in it and
whether it is the first. -/
def registerAt (m : ListenerManager β n) (listener : Listener) (i : Fin n) :
    Tree β Listener × Bool × Bool :=
  if m.listeners i = [] then
    (b.insert m.setPredicate (m.registrationMap i) listener, true, true)
  else if (m.listeners i).any fun existed => m.lock existed && existed.address == listener.address
  then (m.registrationMap i, false, false)
  else (b.insert m.setPredicate (m.registrationMap i) listener, true, false)

/-- The last component is `firstRegistration`. -/
def registerListener (m : ListenerManager β n) (listener : Listener) (indications : Fin n → Bool) :
    ListenerManager β n × Status × (Fin n → Bool) :=
  if ! m.lock listener then (m, .invalidParam, fun _ => false)
  else if ∀ i, indications i = false then (m, .success, fun _ => false)
  else
    ({ m with
        registrationMap := fun i =>
          if indications i then (m.registerAt b listener i).1 else m.registrationMap i },
      if ∃ i, indications i ∧ (m.registerAt b listener i).2.1 then .success else .already,
      fun i => indications i && (m.registerAt b listener i).2.2)

/-- One turn of the loop in `deRegisterListener`: the set, whether the listener was in it and
whether it was the last. -/
def deRegisterAt (m : ListenerManager β n) (listener : Listener) (i : Fin n) :
    Tree β Listener × Bool × Bool :=
  let erased := b.erase m.setPredicate (m.registrationMap i) listener
  if erased.2 ≠ 0 then (erased.1, true, erased.1.inorder.isEmpty) else (erased.1, false, false)

/-- The last component is `lastDeregistration`. -/
def deRegisterListener (m : ListenerManager β n) (listener : Listener)
    (indications : Fin n → Bool) : ListenerManager β n × Status × (Fin n → Bool) :=
  if ! m.lock listener then (m, .invalidParam, fun _ => false)
  else if ∀ i, indications i = false then (m, .success, fun _ => false)
  else
    ({ m with
        registrationMap := fun i =>
          if indications i then (m.deRegisterAt b listener i).1 else m.registrationMap i },
      if ∃ i, indications i ∧ (m.deRegisterAt b listener i).2.1 then .success else .noSuch,
      fun i => indications i && (m.deRegisterAt b listener i).2.2)

/-- The set of the indication loses the pointers that do not lock. -/
def getAvailableListeners (m : ListenerManager β n) (indication : Nat) :
    ListenerManager β n × List Listener :=
  if h : indication < n then
    ({ m with
        registrationMap := Function.update m.registrationMap ⟨indication, h⟩
          (b.purge m.lock (m.registrationMap ⟨indication, h⟩)) },
      (m.listeners ⟨indication, h⟩).filter m.lock)
  else (m, [])

def getActiveIndications (m : ListenerManager β n) (i : Fin n) : Bool := ! (m.listeners i).isEmpty

def isEnableAnyIndication (m : ListenerManager β n) (listener : Listener) : Bool :=
  (List.finRange n).any fun i => ((m.registrationMap i).find? m.setPredicate listener).isSome

/-- The object at the address goes. The next one there is of a generation of its own. -/
def expire (m : ListenerManager β n) (address : Nat) : ListenerManager β n :=
  { m with generation := Function.update m.generation address (m.generation address + 1) }

end ListenerManager

inductive Event (n : Nat)
  | registerListener (listener : Listener) (indications : Fin n → Bool)
  | deRegisterListener (listener : Listener) (indications : Fin n → Bool)
  | getAvailableListeners (indication : Nat)
  | isEnableAnyIndication (listener : Listener)
  | expire (address : Nat)

namespace ListenerManager

def step (b : Balancing β Listener) (m : ListenerManager β n) : Event n → ListenerManager β n
  | .registerListener listener indications => (m.registerListener b listener indications).1
  | .deRegisterListener listener indications => (m.deRegisterListener b listener indications).1
  | .getAvailableListeners indication => (m.getAvailableListeners b indication).1
  | .isEnableAnyIndication _ => m
  | .expire address => m.expire address

end ListenerManager

end Listeners

end SatComm
