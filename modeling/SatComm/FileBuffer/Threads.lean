import SatComm.Runs.Basic

/-!
# The buffering and the streaming thread

`FileBuffer` reads a file in batches. The buffering thread fills `readBuffer_`, announces the batch
with `streamCurrentBatch_` and waits for `readNextBatch_`; the streaming thread waits for the
announcement, swaps the buffer out and sets `readNextBatch_`. The flags have different mutexes, and
the buffer is filled under none.

A step of the buffering thread is one access to the buffer or to a flag, or one critical section. A
file is the list of the lines that `getline` reads. A thread that waits may wake at any time and
looks at its flag.
-/

namespace SatComm

namespace FileBuffer

/-- Where the buffering thread is, with the line that it has read. -/
inductive Buffering
  | filling (line : String) (lineCount : Nat)
  | announcing (line : String)
  | clearing (line : String)
  | waiting (line : String)
  | poppingLast
  | announcingLast
  | finished
  /-- `pop_back` of an empty vector: nothing is known of what follows. -/
  | undefined
deriving DecidableEq, Repr

structure State where
  /-- What is left of the file. -/
  rest : List String
  buffering : Buffering
  readBuffer : List String
  streamCurrentBatch : Bool
  readNextBatch : Bool
  reachedEOF : Bool
  requestBuffer : List String
  /-- The streaming thread has seen the announcement and is about to swap. -/
  ready : Bool
  /-- The number of batches announced before the last one. -/
  announced : Nat
  /-- What the swaps have taken. -/
  taken : List (List String)
  /-- What `getNextBuffer` returned last after a swap. -/
  result : Option Bool
deriving DecidableEq, Repr

/-- The lines of the copyright are skipped: the first line that is neither empty nor a comment, or
the last line. -/
def skipCopyright (line : String) : List String → String × List String
  | [] => (line, [])
  | next :: rest =>
    if next ≠ "" ∧ ¬ "##".toList.isPrefixOf next.toList then (next, rest)
    else skipCopyright next rest

/-- `startBuffering` has set the flags. -/
def start (file : List String) : State where
  rest := (skipCopyright "" file).2
  buffering := .filling (skipCopyright "" file).1 0
  readBuffer := []
  streamCurrentBatch := false
  readNextBatch := false
  reachedEOF := false
  requestBuffer := []
  ready := false
  announced := 0
  taken := []
  result := none

/-- Empty lines are not kept. -/
def kept (line : String) : List String := if line = "" then [] else [line]

namespace State

/-- One round of the inner loop, up to the access that comes next. -/
def fill (threshold : Int) (s : State) (line : String) (lineCount : Nat) : State :=
  let lineCount := lineCount + (kept line).length
  let s := { s with readBuffer := s.readBuffer ++ kept line }
  match s.rest with
  | [] => { s with buffering := .poppingLast }
  | next :: rest =>
    let s := { s with rest := rest }
    if lineCount < threshold then { s with buffering := .filling next lineCount }
    -- the line that is read at the end of the file is not kept
    else if rest = [] then { s with buffering := .poppingLast }
    else { s with buffering := .announcing next }

/-- The next step of the buffering thread, if it is not blocked or at its end. -/
def buffer (threshold : Int) (s : State) : Option State :=
  match s.buffering with
  | .filling line lineCount => some (s.fill threshold line lineCount)
  | .announcing line => some { s with
      streamCurrentBatch := true
      announced := s.announced + 1
      buffering := .clearing line }
  | .clearing line => some { s with readNextBatch := false, buffering := .waiting line }
  | .waiting line => if s.readNextBatch then
      some { s with streamCurrentBatch := false, buffering := .filling line 0 }
    else none
  | .poppingLast => if s.readBuffer = [] then some { s with buffering := .undefined }
    else some { s with
      reachedEOF := true
      readBuffer := s.readBuffer.dropLast
      buffering := .announcingLast }
  | .announcingLast => some { s with streamCurrentBatch := true, buffering := .finished }
  | .finished | .undefined => none

/-- `getNextBuffer` with nothing left of the last batch: the wait for the announcement. -/
def check (s : State) : Option State :=
  if s.requestBuffer = [] ∧ ¬ s.ready ∧ s.streamCurrentBatch then some { s with ready := true }
  else none

/-- The swap, and what `getNextBuffer` returns. -/
def take (s : State) : Option State :=
  if s.ready then
    some { s with
      requestBuffer := s.readBuffer
      readBuffer := s.requestBuffer
      readNextBatch := true
      ready := false
      taken := s.taken ++ [s.readBuffer]
      result := some ! (s.reachedEOF && s.readBuffer.isEmpty) }
  else none

/-- The streaming thread has sent the first line of its buffer. -/
def send (s : State) : Option State :=
  if s.requestBuffer ≠ [] then some { s with requestBuffer := s.requestBuffer.tail } else none

end State

inductive Step
  | buffer | check | take | send
deriving DecidableEq, Repr

def step (threshold : Int) (s : State) : Step → Option State
  | .buffer => s.buffer threshold
  | .check => s.check
  | .take => s.take
  | .send => s.send

/-- The batches of a file, from the lines collected so far on. The last one loses its last line. -/
def batchesFrom (threshold : Int) : List String → Nat → String → List String → List (List String)
  | collected, _, line, [] => [(collected ++ kept line).dropLast]
  | collected, lineCount, line, next :: rest =>
    if ((lineCount + (kept line).length : Nat) : Int) < threshold then
      batchesFrom threshold (collected ++ kept line) (lineCount + (kept line).length) next rest
    else if rest = [] then [(collected ++ kept line).dropLast]
    else (collected ++ kept line) :: batchesFrom threshold [] 0 next rest

/-- The batches of a file. -/
def batches (threshold : Int) (file : List String) : List (List String) :=
  batchesFrom threshold [] 0 (skipCopyright "" file).1 (skipCopyright "" file).2

end FileBuffer

end SatComm
