import Brainfuck.Capacity

/-!
# Input and output

A running program reads and writes through streams.  What they do is given
beforehand, read by read and write by write, so a run has no effects of its
own.  A read delivers a byte, or one character in its place, or nothing, or it
fails; a write succeeds or fails.  The host, whose memory has to hold the bytes of
each write, comes with the streams.

Failures of the system and of values are trouble with the stream itself, and
the machine reports them as its own; the others it lets through.
-/

namespace Brainfuck

/-- The kinds of failure a stream can report. -/
inductive Fault.Kind where
  /-- A failure of the system. -/
  | system
  /-- A failure of the system: it took too long. -/
  | timeout
  /-- A failure of the system: the other side is gone. -/
  | connection
  /-- A failure of the system: a file is missing. -/
  | missingFile
  /-- The value, or the state of the stream, does not allow it. -/
  | value
  /-- Any other trouble while running. -/
  | runtime
  /-- The end of an input, reported as a failure. -/
  | endOfInput
deriving DecidableEq, Repr

/-- A failure of a stream. -/
structure Fault where
  /-- What kind of failure it is. -/
  kind : Fault.Kind
  /-- What the stream says about it. -/
  message : String
deriving DecidableEq, Repr

/-- Whether the machine reports the failure as trouble with its input or output. -/
def Fault.Kind.isStreamTrouble : Fault.Kind → Bool
  | system | timeout | connection | missingFile | value => true
  | runtime | endOfInput => false

/-- What one read does. -/
inductive Reading where
  /-- Delivers bytes, of which the first one counts; none mean that the input is exhausted. -/
  | bytes (bs : List UInt8)
  /-- Delivers text, of which there must be one character; none mean that the input is exhausted. -/
  | text (cs : List Char)
  /-- Fails. -/
  | fails (f : Fault)
deriving DecidableEq, Repr

/-- Why a read delivers no byte. -/
inductive Reading.Problem where
  /-- There is nothing left. -/
  | exhausted
  /-- The stream failed. -/
  | fault (f : Fault)
  /-- There were `length` characters where one was expected. -/
  | longText (length : Nat)
deriving DecidableEq, Repr

/-- The byte that a read delivers.  A character counts by its code point modulo 256. -/
def Reading.byte : Reading → Except Reading.Problem UInt8
  | bytes [] => .error .exhausted
  | bytes (b :: _) => .ok b
  | text [] => .error .exhausted
  | text [c] => .ok (UInt8.ofNat c.toNat)
  | text cs => .error (.longText cs.length)
  | fails f => .error (.fault f)

/-- What the streams of a run do, and what the run takes place on. -/
structure Streams where
  /-- What each read does, counted from zero. -/
  read : Nat → Reading
  /-- Whether a write fails, counted from zero. -/
  write : Nat → Option Fault
  /-- Where the bytes of a write are put together. -/
  host : Host := .standard

namespace Streams

/-- Reads and writes as listed.  Behind the lists the input is exhausted and writes succeed. -/
def ofLists (reads : Array Reading) (faults : Array (Option Fault)) (host : Host := .standard) :
    Streams where
  read k := reads[k]?.getD (.bytes [])
  write k := (faults[k]?).getD none
  host

/-- An input of bytes that are read one by one, and an output that never fails. -/
def ofBytes (input : Array UInt8) (host : Host := .standard) : Streams where
  read k := .bytes input[k]?.toList
  write _ := none
  host

end Streams

end Brainfuck
