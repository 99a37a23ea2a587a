import ByteMachine.Fault
import ByteMachine.Text.Utf8

/-!
# Sinks

Where output bytes go. Nothing is known of a writer but that it takes what is written or fails.
A sink is one that accepts bytes up to a capacity and may fail to flush; what it accepted before a
failure stays accepted.
-/

namespace ByteMachine

/-- What bytes can be written to. A write that fails may have taken some of them. -/
class Writer (W : Type) where
  write : W → List UInt8 → Except WriteError Unit × W
  flush : W → Except WriteError Unit × W

/-- Write a text and flush it, unless the write fails. -/
def Writer.print {W : Type} [Writer W] (writer : W) (text : String) : Except WriteError Unit × W :=
  match write writer (Text.utf8Encode text) with
  | (.error cause, writer) => (.error cause, writer)
  | (.ok (), writer) => flush writer

structure Sink where
  accepted : Array UInt8 := #[]
  /-- How many bytes the channel will ever accept, if there is a limit. -/
  capacity : Option Nat := none
  /-- The failure of a write that goes past the capacity. -/
  whenFull : WriteError := .full
  /-- The flushes that fail, counted from zero. -/
  failingFlushes : List Nat := []
  flushes : Nat := 0
  deriving DecidableEq

namespace Sink

/-- A device without any room. -/
def deviceFull : Sink := { capacity := some 0, whenFull := .deviceFull }

/-- The part of `bytes` that still fits. -/
def fitting (sink : Sink) (bytes : List UInt8) : List UInt8 :=
  match sink.capacity with
  | none => bytes
  | some capacity => bytes.take (capacity - sink.accepted.size)

def accept (sink : Sink) (bytes : List UInt8) : Sink :=
  { sink with accepted := sink.accepted ++ sink.fitting bytes }

/-- Write as much as fits; the rest, if there is any, fails. -/
def write (sink : Sink) (bytes : List UInt8) : Except WriteError Unit × Sink :=
  (if (sink.fitting bytes).length = bytes.length then .ok () else .error sink.whenFull,
    sink.accept bytes)

def flush (sink : Sink) : Except WriteError Unit × Sink :=
  (if sink.flushes ∈ sink.failingFlushes then .error .flush else .ok (),
    { sink with flushes := sink.flushes + 1 })

instance : Writer Sink where
  write := write
  flush := flush

/-- The accepted bytes as text, if they are text. -/
def text? (sink : Sink) : Option String := Text.utf8Decode? sink.accepted.toList

end Sink

end ByteMachine
