import ByteMachine.Files.Basic
import ByteMachine.Image
import ByteMachine.Log

/-!
# Loading

From the path of a program image to a memory that holds the program.
-/

namespace ByteMachine

inductive LoadError where
  | notFound (path : String)
  | unreadable (path : String) (cause : ReadError)
  | malformed (path : String) (cause : ImageError)
  deriving DecidableEq, Repr

namespace LoadError

def message : LoadError → String
  | notFound path => path ++ " not found!"
  | unreadable path _ => "could not read " ++ path
  | malformed path _ => path ++ " is not a program image"

def source? : LoadError → Option String
  | notFound _ => none
  | unreadable _ cause => some cause.message
  | malformed _ cause => some cause.message

/-- The error and what is behind it, outermost first. -/
def chain (e : LoadError) : List String := e.message :: e.source?.toList

end LoadError

namespace FileReader

def opening (path : String) : Log.Entry :=
  .message .info .loader ("Attempting to open path: '" ++ path ++ "'")

def programSize (length : Nat) : Log.Entry :=
  .message .info .loader ("Program is " ++ Text.decimal length ++ " bytes")

/-- The memory that holds the image at a path, and what is reported on the way. -/
def loadRam (reader : FileReader) (path : String) : Except LoadError Ram × List Log.Entry :=
  match reader.readText path with
  | .error .notFound => (.error (.notFound path), [opening path])
  | .error cause => (.error (.unreadable path cause), [opening path])
  | .ok text =>
    match Image.parse text with
    | .error cause => (.error (.malformed path cause), [opening path])
    | .ok image =>
      ((Bank.ofImage image).mapError fun _ => .malformed path (.tooLarge image.length),
        [opening path, programSize image.length])

end FileReader

end ByteMachine
