import ByteMachine.Text.Numeral
import ByteMachine.Text.Utf8

/-!
# Reading files

What reading a file by its path can come to. Where the bytes come from is left to whoever supplies a
reader.
-/

namespace ByteMachine

inductive ReadError where
  | notFound
  /-- Any other refusal, as the operating system describes and numbers it. -/
  | refused (description : String) (code : Nat)
  | notText
  deriving DecidableEq, Repr

namespace ReadError

def notDirectory : ReadError := refused "Not a directory" 20

def isDirectory : ReadError := refused "Is a directory" 21

def nameTooLong : ReadError := refused "File name too long" 36

/-- A refusal by its number. `description` is for the numbers that have no wording here. -/
def ofCode (code : Nat) (description : String) : ReadError :=
  match code with
  | 2 => notFound
  | 20 => notDirectory
  | 21 => isDirectory
  | 36 => nameTooLong
  | _ => refused description code

def message : ReadError → String
  | notFound => "No such file or directory (os error 2)"
  | refused description code => description ++ " (os error " ++ Text.decimal code ++ ")"
  | notText => "stream did not contain valid UTF-8"

end ReadError

abbrev FileReader := String → Except ReadError (List UInt8)

/-- The contents of a file as text. -/
def FileReader.readText (reader : FileReader) (path : String) : Except ReadError String := do
  match Text.utf8Decode? (← reader path) with
  | some text => return text
  | none => throw .notText

end ByteMachine
