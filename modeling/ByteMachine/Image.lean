import ByteMachine.Memory.Bank
import ByteMachine.Text.Blank
import ByteMachine.Text.Lines
import ByteMachine.Text.Quoted

/-!
# Program images

A program as text: one byte a line, written in binary. A hash sign starts a comment, and lines
without a literal take up no address. The blanks around a literal include a carriage return before
the end of the line.
-/

namespace ByteMachine

inductive ImageError where
  | invalidLiteral (line : Nat) (text : String)
  | tooLarge (length : Nat)
  deriving DecidableEq, Repr

def ImageError.message : ImageError → String
  | invalidLiteral line text =>
    "line " ++ Text.decimal line ++ ": " ++ Text.quoted text ++ " is not an 8-bit binary number"
  | tooLarge length =>
    "program is " ++ Text.decimal length ++ " bytes long, but memory only holds " ++
      Text.decimal memorySize

namespace Image

/-- What a line holds before its comment, without the blanks around it. -/
def code (line : List Char) : List Char := Text.trim (line.takeWhile (· ≠ '#'))

/-- Shift a binary digit, given by the byte of its character, into a number from the right. -/
def shiftIn (n digit : UInt8) : Option UInt8 :=
  if digit = 0x30 then some (n <<< 1) else if digit = 0x31 then some (n <<< 1 ||| 1) else none

/-- The byte that a literal of at most eight binary digits stands for. It is read off the UTF-8 form
of the code, in which a digit is one byte and no other character has the byte of a digit. -/
def literal? (code : List Char) : Option UInt8 :=
  let digits := code.flatMap String.utf8EncodeChar
  if digits.length ≤ 8 then digits.foldlM shiftIn 0 else none

/-- The codes that are not empty, each with the number of its line, counted from one. -/
def codes (text : List Char) : List (List Char × Nat) :=
  (((Text.lines text).map code).zipIdx 1).filter fun (code, _) => code ≠ []

def readCode : List Char × Nat → Except ImageError UInt8
  | (code, line) =>
    match literal? code with
    | some b => .ok b
    | none => .error (.invalidLiteral line (String.ofList code))

/-- The bytes of an image of any length. -/
def bytes (text : List Char) : Except ImageError (List UInt8) := (codes text).mapM readCode

/-- The bytes of an image that fits into memory. A line that is no literal is reported first,
however long the image is. -/
def parse (text : String) : Except ImageError (List UInt8) := do
  let image ← bytes text.toList
  if image.length ≤ memorySize then return image else throw (.tooLarge image.length)

example : (parse "10000010 # LDI R0,8\n\n 0 \r\n1000").toOption = some [0x82, 0, 8] := by
  decide +kernel

example : parse "1\n#\n2" = .error (.invalidLiteral 3 "2") := by rfl

end Image

end ByteMachine
