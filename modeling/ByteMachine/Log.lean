import ByteMachine.Text.Lines

/-!
# Log

What a machine and the programs around it tell their user while they work: messages, each with a
severity and an origin, and lines of an execution trace, which have neither and are always shown.
-/

namespace ByteMachine.Log

inductive Level where
  | error | warn | info | debug | trace
  deriving DecidableEq, Repr

namespace Level

/-- Zero is the most severe. -/
def rank : Level → Nat
  | error => 0
  | warn => 1
  | info => 2
  | debug => 3
  | trace => 4

def name : Level → String
  | error => "ERROR"
  | warn => "WARN"
  | info => "INFO"
  | debug => "DEBUG"
  | trace => "TRACE"

def all : List Level := [error, warn, info, debug, trace]

/-- The level with a name, which may be in small letters. -/
def ofName? (name : String) : Option Level := all.find? (·.name = name.toUpper)

/-- Whether a message is shown when everything at `threshold` or more severe is. Without a threshold
nothing is shown. -/
def shownAt (level : Level) : Option Level → Bool
  | none => false
  | some threshold => level.rank ≤ threshold.rank

end Level

/-- The part of the program a message comes from. -/
inductive Origin where
  | processor | loader | commandLine | conformance
  deriving DecidableEq, Repr

def Origin.label : Origin → String
  | processor => "ls8cpu::cpu"
  | loader => "ls8::loader"
  | commandLine => "ls8"
  | conformance => "ls8cpu_test"

inductive Entry where
  | message (level : Level) (origin : Origin) (text : String)
  | traceLine (text : String)
  deriving DecidableEq, Repr

namespace Entry

def shownAt (threshold : Option Level) : Entry → Bool
  | message level _ _ => level.shownAt threshold
  | traceLine _ => true

/-- A message as its level and its text; a trace line is no message. -/
def message? : Entry → Option String
  | message level _ text => some (level.name ++ " " ++ text)
  | traceLine _ => none

/-- A trace line is no message. -/
def isMessage : Entry → Bool
  | message .. => true
  | traceLine _ => false

end Entry

/-- How a console shows a message: in which lines, or not at all. -/
abbrev Rendering := Level → Origin → String → List String

/-- An entry as it appears on a console. A trace line appears as it is. -/
def Entry.lines (render : Rendering) : Entry → List String
  | message level origin text => render level origin text
  | traceLine text => [text]

/-- The lines of a console. -/
def lines (render : Rendering) (entries : List Entry) : List String :=
  entries.flatMap (Entry.lines render)

/-- Level and origin in brackets before the text of a message. The level is padded to the longest
one; further lines are indented. -/
def bracketed (threshold : Option Level) : Rendering := fun level origin text =>
  let label := String.ofList (level.name.toList.rightpad 5 ' ')
  let header := "[" ++ label ++ " " ++ origin.label ++ "] "
  if level.shownAt threshold then
    match Text.split '\n' text.toList with
    | [] => [header]
    | first :: rest =>
      (header ++ String.ofList first) :: rest.map fun line => "    " ++ String.ofList line
  else []

/-- The messages that are at `threshold` or more severe, in order. -/
def messages (threshold : Option Level) (entries : List Entry) : List String :=
  (entries.filter (·.shownAt threshold)).filterMap Entry.message?

/-- The lines of a console that shows everything at `threshold` or more severe, in brackets. -/
def console (threshold : Option Level) : List Entry → List String := lines (bracketed threshold)

end ByteMachine.Log
