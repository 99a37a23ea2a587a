import ByteMachine.Text.Printable

/-!
# Quoted text

A text in double quotes, as messages show it: quotes, backslashes and unprintable characters are
escaped, everything else stands for itself.
-/

namespace ByteMachine.Text

/-- An escape by number, in small hexadecimal digits without leading zeros. -/
def numberEscape (c : Char) : List Char :=
  ['\\', 'u', '\x7b'] ++ Nat.toDigits 16 c.toNat ++ ['\x7d']

def escape (c : Char) : List Char :=
  if c = '"' then ['\\', '"']
  else if c = '\\' then ['\\', '\\']
  else if c = '\t' then ['\\', 't']
  else if c = '\r' then ['\\', 'r']
  else if c = '\n' then ['\\', 'n']
  else if c = '\x00' then ['\\', '0']
  else if isPrintable c then [c]
  else numberEscape c

def quote (text : List Char) : List Char := '"' :: text.flatMap escape ++ ['"']

def quoted (text : String) : String := String.ofList (quote text.toList)

example : quoted "it's" = "\"it's\"" := by decide +kernel

example : quoted "a\tb\\" = "\"a\\tb\\\\\"" := by decide +kernel

example : quoted "\x1b" = "\"\\u\x7b1b\x7d\"" := by decide +kernel

example : quoted "e\u0301" = "\"e\\u\x7b301\x7d\"" := by decide +kernel

example : quoted "\uff76\uff9e" = "\"\uff76\uff9e\"" := by decide +kernel

end ByteMachine.Text
