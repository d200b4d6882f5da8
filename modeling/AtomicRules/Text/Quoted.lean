import AtomicRules.Text.Quoted.Table
import AtomicRules.Text.Radix

/-!
# Quoted text

A text between double quotes, on one line and with every character visible. A backslash stands
before a quote and a backslash, the common control characters have a letter of their own, and any
other character that would not show as itself is written by its code point, as in `\u{7f}`.
-/

namespace AtomicRules.Text

/-- A character that has no shape of its own: nothing is printed for it, or it changes the shape
of the character before it. -/
def isInvisible (c : Char) : Bool :=
  unprintable.contains c || fillers.contains c ||
    graphemeExtenders.contains c && !spacingExtenders.contains c

/-- The way a character is written between quotes. -/
def quoteChar (c : Char) : List Char :=
  match c with
  | '\x00' => ['\\', '0']
  | '\t' => ['\\', 't']
  | '\r' => ['\\', 'r']
  | '\n' => ['\\', 'n']
  | '"' => ['\\', '"']
  | '\\' => ['\\', '\\']
  | c => if isInvisible c then ['\\', 'u', '\x7b'] ++ Radix.numeral 16 c.toNat ++ ['\x7d'] else [c]

/-- The text in quotes. -/
def quoted (text : String) : String :=
  "\"" ++ String.ofList (text.toList.flatMap quoteChar) ++ "\""

example : quoted "it's \"a\\b\"\n" = "\"it's \\\"a\\\\b\\\"\\n\"" := by decide +kernel

/-- Letters with an accent of their own show as themselves, a combining accent does not. -/
example : quoted "é e\u0301 \u007f" = "\"é e\\u\x7b301\x7d \\u\x7b7f\x7d\"" := by decide +kernel

/-- A filler is a letter and yet shows nothing; a halfwidth voiced mark extends a letter and yet
shows as itself. -/
example : quoted "\u3164\uff9e" = "\"\\u\x7b3164\x7d\uff9e\"" := by decide +kernel

end AtomicRules.Text
