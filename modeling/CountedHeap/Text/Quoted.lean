/-
Quoted text and labelled records

How a value is shown to someone who debugs: a text between quotes, with the characters that would
not show written by name or number, and a record as its name with its fields in braces.

* `Quoted.escape`: one character of a quoted text;
* `Quoted.quote`: the quoted text;
* `labelled`: a record.
-/
import CountedHeap.Text.Unprinted

namespace CountedHeap

namespace Quoted

/-- The digits of a number in base sixteen. -/
def hex (n : Nat) : String := String.ofList (Nat.toDigits 16 n)

/-- One character of a quoted text. The quote, the backslash and four control characters have a
short form, a character that does not print is given by number, and any other stands for itself. -/
def escape (c : Char) : String :=
  if c = '"' then "\\\""
  else if c = '\\' then "\\\\"
  else if c = '\n' then "\\n"
  else if c = '\r' then "\\r"
  else if c = '\t' then "\\t"
  else if c = '\x00' then "\\0"
  else if c.toNat < 32 || c.toNat == 127 || Unprinted.mem c.toNat then
    "\\u\x7b" ++ hex c.toNat ++ "\x7d"
  else c.toString

/-- A text between quotes. -/
def quote (s : String) : String := "\"" ++ String.join (s.toList.map escape) ++ "\""

example : quote "free" = "\"free\"" := by decide +kernel
example : quote "a\"b\n" = "\"a\\\"b\\n\"" := by decide +kernel

end Quoted

/-- A record as text: its name, then each field with its value. -/
def labelled (name : String) (fields : List (String × String)) : String :=
  name ++ " \x7b " ++ ", ".intercalate (fields.map fun f => f.1 ++ ": " ++ f.2) ++ " \x7d"

end CountedHeap
