/-
Texts in diagnostics.

A text from outside, such as a string of a document or the name of a file, is shown in
double quotes.  Escaped are the quote, the backslash and every character that would not
be seen; the common controls have short escapes, the others show their code point in
braces.
-/
import Testbed.Text.Unseen

namespace Testbed.Text

/-- One character as a diagnostic shows it. -/
def written (c : Char) : List Char :=
  if c = '\x00' then ['\\', '0']
  else if c = '\t' then ['\\', 't']
  else if c = '\n' then ['\\', 'n']
  else if c = '\r' then ['\\', 'r']
  else if c = '"' then ['\\', '"']
  else if c = '\\' then ['\\', '\\']
  else if isUnseen c then ['\\', 'u', '\x7b'] ++ Nat.toDigits 16 c.toNat ++ ['\x7d']
  else [c]

/-- A text as a diagnostic shows it. -/
def quoted (s : String) : String := String.ofList ('"' :: s.toList.flatMap written ++ ['"'])

end Testbed.Text
