/-
Words from closed lists.

Operators, kinds and samples are written as words, each list of which is complete.  A word
from outside its list is refused, in brief or with everything that was expected.
-/

namespace Testbed

/-- A word that is not in the list it should be from. -/
structure UnknownWord where
  word : String
  known : List String
deriving DecidableEq

namespace UnknownWord

/-- The short wording, which tells nothing of the list. -/
def brief (_ : UnknownWord) : String := "Matching variant not found"

/-- A word between back quotes. -/
def quoted (word : String) : String := "`" ++ word ++ "`"

/-- The full wording, with the list. -/
def message (e : UnknownWord) : String :=
  "unknown variant " ++ quoted e.word ++ ", expected one of "
    ++ ", ".intercalate (e.known.map quoted)

end UnknownWord

/-- What a word stands for, where `known` are the words for which there is anything. -/
def expectWord {α : Type} (known : List String) (find? : String → Option α) (word : String) :
    Except UnknownWord α :=
  match find? word with
  | some a => .ok a
  | none => .error ⟨word, known⟩

end Testbed
