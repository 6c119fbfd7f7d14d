import Brainfuck.Text.Blank
import Brainfuck.Text.Digit
import Brainfuck.Text.Letter

/-!
# Filler

Free-form text between the symbols of a program.  White space and comment
words (letters or digits) are filler; punctuation is not, although it is
passed over too.  The difference shows only where a text reports that nothing
is there for the moment: see `Brainfuck.Reader`.
-/

namespace Brainfuck.Text

/-- Whether the text is white space throughout.  The empty text is not. -/
def isBlankRun (s : String) : Bool :=
  !s.isEmpty && s.toList.all isBlank

/-- Whether the text is a comment word: letters throughout, or digits
throughout.  The empty text is not. -/
def isCommentRun (s : String) : Bool :=
  !s.isEmpty && (s.toList.all isLetter || s.toList.all isDigit)

/-- Whether the character is white space, a letter or a digit. -/
def isFiller (c : Char) : Bool :=
  isBlank c || isLetter c || isDigit c

end Brainfuck.Text
