import SoliditySource.Layout.Writer
import SoliditySource.Text.Blank

/-! Wrapping of comments. Blanks inside a comment only separate words, and every line of the wrapped
comment has the same number of words, except a shorter last one. -/

namespace SoliditySource.Comment

def wordsPerLine : Nat := 7

/-- Cuts a list into chunks of `size` items, with fewer in the last; `chunk` is under construction.
-/
def chunksFrom (size : Nat) (chunk : List α) : List α → List (List α)
  | [] => if chunk.isEmpty then [] else [chunk]
  | x :: xs =>
    if chunk.length + 1 < size then chunksFrom size (chunk ++ [x]) xs
    else (chunk ++ [x]) :: chunksFrom size [] xs

/-- The lines of a wrapped comment, without the comment mark. -/
def lines (comment : List Char) : List (List Char) :=
  (chunksFrom wordsPerLine [] (Text.words comment)).map [' '].intercalate

def wrap : Option String → List Fragment
  | none => []
  | some comment => (lines comment.toList).map fun line => .comment (String.ofList line)

end SoliditySource.Comment
