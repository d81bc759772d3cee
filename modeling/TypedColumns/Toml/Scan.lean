/-!
# Scanning TOML text

A scanner reads something from the front of a text and answers it with the text that is left, or fails.  Here are the
parts that carry no value: blanks, comments and the ends of lines.

* `Scan` -- a scanner.
* `isPlain` -- the characters that can stand in comments and, but for a few, in strings: all but control characters,
  the tab excepted.
* `skipBlanks`, `newline?`, `lineEnd?` -- blanks, one end of line, and what may follow a statement on its line.
* `gap?` -- what may stand between the items of an array: blanks, ends of lines and comments.
-/

namespace TypedColumns.Toml

/-- Reads something from the front of a text and answers it with what is left. -/
abbrev Scan (α : Type) := List Char → Option (α × List Char)

/-- Whether a character is neither a control character nor an end of line. -/
def isPlain (c : Char) : Bool := c == '\t' || (' ' ≤ c && c != '\x7f')

/-- Whether a character is blank within a line. -/
def isSpace (c : Char) : Bool := c == ' ' || c == '\t'

/-- A text without the blanks at its front. -/
def skipBlanks (cs : List Char) : List Char := cs.dropWhile isSpace

/-- A text without the end of line at its front. -/
def newline? : List Char → Option (List Char)
  | '\n' :: cs => some cs
  | '\r' :: '\n' :: cs => some cs
  | _ => none

/-- A text without the comment at its front, if there is one. -/
def skipComment : List Char → List Char
  | '#' :: cs => cs.dropWhile isPlain
  | cs => cs

/-- What follows the end of a line, before which only blanks and a comment may stand. -/
def lineEnd? (cs : List Char) : Option (List Char) :=
  match skipComment (skipBlanks cs) with
  | [] => some []
  | cs => newline? cs

/-- What follows any blanks, ends of lines and comments, each of which must end with its line. -/
def gap? (inComment : Bool) : List Char → Option (List Char)
  | [] => if inComment then none else some []
  | '\r' :: '\n' :: cs => gap? false cs
  | c :: cs =>
    if c = '\n' then gap? false cs
    else if c = '\r' then none
    else if inComment then if isPlain c then gap? true cs else none
    else if c = '#' then gap? true cs
    else if isSpace c then gap? false cs
    else some (c :: cs)

/-- The part of a text before what is left of it. -/
def lexeme (cs rest : List Char) : String := String.ofList (cs.take (cs.length - rest.length))

end TypedColumns.Toml
