import TypedColumns.Toml.Scan

/-!
# TOML strings

Strings come in four kinds: with or without escapes, on one line or on several.

* `hexValue?`, `codePoint?`, `escape?` -- the character that an escape stands for.
* `basic`, `literal` -- the rest of a string on one line, after its opening quote.
* `basicBlock`, `literalBlock` -- the rest of a string on several lines, after its opening quotes.  Up to two quotes
  may stand before the three that close it; an end of line reads as a line feed.
* `quoted` -- a string of any kind.
-/

namespace TypedColumns.Toml

/-- The value of a hexadecimal digit. -/
def hexValue? (c : Char) : Option Nat :=
  if '0' ≤ c && c ≤ '9' then some (c.toNat - '0'.toNat)
  else if 'a' ≤ c && c ≤ 'f' then some (c.toNat - 'a'.toNat + 10)
  else if 'A' ≤ c && c ≤ 'F' then some (c.toNat - 'A'.toNat + 10)
  else none

/-- The number written by hexadecimal digits, after `acc`. -/
def hexNumber? (acc : Nat) : List Char → Option Nat
  | [] => some acc
  | c :: cs =>
    match hexValue? c with
    | some d => hexNumber? (16 * acc + d) cs
    | none => none

/-- The character whose code point is written by hexadecimal digits, if there is one. -/
def codePoint? (digits : List Char) : Option Char :=
  match hexNumber? 0 digits with
  | some n => if h : n.isValidChar then some (Char.ofNatAux n h) else none
  | none => none

/-- The character that a backslash and a letter stand for. -/
def escape? (c : Char) : Option Char :=
  match c with
  | 'b' => some '\x08'
  | 't' => some '\t'
  | 'n' => some '\n'
  | 'f' => some '\x0c'
  | 'r' => some '\r'
  | '"' => some '"'
  | '\\' => some '\\'
  | _ => none

/-- A read text with one more character in front. -/
def prepend (c : Char) : List Char × List Char → List Char × List Char
  | (text, rest) => (c :: text, rest)

/-! ### On one line -/

/-- The rest of a string with escapes, up to its closing quote. -/
def basic : Scan (List Char)
  | [] => none
  | '"' :: cs => some ([], cs)
  | '\\' :: 'u' :: a :: b :: c :: d :: cs =>
    match codePoint? [a, b, c, d] with
    | some x => (basic cs).map (prepend x)
    | none => none
  | '\\' :: 'U' :: a :: b :: c :: d :: e :: f :: g :: h :: cs =>
    match codePoint? [a, b, c, d, e, f, g, h] with
    | some x => (basic cs).map (prepend x)
    | none => none
  | '\\' :: c :: cs =>
    match escape? c with
    | some x => (basic cs).map (prepend x)
    | none => none
  | c :: cs => if isPlain c && c != '\\' then (basic cs).map (prepend c) else none

/-- The quote of strings without escapes. -/
def apostrophe : Char := '\x27'

/-- The rest of a string without escapes, up to its closing quote. -/
def literal : Scan (List Char)
  | [] => none
  | c :: cs =>
    if c = apostrophe then some ([], cs)
    else if isPlain c then (literal cs).map (prepend c)
    else none

/-! ### On several lines -/

/-- What up to two further quotes in front of a text contribute to a string that ends there. -/
def closing (quote : Char) : List Char → List Char × List Char
  | a :: b :: cs =>
    if a = quote then if b = quote then ([a, b], cs) else ([a], b :: cs) else ([], a :: b :: cs)
  | [a] => if a = quote then ([a], []) else ([], [a])
  | [] => ([], [])

/-- Whether nothing but blanks stands before the end of the line. -/
def endsLine (cs : List Char) : Bool := (newline? (skipBlanks cs)).isSome

/-- The rest of a string with escapes, up to its closing quotes.  A backslash at the end of a line, told by `skipping`,
hides all blanks and ends of lines that follow. -/
def basicBlock (skipping : Bool) : Scan (List Char)
  | [] => none
  | '"' :: '"' :: '"' :: cs => some (closing '"' cs)
  | '\r' :: '\n' :: cs =>
    if skipping then basicBlock true cs else (basicBlock false cs).map (prepend '\n')
  | '\\' :: 'u' :: a :: b :: c :: d :: cs =>
    match codePoint? [a, b, c, d] with
    | some x => (basicBlock false cs).map (prepend x)
    | none => none
  | '\\' :: 'U' :: a :: b :: c :: d :: e :: f :: g :: h :: cs =>
    match codePoint? [a, b, c, d, e, f, g, h] with
    | some x => (basicBlock false cs).map (prepend x)
    | none => none
  | '\\' :: c :: cs =>
    match escape? c with
    | some x => (basicBlock false cs).map (prepend x)
    | none => if endsLine (c :: cs) then basicBlock true (c :: cs) else none
  | c :: cs =>
    if skipping && (isSpace c || c == '\n') then basicBlock true cs
    else if (isPlain c && c != '\\') || c == '\n' then (basicBlock false cs).map (prepend c)
    else none

/-- The rest of a string without escapes, up to its closing quotes. -/
def literalBlock : Scan (List Char)
  | '\r' :: '\n' :: cs => (literalBlock cs).map (prepend '\n')
  | a :: b :: c :: cs =>
    if a = apostrophe && b = apostrophe && c = apostrophe then some (closing apostrophe cs)
    else if isPlain a || a == '\n' then (literalBlock (b :: c :: cs)).map (prepend a)
    else none
  | _ => none

/-! ### Any kind -/

/-- A text without the end of line at its front, if there is one. -/
def skipNewline (cs : List Char) : List Char := (newline? cs).getD cs

/-- A string on one line, if the text begins with one. -/
def quotedLine : Scan (List Char)
  | [] => none
  | c :: cs =>
    if c = '"' then basic cs
    else if c = apostrophe then literal cs
    else none

/-- A string of any kind, if the text begins with one. -/
def quoted : Scan (List Char)
  | a :: b :: c :: cs =>
    if a = '"' && b = '"' && c = '"' then basicBlock false (skipNewline cs)
    else if a = apostrophe && b = apostrophe && c = apostrophe then literalBlock (skipNewline cs)
    else quotedLine (a :: b :: c :: cs)
  | cs => quotedLine cs

end TypedColumns.Toml
