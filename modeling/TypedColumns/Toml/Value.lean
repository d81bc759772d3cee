import TypedColumns.Toml.Moment
import TypedColumns.Toml.Node
import TypedColumns.Toml.Number

/-!
# TOML keys and values

* `Key`, `key` -- a dotted key, of fewer than `nestingLimit` parts.
* `item`, `pair` -- one item of an array, one entry of a table in braces.
* `value` -- a value; arrays and tables in braces may be nested fewer than `nestingLimit` deep.
-/

namespace TypedColumns.Toml

/-- The number of parts of a key, and of arrays and tables inside each other, that is too high. -/
def nestingLimit : Nat := 80

/-- A dotted key: the parts that lead to a table, and the last part. -/
structure Key where
  path : List String
  last : String
deriving DecidableEq, Repr

/-! ### Keys -/

/-- Whether a character can stand in a key without quotes. -/
def isKeyChar (c : Char) : Bool := c.isAlphanum || c == '_' || c == '-'

/-- One part of a key. -/
def simpleKey (cs : List Char) : Option (String × List Char) :=
  match quotedLine cs with
  | some (text, rest) => some (String.ofList text, rest)
  | none =>
    match cs.takeWhile isKeyChar with
    | [] => none
    | word => some (String.ofList word, cs.dropWhile isKeyChar)

/-- The parts of a key, with blanks around each. -/
def keyParts : Nat → Scan (List String)
  | 0, _ => none
  | fuel + 1, cs =>
    match simpleKey (skipBlanks cs) with
    | none => none
    | some (part, rest) =>
      match skipBlanks rest with
      | '.' :: rest => (keyParts fuel rest).map (fun (parts, rest) => (part :: parts, rest))
      | rest => some ([part], rest)

/-- A dotted key. -/
def key (cs : List Char) : Option (Key × List Char) :=
  match keyParts cs.length cs with
  | none => none
  | some (parts, rest) =>
    if nestingLimit ≤ parts.length then none
    else
      match parts.getLast? with
      | some last => some (⟨parts.dropLast, last⟩, rest)
      | none => none

/-! ### Values -/

/-- A number or a moment, if the text begins with one. -/
def numeral (cs : List Char) : Option (Node × List Char) :=
  if beginsDate cs || beginsTime cs then
    match moment? cs with
    | some rest => some (.moment (lexeme cs rest), rest)
    | none => none
  else
    match number cs with
    | some (.integer n, rest) => some (.integer n, rest)
    | some (.float text, rest) => some (.float text, rest)
    | none => none

/-- A value that holds no others. -/
def scalar (cs : List Char) : Option (Node × List Char) :=
  match cs with
  | 't' :: 'r' :: 'u' :: 'e' :: rest => some (.boolean true, rest)
  | 'f' :: 'a' :: 'l' :: 's' :: 'e' :: rest => some (.boolean false, rest)
  | c :: _ =>
    if c = '"' || c = apostrophe then
      match quoted cs with
      | some (text, rest) => some (.string (String.ofList text), rest)
      | none => none
    else numeral cs
  | [] => none

/-- The items of an array after its bracket, each read by `item`; a comma may follow the last. -/
def items (item : Scan Node) : Nat → Scan (List Node)
  | 0, _ => none
  | fuel + 1, cs =>
    match gap? false cs with
    | none => none
    | some (']' :: rest) => some ([], rest)
    | some cs =>
      match item cs with
      | none => none
      | some (node, rest) =>
        match gap? false rest with
        | some (',' :: rest) => (items item fuel rest).map (fun (nodes, rest) => (node :: nodes, rest))
        | some (']' :: rest) => some ([node], rest)
        | _ => none

/-- A key, an equals sign and a value read by `item`. -/
def pair (item : Scan Node) (cs : List Char) : Option ((Key × Node) × List Char) :=
  match key cs with
  | some (k, '=' :: rest) => (item (skipBlanks rest)).map (fun (node, rest) => ((k, node), rest))
  | _ => none

/-- The entries of a table in braces after the first of them, which is added to `es`; no comma follows the last. -/
def entriesFrom (item : Scan Node) : Nat → Entries → Scan Entries
  | 0, _, _ => none
  | fuel + 1, es, cs =>
    match pair item cs with
    | none => none
    | some ((k, node), rest) =>
      match insert node k.path k.last es with
      | none => none
      | some es =>
        match skipBlanks rest with
        | ',' :: rest => entriesFrom item fuel es rest
        | '}' :: rest => some (es, rest)
        | _ => none

/-- The entries of a table in braces after its brace. -/
def entries (item : Scan Node) (cs : List Char) : Option (Entries × List Char) :=
  match skipBlanks cs with
  | '}' :: rest => some ([], rest)
  | rest => entriesFrom item rest.length [] rest

/-- A value, in which arrays and tables are nested at most `depth` deep. -/
def valueWithin : Nat → Scan Node
  | 0, cs => scalar cs
  | depth + 1, cs =>
    match cs with
    | '[' :: rest => (items (valueWithin depth) cs.length rest).map (fun (nodes, rest) => (.array nodes, rest))
    | '{' :: rest => (entries (valueWithin depth) rest).map (fun (es, rest) => (.table .inline es, rest))
    | _ => scalar cs

/-- A value. -/
def value : Scan Node := valueWithin (nestingLimit - 1)

end TypedColumns.Toml
