import TypedColumns.Toml.Value

/-!
# TOML documents

A document is a list of statements, one to a line: headers, which tell the table that the following lines belong to,
and values under keys.

* `Statement`, `statements` -- the statements of a text.
* `Draft`, `Statement.apply` -- the tree built so far, and the table that values go to.
* `parse` -- the entries of a document, if it is one.
-/

namespace TypedColumns.Toml

/-- A line of a document that is not empty. -/
inductive Statement where
  /-- The header of a table. -/
  | header (key : Key)
  /-- The header of one more element of an array of tables. -/
  | element (key : Key)
  /-- A value under a key. -/
  | pair (key : Key) (value : Node)

/-- One statement at the front of a text, with what follows its line. -/
def statement (cs : List Char) : Option (Statement × List Char) :=
  match cs with
  | '[' :: '[' :: rest =>
    match key rest with
    | some (k, ']' :: ']' :: rest) => (lineEnd? rest).map (fun rest => (.element k, rest))
    | _ => none
  | '[' :: rest =>
    match key rest with
    | some (k, ']' :: rest) => (lineEnd? rest).map (fun rest => (.header k, rest))
    | _ => none
  | cs =>
    match pair value cs with
    | some ((k, node), rest) => (lineEnd? rest).map (fun rest => (.pair k node, rest))
    | none => none

/-- The statements of a text, of which each line takes at least one character. -/
def statements : Nat → List Char → Option (List Statement)
  | 0, _ => none
  | fuel + 1, cs =>
    match skipBlanks cs with
    | [] => some []
    | '#' :: rest =>
      match lineEnd? ('#' :: rest) with
      | some rest => statements fuel rest
      | none => none
    | cs =>
      match newline? cs with
      | some rest => statements fuel rest
      | none =>
        match statement cs with
        | some (s, rest) => (statements fuel rest).map (fun ss => s :: ss)
        | none => none

/-- The tree built so far, and the path of the table that values go to. -/
structure Draft where
  root : Entries
  current : List String

/-- The draft before the first statement. -/
def Draft.empty : Draft := ⟨[], []⟩

/-- The draft after one more statement, if that fits what is there. -/
def Statement.apply (s : Statement) (d : Draft) : Option Draft :=
  match s with
  | .header k => (openTable k.path k.last d.root).map (fun root => ⟨root, k.path ++ [k.last]⟩)
  | .element k => (openElement k.path k.last d.root).map (fun root => ⟨root, k.path ++ [k.last]⟩)
  | .pair k node => (within (insert node k.path k.last) d.current d.root).map (fun root => ⟨root, d.current⟩)

/-- A text without the byte order mark at its front. -/
def skipMark : List Char → List Char
  | c :: cs => if c = '\uFEFF' then cs else c :: cs
  | [] => []

/-- The entries of a document, if the text is one. -/
def parse (text : String) : Option Entries :=
  let cs := skipMark text.toList
  match statements (cs.length + 1) cs with
  | some ss => (ss.foldlM (fun d (s : Statement) => s.apply d) Draft.empty).map Draft.root
  | none => none

end TypedColumns.Toml
