/-!
# Dotted paths

A column path is a text in which dots may separate an object from its members.  Because names may hold dots
themselves, one path has several readings: each takes some of the last components as members and what stands before
them as the name of an object.

* `components` -- a text cut at its dots, always at least one component (`components_ne_nil`).
* `isSegment` -- whether a component can name a member: ASCII letters, digits and underscores, at least one.
* `readings` -- all readings of a path, the one with the shortest member path first.
* `withoutTrailingDots` -- a name without the dots at its end.
-/

namespace TypedColumns.Path

/-- The pieces between the dots of a text. -/
def components : List Char → List (List Char)
  | [] => [[]]
  | c :: cs =>
    if c = '.' then [] :: components cs
    else
      match components cs with
      | [] => [[c]]
      | w :: ws => (c :: w) :: ws

theorem components_ne_nil (cs : List Char) : components cs ≠ [] := by
  cases cs with
  | nil => simp [components]
  | cons c cs =>
      unfold components
      split
      · simp
      · split <;> simp

/-- Pieces put together again with a dot between any two. -/
def joinDots : List (List Char) → List Char
  | [] => []
  | [w] => w
  | w :: ws => w ++ '.' :: joinDots ws

theorem joinDots_components (cs : List Char) : joinDots (components cs) = cs := by
  induction cs with
  | nil => rfl
  | cons c cs ih =>
      unfold components
      split
      · rename_i h
        cases hw : components cs with
        | nil => exact absurd hw (components_ne_nil cs)
        | cons w ws =>
            rw [hw] at ih
            simp [joinDots, ih, h]
      · cases hw : components cs with
        | nil => exact absurd hw (components_ne_nil cs)
        | cons w ws =>
            rw [hw] at ih
            cases ws with
            | nil => simpa [joinDots] using ih
            | cons v vs => simpa [joinDots] using ih

/-- Whether a character can stand in the name of a member on a path. -/
def isSegmentChar (c : Char) : Bool := c.isAlphanum || c == '_'

/-- Whether a component can name a member on a path. -/
def isSegment (w : List Char) : Bool := !w.isEmpty && w.all isSegmentChar

/-- One way to read a path: the name of an object, and the members that lead on from it. -/
structure Reading where
  object : String
  members : List String
deriving DecidableEq, Repr

/-- The readings of a text given by its components from last to first; `members` are those taken already. -/
def readingsFrom : List (List Char) → List String → List Reading
  | w :: v :: rest, members =>
    if isSegment w then
      ⟨String.ofList (joinDots (v :: rest).reverse), String.ofList w :: members⟩ ::
        readingsFrom (v :: rest) (String.ofList w :: members)
    else []
  | _, _ => []

/-- All readings of a path, the one with the shortest member path first. -/
def readings (path : String) : List Reading := readingsFrom (components path.toList).reverse []

/-- Whether a path has a dot at all. -/
def isDotted (path : String) : Bool := path.toList.contains '.'

/-- Member names written as one dotted name. -/
def dotted (members : List String) : String := String.ofList (joinDots (members.map String.toList))

/-- A name without the dots at its end. -/
def withoutTrailingDots (name : String) : String :=
  String.ofList (name.toList.reverse.dropWhile (· == '.')).reverse

end TypedColumns.Path
