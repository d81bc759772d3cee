import TypedColumns.Types.Numeric

/-!
# Type descriptors

A descriptor gives a name to a numeric kind, to an enumeration over one, to a class with bases and members, or to
another name.

* `Member` -- a named value at an offset inside an object, stored there or behind a pointer.
* `Form`, `Descriptor` -- what a type is, and a type under its name.
* `Descriptor.members?`, `Descriptor.bases` -- the layout and the bases of a class.
* `findMember?` -- the first member of a name.
-/

namespace TypedColumns

/-- A named value at an offset inside an object; when `pointer` is set, a pointer to the value stands there. -/
structure Member where
  name : String
  type : String
  offset : UInt64
  pointer : Bool
deriving DecidableEq, Repr

/-- The first member called `name` of a layout. -/
def findMember? (members : List Member) (name : String) : Option Member :=
  members.find? (fun m => m.name == name)

/-- What a type is. -/
inductive Form where
  | numeric (kind : Numeric)
  | enumeration (underlying : Numeric)
  | record (bases : List String) (members : List Member)
  | typedef (target : String)
deriving DecidableEq, Repr

/-- A type under its name. -/
structure Descriptor where
  name : String
  form : Form
deriving DecidableEq, Repr

namespace Descriptor

/-- The members of a class; no other type has a layout. -/
def members? (d : Descriptor) : Option (List Member) :=
  match d.form with
  | .record _ members => some members
  | _ => none

/-- The first member called `name`, for a class that has one. -/
def member? (d : Descriptor) (name : String) : Option Member :=
  match d.members? with
  | some members => findMember? members name
  | none => none

/-- The names of the bases of a class; any other type has none. -/
def bases (d : Descriptor) : List String :=
  match d.form with
  | .record bases _ => bases
  | _ => []

end Descriptor

end TypedColumns
