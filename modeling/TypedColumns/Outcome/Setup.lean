/-!
# Outcomes of a set-up

Setting a column up means to find what its path stands for and to check the types.

* `SetupError` -- why a set-up fails, with `SetupError.message`.
* `SetupStatus` -- how far a column has come, with `SetupStatus.isMatch`.
* `SetupError.status`, `SetupError.isSuppressible` -- the status that an error leaves, and whether a client can ask
  not to be told about it: that is so of missing columns only.
-/

namespace TypedColumns

/-- Why a column cannot be set up. -/
inductive SetupError where
  /-- No node is called like the path. -/
  | missingColumn (path : String)
  /-- A dotted path leads to no member or leaf. -/
  | missingSubColumn (path : String)
  /-- The stored type does not serve the request. -/
  | mismatchType (path stored requested : String)
  /-- The requested type is not in the catalog. -/
  | missingTypeDescriptor (path type : String)
  /-- The stored type is not in the catalog. -/
  | unknownStoredType (path type : String)
  /-- The cursor is not the one that the column was registered with, or the column has left it. -/
  | coordinatorGone (path : String)
  /-- Anything else. -/
  | internal (text : String)
deriving DecidableEq, Repr

/-- How far a column has come. -/
inductive SetupStatus where
  | notSetup
  | matchExact
  | matchButBeyondLastRow
  | mismatchType
  | missingColumn
  | missingTypeDescriptor
  | internalError
deriving DecidableEq, Repr

/-- Whether a column can be read. -/
def SetupStatus.isMatch (s : SetupStatus) : Bool := s == .matchExact || s == .matchButBeyondLastRow

namespace SetupError

/-- The text of a set-up error. -/
def message : SetupError → String
  | .missingColumn path => s!"the dataset does not have a column called {path}"
  | .missingSubColumn path => s!"the dataset has neither a column nor a sub-column called {path}"
  | .mismatchType path stored requested =>
    s!"column {path} contains data of type {stored}, which cannot be read as {requested}"
  | .missingTypeDescriptor path type =>
    s!"type {type} requested for column {path} is unknown to the type registry"
  | .unknownStoredType path type =>
    s!"column {path} contains data of type {type}, which has no type descriptor"
  | .coordinatorGone path => s!"no row cursor is available for column {path}"
  | .internal text => s!"internal error: {text}"

/-- The status that an error leaves a column in. -/
def status : SetupError → SetupStatus
  | .missingColumn _ | .missingSubColumn _ => .missingColumn
  | .mismatchType .. => .mismatchType
  | .missingTypeDescriptor .. => .missingTypeDescriptor
  | .unknownStoredType .. | .coordinatorGone _ | .internal _ => .internalError

/-- Whether a client can ask not to be told about an error. -/
def isSuppressible (e : SetupError) : Bool := e.status == .missingColumn

theorem isMatch_status (e : SetupError) : e.status.isMatch = false := by
  cases e <;> rfl

end SetupError

end TypedColumns
