import TypedColumns.Outcome.Read
import TypedColumns.Outcome.Setup
import TypedColumns.Reading.Shape
import TypedColumns.Registry.Generation

/-!
# Events

What the library tells a log, as data: which thing happened, and from that its level and its text.

* `Event` -- everything that is worth telling.
* `Level`, `Event.level`, `Event.message` -- how urgent an event is, and its text.
-/

namespace TypedColumns

/-- How urgent an event is. -/
inductive Level where
  | error
  | warn
  | info
  | debug
deriving DecidableEq, Repr

/-- Something that happened. -/
inductive Event where
  /-- A member walk succeeded, but a node is called like the whole path. -/
  | walkIgnored (path : String) (node : NodeId)
  /-- A member walk failed, and a node is called like the whole path. -/
  | walkFailed (path : String) (cause : SetupError)
  /-- A column could not be set up, and the client asked not to be told. -/
  | setupSuppressed (cause : SetupError)
  /-- A column could not be set up. -/
  | setupFailed (cause : SetupError)
  /-- A column could not be read. -/
  | readFailed (path : String) (cause : ReadError)
  /-- A value was asked for before any row was loaded. -/
  | notInitialized (path : String)
  /-- It was decided how a node is reached. -/
  | classified (node : String) (shape : Shape)
  /-- A new generation was announced to the live bindings. -/
  | announced (generation : Generation) (live : Nat)
  /-- Another file became the current one. -/
  | switched (file : String) (generation : Generation) (notified : Nat)
  /-- A file was added to the chain. -/
  | chained (file : String) (rows nodes : Nat)
  /-- An entry was sought behind the last row. -/
  | beyondLastRow (entry : UInt64) (entries : Nat)
deriving DecidableEq, Repr

namespace Event

/-- How urgent an event is. -/
def level : Event → Level
  | .setupFailed _ | .notInitialized _ => .error
  | .readFailed .. => .warn
  | .switched .. => .info
  | _ => .debug

/-- The text of an event. -/
def message : Event → String
  | .walkIgnored path node => s!"column {path} names node {node.text} literally; ignoring member walk"
  | .walkFailed path cause => s!"member walk for {path} failed ({cause.message}); using literal node"
  | .setupSuppressed cause => s!"suppressed: {cause.message}"
  | .setupFailed cause => cause.message
  | .readFailed path cause => s!"column {path}: {cause.message}"
  | .notInitialized path =>
    s!"value of column {path} requested before any row was loaded; the reader is not properly initialized"
  | .classified node shape => s!"node {node} reads as {shape.name}"
  | .announced generation live =>
    s!"dataset switch to generation {generation.number.toNat}: {live} live bindings invalidated"
  | .switched file generation notified =>
    s!"switched to dataset {file} ({generation.text}), {notified} bindings to re-resolve"
  | .chained file rows nodes => s!"chained dataset {file} ({rows} rows, {nodes} nodes)"
  | .beyondLastRow entry entries => s!"entry {entry.toNat} is beyond the last row ({entries})"

end Event

end TypedColumns
