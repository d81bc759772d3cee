import TypedColumns.Binding.Column
import TypedColumns.Reading.Shifting

/-!
# Bindings field by field

A binding as it is kept: the generation, the source, the dispatcher, the statuses, the resolution and the diagnostic are
fields of their own, and a call writes them one after the other, between questions to a cursor that may answer as it
likes.  A call that fails leaves what was written before it failed.

* `BindingRecord`, `BindingRecord.register` -- the fields, and a new binding.
* `Scene` -- a binding in the middle of a call: its fields, the schemas that it was shown, the state of the cursor and
  what was told.  `Scene.ask`, `Scene.tell` -- a question to the cursor, and something told.
* `Scene.isServed`, `Scene.navigate`, `Scene.arm`, `Scene.resolve` -- the steps of finding the column: the registration,
  the path, and the dispatcher.
* `Scene.setup`, `Scene.failSetup`, `Scene.refresh` -- setting the column up, and what is written when that fails.
* `Scene.readBase`, `Scene.read`, `Scene.address`, `Scene.get` -- the calls that read, and `Scene.failRead`.
-/

namespace TypedColumns

/-- The fields of a binding. -/
structure BindingRecord where
  path : String
  requested : Option String
  resolution : Option Resolution
  source : SourceId
  dispatcher : Dispatcher
  readStatus : ReadStatus
  setupStatus : SetupStatus
  diagnostic : Option String
  generation : Option Generation
  registration : Registration

namespace BindingRecord

/-- A new binding on a cursor's registry.  The requested type is kept without the blanks around it. -/
def register (registry : Registry) (path : String) (requested : Option String) : BindingRecord × Registry :=
  let (registration, registry) := registry.register path
  (⟨path, requested.map Text.trim, none, .primary, .idle, .notYetRead, .notSetup, none, none, registration⟩, registry)

end BindingRecord

/-- The descriptor of a requested type, if a type is requested. -/
def requestedDescriptor (types : Catalog) (path : String) (requested : Option String) :
    Except SetupError (Option Descriptor) :=
  match requested with
  | none => .ok none
  | some name =>
    match types.resolve name with
    | some d => .ok (some d)
    | none => .error (.missingTypeDescriptor path name)

/-- A binding, with the answers that it got so far when it asked a cursor for its schema. -/
structure Watched where
  binding : BindingRecord
  shown : List (Option Schema)

/-- A binding in the middle of a call: itself, the state of the cursor and what was told. -/
structure Scene (σ : Type) extends Watched where
  state : σ
  events : List Event

namespace Scene

variable {σ α : Type}

/-- Asks the cursor a question. -/
def ask (w : Scene σ) (question : σ → α × σ) : α × Scene σ :=
  let (answer, state) := question w.state
  (answer, { w with state := state })

/-- Tells something. -/
def tell (w : Scene σ) (events : List Event) : Scene σ := { w with events := w.events ++ events }

/-- Asks the cursor for its schema. -/
def askSchema (w : Scene σ) (c : ShiftingCursor σ) : Option Schema × Scene σ :=
  let (schema, w) := w.ask c.schema
  (schema, { w with shown := w.shown ++ [schema] })

/-! ### Setting up -/

/-- Whether the binding is live at its home, and this is the cursor's registry. -/
def isServed (w : Scene σ) (c : ShiftingCursor σ) : Bool × Scene σ :=
  let registration := w.binding.registration
  match w.ask (c.home? registration) with
  | (none, w) => (false, w)
  | (some home, w) =>
    if home.isRegistered registration.id then
      let (registry, w) := w.ask c.registry
      (registry.owns registration, w)
    else (false, w)

/-- Finds the path in a schema, by the types of the cursor. -/
def navigate (w : Scene σ) (c : ShiftingCursor σ) (schema : Schema) : Except SetupError Resolution × Scene σ :=
  let (types, w) := w.ask c.types
  match requestedDescriptor types w.binding.path w.binding.requested with
  | .error e => (.error e, w)
  | .ok requested =>
    let (found, events) := schema.resolve types w.binding.path requested
    (found, w.tell events)

/-- Writes the source of the node that was found, and arms the dispatcher for it under the generation that the cursor
has by now. -/
def arm (w : Scene σ) (c : ShiftingCursor σ) (schema : Schema) (r : Resolution) :
    Except SetupError Resolution × Scene σ :=
  match schema.get? r.node with
  | none => (.error (.internal ("node " ++ r.node.text ++ " vanished from the schema")), w)
  | some node =>
    let w := { w with binding := { w.binding with source := node.source } }
    let (generation, w) := w.ask c.generation
    (.ok r, { w with binding := { w.binding with dispatcher := ⟨some (Plan.prepare r.node node generation)⟩ } })

/-- Finds the column in the schema that the cursor shows. -/
def resolve (w : Scene σ) (c : ShiftingCursor σ) : Except SetupError Resolution × Scene σ :=
  match w.isServed c with
  | (false, w) => (.error (.coordinatorGone w.binding.path), w)
  | (true, w) =>
    match w.askSchema c with
    | (none, w) => (.error (.internal "row cursor has no open dataset"), w)
    | (some schema, w) =>
      match w.navigate c schema with
      | (.error e, w) => (.error e, w)
      | (.ok r, w) => w.arm c schema r

/-- Tells of a failed set-up, quietly where the client asked for that, and writes what it leaves.  The source stays that
of the last match. -/
def failSetup (w : Scene σ) (c : ShiftingCursor σ) (e : SetupError) : Scene σ :=
  let (quiet, w) := if e.isSuppressible then w.ask (c.isSuppressed w.binding.path) else (false, w)
  let w := w.tell [if quiet then .setupSuppressed e else .setupFailed e]
  { w with
    binding := { w.binding with
      setupStatus := e.status
      diagnostic := some e.message
      resolution := none
      dispatcher := .idle } }

/-- Writes the generation that a set-up is made under. -/
def stamp (w : Scene σ) (generation : Generation) : Scene σ :=
  { w with binding := { w.binding with generation := some generation } }

/-- Writes what a successful set-up leaves. -/
def keepMatch (w : Scene σ) (status : EntryStatus) (r : Resolution) : Scene σ :=
  { w with
    binding := { w.binding with
      setupStatus := if status = .beyondEnd then .matchButBeyondLastRow else .matchExact
      diagnostic := none
      resolution := some r } }

/-- Sets the column up.  The generation is written first, whatever becomes of it. -/
def setup (w : Scene σ) (c : ShiftingCursor σ) : Scene σ :=
  let (generation, w) := w.ask c.generation
  match (w.stamp generation).resolve c with
  | (.error e, w) => w.failSetup c e
  | (.ok r, w) =>
    let (status, w) := w.ask c.status
    w.keepMatch status r

/-- Sets the column up unless the generation written is the cursor's. -/
def refresh (w : Scene σ) (c : ShiftingCursor σ) : Scene σ :=
  let (generation, w) := w.ask c.generation
  if w.binding.generation = some generation then w else w.setup c

/-! ### Reading -/

/-- Tells of a failed read and writes what it leaves. -/
def failRead (w : Scene σ) (e : ReadError) : Scene σ :=
  let w := w.tell [.readFailed w.binding.path e]
  { w with binding := { w.binding with readStatus := .error, diagnostic := some e.message } }

/-- What becomes of a look at memory: a value, or a failed read. -/
def conclude (w : Scene σ) (r : Except MemoryError α) : Option α × Scene σ :=
  match readMemory r with
  | .ok a => (some a, w)
  | .error e => (none, w.failRead e)

/-- Reads the object of the column by the dispatcher. -/
def dispatch (w : Scene σ) (c : ShiftingCursor σ) : Option Address × Scene σ :=
  let (base, dispatcher, state, events) := w.binding.dispatcher.follow c w.state
  let w := { w with binding := { w.binding with dispatcher := dispatcher }, state := state }
  let w := w.tell events
  match base with
  | .ok a => (some a, { w with binding := { w.binding with readStatus := .success } })
  | .error e => (none, w.failRead e)

/-- Reads the object of the column as far as it is set up. -/
def readSetUp (w : Scene σ) (c : ShiftingCursor σ) : Option Address × Scene σ :=
  if w.binding.setupStatus.isMatch then w.dispatch c
  else (none, { w with binding := { w.binding with readStatus := .error } })

/-- Reads the object of the column, once that is up to date. -/
def readBase (w : Scene σ) (c : ShiftingCursor σ) : Option Address × Scene σ := (w.refresh c).readSetUp c

/-- Reads the object of the column and answers how that went. -/
def read (w : Scene σ) (c : ShiftingCursor σ) : ReadStatus × Scene σ :=
  let (_, w) := w.readBase c
  (w.binding.readStatus, w)

/-- Whether the column comes from a source that has no row for the current entry. -/
def misses (w : Scene σ) (c : ShiftingCursor σ) : Bool × Scene σ :=
  if w.binding.setupStatus.isMatch then
    let (status, w) := w.ask c.status
    if status = .indexedJoinNoMatch then
      let (row, w) := w.ask (c.activeRow w.binding.source)
      (row.isNone, w)
    else (false, w)
  else (false, w)

/-- The address that an access leads to, with a look at the cursor's memory where it follows pointers. -/
def follow (w : Scene σ) (c : ShiftingCursor σ) (a : Access) (base : Address) : Except MemoryError Address × Scene σ :=
  match a with
  | .chase chain =>
    let (m, w) := w.ask c.image
    (chain.follow m base, w)
  | .field _ _ offset => (base.plus? offset, w)
  | .whole => (.ok base, w)

/-- The address of the value, given that of the object, if there is a resolution. -/
def locate (w : Scene σ) (c : ShiftingCursor σ) (base : Address) : Option Address × Scene σ :=
  match w.binding.resolution with
  | none => (none, w)
  | some r =>
    let (place, w) := w.follow c r.access base
    w.conclude place

/-- The address of the column's value on the current row.  The binding is brought up to date before it is decided
whether there is a row, and again before the object is read. -/
def address (w : Scene σ) (c : ShiftingCursor σ) : Option Address × Scene σ :=
  match (w.refresh c).misses c with
  | (true, w) => (none, w)
  | (false, w) =>
    match w.readBase c with
    | (none, w) => (none, w)
    | (some base, w) => w.locate c base

/-- The value at an address. -/
def decode (w : Scene σ) (c : ShiftingCursor σ) (type : ColumnType) (place : Address) : Option Value × Scene σ :=
  let (m, w) := w.ask c.image
  w.conclude ((m.bytes place type.size).map type.decode)

/-- The value of the column on the current row, decoded as the given type. -/
def get (w : Scene σ) (c : ShiftingCursor σ) (type : ColumnType) : Option Value × Scene σ :=
  let (status, w) := w.ask c.status
  if status = .notLoaded then
    let (quiet, w) := w.ask (c.isSuppressed w.binding.path)
    (none, if quiet then w else w.tell [.notInitialized w.binding.path])
  else
    match w.address c with
    | (none, w) => (none, w)
    | (some place, w) => w.decode c type place

end Scene

end TypedColumns
