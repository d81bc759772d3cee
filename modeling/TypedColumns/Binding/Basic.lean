import TypedColumns.Reading.Plan
import TypedColumns.Resolution

/-!
# Bindings

A binding stands for one column of a cursor: a path and, unless any type will do, a requested type.  It is set up
when it is first used and again whenever the cursor has moved on to another generation.

* `Match`, `Attempt`, `Binding` -- what a set-up found, the last set-up and its generation, and the binding.
* `Binding.setupStatus`, `Binding.diagnostic`, `Binding.shape?`, … -- what can be seen of a binding.  It can be read
  when its last set-up found a match (`Binding.isMatch_setupStatus`).
* `Binding.setup`, `Binding.refresh` -- finding the column in the cursor's schema, always or when it is time.
* `Binding.read`, `Binding.address` -- the object of the column on the current row, and the value inside it.
-/

namespace TypedColumns

/-- What a set-up found: the resolution of the path, the source of its node, a plan to read the node, whether the
cursor stood behind the last row, and what went wrong with the last read that failed since. -/
structure Match where
  resolution : Resolution
  source : SourceId
  plan : Plan
  beyondEnd : Bool
  fault : Option ReadError
deriving DecidableEq, Repr

/-- A set-up: the generation that it was made under, and its outcome. -/
structure Attempt where
  generation : Generation
  outcome : Except SetupError Match

/-- A column of a cursor. -/
structure Binding where
  path : String
  requested : Option String
  registration : Registration
  attempt : Option Attempt
  readStatus : ReadStatus

/-- What a call on a binding leaves behind: the answer, the binding and the cursor after it, and what was told. -/
structure Turn (σ α : Type) where
  value : α
  binding : Binding
  state : σ
  events : List Event

namespace Binding

/-- A new binding on a cursor's registry.  The requested type is kept without the blanks around it. -/
def register (registry : Registry) (path : String) (requested : Option String) : Binding × Registry :=
  let (registration, registry) := registry.register path
  (⟨path, requested.map Text.trim, registration, none, .notYetRead⟩, registry)

/-! ### What can be seen of a binding -/

/-- What the last set-up found, when it succeeded. -/
def match? (b : Binding) : Option Match :=
  match b.attempt with
  | some ⟨_, .ok m⟩ => some m
  | _ => none

/-- How far the column has come. -/
def setupStatus (b : Binding) : SetupStatus :=
  match b.attempt with
  | none => .notSetup
  | some ⟨_, .error e⟩ => e.status
  | some ⟨_, .ok m⟩ => if m.beyondEnd then .matchButBeyondLastRow else .matchExact

/-- The text of what went wrong last. -/
def diagnostic (b : Binding) : Option String :=
  match b.attempt with
  | none => none
  | some ⟨_, .error e⟩ => some e.message
  | some ⟨_, .ok m⟩ => m.fault.map ReadError.message

/-- The name of the stored type, once it is known. -/
def storedType (b : Binding) : Option String := b.match?.map (fun m => m.resolution.stored)

/-- The way from the object to the value, once it is known. -/
def access? (b : Binding) : Option Access := b.match?.map (fun m => m.resolution.access)

/-- The chain of pointers to follow, where there is one. -/
def chain? (b : Binding) : Option PointerChain := b.access?.bind Access.chain?

/-- The decided shape of the column's node. -/
def shape? (b : Binding) : Option Shape := b.match?.bind (fun m => m.plan.shape)

theorem isMatch_setupStatus (b : Binding) : b.setupStatus.isMatch = b.match?.isSome := by
  unfold setupStatus match?
  cases b.attempt with
  | none => rfl
  | some a =>
      cases a with
      | mk g outcome =>
          cases outcome with
          | error e => exact SetupError.isMatch_status e
          | ok m =>
              show (if m.beyondEnd then SetupStatus.matchButBeyondLastRow else .matchExact).isMatch = true
              cases m.beyondEnd <;> rfl

/-! ### Setting up -/

/-- Finds the column in the schema that the cursor shows.  The cursor must be the one that the binding is registered
with. -/
def resolve (b : Binding) (c : RowCursor σ) (s : σ) : Except SetupError Match × List Event :=
  if !(c.registry s).serves b.registration then (.error (.coordinatorGone b.path), [])
  else
    match c.schema s with
    | none => (.error (.internal "row cursor has no open dataset"), [])
    | some schema =>
      let request : Except SetupError (Option Descriptor) :=
        match b.requested with
        | none => .ok none
        | some name =>
          match (c.types s).resolve name with
          | some d => .ok (some d)
          | none => .error (.missingTypeDescriptor b.path name)
      match request with
      | .error e => (.error e, [])
      | .ok requested =>
        match schema.resolve (c.types s) b.path requested with
        | (.error e, events) => (.error e, events)
        | (.ok r, events) =>
          match schema.get? r.node with
          | none => (.error (.internal ("node " ++ r.node.text ++ " vanished from the schema")), events)
          | some node =>
            (.ok ⟨r, node.source, Plan.prepare r.node node (c.generation s), c.status s == .beyondEnd, none⟩, events)

/-- What is told of a failed set-up: a missing column is told quietly where the client asked for that. -/
def setupFailure (b : Binding) (c : RowCursor σ) (s : σ) (e : SetupError) : Event :=
  if e.isSuppressible && c.isSuppressed s b.path then .setupSuppressed e else .setupFailed e

/-- Sets the column up under the cursor's generation. -/
def setup (b : Binding) (c : RowCursor σ) (s : σ) : Binding × List Event :=
  let (outcome, events) := b.resolve c s
  ({ b with attempt := some ⟨c.generation s, outcome⟩ },
    match outcome with
    | .ok _ => events
    | .error e => events ++ [b.setupFailure c s e])

/-- Whether the last set-up was made under the cursor's generation. -/
def isFresh (b : Binding) (c : RowCursor σ) (s : σ) : Bool :=
  match b.attempt with
  | some a => a.generation == c.generation s
  | none => false

/-- Sets the column up if the cursor has moved on to another generation since that was done. -/
def refresh (b : Binding) (c : RowCursor σ) (s : σ) : Binding × List Event :=
  if b.isFresh c s then (b, []) else b.setup c s

/-! ### Reading -/

/-- The binding with another match, where its last set-up succeeded. -/
def withMatch (b : Binding) (m : Match) : Binding :=
  { b with attempt := b.attempt.map (fun a => { a with outcome := .ok m }) }

theorem match?_withMatch {b : Binding} {m : Match} (h : b.match? = some m) (n : Match) :
    (b.withMatch n).match? = some n := by
  unfold match? at h
  split at h
  · rename_i g o hb
    unfold withMatch match?
    rw [hb]
    rfl
  · cases h

/-- The binding after a read that failed. -/
def failRead (b : Binding) (m : Match) (e : ReadError) : Binding :=
  { b.withMatch { m with fault := some e } with readStatus := .error }

/-- Reads the object of a column that is set up. -/
def readMatch (b : Binding) (m : Match) (c : RowCursor σ) (s : σ) : Turn σ (Option Address) :=
  let r := m.plan.read c s
  let m := { m with plan := r.plan }
  match r.base with
  | .ok a => ⟨some a, { b.withMatch m with readStatus := .success }, r.state, r.events⟩
  | .error e => ⟨none, b.failRead m e, r.state, r.events ++ [.readFailed b.path e]⟩

/-- Reads the object of a column as far as it is set up. -/
def readBase (b : Binding) (c : RowCursor σ) (s : σ) : Turn σ (Option Address) :=
  match b.match? with
  | some m => b.readMatch m c s
  | none => ⟨none, { b with readStatus := .error }, s, []⟩

/-- Reads the object of the column and answers how that went. -/
def read (b : Binding) (c : RowCursor σ) (s : σ) : Turn σ ReadStatus :=
  let (b, events) := b.refresh c s
  let t := b.readBase c s
  ⟨t.binding.readStatus, t.binding, t.state, events ++ t.events⟩

/-- Whether the column comes from a source that has no row for the current entry. -/
def misses (b : Binding) (c : RowCursor σ) (s : σ) : Bool :=
  match b.match? with
  | some m => c.status s == .indexedJoinNoMatch && (c.activeRow s m.source).isNone
  | none => false

/-- The address of the value, once the object has been read. -/
def locate (t : Turn σ (Option Address)) (c : RowCursor σ) : Turn σ (Option Address) :=
  match t.value, t.binding.match? with
  | some base, some m =>
    match readMemory (m.resolution.access.locate (c.image t.state) base) with
    | .ok a => { t with value := some a }
    | .error e =>
      ⟨none, t.binding.failRead m e, t.state, t.events ++ [.readFailed t.binding.path e]⟩
  | _, _ => { t with value := none }

/-- The address of the column's value on the current row.  Where the source has no row there is none, and that is no
failure. -/
def address (b : Binding) (c : RowCursor σ) (s : σ) : Turn σ (Option Address) :=
  let (b, events) := b.refresh c s
  if b.misses c s then ⟨none, b, s, events⟩
  else
    let t := locate (b.readBase c s) c
    { t with events := events ++ t.events }

end Binding

end TypedColumns
