import TypedColumns.Registry.Basic

/-!
# Pools of registries

Several registries side by side, each shared by any number of handles.  A registry is there as long as one handle on
it is; a registration outlives it, but has no home any more.

* `Pool`, `Pool.start` -- registries by identity, handles and registrations by number.
* `PoolCall`, `PoolAnswer`, `Pool.apply` -- what clients can ask of handles and registrations.  A call on a handle that
  was dropped changes nothing.
* `Pool.run` -- a history of calls.
-/

namespace TypedColumns

/-- Registries by identity, handles on them and registrations by number. -/
structure Pool where
  registries : List Registry
  handles : List (Option RegistryId)
  registrations : List Registration
deriving Repr

/-- What clients can ask of handles and registrations, which are given by number. -/
inductive PoolCall where
  | create
  | clone (handle : Nat)
  | dropHandle (handle : Nat)
  | register (handle : Nat) (path : String)
  | drop (registration : Nat)
  | leave (registration : Nat)
  | deregister (handle registration : Nat)
  | isRegistered (handle registration : Nat)
  | owns (handle registration : Nat)
  | announce (handle : Nat) (generation : Generation)
deriving DecidableEq, Repr

/-- The answer to a call: nothing, a number, an id, or yes or no. -/
inductive PoolAnswer where
  | nothing
  | number (n : Nat)
  | id (id : BindingId)
  | flag (b : Bool)
deriving DecidableEq, Repr

namespace Pool

/-- One registry with one handle on it. -/
def start : Pool := ⟨[Registry.empty ⟨0⟩], [some ⟨0⟩], []⟩

/-- Whether there is a handle on a registry. -/
def isAlive (p : Pool) (identity : RegistryId) : Bool := p.handles.contains (some identity)

/-- The registry of an identity, as long as there is a handle on it. -/
def find? (p : Pool) (identity : RegistryId) : Option Registry :=
  if p.isAlive identity then p.registries[identity.number]? else none

/-- The registry behind a handle. -/
def behind? (p : Pool) (handle : Nat) : Option Registry := (p.handles[handle]?.join).bind p.find?

/-- The registry that a registration belongs to, unless that is gone or the registration has left. -/
def home? (p : Pool) (g : Registration) : Option Registry := g.home.bind p.find?

/-- Whether a registration is live. -/
def isAttached (p : Pool) (g : Registration) : Bool :=
  match p.home? g with
  | some r => r.isRegistered g.id
  | none => false

/-- Puts a registry in place of the one of its identity. -/
def setRegistry (p : Pool) (r : Registry) : Pool :=
  { p with registries := p.registries.set r.identity.number r }

/-- Lets a registration leave its registry for good; answers whether it was live. -/
def release (p : Pool) (number : Nat) : Bool × Pool :=
  match p.registrations[number]? with
  | none => (false, p)
  | some g =>
    let left : Pool := { p with registrations := p.registrations.set number g.leave }
    match p.home? g with
    | none => (false, left)
    | some r => ((r.deregister g.id).1, left.setRegistry (r.deregister g.id).2)

/-- The answer to one call, and the pool after it. -/
def apply (p : Pool) (call : PoolCall) : PoolAnswer × Pool :=
  match call with
  | .create =>
    let identity : RegistryId := ⟨p.registries.length⟩
    (.number p.handles.length,
      { p with registries := p.registries ++ [Registry.empty identity], handles := p.handles ++ [some identity] })
  | .clone handle =>
    match p.behind? handle with
    | some r => (.number p.handles.length, { p with handles := p.handles ++ [some r.identity] })
    | none => (.nothing, p)
  | .dropHandle handle => (.nothing, { p with handles := p.handles.set handle none })
  | .register handle path =>
    match p.behind? handle with
    | some r =>
      let (g, r) := r.register path
      (.id g.id, { p.setRegistry r with registrations := p.registrations ++ [g] })
    | none => (.nothing, p)
  | .drop number => (.nothing, (p.release number).2)
  | .leave number =>
    let (live, p) := p.release number
    (.flag live, p)
  | .deregister handle number =>
    match p.behind? handle, p.registrations[number]? with
    | some r, some g => (.flag (r.deregister g.id).1, p.setRegistry (r.deregister g.id).2)
    | _, _ => (.nothing, p)
  | .isRegistered handle number =>
    match p.behind? handle, p.registrations[number]? with
    | some r, some g => (.flag (r.isRegistered g.id), p)
    | _, _ => (.nothing, p)
  | .owns handle number =>
    match p.behind? handle, p.registrations[number]? with
    | some r, some g => (.flag (r.owns g), p)
    | _, _ => (.nothing, p)
  | .announce handle generation =>
    match p.behind? handle with
    | some r => (.number r.size, p.setRegistry (r.announce generation))
    | none => (.nothing, p)

/-- The answers to a history of calls, and the pool after it. -/
def run (p : Pool) : List PoolCall → List PoolAnswer × Pool
  | [] => ([], p)
  | call :: calls =>
    let (answer, p) := p.apply call
    let (answers, p) := p.run calls
    (answer :: answers, p)

end Pool

end TypedColumns
