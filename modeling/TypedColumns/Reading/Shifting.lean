import TypedColumns.Reading.Plan

/-!
# Cursors that shift

Nothing obliges a cursor to give the same answer twice.  Here every question may change its state, so that two answers
agree only where the cursor means them to, and reading a node is one question after the other, in the order in which
they are asked.

* `ShiftingCursor` -- the answers of such a cursor.
* `Shape.routine` -- the questions by which a node of each shape is read: nothing is asked where the node lacks the
  parent or the count that its shape calls for, and nothing more after the first failure.
* `Plan.follow`, `Dispatcher.follow` -- reading by a plan.  The target stays the same (`Dispatcher.target?_follow`).
* `RowCursor.shifting` -- a row cursor as one that could shift but does not.  The questions then come to the same as
  reading by the plan at once (`Shape.routine_shifting`, `Plan.follow_shifting`).
-/

namespace TypedColumns

/-- The answers of a cursor, each with the state after it.  `home?` finds the registry that a registration was made
with, if that is still there. -/
structure ShiftingCursor (σ : Type) where
  schema : σ → Option Schema × σ
  types : σ → Catalog × σ
  image : σ → Image × σ
  registry : σ → Registry × σ
  home? : Registration → σ → Option Registry × σ
  generation : σ → Generation × σ
  status : σ → EntryStatus × σ
  activeRow : SourceId → σ → Option UInt64 × σ
  hasDirector : SourceId → σ → Bool × σ
  isWired : NodeId → σ → Bool × σ
  load : NodeId → σ → Except ReadError Unit × σ
  object? : NodeId → σ → Option Address × σ
  isSuppressed : String → σ → Bool × σ

/-! ### Routines -/

namespace Shape

variable {σ : Type}

/-- Loads a node and finds its object. -/
def loadObject (c : ShiftingCursor σ) (t : Target) (id : NodeId) (s : σ) : Except ReadError Address × σ :=
  match c.load id s with
  | (.error e, s) => (.error e, s)
  | (.ok (), s) =>
    match c.object? id s with
    | (some a, s) => (.ok a, s)
    | (none, s) => (.error (.noData t.node.name), s)

/-- Loads the node that the target lies in and finds the target's place in its object. -/
def loadSlot (c : ShiftingCursor σ) (t : Target) (s : σ) : Except ReadError Address × σ :=
  match parentOf t with
  | .error e => (.error e, s)
  | .ok p =>
    match loadObject c t p.node s with
    | (.error e, s) => (.error e, s)
    | (.ok a, s) => (readMemory (a.plus? p.offset), s)

/-- Goes on to where the pointer at the place found points. -/
def thenTarget (c : ShiftingCursor σ) (found : Except ReadError Address × σ) : Except ReadError Address × σ :=
  match found with
  | (.error e, s) => (.error e, s)
  | (.ok a, s) =>
    let (m, s) := c.image s
    (readMemory (m.target a), s)

/-- Loads the count of the target before anything else. -/
def afterCount (c : ShiftingCursor σ) (t : Target) (next : σ → Except ReadError Address × σ) (s : σ) :
    Except ReadError Address × σ :=
  match countOf t with
  | .error e => (.error e, s)
  | .ok id =>
    match c.load id s with
    | (.error e, s) => (.error e, s)
    | (.ok (), s) => next s

/-- The questions by which a node of a shape is read. -/
def routine (shape : Shape) (c : ShiftingCursor σ) (t : Target) (s : σ) : Except ReadError Address × σ :=
  match shape with
  | .noCoordinator | .scalar | .collectionValue => loadObject c t t.id s
  | .collectionPointer => thenTarget c (loadObject c t t.id s)
  | .parentScalar | .parentCollectionValue => loadSlot c t s
  | .parentCollectionPointer => thenTarget c (loadSlot c t s)
  | .countedCollectionValue | .countedScalar => afterCount c t (loadObject c t t.id) s
  | .countedCollectionPointer => afterCount c t (fun s => thenTarget c (loadObject c t t.id s)) s

end Shape

/-! ### Plans -/

namespace Plan

variable {σ : Type}

/-- Decides the shape and reads by its routine. -/
def decideAndFollow (p : Plan) (c : ShiftingCursor σ) (s : σ) : PlanRead σ :=
  let (directed, s) := c.hasDirector p.target.node.source s
  let shape := p.target.node.facts.shape directed
  let (base, s) := shape.routine c p.target s
  ⟨base, { p with shape := some shape }, s, [.classified p.target.node.name shape]⟩

/-- Reads by a plan.  While its shape is open, the node is read as if it had no director, and the cursor is asked
before and after that whether the node is wired. -/
def follow (p : Plan) (c : ShiftingCursor σ) (s : σ) : PlanRead σ :=
  let (generation, s) := c.generation s
  if p.generation ≠ generation then ⟨.error .staleNode, p, s, []⟩
  else
    match p.shape with
    | some shape =>
      let (base, s) := shape.routine c p.target s
      ⟨base, p, s, []⟩
    | none =>
      let (wired, s) := c.isWired p.target.id s
      if wired then p.decideAndFollow c s
      else
        match Shape.noCoordinator.routine c p.target s with
        | (.error e, s) => ⟨.error e, p, s, []⟩
        | (.ok base, s) =>
          let (wired, s) := c.isWired p.target.id s
          if wired then p.decideAndFollow c s else ⟨.ok base, p, s, []⟩

theorem target_decideAndFollow (p : Plan) (c : ShiftingCursor σ) (s : σ) :
    (p.decideAndFollow c s).plan.target = p.target := rfl

theorem target_follow (p : Plan) (c : ShiftingCursor σ) (s : σ) : (p.follow c s).plan.target = p.target := by
  simp only [follow]
  split
  · rfl
  · split
    · rfl
    · split
      · exact target_decideAndFollow p c _
      · split
        · rfl
        · split
          · exact target_decideAndFollow p c _
          · rfl

end Plan

namespace Dispatcher

variable {σ : Type}

/-- Reads by the plan; without one there is nothing to read. -/
def follow (d : Dispatcher) (c : ShiftingCursor σ) (s : σ) : Except ReadError Address × Dispatcher × σ × List Event :=
  match d.plan with
  | none => (.error .staleNode, d, s, [])
  | some p =>
    let r := p.follow c s
    (r.base, ⟨some r.plan⟩, r.state, r.events)

/-- The node to read, when there is a plan. -/
def target? (d : Dispatcher) : Option Target := d.plan.map Plan.target

theorem target?_follow (d : Dispatcher) (c : ShiftingCursor σ) (s : σ) : (d.follow c s).2.1.target? = d.target? := by
  cases d with
  | mk plan =>
      cases plan with
      | none => rfl
      | some p => exact congrArg some (p.target_follow c s)

end Dispatcher

/-! ### Cursors that do not shift -/

/-- A row cursor as one that could shift but does not.  A registration that is not its own has its home elsewhere, or
nowhere. -/
def RowCursor.shifting {σ : Type} (c : RowCursor σ) (elsewhere : Registration → Option Registry) :
    ShiftingCursor σ where
  schema s := (c.schema s, s)
  types s := (c.types s, s)
  image s := (c.image s, s)
  registry s := (c.registry s, s)
  home? g s := (if (c.registry s).owns g then some (c.registry s) else elsewhere g, s)
  generation s := (c.generation s, s)
  status s := (c.status s, s)
  activeRow source s := (c.activeRow s source, s)
  hasDirector source s := (c.hasDirector s source, s)
  isWired id s := (c.isWired s id, s)
  load id s := c.load s id
  object? id s := (c.object? s id, s)
  isSuppressed path s := (c.isSuppressed s path, s)

section Shifting

variable {σ : Type} (c : RowCursor σ) (elsewhere : Registration → Option Registry)

namespace Shape

theorem loadObject_shifting (t : Target) (id : NodeId) (s : σ) :
    loadObject (c.shifting elsewhere) t id s =
      match c.load s id with
      | (.error e, s) => (.error e, s)
      | (.ok (), s) => (objectOf t (c.object? s) id, s) := by
  simp only [loadObject, RowCursor.shifting, objectOf]
  cases c.load s id with
  | mk loaded s' =>
      cases loaded with
      | error e => rfl
      | ok _ =>
          simp only
          cases c.object? s' id <;> rfl

theorem loadSlot_shifting (t : Target) (s : σ) : loadSlot (c.shifting elsewhere) t s = parentScalar.read c t s := by
  simp only [loadSlot, loadObject_shifting, read, needs, place, slot]
  cases parentOf t with
  | error e => rfl
  | ok p =>
      simp only [RowCursor.loadAll]
      cases c.load s p.node with
      | mk loaded s' =>
          cases loaded with
          | error e => rfl
          | ok _ =>
              simp only
              cases objectOf t (c.object? s') p.node <;> rfl

/-- A shape that is read through the pointer at the place of another. -/
theorem thenTarget_shifting (shape other : Shape) {t : Target} (hneeds : shape.needs t = other.needs t)
    (hplace : ∀ object? m, shape.place t object? m =
      match other.place t object? m with
      | .error e => .error e
      | .ok a => readMemory (m.target a)) (s : σ) :
    thenTarget (c.shifting elsewhere) (other.read c t s) = shape.read c t s := by
  simp only [read, hneeds]
  cases other.needs t with
  | error e => rfl
  | ok ids =>
      simp only
      cases c.loadAll ids s with
      | mk loaded s' =>
          cases loaded with
          | error e => rfl
          | ok _ =>
              simp only [hplace]
              cases other.place t (c.object? s') (c.image s') <;> rfl

/-- A shape that is read like another once the count is loaded. -/
theorem afterCount_shifting (shape other : Shape) {t : Target} (hother : other.needs t = .ok [t.id])
    (hneeds : shape.needs t =
      match countOf t with
      | .ok id => .ok [id, t.id]
      | .error e => .error e)
    (hplace : shape.place t = other.place t) (s : σ) :
    afterCount (c.shifting elsewhere) t (other.read c t) s = shape.read c t s := by
  simp only [afterCount, read, hneeds, hplace, hother, RowCursor.shifting]
  cases countOf t with
  | error e => rfl
  | ok id =>
      simp only [RowCursor.loadAll]
      cases c.load s id with
      | mk loaded s' => cases loaded <;> rfl

/-- **A routine comes to the same as loading what the shape needs and finding the place.** -/
theorem routine_shifting (shape : Shape) (t : Target) (s : σ) :
    shape.routine (c.shifting elsewhere) t s = shape.read c t s := by
  have hobject : ∀ s, loadObject (c.shifting elsewhere) t t.id s = scalar.read c t s := by
    intro s
    simp only [loadObject_shifting, read, needs, place, RowCursor.loadAll]
    cases c.load s t.id with
    | mk loaded s' => cases loaded <;> rfl
  have hpointer : ∀ s, thenTarget (c.shifting elsewhere) (loadObject (c.shifting elsewhere) t t.id s) =
      collectionPointer.read c t s := by
    intro s
    rw [hobject]
    exact thenTarget_shifting c elsewhere collectionPointer scalar rfl (fun _ _ => rfl) s
  cases shape with
  | noCoordinator | scalar | collectionValue => exact hobject s
  | collectionPointer => exact hpointer s
  | parentScalar | parentCollectionValue => exact loadSlot_shifting c elsewhere t s
  | parentCollectionPointer =>
      rw [routine, loadSlot_shifting]
      exact thenTarget_shifting c elsewhere parentCollectionPointer parentScalar rfl (fun _ _ => rfl) s
  | countedCollectionValue =>
      rw [routine, funext hobject]
      exact afterCount_shifting c elsewhere countedCollectionValue scalar rfl rfl rfl s
  | countedScalar =>
      rw [routine, funext hobject]
      exact afterCount_shifting c elsewhere countedScalar scalar rfl rfl rfl s
  | countedCollectionPointer =>
      rw [routine, funext hpointer]
      exact afterCount_shifting c elsewhere countedCollectionPointer collectionPointer rfl rfl rfl s

end Shape

theorem Plan.follow_shifting (p : Plan) (s : σ) : p.follow (c.shifting elsewhere) s = p.read c s := by
  simp only [follow, read, decideAndFollow, decideAndRead, Shape.routine_shifting]
  rfl

end Shifting

end TypedColumns
