import TypedColumns.Proofs.Loads

/-!
# Objects of a row

The objects of a row can be told from the files and the joins alone.  As long as what is loaded are objects of the
current row, reading a node, in whichever of the ten ways, finds what follows from the objects of that row.

* `Dataset.Faithful` -- what is loaded are objects of the current row.  Loading keeps it so (`faithful_load`).
* `Dataset.loadAll_eq_ok_iff`, `Dataset.object?_loadAll` -- some nodes can be loaded exactly when the row has an object
  for each of them, and these objects are there then.
* `Dataset.nodeBase?` -- the base of a node, from the objects of the row; every shape finds it (`toOption_shapeRead`).
-/

namespace TypedColumns

namespace Dataset

variable {d e : Dataset}

/-! ### Loaded objects -/

/-- What is loaded are objects of the current row. -/
def Faithful (d : Dataset) : Prop := ∀ l ∈ d.loaded, d.rowObject? l.id = some l.object

theorem faithful_of_loaded_eq_nil (h : d.loaded = []) : d.Faithful := by
  intro l hl
  rw [h] at hl
  cases hl

theorem Reloaded.rowObject? (h : Reloaded d e) (id : NodeId) : e.rowObject? id = d.rowObject? id := by
  rw [h.eq]
  rfl

theorem Faithful.rowObject?_of_object? (h : d.Faithful) {id : NodeId} {a : Address} (ha : d.object? id = some a) :
    d.rowObject? id = some a := by
  obtain ⟨l, hl, rfl⟩ := Option.map_eq_some_iff.1 ha
  have hid : l.id = id := by simpa using List.find?_some hl
  rw [← hid]
  exact h l (List.mem_of_find?_eq_some hl)

/-- What a load does to a node, given that what is loaded are objects of the row. -/
theorem Faithful.load (h : d.Faithful) (id : NodeId) :
    (∃ a, d.rowObject? id = some a ∧ (d.load id).1 = .ok () ∧ (d.load id).2.object? id = some a) ∨
      (d.rowObject? id = none ∧ ∃ err, d.load id = (.error err, d)) := by
  rcases load_cases d id with ⟨a, ha, hload⟩ | ⟨-, hnone, err, hload⟩ | ⟨node, a, hnew, -, ha, hload⟩
  · refine Or.inl ⟨a, h.rowObject?_of_object? ha, ?_, ?_⟩
    · rw [hload]
    · rw [hload]
      exact ha
  · exact Or.inr ⟨hnone, err, hload⟩
  · refine Or.inl ⟨a, ha, ?_, ?_⟩
    · rw [hload]
    · have hfind : d.loaded.find? (fun l => l.id == id) = none := Option.map_eq_none_iff.1 hnew
      rw [hload]
      show ((d.loaded ++ [(⟨id, node.name, a⟩ : Loaded)]).find? (fun l => l.id == id)).map Loaded.object = some a
      rw [List.find?_append, hfind]
      simp

theorem faithful_load (h : d.Faithful) (id : NodeId) : (d.load id).2.Faithful := by
  have hreload := reloaded_load d id
  rcases load_cases d id with ⟨a, -, hload⟩ | ⟨-, -, err, hload⟩ | ⟨node, a, -, -, ha, hload⟩
  · rw [hload]
    exact h
  · rw [hload]
    exact h
  · intro l hl
    rw [hreload.rowObject?]
    rw [hload] at hl
    rcases List.mem_append.1 hl with hl | hl
    · exact h l hl
    · obtain rfl := List.mem_singleton.1 hl
      exact ha

/-- An object that is loaded stays loaded. -/
theorem object?_load {id : NodeId} {a : Address} (h : d.object? id = some a) (j : NodeId) :
    (d.load j).2.object? id = some a := by
  rcases load_cases d j with ⟨_, -, hload⟩ | ⟨-, -, err, hload⟩ | ⟨node, b, -, -, -, hload⟩
  · rw [hload]
    exact h
  · rw [hload]
    exact h
  · obtain ⟨l, hl, hobject⟩ := Option.map_eq_some_iff.1 h
    rw [hload]
    show ((d.loaded ++ [(⟨j, node.name, b⟩ : Loaded)]).find? (fun l => l.id == id)).map Loaded.object = some a
    rw [List.find?_append, hl]
    exact congrArg some hobject

theorem object?_of_reaches {id : NodeId} {a : Address} (h : d.object? id = some a) (hreach : cursor.Reaches d e) :
    e.object? id = some a :=
  hreach.keeps (P := fun t => t.object? id = some a) (fun _ j ht => object?_load ht j) h

theorem loadAll_eq_ok_iff (h : d.Faithful) (ids : List NodeId) :
    (cursor.loadAll ids d).1 = .ok () ↔ ∀ id ∈ ids, (d.rowObject? id).isSome = true := by
  induction ids generalizing d with
  | nil => exact ⟨fun _ _ hid => absurd hid List.not_mem_nil, fun _ => rfl⟩
  | cons id ids ih =>
      have hfaithful := faithful_load h id
      have hreload := reloaded_load d id
      rw [RowCursor.loadAll, List.forall_mem_cons]
      rcases h.load id with ⟨a, ha, hok, -⟩ | ⟨hnone, err, hload⟩
      · have hstep : cursor.load d id = (.ok (), (d.load id).2) := Prod.ext hok rfl
        rw [hstep, ha]
        show (cursor.loadAll ids (d.load id).2).1 = .ok () ↔ _
        rw [ih hfaithful]
        simp only [hreload.rowObject?, Option.isSome_some, true_and]
      · have hstep : cursor.load d id = (.error err, d) := hload
        rw [hstep, hnone]
        simp

theorem object?_loadAll (h : d.Faithful) {ids : List NodeId} (hok : (cursor.loadAll ids d).1 = .ok ()) :
    ∀ id ∈ ids, (cursor.loadAll ids d).2.object? id = d.rowObject? id := by
  induction ids generalizing d with
  | nil => exact fun _ hid => absurd hid List.not_mem_nil
  | cons id ids ih =>
      have hfaithful := faithful_load h id
      have hreload := reloaded_load d id
      rw [RowCursor.loadAll] at hok ⊢
      rcases h.load id with ⟨a, ha, hload, hobject⟩ | ⟨-, err, hload⟩
      · have hstep : cursor.load d id = (.ok (), (d.load id).2) := Prod.ext hload rfl
        rw [hstep] at hok ⊢
        rw [List.forall_mem_cons]
        refine ⟨?_, ?_⟩
        · rw [ha]
          exact object?_of_reaches hobject (reaches_loadAll cursor ids _)
        · intro j hj
          rw [← hreload.rowObject?]
          exact ih hfaithful hok j hj
      · have hstep : cursor.load d id = (.error err, d) := hload
        rw [hstep] at hok
        cases hok

end Dataset

/-! ### The ten shapes -/

theorem toOption_readMemory {α : Type} (r : Except MemoryError α) : (readMemory r).toOption = r.toOption := by
  cases r <;> rfl

/-- The address that a shape gives depends on the objects of the nodes that it needs only. -/
theorem Shape.place_congr {shape : Shape} {t : Target} {ids : List NodeId} {o o' : NodeId → Option Address}
    (hneeds : shape.needs t = .ok ids) (h : ∀ id ∈ ids, o id = o' id) (m : Image) :
    shape.place t o m = shape.place t o' m := by
  have hself : t.id ∈ ids → objectOf t o t.id = objectOf t o' t.id := by
    intro hid
    rw [objectOf, h t.id hid]
    rfl
  have hslot : ∀ p, parentOf t = .ok p → p.node ∈ ids → slot t o = slot t o' := by
    intro p hp hid
    rw [slot, slot, hp]
    simp only [objectOf, h p.node hid]
  cases shape with
  | noCoordinator | scalar | collectionPointer | collectionValue =>
      cases hneeds
      simp only [place, hself List.mem_cons_self]
  | parentScalar | parentCollectionPointer | parentCollectionValue =>
      simp only [needs] at hneeds
      split at hneeds
      · rename_i p hp
        cases hneeds
        simp only [place, hslot p hp List.mem_cons_self]
      · cases hneeds
  | countedCollectionPointer | countedCollectionValue | countedScalar =>
      simp only [needs] at hneeds
      split at hneeds
      · cases hneeds
        simp only [place, hself (List.mem_cons_of_mem _ List.mem_cons_self)]
      · cases hneeds

/-- The nodes that are loaded to read a node, in order: without a director the node alone, and else the node that it
lies in alone, or the node after the one that counts it. -/
def Target.needed (t : Target) (hasDirector : Bool) : List NodeId :=
  if hasDirector then
    match t.node.parent with
    | some p => [p.node]
    | none => t.node.count.toList ++ [t.id]
  else [t.id]

theorem Target.needs_shape (t : Target) (hasDirector : Bool) :
    (t.node.facts.shape hasDirector).needs t = .ok (t.needed hasDirector) := by
  obtain ⟨id, ⟨name, type, source, parent, count, elements, structured, members⟩⟩ := t
  cases hasDirector with
  | false => rfl
  | true => cases parent <;> cases count <;> cases elements <;> rfl

/-- What a pointer leads to, when it is known where the pointer stands. -/
def Shape.followed (m : Image) (r : Except ReadError Address) : Except ReadError Address :=
  match r with
  | .error e => .error e
  | .ok a => readMemory (m.target a)

/-- With a director, a node is found inside the node that it lies in, or else by itself; elements behind pointers take
one step more. -/
theorem Target.place_shape (t : Target) (o : NodeId → Option Address) (m : Image) :
    (t.node.facts.shape true).place t o m =
      let r := if t.node.parent.isSome then Shape.slot t o else Shape.objectOf t o t.id
      if t.node.elements.areBehindPointers then Shape.followed m r else r := by
  obtain ⟨id, ⟨name, type, source, parent, count, elements, structured, members⟩⟩ := t
  cases parent <;> cases count <;> cases elements <;> rfl

namespace Dataset

/-- Reading by a shape needs the objects of some nodes, and uses nothing else. -/
theorem toOption_shapeRead_of_needs {d : Dataset} (h : d.Faithful) {shape : Shape} {t : Target} {ids : List NodeId}
    (hneeds : shape.needs t = .ok ids) :
    (shape.read cursor t d).1.toOption =
      if ∀ id ∈ ids, (d.rowObject? id).isSome = true then (shape.place t d.rowObject? d.arena.image).toOption
      else none := by
  have hiff := loadAll_eq_ok_iff h ids
  have hreload := reloaded_of_reaches (reaches_loadAll cursor ids d)
  simp only [Shape.read, hneeds]
  cases hr : cursor.loadAll ids d with
  | mk r e =>
      rw [hr] at hiff hreload
      cases r with
      | error err =>
          rw [if_neg (fun hall => by cases hiff.2 hall)]
          rfl
      | ok u =>
          have hok : (cursor.loadAll ids d).1 = .ok () := by rw [hr]
          have hobjects := object?_loadAll h hok
          rw [hr] at hobjects
          rw [if_pos (hiff.1 rfl)]
          show (shape.place t e.object? e.arena.image).toOption = _
          rw [Shape.place_congr hneeds hobjects, hreload.arena]

/-- The element at an address inside a node: itself, or what the pointer there leads to. -/
def element? (d : Dataset) (n : Node) (a : Address) : Option Address :=
  if n.elements.areBehindPointers then (d.arena.image.target a).toOption else some a

/-- The base of a node, by the objects of the current row alone.  A node without a director stands for itself; one that
lies in another is found inside that one; any other is found only if what counts it is there too. -/
def nodeBase? (d : Dataset) (t : Target) : Option Address :=
  if d.hasDirector t.node.source then
    match t.node.parent with
    | some p => ((d.rowObject? p.node).bind (fun a => (a.plus? p.offset).toOption)).bind (d.element? t.node)
    | none =>
      match t.node.count with
      | some count => (d.rowObject? count).bind (fun _ => (d.rowObject? t.id).bind (d.element? t.node))
      | none => (d.rowObject? t.id).bind (d.element? t.node)
  else d.rowObject? t.id

theorem toOption_objectOf (d : Dataset) (t : Target) (id : NodeId) :
    (Shape.objectOf t d.rowObject? id).toOption = d.rowObject? id := by
  rw [Shape.objectOf]
  cases d.rowObject? id <;> rfl

theorem toOption_slot (d : Dataset) {t : Target} {p : Placement} (hp : t.node.parent = some p) :
    (Shape.slot t d.rowObject?).toOption = (d.rowObject? p.node).bind (fun a => (a.plus? p.offset).toOption) := by
  simp only [Shape.slot, Shape.parentOf, hp, Shape.objectOf]
  cases d.rowObject? p.node with
  | none => rfl
  | some a => exact toOption_readMemory (a.plus? p.offset)

/-- Following a pointer or not, the element is found at where the node stands. -/
theorem toOption_element (d : Dataset) (n : Node) (r : Except ReadError Address) :
    (if n.elements.areBehindPointers then Shape.followed d.arena.image r else r).toOption =
      r.toOption.bind (d.element? n) := by
  cases r with
  | error e => split <;> rfl
  | ok a =>
      show _ = d.element? n a
      rw [element?]
      split
      · exact toOption_readMemory (d.arena.image.target a)
      · rfl

/-- Every shape finds the base that follows from the objects of the row. -/
theorem toOption_shapeRead {d : Dataset} (h : d.Faithful) (t : Target) :
    ((t.node.facts.shape (d.hasDirector t.node.source)).read cursor t d).1.toOption = d.nodeBase? t := by
  rw [toOption_shapeRead_of_needs h (t.needs_shape _), nodeBase?, Target.needed]
  cases d.hasDirector t.node.source with
  | false =>
      show (if _ then (Shape.objectOf t d.rowObject? t.id).toOption else none) = d.rowObject? t.id
      rw [toOption_objectOf]
      cases ho : d.rowObject? t.id <;> simp [ho]
  | true =>
      rw [t.place_shape]
      simp only [if_true, toOption_element]
      cases hparent : t.node.parent with
      | some p =>
          simp only [Option.isSome_some, if_true, toOption_slot d hparent]
          cases ho : d.rowObject? p.node <;> simp [ho]
      | none =>
          simp only [Option.isSome_none, Bool.false_eq_true, if_false, toOption_objectOf]
          cases t.node.count with
          | none => cases ho : d.rowObject? t.id <;> simp [ho]
          | some c => cases hc : d.rowObject? c <;> cases ho : d.rowObject? t.id <;> simp [hc, ho]

end Dataset

end TypedColumns
