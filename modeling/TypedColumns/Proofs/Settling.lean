import TypedColumns.Proofs.Cacheless
import TypedColumns.Proofs.Outlines

/-!
# When the shape of a node is decided

How a node is reached is decided when it is first read after it was wired; loading the node itself wires it.  So a read
decides the shape unless the node is not wired yet and the row has no object for it, and it is these two cases that make
up the answer: in the first it follows from the objects of the row, in the second there is none.

* `Dataset.Orderly` -- what is loaded are objects of the row, and their nodes are wired; loading keeps it so
  (`orderly_load`).
* `Plan.shapeIn`, `Plan.Fits` -- the shape that the dataset gives, and a plan of which no other shape was decided.
* `Plan.Settles` -- reading by the plan finds the shape decided or decides it.
* `Plan.read_of_settles`, `Plan.read_of_not_settles` -- the two answers, and the plan that is left.
* `Binding.plan?` -- the plan of a binding, and what reading makes of it (`plan?_read`, `plan?_address`).
-/

namespace TypedColumns

namespace Dataset

variable {d e : Dataset}

/-! ### Orderly datasets -/

/-- What is loaded are objects of the current row, and their nodes are wired. -/
structure Orderly (d : Dataset) : Prop where
  faithful : d.Faithful
  wired : ∀ l ∈ d.loaded, d.isWired l.id = true

theorem orderly_of_loaded_eq_nil (h : d.loaded = []) : d.Orderly := by
  refine ⟨faithful_of_loaded_eq_nil h, ?_⟩
  intro l hl
  rw [h] at hl
  cases hl

theorem Steady.orderly (h : d.Steady) : d.Orderly := by
  refine ⟨h.faithful, ?_⟩
  intro l hl
  have hobject := h.faithful l hl
  obtain ⟨entry, row, missed, honRow⟩ := onRow_of_rowObject? hobject
  cases hnode : d.node? l.id with
  | none =>
      rw [rowObject?, hnode] at hobject
      cases hobject
  | some node => exact (h.row entry row missed honRow).1 l.id node hnode

/-- What a successful load leaves wired. -/
theorem isWired_add {id j : NodeId} {loaded : List Loaded} :
    Dataset.isWired { d with loaded, wired := if d.wired.contains id then d.wired else d.wired ++ [id] } j = true ↔
      d.isWired j = true ∨ j = id := by
  show (if d.wired.contains id then d.wired else d.wired ++ [id]).contains j = true ↔ d.wired.contains j = true ∨ j = id
  split
  · rename_i hid
    constructor
    · exact Or.inl
    · rintro (hj | rfl)
      · exact hj
      · exact hid
  · simp

/-- What a load adds, it wires. -/
theorem wired_load (h : ∀ l ∈ d.loaded, d.isWired l.id = true) (id : NodeId) :
    ∀ l ∈ (d.load id).2.loaded, (d.load id).2.isWired l.id = true := by
  rcases load_cases d id with ⟨a, -, hload⟩ | ⟨-, -, err, hload⟩ | ⟨node, a, -, -, -, hload⟩
  · rw [hload]
    exact h
  · rw [hload]
    exact h
  · rw [hload]
    intro l hl
    refine isWired_add.2 ?_
    rcases List.mem_append.1 hl with hl | hl
    · exact Or.inl (h l hl)
    · obtain rfl := List.mem_singleton.1 hl
      exact Or.inr rfl

theorem orderly_load (h : d.Orderly) (id : NodeId) : (d.load id).2.Orderly :=
  ⟨faithful_load h.faithful id, wired_load h.wired id⟩

/-- What is not wired is not loaded either. -/
theorem Orderly.object?_eq_none (h : d.Orderly) {id : NodeId} (hw : d.isWired id = false) : d.object? id = none := by
  cases hobject : d.object? id with
  | none => rfl
  | some a =>
      obtain ⟨l, hl, -⟩ := Option.map_eq_some_iff.1 hobject
      have hid : l.id = id := by simpa using List.find?_some hl
      have hwired := h.wired l (List.mem_of_find?_eq_some hl)
      rw [hid, hw] at hwired
      cases hwired

theorem Reloaded.nodeBase? (h : Reloaded d e) (t : Target) : e.nodeBase? t = d.nodeBase? t := by
  rw [h.eq]
  rfl

/-- Without an object of its own, a node is found only inside the node that it lies in, and only with a director. -/
theorem nodeBase?_eq_none_of_rowObject? {t : Target} (h : d.rowObject? t.id = none)
    (ht : ¬ (t.node.parent.isSome = true ∧ d.hasDirector t.node.source = true)) : d.nodeBase? t = none := by
  rw [nodeBase?, h]
  cases hdirector : d.hasDirector t.node.source with
  | false => rfl
  | true =>
      cases hparent : t.node.parent with
      | some p => exact absurd ⟨by rw [hparent]; rfl, hdirector⟩ ht
      | none =>
          cases t.node.count with
          | none => rfl
          | some count =>
              show (d.rowObject? count).bind (fun _ => Option.bind none (d.element? t.node)) = none
              cases d.rowObject? count <;> rfl

/-- Reading a node as if it had no director is loading it; where that fails the dataset is left as it was. -/
theorem noCoordinator_read_cases (t : Target) (d : Dataset) :
    (∃ a, (d.load t.id).1 = .ok () ∧ (d.load t.id).2.object? t.id = some a ∧
        Shape.noCoordinator.read cursor t d = (.ok a, (d.load t.id).2)) ∨
      ∃ err, (d.load t.id).1 = .error err ∧ Shape.noCoordinator.read cursor t d = (.error err, d) := by
  have hneeds : Shape.noCoordinator.needs t = .ok [t.id] := rfl
  cases hload : d.load t.id with
  | mk r e =>
      have hstep : cursor.load d t.id = (r, e) := hload
      cases r with
      | error err =>
          obtain rfl := eq_of_load_error hload
          refine Or.inr ⟨err, rfl, ?_⟩
          simp only [Shape.read, hneeds, RowCursor.loadAll, hstep]
      | ok u =>
          obtain ⟨a, ha⟩ := Option.isSome_iff_exists.1 (object?_of_load hload)
          have hplace : Shape.noCoordinator.place t e.object? e.arena.image = .ok a := by
            show Shape.objectOf t e.object? t.id = .ok a
            rw [Shape.objectOf, ha]
          refine Or.inl ⟨a, rfl, ha, ?_⟩
          simp only [Shape.read, hneeds, RowCursor.loadAll, hstep]
          exact Prod.ext hplace rfl

/-- Where the row has an object for the node, reading so tells where that is. -/
theorem noCoordinator_read_of_rowObject? (h : d.Faithful) {t : Target} {a : Address} (ha : d.rowObject? t.id = some a) :
    d.load t.id = (.ok (), (d.load t.id).2) ∧ Shape.noCoordinator.read cursor t d = (.ok a, (d.load t.id).2) := by
  rcases noCoordinator_read_cases t d with ⟨b, hok, hb, hread⟩ | ⟨err, herr, -⟩
  · have hobject := (faithful_load h t.id).rowObject?_of_object? hb
    rw [(reloaded_load d t.id).rowObject?, ha] at hobject
    cases hobject
    exact ⟨Prod.ext hok rfl, hread⟩
  · rcases h.load t.id with ⟨-, -, hok, -⟩ | ⟨hnone, -⟩
    · rw [herr] at hok
      cases hok
    · rw [ha] at hnone
      cases hnone

/-- Without an object of the row, reading so fails and loads nothing. -/
theorem noCoordinator_read_of_eq_none (h : d.Faithful) {t : Target} (hnone : d.rowObject? t.id = none) :
    ∃ err, Shape.noCoordinator.read cursor t d = (.error err, d) := by
  rcases noCoordinator_read_cases t d with ⟨a, -, ha, -⟩ | ⟨err, -, hread⟩
  · have hobject := (faithful_load h t.id).rowObject?_of_object? ha
    rw [(reloaded_load d t.id).rowObject?, hnone] at hobject
    cases hobject
  · exact ⟨err, hread⟩

end Dataset

/-! ### Reading by a plan -/

namespace Plan

variable {p : Plan} {d : Dataset}

/-- The shape that a dataset gives to the node of a plan. -/
def shapeIn (p : Plan) (d : Dataset) : Shape := p.target.node.facts.shape (d.hasDirector p.target.node.source)

/-- If a shape was decided, it is the one that the dataset gives. -/
def Fits (p : Plan) (d : Dataset) : Prop := ∀ shape, p.shape = some shape → shape = p.shapeIn d

theorem Fits.congr {e : Dataset} (h : p.Fits d) (hd : ∀ source, e.hasDirector source = d.hasDirector source) :
    p.Fits e := by
  intro shape hshape
  rw [shapeIn, hd]
  exact h shape hshape

/-- Reading by the plan finds the shape decided, or decides it: the node is wired, or it will be since the row has an
object for it. -/
def Settles (p : Plan) (d : Dataset) : Prop :=
  p.shape.isSome = true ∨ d.isWired p.target.id = true ∨ (d.rowObject? p.target.id).isSome = true

instance (p : Plan) (d : Dataset) : Decidable (p.Settles d) := inferInstanceAs (Decidable (_ ∨ _ ∨ _))

/-- What settles though it is neither decided nor wired has an object of the row. -/
theorem Settles.exists_rowObject (h : p.Settles d) (hshape : p.shape = none) (hw : d.isWired p.target.id = false) :
    ∃ a, d.rowObject? p.target.id = some a := by
  rcases h with hdecided | hwired | hobject
  · rw [hshape] at hdecided
    cases hdecided
  · rw [hw] at hwired
    cases hwired
  · exact Option.isSome_iff_exists.1 hobject

theorem not_settles_iff :
    ¬ p.Settles d ↔ p.shape = none ∧ d.isWired p.target.id = false ∧ d.rowObject? p.target.id = none := by
  simp only [Settles, not_or, Bool.not_eq_true, Option.isSome_eq_false_iff, Option.isNone_iff_eq_none]

theorem read_of_generation_ne (h : p.generation ≠ d.registry.generation) :
    (p.read Dataset.cursor d).base.toOption = none ∧ (p.read Dataset.cursor d).plan = p := by
  have h : p.generation ≠ Dataset.cursor.generation d := h
  rw [read, if_pos h]
  exact ⟨rfl, rfl⟩

/-- Once the shape is decided, the base of the node follows from the objects of the row. -/
theorem decideAndRead_eq (hd : d.Orderly) :
    (p.decideAndRead Dataset.cursor d).base.toOption = d.nodeBase? p.target ∧
      (p.decideAndRead Dataset.cursor d).plan = { p with shape := some (p.shapeIn d) } :=
  ⟨Dataset.toOption_shapeRead hd.faithful p.target, rfl⟩

theorem read_of_settles (hd : d.Orderly) (hp : p.Fits d) (hgen : p.generation = d.registry.generation)
    (h : p.Settles d) :
    (p.read Dataset.cursor d).base.toOption = d.nodeBase? p.target ∧
      (p.read Dataset.cursor d).plan = { p with shape := some (p.shapeIn d) } := by
  cases hshape : p.shape with
  | some shape =>
      rw [read_of_shape (c := Dataset.cursor) hgen hshape]
      obtain rfl := hp shape hshape
      refine ⟨Dataset.toOption_shapeRead hd.faithful p.target, ?_⟩
      rw [← hshape]
  | none =>
      cases hw : d.isWired p.target.id with
      | true =>
          rw [read_of_wired (c := Dataset.cursor) hgen hshape hw]
          exact decideAndRead_eq hd
      | false =>
          -- Only the object of the row is left; loading it wires the node.
          obtain ⟨a, ha⟩ := h.exists_rowObject hshape hw
          obtain ⟨hload, hread⟩ := Dataset.noCoordinator_read_of_rowObject? hd.faithful ha
          have hreload := Dataset.reloaded_load d p.target.id
          have hwired := Dataset.isWired_of_load (hd.object?_eq_none hw) hload
          have hwired : Dataset.cursor.isWired (d.load p.target.id).2 p.target.id = true := hwired
          obtain ⟨hbase, hplan⟩ := decideAndRead_eq (p := p) (Dataset.orderly_load hd p.target.id)
          rw [read_of_unwired (c := Dataset.cursor) hgen hshape hw, hread]
          simp only [hwired, if_true]
          rw [hbase, hplan, hreload.nodeBase?, shapeIn, hreload.hasDirector]
          exact ⟨rfl, rfl⟩

theorem read_of_not_settles (hd : d.Orderly) (hgen : p.generation = d.registry.generation) (h : ¬ p.Settles d) :
    (p.read Dataset.cursor d).base.toOption = none ∧ (p.read Dataset.cursor d).plan = p := by
  obtain ⟨hshape, hw, hnone⟩ := not_settles_iff.1 h
  obtain ⟨err, hread⟩ := Dataset.noCoordinator_read_of_eq_none hd.faithful hnone
  rw [read_of_unwired (c := Dataset.cursor) hgen hshape hw, hread]
  exact ⟨rfl, rfl⟩

end Plan

/-! ### The plan of a binding -/

namespace Binding

/-- The plan to read the node of a binding, once it has a match. -/
def plan? (b : Binding) : Option Plan := b.match?.map Match.plan

theorem plan?_withMatch {b : Binding} {m : Match} (h : b.match? = some m) (n : Match) :
    (b.withMatch n).plan? = some n.plan := by
  rw [plan?, match?_withMatch h]
  rfl

theorem plan?_failRead {b : Binding} {m : Match} (h : b.match? = some m) (n : Match) (e : ReadError) :
    (b.failRead n e).plan? = some n.plan :=
  plan?_withMatch h { n with fault := some e }

section Reads

variable {σ : Type} (b : Binding) (c : RowCursor σ) (s : σ)

theorem plan?_readBase : (b.readBase c s).binding.plan? = b.plan?.map (fun p => (p.read c s).plan) := by
  rw [readBase]
  split
  · rename_i m hm
    have hplan : b.plan? = some m.plan := by rw [plan?, hm]; rfl
    rw [hplan]
    simp only [readMatch]
    split
    · exact plan?_withMatch hm _
    · exact plan?_failRead hm _ _
  · rename_i hm
    show b.plan? = b.plan?.map _
    rw [plan?, hm]
    rfl

theorem plan?_locate (t : Turn σ (Option Address)) : (locate t c).binding.plan? = t.binding.plan? := by
  rw [locate]
  split
  · rename_i m _ hm
    split
    · rfl
    · rw [plan?_failRead hm, plan?, hm]
      rfl
  · rfl

theorem plan?_decode (type : ColumnType) (t : Turn σ (Option Address)) :
    (decode type t c).binding.plan? = t.binding.plan? := by
  rw [decode]
  split
  · rename_i m _ hm
    split
    · rfl
    · rw [plan?_failRead hm, plan?, hm]
      rfl
  · rfl

theorem plan?_read :
    (b.read c s).binding.plan? = (b.refresh c s).1.plan?.map (fun p => (p.read c s).plan) :=
  plan?_readBase _ c s

theorem plan?_address :
    (b.address c s).binding.plan? =
      if (b.refresh c s).1.misses c s then (b.refresh c s).1.plan?
      else (b.refresh c s).1.plan?.map (fun p => (p.read c s).plan) := by
  simp only [address]
  split
  · rfl
  · exact (plan?_locate c _).trans (plan?_readBase _ c s)

end Reads

end Binding

end TypedColumns
