import TypedColumns.Binding.Column
import TypedColumns.Dataset.Basic

/-!
# Loads

Whatever is asked of a binding, all that happens to the cursor is that some nodes are loaded one after the other.  What
every single load keeps is therefore kept by all calls on bindings.

* `RowCursor.Reaches` -- a state that comes from another one by loads.
* `reaches_loadAll`, `reaches_shapeRead`, `reaches_planRead`, `reaches_readBase`, `reaches_address`, `reaches_read`,
  `reaches_get` -- the calls, from the smallest to the largest, for any cursor.
* `Dataset.rowObject?`, `Dataset.fetch` -- the object that the current row holds for a node, and what it delivers to a load;
  loading gets at that object, or fails where there is none (`Dataset.load_cases`).
* `Dataset.Reloaded` -- two datasets that differ in what is loaded and wired, and no wired node is lost
  (`reloaded_load`, `reloaded_of_reaches`).
-/

namespace TypedColumns

/-- A state of a cursor that comes from another one by loads. -/
inductive RowCursor.Reaches {σ : Type} (c : RowCursor σ) (s : σ) : σ → Prop
  | refl : Reaches c s s
  | load {t : σ} (id : NodeId) : Reaches c s t → Reaches c s (c.load t id).2

section Turns

variable {σ : Type} {c : RowCursor σ} {s : σ}

theorem RowCursor.Reaches.trans {t u : σ} (hst : c.Reaches s t) (htu : c.Reaches t u) : c.Reaches s u := by
  induction htu with
  | refl => exact hst
  | load id _ ih => exact .load id ih

theorem RowCursor.Reaches.keeps {P : σ → Prop} (hload : ∀ t id, P t → P (c.load t id).2) {t : σ} (h : c.Reaches s t)
    (hs : P s) : P t := by
  induction h with
  | refl => exact hs
  | load id _ ih => exact hload _ id ih

theorem reaches_loadAll (c : RowCursor σ) (ids : List NodeId) (s : σ) : c.Reaches s (c.loadAll ids s).2 := by
  induction ids generalizing s with
  | nil => exact .refl
  | cons id ids ih =>
      have hload : c.Reaches s (c.load s id).2 := .load id .refl
      rw [RowCursor.loadAll]
      cases hr : c.load s id with
      | mk r t =>
          rw [hr] at hload
          cases r with
          | error e => exact hload
          | ok u => exact hload.trans (ih t)

theorem reaches_shapeRead (c : RowCursor σ) (shape : Shape) (t : Target) (s : σ) : c.Reaches s (shape.read c t s).2 := by
  rw [Shape.read]
  cases shape.needs t with
  | error e => exact .refl
  | ok ids =>
      have hall := reaches_loadAll c ids s
      simp only
      cases hr : c.loadAll ids s with
      | mk r u =>
          rw [hr] at hall
          cases r <;> exact hall

theorem reaches_decideAndRead (c : RowCursor σ) (p : Plan) (s : σ) : c.Reaches s (p.decideAndRead c s).state :=
  reaches_shapeRead c _ p.target s

theorem reaches_planRead (c : RowCursor σ) (p : Plan) (s : σ) : c.Reaches s (p.read c s).state := by
  rw [Plan.read]
  split
  · exact .refl
  · split
    · exact reaches_shapeRead c _ p.target s
    · split
      · exact reaches_decideAndRead c p s
      · have hread := reaches_shapeRead c .noCoordinator p.target s
        split
        · rename_i h
          rw [h] at hread
          exact hread
        · rename_i h
          rw [h] at hread
          split
          · exact hread.trans (reaches_decideAndRead c p _)
          · exact hread

theorem reaches_readMatch (c : RowCursor σ) (b : Binding) (m : Match) (s : σ) :
    c.Reaches s (b.readMatch m c s).state := by
  have hread := reaches_planRead c m.plan s
  simp only [Binding.readMatch]
  split <;> exact hread

theorem reaches_readBase (c : RowCursor σ) (b : Binding) (s : σ) : c.Reaches s (b.readBase c s).state := by
  rw [Binding.readBase]
  split
  · exact reaches_readMatch c b _ s
  · exact .refl

/-- Locating the value loads nothing. -/
theorem state_locate (t : Turn σ (Option Address)) (c : RowCursor σ) : (Binding.locate t c).state = t.state := by
  rw [Binding.locate]
  split
  · split <;> rfl
  · rfl

/-- Decoding the value loads nothing. -/
theorem state_decode (type : ColumnType) (t : Turn σ (Option Address)) (c : RowCursor σ) :
    (Binding.decode type t c).state = t.state := by
  rw [Binding.decode]
  split
  · split <;> rfl
  · rfl

theorem reaches_read (c : RowCursor σ) (b : Binding) (s : σ) : c.Reaches s (b.read c s).state :=
  reaches_readBase c (b.refresh c s).1 s

theorem reaches_address (c : RowCursor σ) (b : Binding) (s : σ) : c.Reaches s (b.address c s).state := by
  simp only [Binding.address]
  split
  · exact .refl
  · show c.Reaches s (Binding.locate ((b.refresh c s).1.readBase c s) c).state
    rw [state_locate]
    exact reaches_readBase c _ s

theorem reaches_get (c : RowCursor σ) (b : Binding) (type : ColumnType) (s : σ) :
    c.Reaches s (b.get type c s).state := by
  rw [Binding.get]
  split
  · exact .refl
  · rw [state_decode]
    exact reaches_address c b s

end Turns

namespace Dataset

/-- The dataset is another one with other nodes loaded and wired, of which none is lost. -/
structure Reloaded (d e : Dataset) : Prop where
  eq : e = { d with wired := e.wired, loaded := e.loaded }
  wired : ∀ id, d.isWired id = true → e.isWired id = true

namespace Reloaded

variable {d e : Dataset}

theorem refl (d : Dataset) : Reloaded d d := ⟨rfl, fun _ h => h⟩

theorem trans {f : Dataset} (hde : Reloaded d e) (hef : Reloaded e f) : Reloaded d f := by
  refine ⟨?_, fun id h => hef.wired id (hde.wired id h)⟩
  rw [hef.eq, hde.eq]

theorem types (h : Reloaded d e) : e.types = d.types := by rw [h.eq]

theorem registry (h : Reloaded d e) : e.registry = d.registry := by rw [h.eq]

theorem files (h : Reloaded d e) : e.files = d.files := by rw [h.eq]

theorem current (h : Reloaded d e) : e.current = d.current := by rw [h.eq]

theorem position (h : Reloaded d e) : e.position = d.position := by rw [h.eq]

theorem schema? (h : Reloaded d e) : e.schema? = d.schema? := by rw [h.eq]; rfl

theorem arena (h : Reloaded d e) : e.arena = d.arena := by rw [h.eq]; rfl

theorem hasDirector (h : Reloaded d e) (source : SourceId) : e.hasDirector source = d.hasDirector source := by
  rw [h.eq]
  rfl

end Reloaded

/-- A node of the current file. -/
def node? (d : Dataset) (id : NodeId) : Option Node := d.schema?.bind (fun s => s.get? id)

/-- The object that the active row of its source holds for a node, unless the node is corrupt. -/
def rowObject? (d : Dataset) (id : NodeId) : Option Address :=
  match d.node? id with
  | none => none
  | some node =>
    if d.corrupt.contains node.name || (d.activeRow node.source).isNone then none
    else (d.sourceRow? node.source).bind (fun row => row.find? node.name)

/-- What the current row delivers for a node, or why it delivers nothing. -/
def fetch (d : Dataset) (id : NodeId) : Except ReadError Loaded :=
  match d.node? id with
  | none => .error .staleNode
  | some node =>
    if d.corrupt.contains node.name then .error (.load node.name "node data is corrupt")
    else if (d.activeRow node.source).isNone then .error (.noData node.name)
    else
      match (d.sourceRow? node.source).bind (fun row => row.find? node.name) with
      | none => .error (.noData node.name)
      | some object => .ok ⟨id, node.name, object⟩

/-- What is delivered is the object of the row, under the node's name. -/
theorem fetch_cases (d : Dataset) (id : NodeId) :
    (∃ err, d.fetch id = .error err ∧ d.rowObject? id = none) ∨
      ∃ node a, d.fetch id = .ok ⟨id, node.name, a⟩ ∧ d.node? id = some node ∧ d.rowObject? id = some a := by
  rw [fetch, rowObject?]
  cases d.node? id with
  | none => exact Or.inl ⟨_, rfl, rfl⟩
  | some node =>
      cases hcorrupt : d.corrupt.contains node.name with
      | true =>
          refine Or.inl ⟨.load node.name "node data is corrupt", ?_, ?_⟩
          · simp only [hcorrupt, if_true]
          · simp only [hcorrupt, Bool.true_or, if_true]
      | false =>
          cases hactive : (d.activeRow node.source).isNone with
          | true =>
              refine Or.inl ⟨.noData node.name, ?_, ?_⟩
              · simp only [hcorrupt, hactive, Bool.false_eq_true, if_false, if_true]
              · simp only [hactive, Bool.or_true, if_true]
          | false =>
              simp only [hcorrupt, hactive, Bool.or_false, Bool.false_eq_true, if_false]
              cases (d.sourceRow? node.source).bind (fun row => row.find? node.name) with
              | none => exact Or.inl ⟨_, rfl, rfl⟩
              | some a => exact Or.inr ⟨node, a, rfl, rfl, rfl⟩

/-- A node that is loaded already is not loaded again. -/
theorem load_of_object? {d : Dataset} {id : NodeId} {a : Address} (h : d.object? id = some a) :
    d.load id = (.ok (), d) := by
  rw [load, h, if_pos Option.isSome_some]

/-- A node that is not loaded yet is loaded if the row delivers it. -/
theorem load_of_object?_eq_none {d : Dataset} {id : NodeId} (h : d.object? id = none) :
    d.load id =
      match d.fetch id with
      | .error err => (.error err, d)
      | .ok l => (.ok (), { d with
          wired := if d.wired.contains id then d.wired else d.wired ++ [id]
          loaded := d.loaded ++ [l] }) := by
  have hload : d.load id =
      match d.node? id with
      | none => (.error .staleNode, d)
      | some node =>
        if d.corrupt.contains node.name then (.error (.load node.name "node data is corrupt"), d)
        else if (d.activeRow node.source).isNone then (.error (.noData node.name), d)
        else
          match (d.sourceRow? node.source).bind (fun row => row.find? node.name) with
          | none => (.error (.noData node.name), d)
          | some object =>
            (.ok (), { d with
              wired := if d.wired.contains id then d.wired else d.wired ++ [id]
              loaded := d.loaded ++ [⟨id, node.name, object⟩] }) := by
    rw [load, h]
    rfl
  rw [hload, fetch]
  cases d.node? id with
  | none => rfl
  | some node =>
      cases hcorrupt : d.corrupt.contains node.name with
      | true => simp only [hcorrupt, if_true]
      | false =>
          cases hactive : (d.activeRow node.source).isNone with
          | true => simp only [hcorrupt, hactive, Bool.false_eq_true, if_false, if_true]
          | false =>
              simp only [hcorrupt, hactive, Bool.false_eq_true, if_false]
              cases (d.sourceRow? node.source).bind (fun row => row.find? node.name) <;> rfl

/-- What a load can do: nothing for a node that is loaded already, nothing but fail where the row has no object for the
node, or else add that object. -/
theorem load_cases (d : Dataset) (id : NodeId) :
    (∃ a, d.object? id = some a ∧ d.load id = (.ok (), d)) ∨
    (d.object? id = none ∧ d.rowObject? id = none ∧ ∃ e, d.load id = (.error e, d)) ∨
    ∃ node a, d.object? id = none ∧ d.node? id = some node ∧ d.rowObject? id = some a ∧
      d.load id = (.ok (), { d with
        wired := if d.wired.contains id then d.wired else d.wired ++ [id]
        loaded := d.loaded ++ [⟨id, node.name, a⟩] }) := by
  cases hobject : d.object? id with
  | some a => exact Or.inl ⟨a, rfl, load_of_object? hobject⟩
  | none =>
      have hload := load_of_object?_eq_none hobject
      rcases fetch_cases d id with ⟨err, hfetch, hnone⟩ | ⟨node, a, hfetch, hnode, ha⟩
      · rw [hfetch] at hload
        exact Or.inr (Or.inl ⟨rfl, hnone, err, hload⟩)
      · rw [hfetch] at hload
        exact Or.inr (Or.inr ⟨node, a, rfl, hnode, ha, hload⟩)

theorem reloaded_load (d : Dataset) (id : NodeId) : Reloaded d (d.load id).2 := by
  rcases load_cases d id with ⟨a, -, h⟩ | ⟨-, -, e, h⟩ | ⟨node, a, -, -, -, h⟩
  · rw [h]
    exact Reloaded.refl d
  · rw [h]
    exact Reloaded.refl d
  · rw [h]
    refine ⟨rfl, ?_⟩
    intro j hj
    show (if d.wired.contains id then d.wired else d.wired ++ [id]).contains j = true
    have hj : d.wired.contains j = true := hj
    split
    · exact hj
    · simp only [List.contains_eq_mem, List.mem_append, decide_eq_true_eq] at hj ⊢
      exact Or.inl hj

theorem reloaded_of_reaches {d e : Dataset} (h : cursor.Reaches d e) : Reloaded d e :=
  h.keeps (P := Reloaded d) (fun t id ht => ht.trans (reloaded_load t id)) (Reloaded.refl d)

end Dataset

end TypedColumns
