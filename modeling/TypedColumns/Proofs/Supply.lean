import TypedColumns.Proofs.Repetition

/-!
# Datasets with more or less loaded

Where a dataset stands, each node has one supply: its object if that is loaded, and else what the row delivers, be it an
object or the reason why there is none.  Loading takes from the supply and never changes it.  So two datasets that
differ only in how much of it they have taken go on alike.

* `Dataset.supply` -- what a dataset has for a node.
* `fst_load`, `supply_load`, `isSome_object?_load`, `isWired_load` -- a load, in terms of the supply.
* `Dataset.Ahead` -- a dataset that has loaded some nodes more than another one.  Loading keeps it so, with the same nodes
  more (`Ahead.load`, `Ahead.loadAll`, `Ahead.shapeRead`).
* `Ahead.of_reaches`, `Ahead.trans` -- what was loaded makes the difference, and differences add up.
-/

namespace TypedColumns

namespace Dataset

variable {d e f : Dataset}

/-! ### Supply -/

/-- What a dataset has for a node: the loaded object, or else what the row delivers. -/
def supply (d : Dataset) (id : NodeId) : Except ReadError Address :=
  match d.object? id with
  | some a => .ok a
  | none => (d.fetch id).map Loaded.object

/-- Whether some load of a node succeeds. -/
def Supplies (d : Dataset) (id : NodeId) : Prop := ∃ a, d.supply id = .ok a

theorem supply_of_object? {id : NodeId} {a : Address} (h : d.object? id = some a) : d.supply id = .ok a := by
  rw [supply, h]

theorem Reloaded.fetch (h : Reloaded d e) (id : NodeId) : e.fetch id = d.fetch id := by
  rw [h.eq]
  rfl

theorem id_of_fetch {id : NodeId} {l : Loaded} (h : d.fetch id = .ok l) : l.id = id := by
  rcases fetch_cases d id with ⟨err, hfetch, -⟩ | ⟨node, a, hfetch, -⟩
  · rw [hfetch] at h
    cases h
  · rw [hfetch] at h
    cases h
    rfl

/-- What a load can do, by the supply. -/
theorem load_supply (d : Dataset) (id : NodeId) :
    (∃ a, d.object? id = some a ∧ d.load id = (.ok (), d)) ∨
    (∃ err, d.supply id = .error err ∧ d.load id = (.error err, d)) ∨
    ∃ l, d.object? id = none ∧ d.fetch id = .ok l ∧ l.id = id ∧
      d.load id = (.ok (), { d with
        wired := if d.wired.contains id then d.wired else d.wired ++ [id]
        loaded := d.loaded ++ [l] }) := by
  cases hobject : d.object? id with
  | some a => exact Or.inl ⟨a, rfl, load_of_object? hobject⟩
  | none =>
      have hload := load_of_object?_eq_none hobject
      cases hfetch : d.fetch id with
      | error err =>
          rw [hfetch] at hload
          refine Or.inr (Or.inl ⟨err, ?_, hload⟩)
          rw [supply, hobject, hfetch]
          rfl
      | ok l =>
          rw [hfetch] at hload
          exact Or.inr (Or.inr ⟨l, rfl, rfl, id_of_fetch hfetch, hload⟩)

theorem supply_of_fetch {id : NodeId} {l : Loaded} (hnew : d.object? id = none) (hfetch : d.fetch id = .ok l) :
    d.supply id = .ok l.object := by
  rw [supply, hnew, hfetch]
  rfl

/-- The objects with one more. -/
theorem object?_add {wired : List NodeId} {l : Loaded} (j : NodeId) :
    Dataset.object? { d with wired, loaded := d.loaded ++ [l] } j =
      (d.object? j).or (if l.id = j then some l.object else none) := by
  show ((d.loaded ++ [l]).find? (fun k => k.id == j)).map Loaded.object = _
  rw [List.find?_append, object?]
  cases d.loaded.find? (fun k => k.id == j) with
  | some k => rfl
  | none => by_cases hid : l.id = j <;> simp [hid]

/-! ### Loads -/

theorem fst_load (d : Dataset) (id : NodeId) : (d.load id).1 = (d.supply id).map (fun _ => ()) := by
  rcases load_supply d id with ⟨a, ha, hload⟩ | ⟨err, herr, hload⟩ | ⟨l, hnew, hfetch, -, hload⟩
  · rw [hload, supply_of_object? ha]
    rfl
  · rw [hload, herr]
    rfl
  · rw [hload, supply_of_fetch hnew hfetch]
    rfl

/-- A load never changes the supply. -/
theorem supply_load (d : Dataset) (id j : NodeId) : (d.load id).2.supply j = d.supply j := by
  have hreload := reloaded_load d id
  rcases load_supply d id with ⟨a, -, hload⟩ | ⟨err, -, hload⟩ | ⟨l, hnew, hfetch, hid, hload⟩
  · rw [hload]
  · rw [hload]
  · rw [supply, supply, hreload.fetch, hload, object?_add]
    cases hobject : d.object? j with
    | some a => rfl
    | none =>
        by_cases hj : l.id = j
        · rw [hid] at hj
          subst hj
          rw [if_pos hid, hfetch]
          rfl
        · rw [if_neg hj]
          rfl

theorem isSome_object?_load (d : Dataset) (id j : NodeId) :
    ((d.load id).2.object? j).isSome = true ↔ (d.object? j).isSome = true ∨ (j = id ∧ d.Supplies id) := by
  rcases load_supply d id with ⟨a, ha, hload⟩ | ⟨err, herr, hload⟩ | ⟨l, hnew, hfetch, hid, hload⟩
  · rw [hload]
    refine ⟨Or.inl, ?_⟩
    rintro (hj | ⟨rfl, -⟩)
    · exact hj
    · exact Option.isSome_of_eq_some ha
  · rw [hload]
    refine ⟨Or.inl, ?_⟩
    rintro (hj | ⟨-, a, ha⟩)
    · exact hj
    · rw [herr] at ha
      cases ha
  · have hsupplies : d.Supplies id := ⟨l.object, supply_of_fetch hnew hfetch⟩
    rw [hload, object?_add, hid]
    by_cases hj : id = j
    · subst hj
      simp [hsupplies]
    · simp [hj, Ne.symm hj]

/-- A load wires the node, if that is loaded only where it is wired. -/
theorem isWired_load (hwired : ∀ id, (d.object? id).isSome = true → d.isWired id = true) (id j : NodeId) :
    (d.load id).2.isWired j = true ↔ d.isWired j = true ∨ (j = id ∧ d.Supplies id) := by
  rcases load_supply d id with ⟨a, ha, hload⟩ | ⟨err, herr, hload⟩ | ⟨l, hnew, hfetch, hid, hload⟩
  · rw [hload]
    refine ⟨Or.inl, ?_⟩
    rintro (hj | ⟨rfl, -⟩)
    · exact hj
    · exact hwired j (Option.isSome_of_eq_some ha)
  · rw [hload]
    refine ⟨Or.inl, ?_⟩
    rintro (hj | ⟨-, a, ha⟩)
    · exact hj
    · rw [herr] at ha
      cases ha
  · have hsupplies : d.Supplies id := ⟨l.object, supply_of_fetch hnew hfetch⟩
    rw [hload, isWired_add]
    simp only [hsupplies, and_true]

/-- Nodes that are loaded one after the other are all there then. -/
theorem isSome_object?_loadAll {ids : List NodeId} (h : cursor.loadAll ids d = (.ok (), e)) :
    ∀ id ∈ ids, (e.object? id).isSome = true := by
  induction ids generalizing d with
  | nil => exact fun id hid => absurd hid List.not_mem_nil
  | cons id ids ih =>
      rw [RowCursor.loadAll] at h
      cases hload : cursor.load d id with
      | mk r f =>
          rw [hload] at h
          cases r with
          | error err => cases h
          | ok u =>
              obtain ⟨a, ha⟩ := Option.isSome_iff_exists.1 (object?_of_load hload)
              have h : cursor.loadAll ids f = (.ok (), e) := h
              have hreach := reaches_loadAll cursor ids f
              rw [h] at hreach
              refine List.forall_mem_cons.2 ⟨?_, ih h⟩
              exact Option.isSome_of_eq_some (object?_of_reaches ha hreach)

/-! ### Differences -/

/-- The one dataset has loaded some nodes more than the other, on the same row. -/
structure Ahead (more : NodeId → Prop) (d e : Dataset) : Prop where
  eq : e = { d with wired := e.wired, loaded := e.loaded }
  supply : ∀ id, e.supply id = d.supply id
  loaded : ∀ id, (e.object? id).isSome = true ↔ (d.object? id).isSome = true ∨ more id
  isWired : ∀ id, e.isWired id = true ↔ d.isWired id = true ∨ more id
  wires : ∀ id, (d.object? id).isSome = true → d.isWired id = true

namespace Ahead

variable {more others : NodeId → Prop} {ids : List NodeId}

theorem refl (h : ∀ id, (d.object? id).isSome = true → d.isWired id = true) : Ahead (fun _ => False) d d := by
  refine ⟨rfl, fun _ => rfl, ?_, ?_, h⟩ <;> simp only [or_false, implies_true]

theorem reloaded (h : Ahead more d e) : Reloaded d e := ⟨h.eq, fun id hid => (h.isWired id).2 (Or.inl hid)⟩

theorem wires_right (h : Ahead more d e) (id : NodeId) (hid : (e.object? id).isSome = true) : e.isWired id = true := by
  rw [h.isWired]
  exact ((h.loaded id).1 hid).imp_left (h.wires id)

/-- The difference matters only by the nodes that it makes. -/
theorem congr (h : Ahead more d e) (hmore : ∀ id, (d.object? id).isSome = true ∨ more id ↔
    (d.object? id).isSome = true ∨ others id) : Ahead others d e := by
  refine ⟨h.eq, h.supply, fun id => (h.loaded id).trans (hmore id), ?_, h.wires⟩
  intro id
  rw [h.isWired]
  constructor
  · rintro (hwired | hid)
    · exact Or.inl hwired
    · exact ((hmore id).1 (Or.inr hid)).imp_left (h.wires id)
  · rintro (hwired | hid)
    · exact Or.inl hwired
    · exact ((hmore id).2 (Or.inr hid)).imp_left (h.wires id)

/-- Differences add up. -/
theorem trans (h : Ahead more d e) (h' : Ahead others e f) : Ahead (fun id => more id ∨ others id) d f := by
  refine ⟨?_, fun id => (h'.supply id).trans (h.supply id), ?_, ?_, h.wires⟩
  · rw [h'.eq, h.eq]
  · intro id
    rw [h'.loaded, h.loaded, or_assoc]
  · intro id
    rw [h'.isWired, h.isWired, or_assoc]

theorem object? (h : Ahead more d e) {id : NodeId} (hid : (d.object? id).isSome = true) : e.object? id = d.object? id := by
  have hid' : (e.object? id).isSome = true := (h.loaded id).2 (Or.inl hid)
  obtain ⟨a, ha⟩ := Option.isSome_iff_exists.1 hid
  obtain ⟨a', ha'⟩ := Option.isSome_iff_exists.1 hid'
  have hsupply := h.supply id
  rw [supply_of_object? ha, supply_of_object? ha'] at hsupply
  rw [ha, ha', Except.ok.inj hsupply]

/-- Two datasets that have loaded the same more than a third one do not differ. -/
theorem level (h : Ahead more d e) (h' : Ahead others d f) (hmore : ∀ id, more id ↔ others id) :
    Ahead (fun _ => False) e f := by
  refine ⟨?_, fun id => (h'.supply id).trans (h.supply id).symm, ?_, ?_, h.wires_right⟩
  · rw [h'.eq, h.eq]
  · intro id
    rw [h'.loaded, h.loaded, hmore, or_false]
  · intro id
    rw [h'.isWired, h.isWired, hmore, or_false]

theorem object?_eq (h : Ahead (fun _ => False) d e) (id : NodeId) : e.object? id = d.object? id := by
  cases hid : (d.object? id).isSome with
  | true => exact h.object? hid
  | false =>
      have hid' : (e.object? id).isSome = false := by
        rw [← hid]
        exact Bool.eq_iff_iff.2 ((h.loaded id).trans (or_iff_left not_false))
      rw [Option.isNone_iff_eq_none.1 (Option.isSome_eq_false_iff.1 hid),
        Option.isNone_iff_eq_none.1 (Option.isSome_eq_false_iff.1 hid')]

theorem isWired_eq (h : Ahead (fun _ => False) d e) (id : NodeId) : e.isWired id = d.isWired id :=
  Bool.eq_iff_iff.2 ((h.isWired id).trans (or_iff_left not_false))

theorem of_load (hwires : ∀ id, (d.object? id).isSome = true → d.isWired id = true) (id : NodeId) :
    Ahead (fun j => ((d.load id).2.object? j).isSome = true) d (d.load id).2 := by
  refine ⟨(reloaded_load d id).eq, supply_load d id, ?_, ?_, hwires⟩
  · intro j
    rw [isSome_object?_load, ← or_assoc, or_self]
  · intro j
    rw [isWired_load hwires, isSome_object?_load, ← or_assoc, or_iff_left_of_imp (hwires j)]

/-- What was loaded makes the difference. -/
theorem of_reaches (hwires : ∀ id, (d.object? id).isSome = true → d.isWired id = true) (h : cursor.Reaches d e) :
    Ahead (fun id => (e.object? id).isSome = true) d e := by
  induction h with
  | refl => exact (refl hwires).congr (by simp)
  | @load t id hreach ih =>
      refine (ih.trans (of_load ih.wires_right id)).congr ?_
      intro j
      show _ ∨ _ ∨ _ ↔ _ ∨ ((t.load id).2.object? j).isSome = true
      rw [isSome_object?_load, or_self_left]

/-- A load goes alike, and the difference stays. -/
theorem load (h : Ahead more d e) (id : NodeId) :
    ∃ e', e.load id = ((d.load id).1, e') ∧ Ahead more (d.load id).2 e' := by
  have hd := reloaded_load d id
  have he := reloaded_load e id
  have hsupplies : e.Supplies id ↔ d.Supplies id := by rw [Supplies, Supplies, h.supply]
  refine ⟨(e.load id).2, Prod.ext (by rw [fst_load, fst_load, h.supply]) rfl, ?_, ?_, ?_, ?_, ?_⟩
  · rw [he.eq, hd.eq, h.eq]
  · intro j
    rw [supply_load, supply_load, h.supply]
  · intro j
    rw [isSome_object?_load, isSome_object?_load, h.loaded, hsupplies, or_right_comm]
  · intro j
    rw [isWired_load h.wires, isWired_load h.wires_right, h.isWired, hsupplies, or_right_comm]
  · intro j hj
    rw [isWired_load h.wires]
    exact ((isSome_object?_load d id j).1 hj).imp_left (h.wires j)

theorem loadAll (h : Ahead more d e) (ids : List NodeId) :
    ∃ e', cursor.loadAll ids e = ((cursor.loadAll ids d).1, e') ∧ Ahead more (cursor.loadAll ids d).2 e' := by
  induction ids generalizing d e with
  | nil => exact ⟨e, rfl, h⟩
  | cons id ids ih =>
      obtain ⟨e', he, hahead⟩ := h.load id
      have he : cursor.load e id = ((cursor.load d id).1, e') := he
      rw [RowCursor.loadAll, RowCursor.loadAll, he]
      cases hd : cursor.load d id with
      | mk r d' =>
          have hd : d.load id = (r, d') := hd
          rw [hd] at hahead
          cases r with
          | error err => exact ⟨e', rfl, hahead⟩
          | ok u => exact ih hahead

/-- Reading by a shape goes alike. -/
theorem shapeRead (h : Ahead more d e) (shape : Shape) (t : Target) :
    ∃ e', shape.read cursor t e = ((shape.read cursor t d).1, e') ∧ Ahead more (shape.read cursor t d).2 e' := by
  cases hneeds : shape.needs t with
  | error err =>
      simp only [Shape.read, hneeds]
      exact ⟨e, rfl, h⟩
  | ok ids =>
      obtain ⟨e', he, hahead⟩ := h.loadAll ids
      simp only [Shape.read, hneeds, he]
      cases hd : cursor.loadAll ids d with
      | mk r d' =>
          rw [hd] at hahead
          cases r with
          | error err => exact ⟨e', rfl, hahead⟩
          | ok u =>
              have hloaded := isSome_object?_loadAll hd
              have hobjects : ∀ id ∈ ids, e'.object? id = d'.object? id := fun id hid => hahead.object? (hloaded id hid)
              have hplace : shape.place t e'.object? e'.arena.image = shape.place t d'.object? d'.arena.image := by
                rw [Shape.place_congr hneeds hobjects, hahead.reloaded.arena]
              exact ⟨e', Prod.ext hplace rfl, hahead⟩

end Ahead

end Dataset

end TypedColumns
