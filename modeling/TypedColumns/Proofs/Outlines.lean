import TypedColumns.Proofs.Currency

/-!
# What a set-up leaves behind

Between two set-ups a binding changes, since every read may decide how its node is reached, or leave a fault.  What the
last set-up found, or why it found nothing, stays until the next one.

* `Finding`, `Binding.outline?` -- the last set-up, apart from what reading adds to it.
* `outline?_readBase`, `outline?_locate`, `outline?_decode`, `outline?_read`, `outline?_address` -- reading keeps it.
* `Binding.setupStatus_eq`, `Binding.storedType_eq`, `Binding.isFresh_eq`, `Binding.misses_eq` -- what depends on it alone.
* `Binding.value_get` -- a value is decoded from the bytes at the binding's address.
* `Binding.outline?_call` -- a call keeps what the last set-up found, or sets up anew.
* `Binding.found_of_resolve`, `Binding.resolution_of_setup` -- what is found anew is what the path stands for in the schema
  shown, for a dataset that of the current file.
-/

namespace TypedColumns

/-- What a set-up found, however far reading has come since. -/
structure Finding where
  resolution : Resolution
  source : SourceId
  beyondEnd : Bool
deriving DecidableEq, Repr

/-- What a match consists of when it has just been found. -/
def Match.finding (m : Match) : Finding := ⟨m.resolution, m.source, m.beyondEnd⟩

namespace Binding

/-- The last set-up: its generation, and what it found or why it found nothing. -/
def outline? (b : Binding) : Option (Generation × Except SetupError Finding) :=
  b.attempt.map (fun a => (a.generation, a.outcome.map Match.finding))

theorem setupStatus_eq (b : Binding) :
    b.setupStatus =
      match b.outline? with
      | none => .notSetup
      | some (_, .error e) => e.status
      | some (_, .ok f) => if f.beyondEnd then .matchButBeyondLastRow else .matchExact := by
  rw [setupStatus, outline?]
  cases b.attempt with
  | none => rfl
  | some a =>
      obtain ⟨generation, outcome⟩ := a
      cases outcome <;> rfl

theorem storedType_eq (b : Binding) :
    b.storedType =
      match b.outline? with
      | some (_, .ok f) => some f.resolution.stored
      | _ => none := by
  rw [storedType, match?, outline?]
  cases b.attempt with
  | none => rfl
  | some a =>
      obtain ⟨generation, outcome⟩ := a
      cases outcome <;> rfl

theorem isFresh_eq (b : Binding) (c : RowCursor σ) (s : σ) :
    b.isFresh c s =
      match b.outline? with
      | some (generation, _) => generation == c.generation s
      | none => false := by
  rw [isFresh, outline?]
  cases b.attempt <;> rfl

theorem misses_eq (b : Binding) (c : RowCursor σ) (s : σ) :
    b.misses c s =
      match b.outline? with
      | some (_, .ok f) => c.status s == .indexedJoinNoMatch && (c.activeRow s f.source).isNone
      | _ => false := by
  rw [misses, match?, outline?]
  cases b.attempt with
  | none => rfl
  | some a =>
      obtain ⟨generation, outcome⟩ := a
      cases outcome <;> rfl

/-- A binding has a match exactly if its last set-up found something, and then it is a match of that. -/
theorem match?_of_outline? {b : Binding} {generation : Generation} {f : Finding}
    (h : b.outline? = some (generation, .ok f)) : ∃ m, b.match? = some m ∧ m.finding = f := by
  obtain ⟨⟨generation', outcome⟩, ha, heq⟩ := Option.map_eq_some_iff.1 h
  cases outcome with
  | error e => cases heq
  | ok m =>
      refine ⟨m, ?_, Except.ok.inj (Prod.mk.inj heq).2⟩
      rw [match?, ha]

theorem outline?_of_match? {b : Binding} {m : Match} (h : b.match? = some m) :
    ∃ generation, b.outline? = some (generation, .ok m.finding) := by
  rw [match?] at h
  split at h
  · rename_i generation m' ha
    cases h
    refine ⟨generation, ?_⟩
    rw [outline?, ha]
    rfl
  · cases h

theorem outline?_withMatch {b : Binding} {m n : Match} (hm : b.match? = some m) (hn : n.finding = m.finding) :
    (b.withMatch n).outline? = b.outline? := by
  rw [match?] at hm
  split at hm
  · rename_i generation m' ha
    cases hm
    rw [outline?, outline?, withMatch, ha]
    show some (generation, Except.ok n.finding) = some (generation, Except.ok m.finding)
    rw [hn]
  · cases hm

theorem outline?_failRead {b : Binding} {m n : Match} (hm : b.match? = some m) (hn : n.finding = m.finding)
    (e : ReadError) : (b.failRead n e).outline? = b.outline? :=
  outline?_withMatch (n := { n with fault := some e }) hm hn

section Reads

variable {σ : Type} (b : Binding) (c : RowCursor σ) (s : σ)

theorem outline?_readBase : (b.readBase c s).binding.outline? = b.outline? := by
  rw [readBase]
  split
  · rename_i m hm
    simp only [readMatch]
    split
    · exact outline?_withMatch hm rfl
    · exact outline?_failRead (n := { m with plan := (m.plan.read c s).plan }) hm rfl _
  · rfl

theorem outline?_locate (t : Turn σ (Option Address)) : (locate t c).binding.outline? = t.binding.outline? := by
  rw [locate]
  split
  · rename_i hm
    split
    · rfl
    · exact outline?_failRead hm rfl _
  · rfl

theorem outline?_decode (type : ColumnType) (t : Turn σ (Option Address)) :
    (decode type t c).binding.outline? = t.binding.outline? := by
  rw [decode]
  split
  · rename_i hm
    split
    · rfl
    · exact outline?_failRead hm rfl _
  · rfl

theorem outline?_read : (b.read c s).binding.outline? = (b.refresh c s).1.outline? := outline?_readBase _ c s

theorem outline?_address : (b.address c s).binding.outline? = (b.refresh c s).1.outline? := by
  simp only [address]
  split
  · rfl
  · exact (outline?_locate c _).trans (outline?_readBase _ c s)

end Reads

/-! ### Values -/

section Values

variable {b : Binding} {d : Dataset}

/-- Only a binding that has found something tells an address. -/
theorem found_of_address {a : Address} (h : (b.address Dataset.cursor d).value = some a) :
    ∃ generation f, (b.refresh Dataset.cursor d).1.outline? = some (generation, .ok f) := by
  cases hm : (b.refresh Dataset.cursor d).1.match? with
  | none =>
      rw [(address_of_error hm).1] at h
      cases h
  | some m =>
      obtain ⟨generation, hfound⟩ := outline?_of_match? hm
      exact ⟨generation, m.finding, hfound⟩

/-- A value is what the bytes at the binding's address are decoded to, if there is a row at all. -/
theorem value_get (b : Binding) (d : Dataset) (type : ColumnType) :
    (b.get type Dataset.cursor d).value =
      if d.position.status = .notLoaded then none
      else (b.address Dataset.cursor d).value.bind
        (fun a => (d.arena.bytes a type.size).toOption.map type.decode) := by
  have harena := (Dataset.reloaded_of_reaches (reaches_address Dataset.cursor b d)).arena
  rw [get]
  show (if d.position.status = .notLoaded then _ else _ : Turn Dataset (Option Value)).value = _
  split
  · rfl
  · cases ha : (b.address Dataset.cursor d).value with
    | none =>
        simp only [decode, ha]
        rfl
    | some a =>
        obtain ⟨generation, f, hfound⟩ := found_of_address ha
        rw [← outline?_address] at hfound
        obtain ⟨m, hm, -⟩ := match?_of_outline? hfound
        have himage : Dataset.cursor.image (b.address Dataset.cursor d).state = d.arena.image :=
          congrArg Arena.image harena
        have hbytes : d.arena.image.bytes a type.size = d.arena.bytes a type.size := rfl
        simp only [decode, ha, hm, himage, hbytes, Option.bind_some]
        cases d.arena.bytes a type.size <;> rfl

theorem outline?_get (type : ColumnType) (h : d.position.status ≠ .notLoaded) :
    (b.get type Dataset.cursor d).binding.outline? = (b.refresh Dataset.cursor d).1.outline? := by
  have h : ¬ Dataset.cursor.status d = .notLoaded := h
  rw [get, if_neg h, outline?_decode, outline?_address]

end Values

/-! ### Set-ups -/

/-- What a set-up finds is what the path stands for in the schema that the cursor shows, with a plan for that node. -/
theorem found_of_resolve {σ : Type} {b : Binding} {c : RowCursor σ} {s : σ} {m : Match}
    (h : (b.resolve c s).1 = .ok m) :
    ∃ schema requested node, c.schema s = some schema ∧
      (schema.resolve (c.types s) b.path requested).1 = .ok m.resolution ∧
      schema.get? m.resolution.node = some node ∧
      m.plan = Plan.prepare m.resolution.node node (c.generation s) ∧ m.source = node.source := by
  rw [resolve] at h
  split at h
  · cases h
  · split at h
    · cases h
    · rename_i schema hschema
      simp only at h
      split at h
      · cases h
      · rename_i requested _
        split at h
        · cases h
        · rename_i r events hr
          split at h
          · cases h
          · rename_i node hnode
            cases h
            exact ⟨schema, requested, node, hschema, congrArg Prod.fst hr, hnode, rfl, rfl⟩

section Setups

variable (b : Binding) (d : Dataset)

theorem outline?_refresh :
    (b.refresh Dataset.cursor d).1.outline? = b.outline? ∨
      (b.refresh Dataset.cursor d).1.outline? = (b.setup Dataset.cursor d).1.outline? := by
  rw [refresh]
  split
  · exact Or.inl rfl
  · exact Or.inr rfl

/-- A call keeps what the last set-up found, or sets the binding up anew. -/
theorem outline?_call (call : BindingCall) :
    (b.call d call).binding.outline? = b.outline? ∨
      (b.call d call).binding.outline? = (b.setup Dataset.cursor d).1.outline? := by
  have hrefresh := outline?_refresh b d
  cases call with
  | setup => exact Or.inr rfl
  | read =>
      rw [← outline?_read] at hrefresh
      exact hrefresh
  | address =>
      rw [← outline?_address] at hrefresh
      exact hrefresh
  | get type =>
      by_cases hstatus : d.position.status = .notLoaded
      · refine Or.inl ?_
        have hstatus : Dataset.cursor.status d = .notLoaded := hstatus
        show (b.get type Dataset.cursor d).binding.outline? = _
        rw [get, if_pos hstatus]
      · rw [← outline?_get type hstatus] at hrefresh
        exact hrefresh

variable {b d}

/-- What a set-up finds is what the path stands for in the current file. -/
theorem resolution_of_setup {generation : Generation} {f : Finding}
    (h : (b.setup Dataset.cursor d).1.outline? = some (generation, .ok f)) :
    generation = d.registry.generation ∧ d.resolution b.path b.requested = .ok f.resolution := by
  have h : some (d.registry.generation, (b.resolve Dataset.cursor d).1.map Match.finding) = some (generation, .ok f) := h
  obtain ⟨rfl, hfound⟩ := Prod.mk.inj (Option.some.inj h)
  refine ⟨rfl, ?_⟩
  cases hserves : d.registry.serves b.registration with
  | false =>
      have hresolve : (b.resolve Dataset.cursor d).1 = .error (.coordinatorGone b.path) := by
        simp only [resolve, Dataset.cursor, hserves, Bool.not_false, if_true]
      rw [hresolve] at hfound
      cases hfound
  | true =>
      rw [resolve_of_serves hserves] at hfound
      cases hr : d.resolution b.path b.requested with
      | error e =>
          rw [hr] at hfound
          cases hfound
      | ok r =>
          obtain ⟨node, hnode⟩ := Dataset.exists_node_of_resolution hr
          simp only [hr, hnode] at hfound
          cases hfound
          rfl

end Setups

end Binding

end TypedColumns
