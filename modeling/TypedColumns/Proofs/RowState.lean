import TypedColumns.Proofs.Settling
import TypedColumns.Proofs.Turns

/-!
# What a dataset keeps of its row

A dataset keeps three things of the file and the row it is on: which nodes are wired, which objects are loaded, and in
which order they were.  They are changed in many places, and still they always fit each other and the row.

* `Dataset.node?_inj` -- a node of the current file is told by its name.
* `Dataset.Consistent` -- what is loaded has the name of its node, is there once, and is wired; what is wired is in the
  current file; and off the rows nothing is loaded.
* `consistent_load`, `consistent_seek`, `consistent_pushFile`, `consistent_call` -- every call on a dataset keeps it so.
* `Consistent.nodup_loads`, `Consistent.mem_loads_iff` -- the names of the loaded nodes, once each.
* `Consistent.load_of_offRow`, `Binding.value_callOn_of_failing` -- off the rows nothing can be loaded, and where that is
  so no binding reads anything.
* `Session.rowState_after` -- all of this, after any calls.
-/

namespace TypedColumns

namespace Dataset

variable {d : Dataset}

/-! ### Names of nodes -/

/-- A node of the current file is told by its name. -/
theorem node?_inj {i j : NodeId} {m n : Node} (hm : d.node? i = some m) (hn : d.node? j = some n)
    (h : m.name = n.name) : i = j := by
  obtain ⟨schema, hschema, hi⟩ := Option.bind_eq_some_iff.1 hm
  obtain ⟨schema', hschema', hj⟩ := Option.bind_eq_some_iff.1 hn
  rw [hschema] at hschema'
  cases hschema'
  have hi : schema.nodes[i.index]? = some m := hi
  have hj : schema.nodes[j.index]? = some n := hj
  have hindex : i.index = j.index := by
    have hnames : (schema.nodes.map Node.name)[i.index]? = (schema.nodes.map Node.name)[j.index]? := by
      rw [List.getElem?_map, List.getElem?_map, hi, hj, Option.map_some, Option.map_some, h]
    refine (List.getElem?_inj ?_ schema.linked.distinct).1 hnames
    rw [List.length_map]
    exact (List.getElem?_eq_some_iff.1 hi).1
  cases i
  cases j
  exact congrArg NodeId.mk hindex

/-! ### Consistency -/

/-- What is wired and what is loaded fit the current file and the row. -/
structure Consistent (d : Dataset) : Prop where
  known : ∀ id, d.isWired id = true → (d.node? id).isSome = true
  wired : ∀ l ∈ d.loaded, d.isWired l.id = true
  named : ∀ l ∈ d.loaded, ∃ node, d.node? l.id = some node ∧ node.name = l.name
  once : (d.loaded.map Loaded.id).Nodup
  onRow : d.loaded ≠ [] → ∃ entry row missed, d.position = .onRow entry row missed

theorem consistent_empty (identity : RegistryId) (types : Catalog) (settings : Settings) :
    (Dataset.empty identity types settings).Consistent := by
  refine ⟨?_, ?_, ?_, List.nodup_nil, ?_⟩
  · intro id hid
    cases hid
  · intro l hl
    cases hl
  · intro l hl
    cases hl
  · intro h
    exact absurd rfl h

/-- Without anything loaded, only what is wired matters. -/
theorem consistent_of_loaded_eq_nil (hloaded : d.loaded = [])
    (h : ∀ id, d.isWired id = true → (d.node? id).isSome = true) : d.Consistent := by
  refine ⟨h, ?_, ?_, ?_, fun hne => absurd hloaded hne⟩
  · intro l hl
    rw [hloaded] at hl
    cases hl
  · intro l hl
    rw [hloaded] at hl
    cases hl
  · rw [hloaded]
    exact List.nodup_nil

theorem notMem_of_object?_eq_none {id : NodeId} (h : d.object? id = none) : id ∉ d.loaded.map Loaded.id := by
  intro hmem
  obtain ⟨l, hl, rfl⟩ := List.mem_map.1 hmem
  have hfind := List.find?_eq_none.1 (Option.map_eq_none_iff.1 h) l hl
  simp at hfind

theorem consistent_load (h : d.Consistent) (id : NodeId) : (d.load id).2.Consistent := by
  have hwired := wired_load h.wired id
  rcases load_cases d id with ⟨a, -, hload⟩ | ⟨-, -, err, hload⟩ | ⟨node, a, hnew, hnode, hobject, hload⟩
  · rw [hload]
    exact h
  · rw [hload]
    exact h
  · rw [hload] at hwired ⊢
    refine ⟨?_, hwired, ?_, ?_, fun _ => onRow_of_rowObject? hobject⟩
    · intro j hj
      rcases isWired_add.1 hj with hj | rfl
      · exact h.known j hj
      · exact Option.isSome_of_eq_some hnode
    · intro l hl
      rcases List.mem_append.1 hl with hl | hl
      · exact h.named l hl
      · obtain rfl := List.mem_singleton.1 hl
        exact ⟨node, hnode, rfl⟩
    · show ((d.loaded ++ [(⟨id, node.name, a⟩ : Loaded)]).map Loaded.id).Nodup
      rw [List.map_append]
      refine List.nodup_append.2 ⟨h.once, List.pairwise_singleton _ _, ?_⟩
      intro i hi j hj hij
      obtain rfl := List.mem_singleton.1 hj
      exact notMem_of_object?_eq_none hnew (hij ▸ hi)

theorem consistent_of_reaches {e : Dataset} (h : d.Consistent) (hreach : cursor.Reaches d e) : e.Consistent :=
  hreach.keeps (P := Consistent) (fun _ id ht => consistent_load ht id) h

/-- Wiring wires nodes of the current file. -/
theorem node?_of_isWired_wire (h : ∀ id, d.isWired id = true → (d.node? id).isSome = true) {id : NodeId}
    (hid : d.wire.isWired id = true) : (d.wire.node? id).isSome = true := by
  have hnode : d.wire.node? id = d.node? id := by
    rw [wire_eq]
    rfl
  rw [hnode]
  rw [wire] at hid
  split at hid
  · split at hid
    · rename_i f hfile
      have hid : ((List.range f.schema.size).map NodeId.mk).contains id = true := hid
      obtain ⟨i, hi, rfl⟩ := List.mem_map.1 (List.contains_iff_mem.1 hid)
      have hlt : i < f.schema.nodes.length := List.mem_range.1 hi
      simp only [node?, schema?, hfile, Option.map_some, Option.bind_some, Schema.get?]
      rw [List.getElem?_eq_getElem hlt]
      rfl
    · exact h id hid
  · exact h id hid

theorem consistent_seek (h : d.Consistent) (entry : UInt64) : (d.seek entry).1.Consistent := by
  refine consistent_of_loaded_eq_nil (loaded_seek d entry) ?_
  intro id hid
  rcases seek_cases d entry with hseek | ⟨row, -, hseek⟩ | ⟨file, row, -, -, hseek⟩
  · rw [hseek] at hid ⊢
    exact h.known id hid
  · rw [hseek] at hid ⊢
    exact node?_of_isWired_wire (d := { d with loaded := [] }) h.known hid
  · -- Nothing of the new file is wired before.
    rw [hseek] at hid ⊢
    refine node?_of_isWired_wire (d := (({ d with loaded := [] } : Dataset).switchTo file).1) ?_ hid
    intro id hid
    cases hid

/-- The nodes of the current file stay when another file is added. -/
theorem node?_pushFile {id : NodeId} {node : Node} (h : d.node? id = some node) (f : File) :
    (d.pushFile f).1.node? id = some node := by
  obtain ⟨schema, hschema, hid⟩ := Option.bind_eq_some_iff.1 h
  obtain ⟨file, hfile, rfl⟩ := Option.map_eq_some_iff.1 hschema
  have hlt := (List.getElem?_eq_some_iff.1 hfile).1
  have hpush : (d.files ++ [f])[d.current]? = some file := by
    rw [List.getElem?_append_left hlt]
    exact hfile
  show (((d.files ++ [f])[d.current]?).map File.schema).bind (fun s => s.get? id) = some node
  rw [hpush]
  exact hid

theorem consistent_pushFile (h : d.Consistent) (f : File) : (d.pushFile f).1.Consistent := by
  refine ⟨?_, h.wired, ?_, h.once, h.onRow⟩
  · intro id hid
    obtain ⟨node, hnode⟩ := Option.isSome_iff_exists.1 (h.known id hid)
    exact Option.isSome_of_eq_some (node?_pushFile hnode f)
  · intro l hl
    obtain ⟨node, hnode, hname⟩ := h.named l hl
    exact ⟨node, node?_pushFile hnode f, hname⟩

theorem consistent_call (h : d.Consistent) (call : DatasetCall) : (d.call call).state.Consistent := by
  cases call with
  | pushFile f => exact consistent_pushFile h f
  | seek entry => exact consistent_seek h entry
  | next => exact consistent_seek h d.nextEntry
  | load id => exact consistent_load h id
  | _ => exact ⟨h.known, h.wired, h.named, h.once, h.onRow⟩

/-! ### Loaded nodes -/

theorem isSome_object?_iff {id : NodeId} : (d.object? id).isSome = true ↔ ∃ l ∈ d.loaded, l.id = id := by
  rw [object?, Option.isSome_map, List.find?_isSome]
  simp only [beq_iff_eq]

/-- No name is loaded twice, since no two nodes of a file share one. -/
theorem Consistent.nodup_loads (h : d.Consistent) : d.loads.Nodup := by
  have honce : d.loaded.Pairwise (fun l k => l.id ≠ k.id) := List.pairwise_map.1 h.once
  refine List.pairwise_map.2 (honce.imp_of_mem ?_)
  intro l k hl hk hne hname
  obtain ⟨m, hm, hmname⟩ := h.named l hl
  obtain ⟨n, hn, hnname⟩ := h.named k hk
  exact hne (node?_inj hm hn (hmname.trans (hname.trans hnname.symm)))

theorem Consistent.mem_loads_iff (h : d.Consistent) (name : String) :
    name ∈ d.loads ↔ ∃ id node, d.node? id = some node ∧ node.name = name ∧ (d.object? id).isSome = true := by
  constructor
  · intro hname
    obtain ⟨l, hl, rfl⟩ := List.mem_map.1 hname
    obtain ⟨node, hnode, hname⟩ := h.named l hl
    exact ⟨l.id, node, hnode, hname, isSome_object?_iff.2 ⟨l, hl, rfl⟩⟩
  · rintro ⟨id, node, hnode, rfl, hobject⟩
    obtain ⟨l, hl, rfl⟩ := isSome_object?_iff.1 hobject
    obtain ⟨node', hnode', hname⟩ := h.named l hl
    rw [hnode] at hnode'
    cases hnode'
    exact List.mem_map.2 ⟨l, hl, hname.symm⟩

theorem Consistent.isWired_of_object? (h : d.Consistent) {id : NodeId} (hobject : (d.object? id).isSome = true) :
    d.isWired id = true := by
  obtain ⟨l, hl, rfl⟩ := isSome_object?_iff.1 hobject
  exact h.wired l hl

/-! ### Off the rows -/

/-- Before the first row and behind the last one. -/
def OffRow (d : Dataset) : Prop := d.position.status = .notLoaded ∨ d.position.status = .beyondEnd

theorem OffRow.ne_onRow (h : d.OffRow) (entry : UInt64) (row : Nat) (missed : Bool) :
    d.position ≠ .onRow entry row missed := by
  intro hposition
  rw [OffRow, hposition] at h
  cases missed <;> rcases h with h | h <;> cases h

theorem Consistent.loaded_eq_nil (h : d.Consistent) (hoff : d.OffRow) : d.loaded = [] := by
  refine Decidable.byContradiction fun hne => ?_
  obtain ⟨entry, row, missed, hposition⟩ := h.onRow hne
  exact hoff.ne_onRow entry row missed hposition

theorem object?_eq_none_of_loaded (h : d.loaded = []) (id : NodeId) : d.object? id = none := by
  rw [object?, h]
  rfl

/-- Off the rows nothing can be loaded. -/
theorem Consistent.load_of_offRow (h : d.Consistent) (hoff : d.OffRow) (id : NodeId) :
    ∃ err, d.load id = (.error err, d) := by
  rcases load_cases d id with ⟨a, ha, -⟩ | ⟨-, -, hfails⟩ | ⟨node, a, -, -, ha, -⟩
  · rw [object?_eq_none_of_loaded (h.loaded_eq_nil hoff)] at ha
    cases ha
  · exact hfails
  · obtain ⟨entry, row, missed, hposition⟩ := onRow_of_rowObject? ha
    exact absurd hposition (hoff.ne_onRow entry row missed)

end Dataset

/-! ### Cursors that load nothing -/

section Failing

variable {σ : Type} {c : RowCursor σ} {s : σ}

/-- Every shape loads the node itself or the one that it lies in. -/
theorem Shape.mem_needs {shape : Shape} {t : Target} {ids : List NodeId} (h : shape.needs t = .ok ids) :
    t.id ∈ ids ∨ ∃ p, t.node.parent = some p ∧ p.node ∈ ids := by
  cases shape with
  | noCoordinator | scalar | collectionPointer | collectionValue =>
      cases h
      exact Or.inl List.mem_cons_self
  | parentScalar | parentCollectionPointer | parentCollectionValue =>
      cases hp : t.node.parent with
      | none =>
          simp only [needs, parentOf, hp] at h
          cases h
      | some p =>
          simp only [needs, parentOf, hp] at h
          cases h
          exact Or.inr ⟨p, rfl, List.mem_cons_self⟩
  | countedCollectionPointer | countedCollectionValue | countedScalar =>
      simp only [needs] at h
      split at h
      · cases h
        exact Or.inl (List.mem_cons_of_mem _ List.mem_cons_self)
      · cases h

/-- Every shape loads some node. -/
theorem Shape.exists_needs {shape : Shape} {t : Target} {ids : List NodeId} (h : shape.needs t = .ok ids) :
    ∃ id more, ids = id :: more := by
  rcases mem_needs h with hid | ⟨p, -, hid⟩
  · exact List.exists_cons_of_ne_nil (List.ne_nil_of_mem hid)
  · exact List.exists_cons_of_ne_nil (List.ne_nil_of_mem hid)

theorem Shape.read_of_failing (h : ∀ id, ∃ err, c.load s id = (.error err, s)) (shape : Shape) (t : Target) :
    ∃ err, shape.read c t s = (.error err, s) := by
  cases hneeds : shape.needs t with
  | error e => exact ⟨e, by simp only [read, hneeds]⟩
  | ok ids =>
      obtain ⟨id, more, rfl⟩ := exists_needs hneeds
      obtain ⟨err, hload⟩ := h id
      exact ⟨err, by simp only [read, hneeds, RowCursor.loadAll, hload]⟩

/-- Where every shape fails, so does every plan. -/
theorem Plan.read_of_failing {p : Plan} (h : ∀ shape : Shape, ∃ err t, shape.read c p.target s = (.error err, t)) :
    ∃ err, (p.read c s).base = .error err := by
  by_cases hgen : p.generation = c.generation s
  · cases hshape : p.shape with
    | some shape =>
        obtain ⟨err, t, hread⟩ := h shape
        exact ⟨err, by rw [read_of_shape hgen hshape, hread]⟩
    | none =>
        cases hw : c.isWired s p.target.id with
        | true =>
            obtain ⟨err, t, hread⟩ := h (p.target.node.facts.shape (c.hasDirector s p.target.node.source))
            rw [read_of_wired hgen hshape hw]
            exact ⟨err, congrArg Prod.fst hread⟩
        | false =>
            obtain ⟨err, t, hread⟩ := h .noCoordinator
            exact ⟨err, base_read_of_unloaded hgen hshape hw hread⟩
  · exact ⟨.staleNode, by rw [read, if_pos hgen]⟩

theorem Binding.value_serve_of_failing (h : ∀ id, ∃ err, c.load s id = (.error err, s)) (b : Binding)
    (call : BindingCall) : (b.serve c s call).value = call.refusal := by
  cases hskips : call.skips b c s with
  | true => rw [serve_of_skips hskips]
  | false =>
      cases hm : b.match? with
      | none => rw [serve_of_match?_eq_none hm]
      | some m =>
          obtain ⟨err, hbase⟩ : ∃ err, (m.plan.read c s).base = .error err :=
            Plan.read_of_failing fun shape => (Shape.read_of_failing h shape m.plan.target).imp fun _ hread => ⟨s, hread⟩
          have houtcome : call.outcome m c s = .error err := by
            rw [BindingCall.outcome, hbase]
            rfl
          rw [serve_of_match? hskips hm, houtcome]
          rfl

/-- A cursor that loads nothing lets no binding read anything. -/
theorem Binding.value_callOn_of_failing (h : ∀ id, ∃ err, c.load s id = (.error err, s)) (b : Binding)
    {call : BindingCall} (hreads : call.reads = true) : (b.callOn c s call).value = call.refusal := by
  rw [callOn_eq b c s hreads]
  cases hearly : call.isEarly c s with
  | true => rw [turn_of_isEarly hearly]
  | false =>
      rw [turn_of_isEarly_eq_false hearly]
      exact value_serve_of_failing h _ call

end Failing

namespace Session

theorem consistent_apply {s : Session} (h : s.dataset.Consistent) (call : SessionCall) :
    (s.apply call).state.dataset.Consistent := by
  rcases dataset_apply s call with ⟨c, rfl, hd⟩ | hreach | ⟨r, -, hd⟩
  · rw [hd]
    exact Dataset.consistent_call h c
  · exact Dataset.consistent_of_reaches h hreach
  · rw [hd]
    exact ⟨h.known, h.wired, h.named, h.once, h.onRow⟩

theorem consistent_after {s : Session} (h : s.dataset.Consistent) (calls : List SessionCall) :
    (s.after calls).dataset.Consistent := by
  induction calls generalizing s with
  | nil => exact h
  | cons call calls ih => exact ih (consistent_apply h call)

/-- **What a dataset keeps always fits the row that it is on.**  After any calls: the names of the loaded nodes are those
of the nodes with an object, each of them once; every such node is wired, and every wired node is one of the current
file; a load that fails changes nothing; and where there is no row, before the first one or behind the last one, nothing
is loaded, nothing can be loaded, and no binding reads anything. -/
theorem rowState_after (identity : RegistryId) (types : Catalog) (settings : Settings) (calls : List SessionCall) :
    let d := ((start identity types settings).after calls).dataset
    d.loads.Nodup ∧
      (∀ name, name ∈ d.loads ↔
        ∃ id node, d.node? id = some node ∧ node.name = name ∧ (d.object? id).isSome = true) ∧
      (∀ id, (d.object? id).isSome = true → d.isWired id = true) ∧
      (∀ id, d.isWired id = true → (d.node? id).isSome = true) ∧
      (∀ id err, (d.load id).1 = .error err → (d.load id).2 = d) ∧
      (d.OffRow →
        d.loaded = [] ∧ (∀ id, ∃ err, d.load id = (.error err, d)) ∧
          ∀ b : Binding, (b.call d .read).value = .read .error ∧ (b.call d .address).value = .address none ∧
            ∀ type, (b.call d (.get type)).value = .value none) := by
  intro d
  have hd : d.Consistent := consistent_after (Dataset.consistent_empty identity types settings) calls
  refine ⟨hd.nodup_loads, hd.mem_loads_iff, fun id => hd.isWired_of_object?, hd.known, ?_, ?_⟩
  · intro id err herr
    exact Dataset.eq_of_load_error (Prod.ext herr rfl)
  · intro hoff
    have hfails := hd.load_of_offRow hoff
    have hcall : ∀ (b : Binding) (call : BindingCall), call.reads = true → (b.call d call).value = call.refusal := by
      intro b call hreads
      rw [Binding.call_eq_callOn]
      exact Binding.value_callOn_of_failing hfails b hreads
    exact ⟨hd.loaded_eq_nil hoff, hfails, fun b => ⟨hcall b .read rfl, hcall b .address rfl, fun type => hcall b (.get type) rfl⟩⟩

end Session

end TypedColumns
