import TypedColumns.Proofs.Currency
import TypedColumns.Proofs.PlainAddresses
import TypedColumns.Proofs.RowObjects

/-!
# Reading without caches

A dataset that is set up before it is first sought, and that wires its nodes eagerly, can be read as if nothing were
ever remembered: not what a path stands for, not how its node is reached, not what is loaded, and not what is wired.

* `Dataset.cachelessAddress?` -- the address of a column, by the files, the joins and the current row alone.
* `Dataset.Steady` -- what is loaded and wired goes with the current row and file.  Seeking and loading keep it so
  (`steady_seek`, `steady_of_reaches`), and with it a new binding finds that address (`fst_freshAddress`).
* `Session.Allows`, `Session.Obeys` -- a client that sets the dataset up before it first seeks.
* `Session.address_eq_cacheless` -- every binding then answers that address, whatever it remembers.
* `Session.address_firstFile` -- a binding that was set up before the first file came does not.
-/

namespace TypedColumns

namespace Dataset

variable {d e : Dataset}

/-- The address of a column, by the files, the joins and the current row alone: what the path stands for in the current
file, the object of its node on the row, and the way from there to the value. -/
def cachelessAddress? (d : Dataset) (path : String) (requested : Option String) : Option Address :=
  match d.resolution path requested with
  | .error _ => none
  | .ok r =>
    match d.node? r.node with
    | none => none
    | some node =>
      if (d.activeRow node.source).isNone then none
      else (d.nodeBase? ⟨r.node, node⟩).bind (r.access.reach? d.arena.image)

/-! ### Rows -/

/-- Only on a row has any source an active row. -/
theorem onRow_of_activeRow {source : SourceId} {i : UInt64} (h : d.activeRow source = some i) :
    ∃ entry row missed, d.position = .onRow entry row missed := by
  rw [activeRow] at h
  split at h
  · rename_i entry row missed hposition
    exact ⟨entry, row, missed, hposition⟩
  · cases h

/-- Only on a row is there an object of any node. -/
theorem onRow_of_rowObject? {id : NodeId} {a : Address} (h : d.rowObject? id = some a) :
    ∃ entry row missed, d.position = .onRow entry row missed := by
  rw [rowObject?] at h
  split at h
  · cases h
  · rename_i node _
    cases hactive : d.activeRow node.source with
    | none =>
        rw [hactive, Option.isNone_none, Bool.or_true, if_pos rfl] at h
        cases h
    | some row => exact onRow_of_activeRow hactive

/-- On a row a source has no active row only if its index misses the entry. -/
theorem misses_of_activeRow {entry : UInt64} {row : Nat} {missed : Bool} {source : SourceId}
    (hposition : d.position = .onRow entry row missed) (h : d.activeRow source = none) :
    d.joins.any (fun (_, j) => j.misses entry) = true := by
  simp only [activeRow, hposition] at h
  split at h
  · cases h
  · split at h
    · rename_i rows hjoin
      refine List.any_eq_true.2 ⟨(source, .indexed rows), ?_, ?_⟩
      · obtain ⟨before, after, hjoins, -⟩ := List.lookup_eq_some_iff.1 hjoin
        rw [hjoins]
        exact List.mem_append_right before List.mem_cons_self
      · show (rows[entry.toNat]?.join).isNone = true
        rw [h]
        rfl
    · cases h

theorem nodeBase?_eq_none (h : ∀ id, d.rowObject? id = none) (t : Target) : d.nodeBase? t = none := by
  rw [nodeBase?]
  split
  · split
    · rw [h]
      rfl
    · split
      · rw [h]
        rfl
      · rw [h]
        rfl
  · exact h t.id

/-! ### Steady datasets -/

/-- All nodes of the current file are wired. -/
def AllWired (d : Dataset) : Prop := ∀ id node, d.node? id = some node → d.isWired id = true

/-- What is loaded and wired goes with the current row and file.  Nothing is wired before the first row, and everything
on a row; and whether an index misses the entry is as the joins say now. -/
structure Steady (d : Dataset) : Prop where
  eager : d.lazyWiring = false
  idle : d.position = .unloaded → d.wired = []
  wired : d.wired = [] ∨ d.AllWired
  row : ∀ entry row missed, d.position = .onRow entry row missed →
    d.AllWired ∧ missed = d.joins.any (fun (_, j) => j.misses entry)
  faithful : d.Faithful

theorem steady_of_unloaded (heager : d.lazyWiring = false) (hposition : d.position = .unloaded) (hwired : d.wired = [])
    (hloaded : d.loaded = []) : d.Steady := by
  refine ⟨heager, fun _ => hwired, Or.inl hwired, ?_, faithful_of_loaded_eq_nil hloaded⟩
  intro entry row missed h
  rw [hposition] at h
  cases h

theorem Steady.loaded_eq_nil (hd : d.Steady) (hposition : d.position = .unloaded) : d.loaded = [] := by
  cases hloaded : d.loaded with
  | nil => rfl
  | cons l ls =>
      have hl : l ∈ d.loaded := by
        rw [hloaded]
        exact List.mem_cons_self
      obtain ⟨entry, row, missed, honRow⟩ := onRow_of_rowObject? (hd.faithful l hl)
      rw [hposition] at honRow
      cases honRow

theorem allWired_wire (heager : d.lazyWiring = false) (hd : d.wired = [] ∨ d.AllWired) : d.wire.AllWired := by
  intro id node hnode
  have hfiles : d.wire.node? id = d.node? id := by
    rw [wire_eq]
    rfl
  rw [hfiles] at hnode
  by_cases hempty : d.wired = []
  · have hcond : (!d.lazyWiring && d.wired.isEmpty) = true := by
      rw [heager, hempty]
      rfl
    rw [wire, if_pos hcond]
    cases hfile : d.file? with
    | none =>
        simp only [node?, schema?, hfile, Option.map_none, Option.bind_none] at hnode
        cases hnode
    | some f =>
        simp only [node?, schema?, hfile, Option.map_some, Option.bind_some] at hnode
        have hlt := (List.getElem?_eq_some_iff.1 hnode).1
        show ((List.range f.schema.size).map NodeId.mk).contains id = true
        rw [List.contains_iff_mem, List.mem_map]
        exact ⟨id.index, List.mem_range.2 hlt, rfl⟩
  · have hcond : ¬ (!d.lazyWiring && d.wired.isEmpty) = true := by
      intro h
      exact hempty (List.isEmpty_iff.1 (Bool.and_eq_true_iff.1 h).2)
    rw [wire, if_neg hcond]
    exact hd.resolve_left hempty id node hnode

/-- A row that is reached from a steady dataset, or in a file of which nothing is wired, comes with everything wired. -/
theorem steady_wire (heager : d.lazyWiring = false) (hwired : d.wired = [] ∨ d.AllWired) (hloaded : d.loaded = [])
    (entry : UInt64) (row : Nat) :
    Steady { d.wire with position := .onRow entry row (d.joins.any (fun (_, j) => j.misses entry)) } := by
  have hall := allWired_wire heager hwired
  rw [wire_eq] at hall ⊢
  refine ⟨heager, ?_, Or.inr hall, ?_, faithful_of_loaded_eq_nil hloaded⟩
  · intro hposition
    cases hposition
  · intro entry row missed hposition
    cases hposition
    exact ⟨hall, rfl⟩

theorem steady_seek (hd : d.Steady) (entry : UInt64) : (d.seek entry).1.Steady := by
  rcases seek_cases d entry with h | ⟨row, -, h⟩ | ⟨file, row, -, -, h⟩
  · rw [h]
    refine ⟨hd.eager, ?_, hd.wired, ?_, faithful_of_loaded_eq_nil rfl⟩
    · intro hposition
      cases hposition
    · intro entry row missed hposition
      cases hposition
  · rw [h]
    exact steady_wire (d := { d with loaded := [] }) hd.eager hd.wired rfl entry row
  · rw [h]
    exact steady_wire (d := (({ d with loaded := [] } : Dataset).switchTo file).1) hd.eager (Or.inl rfl) rfl entry row

theorem steady_load (hd : d.Steady) (id : NodeId) : (d.load id).2.Steady := by
  have hreload := reloaded_load d id
  rcases load_cases d id with ⟨a, -, h⟩ | ⟨-, -, err, h⟩ | ⟨node, a, -, -, ha, h⟩
  · rw [h]
    exact hd
  · rw [h]
    exact hd
  · -- An object can be had on a row only, and there everything is wired already.
    obtain ⟨entry, row, missed, honRow⟩ := onRow_of_rowObject? ha
    have hall : (d.load id).2.AllWired := by
      intro j node hj
      have hnode : (d.load id).2.node? j = d.node? j := by rw [h]; rfl
      rw [hnode] at hj
      exact hreload.wired j ((hd.row entry row missed honRow).1 j node hj)
    refine ⟨?_, ?_, Or.inr hall, ?_, faithful_load hd.faithful id⟩
    · rw [h]
      exact hd.eager
    · intro hposition
      rw [hreload.position, honRow] at hposition
      cases hposition
    · intro entry row missed hposition
      rw [hreload.position] at hposition
      refine ⟨hall, ?_⟩
      rw [h]
      exact (hd.row entry row missed hposition).2

theorem steady_of_reaches (hd : d.Steady) (h : cursor.Reaches d e) : e.Steady :=
  h.keeps (P := Steady) (fun _ id ht => steady_load ht id) hd

/-! ### Reading a steady dataset -/

theorem toOption_planRead (hd : d.Steady) {id : NodeId} {node : Node} (hnode : d.node? id = some node) :
    ((Plan.prepare id node d.registry.generation).read cursor d).base.toOption = d.nodeBase? ⟨id, node⟩ := by
  cases hw : d.isWired id with
  | true =>
      have hread := Plan.read_of_wired (c := cursor) (s := d) (p := Plan.prepare id node d.registry.generation) rfl rfl hw
      rw [hread]
      exact toOption_shapeRead hd.faithful ⟨id, node⟩
  | false =>
      -- Where a node is not wired there is no row, and so there are no objects at all.
      have hnone : ∀ j, d.rowObject? j = none := by
        intro j
        cases ha : d.rowObject? j with
        | none => rfl
        | some a =>
            obtain ⟨entry, row, missed, honRow⟩ := onRow_of_rowObject? ha
            rw [(hd.row entry row missed honRow).1 id node hnode] at hw
            cases hw
      have hneeds : Shape.noCoordinator.needs ⟨id, node⟩ = .ok [id] := rfl
      have hshape := toOption_shapeRead_of_needs hd.faithful hneeds
      rw [if_neg (by simp [hnone])] at hshape
      rw [nodeBase?_eq_none hnone]
      cases hr : Shape.noCoordinator.read cursor ⟨id, node⟩ d with
      | mk r s =>
          rw [hr] at hshape
          cases r with
          | error err =>
              have hbase := Plan.base_read_of_unloaded (p := Plan.prepare id node d.registry.generation) rfl rfl hw hr
              rw [hbase]
              rfl
          | ok base => cases hshape

/-- Where a source has no active row and no index misses the entry, there is no row at all. -/
theorem Steady.rowObject?_eq_none (hd : d.Steady) {source : SourceId} (hactive : d.activeRow source = none)
    (hstatus : ¬ (d.position.status == .indexedJoinNoMatch) = true) (id : NodeId) : d.rowObject? id = none := by
  cases ha : d.rowObject? id with
  | none => rfl
  | some a =>
      obtain ⟨entry, row, missed, honRow⟩ := onRow_of_rowObject? ha
      have hmissed := (hd.row entry row missed honRow).2
      rw [misses_of_activeRow honRow hactive] at hmissed
      rw [honRow, hmissed] at hstatus
      exact absurd rfl hstatus

/-- In a steady dataset a new binding finds the address that follows from the files, the joins and the row. -/
theorem fst_freshAddress (hd : d.Steady) (path : String) (requested : Option String) :
    (d.freshAddress path requested).1 = d.cachelessAddress? path requested := by
  rw [freshAddress, cachelessAddress?]
  cases d.resolution path requested with
  | error err => rfl
  | ok r =>
      cases hnode : d.node? r.node with
      | none => simp only [hnode]
      | some node =>
          have hread := toOption_planRead hd hnode
          have harena := (reloaded_of_reaches
            (reaches_planRead cursor (Plan.prepare r.node node d.registry.generation) d)).arena
          simp only [hnode]
          rw [← hread, harena]
          cases hactive : d.activeRow node.source with
          | some i =>
              simp only [Option.isNone_some, Bool.and_false, Bool.false_eq_true, if_false]
              cases ((Plan.prepare r.node node d.registry.generation).read cursor d).base with
              | error err => rfl
              | ok base => exact r.access.toOption_locate d.arena.image base
          | none =>
              simp only [Option.isNone_none, Bool.and_true, if_true]
              split
              · rfl
              · rename_i hstatus
                have hnone := hd.rowObject?_eq_none hactive hstatus
                rw [nodeBase?_eq_none hnone] at hread
                cases hbase : ((Plan.prepare r.node node d.registry.generation).read cursor d).base with
                | error err => rfl
                | ok base =>
                    rw [hbase] at hread
                    cases hread

end Dataset

/-! ### Runs -/

namespace Session

/-- What a client may call that sets the dataset up before it first seeks, and leaves wiring and generations to the
dataset.  A binding that is set up while there is no file at all keeps its failure when the first file comes, since that
is no change of generation; so the first file has to come before the first set-up. -/
def Allows (s : Session) : SessionCall → Prop
  | .dataset (.pushFile _) => s.dataset.position = .unloaded ∧ (s.dataset.files = [] → ∀ i, s.IsNew i)
  | .dataset (.joinAligned _) | .dataset (.joinIndexed _ _) | .dataset (.detach _) | .dataset (.markCorrupt _) =>
    s.dataset.position = .unloaded
  | .dataset (.setLazyWiring _) | .dataset (.announce _) => False
  | _ => True

/-- Every call of a run is allowed when it comes. -/
def Obeys (s : Session) : List SessionCall → Prop
  | [] => True
  | call :: calls => s.Allows call ∧ (s.apply call).state.Obeys calls

variable {s : Session} {call : SessionCall}

theorem Allows.silent (h : s.Allows call) : call.announces = false := by
  cases call with
  | dataset call =>
      cases call with
      | announce g => exact h.elim
      | _ => rfl
  | _ => rfl

theorem Allows.steers (h : s.Allows call) (hcall : call.steers = true) : s.dataset.position = .unloaded := by
  cases call with
  | dataset call =>
      cases call with
      | joinAligned source => exact h
      | joinIndexed source rows => exact h
      | detach source => exact h
      | _ => cases hcall
  | _ => cases hcall

theorem steady_apply (hd : s.dataset.Steady) (h : s.Allows call) : (s.apply call).state.dataset.Steady := by
  rcases dataset_apply s call with ⟨c, rfl, hc⟩ | hreach | ⟨r, -, hr⟩
  · -- Before the first row nothing is wired or loaded, whatever is set up.
    have hidle : ∀ e : Dataset, s.dataset.position = .unloaded → e.lazyWiring = s.dataset.lazyWiring →
        e.position = s.dataset.position → e.wired = s.dataset.wired → e.loaded = s.dataset.loaded → e.Steady := by
      intro e hunloaded hlazy hposition hwired hloaded
      exact Dataset.steady_of_unloaded (hlazy.trans hd.eager) (hposition.trans hunloaded)
        (hwired.trans (hd.idle hunloaded)) (hloaded.trans (hd.loaded_eq_nil hunloaded))
    cases c with
    | pushFile f => exact hidle _ h.1 rfl rfl rfl rfl
    | joinAligned source => exact hidle _ h rfl rfl rfl rfl
    | joinIndexed source rows => exact hidle _ h rfl rfl rfl rfl
    | detach source => exact hidle _ h rfl rfl rfl rfl
    | markCorrupt node => exact hidle _ h rfl rfl rfl rfl
    | setLazyWiring lazy => exact h.elim
    | announce g => exact h.elim
    | seek entry => exact Dataset.steady_seek hd entry
    | next => exact Dataset.steady_seek hd s.dataset.nextEntry
    | load id => exact Dataset.steady_load hd id
  · exact Dataset.steady_of_reaches hd hreach
  · rw [hr]
    exact ⟨hd.eager, hd.idle, hd.wired, hd.row, hd.faithful⟩

theorem follows_of_allows (hs : s.WellFormed) (hd : s.dataset.Steady) (h : s.Allows call)
    (hcount : s.dataset.registry.generation.number.toNat + s.switches [call] < 2 ^ 64) {i : Nat} (hi : s.Follows i) :
    (s.apply call).state.Follows i := by
  refine follows_apply hs h.silent hcount ?_ ?_ hi
  · rintro ⟨f, rfl⟩
    by_cases hfiles : s.dataset.files = []
    · exact Or.inr (h.2 hfiles i)
    · exact Or.inl hfiles
  · intro hcall
    exact Or.inl (hd.idle (h.steers hcall))

/-- What a run keeps: the session is well formed, its dataset steady, and every binding tracks it. -/
theorem keeps_after {calls : List SessionCall} (hs : s.WellFormed) (hd : s.dataset.Steady) (hi : ∀ i, s.Follows i)
    (hcalls : s.Obeys calls) (hcount : s.dataset.registry.generation.number.toNat + s.switches calls < 2 ^ 64) :
    (s.after calls).dataset.Steady ∧ ∀ i, (s.after calls).Follows i := by
  induction calls generalizing s with
  | nil => exact ⟨hd, hi⟩
  | cons call calls ih =>
      have hgen := generation_apply hcalls.1.silent hcount
      have hone : s.dataset.registry.generation.number.toNat + s.switches [call] < 2 ^ 64 := by
        rw [switches_cons] at hcount
        omega
      rw [← hgen] at hcount
      exact ih (wellFormed_apply hs call) (steady_apply hd hcalls.1)
        (fun i => follows_of_allows hs hd hcalls.1 hone (hi i)) hcalls.2 hcount

/-- **Cached reading is cacheless reading.**  Take any run of a client that sets the dataset up before it first seeks, and
adds the first file before it first sets a binding up.  Whenever the address of a live binding is asked for, the answer is
the one that follows from the path, the requested type, the current file, the joins and the current row. -/
theorem address_eq_cacheless {identity : RegistryId} {types : Catalog} {settings : Settings} {calls : List SessionCall}
    {i : Nat} {b : Binding} (hcalls : (start identity types settings).Obeys calls)
    (hcount : (start identity types settings).switches calls < 2 ^ 64)
    (hb : ((start identity types settings).after calls).bindings[i]? = some b)
    (hserves : ((start identity types settings).after calls).dataset.registry.serves b.registration = true) :
    (((start identity types settings).after calls).apply (.use i .address)).answer =
      .address (((start identity types settings).after calls).dataset.cachelessAddress? b.path b.requested) := by
  have hempty : (start identity types settings).dataset.Steady := Dataset.steady_of_unloaded rfl rfl rfl rfl
  have hnone : ∀ i, (start identity types settings).Follows i := fun i b hb => by cases hb
  have hzero : (start identity types settings).dataset.registry.generation.number.toNat = 0 := rfl
  obtain ⟨hd, hi⟩ := keeps_after (wellFormed_start identity types settings) hempty hnone hcalls (by omega)
  have hfresh := Binding.address_eq_freshAddress hserves (hi i b hb hserves)
  rw [← Dataset.fst_freshAddress hd, ← hfresh]
  simp only [apply, hb]
  rfl

/-- A binding that was set up in one file finds its object in the next, where the node has another position. -/
theorem address_acrossRuns :
    let s := (start ⟨0⟩ Catalog.builtins ⟨[], 0⟩).after (bothRuns ++ acrossRuns)
    ∃ b, s.bindings[0]? = some b ∧ s.dataset.registry.serves b.registration = true ∧
      (s.apply (.use 0 .address)).answer = .address (s.dataset.cachelessAddress? b.path b.requested) ∧
      s.dataset.cachelessAddress? "hit" none = some ⟨0x1008⟩ := by
  intro s
  obtain ⟨b, hb, hserves⟩ := live_acrossRuns
  have hcount : (start ⟨0⟩ Catalog.builtins ⟨[], 0⟩).switches (bothRuns ++ acrossRuns) < 2 ^ 64 :=
    Nat.lt_of_le_of_lt (switches_le_length _ _) (by decide)
  have hcalls : (start ⟨0⟩ Catalog.builtins ⟨[], 0⟩).Obeys (bothRuns ++ acrossRuns) := by
    refine ⟨⟨rfl, ?_⟩, ⟨rfl, ?_⟩, trivial, trivial, trivial, trivial, trivial⟩
    · intro _ i b hb
      cases hb
    · intro hfiles
      cases hfiles
  have hvalue : s.dataset.cachelessAddress? "hit" none = some ⟨0x1008⟩ := by decide +kernel
  exact ⟨b, hb, hserves, address_eq_cacheless hcalls hcount hb hserves, hvalue⟩

/-- A binding that was set up while there was no file finds nothing on the first row, where its object has an address. -/
theorem address_firstFile :
    let s := (start ⟨0⟩ Catalog.builtins ⟨[], 0⟩).after
      [.bind "hit" none, .use 0 .setup, .dataset (.pushFile firstRun), .dataset .next]
    s.bindings.map (fun b => s.dataset.registry.serves b.registration) = [true] ∧
      (s.apply (.use 0 .address)).answer = .address none ∧
      s.dataset.cachelessAddress? "hit" none = some ⟨0x1000⟩ := by
  intro s
  exact ⟨by decide +kernel, answer_address (by decide +kernel), by decide +kernel⟩

end Session

end TypedColumns
