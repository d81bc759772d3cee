import Mathlib.Data.List.Basic
import TypedColumns.Proofs.Misses

/-!
# The order of loading

A call on a binding loads the nodes that its own node needs: without a director itself alone, with one the node that it
lies in alone, or else the node that counts it and then itself.  Loading stops at the first that the row does not have,
and what is there already is not loaded again.  So what is loaded on a row tells which calls were made there, and it is
nothing else.

* `eraseDups_concat`, `eraseDups_of_nodup`, `eraseDups_eraseDups_append` -- lists with each element where it comes
  first.
* `Dataset.names`, `Dataset.available` -- the names of nodes, and those nodes before the first that the row does not
  have.
* `Dataset.loads_load`, `Dataset.loads_loadAll` -- what loading adds to the names of the loaded nodes.
* `Plan.state_read_of_isWired` -- reading a node that is wired loads what its shape needs.
* `Binding.IsDated`, `Binding.Fits` -- a plan is of the generation of its set-up, and of no other shape than the dataset
  gives.  All calls keep the one, and the other as long as nothing is configured anew.
* `Dataset.Poised`, `Session.Poised`, `Session.poised_after` -- what a run keeps of a dataset that is set up before it
  first moves.
* `Binding.IsReadable`, `Binding.demand` -- a binding that is resolved and on a row, and what a call on it loads
  (`IsReadable.state_call`).
* `Session.loads_serveAll` -- what a row of calls loads.
-/

namespace TypedColumns

/-! ### Lists with each element once -/

section Lists

variable {α : Type} [BEq α] [LawfulBEq α]

theorem eraseDups_concat (l : List α) (a : α) :
    (l ++ [a]).eraseDups = if l.contains a then l.eraseDups else l.eraseDups ++ [a] := by
  have hnew : [a].removeAll l = if l.contains a then [] else [a] := by
    rw [List.removeAll, List.filter_singleton]
    show (bif !List.elem a l then [a] else []) = if List.elem a l then [] else [a]
    cases List.elem a l <;> rfl
  rw [List.eraseDups_append, hnew]
  split
  · exact List.append_nil _
  · rfl

theorem nodup_eraseDups (l : List α) : l.eraseDups.Nodup := by
  induction l using List.reverseRecOn with
  | nil => exact List.nodup_nil
  | append_singleton l a ih =>
      rw [eraseDups_concat]
      split
      · exact ih
      · rename_i hmem
        refine List.nodup_append.2 ⟨ih, List.pairwise_singleton _ _, ?_⟩
        intro b hb c hc
        obtain rfl := List.mem_singleton.1 hc
        rintro rfl
        exact hmem (List.contains_iff_mem.2 (List.mem_eraseDups.1 hb))

theorem eraseDups_of_nodup {l : List α} (h : l.Nodup) : l.eraseDups = l := by
  induction l using List.reverseRecOn with
  | nil => rfl
  | append_singleton l a ih =>
      obtain ⟨hl, -, hdisjoint⟩ := List.nodup_append.1 h
      have hmem : ¬ l.contains a = true := fun ha => hdisjoint a (List.contains_iff_mem.1 ha) a List.mem_cons_self rfl
      rw [eraseDups_concat, if_neg hmem, ih hl]

theorem eraseDups_eraseDups_append (l m : List α) : (l.eraseDups ++ m).eraseDups = (l ++ m).eraseDups := by
  induction m using List.reverseRecOn with
  | nil =>
      rw [List.append_nil, List.append_nil]
      exact eraseDups_of_nodup (nodup_eraseDups l)
  | append_singleton m a ih =>
      have hmem : (l.eraseDups ++ m).contains a = (l ++ m).contains a := by
        rw [Bool.eq_iff_iff, List.contains_iff_mem, List.contains_iff_mem, List.mem_append, List.mem_append, List.mem_eraseDups]
      rw [← List.append_assoc, ← List.append_assoc, eraseDups_concat, eraseDups_concat, hmem, ih]

end Lists

/-! ### Loads by name -/

namespace Dataset

variable {d e : Dataset}

/-- Whether the row has an object for a node, so that it can be loaded. -/
def has (d : Dataset) (id : NodeId) : Bool := (d.rowObject? id).isSome

/-- The names of some nodes of the current file. -/
def names (d : Dataset) (ids : List NodeId) : List String := ids.filterMap fun id => (d.node? id).map Node.name

theorem Reloaded.node? (h : Reloaded d e) (id : NodeId) : e.node? id = d.node? id := by
  rw [h.eq]
  rfl

theorem Reloaded.has (h : Reloaded d e) : e.has = d.has := by
  funext id
  rw [Dataset.has, h.rowObject?, Dataset.has]

theorem Reloaded.names (h : Reloaded d e) (ids : List NodeId) : e.names ids = d.names ids := by
  simp only [Dataset.names, h.node?]

theorem names_append (d : Dataset) (ids more : List NodeId) : d.names (ids ++ more) = d.names ids ++ d.names more :=
  List.filterMap_append

theorem exists_node_of_has {id : NodeId} (h : d.has id = true) : ∃ node, d.node? id = some node := by
  obtain ⟨a, ha⟩ := Option.isSome_iff_exists.1 h
  rw [rowObject?] at ha
  split at ha
  · cases ha
  · rename_i node hnode
    exact ⟨node, hnode⟩

/-- A load adds the name of its node, if the row has that and it is not loaded yet. -/
theorem loads_load (hd : d.Consistent) (hfaithful : d.Faithful) (id : NodeId) :
    (d.load id).2.loads = (d.loads ++ d.names (if d.has id then [id] else [])).eraseDups := by
  have hnodup := (consistent_load hd id).nodup_loads
  rcases load_cases d id with ⟨a, ha, hload⟩ | ⟨-, hnone, err, hload⟩ | ⟨node, a, -, hnode, ha, hload⟩
  · have hrow := hfaithful.rowObject?_of_object? ha
    have hhas : d.has id = true := Option.isSome_of_eq_some hrow
    obtain ⟨node, hnode⟩ := exists_node_of_has hhas
    have hmem : node.name ∈ d.loads := (hd.mem_loads_iff _).2 ⟨id, node, hnode, rfl, Option.isSome_of_eq_some ha⟩
    have hnames : d.names [id] = [node.name] := by rw [names, List.filterMap_cons, hnode]; rfl
    rw [hload, if_pos hhas, hnames, eraseDups_concat, if_pos (List.contains_iff_mem.2 hmem),
      eraseDups_of_nodup hd.nodup_loads]
  · have hhas : ¬ d.has id = true := by rw [has, hnone]; exact Bool.false_ne_true
    rw [hload, if_neg hhas]
    show d.loads = (d.loads ++ []).eraseDups
    rw [List.append_nil, eraseDups_of_nodup hd.nodup_loads]
  · have hhas : d.has id = true := Option.isSome_of_eq_some ha
    have hnames : d.names [id] = [node.name] := by rw [names, List.filterMap_cons, hnode]; rfl
    have hloads : (d.load id).2.loads = d.loads ++ [node.name] := by
      rw [hload]
      exact List.map_append
    rw [if_pos hhas, hnames, ← hloads, eraseDups_of_nodup hnodup]

/-- The nodes that are loaded of some that are to be loaded one after the other: those before the first that the row does
not have. -/
def available (d : Dataset) (ids : List NodeId) : List NodeId := ids.takeWhile d.has

theorem loads_loadAll (hd : d.Consistent) (hfaithful : d.Faithful) (ids : List NodeId) :
    (cursor.loadAll ids d).2.loads = (d.loads ++ d.names (d.available ids)).eraseDups := by
  induction ids generalizing d with
  | nil =>
      show d.loads = (d.loads ++ []).eraseDups
      rw [List.append_nil, eraseDups_of_nodup hd.nodup_loads]
  | cons id ids ih =>
      have hreload := reloaded_load d id
      have hone := loads_load hd hfaithful id
      rw [RowCursor.loadAll, available, List.takeWhile_cons]
      rcases hfaithful.load id with ⟨a, ha, hok, -⟩ | ⟨hnone, err, hload⟩
      · have hhas : d.has id = true := Option.isSome_of_eq_some ha
        have hstep : cursor.load d id = (.ok (), (d.load id).2) := Prod.ext hok rfl
        rw [hhas, if_pos rfl] at hone
        rw [hstep, hhas, if_pos rfl]
        show (cursor.loadAll ids (d.load id).2).2.loads = (d.loads ++ d.names ([id] ++ d.available ids)).eraseDups
        rw [ih (consistent_load hd id) (faithful_load hfaithful id), hone, eraseDups_eraseDups_append, available,
          hreload.has, hreload.names, names_append, ← available, List.append_assoc]
      · have hhas : d.has id = false := by rw [has, hnone]; rfl
        have hstep : cursor.load d id = (.error err, d) := hload
        rw [hstep, hhas, if_neg Bool.false_ne_true]
        show d.loads = (d.loads ++ []).eraseDups
        rw [List.append_nil, eraseDups_of_nodup hd.nodup_loads]

theorem Faithful.load_eq_ok_iff (h : d.Faithful) (id : NodeId) : (d.load id).1 = .ok () ↔ d.has id = true := by
  rw [has]
  rcases h.load id with ⟨a, ha, hok, -⟩ | ⟨hnone, err, hload⟩
  · rw [ha]
    exact ⟨fun _ => rfl, fun _ => hok⟩
  · rw [hnone, hload]
    simp

theorem Faithful.supplies_iff (h : d.Faithful) (id : NodeId) : d.Supplies id ↔ d.has id = true := by
  rw [← h.load_eq_ok_iff, fst_load, Supplies]
  cases d.supply id <;> simp [Except.map]

theorem isSome_object?_loadAll_iff (hfaithful : d.Faithful) (ids : List NodeId) (j : NodeId) :
    ((cursor.loadAll ids d).2.object? j).isSome = true ↔ (d.object? j).isSome = true ∨ j ∈ d.available ids := by
  induction ids generalizing d with
  | nil => simp only [RowCursor.loadAll, available, List.takeWhile_nil, List.not_mem_nil, or_false]
  | cons id ids ih =>
      have hreload := reloaded_load d id
      rw [RowCursor.loadAll, available, List.takeWhile_cons]
      cases hhas : d.has id with
      | true =>
          have hstep : cursor.load d id = (.ok (), (d.load id).2) := Prod.ext ((hfaithful.load_eq_ok_iff id).2 hhas) rfl
          rw [hstep, if_pos rfl]
          show ((cursor.loadAll ids (d.load id).2).2.object? j).isSome = true ↔ _
          rw [ih (faithful_load hfaithful id), isSome_object?_load, hfaithful.supplies_iff, hhas, available, hreload.has,
            List.mem_cons, ← available, or_assoc]
          simp only [and_true]
      | false =>
          have hstep : ∃ err, cursor.load d id = (.error err, d) := by
            rcases hfaithful.load id with ⟨a, ha, -⟩ | ⟨-, hfails⟩
            · rw [has, ha] at hhas
              cases hhas
            · exact hfails
          obtain ⟨err, hstep⟩ := hstep
          rw [hstep]
          simp only [Bool.false_eq_true, if_false, List.not_mem_nil, or_false]

end Dataset

/-! ### Reading a node that is wired -/

theorem Dataset.state_shapeRead_of_needs {d : Dataset} {shape : Shape} {t : Target} {ids : List NodeId}
    (h : shape.needs t = .ok ids) : (shape.read cursor t d).2 = (cursor.loadAll ids d).2 := by
  simp only [Shape.read, h]
  cases hall : cursor.loadAll ids d with
  | mk r e => cases r <;> rfl

namespace Plan

variable {p : Plan} {d : Dataset}

/-- Reading decides no shape but the one that the dataset gives. -/
theorem Fits.read (h : p.Fits d) : (p.read Dataset.cursor d).plan.Fits d := by
  intro shape hshape
  rw [shapeIn, target_read]
  by_cases hgen : p.generation = d.registry.generation
  · rcases shape_planRead hgen hshape with hold | ⟨hnew, -⟩
    · exact h shape hold
    · exact hnew
  · rw [(read_of_generation_ne hgen).2] at hshape
    exact h shape hshape

/-- Reading a node that is wired loads what its shape needs. -/
theorem state_read_of_isWired (h : p.Fits d) (hgen : p.generation = d.registry.generation)
    (hw : d.isWired p.target.id = true) :
    (p.read Dataset.cursor d).state =
      (Dataset.cursor.loadAll (p.target.needed (d.hasDirector p.target.node.source)) d).2 := by
  have hneeds : (p.shapeIn d).needs p.target = _ := p.target.needs_shape _
  cases hshape : p.shape with
  | some shape =>
      rw [read_of_shape (c := Dataset.cursor) hgen hshape, h shape hshape]
      exact Dataset.state_shapeRead_of_needs hneeds
  | none =>
      rw [read_of_wired (c := Dataset.cursor) hgen hshape hw]
      exact Dataset.state_shapeRead_of_needs hneeds

end Plan

/-! ### What a binding would read by -/

namespace Binding

variable {b : Binding} {d e : Dataset} {m : Match}

/-- The plan of a binding is of the generation of the set-up that made it. -/
def IsDated (b : Binding) : Prop := ∀ generation m, b.attempt = some ⟨generation, .ok m⟩ → m.plan.generation = generation

/-- No shape was decided for a binding but the one that the dataset gives. -/
def Fits (b : Binding) (d : Dataset) : Prop := ∀ p, b.plan? = some p → p.Fits d

theorem isDated_setup (b : Binding) (c : RowCursor σ) (s : σ) : (b.setup c s).1.IsDated := by
  intro generation m hm
  obtain ⟨rfl, houtcome⟩ := Attempt.mk.inj (Option.some.inj hm)
  obtain ⟨schema, requested, node, -, -, -, hplan, -⟩ := found_of_resolve houtcome
  rw [hplan]
  rfl

theorem IsDated.serve (h : b.IsDated) (c : RowCursor σ) (s : σ) (call : BindingCall) :
    (b.serve c s call).binding.IsDated := by
  cases hskips : call.skips b c s with
  | true =>
      rw [serve_of_skips hskips]
      exact h
  | false =>
      cases hm : b.match? with
      | none =>
          rw [serve_of_match?_eq_none hm]
          exact h
      | some m =>
          rw [serve_of_match? hskips hm]
          obtain ⟨generation, ha⟩ := attempt_of_match? hm
          intro generation' n hn
          rw [attempt_record ha] at hn
          cases hn
          rw [plan_note]
          exact (Plan.generation_read m.plan c s).trans (h generation m ha)

theorem IsDated.refresh (h : b.IsDated) (d : Dataset) : (b.refresh Dataset.cursor d).1.IsDated := by
  rcases refresh_cases b Dataset.cursor d with hb | hb
  · rw [hb]
    exact h
  · rw [hb]
    exact isDated_setup b Dataset.cursor d

theorem IsDated.call (h : b.IsDated) (d : Dataset) (call : BindingCall) : (b.call d call).binding.IsDated := by
  rw [call_eq_callOn]
  rcases binding_callOn b Dataset.cursor d call with hb | hb | hb
  · rw [hb]
    exact h
  · rw [hb]
    exact isDated_setup b Dataset.cursor d
  · rw [hb]
    exact (h.refresh d).serve Dataset.cursor d call

theorem fits_setup (b : Binding) (d : Dataset) : (b.setup Dataset.cursor d).1.Fits d := by
  intro p hp shape hshape
  obtain ⟨m, hm, rfl⟩ := resolve_of_setup hp
  rw [shape_of_resolve hm] at hshape
  cases hshape

theorem Fits.refresh (h : b.Fits d) : (b.refresh Dataset.cursor d).1.Fits d := by
  rcases refresh_cases b Dataset.cursor d with hb | hb
  · rw [hb]
    exact h
  · rw [hb]
    exact fits_setup b d

theorem plan?_serve (b : Binding) (c : RowCursor σ) (s : σ) (call : BindingCall) :
    (b.serve c s call).binding.plan? = b.plan? ∨
      (b.serve c s call).binding.plan? = b.plan?.map (fun p => (p.read c s).plan) := by
  cases hskips : call.skips b c s with
  | true => exact Or.inl (by rw [serve_of_skips hskips])
  | false =>
      cases hm : b.match? with
      | none => exact Or.inl (by rw [serve_of_match?_eq_none hm]; rfl)
      | some m =>
          refine Or.inr ?_
          rw [serve_of_match? hskips hm, plan?, match?_record hm, plan?, hm]
          exact congrArg some (plan_note (m.advance c s) _)

theorem Fits.serve (h : b.Fits d) (call : BindingCall) : (b.serve Dataset.cursor d call).binding.Fits d := by
  intro p hp
  rcases plan?_serve b Dataset.cursor d call with hsame | hread
  · exact h p (hsame.symm.trans hp)
  · rw [hread] at hp
    obtain ⟨before, hbefore, rfl⟩ := Option.map_eq_some_iff.1 hp
    exact (h before hbefore).read

theorem Fits.call (h : b.Fits d) (call : BindingCall) : (b.call d call).binding.Fits d := by
  rw [call_eq_callOn]
  rcases binding_callOn b Dataset.cursor d call with hb | hb | hb
  · rw [hb]
    exact h
  · rw [hb]
    exact fits_setup b d
  · rw [hb]
    exact h.refresh.serve call

theorem Fits.congr (h : b.Fits d) (hd : ∀ source, e.hasDirector source = d.hasDirector source) : b.Fits e :=
  fun p hp => (h p hp).congr hd

end Binding

/-! ### Datasets that are on a row of a file -/

/-- Whether a call changes what is fixed before a dataset first moves: joins, directors, corrupt nodes and wiring. -/
def SessionCall.configures : SessionCall → Bool
  | .dataset (.joinAligned _) | .dataset (.joinIndexed _ _) | .dataset (.detach _) | .dataset (.setLazyWiring _)
  | .dataset (.markCorrupt _) => true
  | _ => false

namespace Dataset

variable {d e : Dataset}

/-- A steady and consistent dataset, which has a file wherever it has a row. -/
structure Poised (d : Dataset) : Prop where
  steady : d.Steady
  consistent : d.Consistent
  inFile : ∀ entry row missed, d.position = .onRow entry row missed → d.file?.isSome = true

theorem poised_of_reaches (h : d.Poised) (hreach : cursor.Reaches d e) : e.Poised := by
  have hreload := reloaded_of_reaches hreach
  refine ⟨steady_of_reaches h.steady hreach, consistent_of_reaches h.consistent hreach, ?_⟩
  rw [hreload.eq]
  exact h.inFile

theorem poised_withRegistry (h : d.Poised) (r : Registry) : Poised { d with registry := r } :=
  ⟨⟨h.steady.eager, h.steady.idle, h.steady.wired, h.steady.row, h.steady.faithful⟩,
    ⟨h.consistent.known, h.consistent.wired, h.consistent.named, h.consistent.once, h.consistent.onRow⟩, h.inFile⟩

theorem poised_seek (h : d.Poised) (entry : UInt64) : (d.seek entry).1.Poised := by
  refine ⟨steady_seek h.steady entry, consistent_seek h.consistent entry, ?_⟩
  have hfile : ∀ {file row}, locateRow d.files 0 entry.toNat = some (file, row) → d.files[file]?.isSome = true := by
    intro file row hlocate
    obtain ⟨i, f, rfl, hf, -, -⟩ := locateRow_eq_some hlocate
    rw [Nat.zero_add, hf]
    rfl
  intro entry' row' missed' hposition
  rcases seek_cases d entry with hseek | ⟨row, hlocate, hseek⟩ | ⟨file, row, hlocate, -, hseek⟩
  · rw [hseek] at hposition
    cases hposition
  · rw [hseek, wire_eq]
    exact hfile hlocate
  · rw [hseek, wire_eq]
    exact hfile hlocate

theorem file?_pushFile (h : d.file?.isSome = true) (f : File) : (d.pushFile f).1.file? = d.file? := by
  obtain ⟨g, hg⟩ := Option.isSome_iff_exists.1 h
  have hlt := (List.getElem?_eq_some_iff.1 hg).1
  exact List.getElem?_append_left hlt

/-- A dataset that has no file yet has no node and nothing wired. -/
theorem Poised.wired_eq_nil (h : d.Poised) (hfile : d.file? = none) : d.wired = [] := by
  refine List.eq_nil_iff_forall_not_mem.2 fun id hid => ?_
  have hknown := h.consistent.known id (List.contains_iff_mem.2 hid)
  rw [node?, schema?, hfile] at hknown
  cases hknown

theorem steady_pushFile (h : d.Poised) (f : File) : (d.pushFile f).1.Steady := by
  cases hfile : d.file? with
  | none =>
      have hwired := h.wired_eq_nil hfile
      have hoff : ∀ entry row missed, d.position ≠ .onRow entry row missed := by
        intro entry row missed hposition
        have hsome := h.inFile entry row missed hposition
        rw [hfile] at hsome
        cases hsome
      refine ⟨h.steady.eager, fun _ => hwired, Or.inl hwired, ?_, ?_⟩
      · intro entry row missed hposition
        exact absurd hposition (hoff entry row missed)
      · intro l hl
        have hobject := h.steady.faithful l hl
        obtain ⟨entry, row, missed, hposition⟩ := onRow_of_rowObject? hobject
        exact absurd hposition (hoff entry row missed)
  | some g =>
      have hsame : (d.pushFile f).1.file? = d.file? := file?_pushFile (Option.isSome_of_eq_some hfile) f
      have hnode : ∀ id, (d.pushFile f).1.node? id = d.node? id := by
        intro id
        rw [node?, schema?, hsame]
        rfl
      have hall : d.AllWired → (d.pushFile f).1.AllWired := by
        intro hall id node hid
        rw [hnode] at hid
        exact hall id node hid
      have hrow : ∀ id, (d.pushFile f).1.rowObject? id = d.rowObject? id := by
        intro id
        have hsource : (d.pushFile f).1.sourceRow? = d.sourceRow? := by
          funext source
          rw [sourceRow?, hsame]
          rfl
        rw [rowObject?, hnode, hsource]
        rfl
      refine ⟨h.steady.eager, h.steady.idle, h.steady.wired.imp_right hall, ?_, ?_⟩
      · intro entry row missed hposition
        have hrows := h.steady.row entry row missed hposition
        exact ⟨hall hrows.1, hrows.2⟩
      · intro l hl
        rw [hrow]
        exact h.steady.faithful l hl

theorem poised_pushFile (h : d.Poised) (f : File) : (d.pushFile f).1.Poised := by
  refine ⟨steady_pushFile h f, consistent_pushFile h.consistent f, ?_⟩
  intro entry row missed hposition
  have hfile := h.inFile entry row missed hposition
  rw [file?_pushFile hfile]
  exact hfile

theorem poised_call (h : d.Poised) {call : DatasetCall} (hcall : (SessionCall.dataset call).configures = false) :
    (d.call call).state.Poised := by
  cases call with
  | pushFile f => exact poised_pushFile h f
  | seek entry => exact poised_seek h entry
  | next => exact poised_seek h d.nextEntry
  | load id => exact poised_of_reaches h (.load id .refl)
  | announce g => exact poised_withRegistry h (d.registry.announce g)
  | _ => cases hcall

theorem hasDirector_call {call : DatasetCall} (hcall : (SessionCall.dataset call).configures = false)
    (source : SourceId) : (d.call call).state.hasDirector source = d.hasDirector source := by
  cases call with
  | pushFile | announce => rfl
  | seek entry => exact hasDirector_seek d entry source
  | next => exact hasDirector_seek d d.nextEntry source
  | load id => exact (reloaded_load d id).hasDirector source
  | _ => cases hcall

end Dataset

/-! ### Runs -/

namespace Session

variable {s : Session} {call : SessionCall} {calls : List SessionCall}

theorem isDated_after (h : ∀ b ∈ s.bindings, b.IsDated) (calls : List SessionCall) :
    ∀ b ∈ (s.after calls).bindings, b.IsDated := by
  induction calls generalizing s with
  | nil => exact h
  | cons call calls ih =>
      refine ih fun b hb => ?_
      obtain ⟨i, hi⟩ := List.getElem?_of_mem hb
      rcases binding_apply hi with hold | ⟨a, use, -, ha, rfl⟩ | ⟨a, -, ha, rfl⟩ | ⟨path, requested, -, rfl⟩
      · exact h b (List.mem_of_getElem? hold)
      · exact (h a (List.mem_of_getElem? ha)).call s.dataset use
      · exact h a (List.mem_of_getElem? ha)
      · intro generation m hm
        cases hm

/-- The dataset is poised, and no binding has another shape than the dataset gives. -/
structure Poised (s : Session) : Prop where
  dataset : s.dataset.Poised
  fits : ∀ b ∈ s.bindings, b.Fits s.dataset

theorem poised_apply (h : s.Poised) (hcall : call.configures = false) : (s.apply call).state.Poised := by
  have hdirector : ∀ source, (s.apply call).state.dataset.hasDirector source = s.dataset.hasDirector source := by
    rcases dataset_apply s call with ⟨c, rfl, hd⟩ | hreach | ⟨r, -, hd⟩
    · rw [hd]
      exact Dataset.hasDirector_call hcall
    · exact (Dataset.reloaded_of_reaches hreach).hasDirector
    · rw [hd]
      exact fun _ => rfl
  refine ⟨?_, fun b hb => ?_⟩
  · rcases dataset_apply s call with ⟨c, rfl, hd⟩ | hreach | ⟨r, -, hd⟩
    · rw [hd]
      exact Dataset.poised_call h.dataset hcall
    · exact Dataset.poised_of_reaches h.dataset hreach
    · rw [hd]
      exact Dataset.poised_withRegistry h.dataset r
  · obtain ⟨i, hi⟩ := List.getElem?_of_mem hb
    rcases binding_apply hi with hold | ⟨a, use, -, ha, rfl⟩ | ⟨a, -, ha, rfl⟩ | ⟨path, requested, -, rfl⟩
    · exact (h.fits b (List.mem_of_getElem? hold)).congr hdirector
    · exact ((h.fits a (List.mem_of_getElem? ha)).call use).congr hdirector
    · exact Binding.Fits.congr (b := a) (h.fits a (List.mem_of_getElem? ha)) hdirector
    · intro p hp
      cases hp

theorem poised_after (h : s.Poised) (hcalls : ∀ call ∈ calls, call.configures = false) : (s.after calls).Poised := by
  induction calls generalizing s with
  | nil => exact h
  | cons call calls ih =>
      exact ih (poised_apply h (hcalls call List.mem_cons_self)) fun c hc => hcalls c (List.mem_cons_of_mem call hc)

/-- Before it first moves a dataset is poised, once it wires eagerly. -/
theorem Unsought.poised (h : s.Unsought) (hconsistent : s.dataset.Consistent) (heager : s.dataset.lazyWiring = false) :
    s.Poised := by
  refine ⟨⟨?_, hconsistent, ?_⟩, ?_⟩
  · exact Dataset.steady_of_unloaded heager h.dataset.position h.dataset.wired h.dataset.loaded
  · intro entry row missed hposition
    rw [h.dataset.position] at hposition
    cases hposition
  · intro b hb p hp shape hshape
    rw [h.bindings b hb p hp] at hshape
    cases hshape

end Session

theorem Dataset.Reloaded.refresh {d e : Dataset} (h : d.Reloaded e) (b : Binding) :
    b.refresh cursor e = b.refresh cursor d := by
  rw [h.eq]
  rfl

theorem Dataset.Reloaded.available {d e : Dataset} (h : d.Reloaded e) (ids : List NodeId) :
    e.available ids = d.available ids := by
  rw [Dataset.available, h.has, Dataset.available]

/-! ### What a call needs -/

namespace Binding

variable {b : Binding} {d e : Dataset} {m : Match} {call : BindingCall}

/-- A binding is resolved in the current file, looking again where that is due, and its source is on a row. -/
def IsReadable (b : Binding) (d : Dataset) : Prop :=
  ∃ m, (b.refresh Dataset.cursor d).1.IsResolved d m ∧ (d.activeRow m.source).isSome = true

/-- The node that a binding reads. -/
def target? (b : Binding) (d : Dataset) : Option Target := (b.refresh Dataset.cursor d).1.plan?.map Plan.target

/-- The nodes that a call on a binding loads, in order: those that its node needs, up to the first that the row does not
have. -/
def demand (b : Binding) (d : Dataset) : List NodeId :=
  match b.target? d with
  | none => []
  | some t => d.available (t.needed (d.hasDirector t.node.source))

theorem demand_of_isResolved (h : (b.refresh Dataset.cursor d).1.IsResolved d m) :
    b.demand d = d.available (m.plan.target.needed (d.hasDirector m.plan.target.node.source)) := by
  have htarget : b.target? d = some m.plan.target := by
    rw [target?, plan?, h.match?]
    rfl
  rw [demand, htarget]

theorem IsResolved.reload (h : b.IsResolved d m) (hreload : d.Reloaded e) : b.IsResolved e m := by
  refine ⟨?_, h.match?, ?_, h.source⟩
  · exact (isFresh_congr rfl (congrArg Registry.generation hreload.registry)).trans h.isFresh
  · rw [hreload.node?]
    exact h.node

theorem IsReadable.reload (h : b.IsReadable d) (hreload : d.Reloaded e) : b.IsReadable e := by
  obtain ⟨m, hm, hactive⟩ := h
  refine ⟨m, ?_, ?_⟩
  · rw [hreload.refresh]
    exact hm.reload hreload
  · rw [hreload.eq]
    exact hactive

theorem demand_reload (hreload : d.Reloaded e) (b : Binding) : b.demand e = b.demand d := by
  rw [demand, target?, hreload.refresh, ← target?, demand]
  cases b.target? d with
  | none => rfl
  | some t =>
      show e.available _ = d.available _
      rw [hreload.available, hreload.hasDirector]

theorem IsReadable.call_eq (h : b.IsReadable d) (hreads : call.reads = true) :
    (b.call d call).binding = ((b.refresh Dataset.cursor d).1.serve Dataset.cursor d call).binding ∧
      (b.call d call).state = ((b.refresh Dataset.cursor d).1.serve Dataset.cursor d call).state := by
  obtain ⟨m, -, hactive⟩ := h
  have hearly : call.isEarly Dataset.cursor d = false := by
    obtain ⟨i, hi⟩ := Option.isSome_iff_exists.1 hactive
    obtain ⟨entry, row, missed, hposition⟩ := Dataset.onRow_of_activeRow hi
    cases call with
    | get type =>
        show (d.position.status == .notLoaded) = false
        rw [hposition]
        cases missed <;> rfl
    | _ => rfl
  rw [call_eq_callOn, callOn_eq b Dataset.cursor d hreads, turn_of_isEarly_eq_false hearly]
  exact ⟨rfl, rfl⟩

/-- A binding of a source on a row skips nothing. -/
theorem IsResolved.skips_eq_false (h : b.IsResolved d m) (hactive : (d.activeRow m.source).isSome = true)
    (call : BindingCall) : call.skips b Dataset.cursor d = false := by
  have hmisses : b.misses Dataset.cursor d = false := by
    rw [misses, h.match?]
    show (_ && (d.activeRow m.source).isNone) = false
    rw [Option.isNone_eq_false_iff.2 hactive, Bool.and_false]
  cases call with
  | setup | read => rfl
  | address | get type => exact hmisses

/-- A call leaves a binding resolved, with the same node to read. -/
theorem IsResolved.serve (h : b.IsResolved d m) (call : BindingCall) :
    let t := b.serve Dataset.cursor d call
    ∃ n, t.binding.IsResolved t.state n ∧ n.plan.target = m.plan.target ∧ n.source = m.source := by
  intro t
  have hreload : d.Reloaded t.state := Dataset.reloaded_of_reaches (reaches_serve b Dataset.cursor d call)
  have hfresh : t.binding.isFresh Dataset.cursor t.state = true :=
    (isFresh_congr (outline?_serve b Dataset.cursor d call) (congrArg Registry.generation hreload.registry)).trans h.isFresh
  have hnode : t.state.node? m.plan.target.id = some m.plan.target.node := by
    rw [hreload.node?]
    exact h.node
  cases hskips : call.skips b Dataset.cursor d with
  | true =>
      have hmatch : t.binding.match? = some m := by
        show (b.serve Dataset.cursor d call).binding.match? = some m
        rw [serve_of_skips hskips]
        exact h.match?
      exact ⟨m, ⟨hfresh, hmatch, hnode, h.source⟩, rfl, rfl⟩
  | false =>
      have hmatch : t.binding.match? = some ((m.advance Dataset.cursor d).note (call.outcome m Dataset.cursor d)) := by
        show (b.serve Dataset.cursor d call).binding.match? = _
        rw [serve_of_match? hskips h.match?]
        exact match?_record h.match? _ _
      have htarget : ((m.advance Dataset.cursor d).note (call.outcome m Dataset.cursor d)).plan.target = m.plan.target := by
        rw [plan_note]
        exact Plan.target_read m.plan Dataset.cursor d
      have hsource : ((m.advance Dataset.cursor d).note (call.outcome m Dataset.cursor d)).source = m.source :=
        congrArg Finding.source (finding_note (m.advance Dataset.cursor d) (call.outcome m Dataset.cursor d))
      refine ⟨_, ⟨hfresh, hmatch, ?_, ?_⟩, htarget, hsource⟩
      · rw [htarget]
        exact hnode
      · rw [htarget, hsource]
        exact h.source

/-- A call leaves a binding readable, and the same call needs the same nodes again. -/
theorem isReadable_call (h : b.IsReadable d) (hreads : call.reads = true) :
    (b.call d call).binding.IsReadable (b.call d call).state ∧
      (b.call d call).binding.demand (b.call d call).state = b.demand d := by
  have hreload := Dataset.reloaded_of_reaches (reaches_call b d call)
  obtain ⟨hbinding, hstate⟩ := h.call_eq hreads
  obtain ⟨m, hm, hactive⟩ := h
  obtain ⟨n, hn, htarget, hsource⟩ := hm.serve call
  rw [← hbinding, ← hstate] at hn
  have hn : ((b.call d call).binding.refresh Dataset.cursor (b.call d call).state).1.IsResolved (b.call d call).state n := by
    rw [refresh_of_isFresh hn.isFresh]
    exact hn
  refine ⟨⟨n, hn, ?_⟩, ?_⟩
  · rw [hsource, hreload.eq]
    exact hactive
  · rw [demand_of_isResolved hn, demand_of_isResolved hm, htarget, hreload.available, hreload.hasDirector]

/-- A call on a readable binding loads what it needs, one node after the other. -/
theorem IsReadable.state_call (h : b.IsReadable d) (hd : d.Poised) (hdated : b.IsDated) (hfits : b.Fits d)
    (hreads : call.reads = true) :
    ∃ ids, b.demand d = d.available ids ∧ (b.call d call).state = (Dataset.cursor.loadAll ids d).2 := by
  obtain ⟨-, hstate⟩ := h.call_eq hreads
  obtain ⟨m, hm, hactive⟩ := h
  refine ⟨_, demand_of_isResolved hm, ?_⟩
  have hgen : m.plan.generation = d.registry.generation := by
    obtain ⟨generation, ha⟩ := attempt_of_match? hm.match?
    have hfresh := hm.isFresh
    rw [isFresh, ha] at hfresh
    exact (hdated.refresh d generation m ha).trans (eq_of_beq hfresh)
  have hwired : d.isWired m.plan.target.id = true := by
    obtain ⟨i, hi⟩ := Option.isSome_iff_exists.1 hactive
    obtain ⟨entry, row, missed, hposition⟩ := Dataset.onRow_of_activeRow hi
    exact (hd.steady.row entry row missed hposition).1 _ _ hm.node
  have hplan : (b.refresh Dataset.cursor d).1.plan? = some m.plan := by
    rw [plan?, hm.match?]
    rfl
  rw [hstate, serve_of_match? (hm.skips_eq_false hactive call) hm.match?]
  exact Plan.state_read_of_isWired (hfits.refresh m.plan hplan) hgen hwired

end Binding

/-! ### Rows of calls -/

namespace Session

variable {s : Session} {uses : List (Nat × BindingCall)} {i j : Nat} {call : BindingCall}

/-- The binding of a number is resolved in the current file, and its source is on a row. -/
def IsReadable (s : Session) (i : Nat) : Prop := ∃ b, s.bindings[i]? = some b ∧ b.IsReadable s.dataset

/-- The nodes that a call on the binding of a number loads, in order. -/
def demand (s : Session) (i : Nat) : List NodeId := (s.bindings[i]?.map fun b => b.demand s.dataset).getD []

theorem demand_of_some {b : Binding} (hb : s.bindings[i]? = some b) : s.demand i = b.demand s.dataset := by
  rw [demand, hb]
  rfl

/-- A call on a readable binding leaves all readable bindings so, and they need what they did before. -/
theorem isReadable_use (hi : s.IsReadable i) (hreads : call.reads = true) (hj : s.IsReadable j) :
    (s.apply (.use i call)).state.IsReadable j ∧ (s.apply (.use i call)).state.demand j = s.demand j := by
  have hreload := Dataset.reloaded_of_reaches (reaches_use s (i, call))
  obtain ⟨b, hb, hreadable⟩ := hj
  by_cases hne : j = i
  · subst hne
    obtain ⟨hstays, hsame⟩ := Binding.isReadable_call hreadable hreads
    have hb' : (s.apply (.use j call)).state.bindings[j]? = some (b.call s.dataset call).binding := by
      rw [apply_use_of_some hb]
      exact List.getElem?_set_self (List.getElem?_eq_some_iff.1 hb).1
    have hd : (s.apply (.use j call)).state.dataset = (b.call s.dataset call).state := by rw [apply_use_of_some hb]
    refine ⟨⟨_, hb', ?_⟩, ?_⟩
    · rw [hd]
      exact hstays
    · rw [demand_of_some hb', demand_of_some hb, hd]
      exact hsame
  · have hb' : (s.apply (.use i call)).state.bindings[j]? = some b := (bindings_use_of_ne s (u := (i, call)) hne).trans hb
    refine ⟨⟨b, hb', hreadable.reload hreload⟩, ?_⟩
    rw [demand_of_some hb', demand_of_some hb]
    exact Binding.demand_reload hreload b

/-- What one call on a readable binding loads. -/
theorem loads_use (h : s.Poised) (hdated : ∀ b ∈ s.bindings, b.IsDated) (hi : s.IsReadable i)
    (hreads : call.reads = true) :
    let t := (s.apply (.use i call)).state
    t.dataset.loads = (s.dataset.loads ++ s.dataset.names (s.demand i)).eraseDups ∧
      ∀ id, (t.dataset.object? id).isSome = true ↔ (s.dataset.object? id).isSome = true ∨ id ∈ s.demand i := by
  intro t
  obtain ⟨b, hb, hreadable⟩ := hi
  have hmem := List.mem_of_getElem? hb
  obtain ⟨ids, hdemand, hstate⟩ := hreadable.state_call h.dataset (hdated b hmem) (h.fits b hmem) hreads
  have ht : t.dataset = (Dataset.cursor.loadAll ids s.dataset).2 := by
    show (s.apply (.use i call)).state.dataset = _
    rw [apply_use_of_some hb]
    exact hstate
  have hfaithful := h.dataset.steady.faithful
  rw [ht, demand_of_some hb, hdemand]
  exact ⟨Dataset.loads_loadAll h.dataset.consistent hfaithful ids, Dataset.isSome_object?_loadAll_iff hfaithful ids⟩

/-- What calls on readable bindings load, one after the other. -/
theorem loads_serveAll_of_poised (h : s.Poised) (hdated : ∀ b ∈ s.bindings, b.IsDated)
    (huses : ∀ u ∈ uses, u.2.reads = true ∧ s.IsReadable u.1) :
    (s.serveAll uses).dataset.loads =
        (s.dataset.loads ++ s.dataset.names (uses.flatMap fun u => s.demand u.1)).eraseDups ∧
      ∀ id, ((s.serveAll uses).dataset.object? id).isSome = true ↔
        (s.dataset.object? id).isSome = true ∨ id ∈ uses.flatMap fun u => s.demand u.1 := by
  induction uses generalizing s with
  | nil =>
      refine ⟨?_, fun id => ?_⟩
      · show s.dataset.loads = (s.dataset.loads ++ []).eraseDups
        rw [List.append_nil, eraseDups_of_nodup h.dataset.consistent.nodup_loads]
      · simp only [List.flatMap_nil, List.not_mem_nil, or_false]
        exact Iff.rfl
  | cons u uses ih =>
      obtain ⟨⟨hreads, hreadable⟩, hmore⟩ := List.forall_mem_cons.1 huses
      have hreload := Dataset.reloaded_of_reaches (reaches_use s u)
      obtain ⟨hone, hobjects⟩ := loads_use h hdated hreadable hreads
      have hkept : ∀ v ∈ uses, (s.apply (.use u.1 u.2)).state.IsReadable v.1 ∧
          (s.apply (.use u.1 u.2)).state.demand v.1 = s.demand v.1 :=
        fun v hv => isReadable_use hreadable hreads (hmore v hv).2
      have hdemand : (uses.flatMap fun v => (s.apply (.use u.1 u.2)).state.demand v.1) =
          uses.flatMap fun v => s.demand v.1 := List.flatMap_congr fun v hv => (hkept v hv).2
      obtain ⟨hloads, hall⟩ := ih (poised_apply h rfl) (isDated_after hdated [.use u.1 u.2])
        fun v hv => ⟨(hmore v hv).1, (hkept v hv).1⟩
      refine ⟨?_, fun id => ?_⟩
      · show ((s.apply (.use u.1 u.2)).state.serveAll uses).dataset.loads = _
        rw [hloads, hdemand, hone, hreload.names, eraseDups_eraseDups_append, List.flatMap_cons, Dataset.names_append,
          List.append_assoc]
      · show (((s.apply (.use u.1 u.2)).state.serveAll uses).dataset.object? id).isSome = true ↔ _
        rw [hall, hobjects, hdemand, List.flatMap_cons, List.mem_append, or_assoc]

/-- **What is loaded on a row is what was needed there, in that order.**  Take any run of a client that sets the dataset
up before it first moves and has its nodes wired eagerly.  A row comes with nothing loaded.  On it, each call on a
binding that is resolved in the current file, with its source on a row, loads the nodes that it needs as far as the row
has them, and no others: it ends with the first that cannot be loaded.  The names of what is loaded are all of these one
after the other, each where it comes first. -/
theorem loads_serveAll (identity : RegistryId) (types : Catalog) (settings : Settings)
    {setup run : List SessionCall} (hsetup : ∀ call ∈ setup, call.moves = false)
    (heager : ((start identity types settings).after setup).dataset.lazyWiring = false)
    (hrun : ∀ call ∈ run, call.configures = false) {uses : List (Nat × BindingCall)}
    (huses : ∀ u ∈ uses, u.2.reads = true ∧ ((start identity types settings).after (setup ++ run)).IsReadable u.1) :
    let s := (start identity types settings).after (setup ++ run)
    (∀ move : SessionCall, move.moves = true → (s.apply move).state.dataset.loads = []) ∧
      (∀ id, s.dataset.has id = true ↔ (s.dataset.load id).1 = .ok ()) ∧
      (s.serveAll uses).dataset.loads =
        (s.dataset.loads ++ s.dataset.names (uses.flatMap fun u => s.demand u.1)).eraseDups ∧
      ∀ id, ((s.serveAll uses).dataset.object? id).isSome = true ↔
        (s.dataset.object? id).isSome = true ∨ id ∈ uses.flatMap fun u => s.demand u.1 := by
  intro s
  have hready : ((start identity types settings).after setup).Poised :=
    ((unsought_start identity types settings).after hsetup).poised
      (consistent_after (s := start identity types settings) (Dataset.consistent_empty identity types settings) setup) heager
  have hpoised : s.Poised := by
    show ((start identity types settings).after (setup ++ run)).Poised
    rw [after_append]
    exact poised_after hready hrun
  have hdated : ∀ b ∈ s.bindings, b.IsDated :=
    isDated_after (s := start identity types settings) (fun _ hb => absurd hb List.not_mem_nil) (setup ++ run)
  refine ⟨fun move hmove => ?_, fun id => ?_, loads_serveAll_of_poised hpoised hdated huses⟩
  · obtain ⟨entry, hseek⟩ := dataset_apply_of_moves (s := s) hmove
    rw [hseek, Dataset.loads, Dataset.loaded_seek]
    rfl
  · exact (hpoised.dataset.steady.faithful.load_eq_ok_iff id).symm

/-- A file with two counted nodes, and a row that has the count of the first but not that of the second. -/
def countedRun : File :=
  ⟨"counted", .ofNodes [plainNode "n" "u32", { plainNode "xs" "u32" with count := some ⟨0⟩ }, plainNode "m" "u32",
      { plainNode "ys" "u32" with count := some ⟨2⟩ }] (by decide +kernel),
    Arena.empty, [⟨[("n", ⟨0x1000⟩), ("xs", ⟨0x1004⟩), ("ys", ⟨0x1008⟩)]⟩], []⟩

/-- That file, and bindings of the counted nodes and of the first count. -/
def countedSetup : List SessionCall :=
  [.dataset (.pushFile countedRun), .bind "xs" none, .bind "ys" none, .bind "n" none]

/-- The session on its row. -/
def countedSession : Session := (start ⟨0⟩ Catalog.builtins ⟨[], 0⟩).after (countedSetup ++ [.dataset .next])

theorem isReadable_countedSession {i : Nat} (hi : i < countedSession.bindings.length) : countedSession.IsReadable i := by
  have hfacts : ∀ b ∈ countedSession.bindings,
      (b.refresh Dataset.cursor countedSession.dataset).1.match?.isSome = true ∧
      ∀ m ∈ (b.refresh Dataset.cursor countedSession.dataset).1.match?,
        countedSession.dataset.node? m.plan.target.id = some m.plan.target.node ∧
        m.source = m.plan.target.node.source ∧ (countedSession.dataset.activeRow m.source).isSome = true := by
    decide +kernel
  obtain ⟨hsome, hmatch⟩ := hfacts countedSession.bindings[i] (List.getElem_mem hi)
  obtain ⟨m, hm⟩ := Option.isSome_iff_exists.1 hsome
  obtain ⟨hnode, hsource, hactive⟩ := hmatch m hm
  exact ⟨_, List.getElem?_eq_getElem hi, m, ⟨Binding.isFresh_refresh _ _ _, hm, hnode, hsource⟩, hactive⟩

/-- The second counted node loads nothing, since its count fails first; the first one loads its count before itself. -/
theorem loads_countedRun :
    let uses := [(1, BindingCall.read), (0, .address), (2, .read), (0, .read)]
    (countedSession.serveAll uses).dataset.loads =
        (countedSession.dataset.loads ++
          countedSession.dataset.names (uses.flatMap fun u => countedSession.demand u.1)).eraseDups ∧
      uses.map (fun u => countedSession.dataset.names (countedSession.demand u.1)) =
        [[], ["n", "xs"], ["n"], ["n", "xs"]] ∧
      (countedSession.serveAll uses).dataset.loads = ["n", "xs"] := by
  intro uses
  have hsetup : ∀ call ∈ countedSetup, call.moves = false := by decide
  have hrun : ∀ call ∈ [SessionCall.dataset .next], call.configures = false := by decide
  have huses : ∀ u ∈ uses, u.2.reads = true ∧ countedSession.IsReadable u.1 := by
    intro u hu
    have hlength : countedSession.bindings.length = 3 := by decide +kernel
    have hbelow : ∀ u ∈ uses, u.2.reads = true ∧ u.1 < 3 := by decide
    rw [← hlength] at hbelow
    exact (hbelow u hu).imp_right isReadable_countedSession
  obtain ⟨-, -, hloads, -⟩ := loads_serveAll ⟨0⟩ Catalog.builtins ⟨[], 0⟩ hsetup rfl hrun huses
  exact ⟨hloads, by decide +kernel, by decide +kernel⟩

end Session

end TypedColumns
