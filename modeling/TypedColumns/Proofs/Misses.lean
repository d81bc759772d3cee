import TypedColumns.Proofs.Independence
import TypedColumns.Proofs.Joins

/-!
# Rows that an index misses

When an index has no row for an entry, a binding of the source that goes along by it has no value there.  To be asked for
an address or for a value it takes that into account and leaves everything as it is.  To be read it does not: it tries to
load the node and fails.

* `Dataset.Lacks` -- a node that is not loaded and cannot be; loading others does not help (`Lacks.of_load`), and what
  needs it fails (`Lacks.loadAll`, `shapeRead_of_lacks`).
* `Session.fitsJoins_of_fixed` -- where the joins are set before the dataset first moves, it always fits them; so of a source
  that is on no row nothing is loaded (`Dataset.FitsJoins.lacks`).
* `Binding.IsSkipped` -- a binding of such a source that is up to date.  It skips all calls but to read
  (`IsSkipped.call_of_ne_read`), and stays so (`IsSkipped.serve`).
* `Session.serveAll_of_isSkipped` -- a row of calls on it comes to what one read comes to, or to nothing.
* `Session.serveAll_missedRow` -- no call but to read tells or changes anything on such a row, and a read fails unless the
  node lies in one of another source.
* `Session.read_missedRow` -- a read that puts a binding into error, on a row that is no error for an address.
-/

namespace TypedColumns

/-! ### Nodes that cannot be loaded -/

namespace Dataset

variable {d : Dataset} {id : NodeId}

/-- A node is not loaded, and the row has no object for it. -/
structure Lacks (d : Dataset) (id : NodeId) : Prop where
  object? : d.object? id = none
  rowObject? : d.rowObject? id = none

theorem Lacks.load (h : d.Lacks id) : ∃ err, d.load id = (.error err, d) := by
  rcases load_cases d id with ⟨a, ha, -⟩ | ⟨-, -, hfails⟩ | ⟨node, a, -, -, ha, -⟩
  · rw [h.object?] at ha
    cases ha
  · exact hfails
  · rw [h.rowObject?] at ha
    cases ha

/-- Whatever else is loaded, the node is still lacking. -/
theorem Lacks.of_load (h : d.Lacks id) (j : NodeId) : (d.load j).2.Lacks id := by
  refine ⟨?_, ((reloaded_load d j).rowObject? id).trans h.rowObject?⟩
  rcases load_cases d j with ⟨a, -, hload⟩ | ⟨-, -, err, hload⟩ | ⟨node, a, -, -, ha, hload⟩
  · rw [hload]
    exact h.object?
  · rw [hload]
    exact h.object?
  · have hne : (j == id) = false := by
      rw [beq_eq_false_iff_ne]
      rintro rfl
      rw [h.rowObject?] at ha
      cases ha
    have hfind : d.loaded.find? (fun l => l.id == id) = none := Option.map_eq_none_iff.1 h.object?
    rw [hload]
    show ((d.loaded ++ [(⟨j, node.name, a⟩ : Loaded)]).find? (fun l => l.id == id)).map Loaded.object = none
    rw [List.find?_append, hfind, List.find?_singleton, hne]
    rfl

/-- Whatever is loaded with the node among it, loading fails. -/
theorem Lacks.loadAll (h : d.Lacks id) {ids : List NodeId} (hid : id ∈ ids) :
    ∃ err e, cursor.loadAll ids d = (.error err, e) := by
  induction ids generalizing d with
  | nil => cases hid
  | cons j ids ih =>
      cases hload : cursor.load d j with
      | mk r e =>
          cases r with
          | error err => exact ⟨err, e, by simp only [RowCursor.loadAll, hload]⟩
          | ok u =>
              have hne : id ≠ j := by
                rintro rfl
                obtain ⟨err, hfails⟩ := h.load
                rw [show cursor.load d id = _ from hfails] at hload
                cases hload
              have hlacks : e.Lacks id := by
                have he := h.of_load j
                rw [show d.load j = _ from hload] at he
                exact he
              obtain ⟨err, t, hall⟩ := ih hlacks ((List.mem_cons.1 hid).resolve_left hne)
              exact ⟨err, t, by simp only [RowCursor.loadAll, hload, hall]⟩

/-- No shape finds a node that is lacking, nor does the one that it lies in help if that is lacking too. -/
theorem shapeRead_of_lacks {t : Target} (hself : d.Lacks t.id) (hparent : ∀ p, t.node.parent = some p → d.Lacks p.node)
    (shape : Shape) : ∃ err e, shape.read cursor t d = (.error err, e) := by
  cases hneeds : shape.needs t with
  | error err => exact ⟨err, d, by simp only [Shape.read, hneeds]⟩
  | ok ids =>
      have hfails : ∃ err e, cursor.loadAll ids d = (.error err, e) := by
        rcases Shape.mem_needs hneeds with hid | ⟨p, hp, hid⟩
        · exact hself.loadAll hid
        · exact (hparent p hp).loadAll hid
      obtain ⟨err, e, hall⟩ := hfails
      exact ⟨err, e, by simp only [Shape.read, hneeds, hall]⟩

/-- A dataset is on a row, and the index by which a secondary source goes along has none for the entry. -/
def MissesRow (d : Dataset) (source : SourceId) : Prop :=
  source ≠ .primary ∧ ∃ entry row missed rows, d.position = .onRow entry row missed ∧
    d.join? source = some (.indexed rows) ∧ rows[entry.toNat]?.join = none

theorem MissesRow.activeRow {source : SourceId} (h : d.MissesRow source) : d.activeRow source = none := by
  obtain ⟨hsource, entry, row, missed, rows, hposition, hjoin, hnone⟩ := h
  rw [activeRow_of_indexed hposition hsource hjoin, hnone]

theorem MissesRow.status {source : SourceId} (h : d.MissesRow source) (hfits : d.FitsJoins) :
    d.position.status = .indexedJoinNoMatch := by
  obtain ⟨-, entry, row, missed, rows, hposition, hjoin, hnone⟩ := h
  rw [hposition, Position.status_eq_indexedJoinNoMatch_iff, hfits.missed entry row missed hposition]
  exact ⟨source, rows, hjoin, hnone⟩

/-- Of a source that is on no row nothing is there, neither loaded nor to be loaded. -/
theorem FitsJoins.lacks (h : d.FitsJoins) (hid : ∀ node, d.node? id = some node → d.activeRow node.source = none) :
    d.Lacks id := by
  refine ⟨?_, ?_⟩
  · cases ha : d.object? id with
    | none => rfl
    | some a =>
        obtain ⟨node, hrecords⟩ := h.records ha
        have hactive := hrecords.active
        rw [hid node hrecords.inFile] at hactive
        cases hactive
  · rw [rowObject?]
    cases hnode : d.node? id with
    | none => rfl
    | some node =>
        simp only [hid node hnode, Option.isNone_none, Bool.or_true, if_true]

end Dataset

/-! ### Joins that are set before the first move -/

namespace Session

variable {s : Session} {call : SessionCall} {calls : List SessionCall}

/-- Before a dataset first moves nothing is loaded. -/
theorem loaded_after_of_unloaded (hs : s.dataset.position = .unloaded) (hloaded : s.dataset.loaded = [])
    (h : ∀ call ∈ calls, call.moves = false) : (s.after calls).dataset.loaded = [] := by
  induction calls generalizing s with
  | nil => exact hloaded
  | cons call calls ih =>
      have hcall := h call List.mem_cons_self
      refine ih ((position_apply hcall).trans hs) ?_ fun c hc => h c (List.mem_cons_of_mem call hc)
      refine List.eq_nil_iff_forall_not_mem.2 fun l hl => ?_
      rcases mem_loaded_apply hcall hl with hl | hrow
      · rw [hloaded] at hl
        cases hl
      · obtain ⟨entry, row, missed, hposition⟩ := Dataset.onRow_of_rowObject? hrow
        rw [hs] at hposition
        cases hposition

/-- A dataset that fits its joins does so as long as none is set, wherever it moves. -/
theorem fitsJoins_after_of_joined? (hjoins : s.dataset.JoinedOnce) (h : s.dataset.FitsJoins)
    (hcalls : ∀ call ∈ calls, call.joined? = none) : (s.after calls).dataset.FitsJoins := by
  induction calls generalizing s with
  | nil => exact h
  | cons call calls ih =>
      refine ih (joinedOnce_apply hjoins call) ?_ fun c hc => hcalls c (List.mem_cons_of_mem call hc)
      cases hmoves : call.moves with
      | true =>
          obtain ⟨entry, hseek⟩ := dataset_apply_of_moves (s := s) hmoves
          rw [hseek]
          exact Dataset.fitsJoins_seek hjoins entry
      | false => exact fitsJoins_apply hmoves (hcalls call List.mem_cons_self) h

theorem fitsJoins_of_fixed (identity : RegistryId) (types : Catalog) (settings : Settings) {setup run : List SessionCall}
    (hsetup : ∀ call ∈ setup, call.moves = false) (hrun : ∀ call ∈ run, call.joined? = none) :
    ((start identity types settings).after (setup ++ run)).dataset.FitsJoins := by
  have hposition : ((start identity types settings).after setup).dataset.position = .unloaded := position_after hsetup
  have hloaded : ((start identity types settings).after setup).dataset.loaded = [] :=
    loaded_after_of_unloaded rfl rfl hsetup
  have hfits : ((start identity types settings).after setup).dataset.FitsJoins := by
    refine ⟨?_, ?_⟩
    · intro entry row missed hrow
      rw [hposition] at hrow
      cases hrow
    · intro l hl
      rw [hloaded] at hl
      cases hl
  rw [after_append]
  exact fitsJoins_after_of_joined? (joinedOnce_after (joinedOnce_start identity types settings) setup) hfits hrun

end Session

/-! ### Bindings of a source on no row -/

namespace Binding

variable {b : Binding} {d : Dataset} {call : BindingCall} {m : Match}

/-- A binding is up to date with a match for a node of the current file. -/
structure IsResolved (b : Binding) (d : Dataset) (m : Match) : Prop where
  isFresh : b.isFresh Dataset.cursor d = true
  match? : b.match? = some m
  node : d.node? m.plan.target.id = some m.plan.target.node
  source : m.source = m.plan.target.node.source

/-- A binding is up to date, and an index misses the row of its source. -/
structure IsSkipped (b : Binding) (d : Dataset) : Prop where
  isFresh : b.isFresh Dataset.cursor d = true
  status : d.position.status = .indexedJoinNoMatch
  misses : b.misses Dataset.cursor d = true

/-- Nothing is set up anew for such a binding. -/
theorem IsSkipped.call_eq (h : b.IsSkipped d) (hreads : call.reads = true) :
    b.call d call = b.serve Dataset.cursor d call := by
  have hearly : call.isEarly Dataset.cursor d = false := by
    cases call with
    | get type =>
        show (d.position.status == .notLoaded) = false
        rw [h.status]
        rfl
    | _ => rfl
  rw [call_eq_callOn, callOn_eq b Dataset.cursor d hreads, turn_of_isEarly_eq_false hearly, refresh_of_isFresh h.isFresh]
  rfl

theorem IsSkipped.call_of_ne_read (h : b.IsSkipped d) (hreads : call.reads = true) (hne : call ≠ .read) :
    b.call d call = ⟨call.refusal, b, d, []⟩ := by
  have hskips : call.skips b Dataset.cursor d = true := by
    cases call with
    | setup => cases hreads
    | read => exact absurd rfl hne
    | address | get type => exact h.misses
  rw [h.call_eq hreads, serve_of_skips hskips]

theorem IsSkipped.serve (h : b.IsSkipped d) (call : BindingCall) :
    (b.serve Dataset.cursor d call).binding.IsSkipped (b.serve Dataset.cursor d call).state := by
  have hreload := Dataset.reloaded_of_reaches (reaches_serve b Dataset.cursor d call)
  have houtline := outline?_serve b Dataset.cursor d call
  refine ⟨?_, ?_, ?_⟩
  · exact (isFresh_congr houtline (congrArg Registry.generation hreload.registry)).trans h.isFresh
  · rw [hreload.position]
    exact h.status
  · have hskips : BindingCall.address.skips b Dataset.cursor d = true := h.misses
    exact (hreload.skips _ .address).trans ((skips_congr houtline Dataset.cursor d).trans hskips)

theorem isSome_diagnostic_failRead (h : b.match? = some m) (n : Match) (e : ReadError) :
    (b.failRead n e).diagnostic.isSome = true := by
  obtain ⟨generation, ha⟩ := attempt_of_match? h
  simp only [diagnostic, failRead, withMatch, ha, Option.map_some, Option.isSome_some]

/-- Where no shape finds the node, reading fails, and it is noted why. -/
theorem IsSkipped.read_of_failing (h : b.IsSkipped d) (hm : b.match? = some m)
    (hfails : ∀ shape : Shape, ∃ err e, shape.read Dataset.cursor m.plan.target d = (.error err, e)) :
    (b.call d .read).value = .read .error ∧ (b.call d .read).binding.readStatus = .error ∧
      (b.call d .read).binding.diagnostic.isSome = true := by
  obtain ⟨err, hbase⟩ := Plan.read_of_failing hfails
  have houtcome : BindingCall.read.outcome m Dataset.cursor d = .error err := by
    rw [BindingCall.outcome, hbase]
    rfl
  rw [h.call_eq rfl, serve_of_match? rfl hm, houtcome]
  exact ⟨rfl, rfl, isSome_diagnostic_failRead hm _ err⟩

end Binding

/-! ### Rows of calls -/

namespace Session

variable {s : Session} {i : Nat} {b : Binding} {calls : List BindingCall}

theorem apply_of_isSkipped (hb : s.bindings[i]? = some b) (h : b.IsSkipped s.dataset) {call : BindingCall}
    (hreads : call.reads = true) (hne : call ≠ .read) : s.apply (.use i call) = ⟨call.refusal, s, []⟩ := by
  obtain ⟨hi, hget⟩ := List.getElem?_eq_some_iff.1 hb
  have hset : s.bindings.set i b = s.bindings := by rw [← hget, List.set_getElem_self]
  rw [apply_use_of_some hb, h.call_of_ne_read hreads hne, hset]

/-- After a read, reading again answers the same and changes nothing. -/
theorem apply_read_of_isSkipped (hb : s.bindings[i]? = some b) (h : b.IsSkipped s.dataset) :
    let read := s.apply (.use i .read)
    ∃ b', read.state.bindings[i]? = some b' ∧ b'.IsSkipped read.state.dataset ∧
      (read.state.apply (.use i .read)).state = read.state ∧
      (read.state.apply (.use i .read)).answer = read.answer := by
  intro read
  have hi := (List.getElem?_eq_some_iff.1 hb).1
  have hread : read = ⟨(b.serve Dataset.cursor s.dataset .read).value,
      ⟨(b.serve Dataset.cursor s.dataset .read).state,
        s.bindings.set i (b.serve Dataset.cursor s.dataset .read).binding⟩,
      (b.serve Dataset.cursor s.dataset .read).events⟩ := by
    show s.apply (.use i .read) = _
    rw [apply_use_of_some hb, h.call_eq rfl]
  have hb' : read.state.bindings[i]? = some (b.serve Dataset.cursor s.dataset .read).binding := by
    rw [hread]
    exact List.getElem?_set_self hi
  have hskipped : (b.serve Dataset.cursor s.dataset .read).binding.IsSkipped read.state.dataset := by
    rw [hread]
    exact h.serve .read
  obtain ⟨hvalue, hbinding, hstate⟩ := Binding.serve_serve b s.dataset .read
  refine ⟨_, hb', hskipped, ?_, ?_⟩
  · rw [apply_use_of_some hb', hskipped.call_eq rfl, hread]
    simp only [hstate, hbinding, List.set_set]
  · rw [apply_use_of_some hb', hskipped.call_eq rfl, hread]
    exact hvalue

/-- On a binding of a source on no row each call answers as if it were the only one, and all of them together come to what
a single read comes to, or to nothing. -/
theorem serveAll_of_isSkipped (hb : s.bindings[i]? = some b) (h : b.IsSkipped s.dataset)
    (hreads : ∀ call ∈ calls, call.reads = true) :
    let uses := calls.map fun call => (i, call)
    s.answers uses = uses.map s.alone ∧
      ((∀ call ∈ calls, call ≠ .read) → s.serveAll uses = s) ∧
      (.read ∈ calls → s.serveAll uses = (s.apply (.use i .read)).state) := by
  induction calls generalizing s b with
  | nil => exact ⟨rfl, fun _ => rfl, fun h => absurd h List.not_mem_nil⟩
  | cons call calls ih =>
      have hmore : ∀ c ∈ calls, c.reads = true := fun c hc => hreads c (List.mem_cons_of_mem call hc)
      by_cases hread : call = .read
      · subst hread
        obtain ⟨b', hb', hskipped, hstate, hanswer⟩ := apply_read_of_isSkipped hb h
        obtain ⟨hanswers, hnothing, hsame⟩ := ih hb' hskipped hmore
        have halone : ∀ c ∈ calls, (s.apply (.use i .read)).state.alone (i, c) = s.alone (i, c) := by
          intro c hc
          by_cases hc' : c = .read
          · rw [hc', alone, hanswer]
            rfl
          · rw [alone, alone, apply_of_isSkipped hb' hskipped (hmore c hc) hc', apply_of_isSkipped hb h (hmore c hc) hc']
        refine ⟨?_, fun hne => absurd rfl (hne .read List.mem_cons_self), fun _ => ?_⟩
        · show s.alone (i, .read) :: (s.apply (.use i .read)).state.answers _ = _
          rw [hanswers, List.map_cons, List.map_cons, List.map_map, List.map_map]
          exact congrArg (s.alone (i, .read) :: ·) (List.map_congr_left halone)
        · show (s.apply (.use i .read)).state.serveAll _ = _
          by_cases hmem : BindingCall.read ∈ calls
          · rw [hsame hmem, hstate]
          · refine hnothing fun c hc => ?_
            rintro rfl
            exact hmem hc
      · have hstep := apply_of_isSkipped hb h (hreads call List.mem_cons_self) hread
        obtain ⟨hanswers, hnothing, hsame⟩ := ih hb h hmore
        have hserve : s.serveAll ((call :: calls).map fun c => (i, c)) = s.serveAll (calls.map fun c => (i, c)) := by
          show (s.apply (.use i call)).state.serveAll _ = _
          rw [hstep]
        refine ⟨?_, fun hne => hserve.trans (hnothing fun c hc => hne c (List.mem_cons_of_mem call hc)), fun hmem => ?_⟩
        · show s.alone (i, call) :: (s.apply (.use i call)).state.answers _ = _
          rw [hstep, hanswers]
          rfl
        · exact hserve.trans (hsame ((List.mem_cons.1 hmem).resolve_left (Ne.symm hread)))

/-- **On a row that an index misses, a binding of the source that goes along by it has no address and no value, and to be
asked for them changes nothing.  To be read changes it once: unless its node lies in one of another source, reading
fails, and the binding is left with that error.**  This is so wherever the joins are set before the dataset first moves. -/
theorem serveAll_missedRow (identity : RegistryId) (types : Catalog) (settings : Settings)
    {setup run : List SessionCall} (hsetup : ∀ call ∈ setup, call.moves = false)
    (hrun : ∀ call ∈ run, call.joined? = none) {bindings : List Binding} {i : Nat} {b : Binding} {m : Match}
    (hb : bindings[i]? = some b)
    (hresolved : b.IsResolved ((start identity types settings).after (setup ++ run)).dataset m)
    (hmisses : ((start identity types settings).after (setup ++ run)).dataset.MissesRow m.source)
    {calls : List BindingCall} (hreads : ∀ call ∈ calls, call.reads = true) :
    let s : Session := ⟨((start identity types settings).after (setup ++ run)).dataset, bindings⟩
    let uses := calls.map fun call => (i, call)
    let read := s.apply (.use i .read)
    s.answers uses = uses.map s.alone ∧
    (∀ call ∈ calls, call ≠ .read → s.alone (i, call) = (i, call.refusal)) ∧
    ((∀ call ∈ calls, call ≠ .read) → s.serveAll uses = s) ∧
    (.read ∈ calls → s.serveAll uses = read.state) ∧
    ((∀ p parent, m.plan.target.node.parent = some p → s.dataset.node? p.node = some parent →
        parent.source = m.source) →
      read.answer = .read .error ∧
      ∃ b', read.state.bindings[i]? = some b' ∧ b'.readStatus = .error ∧ b'.diagnostic.isSome = true) := by
  intro s uses read
  have hfits : s.dataset.FitsJoins := fitsJoins_of_fixed identity types settings hsetup hrun
  have hactive : s.dataset.activeRow m.source = none := hmisses.activeRow
  have hstatus : s.dataset.position.status = .indexedJoinNoMatch := hmisses.status hfits
  have hskipped : b.IsSkipped s.dataset := by
    refine ⟨hresolved.isFresh, hstatus, ?_⟩
    rw [Binding.misses, hresolved.match?]
    show (s.dataset.position.status == .indexedJoinNoMatch && (s.dataset.activeRow m.source).isNone) = true
    rw [hstatus, hactive]
    rfl
  obtain ⟨hanswers, hnothing, hsame⟩ := serveAll_of_isSkipped (s := s) hb hskipped hreads
  refine ⟨hanswers, ?_, hnothing, hsame, fun hparent => ?_⟩
  · intro call hcall hne
    rw [alone, apply_of_isSkipped (s := s) hb hskipped (hreads call hcall) hne]
  · have hself : s.dataset.Lacks m.plan.target.id := by
      refine hfits.lacks fun node hnode => ?_
      obtain rfl := Option.some.inj (hresolved.node.symm.trans hnode)
      rw [← hresolved.source]
      exact hactive
    have hpart : ∀ p, m.plan.target.node.parent = some p → s.dataset.Lacks p.node := by
      intro p hp
      refine hfits.lacks fun node hnode => ?_
      rw [hparent p node hp hnode]
      exact hactive
    obtain ⟨hvalue, hread, hdiagnostic⟩ :=
      hskipped.read_of_failing hresolved.match? (Dataset.shapeRead_of_lacks hself hpart)
    have happly : read = ⟨(b.call s.dataset .read).value,
        ⟨(b.call s.dataset .read).state, bindings.set i (b.call s.dataset .read).binding⟩,
        (b.call s.dataset .read).events⟩ := apply_use_of_some (s := s) hb
    rw [happly]
    exact ⟨hvalue, _, List.getElem?_set_self (List.getElem?_eq_some_iff.1 hb).1, hread, hdiagnostic⟩

/-- Two rows, of which the second has none in the second source, and a binding of that source, read on the first. -/
def missedSetup : List SessionCall :=
  [.dataset (.pushFile sideRun), .dataset (.joinIndexed ⟨1⟩ [some 0, none]), .bind "weight" none]

/-- Reading the binding on the first row, and moving on to the second. -/
def missedRun : List SessionCall := [.dataset .next, .use 0 .read, .dataset .next]

/-- The session on the second row. -/
def missedSession : Session := (start ⟨0⟩ Catalog.builtins ⟨[], 0⟩).after (missedSetup ++ missedRun)

theorem isResolved_missedSession :
    ∃ b m, missedSession.bindings[0]? = some b ∧ b.IsResolved missedSession.dataset m ∧ m.source = ⟨1⟩ ∧
      m.plan.target.node.parent = none := by
  have hsome : missedSession.bindings.map (fun b => b.match?.isSome) = [true] := by decide +kernel
  have hfacts : ∀ b ∈ missedSession.bindings, ∀ m ∈ b.match?,
      b.isFresh Dataset.cursor missedSession.dataset = true ∧
      missedSession.dataset.node? m.plan.target.id = some m.plan.target.node ∧
      m.source = m.plan.target.node.source ∧ m.source = ⟨1⟩ ∧ m.plan.target.node.parent = none := by
    decide +kernel
  obtain ⟨b, hbindings, hmatch⟩ := List.map_eq_singleton_iff.1 hsome
  obtain ⟨m, hm⟩ := Option.isSome_iff_exists.1 hmatch
  obtain ⟨hfresh, hnode, hsource, hsecond, hparent⟩ := hfacts b (by rw [hbindings]; exact List.mem_cons_self) m hm
  exact ⟨b, m, by rw [hbindings]; rfl, ⟨hfresh, hm, hnode, hsource⟩, hsecond, hparent⟩

/-- On the second row the binding is asked for its address, and read, and asked again. -/
theorem serveAll_missedRun :
    let uses := [(0, BindingCall.address), (0, BindingCall.read), (0, BindingCall.address)]
    missedSession.serveAll uses = (missedSession.apply (.use 0 .read)).state ∧
      (missedSession.apply (.use 0 .read)).answer = .read .error := by
  obtain ⟨b, m, hb, hresolved, hsource, hparent⟩ := isResolved_missedSession
  have hmisses : missedSession.dataset.MissesRow m.source := by
    rw [hsource]
    exact ⟨by decide, 1, 1, true, [some 0, none], by decide +kernel, by decide +kernel, rfl⟩
  have hsetup : ∀ call ∈ missedSetup, call.moves = false := by decide
  have hrun : ∀ call ∈ missedRun, call.joined? = none := by decide
  have hreads : ∀ call ∈ [BindingCall.address, .read, .address], call.reads = true := by decide
  obtain ⟨-, -, -, hsame, hfails⟩ :=
    serveAll_missedRow ⟨0⟩ Catalog.builtins ⟨[], 0⟩ hsetup hrun hb hresolved hmisses hreads
  refine ⟨hsame (by simp), (hfails ?_).1⟩
  intro p parent hp
  rw [hparent] at hp
  cases hp

/-- On that row the address is no error, and the outcome of the last read stays; but to be read puts the binding into
error. -/
theorem read_missedRow :
    let shown := fun b : Binding => (b.readStatus, b.diagnostic)
    missedSession.bindings.map shown = [(.success, none)] ∧
      (missedSession.apply (.use 0 .address)).answer = .address none ∧
      (missedSession.apply (.use 0 .address)).state.bindings.map shown = [(.success, none)] ∧
      (missedSession.apply (.use 0 .read)).answer = .read .error ∧
      (missedSession.apply (.use 0 .read)).state.bindings.map shown =
        [(.error, some "node weight has no data for the current row")] := by
  exact ⟨by decide +kernel, answer_address (by decide +kernel), by decide +kernel, answer_read (by decide +kernel),
    by decide +kernel⟩

end Session

end TypedColumns
