import TypedColumns.Proofs.LazyWiring
import TypedColumns.Proofs.RowState
import TypedColumns.Proofs.Supply

/-!
# Columns next to each other

The columns of a row share what the dataset has loaded and wired for it, and whichever is read first loads what the
others need as well.  Nevertheless no column can tell whether another one was read before it.

* `Ahead.planRead`, `Ahead.serve`, `Ahead.call` -- a dataset that has loaded more already reads the same by a plan, and
  does the same for a binding.
* `Session.answers`, `Session.serveAll` -- the answers to a row of calls on bindings, and the session after them.
* `Session.touches` -- the nodes that are loaded once each of the calls has been made alone.
* `Session.ahead_serveAll`, `Session.bindings_serveAll_perm` -- a row of calls on distinct bindings goes as if each had
  been made alone, and so it leaves the same bindings in any order.
* `Session.serveAll_perm` -- the order of the calls does not matter.
-/

namespace TypedColumns

namespace Dataset.Ahead

variable {more : NodeId → Prop} {d e : Dataset}

/-! ### Reading by a plan -/

theorem decideAndRead (h : Ahead more d e) (p : Plan) :
    ∃ e', p.decideAndRead cursor e = { p.decideAndRead cursor d with state := e' } ∧
      Ahead more (p.decideAndRead cursor d).state e' := by
  have hshape : p.shapeIn e = p.shapeIn d := by rw [Plan.shapeIn, Plan.shapeIn, h.reloaded.hasDirector]
  obtain ⟨e', he, hahead⟩ := h.shapeRead (p.shapeIn d) p.target
  refine ⟨e', ?_, hahead⟩
  have hread : (p.shapeIn e).read cursor p.target e = (((p.shapeIn d).read cursor p.target d).1, e') := by
    rw [hshape]
    exact he
  show (⟨((p.shapeIn e).read cursor p.target e).1, { p with shape := some (p.shapeIn e) },
    ((p.shapeIn e).read cursor p.target e).2, [.classified p.target.node.name (p.shapeIn e)]⟩ : PlanRead Dataset) = _
  rw [hread, hshape]
  rfl

section Undecided

variable {p : Plan}

/-- Where only the second dataset has the node wired, that one has loaded it; the first one loads it now, and from there
on they go alike. -/
theorem planRead_of_loaded (h : Ahead more d e) (hgen : p.generation = d.registry.generation) (hshape : p.shape = none)
    (hd : d.isWired p.target.id = false) (he : e.isWired p.target.id = true) :
    ∃ e', p.read cursor e = { p.read cursor d with state := e' } ∧ Ahead more (p.read cursor d).state e' := by
  have hgen' : p.generation = e.registry.generation := hgen.trans (congrArg Registry.generation h.reloaded.registry).symm
  have hmore : more p.target.id := ((h.isWired _).1 he).resolve_left (by rw [hd]; exact Bool.false_ne_true)
  obtain ⟨a, ha⟩ := Option.isSome_iff_exists.1 ((h.loaded p.target.id).2 (Or.inr hmore))
  obtain ⟨e', hload, hahead⟩ := h.load p.target.id
  rw [load_of_object? ha] at hload
  obtain ⟨hok, rfl⟩ := Prod.mk.inj hload
  have hload : d.load p.target.id = (.ok (), (d.load p.target.id).2) := Prod.ext hok.symm rfl
  have hwired : cursor.isWired (d.load p.target.id).2 p.target.id = true := hahead.wires _ (object?_of_load hload)
  rw [Plan.read_of_wired (c := cursor) hgen' hshape he, Plan.read_of_unwired (c := cursor) hgen hshape hd]
  rcases noCoordinator_read_cases p.target d with ⟨base, -, -, hgeneric⟩ | ⟨err, herr, -⟩
  · simp only [hgeneric, hwired, if_true]
    exact hahead.decideAndRead p
  · rw [← hok] at herr
    cases herr

theorem planRead_of_unwired (h : Ahead more d e) (hgen : p.generation = d.registry.generation) (hshape : p.shape = none)
    (hd : d.isWired p.target.id = false) (he : e.isWired p.target.id = false) :
    ∃ e', p.read cursor e = { p.read cursor d with state := e' } ∧ Ahead more (p.read cursor d).state e' := by
  have hgen' : p.generation = e.registry.generation := hgen.trans (congrArg Registry.generation h.reloaded.registry).symm
  have hmore : ¬ more p.target.id := by
    intro hmore
    rw [(h.isWired _).2 (Or.inr hmore)] at he
    cases he
  obtain ⟨e', hread, hahead⟩ := h.shapeRead .noCoordinator p.target
  rw [Plan.read_of_unwired (c := cursor) hgen' hshape he, Plan.read_of_unwired (c := cursor) hgen hshape hd, hread]
  cases hgeneric : Shape.noCoordinator.read cursor p.target d with
  | mk r d' =>
      rw [hgeneric] at hahead
      cases r with
      | error err => exact ⟨e', rfl, hahead⟩
      | ok base =>
          have hwired : cursor.isWired e' p.target.id = cursor.isWired d' p.target.id :=
            Bool.eq_iff_iff.2 (((hahead.isWired p.target.id)).trans (or_iff_left hmore))
          simp only [hwired]
          cases cursor.isWired d' p.target.id with
          | true => exact hahead.decideAndRead p
          | false => exact ⟨e', rfl, hahead⟩

end Undecided

/-- Reading by a plan goes alike. -/
theorem planRead (h : Ahead more d e) (p : Plan) :
    ∃ e', p.read cursor e = { p.read cursor d with state := e' } ∧ Ahead more (p.read cursor d).state e' := by
  by_cases hgen : p.generation = d.registry.generation
  · have hgen' : p.generation = e.registry.generation := hgen.trans (congrArg Registry.generation h.reloaded.registry).symm
    cases hshape : p.shape with
    | some shape =>
        obtain ⟨e', he, hahead⟩ := h.shapeRead shape p.target
        rw [Plan.read_of_shape (c := cursor) hgen hshape, Plan.read_of_shape (c := cursor) hgen' hshape, he]
        exact ⟨e', rfl, hahead⟩
    | none =>
        cases hd : d.isWired p.target.id with
        | true =>
            have he : e.isWired p.target.id = true := (h.isWired _).2 (Or.inl hd)
            rw [Plan.read_of_wired (c := cursor) hgen hshape hd, Plan.read_of_wired (c := cursor) hgen' hshape he]
            exact h.decideAndRead p
        | false =>
            cases he : e.isWired p.target.id with
            | true => exact h.planRead_of_loaded hgen hshape hd he
            | false => exact h.planRead_of_unwired hgen hshape hd he
  · have hgen' : p.generation ≠ e.registry.generation := by
      rw [h.reloaded.registry]
      exact hgen
    have hd : p.read cursor d = ⟨.error .staleNode, p, d, []⟩ := if_pos hgen
    have he : p.read cursor e = ⟨.error .staleNode, p, e, []⟩ := if_pos hgen'
    rw [hd, he]
    exact ⟨e, rfl, h⟩

/-! ### Calls on a binding -/

theorem setup (h : Ahead more d e) (b : Binding) : b.setup cursor e = b.setup cursor d := by
  rw [h.eq]
  rfl

theorem refresh (h : Ahead more d e) (b : Binding) : b.refresh cursor e = b.refresh cursor d := by
  rw [h.eq]
  rfl

theorem serve (h : Ahead more d e) (b : Binding) (call : BindingCall) :
    ∃ e', b.serve cursor e call = { b.serve cursor d call with state := e' } ∧
      Ahead more (b.serve cursor d call).state e' := by
  cases hskips : call.skips b cursor d with
  | true =>
      have hskips' := (h.reloaded.skips b call).trans hskips
      rw [Binding.serve_of_skips hskips, Binding.serve_of_skips hskips']
      exact ⟨e, rfl, h⟩
  | false =>
      have hskips' := (h.reloaded.skips b call).trans hskips
      cases hm : b.match? with
      | none =>
          rw [Binding.serve_of_match?_eq_none hm, Binding.serve_of_match?_eq_none hm]
          exact ⟨e, rfl, h⟩
      | some m =>
          obtain ⟨e', hread, hahead⟩ := h.planRead m.plan
          have harena : cursor.image e' = cursor.image (m.plan.read cursor d).state :=
            congrArg Arena.image hahead.reloaded.arena
          have houtcome : call.outcome m cursor e = call.outcome m cursor d := by
            rw [BindingCall.outcome, BindingCall.outcome, hread, harena]
          have hadvance : m.advance cursor e = m.advance cursor d := by
            rw [Match.advance, Match.advance, hread]
          rw [Binding.serve_of_match? hskips hm, Binding.serve_of_match? hskips' hm, houtcome, hadvance, hread]
          exact ⟨e', rfl, hahead⟩

/-- Any call on a binding goes alike. -/
theorem call (h : Ahead more d e) (b : Binding) (call : BindingCall) :
    ∃ e', b.call e call = { b.call d call with state := e' } ∧ Ahead more (b.call d call).state e' := by
  cases hreads : call.reads with
  | false =>
      cases call with
      | setup =>
          refine ⟨e, ?_, h⟩
          simp only [Binding.call, h.setup b]
      | _ => cases hreads
  | true =>
      rw [Binding.call_eq_callOn, Binding.call_eq_callOn, Binding.callOn_eq b cursor d hreads,
        Binding.callOn_eq b cursor e hreads]
      cases hearly : call.isEarly cursor d with
      | true =>
          have hearly' := (h.reloaded.isEarly call).trans hearly
          have hsuppressed : cursor.isSuppressed e b.path = cursor.isSuppressed d b.path := by
            rw [h.eq]
            rfl
          rw [Binding.turn_of_isEarly hearly, Binding.turn_of_isEarly hearly', hsuppressed]
          exact ⟨e, rfl, h⟩
      | false =>
          have hearly' := (h.reloaded.isEarly call).trans hearly
          obtain ⟨e', hserve, hahead⟩ := h.serve (b.refresh cursor d).1 call
          rw [Binding.turn_of_isEarly_eq_false hearly, Binding.turn_of_isEarly_eq_false hearly', h.refresh, hserve]
          exact ⟨e', rfl, hahead⟩

end Dataset.Ahead

/-! ### Calls on the bindings of a session -/

namespace Session

/-- Makes calls on bindings, one after the other; each is given with the number of its binding. -/
def serveAll (s : Session) (uses : List (Nat × BindingCall)) : Session := s.after (uses.map fun u => .use u.1 u.2)

/-- What the calls answer, each with the number of its binding. -/
def answers (s : Session) : List (Nat × BindingCall) → List (Nat × Answer)
  | [] => []
  | u :: uses => (u.1, (s.apply (.use u.1 u.2)).answer) :: (s.apply (.use u.1 u.2)).state.answers uses

/-- What a call answers if it is the only one. -/
def alone (s : Session) (u : Nat × BindingCall) : Nat × Answer := (u.1, (s.apply (.use u.1 u.2)).answer)

/-- The nodes that are loaded once some of the calls has been made as the only one. -/
def touches (s : Session) (uses : List (Nat × BindingCall)) (id : NodeId) : Prop :=
  ∃ u ∈ uses, ((s.apply (.use u.1 u.2)).state.dataset.object? id).isSome = true

section Uses

variable {s t : Session} {more : NodeId → Prop} {i : Nat} {call : BindingCall} {uses : List (Nat × BindingCall)}

theorem apply_use_of_none (h : s.bindings[i]? = none) : s.apply (.use i call) = ⟨.nothing, s, []⟩ := by
  simp only [apply, h]

theorem apply_use_of_some {b : Binding} (h : s.bindings[i]? = some b) :
    s.apply (.use i call) =
      ⟨(b.call s.dataset call).value, ⟨(b.call s.dataset call).state, s.bindings.set i (b.call s.dataset call).binding⟩,
        (b.call s.dataset call).events⟩ := by
  simp only [apply, h]

theorem reaches_use (s : Session) (u : Nat × BindingCall) :
    Dataset.cursor.Reaches s.dataset (s.apply (.use u.1 u.2)).state.dataset := by
  cases hs : s.bindings[u.1]? with
  | none =>
      rw [apply_use_of_none hs]
      exact .refl
  | some b =>
      rw [apply_use_of_some hs]
      exact reaches_call b s.dataset u.2

/-- A call on a binding goes alike in two sessions of which the one has loaded more. -/
theorem ahead_use (h : s.dataset.Ahead more t.dataset) {u : Nat × BindingCall}
    (hb : t.bindings[u.1]? = s.bindings[u.1]?) :
    t.alone u = s.alone u ∧
      (t.apply (.use u.1 u.2)).state.bindings[u.1]? = (s.apply (.use u.1 u.2)).state.bindings[u.1]? ∧
      (s.apply (.use u.1 u.2)).state.dataset.Ahead more (t.apply (.use u.1 u.2)).state.dataset := by
  cases hs : s.bindings[u.1]? with
  | none =>
      have ht : t.bindings[u.1]? = none := hb.trans hs
      rw [alone, alone, apply_use_of_none hs, apply_use_of_none ht]
      exact ⟨rfl, hb, h⟩
  | some b =>
      have ht : t.bindings[u.1]? = some b := hb.trans hs
      obtain ⟨e, hcall, hahead⟩ := h.call b u.2
      rw [alone, alone, apply_use_of_some hs, apply_use_of_some ht, hcall]
      refine ⟨rfl, ?_, hahead⟩
      show (t.bindings.set u.1 _)[u.1]? = (s.bindings.set u.1 _)[u.1]?
      rw [List.getElem?_set_self (List.getElem?_eq_some_iff.1 ht).1, List.getElem?_set_self (List.getElem?_eq_some_iff.1 hs).1]

theorem bindings_use_of_ne (s : Session) {u : Nat × BindingCall} (h : i ≠ u.1) :
    (s.apply (.use u.1 u.2)).state.bindings[i]? = s.bindings[i]? := by
  cases hs : s.bindings[u.1]? with
  | none => rw [apply_use_of_none hs]
  | some b =>
      rw [apply_use_of_some hs]
      exact List.getElem?_set_ne (Ne.symm h)

theorem bindings_serveAll_of_notMem (s : Session) (h : i ∉ uses.map Prod.fst) :
    (s.serveAll uses).bindings[i]? = s.bindings[i]? := by
  induction uses generalizing s with
  | nil => rfl
  | cons u uses ih =>
      rw [List.map_cons, List.mem_cons, not_or] at h
      show ((s.apply (.use u.1 u.2)).state.serveAll uses).bindings[i]? = s.bindings[i]?
      rw [ih _ h.2, bindings_use_of_ne s h.1]

theorem touches_cons (s : Session) (u : Nat × BindingCall) (uses : List (Nat × BindingCall)) (id : NodeId) :
    s.touches (u :: uses) id ↔
      ((s.apply (.use u.1 u.2)).state.dataset.object? id).isSome = true ∨ s.touches uses id := by
  simp only [touches, List.mem_cons, or_and_right, exists_or, exists_eq_left]

/-- A row of calls on distinct bindings, in a session that may have loaded more than another one already: each call goes
as if it were the only one in that other session, and what they load adds up. -/
theorem ahead_serveAll (h : s.dataset.Ahead more t.dataset) (hdistinct : (uses.map Prod.fst).Nodup)
    (hb : ∀ u ∈ uses, t.bindings[u.1]? = s.bindings[u.1]?) :
    t.answers uses = uses.map s.alone ∧
      (∀ u ∈ uses, (t.serveAll uses).bindings[u.1]? = (s.apply (.use u.1 u.2)).state.bindings[u.1]?) ∧
      s.dataset.Ahead (fun id => more id ∨ s.touches uses id) (t.serveAll uses).dataset := by
  induction uses generalizing t more with
  | nil =>
      refine ⟨rfl, fun u hu => absurd hu List.not_mem_nil, h.congr ?_⟩
      intro id
      simp only [touches, List.not_mem_nil, false_and, exists_false, or_false]
  | cons u uses ih =>
      rw [List.map_cons, List.nodup_cons] at hdistinct
      obtain ⟨hfresh, hdistinct⟩ := hdistinct
      obtain ⟨hanswer, hbinding, hahead⟩ := ahead_use h (hb u List.mem_cons_self)
      have halone := (Dataset.Ahead.of_reaches h.wires (reaches_use s u)).trans hahead
      have hrest : ∀ v ∈ uses, (t.apply (.use u.1 u.2)).state.bindings[v.1]? = s.bindings[v.1]? := by
        intro v hv
        have hne : v.1 ≠ u.1 := fun heq => hfresh (heq ▸ List.mem_map_of_mem hv)
        rw [bindings_use_of_ne t hne]
        exact hb v (List.mem_cons_of_mem u hv)
      obtain ⟨hanswers, hbindings, htotal⟩ := ih halone hdistinct hrest
      refine ⟨?_, ?_, ?_⟩
      · show t.alone u :: (t.apply (.use u.1 u.2)).state.answers uses = s.alone u :: uses.map s.alone
        rw [hanswer, hanswers]
      · refine List.forall_mem_cons.2 ⟨?_, hbindings⟩
        exact (bindings_serveAll_of_notMem _ hfresh).trans hbinding
      · refine htotal.congr ?_
        intro id
        rw [touches_cons, or_assoc]
        exact or_congr_right or_left_comm

/-- A row of calls on distinct bindings leaves each binding as if the call on it had been the only one. -/
theorem bindings_serveAll_perm {uses' : List (Nat × BindingCall)}
    (hwires : ∀ id, (s.dataset.object? id).isSome = true → s.dataset.isWired id = true)
    (hdistinct : (uses.map Prod.fst).Nodup) (hperm : uses'.Perm uses) :
    (s.serveAll uses').bindings = (s.serveAll uses).bindings := by
  have hdistinct' : (uses'.map Prod.fst).Nodup := (hperm.map Prod.fst).nodup_iff.2 hdistinct
  obtain ⟨-, hserved, -⟩ := ahead_serveAll (Dataset.Ahead.refl hwires) hdistinct (fun _ _ => rfl)
  obtain ⟨-, hserved', -⟩ := ahead_serveAll (Dataset.Ahead.refl hwires) hdistinct' (fun _ _ => rfl)
  refine List.ext_getElem? ?_
  intro i
  by_cases hi : i ∈ uses.map Prod.fst
  · obtain ⟨u, hu, rfl⟩ := List.mem_map.1 hi
    rw [hserved u hu, hserved' u (hperm.mem_iff.2 hu)]
  · have hi' : i ∉ uses'.map Prod.fst := fun hmem => hi ((hperm.map Prod.fst).mem_iff.1 hmem)
    rw [bindings_serveAll_of_notMem s hi, bindings_serveAll_of_notMem s hi']

theorem touches_perm {uses' : List (Nat × BindingCall)} (hperm : uses'.Perm uses) (id : NodeId) :
    s.touches uses' id ↔ s.touches uses id := by
  simp only [touches, hperm.mem_iff]

end Uses

/-- **Columns do not influence one another on a row.**  In every state that a dataset can come to, with whatever bindings:
calls on distinct bindings can be made in any order.  Each answers the same and leaves its binding the same; the same
nodes are loaded, though in another order, and the same ones are wired. -/
theorem serveAll_perm (identity : RegistryId) (types : Catalog) (settings : Settings) (calls : List SessionCall)
    (bindings : List Binding) {uses uses' : List (Nat × BindingCall)} (hdistinct : (uses.map Prod.fst).Nodup)
    (hperm : uses'.Perm uses) :
    let s : Session := ⟨((start identity types settings).after calls).dataset, bindings⟩
    let one := s.serveAll uses
    let other := s.serveAll uses'
    (s.answers uses').Perm (s.answers uses) ∧ other.bindings = one.bindings ∧
      other.dataset.loads.Perm one.dataset.loads ∧
      (∀ id, other.dataset.object? id = one.dataset.object? id) ∧
      (∀ id, other.dataset.isWired id = one.dataset.isWired id) ∧
      other.dataset = { one.dataset with wired := other.dataset.wired, loaded := other.dataset.loaded } := by
  intro s one other
  have hs : s.dataset.Consistent :=
    consistent_after (s := start identity types settings) (Dataset.consistent_empty identity types settings) calls
  have hwires : ∀ id, (s.dataset.object? id).isSome = true → s.dataset.isWired id = true :=
    fun id => hs.isWired_of_object?
  have hdistinct' : (uses'.map Prod.fst).Nodup := (hperm.map Prod.fst).nodup_iff.2 hdistinct
  obtain ⟨hanswers, -, hone⟩ := ahead_serveAll (Dataset.Ahead.refl hwires) hdistinct (fun _ _ => rfl)
  obtain ⟨hanswers', -, hother⟩ := ahead_serveAll (Dataset.Ahead.refl hwires) hdistinct' (fun _ _ => rfl)
  have hlevel := hone.level hother (fun id => or_congr_right (touches_perm hperm id).symm)
  refine ⟨?_, bindings_serveAll_perm hwires hdistinct hperm, ?_, hlevel.object?_eq, hlevel.isWired_eq, hlevel.eq⟩
  · rw [hanswers, hanswers']
    exact hperm.map s.alone
  · have hnode : ∀ id, other.dataset.node? id = one.dataset.node? id := by
      intro id
      rw [Dataset.node?, Dataset.node?, hlevel.reloaded.schema?]
    have hobject : ∀ id, other.dataset.object? id = one.dataset.object? id := hlevel.object?_eq
    have hone : one.dataset.Consistent := consistent_after hs _
    have hother : other.dataset.Consistent := consistent_after hs _
    refine (List.perm_ext_iff_of_nodup hother.nodup_loads hone.nodup_loads).2 ?_
    intro name
    simp only [hone.mem_loads_iff, hother.mem_loads_iff, hnode, hobject]

/-- The file with a node inside another one, and a row that has an object for either. -/
def fullRun : File := { nestedRun with rows := [⟨[("event", ⟨0x1000⟩), ("run", ⟨0x1008⟩)]⟩] }

/-- That file, wired lazily, and bindings of the inner and of the outer node, and of one that is not there. -/
def fullSetup : List SessionCall :=
  [.dataset (.pushFile fullRun), .dataset (.setLazyWiring true), .bind "run" none, .bind "event" none,
    .bind "lost" none, .dataset .next]

/-- The inner node loads both nodes, itself first; the outer node loads itself. -/
theorem serveAll_fullRun :
    let d := ((start ⟨0⟩ Catalog.builtins ⟨[], 0⟩).after fullSetup)
    let uses := [(0, BindingCall.address), (1, BindingCall.address), (2, BindingCall.read)]
    let uses' := [(2, BindingCall.read), (1, BindingCall.address), (0, BindingCall.address)]
    (uses.map Prod.fst).Nodup ∧ uses'.Perm uses ∧ (d.serveAll uses').bindings = (d.serveAll uses).bindings ∧
      (d.serveAll uses).dataset.loads = ["run", "event"] ∧ (d.serveAll uses').dataset.loads = ["event", "run"] := by
  intro d uses uses'
  have hdistinct : (uses.map Prod.fst).Nodup := by decide
  have hperm : uses'.Perm uses := List.reverse_perm uses
  have h := serveAll_perm ⟨0⟩ Catalog.builtins ⟨[], 0⟩ fullSetup d.bindings hdistinct hperm
  exact ⟨hdistinct, hperm, h.2.1, by decide +kernel, by decide +kernel⟩

end Session

end TypedColumns
