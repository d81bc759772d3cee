import TypedColumns.Proofs.Generations
import TypedColumns.Proofs.Turns

/-!
# What is not told of missing columns

A client can ask not to be told of some columns when they are missing.  Whatever it asks for, all calls come to the same;
only what is told differs, and only in what is told of these columns.

* `RowCursor.Carries` -- one cursor answers like another, but for what it suppresses; then bindings do the same with
  both (`Carries.planRead`, `Carries.serve`).
* `SetupError.missing?`, `SetupError.IsAbout` -- the column that is missing; it is the binding's own
  (`Binding.isAbout_of_resolve`).
* `Event.heard` -- what is told instead of an event when some paths are suppressed.
* `RowCursor.Mutes` -- the one cursor suppresses some paths and the other nothing; a call on a binding comes to the same
  with both, and what is told of it is muted (`Mutes.callOn`).
* `Dataset.hush`, `Session.hush` -- the same with other paths suppressed.
* `Session.replies`, `Session.log` -- what a run of calls answers and tells.
* `Session.runs_of_suppressed` -- two runs that differ in what is suppressed.
-/

namespace TypedColumns

/-! ### Cursors that answer alike -/

/-- A cursor answers in the states `f s` as another one does in the states `s`, but for what it suppresses. -/
structure RowCursor.Carries {σ τ : Type} (c : RowCursor σ) (c' : RowCursor τ) (f : σ → τ) : Prop where
  schema : ∀ s, c'.schema (f s) = c.schema s
  types : ∀ s, c'.types (f s) = c.types s
  image : ∀ s, c'.image (f s) = c.image s
  registry : ∀ s, c'.registry (f s) = c.registry s
  generation : ∀ s, c'.generation (f s) = c.generation s
  status : ∀ s, c'.status (f s) = c.status s
  activeRow : ∀ s, c'.activeRow (f s) = c.activeRow s
  hasDirector : ∀ s, c'.hasDirector (f s) = c.hasDirector s
  isWired : ∀ s, c'.isWired (f s) = c.isWired s
  load : ∀ s id, c'.load (f s) id = ((c.load s id).1, f (c.load s id).2)
  object? : ∀ s, c'.object? (f s) = c.object? s

/-- A read that ends in another state. -/
def PlanRead.carry {σ τ : Type} (r : PlanRead σ) (f : σ → τ) : PlanRead τ := ⟨r.base, r.plan, f r.state, r.events⟩

/-- A turn that ends in another state. -/
def Turn.carry {σ τ α : Type} (t : Turn σ α) (f : σ → τ) : Turn τ α := ⟨t.value, t.binding, f t.state, t.events⟩

namespace RowCursor.Carries

variable {σ τ : Type} {c : RowCursor σ} {c' : RowCursor τ} {f : σ → τ}

theorem loadAll (h : c.Carries c' f) (ids : List NodeId) (s : σ) :
    c'.loadAll ids (f s) = ((c.loadAll ids s).1, f (c.loadAll ids s).2) := by
  induction ids generalizing s with
  | nil => rfl
  | cons id ids ih =>
      rw [RowCursor.loadAll, RowCursor.loadAll, h.load]
      cases c.load s id with
      | mk r t =>
          cases r with
          | error e => rfl
          | ok u => exact ih t

theorem shapeRead (h : c.Carries c' f) (shape : Shape) (t : Target) (s : σ) :
    shape.read c' t (f s) = ((shape.read c t s).1, f (shape.read c t s).2) := by
  rw [Shape.read, Shape.read]
  cases shape.needs t with
  | error e => rfl
  | ok ids =>
      dsimp only
      rw [h.loadAll]
      cases c.loadAll ids s with
      | mk r s =>
          cases r with
          | error e => rfl
          | ok u =>
              dsimp only
              rw [h.object?, h.image]

theorem decideAndRead (h : c.Carries c' f) (p : Plan) (s : σ) :
    p.decideAndRead c' (f s) = (p.decideAndRead c s).carry f := by
  simp only [Plan.decideAndRead, h.hasDirector, h.shapeRead]
  rfl

/-- Reading by a plan goes alike. -/
theorem planRead (h : c.Carries c' f) (p : Plan) (s : σ) : p.read c' (f s) = (p.read c s).carry f := by
  rw [Plan.read, Plan.read, h.generation]
  split
  · rfl
  · split
    · rw [h.shapeRead]
      rfl
    · rw [h.isWired]
      split
      · exact h.decideAndRead p s
      · rw [h.shapeRead]
        cases Shape.noCoordinator.read c p.target s with
        | mk r s =>
            cases r with
            | error e => rfl
            | ok base =>
                dsimp only
                rw [h.isWired]
                split
                · exact h.decideAndRead p s
                · rfl

theorem resolve (h : c.Carries c' f) (b : Binding) (s : σ) : b.resolve c' (f s) = b.resolve c s := by
  simp only [Binding.resolve, h.registry, h.schema, h.types, h.generation, h.status]

/-- A set-up finds the same. -/
theorem setup (h : c.Carries c' f) (b : Binding) (s : σ) : (b.setup c' (f s)).1 = (b.setup c s).1 := by
  simp only [Binding.setup, h.resolve, h.generation]

theorem isFresh (h : c.Carries c' f) (b : Binding) (s : σ) : b.isFresh c' (f s) = b.isFresh c s := by
  simp only [Binding.isFresh, h.generation]

theorem refresh (h : c.Carries c' f) (b : Binding) (s : σ) : (b.refresh c' (f s)).1 = (b.refresh c s).1 := by
  rw [Binding.refresh, Binding.refresh, h.isFresh]
  split
  · rfl
  · exact h.setup b s

theorem isEarly (h : c.Carries c' f) (call : BindingCall) (s : σ) : call.isEarly c' (f s) = call.isEarly c s := by
  cases call <;> simp only [BindingCall.isEarly, h.status]

theorem skips (h : c.Carries c' f) (call : BindingCall) (b : Binding) (s : σ) :
    call.skips b c' (f s) = call.skips b c s := by
  cases call <;> simp only [BindingCall.skips, Binding.misses, h.status, h.activeRow]

theorem outcome (h : c.Carries c' f) (call : BindingCall) (m : Match) (s : σ) :
    call.outcome m c' (f s) = call.outcome m c s := by
  simp only [BindingCall.outcome, h.planRead, PlanRead.carry, h.image]

/-- Serving a binding that is up to date goes alike. -/
theorem serve (h : c.Carries c' f) (b : Binding) (s : σ) (call : BindingCall) :
    b.serve c' (f s) call = (b.serve c s call).carry f := by
  rw [Binding.serve, Binding.serve, h.skips]
  split
  · rfl
  · split
    · rfl
    · simp only [h.outcome, Match.advance, h.planRead]
      rfl

end RowCursor.Carries

/-! ### Missing columns -/

namespace SetupError

/-- The column that is missing, if an error is about a missing one. -/
def missing? : SetupError → Option String
  | .missingColumn path | .missingSubColumn path => some path
  | _ => none

/-- Clients can ask not to be told of missing columns only. -/
theorem isSuppressible_eq (e : SetupError) : e.isSuppressible = e.missing?.isSome := by
  cases e <;> rfl

/-- An error is about a column of a path, if it is about a missing one at all. -/
def IsAbout (e : SetupError) (path : String) : Prop := ∀ p, e.missing? = some p → p = path

end SetupError

section Faults

variable {types : Catalog} {path : String} {requested : Option Descriptor} {e : SetupError}

theorem isAbout_missingSubColumn (path : String) : (SetupError.missingSubColumn path).IsAbout path :=
  fun _ hp => (Option.some.inj hp).symm

theorem isAbout_of_typeChecked {type : String} (h : typeChecked types path requested type = .error e) :
    e.IsAbout path := by
  rw [typeChecked] at h
  split at h
  · cases h
    intro _ hp
    cases hp
  · split at h
    · cases h
    · split at h
      · cases h
      · cases h
        intro _ hp
        cases hp

theorem isAbout_of_walkMembers {layout : List Member} {names : List String} {w : Walk}
    (h : walkMembers types path layout names w = .error e) : e.IsAbout path := by
  fun_induction walkMembers types path layout names w with
  | case1 => cases h
  | case2 =>
      cases h
      exact isAbout_missingSubColumn path
  | case3 =>
      cases h
      intro _ hp
      cases hp
  | case4 => cases h
  | case5 =>
      cases h
      exact isAbout_missingSubColumn path
  | case6 _ _ _ _ _ _ _ _ _ _ _ ih => exact ih h

namespace Schema

variable {s : Schema}

theorem isAbout_of_resolveInside (h : s.resolveInside types path requested = .error e) : e.IsAbout path := by
  rw [resolveInside] at h
  split at h
  · cases h
    exact isAbout_missingSubColumn path
  · split at h
    · cases h
      exact isAbout_missingSubColumn path
    · split at h
      · rw [resolveWalk] at h
        split at h
        · rename_i hw
          cases h
          exact isAbout_of_walkMembers hw
        · split at h
          · rename_i ht
            cases h
            exact isAbout_of_typeChecked ht
          · cases h
      · rw [resolveLeaf] at h
        split at h
        · cases h
          exact isAbout_missingSubColumn path
        · split at h
          · rename_i ht
            cases h
            exact isAbout_of_typeChecked ht
          · cases h

theorem isAbout_of_resolveWhole {literal : Option NodeId} (h : s.resolveWhole types path requested literal = .error e) :
    e.IsAbout path := by
  unfold resolveWhole at h
  split at h
  · cases h
    exact fun _ hp => (Option.some.inj hp).symm
  · split at h
    · cases h
      exact fun _ hp => (Option.some.inj hp).symm
    · split at h
      · rename_i ht
        cases h
        exact isAbout_of_typeChecked ht
      · cases h

/-- A path that does not resolve is missing itself, if anything is. -/
theorem isAbout_of_resolve (h : (s.resolve types path requested).1 = .error e) : e.IsAbout path := by
  rw [resolve] at h
  split at h
  · split at h
    · split at h
      · exact isAbout_of_resolveWhole h
      · cases h
    · exact isAbout_of_resolveWhole h
    · exact isAbout_of_resolveInside h
  · exact isAbout_of_resolveWhole h

end Schema

/-- The column that is found missing when a binding is set up is the binding's own. -/
theorem Binding.isAbout_of_resolve {σ : Type} {b : Binding} {c : RowCursor σ} {s : σ}
    (h : (b.resolve c s).1 = .error e) : e.IsAbout b.path := by
  rw [resolve] at h
  split at h
  · cases h
    intro _ hp
    cases hp
  · split at h
    · cases h
      intro _ hp
      cases hp
    · simp only at h
      split at h
      · rename_i hrequest
        cases h
        split at hrequest
        · cases hrequest
        · split at hrequest
          · cases hrequest
          · cases hrequest
            intro _ hp
            cases hp
      · split at h
        · rename_i hresolve
          cases h
          exact Schema.isAbout_of_resolve (congrArg Prod.fst hresolve)
        · split at h
          · cases h
            intro _ hp
            cases hp
          · cases h

end Faults

/-! ### What is told -/

namespace Event

/-- What is told instead of an event when some paths are suppressed: that a column is missing is told less urgently, and
that a value was asked for too early is not told at all. -/
def heard (paths : List String) : Event → Option Event
  | .setupFailed cause =>
    match cause.missing? with
    | some path => some (if paths.contains path then .setupSuppressed cause else .setupFailed cause)
    | none => some (.setupFailed cause)
  | .notInitialized path => if paths.contains path then none else some (.notInitialized path)
  | e => some e

/-- Whether it depends on the suppressed paths what is told instead of an event. -/
def isHushable : Event → Bool
  | .setupFailed _ | .notInitialized _ => true
  | _ => false

theorem heard_of_not_isHushable {e : Event} (h : e.isHushable = false) (paths : List String) :
    e.heard paths = some e := by
  cases e with
  | setupFailed cause => cases h
  | notInitialized path => cases h
  | _ => rfl

theorem filterMap_heard {events : List Event} (h : ∀ e ∈ events, e.isHushable = false) (paths : List String) :
    events.filterMap (heard paths) = events := by
  induction events with
  | nil => rfl
  | cons e events ih =>
      rw [List.filterMap_cons, heard_of_not_isHushable (h e List.mem_cons_self)]
      exact congrArg (e :: ·) (ih (fun e' he => h e' (List.mem_cons_of_mem e he)))

theorem isHushable_ofOutcome {α : Type} {path : String} {outcome : Except ReadError α} :
    ∀ e ∈ ofOutcome path outcome, e.isHushable = false := by
  intro e he
  cases outcome with
  | ok a => cases he
  | error err =>
      rw [List.mem_singleton.1 he]
      rfl

/-- Only what is urgent depends on the suppressed paths: that a column is missing, or was asked for too early. -/
theorem urgent_of_heard_ne {paths paths' : List String} {e : Event} (h : e.heard paths ≠ e.heard paths') :
    e.level = .error ∧ ∃ path, paths.contains path ≠ paths'.contains path ∧
      (e = .notInitialized path ∨ ∃ cause, e = .setupFailed cause ∧ cause.missing? = some path) := by
  cases e with
  | setupFailed cause =>
      refine ⟨rfl, ?_⟩
      cases hmissing : cause.missing? with
      | none => exact absurd (by simp only [heard, hmissing]) h
      | some path =>
          refine ⟨path, ?_, .inr ⟨cause, rfl, hmissing⟩⟩
          intro hsame
          exact h (by simp only [heard, hmissing, hsame])
  | notInitialized path =>
      refine ⟨rfl, path, ?_, .inl rfl⟩
      intro hsame
      exact h (by simp only [heard, hsame])
  | _ => exact absurd rfl h

/-- What is told otherwise is told less urgently. -/
theorem quiet_of_heard_eq_some {paths : List String} {e e' : Event} (h : e.heard paths = some e') (hne : e' ≠ e) :
    e'.level = .debug ∧ ∃ cause, e = .setupFailed cause ∧ e' = .setupSuppressed cause := by
  cases e with
  | setupFailed cause =>
      cases hmissing : cause.missing? with
      | none =>
          simp only [heard, hmissing, Option.some.injEq] at h
          exact absurd h.symm hne
      | some path =>
          simp only [heard, hmissing, Option.some.injEq] at h
          split at h
          · cases h
            exact ⟨rfl, cause, rfl, rfl⟩
          · exact absurd h.symm hne
  | notInitialized path =>
      simp only [heard] at h
      split at h
      · cases h
      · exact absurd (Option.some.inj h).symm hne
  | _ => exact absurd (Option.some.inj h).symm hne

end Event

/-- Nothing that is told of how a path resolves depends on the suppressed paths. -/
theorem Schema.isHushable_resolve (s : Schema) (types : Catalog) (path : String) (requested : Option Descriptor) :
    ∀ e ∈ (s.resolve types path requested).2, e.isHushable = false := by
  intro e he
  rw [resolve] at he
  split at he
  · split at he
    · split at he
      · rw [List.mem_singleton.1 he]
        rfl
      · cases he
    · rw [List.mem_singleton.1 he]
      rfl
    · cases he
  · cases he

theorem Binding.isHushable_resolve {σ : Type} (b : Binding) (c : RowCursor σ) (s : σ) :
    ∀ e ∈ (b.resolve c s).2, e.isHushable = false := by
  intro e he
  rw [resolve] at he
  split at he
  · cases he
  · split at he
    · cases he
    · simp only at he
      split at he
      · cases he
      · rename_i schema _ _ requested _
        have hall := schema.isHushable_resolve (c.types s) b.path requested
        split at he
        · rename_i hresolve
          rw [hresolve] at hall
          exact hall e he
        · rename_i hresolve
          rw [hresolve] at hall
          split at he <;> exact hall e he

theorem Plan.isHushable_read {σ : Type} (p : Plan) (c : RowCursor σ) (s : σ) :
    ∀ e ∈ (p.read c s).events, e.isHushable = false := by
  have hdecide : ∀ t, ∀ e ∈ (p.decideAndRead c t).events, e.isHushable = false := by
    intro t e he
    rw [List.mem_singleton.1 he]
    rfl
  rw [read]
  split
  · intro _ he
    cases he
  · split
    · intro _ he
      cases he
    · split
      · exact hdecide s
      · split
        · intro _ he
          cases he
        · split
          · exact hdecide _
          · intro _ he
            cases he

theorem Binding.isHushable_serve {σ : Type} (b : Binding) (c : RowCursor σ) (s : σ) (call : BindingCall) :
    ∀ e ∈ (b.serve c s call).events, e.isHushable = false := by
  rw [serve]
  split
  · intro _ he
    cases he
  · split
    · intro _ he
      cases he
    · intro e he
      rcases List.mem_append.1 he with he | he
      · exact Plan.isHushable_read _ c s e he
      · exact Event.isHushable_ofOutcome e he

/-! ### Calls on bindings -/

/-- One cursor answers as another one does, but where that one suppresses nothing this one suppresses some paths. -/
structure RowCursor.Mutes {σ τ : Type} (c : RowCursor σ) (c' : RowCursor τ) (f : σ → τ) (s : σ) (paths : List String) :
    Prop extends c.Carries c' f where
  told : ∀ path, c.isSuppressed s path = false
  muted : ∀ path, c'.isSuppressed (f s) path = paths.contains path

/-- What is left of a turn when some paths are suppressed. -/
def Turn.mute {σ τ α : Type} (t : Turn σ α) (f : σ → τ) (paths : List String) : Turn τ α :=
  ⟨t.value, t.binding, f t.state, t.events.filterMap (Event.heard paths)⟩

namespace RowCursor.Mutes

variable {σ τ : Type} {c : RowCursor σ} {c' : RowCursor τ} {f : σ → τ} {s : σ} {paths : List String}

theorem setupFailure (h : c.Mutes c' f s paths) {b : Binding} {e : SetupError}
    (hresolve : (b.resolve c s).1 = .error e) :
    (b.setupFailure c s e).heard paths = some (b.setupFailure c' (f s) e) := by
  have habout := Binding.isAbout_of_resolve hresolve
  simp only [Binding.setupFailure, h.told, h.muted, e.isSuppressible_eq, Bool.and_false, Bool.false_eq_true, if_false,
    Event.heard]
  cases hmissing : e.missing? with
  | none => rfl
  | some path => rw [habout path hmissing, Option.isSome_some, Bool.true_and]

theorem events_setup (h : c.Mutes c' f s paths) (b : Binding) :
    (b.setup c' (f s)).2 = (b.setup c s).2.filterMap (Event.heard paths) := by
  have hfixed := Event.filterMap_heard (b.isHushable_resolve c s) paths
  simp only [Binding.setup, h.resolve]
  cases hresolve : (b.resolve c s).1 with
  | ok m => exact hfixed.symm
  | error e =>
      dsimp only
      rw [List.filterMap_append, hfixed, List.filterMap_cons, h.setupFailure hresolve]
      rfl

theorem events_refresh (h : c.Mutes c' f s paths) (b : Binding) :
    (b.refresh c' (f s)).2 = (b.refresh c s).2.filterMap (Event.heard paths) := by
  rw [Binding.refresh, Binding.refresh, h.isFresh]
  split
  · rfl
  · exact h.events_setup b

/-- A call on a binding comes to the same with either cursor, and what is told of it is muted. -/
theorem callOn (h : c.Mutes c' f s paths) (b : Binding) (call : BindingCall) :
    b.callOn c' (f s) call = (b.callOn c s call).mute f paths := by
  cases hreads : call.reads with
  | false =>
      cases call with
      | setup =>
          simp only [Binding.callOn, h.setup, h.events_setup]
          rfl
      | _ => cases hreads
  | true =>
      rw [Binding.callOn_eq b c s hreads, Binding.callOn_eq b c' (f s) hreads]
      cases hearly : call.isEarly c s with
      | true =>
          rw [Binding.turn_of_isEarly hearly, Binding.turn_of_isEarly ((h.isEarly call s).trans hearly), h.told, h.muted,
            Turn.mute, if_neg Bool.false_ne_true, List.filterMap_cons, Event.heard]
          cases paths.contains b.path <;> rfl
      | false =>
          rw [Binding.turn_of_isEarly_eq_false hearly,
            Binding.turn_of_isEarly_eq_false ((h.isEarly call s).trans hearly), h.refresh, h.events_refresh, h.serve,
            Turn.mute, List.filterMap_append, Event.filterMap_heard (Binding.isHushable_serve _ c s call)]
          rfl

end RowCursor.Mutes

/-! ### Datasets -/

namespace Dataset

/-- The dataset with other paths suppressed. -/
def hush (d : Dataset) (paths : List String) : Dataset := { d with settings := { d.settings with suppressed := paths } }

theorem load_hush (d : Dataset) (paths : List String) (id : NodeId) :
    (d.hush paths).load id = ((d.load id).1, (d.load id).2.hush paths) := by
  have hobject : (d.hush paths).object? id = d.object? id := rfl
  have hnode : (d.hush paths).schema?.bind (fun s => s.get? id) = d.schema?.bind (fun s => s.get? id) := rfl
  rw [load, load, hobject, hnode]
  split
  · rfl
  · split
    · rfl
    · rename_i node _
      have hcorrupt : (d.hush paths).corrupt = d.corrupt := rfl
      have hrow : (d.hush paths).activeRow node.source = d.activeRow node.source := rfl
      have hsource : (d.hush paths).sourceRow? node.source = d.sourceRow? node.source := rfl
      rw [hcorrupt, hrow, hsource]
      split
      · rfl
      · split
        · rfl
        · split <;> rfl

/-- What is suppressed changes nothing else that a dataset shows. -/
theorem carries_hush (paths : List String) : cursor.Carries cursor (fun d => d.hush paths) where
  schema _ := rfl
  types _ := rfl
  image _ := rfl
  registry _ := rfl
  generation _ := rfl
  status _ := rfl
  activeRow _ := rfl
  hasDirector _ := rfl
  isWired _ := rfl
  load d id := load_hush d paths id
  object? _ := rfl

theorem mutes_hush {d : Dataset} (h : d.settings.suppressed = []) (paths : List String) :
    cursor.Mutes cursor (fun d => d.hush paths) d paths where
  toCarries := carries_hush paths
  told path := by
    show d.settings.suppressed.contains path = false
    rw [h]
    rfl
  muted _ := rfl

theorem wire_hush (d : Dataset) (paths : List String) : (d.hush paths).wire = d.wire.hush paths := by
  have hlazy : (d.hush paths).lazyWiring = d.lazyWiring := rfl
  have hwired : (d.hush paths).wired = d.wired := rfl
  have hfile : (d.hush paths).file? = d.file? := rfl
  rw [wire, wire, hlazy, hwired, hfile]
  split
  · split <;> rfl
  · rfl

theorem seek_hush (d : Dataset) (paths : List String) (entry : UInt64) :
    (d.hush paths).seek entry = ((d.seek entry).1.hush paths, (d.seek entry).2) := by
  have hfiles : (d.hush paths).files = d.files := rfl
  have hcurrent : (d.hush paths).current = d.current := rfl
  rw [seek, seek, hfiles]
  dsimp only
  cases locateRow d.files 0 entry.toNat with
  | none => rfl
  | some place =>
      obtain ⟨file, row⟩ := place
      let unloaded : Dataset := { d with loaded := [] }
      let onRow (missed : Bool) (e : Dataset) : Dataset := { e with position := .onRow entry row missed }
      dsimp only
      rw [hcurrent]
      split
      · exact congrArg (fun e => (onRow _ e, (unloaded.switchTo file).2)) (wire_hush (unloaded.switchTo file).1 paths)
      · exact congrArg (fun e => (onRow _ e, [])) (wire_hush unloaded paths)

/-- A call on a dataset comes to the same whatever is suppressed. -/
theorem call_hush (d : Dataset) (paths : List String) (call : DatasetCall) :
    (d.hush paths).call call = ⟨(d.call call).answer, (d.call call).state.hush paths, (d.call call).events⟩ := by
  cases call with
  | seek entry =>
      rw [Dataset.call, Dataset.call, seek_hush]
      rfl
  | next =>
      have hentry : (d.hush paths).nextEntry = d.nextEntry := rfl
      rw [Dataset.call, Dataset.call, next, next, hentry, seek_hush]
      rfl
  | load id =>
      rw [Dataset.call, Dataset.call, load_hush]
  | _ => rfl

/-- A dataset tells nothing of bindings. -/
theorem isHushable_call (d : Dataset) (call : DatasetCall) : ∀ e ∈ (d.call call).events, e.isHushable = false := by
  have hseek : ∀ entry, ∀ e ∈ (d.seek entry).2, e.isHushable = false := by
    intro entry e he
    simp only [seek] at he
    split at he
    · rw [List.mem_singleton.1 he]
      rfl
    · split at he
      · rcases List.mem_cons.1 he with rfl | he
        · rfl
        · rw [List.mem_singleton.1 he]
          rfl
      · cases he
  cases call with
  | seek entry => exact hseek entry
  | next => exact hseek d.nextEntry
  | pushFile file =>
      intro e he
      rw [List.mem_singleton.1 he]
      rfl
  | announce generation =>
      intro e he
      rw [List.mem_singleton.1 he]
      rfl
  | _ =>
      intro _ he
      cases he

end Dataset

/-! ### Runs -/

namespace Session

/-- The session with other paths suppressed. -/
def hush (s : Session) (paths : List String) : Session := { s with dataset := s.dataset.hush paths }

/-- What a run of calls answers. -/
def replies (s : Session) : List SessionCall → List Answer
  | [] => []
  | call :: calls => (s.apply call).answer :: (s.apply call).state.replies calls

/-- What is told in the course of a run of calls. -/
def log (s : Session) : List SessionCall → List Event
  | [] => []
  | call :: calls => (s.apply call).events ++ (s.apply call).state.log calls

/-- A call comes to the same when some paths are suppressed, and what is told of it is muted. -/
theorem apply_hush {s : Session} (h : s.dataset.settings.suppressed = []) (paths : List String) (call : SessionCall) :
    (s.hush paths).apply call =
      ⟨(s.apply call).answer, (s.apply call).state.hush paths, (s.apply call).events.filterMap (Event.heard paths)⟩ := by
  cases call with
  | dataset c =>
      have hcall := Dataset.call_hush s.dataset paths c
      have hevents := Event.filterMap_heard (Dataset.isHushable_call s.dataset c) paths
      simp only [apply, hush, hcall, hevents]
  | use i c =>
      have hbindings : (s.hush paths).bindings = s.bindings := rfl
      simp only [apply, hbindings]
      cases s.bindings[i]? with
      | none => rfl
      | some b =>
          have hcall := (Dataset.mutes_hush h paths).callOn b c
          rw [← Binding.call_eq_callOn, ← Binding.call_eq_callOn] at hcall
          have hdataset : (s.hush paths).dataset = s.dataset.hush paths := rfl
          simp only [hdataset, hcall]
          rfl
  | bind path requested => rfl
  | leave i =>
      have hbindings : (s.hush paths).bindings = s.bindings := rfl
      simp only [apply, hbindings]
      cases s.bindings[i]? with
      | none => rfl
      | some b => rfl
  | deregister id => rfl

/-- A run of calls comes to the same when some paths are suppressed, and what is told of it is muted. -/
theorem run_hush {s : Session} (h : s.dataset.settings.suppressed = []) (paths : List String)
    (calls : List SessionCall) :
    (s.hush paths).replies calls = s.replies calls ∧ (s.hush paths).after calls = (s.after calls).hush paths ∧
      (s.hush paths).log calls = (s.log calls).filterMap (Event.heard paths) := by
  induction calls generalizing s with
  | nil => exact ⟨rfl, rfl, rfl⟩
  | cons call calls ih =>
      have hkept : (s.apply call).state.dataset.settings.suppressed = [] := by
        rw [(fixed_apply s call).1]
        exact h
      obtain ⟨hreplies, hafter, hlog⟩ := ih hkept
      simp only [replies, after, log, apply_hush h paths call, hreplies, hafter, hlog, List.filterMap_append, and_self]

/-- **Suppression changes nothing but what is told.**  Take two datasets that differ in the suppressed paths, and any run
of calls on them and their bindings.  All answers are the same, the bindings are the same at the end, and so are the
datasets but for the setting itself.  What is told comes from what is told with nothing suppressed, event by event, and
the two differ only where a path is suppressed in one of them and not in the other: that this column is missing is told
at the lower level or the higher one, and that its value was asked for too early is told or not. -/
theorem runs_of_suppressed (identity : RegistryId) (types : Catalog) (base : UInt64) (paths paths' : List String)
    (calls : List SessionCall) :
    let s := start identity types ⟨paths, base⟩
    let s' := start identity types ⟨paths', base⟩
    let told := (start identity types ⟨[], base⟩).log calls
    s'.replies calls = s.replies calls ∧
    (s'.after calls).bindings = (s.after calls).bindings ∧
    (s'.after calls).dataset = (s.after calls).dataset.hush paths' ∧
    s.log calls = told.filterMap (Event.heard paths) ∧ s'.log calls = told.filterMap (Event.heard paths') ∧
    (∀ e : Event, e.heard paths ≠ e.heard paths' → e.level = .error ∧
      ∃ path, paths.contains path ≠ paths'.contains path ∧
        (e = .notInitialized path ∨ ∃ cause, e = .setupFailed cause ∧ cause.missing? = some path)) ∧
    ∀ e e' : Event, e.heard paths = some e' → e' ≠ e →
      e'.level = .debug ∧ ∃ cause, e = .setupFailed cause ∧ e' = .setupSuppressed cause := by
  intro s s' told
  obtain ⟨hreplies, hafter, hlog⟩ := run_hush (s := start identity types ⟨[], base⟩) rfl paths calls
  obtain ⟨hreplies', hafter', hlog'⟩ := run_hush (s := start identity types ⟨[], base⟩) rfl paths' calls
  have hs : s.after calls = _ := hafter
  have hs' : s'.after calls = _ := hafter'
  refine ⟨hreplies'.trans hreplies.symm, ?_, ?_, hlog, hlog', fun _ => Event.urgent_of_heard_ne, ?_⟩
  · rw [hs, hs']
    rfl
  · rw [hs, hs']
    rfl
  · exact fun _ _ => Event.quiet_of_heard_eq_some

/-- A column that is missing, asked for before the first row and on it. -/
example : (start ⟨0⟩ Catalog.builtins ⟨["gone"], 0⟩).log
    [.bind "gone" none, .use 0 (.get .i32), .dataset (.pushFile firstRun), .dataset .next, .use 0 .setup] =
      [.chained "first" 1 1, .setupSuppressed (.missingColumn "gone")] := by rfl

end Session

end TypedColumns
