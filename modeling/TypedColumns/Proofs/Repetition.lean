import TypedColumns.Proofs.Settling
import TypedColumns.Proofs.Turns

/-!
# Asking twice

A call on a binding leaves the binding and the dataset in a state in which the same call does nothing more.  What it has
loaded is loaded, what it has failed to load cannot be loaded, and what it has found out about the column or about the
shape of its node is not found out again.

* `Dataset.loadAll_loadAll`, `Dataset.shapeRead_shapeRead` -- loading the same nodes again, and reading by the same shape.
* `Plan.read_read` -- reading again by the plan that a read has left.
* `Binding.serve_serve` -- the second time that a binding is served, once it is up to date.
* `Binding.call_call` -- the second call answers the same and changes nothing.
-/

namespace TypedColumns

namespace Dataset

/-- Loads do not move a dataset: what comes before any reading is as it was. -/
theorem Reloaded.isEarly {d e : Dataset} (h : Reloaded d e) (call : BindingCall) :
    call.isEarly cursor e = call.isEarly cursor d := by
  rw [h.eq]
  rfl

theorem Reloaded.skips {d e : Dataset} (h : Reloaded d e) (b : Binding) (call : BindingCall) :
    call.skips b cursor e = call.skips b cursor d := by
  rw [h.eq]
  rfl

/-- Loading the same nodes again does nothing more, and fails where it failed. -/
theorem loadAll_loadAll (ids : List NodeId) (d : Dataset) :
    cursor.loadAll ids (cursor.loadAll ids d).2 = cursor.loadAll ids d := by
  induction ids generalizing d with
  | nil => rfl
  | cons id ids ih =>
      cases hload : cursor.load d id with
      | mk r e =>
          cases r with
          | error err =>
              obtain rfl : e = d := eq_of_load_error hload
              simp only [RowCursor.loadAll, hload]
          | ok u =>
              have hobject : (e.object? id).isSome = true := object?_of_load hload
              obtain ⟨a, ha⟩ := Option.isSome_iff_exists.1 hobject
              have hstays := object?_of_reaches ha (reaches_loadAll cursor ids e)
              have hagain : cursor.load (cursor.loadAll ids e).2 id = (.ok (), (cursor.loadAll ids e).2) :=
                load_of_object? hstays
              simp only [RowCursor.loadAll, hload, hagain]
              exact ih e

theorem shapeRead_shapeRead (shape : Shape) (t : Target) (d : Dataset) :
    shape.read cursor t (shape.read cursor t d).2 = shape.read cursor t d := by
  cases hneeds : shape.needs t with
  | error e => simp only [Shape.read, hneeds]
  | ok ids =>
      have htwice := loadAll_loadAll ids d
      cases hall : cursor.loadAll ids d with
      | mk r e =>
          rw [hall] at htwice
          cases r with
          | error err => simp only [Shape.read, hneeds, hall, htwice]
          | ok u => simp only [Shape.read, hneeds, hall, htwice]

end Dataset

/-- What a read leaves behind, if nothing is told of it. -/
def PlanRead.silent (r : PlanRead σ) : PlanRead σ := { r with events := [] }

namespace Plan

variable {p : Plan} {d : Dataset}

/-- Reading by a shape that has just been decided finds the same. -/
theorem read_decideAndRead (hgen : p.generation = d.registry.generation) :
    let r := p.decideAndRead Dataset.cursor d
    r.plan.read Dataset.cursor r.state = r.silent := by
  intro r
  have hreload := Dataset.reloaded_of_reaches (reaches_decideAndRead Dataset.cursor p d)
  have hgen : r.plan.generation = Dataset.cursor.generation r.state :=
    hgen.trans (congrArg Registry.generation hreload.registry).symm
  have htwice := Dataset.shapeRead_shapeRead (p.shapeIn d) p.target d
  have hshape : r.plan.shape = some (p.shapeIn d) := rfl
  rw [read_of_shape hgen hshape]
  exact congrArg (fun read => (⟨read.1, r.plan, read.2, []⟩ : PlanRead Dataset)) htwice

/-- Reading again by the plan that a read has left finds the same and changes nothing. -/
theorem read_read (p : Plan) (d : Dataset) :
    let r := p.read Dataset.cursor d
    r.plan.read Dataset.cursor r.state = r.silent := by
  intro r
  by_cases hgen : p.generation = d.registry.generation
  · cases hshape : p.shape with
    | some shape =>
        have hr : r = _ := read_of_shape (c := Dataset.cursor) hgen hshape
        have hreload := Dataset.reloaded_of_reaches (reaches_shapeRead Dataset.cursor shape p.target d)
        have hgen : p.generation = Dataset.cursor.generation (shape.read Dataset.cursor p.target d).2 :=
          hgen.trans (congrArg Registry.generation hreload.registry).symm
        rw [hr]
        show p.read Dataset.cursor (shape.read Dataset.cursor p.target d).2 = _
        rw [read_of_shape hgen hshape, Dataset.shapeRead_shapeRead]
        rfl
    | none =>
        cases hw : d.isWired p.target.id with
        | true =>
            have hr : r = _ := read_of_wired (c := Dataset.cursor) hgen hshape hw
            rw [hr]
            exact read_decideAndRead hgen
        | false =>
            have hr : r = _ := read_of_unwired (c := Dataset.cursor) hgen hshape hw
            rcases Dataset.noCoordinator_read_cases p.target d with ⟨a, -, -, hgeneric⟩ | ⟨err, -, hgeneric⟩
            · have hreload := Dataset.reloaded_load d p.target.id
              have hgen : p.generation = (d.load p.target.id).2.registry.generation :=
                hgen.trans (congrArg Registry.generation hreload.registry).symm
              rw [hgeneric] at hr
              -- The node may be wired now; then its shape is decided, and else it is read like this again.
              cases hwired : Dataset.cursor.isWired (d.load p.target.id).2 p.target.id with
              | true =>
                  simp only [hwired, if_true] at hr
                  rw [hr]
                  exact read_decideAndRead hgen
              | false =>
                  have htwice := Dataset.shapeRead_shapeRead .noCoordinator p.target d
                  rw [hgeneric] at htwice
                  simp only [hwired, Bool.false_eq_true, if_false] at hr
                  rw [hr]
                  show p.read Dataset.cursor (d.load p.target.id).2 = _
                  rw [read_of_unwired (c := Dataset.cursor) hgen hshape hwired, htwice]
                  simp only [hwired, Bool.false_eq_true, if_false]
                  rfl
            · rw [hgeneric] at hr
              rw [hr]
              show p.read Dataset.cursor d = _
              rw [read_of_unwired (c := Dataset.cursor) hgen hshape hw, hgeneric]
              rfl
  · have hgen : p.generation ≠ Dataset.cursor.generation d := hgen
    have hr : r = ⟨.error .staleNode, p, d, []⟩ := if_pos hgen
    rw [hr]
    exact if_pos hgen

end Plan

namespace Binding

/-! ### The second call -/

section Calls

variable {b : Binding} {call : BindingCall}

/-- A binding that is like another one but for how reading went is skipped where that one is. -/
theorem skips_congr {σ : Type} {b' : Binding} (h : b'.outline? = b.outline?) (c : RowCursor σ) (s : σ) :
    call.skips b' c s = call.skips b c s := by
  cases call with
  | setup | read => rfl
  | address | get type =>
      show b'.misses c s = b.misses c s
      rw [misses_eq, misses_eq, h]

theorem advance_advance (m : Match) (d : Dataset) :
    (m.advance Dataset.cursor d).advance Dataset.cursor (m.plan.read Dataset.cursor d).state =
      m.advance Dataset.cursor d :=
  congrArg (fun r => { m with plan := r.plan }) (Plan.read_read m.plan d)

theorem outcome_advance (call : BindingCall) (m : Match) (d : Dataset) :
    call.outcome (m.advance Dataset.cursor d) Dataset.cursor (m.plan.read Dataset.cursor d).state =
      call.outcome m Dataset.cursor d :=
  congrArg (fun r => r.base.bind (call.finish m.resolution.access (Dataset.cursor.image r.state)))
    (Plan.read_read m.plan d)

/-- A binding that is up to date is served the same again. -/
theorem serve_serve (b : Binding) (d : Dataset) (call : BindingCall) :
    let first := b.serve Dataset.cursor d call
    let second := first.binding.serve Dataset.cursor first.state call
    second.value = first.value ∧ second.binding = first.binding ∧ second.state = first.state := by
  cases hskips : call.skips b Dataset.cursor d with
  | true => simp only [serve_of_skips hskips, and_self]
  | false =>
      cases hm : b.match? with
      | none =>
          have hagain : Binding.match? { b with readStatus := .error } = none := hm
          simp only [serve_of_match?_eq_none hm, serve_of_match?_eq_none hagain, and_self]
      | some m =>
          have houtline := outline?_record (n := m.advance Dataset.cursor d) hm rfl (call.outcome m Dataset.cursor d)
          have hreload := Dataset.reloaded_of_reaches (reaches_planRead Dataset.cursor m.plan d)
          have hskips' := (hreload.skips _ call).trans ((skips_congr houtline Dataset.cursor d).trans hskips)
          have hm' := match?_record hm (m.advance Dataset.cursor d) (call.outcome m Dataset.cursor d)
          have hstate : ((m.advance Dataset.cursor d).plan.read Dataset.cursor (m.plan.read Dataset.cursor d).state).state =
              (m.plan.read Dataset.cursor d).state := by
            rw [show (m.advance Dataset.cursor d).plan.read _ _ = _ from Plan.read_read m.plan d]
            rfl
          simp only [serve_of_match? hskips hm, serve_of_match? hskips' hm', outcome_note, outcome_advance, advance_note,
            advance_advance, record_record, record_note, plan_note, hstate, and_self]

/-- **Asking twice in a row changes nothing.**  Whatever the binding and the dataset, the second of two equal calls gives
the answer of the first, and it leaves the binding and the dataset as it finds them. -/
theorem call_call (b : Binding) (d : Dataset) (call : BindingCall) :
    let first := b.call d call
    let second := first.binding.call first.state call
    second.value = first.value ∧ second.binding = first.binding ∧ second.state = first.state := by
  cases hreads : call.reads with
  | false =>
      cases call with
      | setup => exact ⟨rfl, rfl, rfl⟩
      | _ => cases hreads
  | true =>
      intro first second
      have hfirst : first = b.turn Dataset.cursor d call := (call_eq_callOn b d call).trans (callOn_eq b _ d hreads)
      have hsecond : second = first.binding.turn Dataset.cursor first.state call :=
        (call_eq_callOn _ _ call).trans (callOn_eq _ _ _ hreads)
      cases hearly : call.isEarly Dataset.cursor d with
      | true =>
          rw [turn_of_isEarly hearly] at hfirst
          rw [hsecond, hfirst, turn_of_isEarly hearly]
          exact ⟨rfl, rfl, rfl⟩
      | false =>
          rw [turn_of_isEarly_eq_false hearly] at hfirst
          have hreload :=
            Dataset.reloaded_of_reaches (reaches_serve (b.refresh Dataset.cursor d).1 Dataset.cursor d call)
          have hearlyAgain : call.isEarly Dataset.cursor first.state = false := by
            rw [hfirst]
            exact (hreload.isEarly call).trans hearly
          have hrefresh : first.binding.refresh Dataset.cursor first.state = (first.binding, []) := by
            refine refresh_of_isFresh ?_
            rw [hfirst]
            refine (isFresh_congr (outline?_serve _ _ _ _) ?_).trans (isFresh_refresh b Dataset.cursor d)
            exact congrArg Registry.generation hreload.registry
          rw [turn_of_isEarly_eq_false hearlyAgain, hrefresh] at hsecond
          rw [hsecond, hfirst]
          exact serve_serve _ d call

end Calls

end Binding

end TypedColumns
