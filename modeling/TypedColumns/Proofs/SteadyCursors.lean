import TypedColumns.Binding.Record
import TypedColumns.Proofs.Settling
import TypedColumns.Proofs.Turns

/-!
# Bindings field by field, on cursors that do not shift

A binding whose fields are written one after the other comes to the same as one that keeps the outcome of its last
set-up as a whole, as long as the cursors that it is used with do not shift: every call answers the same, leaves the
cursor the same and tells the same, and afterwards the fields are what can be seen of the whole.

* `Scene.call` -- a call on a binding with any cursor, field by field.
* `BindingRecord.Shows` -- the fields of a binding are what can be seen of another that is kept as a whole.
* `Scene.ResolvesAlike`, `Scene.EndsAlike` -- looking for the column, and a call, end alike for both.
* `Scene.setup_shifting`, `Scene.dispatch_shifting`, … -- each step of a call, up to `Scene.call_shifting`.
* `Visit`, `SteadyVisit`, `Watched.shows_visitAll` -- calls with any cursors and with cursors that do not shift, and what
  becomes of both bindings.
-/

namespace TypedColumns

/-- Carries out a call on a binding. -/
def Scene.call {σ : Type} (w : Scene σ) (c : ShiftingCursor σ) : BindingCall → Answer × Scene σ
  | .setup => (.setup (w.setup c).binding.setupStatus, w.setup c)
  | .read => (.read (w.read c).1, (w.read c).2)
  | .address => (.address (w.address c).1, (w.address c).2)
  | .get type => (.value (w.get c type).1, (w.get c type).2)

/-- A record is of the same column as a binding. -/
structure BindingRecord.IsFor (r : BindingRecord) (b : Binding) : Prop where
  path : r.path = b.path
  requested : r.requested = b.requested
  registration : r.registration = b.registration

/-- A record shows a binding: each of its fields is what can be seen of the binding.  The source that is kept without a
match does not matter. -/
structure BindingRecord.Shows (r : BindingRecord) (b : Binding) : Prop extends r.IsFor b where
  resolution : r.resolution = b.match?.map Match.resolution
  source : ∀ m, b.match? = some m → r.source = m.source
  dispatcher : r.dispatcher = ⟨b.plan?⟩
  readStatus : r.readStatus = b.readStatus
  setupStatus : r.setupStatus = b.setupStatus
  diagnostic : r.diagnostic = b.diagnostic
  generation : r.generation = b.attempt.map Attempt.generation

namespace BindingRecord.Shows

variable {r : BindingRecord} {b : Binding}

theorem isMatch_setupStatus (h : r.Shows b) : r.setupStatus.isMatch = b.match?.isSome := by
  rw [h.setupStatus, Binding.isMatch_setupStatus]

theorem dispatcher_of_match? (h : r.Shows b) {m : Match} (hm : b.match? = some m) : r.dispatcher = ⟨some m.plan⟩ := by
  rw [h.dispatcher, Binding.plan?, hm]
  rfl

end BindingRecord.Shows

namespace Scene

section Steady

variable {σ : Type} (c : RowCursor σ) (elsewhere : Registration → Option Registry) {w : Scene σ} {b : Binding}

/-! ### Setting up -/

theorem isServed_shifting (w : Scene σ) :
    w.isServed (c.shifting elsewhere) = ((c.registry w.state).serves w.binding.registration, w) := by
  simp only [isServed, ask, RowCursor.shifting, Registry.serves]
  cases howns : (c.registry w.state).owns w.binding.registration with
  | true =>
      simp only [if_true, Bool.true_and]
      cases (c.registry w.state).isRegistered w.binding.registration.id with
      | true => rw [if_pos rfl, howns]
      | false => rfl
  | false =>
      simp only [Bool.false_eq_true, if_false, Bool.false_and]
      cases elsewhere w.binding.registration with
      | none => rfl
      | some home =>
          simp only [howns]
          split <;> rfl

/-- Looking for the column ends alike for a record and for the binding that it shows. -/
inductive ResolvesAlike (w : Scene σ) :
    Except SetupError Resolution × Scene σ → Except SetupError Match × List Event → Prop where
  | error {w' : Scene σ} (e : SetupError) (events : List Event) (binding : w'.binding = w.binding)
      (state : w'.state = w.state) (told : w'.events = w.events ++ events) :
      ResolvesAlike w (.error e, w') (.error e, events)
  | ok {w' : Scene σ} (m : Match) (events : List Event) (unread : m.fault = none)
      (beyondEnd : m.beyondEnd = (c.status w.state == .beyondEnd))
      (binding : w'.binding = { w.binding with source := m.source, dispatcher := ⟨some m.plan⟩ })
      (state : w'.state = w.state) (told : w'.events = w.events ++ events) :
      ResolvesAlike w (.ok m.resolution, w') (.ok m, events)

theorem arm_shifting (w' : Scene σ) (hbinding : w'.binding = w.binding) (hstate : w'.state = w.state)
    {events : List Event} (htold : w'.events = w.events ++ events) (schema : Schema) (r : Resolution) :
    ResolvesAlike c w (w'.arm (c.shifting elsewhere) schema r)
      (match schema.get? r.node with
        | none => (.error (.internal ("node " ++ r.node.text ++ " vanished from the schema")), events)
        | some node =>
          (.ok ⟨r, node.source, Plan.prepare r.node node (c.generation w.state), c.status w.state == .beyondEnd, none⟩,
            events)) := by
  simp only [arm, ask]
  cases schema.get? r.node with
  | none => exact .error _ events hbinding hstate htold
  | some node =>
      refine .ok ⟨r, node.source, Plan.prepare r.node node (c.generation w.state), c.status w.state == .beyondEnd,
        none⟩ events rfl rfl ?_ hstate htold
      simp only [RowCursor.shifting, hbinding, hstate]

/-- Looking for the column, with the descriptor of the requested type as a step of its own. -/
theorem Binding.resolve_eq (b : Binding) (c : RowCursor σ) (s : σ) :
    b.resolve c s =
      if !(c.registry s).serves b.registration then (.error (.coordinatorGone b.path), [])
      else
        match c.schema s with
        | none => (.error (.internal "row cursor has no open dataset"), [])
        | some schema =>
          match requestedDescriptor (c.types s) b.path b.requested with
          | .error e => (.error e, [])
          | .ok requested =>
            match schema.resolve (c.types s) b.path requested with
            | (.error e, events) => (.error e, events)
            | (.ok r, events) =>
              match schema.get? r.node with
              | none => (.error (.internal ("node " ++ r.node.text ++ " vanished from the schema")), events)
              | some node =>
                (.ok ⟨r, node.source, Plan.prepare r.node node (c.generation s), c.status s == .beyondEnd, none⟩,
                  events) := rfl

theorem resolve_shifting (h : w.binding.IsFor b) :
    ResolvesAlike c w (w.resolve (c.shifting elsewhere)) (b.resolve c w.state) := by
  rw [resolve, isServed_shifting, h.registration, Binding.resolve_eq]
  cases (c.registry w.state).serves b.registration with
  | false =>
      simp only [h.path]
      exact .error _ [] rfl rfl (List.append_nil _).symm
  | true =>
      obtain ⟨w₁, hask, hbinding, hstate, htold⟩ :
          ∃ w₁, w.askSchema (c.shifting elsewhere) = (c.schema w.state, w₁) ∧ w₁.binding = w.binding ∧
            w₁.state = w.state ∧ w₁.events = w.events := ⟨_, rfl, rfl, rfl, rfl⟩
      simp only [hask]
      cases c.schema w.state with
      | none => exact .error _ [] hbinding hstate (by rw [htold, List.append_nil])
      | some schema =>
          have htypes : w₁.ask (c.shifting elsewhere).types = (c.types w.state, w₁) := by rw [← hstate]; rfl
          simp only [navigate, htypes, hbinding, h.path, h.requested]
          cases requestedDescriptor (c.types w.state) b.path b.requested with
          | error e => exact .error _ [] hbinding hstate (by rw [htold, List.append_nil])
          | ok requested =>
              simp only
              cases schema.resolve (c.types w.state) b.path requested with
              | mk found events =>
                  have htold₂ : (w₁.tell events).events = w.events ++ events := by rw [tell, htold]
                  cases found with
                  | error e => exact .error _ events hbinding hstate htold₂
                  | ok r => exact arm_shifting c elsewhere (w₁.tell events) hbinding hstate htold₂ schema r

theorem failSetup_shifting (w : Scene σ) (e : SetupError) :
    w.failSetup (c.shifting elsewhere) e =
      { w with
        binding := { w.binding with
          setupStatus := e.status
          diagnostic := some e.message
          resolution := none
          dispatcher := .idle }
        events := w.events ++
          [if e.isSuppressible && c.isSuppressed w.state w.binding.path then .setupSuppressed e else .setupFailed e] } := by
  simp only [failSetup, ask, tell, RowCursor.shifting]
  cases e.isSuppressible <;> rfl

theorem shows_failSetup {generation : Generation} (hcolumn : w.binding.IsFor b)
    (hread : w.binding.readStatus = b.readStatus) (hgeneration : w.binding.generation = some generation)
    (e : SetupError) :
    (w.failSetup (c.shifting elsewhere) e).binding.Shows { b with attempt := some ⟨generation, .error e⟩ } := by
  rw [failSetup_shifting]
  refine ⟨⟨hcolumn.path, hcolumn.requested, hcolumn.registration⟩, rfl, ?_, rfl, hread, rfl, rfl, hgeneration⟩
  intro m hm
  cases hm

theorem shows_keepMatch {generation : Generation} {m : Match} {status : EntryStatus} (hcolumn : w.binding.IsFor b)
    (hread : w.binding.readStatus = b.readStatus) (hgeneration : w.binding.generation = some generation)
    (hsource : w.binding.source = m.source) (hplan : w.binding.dispatcher = ⟨some m.plan⟩) (hunread : m.fault = none)
    (hbeyondEnd : m.beyondEnd = (status == .beyondEnd)) :
    (w.keepMatch status m.resolution).binding.Shows { b with attempt := some ⟨generation, .ok m⟩ } := by
  refine ⟨⟨hcolumn.path, hcolumn.requested, hcolumn.registration⟩, rfl, ?_, hplan, hread, ?_, ?_, hgeneration⟩
  · intro n hn
    cases hn
    exact hsource
  · simp only [keepMatch, Binding.setupStatus, hbeyondEnd, beq_iff_eq]
  · simp only [keepMatch, Binding.diagnostic, hunread, Option.map_none]

theorem setup_shifting (h : w.binding.Shows b) :
    (w.setup (c.shifting elsewhere)).binding.Shows (b.setup c w.state).1 ∧
      (w.setup (c.shifting elsewhere)).state = w.state ∧
      (w.setup (c.shifting elsewhere)).events = w.events ++ (b.setup c w.state).2 := by
  have hask (w : Scene σ) : w.ask (c.shifting elsewhere).generation = (c.generation w.state, w) := rfl
  have halike := resolve_shifting c elsewhere (w := w.stamp (c.generation w.state)) (b := b)
    ⟨h.path, h.requested, h.registration⟩
  have hstamped : (w.stamp (c.generation w.state)).state = w.state := rfl
  rw [hstamped] at halike
  simp only [setup, hask, Binding.setup]
  generalize (w.stamp (c.generation w.state)).resolve (c.shifting elsewhere) = out at halike
  generalize b.resolve c w.state = outcome at halike
  cases halike with
  | @error w' e events hbinding hstate htold =>
      have hcolumn : w'.binding.IsFor b := by
        rw [hbinding]
        exact ⟨h.path, h.requested, h.registration⟩
      have hstate : w'.state = w.state := hstate
      have htold : w'.events = w.events ++ events := htold
      refine ⟨shows_failSetup c elsewhere hcolumn ?_ ?_ e, ?_, ?_⟩
      · rw [hbinding]
        exact h.readStatus
      · rw [hbinding]
        rfl
      · simp only [failSetup_shifting, hstate]
      · simp only [failSetup_shifting, htold, hstate, hcolumn.path, List.append_assoc, Binding.setupFailure]
  | @ok w' m events hunread hbeyondEnd hbinding hstate htold =>
      have hcolumn : w'.binding.IsFor b := by
        rw [hbinding]
        exact ⟨h.path, h.requested, h.registration⟩
      have hstate : w'.state = w.state := hstate
      have hstatus : w'.ask (c.shifting elsewhere).status = (c.status w.state, w') := by
        rw [← hstate]
        rfl
      simp only [hstatus]
      refine ⟨shows_keepMatch hcolumn ?_ ?_ ?_ ?_ hunread hbeyondEnd, hstate, htold⟩
      · rw [hbinding]
        exact h.readStatus
      · rw [hbinding]
        rfl
      · rw [hbinding]
      · rw [hbinding]

theorem isFresh_of_shows (h : w.binding.Shows b) :
    (w.binding.generation = some (c.generation w.state)) ↔ b.isFresh c w.state = true := by
  rw [h.generation, Binding.isFresh]
  cases b.attempt with
  | none => exact iff_of_false (Option.some_ne_none _).symm Bool.false_ne_true
  | some a => rw [Option.map_some, Option.some.injEq, beq_iff_eq]

theorem refresh_shifting (h : w.binding.Shows b) :
    (w.refresh (c.shifting elsewhere)).binding.Shows (b.refresh c w.state).1 ∧
      (w.refresh (c.shifting elsewhere)).state = w.state ∧
      (w.refresh (c.shifting elsewhere)).events = w.events ++ (b.refresh c w.state).2 := by
  have hask : w.ask (c.shifting elsewhere).generation = (c.generation w.state, w) := rfl
  simp only [refresh, hask, isFresh_of_shows c h, Binding.refresh]
  split
  · exact ⟨h, rfl, (List.append_nil _).symm⟩
  · exact setup_shifting c elsewhere h

/-- A binding that is up to date is not set up again. -/
theorem refresh_shifting_of_isFresh (h : w.binding.Shows b) (hfresh : b.isFresh c w.state = true) :
    w.refresh (c.shifting elsewhere) = w := by
  have hask : w.ask (c.shifting elsewhere).generation = (c.generation w.state, w) := rfl
  simp only [refresh, hask, isFresh_of_shows c h, hfresh, if_true]

/-! ### Reading -/

/-- A call ends alike for a record and for the binding that it shows. -/
structure EndsAlike {α : Type} (w : Scene σ) (out : α × Scene σ) (t : Turn σ α) : Prop where
  value : out.1 = t.value
  binding : out.2.binding.Shows t.binding
  state : out.2.state = t.state
  told : out.2.events = w.events ++ t.events

/-- A call that began with something told ends alike with that told first. -/
theorem EndsAlike.prepend {α : Type} {w₁ : Scene σ} {out : α × Scene σ} {t : Turn σ α} {events : List Event}
    (h : EndsAlike w₁ out t) (htold : w₁.events = w.events ++ events) :
    EndsAlike w out { t with events := events ++ t.events } where
  value := h.value
  binding := h.binding
  state := h.state
  told := by rw [h.told, htold, List.append_assoc]

/-- What a read leaves in a record and in the match of the binding that it shows. -/
theorem shows_withMatch {r : BindingRecord} (h : r.Shows b) {m : Match} (hm : b.match? = some m) (plan : Plan)
    (fault : Option ReadError) (status : ReadStatus) :
    ({ r with dispatcher := ⟨some plan⟩, readStatus := status, diagnostic := fault.map ReadError.message } :
      BindingRecord).Shows { b.withMatch { m with plan := plan, fault := fault } with readStatus := status } := by
  obtain ⟨generation, hattempt⟩ := Binding.attempt_of_match? hm
  have hresolution := h.resolution
  have hstatus := h.setupStatus
  have hgeneration := h.generation
  rw [hm] at hresolution
  rw [Binding.setupStatus, hattempt] at hstatus
  rw [hattempt] at hgeneration
  simp only [Binding.withMatch, hattempt, Option.map_some]
  refine ⟨⟨h.path, h.requested, h.registration⟩, hresolution, ?_, rfl, rfl, hstatus, rfl, hgeneration⟩
  intro n hn
  cases hn
  exact h.source m hm

theorem shows_failRead (h : w.binding.Shows b) {m : Match} (hm : b.match? = some m) (e : ReadError) :
    (w.failRead e).binding.Shows (b.failRead m e) := by
  have hafter := shows_withMatch h hm m.plan (some e) .error
  rw [← h.dispatcher_of_match? hm] at hafter
  exact hafter

theorem dispatch_shifting (h : w.binding.Shows b) {m : Match} (hm : b.match? = some m) :
    EndsAlike w (w.dispatch (c.shifting elsewhere)) (b.readMatch m c w.state) := by
  obtain ⟨generation, hattempt⟩ := Binding.attempt_of_match? hm
  have hdiagnostic : w.binding.diagnostic = m.fault.map ReadError.message := by
    rw [h.diagnostic, Binding.diagnostic, hattempt]
  simp only [dispatch, h.dispatcher_of_match? hm, Dispatcher.follow, Plan.follow_shifting, Binding.readMatch, tell]
  cases hbase : (m.plan.read c w.state).base with
  | ok a =>
      refine ⟨rfl, ?_, rfl, rfl⟩
      have hafter := shows_withMatch h hm (m.plan.read c w.state).plan m.fault .success
      rw [← hdiagnostic] at hafter
      exact hafter
  | error e =>
      refine ⟨rfl, ?_, rfl, ?_⟩
      · exact shows_withMatch h hm (m.plan.read c w.state).plan (some e) .error
      · simp only [failRead, tell, h.path, List.append_assoc]

theorem readSetUp_shifting (h : w.binding.Shows b) :
    EndsAlike w (w.readSetUp (c.shifting elsewhere)) (b.readBase c w.state) := by
  rw [readSetUp, h.isMatch_setupStatus, Binding.readBase]
  cases hm : b.match? with
  | none =>
      refine ⟨rfl, ?_, rfl, (List.append_nil _).symm⟩
      exact ⟨⟨h.path, h.requested, h.registration⟩, h.resolution, h.source, h.dispatcher, rfl, h.setupStatus,
        h.diagnostic, h.generation⟩
  | some m => exact dispatch_shifting c elsewhere h hm

theorem read_shifting (h : w.binding.Shows b) :
    EndsAlike w (w.read (c.shifting elsewhere)) (b.read c w.state) := by
  obtain ⟨hbinding, hstate, htold⟩ := refresh_shifting c elsewhere h
  have hread := readSetUp_shifting c elsewhere hbinding
  rw [hstate] at hread
  exact ⟨hread.binding.readStatus, hread.binding, hread.state, (hread.prepend htold).told⟩

theorem misses_shifting (h : w.binding.Shows b) : w.misses (c.shifting elsewhere) = (b.misses c w.state, w) := by
  have hmatched := h.isMatch_setupStatus
  rw [Binding.misses]
  cases hm : b.match? with
  | none =>
      rw [hm] at hmatched
      rw [misses, hmatched]
      rfl
  | some m =>
      rw [hm] at hmatched
      have hsource := h.source m hm
      rw [misses, hmatched]
      simp only [Option.isSome_some, if_true, ask, RowCursor.shifting, hsource]
      cases c.status w.state <;> rfl

theorem follow_shifting (w : Scene σ) (a : Access) (base : Address) :
    w.follow (c.shifting elsewhere) a base = (a.locate (c.image w.state) base, w) := by
  cases a <;> rfl

/-- A look at memory, by a record and by the binding that it shows. -/
theorem conclude_alike {α β : Type} {before : Option β} {t : Turn σ (Option β)} {w' : Scene σ}
    (h : EndsAlike w (before, w') t) {m : Match} (hm : t.binding.match? = some m) (r : Except MemoryError α) :
    EndsAlike w (w'.conclude r)
      (match readMemory r with
        | .ok a => ⟨some a, t.binding, t.state, t.events⟩
        | .error e =>
          ⟨none, t.binding.failRead m e, t.state, t.events ++ [.readFailed t.binding.path e]⟩) := by
  have hbinding : w'.binding.Shows t.binding := h.binding
  have htold : w'.events = w.events ++ t.events := h.told
  rw [conclude]
  cases readMemory r with
  | ok a => exact ⟨rfl, hbinding, h.state, htold⟩
  | error e =>
      refine ⟨rfl, shows_failRead hbinding hm e, h.state, ?_⟩
      simp only [failRead, tell, hbinding.path, htold, List.append_assoc]

theorem locate_shifting {base : Address} {w' : Scene σ} {t : Turn σ (Option Address)}
    (h : EndsAlike w (some base, w') t) :
    EndsAlike w (w'.locate (c.shifting elsewhere) base) (Binding.locate t c) := by
  have hbinding : w'.binding.Shows t.binding := h.binding
  have hstate : w'.state = t.state := h.state
  have hresolution := hbinding.resolution
  rw [locate, Binding.locate, ← h.value]
  cases hm : t.binding.match? with
  | none =>
      rw [hm] at hresolution
      rw [hresolution]
      exact ⟨rfl, hbinding, hstate, h.told⟩
  | some m =>
      rw [hm] at hresolution
      rw [hresolution]
      simp only [Option.map_some, follow_shifting, hstate]
      have hconclude := conclude_alike h hm (m.resolution.access.locate (c.image t.state) base)
      cases hplace : readMemory (m.resolution.access.locate (c.image t.state) base) with
      | ok a =>
          rw [hplace] at hconclude
          exact hconclude
      | error e =>
          rw [hplace] at hconclude
          exact hconclude

theorem decode_shifting {place : Address} {w' : Scene σ} {t : Turn σ (Option Address)}
    (h : EndsAlike w (some place, w') t) (hm : t.binding.match?.isSome = true) (type : ColumnType) :
    EndsAlike w (w'.decode (c.shifting elsewhere) type place) (Binding.decode type t c) := by
  obtain ⟨m, hm⟩ := Option.isSome_iff_exists.1 hm
  have hstate : w'.state = t.state := h.state
  have hask : w'.ask (c.shifting elsewhere).image = (c.image t.state, w') := by rw [← hstate]; rfl
  rw [decode, Binding.decode, ← h.value, hm, hask]
  have hconclude := conclude_alike h hm (((c.image t.state).bytes place type.size).map type.decode)
  simp only
  cases hbytes : (c.image t.state).bytes place type.size with
  | ok bytes =>
      rw [hbytes] at hconclude
      exact hconclude
  | error e =>
      rw [hbytes] at hconclude
      exact hconclude

theorem address_shifting (h : w.binding.Shows b) :
    EndsAlike w (w.address (c.shifting elsewhere)) (b.address c w.state) := by
  obtain ⟨hbinding, hstate, htold⟩ := refresh_shifting c elsewhere h
  have hmisses := misses_shifting c elsewhere hbinding
  have hfresh : (b.refresh c w.state).1.isFresh c (w.refresh (c.shifting elsewhere)).state = true := by
    rw [hstate]
    exact Binding.isFresh_refresh b c w.state
  -- the binding is up to date when that is looked at again
  have hread := readSetUp_shifting c elsewhere hbinding
  rw [hstate] at hmisses hread
  rw [address, hmisses]
  simp only [Binding.address]
  cases (b.refresh c w.state).1.misses c w.state with
  | true => exact ⟨rfl, hbinding, hstate, htold⟩
  | false =>
      simp only [Bool.false_eq_true, if_false, readBase, refresh_shifting_of_isFresh c elsewhere hbinding hfresh]
      generalize (w.refresh (c.shifting elsewhere)).readSetUp (c.shifting elsewhere) = out at hread
      obtain ⟨base, w₁⟩ := out
      cases base with
      | none =>
          have hlocate : EndsAlike (w.refresh (c.shifting elsewhere)) (none, w₁)
              (Binding.locate ((b.refresh c w.state).1.readBase c w.state) c) := by
            rw [Binding.locate, ← hread.value]
            exact ⟨rfl, hread.binding, hread.state, hread.told⟩
          exact hlocate.prepend htold
      | some base => exact (locate_shifting c elsewhere hread).prepend htold

/-- What was located belongs to a match. -/
theorem isSome_match?_of_address {σ : Type} {b : Binding} {c : RowCursor σ} {s : σ} {place : Address}
    (h : (b.address c s).value = some place) : (b.address c s).binding.match?.isSome = true := by
  revert h
  simp only [Binding.address, Binding.locate]
  split
  · intro h
    cases h
  · split
    · rename_i m _ hm
      split
      · intro _
        exact Option.isSome_of_eq_some hm
      · intro h
        cases h
    · intro h
      cases h

theorem get_shifting (h : w.binding.Shows b) (type : ColumnType) :
    EndsAlike w (w.get (c.shifting elsewhere) type) (b.get type c w.state) := by
  have hask : w.ask (c.shifting elsewhere).status = (c.status w.state, w) := rfl
  rw [get, hask, Binding.get]
  simp only
  split
  · have hquiet : w.ask ((c.shifting elsewhere).isSuppressed w.binding.path) = (c.isSuppressed w.state b.path, w) := by
      rw [← h.path]
      rfl
    rw [hquiet]
    simp only
    cases c.isSuppressed w.state b.path with
    | true => exact ⟨rfl, h, rfl, (List.append_nil _).symm⟩
    | false =>
        refine ⟨rfl, h, rfl, ?_⟩
        simp only [Bool.false_eq_true, if_false, tell, h.path]
  · have haddress := address_shifting c elsewhere h
    generalize w.address (c.shifting elsewhere) = out at haddress
    obtain ⟨place, w₁⟩ := out
    cases place with
    | none =>
        rw [Binding.decode, ← haddress.value]
        exact ⟨rfl, haddress.binding, haddress.state, haddress.told⟩
    | some place => exact decode_shifting c elsewhere haddress (isSome_match?_of_address haddress.value.symm) type

theorem call_shifting (h : w.binding.Shows b) (call : BindingCall) :
    EndsAlike w (w.call (c.shifting elsewhere) call) (b.callOn c w.state call) := by
  cases call with
  | setup =>
      obtain ⟨hbinding, hstate, htold⟩ := setup_shifting c elsewhere h
      exact ⟨congrArg Answer.setup hbinding.setupStatus, hbinding, hstate, htold⟩
  | read =>
      have hread := read_shifting c elsewhere h
      exact ⟨congrArg Answer.read hread.value, hread.binding, hread.state, hread.told⟩
  | address =>
      have haddress := address_shifting c elsewhere h
      exact ⟨congrArg Answer.address haddress.value, haddress.binding, haddress.state, haddress.told⟩
  | get type =>
      have hget := get_shifting c elsewhere h type
      exact ⟨congrArg Answer.value hget.value, hget.binding, hget.state, hget.told⟩

end Steady

end Scene

/-! ### Visits -/

/-- What can happen to a binding: a call with some cursor, or that it leaves its registry. -/
inductive Visit where
  | call {σ : Type} (c : ShiftingCursor σ) (s : σ) (call : BindingCall)
  | leave

/-- What can happen to a binding among cursors that do not shift. -/
inductive SteadyVisit where
  | call {σ : Type} (c : RowCursor σ) (s : σ) (call : BindingCall)
  | leave

/-- A visit with a cursor that could shift but does not. -/
def SteadyVisit.shifting (elsewhere : Registration → Option Registry) : SteadyVisit → Visit
  | .call c s request => .call (c.shifting elsewhere) s request
  | .leave => .leave

namespace Watched

/-- A new binding, which was shown nothing yet. -/
def register (registry : Registry) (path : String) (requested : Option String) : Watched :=
  ⟨(BindingRecord.register registry path requested).1, []⟩

/-- The binding in front of a cursor. -/
def facing {σ : Type} (w : Watched) (s : σ) : Scene σ := ⟨w, s, []⟩

/-- The binding after a visit. -/
def visit (w : Watched) : Visit → Watched
  | .call c s call => ((w.facing s).call c call).2.toWatched
  | .leave => { w with binding := { w.binding with registration := w.binding.registration.leave } }

/-- The binding after some visits. -/
def visitAll (w : Watched) : List Visit → Watched
  | [] => w
  | v :: visits => (w.visit v).visitAll visits

end Watched

namespace Binding

/-- The binding after a visit. -/
def visit (b : Binding) : SteadyVisit → Binding
  | .call c s call => (b.callOn c s call).binding
  | .leave => { b with registration := b.registration.leave }

/-- The binding after some visits. -/
def visitAll (b : Binding) : List SteadyVisit → Binding
  | [] => b
  | v :: visits => (b.visit v).visitAll visits

end Binding

namespace Watched

variable {w : Watched} {b : Binding}

theorem shows_register (registry : Registry) (path : String) (requested : Option String) :
    (register registry path requested).binding.Shows (Binding.register registry path requested).1 where
  path := rfl
  requested := rfl
  registration := rfl
  resolution := rfl
  source := fun m hm => by cases hm
  dispatcher := rfl
  readStatus := rfl
  setupStatus := rfl
  diagnostic := rfl
  generation := rfl

theorem shows_visit (h : w.binding.Shows b) (elsewhere : Registration → Option Registry) (v : SteadyVisit) :
    (w.visit (v.shifting elsewhere)).binding.Shows (b.visit v) := by
  cases v with
  | call c s call => exact (Scene.call_shifting c elsewhere (w := w.facing s) h call).binding
  | leave =>
      refine ⟨⟨h.path, h.requested, ?_⟩, h.resolution, h.source, h.dispatcher, h.readStatus, h.setupStatus, h.diagnostic,
        h.generation⟩
      exact congrArg Registration.leave h.registration

/-- **Both bindings go through the same visits alike.** -/
theorem shows_visitAll (h : w.binding.Shows b) (elsewhere : Registration → Option Registry)
    (visits : List SteadyVisit) :
    (w.visitAll (visits.map (SteadyVisit.shifting elsewhere))).binding.Shows (b.visitAll visits) := by
  induction visits generalizing w b with
  | nil => exact h
  | cons v visits ih => exact ih (shows_visit h elsewhere v)

end Watched

end TypedColumns
