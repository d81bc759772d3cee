import TypedColumns.Proofs.SteadyCursors

/-!
# Bindings among cursors

A binding may be used with any cursors, one after the other, and they may answer whatever they like, twice in one call
or a thousand times.  All the same its fields never fall apart: its status, its resolution, its dispatcher and its source
are of one set-up, made against one schema; and its read status always tells whether the last read gave a value.

* `Answer.isValue`, `Scene.exits` -- an answer with a value, and the calls that end before anything is read.
* `Watched.Found`, `Watched.Coherent` -- a resolution, the dispatcher and the source are of a node of the schema shown
  last, and status, resolution and dispatcher come and go together.
* `Scene.Finding`, `Scene.IsSetUp` -- how it ends to look for the column, and to set it up: coherent, whatever was before
  (`Scene.isSetUp_setup`).
* `Scene.Ends`, `Scene.Concludes` -- how a call ends that reads (`Scene.concludes_call`).
* `Watched.coherent_after` -- any visits leave a new binding coherent, and each call tells how it went.
-/

namespace TypedColumns

/-- Whether an answer to a call that reads holds a value. -/
def Answer.isValue : Answer → Bool
  | .read s => s == .success
  | .address a => a.isSome
  | .value v => v.isSome
  | _ => false

/-! ### Coherence -/

namespace Watched

/-- A resolution is what the path stands for in the schema shown last, and the dispatcher and the source are for its
node. -/
def Found (w : Watched) (r : Resolution) : Prop :=
  ∃ schema types requested node, w.shown.getLast? = some (some schema) ∧
    requestedDescriptor types w.binding.path w.binding.requested = .ok requested ∧
    (schema.resolve types w.binding.path requested).1 = .ok r ∧ schema.get? r.node = some node ∧
    w.binding.dispatcher.target? = some ⟨r.node, node⟩ ∧ w.binding.source = node.source

/-- The parts of a binding agree with each other and with what it was shown. -/
structure Coherent (w : Watched) : Prop where
  matched : w.binding.setupStatus.isMatch = w.binding.resolution.isSome
  armed : w.binding.dispatcher.target?.isSome = w.binding.resolution.isSome
  found : ∀ r, w.binding.resolution = some r → w.Found r
  told : w.binding.generation.isSome = true → w.binding.resolution = none → w.binding.diagnostic.isSome = true

end Watched

namespace Scene

variable {σ α : Type} {w : Scene σ} {c : ShiftingCursor σ}

/-- How it ends to look for the column: nothing is written, or the column is found in the schema shown last. -/
inductive Finding (before : BindingRecord) : Except SetupError Resolution × Scene σ → Prop where
  | missed (e : SetupError) (w : Scene σ) (binding : w.binding = before) : Finding before (.error e, w)
  | found (r : Resolution) (w : Scene σ) (found : w.Found r) (generation : w.binding.generation = before.generation)
      (readStatus : w.binding.readStatus = before.readStatus) : Finding before (.ok r, w)

theorem toWatched_ask (w : Scene σ) (question : σ → α × σ) : (w.ask question).2.toWatched = w.toWatched := rfl

theorem toWatched_of_ask {w' : Scene σ} {question : σ → α × σ} {answer : α} (h : w.ask question = (answer, w')) :
    w'.toWatched = w.toWatched := by
  rw [← toWatched_ask w question, h]

theorem toWatched_isServed (w : Scene σ) (c : ShiftingCursor σ) : (w.isServed c).2.toWatched = w.toWatched := by
  rw [isServed]
  cases hhome : w.ask (c.home? w.binding.registration) with
  | mk home w₁ =>
      have hkept : w₁.toWatched = w.toWatched := toWatched_of_ask hhome
      cases home with
      | none => exact hkept
      | some home =>
          simp only
          split
          · exact hkept
          · exact hkept

/-- What the cursor shows is kept, and nothing else is written. -/
theorem askSchema_eq (w : Scene σ) (c : ShiftingCursor σ) :
    ∃ schema w', w.askSchema c = (schema, w') ∧ w'.binding = w.binding ∧ w'.shown.getLast? = some schema :=
  ⟨_, _, rfl, rfl, List.getLast?_concat⟩

theorem toWatched_navigate (w : Scene σ) (c : ShiftingCursor σ) (schema : Schema) :
    (w.navigate c schema).2.toWatched = w.toWatched := by
  simp only [navigate, ask]
  split <;> rfl

/-- A path that is found was looked up by the types that the cursor showed. -/
theorem resolve_of_navigate {schema : Schema} {r : Resolution} (h : (w.navigate c schema).1 = .ok r) :
    ∃ types requested, requestedDescriptor types w.binding.path w.binding.requested = .ok requested ∧
      (schema.resolve types w.binding.path requested).1 = .ok r := by
  simp only [navigate, ask] at h
  split at h
  · cases h
  · rename_i requested hrequest
    exact ⟨_, requested, hrequest, h⟩

/-- Arming the dispatcher for the node of a path that was found in the schema shown last. -/
theorem finding_arm {schema : Schema} {types : Catalog} {requested : Option Descriptor} {r : Resolution}
    (hshown : w.shown.getLast? = some (some schema))
    (hrequest : requestedDescriptor types w.binding.path w.binding.requested = .ok requested)
    (hresolve : (schema.resolve types w.binding.path requested).1 = .ok r) (c : ShiftingCursor σ) :
    Finding w.binding (w.arm c schema r) := by
  simp only [arm, ask]
  split
  · exact .missed _ _ rfl
  · rename_i node hnode
    exact .found _ _ ⟨schema, types, requested, node, hshown, hrequest, hresolve, hnode, rfl, rfl⟩ rfl rfl

theorem finding_resolve (w : Scene σ) (c : ShiftingCursor σ) : Finding w.binding (w.resolve c) := by
  have hserved := toWatched_isServed w c
  rw [resolve]
  generalize w.isServed c = served at hserved
  obtain ⟨served, w₁⟩ := served
  have hserved : w₁.toWatched = w.toWatched := hserved
  cases served with
  | false => exact .missed _ w₁ (congrArg Watched.binding hserved)
  | true =>
      obtain ⟨shown, w₂, hask, hbinding, hlast⟩ := askSchema_eq w₁ c
      rw [hserved] at hbinding
      simp only [hask]
      cases shown with
      | none => exact .missed _ w₂ hbinding
      | some schema =>
          have hwatched := toWatched_navigate w₂ c schema
          simp only
          cases hnavigate : w₂.navigate c schema with
          | mk found w₃ =>
              rw [hnavigate] at hwatched
              have hwatched : w₃.toWatched = w₂.toWatched := hwatched
              have hkept : w₃.binding = w.binding := (congrArg Watched.binding hwatched).trans hbinding
              cases found with
              | error e => exact .missed e w₃ hkept
              | ok r =>
                  obtain ⟨types, requested, hrequest, hresolve⟩ := resolve_of_navigate (congrArg Prod.fst hnavigate)
                  rw [← hwatched] at hlast hrequest hresolve
                  have harm := finding_arm hlast hrequest hresolve c
                  rw [hkept] at harm
                  exact harm

/-! ### Setting up -/

/-- A binding is set up, by whatever outcome, and what is known of its last read has not changed. -/
structure IsSetUp (before : BindingRecord) (w : Watched) : Prop where
  coherent : w.Coherent
  generation : w.binding.generation.isSome = true
  readStatus : w.binding.readStatus = before.readStatus

theorem isSetUp_failSetup {before : BindingRecord} (hgeneration : w.binding.generation.isSome = true)
    (hread : w.binding.readStatus = before.readStatus) (c : ShiftingCursor σ) (e : SetupError) :
    IsSetUp before (w.failSetup c e).toWatched := by
  simp only [failSetup]
  split
  all_goals
    refine ⟨⟨e.isMatch_status, rfl, ?_, fun _ _ => rfl⟩, hgeneration, hread⟩
    intro r hr
    cases hr

theorem isSetUp_keepMatch {before : BindingRecord} {r : Resolution} (hfound : w.Found r)
    (hgeneration : w.binding.generation.isSome = true) (hread : w.binding.readStatus = before.readStatus)
    (status : EntryStatus) : IsSetUp before (w.keepMatch status r).toWatched := by
  refine ⟨⟨?_, ?_, ?_, ?_⟩, hgeneration, hread⟩
  · simp only [keepMatch]
    split <;> rfl
  · obtain ⟨schema, types, requested, node, -, -, -, -, htarget, -⟩ := hfound
    exact congrArg Option.isSome htarget
  · intro r' hr
    cases hr
    exact hfound
  · intro _ hr
    cases hr

theorem isSetUp_setup (w : Scene σ) (c : ShiftingCursor σ) : IsSetUp w.binding (w.setup c).toWatched := by
  rw [setup]
  cases hask : w.ask c.generation with
  | mk generation w₁ =>
      have hkept : w₁.toWatched = w.toWatched := toWatched_of_ask hask
      have hread : w₁.binding.readStatus = w.binding.readStatus := by rw [hkept]
      have hfinding := finding_resolve (w₁.stamp generation) c
      simp only
      generalize (w₁.stamp generation).resolve c = out at hfinding
      cases hfinding with
      | missed e w₂ hbinding =>
          refine isSetUp_failSetup ?_ ?_ c e
          · rw [hbinding]
            rfl
          · rw [hbinding]
            exact hread
      | found r w₂ hfound hgeneration hkeptRead =>
          have hgeneration : w₂.binding.generation.isSome = true := congrArg Option.isSome hgeneration
          exact isSetUp_keepMatch (w := (w₂.ask c.status).2) hfound hgeneration (hkeptRead.trans hread) _

/-- Bringing a binding up to date sets it up, unless that was done before. -/
theorem isSetUp_refresh (hcoherent : w.Coherent) (c : ShiftingCursor σ) : IsSetUp w.binding (w.refresh c).toWatched := by
  rw [refresh]
  cases hask : w.ask c.generation with
  | mk generation w₁ =>
      have hkept : w₁.toWatched = w.toWatched := toWatched_of_ask hask
      simp only
      split
      · rename_i hgeneration
        rw [hkept] at hgeneration ⊢
        exact ⟨hcoherent, by rw [hgeneration]; rfl, rfl⟩
      · have hsetUp := isSetUp_setup w₁ c
        rw [hkept] at hsetUp
        exact hsetUp

/-! ### Reading -/

/-- How a call ends once something was read for it: with a value, or with an error. -/
structure Ends (answered : Bool) (w : Watched) : Prop where
  coherent : w.Coherent
  value : answered = true → w.binding.setupStatus.isMatch = true ∧ w.binding.readStatus = .success
  fault : answered = false → w.binding.readStatus = .error ∧ w.binding.diagnostic.isSome = true

theorem ends_failRead (h : w.Coherent) (e : ReadError) : Ends false (w.failRead e).toWatched where
  coherent := ⟨h.matched, h.armed, h.found, fun _ _ => rfl⟩
  value := fun h => absurd h Bool.false_ne_true
  fault := fun _ => ⟨rfl, rfl⟩

/-- Reading by the dispatcher changes neither its node nor anything that was found. -/
theorem ends_dispatch (h : w.Coherent) (hmatch : w.binding.setupStatus.isMatch = true) (c : ShiftingCursor σ) :
    Ends (w.dispatch c).1.isSome (w.dispatch c).2.toWatched := by
  have htarget := w.binding.dispatcher.target?_follow c w.state
  simp only [dispatch]
  generalize w.binding.dispatcher.follow c w.state = out at htarget
  obtain ⟨base, dispatcher, state, events⟩ := out
  have htarget : dispatcher.target? = w.binding.dispatcher.target? := htarget
  have hfound (r : Resolution) (hr : w.binding.resolution = some r) :
      Watched.Found ⟨{ w.binding with dispatcher := dispatcher }, w.shown⟩ r := by
    obtain ⟨schema, types, requested, node, hshown, hrequest, hresolve, hnode, harmed, hsource⟩ := h.found r hr
    exact ⟨schema, types, requested, node, hshown, hrequest, hresolve, hnode, htarget.trans harmed, hsource⟩
  have harmed := (congrArg Option.isSome htarget).trans h.armed
  cases base with
  | error e =>
      have hafter : ({ w with
          binding := { w.binding with dispatcher := dispatcher }
          state := state, events := w.events ++ events } : Scene σ).Coherent :=
        ⟨h.matched, harmed, hfound, h.told⟩
      exact ends_failRead hafter e
  | ok a =>
      refine ⟨⟨h.matched, harmed, hfound, h.told⟩, fun _ => ⟨hmatch, rfl⟩, ?_⟩
      intro hnone
      cases hnone

theorem ends_readBase (h : w.Coherent) (c : ShiftingCursor σ) :
    Ends (w.readBase c).1.isSome (w.readBase c).2.toWatched := by
  have hsetUp := isSetUp_refresh h c
  have hrefreshed := hsetUp.coherent
  rw [readBase, readSetUp]
  split
  · rename_i hmatch
    exact ends_dispatch hrefreshed hmatch c
  · rename_i hmatch
    have hresolution : (w.refresh c).binding.resolution = none := by
      have hmatched := hrefreshed.matched
      rw [Bool.eq_false_iff.2 hmatch] at hmatched
      exact Option.not_isSome_iff_eq_none.1 (by rw [← hmatched]; exact Bool.false_ne_true)
    refine ⟨⟨hrefreshed.matched, hrefreshed.armed, hrefreshed.found, hrefreshed.told⟩, ?_,
      fun _ => ⟨rfl, hrefreshed.told hsetUp.generation hresolution⟩⟩
    intro hvalue
    cases hvalue

theorem ends_conclude {w' : Scene σ} (h : Ends true w.toWatched) (hkept : w'.toWatched = w.toWatched)
    (r : Except MemoryError α) : Ends (w'.conclude r).1.isSome (w'.conclude r).2.toWatched := by
  rw [← hkept] at h
  rw [conclude]
  split
  · exact h
  · exact ends_failRead h.coherent _

/-- A column that was just read has a resolution, by which its value is located. -/
theorem ends_locate (h : Ends true w.toWatched) (c : ShiftingCursor σ) (base : Address) :
    Ends (w.locate c base).1.isSome (w.locate c base).2.toWatched := by
  rw [locate]
  split
  · rename_i hresolution
    have hmatched := h.coherent.matched
    rw [(h.value rfl).1, hresolution] at hmatched
    cases hmatched
  · rename_i r _
    refine ends_conclude h ?_ _
    cases r.access <;> rfl

theorem ends_decode (h : Ends true w.toWatched) (c : ShiftingCursor σ) (type : ColumnType) (place : Address) :
    Ends (w.decode c type place).1.isSome (w.decode c type place).2.toWatched :=
  ends_conclude h (toWatched_ask w c.image) _

theorem toWatched_misses (w : Scene σ) (c : ShiftingCursor σ) : (w.misses c).2.toWatched = w.toWatched := by
  rw [misses]
  split
  · cases hstatus : w.ask c.status with
    | mk status w₁ =>
        have hkept : w₁.toWatched = w.toWatched := toWatched_of_ask hstatus
        simp only
        split
        · exact hkept
        · exact hkept
  · rfl

/-! ### Calls -/

/-- Whether a call ends before anything is read: the cursor says that there is no row yet, or none of the column's
source. -/
def exits (w : Scene σ) (c : ShiftingCursor σ) : BindingCall → Bool
  | .setup | .read => false
  | .address => ((w.refresh c).misses c).1
  | .get _ =>
    let (status, w) := w.ask c.status
    if status = .notLoaded then true else ((w.refresh c).misses c).1

/-- How a call ends that reads: before anything was read, or after. -/
inductive Concludes (before : Watched) (exited answered : Bool) (after : Watched) : Prop where
  | early (exits : exited = true) (refused : answered = false) (coherent : after.Coherent)
      (readStatus : after.binding.readStatus = before.binding.readStatus)
  | served (stays : exited = false) (ends : Ends answered after)

theorem concludes_address (h : w.Coherent) (c : ShiftingCursor σ) :
    Concludes w.toWatched ((w.refresh c).misses c).1 (w.address c).1.isSome (w.address c).2.toWatched := by
  have hsetUp := isSetUp_refresh h c
  have hkept := toWatched_misses (w.refresh c) c
  rw [address]
  generalize (w.refresh c).misses c = missed at hkept
  obtain ⟨missed, w₁⟩ := missed
  have hkept : w₁.toWatched = (w.refresh c).toWatched := hkept
  rw [← hkept] at hsetUp
  cases missed with
  | true => exact .early rfl rfl hsetUp.coherent hsetUp.readStatus
  | false =>
      have hread := ends_readBase hsetUp.coherent c
      simp only
      generalize w₁.readBase c = out at hread
      obtain ⟨base, w₂⟩ := out
      cases base with
      | none => exact .served rfl hread
      | some base => exact .served rfl (ends_locate hread c base)

theorem concludes_get (h : w.Coherent) (c : ShiftingCursor σ) (type : ColumnType) :
    Concludes w.toWatched (w.exits c (.get type)) (w.get c type).1.isSome (w.get c type).2.toWatched := by
  simp only [get, exits]
  cases hask : w.ask c.status with
  | mk status w₁ =>
      have hkept : w₁.toWatched = w.toWatched := toWatched_of_ask hask
      rw [← hkept] at h ⊢
      simp only
      split
      · cases hquiet : w₁.ask (c.isSuppressed w₁.binding.path) with
        | mk quiet w₂ =>
            have hkept₂ : w₂.toWatched = w₁.toWatched := toWatched_of_ask hquiet
            have hafter :
                (if quiet then w₂ else w₂.tell [.notInitialized w₂.binding.path]).toWatched = w₁.toWatched := by
              split
              · exact hkept₂
              · exact hkept₂
            refine .early rfl rfl ?_ ?_
            · rw [hafter]
              exact h
            · rw [hafter]
      · have hconcludes := concludes_address h c
        generalize w₁.address c = out at hconcludes
        obtain ⟨place, w₂⟩ := out
        cases place with
        | none => exact hconcludes
        | some place =>
            cases hconcludes with
            | early _ hrefused _ _ => cases hrefused
            | served hstays hends => exact .served hstays (ends_decode hends c type place)

/-- **How a call ends that reads**, on a binding whose parts agree. -/
theorem concludes_call (h : w.Coherent) (c : ShiftingCursor σ) {call : BindingCall} (hreads : call.reads = true) :
    Concludes w.toWatched (w.exits c call) (w.call c call).1.isValue (w.call c call).2.toWatched := by
  cases call with
  | setup => cases hreads
  | read =>
      have hread := ends_readBase h c
      have hvalue : (w.call c .read).1.isValue = (w.readBase c).1.isSome := by
        show ((w.readBase c).2.binding.readStatus == .success) = _
        cases hbase : (w.readBase c).1.isSome with
        | true =>
            rw [(hread.value hbase).2]
            rfl
        | false =>
            rw [(hread.fault hbase).1]
            rfl
      rw [hvalue]
      exact .served rfl hread
  | address => exact concludes_address h c
  | get type => exact concludes_get h c type

theorem coherent_call (h : w.Coherent) (c : ShiftingCursor σ) (call : BindingCall) : (w.call c call).2.Coherent := by
  cases hreads : call.reads with
  | true =>
      cases concludes_call h c hreads with
      | early _ _ hcoherent _ => exact hcoherent
      | served _ hends => exact hends.coherent
  | false =>
      cases call with
      | setup => exact (isSetUp_setup w c).coherent
      | _ => cases hreads

end Scene

namespace Watched

variable {w : Watched}

theorem coherent_register (registry : Registry) (path : String) (requested : Option String) :
    (register registry path requested).Coherent where
  matched := rfl
  armed := rfl
  found := fun r hr => by cases hr
  told := fun h => absurd h Bool.false_ne_true

theorem Coherent.visit (h : w.Coherent) (v : Visit) : (w.visit v).Coherent := by
  cases v with
  | call c s call => exact Scene.coherent_call (w := w.facing s) h c call
  | leave => exact ⟨h.matched, h.armed, h.found, h.told⟩

theorem Coherent.visitAll (h : w.Coherent) (visits : List Visit) : (w.visitAll visits).Coherent := by
  induction visits generalizing w with
  | nil => exact h
  | cons v visits ih => exact ih (h.visit v)

/-- **A binding stays coherent whatever the cursors are.**  A new binding, after any calls with any cursors that answer
each question as they like, and after it may have left its registry: its status is a match exactly if a resolution is
stored, and exactly if the dispatcher is armed; then the resolution is that of its path in the schema that it was shown
last, the dispatcher is for the node of that schema, and the source is the node's.  Each call that reads and gives a value
leaves a match and success; one that leaves no match gives no value; and one that gives no value leaves an error and
tells why, unless it ended before anything was read and left the read status as it was.  Among cursors that do not
shift, all of this is what can be seen of the binding that is kept as a whole, call by call. -/
theorem coherent_after (registry : Registry) (path : String) (requested : Option String) (visits : List Visit) :
    let new := register registry path requested
    let w := new.visitAll visits
    let b := w.binding
    (b.setupStatus.isMatch = b.resolution.isSome ∧ b.resolution.isSome = b.dispatcher.plan.isSome) ∧
      (∀ r, b.resolution = some r → ∃ schema types wanted node, w.shown.getLast? = some (some schema) ∧
        requestedDescriptor types b.path b.requested = .ok wanted ∧
        (schema.resolve types b.path wanted).1 = .ok r ∧ schema.get? r.node = some node ∧
        b.dispatcher.target? = some ⟨r.node, node⟩ ∧ b.source = node.source) ∧
      (∀ {σ : Type} (c : ShiftingCursor σ) (s : σ) (call : BindingCall), call.reads = true →
        let answer := ((w.facing s).call c call).1
        let after := ((w.facing s).call c call).2.binding
        (answer.isValue = true → after.setupStatus.isMatch = true ∧ after.readStatus = .success) ∧
          (after.setupStatus.isMatch = false → answer.isValue = false) ∧
          (answer.isValue = false →
            if (w.facing s).exits c call then after.readStatus = b.readStatus
            else after.readStatus = .error ∧ after.diagnostic.isSome = true)) ∧
      ∀ (steady : List SteadyVisit) (elsewhere : Registration → Option Registry),
        let w := new.visitAll (steady.map (SteadyVisit.shifting elsewhere))
        let whole := (Binding.register registry path requested).1.visitAll steady
        w.binding.Shows whole ∧
          ∀ {σ : Type} (c : RowCursor σ) (s : σ) (call : BindingCall),
            let t := whole.callOn c s call
            let out := (w.facing s).call (c.shifting elsewhere) call
            out.1 = t.value ∧ out.2.binding.Shows t.binding ∧ out.2.state = t.state ∧ out.2.events = t.events := by
  intro new w b
  have hcoherent : w.Coherent := (coherent_register registry path requested).visitAll visits
  have harmed : b.dispatcher.target?.isSome = b.dispatcher.plan.isSome := Option.isSome_map
  refine ⟨⟨hcoherent.matched, hcoherent.armed.symm.trans harmed⟩, hcoherent.found, ?_, ?_⟩
  · intro σ c s call hreads answer after
    cases Scene.concludes_call (w := w.facing s) hcoherent c hreads with
    | early hexits hrefused hafter hread =>
        have hrefused : answer.isValue = false := hrefused
        rw [hrefused, hexits]
        exact ⟨fun h => absurd h Bool.false_ne_true, fun _ => rfl, fun _ => hread⟩
    | served hstays hends =>
        rw [hstays]
        refine ⟨hends.value, ?_, hends.fault⟩
        intro hmatch
        cases hvalue : answer.isValue with
        | false => rfl
        | true =>
            rw [(hends.value hvalue).1] at hmatch
            cases hmatch
  · intro steady elsewhere w whole
    have hshows := shows_visitAll (shows_register registry path requested) elsewhere steady
    refine ⟨hshows, ?_⟩
    intro σ c s call
    have halike := Scene.call_shifting c elsewhere (w := w.facing s) hshows call
    exact ⟨halike.value, halike.binding, halike.state, halike.told.trans (List.nil_append _)⟩

end Watched

end TypedColumns
