import TypedColumns.Proofs.PathSearch
import TypedColumns.Proofs.Session

/-!
# Bindings keep up with their dataset

A binding remembers what its path stood for, and looks again only when the generation has changed.  That is enough: what
it remembers from the current generation is what its path stands for in the current file.

* `Dataset.resolution` -- what a path stands for in the current file, with nothing remembered.
* `Match.Holds`, `Attempt.Holds` -- what is remembered is true of the dataset as it stands.
* `Binding.IsCurrent`, `Binding.Tracks` -- the last set-up is of this generation and holds; it is of an earlier one, or
  of this one and holds.  Setting up makes a binding current (`isCurrent_setup`, `isCurrent_refresh`), and reading keeps
  it so (`isCurrent_readBase`, `isCurrent_locate`, `isCurrent_decode`).
* `Dataset.freshAddress` -- the address of a column for which nothing is remembered; a binding that tracks its dataset
  answers the same and loads the same (`address_eq_freshAddress`).
* `Dataset.Agrees` -- nothing has changed that a binding rests on; a call on a dataset leaves it so or starts the next
  generation (`agrees_call`).
* `Session.Follows`, `Session.follows_apply`, `Session.follows_after` -- bindings keep tracking through a run.
* `Session.current_after` -- after every read a binding shows what its path stands for in the current file, and it
  answers what a new binding would answer.
-/

namespace TypedColumns

/-! ### What holds of a dataset -/

namespace Dataset

/-- What a path and a requested type stand for in the current file. -/
def resolution (d : Dataset) (path : String) (requested : Option String) : Except SetupError Resolution :=
  match d.schema? with
  | none => .error (.internal "row cursor has no open dataset")
  | some s =>
    match requested with
    | none => (s.resolve d.types path none).1
    | some name =>
      match d.types.resolve name with
      | none => .error (.missingTypeDescriptor path name)
      | some wanted => (s.resolve d.types path (some wanted)).1

end Dataset

/-- What a set-up found is true of a dataset.  A shape that is decided is the one that the dataset gives now, and its
node is wired. -/
structure Match.Holds (d : Dataset) (m : Match) : Prop where
  node : d.node? m.resolution.node = some m.plan.target.node
  target : m.plan.target.id = m.resolution.node
  source : m.source = m.plan.target.node.source
  generation : m.plan.generation = d.registry.generation
  shape : ∀ shape, m.plan.shape = some shape →
    shape = m.plan.target.node.facts.shape (d.hasDirector m.source) ∧ d.isWired m.plan.target.id = true

/-- The outcome of a set-up is the one that the path has in the current file. -/
def Attempt.Holds (d : Dataset) (path : String) (requested : Option String) (a : Attempt) : Prop :=
  match a.outcome with
  | .error e => d.resolution path requested = .error e
  | .ok m => d.resolution path requested = .ok m.resolution ∧ m.Holds d

namespace Binding

/-- The last set-up was made under the current generation, and its outcome holds. -/
def IsCurrent (d : Dataset) (b : Binding) : Prop :=
  ∃ a, b.attempt = some a ∧ a.generation = d.registry.generation ∧ a.Holds d b.path b.requested

/-- The last set-up was made under no later generation than the current one, and if under that one, its outcome
holds. -/
def Tracks (d : Dataset) (b : Binding) : Prop :=
  ∀ a, b.attempt = some a → a.generation.number.toNat ≤ d.registry.generation.number.toNat ∧
    (a.generation = d.registry.generation → a.Holds d b.path b.requested)

theorem IsCurrent.tracks {d : Dataset} {b : Binding} (h : IsCurrent d b) : Tracks d b := by
  obtain ⟨a, ha, hgen, hholds⟩ := h
  intro a' ha'
  rw [ha] at ha'
  cases ha'
  exact ⟨Nat.le_of_eq (congrArg (fun g => g.number.toNat) hgen), fun _ => hholds⟩

theorem tracks_of_attempt_eq_none {d : Dataset} {b : Binding} (h : b.attempt = none) : Tracks d b := by
  intro a ha
  rw [h] at ha
  cases ha

end Binding

/-! ### Frames -/

/-- Nothing has changed that a set-up rests on, nor, once some node is wired, what a decided shape rests on. -/
structure Dataset.Agrees (d e : Dataset) : Prop where
  generation : e.registry.generation = d.registry.generation
  schema? : e.schema? = d.schema?
  types : e.types = d.types
  steered : ∀ id, d.isWired id = true → e.isWired id = true ∧ ∀ source, e.hasDirector source = d.hasDirector source

theorem Dataset.Agrees.refl (d : Dataset) : Agrees d d := ⟨rfl, rfl, rfl, fun _ h => ⟨h, fun _ => rfl⟩⟩

theorem Dataset.Reloaded.agrees {d e : Dataset} (h : Reloaded d e) : Agrees d e :=
  ⟨congrArg Registry.generation h.registry, h.schema?, h.types, fun id hid => ⟨h.wired id hid, h.hasDirector⟩⟩

section Frames

variable {d e : Dataset}

theorem Dataset.Agrees.resolution (h : d.Agrees e) (path : String) (requested : Option String) :
    e.resolution path requested = d.resolution path requested := by
  rw [Dataset.resolution, h.schema?, h.types]
  rfl

theorem Dataset.Agrees.node? (h : d.Agrees e) (id : NodeId) : e.node? id = d.node? id := by
  rw [Dataset.node?, h.schema?]
  rfl

theorem Match.Holds.mono {m : Match} (hm : m.Holds d) (h : d.Agrees e) : m.Holds e := by
  refine ⟨?_, hm.target, hm.source, hm.generation.trans h.generation.symm, ?_⟩
  · rw [h.node?]
    exact hm.node
  · intro shape hshape
    obtain ⟨hfacts, hwired⟩ := hm.shape shape hshape
    obtain ⟨hstays, hdirector⟩ := h.steered _ hwired
    rw [hdirector]
    exact ⟨hfacts, hstays⟩

theorem Attempt.Holds.mono {path : String} {requested : Option String} {a : Attempt} (ha : a.Holds d path requested)
    (h : d.Agrees e) : a.Holds e path requested := by
  cases a with
  | mk generation outcome =>
      cases outcome with
      | error err => exact (h.resolution path requested).trans ha
      | ok m => exact ⟨(h.resolution path requested).trans ha.1, ha.2.mono h⟩

theorem Binding.Tracks.mono {b : Binding} (hb : b.Tracks d) (h : d.Agrees e) : b.Tracks e := by
  intro a ha
  rw [h.generation]
  exact ⟨(hb a ha).1, fun hgen => ((hb a ha).2 hgen).mono h⟩

/-- What was found under an earlier generation has only to be earlier. -/
theorem Binding.Tracks.of_lt {b : Binding} (hb : b.Tracks d)
    (h : d.registry.generation.number.toNat < e.registry.generation.number.toNat) : b.Tracks e := by
  intro a ha
  have hle := (hb a ha).1
  refine ⟨by omega, ?_⟩
  intro hgen
  rw [hgen] at hle
  omega

end Frames

/-! ### Setting up -/

/-- A path resolves to a node of its schema. -/
theorem Schema.exists_node_of_resolve {s : Schema} {types : Catalog} {path : String} {requested : Option Descriptor}
    {r : Resolution} (h : (s.resolve types path requested).1 = .ok r) : ∃ n, s.get? r.node = some n := by
  rcases resolve_eq_ok_iff.1 h with
    ⟨_, _, node, _, _, _, hnode, _, _, _, rfl⟩ | ⟨⟨_, node, _, _, hnode, _, rfl⟩, -⟩ |
      ⟨⟨_, _, node, _, _, _, hnode, _, _, _, rfl⟩, -⟩
  · exact ⟨node, hnode⟩
  · exact ⟨node, hnode⟩
  · exact ⟨node, hnode⟩

theorem Dataset.exists_node_of_resolution {d : Dataset} {path : String} {requested : Option String} {r : Resolution}
    (h : d.resolution path requested = .ok r) : ∃ n, d.node? r.node = some n := by
  simp only [Dataset.resolution] at h
  rw [Dataset.node?]
  cases hs : d.schema? with
  | none =>
      rw [hs] at h
      cases h
  | some s =>
      simp only [hs] at h
      split at h
      · exact Schema.exists_node_of_resolve h
      · split at h
        · cases h
        · exact Schema.exists_node_of_resolve h

namespace Binding

section Setup

variable {d : Dataset} {b : Binding}

/-- A live binding is resolved in the current file. -/
theorem resolve_of_serves (hb : d.registry.serves b.registration = true) :
    (b.resolve Dataset.cursor d).1 =
      match d.resolution b.path b.requested with
      | .error e => .error e
      | .ok r =>
        match d.node? r.node with
        | none => .error (.internal ("node " ++ r.node.text ++ " vanished from the schema"))
        | some node =>
          .ok ⟨r, node.source, Plan.prepare r.node node d.registry.generation, d.position.status == .beyondEnd, none⟩ := by
  simp only [resolve, Dataset.cursor, hb, Bool.not_true, Bool.false_eq_true, if_false, Dataset.resolution, Dataset.node?]
  cases hs : d.schema? with
  | none => rfl
  | some s =>
      cases hr : b.requested with
      | none =>
          simp only [Option.bind_some]
          cases hres : s.resolve d.types b.path none with
          | mk outcome events =>
              cases outcome with
              | error e => rfl
              | ok r =>
                  simp only
                  cases s.get? r.node <;> rfl
      | some name =>
          simp only [Option.bind_some]
          cases ht : d.types.resolve name with
          | none => rfl
          | some wanted =>
              simp only
              cases hres : s.resolve d.types b.path (some wanted) with
              | mk outcome events =>
                  cases outcome with
                  | error e => rfl
                  | ok r =>
                      simp only
                      cases s.get? r.node <;> rfl

theorem isCurrent_setup (hb : d.registry.serves b.registration = true) : IsCurrent d (b.setup Dataset.cursor d).1 := by
  refine ⟨_, rfl, rfl, ?_⟩
  show Attempt.Holds d b.path b.requested ⟨d.registry.generation, (b.resolve Dataset.cursor d).1⟩
  rw [resolve_of_serves hb]
  cases hr : d.resolution b.path b.requested with
  | error e => exact hr
  | ok r =>
      obtain ⟨node, hnode⟩ := Dataset.exists_node_of_resolution hr
      simp only [hnode]
      refine ⟨hr, hnode, rfl, rfl, rfl, ?_⟩
      intro shape hshape
      cases hshape

theorem isCurrent_refresh (hb : d.registry.serves b.registration = true) (h : Tracks d b) :
    IsCurrent d (b.refresh Dataset.cursor d).1 := by
  rw [refresh]
  split
  · rename_i hfresh
    rw [isFresh] at hfresh
    split at hfresh
    · rename_i a ha
      have hgen : a.generation = d.registry.generation := eq_of_beq hfresh
      exact ⟨a, ha, hgen, (h a ha).2 hgen⟩
    · cases hfresh
  · exact isCurrent_setup hb

end Setup

end Binding

/-! ### Reading by a plan -/

section Plans

variable {σ : Type} {c : RowCursor σ} {s : σ} {p : Plan}

theorem Plan.read_of_shape {shape : Shape} (hgen : p.generation = c.generation s) (hshape : p.shape = some shape) :
    p.read c s = ⟨(shape.read c p.target s).1, p, (shape.read c p.target s).2, []⟩ := by
  simp only [Plan.read, hgen, hshape, ne_eq, not_true_eq_false, if_false]

theorem Plan.read_of_wired (hgen : p.generation = c.generation s) (hshape : p.shape = none)
    (hw : c.isWired s p.target.id = true) : p.read c s = p.decideAndRead c s := by
  simp only [Plan.read, hgen, hshape, hw, ne_eq, not_true_eq_false, if_false, if_true]

theorem Plan.read_of_unwired (hgen : p.generation = c.generation s) (hshape : p.shape = none)
    (hw : c.isWired s p.target.id = false) :
    p.read c s =
      match Shape.noCoordinator.read c p.target s with
      | (.error e, s) => ⟨.error e, p, s, []⟩
      | (.ok base, s) => if c.isWired s p.target.id then p.decideAndRead c s else ⟨.ok base, p, s, []⟩ := by
  cases hr : Shape.noCoordinator.read c p.target s with
  | mk r t => cases r <;> simp only [Plan.read, hgen, hshape, hw, hr, ne_eq, not_true_eq_false, if_false, Bool.false_eq_true]

theorem Plan.base_read_of_unloaded {e : ReadError} {t : σ} (hgen : p.generation = c.generation s)
    (hshape : p.shape = none) (hw : c.isWired s p.target.id = false)
    (h : Shape.noCoordinator.read c p.target s = (.error e, t)) : (p.read c s).base = .error e := by
  rw [Plan.read_of_unwired hgen hshape hw, h]

end Plans

/-- A shape that is decided by reading is the one that the dataset gives, and its node is wired then. -/
theorem shape_decideAndRead {d : Dataset} {p : Plan} (hw : d.isWired p.target.id = true) {shape : Shape}
    (h : (p.decideAndRead Dataset.cursor d).plan.shape = some shape) :
    shape = p.target.node.facts.shape (d.hasDirector p.target.node.source) ∧
      (p.decideAndRead Dataset.cursor d).state.isWired p.target.id = true := by
  have hreload := Dataset.reloaded_of_reaches (reaches_decideAndRead Dataset.cursor p d)
  exact ⟨(Option.some.inj h).symm, hreload.wired _ hw⟩

theorem shape_planRead {d : Dataset} {p : Plan} {shape : Shape} (hgen : p.generation = d.registry.generation)
    (h : (p.read Dataset.cursor d).plan.shape = some shape) :
    p.shape = some shape ∨
      (shape = p.target.node.facts.shape (d.hasDirector p.target.node.source) ∧
        (p.read Dataset.cursor d).state.isWired p.target.id = true) := by
  cases hshape : p.shape with
  | some decided =>
      rw [Plan.read_of_shape hgen hshape] at h
      exact Or.inl (hshape.symm.trans h)
  | none =>
      refine Or.inr ?_
      cases hw : d.isWired p.target.id with
      | true =>
          rw [Plan.read_of_wired hgen hshape hw] at h ⊢
          exact shape_decideAndRead hw h
      | false =>
          have hload := Dataset.reloaded_of_reaches (reaches_shapeRead Dataset.cursor .noCoordinator p.target d)
          rw [Plan.read_of_unwired hgen hshape hw] at h ⊢
          cases hr : Shape.noCoordinator.read Dataset.cursor p.target d with
          | mk r e =>
              rw [hr] at hload
              simp only [hr] at h ⊢
              cases r with
              | error err =>
                  rw [hshape] at h
                  cases h
              | ok base =>
                  simp only at h ⊢
                  split at h
                  · rename_i hwired
                    rw [if_pos hwired, ← hload.hasDirector]
                    exact shape_decideAndRead hwired h
                  · rw [hshape] at h
                    cases h

theorem Match.Holds.planRead {d : Dataset} {m : Match} (h : m.Holds d) :
    Match.Holds (m.plan.read Dataset.cursor d).state { m with plan := (m.plan.read Dataset.cursor d).plan } := by
  have hreload := Dataset.reloaded_of_reaches (reaches_planRead Dataset.cursor m.plan d)
  have hmono := h.mono hreload.agrees
  have htarget := Plan.target_read m.plan Dataset.cursor d
  have hgeneration := Plan.generation_read m.plan Dataset.cursor d
  refine ⟨?_, ?_, ?_, hgeneration.trans hmono.generation, ?_⟩
  · show _ = some (m.plan.read Dataset.cursor d).plan.target.node
    rw [htarget]
    exact hmono.node
  · exact (congrArg Target.id htarget).trans hmono.target
  · exact hmono.source.trans (congrArg (fun t => t.node.source) htarget.symm)
  · intro shape hshape
    show shape = (m.plan.read Dataset.cursor d).plan.target.node.facts.shape _ ∧
      (m.plan.read Dataset.cursor d).state.isWired (m.plan.read Dataset.cursor d).plan.target.id = true
    rw [htarget]
    rcases shape_planRead h.generation hshape with hold | ⟨hfacts, hwired⟩
    · exact hmono.shape shape hold
    · refine ⟨?_, hwired⟩
      rw [hreload.hasDirector, h.source]
      exact hfacts

namespace Binding

section Reads

variable {d : Dataset} {b : Binding}

/-- A current binding either has a match, which holds, or an error, which the path has in the current file. -/
theorem IsCurrent.cases (h : IsCurrent d b) :
    (∃ m, b.match? = some m ∧ d.resolution b.path b.requested = .ok m.resolution ∧ m.Holds d) ∨
      ∃ e, b.match? = none ∧ b.setupStatus = e.status ∧ b.diagnostic = some e.message ∧
        d.resolution b.path b.requested = .error e := by
  obtain ⟨⟨generation, outcome⟩, ha, -, hholds⟩ := h
  cases outcome with
  | error e =>
      refine Or.inr ⟨e, ?_, ?_, ?_, hholds⟩
      · rw [match?, ha]
      · rw [setupStatus, ha]
      · rw [diagnostic, ha]
  | ok m =>
      refine Or.inl ⟨m, ?_, hholds.1, hholds.2⟩
      rw [match?, ha]

/-- A current binding stays current with another match that holds of a dataset that agrees. -/
theorem IsCurrent.withMatch {e : Dataset} {m n : Match} (h : IsCurrent d b) (hm : b.match? = some m) (he : d.Agrees e)
    (hr : n.resolution = m.resolution) (hn : n.Holds e) : IsCurrent e (b.withMatch n) := by
  obtain ⟨⟨generation, outcome⟩, ha, hgen, hholds⟩ := h
  cases outcome with
  | error err =>
      rw [match?, ha] at hm
      cases hm
  | ok m' =>
      have hm' : m' = m := by
        rw [match?, ha] at hm
        exact Option.some.inj hm
      subst hm'
      refine ⟨⟨generation, .ok n⟩, ?_, hgen.trans he.generation.symm, ?_, hn⟩
      · show b.attempt.map _ = _
        rw [ha]
        rfl
      · rw [he.resolution, hr]
        exact hholds.1

theorem isCurrent_readBase (h : IsCurrent d b) :
    IsCurrent (b.readBase Dataset.cursor d).state (b.readBase Dataset.cursor d).binding := by
  rw [readBase]
  split
  · rename_i m hm
    rcases h.cases with ⟨m', hm', -, hholds⟩ | ⟨e, hnone, -⟩
    · have heq : m' = m := Option.some.inj (hm'.symm.trans hm)
      subst heq
      have hagrees := (Dataset.reloaded_of_reaches (reaches_planRead Dataset.cursor m'.plan d)).agrees
      have hread := hholds.planRead
      simp only [readMatch]
      split
      · exact h.withMatch hm hagrees rfl hread
      · exact h.withMatch hm hagrees rfl ⟨hread.node, hread.target, hread.source, hread.generation, hread.shape⟩
    · rw [hm] at hnone
      cases hnone
  · exact h

theorem isCurrent_failRead {m : Match} (e : ReadError) (h : IsCurrent d b) (hm : b.match? = some m) :
    IsCurrent d (b.failRead m e) := by
  rcases h.cases with ⟨m', hm', -, hholds⟩ | ⟨err, hnone, -⟩
  · have heq : m' = m := Option.some.inj (hm'.symm.trans hm)
    subst heq
    exact h.withMatch hm (Dataset.Agrees.refl d) rfl
      ⟨hholds.node, hholds.target, hholds.source, hholds.generation, hholds.shape⟩
  · rw [hm] at hnone
    cases hnone

theorem isCurrent_locate {t : Turn Dataset (Option Address)} (h : IsCurrent t.state t.binding) :
    IsCurrent (locate t Dataset.cursor).state (locate t Dataset.cursor).binding := by
  rw [locate]
  split
  · rename_i hm
    split
    · exact h
    · exact isCurrent_failRead _ h hm
  · exact h

theorem isCurrent_decode {type : ColumnType} {t : Turn Dataset (Option Address)} (h : IsCurrent t.state t.binding) :
    IsCurrent (decode type t Dataset.cursor).state (decode type t Dataset.cursor).binding := by
  rw [decode]
  split
  · rename_i hm
    split
    · exact h
    · exact isCurrent_failRead _ h hm
  · exact h

theorem isCurrent_read (hb : d.registry.serves b.registration = true) (h : Tracks d b) :
    IsCurrent (b.read Dataset.cursor d).state (b.read Dataset.cursor d).binding :=
  isCurrent_readBase (isCurrent_refresh hb h)

theorem isCurrent_address (hb : d.registry.serves b.registration = true) (h : Tracks d b) :
    IsCurrent (b.address Dataset.cursor d).state (b.address Dataset.cursor d).binding := by
  have hrefresh := isCurrent_refresh hb h
  simp only [address]
  split
  · exact hrefresh
  · exact isCurrent_locate (isCurrent_readBase hrefresh)

/-- Every call on a live binding that tracks its dataset leaves it tracking. -/
theorem tracks_call (hb : d.registry.serves b.registration = true) (h : Tracks d b) (call : BindingCall) :
    Tracks (b.call d call).state (b.call d call).binding := by
  cases call with
  | setup => exact (isCurrent_setup hb).tracks
  | read => exact (isCurrent_read hb h).tracks
  | address => exact (isCurrent_address hb h).tracks
  | get type =>
      show Tracks (b.get type Dataset.cursor d).state (b.get type Dataset.cursor d).binding
      rw [get]
      split
      · exact h
      · exact (isCurrent_decode (isCurrent_address hb h)).tracks

end Reads

end Binding

/-! ### Answers of a new binding -/

/-- The address of a column for which nothing is remembered, and the dataset after it has been looked for. -/
def Dataset.freshAddress (d : Dataset) (path : String) (requested : Option String) : Option Address × Dataset :=
  match d.resolution path requested with
  | .error _ => (none, d)
  | .ok r =>
    match d.node? r.node with
    | none => (none, d)
    | some node =>
      if d.position.status == .indexedJoinNoMatch && (d.activeRow node.source).isNone then (none, d)
      else
        let read := (Plan.prepare r.node node d.registry.generation).read Dataset.cursor d
        match read.base with
        | .error _ => (none, read.state)
        | .ok base => ((r.access.locate read.state.arena.image base).toOption, read.state)

/-- A plan that holds reads like one that was only prepared. -/
theorem Match.Holds.read_eq {d : Dataset} {m : Match} (h : m.Holds d) :
    let fresh := (Plan.prepare m.resolution.node m.plan.target.node d.registry.generation).read Dataset.cursor d
    (m.plan.read Dataset.cursor d).base = fresh.base ∧ (m.plan.read Dataset.cursor d).state = fresh.state := by
  have hprepare : Plan.prepare m.resolution.node m.plan.target.node d.registry.generation =
      { m.plan with shape := none } := by
    rw [← h.target, ← h.generation]
    rfl
  rw [hprepare]
  cases hshape : m.plan.shape with
  | none =>
      rw [← hshape]
      exact ⟨rfl, rfl⟩
  | some shape =>
      obtain ⟨hfacts, hwired⟩ := h.shape shape hshape
      rw [Plan.read_of_shape h.generation hshape]
      have hwired : Dataset.cursor.isWired d ({ m.plan with shape := none } : Plan).target.id = true := hwired
      rw [Plan.read_of_wired h.generation rfl hwired, hfacts, h.source]
      exact ⟨rfl, rfl⟩

namespace Binding

section Answers

variable {d : Dataset} {b : Binding}

theorem value_locate_of_none {t : Turn Dataset (Option Address)} (h : t.value = none) :
    (locate t Dataset.cursor).value = none := by
  simp only [locate, h]

theorem value_locate_of_some {t : Turn Dataset (Option Address)} {base : Address} {m : Match}
    (hbase : t.value = some base) (hm : t.binding.match? = some m) :
    (locate t Dataset.cursor).value = (m.resolution.access.locate t.state.arena.image base).toOption := by
  have himage : Dataset.cursor.image t.state = t.state.arena.image := rfl
  simp only [locate, hbase, hm, himage]
  cases m.resolution.access.locate t.state.arena.image base <;> rfl

theorem readBase_of_match?_eq_none (h : b.match? = none) :
    (b.readBase Dataset.cursor d).value = none ∧ (b.readBase Dataset.cursor d).state = d := by
  rw [readBase, h]
  exact ⟨rfl, rfl⟩

theorem address_of_error (h : (b.refresh Dataset.cursor d).1.match? = none) :
    (b.address Dataset.cursor d).value = none ∧ (b.address Dataset.cursor d).state = d := by
  obtain ⟨hvalue, hstate⟩ := readBase_of_match?_eq_none (d := d) h
  have hmisses : (b.refresh Dataset.cursor d).1.misses Dataset.cursor d = false := by
    rw [misses, h]
  simp only [address, hmisses, Bool.false_eq_true, if_false]
  exact ⟨value_locate_of_none hvalue, (state_locate _ Dataset.cursor).trans hstate⟩

theorem address_of_match {m : Match} (h : (b.refresh Dataset.cursor d).1.match? = some m) :
    let read := m.plan.read Dataset.cursor d
    (b.address Dataset.cursor d).value =
      (if d.position.status == .indexedJoinNoMatch && (d.activeRow m.source).isNone then none
        else read.base.toOption.bind (fun base => (m.resolution.access.locate read.state.arena.image base).toOption)) ∧
    (b.address Dataset.cursor d).state =
      if d.position.status == .indexedJoinNoMatch && (d.activeRow m.source).isNone then d else read.state := by
  have hmisses : (b.refresh Dataset.cursor d).1.misses Dataset.cursor d =
      (d.position.status == .indexedJoinNoMatch && (d.activeRow m.source).isNone) := by
    rw [misses, h]
    rfl
  simp only [address, hmisses]
  split
  · exact ⟨rfl, rfl⟩
  · simp only [readBase, h, readMatch]
    cases hbase : (m.plan.read Dataset.cursor d).base with
    | error e => exact ⟨rfl, rfl⟩
    | ok base =>
        have hm := match?_withMatch h { m with plan := (m.plan.read Dataset.cursor d).plan }
        refine ⟨?_, state_locate _ Dataset.cursor⟩
        exact value_locate_of_some (m := { m with plan := (m.plan.read Dataset.cursor d).plan }) rfl hm

/-- **A live binding that tracks its dataset answers and loads as if it remembered nothing.** -/
theorem address_eq_freshAddress (hb : d.registry.serves b.registration = true) (h : Tracks d b) :
    ((b.address Dataset.cursor d).value, (b.address Dataset.cursor d).state) = d.freshAddress b.path b.requested := by
  have hcolumn := sameColumn_refresh b Dataset.cursor d
  rw [Dataset.freshAddress, ← hcolumn.path, ← hcolumn.requested]
  rcases (isCurrent_refresh hb h).cases with ⟨m, hm, hr, hholds⟩ | ⟨e, hnone, -, -, hr⟩
  · obtain ⟨hvalue, hstate⟩ := address_of_match hm
    obtain ⟨hbase, hread⟩ := hholds.read_eq
    rw [hvalue, hstate, hr, hbase, hread]
    simp only [hholds.node, ← hholds.source]
    split
    · rfl
    · cases ((Plan.prepare m.resolution.node m.plan.target.node d.registry.generation).read Dataset.cursor d).base with
      | error e => rfl
      | ok base => rfl
  · obtain ⟨hvalue, hstate⟩ := address_of_error hnone
    rw [hvalue, hstate, hr]

end Answers

end Binding

/-! ### Keeping up -/

/-- Whether a call changes which sources have a director. -/
def SessionCall.steers : SessionCall → Bool
  | .dataset (.joinAligned _) | .dataset (.joinIndexed _ _) | .dataset (.detach _) => true
  | _ => false

namespace Dataset

theorem isWired_wire {d : Dataset} {id : NodeId} (h : d.isWired id = true) : d.wire.isWired id = true := by
  rw [wire]
  split
  · rename_i hempty
    have hnil : d.wired = [] := by simpa using (Bool.and_eq_true_iff.1 hempty).2
    rw [isWired, hnil] at h
    cases h
  · exact h

/-- Seeking either leaves all that a set-up rests on as it was, or starts the next generation. -/
theorem agrees_seek (d : Dataset) (entry : UInt64) :
    Agrees d (d.seek entry).1 ∨
      ((d.seek entry).1.current ≠ d.current ∧ (d.seek entry).1.registry.generation = d.registry.generation.next) := by
  rcases seek_cases d entry with h | ⟨row, -, h⟩ | ⟨file, row, -, hfile, h⟩
  · rw [h]
    exact Or.inl ⟨rfl, rfl, rfl, fun _ h => ⟨h, fun _ => rfl⟩⟩
  · refine Or.inl ?_
    have hwired : ∀ id, d.isWired id = true → (d.seek entry).1.isWired id = true := by
      intro id hid
      rw [h]
      exact isWired_wire (d := { d with loaded := [] }) hid
    rw [h, wire_eq] at hwired ⊢
    exact ⟨rfl, rfl, rfl, fun id hid => ⟨hwired id hid, fun _ => rfl⟩⟩
  · rw [h, wire_eq]
    exact Or.inr ⟨hfile, rfl⟩

theorem schema?_pushFile {d : Dataset} (hd : d.current = 0 ∨ d.current < d.files.length) (hfiles : d.files ≠ [])
    (f : File) : (d.pushFile f).1.schema? = d.schema? := by
  have hpos := List.length_pos_iff.2 hfiles
  show ((d.files ++ [f])[d.current]?).map File.schema = (d.files[d.current]?).map File.schema
  rw [List.getElem?_append_left (by omega)]

/-- A silent call on a dataset leaves all that a set-up rests on as it was, or starts the next generation.  The first
file, and steering when some node is wired, are excepted. -/
theorem agrees_call {d : Dataset} {call : DatasetCall} (hd : d.current = 0 ∨ d.current < d.files.length)
    (hsilent : (SessionCall.dataset call).announces = false) (hfirst : (∃ f, call = .pushFile f) → d.files ≠ [])
    (hsteers : (SessionCall.dataset call).steers = true → d.wired = []) :
    Agrees d (d.call call).state ∨
      ((d.call call).state.current ≠ d.current ∧
        (d.call call).state.registry.generation = d.registry.generation.next) := by
  have hjoins : ∀ e : Dataset, d.wired = [] → e.registry = d.registry → e.schema? = d.schema? → e.types = d.types →
      Agrees d e := by
    intro e hnil hregistry hschema htypes
    refine ⟨congrArg Registry.generation hregistry, hschema, htypes, ?_⟩
    intro id hid
    rw [isWired, hnil] at hid
    cases hid
  cases call with
  | pushFile f => exact Or.inl ⟨rfl, schema?_pushFile hd (hfirst ⟨f, rfl⟩) f, rfl, fun _ h => ⟨h, fun _ => rfl⟩⟩
  | joinAligned source => exact Or.inl (hjoins _ (hsteers rfl) rfl rfl rfl)
  | joinIndexed source rows => exact Or.inl (hjoins _ (hsteers rfl) rfl rfl rfl)
  | detach source => exact Or.inl (hjoins _ (hsteers rfl) rfl rfl rfl)
  | setLazyWiring lazy => exact Or.inl ⟨rfl, rfl, rfl, fun _ h => ⟨h, fun _ => rfl⟩⟩
  | markCorrupt node => exact Or.inl ⟨rfl, rfl, rfl, fun _ h => ⟨h, fun _ => rfl⟩⟩
  | seek entry => exact agrees_seek d entry
  | next => exact agrees_seek d d.nextEntry
  | load id => exact Or.inl (reloaded_load d id).agrees
  | announce g => cases hsilent

end Dataset

namespace Session

/-- The binding of a number tracks the dataset as long as it is live. -/
def Follows (s : Session) (i : Nat) : Prop :=
  ∀ b, s.bindings[i]? = some b → s.dataset.registry.serves b.registration = true → b.Tracks s.dataset

/-- The binding of a number, if it was made at all, was not set up yet. -/
def IsNew (s : Session) (i : Nat) : Prop := ∀ b, s.bindings[i]? = some b → b.attempt = none

theorem IsNew.follows {s : Session} {i : Nat} (h : s.IsNew i) : s.Follows i :=
  fun b hb _ => Binding.tracks_of_attempt_eq_none (h b hb)

theorem tracks_dataset_apply {s : Session} {call : DatasetCall} {b : Binding} (hs : s.WellFormed)
    (hsilent : (SessionCall.dataset call).announces = false)
    (hcount : s.dataset.registry.generation.number.toNat + s.switches [.dataset call] < 2 ^ 64)
    (hfirst : (∃ f, call = .pushFile f) → s.dataset.files ≠ [])
    (hsteers : (SessionCall.dataset call).steers = true → s.dataset.wired = []) (hb : b.Tracks s.dataset) :
    b.Tracks (s.dataset.call call).state := by
  rcases Dataset.agrees_call hs.current hsilent hfirst hsteers with h | ⟨hfile, hgen⟩
  · exact hb.mono h
  · have hone : s.switches [.dataset call] = 1 := by
      simp only [switches, Nat.add_zero]
      exact if_neg hfile
    refine hb.of_lt ?_
    rw [hgen, Generation.toNat_next (by omega)]
    omega

/-- One call keeps a binding tracking, unless the client announces a generation, adds the first file after the binding
was set up, or steers sources when some node is wired. -/
theorem follows_apply {s : Session} {call : SessionCall} {i : Nat} (hs : s.WellFormed)
    (hsilent : call.announces = false)
    (hcount : s.dataset.registry.generation.number.toNat + s.switches [call] < 2 ^ 64)
    (hfirst : (∃ f, call = .dataset (.pushFile f)) → s.dataset.files ≠ [] ∨ s.IsNew i)
    (hsteers : call.steers = true → s.dataset.wired = [] ∨ s.IsNew i) (h : s.Follows i) :
    (s.apply call).state.Follows i := by
  intro b hb hserves
  rcases binding_apply hb with hold | ⟨a, use, rfl, ha, rfl⟩ | ⟨a, rfl, ha, rfl⟩ | ⟨path, requested, rfl, rfl⟩
  · have hbefore := serves_of_serves_apply (hs.issued b (List.mem_of_getElem? hold)) hserves
    have htracks := h b hold hbefore
    rcases dataset_apply s call with ⟨c, rfl, hd⟩ | hreach | ⟨r, hr, hd⟩
    · rw [hd]
      cases hattempt : b.attempt with
      | none => exact Binding.tracks_of_attempt_eq_none hattempt
      | some attempt =>
          have hset : ¬ s.IsNew i := by
            intro hnew
            have hnone := hnew b hold
            rw [hattempt] at hnone
            cases hnone
          refine tracks_dataset_apply hs hsilent hcount ?_ ?_ htracks
          · rintro ⟨f, rfl⟩
            exact (hfirst ⟨f, rfl⟩).resolve_right hset
          · intro hcall
            exact (hsteers hcall).resolve_right hset
    · exact htracks.mono (Dataset.reloaded_of_reaches hreach).agrees
    · rw [hd]
      exact htracks.mono ⟨hr.generation, rfl, rfl, fun _ h => ⟨h, fun _ => rfl⟩⟩
  · have hregistration := (Binding.sameColumn_call a s.dataset use).registration
    rw [hregistration] at hserves
    have hbefore := serves_of_serves_apply (hs.issued a (List.mem_of_getElem? ha)) hserves
    simp only [apply, ha]
    exact Binding.tracks_call hbefore (h a ha hbefore) use
  · cases hserves
  · exact Binding.tracks_of_attempt_eq_none rfl

/-- A run keeps a binding tracking once there is a file, as long as nothing is announced and nothing steered. -/
theorem follows_after {s : Session} {calls : List SessionCall} {i : Nat} (hs : s.WellFormed)
    (hsilent : ∀ call ∈ calls, call.announces = false) (hsteers : ∀ call ∈ calls, call.steers = false)
    (hcount : s.dataset.registry.generation.number.toNat + s.switches calls < 2 ^ 64) (hfiles : s.dataset.files ≠ [])
    (h : s.Follows i) : (s.after calls).Follows i := by
  induction calls generalizing s with
  | nil => exact h
  | cons call calls ih =>
      have hcall := hsilent call List.mem_cons_self
      have hgen := generation_apply hcall hcount
      have hstep : (s.apply call).state.Follows i := by
        rw [switches_cons] at hcount
        refine follows_apply hs hcall (by omega) (fun _ => Or.inl hfiles) ?_ h
        intro hsteer
        rw [hsteers call List.mem_cons_self] at hsteer
        cases hsteer
      rw [← hgen] at hcount
      exact ih (wellFormed_apply hs call) (fun c hc => hsilent c (List.mem_cons_of_mem call hc))
        (fun c hc => hsteers c (List.mem_cons_of_mem call hc)) hcount (files_apply_ne_nil hfiles call) hstep

end Session

/-- What can be seen of a binding after a set-up with the given outcome.  The two statuses of a match count as one. -/
def Binding.Shows (b : Binding) (outcome : Except SetupError Resolution) : Prop :=
  match outcome with
  | .ok r => b.setupStatus.isMatch = true ∧ b.access? = some r.access ∧ b.storedType = some r.stored
  | .error e =>
    b.setupStatus = e.status ∧ b.diagnostic = some e.message ∧ b.access? = none ∧ b.storedType = none

theorem Binding.IsCurrent.shows {d : Dataset} {b : Binding} (h : b.IsCurrent d) :
    b.Shows (d.resolution b.path b.requested) := by
  rcases h.cases with ⟨m, hm, hr, -⟩ | ⟨e, hnone, hstatus, hdiagnostic, hr⟩
  · rw [hr]
    refine ⟨?_, ?_, ?_⟩
    · rw [isMatch_setupStatus, hm]
      rfl
    · rw [access?, hm]
      rfl
    · rw [storedType, hm]
      rfl
  · rw [hr]
    refine ⟨hstatus, hdiagnostic, ?_, ?_⟩
    · rw [access?, hnone]
      rfl
    · rw [storedType, hnone]
      rfl

/-- Reading a live binding that tracks its dataset, by either call, leaves it current. -/
theorem Session.shows_apply {s : Session} {i : Nat} {b : Binding} (hb : s.bindings[i]? = some b)
    (hserves : s.dataset.registry.serves b.registration = true) (h : b.Tracks s.dataset) {call : BindingCall}
    (hcall : call = .read ∨ call = .address) :
    ∃ b', (s.apply (.use i call)).state.bindings[i]? = some b' ∧
      b'.Shows ((s.apply (.use i call)).state.dataset.resolution b.path b.requested) := by
  have hlt := (List.getElem?_eq_some_iff.1 hb).1
  have hcolumn := Binding.sameColumn_call b s.dataset call
  have hcurrent : (b.call s.dataset call).binding.IsCurrent (b.call s.dataset call).state := by
    rcases hcall with rfl | rfl
    · exact Binding.isCurrent_read hserves h
    · exact Binding.isCurrent_address hserves h
  have hshows := hcurrent.shows
  rw [hcolumn.path, hcolumn.requested] at hshows
  refine ⟨(b.call s.dataset call).binding, ?_, ?_⟩
  · simp only [apply, hb]
    exact List.getElem?_set_self hlt
  · simp only [apply, hb]
    exact hshows

/-- **No read uses what was found out about another file.**  Take any run, `before` and `after` the moment from which
a binding may be set up; by then there is a file, and later no source is steered anew.  Reading the binding then leaves
it as the resolution of its path in the current file says, and a binding of the same column that was never set up would
have answered the same and left the dataset the same. -/
theorem Session.current_after {identity : RegistryId} {types : Catalog} {settings : Settings}
    {before after : List SessionCall} {i : Nat} {b : Binding}
    (hsilent : ∀ call ∈ before ++ after, call.announces = false)
    (hcount : (start identity types settings).switches (before ++ after) < 2 ^ 64)
    (hfiles : ((start identity types settings).after before).dataset.files ≠ [])
    (hnew : ((start identity types settings).after before).IsNew i)
    (hsteers : ∀ call ∈ after, call.steers = false)
    (hb : ((start identity types settings).after (before ++ after)).bindings[i]? = some b)
    (hserves : ((start identity types settings).after (before ++ after)).dataset.registry.serves b.registration = true) :
    let s := (start identity types settings).after (before ++ after)
    (∀ call, call = .read ∨ call = .address → ∃ b', (s.apply (.use i call)).state.bindings[i]? = some b' ∧
      b'.Shows ((s.apply (.use i call)).state.dataset.resolution b.path b.requested)) ∧
    ∀ fresh : Binding, fresh.path = b.path → fresh.requested = b.requested → fresh.attempt = none →
      s.dataset.registry.serves fresh.registration = true →
      (fresh.address Dataset.cursor s.dataset).value = (b.address Dataset.cursor s.dataset).value ∧
        (fresh.address Dataset.cursor s.dataset).state = (b.address Dataset.cursor s.dataset).state := by
  intro s
  have hstart : (start identity types settings).dataset.registry.generation.number.toNat = 0 := rfl
  have hwf := wellFormed_start identity types settings
  have htracks : b.Tracks s.dataset := by
    have hsplit := after_append (start identity types settings) before after
    have hbefore : ∀ call ∈ before, call.announces = false := fun c hc => hsilent c (List.mem_append_left after hc)
    have hafter : ∀ call ∈ after, call.announces = false := fun c hc => hsilent c (List.mem_append_right before hc)
    rw [switches_append] at hcount
    have hgen := generation_after hbefore (show _ + (start identity types settings).switches before < 2 ^ 64 by omega)
    have hfollows := follows_after (wellFormed_after hwf before) hafter hsteers (by omega) hfiles hnew.follows
    rw [← hsplit] at hfollows
    exact hfollows b hb hserves
  refine ⟨fun call hcall => shows_apply hb hserves htracks hcall, ?_⟩
  intro fresh hpath hrequested hnone hfresh
  have hold := Binding.address_eq_freshAddress hserves htracks
  have hnew := Binding.address_eq_freshAddress hfresh (Binding.tracks_of_attempt_eq_none hnone)
  rw [hpath, hrequested, ← hold] at hnew
  exact ⟨congrArg Prod.fst hnew, congrArg Prod.snd hnew⟩

/-- A list of nodes of which none refers to another is well linked once the names are distinct. -/
theorem wellLinked_of_references_eq_nil {nodes : List Node} (hd : (nodes.map Node.name).Nodup)
    (h : ∀ n ∈ nodes, n.references = []) : WellLinked nodes := by
  refine ⟨hd, ?_⟩
  intro i n hn r hr
  rw [h n (List.mem_of_getElem? hn)] at hr
  cases hr

/-- A flat node of the primary source that lies in no other. -/
def plainNode (name type : String) : Node := ⟨name, type, .primary, none, none, .single, false, []⟩

/-- A file with one node. -/
def firstRun : File :=
  ⟨"first", .ofNodes [plainNode "hit" "u32"] (wellLinked_of_references_eq_nil (by decide +kernel) (by decide)), Arena.empty,
    [⟨[("hit", ⟨0x1000⟩)]⟩], []⟩

/-- A file in which the same node stands at another position. -/
def secondRun : File :=
  ⟨"second", .ofNodes [plainNode "time" "u64", plainNode "hit" "u32"]
    (wellLinked_of_references_eq_nil (by decide +kernel) (by decide)), Arena.empty, [⟨[("hit", ⟨0x1008⟩)]⟩], []⟩

/-- Two files, and a binding of the node that both have. -/
def bothRuns : List SessionCall := [.dataset (.pushFile firstRun), .dataset (.pushFile secondRun), .bind "hit" none]

/-- Reading the binding in the first file, and then moving on to the second. -/
def acrossRuns : List SessionCall := [.dataset (.seek 0), .use 0 .address, .dataset (.seek 1)]

theorem Session.live_acrossRuns :
    let s := (start ⟨0⟩ Catalog.builtins ⟨[], 0⟩).after (bothRuns ++ acrossRuns)
    ∃ b, s.bindings[0]? = some b ∧ s.dataset.registry.serves b.registration = true := by
  intro s
  have hlive : s.bindings.map (fun b => s.dataset.registry.serves b.registration) = [true] := by decide +kernel
  obtain ⟨b, hbindings, hserves⟩ := List.map_eq_singleton_iff.1 hlive
  refine ⟨b, ?_, hserves⟩
  rw [hbindings]
  rfl

/-- A binding that was read in one file and is read again in the next. -/
theorem Session.current_after_acrossRuns :
    let s := (start ⟨0⟩ Catalog.builtins ⟨[], 0⟩).after (bothRuns ++ acrossRuns)
    ∃ b, s.bindings[0]? = some b ∧ s.dataset.registry.serves b.registration = true ∧
      (∀ call, call = .read ∨ call = .address → ∃ b', (s.apply (.use 0 call)).state.bindings[0]? = some b' ∧
        b'.Shows ((s.apply (.use 0 call)).state.dataset.resolution b.path b.requested)) ∧
      ∀ fresh : Binding, fresh.path = b.path → fresh.requested = b.requested → fresh.attempt = none →
        s.dataset.registry.serves fresh.registration = true →
        (fresh.address Dataset.cursor s.dataset).value = (b.address Dataset.cursor s.dataset).value ∧
          (fresh.address Dataset.cursor s.dataset).state = (b.address Dataset.cursor s.dataset).state := by
  intro s
  obtain ⟨b, hb, hserves⟩ := live_acrossRuns
  have hcount : (start ⟨0⟩ Catalog.builtins ⟨[], 0⟩).switches (bothRuns ++ acrossRuns) < 2 ^ 64 :=
    Nat.lt_of_le_of_lt (switches_le_length _ _) (by decide)
  have hnew : ((start ⟨0⟩ Catalog.builtins ⟨[], 0⟩).after bothRuns).IsNew 0 := by
    intro b hb
    cases hb
    rfl
  exact ⟨b, hb, hserves,
    current_after (by decide) hcount (List.cons_ne_nil firstRun [secondRun]) hnew (by decide) hb hserves⟩

end TypedColumns
