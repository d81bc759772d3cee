import TypedColumns.Proofs.Seeking
import TypedColumns.Proofs.Settling

/-!
# Lazy wiring

A dataset can wire all nodes of a file at once or each when it is first loaded.  Two clients that make the same calls,
the one with nodes wired at once and the other lazily, see the same, with one exception.  As long as a node is not wired
it is read as if it had no director, that is, by loading it alone; so a node that lies in another is not found inside
that one on a row that has no object of its own.

* `Dataset.Shadows`, `Dataset.Mirrors` -- the one dataset is the other with fewer nodes wired and other nodes loaded;
  seeking and loading keep it so (`Mirrors.seek`, `Mirrors.reaches_left`, `Mirrors.reaches_right`).
* `Plan.Alike`, `Binding.Alike` -- the same was found, and where the one has decided a shape, so has the other.  All calls
  keep it so (`Plan.Alike.read`, `Binding.Alike.call`).
* `Plan.IsStuck`, `Binding.IsStuck` -- the exception.
* `SessionCall.prepares`, `SessionCall.proceeds` -- what belongs to setting a dataset up, and what does not touch it.
* `Session.Mirrors` -- two sessions in the same state but for that; calls keep it so (`Mirrors.apply`, `Mirrors.after`),
  and they answer alike (`Mirrors.answer_of_isStuckAt`, `Mirrors.answer_of_not_isStuckAt`).
* `Session.lazy_eq_eager` -- the answers are the same except for stuck bindings, which find nothing.
-/

namespace TypedColumns

/-! ### Datasets -/

namespace Dataset

variable {d e l : Dataset}

theorem hasDirector_seek (d : Dataset) (entry : UInt64) (source : SourceId) :
    (d.seek entry).1.hasDirector source = d.hasDirector source := by
  rcases seek_cases d entry with h | ⟨row, -, h⟩ | ⟨file, row, -, -, h⟩
  · rw [h]
    rfl
  · rw [h, wire_eq]
    rfl
  · rw [h, wire_eq]
    rfl

/-- The one dataset wires eagerly and the other lazily; all else but what is wired and loaded is the same.  What is wired
in the lazy one is wired in the eager one. -/
structure Shadows (e l : Dataset) : Prop where
  eq : l = { e with lazyWiring := true, wired := l.wired, loaded := l.loaded }
  wired : ∀ id, l.isWired id = true → e.isWired id = true

namespace Shadows

theorem registry (h : e.Shadows l) : l.registry = e.registry := by rw [h.eq]

theorem files (h : e.Shadows l) : l.files = e.files := by rw [h.eq]

theorem current (h : e.Shadows l) : l.current = e.current := by rw [h.eq]

theorem position (h : e.Shadows l) : l.position = e.position := by rw [h.eq]

theorem nextEntry (h : e.Shadows l) : l.nextEntry = e.nextEntry := by rw [h.eq]; rfl

theorem joins (h : e.Shadows l) : l.joins = e.joins := by rw [h.eq]

theorem arena (h : e.Shadows l) : l.arena = e.arena := by rw [h.eq]; rfl

theorem node? (h : e.Shadows l) (id : NodeId) : l.node? id = e.node? id := by rw [h.eq]; rfl

theorem activeRow (h : e.Shadows l) (source : SourceId) : l.activeRow source = e.activeRow source := by rw [h.eq]; rfl

theorem hasDirector (h : e.Shadows l) (source : SourceId) : l.hasDirector source = e.hasDirector source := by
  rw [h.eq]
  rfl

theorem rowObject? (h : e.Shadows l) (id : NodeId) : l.rowObject? id = e.rowObject? id := by rw [h.eq]; rfl

theorem nodeBase? (h : e.Shadows l) (t : Target) : l.nodeBase? t = e.nodeBase? t := by rw [h.eq]; rfl

theorem resolve (h : e.Shadows l) (b : Binding) : b.resolve cursor l = b.resolve cursor e := by rw [h.eq]; rfl

theorem withRegistry (h : e.Shadows l) (r : Registry) :
    Shadows { e with registry := r } { l with registry := r } := by
  refine ⟨?_, h.wired⟩
  rw [h.eq]

theorem unload (h : e.Shadows l) : Shadows { e with loaded := [] } { l with loaded := [] } := by
  refine ⟨?_, h.wired⟩
  rw [h.eq]

theorem moveTo (h : e.Shadows l) (position : Position) :
    Shadows { e with position := position } { l with position := position } := by
  refine ⟨?_, h.wired⟩
  rw [h.eq]

theorem switchTo (h : e.Shadows l) (file : Nat) : (e.switchTo file).1.Shadows (l.switchTo file).1 := by
  refine ⟨?_, fun id hid => ?_⟩
  · rw [h.eq]
    rfl
  · cases hid

theorem wire (h : e.Shadows l) : e.wire.Shadows l.wire := by
  have hlazy : l.lazyWiring = true := by rw [h.eq]
  have hwire : l.wire = l := by
    rw [Dataset.wire, hlazy]
    rfl
  rw [hwire]
  refine ⟨?_, fun id hid => isWired_wire (h.wired id hid)⟩
  rw [wire_eq]
  exact h.eq

theorem seek (h : e.Shadows l) (entry : UInt64) : (e.seek entry).1.Shadows (l.seek entry).1 := by
  have hfiles := h.files
  have hmissed (p : SourceId × Join → Bool) : l.joins.any p = e.joins.any p := by rw [h.joins]
  cases hlocate : locateRow e.files 0 entry.toNat with
  | none =>
      rw [seek_of_none hlocate]
      rw [← hfiles] at hlocate
      rw [seek_of_none hlocate]
      exact h.unload.moveTo (.beyond entry)
  | some place =>
      obtain ⟨file, row⟩ := place
      by_cases hfile : file = e.current
      · subst hfile
        rw [seek_of_current hlocate]
        rw [← hfiles, ← h.current] at hlocate
        rw [seek_of_current hlocate, hmissed]
        exact h.unload.wire.moveTo (.onRow entry row _)
      · rw [seek_of_ne hlocate hfile]
        rw [← hfiles] at hlocate
        rw [← h.current] at hfile
        rw [seek_of_ne hlocate hfile, hmissed]
        exact (h.unload.switchTo file).wire.moveTo (.onRow entry row _)

end Shadows

/-- A lazy dataset that shadows an eager one, when both are as seeking and loading leave them. -/
structure Mirrors (e l : Dataset) : Prop extends Shadows e l where
  steady : e.Steady
  orderly : l.Orderly

namespace Mirrors

variable {e' l' : Dataset}

theorem seek (h : e.Mirrors l) (entry : UInt64) : (e.seek entry).1.Mirrors (l.seek entry).1 :=
  ⟨h.toShadows.seek entry, steady_seek h.steady entry, orderly_of_loaded_eq_nil (loaded_seek l entry)⟩

theorem withRegistry (h : e.Mirrors l) (r : Registry) : Mirrors { e with registry := r } { l with registry := r } :=
  ⟨h.toShadows.withRegistry r,
    ⟨h.steady.eager, h.steady.idle, h.steady.wired, h.steady.row, h.steady.faithful⟩,
    ⟨h.orderly.faithful, h.orderly.wired⟩⟩

theorem reaches_left (h : e.Mirrors l) (hreach : cursor.Reaches e e') : e'.Mirrors l := by
  have hreload := reloaded_of_reaches hreach
  refine ⟨⟨?_, fun id hid => hreload.wired id (h.wired id hid)⟩, steady_of_reaches h.steady hreach, h.orderly⟩
  rw [hreload.eq]
  exact h.eq

theorem load_right (h : e.Mirrors l) (id : NodeId) : e.Mirrors (l.load id).2 := by
  have horderly := orderly_load h.orderly id
  rcases load_cases l id with ⟨a, -, hload⟩ | ⟨-, -, err, hload⟩ | ⟨node, a, -, hnode, ha, hload⟩
  · rw [hload]
    exact h
  · rw [hload]
    exact h
  · -- What can be loaded stands on a row, where all nodes are wired in the eager dataset.
    have hwired : e.isWired id = true := by
      rw [h.rowObject?] at ha
      rw [h.node?] at hnode
      obtain ⟨entry, row, missed, honRow⟩ := onRow_of_rowObject? ha
      exact (h.steady.row entry row missed honRow).1 id node hnode
    rw [hload] at horderly ⊢
    refine ⟨⟨?_, ?_⟩, h.steady, horderly⟩
    · rw [h.eq]
    · intro j hj
      rcases isWired_add.1 hj with hj | rfl
      · exact h.wired j hj
      · exact hwired

theorem reaches_right (h : e.Mirrors l) (hreach : cursor.Reaches l l') : e.Mirrors l' :=
  hreach.keeps (P := e.Mirrors) (fun _ id ht => load_right ht id) h

end Mirrors

end Dataset

/-! ### Plans -/

namespace Plan

/-- Two plans for the same node under the same generation.  A shape that the second has decided, so has the first, and it
is the one that the dataset gives. -/
structure Alike (d : Dataset) (p q : Plan) : Prop where
  target : q.target = p.target
  generation : q.generation = p.generation
  decided : ∀ shape, q.shape = some shape → p.shape = some shape
  fits : p.Fits d

/-- Reading by the plan does not decide its shape, though the node may be found inside the one that it lies in. -/
def IsStuck (p : Plan) (d : Dataset) : Prop :=
  ¬ p.Settles d ∧ p.target.node.parent.isSome = true ∧ d.hasDirector p.target.node.source = true

instance (p : Plan) (d : Dataset) : Decidable (p.IsStuck d) := inferInstanceAs (Decidable (_ ∧ _ ∧ _))

variable {e l : Dataset} {p q : Plan}

/-- A plan of which no shape was decided is like itself. -/
theorem Alike.refl {d : Dataset} (h : p.shape = none) : p.Alike d p := by
  refine ⟨rfl, rfl, fun _ hdecided => hdecided, ?_⟩
  intro shape hdecided
  rw [h] at hdecided
  cases hdecided

theorem Alike.mono {d : Dataset} (h : p.Alike e q) (hd : ∀ source, d.hasDirector source = e.hasDirector source) :
    p.Alike d q :=
  ⟨h.target, h.generation, h.decided, h.fits.congr hd⟩

theorem Alike.fits_right (hl : e.Mirrors l) (h : p.Alike e q) : q.Fits l := by
  intro shape hshape
  rw [shapeIn, h.target, hl.hasDirector]
  exact h.fits shape (h.decided shape hshape)

/-- What settles in the lazy dataset settles in the eager one. -/
theorem Alike.settles (hl : e.Mirrors l) (h : p.Alike e q) (hq : q.Settles l) : p.Settles e := by
  rcases hq with hdecided | hwired | hobject
  · obtain ⟨shape, hshape⟩ := Option.isSome_iff_exists.1 hdecided
    refine Or.inl ?_
    rw [h.decided shape hshape]
    rfl
  · rw [h.target] at hwired
    exact Or.inr (Or.inl (hl.wired _ hwired))
  · rw [h.target, hl.rowObject?] at hobject
    exact Or.inr (Or.inr hobject)

/-- Where the lazy plan does not settle and is not stuck either, there is nothing to find in the eager dataset. -/
theorem Alike.nodeBase?_eq_none (hl : e.Mirrors l) (h : p.Alike e q) (hq : ¬ q.Settles l) (hfree : ¬ q.IsStuck l) :
    e.nodeBase? p.target = none := by
  obtain ⟨-, -, hnone⟩ := not_settles_iff.1 hq
  rw [h.target, hl.rowObject?] at hnone
  refine Dataset.nodeBase?_eq_none_of_rowObject? hnone ?_
  intro hparent
  refine hfree ⟨hq, ?_⟩
  rw [h.target, hl.hasDirector]
  exact hparent

/-- Reading keeps two plans alike.  A stuck plan finds nothing, and any other finds what the eager one finds. -/
theorem Alike.read (hl : e.Mirrors l) (h : p.Alike e q) :
    (p.read Dataset.cursor e).plan.Alike e (q.read Dataset.cursor l).plan ∧
      (q.IsStuck l → (q.read Dataset.cursor l).base.toOption = none) ∧
      (¬ q.IsStuck l → (q.read Dataset.cursor l).base.toOption = (p.read Dataset.cursor e).base.toOption) := by
  by_cases hgen : p.generation = e.registry.generation
  · have hgen' : q.generation = l.registry.generation := by rw [h.generation, hgen, hl.registry]
    have hshape : q.shapeIn l = p.shapeIn e := by rw [shapeIn, shapeIn, h.target, hl.hasDirector]
    by_cases hq : q.Settles l
    · obtain ⟨hbase, hplan⟩ := read_of_settles hl.steady.orderly h.fits hgen (h.settles hl hq)
      obtain ⟨hbase', hplan'⟩ := read_of_settles hl.orderly (h.fits_right hl) hgen' hq
      refine ⟨?_, fun hstuck => absurd hq hstuck.1, fun _ => ?_⟩
      · rw [hplan, hplan', hshape]
        refine ⟨h.target, h.generation, fun _ hdecided => hdecided, ?_⟩
        intro shape hdecided
        exact (Option.some.inj hdecided).symm
      · rw [hbase, hbase', h.target, hl.nodeBase?]
    · obtain ⟨hbase', hplan'⟩ := read_of_not_settles hl.orderly hgen' hq
      rw [hplan', hbase']
      by_cases hp : p.Settles e
      · obtain ⟨hbase, hplan⟩ := read_of_settles hl.steady.orderly h.fits hgen hp
        rw [hplan, hbase]
        refine ⟨⟨h.target, h.generation, ?_, ?_⟩, fun _ => rfl, fun hfree => (h.nodeBase?_eq_none hl hq hfree).symm⟩
        · intro shape hdecided
          rw [(not_settles_iff.1 hq).1] at hdecided
          cases hdecided
        · intro shape hdecided
          exact (Option.some.inj hdecided).symm
      · obtain ⟨hbase, hplan⟩ := read_of_not_settles hl.steady.orderly hgen hp
        rw [hplan, hbase]
        exact ⟨h, fun _ => rfl, fun _ => rfl⟩
  · have hgen' : q.generation ≠ l.registry.generation := by
      rw [h.generation, hl.registry]
      exact hgen
    obtain ⟨hbase, hplan⟩ := read_of_generation_ne hgen
    obtain ⟨hbase', hplan'⟩ := read_of_generation_ne hgen'
    rw [hplan, hplan', hbase, hbase']
    exact ⟨h, fun _ => rfl, fun _ => rfl⟩

end Plan

/-! ### Bindings -/

namespace Binding

theorem SameColumn.lift {a b a' b' : Binding} (h : SameColumn a b) (ha : SameColumn a a') (hb : SameColumn b b') :
    SameColumn a' b' :=
  ⟨(hb.path.trans h.path).trans ha.path.symm, (hb.requested.trans h.requested).trans ha.requested.symm,
    (hb.registration.trans h.registration).trans ha.registration.symm⟩

section Setups

variable {σ : Type} {a b : Binding} {c : RowCursor σ} {s : σ}

theorem resolve_congr (h : SameColumn a b) : b.resolve c s = a.resolve c s := by
  simp only [resolve, h.path, h.requested, h.registration]

theorem shape_of_resolve {m : Match} (h : (b.resolve c s).1 = .ok m) : m.plan.shape = none := by
  obtain ⟨schema, requested, node, -, -, -, hplan, -⟩ := found_of_resolve h
  rw [hplan]
  rfl

theorem resolve_of_setup {p : Plan} (h : (b.setup c s).1.plan? = some p) :
    ∃ m, (b.resolve c s).1 = .ok m ∧ m.plan = p := by
  have hattempt : (b.setup c s).1.attempt = some ⟨c.generation s, (b.resolve c s).1⟩ := rfl
  obtain ⟨m, hm, rfl⟩ := Option.map_eq_some_iff.1 h
  rw [match?, hattempt] at hm
  cases hr : (b.resolve c s).1 with
  | error e =>
      rw [hr] at hm
      cases hm
  | ok n =>
      rw [hr] at hm
      cases hm
      exact ⟨m, rfl, rfl⟩

end Setups

/-- Two bindings of the same column that have found the same, by plans that are alike. -/
structure Alike (d : Dataset) (a b : Binding) : Prop where
  column : SameColumn a b
  outline : b.outline? = a.outline?
  plans : ∀ p q, a.plan? = some p → b.plan? = some q → p.Alike d q

/-- The plan by which the binding is read is stuck. -/
def IsStuck (b : Binding) (d : Dataset) : Prop := ∃ p ∈ (b.refresh Dataset.cursor d).1.plan?, p.IsStuck d

instance (b : Binding) (d : Dataset) : Decidable (b.IsStuck d) := inferInstanceAs (Decidable (∃ p ∈ _, _))

/-- No shape was decided yet. -/
def Undecided (b : Binding) : Prop := ∀ p, b.plan? = some p → p.shape = none

namespace Alike

variable {d e l : Dataset} {a b a' b' : Binding}

theorem mono (h : a.Alike e b) (hd : ∀ source, d.hasDirector source = e.hasDirector source) : a.Alike d b :=
  ⟨h.column, h.outline, fun p q hp hq => (h.plans p q hp hq).mono hd⟩

/-- A binding of which no shape was decided is like itself. -/
theorem refl (h : b.Undecided) : b.Alike d b := by
  refine ⟨SameColumn.refl b, rfl, ?_⟩
  intro p q hp hq
  rw [hp] at hq
  cases hq
  exact Plan.Alike.refl (h p hp)

theorem congr (h : a.Alike d b) (ha : SameColumn a a') (hb : SameColumn b b') (houtline : a'.outline? = a.outline?)
    (houtline' : b'.outline? = b.outline?) (hplan : a'.plan? = a.plan?) (hplan' : b'.plan? = b.plan?) :
    a'.Alike d b' := by
  refine ⟨h.column.lift ha hb, ?_, ?_⟩
  · rw [houtline, houtline']
    exact h.outline
  · rw [hplan, hplan']
    exact h.plans

theorem setup (hl : e.Mirrors l) (h : a.Alike e b) :
    (a.setup Dataset.cursor e).1.Alike e (b.setup Dataset.cursor l).1 := by
  have hresolve : b.resolve Dataset.cursor l = a.resolve Dataset.cursor e :=
    (hl.resolve b).trans (resolve_congr h.column)
  refine ⟨h.column.lift ⟨rfl, rfl, rfl⟩ ⟨rfl, rfl, rfl⟩, ?_, ?_⟩
  · show some (l.registry.generation, (b.resolve Dataset.cursor l).1.map Match.finding) =
      some (e.registry.generation, (a.resolve Dataset.cursor e).1.map Match.finding)
    rw [hresolve, hl.registry]
  · intro p q hp hq
    obtain ⟨m, hm, rfl⟩ := resolve_of_setup hp
    obtain ⟨n, hn, rfl⟩ := resolve_of_setup hq
    rw [hresolve, hm] at hn
    cases hn
    exact Plan.Alike.refl (shape_of_resolve hm)

theorem refresh (hl : e.Mirrors l) (h : a.Alike e b) :
    (a.refresh Dataset.cursor e).1.Alike e (b.refresh Dataset.cursor l).1 := by
  have hgeneration : Dataset.cursor.generation l = Dataset.cursor.generation e :=
    congrArg Registry.generation hl.registry
  have hfresh : b.isFresh Dataset.cursor l = a.isFresh Dataset.cursor e := by
    rw [isFresh_eq, isFresh_eq, h.outline, hgeneration]
  rw [Binding.refresh, Binding.refresh, hfresh]
  split
  · exact h
  · exact h.setup hl

theorem misses (hl : e.Mirrors l) (h : a.Alike e b) : b.misses Dataset.cursor l = a.misses Dataset.cursor e := by
  have hstatus : Dataset.cursor.status l = Dataset.cursor.status e := congrArg Position.status hl.position
  have hactive : Dataset.cursor.activeRow l = Dataset.cursor.activeRow e := funext hl.activeRow
  rw [misses_eq, misses_eq, h.outline, hstatus, hactive]

/-- Reading keeps the plans of two bindings alike. -/
theorem planRead (hl : e.Mirrors l) (h : a.Alike e b) {p q : Plan}
    (hp : a.plan?.map (fun p => (p.read Dataset.cursor e).plan) = some p)
    (hq : b.plan?.map (fun q => (q.read Dataset.cursor l).plan) = some q) : p.Alike e q := by
  obtain ⟨before, hbefore, rfl⟩ := Option.map_eq_some_iff.1 hp
  obtain ⟨before', hbefore', rfl⟩ := Option.map_eq_some_iff.1 hq
  exact ((h.plans before before' hbefore hbefore').read hl).1

theorem read (hl : e.Mirrors l) (h : a.Alike e b) :
    (a.read Dataset.cursor e).binding.Alike e (b.read Dataset.cursor l).binding := by
  have hrefresh := h.refresh hl
  refine ⟨h.column.lift (sameColumn_read a _ e) (sameColumn_read b _ l), ?_, ?_⟩
  · rw [outline?_read, outline?_read]
    exact hrefresh.outline
  · intro p q hp hq
    rw [plan?_read] at hp hq
    exact hrefresh.planRead hl hp hq

theorem address (hl : e.Mirrors l) (h : a.Alike e b) :
    (a.address Dataset.cursor e).binding.Alike e (b.address Dataset.cursor l).binding := by
  have hrefresh := h.refresh hl
  refine ⟨h.column.lift (sameColumn_address a _ e) (sameColumn_address b _ l), ?_, ?_⟩
  · rw [outline?_address, outline?_address]
    exact hrefresh.outline
  · intro p q hp hq
    rw [plan?_address] at hp hq
    rw [hrefresh.misses hl] at hq
    split at hp
    · rename_i hmisses
      rw [if_pos hmisses] at hq
      exact hrefresh.plans p q hp hq
    · rename_i hmisses
      rw [if_neg hmisses] at hq
      exact hrefresh.planRead hl hp hq

theorem get (hl : e.Mirrors l) (h : a.Alike e b) (type : ColumnType) :
    (a.get type Dataset.cursor e).binding.Alike e (b.get type Dataset.cursor l).binding := by
  have hstatus : Dataset.cursor.status l = Dataset.cursor.status e := congrArg Position.status hl.position
  rw [Binding.get, Binding.get, hstatus]
  split
  · exact h
  · exact (h.address hl).congr (sameColumn_decode _ type _) (sameColumn_decode _ type _) (outline?_decode _ type _)
      (outline?_decode _ type _) (plan?_decode _ type _) (plan?_decode _ type _)

/-- Every call keeps two bindings alike. -/
theorem call (hl : e.Mirrors l) (h : a.Alike e b) (call : BindingCall) :
    (a.call e call).binding.Alike e (b.call l call).binding := by
  cases call with
  | setup => exact h.setup hl
  | read => exact h.read hl
  | address => exact h.address hl
  | get type => exact h.get hl type

/-- Two alike bindings either both have a match, of the same finding, or neither has one. -/
theorem cases (h : a.Alike d b) :
    (∃ m n, a.match? = some m ∧ b.match? = some n ∧ n.finding = m.finding ∧ m.plan.Alike d n.plan) ∨
      (a.match? = none ∧ b.match? = none) := by
  cases hm : a.match? with
  | some m =>
      obtain ⟨generation, hfound⟩ := outline?_of_match? hm
      rw [← h.outline] at hfound
      obtain ⟨n, hn, hfinding⟩ := match?_of_outline? hfound
      refine Or.inl ⟨m, n, rfl, hn, hfinding, h.plans m.plan n.plan ?_ ?_⟩
      · rw [plan?, hm]
        rfl
      · rw [plan?, hn]
        rfl
  | none =>
      refine Or.inr ⟨rfl, ?_⟩
      cases hn : b.match? with
      | none => rfl
      | some n =>
          obtain ⟨generation, hfound⟩ := outline?_of_match? hn
          rw [h.outline] at hfound
          obtain ⟨m, hm', -⟩ := match?_of_outline? hfound
          rw [hm] at hm'
          cases hm'

/-- A stuck binding tells no address, and any other tells the one that the eager dataset has for it. -/
theorem value_address (hl : e.Mirrors l) (h : a.Alike e b) :
    (b.IsStuck l → (b.address Dataset.cursor l).value = none) ∧
      (¬ b.IsStuck l → (b.address Dataset.cursor l).value = (a.address Dataset.cursor e).value) := by
  rcases (h.refresh hl).cases with ⟨m, n, hm, hn, hfinding, hplans⟩ | ⟨hm, hn⟩
  · obtain ⟨hvalue, -⟩ := address_of_match hm
    obtain ⟨hvalue', -⟩ := address_of_match hn
    obtain ⟨-, hstuck, hfree⟩ := hplans.read hl
    have hplan : (b.refresh Dataset.cursor l).1.plan? = some n.plan := by
      rw [plan?, hn]
      rfl
    have hresolution : n.resolution = m.resolution := congrArg Finding.resolution hfinding
    have hsource : n.source = m.source := congrArg Finding.source hfinding
    have harena : (n.plan.read Dataset.cursor l).state.arena = (m.plan.read Dataset.cursor e).state.arena := by
      rw [(Dataset.reloaded_of_reaches (reaches_planRead Dataset.cursor n.plan l)).arena,
        (Dataset.reloaded_of_reaches (reaches_planRead Dataset.cursor m.plan e)).arena, hl.arena]
    rw [hvalue, hvalue', hl.position, hsource, hl.activeRow, hresolution, harena]
    refine ⟨?_, ?_⟩
    · rintro ⟨p, hp, hisStuck⟩
      rw [hplan] at hp
      cases hp
      rw [hstuck hisStuck]
      split <;> rfl
    · intro hnot
      rw [hfree (fun hisStuck => hnot ⟨n.plan, hplan, hisStuck⟩)]
  · rw [(address_of_error hm).1, (address_of_error hn).1]
    exact ⟨fun _ => rfl, fun _ => rfl⟩

theorem value_get (hl : e.Mirrors l) (h : a.Alike e b) (type : ColumnType) :
    (b.IsStuck l → (b.get type Dataset.cursor l).value = none) ∧
      (¬ b.IsStuck l → (b.get type Dataset.cursor l).value = (a.get type Dataset.cursor e).value) := by
  obtain ⟨hstuck, hfree⟩ := h.value_address hl
  rw [Binding.value_get, Binding.value_get, hl.position, hl.arena]
  refine ⟨?_, ?_⟩
  · intro hisStuck
    rw [hstuck hisStuck]
    split <;> rfl
  · intro hnot
    rw [hfree hnot]

end Alike

end Binding

/-! ### Sessions -/

/-- Whether a call belongs to setting a dataset up: it is anything but seeking, loading and announcing. -/
def SessionCall.prepares : SessionCall → Bool
  | .dataset (.seek _) | .dataset .next | .dataset (.load _) | .dataset (.announce _) => false
  | _ => true

/-- Whether a call leaves the way a dataset is set up alone: it seeks, loads, or is about bindings. -/
def SessionCall.proceeds : SessionCall → Bool
  | .dataset (.seek _) | .dataset .next | .dataset (.load _) => true
  | .dataset _ => false
  | _ => true

namespace Session

/-- Two sessions in the same state, the one with a dataset that wires eagerly and the other with one that wires
lazily. -/
structure Mirrors (s t : Session) : Prop where
  dataset : s.dataset.Mirrors t.dataset
  length : t.bindings.length = s.bindings.length
  bindings : ∀ i : Nat, Option.Rel (Binding.Alike s.dataset) s.bindings[i]? t.bindings[i]?

/-- The binding of a number is stuck. -/
def IsStuckAt (s : Session) (i : Nat) : Prop := ∃ b ∈ s.bindings[i]?, b.IsStuck s.dataset

instance (s : Session) (i : Nat) : Decidable (s.IsStuckAt i) := inferInstanceAs (Decidable (∃ b ∈ _, _))

namespace Mirrors

variable {s t : Session}

/-- The bindings of a number are alike, or there is none in either session. -/
theorem cases (h : s.Mirrors t) (i : Nat) :
    (∃ a b, s.bindings[i]? = some a ∧ t.bindings[i]? = some b ∧ a.Alike s.dataset b) ∨
      (s.bindings[i]? = none ∧ t.bindings[i]? = none) := by
  have hi := h.bindings i
  cases ha : s.bindings[i]? with
  | none =>
      cases hb : t.bindings[i]? with
      | none => exact Or.inr ⟨rfl, rfl⟩
      | some b =>
          rw [ha, hb] at hi
          cases hi
  | some a =>
      cases hb : t.bindings[i]? with
      | none =>
          rw [ha, hb] at hi
          cases hi
      | some b =>
          rw [ha, hb] at hi
          cases hi with
          | some halike => exact Or.inl ⟨a, b, rfl, rfl, halike⟩

/-- Mirroring sessions mirror each other as long as the sources are steered alike. -/
theorem withDataset (h : s.Mirrors t) {e l : Dataset} (hl : e.Mirrors l)
    (hd : ∀ source, e.hasDirector source = s.dataset.hasDirector source) :
    Mirrors { s with dataset := e } { t with dataset := l } := by
  refine ⟨hl, h.length, ?_⟩
  intro i
  show Option.Rel (Binding.Alike e) s.bindings[i]? t.bindings[i]?
  rcases h.cases i with ⟨a, b, ha, hb, halike⟩ | ⟨ha, hb⟩
  · rw [ha, hb]
    exact .some (halike.mono hd)
  · rw [ha, hb]
    exact .none

/-- Mirroring sessions mirror each other when a binding of each is replaced by alike ones. -/
theorem set (h : s.Mirrors t) (i : Nat) {a b : Binding} (hab : a.Alike s.dataset b) :
    Mirrors { s with bindings := s.bindings.set i a } { t with bindings := t.bindings.set i b } := by
  refine ⟨h.dataset, ?_, ?_⟩
  · show (t.bindings.set i b).length = (s.bindings.set i a).length
    rw [List.length_set, List.length_set, h.length]
  · intro j
    show Option.Rel (Binding.Alike s.dataset) (s.bindings.set i a)[j]? (t.bindings.set i b)[j]?
    rw [List.getElem?_set, List.getElem?_set, h.length]
    split
    · split
      · exact .some hab
      · exact .none
    · exact h.bindings j

theorem bind (h : s.Mirrors t) (path : String) (requested : Option String) :
    (s.apply (.bind path requested)).state.Mirrors (t.apply (.bind path requested)).state := by
  have hregistry := h.dataset.registry
  have hlater := h.withDataset (h.dataset.withRegistry (s.dataset.registry.register path).2) (fun _ => rfl)
  simp only [apply, Binding.register, hregistry]
  refine ⟨hlater.dataset, ?_, ?_⟩
  · simp only [List.length_append, h.length]
  · intro i
    simp only [List.getElem?_append, h.length]
    split
    · exact hlater.bindings i
    · cases (i - s.bindings.length) with
      | zero =>
          refine .some (Binding.Alike.refl ?_)
          intro p hp
          cases hp
      | succ k => exact .none

theorem use (h : s.Mirrors t) (i : Nat) (call : BindingCall) :
    (s.apply (.use i call)).state.Mirrors (t.apply (.use i call)).state := by
  rcases h.cases i with ⟨a, b, ha, hb, halike⟩ | ⟨ha, hb⟩
  · simp only [apply, ha, hb]
    have hleft := reaches_call a s.dataset call
    have hright := reaches_call b t.dataset call
    have hdatasets := (h.dataset.reaches_left hleft).reaches_right hright
    exact (h.set i (halike.call h.dataset call)).withDataset hdatasets
      (Dataset.reloaded_of_reaches hleft).hasDirector
  · simp only [apply, ha, hb]
    exact h

theorem leave (h : s.Mirrors t) (i : Nat) :
    (s.apply (.leave i)).state.Mirrors (t.apply (.leave i)).state := by
  rcases h.cases i with ⟨a, b, ha, hb, halike⟩ | ⟨ha, hb⟩
  · have hregistration := halike.column.registration
    have hleft : Binding.Alike s.dataset { a with registration := a.registration.leave }
        { b with registration := b.registration.leave } :=
      ⟨⟨halike.column.path, halike.column.requested, congrArg Registration.leave hregistration⟩, halike.outline,
        halike.plans⟩
    simp only [apply, ha, hb, h.dataset.registry]
    rw [hregistration] at hleft ⊢
    exact (h.set i hleft).withDataset (h.dataset.withRegistry (s.dataset.registry.release a.registration).2)
      (fun _ => rfl)
  · simp only [apply, ha, hb]
    exact h

/-- Every call that leaves the way a dataset is set up alone keeps two sessions mirroring each other. -/
theorem apply (h : s.Mirrors t) {call : SessionCall} (hcall : call.proceeds = true) :
    (s.apply call).state.Mirrors (t.apply call).state := by
  cases call with
  | dataset call =>
      cases call with
      | seek entry => exact h.withDataset (h.dataset.seek entry) (Dataset.hasDirector_seek s.dataset entry)
      | next =>
          have hseek : (s.dataset.seek s.dataset.nextEntry).1.Mirrors (t.dataset.seek t.dataset.nextEntry).1 := by
            rw [h.dataset.nextEntry]
            exact h.dataset.seek s.dataset.nextEntry
          exact h.withDataset hseek (Dataset.hasDirector_seek s.dataset _)
      | load id =>
          have hleft : Dataset.cursor.Reaches s.dataset (s.dataset.load id).2 := .load id .refl
          exact h.withDataset ((h.dataset.reaches_left hleft).load_right id)
            (Dataset.reloaded_of_reaches hleft).hasDirector
      | _ => cases hcall
  | bind path requested => exact h.bind path requested
  | use i call => exact h.use i call
  | leave i => exact h.leave i
  | deregister id =>
      have hregistry := h.dataset.registry
      simp only [Session.apply, hregistry]
      exact h.withDataset (h.dataset.withRegistry (s.dataset.registry.deregister id).2) (fun _ => rfl)

theorem after (h : s.Mirrors t) {calls : List SessionCall} (hcalls : ∀ call ∈ calls, call.proceeds = true) :
    (s.after calls).Mirrors (t.after calls) := by
  induction calls generalizing s t with
  | nil => exact h
  | cons call calls ih =>
      exact ih (h.apply (hcalls call List.mem_cons_self)) (fun c hc => hcalls c (List.mem_cons_of_mem call hc))

end Mirrors

end Session

/-! ### Before the first row -/

/-- A dataset that was never sought: nothing is wired or loaded. -/
structure Dataset.Unsought (d : Dataset) : Prop where
  position : d.position = .unloaded
  wired : d.wired = []
  loaded : d.loaded = []

namespace Dataset.Unsought

variable {d e : Dataset}

theorem rowObject?_eq_none (h : d.Unsought) (id : NodeId) : d.rowObject? id = none := by
  cases ha : d.rowObject? id with
  | none => rfl
  | some a =>
      obtain ⟨entry, row, missed, honRow⟩ := onRow_of_rowObject? ha
      rw [h.position] at honRow
      cases honRow

theorem eq_of_reaches (h : d.Unsought) (hreach : cursor.Reaches d e) : e = d := by
  refine hreach.keeps (P := fun t => t = d) ?_ rfl
  rintro t id rfl
  rcases load_cases t id with ⟨a, ha, -⟩ | ⟨-, -, err, hload⟩ | ⟨node, a, -, -, ha, -⟩
  · rw [object?, h.loaded] at ha
    cases ha
  · rw [show cursor.load t id = t.load id from rfl, hload]
  · rw [h.rowObject?_eq_none] at ha
    cases ha

theorem shape_planRead (h : d.Unsought) {p : Plan} (hp : p.shape = none) :
    (p.read cursor d).plan.shape = none := by
  by_cases hgen : p.generation = d.registry.generation
  · have hnot : ¬ p.Settles d := by
      rintro (hdecided | hwired | hobject)
      · rw [hp] at hdecided
        cases hdecided
      · rw [isWired, h.wired] at hwired
        cases hwired
      · rw [h.rowObject?_eq_none] at hobject
        cases hobject
    rw [(Plan.read_of_not_settles (orderly_of_loaded_eq_nil h.loaded) hgen hnot).2]
    exact hp
  · rw [(Plan.read_of_generation_ne hgen).2]
    exact hp

/-- No call on a binding decides a shape before the first row. -/
theorem undecided_call (h : d.Unsought) {b : Binding} (hb : b.Undecided) (call : BindingCall) :
    (b.call d call).binding.Undecided := by
  have hsetup : (b.setup cursor d).1.Undecided := by
    intro p hp
    obtain ⟨m, hm, rfl⟩ := Binding.resolve_of_setup hp
    exact Binding.shape_of_resolve hm
  have hrefresh : (b.refresh cursor d).1.Undecided := by
    rw [Binding.refresh]
    split
    · exact hb
    · exact hsetup
  have hread : ∀ p, (b.refresh cursor d).1.plan?.map (fun p => (p.read cursor d).plan) = some p → p.shape = none := by
    intro p hp
    obtain ⟨before, hbefore, rfl⟩ := Option.map_eq_some_iff.1 hp
    exact h.shape_planRead (hrefresh before hbefore)
  have haddress : (b.address cursor d).binding.Undecided := by
    intro p hp
    rw [Binding.plan?_address] at hp
    split at hp
    · exact hrefresh p hp
    · exact hread p hp
  cases call with
  | setup => exact hsetup
  | read =>
      intro p hp
      have hp : (b.read cursor d).binding.plan? = some p := hp
      rw [Binding.plan?_read] at hp
      exact hread p hp
  | address => exact haddress
  | get type =>
      show (b.get type cursor d).binding.Undecided
      rw [Binding.get]
      split
      · exact hb
      · intro p hp
        rw [Binding.plan?_decode] at hp
        exact haddress p hp

end Dataset.Unsought

namespace Session

/-- A session with a dataset that was never sought. -/
structure Unsought (s : Session) : Prop where
  dataset : s.dataset.Unsought
  bindings : ∀ b ∈ s.bindings, b.Undecided

theorem unsought_start (identity : RegistryId) (types : Catalog) (settings : Settings) :
    (start identity types settings).Unsought :=
  ⟨⟨rfl, rfl, rfl⟩, fun _ hb => absurd hb List.not_mem_nil⟩

/-- A call that does not move leaves the dataset where no row was sought. -/
theorem Unsought.apply {s : Session} (h : s.Unsought) {call : SessionCall} (hcall : call.moves = false) :
    (s.apply call).state.Unsought := by
  refine ⟨?_, ?_⟩
  · rcases dataset_apply s call with ⟨c, rfl, hd⟩ | hreach | ⟨r, -, hd⟩
    · rw [hd]
      cases c with
      | seek | next => cases hcall
      | load id =>
          rw [h.dataset.eq_of_reaches (e := (s.dataset.call (.load id)).state) (.load id .refl)]
          exact h.dataset
      | _ => exact ⟨h.dataset.position, h.dataset.wired, h.dataset.loaded⟩
    · rw [h.dataset.eq_of_reaches hreach]
      exact h.dataset
    · rw [hd]
      exact ⟨h.dataset.position, h.dataset.wired, h.dataset.loaded⟩
  · intro b hb
    obtain ⟨i, hi⟩ := List.getElem?_of_mem hb
    rcases binding_apply hi with hold | ⟨a, use, rfl, ha, rfl⟩ | ⟨a, rfl, ha, rfl⟩ | ⟨path, requested, rfl, rfl⟩
    · exact h.bindings b (List.mem_of_getElem? hold)
    · exact h.dataset.undecided_call (h.bindings a (List.mem_of_getElem? ha)) use
    · exact h.bindings a (List.mem_of_getElem? ha)
    · intro p hp
      cases hp

theorem Unsought.after {s : Session} (h : s.Unsought) {calls : List SessionCall}
    (hcalls : ∀ call ∈ calls, call.moves = false) : (s.after calls).Unsought := by
  induction calls generalizing s with
  | nil => exact h
  | cons call calls ih =>
      exact ih (h.apply (hcalls call List.mem_cons_self)) (fun c hc => hcalls c (List.mem_cons_of_mem call hc))

theorem moves_of_prepares {call : SessionCall} (h : call.prepares = true) : call.moves = false := by
  cases call with
  | dataset c =>
      cases c with
      | seek | next => cases h
      | _ => rfl
  | _ => rfl

theorem unsought_after {s : Session} (h : s.Unsought) {calls : List SessionCall}
    (hcalls : ∀ call ∈ calls, call.prepares = true) : (s.after calls).Unsought :=
  h.after fun call hc => moves_of_prepares (hcalls call hc)

/-- Before the first row it makes no difference yet how nodes are wired. -/
theorem Unsought.mirrors {s : Session} (h : s.Unsought) :
    (s.apply (.dataset (.setLazyWiring false))).state.Mirrors (s.apply (.dataset (.setLazyWiring true))).state := by
  refine ⟨⟨⟨rfl, fun _ hid => hid⟩, ?_, Dataset.orderly_of_loaded_eq_nil h.dataset.loaded⟩, rfl, ?_⟩
  · exact Dataset.steady_of_unloaded rfl h.dataset.position h.dataset.wired h.dataset.loaded
  · intro i
    show Option.Rel _ s.bindings[i]? s.bindings[i]?
    cases hb : s.bindings[i]? with
    | none => exact .none
    | some b => exact .some (Binding.Alike.refl (h.bindings b (List.mem_of_getElem? hb)))

/-! ### Answers -/

namespace Mirrors

variable {s t : Session}

theorem answer_seek (h : s.Mirrors t) (entry : UInt64) :
    (t.apply (.dataset (.seek entry))).answer = (s.apply (.dataset (.seek entry))).answer := by
  show Answer.entry (t.dataset.seek entry).1.position.status = .entry (s.dataset.seek entry).1.position.status
  rw [(h.dataset.seek entry).position]

theorem answer_next (h : s.Mirrors t) : (t.apply (.dataset .next)).answer = (s.apply (.dataset .next)).answer := by
  show (t.apply (.dataset (.seek t.dataset.nextEntry))).answer = (s.apply (.dataset (.seek s.dataset.nextEntry))).answer
  rw [h.dataset.nextEntry]
  exact h.answer_seek s.dataset.nextEntry

/-- A stuck binding finds nothing. -/
theorem answer_of_isStuckAt (h : s.Mirrors t) {i : Nat} (hstuck : t.IsStuckAt i) :
    (t.apply (.use i .address)).answer = .address none ∧
      ∀ type, (t.apply (.use i (.get type))).answer = .value none := by
  obtain ⟨b, hb, hisStuck⟩ := hstuck
  rcases h.cases i with ⟨a, b', -, hb', halike⟩ | ⟨-, hnone⟩
  · obtain rfl := Option.some.inj (hb.symm.trans hb')
    simp only [Session.apply, hb']
    refine ⟨?_, fun type => ?_⟩
    · exact congrArg Answer.address ((halike.value_address h.dataset).1 hisStuck)
    · exact congrArg Answer.value ((halike.value_get h.dataset type).1 hisStuck)
  · cases hb.symm.trans hnone

/-- Any other binding finds what it finds in the eager session. -/
theorem answer_of_not_isStuckAt (h : s.Mirrors t) {i : Nat} (hfree : ¬ t.IsStuckAt i) :
    (t.apply (.use i .address)).answer = (s.apply (.use i .address)).answer ∧
      ∀ type, (t.apply (.use i (.get type))).answer = (s.apply (.use i (.get type))).answer := by
  rcases h.cases i with ⟨a, b, ha, hb, halike⟩ | ⟨ha, hb⟩
  · have hnot : ¬ b.IsStuck t.dataset := fun hstuck => hfree ⟨b, hb, hstuck⟩
    simp only [Session.apply, ha, hb]
    refine ⟨?_, fun type => ?_⟩
    · exact congrArg Answer.address ((halike.value_address h.dataset).2 hnot)
    · exact congrArg Answer.value ((halike.value_get h.dataset type).2 hnot)
  · simp only [Session.apply, ha, hb]
    exact ⟨trivial, fun _ => trivial⟩

end Mirrors

/-- **Wiring lazily shows but in stuck bindings.**  Take two clients that make the same calls on a dataset, which is set up
before it is first sought: the one lets it wire its nodes at once, the other lazily.  All that differs in the two datasets
is what is wired and what is loaded.  Seeking answers the same, and so do the calls for an address or a value, except that
a stuck binding finds nothing: its node lies in another, the row has no object for it, and it was not wired in the current
file so far. -/
theorem lazy_eq_eager {identity : RegistryId} {types : Catalog} {settings : Settings} {setup calls : List SessionCall}
    (hsetup : ∀ call ∈ setup, call.prepares = true) (hcalls : ∀ call ∈ calls, call.proceeds = true) :
    let eager := (start identity types settings).after (setup ++ .dataset (.setLazyWiring false) :: calls)
    let lazy := (start identity types settings).after (setup ++ .dataset (.setLazyWiring true) :: calls)
    lazy.dataset =
        { eager.dataset with lazyWiring := true, wired := lazy.dataset.wired, loaded := lazy.dataset.loaded } ∧
      (∀ entry, (lazy.apply (.dataset (.seek entry))).answer = (eager.apply (.dataset (.seek entry))).answer) ∧
      (lazy.apply (.dataset .next)).answer = (eager.apply (.dataset .next)).answer ∧
      ∀ i,
        (lazy.IsStuckAt i →
          (lazy.apply (.use i .address)).answer = .address none ∧
          ∀ type, (lazy.apply (.use i (.get type))).answer = .value none) ∧
        (¬ lazy.IsStuckAt i →
          (lazy.apply (.use i .address)).answer = (eager.apply (.use i .address)).answer ∧
          ∀ type, (lazy.apply (.use i (.get type))).answer = (eager.apply (.use i (.get type))).answer) := by
  intro eager lazy
  have hmirrors : eager.Mirrors lazy := by
    have hunsought := unsought_after (unsought_start identity types settings) hsetup
    have hafter := hunsought.mirrors.after hcalls
    show ((start identity types settings).after (setup ++ .dataset (.setLazyWiring false) :: calls)).Mirrors
      ((start identity types settings).after (setup ++ .dataset (.setLazyWiring true) :: calls))
    rw [after_append, after_append]
    exact hafter
  exact ⟨hmirrors.dataset.eq, hmirrors.answer_seek, hmirrors.answer_next,
    fun i => ⟨fun hstuck => hmirrors.answer_of_isStuckAt hstuck, fun hfree => hmirrors.answer_of_not_isStuckAt hfree⟩⟩

/-- A node that lies in another. -/
def nestedNode : Node := ⟨"run", "int", .primary, some ⟨⟨0⟩, 8⟩, none, .single, false, []⟩

/-- A file whose only row has an object for the outer node alone. -/
def nestedRun : File :=
  ⟨"nested", .ofNodes [plainNode "event" "u64", nestedNode] (by decide +kernel),
    { Arena.empty with data := [0, 0, 0, 0, 0, 0, 0, 0, 7, 0, 0, 0] }, [⟨[("event", ⟨0x1000⟩)]⟩], []⟩

/-- That file, and bindings of the inner and of the outer node. -/
def nestedSetup : List SessionCall :=
  [.dataset (.pushFile nestedRun), .bind "run" (some "i32"), .bind "event" none]

/-- On that row the outer node is found lazily as it is eagerly, and the inner one is not found. -/
theorem lazy_eq_eager_nestedRun :
    let run := fun lazy => (start ⟨0⟩ Catalog.builtins ⟨[], 0⟩).after
      (nestedSetup ++ .dataset (.setLazyWiring lazy) :: [.dataset .next])
    ((run true).apply (.use 1 .address)).answer = ((run false).apply (.use 1 .address)).answer ∧
      ((run true).apply (.use 0 (.get .i32))).answer = .value none := by
  intro run
  obtain ⟨-, -, -, hall⟩ := @lazy_eq_eager ⟨0⟩ Catalog.builtins ⟨[], 0⟩ nestedSetup [.dataset .next] (by decide) (by decide)
  have hfree : ¬ (run true).IsStuckAt 1 := by decide +kernel
  have hstuck : (run true).IsStuckAt 0 := by decide +kernel
  exact ⟨((hall 1).2 hfree).1, ((hall 0).1 hstuck).2 .i32⟩

/-- On that row the inner node has a value when nodes are wired eagerly, and none when they are wired lazily. -/
theorem get_nestedRun :
    let run := fun lazy => (start ⟨0⟩ Catalog.builtins ⟨[], 0⟩).after
      (nestedSetup ++ .dataset (.setLazyWiring lazy) :: [.dataset .next])
    ((run false).apply (.use 0 (.get .i32))).answer = .value (some (.int 7)) ∧
      ((run true).apply (.use 0 (.get .i32))).answer = .value none := by
  intro run
  exact ⟨answer_get (by decide +kernel), answer_get (by decide +kernel)⟩

end Session

end TypedColumns
