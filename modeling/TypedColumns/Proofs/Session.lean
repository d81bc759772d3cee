import Mathlib.Algebra.Group.Nat.Defs
import TypedColumns.Proofs.Loads

/-!
# Sessions

A session is one dataset with the bindings that were made on it, and a client that calls the one and the others in any
order.  Only two things about the dataset matter to its bindings: which file is the current one, and the generation.

* `Answer`, `Reply`, `DatasetCall`, `BindingCall`, `SessionCall` -- what can be called, and what a call leaves behind.
* `Dataset.call`, `Binding.call`, `Session.apply`, `Session.after` -- one call, and a run of calls.
* `Dataset.seek_cases`, `Session.dataset_apply`, `Session.binding_apply` -- all that seeking can do, all that a call can
  do to the dataset, and where a binding comes from.
* `Session.advances_apply`, `Session.generation_after` -- the generation counts the changes of the current file, as long
  as the client announces none itself.
* `Session.serves_of_serves_apply` -- a binding that is live now was live before.
* `Session.WellFormed` -- the current file is in the chain, and the ids of the bindings were issued (`wellFormed_apply`,
  `wellFormed_after`).
-/

namespace TypedColumns

/-! ### Calls -/

/-- What a call answers. -/
inductive Answer where
  | nothing
  | entry (status : EntryStatus)
  | load (result : Except ReadError Unit)
  | bound (number : Nat)
  | left (wasLive : Bool)
  | setup (status : SetupStatus)
  | read (status : ReadStatus)
  | address (value : Option Address)
  | value (value : Option Value)

/-- What a call leaves behind: the answer, the state after it, and what was told. -/
structure Reply (σ : Type) where
  answer : Answer
  state : σ
  events : List Event

/-- A call on a dataset. -/
inductive DatasetCall where
  | pushFile (file : File)
  | joinAligned (source : SourceId)
  | joinIndexed (source : SourceId) (rows : List (Option UInt64))
  | detach (source : SourceId)
  | setLazyWiring (lazy : Bool)
  | markCorrupt (node : String)
  | seek (entry : UInt64)
  | next
  | load (id : NodeId)
  | announce (generation : Generation)

/-- A call on a binding. -/
inductive BindingCall where
  | setup
  | read
  | address
  | get (type : ColumnType)

/-- A call of a client.  Bindings are numbered in the order in which they were made. -/
inductive SessionCall where
  | dataset (call : DatasetCall)
  | bind (path : String) (requested : Option String)
  | use (number : Nat) (call : BindingCall)
  | leave (number : Nat)
  | deregister (id : BindingId)

/-- Whether a call announces a generation of the client's own. -/
def SessionCall.announces : SessionCall → Bool
  | .dataset (.announce _) => true
  | _ => false

/-- Carries out a call on a dataset. -/
def Dataset.call (d : Dataset) : DatasetCall → Reply Dataset
  | .pushFile file => ⟨.nothing, (d.pushFile file).1, (d.pushFile file).2⟩
  | .joinAligned source => ⟨.nothing, d.joinAligned source, []⟩
  | .joinIndexed source rows => ⟨.nothing, d.joinIndexed source rows, []⟩
  | .detach source => ⟨.nothing, d.detach source, []⟩
  | .setLazyWiring lazy => ⟨.nothing, d.setLazyWiring lazy, []⟩
  | .markCorrupt node => ⟨.nothing, d.markCorrupt node, []⟩
  | .seek entry => ⟨.entry (d.seek entry).1.position.status, (d.seek entry).1, (d.seek entry).2⟩
  | .next => ⟨.entry d.next.1.position.status, d.next.1, d.next.2⟩
  | .load id => ⟨.load (d.load id).1, (d.load id).2, []⟩
  | .announce generation => ⟨.nothing, (d.announce generation).1, (d.announce generation).2⟩

/-- Carries out a call on a binding of a dataset. -/
def Binding.call (b : Binding) (d : Dataset) : BindingCall → Turn Dataset Answer
  | .setup => ⟨.setup (b.setup Dataset.cursor d).1.setupStatus, (b.setup Dataset.cursor d).1, d,
      (b.setup Dataset.cursor d).2⟩
  | .read =>
    let t := b.read Dataset.cursor d
    ⟨.read t.value, t.binding, t.state, t.events⟩
  | .address =>
    let t := b.address Dataset.cursor d
    ⟨.address t.value, t.binding, t.state, t.events⟩
  | .get type =>
    let t := b.get type Dataset.cursor d
    ⟨.value t.value, t.binding, t.state, t.events⟩

/-- A dataset with the bindings made on it. -/
structure Session where
  dataset : Dataset
  bindings : List Binding

namespace Session

/-- A dataset without files, and no bindings. -/
def start (identity : RegistryId) (types : Catalog) (settings : Settings) : Session :=
  ⟨Dataset.empty identity types settings, []⟩

/-- Carries out a call; one on a binding that was never made does nothing. -/
def apply (s : Session) : SessionCall → Reply Session
  | .dataset call => ⟨(s.dataset.call call).answer, { s with dataset := (s.dataset.call call).state },
      (s.dataset.call call).events⟩
  | .bind path requested =>
    let (b, registry) := Binding.register s.dataset.registry path requested
    ⟨.bound s.bindings.length, ⟨{ s.dataset with registry := registry }, s.bindings ++ [b]⟩, []⟩
  | .use number call =>
    match s.bindings[number]? with
    | none => ⟨.nothing, s, []⟩
    | some b =>
      let t := b.call s.dataset call
      ⟨t.value, ⟨t.state, s.bindings.set number t.binding⟩, t.events⟩
  | .leave number =>
    match s.bindings[number]? with
    | none => ⟨.nothing, s, []⟩
    | some b =>
      let (live, registry) := s.dataset.registry.release b.registration
      ⟨.left live, ⟨{ s.dataset with registry := registry },
        s.bindings.set number { b with registration := b.registration.leave }⟩, []⟩
  | .deregister id =>
    let (live, registry) := s.dataset.registry.deregister id
    ⟨.left live, { s with dataset := { s.dataset with registry := registry } }, []⟩

/-- The session after some calls. -/
def after (s : Session) : List SessionCall → Session
  | [] => s
  | call :: calls => (s.apply call).state.after calls

/-- How often the current file changes in the course of some calls. -/
def switches (s : Session) : List SessionCall → Nat
  | [] => 0
  | call :: calls =>
    (if (s.apply call).state.dataset.current = s.dataset.current then 0 else 1) + (s.apply call).state.switches calls

theorem after_append (s : Session) (calls more : List SessionCall) :
    s.after (calls ++ more) = (s.after calls).after more := by
  induction calls generalizing s with
  | nil => rfl
  | cons call calls ih => exact ih (s.apply call).state

theorem switches_append (s : Session) (calls more : List SessionCall) :
    s.switches (calls ++ more) = s.switches calls + (s.after calls).switches more := by
  induction calls generalizing s with
  | nil =>
      show s.switches more = 0 + s.switches more
      omega
  | cons call calls ih =>
      simp only [List.cons_append, switches, after]
      rw [ih]
      omega

end Session

/-! ### What a call does to the dataset -/

namespace Dataset

theorem wire_eq (d : Dataset) : d.wire = { d with wired := d.wire.wired } := by
  rw [wire]
  split
  · split <;> rfl
  · rfl

/-- Seeking goes behind the last row, or to a row of the current file, or to a row of another file, which then becomes
the current one under the next generation. -/
theorem seek_cases (d : Dataset) (entry : UInt64) :
    (d.seek entry).1 = { d with loaded := [], position := .beyond entry } ∨
    (∃ row, locateRow d.files 0 entry.toNat = some (d.current, row) ∧
      (d.seek entry).1 = { ({ d with loaded := [] } : Dataset).wire with
        position := .onRow entry row (d.joins.any (fun (_, j) => j.misses entry)) }) ∨
    ∃ file row, locateRow d.files 0 entry.toNat = some (file, row) ∧ file ≠ d.current ∧
      (d.seek entry).1 = { (({ d with loaded := [] } : Dataset).switchTo file).1.wire with
        position := .onRow entry row (d.joins.any (fun (_, j) => j.misses entry)) } := by
  simp only [seek]
  split
  · exact Or.inl rfl
  · rename_i file row hlocate
    by_cases hfile : file = d.current
    · subst hfile
      exact Or.inr (Or.inl ⟨row, hlocate, by simp⟩)
    · refine Or.inr (Or.inr ⟨file, row, hlocate, hfile, ?_⟩)
      simp only [ne_eq, hfile, not_false_eq_true, if_true]
      rfl

/-- The current file and the generation stay, or another file becomes the current one under the next generation. -/
def Advances (d e : Dataset) : Prop :=
  (e.current = d.current ∧ e.registry.generation = d.registry.generation) ∨
    (e.current ≠ d.current ∧ e.registry.generation = d.registry.generation.next)

theorem Advances.refl (d : Dataset) : Advances d d := Or.inl ⟨rfl, rfl⟩

theorem advances_seek (d : Dataset) (entry : UInt64) : Advances d (d.seek entry).1 := by
  rcases seek_cases d entry with h | ⟨row, -, h⟩ | ⟨file, row, -, hfile, h⟩
  · rw [h]
    exact Advances.refl d
  · rw [h, wire_eq]
    exact Or.inl ⟨rfl, rfl⟩
  · rw [h, wire_eq]
    exact Or.inr ⟨hfile, rfl⟩

theorem advances_call {d : Dataset} {call : DatasetCall} (h : ∀ g, call ≠ .announce g) :
    Advances d (d.call call).state := by
  cases call with
  | seek entry => exact advances_seek d entry
  | next => exact advances_seek d d.nextEntry
  | load id =>
      have hload := reloaded_load d id
      exact Or.inl ⟨hload.current, congrArg Registry.generation hload.registry⟩
  | announce g => exact absurd rfl (h g)
  | _ => exact Advances.refl d

/-- A call on a dataset leaves its registry as it is, up to the generation. -/
theorem registry_call (d : Dataset) (call : DatasetCall) : ∃ g, (d.call call).state.registry = d.registry.announce g := by
  have hseek : ∀ entry, ∃ g, (d.seek entry).1.registry = d.registry.announce g := by
    intro entry
    rcases seek_cases d entry with h | ⟨row, -, h⟩ | ⟨file, row, -, -, h⟩
    · exact ⟨d.registry.generation, by rw [h]; rfl⟩
    · exact ⟨d.registry.generation, by rw [h, wire_eq]; rfl⟩
    · exact ⟨d.registry.generation.next, by rw [h, wire_eq]; rfl⟩
  cases call with
  | seek entry => exact hseek entry
  | next => exact hseek d.nextEntry
  | load id => exact ⟨d.registry.generation, (reloaded_load d id).registry⟩
  | announce g => exact ⟨g, rfl⟩
  | _ => exact ⟨d.registry.generation, rfl⟩

end Dataset

/-- The file that holds an entry, and the rows before that file. -/
theorem locateRow_eq_some {files : List File} {first entry file row : Nat}
    (h : locateRow files first entry = some (file, row)) :
    ∃ i f, file = first + i ∧ files[i]? = some f ∧ row < f.size ∧ entry = totalSize (files.take i) + row := by
  induction files generalizing first entry with
  | nil => cases h
  | cons f fs ih =>
      rw [locateRow] at h
      split at h
      · rename_i hlt
        cases h
        exact ⟨0, f, rfl, rfl, hlt, by simp [totalSize]⟩
      · rename_i hge
        obtain ⟨i, g, hfile, hg, hrow, hentry⟩ := ih h
        refine ⟨i + 1, g, by omega, hg, hrow, ?_⟩
        have hsum : totalSize ((f :: fs).take (i + 1)) = f.size + totalSize (fs.take i) := by simp [totalSize]
        omega

theorem Dataset.files_seek (d : Dataset) (entry : UInt64) : (d.seek entry).1.files = d.files := by
  rcases seek_cases d entry with h | ⟨row, -, h⟩ | ⟨file, row, -, -, h⟩
  · rw [h]
  · rw [h, wire_eq]
  · rw [h, wire_eq]
    rfl

theorem Dataset.files_call (d : Dataset) (call : DatasetCall) :
    ∃ more, (d.call call).state.files = d.files ++ more := by
  cases call with
  | pushFile file => exact ⟨[file], rfl⟩
  | seek entry => exact ⟨[], (files_seek d entry).trans (List.append_nil _).symm⟩
  | next => exact ⟨[], (files_seek d d.nextEntry).trans (List.append_nil _).symm⟩
  | load id => exact ⟨[], (reloaded_load d id).files.trans (List.append_nil _).symm⟩
  | _ => exact ⟨[], (List.append_nil _).symm⟩

theorem Dataset.current_call {d : Dataset} (hd : d.current = 0 ∨ d.current < d.files.length) (call : DatasetCall) :
    (d.call call).state.current = 0 ∨ (d.call call).state.current < (d.call call).state.files.length := by
  have hseek : ∀ entry, (d.seek entry).1.current = 0 ∨ (d.seek entry).1.current < (d.seek entry).1.files.length := by
    intro entry
    rcases seek_cases d entry with h | ⟨row, -, h⟩ | ⟨file, row, hlocate, -, h⟩
    · rw [h]
      exact hd
    · rw [h, wire_eq]
      exact hd
    · obtain ⟨i, f, hfile, hf, -, -⟩ := locateRow_eq_some hlocate
      have hlt := (List.getElem?_eq_some_iff.1 hf).1
      rw [h, wire_eq]
      show file = 0 ∨ file < d.files.length
      omega
  cases call with
  | pushFile file =>
      show d.current = 0 ∨ d.current < (d.files ++ [file]).length
      rw [List.length_append]
      omega
  | seek entry => exact hseek entry
  | next => exact hseek d.nextEntry
  | load id =>
      have hload := reloaded_load d id
      show (d.load id).2.current = 0 ∨ (d.load id).2.current < (d.load id).2.files.length
      rw [hload.current, hload.files]
      exact hd
  | _ => exact hd

/-! ### What a call does to the binding -/

/-- Two states of a binding: it stands for the same column and is registered alike. -/
structure Binding.SameColumn (a b : Binding) : Prop where
  path : b.path = a.path
  requested : b.requested = a.requested
  registration : b.registration = a.registration

namespace Binding

section Columns

variable {σ : Type} (b : Binding) (c : RowCursor σ) (s : σ)

theorem SameColumn.refl : SameColumn b b := ⟨rfl, rfl, rfl⟩

theorem SameColumn.trans {a b d : Binding} (hab : SameColumn a b) (hbd : SameColumn b d) : SameColumn a d :=
  ⟨hbd.path.trans hab.path, hbd.requested.trans hab.requested, hbd.registration.trans hab.registration⟩

theorem sameColumn_refresh : SameColumn b (b.refresh c s).1 := by
  rw [refresh]
  split
  · exact SameColumn.refl b
  · exact ⟨rfl, rfl, rfl⟩

theorem sameColumn_readBase : SameColumn b (b.readBase c s).binding := by
  rw [readBase]
  split
  · simp only [readMatch]
    split <;> exact ⟨rfl, rfl, rfl⟩
  · exact ⟨rfl, rfl, rfl⟩

theorem sameColumn_locate (t : Turn σ (Option Address)) : SameColumn t.binding (locate t c).binding := by
  rw [locate]
  split
  · split <;> exact ⟨rfl, rfl, rfl⟩
  · exact SameColumn.refl _

theorem sameColumn_decode (type : ColumnType) (t : Turn σ (Option Address)) :
    SameColumn t.binding (decode type t c).binding := by
  rw [decode]
  split
  · split <;> exact ⟨rfl, rfl, rfl⟩
  · exact SameColumn.refl _

theorem sameColumn_read : SameColumn b (b.read c s).binding :=
  (sameColumn_refresh b c s).trans (sameColumn_readBase _ c s)

theorem sameColumn_address : SameColumn b (b.address c s).binding := by
  have hrefresh := sameColumn_refresh b c s
  simp only [address]
  split
  · exact hrefresh
  · exact hrefresh.trans ((sameColumn_readBase _ c s).trans (sameColumn_locate c _))

theorem sameColumn_get (type : ColumnType) : SameColumn b (b.get type c s).binding := by
  rw [get]
  split
  · exact SameColumn.refl b
  · exact (sameColumn_address b c s).trans (sameColumn_decode c type _)

end Columns

theorem sameColumn_call (b : Binding) (d : Dataset) (call : BindingCall) : SameColumn b (b.call d call).binding := by
  cases call with
  | setup => exact ⟨rfl, rfl, rfl⟩
  | read => exact sameColumn_read b Dataset.cursor d
  | address => exact sameColumn_address b Dataset.cursor d
  | get type => exact sameColumn_get b Dataset.cursor d type

end Binding

/-! ### What a call does to the session -/

theorem reaches_call (b : Binding) (d : Dataset) (call : BindingCall) :
    Dataset.cursor.Reaches d (b.call d call).state := by
  cases call with
  | setup => exact .refl
  | read => exact reaches_read Dataset.cursor b d
  | address => exact reaches_address Dataset.cursor b d
  | get type => exact reaches_get Dataset.cursor b type d

/-- What becomes of a registry when bindings join and leave: its generation stays, and no registration that was issued
before comes to life again. -/
structure Registry.Evolves (r r' : Registry) : Prop where
  generation : r'.generation = r.generation
  nextId : r.nextId ≤ r'.nextId
  serves : ∀ g, g.id.number < r.nextId → r'.serves g = true → r.serves g = true

namespace Registry

theorem evolves_register (r : Registry) (path : String) : r.Evolves (r.register path).2 := by
  refine ⟨rfl, Nat.le_succ r.nextId, ?_⟩
  intro g hissued h
  have hne : (g.id == ⟨r.nextId⟩) = false := by
    rw [Bool.eq_false_iff]
    intro he
    rw [eq_of_beq he] at hissued
    exact Nat.lt_irrefl _ hissued
  have h : (r.owns g && (r.register path).2.isRegistered g.id) = true := h
  rw [isRegistered_register, hne, Bool.or_false] at h
  exact h

theorem evolves_deregister (r : Registry) (id : BindingId) : r.Evolves (r.deregister id).2 := by
  refine ⟨rfl, Nat.le_refl r.nextId, ?_⟩
  intro g _ h
  have h : (r.owns g && (r.deregister id).2.isRegistered g.id) = true := h
  by_cases hid : g.id = id
  · rw [hid, isRegistered_deregister_self, Bool.and_false] at h
    cases h
  · rw [isRegistered_deregister_of_ne r hid] at h
    exact h

theorem evolves_release (r : Registry) (g : Registration) : r.Evolves (r.release g).2 := by
  rw [release]
  split
  · exact evolves_deregister r g.id
  · exact ⟨rfl, Nat.le_refl r.nextId, fun _ _ h => h⟩

end Registry

/-- The generation after `g` is counted one higher, unless the count wraps. -/
theorem Generation.toNat_next {g : Generation} (h : g.number.toNat + 1 < 2 ^ 64) :
    g.next.number.toNat = g.number.toNat + 1 := by
  show (g.number + 1).toNat = g.number.toNat + 1
  rw [UInt64.toNat_add]
  have hone : (1 : UInt64).toNat = 1 := rfl
  omega

namespace Session

/-- What a call can do to the dataset: it is a call on the dataset itself, or loads some nodes, or lets a binding join or
leave. -/
theorem dataset_apply (s : Session) (call : SessionCall) :
    (∃ c, call = .dataset c ∧ (s.apply call).state.dataset = (s.dataset.call c).state) ∨
    Dataset.cursor.Reaches s.dataset (s.apply call).state.dataset ∨
    ∃ r, s.dataset.registry.Evolves r ∧ (s.apply call).state.dataset = { s.dataset with registry := r } := by
  cases call with
  | dataset c => exact Or.inl ⟨c, rfl, rfl⟩
  | bind path requested => exact Or.inr (Or.inr ⟨_, Registry.evolves_register _ path, rfl⟩)
  | use i use =>
      refine Or.inr (Or.inl ?_)
      simp only [apply]
      cases s.bindings[i]? with
      | none => exact .refl
      | some b => exact reaches_call b s.dataset use
  | leave i =>
      simp only [apply]
      cases s.bindings[i]? with
      | none => exact Or.inr (Or.inl .refl)
      | some b => exact Or.inr (Or.inr ⟨_, Registry.evolves_release _ b.registration, rfl⟩)
  | deregister id => exact Or.inr (Or.inr ⟨_, Registry.evolves_deregister _ id, rfl⟩)

theorem advances_apply {s : Session} {call : SessionCall} (h : call.announces = false) :
    s.dataset.Advances (s.apply call).state.dataset := by
  rcases dataset_apply s call with ⟨c, rfl, hd⟩ | hreach | ⟨r, hr, hd⟩
  · rw [hd]
    refine Dataset.advances_call ?_
    intro g hg
    rw [hg] at h
    cases h
  · have hreload := Dataset.reloaded_of_reaches hreach
    exact Or.inl ⟨hreload.current, congrArg Registry.generation hreload.registry⟩
  · rw [hd]
    exact Or.inl ⟨rfl, hr.generation⟩

theorem generation_apply {s : Session} {call : SessionCall} {calls : List SessionCall} (h : call.announces = false)
    (hlt : s.dataset.registry.generation.number.toNat + s.switches (call :: calls) < 2 ^ 64) :
    (s.apply call).state.dataset.registry.generation.number.toNat + (s.apply call).state.switches calls =
      s.dataset.registry.generation.number.toNat + s.switches (call :: calls) := by
  simp only [switches] at hlt ⊢
  rcases advances_apply h with ⟨hfile, hgen⟩ | ⟨hfile, hgen⟩
  · rw [hgen, if_pos hfile]
    omega
  · rw [if_neg hfile] at hlt ⊢
    rw [hgen, Generation.toNat_next (by omega)]
    omega

theorem generation_after {s : Session} {calls : List SessionCall} (h : ∀ call ∈ calls, call.announces = false)
    (hlt : s.dataset.registry.generation.number.toNat + s.switches calls < 2 ^ 64) :
    (s.after calls).dataset.registry.generation.number.toNat =
      s.dataset.registry.generation.number.toNat + s.switches calls := by
  induction calls generalizing s with
  | nil => rfl
  | cons call calls ih =>
      have hgen := generation_apply (h call List.mem_cons_self) hlt
      rw [← hgen] at hlt ⊢
      exact ih (fun c hc => h c (List.mem_cons_of_mem call hc)) hlt

/-- Where the bindings after a call come from. -/
theorem binding_apply {s : Session} {call : SessionCall} {i : Nat} {b : Binding}
    (h : (s.apply call).state.bindings[i]? = some b) :
    s.bindings[i]? = some b ∨
    (∃ a use, call = .use i use ∧ s.bindings[i]? = some a ∧ b = (a.call s.dataset use).binding) ∨
    (∃ a, call = .leave i ∧ s.bindings[i]? = some a ∧ b = { a with registration := a.registration.leave }) ∨
    ∃ path requested, call = .bind path requested ∧ b = (Binding.register s.dataset.registry path requested).1 := by
  cases call with
  | dataset call => exact Or.inl h
  | deregister id => exact Or.inl h
  | bind path requested =>
      have h : (s.bindings ++ [(Binding.register s.dataset.registry path requested).1])[i]? = some b := h
      rw [List.getElem?_append] at h
      split at h
      · exact Or.inl h
      · refine Or.inr (Or.inr (Or.inr ⟨path, requested, rfl, ?_⟩))
        have hmem := List.mem_of_getElem? h
        simpa using hmem
  | use j use =>
      simp only [apply] at h
      cases ha : s.bindings[j]? with
      | none =>
          rw [ha] at h
          exact Or.inl h
      | some a =>
          simp only [ha, List.getElem?_set] at h
          split at h
          · rename_i hj
            subst hj
            split at h
            · cases h
              exact Or.inr (Or.inl ⟨a, use, rfl, ha, rfl⟩)
            · cases h
          · exact Or.inl h
  | leave j =>
      simp only [apply] at h
      cases ha : s.bindings[j]? with
      | none =>
          rw [ha] at h
          exact Or.inl h
      | some a =>
          simp only [ha, List.getElem?_set] at h
          split at h
          · rename_i hj
            subst hj
            split at h
            · cases h
              exact Or.inr (Or.inr (Or.inl ⟨a, rfl, ha, rfl⟩))
            · cases h
          · exact Or.inl h

/-- How often the current file changes in one call and the calls after it. -/
theorem switches_cons (s : Session) (call : SessionCall) (calls : List SessionCall) :
    s.switches (call :: calls) = s.switches [call] + (s.apply call).state.switches calls :=
  switches_append s [call] calls

theorem switches_le_length (s : Session) (calls : List SessionCall) : s.switches calls ≤ calls.length := by
  induction calls generalizing s with
  | nil => exact Nat.le_refl 0
  | cons call calls ih =>
      have hle := ih (s.apply call).state
      rw [switches, List.length_cons]
      split <;> omega

/-- A call only ever adds files. -/
theorem files_apply (s : Session) (call : SessionCall) :
    ∃ more, (s.apply call).state.dataset.files = s.dataset.files ++ more := by
  rcases dataset_apply s call with ⟨c, rfl, hd⟩ | hreach | ⟨r, -, hd⟩
  · rw [hd]
    exact Dataset.files_call s.dataset c
  · exact ⟨[], (Dataset.reloaded_of_reaches hreach).files.trans (List.append_nil _).symm⟩
  · rw [hd]
    exact ⟨[], (List.append_nil _).symm⟩

theorem files_apply_ne_nil {s : Session} (h : s.dataset.files ≠ []) (call : SessionCall) :
    (s.apply call).state.dataset.files ≠ [] := by
  obtain ⟨more, hmore⟩ := files_apply s call
  rw [hmore]
  exact List.append_ne_nil_of_left_ne_nil h more

/-- The answer to a call to read, told by the binding. -/
theorem answer_read {s : Session} {i : Nat} {status : ReadStatus}
    (h : s.bindings[i]?.map (fun b => (b.read Dataset.cursor s.dataset).value) = some status) :
    (s.apply (.use i .read)).answer = .read status := by
  obtain ⟨b, hb, hstatus⟩ := Option.map_eq_some_iff.1 h
  simp only [apply, hb]
  exact congrArg Answer.read hstatus

/-- The answer to a call for an address, told by the binding. -/
theorem answer_address {s : Session} {i : Nat} {value : Option Address}
    (h : s.bindings[i]?.map (fun b => (b.address Dataset.cursor s.dataset).value) = some value) :
    (s.apply (.use i .address)).answer = .address value := by
  obtain ⟨b, hb, hvalue⟩ := Option.map_eq_some_iff.1 h
  simp only [apply, hb]
  exact congrArg Answer.address hvalue

/-- The answer to a call for a value, told by the binding. -/
theorem answer_get {s : Session} {i : Nat} {type : ColumnType} {value : Option Value}
    (h : s.bindings[i]?.map (fun b => (b.get type Dataset.cursor s.dataset).value) = some value) :
    (s.apply (.use i (.get type))).answer = .value value := by
  obtain ⟨b, hb, hvalue⟩ := Option.map_eq_some_iff.1 h
  simp only [apply, hb]
  exact congrArg Answer.value hvalue

/-! ### Well-formed sessions -/

/-- A registration whose id has been issued is live after a call only if it was live before. -/
theorem serves_of_serves_apply {s : Session} {call : SessionCall} {g : Registration}
    (hissued : g.id.number < s.dataset.registry.nextId)
    (h : (s.apply call).state.dataset.registry.serves g = true) : s.dataset.registry.serves g = true := by
  rcases dataset_apply s call with ⟨c, rfl, hd⟩ | hreach | ⟨r, hr, hd⟩
  · obtain ⟨generation, hr⟩ := Dataset.registry_call s.dataset c
    rw [hd, hr] at h
    exact h
  · rw [(Dataset.reloaded_of_reaches hreach).registry] at h
    exact h
  · rw [hd] at h
    exact hr.serves g hissued h

/-- The current file is in the chain, and no id that is held was never issued. -/
structure WellFormed (s : Session) : Prop where
  current : s.dataset.current = 0 ∨ s.dataset.current < s.dataset.files.length
  issued : ∀ b ∈ s.bindings, b.registration.id.number < s.dataset.registry.nextId

theorem wellFormed_start (identity : RegistryId) (types : Catalog) (settings : Settings) :
    (start identity types settings).WellFormed :=
  ⟨Or.inl rfl, fun _ h => absurd h List.not_mem_nil⟩

theorem current_apply {s : Session} (hs : s.WellFormed) (call : SessionCall) :
    (s.apply call).state.dataset.current = 0 ∨
      (s.apply call).state.dataset.current < (s.apply call).state.dataset.files.length := by
  rcases dataset_apply s call with ⟨c, rfl, hd⟩ | hreach | ⟨r, -, hd⟩
  · rw [hd]
    exact Dataset.current_call hs.current c
  · have hreload := Dataset.reloaded_of_reaches hreach
    rw [hreload.current, hreload.files]
    exact hs.current
  · rw [hd]
    exact hs.current

theorem nextId_apply (s : Session) (call : SessionCall) :
    s.dataset.registry.nextId ≤ (s.apply call).state.dataset.registry.nextId := by
  rcases dataset_apply s call with ⟨c, rfl, hd⟩ | hreach | ⟨r, hr, hd⟩
  · obtain ⟨generation, hr⟩ := Dataset.registry_call s.dataset c
    rw [hd]
    exact Nat.le_of_eq (congrArg Registry.nextId hr).symm
  · exact Nat.le_of_eq (congrArg Registry.nextId (Dataset.reloaded_of_reaches hreach).registry).symm
  · rw [hd]
    exact hr.nextId

theorem wellFormed_apply {s : Session} (hs : s.WellFormed) (call : SessionCall) : (s.apply call).state.WellFormed := by
  refine ⟨current_apply hs call, ?_⟩
  intro b hb
  have hnext := nextId_apply s call
  obtain ⟨i, hi⟩ := List.getElem?_of_mem hb
  rcases binding_apply hi with h | ⟨a, use, rfl, ha, rfl⟩ | ⟨a, rfl, ha, rfl⟩ | ⟨path, requested, rfl, rfl⟩
  · exact Nat.lt_of_lt_of_le (hs.issued b (List.mem_of_getElem? h)) hnext
  · rw [(Binding.sameColumn_call a s.dataset use).registration]
    exact Nat.lt_of_lt_of_le (hs.issued a (List.mem_of_getElem? ha)) hnext
  · exact Nat.lt_of_lt_of_le (hs.issued a (List.mem_of_getElem? ha)) hnext
  · exact Nat.lt_succ_self _

theorem wellFormed_after {s : Session} (hs : s.WellFormed) (calls : List SessionCall) : (s.after calls).WellFormed := by
  induction calls generalizing s with
  | nil => exact hs
  | cons call calls ih => exact ih (wellFormed_apply hs call)

end Session

end TypedColumns
