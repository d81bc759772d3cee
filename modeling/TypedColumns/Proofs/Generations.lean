import TypedColumns.Proofs.Currency

/-!
# Generations tell files apart

Whatever a binding remembers, it trusts as long as the generation is the same.  In a run without announcements of the
client's own the generation counts the changes of the current file; so the same generation is the same file, and what
was found out then is still to be found now.  There is one exception: the first file of a chain comes without a change
of generation, and what was found out while there was none is out of date with it.

* `Dataset.call_fixed`, `Session.fixed_after`, `Session.files_after` -- the settings and the types stay, and files are
  only ever added.
* `Session.switches_eq_zero_iff` -- the generation is the same exactly when the current file never changed in between.
* `Dataset.ShowsSame` -- the same file is open, or none is.  It stays so for as long as the current file does, once
  there is one (`Session.showsSame_after`).
* `Session.showsSame_iff_of_generation_eq` -- the same generation shows the same file, except across the first file.
* `Session.generation_firstFile` -- that exception, with a binding that misses the file for good.
-/

namespace TypedColumns

/-! ### What stays in a run -/

theorem Dataset.Reloaded.settings {d e : Dataset} (h : Reloaded d e) : e.settings = d.settings := by rw [h.eq]

/-- No call on a dataset changes its settings or its types. -/
theorem Dataset.call_fixed (d : Dataset) (call : DatasetCall) :
    (d.call call).state.settings = d.settings ∧ (d.call call).state.types = d.types := by
  have hseek : ∀ entry, (d.seek entry).1.settings = d.settings ∧ (d.seek entry).1.types = d.types := by
    intro entry
    rcases seek_cases d entry with h | ⟨row, -, h⟩ | ⟨file, row, -, -, h⟩
    · rw [h]
      exact ⟨rfl, rfl⟩
    · rw [h, wire_eq]
      exact ⟨rfl, rfl⟩
    · rw [h, wire_eq]
      exact ⟨rfl, rfl⟩
  cases call with
  | seek entry => exact hseek entry
  | next => exact hseek d.nextEntry
  | load id =>
      have hload := reloaded_load d id
      exact ⟨hload.settings, hload.types⟩
  | _ => exact ⟨rfl, rfl⟩

namespace Session

theorem fixed_apply (s : Session) (call : SessionCall) :
    (s.apply call).state.dataset.settings = s.dataset.settings ∧
      (s.apply call).state.dataset.types = s.dataset.types := by
  rcases dataset_apply s call with ⟨c, rfl, hd⟩ | hreach | ⟨r, -, hd⟩
  · rw [hd]
    exact Dataset.call_fixed s.dataset c
  · have hreload := Dataset.reloaded_of_reaches hreach
    exact ⟨hreload.settings, hreload.types⟩
  · rw [hd]
    exact ⟨rfl, rfl⟩

theorem fixed_after (s : Session) (calls : List SessionCall) :
    (s.after calls).dataset.settings = s.dataset.settings ∧ (s.after calls).dataset.types = s.dataset.types := by
  induction calls generalizing s with
  | nil => exact ⟨rfl, rfl⟩
  | cons call calls ih =>
      obtain ⟨hsettings, htypes⟩ := fixed_apply s call
      exact ⟨(ih _).1.trans hsettings, (ih _).2.trans htypes⟩

theorem files_after (s : Session) (calls : List SessionCall) :
    ∃ more, (s.after calls).dataset.files = s.dataset.files ++ more := by
  induction calls generalizing s with
  | nil => exact ⟨[], (List.append_nil _).symm⟩
  | cons call calls ih =>
      obtain ⟨first, hfirst⟩ := files_apply s call
      obtain ⟨more, hmore⟩ := ih (s.apply call).state
      refine ⟨first ++ more, ?_⟩
      show ((s.apply call).state.after calls).dataset.files = _
      rw [hmore, hfirst, List.append_assoc]

theorem current_of_switches_eq_zero {s : Session} {calls : List SessionCall} (h : s.switches calls = 0) :
    (s.after calls).dataset.current = s.dataset.current := by
  induction calls generalizing s with
  | nil => rfl
  | cons call calls ih =>
      rw [switches] at h
      split at h
      · rename_i hfile
        exact (ih (by omega)).trans hfile
      · omega

/-- The generation is the same exactly when the current file did not change in between. -/
theorem switches_eq_zero_iff {s : Session} {calls : List SessionCall} (h : ∀ call ∈ calls, call.announces = false)
    (hlt : s.dataset.registry.generation.number.toNat + s.switches calls < 2 ^ 64) :
    (s.after calls).dataset.registry.generation = s.dataset.registry.generation ↔ s.switches calls = 0 := by
  have hcount := generation_after h hlt
  constructor
  · intro hgen
    rw [hgen] at hcount
    omega
  · intro hnone
    rw [hnone, Nat.add_zero] at hcount
    have hnumber := UInt64.toNat_inj.1 hcount
    cases hg : (s.after calls).dataset.registry.generation
    cases hg' : s.dataset.registry.generation
    rw [hg, hg'] at hnumber
    exact congrArg Generation.mk hnumber

end Session

/-! ### What a dataset shows at two moments -/

/-- At both moments the same file is open, or none is: the schema and the memory are the same, and every path stands for
the same. -/
structure Dataset.ShowsSame (d e : Dataset) : Prop where
  file? : e.file? = d.file?
  schema? : e.schema? = d.schema?
  arena : e.arena = d.arena
  resolution : ∀ path requested, e.resolution path requested = d.resolution path requested

theorem Dataset.showsSame_of_file? {d e : Dataset} (hfile : e.file? = d.file?) (hsettings : e.settings = d.settings)
    (htypes : e.types = d.types) : d.ShowsSame e := by
  have hschema : e.schema? = d.schema? := by rw [schema?, hfile]; rfl
  refine ⟨hfile, hschema, ?_, ?_⟩
  · rw [arena, hfile, hsettings]
    rfl
  · intro path requested
    rw [resolution, hschema, htypes]
    rfl

namespace Session

/-- As long as the current file does not change, the same file is open, except across the first file. -/
theorem file?_after_iff {s : Session} {calls : List SessionCall} (hs : s.WellFormed) (h : s.switches calls = 0) :
    (s.after calls).dataset.file? = s.dataset.file? ↔
      (s.dataset.files = [] → (s.after calls).dataset.files = []) := by
  obtain ⟨more, hmore⟩ := files_after s calls
  have hcurrent := current_of_switches_eq_zero h
  rw [Dataset.file?, Dataset.file?, hcurrent, hmore]
  by_cases hfiles : s.dataset.files = []
  · -- Without files the current file is the first one, which is there as soon as any file is.
    have hzero : s.dataset.current = 0 := by
      rcases hs.current with hzero | hlt
      · exact hzero
      · rw [hfiles] at hlt
        exact absurd hlt (Nat.not_lt_zero _)
    rw [hfiles, hzero, List.nil_append]
    cases more with
    | nil => simp
    | cons f fs => simp
  · have hpos := List.length_pos_iff.2 hfiles
    have hlt : s.dataset.current < s.dataset.files.length := by
      rcases hs.current with hzero | hlt
      · omega
      · exact hlt
    rw [List.getElem?_append_left hlt]
    exact ⟨fun _ hnil => absurd hnil hfiles, fun _ => rfl⟩

/-- As long as the current file does not change, a dataset in which some path is resolved shows the same. -/
theorem showsSame_after {s : Session} {calls : List SessionCall} (hs : s.WellFormed) (hnone : s.switches calls = 0)
    {path : String} {requested : Option String} {r : Resolution} (h : s.dataset.resolution path requested = .ok r) :
    s.dataset.ShowsSame (s.after calls).dataset := by
  obtain ⟨hsettings, htypes⟩ := fixed_after s calls
  refine Dataset.showsSame_of_file? ((file?_after_iff hs hnone).2 ?_) hsettings htypes
  intro hnil
  have hschema : s.dataset.schema? = none := by
    rw [Dataset.schema?, Dataset.file?, hnil]
    rfl
  rw [Dataset.resolution, hschema] at h
  cases h

/-- **The generation tells which file is open.**  Take two moments of a run in which the client announces no generation
of its own.  If the generation is the same, so is the current file, and the dataset shows the same at both moments
exactly if the first file did not come in between.  Then every set-up made at the one moment, whether it succeeded or
failed, has the outcome that the path has at the other. -/
theorem showsSame_iff_of_generation_eq {identity : RegistryId} {types : Catalog} {settings : Settings}
    {before between : List SessionCall} (hsilent : ∀ call ∈ before ++ between, call.announces = false)
    (hcount : (start identity types settings).switches (before ++ between) < 2 ^ 64)
    (hgen : ((start identity types settings).after (before ++ between)).dataset.registry.generation =
      ((start identity types settings).after before).dataset.registry.generation) :
    let s := (start identity types settings).after before
    let t := (start identity types settings).after (before ++ between)
    t.dataset.current = s.dataset.current ∧
    (s.dataset.ShowsSame t.dataset ↔ (s.dataset.files = [] → t.dataset.files = [])) ∧
    (s.dataset.ShowsSame t.dataset → ∀ b : Binding, s.dataset.registry.serves b.registration = true →
      (b.setup Dataset.cursor s.dataset).1.Shows (t.dataset.resolution b.path b.requested)) := by
  have hwf := wellFormed_after (wellFormed_start identity types settings) before
  have hbetween : ∀ call ∈ between, call.announces = false := fun c hc => hsilent c (List.mem_append_right before hc)
  have hbefore : ∀ call ∈ before, call.announces = false := fun c hc => hsilent c (List.mem_append_left between hc)
  have hzero : (start identity types settings).dataset.registry.generation.number.toNat = 0 := rfl
  rw [switches_append] at hcount
  have hnumber := generation_after hbefore (show _ + (start identity types settings).switches before < 2 ^ 64 by omega)
  rw [after_append] at hgen ⊢
  have hnone := (switches_eq_zero_iff hbetween (by omega)).1 hgen
  obtain ⟨hsettings, htypes⟩ := fixed_after ((start identity types settings).after before) between
  refine ⟨current_of_switches_eq_zero hnone, ⟨?_, ?_⟩, ?_⟩
  · intro hsame
    exact (file?_after_iff hwf hnone).1 hsame.file?
  · intro hfirst
    exact Dataset.showsSame_of_file? ((file?_after_iff hwf hnone).2 hfirst) hsettings htypes
  · intro hsame b hserves
    rw [hsame.resolution]
    exact (Binding.isCurrent_setup hserves).shows

/-- Reading, going behind the last row and back, and adding a file to two others: the generation stays, and so does what
the dataset shows. -/
theorem showsSame_besideRuns :
    let s := (start ⟨0⟩ Catalog.builtins ⟨[], 0⟩).after (bothRuns ++ acrossRuns)
    let t := (start ⟨0⟩ Catalog.builtins ⟨[], 0⟩).after
      ((bothRuns ++ acrossRuns) ++ [.use 0 .address, .dataset (.seek 7), .dataset (.pushFile firstRun), .dataset (.seek 1)])
    t.dataset.registry.generation = s.dataset.registry.generation ∧ t.dataset.current = s.dataset.current ∧
      s.dataset.ShowsSame t.dataset := by
  intro s t
  have hgen : t.dataset.registry.generation = s.dataset.registry.generation := by decide +kernel
  obtain ⟨hcurrent, hiff, -⟩ := showsSame_iff_of_generation_eq (by decide)
    (Nat.lt_of_le_of_lt (switches_le_length _ _) (by decide)) hgen
  refine ⟨hgen, hcurrent, hiff.2 ?_⟩
  intro hfiles
  cases hfiles

/-- A binding is set up while there is no file, and then the first file comes.  The generation is the same, but the schema
is not; the binding keeps its error and finds nothing on the first row, where a new binding of the same column finds the
object. -/
theorem generation_firstFile :
    let s := (start ⟨0⟩ Catalog.builtins ⟨[], 0⟩).after [.bind "hit" none, .bind "hit" none, .use 0 .setup]
    let t := s.after [.dataset (.pushFile firstRun), .dataset .next]
    t.dataset.registry.generation = s.dataset.registry.generation ∧
      s.dataset.schema?.isSome = false ∧ t.dataset.schema?.isSome = true ∧
      (t.apply (.use 0 .address)).answer = .address none ∧
      (t.apply (.use 1 .address)).answer = .address (some ⟨0x1000⟩) := by
  intro s t
  exact ⟨by decide +kernel, rfl, rfl, answer_address (by decide +kernel), answer_address (by decide +kernel)⟩

end Session

end TypedColumns
