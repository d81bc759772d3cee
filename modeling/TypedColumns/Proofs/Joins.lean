import Mathlib.Data.List.Induction
import TypedColumns.Proofs.Cacheless
import TypedColumns.Proofs.Seeking

/-!
# Joins and the current row

When a dataset comes to a row it notes whether some index has no row for the entry, and what is loaded there is kept until
it moves on.  Which rows the sources are on is told anew from the joins each time it is asked.  A join that is set
meanwhile changes the one and not the other.

* `Dataset.Unmatched`, `Dataset.Records` -- a source that goes along by an index is on no row; the row that a source is on
  has an object for a node.
* `Session.records_apply`, `Session.records_after` -- what a row has for a node stays until the dataset moves or the source
  of the node is joined anew; every loaded object was there at some moment (`records_of_loaded`).
* `Dataset.FitsJoins` -- what was noted and what is loaded are what the joins give.  It is so when a dataset has just moved
  (`fitsJoins_seek`), and calls that neither move nor join keep it so (`fitsJoins_apply`, `fitsJoins_after`).
* `Session.loaded_since_move` -- the status and the loaded objects by the joins of former moments and by those of now.
* `Session.stale_rejoinedCalls` -- an index that is set on a row, of which neither the status nor the loaded object tells.
-/

namespace TypedColumns

namespace Dataset

variable {d e : Dataset} {entry : UInt64} {row : Nat} {missed : Bool} {source : SourceId} {id : NodeId} {node : Node}
  {a : Address}

/-! ### What the joins give -/

/-- Some source goes along by an index and is on no row. -/
def Unmatched (d : Dataset) : Prop :=
  ∃ source rows, d.join? source = some (.indexed rows) ∧ d.activeRow source = none

/-- The row that the source of a node is on has an object for it. -/
structure Records (d : Dataset) (id : NodeId) (node : Node) (a : Address) : Prop where
  inFile : d.node? id = some node
  active : (d.activeRow node.source).isSome = true
  object : (d.sourceRow? node.source).bind (fun row => row.find? node.name) = some a

/-- What was noted about the row and what is loaded are what the joins give for it. -/
structure FitsJoins (d : Dataset) : Prop where
  missed : ∀ entry row missed, d.position = .onRow entry row missed → (missed = true ↔ d.Misses entry)
  loaded : ∀ l ∈ d.loaded, ∃ node, d.Records l.id node l.object

theorem activeRow_of_indexed {rows : List (Option UInt64)} (hposition : d.position = .onRow entry row missed)
    (hsource : source ≠ .primary) (hjoin : d.join? source = some (.indexed rows)) :
    d.activeRow source = rows[entry.toNat]?.join := by
  have hprimary : source.isPrimary = false := beq_eq_false_iff_ne.2 hsource
  simp only [activeRow, hposition, hprimary, hjoin]
  rfl

/-- On a row the sources on no row are those whose index misses the entry, as long as none is set for the primary
source, which is on the row itself. -/
theorem unmatched_iff_misses (hposition : d.position = .onRow entry row missed)
    (hprimary : ∀ rows, d.join? .primary ≠ some (.indexed rows)) : d.Unmatched ↔ d.Misses entry := by
  have hrow : ∀ source rows, d.join? source = some (.indexed rows) →
      d.activeRow source = rows[entry.toNat]?.join := by
    intro source rows hjoin
    refine activeRow_of_indexed hposition ?_ hjoin
    rintro rfl
    exact hprimary rows hjoin
  constructor
  · rintro ⟨source, rows, hjoin, hnone⟩
    exact ⟨source, rows, hjoin, (hrow source rows hjoin).symm.trans hnone⟩
  · rintro ⟨source, rows, hjoin, hnone⟩
    exact ⟨source, rows, hjoin, (hrow source rows hjoin).trans hnone⟩

/-- What a row has for a node depends on the join of the node's source alone, and on no file that is added. -/
theorem Records.congr (h : d.Records id node a) (hposition : e.position = d.position) (hcurrent : e.current = d.current)
    (hfiles : ∃ more, e.files = d.files ++ more) (hjoin : e.join? node.source = d.join? node.source) :
    e.Records id node a := by
  have hfile : e.file? = d.file? := by
    obtain ⟨more, hfiles⟩ := hfiles
    have hnode := h.inFile
    rw [node?, schema?] at hnode
    obtain ⟨s, hs, -⟩ := Option.bind_eq_some_iff.1 hnode
    obtain ⟨f, hf, -⟩ := Option.map_eq_some_iff.1 hs
    have hlt := (List.getElem?_eq_some_iff.1 hf).1
    rw [file?, file?, hcurrent, hfiles, List.getElem?_append_left hlt]
  have hactive : e.activeRow node.source = d.activeRow node.source := by
    rw [activeRow, activeRow, hposition, hjoin]
  have hsource : e.sourceRow? node.source = d.sourceRow? node.source := by
    rw [sourceRow?, sourceRow?, hfile, hposition, hjoin, hactive]
  refine ⟨?_, ?_, ?_⟩
  · rw [node?, schema?, hfile]
    exact h.inFile
  · rw [hactive]
    exact h.active
  · rw [hsource]
    exact h.object

theorem records_of_rowObject? (h : d.rowObject? id = some a) : ∃ node, d.Records id node a := by
  rw [rowObject?] at h
  split at h
  · cases h
  · rename_i node hnode
    split at h
    · cases h
    · rename_i hfree
      rw [Bool.not_eq_true, Bool.or_eq_false_iff, Option.isNone_eq_false_iff] at hfree
      exact ⟨node, hnode, hfree.2, h⟩

/-- What is loaded was loaded before or is what the row has. -/
theorem mem_loaded_of_reaches (h : cursor.Reaches d e) {l : Loaded} (hl : l ∈ e.loaded) :
    l ∈ d.loaded ∨ d.rowObject? l.id = some l.object := by
  induction h with
  | refl => exact Or.inl hl
  | @load t id hreach ih =>
      have hreload := reloaded_of_reaches hreach
      have hl : l ∈ (t.load id).2.loaded := hl
      rcases load_cases t id with ⟨b, -, hload⟩ | ⟨-, -, err, hload⟩ | ⟨node, b, -, -, hb, hload⟩
      · rw [hload] at hl
        exact ih hl
      · rw [hload] at hl
        exact ih hl
      · rw [hload] at hl
        rcases List.mem_append.1 hl with hl | hl
        · exact ih hl
        · obtain rfl := List.mem_singleton.1 hl
          rw [hreload.rowObject?] at hb
          exact Or.inr hb

theorem FitsJoins.records (h : d.FitsJoins) (ha : d.object? id = some a) : ∃ node, d.Records id node a := by
  obtain ⟨l, hl, rfl⟩ := Option.map_eq_some_iff.1 ha
  have hid : l.id = id := by simpa using List.find?_some hl
  rw [← hid]
  exact h.loaded l (List.mem_of_find?_eq_some hl)

/-- On a row the status tells whether some source is on none. -/
theorem FitsJoins.status (h : d.FitsJoins) (hprimary : ∀ rows, d.join? .primary ≠ some (.indexed rows))
    (hactive : (d.activeRow .primary).isSome = true) :
    (d.position.status = .indexedJoinNoMatch ↔ d.Unmatched) ∧ (d.position.status = .valid ↔ ¬d.Unmatched) := by
  obtain ⟨i, hi⟩ := Option.isSome_iff_exists.1 hactive
  obtain ⟨entry, row, missed, hposition⟩ := onRow_of_activeRow hi
  rw [unmatched_iff_misses hposition hprimary, ← h.missed entry row missed hposition, hposition,
    Position.status_eq_indexedJoinNoMatch_iff, Position.status_eq_valid_iff, Bool.not_eq_true]
  exact ⟨Iff.rfl, Iff.rfl⟩

/-- A dataset that has just moved fits its joins. -/
theorem fitsJoins_seek (hd : d.JoinedOnce) (entry : UInt64) : (d.seek entry).1.FitsJoins := by
  refine ⟨?_, ?_⟩
  · intro e row missed hposition
    have hentry := entry?_seek d entry
    rw [hposition] at hentry
    obtain rfl := Option.some.inj hentry
    have hlt : e.toNat < d.entries := by
      refine Nat.not_le.1 fun hle => ?_
      have hstatus := (status_seek_eq_beyondEnd_iff d e).2 hle
      rw [hposition] at hstatus
      cases missed <;> cases hstatus
    obtain ⟨file, row, hplace⟩ := holdsEntry_of_lt hlt
    have hmissed := (lands_of_holdsEntry hd hplace).missed
    rw [hposition, Position.status_eq_indexedJoinNoMatch_iff] at hmissed
    rw [hmissed]
    simp only [Misses, join?, joins_seek]
  · intro l hl
    rw [loaded_seek] at hl
    cases hl

end Dataset

/-! ### Calls -/

namespace Session

variable {s : Session} {call : SessionCall} {calls : List SessionCall} {source : SourceId} {id : NodeId} {node : Node}
  {a : Address}

theorem join?_apply (h : ∀ j, call.joined? ≠ some (source, j)) :
    (s.apply call).state.dataset.join? source = s.dataset.join? source := by
  cases hj : call.joined? with
  | none => rw [Dataset.join?, Dataset.join?, joins_apply hj]
  | some p =>
      obtain ⟨other, j⟩ := p
      rw [dataset_apply_of_joined? hj]
      refine Dataset.join?_join_of_ne ?_ j
      rintro rfl
      exact h j hj

theorem current_apply_of_not_moves (h : call.moves = false) :
    (s.apply call).state.dataset.current = s.dataset.current := by
  rcases dataset_apply s call with ⟨c, rfl, hd⟩ | hreach | ⟨r, -, hd⟩
  · rw [hd]
    cases c with
    | seek entry | next => cases h
    | load id => exact (Dataset.reloaded_load s.dataset id).current
    | _ => rfl
  · exact (Dataset.reloaded_of_reaches hreach).current
  · rw [hd]

/-- What a row has for a node stays until the dataset moves or the source of the node is joined anew. -/
theorem records_apply (hmoves : call.moves = false) (hjoin : ∀ j, call.joined? ≠ some (node.source, j))
    (h : s.dataset.Records id node a) : (s.apply call).state.dataset.Records id node a :=
  h.congr (position_apply hmoves) (current_apply_of_not_moves hmoves) (files_apply s call) (join?_apply hjoin)

theorem records_after (hmoves : ∀ call ∈ calls, call.moves = false)
    (hjoin : ∀ call ∈ calls, ∀ j, call.joined? ≠ some (node.source, j)) (h : s.dataset.Records id node a) :
    (s.after calls).dataset.Records id node a := by
  induction calls generalizing s with
  | nil => exact h
  | cons call calls ih =>
      exact ih (fun c hc => hmoves c (List.mem_cons_of_mem call hc)) (fun c hc => hjoin c (List.mem_cons_of_mem call hc))
        (records_apply (hmoves call List.mem_cons_self) (hjoin call List.mem_cons_self) h)

theorem position_after (h : ∀ call ∈ calls, call.moves = false) :
    (s.after calls).dataset.position = s.dataset.position := by
  induction calls generalizing s with
  | nil => rfl
  | cons call calls ih =>
      rw [after, ih fun c hc => h c (List.mem_cons_of_mem call hc)]
      exact position_apply (h call List.mem_cons_self)

/-- A source that is never joined by an index does not go along by one. -/
theorem join?_after_ne_indexed (hs : ∀ rows, s.dataset.join? source ≠ some (.indexed rows))
    (h : ∀ call ∈ calls, ∀ rows, call.joined? ≠ some (source, .indexed rows)) :
    ∀ rows, (s.after calls).dataset.join? source ≠ some (.indexed rows) := by
  induction calls generalizing s with
  | nil => exact hs
  | cons call calls ih =>
      refine ih ?_ fun c hc => h c (List.mem_cons_of_mem call hc)
      have hcall := h call List.mem_cons_self
      intro rows hrows
      by_cases hj : ∃ j, call.joined? = some (source, j)
      · obtain ⟨j, hj⟩ := hj
        rw [dataset_apply_of_joined? hj, Dataset.join?_join_self] at hrows
        cases hrows
        exact hcall rows hj
      · rw [join?_apply fun j hcall => hj ⟨j, hcall⟩] at hrows
        exact hs rows hrows

/-- What is loaded after a call that does not move was loaded before or is what the row had before. -/
theorem mem_loaded_apply (h : call.moves = false) {l : Loaded} (hl : l ∈ (s.apply call).state.dataset.loaded) :
    l ∈ s.dataset.loaded ∨ s.dataset.rowObject? l.id = some l.object := by
  rcases dataset_apply s call with ⟨c, rfl, hd⟩ | hreach | ⟨r, -, hd⟩
  · rw [hd] at hl
    cases c with
    | seek entry | next => cases h
    | load id => exact Dataset.mem_loaded_of_reaches (.load id .refl) hl
    | _ => exact Or.inl hl
  · exact Dataset.mem_loaded_of_reaches hreach hl
  · rw [hd] at hl
    exact Or.inl hl

/-- From a moment when nothing is loaded, all that is loaded later was on the row at some moment since. -/
theorem records_of_loaded (hs : s.dataset.loaded = []) (h : ∀ call ∈ calls, call.moves = false) {l : Loaded}
    (hl : l ∈ (s.after calls).dataset.loaded) :
    ∃ node earlier later, calls = earlier ++ later ∧ (s.after earlier).dataset.Records l.id node l.object := by
  induction calls using List.reverseRecOn with
  | nil =>
      have hl : l ∈ s.dataset.loaded := hl
      rw [hs] at hl
      cases hl
  | append_singleton calls call ih =>
      have hcall := h call (List.mem_append_right calls (List.mem_singleton_self call))
      rw [after_append] at hl
      rcases mem_loaded_apply hcall hl with hl | hrow
      · obtain ⟨node, earlier, later, hsplit, hrecords⟩ := ih (fun c hc => h c (List.mem_append_left [call] hc)) hl
        exact ⟨node, earlier, later ++ [call], by rw [hsplit, List.append_assoc], hrecords⟩
      · obtain ⟨node, hrecords⟩ := Dataset.records_of_rowObject? hrow
        exact ⟨node, calls, [call], rfl, hrecords⟩

/-- A call that moves seeks some entry. -/
theorem dataset_apply_of_moves (h : call.moves = true) :
    ∃ entry, (s.apply call).state.dataset = (s.dataset.seek entry).1 := by
  cases call with
  | dataset c =>
      cases c with
      | seek entry => exact ⟨entry, rfl⟩
      | next => exact ⟨_, rfl⟩
      | _ => cases h
  | _ => cases h

/-- Calls that neither move nor join leave a dataset that fits its joins so. -/
theorem fitsJoins_apply (hmoves : call.moves = false) (hjoin : call.joined? = none) (h : s.dataset.FitsJoins) :
    (s.apply call).state.dataset.FitsJoins := by
  have hkeeps : ∀ source j, call.joined? ≠ some (source, j) := by
    intro source j hj
    rw [hjoin] at hj
    cases hj
  refine ⟨?_, ?_⟩
  · intro entry row missed hposition
    rw [position_apply hmoves] at hposition
    rw [h.missed entry row missed hposition]
    simp only [Dataset.Misses, Dataset.join?, joins_apply hjoin]
  · intro l hl
    rcases mem_loaded_apply hmoves hl with hl | hrow
    · obtain ⟨node, hrecords⟩ := h.loaded l hl
      exact ⟨node, records_apply hmoves (hkeeps node.source) hrecords⟩
    · obtain ⟨node, hrecords⟩ := Dataset.records_of_rowObject? hrow
      exact ⟨node, records_apply hmoves (hkeeps node.source) hrecords⟩

theorem fitsJoins_after (hmoves : ∀ call ∈ calls, call.moves = false) (hjoin : ∀ call ∈ calls, call.joined? = none)
    (h : s.dataset.FitsJoins) : (s.after calls).dataset.FitsJoins := by
  induction calls generalizing s with
  | nil => exact h
  | cons call calls ih =>
      exact ih (fun c hc => hmoves c (List.mem_cons_of_mem call hc)) (fun c hc => hjoin c (List.mem_cons_of_mem call hc))
        (fitsJoins_apply (hmoves call List.mem_cons_self) (hjoin call List.mem_cons_self) h)

/-- Off the start a dataset has moved, and since the last time it did so it has stayed where it is. -/
theorem exists_last_move (hs : s.dataset.position = .unloaded) (h : (s.after calls).dataset.position ≠ .unloaded) :
    ∃ before move between, calls = before ++ move :: between ∧ move.moves = true ∧
      ∀ call ∈ between, call.moves = false := by
  induction calls using List.reverseRecOn with
  | nil => exact absurd hs h
  | append_singleton calls call ih =>
      cases hmove : call.moves with
      | true => exact ⟨calls, call, [], rfl, hmove, fun _ hc => absurd hc List.not_mem_nil⟩
      | false =>
          rw [after_append] at h
          have h : ((s.after calls).apply call).state.dataset.position ≠ .unloaded := h
          rw [position_apply hmove] at h
          obtain ⟨before, move, between, hsplit, hmoves, hstays⟩ := ih h
          refine ⟨before, move, between ++ [call], by rw [hsplit]; simp, hmoves, ?_⟩
          intro c hc
          rcases List.mem_append.1 hc with hc | hc
          · exact hstays c hc
          · rw [List.mem_singleton.1 hc]
            exact hmove

/-- **On a row the status is what the joins gave when the dataset came to it, and each loaded object is what the row of its
source had at some moment since, and has still if the source was not joined anew; as long as no join is set on the row,
status and objects are what the joins give.** -/
theorem loaded_since_move (identity : RegistryId) (types : Catalog) (settings : Settings) {calls : List SessionCall}
    (hprimary : ∀ call ∈ calls, ∀ rows, call.joined? ≠ some (.primary, .indexed rows))
    (hactive : (((start identity types settings).after calls).dataset.activeRow .primary).isSome = true) :
    let d := ((start identity types settings).after calls).dataset
    ∃ before move between, calls = before ++ move :: between ∧ move.moves = true ∧
      (∀ call ∈ between, call.moves = false) ∧
      let s := (start identity types settings).after (before ++ [move])
      (d.position.status = .indexedJoinNoMatch ↔ s.dataset.Unmatched) ∧
      (d.position.status = .valid ↔ ¬s.dataset.Unmatched) ∧
      (∀ id a, d.object? id = some a → ∃ node earlier later, between = earlier ++ later ∧
        (s.after earlier).dataset.Records id node a ∧
        ((∀ call ∈ later, ∀ j, call.joined? ≠ some (node.source, j)) → d.Records id node a)) ∧
      ((∀ call ∈ between, call.joined? = none) →
        (d.position.status = .indexedJoinNoMatch ↔ d.Unmatched) ∧ (d.position.status = .valid ↔ ¬d.Unmatched) ∧
        ∀ id a, d.object? id = some a → ∃ node, d.Records id node a) := by
  intro d
  have hnone : ∀ rows, d.join? .primary ≠ some (.indexed rows) :=
    join?_after_ne_indexed (fun _ h => nomatch h) hprimary
  obtain ⟨i, hi⟩ := Option.isSome_iff_exists.1 hactive
  obtain ⟨entry, row, missed, hposition⟩ := Dataset.onRow_of_activeRow hi
  have hmoved : d.position ≠ .unloaded := by
    rw [hposition]
    exact nofun
  obtain ⟨before, move, between, rfl, hmove, hstays⟩ :=
    exists_last_move (s := start identity types settings) rfl hmoved
  refine ⟨before, move, between, rfl, hmove, hstays, ?_⟩
  intro s
  have hd : d = (s.after between).dataset := by
    show ((start identity types settings).after (before ++ ([move] ++ between))).dataset = _
    rw [← List.append_assoc, after_append]
  have hstay : d.position = s.dataset.position := by rw [hd, position_after hstays]
  obtain ⟨sought, hseek⟩ := dataset_apply_of_moves (s := (start identity types settings).after before) hmove
  have hs : s.dataset = (((start identity types settings).after before).dataset.seek sought).1 := by
    rw [← hseek]
    exact congrArg Session.dataset (after_append _ before [move])
  have hloaded : s.dataset.loaded = [] := by rw [hs, Dataset.loaded_seek]
  have hfits : s.dataset.FitsJoins := by
    rw [hs]
    exact Dataset.fitsJoins_seek (joinedOnce_after (joinedOnce_start identity types settings) before) sought
  have hstatus := hfits.status
    (join?_after_ne_indexed (fun _ h => nomatch h) fun c hc => hprimary c (by
      rw [List.append_cons]
      exact List.mem_append_left between hc))
    (by rw [Dataset.activeRow, ← hstay, hposition]; rfl)
  rw [← hstay] at hstatus
  refine ⟨hstatus.1, hstatus.2, ?_, fun hkeeps => ?_⟩
  · intro id a ha
    obtain ⟨l, hl, rfl⟩ := Option.map_eq_some_iff.1 ha
    have hid : l.id = id := by simpa using List.find?_some hl
    have hmem : l ∈ (s.after between).dataset.loaded := hd ▸ List.mem_of_find?_eq_some hl
    obtain ⟨node, earlier, later, rfl, hrecords⟩ := records_of_loaded hloaded hstays hmem
    rw [hid] at hrecords
    refine ⟨node, earlier, later, rfl, hrecords, fun hjoin => ?_⟩
    rw [hd, after_append]
    exact records_after (fun c hc => hstays c (List.mem_append_right earlier hc)) hjoin hrecords
  · have hfits : d.FitsJoins := by
      rw [hd]
      exact fitsJoins_after hstays hkeeps hfits
    exact ⟨(hfits.status hnone hactive).1, (hfits.status hnone hactive).2, fun _ _ => hfits.records⟩

end Session

/-- A file of two rows, with a table of one row for a second source. -/
def sideRun : File :=
  ⟨"side", .ofNodes [plainNode "hit" "u32", { plainNode "weight" "u32" with source := ⟨1⟩ }]
    (wellLinked_of_references_eq_nil (by decide +kernel) (by decide)), Arena.empty,
    [⟨[("hit", ⟨0x1000⟩)]⟩, ⟨[("hit", ⟨0x1008⟩)]⟩], [(⟨1⟩, ⟨[("weight", ⟨0x1010⟩)]⟩)]⟩

namespace Session

/-- The second source joined by an index, and its object loaded on the first row. -/
def joinedCalls : List SessionCall :=
  [.dataset (.pushFile sideRun), .dataset (.joinIndexed ⟨1⟩ [some 0]), .dataset .next, .dataset (.load ⟨1⟩)]

/-- The object is the one in the row that the index gives. -/
theorem records_joinedCalls :
    let d := ((start ⟨0⟩ Catalog.builtins ⟨[], 0⟩).after joinedCalls).dataset
    d.object? ⟨1⟩ = some ⟨0x1010⟩ ∧ ¬d.Unmatched ∧ ∃ node, d.Records ⟨1⟩ node ⟨0x1010⟩ := by
  dsimp only
  have hprimary : ∀ call ∈ joinedCalls, ∀ rows, call.joined? ≠ some (.primary, .indexed rows) := by
    simp [joinedCalls, SessionCall.joined?, SourceId.primary]
  obtain ⟨before, move, between, hsplit, hmove, -, -, -, -, hfits⟩ :=
    loaded_since_move ⟨0⟩ Catalog.builtins ⟨[], 0⟩ hprimary rfl
  have hkeeps : ∀ call ∈ between, call.joined? = none := by
    -- Only the third of the calls moves.
    rcases before with _ | ⟨_, _ | ⟨_, _ | ⟨_, _ | ⟨_, before⟩⟩⟩⟩
    · cases hsplit
      cases hmove
    · cases hsplit
      cases hmove
    · cases hsplit
      decide
    · cases hsplit
      cases hmove
    · simp [joinedCalls] at hsplit
  obtain ⟨-, hvalid, hrecords⟩ := hfits hkeeps
  exact ⟨rfl, hvalid.1 rfl, hrecords ⟨1⟩ ⟨0x1010⟩ rfl⟩

/-- The second source joined by an index after its object was loaded. -/
def rejoinedCalls : List SessionCall :=
  [.dataset (.pushFile sideRun), .dataset .next, .dataset (.load ⟨1⟩), .dataset (.joinIndexed ⟨1⟩ [none])]

/-- The index has no row for the entry, but the status tells nothing of it, and the object that was loaded is still
there. -/
theorem stale_rejoinedCalls :
    let d := ((start ⟨0⟩ Catalog.builtins ⟨[], 0⟩).after rejoinedCalls).dataset
    (d.activeRow .primary).isSome = true ∧ d.position.status = .valid ∧ d.Unmatched ∧
      d.object? ⟨1⟩ = some ⟨0x1010⟩ ∧ d.activeRow ⟨1⟩ = none := by
  dsimp only
  exact ⟨rfl, rfl, ⟨⟨1⟩, [none], rfl, rfl⟩, rfl, rfl⟩

end Session

end TypedColumns
