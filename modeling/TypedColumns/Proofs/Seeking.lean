import TypedColumns.Proofs.Currency

/-!
# Seeking

The files of a dataset are read like one long table.  To seek an entry is to look up a row of that table, whichever
files it is made of.

* `HoldsEntry` -- a file holds an entry at one of its rows; exactly one file does so at exactly one row, for every entry
  of the chain (`holdsEntry_of_lt`, `HoldsEntry.unique`), and it is the one that is found (`locateRow_eq_some_iff`).
* `Dataset.rows` -- all rows of the chain, one file after the other.
* `Dataset.JoinedOnce`, `Dataset.Misses` -- every source goes along in one way only; an index has no row for an entry.
* `Dataset.Lands`, `Dataset.Overshoots` -- all that becomes of a dataset when an entry of the chain is sought, and one
  behind its end (`lands_of_holdsEntry`, `overshoots_of_entries_le`).
* `Dataset.standing?` -- the row that a dataset stands on; after seeking it is the one looked up (`standing?_seek`).
* `SessionCall.movesOn`, `SessionCall.seeks`, `SessionCall.moves`, `SessionCall.addsFile`, `SessionCall.joined?` -- what
  calls do to a dataset.  The other calls keep the position, the files and the joins (`position_apply`,
  `files_apply_of_not_addsFile`, `joins_apply`), and all keep every source joined once (`joinedOnce_after`).
-/

namespace TypedColumns

/-! ### The chain as one table -/

/-- A file of a chain holds an entry at one of its rows, after the rows of the files before it. -/
def HoldsEntry (files : List File) (entry file row : Nat) : Prop :=
  ∃ f, files[file]? = some f ∧ row < f.size ∧ entry = totalSize (files.take file) + row

theorem totalSize_cons (f : File) (fs : List File) : totalSize (f :: fs) = f.size + totalSize fs := rfl

theorem locateRow_of_holdsEntry {files : List File} {first entry file row : Nat} (h : HoldsEntry files entry file row) :
    locateRow files first entry = some (first + file, row) := by
  induction files generalizing first entry file with
  | nil =>
      obtain ⟨f, hf, -⟩ := h
      cases hf
  | cons g gs ih =>
      obtain ⟨f, hf, hrow, hentry⟩ := h
      cases file with
      | zero =>
          obtain rfl := Option.some.inj hf
          have hentry : entry = 0 + row := hentry
          rw [Nat.zero_add] at hentry
          rw [locateRow, hentry, if_pos hrow]
          rfl
      | succ file =>
          rw [List.take_succ_cons, totalSize_cons] at hentry
          rw [locateRow, if_neg (by omega), ih ⟨f, hf, hrow, by omega⟩]
          congr 2
          omega

/-- An entry is found in the file that holds it. -/
theorem locateRow_eq_some_iff {files : List File} {entry file row : Nat} :
    locateRow files 0 entry = some (file, row) ↔ HoldsEntry files entry file row := by
  constructor
  · intro h
    obtain ⟨i, f, hfile, hf, hrow, hentry⟩ := locateRow_eq_some h
    rw [Nat.zero_add] at hfile
    subst hfile
    exact ⟨f, hf, hrow, hentry⟩
  · intro h
    rw [locateRow_of_holdsEntry h, Nat.zero_add]

theorem HoldsEntry.unique {files : List File} {entry file row file' row' : Nat} (h : HoldsEntry files entry file row)
    (h' : HoldsEntry files entry file' row') : file' = file ∧ row' = row := by
  rw [← locateRow_eq_some_iff] at h h'
  rw [h] at h'
  cases h'
  exact ⟨rfl, rfl⟩

theorem holdsEntry_of_lt {files : List File} {entry : Nat} (h : entry < totalSize files) :
    ∃ file row, HoldsEntry files entry file row := by
  obtain ⟨⟨file, row⟩, hplace⟩ := Option.isSome_iff_exists.1 ((locateRow_isSome_iff files 0 entry).2 h)
  exact ⟨file, row, locateRow_eq_some_iff.1 hplace⟩

theorem length_flatMap_rows (files : List File) : (files.flatMap File.rows).length = totalSize files := by
  induction files with
  | nil => rfl
  | cons f fs ih =>
      rw [List.flatMap_cons, List.length_append, ih]
      rfl

/-- The row of an entry in the file that holds it is the one that all rows together have there. -/
theorem HoldsEntry.getElem? {files : List File} {entry file row : Nat} (h : HoldsEntry files entry file row) :
    (files.flatMap File.rows)[entry]? = files[file]?.bind (fun f => f.rows[row]?) := by
  induction files generalizing entry file with
  | nil =>
      obtain ⟨f, hf, -⟩ := h
      cases hf
  | cons g gs ih =>
      obtain ⟨f, hf, hrow, hentry⟩ := h
      rw [List.flatMap_cons]
      cases file with
      | zero =>
          obtain rfl := Option.some.inj hf
          have hentry : entry = 0 + row := hentry
          rw [Nat.zero_add] at hentry
          rw [hentry, List.getElem?_append_left hrow]
          rfl
      | succ file =>
          rw [List.take_succ_cons, totalSize_cons] at hentry
          have hge : g.rows.length ≤ entry := by
            show g.size ≤ entry
            omega
          have hrest : HoldsEntry gs (entry - g.rows.length) file row := by
            refine ⟨f, hf, hrow, ?_⟩
            show entry - g.size = _
            omega
          rw [List.getElem?_append_right hge, ih hrest]
          rfl

namespace Position

theorem status_eq_indexedJoinNoMatch_iff {entry : UInt64} {row : Nat} {missed : Bool} :
    (Position.onRow entry row missed).status = .indexedJoinNoMatch ↔ missed = true := by
  cases missed <;> simp [status]

theorem status_eq_valid_iff {entry : UInt64} {row : Nat} {missed : Bool} :
    (Position.onRow entry row missed).status = .valid ↔ missed = false := by
  cases missed <;> simp [status]

end Position

namespace Dataset

variable {d : Dataset} {entry : UInt64} {file row : Nat}

/-- All rows of the chain, one file after the other. -/
def rows (d : Dataset) : List Row := d.files.flatMap File.rows

theorem length_rows (d : Dataset) : d.rows.length = d.entries := length_flatMap_rows d.files

/-! ### Joins -/

/-- Every source goes along in one way only. -/
def JoinedOnce (d : Dataset) : Prop := ∀ p ∈ d.joins, d.join? p.1 = some p.2

/-- Some source goes along by an index that has no row for an entry. -/
def Misses (d : Dataset) (entry : UInt64) : Prop :=
  ∃ source rows, d.join? source = some (.indexed rows) ∧ rows[entry.toNat]?.join = none

theorem join?_join_self (d : Dataset) (source : SourceId) (j : Join) : (d.join source j).join? source = some j :=
  List.lookup_cons_self

theorem join?_join_of_ne {source other : SourceId} (h : other ≠ source) (j : Join) :
    (d.join source j).join? other = d.join? other := by
  have hfilter : ∀ joins : List (SourceId × Join),
      (joins.filter (fun p => p.1 != source)).lookup other = joins.lookup other := by
    intro joins
    induction joins with
    | nil => rfl
    | cons p joins ih =>
        obtain ⟨name, k⟩ := p
        by_cases hname : name = source
        · have hother : (other == name) = false := by simpa [hname] using h
          rw [List.filter_cons_of_neg (by simpa using hname), ih, List.lookup_cons, hother]
        · rw [List.filter_cons_of_pos (by simpa using hname), List.lookup_cons, List.lookup_cons, ih]
  have hother : (other == source) = false := by simpa using h
  show ((source, j) :: d.joins.filter (fun p => p.1 != source)).lookup other = d.joins.lookup other
  rw [List.lookup_cons, hother]
  exact hfilter d.joins

theorem joinedOnce_join (h : d.JoinedOnce) (source : SourceId) (j : Join) : (d.join source j).JoinedOnce := by
  intro p hp
  rcases List.mem_cons.1 hp with rfl | hp
  · exact join?_join_self d source j
  · obtain ⟨hmem, hne⟩ := List.mem_filter.1 hp
    rw [join?_join_of_ne (by simpa using hne)]
    exact h p hmem

/-- A miss among all joins is one of a source as it goes along now. -/
theorem JoinedOnce.any_misses_iff (h : d.JoinedOnce) (entry : UInt64) :
    d.joins.any (fun (_, j) => j.misses entry) = true ↔ d.Misses entry := by
  constructor
  · intro hany
    obtain ⟨⟨source, j⟩, hmem, hmiss⟩ := List.any_eq_true.1 hany
    cases j with
    | aligned => cases hmiss
    | indexed rows => exact ⟨source, rows, h _ hmem, Option.isNone_iff_eq_none.1 hmiss⟩
  · rintro ⟨source, rows, hjoin, hnone⟩
    obtain ⟨before, after, hjoins, -⟩ := List.lookup_eq_some_iff.1 hjoin
    refine List.any_eq_true.2 ⟨(source, .indexed rows), ?_, Option.isNone_iff_eq_none.2 hnone⟩
    rw [hjoins]
    exact List.mem_append_right before List.mem_cons_self

theorem JoinedOnce.congr {e : Dataset} (h : d.JoinedOnce) (hjoins : e.joins = d.joins) : e.JoinedOnce := by
  rw [JoinedOnce, hjoins]
  intro p hp
  rw [join?, hjoins]
  exact h p hp

/-! ### Seeking an entry -/

theorem joins_seek (d : Dataset) (entry : UInt64) : (d.seek entry).1.joins = d.joins := by
  rcases seek_cases d entry with h | ⟨row, -, h⟩ | ⟨file, row, -, -, h⟩
  · rw [h]
  · rw [h, wire_eq]
  · rw [h, wire_eq]
    rfl

theorem seek_of_none (h : locateRow d.files 0 entry.toNat = none) :
    (d.seek entry).1 = { d with loaded := [], position := .beyond entry } := by
  simp only [seek, h]

theorem seek_of_current (h : locateRow d.files 0 entry.toNat = some (d.current, row)) :
    (d.seek entry).1 = { ({ d with loaded := [] } : Dataset).wire with
      position := .onRow entry row (d.joins.any (fun (_, j) => j.misses entry)) } := by
  simp [seek, h]

theorem seek_of_ne (h : locateRow d.files 0 entry.toNat = some (file, row)) (hfile : file ≠ d.current) :
    (d.seek entry).1 = { (({ d with loaded := [] } : Dataset).switchTo file).1.wire with
      position := .onRow entry row (d.joins.any (fun (_, j) => j.misses entry)) } := by
  simp only [seek, h, ne_eq, hfile, not_false_eq_true, if_true]
  rfl

/-- What becomes of a dataset when an entry of its chain is sought: it stands on the row of that entry, with nothing
loaded, and the generation counts whether that is in another file. -/
structure Lands (d : Dataset) (entry : UInt64) (file row : Nat) : Prop where
  holds : HoldsEntry d.files entry.toNat file row
  unique : ∀ i r, HoldsEntry d.files entry.toNat i r → i = file ∧ r = row
  files : (d.seek entry).1.files = d.files
  current : (d.seek entry).1.current = file
  onRow : ∃ missed, (d.seek entry).1.position = .onRow entry row missed
  entry? : (d.seek entry).1.position.entry? = some entry
  activeRow : (d.seek entry).1.activeRow .primary = some entry
  loaded : (d.seek entry).1.loaded = []
  generation : (d.seek entry).1.registry.generation =
    if file = d.current then d.registry.generation else d.registry.generation.next
  missed : (d.seek entry).1.position.status = .indexedJoinNoMatch ↔ d.Misses entry
  valid : (d.seek entry).1.position.status = .valid ↔ ¬d.Misses entry

/-- What becomes of a dataset when an entry behind its end is sought: no source has a row, and the file stays. -/
structure Overshoots (d : Dataset) (entry : UInt64) : Prop where
  status : (d.seek entry).1.position.status = .beyondEnd
  entry? : (d.seek entry).1.position.entry? = some entry
  activeRow : ∀ source, (d.seek entry).1.activeRow source = none
  files : (d.seek entry).1.files = d.files
  current : (d.seek entry).1.current = d.current
  loaded : (d.seek entry).1.loaded = []
  generation : (d.seek entry).1.registry.generation = d.registry.generation

theorem lands_of_holdsEntry (hd : d.JoinedOnce) (h : HoldsEntry d.files entry.toNat file row) :
    d.Lands entry file row := by
  have hplace : (d.seek entry).1.current = file ∧
      (d.seek entry).1.position = .onRow entry row (d.joins.any (fun (_, j) => j.misses entry)) ∧
      (d.seek entry).1.registry.generation =
        if file = d.current then d.registry.generation else d.registry.generation.next := by
    by_cases hfile : file = d.current
    · subst hfile
      rw [seek_of_current (locateRow_eq_some_iff.2 h), wire_eq, if_pos rfl]
      exact ⟨rfl, rfl, rfl⟩
    · rw [seek_of_ne (locateRow_eq_some_iff.2 h) hfile, wire_eq, if_neg hfile]
      exact ⟨rfl, rfl, rfl⟩
  obtain ⟨hcurrent, hposition, hgeneration⟩ := hplace
  have hmisses := hd.any_misses_iff entry
  refine ⟨h, fun i r hir => h.unique hir, files_seek d entry, hcurrent, ⟨_, hposition⟩, entry?_seek d entry, ?_,
    loaded_seek d entry, hgeneration, ?_, ?_⟩
  · rw [activeRow, hposition]
    rfl
  · rw [hposition, Position.status_eq_indexedJoinNoMatch_iff, hmisses]
  · rw [hposition, Position.status_eq_valid_iff, ← hmisses, Bool.not_eq_true]

theorem overshoots_of_entries_le (h : d.entries ≤ entry.toNat) : d.Overshoots entry := by
  have hnone : locateRow d.files 0 entry.toNat = none := by
    rw [← Option.not_isSome_iff_eq_none, locateRow_isSome_iff]
    exact Nat.not_lt.2 h
  have hseek := seek_of_none hnone
  refine ⟨?_, entry?_seek d entry, ?_, files_seek d entry, ?_, loaded_seek d entry, ?_⟩
  · rw [hseek]
    rfl
  · intro source
    rw [hseek]
    rfl
  · rw [hseek]
  · rw [hseek]

/-- A dataset stands behind its end after seeking exactly when the entry does. -/
theorem status_seek_eq_beyondEnd_iff (d : Dataset) (entry : UInt64) :
    (d.seek entry).1.position.status = .beyondEnd ↔ d.entries ≤ entry.toNat := by
  constructor
  · intro hstatus
    refine Nat.not_lt.1 fun hlt => ?_
    obtain ⟨⟨file, row⟩, hplace⟩ := Option.isSome_iff_exists.1 ((locateRow_isSome_iff d.files 0 entry.toNat).2 hlt)
    have honRow : ∃ missed, (d.seek entry).1.position = .onRow entry row missed := by
      by_cases hfile : file = d.current
      · subst hfile
        exact ⟨_, by rw [seek_of_current hplace]⟩
      · exact ⟨_, by rw [seek_of_ne hplace hfile]⟩
    obtain ⟨missed, hposition⟩ := honRow
    rw [hposition] at hstatus
    cases missed <;> cases hstatus
  · exact fun hle => (overshoots_of_entries_le hle).status

/-- The entry after the one that was sought is the next one, unless it was the highest. -/
theorem toNat_nextEntry_seek (d : Dataset) (entry : UInt64) :
    (d.seek entry).1.nextEntry.toNat = min (entry.toNat + 1) (2 ^ 64 - 1) := by
  rw [nextEntry, entry?_seek]
  have hlt := entry.toNat_lt
  by_cases hmax : entry = 0xFFFFFFFFFFFFFFFF
  · subst hmax
    rfl
  · have hne : entry.toNat ≠ 0xFFFFFFFFFFFFFFFF := fun h => hmax (UInt64.toNat_inj.1 h)
    have hone : (1 : UInt64).toNat = 1 := rfl
    simp only [hmax, if_false]
    rw [UInt64.toNat_add]
    omega

/-- The row that a dataset stands on, with its entry. -/
def standing? (d : Dataset) : Option (Row × Nat) :=
  (d.sourceRow? .primary).bind fun row => (d.activeRow .primary).map fun entry => (row, entry.toNat)

/-- To seek an entry is to look up a row of the whole table. -/
theorem standing?_seek (hd : d.JoinedOnce) (entry : UInt64) :
    (d.seek entry).1.standing? = d.rows.zipIdx[entry.toNat]? := by
  rw [List.getElem?_zipIdx, Nat.zero_add]
  by_cases hlt : entry.toNat < d.entries
  · obtain ⟨file, row, hplace⟩ := holdsEntry_of_lt hlt
    have hland := lands_of_holdsEntry hd hplace
    obtain ⟨missed, hposition⟩ := hland.onRow
    have hsource : (d.seek entry).1.sourceRow? .primary = d.rows[entry.toNat]? := by
      obtain ⟨f, hf, -, -⟩ := hplace
      have hfile : (d.seek entry).1.file? = some f := by rw [file?, hland.files, hland.current, hf]
      rw [rows, hland.holds.getElem?, hf]
      simp only [sourceRow?, hfile, hposition]
      rfl
    rw [standing?, hsource, hland.activeRow]
    cases d.rows[entry.toNat]? <;> rfl
  · have hover := overshoots_of_entries_le (Nat.not_lt.1 hlt)
    have hnone : d.rows[entry.toNat]? = none := by
      rw [List.getElem?_eq_none_iff, length_rows]
      exact Nat.not_lt.1 hlt
    rw [standing?, hover.activeRow, hnone]
    cases (d.seek entry).1.sourceRow? .primary <;> rfl

end Dataset

/-! ### Moving on, call by call -/

namespace SessionCall

/-- Whether a call moves on to the next entry. -/
def movesOn : SessionCall → Bool
  | .dataset .next => true
  | _ => false

/-- Whether a call seeks an entry of the client's choice. -/
def seeks : SessionCall → Bool
  | .dataset (.seek _) => true
  | _ => false

/-- Whether a call moves to another entry at all. -/
def moves (call : SessionCall) : Bool := call.movesOn || call.seeks

/-- Whether a call adds a file to the chain. -/
def addsFile : SessionCall → Bool
  | .dataset (.pushFile _) => true
  | _ => false

/-- The join that a call sets, with its source. -/
def joined? : SessionCall → Option (SourceId × Join)
  | .dataset (.joinAligned source) => some (source, .aligned)
  | .dataset (.joinIndexed source rows) => some (source, .indexed rows)
  | _ => none

theorem eq_next_of_movesOn {call : SessionCall} (h : call.movesOn = true) : call = .dataset .next := by
  cases call with
  | dataset c =>
      cases c with
      | next => rfl
      | _ => cases h
  | _ => cases h

theorem moves_eq_false_iff {call : SessionCall} : call.moves = false ↔ call.movesOn = false ∧ call.seeks = false :=
  Bool.or_eq_false_iff

end SessionCall

namespace Session

variable {s : Session} {call : SessionCall} {calls : List SessionCall}

theorem dataset_apply_of_joined? {source : SourceId} {j : Join} (h : call.joined? = some (source, j)) :
    (s.apply call).state.dataset = s.dataset.join source j := by
  cases call with
  | dataset c =>
      cases c with
      | joinAligned _ | joinIndexed _ _ =>
          cases h
          rfl
      | _ => cases h
  | _ => cases h

/-- A call that sets no join keeps the joins. -/
theorem joins_apply (h : call.joined? = none) : (s.apply call).state.dataset.joins = s.dataset.joins := by
  rcases dataset_apply s call with ⟨c, rfl, hd⟩ | hreach | ⟨r, -, hd⟩
  · rw [hd]
    cases c with
    | joinAligned _ | joinIndexed _ _ => cases h
    | seek entry => exact Dataset.joins_seek _ _
    | next => exact Dataset.joins_seek _ _
    | load id =>
        show (s.dataset.load id).2.joins = s.dataset.joins
        rw [(Dataset.reloaded_load s.dataset id).eq]
    | _ => rfl
  · rw [(Dataset.reloaded_of_reaches hreach).eq]
  · rw [hd]

theorem joinedOnce_apply (h : s.dataset.JoinedOnce) (call : SessionCall) : (s.apply call).state.dataset.JoinedOnce := by
  cases hj : call.joined? with
  | none => exact h.congr (joins_apply hj)
  | some p =>
      obtain ⟨source, j⟩ := p
      rw [dataset_apply_of_joined? hj]
      exact Dataset.joinedOnce_join h source j

theorem joinedOnce_after (h : s.dataset.JoinedOnce) (calls : List SessionCall) :
    (s.after calls).dataset.JoinedOnce := by
  induction calls generalizing s with
  | nil => exact h
  | cons call calls ih => exact ih (joinedOnce_apply h call)

theorem joinedOnce_start (identity : RegistryId) (types : Catalog) (settings : Settings) :
    (start identity types settings).dataset.JoinedOnce :=
  fun _ h => absurd h List.not_mem_nil

/-- Only a call that adds a file changes the chain. -/
theorem files_apply_of_not_addsFile (h : call.addsFile = false) :
    (s.apply call).state.dataset.files = s.dataset.files := by
  rcases dataset_apply s call with ⟨c, rfl, hd⟩ | hreach | ⟨r, -, hd⟩
  · rw [hd]
    cases c with
    | pushFile file => cases h
    | seek entry => exact Dataset.files_seek _ _
    | next => exact Dataset.files_seek _ _
    | load id => exact (Dataset.reloaded_load s.dataset id).files
    | _ => rfl
  · exact (Dataset.reloaded_of_reaches hreach).files
  · rw [hd]

theorem files_after_of_not_addsFile (h : ∀ call ∈ calls, call.addsFile = false) :
    (s.after calls).dataset.files = s.dataset.files := by
  induction calls generalizing s with
  | nil => rfl
  | cons call calls ih =>
      rw [after, ih fun c hc => h c (List.mem_cons_of_mem call hc)]
      exact files_apply_of_not_addsFile (h call List.mem_cons_self)

/-- Only a call that moves changes the position. -/
theorem position_apply (h : call.moves = false) :
    (s.apply call).state.dataset.position = s.dataset.position := by
  rcases dataset_apply s call with ⟨c, rfl, hd⟩ | hreach | ⟨r, -, hd⟩
  · rw [hd]
    cases c with
    | seek entry => cases h
    | next => cases h
    | load id => exact (Dataset.reloaded_load s.dataset id).position
    | _ => rfl
  · exact (Dataset.reloaded_of_reaches hreach).position
  · rw [hd]

end Session

end TypedColumns
