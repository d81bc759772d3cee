import Mathlib.Data.List.Induction
import TypedColumns.Proofs.Seeking

/-!
# Going through a chain

A client that moves on from entry to entry goes through all rows of a dataset from the start.  Files can be added
meanwhile.  What the client tried last counts, also where there was no row: after it has come behind the end it goes on
from there, and the rows that are added in its back are passed over.

* `Session.visits` -- the rows that a client comes to by moving on.
* `Session.toNat_nextEntry_after`, `Session.visits_append_next_of_unloaded` -- one more step goes to the entry after those
  that were tried before.
* `Session.visits_sublist` -- the rows that a client comes to are rows of the chain in their order, none of them twice.
* `Session.visits_append_replicate` -- once nothing is added any more, it comes to all rows after those it has tried.
* `Session.KeepsUp`, `Session.GrowsInTime` -- the client has come to each row that it has tried; no row is added while it
  is behind the end.  The one is so exactly when the other is (`KeepsUp.next_iff`, `KeepsUp.push_iff`,
  `keepsUp_iff_growsInTime`).
* `Session.seek_reaches` -- where every entry of a chain is found, and that moving on comes to every row once.
* `Session.visits_growing` -- no row is passed over exactly when none is added while the client is behind the end.
* `Session.visits_lateCalls` -- a row that is added then, and that no further step comes to.
-/

namespace TypedColumns

namespace SessionCall

theorem eq_pushFile_of_addsFile {call : SessionCall} (h : call.addsFile = true) :
    ∃ f, call = .dataset (.pushFile f) := by
  cases call with
  | dataset c =>
      cases c with
      | pushFile f => exact ⟨f, rfl⟩
      | _ => cases h
  | _ => cases h

/-- A call moves on, adds a file, or does neither. -/
theorem movesOn_or_addsFile (call : SessionCall) : call = .dataset .next ∨ (∃ f, call = .dataset (.pushFile f)) ∨
    (call.movesOn = false ∧ call.addsFile = false) := by
  cases hnext : call.movesOn with
  | true => exact Or.inl (eq_next_of_movesOn hnext)
  | false =>
      cases hadds : call.addsFile with
      | true => exact Or.inr (Or.inl (eq_pushFile_of_addsFile hadds))
      | false => exact Or.inr (Or.inr ⟨rfl, rfl⟩)

end SessionCall

namespace Session

variable {s : Session} {call : SessionCall} {calls : List SessionCall}

/-! ### Moving on, step by step -/

/-- The rows that a client comes to by moving on, each with its entry. -/
def visits (s : Session) : List SessionCall → List (Row × Nat)
  | [] => []
  | call :: calls =>
    (if call.movesOn then (s.apply call).state.dataset.standing?.toList else []) ++ (s.apply call).state.visits calls

theorem visits_append (s : Session) (calls more : List SessionCall) :
    s.visits (calls ++ more) = s.visits calls ++ (s.after calls).visits more := by
  induction calls generalizing s with
  | nil => rfl
  | cons call calls ih =>
      simp only [List.cons_append, visits, after]
      rw [ih, List.append_assoc]

theorem visits_append_of_not_movesOn (h : call.movesOn = false) : s.visits (calls ++ [call]) = s.visits calls := by
  rw [visits_append, visits, h]
  exact List.append_nil _

/-- One more step comes to the next row of the whole table, if there is one. -/
theorem visits_append_next (hs : s.dataset.JoinedOnce) (calls : List SessionCall) :
    s.visits (calls ++ [.dataset .next]) =
      s.visits calls ++ (s.after calls).dataset.rows.zipIdx[(s.after calls).dataset.nextEntry.toNat]?.toList := by
  rw [visits_append, visits, visits, List.append_nil]
  show _ ++ ((s.after calls).dataset.seek (s.after calls).dataset.nextEntry).1.standing?.toList = _
  rw [Dataset.standing?_seek (joinedOnce_after hs calls)]

/-- Who never seeks has next the entry after as many as were tried before. -/
theorem toNat_nextEntry_after (hs : s.dataset.position = .unloaded) (h : ∀ call ∈ calls, call.seeks = false) :
    (s.after calls).dataset.nextEntry.toNat = min (calls.countP SessionCall.movesOn) (2 ^ 64 - 1) := by
  induction calls using List.reverseRecOn with
  | nil =>
      show s.dataset.nextEntry.toNat = _
      rw [Dataset.nextEntry, hs]
      rfl
  | append_singleton calls call ih =>
      have ih := ih fun c hc => h c (List.mem_append_left [call] hc)
      rw [after_append, List.countP_append]
      show ((s.after calls).apply call).state.dataset.nextEntry.toNat = _
      cases hnext : call.movesOn with
      | true =>
          obtain rfl := SessionCall.eq_next_of_movesOn hnext
          show ((s.after calls).dataset.seek _).1.nextEntry.toNat = min (_ + 1) _
          rw [Dataset.toNat_nextEntry_seek, ih]
          omega
      | false =>
          have hcall := h call (List.mem_append_right calls (List.mem_singleton_self call))
          rw [Dataset.nextEntry, position_apply (SessionCall.moves_eq_false_iff.2 ⟨hnext, hcall⟩)]
          simp only [List.countP_singleton, hnext]
          exact ih

/-- Counted as numbers, the next entry is behind the end exactly when more were tried than there are. -/
theorem entries_le_nextEntry_iff (hs : s.dataset.position = .unloaded) (h : ∀ call ∈ calls, call.seeks = false)
    (hsize : (s.after calls).dataset.entries < 2 ^ 64) :
    (s.after calls).dataset.entries ≤ (s.after calls).dataset.nextEntry.toNat ↔
      (s.after calls).dataset.entries ≤ calls.countP SessionCall.movesOn := by
  rw [toNat_nextEntry_after hs h]
  omega

/-- One more step comes to the row after as many as were tried before. -/
theorem visits_append_next_of_unloaded (hs : s.dataset.position = .unloaded) (hjoins : s.dataset.JoinedOnce)
    (h : ∀ call ∈ calls, call.seeks = false) (hsize : (s.after calls).dataset.entries < 2 ^ 64) :
    s.visits (calls ++ [.dataset .next]) =
      s.visits calls ++ (s.after calls).dataset.rows.zipIdx[calls.countP SessionCall.movesOn]?.toList := by
  rw [visits_append_next hjoins, toNat_nextEntry_after hs h]
  by_cases hlt : calls.countP SessionCall.movesOn < 2 ^ 64
  · rw [Nat.min_eq_left (by omega)]
  · -- The count is behind the highest entry, where no row can be.
    have hnone : ∀ n, 2 ^ 64 - 1 ≤ n → (s.after calls).dataset.rows.zipIdx[n]? = none := by
      intro n hn
      rw [List.getElem?_eq_none_iff, List.length_zipIdx, Dataset.length_rows]
      omega
    rw [hnone _ (by omega), hnone _ (by omega)]

/-- After a step a dataset stands behind its end exactly when as many entries were tried before as there are. -/
theorem status_after_next_iff (hs : s.dataset.position = .unloaded) (h : ∀ call ∈ calls, call.seeks = false)
    (hsize : (s.after calls).dataset.entries < 2 ^ 64) :
    (s.after (calls ++ [.dataset .next])).dataset.position.status = .beyondEnd ↔
      (s.after calls).dataset.entries ≤ calls.countP SessionCall.movesOn := by
  rw [after_append, ← entries_le_nextEntry_iff hs h hsize]
  exact Dataset.status_seek_eq_beyondEnd_iff _ _

/-! ### The chain along a run -/

theorem rows_append_pushFile (s : Session) (calls : List SessionCall) (f : File) :
    (s.after (calls ++ [.dataset (.pushFile f)])).dataset.rows = (s.after calls).dataset.rows ++ f.rows := by
  rw [after_append]
  show ((s.after calls).dataset.files ++ [f]).flatMap File.rows = _
  rw [List.flatMap_append, List.flatMap_singleton]
  rfl

theorem rows_append_of_not_addsFile (h : call.addsFile = false) :
    (s.after (calls ++ [call])).dataset.rows = (s.after calls).dataset.rows := by
  rw [after_append]
  exact congrArg (List.flatMap File.rows) (files_apply_of_not_addsFile h)

theorem entries_append_pushFile (s : Session) (calls : List SessionCall) (f : File) :
    (s.after (calls ++ [.dataset (.pushFile f)])).dataset.entries = (s.after calls).dataset.entries + f.rows.length := by
  rw [← Dataset.length_rows, rows_append_pushFile, List.length_append, Dataset.length_rows]

theorem entries_append_of_not_addsFile (h : call.addsFile = false) :
    (s.after (calls ++ [call])).dataset.entries = (s.after calls).dataset.entries := by
  rw [← Dataset.length_rows, rows_append_of_not_addsFile h, Dataset.length_rows]

/-- A chain never shrinks. -/
theorem entries_le_append (s : Session) (calls : List SessionCall) (call : SessionCall) :
    (s.after calls).dataset.entries ≤ (s.after (calls ++ [call])).dataset.entries := by
  cases hadds : call.addsFile with
  | true =>
      obtain ⟨f, rfl⟩ := SessionCall.eq_pushFile_of_addsFile hadds
      rw [entries_append_pushFile]
      exact Nat.le_add_right _ _
  | false => exact Nat.le_of_eq (entries_append_of_not_addsFile hadds).symm

theorem position_append_of_not_moves (h : call.moves = false) :
    (s.after (calls ++ [call])).dataset.position = (s.after calls).dataset.position := by
  rw [after_append]
  exact position_apply h

/-! ### The rows that a client comes to -/

section Client

variable (hs : s.dataset.position = .unloaded) (hjoins : s.dataset.JoinedOnce)
include hs hjoins

/-- A client that never seeks comes to rows that it has tried, in their order and none of them twice. -/
theorem visits_sublist (hseeks : ∀ call ∈ calls, call.seeks = false)
    (hsize : (s.after calls).dataset.entries < 2 ^ 64) :
    (s.visits calls).Sublist ((s.after calls).dataset.rows.zipIdx.take (calls.countP SessionCall.movesOn)) := by
  induction calls using List.reverseRecOn with
  | nil => exact List.nil_sublist _
  | append_singleton calls call ih =>
      have hbefore : ∀ c ∈ calls, c.seeks = false := fun c hc => hseeks c (List.mem_append_left [call] hc)
      have hsize' := Nat.lt_of_le_of_lt (entries_le_append s calls call) hsize
      have ih := ih hbefore hsize'
      rw [List.countP_append]
      rcases call.movesOn_or_addsFile with rfl | ⟨f, rfl⟩ | ⟨hnext, hadds⟩
      · rw [visits_append_next_of_unloaded hs hjoins hbefore hsize', rows_append_of_not_addsFile rfl]
        show List.Sublist _ (List.take (_ + 1) _)
        rw [List.take_add_one]
        exact ih.append (List.Sublist.refl _)
      · rw [visits_append_of_not_movesOn rfl, rows_append_pushFile, List.zipIdx_append]
        show List.Sublist _ (List.take (_ + 0) _)
        rw [Nat.add_zero, List.take_append]
        exact ih.trans (List.sublist_append_left _ _)
      · rw [visits_append_of_not_movesOn hnext, rows_append_of_not_addsFile hadds, List.countP_singleton, hnext]
        exact ih

/-- When nothing is added any more, a client comes to all rows after those that it has tried. -/
theorem visits_append_replicate (hseeks : ∀ call ∈ calls, call.seeks = false)
    (hsize : (s.after calls).dataset.entries < 2 ^ 64) (n : Nat) :
    (s.after (calls ++ List.replicate n (.dataset .next))).dataset.rows = (s.after calls).dataset.rows ∧
      s.visits (calls ++ List.replicate n (.dataset .next)) =
        s.visits calls ++ ((s.after calls).dataset.rows.zipIdx.drop (calls.countP SessionCall.movesOn)).take n := by
  induction n with
  | zero =>
      rw [List.replicate_zero, List.append_nil, List.take_zero, List.append_nil]
      exact ⟨rfl, rfl⟩
  | succ n ih =>
      obtain ⟨hrows, hvisits⟩ := ih
      have hmore : ∀ c ∈ calls ++ List.replicate n (.dataset .next), c.seeks = false := by
        intro c hc
        rcases List.mem_append.1 hc with hc | hc
        · exact hseeks c hc
        · rw [List.eq_of_mem_replicate hc]
          rfl
      have hcount : (calls ++ List.replicate n (SessionCall.dataset .next)).countP SessionCall.movesOn =
          calls.countP SessionCall.movesOn + n := by
        rw [List.countP_append, List.countP_replicate]
        rfl
      rw [List.replicate_succ', ← List.append_assoc, rows_append_of_not_addsFile rfl]
      refine ⟨hrows, ?_⟩
      have hentries : (s.after (calls ++ List.replicate n (.dataset .next))).dataset.entries =
          (s.after calls).dataset.entries := by rw [← Dataset.length_rows, hrows, Dataset.length_rows]
      rw [visits_append_next_of_unloaded hs hjoins hmore (by rw [hentries]; exact hsize), hrows, hvisits, hcount,
        List.take_add_one, List.getElem?_drop, List.append_assoc]

end Client

/-! ### Keeping up with the chain -/

/-- A client has come to each row that it has tried. -/
def KeepsUp (s : Session) (calls : List SessionCall) : Prop :=
  s.visits calls = (s.after calls).dataset.rows.zipIdx.take (calls.countP SessionCall.movesOn)

/-- A call that neither moves on nor adds a file makes no difference to a client. -/
theorem keepsUp_append_iff (hnext : call.movesOn = false) (hadds : call.addsFile = false) :
    s.KeepsUp (calls ++ [call]) ↔ s.KeepsUp calls := by
  rw [KeepsUp, visits_append_of_not_movesOn hnext, rows_append_of_not_addsFile hadds, List.countP_append,
    List.countP_singleton, hnext]
  rfl

/-- No row is added while the dataset stands behind its end. -/
def GrowsInTime (s : Session) : List SessionCall → Prop
  | [] => True
  | call :: calls =>
    (∀ f, call = .dataset (.pushFile f) → s.dataset.position.status = .beyondEnd → f.rows = []) ∧
      (s.apply call).state.GrowsInTime calls

theorem growsInTime_append (s : Session) (calls more : List SessionCall) :
    s.GrowsInTime (calls ++ more) ↔ s.GrowsInTime calls ∧ (s.after calls).GrowsInTime more := by
  induction calls generalizing s with
  | nil => exact (and_iff_right trivial).symm
  | cons call calls ih =>
      rw [List.cons_append, GrowsInTime, ih, GrowsInTime, and_assoc]
      rfl

theorem growsInTime_of_not_addsFile (h : ∀ call ∈ calls, call.addsFile = false) : s.GrowsInTime calls := by
  induction calls generalizing s with
  | nil => trivial
  | cons call calls ih =>
      refine ⟨?_, ih fun c hc => h c (List.mem_cons_of_mem call hc)⟩
      rintro f rfl
      cases h _ List.mem_cons_self

theorem growsInTime_append_of_not_addsFile (h : call.addsFile = false) :
    s.GrowsInTime (calls ++ [call]) ↔ s.GrowsInTime calls := by
  rw [growsInTime_append]
  refine and_iff_left (growsInTime_of_not_addsFile fun c hc => ?_)
  rw [List.mem_singleton.1 hc]
  exact h

section Client

variable (hs : s.dataset.position = .unloaded) (hjoins : s.dataset.JoinedOnce)
  (hseeks : ∀ call ∈ calls, call.seeks = false) (hsize : (s.after calls).dataset.entries < 2 ^ 64)
include hs hjoins hseeks hsize

theorem KeepsUp.next_iff : s.KeepsUp (calls ++ [.dataset .next]) ↔ s.KeepsUp calls := by
  rw [KeepsUp, visits_append_next_of_unloaded hs hjoins hseeks hsize, rows_append_of_not_addsFile rfl, List.countP_append]
  show _ = List.take (_ + 1) _ ↔ _
  rw [List.take_add_one, List.append_left_inj]
  rfl

/-- Adding rows leaves a client behind exactly when it has tried more entries than there were. -/
theorem KeepsUp.push_iff (f : File) :
    s.KeepsUp (calls ++ [.dataset (.pushFile f)]) ↔
      s.KeepsUp calls ∧ (calls.countP SessionCall.movesOn ≤ (s.after calls).dataset.entries ∨ f.rows = []) := by
  have hsub := visits_sublist hs hjoins hseeks hsize
  have hpast : ((f.rows.zipIdx (s.after calls).dataset.rows.length).take
        (calls.countP SessionCall.movesOn - (s.after calls).dataset.rows.length)) = [] ↔
      (calls.countP SessionCall.movesOn ≤ (s.after calls).dataset.entries ∨ f.rows = []) := by
    rw [List.take_eq_nil_iff, List.zipIdx_eq_nil_iff, Dataset.length_rows, Nat.sub_eq_zero_iff_le]
  rw [KeepsUp, visits_append_of_not_movesOn rfl, rows_append_pushFile, List.countP_append]
  show _ = List.take (_ + 0) _ ↔ _
  rw [Nat.add_zero, List.zipIdx_append, List.take_append, List.length_zipIdx, Nat.zero_add, ← hpast, KeepsUp]
  constructor
  · intro h
    -- The client has come to none of the new rows, so these can be none that it has tried.
    have hlength := hsub.length_le
    rw [h, List.length_append] at hlength
    have hnil := List.eq_nil_of_length_eq_zero (Nat.le_zero.1 (Nat.le_of_add_le_add_left hlength))
    rw [hnil, List.append_nil] at h
    exact ⟨h, hnil⟩
  · rintro ⟨h, hnil⟩
    rw [h, hnil, List.append_nil]

end Client

/-- A client keeps up exactly when no row is added while it is behind the end; and as long as it does, it is behind the
end exactly when it has tried more entries than there are. -/
theorem keepsUp_iff_growsInTime (hs : s.dataset.position = .unloaded) (hjoins : s.dataset.JoinedOnce)
    (hseeks : ∀ call ∈ calls, call.seeks = false) (hsize : (s.after calls).dataset.entries < 2 ^ 64) :
    (s.KeepsUp calls ↔ s.GrowsInTime calls) ∧
      (s.KeepsUp calls → ((s.after calls).dataset.position.status = .beyondEnd ↔
        (s.after calls).dataset.entries < calls.countP SessionCall.movesOn)) := by
  induction calls using List.reverseRecOn with
  | nil =>
      refine ⟨⟨fun _ => trivial, fun _ => rfl⟩, fun _ => ?_⟩
      show s.dataset.position.status = .beyondEnd ↔ s.dataset.entries < 0
      rw [hs]
      exact ⟨fun h => (nomatch h), fun h => absurd h (Nat.not_lt_zero _)⟩
  | append_singleton calls call ih =>
      have hbefore : ∀ c ∈ calls, c.seeks = false := fun c hc => hseeks c (List.mem_append_left [call] hc)
      have hsize' := Nat.lt_of_le_of_lt (entries_le_append s calls call) hsize
      obtain ⟨ihkeeps, ihstatus⟩ := ih hbefore hsize'
      rcases call.movesOn_or_addsFile with rfl | ⟨f, rfl⟩ | ⟨hnext, hadds⟩
      · refine ⟨?_, fun _ => ?_⟩
        · rw [KeepsUp.next_iff hs hjoins hbefore hsize', ihkeeps, growsInTime_append_of_not_addsFile rfl]
        · rw [status_after_next_iff hs hbefore hsize', entries_append_of_not_addsFile rfl, List.countP_append]
          exact Nat.lt_succ_iff.symm
      · have hpush := KeepsUp.push_iff hs hjoins hbefore hsize' f
        refine ⟨?_, fun h => ?_⟩
        · rw [hpush, growsInTime_append, ← ihkeeps]
          refine and_congr_right fun hkeeps => ?_
          have hstatus := ihstatus hkeeps
          constructor
          · rintro (hle | hnil)
            · refine ⟨fun g hg hbeyond => ?_, trivial⟩
              have hlt := hstatus.1 hbeyond
              omega
            · refine ⟨fun g hg _ => ?_, trivial⟩
              cases hg
              exact hnil
          · rintro ⟨hgrows, -⟩
            by_cases hle : calls.countP SessionCall.movesOn ≤ (s.after calls).dataset.entries
            · exact Or.inl hle
            · exact Or.inr (hgrows f rfl (hstatus.2 (by omega)))
        · obtain ⟨hkeeps, hroom⟩ := hpush.1 h
          rw [position_append_of_not_moves rfl, ihstatus hkeeps, entries_append_pushFile, List.countP_append]
          show _ ↔ _ < _ + 0
          rcases hroom with hle | hnil
          · omega
          · rw [hnil]
            rfl
      · have hkeeps : s.KeepsUp (calls ++ [call]) ↔ s.KeepsUp calls := keepsUp_append_iff hnext hadds
        have hcall := hseeks call (List.mem_append_right calls (List.mem_singleton_self call))
        refine ⟨?_, fun h => ?_⟩
        · rw [hkeeps, ihkeeps, growsInTime_append_of_not_addsFile hadds]
        · rw [position_append_of_not_moves (SessionCall.moves_eq_false_iff.2 ⟨hnext, hcall⟩),
            entries_append_of_not_addsFile hadds, List.countP_append, List.countP_singleton, hnext]
          exact ihstatus (hkeeps.1 h)

/-! ### Going through a chain -/

/-- **Seeking an entry of the chain goes to the one row that holds it, and seeking one behind the end goes nowhere;
moving on from the start comes to all rows of the chain once each, in order, and then stays behind the end.**  The
files may be of any length, and anything may have been called before. -/
theorem seek_reaches (identity : RegistryId) (types : Catalog) (settings : Settings) (calls : List SessionCall) :
    let s := (start identity types settings).after calls
    (∀ entry : UInt64, entry.toNat < s.dataset.entries → ∃ file row, s.dataset.Lands entry file row) ∧
    (∀ entry : UInt64, s.dataset.entries ≤ entry.toNat → s.dataset.Overshoots entry) ∧
    (s.dataset.position = .unloaded → s.dataset.entries < 2 ^ 64 →
      ∀ more : List SessionCall, (∀ call ∈ more, call.seeks = false ∧ call.addsFile = false) →
        s.visits more = s.dataset.rows.zipIdx.take (more.countP SessionCall.movesOn) ∧
        ((s.after more).dataset.position.status = .beyondEnd ↔
          s.dataset.entries < more.countP SessionCall.movesOn)) := by
  intro s
  have hjoins : s.dataset.JoinedOnce := joinedOnce_after (joinedOnce_start identity types settings) calls
  refine ⟨?_, ?_, ?_⟩
  · intro entry hlt
    obtain ⟨file, row, hplace⟩ := holdsEntry_of_lt hlt
    exact ⟨file, row, Dataset.lands_of_holdsEntry hjoins hplace⟩
  · intro entry hle
    exact Dataset.overshoots_of_entries_le hle
  · intro hposition hsize more hmore
    have hfiles : (s.after more).dataset.files = s.dataset.files :=
      files_after_of_not_addsFile fun call hcall => (hmore call hcall).2
    have hentries : (s.after more).dataset.entries = s.dataset.entries := congrArg totalSize hfiles
    have hrows : (s.after more).dataset.rows = s.dataset.rows := congrArg (List.flatMap File.rows) hfiles
    obtain ⟨hiff, hstatus⟩ := keepsUp_iff_growsInTime hposition hjoins (fun call hcall => (hmore call hcall).1)
      (by rw [hentries]; exact hsize)
    have hkeeps : s.KeepsUp more := hiff.2 (growsInTime_of_not_addsFile fun call hcall => (hmore call hcall).2)
    have hstatus := hstatus hkeeps
    rw [KeepsUp, hrows] at hkeeps
    rw [hentries] at hstatus
    exact ⟨hkeeps, hstatus⟩

/-- Two files of one row each, between which a client moves on and reads. -/
theorem visits_bothRuns :
    let s := (start ⟨0⟩ Catalog.builtins ⟨[], 0⟩).after bothRuns
    let more : List SessionCall := [.dataset .next, .use 0 .address, .dataset .next, .dataset .next]
    s.visits more = [(⟨[("hit", ⟨0x1000⟩)]⟩, 0), (⟨[("hit", ⟨0x1008⟩)]⟩, 1)] ∧
    (s.after more).dataset.position.status = .beyondEnd ∧
    (∃ file row, s.dataset.Lands 1 file row) ∧ s.dataset.Overshoots 2 := by
  dsimp only
  obtain ⟨hlands, hover, hmoves⟩ := seek_reaches ⟨0⟩ Catalog.builtins ⟨[], 0⟩ bothRuns
  obtain ⟨hvisits, hstatus⟩ := hmoves rfl (by decide)
    [.dataset .next, .use 0 .address, .dataset .next, .dataset .next] (by decide)
  refine ⟨?_, hstatus.2 (by decide), hlands 1 (by decide), hover 2 (by decide)⟩
  rw [hvisits]
  rfl

/-- **A client that only moves on comes to the rows of a growing chain in order, none of them twice, and once nothing is
added any more it comes to all rows after those it has tried; it passes over no row exactly when none is added while it
stands behind the end.** -/
theorem visits_growing (identity : RegistryId) (types : Catalog) (settings : Settings) {calls : List SessionCall}
    (hseeks : ∀ call ∈ calls, call.seeks = false)
    (hsize : ((start identity types settings).after calls).dataset.entries < 2 ^ 64) :
    let s := start identity types settings
    let rows := (s.after calls).dataset.rows
    let tried := calls.countP SessionCall.movesOn
    (s.visits calls).Sublist (rows.zipIdx.take tried) ∧
    (∀ n, s.visits (calls ++ List.replicate n (.dataset .next)) = s.visits calls ++ (rows.zipIdx.drop tried).take n) ∧
    ((∀ n, s.visits (calls ++ List.replicate n (.dataset .next)) = rows.zipIdx.take (tried + n)) ↔
      s.GrowsInTime calls) := by
  intro s rows tried
  have hs : s.dataset.position = .unloaded := rfl
  have hjoins : s.dataset.JoinedOnce := joinedOnce_start identity types settings
  have hmore : ∀ n, s.visits (calls ++ List.replicate n (.dataset .next)) =
      s.visits calls ++ (rows.zipIdx.drop tried).take n :=
    fun n => (visits_append_replicate hs hjoins hseeks hsize n).2
  obtain ⟨hkeeps, -⟩ := keepsUp_iff_growsInTime hs hjoins hseeks hsize
  refine ⟨visits_sublist hs hjoins hseeks hsize, hmore, ?_⟩
  rw [← hkeeps]
  constructor
  · intro h
    have hzero := h 0
    rw [List.replicate_zero, List.append_nil] at hzero
    exact hzero
  · intro h n
    rw [hmore, h, List.take_add]

/-- A file that is added before the client comes to the end of the first. -/
def timelyCalls : List SessionCall :=
  [.dataset (.pushFile firstRun), .dataset .next, .dataset (.pushFile secondRun)]

/-- A client that goes on from there comes to both rows. -/
theorem visits_timelyCalls :
    let s := start ⟨0⟩ Catalog.builtins ⟨[], 0⟩
    s.GrowsInTime timelyCalls ∧ ∀ n, s.visits (timelyCalls ++ List.replicate n (.dataset .next)) =
      [(⟨[("hit", ⟨0x1000⟩)]⟩, 0), (⟨[("hit", ⟨0x1008⟩)]⟩, 1)].take (1 + n) := by
  dsimp only
  have hseeks : ∀ call ∈ timelyCalls, call.seeks = false := by decide
  obtain ⟨-, -, hgrows⟩ := visits_growing ⟨0⟩ Catalog.builtins ⟨[], 0⟩ hseeks (by decide)
  have htime : (start ⟨0⟩ Catalog.builtins ⟨[], 0⟩).GrowsInTime timelyCalls := by
    refine ⟨?_, ?_, ?_, trivial⟩
    · exact fun _ _ h => (nomatch h)
    · exact fun _ h => (nomatch h)
    · exact fun _ _ h => (nomatch h)
  exact ⟨htime, hgrows.2 htime⟩

/-- A file that is added after the client has come to the end of the first. -/
def lateCalls : List SessionCall :=
  [.dataset (.pushFile firstRun), .dataset .next, .dataset .next, .dataset (.pushFile secondRun)]

/-- The row of that file is in the chain, and no further step comes to it. -/
theorem visits_lateCalls :
    let s := start ⟨0⟩ Catalog.builtins ⟨[], 0⟩
    (s.after lateCalls).dataset.rows[1]? = some ⟨[("hit", ⟨0x1008⟩)]⟩ ∧
      ∀ n, s.visits (lateCalls ++ List.replicate n (.dataset .next)) = [(⟨[("hit", ⟨0x1000⟩)]⟩, 0)] := by
  dsimp only
  refine ⟨rfl, fun n => ?_⟩
  rw [(visits_append_replicate rfl (joinedOnce_start _ _ _) (by decide) (by decide) n).2]
  exact congrArg (_ ++ ·) (List.take_nil)

end Session

end TypedColumns
