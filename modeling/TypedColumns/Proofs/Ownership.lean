import TypedColumns.Proofs.Outlines

/-!
# Bindings and the datasets of others

A set-up fails against a cursor that the binding is not live on.  But a binding looks for its cursor only when it is set
up, and it is set up again only under another generation; so a cursor of another dataset, or one that the binding has
left, can still serve it where the two generations happen to be the same.

* `Binding.setupStatus_read`, `Binding.setupStatus_address` -- reading leaves the status of the set-up as it is.
* `Binding.setupStatus_setup` -- a set-up against a cursor that the binding is not live on fails.
* `Binding.refuses_iff` -- when reading fails against such a cursor: exactly if the last set-up is of another generation,
  or failed for that reason itself.
* `Binding.meet`, `Binding.answer_meet` -- a binding that was never live where it was used has answered nothing but that.
-/

namespace TypedColumns

namespace Binding

section Statuses

variable {σ : Type} (b : Binding) (c : RowCursor σ) (s : σ)

/-! ### The status of a set-up -/

theorem setupStatus_read : (b.read c s).binding.setupStatus = (b.refresh c s).1.setupStatus := by
  rw [setupStatus_eq, outline?_read, ← setupStatus_eq]

theorem setupStatus_address : (b.address c s).binding.setupStatus = (b.refresh c s).1.setupStatus := by
  rw [setupStatus_eq, outline?_address, ← setupStatus_eq]

theorem setupStatus_decode (type : ColumnType) (t : Turn σ (Option Address)) :
    (decode type t c).binding.setupStatus = t.binding.setupStatus := by
  rw [setupStatus_eq, outline?_decode, ← setupStatus_eq]

/-! ### Refusal -/

variable {b c s}

/-- A set-up against a cursor that the binding is not live on fails. -/
theorem setupStatus_setup (h : (c.registry s).serves b.registration = false) :
    (b.setup c s).1.setupStatus = .internalError := by
  have hresolve : b.resolve c s = (.error (.coordinatorGone b.path), []) := by
    rw [resolve, h]
    rfl
  rw [setup, hresolve]
  rfl

/-- Before it reads, a binding is refused by a cursor that it is not live on exactly if it is set up then, or was
refused when it was set up last. -/
theorem setupStatus_refresh_iff (h : (c.registry s).serves b.registration = false) :
    (b.refresh c s).1.setupStatus = .internalError ↔ b.isFresh c s = false ∨ b.setupStatus = .internalError := by
  rw [refresh]
  cases b.isFresh c s with
  | true => simp
  | false => simp [setupStatus_setup h]

/-- Without a match there is nothing to read. -/
theorem match?_eq_none_of_setupStatus (h : b.setupStatus = .internalError) : b.match? = none := by
  have hmatch := isMatch_setupStatus b
  cases hm : b.match? with
  | none => rfl
  | some m =>
      rw [h, hm] at hmatch
      cases hmatch

theorem value_read_of_refused (h : (b.refresh c s).1.setupStatus = .internalError) : (b.read c s).value = .error := by
  show ((b.refresh c s).1.readBase c s).binding.readStatus = .error
  rw [readBase, match?_eq_none_of_setupStatus h]

theorem value_address_of_refused (h : (b.refresh c s).1.setupStatus = .internalError) : (b.address c s).value = none := by
  have hnone := match?_eq_none_of_setupStatus h
  have hmisses : (b.refresh c s).1.misses c s = false := by rw [misses, hnone]
  have hbase : ((b.refresh c s).1.readBase c s).value = none := by rw [readBase, hnone]
  simp only [address, hmisses, Bool.false_eq_true, if_false, locate, hbase]

/-- **A cursor refuses a binding that is not live on it, unless it takes the binding's last set-up for its own.**  For
whatever binding and cursor: reading fails, no address is found, and the status is that of a refusal exactly if the last
set-up was made under another generation than the cursor's, or was refused itself. -/
theorem refuses_iff (h : (c.registry s).serves b.registration = false) :
    ((b.read c s).value = .error ∧ (b.read c s).binding.setupStatus = .internalError ∧
      (b.address c s).value = none ∧ (b.address c s).binding.setupStatus = .internalError) ↔
    b.isFresh c s = false ∨ b.setupStatus = .internalError := by
  rw [setupStatus_read, setupStatus_address, ← setupStatus_refresh_iff h]
  constructor
  · rintro ⟨-, hstatus, -⟩
    exact hstatus
  · intro hstatus
    exact ⟨value_read_of_refused hstatus, hstatus, value_address_of_refused hstatus, hstatus⟩

end Statuses

/-- A session whose binding was read in the second file. -/
def readAcross (identity : RegistryId) : Session :=
  (Session.start identity Catalog.builtins ⟨[], 0⟩).after (bothRuns ++ acrossRuns ++ [.use 0 .address])

/-- A binding that was last read in the second file of its own dataset is refused by another dataset that stands in its
first. -/
theorem refuses_otherGeneration :
    let d := ((Session.start ⟨1⟩ Catalog.builtins ⟨[], 0⟩).after [.dataset (.pushFile firstRun), .dataset .next]).dataset
    ∃ b, (readAcross ⟨0⟩).bindings[0]? = some b ∧ d.registry.serves b.registration = false ∧
      b.isFresh Dataset.cursor d = false ∧ (b.address Dataset.cursor d).value = none ∧
      (b.address Dataset.cursor d).binding.setupStatus = .internalError := by
  intro d
  have hfacts : (readAcross ⟨0⟩).bindings.map (fun b => (d.registry.serves b.registration, b.isFresh Dataset.cursor d)) =
      [(false, false)] := by decide +kernel
  obtain ⟨b, hbindings, hb⟩ := List.map_eq_singleton_iff.1 hfacts
  obtain ⟨hserves, hfresh⟩ := Prod.mk.inj hb
  obtain ⟨-, -, hvalue, hstatus⟩ := (refuses_iff hserves).2 (Or.inl hfresh)
  refine ⟨b, ?_, hserves, hfresh, hvalue, hstatus⟩
  rw [hbindings]
  rfl

/-- The same binding and another dataset that stands in its second file as well: the binding is not live there, and not
on its own dataset either once it has left; yet both tell it the address of an object of theirs. -/
theorem address_otherRegistry :
    let own := readAcross ⟨0⟩
    let other := readAcross ⟨1⟩
    (∀ b ∈ own.bindings, other.dataset.registry.serves b.registration = false) ∧
      own.bindings.map (fun b => (b.address Dataset.cursor other.dataset).value) = [some ⟨0x1008⟩] ∧
      (own.apply (.leave 0)).state.bindings.map
        (fun b => (own.dataset.registry.serves b.registration, (b.address Dataset.cursor own.dataset).value)) =
        [(false, some ⟨0x1008⟩)] := by
  decide +kernel

/-! ### Meetings -/

/-- A binding after some calls on it, each with the dataset it was used with. -/
def meet (b : Binding) : List (Dataset × BindingCall) → Binding
  | [] => b
  | (d, call) :: meetings => (b.call d call).binding.meet meetings

end Binding

/-- What a binding answers that is refused. -/
def BindingCall.refusal : BindingCall → Answer
  | .setup => .setup .internalError
  | .read => .read .error
  | .address => .address none
  | .get _ => .value none

namespace Binding

/-- Every set-up of the binding, if there was one, was refused. -/
def Homeless (b : Binding) : Prop := b.attempt = none ∨ b.setupStatus = .internalError

variable {b : Binding} {d : Dataset}

theorem Homeless.setupStatus_refresh (hb : b.Homeless) (h : d.registry.serves b.registration = false) :
    (b.refresh Dataset.cursor d).1.setupStatus = .internalError := by
  refine (setupStatus_refresh_iff (c := Dataset.cursor) h).2 ?_
  rcases hb with hnone | hstatus
  · refine Or.inl ?_
    rw [isFresh, hnone]
  · exact Or.inr hstatus

/-- A call with a dataset that the binding is not live on is refused, and leaves the binding as homeless as it was. -/
theorem Homeless.call (hb : b.Homeless) (h : d.registry.serves b.registration = false) (call : BindingCall) :
    (b.call d call).value = call.refusal ∧ (b.call d call).binding.Homeless := by
  have hrefresh := hb.setupStatus_refresh h
  cases call with
  | setup =>
      have hsetup : (b.setup Dataset.cursor d).1.setupStatus = .internalError := setupStatus_setup h
      exact ⟨congrArg Answer.setup hsetup, Or.inr hsetup⟩
  | read =>
      exact ⟨congrArg Answer.read (value_read_of_refused hrefresh),
        Or.inr ((setupStatus_read b Dataset.cursor d).trans hrefresh)⟩
  | address =>
      exact ⟨congrArg Answer.address (value_address_of_refused hrefresh),
        Or.inr ((setupStatus_address b Dataset.cursor d).trans hrefresh)⟩
  | get type =>
      show Answer.value (b.get type Dataset.cursor d).value = .value none ∧ (b.get type Dataset.cursor d).binding.Homeless
      rw [get]
      split
      · exact ⟨rfl, hb⟩
      · have hvalue := value_address_of_refused hrefresh
        refine ⟨?_, Or.inr ?_⟩
        · simp only [decode, hvalue]
        · exact (setupStatus_decode Dataset.cursor type _).trans ((setupStatus_address b Dataset.cursor d).trans hrefresh)

theorem Homeless.meet {meetings : List (Dataset × BindingCall)} (hb : b.Homeless)
    (h : ∀ m ∈ meetings, m.1.registry.serves b.registration = false) : (b.meet meetings).Homeless := by
  induction meetings generalizing b with
  | nil => exact hb
  | cons m meetings ih =>
      obtain ⟨d, call⟩ := m
      have hcall := (hb.call (h (d, call) List.mem_cons_self) call).2
      refine ih hcall ?_
      intro n hn
      rw [(sameColumn_call b d call).registration]
      exact h n (List.mem_cons_of_mem _ hn)

theorem sameColumn_meet (b : Binding) (meetings : List (Dataset × BindingCall)) : SameColumn b (b.meet meetings) := by
  induction meetings generalizing b with
  | nil => exact SameColumn.refl b
  | cons m meetings ih => exact (sameColumn_call b m.1 m.2).trans (ih _)

/-- A new binding that has only ever been used with datasets it was not live on is refused by every other such dataset,
whatever their generations. -/
theorem answer_meet {meetings : List (Dataset × BindingCall)} (hnew : b.attempt = none)
    (hmet : ∀ m ∈ meetings, m.1.registry.serves b.registration = false) (h : d.registry.serves b.registration = false)
    (call : BindingCall) : ((b.meet meetings).call d call).value = call.refusal := by
  have hhome : (b.meet meetings).Homeless := Homeless.meet (Or.inl hnew) hmet
  refine (hhome.call ?_ call).1
  rw [(sameColumn_meet b meetings).registration]
  exact h

end Binding

end TypedColumns
