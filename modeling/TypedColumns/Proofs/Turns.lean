import TypedColumns.Proofs.Ownership

/-!
# What a call on a binding comes to

Reading, asking for an address and asking for a value are one and the same thing up to the last step: the binding is
brought up to the generation of its cursor, its node is read by the plan, and something is made of the object.  How that
ends is kept in the binding.

* `Binding.callOn` -- a call with any cursor; `Binding.call` is one with a dataset.
* `BindingCall.isEarly`, `BindingCall.skips` -- the two ways to end before anything is read.
* `BindingCall.finish`, `BindingCall.answer` -- what a call makes of the object, and what it answers.
* `Binding.record` -- the binding with the outcome of a call kept in it.
* `Binding.serve`, `Binding.turn` -- what a call comes to once the binding is up to date, and in full.
* `Binding.callOn_eq`, `Binding.binding_callOn` -- the three calls in one equation, and what becomes of the binding.
-/

namespace TypedColumns

/-- Carries out a call on a binding with any cursor. -/
def Binding.callOn (b : Binding) (c : RowCursor σ) (s : σ) : BindingCall → Turn σ Answer
  | .setup => ⟨.setup (b.setup c s).1.setupStatus, (b.setup c s).1, s, (b.setup c s).2⟩
  | .read =>
    let t := b.read c s
    ⟨.read t.value, t.binding, t.state, t.events⟩
  | .address =>
    let t := b.address c s
    ⟨.address t.value, t.binding, t.state, t.events⟩
  | .get type =>
    let t := b.get type c s
    ⟨.value t.value, t.binding, t.state, t.events⟩

theorem Binding.call_eq_callOn (b : Binding) (d : Dataset) (call : BindingCall) :
    b.call d call = b.callOn Dataset.cursor d call := by
  cases call <;> rfl

namespace BindingCall

/-- Whether a call reads, or only sets up. -/
def reads : BindingCall → Bool
  | .setup => false
  | _ => true

/-- No value is to be had before any row was loaded; the binding is not even looked at then. -/
def isEarly (call : BindingCall) (c : RowCursor σ) (s : σ) : Bool :=
  match call with
  | .get _ => c.status s == .notLoaded
  | _ => false

/-- Nothing is located where the source of the column has no row for the entry. -/
def skips (call : BindingCall) (b : Binding) (c : RowCursor σ) (s : σ) : Bool :=
  match call with
  | .setup | .read => false
  | .address | .get _ => b.misses c s

/-- What a call makes of the object of the column. -/
def finish (call : BindingCall) (a : Access) (m : Image) (base : Address) : Except ReadError Answer :=
  match call with
  | .setup | .read => .ok (.read .success)
  | .address => (readMemory (a.locate m base)).map fun place => .address (some place)
  | .get type =>
    (readMemory (a.locate m base)).bind fun place =>
      (readMemory (m.bytes place type.size)).map fun bytes => .value (some (type.decode bytes))

/-- How a call goes that reads by a match. -/
def outcome (call : BindingCall) (m : Match) (c : RowCursor σ) (s : σ) : Except ReadError Answer :=
  (m.plan.read c s).base.bind (call.finish m.resolution.access (c.image (m.plan.read c s).state))

/-- What a call answers, given how it went. -/
def answer (call : BindingCall) (outcome : Except ReadError Answer) : Answer :=
  match outcome with
  | .ok a => a
  | .error _ => call.refusal

end BindingCall

/-- The match that is left by a read. -/
def Match.advance (m : Match) (c : RowCursor σ) (s : σ) : Match := { m with plan := (m.plan.read c s).plan }

/-- The match in which it is noted what went wrong. -/
def Match.note (m : Match) (outcome : Except ReadError α) : Match :=
  match outcome with
  | .ok _ => m
  | .error e => { m with fault := some e }

/-- What is told of how a read went. -/
def Event.ofOutcome (path : String) (outcome : Except ReadError α) : List Event :=
  match outcome with
  | .ok _ => []
  | .error e => [.readFailed path e]

namespace Binding

/-- The binding with another match, and with how the read by it went. -/
def record (b : Binding) (m : Match) (outcome : Except ReadError α) : Binding :=
  match outcome with
  | .ok _ => { b.withMatch m with readStatus := .success }
  | .error e => b.failRead m e

/-- A turn that ends with an outcome, of a binding with the given match. -/
def conclude (b : Binding) (m : Match) (outcome : Except ReadError α) (s : σ) (events : List Event) :
    Turn σ (Option α) :=
  ⟨outcome.toOption, b.record m outcome, s, events ++ Event.ofOutcome b.path outcome⟩

/-- What a call that reads comes to on a binding that is up to date. -/
def serve (b : Binding) (c : RowCursor σ) (s : σ) (call : BindingCall) : Turn σ Answer :=
  if call.skips b c s then ⟨call.refusal, b, s, []⟩
  else
    match b.match? with
    | none => ⟨call.refusal, { b with readStatus := .error }, s, []⟩
    | some m =>
      ⟨call.answer (call.outcome m c s), b.record (m.advance c s) (call.outcome m c s), (m.plan.read c s).state,
        (m.plan.read c s).events ++ Event.ofOutcome b.path (call.outcome m c s)⟩

/-- What a call that reads comes to on any binding. -/
def turn (b : Binding) (c : RowCursor σ) (s : σ) (call : BindingCall) : Turn σ Answer :=
  if call.isEarly c s then
    ⟨call.refusal, b, s, if c.isSuppressed s b.path then [] else [.notInitialized b.path]⟩
  else
    let t := (b.refresh c s).1.serve c s call
    { t with events := (b.refresh c s).2 ++ t.events }

/-! ### What is kept of an outcome -/

section Records

variable {α β σ : Type} {b : Binding} {m n : Match}

theorem match?_record (h : b.match? = some m) (n : Match) (outcome : Except ReadError α) :
    (b.record n outcome).match? = some (n.note outcome) := by
  cases outcome with
  | ok a => exact match?_withMatch h n
  | error e => exact match?_withMatch h { n with fault := some e }

theorem attempt_of_match? (h : b.match? = some m) : ∃ generation, b.attempt = some ⟨generation, .ok m⟩ := by
  rw [match?] at h
  split at h
  · rename_i generation n ha
    cases h
    exact ⟨generation, ha⟩
  · cases h

theorem attempt_record {generation : Generation} (h : b.attempt = some ⟨generation, .ok m⟩) (n : Match)
    (outcome : Except ReadError α) : (b.record n outcome).attempt = some ⟨generation, .ok (n.note outcome)⟩ := by
  cases outcome <;> simp only [record, failRead, withMatch, h, Option.map_some] <;> rfl

theorem sameColumn_record (b : Binding) (n : Match) (outcome : Except ReadError α) :
    SameColumn b (b.record n outcome) := by
  cases outcome <;> exact ⟨rfl, rfl, rfl⟩

theorem outline?_record (h : b.match? = some m) (hn : n.finding = m.finding) (outcome : Except ReadError α) :
    (b.record n outcome).outline? = b.outline? := by
  cases outcome with
  | ok a => exact outline?_withMatch h hn
  | error e => exact outline?_failRead h hn e

/-- Only the last outcome is kept. -/
theorem record_record (b : Binding) (m n : Match) (first : Except ReadError α) (last : Except ReadError β) :
    (b.record m first).record n last = b.record n last := by
  cases first <;> cases last <;> simp only [record, failRead, withMatch, Option.map_map] <;> rfl

theorem plan_note (m : Match) (noted : Except ReadError α) : (m.note noted).plan = m.plan := by
  cases noted <;> rfl

theorem finding_note (m : Match) (noted : Except ReadError α) : (m.note noted).finding = m.finding := by
  cases noted <;> rfl

/-- What went wrong with a read does not matter to the next one. -/
theorem outcome_note (call : BindingCall) (m : Match) (noted : Except ReadError α) (c : RowCursor σ) (s : σ) :
    call.outcome (m.note noted) c s = call.outcome m c s := by
  cases noted <;> rfl

theorem advance_note (m : Match) (noted : Except ReadError α) (c : RowCursor σ) (s : σ) :
    (m.note noted).advance c s = (m.advance c s).note noted := by
  cases noted <;> rfl

/-- What is noted already need not be noted again. -/
theorem record_note (b : Binding) (n : Match) (outcome : Except ReadError α) :
    b.record (n.note outcome) outcome = b.record n outcome := by
  cases outcome <;> rfl

end Records

/-! ### Bringing up to date -/

section Freshness

variable {σ : Type} {b b' : Binding} {c : RowCursor σ} {s t : σ}

theorem refresh_of_isFresh (h : b.isFresh c s = true) : b.refresh c s = (b, []) := by
  rw [refresh, if_pos h]

theorem refresh_of_isFresh_eq_false (h : b.isFresh c s = false) : b.refresh c s = b.setup c s := by
  rw [refresh, h, if_neg Bool.false_ne_true]

theorem refresh_cases (b : Binding) (c : RowCursor σ) (s : σ) :
    (b.refresh c s).1 = b ∨ (b.refresh c s).1 = (b.setup c s).1 := by
  rw [refresh]
  split
  · exact Or.inl rfl
  · exact Or.inr rfl

theorem isFresh_refresh (b : Binding) (c : RowCursor σ) (s : σ) : (b.refresh c s).1.isFresh c s = true := by
  cases hfresh : b.isFresh c s with
  | true =>
      rw [refresh_of_isFresh hfresh]
      exact hfresh
  | false =>
      rw [refresh_of_isFresh_eq_false hfresh]
      exact beq_self_eq_true (c.generation s)

theorem isFresh_congr (h : b'.outline? = b.outline?) (hgen : c.generation t = c.generation s) :
    b'.isFresh c t = b.isFresh c s := by
  rw [isFresh_eq, isFresh_eq, h, hgen]

end Freshness

/-! ### From the object to the value -/

section Turns

variable {σ : Type} {b : Binding} {c : RowCursor σ} {s : σ} {m : Match}

/-- Reading the object of a column that is set up. -/
theorem readBase_of_match (h : b.match? = some m) :
    b.readBase c s =
      b.conclude (m.advance c s) (m.plan.read c s).base (m.plan.read c s).state
        (m.plan.read c s).events := by
  simp only [readBase, h, readMatch]
  cases (m.plan.read c s).base with
  | error e => rfl
  | ok a => simp [conclude, Event.ofOutcome, record, Except.toOption, Match.advance]

/-- Locating the value goes on from how reading the object went. -/
theorem locate_conclude (h : b.match? = some m) (n : Match) (o : Except ReadError Address) (events : List Event) :
    locate (b.conclude n o s events) c =
      b.conclude n (o.bind fun base => readMemory (n.resolution.access.locate (c.image s) base)) s events := by
  cases o with
  | error e => rfl
  | ok base =>
      have hm : ({ b.withMatch n with readStatus := .success } : Binding).match? = some n := match?_withMatch h n
      simp only [locate, conclude, Except.toOption, record, hm, Except.bind]
      cases readMemory (n.resolution.access.locate (c.image s) base) with
      | ok place => rfl
      | error e => simp [failRead, withMatch, Event.ofOutcome, Function.comp_def]

/-- Decoding the value goes on from how locating it went. -/
theorem decode_conclude (h : b.match? = some m) (n : Match) (o : Except ReadError Address) (events : List Event)
    (type : ColumnType) :
    decode type (b.conclude n o s events) c =
      b.conclude n
        (o.bind fun place => (readMemory ((c.image s).bytes place type.size)).map type.decode) s events := by
  cases o with
  | error e => rfl
  | ok place =>
      have hm : ({ b.withMatch n with readStatus := .success } : Binding).match? = some n := match?_withMatch h n
      simp only [decode, conclude, Except.toOption, record, hm, Except.bind]
      cases readMemory ((c.image s).bytes place type.size) with
      | ok bytes => simp [Event.ofOutcome, Except.map]
      | error e => simp [failRead, withMatch, Event.ofOutcome, Function.comp_def, Except.map]

theorem address_of_misses (h : (b.refresh c s).1.misses c s = true) :
    b.address c s = ⟨none, (b.refresh c s).1, s, (b.refresh c s).2⟩ := by
  simp only [address, h, if_true]

theorem address_of_match?_eq_none (h : (b.refresh c s).1.match? = none) :
    b.address c s = ⟨none, { (b.refresh c s).1 with readStatus := .error }, s, (b.refresh c s).2⟩ := by
  have hmisses : (b.refresh c s).1.misses c s = false := by rw [misses, h]
  simp only [address, hmisses, Bool.false_eq_true, if_false, readBase, h, locate, List.append_nil]

theorem address_of_match? (h : (b.refresh c s).1.match? = some m) (hmisses : (b.refresh c s).1.misses c s = false) :
    b.address c s =
      (b.refresh c s).1.conclude (m.advance c s)
        ((m.plan.read c s).base.bind fun base =>
          readMemory (m.resolution.access.locate (c.image (m.plan.read c s).state) base))
        (m.plan.read c s).state ((b.refresh c s).2 ++ (m.plan.read c s).events) := by
  simp only [address, hmisses, Bool.false_eq_true, if_false]
  rw [readBase_of_match h, locate_conclude h]
  simp only [conclude, Match.advance, List.append_assoc]

end Turns

/-! ### The three calls in one -/

section Cases

variable {σ : Type} {b : Binding} {c : RowCursor σ} {s : σ} {call : BindingCall}

theorem turn_of_isEarly (h : call.isEarly c s = true) :
    b.turn c s call = ⟨call.refusal, b, s, if c.isSuppressed s b.path then [] else [.notInitialized b.path]⟩ := by
  rw [turn, if_pos h]

theorem turn_of_isEarly_eq_false (h : call.isEarly c s = false) :
    b.turn c s call =
      { (b.refresh c s).1.serve c s call with
        events := (b.refresh c s).2 ++ ((b.refresh c s).1.serve c s call).events } := by
  rw [turn, h, if_neg Bool.false_ne_true]

theorem serve_of_skips (h : call.skips b c s = true) : b.serve c s call = ⟨call.refusal, b, s, []⟩ := by
  rw [serve, if_pos h]

/-- Nothing is skipped without a match. -/
theorem skips_of_match?_eq_none (h : b.match? = none) : call.skips b c s = false := by
  cases call <;> simp only [BindingCall.skips, misses, h]

theorem serve_of_match?_eq_none (h : b.match? = none) :
    b.serve c s call = ⟨call.refusal, { b with readStatus := .error }, s, []⟩ := by
  rw [serve, skips_of_match?_eq_none h, if_neg Bool.false_ne_true, h]

theorem serve_of_match? (hskips : call.skips b c s = false) {m : Match} (h : b.match? = some m) :
    b.serve c s call =
      ⟨call.answer (call.outcome m c s), b.record (m.advance c s) (call.outcome m c s), (m.plan.read c s).state,
        (m.plan.read c s).events ++ Event.ofOutcome b.path (call.outcome m c s)⟩ := by
  rw [serve, hskips, if_neg Bool.false_ne_true, h]

theorem outline?_serve (b : Binding) (c : RowCursor σ) (s : σ) (call : BindingCall) :
    (b.serve c s call).binding.outline? = b.outline? := by
  rw [serve]
  split
  · rfl
  · split
    · rfl
    · rename_i m hm
      exact outline?_record (n := m.advance c s) hm rfl _

theorem reaches_serve (b : Binding) (c : RowCursor σ) (s : σ) (call : BindingCall) :
    c.Reaches s (b.serve c s call).state := by
  rw [serve]
  split
  · exact .refl
  · split
    · exact .refl
    · exact reaches_planRead c _ s

end Cases

/-- **A call that reads, in one equation.** -/
theorem callOn_eq (b : Binding) (c : RowCursor σ) (s : σ) {call : BindingCall} (hcall : call.reads = true) :
    b.callOn c s call = b.turn c s call := by
  cases call with
  | setup => cases hcall
  | read =>
      rw [turn_of_isEarly_eq_false rfl]
      cases hm : (b.refresh c s).1.match? with
      | none =>
          rw [serve_of_match?_eq_none hm]
          simp only [callOn, read, readBase, hm, BindingCall.refusal]
      | some m =>
          rw [serve_of_match? rfl hm]
          simp only [callOn, read, readBase_of_match hm, conclude, BindingCall.outcome]
          cases (m.plan.read c s).base <;> rfl
  | address =>
      rw [turn_of_isEarly_eq_false rfl]
      cases hmisses : (b.refresh c s).1.misses c s with
      | true =>
          have hskips : BindingCall.address.skips (b.refresh c s).1 c s = true := hmisses
          rw [serve_of_skips hskips, callOn, address_of_misses hmisses]
          simp only [BindingCall.refusal, List.append_nil]
      | false =>
          have hskips : BindingCall.address.skips (b.refresh c s).1 c s = false := hmisses
          cases hm : (b.refresh c s).1.match? with
          | none =>
              rw [serve_of_match?_eq_none hm, callOn, address_of_match?_eq_none hm]
              simp only [BindingCall.refusal, List.append_nil]
          | some m =>
              rw [serve_of_match? hskips hm, callOn, address_of_match? hm hmisses]
              simp only [conclude, List.append_assoc, BindingCall.outcome]
              cases (m.plan.read c s).base with
              | error e => rfl
              | ok base =>
                  simp only [Except.bind, BindingCall.finish]
                  cases readMemory (m.resolution.access.locate (c.image (m.plan.read c s).state) base) <;> rfl
  | get type =>
      cases hearly : (BindingCall.get type).isEarly c s with
      | true =>
          have hstatus : c.status s = .notLoaded := eq_of_beq hearly
          rw [turn_of_isEarly hearly, callOn, get, if_pos hstatus]
          rfl
      | false =>
          have hstatus : c.status s ≠ .notLoaded := beq_eq_false_iff_ne.1 hearly
          rw [turn_of_isEarly_eq_false hearly, callOn, get, if_neg hstatus]
          cases hmisses : (b.refresh c s).1.misses c s with
          | true =>
              have hskips : (BindingCall.get type).skips (b.refresh c s).1 c s = true := hmisses
              rw [serve_of_skips hskips, address_of_misses hmisses]
              simp only [BindingCall.refusal, List.append_nil, decode]
          | false =>
              have hskips : (BindingCall.get type).skips (b.refresh c s).1 c s = false := hmisses
              cases hm : (b.refresh c s).1.match? with
              | none =>
                  rw [serve_of_match?_eq_none hm, address_of_match?_eq_none hm]
                  simp only [BindingCall.refusal, List.append_nil, decode]
              | some m =>
                  rw [serve_of_match? hskips hm, address_of_match? hm hmisses, decode_conclude hm]
                  simp only [conclude, List.append_assoc, BindingCall.outcome]
                  cases (m.plan.read c s).base with
                  | error e => rfl
                  | ok base =>
                      simp only [Except.bind, BindingCall.finish]
                      cases readMemory (m.resolution.access.locate (c.image (m.plan.read c s).state) base) with
                      | error e => rfl
                      | ok place =>
                          simp only
                          cases readMemory ((c.image (m.plan.read c s).state).bytes place type.size) <;> rfl

/-- A call ends early, or is a set-up, or serves the binding once that is up to date. -/
theorem binding_callOn (b : Binding) (c : RowCursor σ) (s : σ) (call : BindingCall) :
    (b.callOn c s call).binding = b ∨ (b.callOn c s call).binding = (b.setup c s).1 ∨
      (b.callOn c s call).binding = ((b.refresh c s).1.serve c s call).binding := by
  cases hreads : call.reads with
  | false =>
      cases call with
      | setup => exact Or.inr (Or.inl rfl)
      | _ => cases hreads
  | true =>
      rw [callOn_eq b c s hreads]
      cases hearly : call.isEarly c s with
      | true =>
          rw [turn_of_isEarly hearly]
          exact Or.inl rfl
      | false =>
          rw [turn_of_isEarly_eq_false hearly]
          exact Or.inr (Or.inr rfl)

end Binding

end TypedColumns
