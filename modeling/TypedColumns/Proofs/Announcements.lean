import TypedColumns.Proofs.Turns
import TypedColumns.Proofs.TypedReads

/-!
# Generations that a client announces

A dataset counts its generation up when another file becomes the current one, and a client may set it to any number.  A
binding tells by the number alone whether it has to look anew.  That is enough as long as the number only ever rises:
the client announces nothing lower, and the count does not wrap.

* `Match.StandsFor`, `Binding.Timely` -- a match is for what the path stands for in the current file; the last set-up is
  of no later generation, and if of this one, what it found is such a match.  Calls on bindings keep it so
  (`timely_call`).
* `Session.Climbs` -- a run in which the generation only rises.  It rises with every change of the current file
  (`toNat_generation_after`), and keeps all bindings timely (`timely_apply`, `timely_after`).
* `Session.generation_lt_of_switches`, `Binding.refresh_of_generation_lt` -- a binding that was not used since the current
  file changed is set up anew.
* `Session.reads_current_file` -- then no binding reads by what another file was found to hold.
* `Session.stale_wrappedCalls` -- a number so high that the next change of file brings back the first generation.
-/

namespace TypedColumns

/-- A match is what a path stands for in the current file, and its plan is for the node found there. -/
structure Match.StandsFor (d : Dataset) (path : String) (requested : Option String) (m : Match) : Prop where
  resolution : d.resolution path requested = .ok m.resolution
  target : m.plan.target.id = m.resolution.node
  node : d.node? m.resolution.node = some m.plan.target.node

namespace Match.StandsFor

variable {d e : Dataset} {path : String} {requested : Option String} {m : Match}

theorem congr (h : m.StandsFor d path requested) (hsame : d.ShowsSame e) : m.StandsFor e path requested := by
  refine ⟨(hsame.resolution path requested).trans h.resolution, h.target, ?_⟩
  rw [Dataset.node?, hsame.schema?]
  exact h.node

/-- Reading by a match changes nothing of what it stands for. -/
theorem read {α σ : Type} (h : m.StandsFor d path requested) (c : RowCursor σ) (s : σ) (outcome : Except ReadError α) :
    ((m.advance c s).note outcome).StandsFor d path requested := by
  have hresolution : ((m.advance c s).note outcome).resolution = m.resolution :=
    congrArg Finding.resolution (Binding.finding_note (m.advance c s) outcome)
  have htarget : ((m.advance c s).note outcome).plan.target = m.plan.target := by
    rw [Binding.plan_note]
    exact Plan.target_read m.plan c s
  refine ⟨?_, ?_, ?_⟩
  · rw [hresolution]
    exact h.resolution
  · rw [hresolution, htarget]
    exact h.target
  · rw [hresolution, htarget]
    exact h.node

end Match.StandsFor

namespace Binding

variable {b : Binding} {d e : Dataset} {m : Match}

/-- The last set-up was made under no later generation, and if under this one, what it found is what the path stands for
in the current file. -/
def Timely (d : Dataset) (b : Binding) : Prop :=
  ∀ a, b.attempt = some a → a.generation.number.toNat ≤ d.registry.generation.number.toNat ∧
    (a.generation = d.registry.generation → ∀ m, a.outcome = .ok m → m.StandsFor d b.path b.requested)

theorem Timely.congr (h : b.Timely d) (hsame : d.ShowsSame e)
    (hgen : e.registry.generation = d.registry.generation) : b.Timely e := by
  intro a ha
  obtain ⟨hle, hstands⟩ := h a ha
  rw [hgen]
  exact ⟨hle, fun heq m hm => (hstands heq m hm).congr hsame⟩

/-- Under a later generation nothing that was found matters. -/
theorem Timely.of_lt (h : b.Timely d)
    (hlt : d.registry.generation.number.toNat < e.registry.generation.number.toNat) : b.Timely e := by
  intro a ha
  have hle := (h a ha).1
  refine ⟨by omega, ?_⟩
  intro heq
  rw [heq] at hle
  omega

theorem timely_setup (b : Binding) (d : Dataset) : (b.setup Dataset.cursor d).1.Timely d := by
  intro a ha
  have hattempt : (b.setup Dataset.cursor d).1.attempt = some ⟨d.registry.generation, (b.resolve Dataset.cursor d).1⟩ := rfl
  obtain rfl := Option.some.inj (hattempt.symm.trans ha)
  refine ⟨Nat.le_refl _, fun _ m hm => ?_⟩
  have hm : (b.resolve Dataset.cursor d).1 = .ok m := hm
  obtain ⟨schema, requested, node, hschema, -, hnode, hplan, -⟩ := found_of_resolve hm
  have hfound : (b.setup Dataset.cursor d).1.outline? = some (d.registry.generation, .ok m.finding) := by
    show some (d.registry.generation, (b.resolve Dataset.cursor d).1.map Match.finding) = _
    rw [hm]
    rfl
  refine ⟨(resolution_of_setup hfound).2, ?_, ?_⟩
  · rw [hplan]
    rfl
  · have hschema : d.schema? = some schema := hschema
    rw [Dataset.node?, hschema, hplan]
    exact hnode

theorem Timely.refresh (h : b.Timely d) : (b.refresh Dataset.cursor d).1.Timely d := by
  rcases refresh_cases b Dataset.cursor d with hb | hb
  · rw [hb]
    exact h
  · rw [hb]
    exact timely_setup b d

theorem Timely.serve (h : b.Timely d) (call : BindingCall) : (b.serve Dataset.cursor d call).binding.Timely d := by
  cases hskips : call.skips b Dataset.cursor d with
  | true =>
      rw [serve_of_skips hskips]
      exact h
  | false =>
      cases hm : b.match? with
      | none =>
          rw [serve_of_match?_eq_none hm]
          exact h
      | some m =>
          rw [serve_of_match? hskips hm]
          obtain ⟨generation, hattempt⟩ := attempt_of_match? hm
          obtain ⟨hle, hstands⟩ := h _ hattempt
          have hcolumn := sameColumn_record b (m.advance Dataset.cursor d) (call.outcome m Dataset.cursor d)
          intro a ha
          rw [attempt_record hattempt] at ha
          cases ha
          refine ⟨hle, fun heq n hn => ?_⟩
          cases hn
          rw [hcolumn.path, hcolumn.requested]
          exact (hstands heq m rfl).read Dataset.cursor d _

/-- What a binding that is up to date has found is what its path stands for in the current file. -/
theorem Timely.standsFor (h : b.Timely d) (hm : (b.refresh Dataset.cursor d).1.match? = some m) :
    m.StandsFor d b.path b.requested := by
  have hcolumn := sameColumn_refresh b Dataset.cursor d
  obtain ⟨generation, ha⟩ := attempt_of_match? hm
  have hfresh := isFresh_refresh b Dataset.cursor d
  rw [isFresh, ha] at hfresh
  rw [← hcolumn.path, ← hcolumn.requested]
  exact (h.refresh _ ha).2 (eq_of_beq hfresh) m rfl

/-- A binding whose last set-up is of an earlier generation is set up anew, and it tracks its dataset like a new one. -/
theorem refresh_of_generation_lt
    (h : ∀ a, b.attempt = some a → a.generation.number.toNat < d.registry.generation.number.toNat) :
    b.refresh Dataset.cursor d = b.setup Dataset.cursor d ∧ b.Tracks d := by
  have hne : ∀ a, b.attempt = some a → a.generation ≠ d.registry.generation := by
    intro a ha heq
    have hlt := h a ha
    rw [heq] at hlt
    exact Nat.lt_irrefl _ hlt
  refine ⟨refresh_of_isFresh_eq_false ?_, fun a ha => ⟨Nat.le_of_lt (h a ha), fun heq => absurd heq (hne a ha)⟩⟩
  rw [isFresh]
  cases ha : b.attempt with
  | none => rfl
  | some a => exact beq_eq_false_iff_ne.2 (hne a ha)

theorem showsSame_of_reaches (h : Dataset.cursor.Reaches d e) : d.ShowsSame e := by
  have hreload := Dataset.reloaded_of_reaches h
  refine Dataset.showsSame_of_file? ?_ hreload.settings hreload.types
  rw [hreload.eq]
  rfl

theorem timely_call (h : b.Timely d) (call : BindingCall) : (b.call d call).binding.Timely (b.call d call).state := by
  have hreach := reaches_call b d call
  have hgen := congrArg Registry.generation (Dataset.reloaded_of_reaches hreach).registry
  refine Timely.congr ?_ (showsSame_of_reaches hreach) hgen
  rw [call_eq_callOn]
  rcases binding_callOn b Dataset.cursor d call with hb | hb | hb
  · rw [hb]
    exact h
  · rw [hb]
    exact timely_setup b d
  · rw [hb]
    exact h.refresh.serve call

end Binding

namespace SessionCall

variable {call : SessionCall}

/-- The generation that a call announces. -/
def announced? : SessionCall → Option Generation
  | .dataset (.announce g) => some g
  | _ => none

theorem announces_eq (call : SessionCall) : call.announces = call.announced?.isSome := by
  cases call with
  | dataset c => cases c <;> rfl
  | _ => rfl

theorem eq_of_announced? {g : Generation} (h : call.announced? = some g) : call = .dataset (.announce g) := by
  cases call with
  | dataset c =>
      cases c with
      | announce g' =>
          cases h
          rfl
      | _ => cases h
  | _ => cases h

end SessionCall

namespace Session

variable {s : Session} {call : SessionCall} {calls : List SessionCall} {i : Nat} {b : Binding}

/-! ### Rising generations -/

/-- The generation only ever rises: every generation that the client announces is higher than the current one, and the
dataset does not count beyond the highest number. -/
def Climbs (s : Session) : List SessionCall → Prop
  | [] => True
  | call :: calls =>
    (∀ g ∈ call.announced?, s.dataset.registry.generation.number.toNat < g.number.toNat) ∧
      s.dataset.registry.generation.number.toNat + s.switches [call] < 2 ^ 64 ∧ (s.apply call).state.Climbs calls

instance decidableClimbs (s : Session) : (calls : List SessionCall) → Decidable (s.Climbs calls)
  | [] => inferInstanceAs (Decidable True)
  | call :: calls =>
    have := decidableClimbs (s.apply call).state calls
    inferInstanceAs (Decidable (_ ∧ _ ∧ _))

theorem climbs_append {more : List SessionCall} :
    s.Climbs (calls ++ more) ↔ s.Climbs calls ∧ (s.after calls).Climbs more := by
  induction calls generalizing s with
  | nil => exact ⟨fun h => ⟨trivial, h⟩, And.right⟩
  | cons call calls ih =>
      show _ ∧ _ ∧ (s.apply call).state.Climbs (calls ++ more) ↔ (_ ∧ _ ∧ _) ∧ ((s.apply call).state.after calls).Climbs more
      rw [ih, and_assoc, and_assoc]

/-- One call of a climbing run: the file and the generation stay, or the generation rises. -/
theorem climbs_cases (h : s.Climbs (call :: calls)) :
    ((s.apply call).state.dataset.current = s.dataset.current ∧
        (s.apply call).state.dataset.registry.generation = s.dataset.registry.generation) ∨
      s.dataset.registry.generation.number.toNat <
        (s.apply call).state.dataset.registry.generation.number.toNat := by
  obtain ⟨hhigher, hcount, -⟩ := h
  cases hannounced : call.announced? with
  | some g =>
      obtain rfl := SessionCall.eq_of_announced? hannounced
      exact Or.inr (hhigher g rfl)
  | none =>
      have hsilent : call.announces = false := by rw [SessionCall.announces_eq, hannounced]; rfl
      rcases advances_apply (s := s) hsilent with hsame | ⟨hfile, hgen⟩
      · exact Or.inl hsame
      · refine Or.inr ?_
        simp only [switches, if_neg hfile] at hcount
        rw [hgen, Generation.toNat_next (by omega)]
        omega

/-- The generation rises at least by one whenever the current file changes. -/
theorem toNat_generation_after (h : s.Climbs calls) :
    s.dataset.registry.generation.number.toNat + s.switches calls ≤
      (s.after calls).dataset.registry.generation.number.toNat := by
  induction calls generalizing s with
  | nil => exact Nat.le_refl _
  | cons call calls ih =>
      have hrest := ih h.2.2
      show _ + ((if (s.apply call).state.dataset.current = s.dataset.current then 0 else 1) +
        (s.apply call).state.switches calls) ≤ ((s.apply call).state.after calls).dataset.registry.generation.number.toNat
      rcases climbs_cases h with ⟨hfile, hgen⟩ | hlt
      · rw [hgen] at hrest
        rw [if_pos hfile]
        omega
      · split <;> omega

/-! ### Timely bindings -/

theorem timely_apply (hs : s.WellFormed) (hclimbs : s.Climbs (call :: calls))
    (h : ∀ b ∈ s.bindings, b.Timely s.dataset) :
    ∀ b ∈ (s.apply call).state.bindings, b.Timely (s.apply call).state.dataset := by
  -- A binding that the call is not about: either the current file stays, or the generation moves past what was found.
  have hkept : ∀ a ∈ s.bindings, a.Timely (s.apply call).state.dataset := by
    intro a ha
    rcases climbs_cases hclimbs with ⟨hfile, hgen⟩ | hlt
    · have hnone : s.switches [call] = 0 := by
        simp only [switches, Nat.add_zero]
        exact if_pos hfile
      intro attempt hattempt
      obtain ⟨hle, hstands⟩ := h a ha attempt hattempt
      rw [hgen]
      refine ⟨hle, fun heq m hm => ?_⟩
      have hholds := hstands heq m hm
      exact hholds.congr (showsSame_after hs hnone hholds.resolution)
    · exact (h a ha).of_lt hlt
  intro b hb
  obtain ⟨i, hi⟩ := List.getElem?_of_mem hb
  rcases binding_apply hi with hold | ⟨a, use, rfl, ha, rfl⟩ | ⟨a, rfl, ha, rfl⟩ | ⟨path, requested, rfl, rfl⟩
  · exact hkept b (List.mem_of_getElem? hold)
  · simp only [apply, ha]
    exact Binding.timely_call (h a (List.mem_of_getElem? ha)) use
  · exact hkept a (List.mem_of_getElem? ha)
  · intro a ha
    cases ha

theorem timely_after (hs : s.WellFormed) (hclimbs : s.Climbs calls) (h : ∀ b ∈ s.bindings, b.Timely s.dataset) :
    ∀ b ∈ (s.after calls).bindings, b.Timely (s.after calls).dataset := by
  induction calls generalizing s with
  | nil => exact h
  | cons call calls ih => exact ih (wellFormed_apply hs call) hclimbs.2.2 (timely_apply hs hclimbs h)

/-! ### Bindings that are not used -/

/-- A binding that is not used keeps its last set-up. -/
theorem attempt_after_of_notMem (hunused : ∀ use, SessionCall.use i use ∉ calls)
    (hb : (s.after calls).bindings[i]? = some b) :
    b.attempt = none ∨ ∃ a, s.bindings[i]? = some a ∧ b.attempt = a.attempt := by
  induction calls generalizing s with
  | nil => exact Or.inr ⟨b, hb, rfl⟩
  | cons call calls ih =>
      rcases ih (fun use hmem => hunused use (List.mem_cons_of_mem call hmem)) hb with hnone | ⟨a, ha, hsame⟩
      · exact Or.inl hnone
      · rcases binding_apply ha with hold | ⟨_, use, rfl, -⟩ | ⟨a', -, ha', rfl⟩ | ⟨path, requested, -, rfl⟩
        · exact Or.inr ⟨a, hold, hsame⟩
        · exact absurd List.mem_cons_self (hunused use)
        · exact Or.inr ⟨a', ha', hsame⟩
        · exact Or.inl hsame

/-- After the current file has changed, the last set-up of a binding that was not used since is of an earlier
generation. -/
theorem generation_lt_of_switches (h : ∀ a ∈ s.bindings, a.Timely s.dataset) (hclimbs : s.Climbs calls)
    (hswitches : s.switches calls ≠ 0) (hunused : ∀ use, SessionCall.use i use ∉ calls)
    (hb : (s.after calls).bindings[i]? = some b) {a : Attempt} (ha : b.attempt = some a) :
    a.generation.number.toNat < (s.after calls).dataset.registry.generation.number.toNat := by
  have hrises := toNat_generation_after hclimbs
  rcases attempt_after_of_notMem hunused hb with hnone | ⟨before, hbefore, hsame⟩
  · rw [hnone] at ha
    cases ha
  · have hle := (h before (List.mem_of_getElem? hbefore) a (hsame.symm.trans ha)).1
    omega

/-- **No binding reads by what another file was found to hold, as long as the generation only rises.**  Take any run in
which the client announces none but higher generations and the dataset does not count beyond the highest number.
Whatever a binding reads by at the end of it, it is what its path stands for in the current file.  And a binding that was
not used since the current file last changed looks anew: if it is live, then after either call to read it is left as the
resolution of its path in the current file says, and it answers as if nothing had ever been found out. -/
theorem reads_current_file {identity : RegistryId} {types : Catalog} {settings : Settings} {calls : List SessionCall}
    (hclimbs : (start identity types settings).Climbs calls) :
    let t := (start identity types settings).after calls
    (∀ b ∈ t.bindings, ∀ m, (b.refresh Dataset.cursor t.dataset).1.match? = some m →
      m.StandsFor t.dataset b.path b.requested) ∧
    ∀ earlier later i b, calls = earlier ++ later → ((start identity types settings).after earlier).switches later ≠ 0 →
      (∀ use, SessionCall.use i use ∉ later) → t.bindings[i]? = some b →
      b.refresh Dataset.cursor t.dataset = b.setup Dataset.cursor t.dataset ∧
      (t.dataset.registry.serves b.registration = true →
        (∀ call, call = .read ∨ call = .address → ∃ b', (t.apply (.use i call)).state.bindings[i]? = some b' ∧
          b'.Shows ((t.apply (.use i call)).state.dataset.resolution b.path b.requested)) ∧
        ((b.address Dataset.cursor t.dataset).value, (b.address Dataset.cursor t.dataset).state) =
          t.dataset.freshAddress b.path b.requested) := by
  intro t
  have hwf := wellFormed_start identity types settings
  have hnone : ∀ b ∈ (start identity types settings).bindings, b.Timely (start identity types settings).dataset :=
    fun b hb => absurd hb List.not_mem_nil
  refine ⟨fun b hb m hm => (timely_after hwf hclimbs hnone b hb).standsFor hm, ?_⟩
  intro earlier later i b hsplit hswitches hunused hb
  subst hsplit
  obtain ⟨hearlier, hlater⟩ := climbs_append.1 hclimbs
  have ht : t = ((start identity types settings).after earlier).after later := after_append _ earlier later
  have hpast : ∀ a, b.attempt = some a → a.generation.number.toNat < t.dataset.registry.generation.number.toNat := by
    intro a ha
    rw [ht] at hb ⊢
    exact generation_lt_of_switches (timely_after hwf hearlier hnone) hlater hswitches hunused hb ha
  obtain ⟨hrefresh, htracks⟩ := Binding.refresh_of_generation_lt hpast
  exact ⟨hrefresh, fun hserves =>
    ⟨fun call hcall => shows_apply hb hserves htracks hcall, Binding.address_eq_freshAddress hserves htracks⟩⟩

/-- Reading a binding in the first of two files, announcing a higher generation, and moving on to the second file. -/
def announcedCalls (g : UInt64) : List SessionCall :=
  bothRuns ++ [.bind "hit" none, .dataset (.seek 0), .use 0 .address] ++ [.dataset (.announce ⟨g⟩), .dataset (.seek 1)]

/-- The binding finds its node in the second file, under the generation after the one announced. -/
theorem reads_announcedCalls :
    let t := (start ⟨0⟩ Catalog.builtins ⟨[], 0⟩).after (announcedCalls 5)
    t.dataset.registry.generation = ⟨6⟩ ∧ ∃ b, t.bindings[0]? = some b ∧
      b.refresh Dataset.cursor t.dataset = b.setup Dataset.cursor t.dataset ∧
      ((b.address Dataset.cursor t.dataset).value, (b.address Dataset.cursor t.dataset).state) =
        t.dataset.freshAddress b.path b.requested ∧
      (t.apply (.use 0 .address)).answer = .address (some ⟨0x1008⟩) := by
  intro t
  have hclimbs : (start ⟨0⟩ Catalog.builtins ⟨[], 0⟩).Climbs (announcedCalls 5) := by decide +kernel
  have hlive : t.bindings.map (fun b => t.dataset.registry.serves b.registration) = [true, true] := by decide +kernel
  obtain ⟨b, others, hbindings, hserves, -⟩ := List.map_eq_cons_iff.1 hlive
  have hb : t.bindings[0]? = some b := by rw [hbindings]; rfl
  obtain ⟨-, hfirst⟩ := reads_current_file hclimbs
  obtain ⟨hrefresh, hreads⟩ := hfirst (bothRuns ++ [.bind "hit" none, .dataset (.seek 0), .use 0 .address])
    [.dataset (.announce ⟨5⟩), .dataset (.seek 1)] 0 b rfl (by decide +kernel) (by simp) hb
  exact ⟨by decide +kernel, _, hb, hrefresh, (hreads hserves).2, answer_address (by decide +kernel)⟩

/-- After the highest generation the count starts again.  A binding that was set up under the first generation, in the
first file, takes itself to be up to date in the second: it reads by the position that its node had in the first file and
finds nothing, where a binding of the same column that was never set up finds the object. -/
theorem stale_wrappedCalls :
    let s := (start ⟨0⟩ Catalog.builtins ⟨[], 0⟩).after
      (bothRuns ++ [.bind "hit" none, .dataset (.seek 0), .use 0 .address])
    let t := (start ⟨0⟩ Catalog.builtins ⟨[], 0⟩).after (announcedCalls 0xFFFFFFFFFFFFFFFF)
    s.dataset.registry.generation.number.toNat < (0xFFFFFFFFFFFFFFFF : UInt64).toNat ∧
      t.dataset.current ≠ s.dataset.current ∧ t.dataset.registry.generation = s.dataset.registry.generation ∧
      t.bindings.map (fun b => (b.path, b.requested)) = [("hit", none), ("hit", none)] ∧
      t.bindings.map (fun b => b.isFresh Dataset.cursor t.dataset) = [true, false] ∧
      t.bindings.map (fun b => b.match?.map fun m => m.resolution.node) = [some ⟨0⟩, none] ∧
      (t.dataset.resolution "hit" none).toOption.map Resolution.node = some ⟨1⟩ ∧
      (t.apply (.use 0 .address)).answer = .address none ∧
      (t.apply (.use 1 .address)).answer = .address (some ⟨0x1008⟩) := by
  intro s t
  exact ⟨by decide +kernel, by decide +kernel, by decide +kernel, by decide +kernel, by decide +kernel, by decide +kernel,
    by decide +kernel, answer_address (by decide +kernel), answer_address (by decide +kernel)⟩

end Session

end TypedColumns
