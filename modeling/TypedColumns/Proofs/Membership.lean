import TypedColumns.Registry.Pool

/-!
# Membership over a history of calls

A registration is a member of its registry from the call that makes it until the first attempt to remove it, by its id
through any handle, by itself, or by being dropped.  So what a registry lists can be told from a ledger alone, which
records what was issued and which removals were attempted.

* `Issue`, `RemovalAttempt`, `Ledger` -- what a history of calls has issued, and the attempts at removal with what each
  reported.
* `Ledger.members` -- the issues of a registry that nobody has attempted to remove yet.
* `Pool.issued?`, `Pool.attempt?`, `Pool.record`, `Pool.recordAll` -- what one call and a history of calls add to a
  ledger.
* `Pool.isRouted`, `Pool.areRouted` -- calls that go through handles of the registry that issued the id.
* `Pool.holds` -- whether an issue is a member.
* `Pool.Removes` -- what an attempt at removal changes (`Accounts.removes_of_attempt?`).
* `Accounts` -- what a pool has in common with its ledger; every routed call keeps it (`Accounts.apply`).
* `Pool.membership_after` -- membership after any history of calls.
-/

namespace TypedColumns

/-! ### Ledgers -/

/-- What a registry issued for a path. -/
structure Issue where
  home : RegistryId
  id : BindingId
  path : String
deriving DecidableEq, Repr

/-- The entry of an issue among the live bindings of its registry. -/
def Issue.entry (i : Issue) : BindingId × String := (i.id, i.path)

/-- An attempt at removing the registration of a number, and whether it reported that it did so. -/
structure RemovalAttempt where
  number : Nat
  success : Bool
deriving DecidableEq, Repr

/-- The issues and the attempts at removal, each in the order in which they came about.  The number of a registration is
the position of its issue. -/
structure Ledger where
  issues : List Issue
  attempts : List RemovalAttempt
deriving DecidableEq, Repr

namespace Ledger

/-- The ledger before any call. -/
def empty : Ledger := ⟨[], []⟩

/-- Whether somebody has attempted to remove a registration. -/
def isAttempted (l : Ledger) (number : Nat) : Bool := l.attempts.any (fun a => a.number == number)

/-- The issues of a registry that nobody has attempted to remove. -/
def members (l : Ledger) (identity : RegistryId) : List Issue :=
  (l.issues.zipIdx.filter (fun e => e.1.home == identity && !l.isAttempted e.2)).map Prod.fst

/-- How many registrations a registry has issued. -/
def issued (l : Ledger) (identity : RegistryId) : Nat := l.issues.countP (fun i => i.home == identity)

/-- The ledger with one more issue. -/
def addIssue (l : Ledger) (i : Issue) : Ledger := { l with issues := l.issues ++ [i] }

/-- The ledger with one more attempt. -/
def addAttempt (l : Ledger) (a : RemovalAttempt) : Ledger := { l with attempts := l.attempts ++ [a] }

theorem mem_members {l : Ledger} {identity : RegistryId} {i : Issue} :
    i ∈ l.members identity ↔ i.home = identity ∧ ∃ n, l.issues[n]? = some i ∧ l.isAttempted n = false := by
  simp only [members, List.mem_map, List.mem_filter, List.mem_zipIdx_iff_getElem?, Bool.and_eq_true, beq_iff_eq,
    Bool.not_eq_true', Prod.exists, exists_and_right, exists_eq_right]
  constructor
  · rintro ⟨n, hn, hhome, hnot⟩
    exact ⟨hhome, n, hn, hnot⟩
  · rintro ⟨hhome, n, hn, hnot⟩
    exact ⟨n, hn, hhome, hnot⟩

theorem issued_addIssue (l : Ledger) (i : Issue) (identity : RegistryId) :
    (l.addIssue i).issued identity = l.issued identity + if i.home = identity then 1 else 0 := by
  simp [issued, addIssue, List.countP_append, List.countP_cons]

theorem isAttempted_addAttempt (l : Ledger) (a : RemovalAttempt) (n : Nat) :
    (l.addAttempt a).isAttempted n = (l.isAttempted n || a.number == n) := by
  simp [isAttempted, addAttempt]

/-- A new issue is a member if nobody has attempted to remove its number. -/
theorem members_addIssue {l : Ledger} {i : Issue} (h : l.isAttempted l.issues.length = false) (identity : RegistryId) :
    (l.addIssue i).members identity = l.members identity ++ if i.home = identity then [i] else [] := by
  show (((l.issues ++ [i]).zipIdx.filter (fun e => e.1.home == identity && !l.isAttempted e.2)).map Prod.fst) = _
  rw [List.zipIdx_append, List.filter_append, List.map_append, Nat.zero_add]
  congr 1
  by_cases hi : i.home = identity <;> simp [hi, h]

/-- No two issues share their registry and their id. -/
def IsDistinct (l : Ledger) : Prop := (l.issues.map (fun i => (i.home, i.id))).Nodup

theorem IsDistinct.number_eq {l : Ledger} (h : l.IsDistinct) {n m : Nat} {i j : Issue} (hn : l.issues[n]? = some i)
    (hm : l.issues[m]? = some j) (hhome : i.home = j.home) (hid : i.id = j.id) : n = m := by
  obtain ⟨hlt, -⟩ := List.getElem?_eq_some_iff.1 hn
  refine (List.getElem?_inj (by rwa [List.length_map]) h).1 ?_
  rw [List.getElem?_map, List.getElem?_map, hn, hm, Option.map_some, Option.map_some, hhome, hid]

/-- A new issue keeps the issues distinct if no other one has its registry and its id. -/
theorem IsDistinct.addIssue {l : Ledger} (h : l.IsDistinct) {i : Issue}
    (hnew : ∀ j ∈ l.issues, j.home = i.home → j.id ≠ i.id) : (l.addIssue i).IsDistinct := by
  show ((l.issues ++ [i]).map _).Nodup
  rw [List.map_append, List.nodup_append]
  refine ⟨h, List.pairwise_singleton _ _, ?_⟩
  intro key hkey key' hkey' heq
  obtain ⟨j, hj, rfl⟩ := List.mem_map.1 hkey
  rw [List.mem_singleton.1 hkey'] at heq
  obtain ⟨hhome, hid⟩ := Prod.mk.inj heq
  exact hnew j hj hhome hid

/-- An attempt takes the issue of its number off the members of its registry. -/
theorem members_addAttempt {l : Ledger} (hd : l.IsDistinct) {a : RemovalAttempt} {i : Issue}
    (hi : l.issues[a.number]? = some i) (identity : RegistryId) :
    (l.addAttempt a).members identity =
      if identity = i.home then (l.members identity).filter (fun j => j.id != i.id) else l.members identity := by
  have hfilter : (l.addAttempt a).members identity =
      (l.members identity).filter (fun j => !(j.home == i.home && j.id == i.id)) := by
    rw [members, members, List.filter_map, List.filter_filter]
    congr 1
    refine List.filter_congr ?_
    rintro ⟨j, n⟩ he
    have hj : l.issues[n]? = some j := List.mem_zipIdx_iff_getElem?.1 he
    have hnumber : (a.number == n) = (j.home == i.home && j.id == i.id) := by
      rw [Bool.eq_iff_iff, beq_iff_eq, Bool.and_eq_true, beq_iff_eq, beq_iff_eq]
      constructor
      · rintro rfl
        rw [hi] at hj
        cases hj
        exact ⟨rfl, rfl⟩
      · rintro ⟨hhome, hid⟩
        exact hd.number_eq hi hj hhome.symm hid.symm
    rw [isAttempted_addAttempt, hnumber, Bool.not_or, ← Bool.and_assoc, Bool.and_comm]
    rfl
  rw [hfilter]
  split
  · rename_i hid
    refine List.filter_congr ?_
    intro j hj
    rw [(mem_members.1 hj).1, hid, beq_self_eq_true, Bool.true_and]
    rfl
  · rename_i hid
    refine List.filter_eq_self.2 ?_
    intro j hj
    rw [(mem_members.1 hj).1, beq_eq_false_iff_ne.2 hid, Bool.false_and]
    rfl

end Ledger

/-! ### Recording calls -/

/-- Removing an id that is not live changes nothing. -/
theorem Registry.deregister_of_not_registered {r : Registry} {id : BindingId} (h : r.isRegistered id = false) :
    r.deregister id = (false, r) := by
  have hkeep : r.live.filter (fun entry => entry.1 != id) = r.live := by
    refine List.filter_eq_self.2 ?_
    intro entry he
    exact bne_iff_ne.2 (fun hid => List.any_eq_false.1 h entry he (beq_iff_eq.2 hid))
  obtain ⟨identity, nextId, live, generation, ascending, below⟩ := r
  simp only [deregister, h, hkeep]

namespace Pool

/-- The pool after a history of calls. -/
def after (p : Pool) (calls : List PoolCall) : Pool := (p.run calls).2

/-- What a call issues, as it answers. -/
def issued? (p : Pool) (call : PoolCall) : Option Issue :=
  match call with
  | .register handle path => (p.behind? handle).map (fun r => ⟨r.identity, (r.register path).1.id, path⟩)
  | _ => none

/-- The attempt at removal that a call makes, if it finds a registration.  Dropping one removes it as leaving does, but
keeps the report to itself. -/
def attempt? (p : Pool) (call : PoolCall) : Option RemovalAttempt :=
  match call with
  | .leave number | .drop number => (p.registrations[number]?).map (fun _ => ⟨number, (p.release number).1⟩)
  | .deregister handle number =>
    match p.behind? handle, p.registrations[number]? with
    | some r, some g => some ⟨number, (r.deregister g.id).1⟩
    | _, _ => none
  | _ => none

/-- The ledger with what a call issues and attempts. -/
def record (p : Pool) (l : Ledger) (call : PoolCall) : Ledger :=
  ⟨l.issues ++ (p.issued? call).toList, l.attempts ++ (p.attempt? call).toList⟩

/-- The ledger with what a history of calls issues and attempts. -/
def recordAll (p : Pool) (l : Ledger) : List PoolCall → Ledger
  | [] => l
  | call :: calls => (p.apply call).2.recordAll (p.record l call) calls

/-- Whether a call that removes an id goes through a handle of the registry that issued the id. -/
def isRouted (p : Pool) (l : Ledger) (call : PoolCall) : Bool :=
  match call with
  | .deregister handle number =>
    match p.behind? handle, l.issues[number]? with
    | some r, some i => r.identity == i.home
    | _, _ => true
  | _ => true

/-- Whether all calls of a history that remove an id go through handles of the registry that issued the id. -/
def areRouted (p : Pool) (l : Ledger) : List PoolCall → Bool
  | [] => true
  | call :: calls => p.isRouted l call && (p.apply call).2.areRouted (p.record l call) calls

/-- Whether an issue is a member of its registry. -/
def holds (p : Pool) (i : Issue) : Bool :=
  match p.find? i.home with
  | some r => r.isRegistered i.id
  | none => false

theorem holds_of_find? {p : Pool} {i : Issue} {r : Registry} (h : p.find? i.home = some r) :
    p.holds i = r.isRegistered i.id := by rw [holds, h]

/-- An attempt at removal answers what it reports, unless the registration is dropped. -/
theorem answer_attempt? {p : Pool} {call : PoolCall} {a : RemovalAttempt} (ha : p.attempt? call = some a) :
    (p.apply call).1 = .flag a.success ∨ call = .drop a.number := by
  cases call with
  | leave n =>
      obtain ⟨g, -, rfl⟩ := Option.map_eq_some_iff.1 ha
      exact .inl rfl
  | drop n =>
      obtain ⟨g, -, rfl⟩ := Option.map_eq_some_iff.1 ha
      exact .inr rfl
  | deregister handle n =>
      rw [attempt?] at ha
      rw [apply]
      cases hr : p.behind? handle with
      | none =>
          rw [hr] at ha
          cases ha
      | some r =>
          cases hg : p.registrations[n]? with
          | none =>
              rw [hr, hg] at ha
              cases ha
          | some g =>
              rw [hr, hg] at ha
              cases ha
              exact .inl rfl
  | _ => cases ha

theorem isAlive_iff {p : Pool} {identity : RegistryId} : p.isAlive identity = true ↔ some identity ∈ p.handles :=
  List.contains_iff_mem

theorem isAlive_of_dropHandle {p : Pool} {handle : Nat} {identity : RegistryId}
    (h : isAlive { p with handles := p.handles.set handle none } identity = true) : p.isAlive identity = true := by
  rcases List.mem_or_eq_of_mem_set (isAlive_iff.1 h) with hold | hnone
  · exact isAlive_iff.2 hold
  · cases hnone

theorem find?_eq_some {p : Pool} {identity : RegistryId} {r : Registry} :
    p.find? identity = some r ↔ p.isAlive identity = true ∧ p.registries[identity.number]? = some r := by
  rw [find?]
  split <;> simp [*]

/-- The registries that can be reached depend on the registries and on the handles alone. -/
theorem find?_congr {p p' : Pool} (hr : p'.registries = p.registries) (hh : p'.handles = p.handles) :
    p'.find? = p.find? := by
  funext identity
  rw [find?, find?, isAlive, isAlive, hr, hh]

theorem find?_setRegistry {p : Pool} {home : RegistryId} {r r' : Registry} (h : p.find? home = some r)
    (hid : r'.identity = home) (identity : RegistryId) :
    (p.setRegistry r').find? identity = if identity = home then some r' else p.find? identity := by
  obtain ⟨halive, hr⟩ := find?_eq_some.1 h
  obtain ⟨hlt, -⟩ := List.getElem?_eq_some_iff.1 hr
  subst hid
  by_cases hi : identity = r'.identity
  · rw [if_pos hi, hi]
    exact find?_eq_some.2 ⟨halive, List.getElem?_set_self hlt⟩
  · have hne : r'.identity.number ≠ identity.number := by
      intro hn
      refine hi ?_
      cases identity
      exact congrArg RegistryId.mk hn.symm
    rw [if_neg hi]
    show (if p.isAlive identity then (p.registries.set r'.identity.number r')[identity.number]? else none) = _
    rw [List.getElem?_set_ne hne]
    rfl

/-- Whether the registrations stay as they are, or else the one of a number leaves. -/
def LeavesAtMost (p : Pool) (number : Nat) (p' : Pool) : Prop :=
  p'.registrations = p.registrations ∨
    ∃ g, p.registrations[number]? = some g ∧ p'.registrations = p.registrations.set number g.leave

/-- What an attempt at removing the registration of a number, and of an issue, changes: the issue is taken off its
registry, if that is still there, and the registration may lose its home. -/
structure Removes (p : Pool) (number : Nat) (i : Issue) (p' : Pool) : Prop where
  handles : p'.handles = p.handles
  registries : p'.registries.length = p.registries.length
  views : ∀ identity, p'.find? identity =
    if identity = i.home then (p.find? identity).map (fun r => (r.deregister i.id).2) else p.find? identity
  registrations : p.LeavesAtMost number p'

/-- Removing an issue of a registry that is gone changes no registry that can be reached. -/
theorem Removes.find?_of_gone {p p' : Pool} {n : Nat} {i : Issue} (hp : p.Removes n i p')
    (hgone : p.isAlive i.home = false) : p'.find? = p.find? := by
  funext identity
  rw [hp.views]
  split
  · rename_i hid
    rw [hid, find?, hgone]
    rfl
  · rfl

/-- Removing an issue that is not a member changes no registry. -/
theorem removes_of_not_held {p p' : Pool} {n : Nat} {i : Issue} (hheld : p.holds i = false)
    (hh : p'.handles = p.handles) (hr : p'.registries = p.registries) (hg : p.LeavesAtMost n p') :
    p.Removes n i p' where
  handles := hh
  registries := congrArg List.length hr
  views := by
    intro identity
    rw [find?_congr hr hh]
    split
    · rename_i hid
      rw [hid]
      cases hr : p.find? i.home with
      | none => rfl
      | some r =>
          have hnot : r.isRegistered i.id = false := by rwa [holds, hr] at hheld
          rw [Option.map_some, Registry.deregister_of_not_registered hnot]
    · rfl
  registrations := hg

end Pool

/-! ### What a pool has in common with its ledger -/

/-- What a pool has in common with its ledger.  A registry lists its members only as long as it can be reached, since
one that is gone does not hear of removals. -/
structure Accounts (p : Pool) (l : Ledger) : Prop where
  served : ∀ identity, p.isAlive identity = true → ∃ r, p.find? identity = some r ∧ r.identity = identity
  known : ∀ i ∈ l.issues, i.home.number < p.registries.length
  fresh : ∀ i ∈ l.issues, ∀ r, p.find? i.home = some r → i.id.number < r.nextId
  counted : ∀ identity r, p.find? identity = some r → r.nextId = l.issued identity
  live : ∀ identity r, p.find? identity = some r → r.live = (l.members identity).map Issue.entry
  paired : p.registrations.length = l.issues.length
  registered : ∀ n g i, p.registrations[n]? = some g → l.issues[n]? = some i →
    g.id = i.id ∧ (g.home = some i.home ∨ g.home = none ∧ l.isAttempted n = true)
  distinct : l.IsDistinct
  numbered : ∀ a ∈ l.attempts, a.number < l.issues.length
  once : ∀ n, l.attempts.count ⟨n, true⟩ ≤ 1

namespace Accounts

variable {p p' : Pool} {l : Ledger}

theorem start : Accounts .start .empty where
  served := by
    intro identity h
    have hid : identity = ⟨0⟩ := by simpa [Pool.isAlive, Pool.start] using h
    exact ⟨Registry.empty ⟨0⟩, by rw [hid]; rfl, hid.symm⟩
  known := by simp [Ledger.empty]
  fresh := by simp [Ledger.empty]
  counted := by
    intro identity r h
    obtain ⟨-, hr⟩ := Pool.find?_eq_some.1 h
    rw [List.mem_singleton.1 (List.mem_of_getElem? hr)]
    rfl
  live := by
    intro identity r h
    obtain ⟨-, hr⟩ := Pool.find?_eq_some.1 h
    rw [List.mem_singleton.1 (List.mem_of_getElem? hr)]
    rfl
  paired := rfl
  registered := by simp [Pool.start]
  distinct := List.nodup_nil
  numbered := by simp [Ledger.empty]
  once := by simp [Ledger.empty]

/-- The identity of a registry that can be reached is the one that it is reached by. -/
theorem identity_eq (h : Accounts p l) {identity : RegistryId} {r : Registry} (hr : p.find? identity = some r) :
    r.identity = identity := by
  obtain ⟨r', hr', hid⟩ := h.served identity (Pool.find?_eq_some.1 hr).1
  rw [hr] at hr'
  cases hr'
  exact hid

theorem find?_behind (h : Accounts p l) {handle : Nat} {r : Registry} (hr : p.behind? handle = some r) :
    p.find? r.identity = some r := by
  obtain ⟨identity, -, hid⟩ := Option.bind_eq_some_iff.1 hr
  rw [h.identity_eq hid]
  exact hid

/-- A registration has an issue, of the same id, and it is at home there until somebody has attempted to remove it. -/
theorem issue_of_registration (h : Accounts p l) {n : Nat} {g : Registration} (hg : p.registrations[n]? = some g) :
    ∃ i, l.issues[n]? = some i ∧ g.id = i.id ∧
      (g.home = some i.home ∨ g.home = none ∧ l.isAttempted n = true) := by
  obtain ⟨hlt, -⟩ := List.getElem?_eq_some_iff.1 hg
  have hi : l.issues[n]? = some _ := List.getElem?_eq_getElem (h.paired ▸ hlt)
  exact ⟨_, hi, h.registered n g _ hg hi⟩

/-- Nobody has attempted to remove what is not registered yet. -/
theorem isAttempted_length (h : Accounts p l) : l.isAttempted l.issues.length = false := by
  refine List.any_eq_false.2 ?_
  intro a ha hn
  exact Nat.lt_irrefl _ (beq_iff_eq.1 hn ▸ h.numbered a ha)

/-- Whether an issue is a member is whether nobody has attempted to remove it, as long as its registry is there. -/
theorem holds_eq (h : Accounts p l) {n : Nat} {i : Issue} (hi : l.issues[n]? = some i) :
    p.holds i = (p.isAlive i.home && !l.isAttempted n) := by
  cases halive : p.isAlive i.home with
  | false =>
      rw [Bool.false_and, Pool.holds, Pool.find?, halive]
      rfl
  | true =>
      obtain ⟨r, hr, -⟩ := h.served i.home halive
      rw [Bool.true_and, Pool.holds, hr]
      show r.live.any (fun entry => entry.1 == i.id) = _
      rw [h.live i.home r hr, List.any_map, Bool.eq_iff_iff, List.any_eq_true, Bool.not_eq_true']
      constructor
      · rintro ⟨j, hj, hid⟩
        obtain ⟨hhome, m, hm, hnot⟩ := Ledger.mem_members.1 hj
        rw [h.distinct.number_eq hi hm hhome.symm (beq_iff_eq.1 hid).symm]
        exact hnot
      · intro hnot
        exact ⟨i, Ledger.mem_members.2 ⟨rfl, n, hi, hnot⟩, beq_iff_eq.2 rfl⟩

/-- A pool keeps what it has in common with its ledger if its registrations stay, and each registry that can be reached
has the ids and the members from before, or is a new one without any. -/
theorem of_views (h : Accounts p l) (hg : p'.registrations = p.registrations)
    (hlen : p.registries.length ≤ p'.registries.length)
    (hviews : ∀ identity, p'.isAlive identity = true → ∃ r', p'.find? identity = some r' ∧ r'.identity = identity ∧
      ((∃ r, p.find? identity = some r ∧ r'.nextId = r.nextId ∧ r'.live = r.live) ∨
        p.registries.length ≤ identity.number ∧ r'.nextId = 0 ∧ r'.live = [])) :
    Accounts p' l := by
  have hview : ∀ identity r', p'.find? identity = some r' →
      (∃ r, p.find? identity = some r ∧ r'.nextId = r.nextId ∧ r'.live = r.live) ∨
        p.registries.length ≤ identity.number ∧ r'.nextId = 0 ∧ r'.live = [] := by
    intro identity r' hr'
    obtain ⟨r'', hr'', -, hcases⟩ := hviews identity (Pool.find?_eq_some.1 hr').1
    rw [hr''] at hr'
    cases hr'
    exact hcases
  have hunknown : ∀ identity : RegistryId, p.registries.length ≤ identity.number → ∀ i ∈ l.issues, i.home ≠ identity := by
    rintro _ hnew i hi rfl
    exact Nat.not_lt.2 hnew (h.known i hi)
  refine
    { served := ?served, known := fun i hi => Nat.lt_of_lt_of_le (h.known i hi) hlen, fresh := ?fresh,
      counted := ?counted, live := ?live, paired := hg ▸ h.paired, registered := hg ▸ h.registered, distinct := h.distinct,
      numbered := h.numbered, once := h.once }
  case served =>
    intro identity halive
    obtain ⟨r', hr', hid, -⟩ := hviews identity halive
    exact ⟨r', hr', hid⟩
  case fresh =>
    intro i hi r' hr'
    rcases hview _ _ hr' with ⟨r, hr, hnext, -⟩ | ⟨hnew, -⟩
    · rw [hnext]
      exact h.fresh i hi r hr
    · exact absurd (h.known i hi) (Nat.not_lt.2 hnew)
  case counted =>
    intro identity r' hr'
    rcases hview _ _ hr' with ⟨r, hr, hnext, -⟩ | ⟨hnew, hzero, -⟩
    · rw [hnext]
      exact h.counted identity r hr
    · rw [hzero, Ledger.issued, eq_comm, List.countP_eq_zero]
      intro i hi hhome
      exact hunknown identity hnew i hi (beq_iff_eq.1 hhome)
  case live =>
    intro identity r' hr'
    rcases hview _ _ hr' with ⟨r, hr, -, hlive⟩ | ⟨hnew, -, hlive⟩
    · rw [hlive]
      exact h.live identity r hr
    · have hnone : l.members identity = [] := by
        refine List.eq_nil_iff_forall_not_mem.2 ?_
        intro i hi
        obtain ⟨hhome, n, hn, -⟩ := Ledger.mem_members.1 hi
        exact hunknown identity hnew i (List.mem_of_getElem? hn) hhome
      rw [hlive, hnone]
      rfl

/-- Handles come and go without changing a registry, as long as no registry comes back. -/
theorem of_handles (h : Accounts p l) (hg : p'.registrations = p.registrations) (hr : p'.registries = p.registries)
    (hh : ∀ identity, p'.isAlive identity = true → p.isAlive identity = true) : Accounts p' l := by
  refine h.of_views hg (Nat.le_of_eq (congrArg List.length hr).symm) ?_
  intro identity halive
  obtain ⟨r, hfound, hid⟩ := h.served identity (hh identity halive)
  refine ⟨r, Pool.find?_eq_some.2 ⟨halive, ?_⟩, hid, .inl ⟨r, hfound, rfl, rfl⟩⟩
  rw [hr]
  exact (Pool.find?_eq_some.1 hfound).2

/-- An attempt that reports whether its registration was a member does not make a second success. -/
theorem count_addAttempt_le (h : Accounts p l) {a : RemovalAttempt} {i : Issue} (hi : l.issues[a.number]? = some i)
    (hs : a.success = p.holds i) (n : Nat) : (l.addAttempt a).attempts.count ⟨n, true⟩ ≤ 1 := by
  show (l.attempts ++ [a]).count ⟨n, true⟩ ≤ 1
  rw [List.count_append, List.count_singleton]
  split
  · rename_i ha
    -- A success needs a member, and so nothing was attempted before.
    obtain rfl : a = ⟨n, true⟩ := beq_iff_eq.1 ha
    have hheld := h.holds_eq hi
    rw [← hs] at hheld
    obtain ⟨-, hnot⟩ := Bool.and_eq_true_iff.1 hheld.symm
    rw [Bool.not_eq_true'] at hnot
    have hnone : l.attempts.count ⟨n, true⟩ = 0 := by
      refine List.count_eq_zero.2 ?_
      intro hmem
      exact List.any_eq_false.1 hnot _ hmem (beq_iff_eq.2 rfl)
    exact Nat.le_of_eq (congrArg (· + 1) hnone)
  · exact h.once n

/-- An attempt at removal is kept account of. -/
theorem removes (h : Accounts p l) {a : RemovalAttempt} {i : Issue} (hi : l.issues[a.number]? = some i)
    (hs : a.success = p.holds i) (hp : p.Removes a.number i p') : Accounts p' (l.addAttempt a) where
  served := by
    intro identity halive
    rw [Pool.isAlive, hp.handles] at halive
    obtain ⟨r, hr, hid⟩ := h.served identity halive
    rw [hp.views, hr]
    split
    · exact ⟨_, rfl, hid⟩
    · exact ⟨r, rfl, hid⟩
  known := hp.registries ▸ h.known
  fresh := by
    intro j hj r' hr'
    rw [hp.views] at hr'
    split at hr'
    · obtain ⟨r, hr, rfl⟩ := Option.map_eq_some_iff.1 hr'
      exact h.fresh j hj r hr
    · exact h.fresh j hj r' hr'
  counted := by
    intro identity r' hr'
    rw [hp.views] at hr'
    split at hr'
    · obtain ⟨r, hr, rfl⟩ := Option.map_eq_some_iff.1 hr'
      exact h.counted identity r hr
    · exact h.counted identity r' hr'
  live := by
    intro identity r' hr'
    rw [Ledger.members_addAttempt h.distinct hi]
    rw [hp.views] at hr'
    split at hr'
    · rename_i hid
      obtain ⟨r, hr, rfl⟩ := Option.map_eq_some_iff.1 hr'
      show r.live.filter (fun entry => entry.1 != i.id) = _
      rw [if_pos hid, h.live identity r hr, List.filter_map]
      rfl
    · rename_i hid
      rw [if_neg hid, h.live identity r' hr']
  paired := by
    rcases hp.registrations with hg | ⟨g, -, hg⟩
    · rw [hg]
      exact h.paired
    · rw [hg, List.length_set]
      exact h.paired
  registered := by
    intro n g j hg hj
    have hkept : ∀ g, p.registrations[n]? = some g →
        g.id = j.id ∧ (g.home = some j.home ∨ g.home = none ∧ (l.addAttempt a).isAttempted n = true) := by
      intro g hg
      obtain ⟨hid, hhome⟩ := h.registered n g j hg hj
      refine ⟨hid, hhome.imp_right (fun hleft => ⟨hleft.1, ?_⟩)⟩
      rw [Ledger.isAttempted_addAttempt, hleft.2, Bool.true_or]
    rcases hp.registrations with hsame | ⟨g', hg', hset⟩
    · exact hkept g (hsame ▸ hg)
    · rw [hset] at hg
      by_cases hn : a.number = n
      · subst hn
        obtain ⟨hlt, -⟩ := List.getElem?_eq_some_iff.1 hg'
        rw [List.getElem?_set_self hlt] at hg
        cases hg
        refine ⟨(hkept g' hg').1, .inr ⟨rfl, ?_⟩⟩
        rw [Ledger.isAttempted_addAttempt, beq_self_eq_true, Bool.or_true]
      · rw [List.getElem?_set_ne hn] at hg
        exact hkept g hg
  distinct := h.distinct
  numbered := by
    intro b hb
    rcases List.mem_append.1 hb with hb | hb
    · exact h.numbered b hb
    · rw [List.mem_singleton.1 hb]
      exact (List.getElem?_eq_some_iff.1 hi).1
  once := h.count_addAttempt_le hi hs

/-- Removing an issue from its registry. -/
theorem removes_of_find? (h : Accounts p l) {n : Nat} {i : Issue} {r : Registry} (hr : p.find? i.home = some r)
    (hh : p'.handles = p.handles) (hr' : p'.registries = (p.setRegistry (r.deregister i.id).2).registries)
    (hg : p.LeavesAtMost n p') : p.Removes n i p' where
  handles := hh
  registries := by
    rw [hr']
    exact List.length_set
  views := by
    intro identity
    have hid : (r.deregister i.id).2.identity = i.home := show r.identity = i.home from h.identity_eq hr
    rw [Pool.find?_congr (p := p.setRegistry (r.deregister i.id).2) hr' hh, Pool.find?_setRegistry hr hid]
    split
    · rename_i hsame
      rw [hsame, hr, Option.map_some]
    · rfl
  registrations := hg

/-- A registration that leaves is removed from its registry. -/
theorem removes_release (h : Accounts p l) {n : Nat} {g : Registration} (hg : p.registrations[n]? = some g) :
    ∃ i, l.issues[n]? = some i ∧ (p.release n).1 = p.holds i ∧ p.Removes n i (p.release n).2 := by
  obtain ⟨i, hi, hid, hhome⟩ := h.issue_of_registration hg
  refine ⟨i, hi, ?_⟩
  rw [Pool.release, hg]
  dsimp only
  cases hr : p.home? g with
  | none =>
      have hheld : p.holds i = false := by
        rcases hhome with hhome | ⟨-, hattempted⟩
        · have hnone : p.find? i.home = none := by rwa [Pool.home?, hhome] at hr
          rw [Pool.holds, hnone]
        · rw [h.holds_eq hi, hattempted, Bool.not_true, Bool.and_false]
      exact ⟨hheld.symm, Pool.removes_of_not_held hheld rfl rfl (.inr ⟨g, hg, rfl⟩)⟩
  | some r =>
      have hfound : p.find? i.home = some r := by
        rcases hhome with hhome | ⟨hhome, -⟩
        · rwa [Pool.home?, hhome] at hr
        · rw [Pool.home?, hhome] at hr
          cases hr
      rw [hid, Pool.holds_of_find? hfound]
      exact ⟨rfl, h.removes_of_find? hfound rfl rfl (.inr ⟨g, hg, rfl⟩)⟩

/-- **An attempt at removal reports whether its registration was a member, and it removes that one alone**, if it goes
through a handle of the registry that issued the id. -/
theorem removes_of_attempt? (h : Accounts p l) {call : PoolCall} (hc : p.isRouted l call = true) {a : RemovalAttempt}
    (ha : p.attempt? call = some a) :
    ∃ i, l.issues[a.number]? = some i ∧ a.success = p.holds i ∧ p.Removes a.number i (p.apply call).2 := by
  cases call with
  | leave n =>
      obtain ⟨g, hg, rfl⟩ := Option.map_eq_some_iff.1 ha
      exact h.removes_release hg
  | drop n =>
      obtain ⟨g, hg, rfl⟩ := Option.map_eq_some_iff.1 ha
      exact h.removes_release hg
  | deregister handle n =>
      cases hr : p.behind? handle with
      | none =>
          rw [Pool.attempt?, hr] at ha
          cases ha
      | some r =>
          cases hg : p.registrations[n]? with
          | none =>
              rw [Pool.attempt?, hr, hg] at ha
              cases ha
          | some g =>
              rw [Pool.attempt?, hr, hg] at ha
              cases ha
              obtain ⟨i, hi, hid, -⟩ := h.issue_of_registration hg
              have hhome : r.identity = i.home := by
                rw [Pool.isRouted, hr, hi] at hc
                exact beq_iff_eq.1 hc
              have hfound : p.find? i.home = some r := hhome ▸ h.find?_behind hr
              refine ⟨i, hi, ?_, ?_⟩
              · rw [Pool.holds_of_find? hfound, hid]
                rfl
              · rw [Pool.apply, hr, hg]
                show p.Removes n i (p.setRegistry (r.deregister g.id).2)
                rw [hid]
                exact h.removes_of_find? hfound rfl rfl (.inl rfl)
  | _ => cases ha

/-- A registration is kept account of. -/
theorem register (h : Accounts p l) {r : Registry} (hr : p.find? r.identity = some r) (path : String)
    (hh : p'.handles = p.handles) (hr' : p'.registries = (p.setRegistry (r.register path).2).registries)
    (hg : p'.registrations = p.registrations ++ [(r.register path).1]) :
    Accounts p' (l.addIssue ⟨r.identity, (r.register path).1.id, path⟩) := by
  have hviews : ∀ identity, p'.find? identity =
      if identity = r.identity then some (r.register path).2 else p.find? identity := by
    intro identity
    rw [Pool.find?_congr (p := p.setRegistry (r.register path).2) hr' hh]
    have hid : (r.register path).2.identity = r.identity := rfl
    exact Pool.find?_setRegistry hr hid identity
  have hlen : p'.registries.length = p.registries.length := by
    rw [hr']
    exact List.length_set
  have hknown : r.identity.number < p.registries.length :=
    (List.getElem?_eq_some_iff.1 (Pool.find?_eq_some.1 hr).2).1
  refine
    { served := ?served, known := ?known, fresh := ?fresh, counted := ?counted, live := ?live, paired := ?paired,
      registered := ?registered, distinct := ?distinct, numbered := ?numbered, once := h.once }
  case served =>
    intro identity halive
    rw [Pool.isAlive, hh] at halive
    rw [hviews]
    split
    · rename_i hid
      exact ⟨_, rfl, hid.symm⟩
    · exact h.served identity halive
  case known =>
    intro i hi
    rw [hlen]
    rcases List.mem_append.1 hi with hi | hi
    · exact h.known i hi
    · rw [List.mem_singleton.1 hi]
      exact hknown
  case fresh =>
    intro i hi r' hr'
    rw [hviews] at hr'
    split at hr'
    · rename_i hid
      cases hr'
      rcases List.mem_append.1 hi with hi | hi
      · exact Nat.lt_succ_of_lt (h.fresh i hi r (hid ▸ hr))
      · rw [List.mem_singleton.1 hi]
        exact Nat.lt_succ_self r.nextId
    · rename_i hid
      rcases List.mem_append.1 hi with hi | hi
      · exact h.fresh i hi r' hr'
      · rw [List.mem_singleton.1 hi] at hid
        exact absurd rfl hid
  case counted =>
    intro identity r' hr'
    rw [Ledger.issued_addIssue]
    rw [hviews] at hr'
    split at hr'
    · rename_i hid
      cases hr'
      rw [if_pos hid.symm, ← h.counted identity r (hid ▸ hr)]
      rfl
    · rename_i hid
      rw [if_neg (Ne.symm hid), h.counted identity r' hr', Nat.add_zero]
  case live =>
    intro identity r' hr'
    rw [Ledger.members_addIssue h.isAttempted_length, List.map_append]
    rw [hviews] at hr'
    split at hr'
    · rename_i hid
      cases hr'
      rw [if_pos hid.symm, ← h.live identity r (hid ▸ hr)]
      rfl
    · rename_i hid
      rw [if_neg (Ne.symm hid), h.live identity r' hr', List.map_nil, List.append_nil]
  case paired =>
    show _ = (l.issues ++ [_]).length
    rw [hg, List.length_append, List.length_append, h.paired]
    rfl
  case registered =>
    intro n g i hgn hin
    rw [hg, List.getElem?_append, h.paired] at hgn
    rw [Ledger.addIssue, List.getElem?_append] at hin
    split at hgn
    · rename_i hlt
      rw [if_pos hlt] at hin
      exact h.registered n g i hgn hin
    · rename_i hlt
      rw [if_neg hlt] at hin
      rw [List.mem_singleton.1 (List.mem_of_getElem? hgn), List.mem_singleton.1 (List.mem_of_getElem? hin)]
      exact ⟨rfl, .inl rfl⟩
  case distinct =>
    refine h.distinct.addIssue ?_
    intro j hj hhome hid
    have hlt := h.fresh j hj r (hhome ▸ hr)
    rw [hid] at hlt
    exact Nat.lt_irrefl _ hlt
  case numbered =>
    intro a ha
    exact Nat.lt_of_lt_of_le (h.numbered a ha) (List.length_append ▸ Nat.le_add_right _ _)

/-! ### Calls keep it -/

theorem isAlive_of_clone (h : Accounts p l) {handle : Nat} {r : Registry} (hr : p.behind? handle = some r)
    {identity : RegistryId}
    (halive : Pool.isAlive { p with handles := p.handles ++ [some r.identity] } identity = true) :
    p.isAlive identity = true := by
  rcases List.mem_append.1 (Pool.isAlive_iff.1 halive) with hold | hnew
  · exact Pool.isAlive_iff.2 hold
  · obtain rfl : identity = r.identity := Option.some.inj (List.mem_singleton.1 hnew)
    exact (Pool.find?_eq_some.1 (h.find?_behind hr)).1

/-- Any other call leaves the ledger as it is: at most a registry without issues comes, or one goes, or one takes on a
new generation. -/
theorem quiet (h : Accounts p l) {call : PoolCall} (hi : p.issued? call = none) (ha : p.attempt? call = none) :
    Accounts (p.apply call).2 l := by
  cases call with
  | create =>
      refine h.of_views rfl (List.length_append ▸ Nat.le_add_right _ _) ?_
      intro identity halive
      rcases List.mem_append.1 (Pool.isAlive_iff.1 halive) with hold | hnew
      · obtain ⟨r, hr, hid⟩ := h.served identity (Pool.isAlive_iff.2 hold)
        obtain ⟨-, hfound⟩ := Pool.find?_eq_some.1 hr
        obtain ⟨hlt, -⟩ := List.getElem?_eq_some_iff.1 hfound
        refine ⟨r, Pool.find?_eq_some.2 ⟨halive, ?_⟩, hid, .inl ⟨r, hr, rfl, rfl⟩⟩
        exact (List.getElem?_append_left hlt).trans hfound
      · obtain rfl : identity = ⟨p.registries.length⟩ := Option.some.inj (List.mem_singleton.1 hnew)
        refine ⟨Registry.empty ⟨p.registries.length⟩, Pool.find?_eq_some.2 ⟨halive, ?_⟩, rfl, .inr ⟨?_, rfl, rfl⟩⟩
        · exact List.getElem?_concat_length
        · exact Nat.le_refl _
  | clone handle =>
      rw [Pool.apply]
      cases hr : p.behind? handle with
      | none => exact h
      | some r =>
          exact h.of_handles rfl rfl (fun _ => h.isAlive_of_clone hr)
  | dropHandle handle => exact h.of_handles rfl rfl (fun _ => Pool.isAlive_of_dropHandle)
  | register handle path =>
      rw [Pool.apply]
      cases hr : p.behind? handle with
      | none => exact h
      | some r =>
          rw [Pool.issued?, hr] at hi
          cases hi
  | drop n =>
      have hn : p.registrations[n]? = none := Option.map_eq_none_iff.1 ha
      rw [Pool.apply, Pool.release, hn]
      exact h
  | leave n =>
      have hn : p.registrations[n]? = none := Option.map_eq_none_iff.1 ha
      rw [Pool.apply, Pool.release, hn]
      exact h
  | deregister handle n =>
      rw [Pool.apply]
      rw [Pool.attempt?] at ha
      split
      · rename_i hr hg
        rw [hr, hg] at ha
        cases ha
      · exact h
  | isRegistered handle n =>
      rw [Pool.apply]
      split <;> exact h
  | owns handle n =>
      rw [Pool.apply]
      split <;> exact h
  | announce handle g =>
      rw [Pool.apply]
      cases hr : p.behind? handle with
      | none => exact h
      | some r =>
          have hid : (r.announce g).identity = r.identity := rfl
          have hfound := h.find?_behind hr
          refine h.of_views rfl (Nat.le_of_eq List.length_set.symm) ?_
          intro identity halive
          show ∃ r', (p.setRegistry (r.announce g)).find? identity = some r' ∧ _
          rw [Pool.find?_setRegistry hfound hid]
          split
          · rename_i hsame
            exact ⟨_, rfl, hsame.symm, .inl ⟨r, hsame ▸ hfound, rfl, rfl⟩⟩
          · obtain ⟨r', hr', hid'⟩ := h.served identity halive
            exact ⟨r', hr', hid', .inl ⟨r', hr', rfl, rfl⟩⟩

/-- Every call that is routed keeps what a pool has in common with its ledger. -/
theorem apply (h : Accounts p l) {call : PoolCall} (hc : p.isRouted l call = true) :
    Accounts (p.apply call).2 (p.record l call) := by
  rw [Pool.record]
  cases ha : p.attempt? call with
  | some a =>
      have hi : p.issued? call = none := by cases call <;> first | rfl | cases ha
      obtain ⟨i, hissue, hs, hp⟩ := h.removes_of_attempt? hc ha
      rw [hi, Option.toList_none, List.append_nil]
      exact h.removes hissue hs hp
  | none =>
      rw [Option.toList_none, List.append_nil]
      cases hi : p.issued? call with
      | none =>
          rw [Option.toList_none, List.append_nil]
          exact h.quiet hi ha
      | some i =>
          cases call with
          | register handle path =>
              obtain ⟨r, hr, rfl⟩ := Option.map_eq_some_iff.1 hi
              rw [Pool.apply, hr]
              exact h.register (h.find?_behind hr) path rfl rfl rfl
          | _ => cases hi

/-- Any history of routed calls keeps what a pool has in common with its ledger. -/
theorem after (h : Accounts p l) {calls : List PoolCall} (hc : p.areRouted l calls = true) :
    Accounts (p.after calls) (p.recordAll l calls) := by
  induction calls generalizing p l with
  | nil => exact h
  | cons call calls ih =>
      obtain ⟨hcall, hcalls⟩ := Bool.and_eq_true_iff.1 hc
      exact ih (h.apply hcall) hcalls

/-! ### What it says of members -/

/-- A call gives no handle on a registry that was gone: the only new one to get a handle is one that it creates. -/
theorem isAlive_apply (h : Accounts p l) {identity : RegistryId} {call : PoolCall}
    (halive : (p.apply call).2.isAlive identity = true) :
    p.isAlive identity = true ∨ identity = ⟨p.registries.length⟩ := by
  have hrelease : ∀ n, (p.release n).2.handles = p.handles := by
    intro n
    rw [Pool.release]
    split
    · rfl
    · dsimp only
      split <;> rfl
  cases call with
  | create =>
      rcases List.mem_append.1 (Pool.isAlive_iff.1 halive) with hold | hnew
      · exact .inl (Pool.isAlive_iff.2 hold)
      · exact .inr (Option.some.inj (List.mem_singleton.1 hnew))
  | clone handle =>
      rw [Pool.apply] at halive
      cases hr : p.behind? handle with
      | none =>
          rw [hr] at halive
          exact .inl halive
      | some r =>
          rw [hr] at halive
          exact .inl (h.isAlive_of_clone hr halive)
  | dropHandle handle => exact .inl (Pool.isAlive_of_dropHandle halive)
  | drop n => exact .inl (by rwa [Pool.isAlive, Pool.apply, hrelease] at halive)
  | leave n => exact .inl (by rwa [Pool.isAlive, Pool.apply, hrelease] at halive)
  | _ =>
      rw [Pool.apply] at halive
      split at halive <;> exact .inl halive

/-- A registration has its issue's id, and it is attached exactly if the issue is a member. -/
theorem isAttached_eq (h : Accounts p l) {n : Nat} {i : Issue} (hi : l.issues[n]? = some i) :
    ∃ g, p.registrations[n]? = some g ∧ g.id = i.id ∧ p.isAttached g = p.holds i := by
  obtain ⟨hlt, -⟩ := List.getElem?_eq_some_iff.1 hi
  obtain ⟨g, hg⟩ : ∃ g, p.registrations[n]? = some g := ⟨_, List.getElem?_eq_getElem (h.paired ▸ hlt)⟩
  obtain ⟨hid, hhome⟩ := h.registered n g i hg hi
  refine ⟨g, hg, hid, ?_⟩
  rcases hhome with hhome | ⟨hhome, hattempted⟩
  · rw [Pool.isAttached, Pool.home?, hhome, hid]
    rfl
  · rw [h.holds_eq hi, hattempted, Bool.not_true, Bool.and_false, Pool.isAttached, Pool.home?, hhome]
    rfl

/-- An attempt at removal leaves the members as they are, but for the one of its number. -/
theorem holds_of_removes (h : Accounts p l) {a : RemovalAttempt} {i : Issue} (hi : l.issues[a.number]? = some i)
    (hs : a.success = p.holds i) (hp : p.Removes a.number i p') {m : Nat} {j : Issue} (hj : l.issues[m]? = some j) :
    p'.holds j = (p.holds j && a.number != m) := by
  have hj' : (l.addAttempt a).issues[m]? = some j := hj
  rw [(h.removes hi hs hp).holds_eq hj', h.holds_eq hj, Ledger.isAttempted_addAttempt, Pool.isAlive, hp.handles,
    Bool.not_or, Bool.and_assoc]
  rfl

/-- A call that issues an id answers it; the issue was no member before, and it is one afterwards. -/
theorem holds_of_issued? (h : Accounts p l) {call : PoolCall} {i : Issue} (hi : p.issued? call = some i) :
    (p.apply call).1 = .id i.id ∧ p.holds i = false ∧ (p.apply call).2.holds i = true := by
  cases call with
  | register handle path =>
      obtain ⟨r, hr, rfl⟩ := Option.map_eq_some_iff.1 hi
      have hid : (r.register path).2.identity = r.identity := rfl
      have hfound := h.find?_behind hr
      have hafter : (p.apply (.register handle path)).2.find? r.identity = some (r.register path).2 := by
        rw [Pool.apply, hr]
        exact (Pool.find?_setRegistry hfound hid r.identity).trans (if_pos rfl)
      rw [Pool.holds_of_find? hfound, Pool.holds_of_find? hafter, Pool.apply, hr]
      refine ⟨rfl, r.isRegistered_nextId, ?_⟩
      rw [Registry.isRegistered_register]
      exact Bool.or_eq_true_iff.2 (.inr (beq_iff_eq.2 rfl))
  | _ => cases hi

/-- No registry comes back once the last handle on it is gone, and no attempt to remove one of its issues succeeds any
more. -/
theorem after_of_gone (h : Accounts p l) {n : Nat} {i : Issue} (hi : l.issues[n]? = some i)
    (hgone : p.isAlive i.home = false) {calls : List PoolCall} (hc : p.areRouted l calls = true) :
    (p.after calls).isAlive i.home = false ∧
      (p.recordAll l calls).attempts.count ⟨n, true⟩ = l.attempts.count ⟨n, true⟩ := by
  induction calls generalizing p l with
  | nil => exact ⟨hgone, rfl⟩
  | cons call calls ih =>
      obtain ⟨hcall, hcalls⟩ := Bool.and_eq_true_iff.1 hc
      have hi' : (p.record l call).issues[n]? = some i :=
        (List.getElem?_append_left (List.getElem?_eq_some_iff.1 hi).1).trans hi
      have hgone' : (p.apply call).2.isAlive i.home = false := by
        refine Bool.eq_false_iff.2 (fun halive => ?_)
        rcases h.isAlive_apply halive with hold | hnew
        · rw [hgone] at hold
          cases hold
        · have hlt := h.known i (List.mem_of_getElem? hi)
          rw [hnew] at hlt
          exact Nat.lt_irrefl _ hlt
      have hcount : (p.record l call).attempts.count ⟨n, true⟩ = l.attempts.count ⟨n, true⟩ := by
        show (l.attempts ++ (p.attempt? call).toList).count _ = _
        rw [List.count_append, Nat.add_eq_left]
        refine List.count_eq_zero.2 (fun hmem => ?_)
        obtain ⟨j, hj, hs, -⟩ := h.removes_of_attempt? hcall (Option.mem_toList.1 hmem)
        rw [hi] at hj
        cases hj
        rw [h.holds_eq hi, hgone] at hs
        cases hs
      obtain ⟨hstill, hsame⟩ := ih (h.apply hcall) hi' hgone' hcalls
      exact ⟨hstill, hsame.trans hcount⟩

end Accounts

namespace Pool

/-- **Membership over any history of calls** that removes ids through handles of the registry that issued them.  No id
is issued twice.  A registration is a member from the call that makes it until somebody attempts to remove it, whether
its registry is asked or it is itself, and at most one attempt succeeds: the one that finds it a member.  No attempt
changes the membership of another registration.  A registry lists its members in the order of their registration, and
answers how many they are when it takes on a new generation.  Its ids count its registrations, so that they fit 64 bits
while these are fewer than `2 ^ 64`.  Once the last handle on it is gone, a registry stays gone, and the attempts to
remove its registrations fail and change nothing that can be reached. -/
theorem membership_after (calls : List PoolCall) (h : start.areRouted .empty calls = true) :
    let p := start.after calls
    let l := start.recordAll .empty calls
    l.IsDistinct ∧
    (∀ n i, l.issues[n]? = some i →
      p.holds i = (p.isAlive i.home && !l.isAttempted n) ∧
      (∃ g, p.registrations[n]? = some g ∧ g.id = i.id ∧ p.isAttached g = p.holds i) ∧
      l.attempts.count ⟨n, true⟩ ≤ 1 ∧
      (p.isAlive i.home = false → ∀ more, p.areRouted l more = true →
        (p.after more).isAlive i.home = false ∧
        (p.recordAll l more).attempts.count ⟨n, true⟩ = l.attempts.count ⟨n, true⟩)) ∧
    (∀ handle r, p.behind? handle = some r →
      r.paths = (l.members r.identity).map Issue.path ∧
      (∀ g, (p.apply (.announce handle g)).1 = .number (l.members r.identity).length) ∧
      (∀ n i, l.issues[n]? = some i → i.home = r.identity →
        (p.apply (.isRegistered handle n)).1 = .flag (!l.isAttempted n)) ∧
      r.nextId = l.issued r.identity ∧ (∀ i ∈ l.issues, i.home = r.identity → i.id.number < r.nextId)) ∧
    (∀ call i, p.issued? call = some i →
      (p.apply call).1 = .id i.id ∧ p.holds i = false ∧ (p.apply call).2.holds i = true) ∧
    (∀ call a, p.isRouted l call = true → p.attempt? call = some a → ∃ i, l.issues[a.number]? = some i ∧
      a.success = p.holds i ∧ (p.apply call).2.holds i = false ∧
      (∀ m j, m ≠ a.number → l.issues[m]? = some j → (p.apply call).2.holds j = p.holds j) ∧
      ((p.apply call).1 = .flag a.success ∨ call = .drop a.number) ∧
      (p.isAlive i.home = false →
        (p.apply call).2.handles = p.handles ∧ (p.apply call).2.find? = p.find?)) := by
  intro p l
  have hp : Accounts p l := Accounts.start.after h
  refine ⟨hp.distinct, ?issue, ?behind, fun _ _ => hp.holds_of_issued?, ?attempt⟩
  case issue =>
    intro n i hi
    refine ⟨hp.holds_eq hi, hp.isAttached_eq hi, hp.once n, ?_⟩
    intro hgone more hmore
    exact hp.after_of_gone hi hgone hmore
  case behind =>
    intro handle r hr
    have hlive := hp.live _ r (hp.find?_behind hr)
    refine ⟨?_, ?_, ?_, hp.counted _ r (hp.find?_behind hr), ?_⟩
    · rw [Registry.paths, hlive, List.map_map]
      rfl
    · intro g
      rw [apply, hr]
      show PoolAnswer.number r.live.length = _
      rw [hlive, List.length_map]
    · intro n i hi hhome
      obtain ⟨g, hg, hid, -⟩ := hp.isAttached_eq hi
      have hfound : p.find? i.home = some r := hhome.symm ▸ hp.find?_behind hr
      rw [apply, hr, hg]
      show PoolAnswer.flag (r.isRegistered g.id) = _
      rw [hid, ← holds_of_find? hfound, hp.holds_eq hi, (find?_eq_some.1 hfound).1, Bool.true_and]
    · intro i hi hhome
      exact hp.fresh i hi r (hhome.symm ▸ hp.find?_behind hr)
  case attempt =>
    intro call a hc ha
    obtain ⟨i, hi, hs, hr⟩ := hp.removes_of_attempt? hc ha
    refine ⟨i, hi, hs, ?_, ?_, answer_attempt? ha, ?_⟩
    · rw [hp.holds_of_removes hi hs hr hi, bne_self_eq_false, Bool.and_false]
    · intro m j hm hj
      rw [hp.holds_of_removes hi hs hr hj, bne_iff_ne.2 hm.symm, Bool.and_true]
    · intro hgone
      exact ⟨hr.handles, hr.find?_of_gone hgone⟩

/-- Two bindings on a registry with two handles; the first is removed by its id, by itself and by being dropped. -/
def contestedCalls : List PoolCall :=
  [.register 0 "px", .clone 0, .register 1 "py", .deregister 1 0, .leave 0, .drop 0, .dropHandle 0]

theorem membership_after_contestedCalls :
    start.areRouted .empty contestedCalls = true ∧
    (start.recordAll .empty contestedCalls).attempts = [⟨0, true⟩, ⟨0, false⟩, ⟨0, false⟩] ∧
    ∃ r, (start.after contestedCalls).behind? 1 = some r ∧ r.paths = ["py"] := by
  have hrouted : start.areRouted .empty contestedCalls = true := by decide
  obtain ⟨-, -, hbehind, -⟩ := membership_after contestedCalls hrouted
  obtain ⟨hpaths, -⟩ := hbehind 1 _ rfl
  exact ⟨hrouted, by decide, _, rfl, hpaths⟩

/-- The handle of another registry removes the binding that has the same id there. -/
example : ((start.after [.create, .register 0 "px", .register 1 "py", .deregister 1 0]).behind? 1).map Registry.paths =
    some [] := by decide

end Pool

end TypedColumns
