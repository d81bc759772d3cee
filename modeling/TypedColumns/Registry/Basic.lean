import TypedColumns.Registry.Generation

/-!
# Registries

A registry keeps the bindings that are live on one cursor, under ids that it never issues twice, and the generation of
the schema that the cursor shows.  Registries are told apart by an identity, so that a registration finds its own one
among several.

* `BindingId`, `RegistryId` -- an id within a registry, and the identity of a registry.
* `Registration` -- what a binding holds: its id and its home, until it leaves.
* `Registry` -- the live ids with their paths, in the order of registration; the id to be issued next is not among
  them (`Registry.isRegistered_nextId`).
* `Registry.register`, `Registry.deregister`, `Registry.release` -- joining, and leaving by id or by registration, each
  with what it does to `Registry.isRegistered`.
* `Registry.owns`, `Registry.serves` -- whether a registration belongs to a registry, and whether it is live there.
* `Registry.announce` -- a new generation.
-/

namespace TypedColumns

/-- The number of a binding within its registry.  Ids are issued one by one from zero, so that a 64-bit counter does for
fewer than `2 ^ 64` registrations; here the counter has no bound. -/
structure BindingId where
  number : Nat
deriving DecidableEq, Repr

/-- The written form of a binding's number. -/
def BindingId.text (id : BindingId) : String := s!"binding-{id.number}"

/-- What tells one registry from another. -/
structure RegistryId where
  number : Nat
deriving DecidableEq, Repr

/-- A binding's place in a registry; it has no home any more once it has left. -/
structure Registration where
  id : BindingId
  home : Option RegistryId
deriving DecidableEq, Repr

/-- A registration that has left. -/
def Registration.leave (g : Registration) : Registration := { g with home := none }

/-- The live bindings of a cursor, in the order of registration, and its generation.  Ids are issued in ascending
order, so that the next one is above all that are live. -/
structure Registry where
  identity : RegistryId
  nextId : Nat
  live : List (BindingId × String)
  generation : Generation
  ascending : (live.map (fun entry => entry.1.number)).Pairwise (· < ·)
  below : ∀ entry ∈ live, entry.1.number < nextId
deriving DecidableEq, Repr

namespace Registry

/-- A registry without bindings. -/
def empty (identity : RegistryId) : Registry := ⟨identity, 0, [], .first, List.Pairwise.nil, by simp⟩

/-- Registers a path under a new id. -/
def register (r : Registry) (path : String) : Registration × Registry :=
  (⟨⟨r.nextId⟩, some r.identity⟩,
    { r with
      nextId := r.nextId + 1
      live := r.live ++ [(⟨r.nextId⟩, path)]
      ascending := by
        rw [List.map_append, List.pairwise_append]
        refine ⟨r.ascending, by simp, ?_⟩
        intro x hx y hy
        obtain ⟨entry, he, rfl⟩ := List.mem_map.1 hx
        have hy' : y = r.nextId := by simpa using hy
        rw [hy']
        exact r.below entry he
      below := by
        intro entry he
        rcases List.mem_append.1 he with he | he
        · exact Nat.lt_succ_of_lt (r.below entry he)
        · have hid : entry = (⟨r.nextId⟩, path) := by simpa using he
          rw [hid]
          exact Nat.lt_succ_self r.nextId })

/-- Whether an id is live. -/
def isRegistered (r : Registry) (id : BindingId) : Bool := r.live.any (fun entry => entry.1 == id)

/-- Removes an id; answers whether it was live. -/
def deregister (r : Registry) (id : BindingId) : Bool × Registry :=
  (r.isRegistered id,
    { r with
      live := r.live.filter (fun entry => entry.1 != id)
      ascending := List.Pairwise.sublist (List.Sublist.map _ List.filter_sublist) r.ascending
      below := fun entry he => r.below entry (List.mem_filter.1 he).1 })

/-- Whether a registration was issued by this registry and has not left. -/
def owns (r : Registry) (g : Registration) : Bool := g.home == some r.identity

/-- Whether a registration belongs to this registry and is live. -/
def serves (r : Registry) (g : Registration) : Bool := r.owns g && r.isRegistered g.id

/-- Removes a registration that belongs to this registry; answers whether it was live. -/
def release (r : Registry) (g : Registration) : Bool × Registry :=
  if r.owns g then r.deregister g.id else (false, r)

/-- The paths of the live bindings, in the order of registration. -/
def paths (r : Registry) : List String := r.live.map Prod.snd

/-- The number of live bindings. -/
def size (r : Registry) : Nat := r.live.length

/-- Takes on a new generation. -/
def announce (r : Registry) (g : Generation) : Registry := { r with generation := g }

theorem isRegistered_nextId (r : Registry) : r.isRegistered ⟨r.nextId⟩ = false := by
  rw [Bool.eq_false_iff]
  intro h
  obtain ⟨entry, he, hid⟩ := List.any_eq_true.1 h
  have hlt := r.below entry he
  have heq : entry.1 = ⟨r.nextId⟩ := by simpa using hid
  rw [heq] at hlt
  exact Nat.lt_irrefl _ hlt

theorem isRegistered_deregister_self (r : Registry) (id : BindingId) :
    (r.deregister id).2.isRegistered id = false := by
  simp [deregister, isRegistered]

theorem isRegistered_deregister_of_ne (r : Registry) {id other : BindingId} (h : other ≠ id) :
    (r.deregister id).2.isRegistered other = r.isRegistered other := by
  simp only [deregister, isRegistered, List.any_filter]
  congr 1
  funext entry
  by_cases he : entry.1 = other
  · simp [he, h]
  · simp [he]

theorem isRegistered_register (r : Registry) (path : String) (id : BindingId) :
    (r.register path).2.isRegistered id = (r.isRegistered id || id == ⟨r.nextId⟩) := by
  simp only [register, isRegistered, List.any_append, List.any_cons, List.any_nil, Bool.or_false]
  congr 1
  exact Bool.beq_comm

end Registry

end TypedColumns
