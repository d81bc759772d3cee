import TypedColumns.Memory.Arena
import TypedColumns.Proofs.PlainAddresses

/-!
# Member walks and the chains they compile to

A member walk is compiled before any object is known: runs of inline members become one offset, and every pointer
member ends a hop.  The plain way to read the same path has an object at hand and goes on member by member, with an
address in place of an offset.  The two agree on every image and from every address.

* `Member.reach?`, `Member.layout`, `memberAddress?` -- the plain walk, by sums and by the bytes of the image alone.
* `pointersAlong` -- how many pointer members a path passes.
* `Address.plus?_add` -- two offsets that fit one word can be added one after the other.
* `follow_step`, `follow_walkMembers` -- one member, and a whole path: the chain of a walk leads from the same object
  to the same address.
* `follow_resolveWalk_iff` -- **the chain of a resolved path means the plain walk.**
-/

namespace TypedColumns

/-! ### The plain walk -/

/-- Where a member of the object at an address leads: what stands at the offset, or what the pointer stored there points
to. -/
def Member.reach? (m : Member) (image : Image) (a : Address) : Option Address :=
  match a.above? m.offset with
  | none => none
  | some slot => if m.pointer then image.stored? slot else some slot

/-- The members of the class that the type of a member resolves to; any other type has none. -/
def Member.layout (types : Catalog) (m : Member) : List Member := ((types.resolve m.type).bind Descriptor.members?).getD []

/-- The address that the named members lead to from an object of the given layout, if every one of them is there and
every step on the way can be made. -/
def memberAddress? (types : Catalog) (image : Image) : List Member → List String → Address → Option Address
  | _, [], a => some a
  | layout, name :: names, a =>
    match findMember? layout name with
    | none => none
    | some m =>
      match m.reach? image a with
      | none => none
      | some b => memberAddress? types image (m.layout types) names b

/-- How many of the named members are pointers. -/
def pointersAlong (types : Catalog) : List Member → List String → Nat
  | _, [] => 0
  | layout, name :: names =>
    match findMember? layout name with
    | none => 0
    | some m => (if m.pointer then 1 else 0) + pointersAlong types (m.layout types) names

/-! ### Offsets one after the other -/

/-- An offset that is the sum of two leads where the two lead one after the other. -/
theorem Address.plus?_add (a c : Address) (m n : UInt64) (h : m.toNat + n.toNat < UInt64.size) :
    a.plus? (m + n) = .ok c ↔ ∃ b, a.plus? m = .ok b ∧ b.plus? n = .ok c := by
  have hsum : (m + n).toNat = m.toNat + n.toNat := by
    rw [UInt64.toNat_add]
    exact Nat.mod_eq_of_lt h
  have hc := c.word.toNat_lt
  rw [Address.plus?_eq_ok_iff, hsum]
  refine ⟨?_, ?_⟩
  · intro e
    have hfit : a.word.toNat + m.toNat < UInt64.size := by
      rw [UInt64.size]
      omega
    have hb : (a.word + m).toNat = a.word.toNat + m.toNat := by
      rw [UInt64.toNat_add]
      exact Nat.mod_eq_of_lt hfit
    refine ⟨⟨a.word + m⟩, (Address.plus?_eq_ok_iff _ _ _).2 hb, (Address.plus?_eq_ok_iff _ _ _).2 ?_⟩
    show c.word.toNat = (a.word + m).toNat + n.toNat
    rw [hb, e, Nat.add_assoc]
  · intro h
    obtain ⟨b, hab, hbc⟩ := h
    rw [(Address.plus?_eq_ok_iff _ _ _).1 hbc, (Address.plus?_eq_ok_iff _ _ _).1 hab, Nat.add_assoc]

theorem Address.plus?_zero (a : Address) : a.plus? 0 = .ok a :=
  (Address.plus?_eq_ok_iff a a 0).2 (Nat.add_zero _).symm

/-! ### Walk and chain -/

/-- A chain leads somewhere when its hops do and the last offset can be added there. -/
theorem PointerChain.follow_eq_ok_iff (c : PointerChain) (image : Image) (base a : Address) :
    c.follow image base = .ok a ↔ ∃ b, chase image c.hops base = .ok b ∧ b.plus? c.last = .ok a := by
  unfold PointerChain.follow
  cases chase image c.hops base with
  | error e => simp
  | ok b => simp

/-- Hops with one more behind them. -/
theorem PointerChain.chase_snoc (image : Image) (os : List UInt64) (o : UInt64) (base a : Address) :
    chase image (os ++ [o]) base = .ok a ↔
      ∃ b slot, chase image os base = .ok b ∧ b.plus? o = .ok slot ∧ image.target slot = .ok a := by
  rw [chase_append]
  cases chase image os base with
  | error e => simp [Except.bind]
  | ok b =>
      simp only [Except.bind, chase, Except.ok.injEq]
      cases hb : b.plus? o with
      | error e => simp [hb]
      | ok slot => cases ht : image.target slot <;> simp [hb, ht]

theorem Member.reach?_eq_some_iff (m : Member) (image : Image) (a b : Address) :
    m.reach? image a = some b ↔
      ∃ slot, a.plus? m.offset = .ok slot ∧ (if m.pointer then image.target slot else .ok slot) = .ok b := by
  simp only [← Address.above?_eq_some_iff]
  rw [reach?]
  cases a.above? m.offset with
  | none => simp
  | some slot =>
      simp only [Option.some.injEq, exists_eq_left']
      split
      · exact image.stored?_eq_some_iff slot b
      · simp

/-- **One member further.**  The chain of the longer walk leads where the chain of the shorter one leads and the member
from there. -/
theorem follow_step {w v : Walk} {m : Member} (h : w.step m = some v) (image : Image) (base a : Address) :
    v.chain.follow image base = .ok a ↔ ∃ c, w.chain.follow image base = .ok c ∧ m.reach? image c = some a := by
  unfold Walk.step at h
  split at h
  · rename_i hfit
    simp only [PointerChain.follow_eq_ok_iff, Member.reach?_eq_some_iff]
    split at h
    · rename_i hp
      cases h
      -- the pointer ends the hop: the pending offset and the member's own are one entry of the chain
      simp only [Walk.chain, PointerChain.chase_snoc, Address.plus?_add _ _ _ _ hfit, Address.plus?_zero, hp, if_true]
      refine ⟨?_, ?_⟩
      · intro h
        obtain ⟨b, ⟨d, slot, hd, ⟨c, hc, hslot⟩, ht⟩, hb⟩ := h
        cases hb
        exact ⟨c, ⟨d, hd, hc⟩, slot, hslot, ht⟩
      · intro h
        obtain ⟨c, ⟨d, hd, hc⟩, slot, hslot, ht⟩ := h
        exact ⟨a, ⟨d, slot, hd, ⟨c, hc, hslot⟩, ht⟩, rfl⟩
    · rename_i hp
      cases h
      have hp : m.pointer = false := by simpa using hp
      simp only [Walk.chain, Address.plus?_add _ _ _ _ hfit, hp, Bool.false_eq_true, if_false]
      refine ⟨?_, ?_⟩
      · intro h
        obtain ⟨d, hd, c, hc, ha⟩ := h
        exact ⟨c, ⟨d, hd, hc⟩, a, ha, rfl⟩
      · intro h
        obtain ⟨c, ⟨d, hd, hc⟩, slot, hslot, hb⟩ := h
        cases hb
        exact ⟨d, hd, c, hc, hslot⟩
  · cases h

theorem length_hops_step {w v : Walk} {m : Member} (h : w.step m = some v) :
    v.hops.length = w.hops.length + (if m.pointer then 1 else 0) := by
  unfold Walk.step at h
  split at h
  · split at h
    · rename_i hp
      cases h
      simp [hp]
    · rename_i hp
      cases h
      simp [hp]
  · cases h

/-- What an accepted walk of at least one member does first: it finds the member, takes the step, and goes on in the
layout of the member if there is more to come. -/
theorem walkMembers_cons {types : Catalog} {path : String} {layout : List Member} {name : String} {names : List String}
    {w v : Walk} (h : walkMembers types path layout (name :: names) w = .ok v) :
    ∃ m u, findMember? layout name = some m ∧ w.step m = some u ∧
      walkMembers types path (m.layout types) names u = .ok v := by
  unfold walkMembers at h
  split at h
  · cases h
  · rename_i m hm
    split at h
    · cases h
    · rename_i u hu
      refine ⟨m, u, hm, hu, ?_⟩
      split at h
      · cases h
        rfl
      · split at h
        · cases h
        · rename_i hl
          unfold Member.layout
          rw [hl]
          exact h

/-- **A whole path.**  The chain of an accepted walk leads where the chain before it leads and the plain walk from
there.  The induction is on the names, with the walk so far arbitrary: its chain is the object that the rest of the path
starts from. -/
theorem follow_walkMembers {types : Catalog} {path : String} {names : List String} {layout : List Member} {w v : Walk}
    (h : walkMembers types path layout names w = .ok v) (image : Image) (base a : Address) :
    v.chain.follow image base = .ok a ↔
      ∃ c, w.chain.follow image base = .ok c ∧ memberAddress? types image layout names c = some a := by
  induction names generalizing layout w with
  | nil =>
      cases h
      simp only [memberAddress?, Option.some.injEq]
      refine ⟨?_, ?_⟩
      · intro ha
        exact ⟨a, ha, rfl⟩
      · intro h
        obtain ⟨c, hc, rfl⟩ := h
        exact hc
  | cons name names ih =>
      obtain ⟨m, u, hm, hu, hrest⟩ := walkMembers_cons h
      rw [ih hrest]
      simp only [memberAddress?, hm, follow_step hu]
      refine ⟨?_, ?_⟩
      · intro h
        obtain ⟨b, ⟨c, hc, hb⟩, ha⟩ := h
        refine ⟨c, hc, ?_⟩
        rw [hb]
        exact ha
      · intro h
        obtain ⟨c, hc, ha⟩ := h
        cases hb : m.reach? image c with
        | none =>
            rw [hb] at ha
            cases ha
        | some b =>
            rw [hb] at ha
            exact ⟨b, ⟨c, hc, hb⟩, ha⟩

/-- An accepted walk passes as many hops as there are pointers on the path. -/
theorem length_hops_walkMembers {types : Catalog} {path : String} {names : List String} {layout : List Member}
    {w v : Walk} (h : walkMembers types path layout names w = .ok v) :
    v.hops.length = w.hops.length + pointersAlong types layout names := by
  induction names generalizing layout w with
  | nil =>
      cases h
      rfl
  | cons name names ih =>
      obtain ⟨m, u, hm, hu, hrest⟩ := walkMembers_cons h
      rw [ih hrest, length_hops_step hu]
      simp only [pointersAlong, hm]
      omega

/-- **The chain of a resolved path means the plain walk.**  It has one entry more than the path has pointers, and from
every object of every image it leads to the address that the members lead to one by one, where one of the two leads
anywhere at all. -/
theorem follow_resolveWalk_iff {types : Catalog} {path : String} {requested : Option Descriptor} {id : NodeId}
    {node : Node} {members : List String} {r : Resolution}
    (h : Schema.resolveWalk types path requested id node members = .ok r) :
    ∃ chain, r.access = .chase chain ∧ chain.offsets ≠ [] ∧
      chain.offsets.length = pointersAlong types node.members members + 1 ∧
      ∀ (image : Image) (base a : Address),
        chain.follow image base = .ok a ↔ memberAddress? types image node.members members base = some a := by
  unfold Schema.resolveWalk at h
  split at h
  · cases h
  · rename_i w hw
    split at h
    · cases h
    · cases h
      refine ⟨w.chain, rfl, by simp [PointerChain.offsets], ?_, ?_⟩
      · have hlen := length_hops_walkMembers hw
        simpa [PointerChain.offsets, Walk.chain, Walk.start] using hlen
      · intro image base a
        rw [follow_walkMembers hw]
        refine ⟨?_, ?_⟩
        · intro h
          obtain ⟨c, hc, ha⟩ := h
          rw [show c = base from (Except.ok.inj ((Address.plus?_zero base).symm.trans hc)).symm] at ha
          exact ha
        · intro ha
          exact ⟨base, Address.plus?_zero base, ha⟩

/-- A small catalog: an event holds a track, a track points to its vertex, a vertex to the track it starts from. -/
def eventTypes : Catalog :=
  ⟨[⟨"int", .numeric .i32⟩,
    ⟨"Vertex", .record [] [⟨"id", "int", 0, false⟩, ⟨"start", "Track", 8, true⟩]⟩,
    ⟨"Track", .record [] [⟨"px", "int", 0, false⟩, ⟨"vertex", "Vertex", 8, true⟩]⟩], by decide +kernel⟩

/-- An event, which holds its track behind a header. -/
def eventNode : Node := ⟨"event", "Event", .primary, none, none, .single, true, [⟨"track", "Track", 24, false⟩]⟩

/-- The memory of one event: its track starts 24 bytes behind the header, the vertex of the track stands behind the event
and points back to the track. -/
def eventArena : Arena :=
  ⟨0x1000, List.replicate 32 0 ++ [0x28, 0x10, 0, 0, 0, 0, 0, 0] ++ List.replicate 8 0 ++
    [0x18, 0x10, 0, 0, 0, 0, 0, 0], by decide, by decide⟩

/-- An inline member, a pointer behind it in the same hop, and a pointer at the end, which leaves the last offset zero.
From the event the members lead back to its track; eight bytes before it a null pointer is in the way. -/
theorem follow_resolveWalk_event :
    Schema.resolveWalk eventTypes "event.track.vertex.start" none ⟨0⟩ eventNode ["track", "vertex", "start"] =
        .ok ⟨⟨0⟩, "Track", .chase ⟨[32, 8], 0⟩⟩ ∧
      (⟨[32, 8], 0⟩ : PointerChain).offsets.length =
        pointersAlong eventTypes eventNode.members ["track", "vertex", "start"] + 1 ∧
      memberAddress? eventTypes eventArena.image eventNode.members ["track", "vertex", "start"] ⟨0x1000⟩ =
        some ⟨0x1018⟩ ∧
      memberAddress? eventTypes eventArena.image eventNode.members ["track", "vertex", "start"] ⟨0xff8⟩ = none := by
  have h : Schema.resolveWalk eventTypes "event.track.vertex.start" none ⟨0⟩ eventNode ["track", "vertex", "start"] =
      .ok ⟨⟨0⟩, "Track", .chase ⟨[32, 8], 0⟩⟩ := by cbv
  obtain ⟨chain, hchain, -, hlength, hfollow⟩ := follow_resolveWalk_iff h
  obtain rfl := Access.chase.inj hchain
  refine ⟨h, hlength, (hfollow eventArena.image ⟨0x1000⟩ ⟨0x1018⟩).1 rfl, ?_⟩
  rw [Option.eq_none_iff_forall_ne_some]
  intro a ha
  have hnull : (⟨[32, 8], 0⟩ : PointerChain).follow eventArena.image ⟨0xff8⟩ = .error .null := rfl
  rw [(hfollow eventArena.image ⟨0xff8⟩ a).2 ha] at hnull
  cases hnull

end TypedColumns
