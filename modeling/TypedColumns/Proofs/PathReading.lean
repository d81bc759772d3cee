import TypedColumns.Text.Path

/-!
# What the readings of a path are

The readings of a path are computed by taking components off its end.  Said without the computation, a reading is a way
to write the path as an object's name, a dot, and member names with dots between them.

* `Path.IsReading` -- the ways to write a path like that.
* `Path.components_eq_splitOn`, `Path.joinDots_eq_intercalate` -- cutting and joining are those of the core library.
* `Path.mem_readings_iff` -- **the readings of a path are exactly the ways to write it.**
* `Path.readings_ascending` -- they come with ascending numbers of members.
* `Path.findSome?_readings` -- a search through the readings answers at the one with the fewest members.
-/

namespace TypedColumns.Path

/-- A way to write a path: the name of an object, and at least one member behind it. -/
def IsReading (path : String) (r : Reading) : Prop :=
  r.members ≠ [] ∧ (∀ m ∈ r.members, isSegment m.toList = true) ∧ path = r.object ++ "." ++ dotted r.members

/-! ### Cutting and joining -/

theorem components_eq_splitOn (cs : List Char) : components cs = cs.splitOn '.' := by
  induction cs with
  | nil => rfl
  | cons c cs ih =>
      rw [List.splitOn_cons_eq_if_modifyHead, components, ih]
      by_cases hc : c = '.'
      · simp [hc]
      · cases hw : cs.splitOn '.' with
        | nil => exact absurd hw (List.splitOn_ne_nil '.' cs)
        | cons w ws => simp [hc]

theorem joinDots_eq_intercalate (ws : List (List Char)) : joinDots ws = ['.'].intercalate ws := by
  induction ws with
  | nil => rfl
  | cons w ws ih =>
      cases ws with
      | nil => simp [joinDots]
      | cons v ws => simp [joinDots, ih, List.intercalate_cons_cons]

/-- Pieces in two parts are joined part by part. -/
theorem joinDots_append {us ws : List (List Char)} (hu : us ≠ []) (hw : ws ≠ []) :
    joinDots (us ++ ws) = joinDots us ++ '.' :: joinDots ws := by
  induction us with
  | nil => exact absurd rfl hu
  | cons u us ih =>
      cases us with
      | nil =>
          cases ws with
          | nil => exact absurd rfl hw
          | cons w ws => rfl
      | cons v us =>
          show u ++ '.' :: joinDots (v :: us ++ ws) = (u ++ '.' :: joinDots (v :: us)) ++ '.' :: joinDots ws
          rw [ih (by simp)]
          simp

/-- A text with a dot in it is cut before and behind the dot. -/
theorem components_append (cs ds : List Char) : components (cs ++ '.' :: ds) = components cs ++ components ds := by
  rw [components_eq_splitOn, components_eq_splitOn, components_eq_splitOn, List.splitOn_append_cons_self]

theorem components_joinDots {ws : List (List Char)} (hw : ws ≠ []) (hdot : ∀ w ∈ ws, '.' ∉ w) :
    components (joinDots ws) = ws := by
  rw [components_eq_splitOn, joinDots_eq_intercalate]
  exact List.splitOn_intercalate '.' hdot hw

theorem dot_notMem_of_isSegment {w : List Char} (h : isSegment w = true) : '.' ∉ w := by
  intro hd
  have hall : w.all isSegmentChar = true := (Bool.and_eq_true_iff.1 h).2
  have hc : isSegmentChar '.' = true := List.all_eq_true.1 hall '.' hd
  revert hc
  decide

/-! ### Taking components off the end -/

/-- The readings of some components, given from last to first: some of the last ones, all of which can name members,
are taken, and at least one is left for the object. -/
theorem mem_readingsFrom_iff (ws : List (List Char)) (members : List String) (r : Reading) :
    r ∈ readingsFrom ws members ↔
      ∃ taken rest, ws = taken ++ rest ∧ taken ≠ [] ∧ rest ≠ [] ∧ (∀ w ∈ taken, isSegment w = true) ∧
        r = ⟨String.ofList (joinDots rest.reverse), taken.reverse.map String.ofList ++ members⟩ := by
  induction ws generalizing members with
  | nil =>
      refine ⟨?_, ?_⟩
      · intro h
        cases h
      · intro h
        obtain ⟨taken, rest, hws, htaken, -⟩ := h
        exact absurd (List.append_eq_nil_iff.1 hws.symm).1 htaken
  | cons w ws ih =>
      cases ws with
      | nil =>
          refine ⟨?_, ?_⟩
          · intro h
            cases h
          · intro h
            obtain ⟨taken, rest, hws, htaken, hrest, -⟩ := h
            have hlen := congrArg List.length hws
            have h1 := List.length_pos_iff.2 htaken
            have h2 := List.length_pos_iff.2 hrest
            simp only [List.length_cons, List.length_nil, List.length_append] at hlen
            omega
      | cons v ws =>
          by_cases hseg : isSegment w = true
          · simp only [readingsFrom, hseg, if_true, List.mem_cons]
            rw [ih]
            refine ⟨?_, ?_⟩
            · intro h
              rcases h with rfl | ⟨taken, rest, hws, htaken, hrest, hall, rfl⟩
              · exact ⟨[w], v :: ws, rfl, by simp, by simp, by simpa using hseg, rfl⟩
              · refine ⟨w :: taken, rest, by rw [hws]; rfl, by simp, hrest, ?_, by simp⟩
                intro u hu
                rcases List.mem_cons.1 hu with rfl | hu
                · exact hseg
                · exact hall u hu
            · intro h
              obtain ⟨taken, rest, hws, htaken, hrest, hall, rfl⟩ := h
              cases taken with
              | nil => exact absurd rfl htaken
              | cons t taken =>
                  rw [List.cons_append, List.cons.injEq] at hws
                  obtain ⟨rfl, hrest'⟩ := hws
                  cases taken with
                  | nil =>
                      left
                      rw [show rest = v :: ws from hrest'.symm]
                      rfl
                  | cons u taken =>
                      right
                      exact ⟨u :: taken, rest, hrest', by simp, hrest,
                        fun x hx => hall x (List.mem_cons_of_mem _ hx), by simp⟩
          · simp only [readingsFrom, hseg, Bool.false_eq_true, if_false, List.not_mem_nil, false_iff]
            intro h
            obtain ⟨taken, rest, hws, htaken, -, hall, -⟩ := h
            cases taken with
            | nil => exact absurd rfl htaken
            | cons t taken =>
                obtain ⟨rfl, -⟩ := List.cons.inj hws
                exact hseg (hall _ (by simp))

theorem readingsFrom_ascending (ws : List (List Char)) (members : List String) :
    (readingsFrom ws members).Pairwise (fun r q => r.members.length < q.members.length) := by
  induction ws generalizing members with
  | nil => exact List.Pairwise.nil
  | cons w ws ih =>
      cases ws with
      | nil => exact List.Pairwise.nil
      | cons v ws =>
          by_cases hseg : isSegment w = true
          · simp only [readingsFrom, hseg, if_true]
            refine List.pairwise_cons.2 ⟨?_, ih _⟩
            intro q hq
            obtain ⟨taken, rest, -, htaken, -, -, rfl⟩ := (mem_readingsFrom_iff _ _ _).1 hq
            have hpos := List.length_pos_iff.2 htaken
            simp only [List.length_append, List.length_map, List.length_reverse, List.length_cons]
            omega
          · simp only [readingsFrom, hseg, Bool.false_eq_true, if_false]
            exact List.Pairwise.nil

/-! ### Whole paths -/

/-- A reading cuts a path into the components of the object and the members. -/
theorem IsReading.components_eq {path : String} {r : Reading} (h : IsReading path r) :
    components path.toList = components r.object.toList ++ r.members.map String.toList := by
  obtain ⟨hne, hseg, hpath⟩ := h
  have hdot : ∀ w ∈ r.members.map String.toList, '.' ∉ w := by
    intro w hw
    obtain ⟨m, hm, rfl⟩ := List.mem_map.1 hw
    exact dot_notMem_of_isSegment (hseg m hm)
  rw [hpath]
  simp only [String.toList_append, dotted, String.toList_ofList, List.append_assoc]
  rw [show ".".toList ++ joinDots (r.members.map String.toList) = '.' :: joinDots (r.members.map String.toList)
    from rfl, components_append, components_joinDots (by simpa using hne) hdot]

/-- **The readings of a path are exactly the ways to write it.** -/
theorem mem_readings_iff (path : String) (r : Reading) : r ∈ readings path ↔ IsReading path r := by
  rw [readings, mem_readingsFrom_iff]
  refine ⟨?_, ?_⟩
  · intro h
    obtain ⟨taken, rest, hws, htaken, hrest, hall, rfl⟩ := h
    have hcomp : components path.toList = rest.reverse ++ taken.reverse := by
      rw [← List.reverse_append, ← hws, List.reverse_reverse]
    refine ⟨by simpa using htaken, ?_, ?_⟩
    · intro m hm
      simp only [List.append_nil, List.mem_map, List.mem_reverse] at hm
      obtain ⟨w, hw, rfl⟩ := hm
      rw [String.toList_ofList]
      exact hall w hw
    · have hpath : path.toList = joinDots rest.reverse ++ '.' :: joinDots taken.reverse := by
        rw [← joinDots_components path.toList, hcomp]
        exact joinDots_append (by simpa using hrest) (by simpa using htaken)
      apply String.toList_injective
      rw [hpath]
      simp [dotted, Function.comp_def]
  · intro h
    have hcomp := IsReading.components_eq h
    obtain ⟨hne, hseg, -⟩ := h
    refine ⟨(r.members.map String.toList).reverse, (components r.object.toList).reverse, ?_, by simpa using hne, ?_,
      ?_, ?_⟩
    · rw [hcomp, List.reverse_append]
    · simpa using components_ne_nil r.object.toList
    · intro w hw
      obtain ⟨m, hm, rfl⟩ := List.mem_map.1 (List.mem_reverse.1 hw)
      exact hseg m hm
    · simp [joinDots_components, Function.comp_def]

theorem readings_ascending (path : String) :
    (readings path).Pairwise (fun r q => r.members.length < q.members.length) :=
  readingsFrom_ascending _ _

/-- A search through the readings of a path answers at the reading with the fewest members at which there is an answer. -/
theorem findSome?_readings {α : Type} (path : String) (f : Reading → Option α) (a : α) :
    (readings path).findSome? f = some a ↔
      ∃ r, IsReading path r ∧ f r = some a ∧
        ∀ q, IsReading path q → q.members.length < r.members.length → f q = none := by
  rw [List.findSome?_eq_some_iff]
  have hasc := readings_ascending path
  refine ⟨?_, ?_⟩
  · intro h
    obtain ⟨before, r, after, hsplit, hr, hnone⟩ := h
    refine ⟨r, (mem_readings_iff path r).1 (by rw [hsplit]; simp), hr, ?_⟩
    intro q hq hlt
    have hmem := (mem_readings_iff path q).2 hq
    rw [hsplit] at hmem hasc
    obtain ⟨-, hrest, -⟩ := List.pairwise_append.1 hasc
    rcases List.mem_append.1 hmem with hmem | hmem
    · exact hnone q hmem
    · rcases List.mem_cons.1 hmem with rfl | hmem
      · exact absurd hlt (Nat.lt_irrefl _)
      · exact absurd hlt (Nat.lt_asymm ((List.pairwise_cons.1 hrest).1 q hmem))
  · intro h
    obtain ⟨r, hr, hfr, hnone⟩ := h
    obtain ⟨before, after, hsplit⟩ := List.append_of_mem ((mem_readings_iff path r).2 hr)
    refine ⟨before, r, after, hsplit, hfr, ?_⟩
    intro q hq
    have hmem : IsReading path q := (mem_readings_iff path q).1 (by rw [hsplit]; simp [hq])
    rw [hsplit] at hasc
    exact hnone q hmem ((List.pairwise_append.1 hasc).2.2 q hq r (by simp))

end TypedColumns.Path
