import Mathlib.Data.List.DropRight
import TypedColumns.Text.Blank

/-!
# Texts without the blanks around them

Trimming drops blanks at the front of a text and then at its back, and leaves no blank at either end.

* `Text.trimChars_eq_self_iff` -- what is trimmed loses nothing exactly if neither end does.
* `Text.trim_trim` -- a text without blanks around it has none to lose.
* `Text.Trimmed`, `Text.trim_eq_self_iff` -- a text with no blank at either end; these are the texts that trimming
  leaves as they are.
-/

namespace TypedColumns.Text

/-- Blanks are dropped from the front and then from the back. -/
theorem trimChars_eq (cs : List Char) : trimChars cs = (cs.dropWhile isBlank).rdropWhile isBlank := rfl

/-- Nothing is dropped at the front exactly if no blank stands there. -/
theorem dropWhile_isBlank_eq_self_iff {cs : List Char} :
    cs.dropWhile isBlank = cs ↔ ∀ ch ∈ cs.head?, isBlank ch = false := by
  rw [List.dropWhile_eq_self_iff]
  cases cs with
  | nil => simp
  | cons c cs => simp

/-- Nothing is dropped at the back exactly if no blank stands there. -/
theorem rdropWhile_isBlank_eq_self_iff {cs : List Char} :
    cs.rdropWhile isBlank = cs ↔ ∀ ch ∈ cs.getLast?, isBlank ch = false := by
  rw [List.rdropWhile_eq_self_iff]
  constructor
  · intro h ch hch
    obtain ⟨hne, rfl⟩ := List.mem_getLast?_eq_getLast hch
    simpa using h hne
  · intro h hne
    rw [h _ (List.getLast?_eq_some_getLast hne)]
    exact Bool.false_ne_true

/-- Trimming takes nothing away exactly if nothing is dropped at the front and nothing at the back. -/
theorem trimChars_eq_self_iff {cs : List Char} :
    trimChars cs = cs ↔ cs.dropWhile isBlank = cs ∧ cs.rdropWhile isBlank = cs := by
  rw [trimChars_eq]
  constructor
  · intro h
    have hfront : cs.dropWhile isBlank = cs := by
      refine (List.dropWhile_suffix isBlank).eq_of_length_le ?_
      have hback := (List.rdropWhile_prefix isBlank (cs.dropWhile isBlank)).length_le
      rwa [h] at hback
    rw [hfront] at h
    exact ⟨hfront, h⟩
  · intro h
    rw [h.1, h.2]

theorem trimChars_trimChars (cs : List Char) : trimChars (trimChars cs) = trimChars cs := by
  refine trimChars_eq_self_iff.2 ⟨?_, List.rdropWhile_idempotent isBlank _⟩
  rw [List.dropWhile_eq_self_iff]
  intro hlen hblank
  -- what is left is a first part of a text that does not start with a blank
  have hfirst : trimChars cs <+: cs.dropWhile isBlank := List.rdropWhile_prefix isBlank _
  have hpos : 0 < (cs.dropWhile isBlank).length := Nat.lt_of_lt_of_le hlen hfirst.length_le
  refine List.dropWhile_get_zero_not isBlank cs hpos ?_
  have hget := hfirst.getElem hlen
  simp only [List.get_eq_getElem]
  rw [← hget]
  exact hblank

/-- A text without blanks around it has none to lose. -/
@[simp]
theorem trim_trim (s : String) : trim (trim s) = trim s := by
  rw [trim, trim, String.toList_ofList, trimChars_trimChars]

/-- A text with no blank at either end. -/
structure Trimmed (s : String) : Prop where
  front : ∀ ch ∈ s.toList.head?, isBlank ch = false
  back : ∀ ch ∈ s.toList.getLast?, isBlank ch = false

/-- Trimming leaves exactly the texts alone that have no blank at either end. -/
theorem trim_eq_self_iff {s : String} : trim s = s ↔ Trimmed s := by
  have hchars : trim s = s ↔ trimChars s.toList = s.toList := by
    rw [trim, ← String.toList_inj, String.toList_ofList]
  rw [hchars, trimChars_eq_self_iff, dropWhile_isBlank_eq_self_iff, rdropWhile_isBlank_eq_self_iff]
  exact ⟨fun h => ⟨h.1, h.2⟩, fun h => ⟨h.front, h.back⟩⟩

end TypedColumns.Text
