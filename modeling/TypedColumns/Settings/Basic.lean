import TypedColumns.Memory.Arena
import TypedColumns.Text.Blank
import TypedColumns.Text.Path

/-!
# Settings

What a client can set for a dataset: the columns of which it does not want to hear when they are missing, and where
arenas start.

* `Settings`, `Settings.default` -- the settings, with the suppressed paths in ascending order.
* `Settings.suppress`, `Settings.isSuppressed`, `Settings.arena` -- their use.
* `Settings.fault?` -- the first thing wrong with some settings: the base is checked before the paths, and these in
  ascending order.
-/

namespace TypedColumns

/-- What a client can set for a dataset. -/
structure Settings where
  suppressed : List String
  arenaBase : UInt64
deriving DecidableEq, Repr

/-- What can be wrong with some settings. -/
inductive SettingsFault where
  | nullBase
  | highBase (base : UInt64)
  | blankPath
  | malformedPath (path : String)
deriving DecidableEq, Repr

/-- What is wrong, as a text. -/
def SettingsFault.reason : SettingsFault → String
  | .nullBase => "arena_base 0 is reserved for the null address"
  | .highBase base =>
    "arena_base " ++ (Address.mk base).text ++ " is above the maximum " ++ (Address.mk maxArenaBase).text
  | .blankPath => "empty suppressed column path"
  | .malformedPath path => "malformed suppressed column path: " ++ path

/-- The text of a fault in some settings. -/
def SettingsFault.message (f : SettingsFault) : String := "Invalid configuration: " ++ f.reason

namespace Settings

/-- Puts a text into an ascending list, unless it is there already. -/
def insertOrdered (x : String) : List String → List String
  | [] => [x]
  | y :: ys => if x < y then x :: y :: ys else if x = y then y :: ys else y :: insertOrdered x ys

theorem mem_insertOrdered {x y : String} {ys : List String} : y ∈ insertOrdered x ys ↔ y = x ∨ y ∈ ys := by
  induction ys with
  | nil => simp [insertOrdered]
  | cons z zs ih =>
      unfold insertOrdered
      split
      · simp
      · split
        · rename_i h
          simp [h]
        · simp only [List.mem_cons, ih]
          constructor
          · rintro (h | h | h) <;> simp [h]
          · rintro (h | h | h) <;> simp [h]

/-- The settings that hold unless others are made. -/
def default : Settings := ⟨[], defaultArenaBase⟩

/-- Settings under which nothing is told of a missing column. -/
def suppress (s : Settings) (path : String) : Settings := { s with suppressed := insertOrdered path s.suppressed }

/-- Whether nothing is to be told of a missing column. -/
def isSuppressed (s : Settings) (path : String) : Bool := s.suppressed.contains path

theorem isSuppressed_suppress (s : Settings) (path other : String) :
    (s.suppress path).isSuppressed other = (other == path || s.isSuppressed other) := by
  rw [Bool.eq_iff_iff]
  simp [isSuppressed, suppress, mem_insertOrdered]

/-- An empty arena where these settings let it start. -/
def arena (s : Settings) : Arena := Arena.withBase s.arenaBase

/-- Whether a path has a dot where it cannot be read as a column: at its start, or before something that is neither
the end nor a member name. -/
def isMalformed (path : String) : Bool :=
  path.toList.head? == some '.' ||
    (Path.isDotted path && path.toList.getLast? != some '.' && (Path.readings path).isEmpty)

/-- The first thing wrong with some paths. -/
def pathFault? : List String → Option SettingsFault
  | [] => none
  | path :: paths =>
    if (Text.trimChars path.toList).isEmpty then some .blankPath
    else if isMalformed path then some (.malformedPath path)
    else pathFault? paths

/-- The first thing wrong with some settings. -/
def fault? (s : Settings) : Option SettingsFault :=
  if s.arenaBase = 0 then some .nullBase
  else if maxArenaBase < s.arenaBase then some (.highBase s.arenaBase)
  else pathFault? s.suppressed

end Settings

end TypedColumns
