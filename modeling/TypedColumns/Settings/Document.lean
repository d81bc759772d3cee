import TypedColumns.Settings.Basic
import TypedColumns.Toml.Document

/-!
# Settings from a document

Settings are read from a TOML document with the optional entries `suppress_missing`, an array of column paths, and
`arena_base`, a whole number that is not negative.  Other entries are passed over.

* `SettingsError` -- why settings cannot be had.
* `Settings.ofEntries?` -- the settings that a document makes, if its entries have the right types.
* `Settings.checked`, `Settings.ofText`, `Settings.ofFile` -- settings without fault, from a text, from the bytes of a
  file.
-/

namespace TypedColumns

/-- Why settings cannot be had. -/
inductive SettingsError where
  /-- The file is not there, or is no text. -/
  | unreadable
  /-- The text is no document, or an entry is of the wrong type. -/
  | malformed
  /-- The settings are at fault. -/
  | invalid (fault : SettingsFault)
deriving DecidableEq, Repr

namespace Settings

/-- The texts that are the items of an array. -/
def texts? : List Toml.Node → Option (List String)
  | [] => some []
  | .string s :: nodes => (texts? nodes).map (fun ss => s :: ss)
  | _ => none

/-- The suppressed paths that a document gives. -/
def suppressedOf? (es : Toml.Entries) : Option (List String) :=
  match es.lookup "suppress_missing" with
  | none => some []
  | some (.array nodes) => texts? nodes
  | some _ => none

/-- The base that a document gives. -/
def baseOf? (es : Toml.Entries) : Option UInt64 :=
  match es.lookup "arena_base" with
  | none => some defaultArenaBase
  | some (.integer n) => if 0 ≤ n then some (UInt64.ofNat n.toNat) else none
  | some _ => none

/-- The settings that a document makes, if its entries have the right types. -/
def ofEntries? (es : Toml.Entries) : Option Settings :=
  match suppressedOf? es, baseOf? es with
  | some paths, some base => some { paths.foldl suppress default with arenaBase := base }
  | _, _ => none

/-- Settings, unless they are at fault. -/
def checked (s : Settings) : Except SettingsError Settings :=
  match s.fault? with
  | some fault => .error (.invalid fault)
  | none => .ok s

/-- Settings from the text of a document. -/
def ofText (text : String) : Except SettingsError Settings :=
  match (Toml.parse text).bind ofEntries? with
  | some s => s.checked
  | none => .error .malformed

/-- Settings from the bytes of a file, if there is one. -/
def ofFile (contents : Option ByteArray) : Except SettingsError Settings :=
  match contents.bind String.fromUTF8? with
  | some text => ofText text
  | none => .error .unreadable

end Settings

end TypedColumns
