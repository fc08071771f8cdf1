import LuaDecl.Logged
import LuaDecl.ScanConfig.Suggestion
import LuaDecl.Toml.Document

/-!
# Reading a configuration

A configuration is a TOML document with two keys, each an array. The texts of the array under
`extensions` replace the default, less the dots at their start; those under `skip_dirs` are the
directories left out. Items of other kinds do not count, other values and other keys are reported.
Only a text that is no TOML fails.
-/

namespace LuaDecl.ScanConfig

/-- The texts of the array under a key. A value that is no array is reported. -/
def texts? (document : SortedMap Toml.Value) (key : String) : Logged (Option (List String)) :=
  match document.find? key with
  | none => pure none
  | some value =>
    match value.items? with
    | some items => pure (some (items.filterMap Toml.Value.text?))
    | none => do
      Logged.log (.arrayExpected key)
      pure none

/-- The extension without the dots at its start. -/
def withoutDots (extension : String) : String :=
  String.ofList (extension.toList.dropWhile (· = '.'))

/-- The keys of a document that mean nothing, in order. -/
def unknownKeys (document : SortedMap Toml.Value) : List String :=
  document.keys.filter fun key => !knownKeys.contains key

/-- The configuration that a document describes. -/
def ofDocument (document : SortedMap Toml.Value) : Logged ScanConfig := do
  (⟨(), (unknownKeys document).map fun key => .unknownKey key (suggestion? key)⟩ : Logged Unit)
  let extensions ← texts? document extensionsKey
  let skipDirs ← texts? document skipDirsKey
  return {
    extensions := match extensions with
      | some texts => SortedSet.ofList (texts.map withoutDots)
      | none => default.extensions
    skipDirs := match skipDirs with
      | some texts => SortedSet.ofList texts
      | none => default.skipDirs }

/-- The configuration that a text describes, or nothing when it is no TOML document. -/
def read? (text : String) : Option (Logged ScanConfig) :=
  (Toml.document? text).map ofDocument

end LuaDecl.ScanConfig
