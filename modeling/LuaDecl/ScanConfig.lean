import LuaDecl.SortedMap

/-!
# Scan configuration

Which files a walk takes, by the extension of their name, and which directories it leaves out, by
their name. Both comparisons respect case.
-/

namespace LuaDecl

/-- What a walk takes and leaves out. Extensions are written without a dot. -/
structure ScanConfig where
  extensions : SortedSet
  skipDirs : SortedSet

namespace ScanConfig

/-- The extension that is taken when nothing else is configured. -/
def defaultExtension : String := "lua"

/-- Lua files from every directory. -/
def default : ScanConfig where
  extensions := SortedSet.ofList [defaultExtension]
  skipDirs := SortedMap.empty

/-- Files with the extension are taken. -/
def acceptsExtension (config : ScanConfig) (extension : String) : Bool :=
  config.extensions.contains extension

/-- Directories with the name are left out. -/
def skips (config : ScanConfig) (name : String) : Bool :=
  config.skipDirs.contains name

/-- The name of the configuration file of a directory. -/
def fileName : String := ".luastub.toml"

/-- The key of the extensions. -/
def extensionsKey : String := "extensions"

/-- The key of the directories left out. -/
def skipDirsKey : String := "skip_dirs"

/-- The keys that a configuration file may hold. -/
def knownKeys : List String :=
  [extensionsKey, skipDirsKey]

end ScanConfig

end LuaDecl
