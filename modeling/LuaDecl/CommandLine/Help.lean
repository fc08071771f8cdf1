/-!
# Help and version texts
-/

namespace LuaDecl.CommandLine

/-- The name of the program. -/
def programName : String := "luastub"

/-- The line that names the version. -/
def versionText : String := programName ++ " 0.1.0\n"

/-- How the program is called, in one line. -/
def usageText : String := "Usage: " ++ programName ++ " [OPTIONS] --out <FILE> <INPUT>...\n"

/-- What the program does and how it is called. -/
def helpText : String :=
  String.join [
    "Generate a `---@meta` stub file describing every global Lua function\n",
    "\n",
    usageText,
    "\n",
    "Arguments:\n",
    "  <INPUT>...  Directories to scan recursively, or individual .lua files\n",
    "\n",
    "Options:\n",
    "  -o, --out <FILE>     Output stub file (parent directories are created)\n",
    "      --config <PATH>  Config file ",
    "(default: .luastub.toml in the current directory, if present)\n",
    "      --json           Print the summary as JSON instead of a sentence\n",
    "  -v, --verbose...     Increase log verbosity (-v info, -vv debug)\n",
    "  -h, --help           Print help\n",
    "  -V, --version        Print version\n"]

end LuaDecl.CommandLine
