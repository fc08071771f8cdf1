/-!
# Directory trees

A file system is a tree of directories with files and symbolic links at its leaves. A location is
the list of names that leads from a directory down to an entry, without links on the way.

Some of what a disk holds is not in the tree. There are no permissions, so whatever stands in it can
be looked at and read. There are no devices, pipes or sockets. A file has one location, where hard
links would give it more. And names are texts, though to an operating system they are bytes.
-/

namespace LuaDecl.FileSystem

/-- The names that lead down to an entry. -/
abbrev Location :=
  List String

/-- What stands at a location. -/
inductive Entry where
  | file (content : ByteArray)
  | link (target : String)
  | directory (children : List (String × Entry))

namespace Entry

/-- The entry at a location. -/
def at? : Entry → Location → Option Entry
  | e, [] => some e
  | .directory children, name :: below => (children.lookup name).bind (at? · below)
  | _, _ :: _ => none

/-- The children with a name's entry replaced, or added at the end. -/
def setChild (name : String) (new : Entry) : List (String × Entry) → List (String × Entry)
  | [] => [(name, new)]
  | child :: rest =>
    if child.1 = name then (name, new) :: rest else child :: setChild name new rest

/-- The tree with an entry put at a location. The directory above the location has to be there;
otherwise nothing changes. -/
def put (new : Entry) : Entry → Location → Entry
  | _, [] => new
  | .directory children, [name] => .directory (setChild name new children)
  | .directory children, name :: below =>
    match children.lookup name with
    | some child => .directory (setChild name (put new child below) children)
    | none => .directory children
  | e, _ => e

/-- The tree without the entry at a location. -/
def erase : Entry → Location → Entry
  | .directory children, [name] => .directory (children.filter (·.1 ≠ name))
  | .directory children, name :: below =>
    match children.lookup name with
    | some child => .directory (setChild name (erase child below) children)
    | none => .directory children
  | e, _ => e

end Entry

end LuaDecl.FileSystem
