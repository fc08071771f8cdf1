import LuaDecl.FileSystem.Entry

/-!
# Changes between trees

What has to be made or written to turn one tree into another that holds all of it: new directories
and new or altered files, from the top down. Nothing is taken away, and links stay as they are.
-/

namespace LuaDecl.FileSystem

/-- One step on the way to a tree. -/
inductive Change where
  | makeDirectory (location : Location)
  | writeFile (location : Location) (content : ByteArray)

/-- The change with its location seen from the directory above. -/
def Change.under (name : String) : Change → Change
  | makeDirectory location => makeDirectory (name :: location)
  | writeFile location content => writeFile (name :: location) content

/-- The children of a directory. -/
def Entry.children? : Entry → Option (List (String × Entry))
  | directory children => some children
  | _ => none

/-- The entry is a file with the given content. -/
def Entry.hasContent (content : ByteArray) : Entry → Bool
  | file old => old.data == content.data
  | _ => false

/-- The changes that lead from the children of a directory to other children. -/
def changes (before after : List (String × Entry)) : List Change :=
  match after with
  | [] => []
  | (name, .directory below) :: rest =>
    let known := (before.lookup name).bind Entry.children?
    let own := if known.isSome then [] else [.makeDirectory [name]]
    own ++ (changes (known.getD []) below).map (Change.under name) ++ changes before rest
  | (name, .file content) :: rest =>
    let known := (before.lookup name).any (Entry.hasContent content)
    (if known then [] else [.writeFile [name] content]) ++ changes before rest
  | (_, .link _) :: rest => changes before rest

end LuaDecl.FileSystem
