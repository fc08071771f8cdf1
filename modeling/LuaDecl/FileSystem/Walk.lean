import LuaDecl.FileSystem.Resolve

/-!
# Walking directories

A walk goes through a directory and the directories below it, entries in the order of their names,
and leaves out directories of certain names. Links are leaves of a walk, wherever they lead, and so
are directories that cannot be opened.
-/

namespace LuaDecl.FileSystem

/-- A file or link below a directory, or a directory there that cannot be opened. -/
structure Leaf where
  location : Location
  entry : Entry

/-- Groups of leaves, one for each name, in the order of the names. -/
def inNameOrder (groups : List (String × List Leaf)) : List Leaf :=
  (groups.mergeSort fun a b => a.1 ≤ b.1).flatMap Prod.snd

/-- The leaves at and below each child of a directory, by the child's name. Directories are opened
at the locations that `opens` holds of. -/
def leafGroups (skips : String → Bool) (opens : Location → Bool)
    (children : List (String × Entry)) : List (String × List Leaf) :=
  match children with
  | [] => []
  | (name, .directory below) :: rest =>
    let leaves :=
      if skips name then []
      else if opens [name] then
        (inNameOrder (leafGroups skips (fun l => opens (name :: l)) below)).map fun l =>
          ⟨name :: l.location, l.entry⟩
      else [⟨[name], .directory below⟩]
    (name, leaves) :: leafGroups skips opens rest
  | (name, entry) :: rest => (name, [⟨[name], entry⟩]) :: leafGroups skips opens rest

/-- The leaves below a directory, in walk order. -/
def leaves (skips : String → Bool) (opens : Location → Bool) (children : List (String × Entry)) :
    List Leaf :=
  inNameOrder (leafGroups skips opens children)

end LuaDecl.FileSystem
