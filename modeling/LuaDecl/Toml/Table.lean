import LuaDecl.Toml.Value

/-!
# Tables of TOML documents

A document builds its tables piece by piece, and how a table came to be decides what may still be
added to it. A table with a header is complete, except that headers may put further tables below it;
a table that only longer headers imply may get one header of its own; a table that dotted keys made
grows by dotted keys only. An array of tables grows by headers, and what a header puts below it goes
into its last element.
-/

namespace LuaDecl.Toml

/-- How a table came to be. -/
inductive Origin where
  /-- By a header or braces of its own. -/
  | explicit
  /-- By the header of a table below it. -/
  | implied
  /-- By a dotted key that leads through it. -/
  | dotted
  deriving DecidableEq, Repr

/-- A part of a document that is being built. Of an array of tables the latest element comes first,
the others after it, newest first. -/
inductive Node where
  | value (value : Value)
  | table (origin : Origin) (members : List (String × Node))
  | tables (latest : List (String × Node)) (earlier : List (List (String × Node)))

/-- The members of a table that is being built, in the order in which they were added. -/
abbrev Members :=
  List (String × Node)

namespace Members

/-- The members with the value of a key replaced. -/
def replace (key : String) (node : Node) (members : Members) : Members :=
  members.map fun m => if m.1 = key then (key, node) else m

/-- The members without a key. -/
def remove (key : String) (members : Members) : Members :=
  members.filter fun m => m.1 ≠ key

/-- Follows a path of keys and changes the table at its end. Keys that are not there become tables
of the given origin. Dotted keys may not lead through a table of explicit origin. -/
def update (origin : Origin) (change : Origin → Members → Option Members) :
    (path : List String) → Origin → Members → Option Members
  | [], own, members => change own members
  | key :: path, _, members =>
    match members.lookup key with
    | none => do
      let below ← update origin change path origin []
      return members ++ [(key, .table origin below)]
    | some (.value _) => none
    | some (.table own below) =>
      if origin = .dotted ∧ own = .explicit then none
      else do
        let below ← update origin change path own below
        return members.replace key (.table own below)
    | some (.tables latest earlier) => do
      let latest ← update origin change path .explicit latest
      return members.replace key (.tables latest earlier)

/-- The members with a value added under a dotted key: a path and the last key. A path has to end in
a table that dotted keys made. -/
def assign (members : Members) (path : List String) (key : String) (value : Value) :
    Option Members :=
  let add (origin : Origin) (members : Members) : Option Members :=
    if origin = .dotted ↔ path = [] then none
    else if (members.lookup key).isSome then none
    else some (members ++ [(key, .value value)])
  update .dotted add path .explicit members

/-- The members with the table of a header filled in. The table may be there by implication. In
either case it comes last. -/
def define (members : Members) (path : List String) (key : String)
    (fill : Members → Option Members) : Option Members :=
  let enter (_ : Origin) (members : Members) : Option Members :=
    match members.lookup key with
    | none => do return members ++ [(key, .table .explicit (← fill []))]
    | some (.table .implied below) => do
      return members.remove key ++ [(key, .table .explicit (← fill below))]
    | some _ => none
  update .implied enter path .explicit members

/-- The members with an element filled in at the end of an array of tables. -/
def defineElement (members : Members) (path : List String) (key : String)
    (fill : Members → Option Members) : Option Members :=
  let enter (_ : Origin) (members : Members) : Option Members :=
    match members.lookup key with
    | none => do return members ++ [(key, .tables (← fill []) [])]
    | some (.tables latest earlier) => do
      return members.replace key (.tables (← fill []) (latest :: earlier))
    | some _ => none
  update .implied enter path .explicit members

end Members

mutual

/-- The value of a finished part. -/
def Node.toValue : Node → Value
  | .value v => v
  | .table _ members => .table (membersToValues members)
  | .tables latest earlier =>
    .array ((elementsToValues earlier).reverse ++ [.table (membersToValues latest)])

/-- The values of finished members. -/
def membersToValues : List (String × Node) → List (String × Value)
  | [] => []
  | (key, node) :: rest => (key, node.toValue) :: membersToValues rest

/-- The values of the elements of a finished array of tables. -/
def elementsToValues : List (List (String × Node)) → List Value
  | [] => []
  | members :: rest => .table (membersToValues members) :: elementsToValues rest

end

end LuaDecl.Toml
