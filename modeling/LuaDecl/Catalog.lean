import LuaDecl.Extraction
import LuaDecl.Logged

/-!
# Catalogs

A catalog collects the signatures of many sources. Each kind has a map from keys to parameters; the
first definition of a key stays, and a later one with other parameters is reported. The tables that
signatures name are kept beside the maps, also those of signatures that come too late.
-/

namespace LuaDecl

/-- The signatures collected so far. -/
structure Catalog where
  globals : SortedMap String
  dotMethods : SortedMap String
  colonMethods : SortedMap String
  tables : SortedSet

namespace Catalog

/-- The catalog without signatures. -/
def empty : Catalog :=
  ⟨SortedMap.empty, SortedMap.empty, SortedMap.empty, SortedMap.empty⟩

/-- The map of one kind: the parameters under each key. -/
def ofKind (c : Catalog) : Kind → SortedMap String
  | .global => c.globals
  | .dot => c.dotMethods
  | .colon => c.colonMethods

/-- The catalog with the map of one kind replaced. -/
def withKind (c : Catalog) (kind : Kind) (m : SortedMap String) : Catalog :=
  match kind with
  | .global => { c with globals := m }
  | .dot => { c with dotMethods := m }
  | .colon => { c with colonMethods := m }

/-- The catalog with a signature's table recorded. -/
def addTable (c : Catalog) (table : Option String) : Catalog :=
  match table with
  | some name => { c with tables := SortedSet.insert c.tables name }
  | none => c

/-- Records a signature. The second component says whether its key is new. -/
def insert (c : Catalog) (s : Signature) : Logged (Catalog × Bool) :=
  let c := c.addTable s.table
  let m := c.ofKind s.kind
  match m.find? s.key with
  | none => pure (c.withKind s.kind (m.insertIfNew s.key s.params), true)
  | some kept => do
    Logged.logIf (kept != s.params) (.duplicateIgnored s.key kept s.params)
    pure (c, false)

/-- Records signatures in order. The second component counts the new keys. -/
def insertAll (c : Catalog) : List Signature → Logged (Catalog × Nat)
  | [] => pure (c, 0)
  | s :: rest => do
    let (c, new) ← c.insert s
    let (c, added) ← c.insertAll rest
    pure (c, added + new.toNat)

/-- Records the signatures of an extraction. Only the signatures count, not its set of tables. -/
def merge (c : Catalog) (e : Extraction) : Logged (Catalog × Nat) :=
  c.insertAll e.signatures

/-- No signature is recorded. -/
def isEmpty (c : Catalog) : Bool :=
  c.globals.isEmpty && c.dotMethods.isEmpty && c.colonMethods.isEmpty

/-- The summary of a run that writes the catalog to `output`. -/
def summary (c : Catalog) (output : String) (filesScanned filesSkipped : Nat) : Summary where
  output := output
  filesScanned := filesScanned
  filesSkipped := filesSkipped
  globals := c.globals.size
  dotMethods := c.dotMethods.size
  colonMethods := c.colonMethods.size
  tables := c.tables.size

@[simp]
theorem ofKind_withKind_self (c : Catalog) (kind : Kind) (m : SortedMap String) :
    (c.withKind kind m).ofKind kind = m := by
  cases kind <;> rfl

theorem ofKind_withKind_of_ne (c : Catalog) {kind other : Kind} (m : SortedMap String)
    (h : other ≠ kind) : (c.withKind kind m).ofKind other = c.ofKind other := by
  cases kind <;> cases other <;> simp_all [withKind, ofKind]

@[simp]
theorem ofKind_addTable (c : Catalog) (table : Option String) (kind : Kind) :
    (c.addTable table).ofKind kind = c.ofKind kind := by
  cases table <;> cases kind <;> rfl

@[simp]
theorem tables_withKind (c : Catalog) (kind : Kind) (m : SortedMap String) :
    (c.withKind kind m).tables = c.tables := by
  cases kind <;> rfl

end Catalog

end LuaDecl
