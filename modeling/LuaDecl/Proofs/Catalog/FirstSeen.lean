import LuaDecl.Catalog
import Mathlib.Algebra.GroupWithZero.Nat

/-!
# The first definition stays

A catalog against the plain list of all signatures it was given. The list alone says what every map
holds, what every operation answered and what was logged; `Catalog.Represents` is the part of that
which a catalog carries from one signature to the next. One insertion keeps it (`insert_spec`),
hence so does a list of them (`insertAll_spec`) and every run of operations (`run_spec`).
-/

namespace LuaDecl

/-- The signature is a definition of the key as a function of the kind. -/
def Signature.defines (s : Signature) (kind : Kind) (key : String) : Bool :=
  s.kind = kind && s.key = key

theorem Signature.defines_iff {s : Signature} {kind : Kind} {key : String} :
    s.defines kind key = true ↔ s.kind = kind ∧ s.key = key := by
  simp [defines]

namespace Catalog

/-! ### What a list of signatures says -/

/-- The parameters of the first definition of a key. -/
def firstParams (past : List Signature) (kind : Kind) (key : String) : Option String :=
  (past.find? fun s => s.defines kind key).map Signature.params

/-- No earlier signature has the kind and key of this one. -/
def isFirst (past : List Signature) (s : Signature) : Bool :=
  !past.any fun earlier => earlier.defines s.kind s.key

/-- The report of a signature after others: its key is taken, with other parameters. -/
def conflict? (past : List Signature) (s : Signature) : Option Event :=
  match firstParams past s.kind s.key with
  | some kept => if kept = s.params then none else some (.duplicateIgnored s.key kept s.params)
  | none => none

/-- Each signature of a list with all the signatures before it, those of `past` included. -/
def historyFrom (past : List Signature) : List Signature → List (List Signature × Signature)
  | [] => []
  | s :: rest => (past, s) :: historyFrom (past ++ [s]) rest

/-- How many signatures of a list are the first of their kind and key, `past` included. -/
def countFirst (past signatures : List Signature) : Nat :=
  (historyFrom past signatures).countP fun entry => isFirst entry.1 entry.2

/-- The reports of a list of signatures after others. -/
def conflicts (past signatures : List Signature) : List Event :=
  (historyFrom past signatures).filterMap fun entry => conflict? entry.1 entry.2

theorem firstParams_append (past later : List Signature) (kind : Kind) (key : String) :
    firstParams (past ++ later) kind key =
      (firstParams past kind key).or (firstParams later kind key) := by
  simp only [firstParams, List.find?_append]
  cases past.find? fun s => s.defines kind key <;> rfl

theorem firstParams_eq_none_iff {past : List Signature} {kind : Kind} {key : String} :
    firstParams past kind key = none ↔ ∀ s ∈ past, ¬ (s.kind = kind ∧ s.key = key) := by
  simp [firstParams, Signature.defines]

theorem isFirst_eq_isNone (past : List Signature) (s : Signature) :
    isFirst past s = (firstParams past s.kind s.key).isNone := by
  cases h : firstParams past s.kind s.key with
  | none =>
    have fresh := firstParams_eq_none_iff.mp h
    simpa [isFirst, Signature.defines] using fresh
  | some kept =>
    obtain ⟨earlier, found, -⟩ := Option.map_eq_some_iff.mp h
    have member := List.mem_of_find?_eq_some found
    have defines := List.find?_some found
    simp only [isFirst, Option.isNone_some, Bool.not_eq_false', List.any_eq_true]
    exact ⟨earlier, member, defines⟩

theorem historyFrom_append (past first second : List Signature) :
    historyFrom past (first ++ second) =
      historyFrom past first ++ historyFrom (past ++ first) second := by
  induction first generalizing past with
  | nil => simp [historyFrom]
  | cons s rest ih => simp [historyFrom, ih]

/-! ### Catalogs that hold what a list says -/

/-- The number of recorded functions. -/
def size (c : Catalog) : Nat :=
  c.globals.size + c.dotMethods.size + c.colonMethods.size

/-- The maps hold the first definition of each key and the tables are those that are named. -/
structure Represents (c : Catalog) (past : List Signature) : Prop where
  maps : ∀ kind key, (c.ofKind kind).find? key = firstParams past kind key
  tables : ∀ table, table ∈ c.tables.toList ↔ ∃ s ∈ past, s.table = some table

theorem represents_empty : empty.Represents [] where
  maps := by
    intro kind key
    cases kind <;> rfl
  tables := by simp [empty]

theorem mem_tables_addTable {c : Catalog} {named : Option String} {table : String} :
    table ∈ (c.addTable named).tables.toList ↔ named = some table ∨ table ∈ c.tables.toList := by
  cases named with
  | none => simp [addTable]
  | some name => simp [addTable, eq_comm]

theorem size_addTable (c : Catalog) (named : Option String) : (c.addTable named).size = c.size := by
  cases named <;> rfl

theorem size_withKind_insertIfNew {c : Catalog} {kind : Kind} {key : String}
    (h : (c.ofKind kind).find? key = none) (params : String) :
    (c.withKind kind ((c.ofKind kind).insertIfNew key params)).size = c.size + 1 := by
  have grown := SortedMap.size_insertIfNew h params
  cases kind <;> simp only [size, withKind, ofKind] at grown ⊢ <;> omega

/-! ### One insertion -/

theorem insert_of_find?_eq_none {c : Catalog} {s : Signature}
    (h : (c.ofKind s.kind).find? s.key = none) :
    c.insert s = pure ((c.addTable s.table).withKind s.kind
      ((c.ofKind s.kind).insertIfNew s.key s.params), true) := by
  simp [insert, h]

theorem value_insert_of_find?_eq_some {c : Catalog} {s : Signature} {kept : String}
    (h : (c.ofKind s.kind).find? s.key = some kept) :
    (c.insert s).value = (c.addTable s.table, false) := by
  simp [insert, h]

theorem events_insert_of_find?_eq_some {c : Catalog} {s : Signature} {kept : String}
    (h : (c.ofKind s.kind).find? s.key = some kept) :
    (c.insert s).events =
      if kept = s.params then [] else [.duplicateIgnored s.key kept s.params] := by
  by_cases same : kept = s.params <;> simp [insert, h, same]

theorem firstParams_singleton (s : Signature) (kind : Kind) (key : String) :
    firstParams [s] kind key = if s.kind = kind ∧ s.key = key then some s.params else none := by
  by_cases h : s.kind = kind ∧ s.key = key
  · simp [firstParams, Signature.defines, h]
  · have : s.defines kind key = false := by
      simpa [← Signature.defines_iff] using h
    simp [firstParams, this, h]

/-- After one more signature the tables are those that the list with it names. -/
private theorem tables_addTable_iff {c : Catalog} {past : List Signature}
    (h : c.Represents past) (s : Signature) (table : String) :
    table ∈ (c.addTable s.table).tables.toList ↔ ∃ t ∈ past ++ [s], t.table = some table := by
  rw [mem_tables_addTable, h.tables]
  constructor
  · rintro (here | ⟨t, member, named⟩)
    · exact ⟨s, by simp, here⟩
    · exact ⟨t, by simp [member], named⟩
  · rintro ⟨t, member, named⟩
    rcases List.mem_append.mp member with member | member
    · exact Or.inr ⟨t, member, named⟩
    · rw [List.mem_singleton.mp member] at named
      exact Or.inl named

/-- The maps after a signature with a new key, seen through the list with it. -/
private theorem find?_withKind_insertIfNew {c : Catalog} {past : List Signature}
    (maps : ∀ kind key, (c.ofKind kind).find? key = firstParams past kind key) {s : Signature}
    (fresh : firstParams past s.kind s.key = none) (kind : Kind) (key : String) :
    ((c.withKind s.kind ((c.ofKind s.kind).insertIfNew s.key s.params)).ofKind kind).find? key =
      firstParams (past ++ [s]) kind key := by
  rw [firstParams_append, firstParams_singleton]
  by_cases sameKind : kind = s.kind
  · subst sameKind
    rw [ofKind_withKind_self, SortedMap.find?_insertIfNew, maps, fresh, maps]
    by_cases sameKey : key = s.key
    · simp [sameKey, fresh]
    · simp [sameKey, Ne.symm sameKey]
  · rw [ofKind_withKind_of_ne _ _ sameKind, maps]
    simp [Ne.symm sameKind]

/-- One insertion: the catalog represents the list with the signature, and the answer, the growth
and the report are what the list says. -/
theorem insert_spec {c : Catalog} {past : List Signature} (h : c.Represents past) (s : Signature) :
    (c.insert s).value.1.Represents (past ++ [s]) ∧
    (c.insert s).value.2 = isFirst past s ∧
    (c.insert s).value.1.size = c.size + (isFirst past s).toNat ∧
    (c.insert s).events = (conflict? past s).toList := by
  rw [isFirst_eq_isNone, conflict?]
  cases known : firstParams past s.kind s.key with
  | none =>
    have absent : (c.ofKind s.kind).find? s.key = none := (h.maps s.kind s.key).trans known
    have maps : ∀ kind key,
        ((c.addTable s.table).ofKind kind).find? key = firstParams past kind key := by
      intro kind key
      rw [ofKind_addTable]
      exact h.maps kind key
    rw [insert_of_find?_eq_none absent]
    refine ⟨⟨?_, ?_⟩, rfl, ?_, rfl⟩
    · intro kind key
      have looked := find?_withKind_insertIfNew maps known kind key
      rw [ofKind_addTable] at looked
      exact looked
    · intro table
      rw [Logged.value_pure, tables_withKind]
      exact tables_addTable_iff h s table
    · have grown := size_withKind_insertIfNew ((maps s.kind s.key).trans known) s.params
      rw [ofKind_addTable, size_addTable] at grown
      exact grown
  | some kept =>
    have present : (c.ofKind s.kind).find? s.key = some kept := (h.maps s.kind s.key).trans known
    rw [value_insert_of_find?_eq_some present, events_insert_of_find?_eq_some present]
    refine ⟨⟨?_, tables_addTable_iff h s⟩, rfl, size_addTable c s.table, ?_⟩
    · intro kind key
      rw [ofKind_addTable, h.maps, firstParams_append, firstParams_singleton]
      by_cases same : s.kind = kind ∧ s.key = key
      · obtain ⟨rfl, rfl⟩ := same
        rw [known]
        rfl
      · simp [same]
    · by_cases same : kept = s.params <;> simp [same]

/-! ### Lists of insertions and runs -/

/-- Signatures in order: the catalog represents the longer list, and the count, the growth and the
reports are what the list says. -/
theorem insertAll_spec {c : Catalog} {past : List Signature} (h : c.Represents past)
    (signatures : List Signature) :
    (c.insertAll signatures).value.1.Represents (past ++ signatures) ∧
    (c.insertAll signatures).value.2 = countFirst past signatures ∧
    (c.insertAll signatures).value.1.size = c.size + countFirst past signatures ∧
    (c.insertAll signatures).events = conflicts past signatures := by
  induction signatures generalizing c past with
  | nil => exact ⟨by simpa [insertAll] using h, rfl, rfl, rfl⟩
  | cons s rest ih =>
    obtain ⟨represents, isNew, grown, reported⟩ := insert_spec h s
    obtain ⟨all, added, size, reports⟩ := ih represents
    have counted : countFirst past (s :: rest) =
        countFirst (past ++ [s]) rest + (isFirst past s).toNat := by
      cases first : isFirst past s <;> simp [countFirst, historyFrom, first]
    have logged : conflicts past (s :: rest) =
        (conflict? past s).toList ++ conflicts (past ++ [s]) rest := by
      cases report : conflict? past s <;> simp [conflicts, historyFrom, report]
    rw [counted, logged]
    simp only [insertAll, Logged.value_bind, Logged.value_pure, Logged.events_bind,
      Logged.events_pure, List.append_nil]
    refine ⟨by simpa using all, by rw [added, isNew], by omega, by rw [reported, reports]⟩

/-- A step of a collection. -/
inductive Operation where
  | insert (s : Signature)
  | merge (e : Extraction)

/-- What a step answers: whether the key was new, or how many keys were. -/
inductive Answer where
  | isNew (new : Bool)
  | added (count : Nat)
  deriving DecidableEq, Repr

/-- The number of new keys that an answer tells of. -/
def Answer.count : Answer → Nat
  | isNew new => new.toNat
  | added count => count

namespace Operation

/-- The signatures that a step records, in order. -/
def signatures : Operation → List Signature
  | insert s => [s]
  | merge e => e.signatures

/-- The catalog after a step, and the answer. -/
def perform (c : Catalog) : Operation → Logged (Catalog × Answer)
  | insert s => do
    let (c, new) ← c.insert s
    pure (c, .isNew new)
  | merge e => do
    let (c, count) ← c.merge e
    pure (c, .added count)

/-- The answer that the signatures before a step require. -/
def expected (past : List Signature) : Operation → Answer
  | insert s => .isNew (isFirst past s)
  | merge e => .added (countFirst past e.signatures)

end Operation

/-- The catalog after steps in order, and their answers. -/
def run (c : Catalog) : List Operation → Logged (Catalog × List Answer)
  | [] => pure (c, [])
  | o :: rest => do
    let (c, answer) ← o.perform c
    let (c, answers) ← c.run rest
    pure (c, answer :: answers)

theorem perform_spec {c : Catalog} {past : List Signature} (h : c.Represents past)
    (o : Operation) :
    (o.perform c).value.1.Represents (past ++ o.signatures) ∧
    (o.perform c).value.2 = o.expected past ∧
    (o.perform c).value.1.size = c.size + (o.expected past).count ∧
    (o.perform c).events = conflicts past o.signatures := by
  cases o with
  | insert s =>
    obtain ⟨represents, isNew, grown, reported⟩ := insert_spec h s
    refine ⟨represents, congrArg Answer.isNew isNew, grown, ?_⟩
    cases report : conflict? past s <;>
      simp [Operation.perform, Operation.signatures, conflicts, historyFrom, reported, report]
  | merge e =>
    obtain ⟨represents, added, grown, reported⟩ := insertAll_spec h e.signatures
    refine ⟨represents, congrArg Answer.added added, grown, ?_⟩
    simp [Operation.perform, Operation.signatures, merge, reported]

theorem conflicts_append (past first second : List Signature) :
    conflicts past (first ++ second) =
      conflicts past first ++ conflicts (past ++ first) second := by
  simp [conflicts, historyFrom_append]

/-- A run from a catalog that represents a list. The answer of a step is the one that the signatures
before it require, wherever in the run the step stands. -/
theorem run_spec {c : Catalog} {past : List Signature} (h : c.Represents past)
    (operations : List Operation) :
    (c.run operations).value.1.Represents (past ++ operations.flatMap Operation.signatures) ∧
    (c.run operations).value.1.size =
      c.size + ((c.run operations).value.2.map Answer.count).sum ∧
    (c.run operations).events = conflicts past (operations.flatMap Operation.signatures) ∧
    (c.run operations).value.2.length = operations.length ∧
    ∀ earlier o later, operations = earlier ++ o :: later →
      (c.run operations).value.2[earlier.length]? =
        some (o.expected (past ++ earlier.flatMap Operation.signatures)) := by
  induction operations generalizing c past with
  | nil =>
    refine ⟨by simpa [run] using h, rfl, rfl, rfl, ?_⟩
    intro earlier o later none
    simp at none
  | cons first rest ih =>
    obtain ⟨represents, answer, grown, reported⟩ := perform_spec h first
    obtain ⟨all, size, reports, length, answers⟩ := ih represents
    simp only [run, Logged.value_bind, Logged.value_pure, Logged.events_bind, Logged.events_pure,
      List.append_nil, List.flatMap_cons]
    refine ⟨by simpa using all, ?_, ?_, by simp [length], ?_⟩
    · rw [List.map_cons, List.sum_cons, answer]
      omega
    · rw [reported, reports, conflicts_append]
    · intro earlier o later split
      cases earlier with
      | nil =>
        obtain ⟨rfl, -⟩ := List.cons.inj split
        simp [answer]
      | cons head earlier =>
        obtain ⟨rfl, tail⟩ := List.cons.inj split
        have answered := answers earlier o later tail
        simpa using answered

/-- The first definition stays, over every run of insertions and merges. What the maps hold is the
first definition of each key, an insertion answers whether its signature is one, a merge how many
of its signatures are, the answers add up to the size of the maps, the log tells of the later
definitions that differ, and the tables are those that some signature names, whatever set an
extraction brings. -/
theorem run_keeps_first (operations : List Operation) :
    let outcome := empty.run operations
    let collected := operations.flatMap Operation.signatures
    (∀ kind key, ((outcome.value.1.ofKind kind).contains key = true ↔
      ∃ s ∈ collected, s.kind = kind ∧ s.key = key)) ∧
    (∀ kind key, (outcome.value.1.ofKind kind).find? key = firstParams collected kind key) ∧
    outcome.value.2.length = operations.length ∧
    (∀ earlier o later, operations = earlier ++ o :: later →
      outcome.value.2[earlier.length]? =
        some (o.expected (earlier.flatMap Operation.signatures))) ∧
    (outcome.value.2.map Answer.count).sum = outcome.value.1.globals.size +
      outcome.value.1.dotMethods.size + outcome.value.1.colonMethods.size ∧
    outcome.events = conflicts [] collected ∧
    ∀ table, table ∈ outcome.value.1.tables.toList ↔ ∃ s ∈ collected, s.table = some table := by
  intro outcome collected
  obtain ⟨represents, size, reports, length, answers⟩ := run_spec represents_empty operations
  simp only [List.nil_append] at represents answers
  refine ⟨?_, represents.maps, length, answers, ?_, reports, represents.tables⟩
  · intro kind key
    have known : ((outcome.value.1.ofKind kind).find? key).isSome =
        (firstParams collected kind key).isSome := congrArg Option.isSome (represents.maps kind key)
    rw [SortedMap.contains, known, ← Option.ne_none_iff_isSome, ne_eq, firstParams_eq_none_iff]
    simp
  · have none : empty.size = 0 := rfl
    rw [none, Nat.zero_add] at size
    exact size.symm

end Catalog

end LuaDecl
