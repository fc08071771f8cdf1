import LuaDecl.Proofs.Catalog.Sources

/-!
# Tables and keys

The tables of a catalog are kept beside its maps, also those of signatures that come too late. For
whatever texts are merged they are exactly what stands before the dot or colon of the recorded keys
(`tables_are_prefixes`), since a key holds the mark of its kind once and no other.
-/

namespace LuaDecl.Catalog

open Definition

/-- A text that is merged: as it is, or as a source, which comments have no part in. -/
inductive Reading where
  | asText (text : String)
  | asSource (text : String)

/-- The extraction of a reading. -/
def Reading.extraction : Reading → Extraction
  | asText text => Extraction.ofText text
  | asSource text => Extraction.ofSource text

/-- The catalog of readings, merged in order. -/
def ofReadings (readings : List Reading) : Catalog :=
  readings.foldl (fun c reading => (c.merge reading.extraction).value.1) empty

/-- What stands before the first occurrence of a mark in a key. -/
def beforeMark (mark : Char) (key : String) : String :=
  String.ofList (key.toList.takeWhile (· ≠ mark))

theorem represents_ofReadings (readings : List Reading) :
    (ofReadings readings).Represents (readings.flatMap fun r => r.extraction.signatures) := by
  simpa [ofReadings] using represents_foldl_merge Reading.extraction represents_empty readings

theorem Reading.subject_of_mem {reading : Reading} {s : Signature}
    (h : s ∈ reading.extraction.signatures) :
    Subject s.kind s.key.toList (s.table.map String.toList) s.name.toList := by
  cases reading with
  | asText text | asSource text => exact Extraction.subject_of_mem_ofText h

theorem subject_of_mem_readings {readings : List Reading} {s : Signature}
    (h : s ∈ readings.flatMap fun r => r.extraction.signatures) :
    Subject s.kind s.key.toList (s.table.map String.toList) s.name.toList := by
  obtain ⟨reading, -, member⟩ := List.mem_flatMap.mp h
  exact reading.subject_of_mem member

/-- A table is declared exactly for the methods that are recorded: the tables are what stands before
the dot of a dot key or before the colon of a colon key. A key holds the mark of its kind once, and
no other mark. -/
theorem tables_are_prefixes (readings : List Reading) :
    let c := ofReadings readings
    (∀ table, table ∈ c.tables.toList ↔
      (∃ key ∈ c.dotMethods.keys, table = beforeMark '.' key) ∨
        ∃ key ∈ c.colonMethods.keys, table = beforeMark ':' key) ∧
    (∀ key ∈ c.dotMethods.keys, key.toList.count '.' = 1 ∧ ':' ∉ key.toList) ∧
    (∀ key ∈ c.colonMethods.keys, key.toList.count ':' = 1 ∧ '.' ∉ key.toList) ∧
    ∀ key ∈ c.globals.keys, '.' ∉ key.toList ∧ ':' ∉ key.toList := by
  intro c
  have represents := represents_ofReadings readings
  have spelled (kind : Kind) : ∀ key ∈ (c.ofKind kind).keys,
      ∃ s ∈ readings.flatMap fun r => r.extraction.signatures, s.key = key ∧
        Subject kind key.toList (s.table.map String.toList) s.name.toList := by
    intro key member
    obtain ⟨s, past, rfl, rfl⟩ := represents.mem_keys_iff.mp member
    exact ⟨s, past, rfl, subject_of_mem_readings past⟩
  have table_eq {s : Signature} {table : List Char}
      (named : s.table.map String.toList = some table) :
      s.table = some (String.ofList table) := by
    obtain ⟨name, own, rfl⟩ := Option.map_eq_some_iff.mp named
    rw [own, String.ofList_toList]
  refine ⟨?_, ?_, ?_, ?_⟩
  · intro table
    rw [represents.tables]
    constructor
    · rintro ⟨s, past, named⟩
      have subject := subject_of_mem_readings past
      have recorded : s.key ∈ (c.ofKind s.kind).keys :=
        represents.mem_keys_iff.mpr ⟨s, past, rfl, rfl⟩
      cases kind : s.kind with
      | global =>
        rw [kind, named] at subject
        cases subject.1
      | dot =>
        rw [kind] at subject recorded
        have own := table_eq subject.cut_dot.1
        exact Or.inl ⟨s.key, recorded, Option.some.inj (named.symm.trans own)⟩
      | colon =>
        rw [kind] at subject recorded
        have own := table_eq subject.cut_colon.1
        exact Or.inr ⟨s.key, recorded, Option.some.inj (named.symm.trans own)⟩
    · rintro (⟨key, recorded, rfl⟩ | ⟨key, recorded, rfl⟩)
      · obtain ⟨s, past, -, subject⟩ := spelled .dot key recorded
        exact ⟨s, past, table_eq subject.cut_dot.1⟩
      · obtain ⟨s, past, -, subject⟩ := spelled .colon key recorded
        exact ⟨s, past, table_eq subject.cut_colon.1⟩
  · intro key recorded
    obtain ⟨s, -, -, subject⟩ := spelled .dot key recorded
    exact ⟨subject.cut_dot.2, by simp [subject.colon_mem_iff]⟩
  · intro key recorded
    obtain ⟨s, -, -, subject⟩ := spelled .colon key recorded
    exact ⟨subject.cut_colon.2, by simp [subject.dot_mem_iff]⟩
  · intro key recorded
    obtain ⟨s, -, -, subject⟩ := spelled .global key recorded
    exact ⟨by simp [subject.dot_mem_iff], by simp [subject.colon_mem_iff]⟩

/-- A table whose only definition comes too late is declared all the same, for the earlier one. -/
example :
    (ofReadings [.asText "function M.f(a) end", .asSource "M.f = function(b) end"]).tables.toList =
    ["M"] := by
  decide +kernel

end LuaDecl.Catalog
