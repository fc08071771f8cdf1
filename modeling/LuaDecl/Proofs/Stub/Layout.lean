import LuaDecl.Proofs.Catalog.Sources
import LuaDecl.Stub

/-!
# The characters of a stub file

A stub file as a list of characters: the header, two lines for each table and one line for each
function, where the parameters of colon functions are as recorded, since those of a source are in
normal form.
-/

namespace LuaDecl

/-- What holds of the entries and tables of a catalog of sources, one by one. -/
structure Catalog.Sound (c : Catalog) : Prop where
  entries : ∀ kind, ∀ e ∈ (c.ofKind kind).entries,
    ∃ s : Signature, s.WellFormed ∧ s.kind = kind ∧ s.key = e.1 ∧ s.params = e.2
  tables : ∀ table ∈ c.tables.toList, Definition.Identifier table.toList

theorem Catalog.sound_ofSources (sources : List String) : (ofSources sources).Sound where
  entries := by
    intro kind e he
    obtain ⟨kept, spells, past⟩ := (represents_ofSources sources).exists_spells kind
    rw [spells.entries] at he
    obtain ⟨s, member, rfl⟩ := List.mem_map.mp he
    exact ⟨s, wellFormed_of_mem_signaturesOf (past s member), spells.kinds s member, rfl, rfl⟩
  tables := by
    intro table member
    obtain ⟨s, past, named⟩ := ((represents_ofSources sources).tables table).mp member
    exact (wellFormed_of_mem_signaturesOf past).identifier_table named

namespace Stub

open Definition

/-- The text of a stub file with the given tables and functions, section by section. -/
def layout (tables : List String) (functions : Kind → List (String × String)) : String :=
  String.join (header :: tables.map tableLines ++
    (functions .global ++ functions .dot ++ functions .colon).map fun e => functionLine e.1 e.2)

/-- Parameters in normal form are declared as they are recorded. -/
theorem colonParams_of_normal {params : String} (h : Parameters.normalize params = params) :
    colonParams params = params := by
  have blank : Text.trim params.toList = [] ∨ Text.trim params.toList = Parameters.variadic →
      String.ofList Parameters.variadic = params := by
    intro uninformative
    have collapses : Parameters.isUninformative (Text.trim params.toList) = true := by
      rcases uninformative with equal | equal <;> rw [equal] <;> decide
    rw [Parameters.normalize, Parameters.normalizeChars, if_pos collapses] at h
    exact h
  unfold colonParams
  simp only
  split
  · next uninformative => exact blank (by simpa using uninformative)
  · rfl

theorem toList_header : header.toList = ['-', '-', '-', '@', 'm', 'e', 't', 'a', '\n'] := by
  decide

theorem toList_tableLines (name : String) :
    (tableLines name).toList = ['-', '-', '-', '@', 'c', 'l', 'a', 's', 's', ' '] ++
      (name.toList ++ '\n' :: (name.toList ++ [' ', '=', ' '] ++ (name.toList ++ ['\n']))) := by
  delta tableLines
  simp [String.toList_append]

theorem toList_functionLine (key params : String) :
    (functionLine key params).toList = keyword ++ ' ' ::
      (key.toList ++ '(' :: (params.toList ++ ')' :: [' ', 'e', 'n', 'd', '\n'])) := by
  delta functionLine keyword
  simp [String.toList_append]

theorem toList_layout (tables : List String) (functions : Kind → List (String × String)) :
    (layout tables functions).toList = header.toList ++
      (tables.flatMap (fun t => (tableLines t).toList) ++
        (functions .global ++ functions .dot ++ functions .colon).flatMap fun e =>
          (functionLine e.1 e.2).toList) := by
  simp [layout, String.toList_join, List.flatMap_map]

/-- The pieces of the stub file of a catalog of sources. -/
theorem sections_eq {c : Catalog} (h : c.Sound) :
    sections c = header :: c.tables.toList.map tableLines ++
      c.entries.map fun e => functionLine e.1 e.2 := by
  have colons : c.colonMethods.entries.map (fun e => functionLine e.1 (colonParams e.2)) =
      c.colonMethods.entries.map fun e => functionLine e.1 e.2 := by
    apply List.map_congr_left
    intro e he
    obtain ⟨s, wf, -, -, params⟩ := h.entries .colon e he
    rw [← params, colonParams_of_normal wf.normal]
  rw [sections, colons, Catalog.entries, List.map_append, List.map_append]
  simp only [List.append_assoc]

theorem toList_render {c : Catalog} (h : c.Sound) :
    (render c).toList = header.toList ++
      (c.tables.toList.flatMap (fun t => (tableLines t).toList) ++
        c.entries.flatMap fun e => (functionLine e.1 e.2).toList) := by
  rw [render, sections_eq h, String.toList_join]
  simp only [List.cons_append, List.flatMap_cons, List.flatMap_append, List.flatMap_map]

theorem render_eq_layout {c : Catalog} (h : c.Sound) :
    render c = layout c.tables.toList fun kind => (c.ofKind kind).entries := by
  rw [← String.toList_inj, toList_render h, toList_layout]
  rfl

end Stub

end LuaDecl
