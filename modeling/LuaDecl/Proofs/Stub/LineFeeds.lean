import LuaDecl.Proofs.Stub.Layout
import Mathlib.Algebra.BigOperators.Group.List.Basic

/-!
# The line feeds of a stub file

Every declaration of a stub file ends with a line feed and has no other one of its own: keys and
tables are made of words. Parameters are declared as they were written, and what is written over
several lines is declared over several lines. Main statement: `lineFeeds_render_ofSources`.
-/

namespace LuaDecl.Stub

open Definition

/-- The number of line feeds in a text. -/
def lineFeeds (text : String) : Nat :=
  text.toList.count '\n'

theorem lineFeeds_eq_zero_iff {text : String} : lineFeeds text = 0 ↔ '\n' ∉ text.toList :=
  List.count_eq_zero

theorem lineFeeds_join (texts : List String) :
    lineFeeds (String.join texts) = (texts.map lineFeeds).sum := by
  rw [lineFeeds, String.toList_join, List.count_flatMap]
  rfl

theorem lineFeeds_tableLines {table : String} (h : Identifier table.toList) :
    lineFeeds (tableLines table) = 2 := by
  have name : table.toList.count '\n' = 0 :=
    List.count_eq_zero.mpr (h.word.not_mem (by decide))
  rw [lineFeeds, toList_tableLines]
  simp [List.count_append, name]

theorem lineFeeds_functionLine {s : Signature} (h : s.WellFormed) (params : String) :
    lineFeeds (functionLine s.key params) = 1 + lineFeeds params := by
  have key : s.key.toList.count '\n' = 0 :=
    List.count_eq_zero.mpr (h.subject.not_mem (by decide) (by decide) (by decide))
  have word : keyword.count '\n' = 0 := by decide
  rw [lineFeeds, toList_functionLine, lineFeeds]
  simp [List.count_append, key, word]
  omega

/-- Line feeds section by section. -/
theorem map_lineFeeds_sections {c : Catalog} (h : c.Sound) :
    (sections c).map lineFeeds =
      1 :: (c.tables.toList.map fun _ => 2) ++ c.entries.map fun e => 1 + lineFeeds e.2 := by
  have first : lineFeeds header = 1 := by decide
  have tables : c.tables.toList.map (lineFeeds ∘ tableLines) = c.tables.toList.map fun _ => 2 := by
    apply List.map_congr_left
    intro table member
    exact lineFeeds_tableLines (h.tables table member)
  have functions : c.entries.map (lineFeeds ∘ fun e => functionLine e.1 e.2) =
      c.entries.map fun e => 1 + lineFeeds e.2 := by
    apply List.map_congr_left
    intro e member
    obtain ⟨kind, inside⟩ := Catalog.mem_entries_iff.mp member
    obtain ⟨s, wf, -, key, -⟩ := h.entries kind e inside
    rw [Function.comp_apply, ← key, lineFeeds_functionLine wf]
  rw [sections_eq h, List.map_append, List.map_cons, List.map_map, List.map_map, first, tables,
    functions]

theorem lineFeeds_render {c : Catalog} (h : c.Sound) :
    lineFeeds (render c) =
      1 + 2 * c.tables.size + c.globals.size + c.dotMethods.size + c.colonMethods.size +
        (c.entries.map fun e => lineFeeds e.2).sum := by
  have entries : c.entries.length = c.globals.size + c.dotMethods.size + c.colonMethods.size := by
    rw [Catalog.entries, List.length_append, List.length_append]
    rfl
  have tables : (c.tables.toList.map fun _ => 2).sum = 2 * c.tables.size := by
    rw [List.map_const', List.sum_replicate_nat, SortedSet.toList, SortedMap.keys,
      List.length_map, Nat.mul_comm]
    rfl
  have functions : (c.entries.map fun e => 1 + lineFeeds e.2).sum =
      c.entries.length + (c.entries.map fun e => lineFeeds e.2).sum := by
    rw [List.sum_map_add, List.map_const', List.sum_replicate_nat, Nat.mul_one]
  rw [render, lineFeeds_join, map_lineFeeds_sections h, List.cons_append, List.sum_cons,
    List.sum_append, tables, functions, entries]
  omega

/-- The lines of the stub file of sources. The header takes one line, each table two, and each
function one and as many more as there are line feeds in its parameters. So there is one line for
each declaration if and only if no recorded parameters hold a line feed. -/
theorem lineFeeds_render_ofSources (sources : List String) :
    let c := Catalog.ofSources sources
    let declarations :=
      1 + 2 * c.tables.size + c.globals.size + c.dotMethods.size + c.colonMethods.size
    (sections c).map lineFeeds =
        1 :: (c.tables.toList.map fun _ => 2) ++ (c.entries.map fun e => 1 + lineFeeds e.2) ∧
      lineFeeds (render c) = declarations + (c.entries.map fun e => lineFeeds e.2).sum ∧
      (lineFeeds (render c) = declarations ↔ ∀ e ∈ c.entries, '\n' ∉ e.2.toList) := by
  intro c declarations
  have total : lineFeeds (render c) =
      declarations + (c.entries.map fun e => lineFeeds e.2).sum :=
    lineFeeds_render (Catalog.sound_ofSources sources)
  refine ⟨map_lineFeeds_sections (Catalog.sound_ofSources sources), total, ?_⟩
  rw [total, Nat.add_eq_left, List.sum_eq_zero_iff_forall_eq_nat, List.forall_mem_map]
  exact forall₂_congr fun _ _ => lineFeeds_eq_zero_iff

/-- Parameters on two lines are declared on two lines. -/
theorem lineFeeds_render_twoLines :
    let c := Catalog.ofSources ["function f(a,\nb) end"]
    lineFeeds (render c) ≠
      1 + 2 * c.tables.size + c.globals.size + c.dotMethods.size + c.colonMethods.size := by
  decide +kernel

end LuaDecl.Stub
