import LuaDecl.Proofs.Stub.Layout
import LuaDecl.Proofs.Text.Lines

/-!
# Reading a stub file in one way

A stub file declares tables and functions in one way (`Declares.unique`), so its text determines the
catalog. A table ends at its line feed, a key at its opening parenthesis and parameters at their
closing one, so declarations can be cut off the front of a text one after the other, also where
parameters run over lines; and the kind of a function is told by the dot or colon in its key.
-/

namespace LuaDecl.Stub

open Definition Text

section Items

variable {α : Type} {text : α → List Char} {valid : α → Prop}

/-- Items that can be cut off the front of a text one after the other are determined by their joint
text, up to a tail that begins with no item. -/
theorem eq_of_flatMap_append_eq
    (cut : ∀ a b rest other, valid a → valid b → text a ++ rest = text b ++ other →
      a = b ∧ rest = other)
    {items others : List α} {tail end' : List Char} (hi : ∀ a ∈ items, valid a)
    (ho : ∀ a ∈ others, valid a) (ht : ∀ a rest, text a ++ rest ≠ tail)
    (he : ∀ a rest, text a ++ rest ≠ end')
    (h : items.flatMap text ++ tail = others.flatMap text ++ end') :
    items = others ∧ tail = end' := by
  induction items generalizing others with
  | nil =>
    cases others with
    | nil => exact ⟨rfl, h⟩
    | cons b others =>
      simp only [List.flatMap_nil, List.nil_append, List.flatMap_cons, List.append_assoc] at h
      exact absurd h.symm (ht b _)
  | cons a items ih =>
    cases others with
    | nil =>
      simp only [List.flatMap_nil, List.nil_append, List.flatMap_cons, List.append_assoc] at h
      exact absurd h (he a _)
    | cons b others =>
      simp only [List.flatMap_cons, List.append_assoc] at h
      obtain ⟨rfl, rest⟩ := cut a b _ _ (hi a List.mem_cons_self) (ho b List.mem_cons_self) h
      have first : ∀ c ∈ items, valid c := by
        intro c hc
        exact hi c (List.mem_cons_of_mem a hc)
      have second : ∀ c ∈ others, valid c := by
        intro c hc
        exact ho c (List.mem_cons_of_mem a hc)
      obtain ⟨rfl, same⟩ := ih first second rest
      exact ⟨rfl, same⟩

end Items

/-! ### Cutting off one declaration -/

theorem cut_tableLines {a b : String} {rest other : List Char} (ha : '\n' ∉ a.toList)
    (hb : '\n' ∉ b.toList)
    (h : (tableLines a).toList ++ rest = (tableLines b).toList ++ other) :
    a = b ∧ rest = other := by
  simp only [toList_tableLines, List.append_assoc, List.cons_append, List.nil_append,
    List.cons.injEq, true_and] at h
  obtain ⟨same, left⟩ := eq_of_append_cons_eq ha hb h
  obtain rfl : a = b := String.toList_inj.mp same
  exact ⟨rfl, by simpa using left⟩

theorem cut_functionLine {a b : String × String} {rest other : List Char}
    (ha : '(' ∉ a.1.toList ∧ ')' ∉ a.2.toList) (hb : '(' ∉ b.1.toList ∧ ')' ∉ b.2.toList)
    (h : (functionLine a.1 a.2).toList ++ rest = (functionLine b.1 b.2).toList ++ other) :
    a = b ∧ rest = other := by
  simp only [toList_functionLine, List.append_assoc, List.append_cancel_left_eq, List.cons_append,
    List.cons.injEq, true_and] at h
  obtain ⟨keys, afterKey⟩ := eq_of_append_cons_eq ha.1 hb.1 h
  obtain ⟨params, left⟩ := eq_of_append_cons_eq ha.2 hb.2 afterKey
  refine ⟨Prod.ext (String.toList_inj.mp keys) (String.toList_inj.mp params), ?_⟩
  simpa using left

/-! ### One reading -/

/-- The key is one of the kind, by the marks in it. -/
def isKeyOf (kind : Kind) (key : String) : Bool :=
  (key.toList.contains '.' == (kind == .dot)) && (key.toList.contains ':' == (kind == .colon))

theorem isKeyOf_iff {kind own : Kind} {key : String} {table : Option (List Char)}
    {name : List Char} (h : Subject own key.toList table name) :
    isKeyOf kind key = true ↔ own = kind := by
  have dots := h.dot_mem_iff
  have colons := h.colon_mem_iff
  cases own <;> cases kind <;> simp_all [isKeyOf]

/-- The text declares the tables and, kind by kind, the functions, as a stub file does. -/
structure Declares (text : String) (tables : List String)
    (functions : Kind → List (String × String)) : Prop where
  text : text = layout tables functions
  tables : ∀ table ∈ tables, Identifier table.toList
  keys : ∀ kind, ∀ e ∈ functions kind, ∃ table name, Subject kind e.1.toList table name
  params : ∀ kind, ∀ e ∈ functions kind, ')' ∉ e.2.toList

section Declares

variable {text : String} {tables others : List String}
  {functions more : Kind → List (String × String)}

/-- The functions of one kind are those with the keys of that kind. -/
theorem Declares.filter_functions (h : Declares text tables functions) (kind : Kind) :
    (functions .global ++ functions .dot ++ functions .colon).filter (fun e => isKeyOf kind e.1) =
      functions kind := by
  have same : ∀ e ∈ functions kind, isKeyOf kind e.1 = true := by
    intro e he
    obtain ⟨table, name, subject⟩ := h.keys kind e he
    exact (isKeyOf_iff subject).mpr rfl
  have others {other : Kind} (ne : other ≠ kind) :
      ∀ e ∈ functions other, ¬ isKeyOf kind e.1 = true := by
    intro e he
    obtain ⟨table, name, subject⟩ := h.keys other e he
    rw [isKeyOf_iff subject]
    exact ne
  rw [List.filter_append, List.filter_append]
  cases kind with
  | global =>
    rw [List.filter_eq_self.mpr same, List.filter_eq_nil_iff.mpr (others (by decide)),
      List.filter_eq_nil_iff.mpr (others (by decide)), List.append_nil, List.append_nil]
  | dot =>
    rw [List.filter_eq_self.mpr same, List.filter_eq_nil_iff.mpr (others (by decide)),
      List.filter_eq_nil_iff.mpr (others (by decide)), List.append_nil, List.nil_append]
  | colon =>
    rw [List.filter_eq_self.mpr same, List.filter_eq_nil_iff.mpr (others (by decide)),
      List.filter_eq_nil_iff.mpr (others (by decide)), List.nil_append, List.nil_append]

theorem Declares.cuttable (h : Declares text tables functions) :
    ∀ e ∈ functions .global ++ functions .dot ++ functions .colon,
      '(' ∉ e.1.toList ∧ ')' ∉ e.2.toList := by
  have valid (kind : Kind) : ∀ e ∈ functions kind, '(' ∉ e.1.toList ∧ ')' ∉ e.2.toList := by
    intro e he
    obtain ⟨table, name, subject⟩ := h.keys kind e he
    exact ⟨subject.not_mem (by decide) (by decide) (by decide), h.params kind e he⟩
  intro e he
  simp only [List.mem_append] at he
  rcases he with (he | he) | he
  · exact valid .global e he
  · exact valid .dot e he
  · exact valid .colon e he

theorem Declares.oneLine (h : Declares text tables functions) : ∀ t ∈ tables, '\n' ∉ t.toList := by
  intro t ht
  exact (h.tables t ht).word.not_mem (by decide)

/-- A text declares tables and functions in one way at most, also where parameters run over lines.
-/
theorem Declares.unique (h : Declares text tables functions) (ho : Declares text others more) :
    tables = others ∧ functions = more := by
  have chars := congrArg String.toList (h.text.symm.trans ho.text)
  rw [toList_layout, toList_layout] at chars
  -- Functions begin with a letter, tables with a dash.
  have letters (entries : List (String × String)) (t : String) (rest : List Char) :
      (tableLines t).toList ++ rest ≠
        entries.flatMap fun e => (functionLine e.1 e.2).toList := by
    cases entries with
    | nil => simp [toList_tableLines]
    | cons e entries => simp [toList_tableLines, toList_functionLine, keyword]
  obtain ⟨sameTables, declared⟩ := eq_of_flatMap_append_eq
    (fun a b rest other => cut_tableLines) h.oneLine ho.oneLine (letters _) (letters _)
    (List.append_cancel_left chars)
  have some (e : String × String) (rest : List Char) :
      (functionLine e.1 e.2).toList ++ rest ≠ [] := by
    simp [toList_functionLine]
  rw [← List.append_nil (List.flatMap _ (functions .global ++ _ ++ _)),
    ← List.append_nil (List.flatMap _ (more .global ++ _ ++ _))] at declared
  obtain ⟨all, -⟩ := eq_of_flatMap_append_eq
    (fun a b rest other => cut_functionLine) h.cuttable ho.cuttable some some declared
  refine ⟨sameTables, funext fun kind => ?_⟩
  rw [← h.filter_functions kind, all, ho.filter_functions kind]

end Declares

end LuaDecl.Stub

namespace LuaDecl.Catalog

open Definition

/-- A stub file declares what its catalog holds. -/
theorem Sound.declares {c : Catalog} (h : c.Sound) :
    Stub.Declares (Stub.render c) c.tables.toList fun kind => (c.ofKind kind).entries where
  text := Stub.render_eq_layout h
  tables := h.tables
  keys := by
    intro kind e he
    obtain ⟨s, wf, rfl, key, -⟩ := h.entries kind e he
    exact ⟨_, _, key ▸ wf.subject⟩
  params := by
    intro kind e he
    obtain ⟨s, wf, -, -, params⟩ := h.entries kind e he
    exact params ▸ wf.closed

/-- A stub file determines the catalog. -/
theorem Sound.eq_of_render_eq {c d : Catalog} (hc : c.Sound) (hd : d.Sound)
    (h : Stub.render c = Stub.render d) : c = d := by
  obtain ⟨tables, functions⟩ := (h ▸ hc.declares).unique hd.declares
  apply ext_ofKind
  · intro kind
    exact SortedMap.ext_entries (congrFun functions kind)
  · apply SortedSet.ext_mem
    intro table
    rw [tables]

/-- A stub file loses nothing of the sources: two catalogs of sources with the same stub file are
equal, in their maps and in their tables, also where parameters hold line feeds. -/
theorem ofSources_eq_of_render_eq {sources others : List String}
    (h : Stub.render (ofSources sources) = Stub.render (ofSources others)) :
    ofSources sources = ofSources others :=
  (sound_ofSources sources).eq_of_render_eq (sound_ofSources others) h

/-- Parameters over two lines, and a second definition that comes too late. -/
theorem ofSources_eq_of_render_eq_lines :
    Stub.render (ofSources ["function f(a,\n b) end", "function f(c) end"]) =
      Stub.render (ofSources ["f = function(a,\n b) end"]) ∧
    ofSources ["function f(a,\n b) end", "function f(c) end"] =
      ofSources ["f = function(a,\n b) end"] := by
  have same : Stub.render (ofSources ["function f(a,\n b) end", "function f(c) end"]) =
      Stub.render (ofSources ["f = function(a,\n b) end"]) := by decide +kernel
  exact ⟨same, ofSources_eq_of_render_eq same⟩

end LuaDecl.Catalog
