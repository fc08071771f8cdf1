import LuaDecl.Proofs.Stub.Lines

/-!
# Reading a stub file back

A stub file is a source too. Its annotations vanish as comments, its tables define nothing, and
every declaration is read as the signature it was written for, so the catalog of a stub file is the
catalog that it declares. Two things must not happen: parameters may not run over lines, since a
part of them could then read as a line of its own, and no table may end with `local`, since that
hides the global declared next.
-/

namespace LuaDecl

namespace Stub

open Comment Definition Extraction Text

/-- The lines of a stub file without comments. -/
def visibleLines (tables : List String) (kept : List Signature) : List (List Char) :=
  [] :: (tableLinesOf tables ++ kept.map declaration)

/-! ### Comments -/

theorem stripChars_header_append (s : List Char) :
    stripChars (header.toList ++ s) = '\n' :: stripChars s := by
  rw [toList_header]
  have oneLine : '\n' ∉ ['m', 'e', 't', 'a'] := by decide
  exact stripChars_annotation (by decide) oneLine s

theorem stripChars_tables_append {tables : List String} (h : ∀ t ∈ tables, Identifier t.toList)
    (s : List Char) :
    stripChars (tables.flatMap (fun t => (tableLines t).toList) ++ s) =
      unlines (tableLinesOf tables) ++ stripChars s := by
  induction tables with
  | nil => rfl
  | cons t tables ih =>
    obtain ⟨first, others⟩ := List.forall_mem_cons.mp h
    have noDash : '-' ∉ t.toList := first.word.not_mem (by decide)
    have oneLine : '\n' ∉ t.toList := first.word.not_mem (by decide)
    have className : '\n' ∉ ['c', 'l', 'a', 's', 's', ' '] ++ t.toList := by simp [oneLine]
    have annotation := stripChars_annotation (by simp [noDash]) className
      ((selfAssignment t.toList ++ ['\n']) ++
        (tables.flatMap (fun t => (tableLines t).toList) ++ s))
    have plain : '-' ∉ selfAssignment t.toList ++ ['\n'] := by simp [selfAssignment, noDash]
    have last : (selfAssignment t.toList ++ ['\n']).getLast? ≠ some '-' := by
      rw [List.getLast?_concat]
      simp
    rw [stripChars_append (uncommented_of_not_mem plain) last, ih others] at annotation
    simpa [toList_tableLines, selfAssignment] using annotation

theorem uncommented_declaration {s : Signature} (h : s.WellFormed) :
    Uncommented (declaration s ++ ['\n']) := by
  have key : '-' ∉ s.key.toList := h.subject.not_mem (by decide) (by decide) (by decide)
  have shape : declaration s ++ ['\n'] = keyword ++ ' ' ::
      (s.key.toList ++ '(' :: (s.params.toList ++ ')' :: [' ', 'e', 'n', 'd', '\n'])) := by
    simp [declaration]
  rw [shape]
  refine uncommented_append_cons (uncommented_of_not_mem (by decide)) (by decide) ?_
  refine uncommented_append_cons (uncommented_of_not_mem key) (by decide) ?_
  exact uncommented_append_cons h.uncommented (by decide) (uncommented_of_not_mem (by decide))

theorem stripChars_declarations {kept : List Signature} (h : ∀ s ∈ kept, s.WellFormed) :
    stripChars (kept.flatMap fun s => (functionLine s.key s.params).toList) =
      unlines (kept.map declaration) := by
  induction kept with
  | nil => exact stripChars_nil
  | cons s kept ih =>
    obtain ⟨first, others⟩ := List.forall_mem_cons.mp h
    have line : (functionLine s.key s.params).toList = declaration s ++ ['\n'] := by
      simp [toList_functionLine, declaration]
    have last : (declaration s ++ ['\n']).getLast? ≠ some '-' := by
      rw [List.getLast?_concat]
      simp
    rw [List.flatMap_cons, line, stripChars_append (uncommented_declaration first) last, ih others,
      List.map_cons, unlines_cons, List.append_assoc]
    rfl

/-- Without comments a stub file is made of its visible lines. -/
theorem stripChars_render {c : Catalog} (h : c.Sound) {kept : List Signature}
    (spelled : c.SpelledBy kept) (wf : ∀ s ∈ kept, s.WellFormed) :
    stripChars (render c).toList = unlines (visibleLines c.tables.toList kept) := by
  rw [toList_render h, spelled.entries, List.flatMap_map, stripChars_header_append,
    stripChars_tables_append h.tables, stripChars_declarations wf]
  simp [visibleLines, unlines_append]

/-! ### Signatures -/

theorem publicLine_of_mem_visibleLines {tables : List String} {kept : List Signature}
    (ht : ∀ t ∈ tables, Identifier t.toList ∧ ¬ localKeyword <:+ t.toList)
    (hs : ∀ s ∈ kept, s.WellFormed ∧ '\n' ∉ s.params.toList) :
    ∀ line ∈ visibleLines tables kept, PublicLine line := by
  intro line member
  simp only [visibleLines, tableLinesOf, List.mem_cons, List.mem_append, List.mem_flatMap,
    List.mem_map, List.not_mem_nil, or_false] at member
  rcases member with rfl | ⟨t, inTables, rfl | rfl⟩ | ⟨s, inKept, rfl⟩
  · exact publicLine_nil
  · exact publicLine_nil
  · exact publicLine_selfAssignment (ht t inTables).1 (ht t inTables).2
  · exact publicLine_declaration (hs s inKept).1 (hs s inKept).2

theorem captures_visibleLines {tables : List String} {kept : List Signature}
    (ht : ∀ t ∈ tables, Identifier t.toList)
    (hs : ∀ s ∈ kept, s.WellFormed ∧ '\n' ∉ s.params.toList) (shape : Shape) :
    shape.captures true (unlines (visibleLines tables kept)) =
      (kept.filter fun s => statementShape s.kind = shape).map captureOf := by
  have wf : ∀ s ∈ kept, s.WellFormed := by
    intro s member
    exact (hs s member).1
  have oneLine : ∀ s ∈ kept, '\n' ∉ s.params.toList := by
    intro s member
    exact (hs s member).2
  have unopened : Unopened (unlines (kept.map declaration)) := by
    cases kept with
    | nil => simp [Unopened, trimStart]
    | cons s kept =>
      rw [List.map_cons, unlines_cons, declaration, List.append_assoc]
      exact unopened_append identifier_keyword _
  rw [visibleLines, unlines_cons, unlines_append, List.nil_append, Shape.captures_emptyLine,
    captures_tableLinesOf ht unopened, captures_declarations wf oneLine]

/-- A declaration is read as the signature it was written for. -/
theorem ofCapture_captureOf {s : Signature} (h : s.WellFormed) :
    ofCapture (statementShape s.kind) (captureOf s) = s := by
  have kind : (statementShape s.kind).kind = s.kind := by cases s.kind <;> rfl
  have table : (s.table.map String.toList).map String.ofList = s.table := by
    cases s.table <;> simp
  have params : String.ofList (Parameters.normalizeChars s.params.toList) = s.params := h.normal
  rw [ofCapture, signature, captureOf, kind, table, params, String.ofList_toList]

/-- The signatures of a stub file: those it declares, sorted by their shapes. -/
theorem signatures_ofSource_render {c : Catalog} (h : c.Sound) {kept : List Signature}
    (spelled : c.SpelledBy kept) (wf : ∀ s ∈ kept, s.WellFormed)
    (oneLine : ∀ s ∈ kept, '\n' ∉ s.params.toList)
    (visible : ∀ t ∈ c.tables.toList, ¬ localKeyword <:+ t.toList) :
    (ofSource (render c)).signatures =
      Shape.all.flatMap fun shape => kept.filter fun s => statementShape s.kind = shape := by
  have tables : ∀ t ∈ c.tables.toList, Identifier t.toList ∧ ¬ localKeyword <:+ t.toList := by
    intro t ht
    exact ⟨h.tables t ht, visible t ht⟩
  have functions : ∀ s ∈ kept, s.WellFormed ∧ '\n' ∉ s.params.toList := by
    intro s hs
    exact ⟨wf s hs, oneLine s hs⟩
  have text : (strip (render c)).toList = unlines (visibleLines c.tables.toList kept) := by
    rw [strip, String.toList_ofList, stripChars_render h spelled wf]
  rw [ofSource, ofText, text]
  show Shape.all.flatMap (ofShape _) = _
  apply congrArg Shape.all.flatMap
  funext shape
  rw [ofShape_unlines (publicLine_of_mem_visibleLines tables functions),
    captures_visibleLines h.tables functions, List.map_map]
  refine Eq.trans (List.map_congr_left ?_) (List.map_id _)
  intro s hs
  obtain ⟨member, same⟩ := List.mem_filter.mp hs
  rw [← of_decide_eq_true same]
  exact ofCapture_captureOf (wf s member)

theorem mem_flatMap_statementShape {kept : List Signature} {s : Signature} :
    (s ∈ Shape.all.flatMap fun shape => kept.filter fun s => statementShape s.kind = shape) ↔
      s ∈ kept := by
  have listed : statementShape s.kind ∈ Shape.all := by cases s.kind <;> decide
  simp [List.mem_flatMap, List.mem_filter, listed]

end Stub

namespace Catalog

/-- The stub file of a catalog of sources is a source of the same catalog: all functions come back
with their parameters, and all tables. -/
theorem ofSources_render {sources : List String}
    (oneLine : ∀ kind, ∀ e ∈ ((ofSources sources).ofKind kind).entries, '\n' ∉ e.2.toList)
    (visible : ∀ t ∈ (ofSources sources).tables.toList,
      ¬ Extraction.localKeyword <:+ t.toList) :
    ofSources [Stub.render (ofSources sources)] = ofSources sources ∧
      Stub.render (ofSources [Stub.render (ofSources sources)]) =
        Stub.render (ofSources sources) := by
  have represents := represents_ofSources sources
  obtain ⟨kept, spelled, known⟩ := represents.exists_spelledBy
  have past : ∀ s ∈ signaturesOf sources, s.WellFormed := by
    intro s member
    exact wellFormed_of_mem_signaturesOf member
  have wf : ∀ s ∈ kept, s.WellFormed := by
    intro s member
    exact past s (known s member)
  have single : ∀ s ∈ kept, '\n' ∉ s.params.toList := by
    intro s member
    have entry := SortedMap.find?_eq_some_iff.mp (spelled.sound s member)
    exact oneLine s.kind (s.key, s.params) entry
  have members (s : Signature) :
      s ∈ signaturesOf [Stub.render (ofSources sources)] ↔ s ∈ kept := by
    rw [signaturesOf, List.flatMap_singleton,
      Stub.signatures_ofSource_render (sound_ofSources sources) spelled wf single visible,
      Stub.mem_flatMap_statementShape]
  have same : ofSources [Stub.render (ofSources sources)] = ofSources sources :=
    represents.eq_of_spelledBy (represents_ofSources _) spelled past known members
  exact ⟨same, congrArg Stub.render same⟩

/-- A table called `function`, and a method without parameters. -/
theorem ofSources_render_function :
    ofSources [Stub.render (ofSources ["function.f = function(a) end", "function M:g() end"])] =
      ofSources ["function.f = function(a) end", "function M:g() end"] := by
  refine (ofSources_render ?_ (by decide +kernel)).1
  intro kind
  cases kind with
  | global | dot | colon => decide +kernel

end Catalog

end LuaDecl
