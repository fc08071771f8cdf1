import LuaDecl.Proofs.Extraction.Passages
import LuaDecl.Proofs.Stub.RoundTrip

/-!
# Reading any stub file back

What a stub file holds as a source, also where parameters run over lines. Every declaration is read
as its signature, by the shape of a statement of its kind, and every other shape reads what it finds
between the parentheses, as if nothing else were there (`publicFrom_declaration`). The one thing
that can get lost is the first global: it stands behind the last table, which hides it if it ends
with `local`. So what is read back is declared, or stands in declared parameters
(`mem_signatures_render`), and all that is declared is read back unless something is hidden
(`mem_signatures_render_of_mem`).
-/

namespace LuaDecl.Stub

open Comment Definition Extraction Text

variable {shape : Shape} {before : List Char} {kept : List Signature} {tables : List String}

/-- Parameters with the parentheses around them. -/
def parenthesized (params : String) : List Char :=
  '(' :: (params.toList ++ [')'])

/-- What a shape captures in a declaration. -/
def reread (shape : Shape) (hidden : Bool) (s : Signature) : List Capture :=
  if statementShape s.kind = shape then if hidden then [] else [captureOf s]
  else publicFrom shape [] true (parenthesized s.params)

/-! ### Functions -/

theorem publicFrom_end (rest : List Char) :
    publicFrom shape before false (' ' :: 'e' :: 'n' :: 'd' :: '\n' :: rest) =
      publicFrom shape (before ++ [' ', 'e', 'n', 'd', '\n']) true rest := by
  have oneLine : '\n' ∉ [' ', 'e', 'n', 'd'] := by decide
  have split : ' ' :: 'e' :: 'n' :: 'd' :: '\n' :: rest =
      [' ', 'e', 'n', 'd'] ++ '\n' :: rest := rfl
  rw [split, publicFrom_false_append oneLine, publicFrom_cons (by simp), List.append_assoc]
  rfl

theorem publicFrom_declaration {s : Signature} (h : s.WellFormed) (rest : List Char) :
    publicFrom shape before true (declaration s ++ '\n' :: rest) =
      reread shape (isHidden shape before) s ++
        publicFrom shape (before ++ (declaration s ++ ['\n'])) true rest := by
  have scanned := scan?_declaration h ('\n' :: rest) shape
  unfold reread
  by_cases own : statementShape s.kind = shape
  · rw [if_pos own] at scanned ⊢
    have split : declaration s ++ '\n' :: rest =
        (keyword ++ ' ' :: (s.key.toList ++ '(' :: (s.params.toList ++ [')']))) ++
          ' ' :: 'e' :: 'n' :: 'd' :: '\n' :: rest := by
      simp [declaration]
    rw [split] at scanned ⊢
    rw [publicFrom_of_scan? _ scanned, publicFrom_end]
    simp [declaration]
  · rw [if_neg own] at scanned ⊢
    -- From the line start nothing fits, and the next one is behind the opening parenthesis.
    obtain ⟨first, tail, head⟩ : ∃ first tail,
        keyword ++ ' ' :: s.key.toList = first :: tail := ⟨_, _, rfl⟩
    have key : '\n' ∉ s.key.toList := h.subject.not_mem (by decide) (by decide) (by decide)
    have oneLine : '\n' ∉ first :: tail := by
      have word : '\n' ∉ keyword := by decide
      rw [← head]
      simp [key, word]
    have here : (first == '\n') = false := by
      simpa using Ne.symm (List.ne_of_not_mem_cons oneLine)
    have later : '\n' ∉ tail ++ ['('] := by
      simpa using List.not_mem_of_not_mem_cons oneLine
    have split : declaration s ++ '\n' :: rest = first :: ((tail ++ ['(']) ++
        (s.params.toList ++ ')' :: ' ' :: 'e' :: 'n' :: 'd' :: '\n' :: rest)) := by
      rw [← List.cons_append, ← List.cons_append, ← head]
      simp [declaration]
    have whole : before ++ (declaration s ++ ['\n']) = before ++ ([first] ++ (tail ++ ['('])) ++
        s.params.toList ++ [')'] ++ [' ', 'e', 'n', 'd', '\n'] := by
      have front : [first] ++ (tail ++ ['(']) = keyword ++ ' ' :: s.key.toList ++ ['('] := by
        rw [head]
        simp
      rw [front]
      simp [declaration]
    rw [split] at scanned ⊢
    rw [publicFrom_cons fun _ => scanned, here, publicFrom_false_append later,
      publicFrom_closed h.closed, publicFrom_end, whole]
    have opened := publicFrom_opened shape (before ++ first :: tail)
      (s.params.toList ++ [')'])
    simp only [List.append_assoc, List.cons_append, List.nil_append] at opened ⊢
    rw [opened]
    rfl

/-- Declarations behind a text that hides nothing. -/
theorem publicFrom_declarations (wf : ∀ s ∈ kept, s.WellFormed) (visible : ¬ EndsLocal before) :
    publicFrom shape before true (unlines (kept.map declaration)) =
      kept.flatMap (reread shape false) := by
  induction kept generalizing before with
  | nil => exact publicFrom_nil true
  | cons s kept ih =>
    obtain ⟨first, others⟩ := List.forall_mem_cons.mp wf
    have shown : isHidden shape before = false := by
      cases guard : endsWithLocal before with
      | true => exact absurd (endsLocal_of_endsWithLocal guard) visible
      | false => simp [isHidden, guard]
    have closed : ¬ EndsLocal (before ++ (declaration s ++ ['\n'])) := by
      rw [← List.append_assoc]
      exact not_endsLocal_append_lineFeed (not_endsLocal_declaration s before)
    rw [List.map_cons, unlines_cons, publicFrom_declaration first, shown, ih others closed,
      List.flatMap_cons]

/-- Only the first declaration can be hidden by the text before them. -/
theorem publicFrom_cons_declarations {s : Signature} (wf : ∀ t ∈ s :: kept, t.WellFormed) :
    publicFrom shape before true (unlines ((s :: kept).map declaration)) =
      reread shape (isHidden shape before) s ++ kept.flatMap (reread shape false) := by
  obtain ⟨first, others⟩ := List.forall_mem_cons.mp wf
  have closed : ¬ EndsLocal (before ++ (declaration s ++ ['\n'])) := by
    rw [← List.append_assoc]
    exact not_endsLocal_append_lineFeed (not_endsLocal_declaration s before)
  rw [List.map_cons, unlines_cons, publicFrom_declaration first,
    publicFrom_declarations others closed]

/-! ### Tables -/

/-- What begins on an empty line begins on the next as well. -/
theorem publicFrom_emptyLine (same : isHidden shape before = isHidden shape (before ++ ['\n']))
    (s : List Char) :
    publicFrom shape before true ('\n' :: s) = publicFrom shape (before ++ ['\n']) true s := by
  have skip := Shape.scan?_blank_cons shape (c := '\n') (by decide) s
  cases found : shape.scan? s with
  | none =>
    rw [found] at skip
    exact publicFrom_cons fun _ => skip
  | some result =>
    obtain ⟨c, after⟩ := result
    obtain ⟨taken, rfl, -⟩ := Shape.exists_of_scan? found
    have longer : shape.scan? (('\n' :: taken) ++ after) = some (c, after) := skip.trans found
    have whole := publicFrom_of_scan? before longer
    rw [List.cons_append] at whole
    rw [whole, publicFrom_of_scan? _ found, same, List.append_assoc]
    rfl

/-- The lines of tables give nothing. -/
theorem publicFrom_tableLinesOf (h : ∀ t ∈ tables, Identifier t.toList) {after : List Char}
    (unopened : Unopened after) :
    publicFrom shape before true (unlines (tableLinesOf tables) ++ after) =
      publicFrom shape (before ++ unlines (tableLinesOf tables)) true after := by
  induction tables generalizing before with
  | nil => simp [tableLinesOf]
  | cons t tables ih =>
    obtain ⟨first, others⟩ := List.forall_mem_cons.mp h
    have oneLine : '\n' ∉ selfAssignment t.toList := by
      have word : '\n' ∉ t.toList := first.word.not_mem (by decide)
      simp [selfAssignment, word]
    have fails := scan?_selfAssignment first (unopened_tableLinesOf others unopened) shape
    have earlier : shape.scan? ('\n' :: (selfAssignment t.toList ++
        '\n' :: (unlines (tableLinesOf tables) ++ after))) = none :=
      (Shape.scan?_blank_cons shape (by decide) _).trans fails
    simp only [tableLinesOf_cons, unlines_cons, List.append_assoc, List.cons_append,
      List.nil_append]
    rw [publicFrom_cons fun _ => earlier, show ('\n' == '\n') = true from rfl,
      publicFrom_line oneLine fails, ih others]
    simp

/-! ### Stub files -/

/-- What stands before the functions of a stub file, without comments. -/
def preamble (tables : List String) : List Char :=
  '\n' :: unlines (tableLinesOf tables)

theorem unopened_declarations (kept : List Signature) :
    Unopened (unlines (kept.map declaration)) := by
  cases kept with
  | nil => simp [Unopened, trimStart]
  | cons s kept =>
    rw [List.map_cons, unlines_cons, declaration, List.append_assoc]
    exact unopened_append identifier_keyword _

theorem publicFrom_visibleLines (h : ∀ t ∈ tables, Identifier t.toList) :
    publicFrom shape [] true (unlines (visibleLines tables kept)) =
      publicFrom shape (preamble tables) true (unlines (kept.map declaration)) := by
  have same : isHidden shape [] = isHidden shape ([] ++ ['\n']) := by
    cases shape <;> decide
  rw [visibleLines, unlines_cons, unlines_append, List.nil_append, publicFrom_emptyLine same,
    publicFrom_tableLinesOf h (unopened_declarations kept)]
  rfl

/-- The preamble hides what comes next only if the last table ends with `local`. -/
theorem exists_hiding_table (h : ∀ t ∈ tables, Identifier t.toList)
    (hides : endsWithLocal (preamble tables) = true) :
    ∃ t, tables.getLast? = some t ∧ localKeyword <:+ t.toList := by
  rcases List.eq_nil_or_concat tables with rfl | ⟨front, t, rfl⟩
  · exact absurd hides (by decide)
  · rw [List.concat_eq_append] at h hides ⊢
    refine ⟨t, by simp, ?_⟩
    refine Classical.byContradiction fun visible => ?_
    have identifier := h t (by simp)
    have whole : preamble (front ++ [t]) =
        ('\n' :: unlines (tableLinesOf front) ++ ['\n']) ++ selfAssignment t.toList ++ ['\n'] := by
      simp [preamble, tableLinesOf, unlines_append]
    have shown := not_endsLocal_append_lineFeed (not_endsLocal_selfAssignment identifier visible
      ('\n' :: unlines (tableLinesOf front) ++ ['\n']))
    rw [← whole] at shown
    exact shown (endsLocal_of_endsWithLocal hides)

/-- The first global of the catalog is hidden in its stub file: it stands behind a table that ends
with `local`. -/
def HidesGlobal (c : Catalog) : Prop :=
  c.globals.entries ≠ [] ∧ ∃ t, c.tables.toList.getLast? = some t ∧ localKeyword <:+ t.toList

instance (c : Catalog) : Decidable (HidesGlobal c) :=
  decidable_of_iff (c.globals.entries ≠ [] ∧
      c.tables.toList.getLast?.any (fun t => decide (localKeyword <:+ t.toList)) = true) <| by
    cases last : c.tables.toList.getLast? <;> simp [HidesGlobal, last]

section Signatures

variable {c : Catalog} (h : c.Sound) (spelled : c.SpelledBy kept)
  (wf : ∀ s ∈ kept, s.WellFormed)

include h spelled wf

theorem signatures_render :
    (ofSource (render c)).signatures = Shape.all.flatMap fun shape =>
      (publicFrom shape (preamble c.tables.toList) true (unlines (kept.map declaration))).map
        (ofCapture shape) := by
  have text : (strip (render c)).toList = unlines (visibleLines c.tables.toList kept) := by
    rw [strip, String.toList_ofList, stripChars_render h spelled wf]
  rw [ofSource, ofText, text]
  show Shape.all.flatMap (ofShape _) = _
  apply congrArg Shape.all.flatMap
  funext shape
  rw [ofShape_eq_publicFrom, publicFrom_visibleLines h.tables]

/-- What is read back is declared, or stands between the parentheses of a declaration in another
shape. -/
theorem mem_signatures_render {s : Signature} (member : s ∈ (ofSource (render c)).signatures) :
    s ∈ kept ∨ ∃ k ∈ kept, ∃ shape, statementShape k.kind ≠ shape ∧
      s ∈ ofShape (parenthesized k.params) shape := by
  rw [signatures_render h spelled wf] at member
  obtain ⟨shape, -, found⟩ := List.mem_flatMap.mp member
  obtain ⟨capture, captured, rfl⟩ := List.mem_map.mp found
  obtain ⟨k, inKept, hidden, read⟩ : ∃ k ∈ kept, ∃ hidden, capture ∈ reread shape hidden k := by
    cases kept with
    | nil => simp [publicFrom_nil] at captured
    | cons first rest =>
      rw [publicFrom_cons_declarations wf] at captured
      rcases List.mem_append.mp captured with own | later
      · exact ⟨first, List.mem_cons_self, _, own⟩
      · obtain ⟨k, inRest, read⟩ := List.mem_flatMap.mp later
        exact ⟨k, List.mem_cons_of_mem first inRest, _, read⟩
  unfold reread at read
  split at read
  · next own =>
    left
    split at read
    · exact absurd read List.not_mem_nil
    · obtain rfl := List.mem_singleton.mp read
      rw [← own, ofCapture_captureOf (wf k inKept)]
      exact inKept
  · next other =>
    right
    refine ⟨k, inKept, shape, other, ?_⟩
    rw [ofShape_eq_publicFrom]
    exact List.mem_map_of_mem read

/-- All that is declared is read back, unless the first global is hidden. -/
theorem mem_signatures_render_of_mem (visible : ¬ HidesGlobal c) {s : Signature}
    (member : s ∈ kept) : s ∈ (ofSource (render c)).signatures := by
  rw [signatures_render h spelled wf]
  have listed : statementShape s.kind ∈ Shape.all := by cases s.kind <;> decide
  refine List.mem_flatMap.mpr ⟨statementShape s.kind, listed, ?_⟩
  refine List.mem_map.mpr ⟨captureOf s, ?_, ofCapture_captureOf (wf s member)⟩
  have own : reread (statementShape s.kind) false s = [captureOf s] := by simp [reread]
  have shown : isHidden (statementShape s.kind) (preamble c.tables.toList) = false := by
    cases guard : endsWithLocal (preamble c.tables.toList) with
    | false => simp [isHidden, guard]
    | true =>
      cases kind : s.kind with
      | dot | colon => rfl
      | global =>
        refine absurd ⟨?_, exists_hiding_table h.tables guard⟩ visible
        intro none
        have recorded := spelled.sound s member
        rw [kind, SortedMap.find?_eq_some_iff] at recorded
        change (s.key, s.params) ∈ c.globals.entries at recorded
        rw [none] at recorded
        exact List.not_mem_nil recorded
  cases kept with
  | nil => exact absurd member List.not_mem_nil
  | cons first rest =>
    rw [publicFrom_cons_declarations wf, shown]
    rcases List.mem_cons.mp member with rfl | later
    · exact List.mem_append_left _ (by rw [own]; exact List.mem_cons_self)
    · exact List.mem_append_right _
        (List.mem_flatMap.mpr ⟨s, later, by rw [own]; exact List.mem_cons_self⟩)

end Signatures

/-! ### First definitions -/

/-- Every definition between the parentheses of a declaration, in another shape than the declaration
has, is recorded. -/
def InnerRecorded (c : Catalog) : Prop :=
  ∀ kind, ∀ e ∈ (c.ofKind kind).entries, ∀ shape, statementShape kind ≠ shape →
    ∀ s ∈ ofShape (parenthesized e.2) shape, (c.ofKind s.kind).find? s.key = some s.params

instance (c : Catalog) : Decidable (InnerRecorded c) :=
  decidable_of_iff (∀ kind ∈ [Kind.global, .dot, .colon], ∀ e ∈ (c.ofKind kind).entries,
      ∀ shape ∈ Shape.all, statementShape kind ≠ shape →
        ∀ s ∈ ofShape (parenthesized e.2) shape,
          (c.ofKind s.kind).find? s.key = some s.params) <| by
    have kinds : ∀ kind, kind ∈ [Kind.global, .dot, .colon] := by intro kind; cases kind <;> decide
    have shapes : ∀ shape, shape ∈ Shape.all := by intro shape; cases shape <;> decide
    simp only [InnerRecorded, kinds, shapes, forall_const]

open Catalog in
/-- A stub file contradicts nothing that is recorded, and says all of it unless a global is hidden.
-/
theorem firstParams_render {sources : List String} (inner : InnerRecorded (ofSources sources))
    (kind : Kind) (key : String) :
    let again := firstParams (ofSource (render (ofSources sources))).signatures kind key
    let recorded := firstParams (signaturesOf sources) kind key
    (again = none ∨ again = recorded) ∧ (¬ HidesGlobal (ofSources sources) → again = recorded) := by
  intro again recorded
  have represents := represents_ofSources sources
  obtain ⟨kept, spelled, known⟩ := represents.exists_spelledBy
  have wf : ∀ s ∈ kept, s.WellFormed := by
    intro s member
    exact wellFormed_of_mem_signaturesOf (known s member)
  have sound : ∀ s ∈ (ofSource (render (ofSources sources))).signatures,
      ((ofSources sources).ofKind s.kind).find? s.key = some s.params := by
    intro s member
    rcases mem_signatures_render (sound_ofSources sources) spelled wf member with
      declared | ⟨k, inKept, shape, other, inside⟩
    · exact spelled.sound s declared
    · have entry := SortedMap.find?_eq_some_iff.mp (spelled.sound k inKept)
      exact inner k.kind (k.key, k.params) entry shape other s inside
  have maps : recorded = ((ofSources sources).ofKind kind).find? key :=
    (represents.maps kind key).symm
  constructor
  · cases read : again with
    | none => exact Or.inl rfl
    | some params =>
      obtain ⟨s, member, rfl, rfl, rfl⟩ := exists_of_firstParams_eq_some read
      exact Or.inr (maps.trans (sound s member)).symm
  · intro visible
    rw [maps]
    apply firstParams_eq_find?
    · rintro s member rfl
      exact sound s member
    · intro key params found
      obtain ⟨s, member, declares⟩ := spelled.complete kind key params found
      exact ⟨s, mem_signatures_render_of_mem (sound_ofSources sources) spelled wf visible member,
        declares⟩

end LuaDecl.Stub
