import LuaDecl.Proofs.Comment.Dashes
import LuaDecl.Proofs.Definition.Recognition

/-!
# Signatures found in a source

What every signature of a source satisfies, whatever the source holds: its key is spelled by its
table and name, and its parameters are in normal form, hold no closing parenthesis and begin no
comment. The parameters come out of one piece of the text without comments, so what holds of all
pieces of that text holds of them.
-/

namespace LuaDecl

/-- A signature as a source can define it. -/
structure Signature.WellFormed (s : Signature) : Prop where
  subject : Definition.Subject s.kind s.key.toList (s.table.map String.toList) s.name.toList
  closed : ')' ∉ s.params.toList
  normal : Parameters.normalize s.params = s.params
  uncommented : Comment.Uncommented s.params.toList

/-- The table of a signature is an identifier. -/
theorem Signature.WellFormed.identifier_table {s : Signature} (h : s.WellFormed) {table : String}
    (named : s.table = some table) : Definition.Identifier table.toList := by
  have subject := h.subject
  rw [named] at subject
  cases kind : s.kind <;> rw [kind] at subject
  case global => exact absurd subject.1 (by simp)
  all_goals
    obtain ⟨t, equal, -, hi, -⟩ := subject
    exact Option.some.inj equal ▸ hi

/-- The signatures are of one function: of one kind, in one table, of one name. -/
structure Signature.SameFunction (s t : Signature) : Prop where
  kind : s.kind = t.kind
  table : s.table = t.table
  name : s.name = t.name

/-- Keys that spell table and name tell functions apart. -/
theorem Signature.sameFunction_of_key_eq {s t : Signature}
    (hs : Definition.Subject s.kind s.key.toList (s.table.map String.toList) s.name.toList)
    (ht : Definition.Subject t.kind t.key.toList (t.table.map String.toList) t.name.toList)
    (key : s.key = t.key) : s.SameFunction t := by
  rw [← key] at ht
  obtain ⟨kind, tables, names⟩ := hs.unique ht
  have injective : Function.Injective String.toList := by
    intro a b
    exact String.toList_inj.mp
  exact ⟨kind, Option.map_injective injective tables, injective names⟩

namespace Text

theorem isPrefix_trimEnd (s : List Char) : trimEnd s <+: s := by
  rw [← List.reverse_suffix, trimEnd, List.reverse_reverse]
  exact List.dropWhile_suffix isBlank

theorem isInfix_trim (s : List Char) : trim s <:+: s :=
  (isPrefix_trimEnd (trimStart s)).isInfix.trans (List.dropWhile_suffix isBlank).isInfix

end Text

namespace Parameters

theorem normalizeChars_eq_or (raw : List Char) :
    normalizeChars raw = variadic ∨ normalizeChars raw = Text.trim raw := by
  unfold normalizeChars
  split
  · exact Or.inl rfl
  · exact Or.inr rfl

end Parameters

namespace Definition

/-- The parts of a fit: its subject, and the parameters as a piece of the text. -/
theorem Shape.parts_of_fits {shape : Shape} {text : List Char} {c : Capture}
    (h : shape.Fits text c) :
    (∃ subject, Subject shape.kind subject c.table c.name) ∧ ')' ∉ c.params ∧
      c.params <:+: text := by
  cases shape with
  | colonStatement | dotStatement | globalStatement =>
    obtain ⟨lead, gap, subject, trail, -, -, -, -, hs, hp, rfl⟩ := h
    exact ⟨⟨subject, hs⟩, hp,
      ⟨lead ++ keyword ++ gap ++ subject ++ trail ++ ['('], [')'], by simp⟩⟩
  | dotAssignment | globalAssignment =>
    obtain ⟨lead, subject, before, after, trail, -, -, -, -, hs, hp, rfl⟩ := h
    exact ⟨⟨subject, hs⟩, hp,
      ⟨lead ++ subject ++ before ++ '=' :: after ++ keyword ++ trail ++ ['('], [')'], by simp⟩⟩

theorem isInfix_extract (text : List Char) (start stop : Nat) :
    text.extract start stop <:+: text := by
  rw [List.extract_eq_take_drop]
  exact (List.take_prefix _ _).isInfix.trans (List.drop_suffix _ _).isInfix

/-- The key of a signature spells the subject of its capture. -/
theorem subject_key {kind : Kind} {subject name : List Char} {table : Option (List Char)}
    (h : Subject kind subject table name) (params : String) :
    Subject kind
      (Signature.key ⟨kind, table.map String.ofList, String.ofList name, params⟩).toList
      ((table.map String.ofList).map String.toList) (String.ofList name).toList := by
  cases kind with
  | global =>
    obtain ⟨rfl, rfl, hi⟩ := h
    simpa [Subject, Signature.key] using hi
  | dot | colon =>
    obtain ⟨t, rfl, rfl, hi, hw⟩ := h
    refine ⟨t, by simp, ?_, hi, by simpa using hw⟩
    simp [Signature.key, String.toList_append]

end Definition

namespace Extraction

open Definition Comment

theorem toList_params_signature (shape : Shape) (hit : Hit) :
    (signature shape hit).params.toList = Parameters.normalizeChars hit.capture.params := by
  simp [signature]

/-- The key of a signature spells its table and name, in any text. -/
theorem subject_of_mem_ofText {text : String} {s : Signature}
    (h : s ∈ (ofText text).signatures) :
    Subject s.kind s.key.toList (s.table.map String.toList) s.name.toList := by
  obtain ⟨shape, -, found⟩ := List.mem_flatMap.mp h
  obtain ⟨hit, member, rfl⟩ := List.mem_map.mp found
  obtain ⟨-, -, -, -, fits⟩ :=
    (Shape.finds_hits shape text.toList).sound hit (List.mem_filter.mp member).1
  obtain ⟨⟨subject, spelled⟩, -, -⟩ := Shape.parts_of_fits fits
  exact subject_key spelled _

theorem wellFormed_signature {text : List Char} (ht : Uncommented text) {shape : Shape} {hit : Hit}
    (h : hit ∈ shape.hits text) : (signature shape hit).WellFormed := by
  obtain ⟨-, -, -, -, fits⟩ := (Shape.finds_hits shape text).sound hit h
  obtain ⟨⟨subject, spelled⟩, closed, part⟩ := Shape.parts_of_fits fits
  have inText : hit.capture.params <:+: text := part.trans (isInfix_extract text _ _)
  refine ⟨subject_key spelled _, ?_, ?_, ?_⟩
  · rw [toList_params_signature]
    rcases Parameters.normalizeChars_eq_or hit.capture.params with equal | equal <;> rw [equal]
    · decide
    · intro member
      exact closed ((Text.isInfix_trim _).subset member)
  · rw [← String.toList_inj, Parameters.normalize, String.toList_ofList, toList_params_signature,
      Parameters.normalizeChars_normalizeChars]
  · rw [toList_params_signature]
    rcases Parameters.normalizeChars_eq_or hit.capture.params with equal | equal <;> rw [equal]
    · exact uncommented_of_not_mem (by decide)
    · exact ht.of_infix ((Text.isInfix_trim _).trans inText)

/-- Every signature of a source is well formed. -/
theorem wellFormed_of_mem_ofSource {source : String} {s : Signature}
    (h : s ∈ (ofSource source).signatures) : s.WellFormed := by
  obtain ⟨shape, -, found⟩ := List.mem_flatMap.mp h
  obtain ⟨hit, member, rfl⟩ := List.mem_map.mp found
  refine wellFormed_signature ?_ (List.mem_filter.mp member).1
  rw [strip, String.toList_ofList]
  exact uncommented_stripChars source.toList

end Extraction

end LuaDecl
