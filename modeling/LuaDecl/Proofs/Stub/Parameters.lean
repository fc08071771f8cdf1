import LuaDecl.Proofs.Stub.Decoding

/-!
# What a stub file declares is well formed

The names, tables and parameters of the signatures of a source, whatever the source holds, and of
the functions that a stub file of sources declares (`render_declares_wellFormed`). Most of what is
to be said of parameters follows from their normal form (`Parameters.isDeclarable_of_normal`).
-/

namespace LuaDecl

namespace Text

/-- A trimmed text begins with no blank. -/
theorem isBlank_of_head?_trim {s : List Char} {c : Char} (first : (trim s).head? = some c) :
    isBlank c = false := by
  have start := List.head?_dropWhile_not isBlank (trim s)
  have same : (trim s).dropWhile isBlank = trim s := trimStart_trimEnd_trimStart s
  rw [same, first] at start
  exact start

/-- A trimmed text ends with no blank. -/
theorem isBlank_of_getLast?_trim {s : List Char} {c : Char} (last : (trim s).getLast? = some c) :
    isBlank c = false := by
  rw [trim, trimEnd, List.getLast?_reverse] at last
  have start := List.head?_dropWhile_not isBlank (trimStart s).reverse
  rw [last] at start
  exact start

end Text

namespace Parameters

open Text

/-- The parameters can be declared as they are: they say something of the arguments, stand between
one pair of parentheses without blanks around them, and begin no comment. -/
structure IsDeclarable (params : String) : Prop where
  notEmpty : params ≠ ""
  first : ∀ c, params.toList.head? = some c → isBlank c = false
  last : ∀ c, params.toList.getLast? = some c → isBlank c = false
  closed : ')' ∉ params.toList
  uncommented : ¬ ['-', '-'] <:+: params.toList
  normal : normalize params = params
  notUnderscore : params ≠ "_"
  notSelf : params.toList.map Char.toLower ≠ ['s', 'e', 'l', 'f']

/-- Parameters in normal form are trimmed, and are the ellipsis or say something. -/
theorem trim_of_normal {params : String} (normal : normalize params = params) :
    trim params.toList = params.toList ∧
      (params = String.ofList variadic ∨ isUninformative params.toList = false) := by
  have chars : normalizeChars params.toList = params.toList := by
    rw [← String.toList_inj, normalize, String.toList_ofList] at normal
    exact normal
  unfold normalizeChars at chars
  split at chars
  · have ellipsis : params = String.ofList variadic := by
      rw [← String.toList_inj, String.toList_ofList, chars]
    have trimmed : trim variadic = variadic := by decide
    exact ⟨chars ▸ trimmed, Or.inl ellipsis⟩
  · next informative =>
    rw [chars] at informative
    exact ⟨chars, Or.inr (Bool.eq_false_iff.mpr informative)⟩

theorem isDeclarable_of_normal {params : String} (normal : normalize params = params)
    (closed : ')' ∉ params.toList) (uncommented : Comment.Uncommented params.toList) :
    IsDeclarable params := by
  obtain ⟨trimmed, form⟩ := trim_of_normal normal
  have first : ∀ c, params.toList.head? = some c → isBlank c = false := by
    intro c begins
    rw [← trimmed] at begins
    exact isBlank_of_head?_trim begins
  have last : ∀ c, params.toList.getLast? = some c → isBlank c = false := by
    intro c ends
    rw [← trimmed] at ends
    exact isBlank_of_getLast?_trim ends
  rcases form with rfl | informative
  · exact ⟨by decide, first, last, closed, uncommented, normal, by decide, by decide⟩
  · simp only [isUninformative, Bool.or_eq_false_iff, decide_eq_false_iff_not] at informative
    obtain ⟨⟨⟨nonempty, -⟩, notSelf⟩, notUnderscore⟩ := informative
    refine ⟨?_, first, last, closed, uncommented, normal, ?_, notSelf⟩
    · rintro rfl
      exact nonempty rfl
    · rintro rfl
      exact notUnderscore rfl

end Parameters

/-- What a signature is that a source can define, part by part. -/
structure Signature.IsDeclarable (s : Signature) : Prop where
  name : Definition.Word s.name.toList
  ofGlobal : s.kind = .global → Definition.Identifier s.name.toList ∧ s.table = none
  ofMethod : s.kind ≠ .global → ∃ table, s.table = some table ∧
    Definition.Identifier table.toList
  params : Parameters.IsDeclarable s.params

theorem Signature.WellFormed.isDeclarable {s : Signature} (h : s.WellFormed) :
    s.IsDeclarable := by
  have params := Parameters.isDeclarable_of_normal h.normal h.closed h.uncommented
  have subject := h.subject
  -- A method has its table in the text before the mark.
  have table {t : List Char} (named : s.table.map String.toList = some t)
      (spelled : Definition.Identifier t) :
      ∃ table, s.table = some table ∧ Definition.Identifier table.toList := by
    obtain ⟨table, known, rfl⟩ := Option.map_eq_some_iff.mp named
    exact ⟨table, known, spelled⟩
  cases kind : s.kind with
  | global =>
    rw [kind] at subject
    obtain ⟨none, -, spelled⟩ := subject
    exact ⟨spelled.word, fun _ => ⟨spelled, by simpa using none⟩, fun other => absurd kind other,
      params⟩
  | dot | colon =>
    rw [kind] at subject
    obtain ⟨t, named, -, spelled, word⟩ := subject
    exact ⟨word, fun other => by simp [kind] at other, fun _ => table named spelled, params⟩

namespace Catalog

/-- Every signature that a source defines is well formed in each part, and a stub file of sources
declares functions with such parameters only, none of them empty. The colon functions among them are
declared with the parameters that are recorded: what is special about theirs never applies. -/
theorem render_declares_wellFormed :
    (∀ source, ∀ s ∈ (Extraction.ofSource source).signatures, s.IsDeclarable) ∧
      ∀ sources,
        Stub.Declares (Stub.render (ofSources sources)) (ofSources sources).tables.toList
          (fun kind => ((ofSources sources).ofKind kind).entries) ∧
        (∀ tables functions, Stub.Declares (Stub.render (ofSources sources)) tables functions →
          ∀ kind, ∀ e ∈ functions kind, Parameters.IsDeclarable e.2) ∧
        ∀ e ∈ (ofSources sources).colonMethods.entries, Stub.colonParams e.2 = e.2 := by
  refine ⟨fun source s member => (Extraction.wellFormed_of_mem_ofSource member).isDeclarable,
    fun sources => ?_⟩
  have sound := sound_ofSources sources
  have declarable : ∀ kind, ∀ e ∈ ((ofSources sources).ofKind kind).entries,
      Parameters.IsDeclarable e.2 := by
    intro kind e member
    obtain ⟨s, wf, -, -, same⟩ := sound.entries kind e member
    exact same ▸ wf.isDeclarable.params
  refine ⟨sound.declares, fun tables functions reads => ?_, fun e member => ?_⟩
  · obtain ⟨-, rfl⟩ := sound.declares.unique reads
    exact declarable
  · exact Stub.colonParams_of_normal (declarable .colon e member).normal

end Catalog

end LuaDecl
