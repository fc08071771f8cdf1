import LuaDecl.Proofs.Extraction.Passages

/-!
# Longer texts

What is found in a text is found in every text that begins with it. Text behind the end can close a
definition that was left open, but such a definition has no closing parenthesis before that end, so
nothing was found behind its start (`hitsFrom_append`). Main statement: `ofText_append`.
-/

namespace LuaDecl

namespace Definition.Shape

variable {shape : Shape}

/-- No definition begins a text in which none is closed. -/
theorem scan?_of_unclosed {s : List Char} (h : ')' ∉ s) : shape.scan? s = none := by
  cases scanned : shape.scan? s with
  | none => rfl
  | some found =>
    obtain ⟨front, rfl, -⟩ := exists_closed_of_scan? scanned
    exact absurd (by simp) h

/-- A text in which no definition is closed has no hits. -/
theorem hitsFrom_of_unclosed {s : List Char} (h : ')' ∉ s) (position : Nat) (atLineStart : Bool) :
    shape.hitsFrom position atLineStart s = [] := by
  induction s generalizing position atLineStart with
  | nil => simp [hitsFrom]
  | cons c rest ih =>
    rw [hitsFrom_cons fun _ => scan?_of_unclosed h]
    exact ih (List.not_mem_of_not_mem_cons h) _ _

/-- A definition that begins a text goes on to be read when the text does. -/
theorem scan?_append {s after : List Char} {c : Capture} (h : shape.scan? s = some (c, after))
    (u : List Char) : shape.scan? (s ++ u) = some (c, after ++ u) := by
  obtain ⟨text, rfl, fits⟩ := exists_of_scan? h
  rw [List.append_assoc]
  exact scan?_append_of_fits fits (after ++ u)

/-- If only what follows a text lets it begin with a definition, the text closes none. -/
theorem unclosed_of_scan?_append {s u : List Char} {found : Capture × List Char}
    (fails : shape.scan? s = none) (scanned : shape.scan? (s ++ u) = some found) : ')' ∉ s := by
  intro member
  obtain ⟨front, back, rfl, fresh⟩ := List.eq_append_cons_of_mem member
  rw [List.append_assoc, List.cons_append, Extraction.scan?_closed shape fresh] at scanned
  rw [Extraction.scan?_closed shape fresh, Option.map_eq_none_iff] at fails
  rw [fails] at scanned
  cases scanned

/-- The search goes through a longer text as through the text itself, as far as that has hits. -/
theorem hitsFrom_append (position : Nat) (atLineStart : Bool) (s u : List Char) :
    shape.hitsFrom position atLineStart s <+: shape.hitsFrom position atLineStart (s ++ u) := by
  fun_induction hitsFrom shape position atLineStart s with
  | case1 => exact List.nil_prefix
  | case2 position atLineStart c rest capture after scanned stop ih =>
    cases atLineStart with
    | false => simp at scanned
    | true =>
      rw [dif_pos rfl] at scanned
      have length : (c :: rest ++ u).length - (after ++ u).length =
          (c :: rest).length - after.length := by
        rw [List.length_append, List.length_append, Nat.add_sub_add_right]
      rw [hitsFrom_of_scan? (scan?_append scanned u), length]
      exact List.prefix_cons_inj _ |>.mpr ih
  | case3 position atLineStart c rest scanned ih =>
    have fails : atLineStart = true → shape.scan? (c :: rest) = none := by
      rintro rfl
      rwa [dif_pos rfl] at scanned
    by_cases same : atLineStart = true → shape.scan? (c :: (rest ++ u)) = none
    · rw [List.cons_append, hitsFrom_cons same]
      exact ih
    · -- The definition that begins here closes in `u`, so the text closes none.
      obtain ⟨start, other⟩ := Classical.not_imp.mp same
      obtain ⟨found, scanned⟩ := Option.ne_none_iff_exists'.mp other
      have unclosed := unclosed_of_scan?_append (fails start) scanned
      rw [hitsFrom_of_unclosed (List.not_mem_of_not_mem_cons unclosed)]
      exact List.nil_prefix

theorem hits_append (shape : Shape) (t u : List Char) : shape.hits t <+: shape.hits (t ++ u) :=
  hitsFrom_append 0 true t u

end Definition.Shape

namespace Extraction

open Definition

/-- What follows the text of a hit does not make it private. -/
theorem isPrivate_append {shape : Shape} {t : List Char} {hit : Hit} (found : hit ∈ shape.hits t)
    (u : List Char) : isPrivate (t ++ u) shape hit = isPrivate t shape hit := by
  obtain ⟨-, positive, inside, -⟩ := (Shape.finds_hits shape t).sound hit found
  rw [isPrivate, isPrivate, List.take_append_of_le_length (by omega)]

theorem ofShape_append (shape : Shape) (t u : List Char) :
    ofShape t shape <+: ofShape (t ++ u) shape := by
  obtain ⟨later, whole⟩ := Shape.hits_append shape t u
  have kept : (shape.hits t).filter (fun hit => !isPrivate (t ++ u) shape hit) =
      (shape.hits t).filter fun hit => !isPrivate t shape hit := by
    apply List.filter_congr
    intro hit found
    rw [isPrivate_append found]
  rw [ofShape, ofShape, ← whole, List.filter_append, kept, List.map_append]
  exact List.prefix_append _ _

theorem flatMap_ofShape_append (shapes : List Shape) (t u : List Char) :
    (shapes.flatMap (ofShape t)).Sublist (shapes.flatMap (ofShape (t ++ u))) := by
  induction shapes with
  | nil => exact List.Sublist.refl []
  | cons shape shapes ih =>
    rw [List.flatMap_cons, List.flatMap_cons]
    exact (ofShape_append shape t u).sublist.append ih

/-- Text behind a text takes nothing away from what is found in it. The hits of each shape are the
first ones of the longer text, as private as before, so the signatures and tables are all found
again, the signatures in their order. -/
theorem ofText_append (t u : String) :
    (∀ shape : Shape,
      shape.hits t.toList <+: shape.hits (t ++ u).toList ∧
      ∀ hit ∈ shape.hits t.toList,
        isPrivate (t ++ u).toList shape hit = isPrivate t.toList shape hit) ∧
    (ofText t).signatures.Sublist (ofText (t ++ u)).signatures ∧
    ∀ table ∈ (ofText t).tables.toList, table ∈ (ofText (t ++ u)).tables.toList := by
  have signatures : (ofText t).signatures.Sublist (ofText (t ++ u)).signatures := by
    rw [ofText, ofText, String.toList_append]
    exact flatMap_ofShape_append Shape.all t.toList u.toList
  refine ⟨?_, signatures, ?_⟩
  · intro shape
    rw [String.toList_append]
    refine ⟨Shape.hits_append shape t.toList u.toList, ?_⟩
    intro hit found
    exact isPrivate_append found u.toList
  · intro table member
    rw [ofText, ofSignatures, SortedSet.mem_toList_ofList] at member ⊢
    exact (signatures.filterMap Signature.table).subset member

end Extraction

end LuaDecl
