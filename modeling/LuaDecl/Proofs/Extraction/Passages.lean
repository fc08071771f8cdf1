import LuaDecl.Proofs.Definition.Subject
import LuaDecl.Proofs.Extraction.LocalGuard

/-!
# Signatures passage by passage

The signatures of a text, followed from passage to passage as the captures of a shape are, with the
text before each passage kept in view, since it may hide the next global. All definitions end with a
closing parenthesis, so a text can be cut behind each one (`publicFrom_closed`), and an opening one
takes away what stands before it from the sight of the guard (`publicFrom_opened`).
-/

namespace LuaDecl.Extraction

open Definition Text

variable {shape : Shape} {before s : List Char}

/-- What a shape captures in a text that stands behind another, except for the globals that the text
before them hides. -/
def publicFrom (shape : Shape) (before : List Char) (atLineStart : Bool) (s : List Char) :
    List Capture :=
  ((shape.hitsFrom before.length atLineStart s).filter
    fun hit => !isPrivate (before ++ s) shape hit).map Hit.capture

theorem ofShape_eq_publicFrom (text : List Char) (shape : Shape) :
    ofShape text shape = (publicFrom shape [] true text).map (ofCapture shape) := by
  rw [ofShape, publicFrom, List.map_map]
  rfl

/-- What stands right behind a text is hidden by it. -/
def isHidden (shape : Shape) (before : List Char) : Bool :=
  shape.kind = .global && endsWithLocal before

theorem publicFrom_nil (atLineStart : Bool) : publicFrom shape before atLineStart [] = [] := by
  simp [publicFrom, Shape.hitsFrom]

theorem publicFrom_of_scan? (before : List Char) {taken after : List Char} {c : Capture}
    (h : shape.scan? (taken ++ after) = some (c, after)) :
    publicFrom shape before true (taken ++ after) =
      (if isHidden shape before then [] else [c]) ++
        publicFrom shape (before ++ taken) false after := by
  have length : (taken ++ after).length - after.length = taken.length := by simp
  rw [publicFrom, Shape.hitsFrom_of_scan? h, length, publicFrom, List.length_append,
    List.append_assoc]
  have own : isPrivate (before ++ (taken ++ after)) shape
      ⟨before.length, before.length + taken.length, c⟩ = isHidden shape before := by
    rw [isPrivate, isHidden, List.take_left]
  cases hidden : isHidden shape before with
  | true =>
    rw [List.filter_cons_of_neg (by simp [own, hidden])]
    rfl
  | false =>
    rw [List.filter_cons_of_pos (by simp [own, hidden])]
    rfl

theorem publicFrom_cons {c : Char} {rest : List Char} {atLineStart : Bool}
    (h : atLineStart = true → shape.scan? (c :: rest) = none) :
    publicFrom shape before atLineStart (c :: rest) =
      publicFrom shape (before ++ [c]) (c == '\n') rest := by
  rw [publicFrom, Shape.hitsFrom_cons h, publicFrom, List.length_append, List.append_assoc]
  rfl

/-- Inside a line nothing is captured. -/
theorem publicFrom_false_append {line : List Char} (h : '\n' ∉ line) (s : List Char) :
    publicFrom shape before false (line ++ s) = publicFrom shape (before ++ line) false s := by
  induction line generalizing before with
  | nil => simp
  | cons c line ih =>
    obtain ⟨first, tail⟩ := not_or.mp (fun m => h (List.mem_cons.mpr m))
    have here : (c == '\n') = false := by simpa using Ne.symm first
    rw [List.cons_append, publicFrom_cons (by simp), here, ih tail, List.append_assoc]
    rfl

/-- A line from whose start the shape does not fit gives nothing. -/
theorem publicFrom_line {line : List Char} (h : '\n' ∉ line)
    (fails : shape.scan? (line ++ '\n' :: s) = none) :
    publicFrom shape before true (line ++ '\n' :: s) =
      publicFrom shape (before ++ line ++ ['\n']) true s := by
  cases line with
  | nil =>
    rw [List.nil_append] at fails ⊢
    rw [publicFrom_cons fun _ => fails, List.append_nil]
    rfl
  | cons c line =>
    obtain ⟨first, tail⟩ := not_or.mp (fun m => h (List.mem_cons.mpr m))
    have here : (c == '\n') = false := by simpa using Ne.symm first
    rw [List.cons_append] at fails ⊢
    rw [publicFrom_cons fun _ => fails, here, publicFrom_false_append tail,
      publicFrom_cons (by simp)]
    simp

/-! ### Cuts behind closing parentheses -/

/-- Up to the first closing parenthesis there is a definition or none, whatever follows. -/
theorem scan?_closed (shape : Shape) {s : List Char} (h : ')' ∉ s) (rest : List Char) :
    shape.scan? (s ++ ')' :: rest) =
      (shape.scan? (s ++ [')'])).map fun found => (found.1, rest) := by
  cases found : shape.scan? (s ++ ')' :: rest) with
  | some result =>
    obtain ⟨c, after⟩ := result
    obtain ⟨text, whole, fits⟩ := Shape.exists_of_scan? found
    obtain ⟨front, rfl, once⟩ := Shape.exists_closed_of_fits fits
    rw [List.append_assoc] at whole
    obtain ⟨rfl, rfl⟩ := eq_of_append_cons_eq h once whole
    have alone := Shape.scan?_append_of_fits fits []
    rw [List.append_nil] at alone
    rw [alone]
    rfl
  | none =>
    cases short : shape.scan? (s ++ [')']) with
    | none => rfl
    | some result =>
      obtain ⟨c, after⟩ := result
      obtain ⟨text, whole, fits⟩ := Shape.exists_of_scan? short
      obtain ⟨front, rfl, once⟩ := Shape.exists_closed_of_fits fits
      rw [List.append_assoc] at whole
      obtain ⟨rfl, -⟩ := eq_of_append_cons_eq h once whole
      have longer := Shape.scan?_append_of_fits fits rest
      rw [List.append_assoc, List.singleton_append, found] at longer
      cases longer

theorem scan?_closed_eq_some {s after : List Char} {c : Capture} (h : ')' ∉ s)
    (found : shape.scan? (s ++ [')']) = some (c, after)) : after = [] := by
  have same := scan?_closed shape h []
  rw [found] at same
  exact (Prod.mk.inj (Option.some.inj same)).2

/-- A text is cut behind its first closing parenthesis. -/
theorem publicFrom_closed {s : List Char} (h : ')' ∉ s) (atLineStart : Bool) (rest : List Char) :
    publicFrom shape before atLineStart (s ++ ')' :: rest) =
      publicFrom shape before atLineStart (s ++ [')']) ++
        publicFrom shape (before ++ s ++ [')']) false rest := by
  induction s generalizing before atLineStart with
  | nil =>
    have alone : shape.scan? [')'] = none := by cases shape <;> decide
    have fails : shape.scan? (')' :: rest) = none := by
      have same := scan?_closed shape (s := []) (by simp) rest
      simpa [alone] using same
    rw [List.nil_append, publicFrom_cons fun _ => fails, List.nil_append,
      publicFrom_cons fun _ => alone, publicFrom_nil]
    simp
  | cons c s ih =>
    have fresh : ')' ∉ s := fun member => h (List.mem_cons_of_mem c member)
    have same := scan?_closed shape h rest
    cases found : shape.scan? (c :: s ++ [')']) with
    | some result =>
      cases atLineStart with
      | true =>
        obtain ⟨capture, after⟩ := result
        obtain rfl := scan?_closed_eq_some h found
        rw [found] at same
        have long : shape.scan? ((c :: s ++ [')']) ++ rest) = some (capture, rest) := by
          simpa using same
        have short : shape.scan? ((c :: s ++ [')']) ++ []) = some (capture, []) := by
          simpa using found
        have wholeLong := publicFrom_of_scan? before long
        have wholeShort := publicFrom_of_scan? before short
        simp only [List.append_assoc, List.singleton_append, List.append_nil, publicFrom_nil]
          at wholeLong wholeShort ⊢
        rw [wholeLong, wholeShort]
      | false =>
        rw [List.cons_append, publicFrom_cons (by simp), List.cons_append,
          publicFrom_cons (by simp), ih fresh]
        simp
    | none =>
      rw [found] at same
      rw [List.cons_append] at same found ⊢
      rw [publicFrom_cons fun _ => same, List.cons_append, publicFrom_cons fun _ => found, ih fresh]
      simp

/-! ### Opening parentheses -/

/-- Texts that hide the same globals behind them make no difference. -/
theorem publicFrom_congr {other : List Char}
    (same : ∀ s, endsWithLocal (before ++ s) = endsWithLocal (other ++ s)) (atLineStart : Bool)
    (s : List Char) :
    publicFrom shape before atLineStart s = publicFrom shape other atLineStart s := by
  induction h : s.length using Nat.strongRecOn generalizing before other atLineStart s with
  | ind length ih =>
    subst h
    have further (taken : List Char) (t : List Char) :
        endsWithLocal (before ++ taken ++ t) = endsWithLocal (other ++ taken ++ t) := by
      rw [List.append_assoc, List.append_assoc, same]
    cases s with
    | nil => rw [publicFrom_nil, publicFrom_nil]
    | cons c rest =>
      by_cases fails : atLineStart = true → shape.scan? (c :: rest) = none
      · rw [publicFrom_cons fails, publicFrom_cons fails]
        exact ih rest.length (by simp) (further [c]) _ rest rfl
      · obtain ⟨rfl, found⟩ := Classical.not_imp.mp fails
        obtain ⟨⟨capture, after⟩, scanned⟩ := Option.ne_none_iff_exists'.mp found
        have shorter := Shape.length_lt_of_scan? scanned
        obtain ⟨taken, whole, -⟩ := Shape.exists_of_scan? scanned
        have hidden : isHidden shape before = isHidden shape other := by
          have here := same []
          rw [List.append_nil, List.append_nil] at here
          rw [isHidden, isHidden, here]
        rw [whole] at scanned shorter ⊢
        rw [publicFrom_of_scan? _ scanned, publicFrom_of_scan? _ scanned, hidden,
          ih after.length (by rw [whole]; exact shorter) (further taken) false after rfl]

/-- No shape fits from an opening parenthesis on. -/
theorem scan?_paren (shape : Shape) (s : List Char) : shape.scan? ('(' :: s) = none := by
  cases shape <;> rfl

/-- Behind an opening parenthesis all is as if the text began there. -/
theorem publicFrom_opened (shape : Shape) (front s : List Char) :
    publicFrom shape (front ++ ['(']) false s = publicFrom shape [] true ('(' :: s) := by
  have alone : publicFrom shape [] true ('(' :: s) = publicFrom shape ['('] false s :=
    publicFrom_cons fun _ => scan?_paren shape s
  rw [alone]
  apply publicFrom_congr
  intro t
  rw [List.append_assoc]
  exact endsWithLocal_append_paren front t

end LuaDecl.Extraction
