import LuaDecl.Proofs.Text.Lines
import LuaDecl.Proofs.Text.Marks
import LuaDecl.Text.Blank

/-!
# Line endings

A line may end with a line feed alone or with a carriage return before it. `ReturnsAdded` relates a
text to one with carriage returns added before some of its line feeds. That is what the two ways to
end a line look like once comments are gone: a line comment takes the carriage return of its line
away, and the other lines keep theirs. Main statements: the readers of blanks, words and marks go
through two related texts in step and leave related texts (`ReturnsAdded.trim`,
`ReturnsAdded.takeWhile_eq`, `ReturnsAdded.cut?`).
-/

namespace LuaDecl.Text

/-- The text with a carriage return before each line feed. -/
def withReturns (s : List Char) : List Char :=
  s.flatMap fun c => if c = '\n' then ['\r', '\n'] else [c]

/-- The text without its carriage returns. -/
def withoutReturns (s : List Char) : List Char :=
  s.filter (· ≠ '\r')

/-- The second text is the first with a carriage return added before some of its line feeds. -/
inductive ReturnsAdded : List Char → List Char → Prop
  | nil : ReturnsAdded [] []
  | keep (c : Char) {s t : List Char} : ReturnsAdded s t → ReturnsAdded (c :: s) (c :: t)
  | add {s t : List Char} : ReturnsAdded s t → ReturnsAdded ('\n' :: s) ('\r' :: '\n' :: t)

namespace ReturnsAdded

theorem refl (s : List Char) : ReturnsAdded s s := by
  induction s with
  | nil => exact nil
  | cons c s ih => exact keep c ih

theorem withReturns (s : List Char) : ReturnsAdded s (withReturns s) := by
  induction s with
  | nil => exact nil
  | cons c s ih =>
    rw [Text.withReturns, List.flatMap_cons]
    by_cases lineFeed : c = '\n'
    · subst lineFeed
      exact add ih
    · rw [if_neg lineFeed]
      exact keep c ih

theorem withoutReturns_eq {s t : List Char} (h : ReturnsAdded s t) :
    withoutReturns s = withoutReturns t := by
  induction h with
  | nil => rfl
  | keep c _ ih => simp only [withoutReturns, List.filter_cons] at ih ⊢; rw [ih]
  | add _ ih => simpa [withoutReturns] using ih

/-! ### Taking related texts apart -/

theorem nil_iff {s t : List Char} (h : ReturnsAdded s t) : s = [] ↔ t = [] := by
  cases h <;> simp

theorem append {s t a b : List Char} (front : ReturnsAdded s t) (back : ReturnsAdded a b) :
    ReturnsAdded (s ++ a) (t ++ b) := by
  induction front with
  | nil => exact back
  | keep c _ ih => exact keep c ih
  | add _ ih => exact add ih

theorem mem_iff {s t : List Char} (h : ReturnsAdded s t) {c : Char} (hc : c ≠ '\r') :
    c ∈ s ↔ c ∈ t := by
  have same : c ∈ withoutReturns s ↔ c ∈ withoutReturns t := by rw [h.withoutReturns_eq]
  simpa [withoutReturns, hc] using same

/-- A text without line feeds has no place for a carriage return. -/
theorem eq_of_not_mem {s t : List Char} (h : ReturnsAdded s t) (oneLine : '\n' ∉ s) : s = t := by
  induction h with
  | nil => rfl
  | keep c _ ih => rw [ih (List.not_mem_of_not_mem_cons oneLine)]
  | add => exact absurd List.mem_cons_self oneLine

/-- The parts of the first text stand one after the other in the second. -/
theorem exists_append {a b t : List Char} (h : ReturnsAdded (a ++ b) t) :
    ∃ front back, t = front ++ back ∧ ReturnsAdded a front ∧ ReturnsAdded b back := by
  induction a generalizing t with
  | nil => exact ⟨[], t, rfl, nil, h⟩
  | cons c a ih =>
    rw [List.cons_append] at h
    cases h with
    | keep _ h =>
      obtain ⟨front, back, rfl, hf, hb⟩ := ih h
      exact ⟨c :: front, back, rfl, keep c hf, hb⟩
    | add h =>
      obtain ⟨front, back, rfl, hf, hb⟩ := ih h
      exact ⟨'\r' :: '\n' :: front, back, rfl, add hf, hb⟩

theorem exists_append_mark {mark b t : List Char} (oneLine : '\n' ∉ mark)
    (h : ReturnsAdded (mark ++ b) t) : ∃ rest, t = mark ++ rest ∧ ReturnsAdded b rest := by
  obtain ⟨front, rest, rfl, hm, hr⟩ := h.exists_append
  rw [← hm.eq_of_not_mem oneLine]
  exact ⟨rest, rfl, hr⟩

/-- A mark without carriage returns stands in the first text if it stands in the second. -/
theorem exists_of_append_mark {mark b s : List Char} (plain : '\r' ∉ mark)
    (h : ReturnsAdded s (mark ++ b)) : ∃ rest, s = mark ++ rest ∧ ReturnsAdded rest b := by
  induction mark generalizing s with
  | nil => exact ⟨s, rfl, h⟩
  | cons c mark ih =>
    generalize whole : c :: mark ++ b = t at h
    cases h with
    | nil => cases whole
    | keep d h =>
      obtain ⟨rfl, rfl⟩ := List.cons.inj whole
      obtain ⟨rest, rfl, hr⟩ := ih (List.not_mem_of_not_mem_cons plain) h
      exact ⟨rest, rfl, hr⟩
    | add =>
      obtain ⟨rfl, -⟩ := List.cons.inj whole
      exact absurd List.mem_cons_self plain

/-- A character that ends no line cuts the first text where it cuts the second. -/
theorem exists_of_append_cons {c : Char} {s a b : List Char} (hr : c ≠ '\r') (hn : c ≠ '\n')
    (h : ReturnsAdded s (a ++ c :: b)) :
    ∃ front back, s = front ++ c :: back ∧ ReturnsAdded front a ∧ ReturnsAdded back b := by
  generalize whole : a ++ c :: b = t at h
  induction h generalizing a with
  | nil => simp at whole
  | @keep d s t h ih =>
    cases a with
    | nil =>
      obtain ⟨rfl, rfl⟩ := List.cons.inj whole
      exact ⟨[], s, rfl, nil, h⟩
    | cons e a =>
      obtain ⟨rfl, rest⟩ := List.cons.inj whole
      obtain ⟨front, back, rfl, hf, hb⟩ := ih rest
      exact ⟨e :: front, back, rfl, keep e hf, hb⟩
  | @add s t _ ih =>
    -- The cut is not inside the pair that is added, whose characters both end lines.
    match a with
    | [] => exact absurd (List.cons.inj whole).1 hr
    | [_] => exact absurd (List.cons.inj (List.cons.inj whole).2).1 hn
    | d :: e :: a =>
      obtain ⟨rfl, tail⟩ := List.cons.inj whole
      obtain ⟨rfl, rest⟩ := List.cons.inj tail
      obtain ⟨front, back, rfl, hf, hb⟩ := ih rest
      exact ⟨'\n' :: front, back, rfl, add hf, hb⟩

/-- The first line of the first text is one of the second, perhaps with a carriage return. -/
theorem exists_append_lineFeed {line s t : List Char} (oneLine : '\n' ∉ line)
    (h : ReturnsAdded (line ++ '\n' :: s) t) :
    ∃ rest, ReturnsAdded s rest ∧
      (t = line ++ '\n' :: rest ∨ t = line ++ '\r' :: '\n' :: rest) := by
  obtain ⟨tail, rfl, behind⟩ := h.exists_append_mark oneLine
  cases behind with
  | keep _ rests => exact ⟨_, rests, Or.inl rfl⟩
  | add rests => exact ⟨_, rests, Or.inr rfl⟩

/-- The first line of the second text is one of the first, perhaps without a carriage return. -/
theorem exists_of_append_lineFeed {line s t : List Char} (oneLine : '\n' ∉ line)
    (h : ReturnsAdded s (line ++ '\n' :: t)) :
    ∃ own rest, s = own ++ '\n' :: rest ∧ ReturnsAdded rest t ∧
      (line = own ∨ line = own ++ ['\r']) := by
  induction line generalizing s with
  | nil =>
    cases h with
    | keep _ h => exact ⟨[], _, rfl, h, Or.inl rfl⟩
  | cons c line ih =>
    have later := List.not_mem_of_not_mem_cons oneLine
    generalize whole : c :: line ++ '\n' :: t = u at h
    cases h with
    | nil => cases whole
    | keep d h =>
      obtain ⟨rfl, rfl⟩ := List.cons.inj whole
      obtain ⟨own, rest, rfl, rests, same | longer⟩ := ih later h
      · exact ⟨c :: own, rest, rfl, rests, Or.inl (by rw [same])⟩
      · exact ⟨c :: own, rest, rfl, rests, Or.inr (by rw [longer, List.cons_append])⟩
    | add h =>
      obtain ⟨rfl, tail⟩ := List.cons.inj whole
      cases line with
      | nil =>
        obtain ⟨-, rfl⟩ := List.cons.inj tail
        exact ⟨[], _, rfl, h, Or.inr rfl⟩
      | cons d line =>
        obtain ⟨rfl, -⟩ := List.cons.inj tail
        exact absurd List.mem_cons_self later

/-- The first occurrence of a mark cuts related texts in related halves. -/
theorem halves {m : Char} {a s b t : List Char} (hr : m ≠ '\r') (hn : m ≠ '\n') (ha : m ∉ a)
    (hb : m ∉ b) (h : ReturnsAdded (a ++ m :: s) (b ++ m :: t)) :
    ReturnsAdded a b ∧ ReturnsAdded s t := by
  obtain ⟨front, back, whole, related, behind⟩ := h.exists_append
  have oneLine : '\n' ∉ [m] := by simpa using hn.symm
  obtain ⟨rest, rfl, rests⟩ := ReturnsAdded.exists_append_mark oneLine behind
  have hf : m ∉ front := by
    rw [← related.mem_iff hr]
    exact ha
  obtain ⟨rfl, rfl⟩ := eq_of_append_cons_eq hb hf whole
  exact ⟨related, rests⟩

/-! ### Reading related texts -/

variable {s t mark : List Char}

theorem dropWhile {p : Char → Bool} (same : p '\r' = p '\n') (h : ReturnsAdded s t) :
    ReturnsAdded (s.dropWhile p) (t.dropWhile p) := by
  induction h with
  | nil => exact nil
  | keep c h ih =>
    cases hc : p c with
    | true => simpa [hc] using ih
    | false => simpa [hc] using keep c h
  | add h ih =>
    cases hn : p '\n' with
    | true => simpa [same, hn] using ih
    | false => simpa [same, hn] using add h

theorem takeWhile {p : Char → Bool} (same : p '\r' = p '\n') (h : ReturnsAdded s t) :
    ReturnsAdded (s.takeWhile p) (t.takeWhile p) := by
  induction h with
  | nil => exact nil
  | keep c _ ih =>
    cases hc : p c with
    | true => simpa [hc] using keep c ih
    | false => simpa [hc] using nil
  | add _ ih =>
    cases hn : p '\n' with
    | true => simpa [same, hn] using add ih
    | false => simpa [same, hn] using nil

/-- What stands on one line is taken from both texts alike. -/
theorem takeWhile_eq {p : Char → Bool} (hr : p '\r' = false) (hn : p '\n' = false)
    (h : ReturnsAdded s t) : s.takeWhile p = t.takeWhile p := by
  apply (h.takeWhile (hr.trans hn.symm)).eq_of_not_mem
  intro member
  have taken := List.all_eq_true.mp (List.all_takeWhile (p := p) (l := s)) '\n' member
  rw [hn] at taken
  cases taken

theorem trimStart (h : ReturnsAdded s t) : ReturnsAdded (trimStart s) (trimStart t) :=
  h.dropWhile (by decide)

private theorem trimEnd_cons (c : Char) (s : List Char) :
    trimEnd (c :: s) = if isBlank c ∧ trimEnd s = [] then [] else c :: trimEnd s := by
  simp only [trimEnd, List.reverse_cons, List.dropWhile_append, List.reverse_eq_nil_iff,
    List.isEmpty_iff]
  by_cases empty : s.reverse.dropWhile isBlank = []
  · cases hc : isBlank c <;> simp [empty, hc]
  · simp [empty]

theorem trimEnd (h : ReturnsAdded s t) : ReturnsAdded (trimEnd s) (trimEnd t) := by
  -- Texts are trimmed from the end but related from the front: a blank goes if all behind it goes.
  have lineFeed : isBlank '\n' = true := by decide
  have carriageReturn : isBlank '\r' = true := by decide
  induction h with
  | nil => exact nil
  | @keep c s t _ ih =>
    simp only [trimEnd_cons, ih.nil_iff]
    by_cases gone : isBlank c ∧ Text.trimEnd t = []
    · rw [if_pos gone, if_pos gone]
      exact nil
    · rw [if_neg gone, if_neg gone]
      exact keep c ih
  | @add s t _ ih =>
    simp only [trimEnd_cons, ih.nil_iff]
    by_cases gone : Text.trimEnd t = []
    · simpa [lineFeed, carriageReturn, gone] using nil
    · simpa [gone] using add ih

theorem trim (h : ReturnsAdded s t) : ReturnsAdded (trim s) (trim t) :=
  h.trimStart.trimEnd

end ReturnsAdded

/-! ### Readers that may fail -/

theorem rel_map {α β γ δ : Type} {r : α → β → Prop} {q : γ → δ → Prop} {f : α → γ} {g : β → δ}
    {x : Option α} {y : Option β} (h : Option.Rel r x y) (step : ∀ a b, r a b → q (f a) (g b)) :
    Option.Rel q (x.map f) (y.map g) := by
  cases h with
  | none => exact .none
  | some related => exact .some (step _ _ related)

theorem rel_bind {α β γ δ : Type} {r : α → β → Prop} {q : γ → δ → Prop} {f : α → Option γ}
    {g : β → Option δ} {x : Option α} {y : Option β} (h : Option.Rel r x y)
    (step : ∀ a b, r a b → Option.Rel q (f a) (g b)) : Option.Rel q (x.bind f) (y.bind g) := by
  cases h with
  | none => exact .none
  | some related => exact step _ _ related

theorem exists_of_rel_some {α β : Type} {r : α → β → Prop} {a : α} {y : Option β}
    (h : Option.Rel r (some a) y) : ∃ b, y = some b ∧ r a b := by
  cases h with
  | some related => exact ⟨_, rfl, related⟩

theorem eq_none_of_rel_none {α β : Type} {r : α → β → Prop} {y : Option β}
    (h : Option.Rel r none y) : y = none := by
  cases h
  rfl

/-- Two readers that succeed on the same texts are compared where they do. -/
theorem rel_of_some {α β : Type} {r : α → β → Prop} {x : Option α} {y : Option β}
    (forth : ∀ a, x = some a → ∃ b, y = some b ∧ r a b) (back : ∀ b, y = some b → ∃ a, x = some a) :
    Option.Rel r x y := by
  cases x with
  | some a =>
    obtain ⟨b, rfl, related⟩ := forth a rfl
    exact .some related
  | none =>
    cases y with
    | none => exact .none
    | some b =>
      obtain ⟨a, found⟩ := back b rfl
      cases found

/-- Both texts are read or neither is, with results that are related, and so are the rests. -/
def ReadAlike {α : Type} (r : α → α → Prop) (x y : Option (α × List Char)) : Prop :=
  Option.Rel (fun a b => r a.1 b.1 ∧ ReturnsAdded a.2 b.2) x y

namespace ReturnsAdded

variable {s t mark : List Char}

theorem after? (hr : '\r' ∉ mark) (hn : '\n' ∉ mark) (h : ReturnsAdded s t) :
    Option.Rel ReturnsAdded (after? mark s) (after? mark t) := by
  apply rel_of_some
  · intro rest hs
    rw [after?_eq_some_iff.mp hs] at h
    obtain ⟨back, spelled, related⟩ := h.exists_append_mark hn
    exact ⟨back, after?_eq_some_iff.mpr spelled, related⟩
  · intro rest ht
    rw [after?_eq_some_iff.mp ht] at h
    obtain ⟨front, spelled, -⟩ := h.exists_of_append_mark hr
    exact ⟨front, after?_eq_some_iff.mpr spelled⟩

private theorem cut?_cons_of_not_mem {c : Char} (hne : mark ≠ []) (hc : c ∉ mark)
    (s : List Char) :
    Text.cut? mark (c :: s) = (Text.cut? mark s).map fun halves => (c :: halves.1, halves.2) := by
  have empty : Text.cut? mark [] = none := by rw [Text.cut?, if_neg hne]
  exact cut?_append_cons_of_none empty hc s

theorem cut? (hne : mark ≠ []) (hr : '\r' ∉ mark) (hn : '\n' ∉ mark) (h : ReturnsAdded s t) :
    ReadAlike ReturnsAdded (cut? mark s) (cut? mark t) := by
  induction h with
  | nil =>
    rw [Text.cut?, if_neg hne]
    exact .none
  | @keep c s t h ih =>
    have here := (keep c h).after? hr hn
    rw [Text.cut?, Text.cut?]
    generalize Text.after? mark (c :: s) = x at here ⊢
    generalize Text.after? mark (c :: t) = y at here ⊢
    cases here with
    | some related => exact .some ⟨nil, related⟩
    | none =>
      apply rel_map ih
      rintro _ _ ⟨first, second⟩
      exact ⟨keep c first, second⟩
  | @add s t _ ih =>
    rw [cut?_cons_of_not_mem hne hn, cut?_cons_of_not_mem hne hr, cut?_cons_of_not_mem hne hn,
      Option.map_map]
    apply rel_map ih
    rintro _ _ ⟨first, second⟩
    exact ⟨add first, second⟩

end ReturnsAdded

end LuaDecl.Text
