import LuaDecl.Proofs.Text.EditDistance
import LuaDecl.ScanConfig.Suggestion

/-!
# Suggestions are unambiguous

The known keys are so far apart that no text is near two of them. So the known key that is suggested
for a text is the one that is near it, whatever the order of the known keys and whichever of several
near keys would be taken (`suggestion?_isExact`).
-/

namespace LuaDecl.ScanConfig

open Text (leastEdits leastEdits_comm leastEdits_triangle)
open Text.EditDistance (distance_eq_leastEdits)

variable {measure : String → Nat} {keys order : List String} {key known other best : String}

/-! ### The nearest -/

theorem nearest?_eq_none_iff : nearest? measure keys = none ↔ keys = [] := by
  cases keys with
  | nil => simp [nearest?]
  | cons first rest =>
    rw [nearest?]
    split
    · simp
    · split <;> simp

theorem mem_of_nearest? (found : nearest? measure keys = some best) : best ∈ keys := by
  induction keys with
  | nil => cases found
  | cons first rest ih =>
    rw [nearest?] at found
    split at found
    · obtain rfl := Option.some.inj found
      exact List.mem_cons_self
    · next later nearer =>
      split at found
      · exact List.mem_cons_of_mem _ (ih (found ▸ nearer))
      · obtain rfl := Option.some.inj found
        exact List.mem_cons_self

/-! ### Near keys -/

/-- Few enough edits turn one key into the other. -/
def IsNear (key known : String) : Prop :=
  leastEdits key.toList known.toList ≤ suggestionLimit

/-- The keys that few enough edits lead to. -/
def nearKeys (key : String) (keys : List String) : List String :=
  keys.filter fun known => keyDistance key known ≤ suggestionLimit

theorem keyDistance_eq_leastEdits (key known : String) :
    keyDistance key known = leastEdits key.toList known.toList :=
  distance_eq_leastEdits _ _

theorem mem_nearKeys_iff : known ∈ nearKeys key keys ↔ known ∈ keys ∧ IsNear key known := by
  simp [nearKeys, IsNear, keyDistance_eq_leastEdits]

/-- The known keys are further apart than two texts that are near a third. -/
theorem lt_keyDistance_of_ne : ∀ known ∈ knownKeys, ∀ other ∈ knownKeys, known ≠ other →
    suggestionLimit + suggestionLimit < keyDistance known other := by
  decide

theorem eq_of_isNear (isKnown : known ∈ knownKeys) (isKnownToo : other ∈ knownKeys)
    (near : IsNear key known) (nearToo : IsNear key other) : known = other := by
  by_contra apart
  have far := lt_keyDistance_of_ne known isKnown other isKnownToo apart
  have around := leastEdits_triangle known.toList key.toList other.toList
  rw [keyDistance_eq_leastEdits] at far
  rw [IsNear, leastEdits_comm] at near
  rw [IsNear] at nearToo
  omega

/-- Whichever of the near keys is taken, it is the one that is near. -/
theorem eq_some_iff_isNear {taken : Option String} (perm : order.Perm knownKeys)
    (inside : ∀ best, taken = some best → best ∈ nearKeys key order)
    (something : taken = none → nearKeys key order = []) (isKnown : known ∈ knownKeys) :
    taken = some known ↔ IsNear key known := by
  constructor
  · intro found
    exact (mem_nearKeys_iff.mp (inside known found)).2
  · intro near
    have member : known ∈ nearKeys key order :=
      mem_nearKeys_iff.mpr ⟨perm.mem_iff.mpr isKnown, near⟩
    cases result : taken with
    | none =>
      rw [something result] at member
      exact absurd member List.not_mem_nil
    | some best =>
      obtain ⟨listed, nearToo⟩ := mem_nearKeys_iff.mp (inside best result)
      exact congrArg some (eq_of_isNear (perm.mem_iff.mp listed) isKnown nearToo near)

/-! ### What is suggested -/

theorem mem_nearKeys_of_suggestion? (suggested : suggestion? key = some best) :
    best ∈ nearKeys key knownKeys :=
  mem_of_nearest? suggested

theorem suggestion?_eq_some_iff (isKnown : known ∈ knownKeys) :
    suggestion? key = some known ↔ IsNear key known :=
  eq_some_iff_isNear (.refl _) (fun _ => mem_nearKeys_of_suggestion?) nearest?_eq_none_iff.mp
    isKnown

theorem suggestion?_eq_none_iff :
    suggestion? key = none ↔ ∀ known ∈ knownKeys, ¬ IsNear key known := by
  constructor
  · intro nothing known isKnown near
    rw [(suggestion?_eq_some_iff isKnown).mpr near] at nothing
    cases nothing
  · intro far
    cases result : suggestion? key with
    | none => rfl
    | some best =>
      obtain ⟨isKnown, near⟩ := mem_nearKeys_iff.mp (mem_nearKeys_of_suggestion? result)
      exact absurd near (far best isKnown)

/-- A known key is suggested exactly if at most three edits lead to it, and nothing if there is no
such key. No text is that near to both known keys, so another order of the known keys, or another
choice among near keys, makes no difference. -/
theorem suggestion?_isExact (key : String) :
    (∀ known ∈ knownKeys,
      suggestion? key = some known ↔ leastEdits key.toList known.toList ≤ 3) ∧
    (∀ known ∈ knownKeys, ∀ other ∈ knownKeys, leastEdits key.toList known.toList ≤ 3 →
      leastEdits key.toList other.toList ≤ 3 → known = other) ∧
    (suggestion? key = none ↔ ∀ known ∈ knownKeys, 3 < leastEdits key.toList known.toList) ∧
    (∀ suggested, suggestion? key = some suggested → suggested ∈ knownKeys) ∧
    ∀ (order : List String) (taken : Option String), order.Perm knownKeys →
      (∀ best, taken = some best → best ∈ nearKeys key order) →
      (taken = none → nearKeys key order = []) → taken = suggestion? key := by
  refine ⟨fun known isKnown => suggestion?_eq_some_iff isKnown,
    fun known isKnown other isKnownToo => eq_of_isNear isKnown isKnownToo, ?none, ?known, ?order⟩
  case none =>
    rw [suggestion?_eq_none_iff]
    exact forall₂_congr fun known _ => Nat.not_le
  case known =>
    intro suggested result
    exact (mem_nearKeys_iff.mp (mem_nearKeys_of_suggestion? result)).1
  case order =>
    intro order taken perm inside something
    refine Option.ext fun known => ?_
    by_cases isKnown : known ∈ knownKeys
    · rw [eq_some_iff_isNear perm inside something isKnown, suggestion?_eq_some_iff isKnown]
    · refine iff_of_false (fun found => isKnown ?_) (fun found => isKnown ?_)
      · exact perm.mem_iff.mp (mem_nearKeys_iff.mp (inside known found)).1
      · exact (mem_nearKeys_iff.mp (mem_nearKeys_of_suggestion? found)).1

example : suggestion? "skipdirs" = some "skip_dirs" := by decide

end LuaDecl.ScanConfig
