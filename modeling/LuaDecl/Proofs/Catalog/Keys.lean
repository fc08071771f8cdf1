import LuaDecl.Proofs.Catalog.Coverage

/-!
# Keys tell functions apart

A key is a flat text, and signatures of different functions could share one if names held the marks
that join them to their tables. In texts they do not: a key found in a text spells one kind, table
and name (`sameFunction_of_mem_ofText`). So the maps of a catalog have no key in common, and a
signature is turned away only if the same function was recorded before (`keys_tell_functions`).
-/

namespace LuaDecl

/-- Signatures of one function have one key. -/
theorem Signature.SameFunction.key_eq {s t : Signature} (h : s.SameFunction t) : s.key = t.key := by
  rw [key, key, h.kind, h.table, h.name]

/-- In texts, different functions have different keys. -/
theorem Extraction.sameFunction_of_mem_ofText {text other : String} {s t : Signature}
    (hs : s ∈ (ofText text).signatures) (ht : t ∈ (ofText other).signatures)
    (key : s.key = t.key) : s.SameFunction t :=
  Signature.sameFunction_of_key_eq (subject_of_mem_ofText hs) (subject_of_mem_ofText ht) key

namespace Catalog

open Definition

variable {c : Catalog} {past : List Signature} {s : Signature}

/-- Signatures are recorded from left to right. -/
theorem value_insertAll_append (c : Catalog) (before : List Signature) (s : Signature)
    (after : List Signature) :
    (c.insertAll (before ++ s :: after)).value.1 =
      ((((c.insertAll before).value.1.insert s).value.1).insertAll after).value.1 := by
  induction before generalizing c with
  | nil => rfl
  | cons first before ih => exact ih (c.insert first).value.1

/-- The definition that is kept under a key is one of those before. -/
theorem Represents.exists_kept (h : c.Represents past) {t : Signature} (member : t ∈ past) :
    ∃ kept ∈ past, kept.kind = t.kind ∧ kept.key = t.key ∧
      (c.ofKind kept.kind).find? kept.key = some kept.params := by
  cases first : firstParams past t.kind t.key with
  | none => exact absurd ⟨rfl, rfl⟩ (firstParams_eq_none_iff.mp first t member)
  | some params =>
    obtain ⟨kept, known, kind, key, rfl⟩ := exists_of_firstParams_eq_some first
    refine ⟨kept, known, kind, key, ?_⟩
    rw [h.maps, kind, key, first]

/-- A signature is turned away exactly if the same function is recorded already. -/
theorem Represents.insert_eq_false_iff (h : c.Represents past)
    (pastSpelled : ∀ t ∈ past,
      Subject t.kind t.key.toList (t.table.map String.toList) t.name.toList)
    (spelled : Subject s.kind s.key.toList (s.table.map String.toList) s.name.toList) :
    (c.insert s).value.2 = false ↔
      ∃ t ∈ past, t.SameFunction s ∧ (c.ofKind t.kind).find? t.key = some t.params := by
  have taken : (c.insert s).value.2 = false ↔ ∃ t ∈ past, t.kind = s.kind ∧ t.key = s.key := by
    obtain ⟨-, answer, -, -⟩ := insert_spec h s
    rw [answer, isFirst]
    simp [Signature.defines]
  rw [taken]
  constructor
  · rintro ⟨t, member, kind, key⟩
    obtain ⟨kept, known, -, keptKey, recorded⟩ := h.exists_kept member
    have same : kept.SameFunction s :=
      Signature.sameFunction_of_key_eq (pastSpelled kept known) spelled (keptKey.trans key)
    exact ⟨kept, known, same, recorded⟩
  · rintro ⟨t, member, same, -⟩
    exact ⟨t, member, same.kind, same.key_eq⟩

/-- Keys are as good as functions. Two signatures that texts hold, of one text or of two, have one
key only if kind, table and name agree. So no key stands in the maps of two kinds, and of the
signatures that are merged one is turned away exactly if one of the same kind, table and name is
recorded already. -/
theorem keys_tell_functions :
    (∀ text other : String, ∀ s ∈ (Extraction.ofText text).signatures,
      ∀ t ∈ (Extraction.ofText other).signatures, s.key = t.key → s.SameFunction t) ∧
    (∀ (readings others : List Reading) (kind otherKind : Kind) (key : String),
      key ∈ ((ofReadings readings).ofKind kind).keys →
        key ∈ ((ofReadings others).ofKind otherKind).keys → kind = otherKind) ∧
    ∀ (readings : List Reading) (reading : Reading) (before after : List Signature) (s : Signature),
      reading.extraction.signatures = before ++ s :: after →
        let c := ((ofReadings readings).insertAll before).value.1
        ((ofReadings readings).merge reading.extraction).value.1 =
            ((c.insert s).value.1.insertAll after).value.1 ∧
          ((c.insert s).value.2 = false ↔
            ∃ t ∈ (readings.flatMap fun r => r.extraction.signatures) ++ before,
              t.SameFunction s ∧ (c.ofKind t.kind).find? t.key = some t.params) := by
  refine ⟨?signatures, ?maps, ?merging⟩
  case signatures =>
    intro text other s hs t ht key
    exact Extraction.sameFunction_of_mem_ofText hs ht key
  case maps =>
    intro readings others kind otherKind key here there
    obtain ⟨s, hs, rfl, rfl⟩ := (represents_ofReadings readings).mem_keys_iff.mp here
    obtain ⟨t, ht, rfl, key⟩ := (represents_ofReadings others).mem_keys_iff.mp there
    exact (Signature.sameFunction_of_key_eq (subject_of_mem_readings hs)
      (subject_of_mem_readings ht) key.symm).kind
  case merging =>
    intro readings reading before after s split c
    have represents :
        c.Represents ((readings.flatMap fun r => r.extraction.signatures) ++ before) :=
      (insertAll_spec (represents_ofReadings readings) before).1
    constructor
    · rw [merge, split]
      exact value_insertAll_append _ before s after
    · refine represents.insert_eq_false_iff (fun t member => ?_) ?_
      · rcases List.mem_append.mp member with past | earlier
        · exact subject_of_mem_readings past
        · exact reading.subject_of_mem (by simp [split, earlier])
      · exact reading.subject_of_mem (by simp [split])

/-- A name with a dot would share its key with a function of a table. No text holds one. -/
example : (Signature.mk .global none "a.b" "...").key = (Signature.mk .dot "a" "b" "...").key := by
  decide

end Catalog

end LuaDecl
