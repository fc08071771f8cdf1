/-!
# Sorted maps

A finite map from strings, held as a list of entries with strictly increasing keys. The invariant is
part of the type, so two maps with the same look-ups are equal. Main statements:
`find?_insertIfNew` says what the one operation that adds does, `ext_find?` is extensionality.
-/

namespace LuaDecl

universe u

/-- A map from strings whose entries stand in the order of their keys. -/
structure SortedMap (β : Type u) where
  entries : List (String × β)
  sorted : entries.Pairwise fun a b => a.1 < b.1

namespace SortedMap

variable {β : Type u}

/-- The entries with the key added in its place, unless it is there already. -/
def insertEntry (key : String) (value : β) : List (String × β) → List (String × β)
  | [] => [(key, value)]
  | entry :: rest =>
    if key < entry.1 then (key, value) :: entry :: rest
    else if entry.1 < key then entry :: insertEntry key value rest
    else entry :: rest

theorem mem_insertEntry {key : String} {value : β} {e : String × β} {entries : List (String × β)}
    (h : e ∈ insertEntry key value entries) : e = (key, value) ∨ e ∈ entries := by
  induction entries with
  | nil => simpa [insertEntry] using h
  | cons entry rest ih =>
    unfold insertEntry at h
    split at h
    · simpa using h
    · split at h
      · rcases List.mem_cons.mp h with rfl | h
        · simp
        · exact (ih h).imp_right (List.mem_cons_of_mem _)
      · exact Or.inr h

theorem pairwise_insertEntry {key : String} {value : β} {entries : List (String × β)}
    (h : entries.Pairwise fun a b => a.1 < b.1) :
    (insertEntry key value entries).Pairwise fun a b => a.1 < b.1 := by
  induction entries with
  | nil => simp [insertEntry]
  | cons entry rest ih =>
    have hrest := List.pairwise_cons.mp h
    unfold insertEntry
    split
    · next hk =>
      refine List.pairwise_cons.mpr ⟨fun e he => ?_, h⟩
      rcases List.mem_cons.mp he with rfl | he
      · exact hk
      · exact String.lt_trans hk (hrest.1 e he)
    · split
      · next hk =>
        refine List.pairwise_cons.mpr ⟨fun e he => ?_, ih hrest.2⟩
        rcases mem_insertEntry he with rfl | he
        · exact hk
        · exact hrest.1 e he
      · exact h

/-- The map without entries. -/
def empty : SortedMap β :=
  ⟨[], List.Pairwise.nil⟩

instance : Inhabited (SortedMap β) :=
  ⟨empty⟩

/-- The value under a key. -/
def find? (m : SortedMap β) (key : String) : Option β :=
  m.entries.lookup key

/-- The key is in the map. -/
def contains (m : SortedMap β) (key : String) : Bool :=
  (m.find? key).isSome

/-- The keys, increasing. -/
def keys (m : SortedMap β) : List String :=
  m.entries.map Prod.fst

/-- The number of entries. -/
def size (m : SortedMap β) : Nat :=
  m.entries.length

/-- The map has no entry. -/
def isEmpty (m : SortedMap β) : Bool :=
  m.entries.isEmpty

/-- The map with the entry added, or as it is when the key is taken. -/
def insertIfNew (m : SortedMap β) (key : String) (value : β) : SortedMap β :=
  ⟨insertEntry key value m.entries, pairwise_insertEntry m.sorted⟩

/-- The map of a list of entries. Of two entries with one key the first counts. -/
def ofList (entries : List (String × β)) : SortedMap β :=
  entries.foldl (fun m e => m.insertIfNew e.1 e.2) empty

@[simp]
theorem find?_empty (key : String) : (empty : SortedMap β).find? key = none := rfl

theorem find?_eq_some_iff {m : SortedMap β} {key : String} {value : β} :
    m.find? key = some value ↔ (key, value) ∈ m.entries := by
  obtain ⟨entries, sorted⟩ := m
  simp only [find?]
  induction entries with
  | nil => simp
  | cons entry rest ih =>
    obtain ⟨k, v⟩ := entry
    have hrest := List.pairwise_cons.mp sorted
    by_cases hk : key = k
    · subst hk
      have fresh : (key, value) ∉ rest := fun he => String.lt_irrefl key (hrest.1 _ he)
      simp [fresh, eq_comm]
    · have : (key == k) = false := by simpa using hk
      simp [List.lookup_cons, this, hk, ih hrest.2]

private theorem lookup_cons (k : String) (entry : String × β) (rest : List (String × β)) :
    (entry :: rest).lookup k = if k = entry.1 then some entry.2 else rest.lookup k := by
  obtain ⟨key, value⟩ := entry
  by_cases h : k = key
  · simp [h]
  · have : (k == key) = false := by simpa using h
    simp [List.lookup_cons, this, h]

private theorem lookup_eq_none {key : String} {entries : List (String × β)}
    (h : ∀ e ∈ entries, key < e.1) : entries.lookup key = none := by
  refine List.lookup_eq_none_iff.mpr fun e he => ?_
  have : key ≠ e.1 := fun eq => String.lt_irrefl e.1 (eq ▸ h e he)
  simpa using this

private theorem lookup_insertEntry {key : String} {value : β} {entries : List (String × β)}
    (h : entries.Pairwise fun a b => a.1 < b.1) (k : String) :
    (insertEntry key value entries).lookup k =
      if k = key then some ((entries.lookup key).getD value) else entries.lookup k := by
  induction entries with
  | nil => simp [insertEntry, lookup_cons]
  | cons entry rest ih =>
    have hrest := List.pairwise_cons.mp h
    unfold insertEntry
    split
    · next hlt =>
      have absent : (entry :: rest).lookup key = none := by
        refine lookup_eq_none fun e he => ?_
        rcases List.mem_cons.mp he with rfl | he
        · exact hlt
        · exact String.lt_trans hlt (hrest.1 e he)
      rw [lookup_cons k (key, value), absent]
      rfl
    · split
      · next _ hlt =>
        have hne : key ≠ entry.1 := fun e => String.lt_irrefl key (e ▸ hlt)
        rw [lookup_cons, ih hrest.2, lookup_cons key, lookup_cons k, if_neg hne]
        by_cases hk : k = entry.1
        · have : ¬ k = key := fun e => hne (e.symm.trans hk)
          simp [hk, Ne.symm hne]
        · simp [hk]
      · next hnlt hngt =>
        have heq : key = entry.1 :=
          String.le_antisymm (String.not_lt.mp hngt) (String.not_lt.mp hnlt)
        rw [lookup_cons key, lookup_cons k, heq]
        by_cases hk : k = entry.1 <;> simp [hk]

/-- Adding keeps a value that is there. -/
theorem find?_insertIfNew (m : SortedMap β) (key k : String) (value : β) :
    (m.insertIfNew key value).find? k =
      if k = key then some ((m.find? key).getD value) else m.find? k :=
  lookup_insertEntry m.sorted k

/-- A new key makes the map one entry longer. -/
theorem size_insertIfNew {m : SortedMap β} {key : String} (h : m.find? key = none) (value : β) :
    (m.insertIfNew key value).size = m.size + 1 := by
  obtain ⟨entries, sorted⟩ := m
  simp only [find?] at h
  simp only [size, insertIfNew]
  clear sorted
  induction entries with
  | nil => rfl
  | cons entry rest ih =>
    rw [lookup_cons] at h
    unfold insertEntry
    split
    · rfl
    · next hnlt =>
      split
      · next hlt =>
        have hne : key ≠ entry.1 := fun e => String.lt_irrefl key (e ▸ hlt)
        rw [if_neg hne] at h
        simp [ih h]
      · next hngt =>
        have heq : key = entry.1 :=
          String.le_antisymm (String.not_lt.mp hngt) (String.not_lt.mp hnlt)
        simp [heq] at h

theorem mem_keys_iff {m : SortedMap β} {key : String} :
    key ∈ m.keys ↔ ∃ value, m.find? key = some value := by
  simp [keys, find?_eq_some_iff]

theorem ext_entries {m n : SortedMap β} (h : m.entries = n.entries) : m = n := by
  cases m
  cases n
  congr

/-- Maps with the same look-ups are equal. -/
theorem ext_find? {m n : SortedMap β} (h : ∀ key, m.find? key = n.find? key) : m = n := by
  have mem_iff (e : String × β) : e ∈ m.entries ↔ e ∈ n.entries := by
    rw [← find?_eq_some_iff, ← find?_eq_some_iff, h]
  obtain ⟨as, ha⟩ := m
  obtain ⟨bs, hb⟩ := n
  simp only at mem_iff
  congr
  induction as generalizing bs with
  | nil =>
    cases bs with
    | nil => rfl
    | cons b bs => simpa using mem_iff b
  | cons a as ih =>
    cases bs with
    | nil => simpa using mem_iff a
    | cons b bs =>
      have ha' := List.pairwise_cons.mp ha
      have hb' := List.pairwise_cons.mp hb
      have hab : a = b := by
        rcases List.mem_cons.mp ((mem_iff a).mp List.mem_cons_self) with e | hmem
        · exact e
        · rcases List.mem_cons.mp ((mem_iff b).mpr List.mem_cons_self) with e | hmem'
          · exact e.symm
          · exact absurd (hb'.1 a hmem) (String.lt_asymm (ha'.1 b hmem'))
      subst hab
      have tail_iff (e : String × β) : e ∈ as ↔ e ∈ bs := by
        have whole := mem_iff e
        simp only [List.mem_cons] at whole
        constructor
        · intro he
          rcases whole.mp (Or.inr he) with rfl | h
          · exact absurd (ha'.1 e he) (String.lt_irrefl _)
          · exact h
        · intro he
          rcases whole.mpr (Or.inr he) with rfl | h
          · exact absurd (hb'.1 e he) (String.lt_irrefl _)
          · exact h
      rw [ih ha'.2 bs hb'.2 (fun key => ?_) tail_iff]
      exact Option.ext fun value => by
        rw [find?_eq_some_iff, find?_eq_some_iff]
        exact tail_iff (key, value)

end SortedMap

/-- A finite set of strings, held in increasing order. -/
abbrev SortedSet :=
  SortedMap Unit

namespace SortedSet

/-- The set with the element added. -/
def insert (s : SortedSet) (element : String) : SortedSet :=
  s.insertIfNew element ()

/-- The set of the elements of a list. -/
def ofList (elements : List String) : SortedSet :=
  SortedMap.ofList (elements.map fun e => (e, ()))

/-- The elements, increasing. -/
def toList (s : SortedSet) : List String :=
  s.keys

theorem mem_toList_iff {s : SortedSet} {element : String} :
    element ∈ s.toList ↔ s.find? element = some () := by
  rw [toList, SortedMap.mem_keys_iff]
  exact ⟨fun ⟨_, h⟩ => h, fun h => ⟨(), h⟩⟩

@[simp]
theorem not_mem_toList_empty (element : String) :
    element ∉ SortedSet.toList SortedMap.empty := by
  simp [mem_toList_iff]

@[simp]
theorem mem_toList_insert {s : SortedSet} {element added : String} :
    element ∈ (s.insert added).toList ↔ element = added ∨ element ∈ s.toList := by
  simp only [mem_toList_iff, insert, SortedMap.find?_insertIfNew]
  by_cases h : element = added <;> simp [h]

@[simp]
theorem mem_toList_ofList {elements : List String} {element : String} :
    element ∈ (ofList elements).toList ↔ element ∈ elements := by
  have grown (s : SortedSet) :
      element ∈ SortedSet.toList (elements.foldl (fun t e => t.insertIfNew e ()) s) ↔
        element ∈ s.toList ∨ element ∈ elements := by
    induction elements generalizing s with
    | nil => simp
    | cons added elements ih =>
      rw [List.foldl_cons, ih]
      show element ∈ (s.insert added).toList ∨ _ ↔ _
      rw [mem_toList_insert, List.mem_cons, or_assoc, or_left_comm]
  rw [ofList, SortedMap.ofList, List.foldl_map, grown]
  simp

/-- Sets with the same elements are equal. -/
theorem ext_mem {s t : SortedSet} (h : ∀ element, element ∈ s.toList ↔ element ∈ t.toList) :
    s = t := by
  refine SortedMap.ext_find? fun key => ?_
  have same := h key
  rw [mem_toList_iff, mem_toList_iff] at same
  exact Option.ext fun _ => same

end SortedSet

end LuaDecl
