import LuaDecl.Proofs.Catalog.FirstSeen
import LuaDecl.Proofs.Definition.Subject
import LuaDecl.Proofs.Extraction.WellFormed

/-!
# Catalogs of sources

The catalogs that sources lead to: signatures of sources, merged one source after the other into the
catalog without signatures. Each map of such a catalog lists the keys and parameters of well-formed
signatures of its kind, and a table is recorded exactly when one of these signatures belongs to it.
-/

namespace LuaDecl.Catalog

open Definition

/-- The catalog of sources, merged in order. -/
def ofSources (sources : List String) : Catalog :=
  sources.foldl (fun c source => (c.merge (Extraction.ofSource source)).value.1) empty

/-- The signatures of sources, in the order in which they are merged. -/
def signaturesOf (sources : List String) : List Signature :=
  sources.flatMap fun source => (Extraction.ofSource source).signatures

/-- Extractions that are merged in order add up to all their signatures. -/
theorem represents_foldl_merge {α : Type} (extraction : α → Extraction) {c : Catalog}
    {past : List Signature} (h : c.Represents past) (items : List α) :
    (items.foldl (fun c item => (c.merge (extraction item)).value.1) c).Represents
      (past ++ items.flatMap fun item => (extraction item).signatures) := by
  induction items generalizing c past with
  | nil => simpa using h
  | cons item rest ih =>
    have merged : (c.merge (extraction item)).value.1.Represents
        (past ++ (extraction item).signatures) := (insertAll_spec h (extraction item).signatures).1
    simpa using ih merged

theorem represents_ofSources (sources : List String) :
    (ofSources sources).Represents (signaturesOf sources) := by
  simpa [ofSources, signaturesOf] using
    represents_foldl_merge Extraction.ofSource represents_empty sources

theorem wellFormed_of_mem_signaturesOf {sources : List String} {s : Signature}
    (h : s ∈ signaturesOf sources) : s.WellFormed := by
  obtain ⟨source, -, member⟩ := List.mem_flatMap.mp h
  exact Extraction.wellFormed_of_mem_ofSource member

theorem Represents.mem_keys_iff {c : Catalog} {past : List Signature} (h : c.Represents past)
    {kind : Kind} {key : String} :
    key ∈ (c.ofKind kind).keys ↔ ∃ s ∈ past, s.kind = kind ∧ s.key = key := by
  rw [SortedMap.mem_keys_iff, h.maps, ← Option.ne_none_iff_exists', ne_eq, firstParams_eq_none_iff]
  simp

/-! ### The signatures behind the entries -/

/-- The entries of a catalog in the order of a stub file. -/
def entries (c : Catalog) : List (String × String) :=
  c.globals.entries ++ c.dotMethods.entries ++ c.colonMethods.entries

theorem mem_entries_iff {c : Catalog} {e : String × String} :
    e ∈ c.entries ↔ ∃ kind, e ∈ (c.ofKind kind).entries := by
  rw [entries, List.mem_append, List.mem_append, or_assoc]
  constructor
  · rintro (inside | inside | inside)
    · exact ⟨.global, inside⟩
    · exact ⟨.dot, inside⟩
    · exact ⟨.colon, inside⟩
  · rintro ⟨kind, inside⟩
    cases kind with
    | global => exact Or.inl inside
    | dot => exact Or.inr (Or.inl inside)
    | colon => exact Or.inr (Or.inr inside)

theorem exists_of_firstParams_eq_some {past : List Signature} {kind : Kind} {key params : String}
    (h : firstParams past kind key = some params) :
    ∃ s ∈ past, s.kind = kind ∧ s.key = key ∧ s.params = params := by
  obtain ⟨s, found, rfl⟩ := Option.map_eq_some_iff.mp h
  have defined : s.defines kind key = true := by simpa using List.find?_some found
  obtain ⟨hk, hn⟩ := Signature.defines_iff.mp defined
  exact ⟨s, List.mem_of_find?_eq_some found, hk, hn, rfl⟩

/-- Signatures that spell out the map of one kind, entry by entry. -/
structure Spells (kept : List Signature) (c : Catalog) (kind : Kind) : Prop where
  entries : (c.ofKind kind).entries = kept.map fun s => (s.key, s.params)
  kinds : ∀ s ∈ kept, s.kind = kind

private theorem exists_map_eq {past : List Signature} {kind : Kind}
    (entries : List (String × String))
    (h : ∀ e ∈ entries, ∃ s ∈ past, s.kind = kind ∧ s.key = e.1 ∧ s.params = e.2) :
    ∃ kept : List Signature, entries = (kept.map fun s => (s.key, s.params)) ∧
      ∀ s ∈ kept, s ∈ past ∧ s.kind = kind := by
  induction entries with
  | nil => exact ⟨[], rfl, by simp⟩
  | cons e rest ih =>
    obtain ⟨s, member, hk, hn, hp⟩ := h e List.mem_cons_self
    have others : ∀ f ∈ rest, ∃ s ∈ past, s.kind = kind ∧ s.key = f.1 ∧ s.params = f.2 := by
      intro f hf
      exact h f (List.mem_cons_of_mem e hf)
    obtain ⟨kept, spelled, all⟩ := ih others
    refine ⟨s :: kept, by simp [spelled, hn, hp], ?_⟩
    intro t ht
    rcases List.mem_cons.mp ht with rfl | ht
    · exact ⟨member, hk⟩
    · exact all t ht

/-- What a catalog holds is spelled out by signatures that it was given. -/
theorem Represents.exists_spells {c : Catalog} {past : List Signature} (h : c.Represents past)
    (kind : Kind) : ∃ kept, Spells kept c kind ∧ ∀ s ∈ kept, s ∈ past := by
  have origin : ∀ e ∈ (c.ofKind kind).entries,
      ∃ s ∈ past, s.kind = kind ∧ s.key = e.1 ∧ s.params = e.2 := by
    intro e he
    have found : (c.ofKind kind).find? e.1 = some e.2 := SortedMap.find?_eq_some_iff.mpr he
    rw [h.maps] at found
    exact exists_of_firstParams_eq_some found
  obtain ⟨kept, entries, all⟩ := exists_map_eq _ origin
  refine ⟨kept, ⟨entries, ?_⟩, ?_⟩
  · intro s hs
    exact (all s hs).2
  · intro s hs
    exact (all s hs).1

theorem Spells.find?_of_mem {kept : List Signature} {c : Catalog} {kind : Kind}
    (h : Spells kept c kind) {s : Signature} (hs : s ∈ kept) :
    (c.ofKind s.kind).find? s.key = some s.params := by
  rw [SortedMap.find?_eq_some_iff, h.kinds s hs, h.entries]
  exact List.mem_map.mpr ⟨s, hs, rfl⟩

theorem Spells.exists_of_find? {kept : List Signature} {c : Catalog} {kind : Kind}
    (h : Spells kept c kind) {key params : String}
    (found : (c.ofKind kind).find? key = some params) :
    ∃ s ∈ kept, s.kind = kind ∧ s.key = key := by
  rw [SortedMap.find?_eq_some_iff, h.entries] at found
  obtain ⟨s, member, equal⟩ := List.mem_map.mp found
  exact ⟨s, member, h.kinds s member, congrArg Prod.fst equal⟩

/-- Signatures of every kind that spell out a catalog, in the order of a stub file. -/
structure SpelledBy (c : Catalog) (kept : List Signature) : Prop where
  entries : c.entries = kept.map fun s => (s.key, s.params)
  sound : ∀ s ∈ kept, (c.ofKind s.kind).find? s.key = some s.params
  complete : ∀ kind key params, (c.ofKind kind).find? key = some params →
    ∃ s ∈ kept, s.kind = kind ∧ s.key = key

theorem Represents.exists_spelledBy {c : Catalog} {past : List Signature} (h : c.Represents past) :
    ∃ kept, c.SpelledBy kept ∧ ∀ s ∈ kept, s ∈ past := by
  obtain ⟨globals, hg, pastG⟩ := h.exists_spells .global
  obtain ⟨dots, hd, pastD⟩ := h.exists_spells .dot
  obtain ⟨colons, hc, pastC⟩ := h.exists_spells .colon
  refine ⟨globals ++ dots ++ colons, ⟨?_, ?_, ?_⟩, ?_⟩
  · have split : c.entries = (c.ofKind .global).entries ++ (c.ofKind .dot).entries ++
        (c.ofKind .colon).entries := rfl
    rw [split, hg.entries, hd.entries, hc.entries, List.map_append, List.map_append]
  · intro s hs
    simp only [List.mem_append] at hs
    rcases hs with (hs | hs) | hs
    · exact hg.find?_of_mem hs
    · exact hd.find?_of_mem hs
    · exact hc.find?_of_mem hs
  · intro kind key params found
    cases kind with
    | global =>
      obtain ⟨s, member, spelled⟩ := hg.exists_of_find? found
      exact ⟨s, by simp [member], spelled⟩
    | dot =>
      obtain ⟨s, member, spelled⟩ := hd.exists_of_find? found
      exact ⟨s, by simp [member], spelled⟩
    | colon =>
      obtain ⟨s, member, spelled⟩ := hc.exists_of_find? found
      exact ⟨s, by simp [member], spelled⟩
  · intro s hs
    simp only [List.mem_append] at hs
    rcases hs with (hs | hs) | hs
    · exact pastG s hs
    · exact pastD s hs
    · exact pastC s hs

/-- A list without contradictions to a map, and with all its keys, says what the map says. -/
theorem firstParams_eq_find? {past : List Signature} {kind : Kind} {m : SortedMap String}
    (sound : ∀ s ∈ past, s.kind = kind → m.find? s.key = some s.params)
    (complete : ∀ key params, m.find? key = some params → ∃ s ∈ past, s.kind = kind ∧ s.key = key)
    (key : String) : firstParams past kind key = m.find? key := by
  cases first : firstParams past kind key with
  | some params =>
    obtain ⟨s, member, hk, rfl, rfl⟩ := exists_of_firstParams_eq_some first
    exact (sound s member hk).symm
  | none =>
    cases found : m.find? key with
    | none => rfl
    | some params =>
      obtain ⟨s, member, spelled⟩ := complete key params found
      exact absurd spelled (firstParams_eq_none_iff.mp first s member)

/-- Catalogs with the same maps and tables are equal. -/
theorem ext_ofKind {c d : Catalog} (maps : ∀ kind, c.ofKind kind = d.ofKind kind)
    (tables : c.tables = d.tables) : c = d := by
  have globals : c.globals = d.globals := maps .global
  have dots : c.dotMethods = d.dotMethods := maps .dot
  have colons : c.colonMethods = d.colonMethods := maps .colon
  cases c
  cases d
  rw [mk.injEq]
  exact ⟨globals, dots, colons, tables⟩

/-- A key names its table: two signatures with one key belong to the same table. -/
theorem table_eq_of_key_eq {s t : Signature} (hs : s.WellFormed) (ht : t.WellFormed)
    (key : s.key = t.key) : s.table = t.table :=
  (Signature.sameFunction_of_key_eq hs.subject ht.subject key).table

/-- The tables of a catalog are those of the signatures that spell it out. -/
theorem Represents.mem_tables_iff {c : Catalog} {past kept : List Signature}
    (h : c.Represents past) (spelled : c.SpelledBy kept) (wf : ∀ s ∈ past, s.WellFormed)
    (known : ∀ s ∈ kept, s ∈ past) (table : String) :
    table ∈ c.tables.toList ↔ ∃ s ∈ kept, s.table = some table := by
  rw [h.tables]
  constructor
  · rintro ⟨s, member, named⟩
    -- The signature may have come too late, but the one recorded under its key has its table.
    cases recorded : firstParams past s.kind s.key with
    | none => exact absurd ⟨rfl, rfl⟩ (firstParams_eq_none_iff.mp recorded s member)
    | some params =>
      rw [← h.maps] at recorded
      obtain ⟨t, inKept, -, key⟩ := spelled.complete _ _ _ recorded
      refine ⟨t, inKept, ?_⟩
      rw [table_eq_of_key_eq (wf t (known t inKept)) (wf s member) key, named]
  · rintro ⟨s, member, named⟩
    exact ⟨s, known s member, named⟩

/-- A catalog is determined by the signatures that spell it out: any list with these signatures, in
whatever order and however often, leads to the same catalog. -/
theorem Represents.eq_of_spelledBy {c d : Catalog} {past kept again : List Signature}
    (h : c.Represents past) (hd : d.Represents again) (spelled : c.SpelledBy kept)
    (wf : ∀ s ∈ past, s.WellFormed) (known : ∀ s ∈ kept, s ∈ past)
    (members : ∀ s, s ∈ again ↔ s ∈ kept) : d = c := by
  apply ext_ofKind
  · intro kind
    apply SortedMap.ext_find?
    intro key
    rw [hd.maps]
    apply firstParams_eq_find?
    · rintro s member rfl
      exact spelled.sound s ((members s).mp member)
    · intro key params found
      obtain ⟨s, member, declares⟩ := spelled.complete kind key params found
      exact ⟨s, (members s).mpr member, declares⟩
  · apply SortedSet.ext_mem
    intro table
    rw [hd.tables, h.mem_tables_iff spelled wf known]
    simp only [members]

/-- Sources with the same first definitions lead to the same catalog: the tables follow from the
keys. -/
theorem ofSources_eq_of_firstParams_eq {sources others : List String}
    (same : ∀ kind key, firstParams (signaturesOf sources) kind key =
      firstParams (signaturesOf others) kind key) : ofSources sources = ofSources others := by
  have named {a b : List String} {table : String}
      (first : ∀ kind key, firstParams (signaturesOf a) kind key =
        firstParams (signaturesOf b) kind key)
      (h : ∃ s ∈ signaturesOf a, s.table = some table) :
      ∃ s ∈ signaturesOf b, s.table = some table := by
    obtain ⟨s, member, own⟩ := h
    have defined : firstParams (signaturesOf b) s.kind s.key ≠ none := by
      rw [← first, ne_eq, firstParams_eq_none_iff]
      exact fun none => none s member ⟨rfl, rfl⟩
    obtain ⟨params, found⟩ := Option.ne_none_iff_exists'.mp defined
    obtain ⟨t, known, -, key, -⟩ := exists_of_firstParams_eq_some found
    refine ⟨t, known, ?_⟩
    rw [table_eq_of_key_eq (wellFormed_of_mem_signaturesOf known)
      (wellFormed_of_mem_signaturesOf member) key, own]
  apply ext_ofKind
  · intro kind
    apply SortedMap.ext_find?
    intro key
    rw [(represents_ofSources sources).maps, (represents_ofSources others).maps, same]
  · apply SortedSet.ext_mem
    intro table
    rw [(represents_ofSources sources).tables, (represents_ofSources others).tables]
    exact ⟨named same, named fun kind key => (same kind key).symm⟩

end LuaDecl.Catalog
