import LuaDecl.Proofs.Stub.Layout

/-!
# The order of the sources

What a catalog and its stub file owe to the order in which sources are merged: no key and no table,
only the winner among definitions that differ. The first definition of a key in a list of sources is
the first one of some source, so where the first definitions of the sources agree, no order can make
a difference. The sections of a stub file are sorted in any case.
-/

namespace LuaDecl

namespace Catalog

/-- The keys come in strictly increasing order of their code points. -/
def Increasing (keys : List String) : Prop :=
  keys.Pairwise fun a b => a.toList < b.toList

theorem increasing_keys {β : Type} (m : SortedMap β) : Increasing m.keys := by
  rw [Increasing, SortedMap.keys, List.pairwise_map]
  exact m.sorted

/-- Two sources that define a key as a function of one kind have the same parameters in their own
first definitions. -/
def FirstDefinitionsAgree (sources : List String) : Prop :=
  ∀ a ∈ sources, ∀ b ∈ sources, ∀ kind key p q,
    firstParams (Extraction.ofSource a).signatures kind key = some p →
    firstParams (Extraction.ofSource b).signatures kind key = some q → p = q

/-- It is enough to compare the first definitions of the keys that the sources define. -/
theorem firstDefinitionsAgree_iff {sources : List String} :
    FirstDefinitionsAgree sources ↔
      ∀ a ∈ sources, ∀ s ∈ (Extraction.ofSource a).signatures,
        ∀ b ∈ sources, ∀ t ∈ (Extraction.ofSource b).signatures, t.kind = s.kind → t.key = s.key →
          firstParams (Extraction.ofSource a).signatures s.kind s.key =
            firstParams (Extraction.ofSource b).signatures s.kind s.key := by
  constructor
  · intro agree a ha s hs b hb t ht kind key
    cases first : firstParams (Extraction.ofSource a).signatures s.kind s.key with
    | none => exact absurd ⟨rfl, rfl⟩ (firstParams_eq_none_iff.mp first s hs)
    | some p =>
      cases second : firstParams (Extraction.ofSource b).signatures s.kind s.key with
      | none => exact absurd ⟨kind, key⟩ (firstParams_eq_none_iff.mp second t ht)
      | some q => rw [agree a ha b hb s.kind s.key p q first second]
  · intro same a ha b hb kind key p q first second
    obtain ⟨s, hs, rfl, rfl, -⟩ := exists_of_firstParams_eq_some first
    obtain ⟨t, ht, sameKind, sameKey, -⟩ := exists_of_firstParams_eq_some second
    rw [same a ha s hs b hb t ht sameKind sameKey, second] at first
    exact (Option.some.inj first).symm

instance (sources : List String) : Decidable (FirstDefinitionsAgree sources) :=
  decidable_of_iff _ firstDefinitionsAgree_iff.symm

/-! ### Keys and tables -/

theorem perm_signaturesOf {sources others : List String} (order : sources.Perm others) :
    (signaturesOf sources).Perm (signaturesOf others) :=
  order.flatMap_right _

/-! ### First definitions -/

theorem firstParams_flatMap (sources : List String) (signatures : String → List Signature)
    (kind : Kind) (key : String) :
    firstParams (sources.flatMap signatures) kind key =
      sources.findSome? fun source => firstParams (signatures source) kind key := by
  induction sources with
  | nil => rfl
  | cons source rest ih =>
    rw [List.flatMap_cons, firstParams_append, ih, List.findSome?_cons]
    cases firstParams (signatures source) kind key <;> rfl

/-- Where the first definitions agree, that of all sources is that of any of them. -/
theorem firstParams_signaturesOf_eq_some_iff {sources : List String}
    (agree : FirstDefinitionsAgree sources) {kind : Kind} {key params : String} :
    firstParams (signaturesOf sources) kind key = some params ↔
      ∃ source ∈ sources,
        firstParams (Extraction.ofSource source).signatures kind key = some params := by
  rw [signaturesOf, firstParams_flatMap]
  constructor
  · exact List.exists_of_findSome?_eq_some
  · rintro ⟨source, member, defined⟩
    cases found : sources.findSome? fun source =>
        firstParams (Extraction.ofSource source).signatures kind key with
    | none => exact absurd defined (by simp [List.findSome?_eq_none_iff.mp found source member])
    | some first =>
      obtain ⟨other, known, kept⟩ := List.exists_of_findSome?_eq_some found
      rw [agree other known source member kind key first params kept defined]

theorem FirstDefinitionsAgree.of_perm {sources others : List String}
    (agree : FirstDefinitionsAgree sources) (order : sources.Perm others) :
    FirstDefinitionsAgree others := by
  intro a ha b hb
  exact agree a (order.mem_iff.mpr ha) b (order.mem_iff.mpr hb)

/-- Sources whose first definitions agree lead to one catalog in every order. -/
theorem ofSources_eq_of_perm {sources others : List String} (order : sources.Perm others)
    (agree : FirstDefinitionsAgree sources) : ofSources sources = ofSources others := by
  apply ext_ofKind
  · intro kind
    apply SortedMap.ext_find?
    intro key
    rw [(represents_ofSources sources).maps, (represents_ofSources others).maps]
    apply Option.ext
    intro params
    rw [firstParams_signaturesOf_eq_some_iff agree,
      firstParams_signaturesOf_eq_some_iff (agree.of_perm order)]
    simp only [order.mem_iff]
  · apply SortedSet.ext_mem
    intro table
    rw [(represents_ofSources sources).tables, (represents_ofSources others).tables]
    simp only [(perm_signaturesOf order).mem_iff]

/-- The order of the sources decides the winner of real conflicts and nothing else. In every order
the same keys and tables are recorded, and where the first definitions of the sources agree the stub
file is the same, character by character. Each of its sections is strictly increasing. -/
theorem ofSources_of_perm {sources others : List String} (order : sources.Perm others) :
    (∀ kind key, key ∈ ((ofSources sources).ofKind kind).keys ↔
      key ∈ ((ofSources others).ofKind kind).keys) ∧
    (∀ table, table ∈ (ofSources sources).tables.toList ↔
      table ∈ (ofSources others).tables.toList) ∧
    (FirstDefinitionsAgree sources →
      Stub.render (ofSources sources) = Stub.render (ofSources others)) ∧
    Stub.render (ofSources sources) = Stub.layout (ofSources sources).tables.toList
      (fun kind => ((ofSources sources).ofKind kind).entries) ∧
    Increasing (ofSources sources).tables.toList ∧
    ∀ kind, Increasing (((ofSources sources).ofKind kind).entries.map Prod.fst) := by
  have first := represents_ofSources sources
  have second := represents_ofSources others
  refine ⟨?_, ?_, ?_, Stub.render_eq_layout (sound_ofSources sources), increasing_keys _,
    fun kind => increasing_keys _⟩
  · intro kind key
    rw [first.mem_keys_iff, second.mem_keys_iff]
    simp only [(perm_signaturesOf order).mem_iff]
  · intro table
    rw [first.tables, second.tables]
    simp only [(perm_signaturesOf order).mem_iff]
  · intro agree
    exact congrArg Stub.render (ofSources_eq_of_perm order agree)

/-- Two sources that define `f` alike. The first one has a second definition of it, which stands
before the other in the text but comes after it among the signatures. -/
theorem ofSources_of_perm_assignment :
    ["f = function(b) end\nfunction f(a) end", "function f(a) end"].Perm
      ["function f(a) end", "f = function(b) end\nfunction f(a) end"] ∧
    Stub.render (ofSources ["f = function(b) end\nfunction f(a) end", "function f(a) end"]) =
      Stub.render (ofSources ["function f(a) end", "f = function(b) end\nfunction f(a) end"]) := by
  have order : ["f = function(b) end\nfunction f(a) end", "function f(a) end"].Perm
      ["function f(a) end", "f = function(b) end\nfunction f(a) end"] := List.Perm.swap _ _ _
  refine ⟨order, (ofSources_of_perm order).2.2.1 ?_⟩
  decide +kernel

end Catalog

end LuaDecl
