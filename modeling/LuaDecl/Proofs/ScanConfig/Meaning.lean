import LuaDecl.ScanConfig.Reading

/-!
# What a configuration means

Of a document only the texts in the arrays under the two known keys count: documents that agree on
them lead to the same configuration, whatever else they hold (`agreeOn_iff`). What else they
hold is told of: first the keys that mean nothing, in their order, and then the known keys that hold
something other than an array (`tells_ofDocument`).
-/

namespace LuaDecl

theorem Toml.Value.items?_eq_some_iff {value : Value} {items : List Value} :
    value.items? = some items ↔ value = .array items := by
  cases value <;> simp [items?]

theorem Toml.Value.text?_eq_some_iff {value : Value} {text : String} :
    value.text? = some text ↔ value = .text text := by
  cases value <;> simp [text?]

namespace ScanConfig

variable {document first second : SortedMap Toml.Value} {key text : String}
  {items : List Toml.Value} {read : String → String} {fallback : SortedSet}

/-! ### What a document holds under a key -/

/-- The document holds the array under the key. -/
def HoldsArray (document : SortedMap Toml.Value) (key : String) (items : List Toml.Value) : Prop :=
  document.find? key = some (.array items)

/-- The document holds a value under the key that is no array. -/
def HoldsOther (document : SortedMap Toml.Value) (key : String) : Prop :=
  ∃ value, document.find? key = some value ∧ ∀ items, value ≠ .array items

/-- The text is what some text among the items is read as. -/
def IsRead (read : String → String) (items : List Toml.Value) (text : String) : Prop :=
  ∃ item, .text item ∈ items ∧ read item = text

/-- Under the key both documents hold arrays whose texts are read as the same set, or neither holds
an array. -/
inductive AgreeOn (read : String → String) (key : String)
    (first second : SortedMap Toml.Value) : Prop
  | noArray (inFirst : ∀ items, ¬ HoldsArray first key items)
      (inSecond : ∀ items, ¬ HoldsArray second key items) : AgreeOn read key first second
  | arrays {items others : List Toml.Value} (inFirst : HoldsArray first key items)
      (inSecond : HoldsArray second key others)
      (same : ∀ text, IsRead read items text ↔ IsRead read others text) :
      AgreeOn read key first second

theorem arrayOrNone (document : SortedMap Toml.Value) (key : String) :
    (∃ items, HoldsArray document key items) ∨ ∀ items, ¬ HoldsArray document key items := by
  rw [← not_exists]
  exact Classical.em _

/-! ### The texts under a key -/

theorem value_texts? (document : SortedMap Toml.Value) (key : String) :
    (texts? document key).value =
      ((document.find? key).bind Toml.Value.items?).map (List.filterMap Toml.Value.text?) := by
  unfold texts?
  cases document.find? key with
  | none => rfl
  | some value => cases held : value.items? <;> simp [held]

theorem value_texts?_of_holdsArray (holds : HoldsArray document key items) :
    (texts? document key).value = some (items.filterMap Toml.Value.text?) := by
  rw [value_texts?, holds]
  rfl

theorem value_texts?_of_noArray (nothing : ∀ items, ¬ HoldsArray document key items) :
    (texts? document key).value = none := by
  rw [value_texts?, Option.map_eq_none_iff, Option.bind_eq_none_iff]
  intro value found
  cases held : value.items? with
  | none => rfl
  | some items =>
    rw [Toml.Value.items?_eq_some_iff.mp held] at found
    exact absurd found (nothing items)

/-! ### The sets of a configuration -/

/-- The set under a key, what the texts of the array are read as, if there is an array. -/
def setUnder? (read : String → String) (key : String) (document : SortedMap Toml.Value) :
    Option SortedSet :=
  (texts? document key).value.map fun texts => SortedSet.ofList (texts.map read)

theorem extensions_ofDocument (document : SortedMap Toml.Value) :
    (ofDocument document).value.extensions =
      (setUnder? withoutDots extensionsKey document).getD default.extensions := by
  cases texts : (texts? document extensionsKey).value <;> simp [ofDocument, setUnder?, texts]

theorem skipDirs_ofDocument (document : SortedMap Toml.Value) :
    (ofDocument document).value.skipDirs =
      (setUnder? id skipDirsKey document).getD default.skipDirs := by
  cases texts : (texts? document skipDirsKey).value <;> simp [ofDocument, setUnder?, texts]

theorem setUnder?_of_holdsArray (holds : HoldsArray document key items) :
    setUnder? read key document =
      some (SortedSet.ofList ((items.filterMap Toml.Value.text?).map read)) := by
  rw [setUnder?, value_texts?_of_holdsArray holds, Option.map_some]

theorem setUnder?_of_noArray (nothing : ∀ items, ¬ HoldsArray document key items) :
    setUnder? read key document = none := by
  rw [setUnder?, value_texts?_of_noArray nothing, Option.map_none]

theorem mem_ofList_texts_iff : text ∈
    (SortedSet.ofList ((items.filterMap Toml.Value.text?).map read)).toList ↔
      IsRead read items text := by
  simp [IsRead, Toml.Value.text?_eq_some_iff]

/-- Documents agree on a key if and only if they have the same set under it, or neither has one. -/
theorem agreeOn_iff :
    AgreeOn read key first second ↔ setUnder? read key first = setUnder? read key second := by
  constructor
  · intro agree
    cases agree with
    | noArray inFirst inSecond => rw [setUnder?_of_noArray inFirst, setUnder?_of_noArray inSecond]
    | arrays inFirst inSecond same =>
      rw [setUnder?_of_holdsArray inFirst, setUnder?_of_holdsArray inSecond, Option.some_inj]
      apply SortedSet.ext_mem
      intro text
      rw [mem_ofList_texts_iff, mem_ofList_texts_iff, same]
  · intro equal
    rcases arrayOrNone first key with ⟨items, inFirst⟩ | inFirst <;>
      rcases arrayOrNone second key with ⟨others, inSecond⟩ | inSecond
    · rw [setUnder?_of_holdsArray inFirst, setUnder?_of_holdsArray inSecond,
        Option.some_inj] at equal
      refine .arrays inFirst inSecond fun text => ?_
      rw [← mem_ofList_texts_iff, equal, mem_ofList_texts_iff]
    · rw [setUnder?_of_holdsArray inFirst, setUnder?_of_noArray inSecond] at equal
      cases equal
    · rw [setUnder?_of_noArray inFirst, setUnder?_of_holdsArray inSecond] at equal
      cases equal
    · exact .noArray inFirst inSecond

instance : DecidableEq SortedSet := fun s t =>
  decidable_of_iff (s.toList = t.toList)
    ⟨fun equal => SortedSet.ext_mem (by simp [equal]), fun equal => by rw [equal]⟩

instance (read : String → String) (key : String) (first second : SortedMap Toml.Value) :
    Decidable (AgreeOn read key first second) :=
  decidable_of_iff (setUnder? read key first = setUnder? read key second) agreeOn_iff.symm

/-! ### What is told of a document -/

/-- The known keys under which a document holds something other than an array, in their order. -/
def mistypedKeys (document : SortedMap Toml.Value) : List String :=
  knownKeys.filter fun key => (document.find? key).any fun value => value.items?.isNone

/-- The events tell of a document: of each key that means nothing once, in increasing order, and
then of the known keys that hold something other than an array, in the order of the known keys. -/
def Tells (document : SortedMap Toml.Value) (events : List Event) : Prop :=
  ∃ unknown mistyped : List String,
    events = (unknown.map fun key => .unknownKey key (suggestion? key)) ++
      mistyped.map .arrayExpected ∧
    (unknown.Pairwise fun a b => a.toList < b.toList) ∧
    (∀ key, key ∈ unknown ↔ (∃ value, document.find? key = some value) ∧ key ∉ knownKeys) ∧
    mistyped.Sublist knownKeys ∧ ∀ key ∈ knownKeys, key ∈ mistyped ↔ HoldsOther document key

theorem events_texts? (document : SortedMap Toml.Value) (key : String) :
    (texts? document key).events =
      ([key].filter fun key =>
        (document.find? key).any fun value => value.items?.isNone).map .arrayExpected := by
  unfold texts?
  cases found : document.find? key with
  | none => simp [found]
  | some value => cases held : value.items? <;> simp [found, held]

theorem events_ofDocument (document : SortedMap Toml.Value) :
    (ofDocument document).events =
      ((unknownKeys document).map fun key => .unknownKey key (suggestion? key)) ++
        (mistypedKeys document).map .arrayExpected := by
  have inOrder : knownKeys = [extensionsKey] ++ [skipDirsKey] := rfl
  rw [mistypedKeys, inOrder, List.filter_append, List.map_append, ← events_texts?, ← events_texts?]
  simp [ofDocument]

theorem mem_unknownKeys_iff : key ∈ unknownKeys document ↔
    (∃ value, document.find? key = some value) ∧ key ∉ knownKeys := by
  simp [unknownKeys, SortedMap.mem_keys_iff]

theorem mem_mistypedKeys_iff (isKnown : key ∈ knownKeys) :
    key ∈ mistypedKeys document ↔ HoldsOther document key := by
  simp [mistypedKeys, isKnown, HoldsOther, Option.any_eq_true, Option.eq_none_iff_forall_ne_some,
    Toml.Value.items?_eq_some_iff]

theorem tells_ofDocument (document : SortedMap Toml.Value) :
    Tells document (ofDocument document).events := by
  refine ⟨unknownKeys document, mistypedKeys document, events_ofDocument document, ?_,
    fun key => mem_unknownKeys_iff, List.filter_sublist, fun key => mem_mistypedKeys_iff⟩
  refine List.Pairwise.filter _ ?_
  rw [SortedMap.keys, List.pairwise_map]
  exact document.sorted

/-- Only the texts in the arrays under the two known keys count. Two documents that agree on them,
less the dots at the start of extensions, are read as the same configuration, whatever their other
keys, items and values are. Of the rest the log tells. -/
theorem read?_dependsOnTexts {text other : String} (parsed : Toml.document? text = some first)
    (parsedOther : Toml.document? other = some second)
    (extensions : AgreeOn withoutDots extensionsKey first second)
    (skipDirs : AgreeOn id skipDirsKey first second) :
    ∃ config otherConfig : Logged ScanConfig,
      read? text = some config ∧ read? other = some otherConfig ∧
        config.value.extensions = otherConfig.value.extensions ∧
        config.value.skipDirs = otherConfig.value.skipDirs ∧
        Tells first config.events ∧ Tells second otherConfig.events := by
  refine ⟨ofDocument first, ofDocument second, by rw [read?, parsed, Option.map_some],
    by rw [read?, parsedOther, Option.map_some], ?_, ?_, tells_ofDocument first,
    tells_ofDocument second⟩
  · rw [extensions_ofDocument, extensions_ofDocument, agreeOn_iff.mp extensions]
  · rw [skipDirs_ofDocument, skipDirs_ofDocument, agreeOn_iff.mp skipDirs]

/-- A document with an array of more than texts, a misspelled key and a known key without array. -/
def spelled : String :=
  "skip_dir = []\nskip_dirs = 'Tests'\nextensions = ['.lua', 3]"

/-- A document with one text twice, once with dots. -/
def dotted : String :=
  "extensions = ['lua', '..lua']\ncolor = true"

theorem isSome_spelled : (Toml.document? spelled).isSome := by decide +kernel

theorem isSome_dotted : (Toml.document? dotted).isSome := by decide +kernel

theorem read?_dependsOnTexts_lua :
    ∃ first second, Toml.document? spelled = some first ∧ Toml.document? dotted = some second ∧
      ∃ config otherConfig : Logged ScanConfig,
        read? spelled = some config ∧ read? dotted = some otherConfig ∧
          config.value.extensions = otherConfig.value.extensions ∧
          config.value.skipDirs = otherConfig.value.skipDirs ∧
          Tells first config.events ∧ Tells second otherConfig.events := by
  have parsed := (Option.some_get isSome_spelled).symm
  have parsedOther := (Option.some_get isSome_dotted).symm
  exact ⟨_, _, parsed, parsedOther,
    read?_dependsOnTexts parsed parsedOther (by decide +kernel) (by decide +kernel)⟩

end ScanConfig

end LuaDecl
