import LuaDecl.Generation
import LuaDecl.Proofs.Text.Utf8

/-!
# Stray bytes in sources

A byte that is no UTF-8 takes nothing with it when it is dropped (`readSource_keeps_text`). A byte
that may begin a character does not reach into the text behind it, since no text begins in the
middle of a character, and a byte that may continue one does not change the character before it,
which is complete (`not_isPrefix_of_large`). Whatever a file holds, no ASCII is lost and none is
made up (`Reads.ascii`). That bytes are dropped one by one makes no difference: where a character
breaks off, what there is of it may as well be dropped at once (`decodeLossy_of_chunks`).
-/

namespace LuaDecl

namespace Text.Utf8

open String (utf8EncodeChar)

variable {bytes : List UInt8} {chars : List Char}

/-! ### Where no character begins -/

/-- The bytes are empty or begin with a character. -/
def BeginsWhole (bytes : List UInt8) : Prop :=
  bytes = [] ∨ ∃ c, utf8EncodeChar c <+: bytes

theorem BeginsWhole.isUTF8FirstByte_head (whole : BeginsWhole bytes) {byte : UInt8}
    (head : bytes[0]? = some byte) : byte.IsUTF8FirstByte := by
  rcases whole with rfl | ⟨c, begins⟩
  · cases head
  · rw [List.prefix_iff_getElem?.mp begins 0 (length_utf8EncodeChar_pos c)] at head
    exact Option.some.inj head ▸ UInt8.isUTF8FirstByte_getElem_utf8EncodeChar.mpr rfl

/-- A byte from the middle of a character begins none. -/
theorem not_isPrefix_of_middle {byte : UInt8} (middle : ¬ byte.IsUTF8FirstByte) (c : Char) :
    ¬ utf8EncodeChar c <+: byte :: bytes :=
  fun begins => middle (BeginsWhole.isUTF8FirstByte_head (.inr ⟨c, begins⟩) rfl)

/-- A large byte before whole characters begins no character: the second byte of that character
would be the first one of another. -/
theorem not_isPrefix_of_large {stray : UInt8} (large : 0x80 ≤ stray) (whole : BeginsWhole bytes)
    (c : Char) : ¬ utf8EncodeChar c <+: stray :: bytes := by
  intro begins
  by_cases size : c.utf8Size = 1
  · obtain ⟨byte, small, rfl⟩ := exists_ofUInt8_of_utf8Size size
    rw [utf8EncodeChar_ofUInt8 small, List.cons_prefix_cons] at begins
    obtain ⟨rfl, -⟩ := begins
    exact UInt8.not_lt.mpr large small
  · have length : 1 < (utf8EncodeChar c).length := by
      have positive := c.utf8Size_pos
      rw [String.length_utf8EncodeChar]
      omega
    have second : bytes[0]? = some (utf8EncodeChar c)[1] :=
      List.prefix_iff_getElem?.mp begins 1 length
    have first := whole.isUTF8FirstByte_head second
    rw [UInt8.isUTF8FirstByte_getElem_utf8EncodeChar] at first
    cases first

/-! ### Dropping -/

/-- A byte at which no character begins is dropped along with the bytes behind it that come from the
middle of a character. -/
theorem Reads.sequence {byte : UInt8} {middle : List UInt8}
    (noChar : ∀ c, ¬ utf8EncodeChar c <+: byte :: (middle ++ bytes))
    (continues : ∀ b ∈ middle, ¬ b.IsUTF8FirstByte) (h : Reads bytes chars) :
    Reads (byte :: (middle ++ bytes)) chars := by
  refine .stray noChar ?_
  clear noChar
  induction middle with
  | nil => exact h
  | cons b middle ih =>
    rw [List.forall_mem_cons] at continues
    exact .stray (not_isPrefix_of_middle continues.1) (ih continues.2)

theorem not_isUTF8FirstByte_of_brokenOff {byte : UInt8} {middle : List UInt8} {c : Char}
    (beginning : byte :: middle <+: utf8EncodeChar c) : ∀ b ∈ middle, ¬ b.IsUTF8FirstByte := by
  intro b member
  obtain ⟨i, bound, rfl⟩ := List.mem_iff_getElem.mp member
  have same := List.prefix_iff_getElem?.mp beginning (i + 1) (Nat.succ_lt_succ bound)
  obtain ⟨inside, equal⟩ := List.getElem?_eq_some_iff.mp same
  rw [List.getElem_cons_succ] at equal
  rw [← equal, UInt8.isUTF8FirstByte_getElem_utf8EncodeChar]
  exact Nat.succ_ne_zero i

/-- The bytes divided into chunks: texts, and behind each but the last a sequence at which no
character begins, either one byte or the beginning of a character that breaks off. -/
inductive Chunks : List UInt8 → List String → Prop
  | last (text : String) : Chunks (text.toList.flatMap utf8EncodeChar) [text]
  | more (text : String) {byte : UInt8} {middle bytes : List UInt8} {texts : List String} :
      (middle = [] ∨ ∃ c, byte :: middle <+: utf8EncodeChar c) →
      (∀ c, ¬ utf8EncodeChar c <+: byte :: (middle ++ bytes)) → Chunks bytes texts →
      Chunks (text.toList.flatMap utf8EncodeChar ++ byte :: (middle ++ bytes)) (text :: texts)

theorem Chunks.reads {texts : List String} (h : Chunks bytes texts) :
    Reads bytes (texts.flatMap String.toList) := by
  induction h with
  | last text =>
    rw [List.flatMap_singleton]
    exact reads_chars text.toList
  | more text brokenOff noChar _ ih =>
    refine Reads.chars_append text.toList (.sequence noChar ?_ ih)
    rcases brokenOff with rfl | ⟨c, beginning⟩
    · exact List.forall_mem_nil _
    · exact not_isUTF8FirstByte_of_brokenOff beginning

theorem Chunks.cons (c : Char) {texts : List String} (h : Chunks bytes texts) :
    ∃ texts, Chunks (utf8EncodeChar c ++ bytes) texts := by
  cases h with
  | last text => exact ⟨_, by simpa using Chunks.last (String.ofList (c :: text.toList))⟩
  | more text brokenOff noChar rest =>
    exact ⟨_, by simpa using Chunks.more (String.ofList (c :: text.toList)) brokenOff noChar rest⟩

theorem Reads.exists_chunks (h : Reads bytes chars) : ∃ texts, Chunks bytes texts := by
  induction h with
  | nil => exact ⟨[""], .last ""⟩
  | @char c _ _ _ ih =>
    obtain ⟨texts, chunks⟩ := ih
    exact chunks.cons c
  | stray noChar _ ih =>
    obtain ⟨texts, chunks⟩ := ih
    exact ⟨"" :: texts, .more "" (.inl rfl) noChar chunks⟩

/-- All bytes can be divided into chunks, and however long the sequences between their texts are,
the texts are what is read. -/
theorem decodeLossy_of_chunks (bytes : ByteArray) :
    (∃ texts, Chunks bytes.data.toList texts) ∧
      ∀ texts, Chunks bytes.data.toList texts → decodeLossy bytes = String.join texts := by
  refine ⟨(reads_decodeLossy bytes).exists_chunks, fun texts chunks => ?_⟩
  rw [decodeLossy_eq_of_reads chunks.reads, ← String.toList_join, String.ofList_toList]

/-- A character is ASCII if and only if its bytes are. -/
theorem filter_utf8EncodeChar (c : Char) :
    [c].filter (fun c => c.toNat < 0x80) =
      ((utf8EncodeChar c).filter (· < 0x80)).map Char.ofUInt8 := by
  by_cases size : c.utf8Size = 1
  · obtain ⟨byte, small, rfl⟩ := exists_ofUInt8_of_utf8Size size
    have ascii : (Char.ofUInt8 byte).toNat < 0x80 := UInt8.lt_iff_toNat_lt.mp small
    rw [utf8EncodeChar_ofUInt8 small, List.filter_cons_of_pos (by simpa using ascii),
      List.filter_cons_of_pos (by simpa using small)]
    rfl
  · have large : ¬ c.toNat < 0x80 := by
      rw [Char.utf8Size_eq_one_iff, UInt32.le_iff_toNat_le] at size
      exact fun ascii => size (Nat.le_of_lt_succ ascii)
    have noAscii : (utf8EncodeChar c).filter (· < 0x80) = [] := by
      rw [List.filter_eq_nil_iff]
      intro byte member
      simpa using le_of_mem_utf8EncodeChar size member
    rw [List.filter_cons_of_neg (by simpa using large), noAscii]
    rfl

/-- No ASCII is dropped, and no other byte is read as ASCII. -/
theorem Reads.ascii (h : Reads bytes chars) :
    chars.filter (fun c => c.toNat < 0x80) = (bytes.filter (· < 0x80)).map Char.ofUInt8 := by
  induction h with
  | nil => rfl
  | @char c bytes chars _ ih =>
    rw [List.filter_append, List.map_append, ← ih, ← filter_utf8EncodeChar, ← List.filter_append,
      List.singleton_append]
  | @stray byte bytes chars noChar _ ih =>
    have large : ¬ byte < 0x80 := by
      intro small
      refine noChar (Char.ofUInt8 byte) ?_
      rw [utf8EncodeChar_ofUInt8 small]
      exact List.prefix_append [byte] bytes
    rw [List.filter_cons_of_neg (by simpa using large), ih]

/-! ### Texts with bytes between them -/

/-- The bytes of texts, with one more byte between each two neighbours. -/
def strewn (first : String) : List (UInt8 × String) → ByteArray
  | [] => first.toUTF8
  | (stray, next) :: rest => first.toUTF8 ++ [stray].toByteArray ++ strewn next rest

theorem data_strewn_cons (first : String) (stray : UInt8) (next : String)
    (rest : List (UInt8 × String)) :
    (strewn first ((stray, next) :: rest)).data.toList =
      first.toList.flatMap utf8EncodeChar ++ stray :: (strewn next rest).data.toList := by
  simp [strewn, ← data_toUTF8]

/-- What begins with a text begins with its first character. -/
theorem beginsWhole_strewn {first : String} {strays : List (UInt8 × String)}
    (whole : first ≠ "" ∨ strays = []) : BeginsWhole (strewn first strays).data.toList := by
  obtain ⟨behind, split⟩ : ∃ behind,
      (strewn first strays).data.toList = first.toList.flatMap utf8EncodeChar ++ behind := by
    cases strays with
    | nil => exact ⟨[], by rw [strewn, data_toUTF8, List.append_nil]⟩
    | cons s rest => exact ⟨_, data_strewn_cons first s.1 s.2 rest⟩
  cases chars : first.toList with
  | nil =>
    obtain rfl : strays = [] :=
      whole.resolve_left fun nonempty => nonempty (String.toList_eq_nil_iff.mp chars)
    exact .inl (by rw [strewn, data_toUTF8, chars, List.flatMap_nil])
  | cons c rest =>
    rw [split, chars, List.flatMap_cons, List.append_assoc]
    exact .inr ⟨c, List.prefix_append _ _⟩

/-- Large bytes between texts are dropped, and the texts are read. -/
theorem reads_strewn (first : String) (strays : List (UInt8 × String))
    (large : ∀ s ∈ strays, 0x80 ≤ s.1) (apart : ∀ s ∈ strays.dropLast, s.2 ≠ "") :
    Reads (strewn first strays).data.toList
      (first.toList ++ strays.flatMap fun s => s.2.toList) := by
  induction strays generalizing first with
  | nil =>
    rw [strewn, data_toUTF8, List.flatMap_nil, List.append_nil]
    exact reads_chars first.toList
  | cons s rest ih =>
    obtain ⟨stray, next⟩ := s
    rw [List.forall_mem_cons] at large
    -- Only the last text may be empty, and behind it no byte is left to continue a character.
    have whole : (next ≠ "" ∨ rest = []) ∧ ∀ s ∈ rest.dropLast, s.2 ≠ "" := by
      cases rest with
      | nil => exact ⟨.inr rfl, by simp⟩
      | cons t rest =>
        rw [List.dropLast_cons_cons, List.forall_mem_cons] at apart
        exact ⟨.inl apart.1, apart.2⟩
    rw [data_strewn_cons, List.flatMap_cons]
    have noChar := not_isPrefix_of_large large.1 (beginsWhole_strewn whole.1)
    exact (Reads.stray noChar (ih next large.2 whole.2)).chars_append first.toList

theorem decodeLossy_strewn (first : String) (strays : List (UInt8 × String))
    (large : ∀ s ∈ strays, 0x80 ≤ s.1) (apart : ∀ s ∈ strays.dropLast, s.2 ≠ "") :
    decodeLossy (strewn first strays) = String.join (first :: strays.map Prod.snd) := by
  have texts : (String.join (first :: strays.map Prod.snd)).toList =
      first.toList ++ strays.flatMap fun s => s.2.toList := by
    rw [String.toList_join, List.flatMap_cons, List.flatMap_map]
  rw [decodeLossy_eq_of_reads (reads_strewn first strays large apart), ← texts,
    String.ofList_toList]

end Text.Utf8

namespace Generation

open Text.Utf8

/-- A file that can be read is read as the texts it holds where single large bytes stand between
texts, and none of those between two such bytes is empty. Of any file, the ASCII that is read is
the ASCII it holds, in order. -/
theorem readSource_keeps_text {fs : FileSystem} {path : String} {bytes : ByteArray}
    (readable : fs.read path = .ok bytes) :
    (∀ first strays, bytes = strewn first strays → (∀ s ∈ strays, 0x80 ≤ s.1) →
      (∀ s ∈ strays.dropLast, s.2 ≠ "") →
      readSource fs path = .ok (String.join (first :: strays.map Prod.snd))) ∧
    ∃ text, readSource fs path = .ok text ∧
      text.toList.filter (fun c => c.toNat < 0x80) =
        (bytes.data.toList.filter (· < 0x80)).map Char.ofUInt8 := by
  have read : readSource fs path = .ok (decodeLossy bytes) := by rw [readSource, readable]
  constructor
  · rintro first strays rfl large apart
    rw [read, decodeLossy_strewn first strays large apart]
  · exact ⟨decodeLossy bytes, read, (reads_decodeLossy bytes).ascii⟩

/-- The bytes of a source with a letter that is no UTF-8 before a parenthesis. -/
def latin1 : ByteArray :=
  strewn "function Caf" [(0xE9, "(a) end\n")]

/-- A tree with that source. -/
def latin1Source : FileSystem where
  root := [("bad.lua", .file latin1)]
  workingDirectory := []

/-- The letter would begin a character of three bytes, and takes neither of the next two along. -/
theorem readSource_keeps_text_latin1 :
    latin1Source.read "bad.lua" = .ok latin1 ∧
      readSource latin1Source "bad.lua" = .ok "function Caf(a) end\n" := by
  have content : (latin1Source.read "bad.lua").toOption = some latin1 := by decide +kernel
  have readable : latin1Source.read "bad.lua" = .ok latin1 := by
    cases read : latin1Source.read "bad.lua" with
    | error fault => rw [read] at content; cases content
    | ok bytes => rw [read] at content; exact congrArg _ (Option.some.inj content)
  exact ⟨readable, (readSource_keeps_text readable).1 _ _ rfl (by decide) (by decide)⟩

end Generation

end LuaDecl
