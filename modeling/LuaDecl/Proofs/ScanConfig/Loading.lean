import LuaDecl.Proofs.FileSystem.Passage
import LuaDecl.ScanConfig.Loading

/-!
# Loading a configuration, asked for or not

A file either holds a configuration, if it reads as UTF-8 and the text is TOML, or has a fault
(`holds_or_fails`). Reading it follows this case by case, and all that `load` does is a choice on
the result: the fault of a file that is asked for is the error of the run, and that of the file in
the directory is reported if there is a file, and the defaults apply (`load_agrees`).
-/

namespace LuaDecl.ScanConfig

variable {fs : FileSystem} {path directory other : String} {bytes : ByteArray} {text : String}
  {document : SortedMap Toml.Value} {fault : ConfigFault} {config : ScanConfig} {error : RunError}

/-! ### The text of bytes -/

theorem fromUTF8?_eq_some_iff : String.fromUTF8? bytes = some text ↔ bytes = text.toUTF8 := by
  unfold String.fromUTF8?
  constructor
  · intro found
    split at found
    · exact congrArg String.toUTF8 (Option.some.inj found)
    · cases found
  · rintro rfl
    exact dif_pos text.isValidUTF8

/-! ### What is in a file -/

/-- The file that a path leads to reads as UTF-8, and its text is a document. -/
def Holds (fs : FileSystem) (path : String) (document : SortedMap Toml.Value) : Prop :=
  ∃ text : String, fs.read path = .ok text.toUTF8 ∧ Toml.document? text = some document

/-- What is wrong with a configuration file. -/
inductive Fails (fs : FileSystem) (path : String) : ConfigFault → Prop
  /-- No file can be read. -/
  | unreadable {fault : FileSystem.Fault} : fs.read path = .error fault →
      Fails fs path (.unreadable fault)
  /-- The bytes in the file are those of no text. -/
  | notUtf8 {bytes : ByteArray} : fs.read path = .ok bytes →
      (∀ text : String, text.toUTF8 ≠ bytes) → Fails fs path .notUtf8
  /-- The text in the file is no document. -/
  | malformed {text : String} : fs.read path = .ok text.toUTF8 →
      Toml.document? text = none → Fails fs path .malformed

theorem holds_or_fails (fs : FileSystem) (path : String) :
    (∃ document, Holds fs path document) ∨ ∃ fault, Fails fs path fault := by
  cases content : fs.read path with
  | error fault => exact Or.inr ⟨_, .unreadable content⟩
  | ok bytes =>
    by_cases isText : ∃ text : String, text.toUTF8 = bytes
    · obtain ⟨text, rfl⟩ := isText
      cases parsed : Toml.document? text with
      | none => exact Or.inr ⟨_, .malformed content parsed⟩
      | some document => exact Or.inl ⟨document, text, content, parsed⟩
    · exact Or.inr ⟨_, .notUtf8 content (not_exists.mp isText)⟩

/-- What is read is the file that the path is a file by. -/
theorem isFile_of_read (content : fs.read path = .ok bytes) : fs.isFile path = true := by
  obtain ⟨location, resolved⟩ := FileSystem.read_eq_ok_iff.mp content
  exact FileSystem.isFile_iff.mpr
    ⟨(FileSystem.resolve_eq_ok_iff.mp resolved).1, location, FileSystem.fileAt?_of_resolve resolved⟩

/-! ### Reading it -/

theorem readFile_of_holds (holds : Holds fs path document) :
    readFile fs path =
      ⟨.ok (ofDocument document).value, .configLoading path :: (ofDocument document).events⟩ := by
  obtain ⟨text, content, parsed⟩ := holds
  simp only [readFile, content, fromUTF8?_eq_some_iff.mpr rfl, read?, parsed, Option.map_some]
  exact congrArg (fun events => Logged.mk _ (_ :: events)) (List.append_nil _)

theorem readFile_of_fails (fails : Fails fs path fault) :
    readFile fs path = ⟨.error fault, [.configLoading path]⟩ := by
  cases fails with
  | unreadable content =>
    simp only [readFile, content]
    rfl
  | notUtf8 content noText =>
    have undecodable := Option.eq_none_iff_forall_ne_some.mpr fun text found =>
      noText text (fromUTF8?_eq_some_iff.mp found).symm
    simp only [readFile, content, undecodable]
    rfl
  | malformed content unparsed =>
    simp only [readFile, content, fromUTF8?_eq_some_iff.mpr rfl, read?, unparsed, Option.map_none]
    rfl

/-! ### Loading it -/

theorem load_some_of_holds (holds : Holds fs path document) (directory : String) :
    load fs (some path) directory =
      ⟨.ok (ofDocument document).value, .configLoading path :: (ofDocument document).events⟩ := by
  simp only [load, readFile_of_holds holds]
  exact congrArg (Logged.mk _) (List.append_nil _)

theorem load_some_of_fails (fails : Fails fs path fault) (directory : String) :
    load fs (some path) directory = ⟨.error (.config path fault), [.configLoading path]⟩ := by
  simp only [load, readFile_of_fails fails]
  rfl

theorem load_none_of_holds (holds : Holds fs (FileSystem.Path.join directory fileName) document) :
    load fs none directory = ⟨.ok (ofDocument document).value,
      .configLoading (FileSystem.Path.join directory fileName) ::
        (ofDocument document).events⟩ := by
  obtain ⟨text, content, parsed⟩ := holds
  simp only [load, isFile_of_read content, if_true, readFile_of_holds ⟨text, content, parsed⟩]
  exact congrArg (Logged.mk _) (List.append_nil _)

theorem load_none_of_fails (fails : Fails fs (FileSystem.Path.join directory fileName) fault) :
    load fs none directory = ⟨.ok default,
      if fs.isFile (FileSystem.Path.join directory fileName) then
        [.configLoading (FileSystem.Path.join directory fileName),
          .configIgnored (FileSystem.Path.join directory fileName) fault]
      else []⟩ := by
  cases isThere : fs.isFile (FileSystem.Path.join directory fileName) <;>
    simp only [load, isThere, readFile_of_fails fails] <;> rfl

theorem load_some_eq_ok_iff : (load fs (some path) directory).value = .ok config ↔
    ∃ document, Holds fs path document ∧ config = (ofDocument document).value := by
  constructor
  · intro loaded
    rcases holds_or_fails fs path with ⟨document, holds⟩ | ⟨fault, fails⟩
    · rw [load_some_of_holds holds] at loaded
      exact ⟨document, holds, (Except.ok.inj loaded).symm⟩
    · rw [load_some_of_fails fails] at loaded
      cases loaded
  · rintro ⟨document, holds, rfl⟩
    rw [load_some_of_holds holds]

theorem load_some_eq_error_iff : (load fs (some path) directory).value = .error error ↔
    ∃ fault, Fails fs path fault ∧ error = .config path fault := by
  constructor
  · intro failed
    rcases holds_or_fails fs path with ⟨document, holds⟩ | ⟨fault, fails⟩
    · rw [load_some_of_holds holds] at failed
      cases failed
    · rw [load_some_of_fails fails] at failed
      exact ⟨fault, fails, (Except.error.inj failed).symm⟩
  · rintro ⟨fault, fails, rfl⟩
    rw [load_some_of_fails fails]

/-- A file that is asked for fails exactly if it does not read as UTF-8 or its text is not TOML, and
the error names its path. The file of a directory gives what it gives when it is asked for. Where it
fails, the defaults apply as they are, and that is reported if it is a file. -/
theorem load_agrees (fs : FileSystem) (directory : String) :
    (∃ config, (load fs none directory).value = .ok config) ∧
    (∀ path, ((∃ error, (load fs (some path) directory).value = .error error) ↔
          ¬ ∃ text, fs.read path = .ok (String.toUTF8 text) ∧
            ∃ document, Toml.document? text = some document) ∧
        (∀ error, (load fs (some path) directory).value = .error error →
          ∃ fault, Fails fs path fault ∧ error = .config path fault) ∧
        ∀ other, load fs (some path) other = load fs (some path) directory) ∧
    ∀ own, own = FileSystem.Path.join directory fileName →
      (∀ config, (load fs (some own) directory).value = .ok config →
        load fs none directory = load fs (some own) directory) ∧
      ∀ error, (load fs (some own) directory).value = .error error →
        (load fs none directory).value = .ok default ∧
        ((load fs none directory).events.filter
            (·.message = "Ignoring unreadable config")).length =
          (if fs.isFile own then 1 else 0) ∧
        ∃ fault, error = .config own fault ∧ (load fs none directory).events =
          if fs.isFile own then [.configLoading own, .configIgnored own fault] else [] := by
  refine ⟨?total, fun path => ⟨?fails, fun error failed => load_some_eq_error_iff.mp failed,
    fun other => rfl⟩, ?own⟩
  case total =>
    rcases holds_or_fails fs (FileSystem.Path.join directory fileName) with
      ⟨document, holds⟩ | ⟨fault, fails⟩
    · exact ⟨_, congrArg Logged.value (load_none_of_holds holds)⟩
    · exact ⟨_, congrArg Logged.value (load_none_of_fails fails)⟩
  case fails =>
    constructor
    · rintro ⟨error, failed⟩ ⟨text, content, document, parsed⟩
      rw [load_some_of_holds ⟨text, content, parsed⟩] at failed
      cases failed
    · intro noDocument
      rcases holds_or_fails fs path with ⟨document, text, content, parsed⟩ | ⟨fault, fails⟩
      · exact absurd ⟨text, content, document, parsed⟩ noDocument
      · exact ⟨_, congrArg Logged.value (load_some_of_fails fails directory)⟩
  case own =>
    rintro own rfl
    constructor
    · intro config loaded
      obtain ⟨document, holds, -⟩ := load_some_eq_ok_iff.mp loaded
      rw [load_none_of_holds holds, load_some_of_holds holds]
    · intro error failed
      obtain ⟨fault, fails, rfl⟩ := load_some_eq_error_iff.mp failed
      rw [load_none_of_fails fails]
      refine ⟨rfl, ?_, fault, rfl, rfl⟩
      cases fs.isFile (FileSystem.Path.join directory fileName) <;> rfl

end LuaDecl.ScanConfig
