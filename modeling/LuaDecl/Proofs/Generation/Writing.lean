import LuaDecl.Generation
import LuaDecl.Proofs.FileSystem.Making
import Mathlib.Data.List.Basic

/-!
# Writing the stub file

To write a text to a path changes one file or none (`writeFile_changes_noOther`). If it succeeds,
the path holds the text, and can be written again. If it fails before the file is opened, every file
is as it was. Behind that the file is empty already, and it keeps as much of the text as its device
takes, so that a full disk costs the old content (`writeFile_not_allOrNothing`). Either way the rest
of the tree stays, but for directories that were missing above the path.
-/

namespace LuaDecl.Generation

open FileSystem

variable {fs before middle after : FileSystem} {path text : String} {error : RunError}
  {written : Option Location}

/-- The errors of writing to a path: the directory that it is in cannot be made, or the file itself
cannot be written. -/
inductive FailsToWrite (path : String) : RunError → Prop
  | directory {parent fault} : Path.parent? path = some parent →
      FailsToWrite path (.createDirectory parent fault)
  | file {fault} : FailsToWrite path (.write path fault)

/-- From one tree to the other every file, link and directory stays, but for the content of the file
at the given location. New are only that file and directories that paths above the path lead to. -/
structure AddsOnly (before after : FileSystem) (path : String) (written : Option Location) :
    Prop where
  workingDirectory : after.workingDirectory = before.workingDirectory
  file : ∀ location content, written ≠ some location →
    (after.entryAt? location = some (.file content) ↔
      before.entryAt? location = some (.file content))
  link : ∀ location target, after.entryAt? location = some (.link target) ↔
    before.entryAt? location = some (.link target)
  directory : ∀ location children, before.entryAt? location = some (.directory children) →
    ∃ others, after.entryAt? location = some (.directory others)
  added : ∀ location, before.entryAt? location = none → after.entryAt? location ≠ none →
    written = some location ∨ ∃ above children, Path.IsAbove above path ∧
      after.resolve above = .ok (.present location (.directory children))

/-! ### The directory that a path is in -/

/-- For one path no directory is ever made; for another always the same, with what is missing above
it. -/
theorem makeParent_cases (path : String) : (∀ fs, makeParent fs path = (fs, .ok ())) ∨
    ∃ parent, Path.parent? path = some parent ∧ parent.isEmpty = false ∧
      ∀ fs, makeParent fs path = ((fs.makeDirectories parent).1,
        (fs.makeDirectories parent).2.mapError (.createDirectory parent)) := by
  cases found : Path.parent? path with
  | none => exact Or.inl fun fs => by rw [makeParent, found]
  | some parent =>
    cases spelled : parent.isEmpty with
    | true => exact Or.inl fun fs => by simp only [makeParent, found, spelled, if_true]
    | false =>
      refine Or.inr ⟨parent, rfl, spelled, fun fs => ?_⟩
      simp only [makeParent, found, spelled, Bool.false_eq_true, if_false]
      cases fs.makeDirectories parent with
      | mk after result => cases result <;> rfl

theorem grows_makeParent (fs : FileSystem) (path : String) :
    Grows fs (makeParent fs path).1 none := by
  rcases makeParent_cases path with stays | ⟨parent, -, -, made⟩
  · exact stays fs ▸ .refl fs
  · exact made fs ▸ grows_makeDirectories fs parent

/-- Where the directory that a path is in cannot be made, the error names that directory. -/
theorem failsToWrite_of_makeParent (fails : makeParent fs path = (after, .error error)) :
    FailsToWrite path error := by
  rcases makeParent_cases path with stays | ⟨parent, found, -, made⟩
  · rw [stays] at fails
    cases (Prod.mk.inj fails).2
  · rw [made] at fails
    cases result : (fs.makeDirectories parent).2 with
    | ok _ =>
      rw [result] at fails
      cases (Prod.mk.inj fails).2
    | error fault =>
      rw [result] at fails
      obtain rfl := Except.error.inj (Prod.mk.inj fails).2
      exact .directory found

/-- What is new when the directory that a path is in is made are directories above the path. -/
theorem added_makeParent {location : Location} (free : fs.entryAt? location = none)
    (added : (makeParent fs path).1.entryAt? location ≠ none) :
    ∃ above children, Path.IsAbove above path ∧
      (makeParent fs path).1.resolve above = .ok (.present location (.directory children)) := by
  rcases makeParent_cases path with stays | ⟨parent, found, spelled, made⟩
  · rw [stays] at added
    exact absurd free added
  · rw [made] at added ⊢
    obtain ⟨own, higher, children, resolved⟩ := added_makeDirectories free added
    refine ⟨own, children, ?_, resolved⟩
    rcases higher with rfl | higher
    · exact .parent found spelled
    · exact .further found spelled higher

/-- When the directory that a path is in has been made, to make it again changes nothing. -/
theorem makeParent_again (succeeds : makeParent fs path = (middle, .ok ()))
    (grown : Grows middle after written) : makeParent after path = (after, .ok ()) := by
  rcases makeParent_cases path with stays | ⟨parent, -, -, made⟩
  · exact stays after
  · rw [made] at succeeds ⊢
    cases result : fs.makeDirectories parent with
    | mk there outcome =>
      rw [result] at succeeds
      obtain ⟨rfl, ends⟩ := Prod.mk.inj succeeds
      cases outcome with
      | error fault => cases ends
      | ok _ =>
        obtain ⟨top, children, resolved⟩ :=
          isDirectory_iff.mp (isDirectory_of_makeDirectories result)
        obtain ⟨others, stays⟩ := grown.resolve_directory resolved
        rw [makeDirectories_of_isDirectory (isDirectory_iff.mpr ⟨top, others, stays⟩)]
        rfl

/-! ### The file -/

theorem limit_makeParent (fs : FileSystem) (path : String) :
    (makeParent fs path).1.limit = fs.limit := by
  rcases makeParent_cases path with stays | ⟨parent, -, -, made⟩
  · rw [stays]
  · rw [made]
    exact limit_makeDirectories fs parent

/-- Once the directory is there, the file is all that is left to write. -/
theorem writeFile_of_makeParent (made : makeParent fs path = (middle, .ok ())) (text : String) :
    writeFile fs path text = ((middle.write path text.toUTF8).1,
      (middle.write path text.toUTF8).2.mapError (.write path)) := by
  simp only [writeFile, made]
  cases middle.write path text.toUTF8 with
  | mk after result => cases result <;> rfl

/-- Writing ends before the file is opened, with an error and with what was made for the directory
that the path is in, or it fills the file. -/
theorem writeFile_cases (fs : FileSystem) (path text : String) :
    (∃ error, writeFile fs path text = ((makeParent fs path).1, .error error) ∧
      FailsToWrite path error) ∨
      ∃ middle after place part result, makeParent fs path = (middle, .ok ()) ∧
        writeFile fs path text = (after, result.mapError (.write path)) ∧
        Fills middle after path text.toUTF8 place part result := by
  cases made : makeParent fs path with
  | mk middle outcome =>
    cases outcome with
    | error error =>
      refine Or.inl ⟨error, ?_, failsToWrite_of_makeParent made⟩
      rw [writeFile, made]
    | ok _ =>
      have rest := writeFile_of_makeParent made text
      rcases write_cases middle path text.toUTF8 with
        ⟨fault, refused⟩ | ⟨after, place, part, result, writes, filled⟩
      · rw [refused] at rest
        exact Or.inl ⟨_, rest, .file⟩
      · rw [writes] at rest
        exact Or.inr ⟨middle, after, place, part, result, rfl, rest, filled⟩

theorem failsToWrite_of_writeFile (fails : writeFile fs path text = (after, .error error)) :
    FailsToWrite path error := by
  rcases writeFile_cases fs path text with
    ⟨own, refused, named⟩ | ⟨_, _, _, _, result, -, writes, -⟩
  · rw [refused] at fails
    obtain rfl := Except.error.inj (Prod.mk.inj fails).2
    exact named
  · rw [writes] at fails
    cases result with
    | ok _ => cases (Prod.mk.inj fails).2
    | error fault =>
      obtain rfl := Except.error.inj (Prod.mk.inj fails).2
      exact .file

/-- A tree that has grown has only been added to, if what is new is known. -/
theorem AddsOnly.of_grows (grown : Grows before after written)
    (added : ∀ location, before.entryAt? location = none → after.entryAt? location ≠ none →
      written = some location ∨ ∃ above children, Path.IsAbove above path ∧
        after.resolve above = .ok (.present location (.directory children))) :
    AddsOnly before after path written where
  workingDirectory := grown.workingDirectory
  file := fun _ _ apart => grown.file_iff apart
  link := fun _ _ => ⟨grown.of_link, grown.link⟩
  directory := fun _ _ there => grown.exists_directory there
  added := added

theorem addsOnly_makeParent (fs : FileSystem) (path : String) :
    AddsOnly fs (makeParent fs path).1 path none :=
  .of_grows (grows_makeParent fs path) fun _ free added => Or.inr (added_makeParent free added)

variable {place : Place} {part : ByteArray} {result : Except Fault Unit}

/-- Where a file is filled, nothing is new but that file and directories above the path. -/
theorem addsOnly_of_fills (made : makeParent fs path = (middle, .ok ()))
    (filled : Fills middle after path text.toUTF8 place part result) :
    AddsOnly fs after path (some place.location) := by
  obtain rfl : (makeParent fs path).1 = middle := congrArg Prod.fst made
  refine .of_grows ((grows_makeParent fs path).trans filled.grown) fun location free added => ?_
  by_cases here : location = place.location
  · exact Or.inl (congrArg some here.symm)
  · have earlier : (makeParent fs path).1.entryAt? location ≠ none := by
      rw [Ne, ← bareAt?_eq_none_iff] at added ⊢
      rwa [filled.others location here] at added
    obtain ⟨own, children, higher, resolved⟩ := added_makeParent free earlier
    obtain ⟨more, stays⟩ := filled.grown.resolve_directory resolved
    exact Or.inr ⟨own, more, higher, stays⟩

/-! ### Writes that are cut short -/

/-- The file was opened, and its device took only the first bytes of the text. They are left in it.
-/
def CutShort (before after : FileSystem) (path text : String) (error : RunError) : Prop :=
  ∃ written limit, before.limit written = some limit ∧ limit.bytes < text.utf8ByteSize ∧
    error = .write path (.device limit.fault) ∧
    after.resolve path =
      .ok (.present written (.file (text.toUTF8.extract 0 limit.bytes))) ∧
    AddsOnly before after path (some written)

/-- What a file was filled with: the whole text, or as much as its device took. -/
theorem outcome_of_fills (made : makeParent fs path = (middle, .ok ()))
    (filled : Fills middle after path text.toUTF8 place part result) :
    match result.mapError (RunError.write path) with
    | .ok () => after.resolve path = .ok (.present place.location (.file text.toUTF8))
    | .error error => CutShort fs after path text error := by
  have same : middle.limit = fs.limit := by
    have kept := limit_makeParent fs path
    rwa [made] at kept
  have resolved := filled.resolve
  have added := addsOnly_of_fills made filled
  cases filled.stored with
  | whole _ => exact resolved
  | cut limited less => exact ⟨_, _, same ▸ limited, less, rfl, resolved, added⟩

/-- The path of a file that was filled can be written again, and the text is cut short if that is
more than the device takes by then. -/
theorem writeFile_again (made : makeParent fs path = (middle, .ok ()))
    (filled : Fills middle after path text.toUTF8 place part result)
    (limit : Location → Option Limit) (other : String) :
    match writeFile { after with limit } path other with
    | (last, .ok ()) => last.read path = .ok other.toUTF8
    | (last, .error error) => CutShort { after with limit } last path other error := by
  have there := makeParent_again made (filled.grown.withLimit limit)
  obtain ⟨last, place, part, again, writes, refilled⟩ := filled.again limit other.toUTF8
  have outcome := outcome_of_fills there refilled
  rw [writeFile_of_makeParent there, writes]
  cases again with
  | ok _ => exact read_eq_ok_iff.mpr ⟨_, outcome⟩
  | error fault => exact outcome

/-- A file is written where its path leads. If it cannot be, directories may have been made. -/
theorem grows_writeFile (fs : FileSystem) (path text : String) :
    match writeFile fs path text with
    | (after, .ok ()) => ∃ written, Grows fs after (some written) ∧
        after.resolve path = .ok (.present written (.file text.toUTF8))
    | (after, .error error) => Grows fs after none ∨ CutShort fs after path text error := by
  have made := grows_makeParent fs path
  rcases writeFile_cases fs path text with
    ⟨error, fails, -⟩ | ⟨middle, after, place, part, result, parent, writes, filled⟩
  · rw [fails]
    exact Or.inl made
  · have outcome := outcome_of_fills parent filled
    rw [parent] at made
    rw [writes]
    cases result with
    | ok _ => exact ⟨_, made.trans filled.grown, outcome⟩
    | error fault => exact Or.inr outcome

/-- Writing to a path changes one file or none. If it succeeds, the path holds the text, and to
write there again replaces it. If it fails, every file is as it was, unless the file was opened and
its device did not take all of the text. -/
theorem writeFile_changes_noOther (fs : FileSystem) (path text : String) :
    match writeFile fs path text with
    | (after, .ok ()) =>
      after.read path = .ok text.toUTF8 ∧
        (∃ written, after.resolve path = .ok (.present written (.file text.toUTF8)) ∧
          AddsOnly fs after path (some written)) ∧
        ∀ limit other,
          match writeFile { after with limit } path other with
          | (last, .ok ()) => last.read path = .ok other.toUTF8
          | (last, .error error) => CutShort { after with limit } last path other error
    | (after, .error error) =>
      FailsToWrite path error ∧
        (AddsOnly fs after path none ∧
            (∀ other bytes, fs.read other = .ok bytes → after.read other = .ok bytes) ∨
          CutShort fs after path text error) := by
  rcases writeFile_cases fs path text with
    ⟨error, fails, named⟩ | ⟨middle, after, place, part, result, parent, writes, filled⟩
  · rw [fails]
    refine ⟨named, Or.inl ⟨addsOnly_makeParent fs path, fun other bytes known => ?_⟩⟩
    exact (grows_makeParent fs path).read known
  · have outcome := outcome_of_fills parent filled
    rw [writes]
    cases result with
    | ok _ =>
      have added := addsOnly_of_fills parent filled
      exact ⟨read_eq_ok_iff.mpr ⟨_, outcome⟩, ⟨_, outcome, added⟩, writeFile_again parent filled⟩
    | error fault => exact ⟨.file, Or.inr outcome⟩

/-- Two directories are made for a file. A file in the place of one of them stays as it is. -/
example :
    let bare : FileSystem := { root := [], workingDirectory := [] }
    let blocked : FileSystem := { root := [("a", .file "a".toUTF8)], workingDirectory := [] }
    (writeFile bare "a/b/c.lua" "c").1.read "a/b/c.lua" = .ok "c".toUTF8 ∧
      (writeFile blocked "a/b/c.lua" "c").2 = .error (.createDirectory "a/b" .notDirectory) := by
  decide +kernel

/-- A full disk with a stub file on it that can be replaced but not grow, and with a link to what is
always full. -/
def fullDisk : FileSystem where
  root := [("dev", .directory [("full", .file ByteArray.empty)]), ("o.lua", .link "/dev/full"),
    ("stubs.lua", .file "old".toUTF8)]
  workingDirectory := []
  limit := fun location => some ⟨if location = ["stubs.lua"] then 3 else 0, .noSpace⟩

/-- Writing is not all or nothing. A write that fails replaces the stub file on a full disk by the
first half of the new one, and after a write that succeeds, since there is nothing to write, the
next one to the same path fails. -/
theorem writeFile_not_allOrNothing :
    let replaced := writeFile fullDisk "stubs.lua" "newest"
    let first := writeFile fullDisk "o.lua" ""
    (fullDisk.read "stubs.lua" = .ok "old".toUTF8 ∧
        replaced.2 = .error (.write "stubs.lua" (.device .noSpace)) ∧
        replaced.1.read "stubs.lua" = .ok "new".toUTF8) ∧
      first.2 = .ok () ∧
        (writeFile first.1 "o.lua" "x").2 = .error (.write "o.lua" (.device .noSpace)) := by
  decide +kernel

end LuaDecl.Generation
