import LuaDecl.Proofs.FileSystem.Tidy

/-!
# Passing through directories

Steps that lead to a directory can be followed by more (`Leads.append`), what leads on by a name has
led to a directory before it (`Leads.above`), and steps that stay where they are can be left out
(`Leads.trim`). So a file below a directory is reached by the way to the directory and the names of
its location, and by nothing less. The file that a path leads to, however long the path is, stays
the same while a tree grows (`Grows.fileAt?`).
-/

namespace LuaDecl.FileSystem

variable {fs before after : FileSystem} {intent : Intent} {links : Nat}
  {directory top location : Location} {name : String} {steps more rest : List String}
  {place goal : Place} {entry : Entry} {children : List (String × Entry)}
  {written : Option Location}

/-! ### Ways in parts -/

/-- Steps lead to one place. -/
theorem Leads.unique (first : Leads fs intent links directory steps place)
    (second : Leads fs intent links directory steps goal) : place = goal :=
  Except.ok.inj ((follow_eq_ok_iff.mpr first).symm.trans (follow_eq_ok_iff.mpr second))

/-- From a directory that steps lead to, more steps lead on, if they need no links. -/
theorem Leads.append (first : Leads fs .reach links directory steps place)
    (ends : place = .present top (.directory children))
    (second : ∀ links, Leads fs .reach links top more goal) :
    Leads fs .reach links directory (steps ++ more) goal := by
  induction first with
  | arrive _ =>
    obtain ⟨rfl, -⟩ := Place.present.inj ends
    exact second _
  | stay stays _ ih => exact .stay stays (ih ends)
  | up _ ih => exact .up (ih ends)
  | free _ _ _ => cases ends
  | enter clear there _ ih => exact .enter clear.proper.clear there (ih ends)
  | file _ _ => cases ends
  | link _ _ _ => cases ends
  | through clear there _ spelled _ ih =>
    have further := ih ends
    rw [List.append_assoc] at further
    exact .through clear.proper.clear there (by simp) spelled further

/-- Before a name, steps have led to a directory. -/
theorem Leads.above (ordinary : IsOrdinary name)
    (leads : Leads fs .reach links directory (steps ++ name :: more) place) :
    ∃ top children, Leads fs .reach links directory steps (.present top (.directory children)) := by
  generalize equal : steps ++ name :: more = whole at leads
  -- At the name itself, what stands there stands in a directory.
  have here {links : Nat} {directory : Location} {entry : Entry}
      (there : fs.entryAt? (directory ++ [name]) = some entry) :
      ∃ top children, Leads fs .reach links directory [] (.present top (.directory children)) := by
    obtain ⟨children, child, above, -, -⟩ := exists_directory_of_entryAt?_cons there
    exact ⟨directory, children, .arrive above⟩
  induction leads generalizing steps with
  | arrive _ => simp at equal
  | stay stays _ ih =>
    cases steps with
    | nil =>
      obtain ⟨rfl, -⟩ := List.cons.inj equal
      exact absurd stays (not_or.mpr ⟨ordinary.notEmpty, ordinary.notDot⟩)
    | cons first steps =>
      obtain ⟨rfl, later⟩ := List.cons.inj equal
      obtain ⟨top, children, led⟩ := ih later
      exact ⟨top, children, .stay stays led⟩
  | up _ ih =>
    cases steps with
    | nil =>
      obtain ⟨rfl, -⟩ := List.cons.inj equal
      exact absurd rfl ordinary.notDots
    | cons first steps =>
      obtain ⟨rfl, later⟩ := List.cons.inj equal
      obtain ⟨top, children, led⟩ := ih later
      exact ⟨top, children, .up led⟩
  | @free _ directory _ _ _ above =>
    cases steps with
    | nil =>
      obtain ⟨children, stands⟩ := holdsDirectory_iff.mp above
      exact ⟨directory, children, .arrive stands⟩
    | cons first steps => simp at equal
  | enter clear there _ ih =>
    cases steps with
    | nil =>
      obtain ⟨rfl, -⟩ := List.cons.inj equal
      exact here there
    | cons first steps =>
      obtain ⟨rfl, later⟩ := List.cons.inj equal
      obtain ⟨top, children, led⟩ := ih later
      exact ⟨top, children, .enter clear.proper.clear there led⟩
  | file _ there =>
    cases steps with
    | nil =>
      obtain ⟨rfl, -⟩ := List.cons.inj equal
      exact here there
    | cons first steps => simp at equal
  | link _ _ inspects => cases inspects
  | through clear there _ spelled _ ih =>
    cases steps with
    | nil =>
      obtain ⟨rfl, -⟩ := List.cons.inj equal
      exact here there
    | cons first steps =>
      obtain ⟨rfl, later⟩ := List.cons.inj equal
      obtain ⟨top, children, led⟩ := ih ((List.append_assoc _ _ _).trans (congrArg _ later))
      exact ⟨top, children, .through clear.proper.clear there (by simp) spelled led⟩

/-- The names of its location lead down to an entry that is no link. -/
theorem IsTidy.leads_down (tidy : fs.IsTidy) (there : fs.entryAt? (top ++ location) = some entry)
    (plain : ∀ target, entry ≠ .link target) :
    Leads fs .reach links top location (.present (top ++ location) entry) := by
  induction location generalizing top with
  | nil =>
    rw [List.append_nil] at there ⊢
    exact .arrive there
  | cons name rest ih =>
    have clear {more : List String} : IsClear .reach top name more :=
      (tidy.isName_of_entryAt? there).proper.clear
    have whole : top ++ name :: rest = top ++ [name] ++ rest := by simp
    rw [whole] at there ⊢
    cases rest with
    | nil =>
      rw [List.append_nil] at there ⊢
      cases entry with
      | file content => exact .file clear there
      | link target => exact absurd rfl (plain target)
      | directory children => exact .enter clear there (.arrive there)
    | cons second rest =>
      obtain ⟨children, child, above, -, -⟩ := exists_directory_of_entryAt?_cons there
      exact .enter clear above (ih there)

/-! ### Steps that stay -/

/-- The second steps are the first without some that stay where they are. -/
inductive Trims : List String → List String → Prop
  | nil : Trims [] []
  | keep {name first second} : Trims first second → Trims (name :: first) (name :: second)
  | drop {name first second} : name = "" ∨ name = "." → Trims first second →
      Trims (name :: first) second

theorem Trims.append_left {first second : List String} (front : List String)
    (h : Trims first second) : Trims (front ++ first) (front ++ second) := by
  induction front with
  | nil => exact h
  | cons name front ih => exact .keep ih

/-- Behind a name that is looked up, what stays can be left out. -/
theorem Trims.of_ordinary {second : List String} (ordinary : IsOrdinary name)
    (h : Trims (name :: rest) second) : ∃ later, second = name :: later ∧ Trims rest later := by
  cases h with
  | keep h => exact ⟨_, rfl, h⟩
  | drop stays _ => exact absurd stays (not_or.mpr ⟨ordinary.notEmpty, ordinary.notDot⟩)

theorem Trims.eq_nil {second : List String} (h : Trims [] second) : second = [] := by
  cases h
  rfl

/-- Without steps that stay, a path leads where it did. -/
theorem Leads.trim {second : List String} (leads : Leads fs .reach links directory steps place)
    (trims : Trims steps second) : Leads fs .reach links directory second place := by
  induction leads generalizing second with
  | arrive there => exact trims.eq_nil ▸ .arrive there
  | stay stays _ ih =>
    cases trims with
    | keep trims => exact .stay stays (ih trims)
    | drop _ trims => exact ih trims
  | up _ ih =>
    cases trims with
    | keep trims => exact .up (ih trims)
    | drop stays _ => exact absurd stays (by decide)
  | free clear vacant above =>
    obtain ⟨later, rfl, others⟩ := trims.of_ordinary clear.ordinary
    obtain rfl := others.eq_nil
    exact .free clear vacant above
  | enter clear there _ ih =>
    obtain ⟨later, rfl, others⟩ := trims.of_ordinary clear.ordinary
    exact .enter clear.proper.clear there (ih others)
  | file clear there =>
    obtain ⟨later, rfl, others⟩ := trims.of_ordinary clear.ordinary
    obtain rfl := others.eq_nil
    exact .file clear there
  | link _ _ inspects => cases inspects
  | through clear there _ spelled _ ih =>
    obtain ⟨later, rfl, others⟩ := trims.of_ordinary clear.ordinary
    exact .through clear.proper.clear there (by simp) spelled (ih (others.append_left _))

theorem trims_filter {keeps : String → Bool}
    (stays : ∀ name ∈ steps, keeps name = false → name = "" ∨ name = ".") :
    Trims steps (steps.filter keeps) := by
  induction steps with
  | nil => exact .nil
  | cons name rest ih =>
    obtain ⟨first, others⟩ := List.forall_mem_cons.mp stays
    cases kept : keeps name with
    | true =>
      rw [List.filter_cons_of_pos kept]
      exact .keep (ih others)
    | false =>
      rw [List.filter_cons_of_neg (by simp [kept])]
      exact .drop (first kept) (ih others)

/-- The slash at the end of a path is a step that stays. -/
theorem trims_names (path : String) : Trims (Path.steps path) (Path.names path) := by
  have kept : (Path.steps path).filter (· ≠ "") = Path.names path := by
    have names : (Path.names path).filter (· ≠ "") = Path.names path := by
      refine List.filter_eq_self.mpr fun name member => ?_
      exact decide_eq_true (Path.ne_empty_of_mem_names member)
    rw [Path.steps, List.filter_append, names]
    split <;> simp
  rw [← kept]
  refine trims_filter fun name _ dropped => Or.inl ?_
  simpa using dropped

/-- The names of a path to a directory lead there, and so do its steps: the slash at its end changes
nothing. -/
theorem Leads.steps_of_names {path : String}
    (leads : Leads fs .reach links directory (Path.names path)
      (.present top (.directory children))) :
    Leads fs .reach links directory (Path.steps path) (.present top (.directory children)) := by
  have stands : fs.entryAt? top = some (.directory children) := leads.isIn
  refine leads.append rfl fun links => ?_
  split
  · exact .stay (Or.inl rfl) (.arrive stands)
  · exact .arrive stands

/-- At the end of a path to a directory stands something to inspect, the directory or a link. -/
theorem Leads.inspect (leads : Leads fs .reach links directory steps place)
    (ends : place = .present top (.directory children)) :
    ∃ location entry, Leads fs .inspect links directory steps (.present location entry) := by
  induction leads with
  | arrive there => exact ⟨_, _, .arrive there⟩
  | stay stays _ ih =>
    obtain ⟨location, entry, led⟩ := ih ends
    exact ⟨location, entry, .stay stays led⟩
  | up _ ih =>
    obtain ⟨location, entry, led⟩ := ih ends
    exact ⟨location, entry, .up led⟩
  | free _ _ _ => cases ends
  | enter clear there _ ih =>
    obtain ⟨location, entry, led⟩ := ih ends
    exact ⟨location, entry, .enter clear.proper.clear_inspect there led⟩
  | file _ _ => cases ends
  | link _ _ inspects => cases inspects
  | @through _ _ _ rest _ _ clear there _ spelled _ ih =>
    by_cases last : rest = []
    · subst last
      exact ⟨_, _, .link clear.proper.clear_inspect there rfl⟩
    · obtain ⟨location, entry, led⟩ := ih ends
      have on : ¬ (rest = [] ∧ Intent.inspect = .inspect) := fun ends => last ends.1
      exact ⟨location, entry, .through clear.proper.clear_inspect there on spelled led⟩

/-! ### Files that paths lead to -/

/-- The location of the file that a path leads to, however long the path is. -/
def fileAt? (fs : FileSystem) (path : String) : Option Location :=
  match fs.follow .reach linkLimit (startOf fs.workingDirectory path) (Path.steps path) with
  | .ok (.present location (.file _)) => some location
  | _ => none

theorem fileAt?_eq_some_iff {path : String} : fs.fileAt? path = some location ↔
    ∃ content, Leads fs .reach linkLimit (startOf fs.workingDirectory path) (Path.steps path)
      (.present location (.file content)) := by
  unfold fileAt?
  constructor
  · intro found
    split at found
    · next content followed =>
      obtain rfl := Option.some.inj found
      exact ⟨content, follow_eq_ok_iff.mp followed⟩
    · cases found
  · rintro ⟨content, leads⟩
    rw [follow_eq_ok_iff.mpr leads]

theorem resolve_eq_ok_iff {path : String} : fs.resolve path = .ok place ↔
    IsUsable path ∧
      Leads fs .reach linkLimit (startOf fs.workingDirectory path) (Path.steps path) place :=
  followPath_eq_ok_iff (by decide)

theorem isFile_iff {path : String} : fs.isFile path = true ↔
    IsUsable path ∧ ∃ location, fs.fileAt? path = some location := by
  unfold isFile
  constructor
  · intro found
    split at found
    · next location content resolved =>
      obtain ⟨usable, leads⟩ := resolve_eq_ok_iff.mp resolved
      exact ⟨usable, location, fileAt?_eq_some_iff.mpr ⟨content, leads⟩⟩
    · cases found
  · rintro ⟨usable, location, found⟩
    obtain ⟨content, leads⟩ := fileAt?_eq_some_iff.mp found
    rw [resolve_eq_ok_iff.mpr ⟨usable, leads⟩]

/-- A file stays where its path leads. -/
theorem Grows.fileAt? {path : String} (grown : Grows before after written)
    (found : before.fileAt? path = some location) : after.fileAt? path = some location := by
  obtain ⟨content, leads⟩ := fileAt?_eq_some_iff.mp found
  obtain ⟨new, stands⟩ := grown.exists_file leads.isIn
  refine fileAt?_eq_some_iff.mpr ⟨new, ?_⟩
  rw [grown.workingDirectory]
  exact grown.leads leads stands

/-- A directory stays where its path leads. -/
theorem Grows.resolve_directory {path : String} (grown : Grows before after written)
    (resolved : before.resolve path = .ok (.present top (.directory children))) :
    ∃ others, after.resolve path = .ok (.present top (.directory others)) := by
  obtain ⟨usable, leads⟩ := resolve_eq_ok_iff.mp resolved
  obtain ⟨others, stands⟩ := grown.exists_directory leads.isIn
  exact ⟨others, grown.resolve_of_leads usable leads stands⟩

/-- Where steps lead to a file, spelling their way goes the same in a tree that has grown: it ends
at the file, or at a location that is too long. -/
theorem Grows.follow_spell (grown : Grows before after written) {content : ByteArray}
    (leads : Leads before .reach links directory steps place)
    (ends : place = .present location (.file content)) :
    (∃ old new, before.follow .spell links directory steps = .ok (.present location old) ∧
        after.follow .spell links directory steps = .ok (.present location new)) ∨
      ∃ fault, before.follow .spell links directory steps = .error fault ∧
        after.follow .spell links directory steps = .error fault := by
  induction leads with
  | arrive there =>
    obtain ⟨rfl, rfl⟩ := Place.present.inj ends
    obtain ⟨new, stands⟩ := grown.exists_file there
    exact Or.inl ⟨_, _, follow_nil there, follow_nil stands⟩
  | stay stays _ ih => simpa only [follow_stay stays] using ih ends
  | up _ ih => simpa only [follow_up] using ih ends
  | free _ _ _ => cases ends
  | @enter _ directory name rest _ _ clear there _ ih =>
    obtain ⟨others, stands⟩ := grown.exists_directory there
    simp only [follow_name clear.ordinary, there, stands]
    cases obstacle? .spell directory name rest with
    | some fault => exact Or.inr ⟨fault, rfl, rfl⟩
    | none => exact ih ends
  | @file _ directory name _ clear there =>
    obtain ⟨rfl, -⟩ := Place.present.inj ends
    obtain ⟨new, stands⟩ := grown.exists_file there
    simp only [follow_name clear.ordinary, there, stands, if_true]
    cases obstacle? .spell directory name [] with
    | some fault => exact Or.inr ⟨fault, rfl, rfl⟩
    | none => exact Or.inl ⟨_, _, rfl, rfl⟩
  | link _ _ inspects => cases inspects
  | @through _ directory name rest _ _ clear there _ spelled _ ih =>
    simp only [follow_name clear.ordinary, there, grown.link there, reduceCtorEq, and_false,
      if_false, followLink, spelled, Bool.false_eq_true]
    cases obstacle? .spell directory name rest with
    | some fault => exact Or.inr ⟨fault, rfl, rfl⟩
    | none => exact ih ends

theorem locate?_eq_some_iff {path : String} : fs.locate? path = some location ↔
    path.toList.contains '\x00' = false ∧ path.isEmpty = false ∧
      ∃ entry, fs.follow .spell linkLimit (startOf fs.workingDirectory path) (Path.steps path) =
        .ok (.present location entry) := by
  have anyLength : ¬ (Intent.spell ≠ .spell ∧ pathLimit ≤ path.utf8ByteSize) := fun h => h.1 rfl
  have unfolded : ¬ path.toList.contains '\x00' = true → ¬ path.isEmpty = true →
      fs.followPath .spell path (Path.steps path) =
        fs.follow .spell linkLimit (startOf fs.workingDirectory path) (Path.steps path) := by
    intro noNul notEmpty
    rw [followPath, if_neg noNul, if_neg notEmpty, if_neg anyLength]
    rfl
  constructor
  · intro located
    unfold locate? at located
    split at located
    · next entry followed =>
      obtain rfl := Option.some.inj located
      by_cases nul : path.toList.contains '\x00' = true
      · rw [followPath, if_pos nul] at followed
        cases followed
      by_cases empty : path.isEmpty = true
      · rw [followPath, if_neg nul, if_pos empty] at followed
        cases followed
      rw [unfolded nul empty] at followed
      exact ⟨Bool.eq_false_iff.mpr nul, Bool.eq_false_iff.mpr empty, entry, followed⟩
    · cases located
  · rintro ⟨noNul, notEmpty, entry, followed⟩
    rw [locate?, unfolded (Bool.eq_false_iff.mp noNul) (Bool.eq_false_iff.mp notEmpty), followed]

/-- A location that can be spelled is the one that the path leads to. -/
theorem eq_of_locate? {path : String} {spelled : Location} (found : fs.fileAt? path = some location)
    (located : fs.locate? path = some spelled) : spelled = location := by
  obtain ⟨content, leads⟩ := fileAt?_eq_some_iff.mp found
  obtain ⟨-, -, entry, followed⟩ := locate?_eq_some_iff.mp located
  have spells := (follow_eq_ok_iff.mp followed).reach (by nofun)
  exact (Place.present.inj (spells.unique leads)).1

/-- The location of a file can be spelled as it could before. -/
theorem Grows.locate? {path : String} (grown : Grows before after written)
    (found : before.fileAt? path = some location) : after.locate? path = before.locate? path := by
  obtain ⟨content, leads⟩ := fileAt?_eq_some_iff.mp found
  apply Option.ext
  intro other
  rw [locate?_eq_some_iff, locate?_eq_some_iff, grown.workingDirectory]
  rcases grown.follow_spell leads rfl with ⟨old, new, stood, stands⟩ | ⟨fault, failed, fails⟩
  · simp [stood, stands]
  · simp [failed, fails]

theorem resolve_of_fileAt? {path : String} {content : ByteArray} (usable : IsUsable path)
    (found : fs.fileAt? path = some location)
    (there : fs.entryAt? location = some (.file content)) :
    fs.resolve path = .ok (.present location (.file content)) := by
  obtain ⟨own, leads⟩ := fileAt?_eq_some_iff.mp found
  obtain rfl : own = content := by
    have stands : fs.entryAt? location = some (.file own) := leads.isIn
    simpa [stands] using there
  exact resolve_eq_ok_iff.mpr ⟨usable, leads⟩

theorem fileAt?_of_resolve {path : String} {content : ByteArray}
    (resolved : fs.resolve path = .ok (.present location (.file content))) :
    fs.fileAt? path = some location :=
  fileAt?_eq_some_iff.mpr ⟨content, (resolve_eq_ok_iff.mp resolved).2⟩

/-! ### Reading -/

/-- What is read is the content of the file that the path leads to. -/
theorem read_eq_ok_iff {path : String} {content : ByteArray} : fs.read path = .ok content ↔
    ∃ location, fs.resolve path = .ok (.present location (.file content)) := by
  unfold read
  constructor
  · intro known
    split at known
    · next location own resolved => exact ⟨location, Except.ok.inj known ▸ resolved⟩
    all_goals cases known
  · rintro ⟨location, resolved⟩
    rw [resolved]

/-- A path that is none is read in no tree. -/
theorem read_of_not_isUsable (fs : FileSystem) {path : String} (unusable : ¬ IsUsable path) :
    ∃ fault, fs.read path = .error fault := by
  cases resolved : fs.resolve path with
  | error fault => exact ⟨fault, by simp only [read, resolved]⟩
  | ok place => exact absurd (resolve_eq_ok_iff.mp resolved).1 unusable

/-- Where directories were made and no file was written, every file reads as before. -/
theorem Grows.read {path : String} {content : ByteArray} (grown : Grows before after none)
    (known : before.read path = .ok content) : after.read path = .ok content := by
  obtain ⟨location, resolved⟩ := read_eq_ok_iff.mp known
  obtain ⟨usable, leads⟩ := resolve_eq_ok_iff.mp resolved
  have stands : after.entryAt? location = some (.file content) :=
    (grown.file_iff (Option.some_ne_none location).symm).mpr leads.isIn
  exact read_eq_ok_iff.mpr ⟨location, grown.resolve_of_leads usable leads stands⟩

end LuaDecl.FileSystem
