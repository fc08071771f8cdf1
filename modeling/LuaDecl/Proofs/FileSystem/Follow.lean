import LuaDecl.FileSystem.Resolve

/-!
# Steps of a path

What one step does on the way along a path: an empty name or a dot stays, two dots go up, and a name
that is looked up leads to what stands there, unless something about the name itself is in the way.
All that is said of whole ways goes step by step (`follow_induction`). A way ends at what stands at
a location, or at a free name in a directory.
-/

namespace LuaDecl.FileSystem

/-! ### One step -/

section Step

variable {fs : FileSystem} {intent : Intent} {links : Nat} {directory : Location} {name : String}
  {rest : List String}

/-- The name is one that is looked up. -/
structure IsOrdinary (name : String) : Prop where
  notEmpty : name ≠ ""
  notDot : name ≠ "."
  notDots : name ≠ ".."

/-- What is in the way of looking up a name, whatever the file system holds. -/
def obstacle? (intent : Intent) (directory : Location) (name : String) (rest : List String) :
    Option Fault :=
  if intent = .create ∧ rest = [""] then some .isDirectory
  else if nameLimit < name.utf8ByteSize then some .nameTooLong
  else if intent = .spell ∧ pathLimit ≤ (spelling (directory ++ [name])).utf8ByteSize then
    some .nameTooLong
  else none

/-- The directory where a link's target starts. -/
def startOf (directory : Location) (target : String) : Location :=
  if Path.isAbsolute target then [] else directory

/-- Follows the target of a link, and the steps behind the link. -/
def followLink (fs : FileSystem) (intent : Intent) (links : Nat) (directory : Location)
    (target : String) (rest : List String) : Except Fault Place :=
  match links with
  | 0 => .error .tooManyLinks
  | links + 1 =>
    if target.isEmpty then .error .notFound
    else fs.follow intent links (startOf directory target) (Path.steps target ++ rest)

theorem follow_eq_followUntilLink (steps : List String) :
    fs.follow intent links directory steps =
      fs.followUntilLink intent (fs.followLink intent links) directory steps := by
  cases links <;> rfl

theorem follow_stay (h : name = "" ∨ name = ".") :
    fs.follow intent links directory (name :: rest) = fs.follow intent links directory rest := by
  rw [follow_eq_followUntilLink, followUntilLink, if_pos h, follow_eq_followUntilLink]

theorem follow_up : fs.follow intent links directory (".." :: rest) =
    fs.follow intent links directory.dropLast rest := by
  have dots : ¬ ((".." : String) = "" ∨ (".." : String) = ".") := by decide
  rw [follow_eq_followUntilLink, followUntilLink, if_neg dots, if_pos rfl,
    follow_eq_followUntilLink]

/-- A name is looked up if nothing is in the way, and leads to what stands there. -/
theorem follow_name (h : IsOrdinary name) :
    fs.follow intent links directory (name :: rest) =
      match obstacle? intent directory name rest with
      | some fault => .error fault
      | none =>
        match fs.entryAt? (directory ++ [name]) with
        | none =>
          if rest = [] ∧ fs.holdsDirectory directory then .ok (.vacant directory name)
          else .error .notFound
        | some (.directory _) => fs.follow intent links (directory ++ [name]) rest
        | some (.file content) =>
          if rest = [] then .ok (.present (directory ++ [name]) (.file content))
          else .error .notDirectory
        | some (.link target) =>
          if rest = [] ∧ intent = .inspect then
            .ok (.present (directory ++ [name]) (.link target))
          else fs.followLink intent links directory target rest := by
  have stays : ¬ (name = "" ∨ name = ".") := not_or.mpr ⟨h.notEmpty, h.notDot⟩
  simp only [follow_eq_followUntilLink]
  rw [followUntilLink, if_neg stays, if_neg h.notDots, obstacle?]
  split
  · rfl
  · split
    · rfl
    · split
      · rfl
      · rfl

/-- All ways are followed as they are: first the steps up to a link, and then on from there with one
link less. -/
theorem follow_induction {motive : Nat → Location → List String → Prop}
    (arrive : ∀ links directory, motive links directory [])
    (stay : ∀ links directory name rest, name = "" ∨ name = "." → motive links directory rest →
      motive links directory (name :: rest))
    (up : ∀ links directory rest, motive links directory.dropLast rest →
      motive links directory (".." :: rest))
    (look : ∀ links directory name rest, IsOrdinary name → motive links (directory ++ [name]) rest →
      (∀ fewer target, links = fewer + 1 →
        motive fewer (startOf directory target) (Path.steps target ++ rest)) →
      motive links directory (name :: rest))
    (links : Nat) (directory : Location) (steps : List String) : motive links directory steps := by
  induction links generalizing directory steps with
  | zero =>
    induction steps generalizing directory with
    | nil => exact arrive 0 directory
    | cons name rest ih =>
      by_cases stays : name = "" ∨ name = "."
      · exact stay 0 directory name rest stays (ih directory)
      by_cases dots : name = ".."
      · exact dots ▸ up 0 directory rest (ih directory.dropLast)
      obtain ⟨notEmpty, notDot⟩ := not_or.mp stays
      exact look 0 directory name rest ⟨notEmpty, notDot, dots⟩ (ih _) (by simp)
  | succ links before =>
    induction steps generalizing directory with
    | nil => exact arrive (links + 1) directory
    | cons name rest ih =>
      by_cases stays : name = "" ∨ name = "."
      · exact stay (links + 1) directory name rest stays (ih directory)
      by_cases dots : name = ".."
      · exact dots ▸ up (links + 1) directory rest (ih directory.dropLast)
      obtain ⟨notEmpty, notDot⟩ := not_or.mp stays
      refine look (links + 1) directory name rest ⟨notEmpty, notDot, dots⟩ (ih _) ?_
      intro fewer target equal
      obtain rfl : links = fewer := by omega
      exact before _ _

/-! ### Whole ways -/

/-- The name is looked up in the directory, and nothing about it is in the way. -/
structure IsClear (intent : Intent) (directory : Location) (name : String) (rest : List String) :
    Prop where
  ordinary : IsOrdinary name
  noObstacle : obstacle? intent directory name rest = none

end Step

/-- Steps from a directory lead to a place, through at most as many links as given. -/
inductive Leads (fs : FileSystem) (intent : Intent) :
    Nat → Location → List String → Place → Prop where
  | arrive {links directory entry} :
      fs.entryAt? directory = some entry →
      Leads fs intent links directory [] (.present directory entry)
  | stay {links directory name rest place} :
      name = "" ∨ name = "." → Leads fs intent links directory rest place →
      Leads fs intent links directory (name :: rest) place
  | up {links directory rest place} :
      Leads fs intent links directory.dropLast rest place →
      Leads fs intent links directory (".." :: rest) place
  | free {links directory name} :
      IsClear intent directory name [] → fs.entryAt? (directory ++ [name]) = none →
      fs.holdsDirectory directory = true →
      Leads fs intent links directory [name] (.vacant directory name)
  | enter {links directory name rest children place} :
      IsClear intent directory name rest →
      fs.entryAt? (directory ++ [name]) = some (.directory children) →
      Leads fs intent links (directory ++ [name]) rest place →
      Leads fs intent links directory (name :: rest) place
  | file {links directory name content} :
      IsClear intent directory name [] →
      fs.entryAt? (directory ++ [name]) = some (.file content) →
      Leads fs intent links directory [name] (.present (directory ++ [name]) (.file content))
  | link {links directory name target} :
      IsClear intent directory name [] →
      fs.entryAt? (directory ++ [name]) = some (.link target) → intent = .inspect →
      Leads fs intent links directory [name] (.present (directory ++ [name]) (.link target))
  | through {links directory name rest target place} :
      IsClear intent directory name rest →
      fs.entryAt? (directory ++ [name]) = some (.link target) → ¬ (rest = [] ∧ intent = .inspect) →
      target.isEmpty = false →
      Leads fs intent links (startOf directory target) (Path.steps target ++ rest) place →
      Leads fs intent (links + 1) directory (name :: rest) place

variable {fs : FileSystem} {intent : Intent} {links : Nat} {directory : Location} {name : String}
  {rest : List String}

/-- What is followed without a fault leads to where it ends. -/
theorem follow_eq_ok_iff {steps : List String} {place : Place} :
    fs.follow intent links directory steps = .ok place ↔
      Leads fs intent links directory steps place := by
  constructor
  · intro followed
    induction links, directory, steps using follow_induction with
    | arrive links directory =>
      rw [follow_eq_followUntilLink, followUntilLink] at followed
      split at followed
      · next there => exact Except.ok.inj followed ▸ .arrive there
      · cases followed
    | stay links directory name rest stays ih =>
      exact .stay stays (ih (follow_stay stays ▸ followed))
    | up links directory rest ih => exact .up (ih (follow_up ▸ followed))
    | look links directory name rest ordinary deeper onward =>
      rw [follow_name ordinary] at followed
      split at followed
      · cases followed
      · next noObstacle =>
        have clear : IsClear intent directory name rest := ⟨ordinary, noObstacle⟩
        split at followed
        · next vacant =>
          split at followed
          · next room =>
            obtain ⟨rfl, above⟩ := room
            exact Except.ok.inj followed ▸ .free clear vacant above
          · cases followed
        · next there => exact .enter clear there (deeper followed)
        · next there =>
          split at followed
          · next last =>
            obtain rfl := last
            exact Except.ok.inj followed ▸ .file clear there
          · cases followed
        · next target there =>
          split at followed
          · next last =>
            obtain ⟨rfl, inspects⟩ := last
            exact Except.ok.inj followed ▸ .link clear there inspects
          · next on =>
            unfold followLink at followed
            split at followed
            · cases followed
            · split at followed
              · cases followed
              · next spelled =>
                exact .through clear there on (Bool.eq_false_iff.mpr spelled)
                  (onward _ target rfl followed)
  · intro leads
    induction leads with
    | arrive there => simp only [follow_eq_followUntilLink, followUntilLink, there]
    | stay stays _ ih => exact (follow_stay stays).trans ih
    | up _ ih => exact follow_up.trans ih
    | free clear vacant above =>
      simp [follow_name clear.ordinary, clear.noObstacle, vacant, above]
    | enter clear there _ ih =>
      simpa only [follow_name clear.ordinary, clear.noObstacle, there] using ih
    | file clear there => simp [follow_name clear.ordinary, clear.noObstacle, there]
    | link clear there inspects =>
      simp only [follow_name clear.ordinary, clear.noObstacle, there]
      exact if_pos ⟨trivial, inspects⟩
    | through clear there on spelled _ ih =>
      simpa only [follow_name clear.ordinary, clear.noObstacle, there, if_neg on, followLink,
        spelled, Bool.false_eq_true, if_false] using ih

/-! ### Paths that are followed without links -/

/-- The name is looked up in a directory, and short enough to be found there. -/
structure IsProper (name : String) : Prop where
  notEmpty : name ≠ ""
  notDot : name ≠ "."
  notDots : name ≠ ".."
  short : name.utf8ByteSize ≤ nameLimit

/-- The path is one that the system takes. -/
structure IsUsable (path : String) : Prop where
  noNul : path.toList.contains '\x00' = false
  notEmpty : path.isEmpty = false
  short : path.utf8ByteSize < pathLimit

instance : DecidablePred IsProper := fun name =>
  decidable_of_iff (name ≠ "" ∧ name ≠ "." ∧ name ≠ ".." ∧ name.utf8ByteSize ≤ nameLimit)
    ⟨fun ⟨notEmpty, notDot, notDots, short⟩ => ⟨notEmpty, notDot, notDots, short⟩,
      fun h => ⟨h.notEmpty, h.notDot, h.notDots, h.short⟩⟩

instance : DecidablePred IsUsable := fun path =>
  decidable_of_iff (path.toList.contains '\x00' = false ∧ path.isEmpty = false ∧
      path.utf8ByteSize < pathLimit)
    ⟨fun ⟨noNul, notEmpty, short⟩ => ⟨noNul, notEmpty, short⟩,
      fun h => ⟨h.noNul, h.notEmpty, h.short⟩⟩

theorem IsProper.ordinary (h : IsProper name) : IsOrdinary name :=
  ⟨h.notEmpty, h.notDot, h.notDots⟩

theorem IsProper.no_obstacle (h : IsProper name) :
    obstacle? .reach directory name rest = none := by
  have found : ¬ nameLimit < name.utf8ByteSize := Nat.not_lt.mpr h.short
  simp only [obstacle?, reduceCtorEq, false_and, if_false, found]

theorem resolve_eq_follow {path : String} (h : IsUsable path) :
    fs.resolve path = fs.follow .reach linkLimit
      (if Path.isAbsolute path then [] else fs.workingDirectory) (Path.steps path) := by
  have long : ¬ (Intent.reach ≠ .spell ∧ pathLimit ≤ path.utf8ByteSize) := by
    have := h.short
    omega
  simp only [resolve, followPath, h.noNul, h.notEmpty, if_neg long, Bool.false_eq_true, if_false]

theorem isDirectory_iff {path : String} : fs.isDirectory path = true ↔
    ∃ location children, fs.resolve path = .ok (.present location (.directory children)) := by
  unfold isDirectory
  split
  · next location children resolved => exact iff_of_true rfl ⟨location, children, resolved⟩
  · next other =>
    refine iff_of_false Bool.false_ne_true ?_
    rintro ⟨location, children, resolved⟩
    exact other location children resolved

theorem follow_nil {entry : Entry} (there : fs.entryAt? directory = some entry) :
    fs.follow intent links directory [] = .ok (.present directory entry) :=
  follow_eq_ok_iff.mpr (.arrive there)

theorem follow_empty : fs.follow intent links directory ("" :: rest) =
    fs.follow intent links directory rest :=
  follow_stay (Or.inl rfl)

theorem follow_directory {children : List (String × Entry)} (proper : IsProper name)
    (there : fs.entryAt? (directory ++ [name]) = some (.directory children)) :
    fs.follow .reach links directory (name :: rest) =
      fs.follow .reach links (directory ++ [name]) rest := by
  simp only [follow_name proper.ordinary, proper.no_obstacle, there]

theorem follow_file {content : ByteArray} (proper : IsProper name)
    (there : fs.entryAt? (directory ++ [name]) = some (.file content)) :
    fs.follow .reach links directory [name] =
      .ok (.present (directory ++ [name]) (.file content)) := by
  simp only [follow_name proper.ordinary, proper.no_obstacle, there, if_true]

end LuaDecl.FileSystem
