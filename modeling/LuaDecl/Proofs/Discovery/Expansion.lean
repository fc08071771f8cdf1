import LuaDecl.Discovery
import LuaDecl.Proofs.FileSystem.Below
import LuaDecl.Proofs.FileSystem.Follow

/-!
# What an input stands for

The paths that an input expands to, said without the walk: for a directory, those of the accepted
files below it and of the accepted links below it that lead to files, as far as the walk reaches;
for a file, itself if it is accepted; and nothing otherwise. Main statement: these are the paths
that are found (`mem_expand_iff`), unless the input is a directory spelled as the standard input.
-/

namespace LuaDecl.Discovery

open FileSystem (Below Entry Leaf Location Reached isDirectory_iff)

/-- The input stands for the path, when the directories below it can be opened whose paths `opens`
holds of. -/
inductive Expands (fs : FileSystem) (config : ScanConfig) (opens : String → Bool) (input : String) :
    String → Prop where
  | below {top : Location} {children : List (String × Entry)} {location : Location}
        {entry : Entry} :
      fs.resolve input = .ok (.present top (.directory children)) →
      Below children location entry →
      Reached config.skips (fun above => opens (pathBelow input above)) location →
      (∃ content, entry = .file content) ∨
        (∃ target, entry = .link target ∧ fs.isFile (pathBelow input location) = true) →
      isAccepted config (pathBelow input location) = true →
      Expands fs config opens input (pathBelow input location)
  | itself : fs.isFile input = true → isAccepted config input = true →
      Expands fs config opens input input

/-- The system can open a directory at the path as far as its length goes. -/
def isShort (path : String) : Bool :=
  path.utf8ByteSize < FileSystem.pathLimit

variable {fs : FileSystem} {config : ScanConfig} {input path : String} {leaf : Leaf}

/-! ### Directories and files -/

theorem isFile_eq_false_of_isDirectory (h : fs.isDirectory path = true) :
    fs.isFile path = false := by
  obtain ⟨location, children, resolved⟩ := isDirectory_iff.mp h
  simp only [FileSystem.isFile, resolved]

/-! ### Leaves -/

theorem leadsToFile_iff : leadsToFile fs path leaf = true ↔
    (∃ content, leaf.entry = .file content) ∨
      (∃ target, leaf.entry = .link target ∧ fs.isFile path = true) := by
  unfold leadsToFile
  cases leaf.entry <;> simp

theorem mem_visit_iff {directory : String} :
    path ∈ (visit fs config directory leaf).value ↔
      path = pathBelow directory leaf.location ∧ leadsToFile fs path leaf = true ∧
        isAccepted config path = true := by
  cases entry : leaf.entry with
  | directory below => simp [visit, leadsToFile, entry]
  | file _ | link _ =>
    simp only [visit, entry, Logged.value_pure, List.mem_ite_nil_right, List.mem_singleton,
      Bool.and_eq_true]
    constructor
    · rintro ⟨taken, rfl⟩
      exact ⟨rfl, taken⟩
    · rintro ⟨rfl, taken⟩
      exact ⟨taken, rfl⟩

theorem mem_visitAll_iff {directory : String} {leaves : List Leaf} :
    path ∈ (visitAll fs config directory leaves).value ↔
      ∃ leaf ∈ leaves, path ∈ (visit fs config directory leaf).value := by
  induction leaves with
  | nil => simp [visitAll]
  | cons leaf rest ih => simp [visitAll, ih]

/-! ### Inputs -/

theorem mem_walk_iff (notStdin : isStandardInput input = false) {top : Location}
    {children : List (String × Entry)}
    (resolved : fs.resolve input = .ok (.present top (.directory children))) :
    path ∈ (walk fs config input).value ↔ Expands fs config isShort input path := by
  have found : (walk fs config input).value = (visitAll fs config input
      (FileSystem.leaves config.skips (isOpenable input) children)).value := by
    rw [walk, notStdin, resolved]
    rfl
  rw [found, mem_visitAll_iff]
  constructor
  · rintro ⟨leaf, member, visited⟩
    obtain ⟨rfl, leads, accepted⟩ := mem_visit_iff.mp visited
    have plain : ∀ below, leaf.entry ≠ .directory below := by
      intro below equal
      simp [leadsToFile, equal] at leads
    obtain ⟨below, reached⟩ := (FileSystem.mem_leaves_iff plain).mp member
    exact .below resolved below reached (leadsToFile_iff.mp leads) accepted
  · intro stands
    cases stands with
    | @below _ others location entry resolved' below reached leads accepted =>
      obtain ⟨-, rfl⟩ : top = _ ∧ children = others := by simpa [resolved] using resolved'
      have leads' : leadsToFile fs (pathBelow input location) ⟨location, entry⟩ = true :=
        leadsToFile_iff.mpr leads
      have plain : ∀ below, entry ≠ .directory below := by
        rintro below rfl
        simp [leadsToFile] at leads'
      exact ⟨⟨location, entry⟩, (FileSystem.mem_leaves_iff plain).mpr ⟨below, reached⟩,
        mem_visit_iff.mpr ⟨rfl, leads', accepted⟩⟩
    | itself file accepted =>
      have directory := isDirectory_iff.mpr ⟨top, children, resolved⟩
      rw [isFile_eq_false_of_isDirectory directory] at file
      exact absurd file Bool.false_ne_true

/-- An input is expanded to the paths that it stands for. -/
theorem mem_expand_iff
    (spelled : fs.isDirectory input = true → FileSystem.Path.components input ≠ ["-"]) :
    path ∈ (expand fs config input).value ↔ Expands fs config isShort input path := by
  cases directory : fs.isDirectory input with
  | true =>
    obtain ⟨top, children, resolved⟩ := isDirectory_iff.mp directory
    have notStdin : isStandardInput input = false := decide_eq_false (spelled directory)
    rw [← mem_walk_iff notStdin resolved, expand, if_pos directory]
    rfl
  | false =>
    have noDirectory : ¬ fs.isDirectory input = true := by simp [directory]
    have onlyItself : Expands fs config isShort input path ↔
        path = input ∧ fs.isFile input = true ∧ isAccepted config input = true := by
      constructor
      · intro stands
        cases stands with
        | below resolved => exact absurd (isDirectory_iff.mpr ⟨_, _, resolved⟩) noDirectory
        | itself file accepted => exact ⟨rfl, file, accepted⟩
      · rintro ⟨rfl, file, accepted⟩
        exact .itself file accepted
    rw [onlyItself, expand, if_neg noDirectory]
    cases fs.isFile input <;> cases isAccepted config input <;> simp

/-- Below a directory that is spelled as the standard input nothing is found. -/
theorem value_expand_of_standardInput (directory : fs.isDirectory input = true)
    (spelled : FileSystem.Path.components input = ["-"]) : (expand fs config input).value = [] := by
  have stdin : isStandardInput input = true := decide_eq_true spelled
  have walked : (walk fs config input).value = [] := by
    rw [walk, if_pos stdin]
    rfl
  rw [expand, if_pos directory]
  exact walked

end LuaDecl.Discovery
