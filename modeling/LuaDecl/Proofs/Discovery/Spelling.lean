import LuaDecl.Proofs.Discovery.Sources
import LuaDecl.Proofs.Generation.Result
import Mathlib.Data.List.Forall2

/-!
# Spellings of a directory

Two spellings of a directory stand for the same files in the same order, each under a path of its
own (`forall₂_expand`), so what is discovered leads to the same files and a run writes the same stub
file (`spelling_makes_no_difference`). Where a spelling meets a limit on paths or links, or is that
of the standard input, it finds less (`spelling_makes_difference_at_limits`).
-/

namespace LuaDecl.Discovery

open FileSystem

variable {fs : FileSystem} {config : ScanConfig} {input other path : String}
  {top location : Location}

/-! ### Paths to the same files -/

/-- The paths are the same, or have the same canonical path. -/
def SameFile (fs : FileSystem) (path other : String) : Prop :=
  path = other ∨
    ∃ location, fs.locate? path = some location ∧ fs.locate? other = some location

/-- The paths are the same, or lead to one file that has a canonical path. -/
inductive LeadAlike (fs : FileSystem) (path : String) : String → Prop where
  | same : LeadAlike fs path path
  | alike {other : String} {place : Location} {content : ByteArray} :
      fs.resolve path = .ok (.present place (.file content)) →
      fs.resolve other = .ok (.present place (.file content)) →
      fs.locate? path = some place → fs.locate? other = some place → LeadAlike fs path other

theorem LeadAlike.sameFile (alike : LeadAlike fs path other) : SameFile fs path other := by
  cases alike with
  | same => exact Or.inl rfl
  | alike _ _ first second => exact Or.inr ⟨_, first, second⟩

theorem LeadAlike.identity_eq (alike : LeadAlike fs path other) :
    identity fs path = identity fs other := by
  cases alike with
  | same => rfl
  | alike _ _ first second => rw [identity, identity, first, second]

theorem LeadAlike.toOption_readSource_eq (alike : LeadAlike fs path other) :
    (Generation.readSource fs path).toOption = (Generation.readSource fs other).toOption := by
  cases alike with
  | same => rfl
  | alike first second _ _ =>
    rw [Generation.readSource, Generation.readSource, read_eq_ok_iff.mpr ⟨_, first⟩,
      read_eq_ok_iff.mpr ⟨_, second⟩]

/-- Two spellings of a directory stand for the same files. -/
theorem forall₂_expand (tidy : fs.IsTidy) (first : Spells fs config top input)
    (second : Spells fs config top other) :
    List.Forall₂ (LeadAlike fs) (expand fs config input).value (expand fs config other).value := by
  have walked {input : String} (spells : Spells fs config top input) :
      ∃ locations : List Location, locations.Pairwise (· < ·) ∧
        (∀ location, location ∈ locations ↔ IsSource fs config top location) ∧
        (expand fs config input).value = locations.map (pathBelow input) := by
    obtain ⟨children, resolved⟩ := resolve_of_locate? spells.directory spells.canonical
    have spelled : isStandardInput input = false := decide_eq_false spells.notStandardInput
    refine ⟨_, pairwise_counted tidy (resolve_eq_ok_iff.mp resolved).2.isIn,
      fun location => mem_counted_iff_isSource tidy spells resolved, ?_⟩
    rw [value_expand, if_pos spells.directory, value_walk spelled resolved]
  obtain ⟨locations, sorted, isSource, expanded⟩ := walked first
  obtain ⟨locations', sorted', isSource', expanded'⟩ := walked second
  obtain rfl : locations = locations' :=
    sorted.eq_of_mem_iff sorted' fun location => (isSource location).trans (isSource' location).symm
  rw [expanded, expanded', List.forall₂_map_left_iff, List.forall₂_map_right_iff, List.forall₂_same]
  intro location member
  have source := (isSource location).mp member
  obtain ⟨place, content, leads⟩ := source.leads
  have resolved {input : String} (spells : Spells fs config top input) :=
    (spells.room location source).resolve (source.isName tidy) source.ne_nil leads
  exact .alike (resolved first) (resolved second)
    ((first.room location source).locate? (resolved first))
    ((second.room location source).locate? (resolved second))

/-- Of paths that lead alike, those are the first that do. -/
theorem forall₂_firstPaths {paths others : List String}
    (alike : List.Forall₂ (LeadAlike fs) paths others) :
    List.Forall₂ (LeadAlike fs) (firstPaths fs paths) (firstPaths fs others) := by
  induction alike with
  | nil => exact .nil
  | cons first _ ih =>
    refine .cons first (List.rel_filter (fun path other alike => ?_) ih)
    simp only [first.identity_eq, alike.identity_eq]

/-- What is discovered under one spelling of the directories leads where it does under another. -/
theorem forall₂_discover (tidy : fs.IsTidy) {inputs others : List String}
    (spelled : List.Forall₂ (fun input other => input = other ∨
      ∃ top, Spells fs config top input ∧ Spells fs config top other) inputs others) :
    List.Forall₂ (LeadAlike fs) (discover fs config inputs).value
      (discover fs config others).value := by
  rw [value_discover, value_discover]
  refine forall₂_firstPaths (List.rel_flatMap spelled fun input other either => ?_)
  rcases either with rfl | ⟨top, first, second⟩
  · exact List.forall₂_same.mpr fun path _ => .same
  · exact forall₂_expand tidy first second

/-! ### Runs -/

/-- Of paths that lead alike, the same texts are read and as many cannot be. -/
theorem sources_eq_of_leadAlike {paths others : List String}
    (alike : List.Forall₂ (LeadAlike fs) paths others) :
    Generation.sources fs paths = Generation.sources fs others ∧
      Generation.unreadable fs paths = Generation.unreadable fs others := by
  induction alike with
  | nil => exact ⟨rfl, rfl⟩
  | cons first _ ih =>
    simp only [Generation.sources, Generation.unreadable] at ih ⊢
    simp only [List.filterMap_cons, List.countP_cons, first.toOption_readSource_eq, ih,
      and_self]

/-- However the directories among the inputs are spelled, the files that are discovered are the same
ones in the same order, and a run leaves the same tree, with the same stub file, and tells the same
summary. -/
theorem spelling_makes_no_difference (tidy : fs.IsTidy) {inputs others : List String}
    (spelled : List.Forall₂ (fun input other => input = other ∨
      ∃ top, Spells fs config top input ∧ Spells fs config top other) inputs others) :
    List.Forall₂ (SameFile fs) (discover fs config inputs).value
        (discover fs config others).value ∧
      ∀ output, (Generation.generate fs config inputs output).value =
        (Generation.generate fs config others output).value := by
  have alike := forall₂_discover tidy spelled
  refine ⟨alike.imp fun _ _ => LeadAlike.sameFile, fun output => ?_⟩
  obtain ⟨sources, unreadable⟩ := sources_eq_of_leadAlike alike
  simp only [Generation.value_generate, Generation.stubOf, sources, unreadable, alike.length_eq]

/-- A directory with one file, and a link to the directory. -/
def spelledTree : FileSystem where
  root := [("d", .directory [("a.lua", .file "function f() end".toUTF8)]), ("l", .link "d")]
  workingDirectory := []

/-- A tree is tidy if a file or link stands alone in each directory below its root. -/
theorem isTidy_of_alone {root : List (String × Entry)} {workingDirectory : Location}
    {limit : Location → Option Limit} (names : AreNames (root.map Prod.fst))
    (alone : ∀ name children, (name, .directory children) ∈ root →
      ∃ child, children = [("a.lua", child)] ∧ ∀ below, child ≠ .directory below) :
    IsTidy ⟨root, workingDirectory, limit⟩ := by
  refine isTidy_of_root names fun name children member => ?_
  obtain ⟨child, rfl, plain⟩ := alone name children member
  refine isTidy_of_root (show AreNames ["a.lua"] by decide) fun name below inside => ?_
  exact absurd (Prod.mk.inj (List.mem_singleton.mp inside)).2.symm (plain below)

theorem isTidy_spelledTree : spelledTree.IsTidy :=
  isTidy_of_alone (by decide) (by simp)

/-- The only source leaves room for a spelling with at most one link. -/
theorem spells_spelledTree (directory : spelledTree.isDirectory input = true)
    (canonical : spelledTree.locate? input = some ["d"])
    (notStandardInput : Path.components input ≠ ["-"])
    (short : (pathBelow input ["a.lua"]).utf8ByteSize < pathLimit)
    (links : Leads spelledTree .reach 1 (startOf [] input) (Path.steps input)
      (.present ["d"] (.directory [("a.lua", .file "function f() end".toUTF8)])))
    (spelled : (spelledTree.locate? (pathBelow input ["a.lua"])).isSome = true) :
    Spells spelledTree .default ["d"] input := by
  refine ⟨directory, canonical, notStandardInput, fun location source => ?_⟩
  obtain ⟨entry, stands⟩ : ∃ entry, spelledTree.entryAt? (["d"] ++ location) = some entry :=
    source.stands.elim (fun ⟨_, stands⟩ => ⟨_, stands⟩) fun ⟨_, stands⟩ => ⟨_, stands⟩
  have alone : spelledTree.entryAt? ["d"] =
      some (.directory [("a.lua", .file "function f() end".toUTF8)]) := rfl
  obtain ⟨rfl, -⟩ := eq_of_stands_alone alone (by simp) stands source.ne_nil
  have file : Leads spelledTree .reach 0 ["d"] ["a.lua"]
      (.present ["d", "a.lua"] (.file "function f() end".toUTF8)) :=
    .file (IsProper.clear (by decide)) rfl
  exact ⟨short, ⟨1, 0, _, _, _, by decide, links, file⟩, spelled⟩

/-- A link to a directory, and the directory behind a dot. -/
theorem spelling_makes_no_difference_link :
    List.Forall₂ (SameFile spelledTree) (discover spelledTree .default ["l"]).value
        (discover spelledTree .default ["./d"]).value ∧
      (Generation.generate spelledTree .default ["l"] "o.lua").value =
        (Generation.generate spelledTree .default ["./d"] "o.lua").value := by
  have inside : Leads spelledTree .reach 0 [] ["d"]
      (.present ["d"] (.directory [("a.lua", .file "function f() end".toUTF8)])) :=
    .enter (IsProper.clear (by decide)) rfl (.arrive rfl)
  have first : Spells spelledTree .default ["d"] "l" := by
    have target : Path.steps "d" ++ [] = ["d"] := by decide
    have steps : Path.steps "l" = ["l"] := by decide
    have link : Leads spelledTree .reach 1 [] ["l"]
        (.present ["d"] (.directory [("a.lua", .file "function f() end".toUTF8)])) :=
      .through (IsProper.clear (by decide)) rfl (by simp) (by decide) (target ▸ inside)
    exact spells_spelledTree (by decide) (by decide) (by decide) (by decide)
      (steps ▸ link) (by decide +kernel)
  have second : Spells spelledTree .default ["d"] "./d" := by
    have steps : Path.steps "./d" = [".", "d"] := by decide
    exact spells_spelledTree (by decide) (by decide) (by decide) (by decide)
      (steps ▸ .stay (Or.inr rfl) (inside.mono (Nat.zero_le 1))) (by decide)
  have spelled : List.Forall₂ (fun input other => input = other ∨
      ∃ top, Spells spelledTree .default top input ∧ Spells spelledTree .default top other)
      ["l"] ["./d"] := .cons (Or.inr ⟨["d"], first, second⟩) .nil
  obtain ⟨files, runs⟩ := spelling_makes_no_difference isTidy_spelledTree spelled
  exact ⟨files, runs "o.lua"⟩

/-! ### At the limits -/

/-- The inputs are the same, or spell a directory with the same canonical path. -/
def AreSpellings (fs : FileSystem) (inputs others : List String) : Prop :=
  List.Forall₂ (fun input other => input = other ∨ ∃ top,
    (fs.isDirectory input = true ∧ fs.locate? input = some top) ∧
      fs.isDirectory other = true ∧ fs.locate? other = some top) inputs others

/-- If the inputs spell the same directories, the same files are discovered. -/
def FindAlike (fs : FileSystem) (config : ScanConfig) (inputs others : List String) : Prop :=
  AreSpellings fs inputs others →
    List.Forall₂ (SameFile fs) (discover fs config inputs).value (discover fs config others).value

/-- Two spellings do not find alike if one finds a file and the other none. -/
theorem not_findAlike (spells : fs.isDirectory input = true ∧ fs.locate? input = some top)
    (spells' : fs.isDirectory other = true ∧ fs.locate? other = some top)
    (found : path ∈ (expand fs config input).value) (missed : (expand fs config other).value = []) :
    ¬ FindAlike fs config [input] [other] := by
  intro alike
  have same := alike (.cons (Or.inr ⟨top, spells, spells'⟩) .nil)
  rw [value_discover, value_discover, List.flatMap_singleton, List.flatMap_singleton,
    missed] at same
  obtain ⟨kept, member, -⟩ : ∃ kept ∈ firstPaths fs (expand fs config input).value,
      identity fs kept = identity fs path := exists_mem_firstPaths found
  rw [List.forall₂_nil_right_iff.mp same] at member
  exact absurd member List.not_mem_nil

/-! #### A long path -/

theorem isTidy_nestedTree : nestedTree.IsTidy := by
  refine isTidy_of_root (by decide) fun name children member => ?_
  obtain ⟨-, rfl⟩ : name = "d" ∧
      children = [("sub", .directory [("a.lua", .file ByteArray.empty)])] := by
    simpa [nestedTree] using member
  refine isTidy_of_root (by decide) fun name children member => ?_
  obtain ⟨-, rfl⟩ : name = "sub" ∧ children = [("a.lua", .file ByteArray.empty)] := by
    simpa using member
  exact isTidy_of_root (by decide) (by simp)

theorem locate?_slashed (n : Nat) : nestedTree.locate? (slashed (n + 1)) = some ["d"] := by
  have proper : IsProper "d" := by decide
  have steps : Path.steps (slashed (n + 1)) = ["d", ""] := by
    rw [Path.steps, names_slashed, if_pos (endsInSlash_slashed n)]
    rfl
  have leads : Leads nestedTree .spell linkLimit [] ["d", ""] (.present ["d"] _) :=
    .enter (proper.clear_spell (by decide)) rfl (.stay (Or.inl rfl) (.arrive rfl))
  refine locate?_eq_some_iff.mpr ⟨by simp [slashed], by simp [slashed], ?_⟩
  rw [steps, startOf, if_neg (not_isAbsolute_slashed _)]
  exact ⟨_, follow_eq_ok_iff.mpr leads⟩

theorem not_findAlike_slashed : ¬ FindAlike nestedTree .default ["d"] [slashed 4092] := by
  have spells : nestedTree.isDirectory "d" = true ∧ nestedTree.locate? "d" = some ["d"] := by
    decide
  have resolved := resolve_slashed (by decide : 4091 + 2 < pathLimit)
  have spells' := And.intro (isDirectory_iff.mpr ⟨_, _, resolved⟩) (locate?_slashed 4091)
  have reached : Reached (ScanConfig.skips .default) (isOpenable "d") ["sub", "a.lua"] :=
    (reached_cons_iff (by simp)).mpr ⟨by decide, by decide, reached_singleton _⟩
  have found := pathBelow_mem_expand isTidy_nestedTree spells (by decide) (by simp) reached
    (by decide) (Or.inl ⟨_, rfl⟩)
  have spelled : Path.components (slashed (4091 + 1)) ≠ ["-"] := by
    rw [components_slashed]
    decide
  refine not_findAlike spells spells' found ?_
  refine List.eq_nil_iff_forall_not_mem.mpr fun path member => ?_
  exact not_expands_slashed (by decide) (by decide) path
    ((mem_expand_iff fun _ => spelled).mp member)

/-! #### The standard input -/

theorem isTidy_dashTree : dashTree.IsTidy :=
  isTidy_of_alone (by decide) (by simp)

theorem not_findAlike_dash : ¬ FindAlike dashTree .default ["./-"] ["-"] := by
  have spells : dashTree.isDirectory "./-" = true ∧ dashTree.locate? "./-" = some ["-"] := by
    decide
  have spells' : dashTree.isDirectory "-" = true ∧ dashTree.locate? "-" = some ["-"] := by
    decide
  have found : pathBelow "./-" ["a.lua"] ∈ (expand dashTree .default "./-").value :=
    pathBelow_mem_expand isTidy_dashTree spells (by decide) (by simp) (reached_singleton _)
      (by decide) (Or.inl ⟨_, rfl⟩)
  exact not_findAlike spells spells' found (value_expand_of_standardInput spells'.1 (by decide))

/-! #### Many links -/

/-- A directory with a link to a file beside it, and a link that leads back to where it stands. -/
def turningTree : FileSystem where
  root := [("c.lua", .file ByteArray.empty), ("d", .directory [("a.lua", .link "../c.lua")]),
    ("s", .link ".")]
  workingDirectory := []

/-- The directory, after some turns through the link. -/
def turning (turns : Nat) : String :=
  pathBelow "s" (List.replicate turns "s" ++ ["d"])

theorem isTidy_turningTree : turningTree.IsTidy :=
  isTidy_of_alone (by decide) (by simp)

theorem isName_of_mem_turns {turns : Nat} :
    ∀ name ∈ List.replicate turns "s" ++ ["d"], IsName name := by
  have valid : IsName "s" ∧ IsName "d" := by decide
  simp only [List.mem_append, List.mem_replicate, List.mem_singleton]
  rintro name (⟨-, rfl⟩ | rfl)
  · exact valid.1
  · exact valid.2

theorem names_turning (turns : Nat) :
    Path.names (turning turns) = List.replicate (turns + 1) "s" ++ ["d"] :=
  names_pathBelow "s" isName_of_mem_turns

theorem steps_turning (turns : Nat) :
    Path.steps (turning turns) = List.replicate (turns + 1) "s" ++ ["d"] :=
  steps_pathBelow "s" isName_of_mem_turns (by simp)

theorem isAbsolute_turning (turns : Nat) : Path.isAbsolute (turning turns) = false :=
  isAbsolute_pathBelow "s" isName_of_mem_turns

/-- Each turn leads through the link once. -/
theorem leads_turning {rest : List String} {place : Place} {links : Nat} (turns : Nat)
    (leads : Leads turningTree .spell links [] rest place) :
    Leads turningTree .spell (links + turns) [] (List.replicate turns "s" ++ rest) place := by
  have proper : IsProper "s" := by decide
  have target : Path.steps "." = ["."] := by decide
  induction turns with
  | zero => exact leads
  | succ turns ih =>
    refine .through (proper.clear_spell (by decide)) rfl (by simp) (by decide) ?_
    rw [target]
    exact .stay (Or.inr rfl) ih

/-- With a link behind as many turns as links are allowed, the links are too many. -/
theorem follow_turning (turns : Nat) :
    turningTree.follow .reach turns [] (List.replicate turns "s" ++ ["d", "a.lua"]) =
      .error .tooManyLinks := by
  have turn : IsProper "s" := by decide
  have outer : IsProper "d" := by decide
  have inner : IsProper "a.lua" := by decide
  have target : Path.steps "." = ["."] := by decide
  have spelled : ".".isEmpty = false := by decide
  have start : startOf [] "." = [] := by decide
  induction turns with
  | zero =>
    have there : turningTree.entryAt? (["d"] ++ ["a.lua"]) = some (.link "../c.lua") := rfl
    rw [List.replicate_zero, List.nil_append, follow_directory outer rfl, List.nil_append,
      follow_name inner.ordinary]
    simp only [inner.no_obstacle, there, reduceCtorEq, and_false, if_false, followLink]
  | succ turns ih =>
    have there : turningTree.entryAt? ([] ++ ["s"]) = some (.link ".") := rfl
    rw [List.replicate_succ, List.cons_append, follow_name turn.ordinary]
    simp only [turn.no_obstacle, there, reduceCtorEq, and_false, if_false, followLink, spelled,
      Bool.false_eq_true, start, target, List.singleton_append]
    rw [follow_stay (Or.inr rfl)]
    exact ih

theorem not_findAlike_turning : ¬ FindAlike turningTree .default ["d"] [turning 39] := by
  have spells : turningTree.isDirectory "d" = true ∧ turningTree.locate? "d" = some ["d"] := by
    decide
  have found : pathBelow "d" ["a.lua"] ∈ (expand turningTree .default "d").value :=
    pathBelow_mem_expand isTidy_turningTree spells (by decide) (by simp) (reached_singleton _)
      (by decide) (Or.inr ⟨⟨_, rfl⟩, by decide⟩)
  have usable : IsUsable (turning 39) :=
    isUsable_pathBelow (by decide) (by decide) (by simp) (by decide)
  have start : startOf turningTree.workingDirectory (turning 39) = [] := by
    rw [startOf, isAbsolute_turning]
    rfl
  have inside : Leads turningTree .spell 0 [] ["d"]
      (.present ["d"] (.directory [("a.lua", .link "../c.lua")])) :=
    .enter (IsProper.clear_spell (by decide) (by decide)) rfl (.arrive rfl)
  obtain ⟨resolved, canonical⟩ :=
    resolve_of_spell usable start (steps_turning 39) (leads_turning 40 inside)
  have directory := isDirectory_iff.mpr ⟨_, _, resolved⟩
  have spelled : Path.components (turning 39) ≠ ["-"] := by
    rw [Path.components, isAbsolute_turning, names_turning, List.replicate_succ]
    simp
  refine not_findAlike spells ⟨directory, canonical⟩ found ?_
  rw [value_expand, if_pos directory, value_walk (decide_eq_false spelled) resolved,
    List.map_eq_nil_iff, List.eq_nil_iff_forall_not_mem]
  intro location member
  have alone : turningTree.entryAt? ["d"] = some (.directory [("a.lua", .link "../c.lua")]) := rfl
  obtain ⟨nonempty, -, -, stands⟩ := (mem_counted_iff isTidy_turningTree alone).mp member
  rcases stands with ⟨content, stands⟩ | ⟨⟨target, stands⟩, isFile⟩
  · cases (eq_of_stands_alone alone (by simp) stands nonempty).2
  · obtain ⟨rfl, -⟩ := eq_of_stands_alone alone (by simp) stands nonempty
    obtain ⟨-, place, reached⟩ := isFile_iff.mp isFile
    obtain ⟨content, leads⟩ := fileAt?_eq_some_iff.mp reached
    have valid : ∀ name ∈ ["a.lua"], IsName name := by decide
    rw [steps_pathBelow _ valid (by simp), startOf, isAbsolute_pathBelow _ valid,
      isAbsolute_turning, names_turning, List.append_assoc, ← follow_eq_ok_iff] at leads
    cases (follow_turning linkLimit).symm.trans leads

/-! #### A long location -/

/-- Directories, each alone in the one before it, down to the children of the last. -/
def nest : Location → List (String × Entry) → List (String × Entry)
  | [], children => children
  | name :: rest, children => [(name, .directory (nest rest children))]

/-- A long name. -/
def longName (length : Nat) : String :=
  String.ofList (List.replicate length 'n')

/-- A location with little room for more below it. -/
def deep : Location :=
  List.replicate 15 (longName 255) ++ [longName 247]

/-- A working directory deep down, and a directory with a file in it. -/
def deepTree : FileSystem where
  root := nest deep [("d", .directory [("a.lua", .file ByteArray.empty)])]
  workingDirectory := deep

theorem at?_nest (front rest : Location) (children : List (String × Entry)) :
    (Entry.directory (nest front children)).at? (front ++ rest) =
      (Entry.directory children).at? rest := by
  induction front with
  | nil => rfl
  | cons name front ih =>
    rw [nest, List.cons_append, Entry.at?_directory_cons, List.lookup_cons_self, Option.bind_some,
      ih]

theorem isTidy_nest {front : Location} {children : List (String × Entry)}
    {workingDirectory : Location} {limit : Location → Option Limit}
    (valid : ∀ name ∈ front, IsName name) (tidy : IsTidy ⟨children, workingDirectory, limit⟩) :
    IsTidy ⟨nest front children, workingDirectory, limit⟩ := by
  induction front with
  | nil => exact tidy
  | cons name front ih =>
    obtain ⟨own, others⟩ := List.forall_mem_cons.mp valid
    refine isTidy_of_root ⟨List.nodup_singleton _, by simpa [nest] using own⟩ ?_
    intro other below member
    obtain ⟨-, inner⟩ := Prod.mk.inj (List.mem_singleton.mp member)
    exact Entry.directory.inj inner ▸ ih others

theorem utf8ByteSize_longName (length : Nat) : (longName length).utf8ByteSize = length := by
  induction length with
  | zero => rfl
  | succ length ih =>
    rw [longName] at ih ⊢
    rw [List.replicate_succ, String.ofList_cons, String.utf8ByteSize_append, ih]
    exact Nat.add_comm 1 length

theorem isName_longName {length : Nat} (long : 2 < length) (short : length ≤ nameLimit) :
    IsName (longName length) := by
  have apart {other : String} (size : other.utf8ByteSize ≤ 2) : longName length ≠ other := by
    rintro rfl
    rw [utf8ByteSize_longName] at size
    omega
  refine ⟨⟨apart (by decide), apart (by decide), apart (by decide), ?_⟩, by simp [longName]⟩
  rwa [utf8ByteSize_longName]

theorem isTidy_deepTree : deepTree.IsTidy := by
  refine isTidy_nest (fun name member => ?_) (isTidy_of_alone (by decide) (by simp))
  simp only [deep, List.mem_append, List.mem_replicate, List.mem_singleton] at member
  rcases member with ⟨-, rfl⟩ | rfl
  · exact isName_longName (by decide) (by decide)
  · exact isName_longName (by decide) (by decide)

theorem utf8ByteSize_spelling_deep (rest : Location) :
    (spelling (deep ++ rest)).utf8ByteSize = 4088 + nameBytes rest := by
  have above : nameBytes deep = 4088 := by
    simp [deep, List.replicate, nameBytes, utf8ByteSize_longName]
  rw [utf8ByteSize_spelling (by simp [deep]), nameBytes_append, above]

theorem entryAt?_deep (rest : Location) : deepTree.entryAt? (deep ++ rest) =
    (Entry.directory [("d", .directory [("a.lua", .file ByteArray.empty)])]).at? rest :=
  at?_nest deep rest _

theorem leads_deep : Leads deepTree .spell linkLimit deep ["d"]
    (.present (deep ++ ["d"]) (.directory [("a.lua", .file ByteArray.empty)])) := by
  have short : (spelling (deep ++ ["d"])).utf8ByteSize < pathLimit := by
    rw [utf8ByteSize_spelling_deep]
    decide
  have there := entryAt?_deep ["d"]
  exact .enter (IsProper.clear_spell (by decide) short) there (.arrive there)

/-- The file is found under any spelling of its directory, and its location cannot be spelled. -/
theorem expand_deepTree (usable : IsUsable input) (relative : Path.isAbsolute input = false)
    (spelled : Path.components input ≠ ["-"])
    (leads : Leads deepTree .spell linkLimit deep (Path.steps input)
      (.present (deep ++ ["d"]) (.directory [("a.lua", .file ByteArray.empty)])))
    (accepted : isAccepted .default (pathBelow input ["a.lua"]) = true) :
    (deepTree.isDirectory input = true ∧ deepTree.locate? input = some (deep ++ ["d"])) ∧
      (expand deepTree .default input).value = [pathBelow input ["a.lua"]] ∧
      identity deepTree (pathBelow input ["a.lua"]) =
        Path.components (pathBelow input ["a.lua"]) := by
  have start : startOf deepTree.workingDirectory input = deep := by
    rw [startOf, relative]
    rfl
  obtain ⟨resolved, canonical⟩ := resolve_of_spell usable start rfl leads
  have directory := isDirectory_iff.mpr ⟨_, _, resolved⟩
  have alone := entryAt?_deep ["d"]
  have file := entryAt?_deep ["d", "a.lua"]
  rw [List.append_cons] at file
  refine ⟨⟨directory, canonical⟩, ?_, ?_⟩
  · have only : counted deepTree .default input [("a.lua", .file ByteArray.empty)] =
        [["a.lua"]] := by
      refine (pairwise_counted isTidy_deepTree alone).eq_of_mem_iff (List.pairwise_singleton _ _)
        fun location => ?_
      rw [mem_counted_iff isTidy_deepTree alone, List.mem_singleton]
      constructor
      · rintro ⟨nonempty, -, -, ⟨content, stands⟩ | ⟨⟨target, stands⟩, -⟩⟩
        · exact (eq_of_stands_alone alone (by simp) stands nonempty).1
        · exact (eq_of_stands_alone alone (by simp) stands nonempty).1
      · rintro rfl
        exact ⟨by simp, reached_singleton _, accepted, Or.inl ⟨_, file⟩⟩
    rw [value_expand, if_pos directory, value_walk (decide_eq_false spelled) resolved, only]
    rfl
  · have found := fileAt?_pathBelow isTidy_deepTree resolved file
    have long : deepTree.locate? (pathBelow input ["a.lua"]) = none := by
      refine Option.eq_none_iff_forall_ne_some.mpr fun location located => ?_
      obtain rfl := eq_of_locate? found located
      obtain ⟨-, -, entry, followed⟩ := locate?_eq_some_iff.mp located
      have valid : ∀ name ∈ ["a.lua"], IsName name := by decide
      have outer := utf8ByteSize_spelling_deep []
      rw [List.append_nil] at outer
      rw [startOf, isAbsolute_pathBelow input valid, relative] at followed
      have fits := (follow_eq_ok_iff.mp followed).short_of_spell rfl
        (Nat.lt_of_le_of_lt (Nat.le_of_eq outer) (by decide))
      rw [List.append_assoc, utf8ByteSize_spelling_deep] at fits
      exact absurd fits (by decide)
    rw [identity, long]

/-- A file whose location cannot be spelled is found once or twice. -/
theorem not_findAlike_deep : ¬ FindAlike deepTree .default ["d", "d"] ["d", "./d"] := by
  have steps : Path.steps "d" = ["d"] := by decide
  have steps' : Path.steps "./d" = [".", "d"] := by decide
  obtain ⟨spells, found, own⟩ := expand_deepTree (by decide : IsUsable "d") (by decide) (by decide)
    (steps ▸ leads_deep) (by decide)
  obtain ⟨spells', found', own'⟩ := expand_deepTree (by decide : IsUsable "./d") (by decide)
    (by decide) (steps' ▸ .stay (Or.inr rfl) leads_deep) (by decide)
  have apart : identity deepTree (pathBelow "./d" ["a.lua"]) ≠
      identity deepTree (pathBelow "d" ["a.lua"]) := by
    rw [own, own']
    decide
  intro alike
  have same := alike (.cons (Or.inl rfl) (.cons (Or.inr ⟨deep ++ ["d"], spells, spells'⟩) .nil))
  have lengths := same.length_eq
  simp [value_discover, found, found', firstPaths, apart] at lengths

/-- Where a limit is reached, the spelling makes a difference: a path that is too long, too many
links, or a location that is too long to be spelled; and so does the spelling as the standard
input. -/
theorem spelling_makes_difference_at_limits :
    (nestedTree.IsTidy ∧ ¬ FindAlike nestedTree .default ["d"] [slashed 4092]) ∧
      (turningTree.IsTidy ∧ ¬ FindAlike turningTree .default ["d"] [turning 39]) ∧
      (deepTree.IsTidy ∧ ¬ FindAlike deepTree .default ["d", "d"] ["d", "./d"]) ∧
      dashTree.IsTidy ∧ ¬ FindAlike dashTree .default ["./-"] ["-"] :=
  ⟨⟨isTidy_nestedTree, not_findAlike_slashed⟩, ⟨isTidy_turningTree, not_findAlike_turning⟩,
    ⟨isTidy_deepTree, not_findAlike_deep⟩, isTidy_dashTree, not_findAlike_dash⟩

end LuaDecl.Discovery
