import LuaDecl.Proofs.Generation.Result
import Mathlib.Data.List.Forall2

/-!
# Every file is accounted for

A collection goes on to its end, whatever its files are, and tells of each of them in turn: of a
file that cannot be read that it is skipped, of any other what it holds and what of that is new.
What is new adds up to the catalog (`collectFrom_spec`). So a run fails only if it cannot write its
output (`collect_accounts`).
-/

namespace LuaDecl

/-- The event tells what became of a source. -/
def Event.tellsOfSource : Event → Bool
  | signaturesExtracted _ _ _ | fileSkipped _ => true
  | _ => false

/-- The number of new keys that an event tells of. -/
def Event.added? : Event → Option Nat
  | signaturesExtracted _ _ added => some added
  | _ => none

namespace Catalog

variable {past signatures : List Signature}

theorem length_historyFrom (past signatures : List Signature) :
    (historyFrom past signatures).length = signatures.length := by
  induction signatures generalizing past with
  | nil => rfl
  | cons s rest ih => simp [historyFrom, ih]

/-- No more signatures are new than there are. -/
theorem countFirst_le_length (past signatures : List Signature) :
    countFirst past signatures ≤ signatures.length := by
  rw [← length_historyFrom past]
  exact List.countP_le_length

/-- All that is reported of signatures is that keys are taken. -/
theorem exists_of_mem_conflicts {event : Event} (member : event ∈ conflicts past signatures) :
    ∃ key kept ignored, event = .duplicateIgnored key kept ignored := by
  obtain ⟨⟨before, s⟩, -, reported⟩ := List.mem_filterMap.mp member
  dsimp only [conflict?] at reported
  split at reported
  · split at reported
    · cases reported
    · exact ⟨_, _, _, (Option.some.inj reported).symm⟩
  · cases reported

theorem filter_conflicts (past signatures : List Signature) :
    (conflicts past signatures).filter Event.tellsOfSource = [] := by
  refine List.filter_eq_nil_iff.mpr fun event member => ?_
  obtain ⟨key, kept, ignored, rfl⟩ := exists_of_mem_conflicts member
  simp [Event.tellsOfSource]

theorem filterMap_conflicts (past signatures : List Signature) :
    (conflicts past signatures).filterMap Event.added? = [] := by
  refine List.filterMap_eq_nil_iff.mpr fun event member => ?_
  obtain ⟨key, kept, ignored, rfl⟩ := exists_of_mem_conflicts member
  rfl

end Catalog

namespace Generation

open Catalog

variable {fs : FileSystem} {c : Catalog} {past : List Signature}

/-- The event tells what becomes of the file at a path: it cannot be read, or it holds as many
signatures as the event says, some of which are new. -/
inductive Report (fs : FileSystem) (path : String) : Event → Prop
  | skipped {fault} : fs.read path = .error fault → Report fs path (.fileSkipped (.read path fault))
  | extracted {source added} : readSource fs path = .ok source →
      added ≤ (Extraction.ofSource source).signatures.length →
      Report fs path
        (.signaturesExtracted path (Extraction.ofSource source).signatures.length added)

/-- The events of a collection: each file is told of in turn, and all other events tell of keys that
are taken. -/
structure Accounts (fs : FileSystem) (files : List String) (events : List Event) : Prop where
  reports : List.Forall₂ (Report fs) files (events.filter Event.tellsOfSource)
  others : ∀ event ∈ events, event.tellsOfSource = true ∨
    ∃ key kept ignored, event = .duplicateIgnored key kept ignored

variable {path source : String} {rest : List String} {events : List Event}

theorem read_of_readSource_error {error : RunError} (fails : readSource fs path = .error error) :
    ∃ fault, fs.read path = .error fault ∧ error = .read path fault := by
  unfold readSource at fails
  split at fails
  · cases fails
  · next fault failed => exact ⟨fault, failed, (Except.error.inj fails).symm⟩

/-- One more file, which cannot be read. -/
theorem Accounts.skip {fault : FileSystem.Fault} (fails : fs.read path = .error fault)
    (accounts : Accounts fs rest events) :
    Accounts fs (path :: rest) (.fileSkipped (.read path fault) :: events) where
  reports := .cons (.skipped fails) accounts.reports
  others := List.forall_mem_cons.mpr ⟨Or.inl rfl, accounts.others⟩

/-- One more file, whose signatures are recorded after others. -/
theorem Accounts.extract (readable : readSource fs path = .ok source) (past : List Signature)
    (accounts : Accounts fs rest events) :
    let signatures := (Extraction.ofSource source).signatures
    Accounts fs (path :: rest) (conflicts past signatures ++
      .signaturesExtracted path signatures.length (countFirst past signatures) :: events) := by
  intro signatures
  refine ⟨?_, fun event member => ?_⟩
  · rw [List.filter_append, filter_conflicts, List.nil_append]
    exact .cons (.extracted readable (countFirst_le_length past signatures)) accounts.reports
  · rcases List.mem_append.mp member with taken | later
    · exact Or.inr (exists_of_mem_conflicts taken)
    · rcases List.mem_cons.mp later with rfl | later
      · exact Or.inl rfl
      · exact accounts.others event later

/-- A collection from a catalog on: every file is accounted for, and what is new adds up. -/
theorem collectFrom_spec (h : c.Represents past) (skipped : Nat) (files : List String) :
    Accounts fs files (collectFrom fs c skipped files).events ∧
      ∀ last skips, (collectFrom fs c skipped files).value = .ok (last, skips) →
        last.size = c.size +
          ((collectFrom fs c skipped files).events.filterMap Event.added?).sum := by
  induction files generalizing c past skipped with
  | nil =>
    refine ⟨⟨.nil, by simp [collectFrom]⟩, fun last skips result => ?_⟩
    obtain rfl := (Prod.mk.inj (Except.ok.inj result)).1
    rfl
  | cons path rest ih =>
    cases readable : readSource fs path with
    | error error =>
      obtain ⟨fault, failed, rfl⟩ := read_of_readSource_error readable
      obtain ⟨accounts, grown⟩ := ih h (skipped + 1)
      rw [collectFrom_of_error readable]
      exact ⟨accounts.skip failed, grown⟩
    | ok source =>
      obtain ⟨represents, added, size, reported⟩ :=
        insertAll_spec h (Extraction.ofSource source).signatures
      obtain ⟨accounts, grown⟩ := ih represents skipped
      rw [collectFrom_of_ok readable]
      simp only [Logged.value_bind, Logged.events_bind, Logged.events_log, merge, reported, added,
        List.singleton_append]
      refine ⟨accounts.extract readable past, fun last skips result => ?_⟩
      rw [grown last skips result, size, List.filterMap_append, filterMap_conflicts]
      simp only [List.nil_append, List.filterMap_cons, Event.added?, List.sum_cons]
      omega

/-- A run fails only if it cannot write its output. -/
theorem failsToWrite_of_generate {config : ScanConfig} {inputs : List String} {output : String}
    {error : RunError} (fails : (generate fs config inputs output).value.2 = .error error) :
    FailsToWrite output error := by
  rw [value_generate] at fails
  split at fails
  · next wrote =>
    obtain rfl := Except.error.inj fails
    exact failsToWrite_of_writeFile wrote
  · cases fails

/-- A collection never ends before its last file and accounts for each. Its catalog is that of the
files that can be read, in order; the others are counted, and told of as skipped. What the reports
call new adds up to the catalog. So a run fails only if it cannot write its output. -/
theorem collect_accounts (fs : FileSystem) (files : List String) :
    let c := Catalog.ofSources (sources fs files)
    (collect fs files).value = .ok (c, unreadable fs files) ∧
      unreadable fs files ≤ files.length ∧
      Accounts fs files (collect fs files).events ∧
      ((collect fs files).events.filterMap Event.added?).sum =
        c.globals.size + c.dotMethods.size + c.colonMethods.size ∧
      ∀ config inputs output error, (generate fs config inputs output).value.2 = .error error →
        FailsToWrite output error := by
  intro c
  have result := value_collect fs files
  obtain ⟨accounts, grown⟩ := collectFrom_spec represents_empty 0 files
  refine ⟨result, List.countP_le_length, accounts, ?_, ?_⟩
  · have none : empty.size = 0 := rfl
    have size := grown c (unreadable fs files) result
    rw [none, Nat.zero_add] at size
    exact size.symm
  · exact fun config inputs output error fails => failsToWrite_of_generate fails

end Generation

end LuaDecl
