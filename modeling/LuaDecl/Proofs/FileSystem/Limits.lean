import LuaDecl.Proofs.FileSystem.Passage

/-!
# Links and lengths along a way

The links of two ways in a row add up (`Leads.append_links`), and of a way that passes through a
directory the rest leads on from there, whichever way led to the directory (`Leads.rest`). A way
whose locations are spelled ends at a location that is short enough (`Leads.short_of_spell`).
-/

namespace LuaDecl.FileSystem

variable {fs : FileSystem} {intent : Intent} {links further : Nat} {directory top : Location}
  {name : String} {steps more : List String} {place goal : Place} {entry : Entry}
  {children : List (String × Entry)}

/-! ### Links -/

/-- What leads somewhere does so when more links are allowed. -/
theorem Leads.mono (leads : Leads fs intent links directory steps place) (le : links ≤ further) :
    Leads fs intent further directory steps place := by
  induction leads generalizing further with
  | arrive there => exact .arrive there
  | stay stays _ ih => exact .stay stays (ih le)
  | up _ ih => exact .up (ih le)
  | free clear vacant above => exact .free clear vacant above
  | enter clear there _ ih => exact .enter clear there (ih le)
  | file clear there => exact .file clear there
  | link clear there inspects => exact .link clear there inspects
  | @through links _ _ _ _ _ clear there on spelled _ ih =>
    obtain ⟨further, rfl⟩ := Nat.exists_eq_add_of_lt (Nat.lt_of_succ_le le)
    exact .through clear there on spelled (ih (Nat.le_add_right links further))

/-- From a directory that steps lead to, more steps lead on, and the links on both ways count. -/
theorem Leads.append_links (first : Leads fs .reach links directory steps place)
    (ends : place = .present top (.directory children))
    (second : Leads fs .reach further top more goal) :
    Leads fs .reach (links + further) directory (steps ++ more) goal := by
  induction first with
  | arrive _ =>
    obtain ⟨rfl, -⟩ := Place.present.inj ends
    exact second.mono (Nat.le_add_left _ _)
  | stay stays _ ih => exact .stay stays (ih ends)
  | up _ ih => exact .up (ih ends)
  | free _ _ _ => cases ends
  | enter clear there _ ih => exact .enter clear.proper.clear there (ih ends)
  | file _ _ => cases ends
  | link _ _ _ => cases ends
  | through clear there _ spelled _ ih =>
    have onward := ih ends
    rw [List.append_assoc] at onward
    rw [Nat.add_right_comm]
    exact .through clear.proper.clear there (by simp) spelled onward

/-- Of a way that begins with the steps to a directory, the rest leads on from there. -/
theorem Leads.rest (first : Leads fs .reach links directory steps place)
    (ends : place = .present top (.directory children))
    (whole : Leads fs .reach further directory (steps ++ more) goal) :
    Leads fs .reach further top more goal := by
  induction first generalizing further with
  | arrive _ =>
    obtain ⟨rfl, -⟩ := Place.present.inj ends
    exact whole
  | stay stays _ ih =>
    refine ih ends (follow_eq_ok_iff.mp ?_)
    exact (follow_stay stays).symm.trans (follow_eq_ok_iff.mpr whole)
  | up _ ih =>
    exact ih ends (follow_eq_ok_iff.mp (follow_up.symm.trans (follow_eq_ok_iff.mpr whole)))
  | free _ _ _ => cases ends
  | enter clear there _ ih =>
    refine ih ends (follow_eq_ok_iff.mp ?_)
    exact (follow_directory clear.proper there).symm.trans (follow_eq_ok_iff.mpr whole)
  | file _ _ => cases ends
  | link _ _ _ => cases ends
  | through clear there _ spelled _ ih =>
    have followed := follow_eq_ok_iff.mpr whole
    simp only [List.cons_append, follow_name clear.ordinary, clear.proper.no_obstacle, there,
      reduceCtorEq, and_false, if_false] at followed
    cases further with
    | zero => cases followed
    | succ further =>
      simp only [followLink, spelled, Bool.false_eq_true, if_false, ← List.append_assoc] at followed
      exact (ih ends (follow_eq_ok_iff.mp followed)).mono (Nat.le_succ further)

/-! ### Lengths -/

/-- The number of bytes that the names of a location take in a path, with a slash for each. -/
def nameBytes : Location → Nat
  | [] => 0
  | name :: rest => name.utf8ByteSize + 1 + nameBytes rest

@[simp]
theorem nameBytes_append (front rest : Location) :
    nameBytes (front ++ rest) = nameBytes front + nameBytes rest := by
  induction front with
  | nil => simp [nameBytes]
  | cons name front ih =>
    rw [List.cons_append, nameBytes, nameBytes, ih]
    exact (Nat.add_assoc _ _ _).symm

/-- The spelling of a location has a slash before each name. -/
theorem utf8ByteSize_spelling {location : Location} (nonempty : location ≠ []) :
    (spelling location).utf8ByteSize = nameBytes location := by
  have slash : "/".utf8ByteSize = 1 := rfl
  induction location with
  | nil => exact absurd rfl nonempty
  | cons name rest ih =>
    cases rest with
    | nil =>
      rw [spelling, String.intercalate_singleton, String.utf8ByteSize_append, slash]
      exact Nat.add_comm 1 name.utf8ByteSize
    | cons second rest =>
      have further := ih (by simp)
      rw [spelling, String.utf8ByteSize_append, slash] at further
      rw [spelling, String.utf8ByteSize_append, slash, String.intercalate_cons_cons,
        String.utf8ByteSize_append, String.utf8ByteSize_append, slash, nameBytes]
      omega

/-- A location further down is no shorter. -/
theorem utf8ByteSize_spelling_le (front rest : Location) :
    (spelling front).utf8ByteSize ≤ (spelling (front ++ rest)).utf8ByteSize := by
  cases rest with
  | nil => exact Nat.le_of_eq (by rw [List.append_nil])
  | cons name rest =>
    rw [utf8ByteSize_spelling (by simp : front ++ name :: rest ≠ []), nameBytes_append]
    cases front with
    | nil =>
      have root : (spelling []).utf8ByteSize = 1 := rfl
      rw [root, nameBytes, nameBytes]
      omega
    | cons first front =>
      rw [utf8ByteSize_spelling (by simp)]
      exact Nat.le_add_right _ _

/-- A name is looked up by its location if that is short enough. -/
theorem IsProper.clear_spell {rest : List String} (proper : IsProper name)
    (short : (spelling (directory ++ [name])).utf8ByteSize < pathLimit) :
    IsClear .spell directory name rest := by
  have found : ¬ nameLimit < name.utf8ByteSize := Nat.not_lt.mpr proper.short
  have spelled : ¬ pathLimit ≤ (spelling (directory ++ [name])).utf8ByteSize := Nat.not_le.mpr short
  refine ⟨proper.ordinary, ?_⟩
  simp only [obstacle?, reduceCtorEq, false_and, if_false, found, spelled, and_false]

/-- From a location that is short enough, a way whose locations are spelled leads to one. -/
theorem Leads.short_of_spell {location : Location}
    (leads : Leads fs .spell links directory steps place) (ends : place = .present location entry)
    (short : (spelling directory).utf8ByteSize < pathLimit) :
    (spelling location).utf8ByteSize < pathLimit := by
  -- What is looked up is spelled first, and found too long or not.
  have looked {directory : Location} {name : String} {rest : List String}
      (clear : IsClear .spell directory name rest) :
      (spelling (directory ++ [name])).utf8ByteSize < pathLimit := by
    have noObstacle := clear.noObstacle
    simp only [obstacle?] at noObstacle
    split at noObstacle
    · cases noObstacle
    split at noObstacle
    · cases noObstacle
    split at noObstacle
    · cases noObstacle
    · next fits => exact Nat.lt_of_not_le fun long => fits ⟨trivial, long⟩
  induction leads with
  | arrive _ =>
    obtain ⟨rfl, -⟩ := Place.present.inj ends
    exact short
  | stay _ _ ih => exact ih ends short
  | @up _ directory _ _ _ ih =>
    refine ih ends (Nat.lt_of_le_of_lt ?_ short)
    rcases List.eq_nil_or_concat directory with rfl | ⟨front, name, rfl⟩
    · exact Nat.le_refl _
    · rw [List.concat_eq_append, List.dropLast_concat]
      exact utf8ByteSize_spelling_le front [name]
  | free _ _ _ => cases ends
  | enter clear _ _ ih => exact ih ends (looked clear)
  | file clear _ =>
    obtain ⟨rfl, -⟩ := Place.present.inj ends
    exact looked clear
  | link _ _ inspects => cases inspects
  | through _ _ _ _ _ ih =>
    refine ih ends ?_
    unfold startOf
    split
    · decide
    · exact short

end LuaDecl.FileSystem
