import LuaDecl.Proofs.FileSystem.Follow
import LuaDecl.Proofs.Text.Pieces

/-!
# Names in paths

A name of an entry holds no slash, is not empty and is neither of the dots. The names of a path are
between its slashes, so a name that is joined to a path comes behind the names of that path
(`names_join`), and the path starts where it did.
-/

namespace LuaDecl.FileSystem

/-- The name is one that an entry can have. -/
structure IsName (name : String) : Prop where
  proper : IsProper name
  noSlash : '/' ∉ name.toList

instance : DecidablePred IsName := fun name =>
  decidable_of_iff (IsProper name ∧ '/' ∉ name.toList)
    ⟨fun ⟨proper, noSlash⟩ => ⟨proper, noSlash⟩, fun h => ⟨h.proper, h.noSlash⟩⟩

namespace Path

open Text

/-! ### Names -/

theorem noSlash_of_mem_names {path name : String} (member : name ∈ names path) :
    '/' ∉ name.toList := by
  obtain ⟨piece, inside, rfl⟩ := List.mem_map.mp member
  rw [String.toList_ofList]
  exact not_mem_of_mem_pieces (List.mem_filter.mp inside).1

theorem noSlash_of_mem_steps {path name : String} (member : name ∈ steps path) :
    '/' ∉ name.toList := by
  unfold steps at member
  rcases List.mem_append.mp member with named | last
  · exact noSlash_of_mem_names named
  · split at last
    · rw [List.mem_singleton.mp last]
      simp
    · exact absurd last List.not_mem_nil

theorem ne_empty_of_mem_names {path name : String} (member : name ∈ names path) : name ≠ "" := by
  obtain ⟨piece, inside, rfl⟩ := List.mem_map.mp member
  have nonempty : piece ≠ [] := of_decide_eq_true (List.mem_filter.mp inside).2
  intro empty
  exact nonempty (by simpa using congrArg String.toList empty)

theorem names_of_isName {name : String} (valid : IsName name) : names name = [name] := by
  have nonempty : name.toList ≠ [] := by simpa using valid.proper.notEmpty
  simp [names, pieces_of_not_mem valid.noSlash, nonempty]

theorem names_append_slash {path rest whole : String}
    (spelled : whole.toList = path.toList ++ '/' :: rest.toList) :
    names whole = names path ++ names rest := by
  rw [names, spelled, pieces_append, List.filter_append, List.map_append]
  rfl

theorem names_join (directory : String) {name : String} (valid : IsName name) :
    names (join directory name) = names directory ++ [name] := by
  unfold join
  split
  · next direct =>
    rcases Bool.or_eq_true_iff.mp direct with empty | slash
    · obtain rfl : directory = "" := by simpa using empty
      rw [String.empty_append, names_of_isName valid]
      rfl
    · -- The slash at the end leaves no name behind it.
      obtain ⟨front, equal⟩ : ∃ front, directory.toList = front ++ ['/'] :=
        List.getLast?_eq_some_iff.mp (of_decide_eq_true slash)
      have whole : (directory ++ name).toList =
          (String.ofList front).toList ++ '/' :: name.toList := by simp [equal]
      have own : directory.toList =
          (String.ofList front).toList ++ '/' :: ("" : String).toList := by simp [equal]
      have nothing : names "" = [] := rfl
      rw [names_append_slash whole, names_append_slash own, names_of_isName valid, nothing,
        List.append_nil]
  · have whole : (directory ++ "/" ++ name).toList = directory.toList ++ '/' :: name.toList := by
      simp
    rw [names_append_slash whole, names_of_isName valid]

theorem endsInSlash_join (directory : String) {name : String} (valid : IsName name) :
    endsInSlash (join directory name) = false := by
  have nonempty : name.toList ≠ [] := by simpa using valid.proper.notEmpty
  have last : ∀ front : String, (front ++ name).toList.getLast? = name.toList.getLast? := by
    intro front
    rw [String.toList_append, List.getLast?_append]
    cases found : name.toList.getLast? with
    | none => exact absurd (List.getLast?_eq_none_iff.mp found) nonempty
    | some c => rfl
  have noSlash : name.toList.getLast? ≠ some '/' := by
    intro slash
    exact valid.noSlash (List.mem_of_getLast? slash)
  unfold join endsInSlash
  split
  · rw [last]
    exact decide_eq_false noSlash
  · rw [String.append_assoc, ← String.append_assoc, last]
    exact decide_eq_false noSlash

theorem isAbsolute_append {front : String} (nonempty : front ≠ "") (rest : String) :
    isAbsolute (front ++ rest) = isAbsolute front := by
  have characters : front.toList ≠ [] := by simpa using nonempty
  rw [isAbsolute, isAbsolute, String.toList_append, List.head?_append]
  cases found : front.toList.head? with
  | none => exact absurd (List.head?_eq_none_iff.mp found) characters
  | some c => rfl

theorem isAbsolute_join (directory : String) {name : String} (valid : IsName name) :
    isAbsolute (join directory name) = isAbsolute directory := by
  unfold join
  split
  · next direct =>
    by_cases empty : directory = ""
    · subst empty
      have noSlash : name.toList.head? ≠ some '/' := by
        intro slash
        exact valid.noSlash (List.mem_of_head? slash)
      rw [String.empty_append, isAbsolute, decide_eq_false noSlash]
      rfl
    · exact isAbsolute_append empty name
  · next other =>
    have nonempty : directory ≠ "" := by
      rintro rfl
      exact other rfl
    rw [String.append_assoc, isAbsolute_append nonempty]

end Path

end LuaDecl.FileSystem
