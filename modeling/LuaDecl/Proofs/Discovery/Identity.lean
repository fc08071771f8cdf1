import LuaDecl.Discovery
import LuaDecl.Proofs.FileSystem.Passage

/-!
# Identities tell files apart

Two paths to files with the same identity lead to the same file, be the identity the location that
they lead to or, where it is too long to be spelled, what is left of the path as a text
(`fileAt?_eq_of_identity_eq`). While a tree grows, the paths to its files keep their identities.
-/

namespace LuaDecl.Discovery

open FileSystem

variable {fs : FileSystem} {path other : String} {location second : Location}

/-! ### Components -/

/-- The names of a path but for single dots. -/
def properNames (path : String) : List String :=
  (Path.names path).filter (· ≠ ".")

theorem properNames_ne_slash {name : String} (member : name ∈ properNames path) : name ≠ "/" := by
  rintro rfl
  exact Path.noSlash_of_mem_names (List.mem_filter.mp member).1 (by decide)

theorem components_of_isAbsolute (absolute : Path.isAbsolute path = true) :
    Path.components path = "/" :: properNames path := by
  rw [Path.components, if_pos absolute]
  rfl

/-- Only the components of an absolute path begin with a slash. -/
theorem of_components_eq_cons (equal : Path.components path = "/" :: location) :
    Path.isAbsolute path = true ∧ properNames path = location := by
  cases absolute : Path.isAbsolute path with
  | true =>
    rw [components_of_isAbsolute absolute] at equal
    exact ⟨rfl, (List.cons.inj equal).2⟩
  | false =>
    rw [Path.components, if_neg (by simp [absolute])] at equal
    split at equal
    · have start := (List.cons.inj equal).1
      exact absurd start (by decide)
    · have member : "/" ∈ properNames path := by
        rw [List.nil_append] at equal
        rw [properNames, equal]
        exact List.mem_cons_self
      exact absurd rfl (properNames_ne_slash member)

theorem properNames_eq_filter_components (relative : Path.isAbsolute path = false) :
    properNames path = (Path.components path).filter (· ≠ ".") := by
  have own : (properNames path).filter (· ≠ ".") = properNames path := by
    simp [properNames, List.filter_filter]
  rw [Path.components, if_neg (by simp [relative])]
  split
  · rw [List.cons_append, List.filter_cons_of_neg (by simp)]
    exact own.symm
  · exact own.symm

/-- Components say where a path starts and which names it has. -/
theorem of_components_eq (equal : Path.components path = Path.components other) :
    Path.isAbsolute path = Path.isAbsolute other ∧ properNames path = properNames other := by
  cases absolute : Path.isAbsolute path with
  | true =>
    rw [components_of_isAbsolute absolute] at equal
    obtain ⟨same, names⟩ := of_components_eq_cons equal.symm
    exact ⟨same.symm, names.symm⟩
  | false =>
    cases absolute' : Path.isAbsolute other with
    | true =>
      rw [components_of_isAbsolute absolute'] at equal
      rw [(of_components_eq_cons equal).1] at absolute
      cases absolute
    | false =>
      rw [properNames_eq_filter_components absolute, properNames_eq_filter_components absolute',
        equal]
      exact ⟨rfl, rfl⟩

/-! ### Identities -/

/-- The names of a path lead to its file. -/
theorem leads_properNames (found : fs.fileAt? path = some location) :
    ∃ content, Leads fs .reach linkLimit (startOf fs.workingDirectory path) (properNames path)
      (.present location (.file content)) := by
  obtain ⟨content, leads⟩ := fileAt?_eq_some_iff.mp found
  refine ⟨content, (leads.trim (trims_names path)).trim (trims_filter fun name _ dropped => ?_)⟩
  exact Or.inr (by simpa using dropped)

/-- A path whose components spell the location of a file leads there. -/
theorem eq_of_components_eq (tidy : fs.IsTidy) (found : fs.fileAt? path = some location)
    (stands : fs.fileAt? other = some second)
    (spells : Path.components path = "/" :: second) : location = second := by
  obtain ⟨content, leads⟩ := leads_properNames found
  obtain ⟨absolute, names⟩ := of_components_eq_cons spells
  obtain ⟨old, led⟩ := fileAt?_eq_some_iff.mp stands
  have down : Leads fs .reach linkLimit [] second (.present ([] ++ second) (.file old)) :=
    tidy.leads_down led.isIn (by simp)
  rw [startOf, if_pos absolute, names] at leads
  exact (Place.present.inj (leads.unique down)).1

/-- Paths to files with the same identity lead to the same file. -/
theorem fileAt?_eq_of_identity_eq (tidy : fs.IsTidy) (found : fs.fileAt? path = some location)
    (stands : fs.fileAt? other = some second) (same : identity fs path = identity fs other) :
    location = second := by
  unfold identity at same
  cases own : fs.locate? path with
  | some spelled =>
    obtain rfl := eq_of_locate? found own
    cases others : fs.locate? other with
    | some spelled' =>
      obtain rfl := eq_of_locate? stands others
      rw [own, others] at same
      exact (List.cons.inj same).2
    | none =>
      rw [own, others] at same
      exact (eq_of_components_eq tidy stands found same.symm).symm
  | none =>
    cases others : fs.locate? other with
    | some spelled' =>
      obtain rfl := eq_of_locate? stands others
      rw [own, others] at same
      exact eq_of_components_eq tidy found stands same
    | none =>
      rw [own, others] at same
      obtain ⟨absolute, names⟩ := of_components_eq same
      obtain ⟨content, leads⟩ := leads_properNames found
      obtain ⟨content', leads'⟩ := leads_properNames stands
      rw [startOf, ← absolute, ← names] at leads'
      exact (Place.present.inj (leads.unique leads')).1

theorem identity_of_grows {after : FileSystem} {written : Option Location}
    (grown : Grows fs after written) (found : fs.fileAt? path = some location) :
    identity after path = identity fs path := by
  rw [identity, identity, grown.locate? found]

end LuaDecl.Discovery
