import TokenApproval.Files
import TokenApproval.Proofs.Outcome
import TokenApproval.Proofs.Text

/-!
# Files in a directory

A path that is one plain name leads to the file of that name. So the files of a directory are read
back under their names, and no others are, whichever directories are made beside them.
-/

namespace TokenApproval

theorem Files.readText_of_read {files : Files} {path text : String}
    (h : files.read path = .ok (Text.bytes text)) : files.readText path = .ok text :=
  Outcome.bind_eq_ok_iff.mpr ⟨_, h, by simp only [Text.ofBytes?_bytes]⟩

/-! ## Plain names -/

namespace Place

/-- A file can have this name: a path of it alone leads there. -/
structure IsName (name : String) : Prop where
  nonempty : name ≠ ""
  ne_dot : name ≠ "."
  ne_dots : name ≠ ".."
  slash_not_mem : '/' ∉ name.toList
  zero_not_mem : Char.ofNat 0 ∉ name.toList
  size_le : name.utf8ByteSize ≤ Directory.maxName

theorem isName_iff {name : String} :
    IsName name ↔ name ≠ "" ∧ name ≠ "." ∧ name ≠ ".." ∧ '/' ∉ name.toList
      ∧ Char.ofNat 0 ∉ name.toList ∧ name.utf8ByteSize ≤ Directory.maxName :=
  ⟨fun ⟨h₁, h₂, h₃, h₄, h₅, h₆⟩ => ⟨h₁, h₂, h₃, h₄, h₅, h₆⟩,
    fun ⟨h₁, h₂, h₃, h₄, h₅, h₆⟩ => ⟨h₁, h₂, h₃, h₄, h₅, h₆⟩⟩

instance (name : String) : Decidable (IsName name) := decidable_of_iff _ isName_iff.symm

namespace IsName

variable {name : String} (h : IsName name)
include h

theorem names_eq : names name = [name] := by
  have hslash : ∀ c ∈ name.toList, (c == '/') = false :=
    fun c hc => beq_false_of_ne fun heq => h.slash_not_mem (heq ▸ hc)
  rw [names, List.splitOnP_eq_singleton hslash, List.map_singleton, String.ofList_toList]

theorem start_eq : start name = [] := by
  refine if_neg fun hstarts => h.slash_not_mem ?_
  exact (String.startsWith_string_iff.mp hstarts).subset (List.mem_singleton_self '/')

theorem step_eq (place : Place) : place.step name = name :: place := by
  unfold step
  rw [if_neg (not_or.mpr ⟨h.nonempty, h.ne_dot⟩), if_neg h.ne_dots]

theorem ofPath_eq : ofPath name = [name] := by
  rw [ofPath, h.names_eq, h.start_eq, List.foldl_cons, List.foldl_nil, h.step_eq]
  rfl

end IsName

end Place

/-! ## Directories -/

namespace Directory

open Place (IsName)

variable {name : String} {directory : Directory} {files : List (String × Bytes)}

theorem isDirectory_name_iff (h : IsName name) :
    directory.isDirectory [name] = true ↔ (∃ place ∈ directory.made, [name] <+: place)
      ∨ ∃ file ∈ directory.contents, [name] <+: file.1 ∧ [name] ≠ file.1 := by
  have hroot : [name] ≠ Place.root := by
    intro heq
    obtain rfl := List.singleton_inj.mp heq
    exact h.slash_not_mem (by decide)
  simp [isDirectory, h.ne_dots, hroot]

theorem read_name (h : IsName name) :
    directory.read name =
      if directory.isDirectory [name] then .error .isDirectory
      else (directory.contents.lookup [name]).elim (.error .notFound) .ok := by
  have hzero : name.toList.contains (Char.ofNat 0) = false := by
    simpa using h.zero_not_mem
  have hsize := h.size_le
  have hpath : ¬ maxPath < name.utf8ByteSize := by
    simp only [maxName, maxPath] at hsize ⊢
    omega
  rw [read, hzero, if_neg (by decide), if_neg hpath, if_neg h.nonempty, h.names_eq, h.start_eq,
    follow, if_neg (Nat.not_lt.mpr hsize), h.step_eq]
  simp only [List.reverse_singleton]
  cases directory.contents.lookup [name] <;> rfl

/-- Directories are made beside the files, which stay as they are. -/
theorem contents_foldl_withPath (made : List String) :
    (made.foldl withPath directory).contents = directory.contents := by
  induction made generalizing directory with
  | nil => rfl
  | cons path rest ih => exact ih

theorem mem_made_foldl_withPath {made : List String} {place : Place} :
    place ∈ (made.foldl withPath directory).made ↔ place ∈ directory.made
      ∨ ∃ path ∈ made, ∃ passed ∈ Place.passed (Place.start path) (Place.names path),
        passed.reverse = place := by
  induction made generalizing directory with
  | nil => simp
  | cons path rest ih =>
    rw [List.foldl_cons, ih]
    simp only [withPath, List.mem_append, List.mem_map, List.exists_mem_cons_iff]
    rw [or_comm (b := place ∈ directory.made), or_assoc]

theorem contents_ofList (hfiles : ∀ file ∈ files, IsName file.1) :
    (ofList files).contents = files.map fun file => ([file.1], file.2) := by
  refine List.map_congr_left fun file hfile => ?_
  rw [(hfiles file hfile).ofPath_eq]

theorem lookup_ofList (hfiles : ∀ file ∈ files, IsName file.1) :
    (ofList files).contents.lookup [name] = files.lookup name := by
  rw [contents_ofList hfiles]
  clear hfiles
  induction files with
  | nil => rfl
  | cons file rest ih =>
    rw [List.map_cons, List.lookup_cons, List.lookup_cons, ih]
    simp

/-- Files under plain names are read back, whatever directories are made under other names. -/
theorem read_after (hfiles : ∀ file ∈ files, IsName file.1) (hname : IsName name)
    {made : List String} (hmade : ∀ path ∈ made,
      ∀ passed ∈ Place.passed (Place.start path) (Place.names path), ¬ [name] <+: passed.reverse) :
    ((ofList files).disk.after made).read name =
      (files.lookup name).elim (.error .notFound) .ok := by
  have hfile : ¬ (made.foldl withPath (ofList files)).isDirectory [name] = true := by
    rw [isDirectory_name_iff hname, contents_foldl_withPath, contents_ofList hfiles]
    rintro (⟨place, hplace, hprefix⟩ | ⟨file, hfile, hprefix, hother⟩)
    · rcases mem_made_foldl_withPath.mp hplace with hplace | ⟨path, hpath, passed, hpassed, rfl⟩
      · cases hplace
      · exact hmade path hpath passed hpassed hprefix
    · obtain ⟨first, hfirst, rfl⟩ := List.mem_map.mp hfile
      exact hother (List.IsPrefix.eq_of_length hprefix rfl)
  show (made.foldl withPath (ofList files)).read name = _
  rw [read_name hname, if_neg hfile, contents_foldl_withPath, lookup_ofList hfiles]

end Directory

end TokenApproval
