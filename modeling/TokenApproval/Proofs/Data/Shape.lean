import TokenApproval.Data

/-!
# What written documents and records are read as

`Tree.value` is the value that a reader of a written tree finds, provided that every integer of the
tree is one that documents can hold.
-/

namespace TokenApproval.Data

/-- The integers that a document can hold. -/
def FitsNumber (value : Int) : Prop := -(signedBound : Int) ≤ value ∧ value < UInt64.size

namespace Tree

mutual

/-- What a tree is read as. -/
def value : Tree → Value
  | .null => .null
  | .integer n => .number (.integer n)
  | .text written => .text written
  | .list items => .array (values items) true
  | .record members => .object (memberValues members) true

def values : List Tree → List Value
  | [] => []
  | item :: rest => item.value :: values rest

def memberValues : List (String × Tree) → List (Option String × Value)
  | [] => []
  | (key, item) :: rest => (some key, item.value) :: memberValues rest

end

mutual

/-- Whether documents can hold every integer of a tree. -/
def Fits : Tree → Prop
  | .null => True
  | .integer n => FitsNumber n
  | .text _ => True
  | .list items => FitsAll items
  | .record members => FitsMembers members

def FitsAll : List Tree → Prop
  | [] => True
  | item :: rest => item.Fits ∧ FitsAll rest

def FitsMembers : List (String × Tree) → Prop
  | [] => True
  | (_, item) :: rest => item.Fits ∧ FitsMembers rest

end

theorem values_eq_map (items : List Tree) : values items = items.map value := by
  induction items with
  | nil => rw [values, List.map_nil]
  | cons item items ih => rw [values, List.map_cons, ih]

theorem fitsAll_iff {items : List Tree} : FitsAll items ↔ ∀ item ∈ items, item.Fits := by
  induction items with
  | nil => simp [FitsAll]
  | cons item items ih => rw [FitsAll, ih, List.forall_mem_cons]

end Tree

/-! ## Written records are read back

A record is read back from its object if every field is: `Field.Restores` says that reading what a
field writes puts it into a record, `Shape.Restores` that the fields together turn the blank record
into the written one. No field name may stand for two fields. -/

variable {ρ α κ : Type}

/-- Among elements of different keys each is found by its key. -/
theorem find?_key_of_mem [BEq κ] [LawfulBEq κ] {key : α → κ} {list : List α} {a : α}
    (hnodup : (list.map key).Nodup) (ha : a ∈ list) : list.find? (key · == key a) = some a := by
  induction list with
  | nil => cases ha
  | cons b list ih =>
    rw [List.map_cons, List.nodup_cons] at hnodup
    obtain ⟨hnew, hrest⟩ := hnodup
    rcases List.mem_cons.mp ha with rfl | hlater
    · rw [List.find?_cons, beq_self_eq_true]
    · have hne : key b ≠ key a := by
        intro heq
        exact hnew (heq ▸ List.mem_map_of_mem hlater)
      rw [List.find?_cons, beq_eq_false_iff_ne.mpr hne]
      exact ih hrest hlater

namespace Field

/-- Reading what the field writes of `record` turns `before` into `after`. -/
def Restores (field : Field ρ) (record before after : ρ) : Prop :=
  match field.write record with
  | none => field.mandatory = false ∧ after = before
  | some tree => tree.Fits ∧ ∃ set, field.read .json tree.value = .ok set ∧ set before = after

theorem restores_required {name : String} {reader : Reader α} {set : α → ρ → ρ} {write : ρ → Tree}
    {record before : ρ} {a : α} (hfits : (write record).Fits)
    (hread : reader .json (write record).value = .ok a) :
    (required name reader set write).Restores record before (set a before) := by
  refine ⟨hfits, set a, ?_, rfl⟩
  show (reader .json (write record).value).map set = .ok (set a)
  rw [hread]
  rfl

/-- A field that is left out where it is empty is read back whether it is written or not. -/
theorem restores_optional {name : String} {reader : Reader (Option α)} {set : Option α → ρ → ρ}
    {get : ρ → Option α} {write : α → Tree} {record before : ρ} (hblank : set none before = before)
    (hfits : ∀ a, (write a).Fits) (hread : ∀ a, reader .json (write a).value = .ok (some a)) :
    (optional name reader set get write).Restores record before (set (get record) before) := by
  show match (get record).map write with
    | none => false = false ∧ set (get record) before = before
    | some tree => tree.Fits ∧ ∃ setter, (reader .json tree.value).map set = .ok setter
      ∧ setter before = set (get record) before
  cases get record with
  | none => exact ⟨rfl, hblank⟩
  | some a =>
    refine ⟨hfits a, set (some a), ?_, rfl⟩
    rw [hread]
    rfl

end Field

namespace Shape

/-- The fields turn `before` into `record`. -/
def RestoresFrom (record : ρ) : List (Field ρ) → ρ → Prop
  | [], before => before = record
  | field :: fields, before =>
    ∃ after, field.Restores record before after ∧ RestoresFrom record fields after

/-- The fields of a shape turn its blank record into `record`. -/
def Restores (shape : Shape ρ) (record : ρ) : Prop :=
  RestoresFrom record shape.fields shape.blank

/-- The members that fields write. -/
def written (fields : List (Field ρ)) (record : ρ) : List (String × Tree) :=
  fields.filterMap fun field => (field.write record).map (field.name, ·)

theorem written_cons (field : Field ρ) (fields : List (Field ρ)) (record : ρ) :
    written (field :: fields) record =
      match field.write record with
      | none => written fields record
      | some tree => (field.name, tree) :: written fields record := by
  unfold written
  rw [List.filterMap_cons]
  cases field.write record <;> rfl

theorem fits_written {record before : ρ} {fields : List (Field ρ)}
    (h : RestoresFrom record fields before) : Tree.FitsMembers (written fields record) := by
  induction fields generalizing before with
  | nil => exact True.intro
  | cons field fields ih =>
    obtain ⟨after, hfield, hrest⟩ := h
    rw [written_cons]
    unfold Field.Restores at hfield
    split
    · exact ih hrest
    · next tree htree =>
      rw [htree] at hfield
      exact ⟨hfield.1, ih hrest⟩

/-- Nothing is missing once every mandatory field was given. -/
theorem finish_of_seen {shape : Shape ρ} {seen : List String} {record : ρ}
    (h : ∀ field ∈ shape.fields, field.mandatory = true → field.name ∈ seen) :
    shape.finish seen record = .ok record := by
  have hnone : (shape.fields.find? fun field => field.mandatory && !seen.contains field.name) =
      none := by
    rw [List.find?_eq_none]
    intro field hfield hmissing
    rw [Bool.and_eq_true, Bool.not_eq_true', List.contains_eq_mem, decide_eq_false_iff_not]
      at hmissing
    exact hmissing.2 (h field hfield hmissing.1)
  rw [finish, hnone]

/-! ### Reading on behind the first fields -/

/-- The reader is behind the fields `done` and before `fields`, and has come upon those of the names
`seen`. -/
structure Progress (shape : Shape ρ) (done fields : List (Field ρ)) (seen : List String) :
    Prop where
  split : shape.fields = done ++ fields
  given : ∀ field ∈ done, field.mandatory = true → field.name ∈ seen
  behind : ∀ name ∈ seen, name ∈ done.map Field.name

namespace Progress

variable {shape : Shape ρ} {done fields : List (Field ρ)} {field : Field ρ} {seen : List String}

theorem split_next (h : shape.Progress done (field :: fields) seen) :
    shape.fields = (done ++ [field]) ++ fields := by
  rw [h.split, List.append_assoc, List.singleton_append]

/-- A field that need not be given may be left out. -/
theorem leave (h : shape.Progress done (field :: fields) seen)
    (hoptional : field.mandatory = false) : shape.Progress (done ++ [field]) fields seen where
  split := h.split_next
  given := by
    intro other hother hmandatory
    rcases List.mem_append.mp hother with hbefore | hlast
    · exact h.given other hbefore hmandatory
    · obtain rfl := List.mem_singleton.mp hlast
      rw [hoptional] at hmandatory
      cases hmandatory
  behind := by
    intro name hname
    rw [List.map_append]
    exact List.mem_append_left _ (h.behind name hname)

theorem give (h : shape.Progress done (field :: fields) seen) :
    shape.Progress (done ++ [field]) fields (field.name :: seen) where
  split := h.split_next
  given := by
    intro other hother hmandatory
    rcases List.mem_append.mp hother with hbefore | hlast
    · exact List.mem_cons_of_mem _ (h.given other hbefore hmandatory)
    · obtain rfl := List.mem_singleton.mp hlast
      exact List.mem_cons_self
  behind := by
    intro name hname
    rw [List.map_append]
    rcases List.mem_cons.mp hname with rfl | hold
    · exact List.mem_append_right _ List.mem_cons_self
    · exact List.mem_append_left _ (h.behind name hold)

/-- The next field is found by its name, and was not given before. -/
theorem next_field (h : shape.Progress done (field :: fields) seen)
    (hnames : (shape.fields.map Field.name).Nodup) :
    shape.field? field.name = some field ∧ seen.contains field.name = false := by
  have hmem : field ∈ shape.fields := h.split ▸ List.mem_append_right _ List.mem_cons_self
  refine ⟨find?_key_of_mem hnames hmem, ?_⟩
  rw [List.contains_eq_mem, decide_eq_false_iff_not]
  intro hold
  rw [h.split, List.map_append, List.nodup_append] at hnames
  exact hnames.2.2 _ (h.behind _ hold) _ List.mem_cons_self rfl

end Progress

/-- What the remaining fields write is read into the record. -/
theorem readMembers_written {shape : Shape ρ} (hnames : (shape.fields.map Field.name).Nodup)
    {record : ρ} {fields done : List (Field ρ)} {before : ρ} {seen : List String}
    (hprogress : shape.Progress done fields seen) (hrestores : RestoresFrom record fields before) :
    shape.readMembers .json true seen before (Tree.memberValues (written fields record)) =
      .ok record := by
  induction fields generalizing done before seen with
  | nil =>
    obtain rfl : before = record := hrestores
    have hsplit := hprogress.split
    rw [List.append_nil] at hsplit
    exact finish_of_seen (hsplit ▸ hprogress.given)
  | cons field fields ih =>
    obtain ⟨after, hfield, hrest⟩ := hrestores
    unfold Field.Restores at hfield
    rw [written_cons]
    cases htree : field.write record with
    | none =>
      rw [htree] at hfield
      obtain ⟨hoptional, rfl⟩ := hfield
      exact ih (hprogress.leave hoptional) hrest
    | some tree =>
      rw [htree] at hfield
      obtain ⟨-, set, hread, rfl⟩ := hfield
      obtain ⟨hfound, hnew⟩ := hprogress.next_field hnames
      rw [Tree.memberValues, readMembers]
      simp only [hfound, hnew, hread, Bool.false_eq_true, if_false]
      exact ih hprogress.give hrest

/-- A written record is read back. -/
theorem read_write {shape : Shape ρ} {record : ρ} (hnames : (shape.fields.map Field.name).Nodup)
    (h : shape.Restores record) : shape.read .json (shape.write record).value = .ok record := by
  have hprogress : shape.Progress [] shape.fields [] :=
    ⟨rfl, fun _ hfield => absurd hfield List.not_mem_nil,
      fun _ hname => absurd hname List.not_mem_nil⟩
  have hread := readMembers_written hnames hprogress h
  rw [write, Tree.value]
  exact hread

theorem fits_write {shape : Shape ρ} {record : ρ} (h : shape.Restores record) :
    (shape.write record).Fits := fits_written h

end Shape

end TokenApproval.Data
