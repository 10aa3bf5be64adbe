import Mathlib.Data.List.Pairwise
import TokenApproval.Data
import TokenApproval.Proofs.Outcome

/-!
# Members of an object in any order

What one member does to a record that is being read is `Takes`. Two members can change places since
fields of different names set different parts of the record (`Shape.Commutes`) and a field given
twice is refused in either place; so a record is read from its members in any order, and members of
foreign names can be left out.
-/

namespace TokenApproval.Data

variable {ρ : Type} {shape : Shape ρ} {format : Format} {closed : Bool}

/-- A key, if it denotes a text, and a value. -/
abbrev Member := Option String × Value

namespace Field

/-- Which of two fields is set first does not matter. -/
def Commutes (f g : Field ρ) : Prop :=
  ∀ {format v w set set'}, f.read format v = .ok set → g.read format w = .ok set' →
    ∀ record, set (set' record) = set' (set record)

theorem Commutes.symm {f g : Field ρ} (h : f.Commutes g) : g.Commutes f := by
  intro format v w set set' hset hset' record
  exact (h hset' hset record).symm

instance : Std.Symm (@Field.Commutes ρ) := ⟨fun _ _ => Commutes.symm⟩

/-- Fields commute if what they store does. -/
theorem commutes_of_setters {α β : Type} {first : Reader α} {second : Reader β}
    {set : α → ρ → ρ} {set' : β → ρ → ρ}
    (h : ∀ a b record, set a (set' b record) = set' b (set a record))
    (name other : String) (mandatory mandatory' : Bool) (write write' : ρ → Option Tree) :
    Commutes ⟨name, mandatory, Reader.map first set, write⟩
      ⟨other, mandatory', Reader.map second set', write'⟩ := by
  intro format v w _ _ hset hset' record
  obtain ⟨a, -, rfl⟩ := Outcome.map_eq_ok_iff.mp hset
  obtain ⟨b, -, rfl⟩ := Outcome.map_eq_ok_iff.mp hset'
  exact h a b record

end Field

namespace Shape

def names (shape : Shape ρ) : List String := shape.fields.map Field.name

def Commutes (shape : Shape ρ) : Prop := shape.fields.Pairwise Field.Commutes

theorem field?_eq_none_iff {name : String} : shape.field? name = none ↔ name ∉ shape.names := by
  simp [field?, names, List.find?_eq_none]

theorem field?_eq_some {name : String} {field : Field ρ} (h : shape.field? name = some field) :
    field ∈ shape.fields ∧ field.name = name :=
  ⟨List.mem_of_find?_eq_some h, by simpa using List.find?_some h⟩

/-! ## One member -/

/-- A member turns the names given so far and the record into these. -/
inductive Takes (shape : Shape ρ) (format : Format) :
    Member → List String × ρ → List String × ρ → Prop
  | foreign {name : String} {value : Value} {seen : List String} {record : ρ}
      (hname : shape.field? name = none) (hvalue : value.isComplete = true) :
      Takes shape format (some name, value) (seen, record) (seen, record)
  | own {name : String} {value : Value} {field : Field ρ} {set : ρ → ρ} {seen : List String}
      {record : ρ} (hname : shape.field? name = some field) (hnew : name ∉ seen)
      (hread : field.read format value = .ok set) :
      Takes shape format (some name, value) (seen, record) (name :: seen, set record)

theorem readMembers_cons_eq_ok_iff {seen : List String} {record result : ρ} {member : Member}
    {rest : List Member} :
    shape.readMembers format closed seen record (member :: rest) = .ok result ↔
      ∃ after, shape.Takes format member (seen, record) after
        ∧ shape.readMembers format closed after.1 after.2 rest = .ok result := by
  obtain ⟨key, value⟩ := member
  cases key with
  | none =>
    constructor
    · intro h
      cases h
    · rintro ⟨_, ⟨⟩, -⟩
  | some name =>
    rw [readMembers]
    constructor
    · intro h
      split at h
      · next hname =>
        split at h
        · next hvalue => exact ⟨_, .foreign hname hvalue, h⟩
        · cases h
      · next field hname =>
        split at h
        · cases h
        · next hnew =>
          split at h
          · cases h
          · next set hread => exact ⟨_, .own hname (by simpa using hnew) hread, h⟩
    · rintro ⟨_, ⟨hname, hvalue⟩ | ⟨hname, hnew, hread⟩, h⟩
      · simpa only [hname, hvalue, if_true] using h
      · simpa [hname, hnew, hread] using h

/-- Of the names given so far it only matters which they are. -/
theorem readMembers_congr {a b : List String} (h : ∀ name, name ∈ a ↔ name ∈ b) (record : ρ)
    (members : List Member) :
    shape.readMembers format closed a record members =
      shape.readMembers format closed b record members := by
  have hcontains {a b : List String} (h : ∀ name, name ∈ a ↔ name ∈ b) (name : String) :
      a.contains name = b.contains name := by
    rw [Bool.eq_iff_iff, List.contains_iff_mem, List.contains_iff_mem, h]
  induction members generalizing a b record with
  | nil => simp only [readMembers, finish, hcontains h]
  | cons member rest ih =>
    obtain ⟨key, value⟩ := member
    cases key with
    | none => rfl
    | some name =>
      have hnext : ∀ other, other ∈ name :: a ↔ other ∈ name :: b := by simp [h]
      simp only [readMembers, hcontains h, ih h, ih hnext]

/-! ## Members in any order -/

/-- Two members can change places. -/
theorem Takes.swap (hcommutes : shape.Commutes) {first second : Member}
    {before between after : List String × ρ} (hfirst : shape.Takes format first before between)
    (hsecond : shape.Takes format second between after) :
    ∃ other last, shape.Takes format second before other ∧ shape.Takes format first other last
      ∧ (∀ name, name ∈ last.1 ↔ name ∈ after.1) ∧ last.2 = after.2 := by
  cases hfirst with
  | foreign hname hvalue =>
    cases hsecond with
    | foreign hname' hvalue' =>
      exact ⟨_, _, .foreign hname' hvalue', .foreign hname hvalue, fun _ => Iff.rfl, rfl⟩
    | own hname' hnew' hread' =>
      exact ⟨_, _, .own hname' hnew' hread', .foreign hname hvalue, fun _ => Iff.rfl, rfl⟩
  | own hname hnew hread =>
    cases hsecond with
    | foreign hname' hvalue' =>
      exact ⟨_, _, .foreign hname' hvalue', .own hname hnew hread, fun _ => Iff.rfl, rfl⟩
    | own hname' hnew' hread' =>
      rename_i name value field set seen record name' value' field' set'
      -- the second field is new behind the first one, so it is another field
      obtain ⟨hne, hfresh⟩ := not_or.mp (mt List.mem_cons.mpr hnew')
      obtain ⟨hfield, rfl⟩ := field?_eq_some hname
      obtain ⟨hfield', rfl⟩ := field?_eq_some hname'
      have hfields : field' ≠ field := fun heq => hne (congrArg Field.name heq)
      have hset : field'.Commutes field := hcommutes.forall hfield' hfield hfields
      refine ⟨_, _, .own hname' hfresh hread', .own hname ?_ hread, fun other => ?_, ?_⟩
      · simp [hnew, Ne.symm hne]
      · simp only [List.mem_cons]
        exact or_left_comm
      · exact (hset hread' hread record).symm

/-- A record is read from its members in any order. -/
theorem readMembers_perm (hcommutes : shape.Commutes) {members others : List Member}
    (h : members.Perm others) {seen : List String} {record result : ρ}
    (hread : shape.readMembers format closed seen record members = .ok result) :
    shape.readMembers format closed seen record others = .ok result := by
  induction h generalizing seen record with
  | nil => exact hread
  | cons member _ ih =>
    obtain ⟨after, htakes, hrest⟩ := readMembers_cons_eq_ok_iff.mp hread
    exact readMembers_cons_eq_ok_iff.mpr ⟨after, htakes, ih hrest⟩
  | swap second first rest =>
    obtain ⟨between, hfirst, hread⟩ := readMembers_cons_eq_ok_iff.mp hread
    obtain ⟨after, hsecond, hrest⟩ := readMembers_cons_eq_ok_iff.mp hread
    obtain ⟨other, last, hsecond, hfirst, hnames, hrecord⟩ := hfirst.swap hcommutes hsecond
    -- the names come out in another order, which does not matter further on
    refine readMembers_cons_eq_ok_iff.mpr ⟨other, hsecond,
      readMembers_cons_eq_ok_iff.mpr ⟨last, hfirst, ?_⟩⟩
    rw [readMembers_congr hnames, hrecord]
    exact hrest
  | trans _ _ ih ih' => exact ih' (ih hread)

/-! ## Members that say the same -/

/-- A member of a foreign name is skipped. -/
theorem readMembers_foreign {name : String} {value : Value} (hname : name ∉ shape.names)
    (hvalue : value.isComplete = true) (seen : List String) (record : ρ) (members : List Member) :
    shape.readMembers format closed seen record ((some name, value) :: members) =
      shape.readMembers format closed seen record members := by
  rw [readMembers, field?_eq_none_iff.mpr hname]
  exact if_pos hvalue

/-- A value can be replaced by one that its field reads alike. -/
theorem readMembers_alike {name : String} {value other : Value} (hown : name ∈ shape.names)
    (halike : ∀ field ∈ shape.fields, field.name = name → ∀ set,
      field.read format value = .ok set → field.read format other = .ok set)
    {seen : List String} {record result : ρ} {members : List Member}
    (hread : shape.readMembers format closed seen record ((some name, value) :: members) =
      .ok result) :
    shape.readMembers format closed seen record ((some name, other) :: members) = .ok result := by
  obtain ⟨after, htakes, hrest⟩ := readMembers_cons_eq_ok_iff.mp hread
  refine readMembers_cons_eq_ok_iff.mpr ⟨after, ?_, hrest⟩
  cases htakes with
  | foreign hname _ => exact absurd hown (field?_eq_none_iff.mp hname)
  | own hname hnew hread =>
    obtain ⟨hfield, hfieldName⟩ := field?_eq_some hname
    exact .own hname hnew (halike _ hfield hfieldName _ hread)

/-! ## Objects that are refused -/

/-- A record is not read from an object with a key that denotes no text. -/
theorem not_nameless_of_readMembers {members : List Member} {seen : List String}
    {record result : ρ} (hread : shape.readMembers format closed seen record members = .ok result) :
    none ∉ members.map Prod.fst := by
  induction members generalizing seen record with
  | nil => exact List.not_mem_nil
  | cons member rest ih =>
    obtain ⟨after, htakes, hrest⟩ := readMembers_cons_eq_ok_iff.mp hread
    rw [List.map_cons, List.mem_cons, not_or]
    refine ⟨?_, ih hrest⟩
    cases htakes with
    | foreign _ _ => exact Option.some_ne_none _ ∘ Eq.symm
    | own _ _ _ => exact Option.some_ne_none _ ∘ Eq.symm

/-- A name that was given is not given again. -/
theorem not_mem_of_readMembers {members : List Member} {seen : List String} {record result : ρ}
    (hread : shape.readMembers format closed seen record members = .ok result) {name : String}
    (hown : name ∈ shape.names) (hseen : name ∈ seen) : some name ∉ members.map Prod.fst := by
  induction members generalizing seen record with
  | nil => exact List.not_mem_nil
  | cons member rest ih =>
    obtain ⟨after, htakes, hrest⟩ := readMembers_cons_eq_ok_iff.mp hread
    rw [List.map_cons, List.mem_cons, not_or]
    cases htakes with
    | foreign hname _ =>
      refine ⟨?_, ih hrest hseen⟩
      rintro ⟨⟩
      exact field?_eq_none_iff.mp hname hown
    | own hname hnew _ =>
      refine ⟨?_, ih hrest (List.mem_cons_of_mem _ hseen)⟩
      rintro ⟨⟩
      exact hnew hseen

/-- A record is not read from an object that gives a field twice. -/
theorem not_sublist_of_readMembers {members : List Member} {seen : List String} {record result : ρ}
    (hread : shape.readMembers format closed seen record members = .ok result) {name : String}
    (hown : name ∈ shape.names) : ¬ [some name, some name].Sublist (members.map Prod.fst) := by
  induction members generalizing seen record with
  | nil => simp
  | cons member rest ih =>
    obtain ⟨after, htakes, hrest⟩ := readMembers_cons_eq_ok_iff.mp hread
    obtain ⟨key, value⟩ := member
    intro htwice
    cases htwice with
    | cons _ htwice => exact ih hrest htwice
    | cons_cons _ honce =>
      cases htakes with
      | foreign hname _ => exact field?_eq_none_iff.mp hname hown
      | own _ _ _ =>
        have hagain := honce.subset List.mem_cons_self
        exact not_mem_of_readMembers hrest hown List.mem_cons_self hagain

end Shape

end TokenApproval.Data
