import Mathlib.Data.List.Forall2

/-!
# Results of steps that may fail

When a sequence of fallible steps, or a step followed by a conversion, succeeds, which errors a step
has, and which of several faults a sequence of steps reports.
-/

namespace TokenApproval.Outcome

variable {ε δ α β : Type}

@[simp] theorem ok_bind (a : α) (f : α → Except ε β) : (Except.ok a >>= f) = f a := rfl

@[simp] theorem error_bind (e : ε) (f : α → Except ε β) : (Except.error e >>= f) = .error e := rfl

/-- A sequence succeeds if its first step does and the second one does on what that gave. -/
theorem bind_eq_ok_iff {x : Except ε α} {f : α → Except ε β} {b : β} :
    x >>= f = .ok b ↔ ∃ a, x = .ok a ∧ f a = .ok b := by
  constructor
  · intro h
    cases x with
    | error e => cases h
    | ok a => exact ⟨a, rfl, h⟩
  · rintro ⟨a, rfl, hf⟩
    exact hf

theorem map_eq_ok_iff {x : Except ε α} {f : α → β} {b : β} :
    x.map f = .ok b ↔ ∃ a, x = .ok a ∧ f a = b := by
  constructor
  · intro h
    cases x with
    | error e => cases h
    | ok a => exact ⟨a, rfl, Except.ok.inj h⟩
  · rintro ⟨a, rfl, rfl⟩
    rfl

theorem map_eq_error_iff {x : Except ε α} {f : α → β} {e : ε} :
    x.map f = .error e ↔ x = .error e := by
  cases x with
  | error other => simp [Except.map]
  | ok a => simp [Except.map]

theorem mapError_eq_ok_iff {x : Except ε α} {f : ε → δ} {a : α} :
    x.mapError f = .ok a ↔ x = .ok a := by
  cases x with
  | error e => exact ⟨fun h => (by cases h), fun h => (by cases h)⟩
  | ok b =>
    exact ⟨fun h => congrArg _ (Except.ok.inj h), fun h => congrArg _ (Except.ok.inj h)⟩

/-- A search whose failure is an error succeeds with what it finds. -/
theorem elim_eq_ok_iff {found : Option α} {e : ε} {a : α} :
    found.elim (.error e) .ok = (.ok a : Except ε α) ↔ found = some a := by
  cases found with
  | none => exact ⟨fun h => (by cases h), fun h => (by cases h)⟩
  | some b =>
    exact ⟨fun h => congrArg some (Except.ok.inj h), fun h => congrArg _ (Option.some.inj h)⟩

/-- A step that undoes a conversion goes through a converted list. -/
theorem mapM_map_eq_ok {f : β → Except ε α} {g : α → β} {list : List α}
    (h : ∀ a ∈ list, f (g a) = .ok a) : (list.map g).mapM f = .ok list := by
  induction list with
  | nil => rfl
  | cons a list ih =>
    rw [List.map_cons, List.mapM_cons, h a List.mem_cons_self,
      ih fun b hb => h b (List.mem_cons_of_mem a hb)]
    rfl

theorem mapM_eq_ok_iff {f : α → Except ε β} {list : List α} {values : List β} :
    list.mapM f = .ok values ↔ List.Forall₂ (fun a b => f a = .ok b) list values := by
  induction list generalizing values with
  | nil =>
    constructor
    · intro h
      obtain rfl : [] = values := Except.ok.inj h
      exact .nil
    · rintro ⟨⟩
      rfl
  | cons a list ih =>
    rw [List.mapM_cons, bind_eq_ok_iff]
    constructor
    · rintro ⟨b, hb, hrest⟩
      obtain ⟨rest, hlist, hvalues⟩ := bind_eq_ok_iff.mp hrest
      obtain rfl : b :: rest = values := Except.ok.inj hvalues
      exact .cons hb (ih.mp hlist)
    · rintro (_ | ⟨hb, hrest⟩)
      exact ⟨_, hb, bind_eq_ok_iff.mpr ⟨_, ih.mpr hrest, rfl⟩⟩

/-! ## Which errors a step has -/

/-- A failure is of a kind. -/
def ErrsOnly (p : ε → Prop) (x : Except ε α) : Prop := ∀ e, x = .error e → p e

theorem errsOnly_ok (p : ε → Prop) (a : α) : ErrsOnly p (.ok a : Except ε α) := by
  intro e h
  cases h

theorem errsOnly_error {p : ε → Prop} {e : ε} (he : p e) :
    ErrsOnly p (.error e : Except ε α) := by
  rintro _ ⟨⟩
  exact he

theorem errsOnly_bind {p : ε → Prop} {x : Except ε α} {f : α → Except ε β} (hx : ErrsOnly p x)
    (hf : ∀ a, ErrsOnly p (f a)) : ErrsOnly p (x >>= f) := by
  cases x with
  | error e => exact errsOnly_error (hx e rfl)
  | ok a => exact hf a

/-- A success is told apart from errors without comparing these. -/
theorem eq_ok_of_toOption {x : Except ε α} {a : α} (h : x.toOption = some a) : x = .ok a := by
  cases x with
  | error e => cases h
  | ok b => exact congrArg Except.ok (Option.some.inj h)

theorem toOption_eq_some_iff {x : Except ε α} {a : α} : x.toOption = some a ↔ x = .ok a := by
  constructor
  · exact eq_ok_of_toOption
  · rintro rfl
    rfl

/-! ## Faults in order -/

/-- A step fails with the first of its faults, and succeeds if it has none. -/
def Reports (x : Except ε α) (faults : List ε) : Prop :=
  ∀ e, x = .error e ↔ faults.head? = some e

def faults : Except ε α → List ε
  | .error e => [e]
  | .ok _ => []

theorem faults_eq_nil_iff {x : Except ε α} : faults x = [] ↔ ∃ a, x = .ok a := by
  cases x with
  | error e => simp [faults]
  | ok a => simp [faults]

theorem reports_ok (a : α) : Reports (.ok a : Except ε α) [] := by
  intro e
  constructor
  · intro h
    cases h
  · intro h
    cases h

theorem reports_error (e : ε) : Reports (.error e : Except ε α) [e] := by
  intro other
  rw [Except.error.injEq, List.head?_cons, Option.some.injEq]

theorem reports_mapError (x : Except ε α) (f : ε → δ) :
    Reports (x.mapError f) ((faults x).map f) := by
  cases x with
  | error e => exact reports_error (f e)
  | ok a => exact reports_ok a

theorem Reports.exists_ok_iff {x : Except ε α} {faults : List ε} (h : Reports x faults) :
    (∃ a, x = .ok a) ↔ faults = [] := by
  constructor
  · rintro ⟨a, rfl⟩
    cases faults with
    | nil => rfl
    | cons e rest => cases (h e).mpr rfl
  · rintro rfl
    cases x with
    | ok a => exact ⟨a, rfl⟩
    | error e => cases (h e).mp rfl

/-- The faults of a sequence are those of its first part, then those of its second one. -/
theorem reports_bind {x : Except ε α} {f : α → Except ε β} {first second : List ε}
    (hx : Reports x first) (hf : ∀ a, x = .ok a → Reports (f a) second) :
    Reports (x >>= f) (first ++ second) := by
  cases x with
  | error e =>
    intro other
    have hhead : first.head? = some e := (hx e).mp rfl
    rw [List.head?_append, hhead, Option.some_or]
    exact ⟨fun h => congrArg some (Except.error.inj h), fun h => congrArg _ (Option.some.inj h)⟩
  | ok a =>
    obtain rfl := hx.exists_ok_iff.mp ⟨a, rfl⟩
    exact hf a rfl

theorem reports_mapM {f : α → Except ε β} {faults : α → List ε} {list : List α}
    (h : ∀ a ∈ list, Reports (f a) (faults a)) : Reports (list.mapM f) (list.flatMap faults) := by
  induction list with
  | nil => exact reports_ok []
  | cons a list ih =>
    have hrest := ih fun b hb => h b (List.mem_cons_of_mem a hb)
    rw [List.mapM_cons, List.flatMap_cons]
    refine reports_bind (h a List.mem_cons_self) fun b _ => ?_
    rw [← List.append_nil (list.flatMap faults)]
    exact reports_bind hrest fun rest _ => reports_ok (b :: rest)

theorem reports_forM {f : α → Except ε Unit} {faults : α → List ε} {list : List α}
    (h : ∀ a ∈ list, Reports (f a) (faults a)) : Reports (list.forM f) (list.flatMap faults) := by
  induction list with
  | nil => exact reports_ok ()
  | cons a list ih =>
    have hrest := ih fun b hb => h b (List.mem_cons_of_mem a hb)
    rw [List.flatMap_cons]
    exact reports_bind (h a List.mem_cons_self) fun _ _ => hrest

end TokenApproval.Outcome
