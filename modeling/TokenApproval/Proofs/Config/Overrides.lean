import TokenApproval.Config.Settings
import TokenApproval.Proofs.Outcome

/-!
# What overrides replace

Each override is about one variable and one field (`forall₂_about`): it gives the field the value of
the variable and keeps every other field. Overrides of different variables do not disturb one
another (`Replaced.trans`). So a run replaces exactly the fields of the variables that are set, and
a run that stops at a value that cannot be read has replaced those of the variables in front of it
(`applyAll_run`).
-/

namespace TokenApproval

/-! ## Reading ports -/

/-- The number that decimal digits spell behind a number. -/
def portNumber (value : Nat) (digits : List Char) : Nat :=
  digits.foldl (fun acc c => acc * 10 + (c.toNat - 48)) value

theorem le_portNumber (value : Nat) (digits : List Char) : value ≤ portNumber value digits := by
  induction digits generalizing value with
  | nil => exact Nat.le_refl _
  | cons c digits ih =>
    have hrest := ih (value * 10 + (c.toNat - 48))
    show value ≤ portNumber (value * 10 + (c.toNat - 48)) digits
    omega

/-- A text is a port in decimal digits, with at most one plus sign in front. -/
def IsPort (text : String) (port : UInt16) : Prop :=
  ∃ digits, (text.toList = digits ∨ text.toList = '+' :: digits) ∧ digits ≠ []
    ∧ (∀ c ∈ digits, c.isDigit = true) ∧ portNumber 0 digits = port.toNat

theorem parsePortDigits_eq_ok_iff {value : Nat} {digits : List Char} {port : UInt16}
    (h : value < UInt16.size) :
    parsePortDigits value digits = .ok port ↔
      (∀ c ∈ digits, c.isDigit = true) ∧ portNumber value digits = port.toNat := by
  induction digits generalizing value with
  | nil =>
    rw [parsePortDigits, Except.ok.injEq]
    show UInt16.ofNat value = port ↔ _ ∧ value = port.toNat
    rw [← UInt16.toNat_inj, UInt16.toNat_ofNat_of_lt' h]
    exact ⟨fun heq => ⟨nofun, heq⟩, And.right⟩
  | cons c digits ih =>
    have hnumber : portNumber value (c :: digits) =
        portNumber (value * 10 + (c.toNat - 48)) digits := rfl
    rw [List.forall_mem_cons, and_assoc, hnumber, parsePortDigits]
    cases hdigit : c.isDigit with
    | false => simp
    | true =>
      by_cases hlarge : UInt16.size ≤ value * 10 + (c.toNat - 48)
      · -- the digits that follow only make the number larger
        have hle := le_portNumber (value * 10 + (c.toNat - 48)) digits
        have hport := port.toNat_lt
        simp only [Bool.not_true, Bool.false_eq_true, if_false, if_pos hlarge, reduceCtorEq,
          true_and, false_iff, not_and]
        have hsize : UInt16.size = 65536 := rfl
        omega
      · simp only [Bool.not_true, Bool.false_eq_true, if_false, if_neg hlarge, true_and]
        exact ih (Nat.lt_of_not_le hlarge)

theorem parsePort_eq_ok_iff {text : String} {port : UInt16} :
    parsePort text = .ok port ↔ IsPort text port := by
  have hzero : 0 < UInt16.size := by decide
  unfold parsePort IsPort
  split
  · next hempty => simp [hempty]
  · next hplus =>
    constructor
    · nofun
    · rintro ⟨digits, htext | htext, hsome, hdigits, -⟩
      · rw [hplus] at htext
        subst htext
        exact absurd (hdigits '+' List.mem_cons_self) (by decide)
      · rw [hplus] at htext
        exact absurd (List.cons.inj htext).2.symm hsome
  · next digits hsome hplus =>
    rw [parsePortDigits_eq_ok_iff hzero]
    constructor
    · rintro ⟨hdigits, hnumber⟩
      exact ⟨digits, .inr hplus, hsome, hdigits, hnumber⟩
    · rintro ⟨other, htext | htext, -, hdigits, hnumber⟩
      · rw [hplus] at htext
        subst htext
        exact absurd (hdigits '+' List.mem_cons_self) (by decide)
      · rw [hplus] at htext
        obtain rfl := (List.cons.inj htext).2
        exact ⟨hdigits, hnumber⟩
  · next hempty _ hplus =>
    rw [parsePortDigits_eq_ok_iff hzero]
    constructor
    · rintro ⟨hdigits, hnumber⟩
      exact ⟨_, .inl rfl, hempty, hdigits, hnumber⟩
    · rintro ⟨digits, htext | htext, hsome, hdigits, hnumber⟩
      · rw [htext]
        exact ⟨hdigits, hnumber⟩
      · exact absurd htext (hplus digits)

/-! ## Reading variants -/

/-- A text names a variant, after its blanks at both ends are gone and its letters are small. -/
def NamesVariant {α : Type} (known : List (String × α)) (text : String) (variant : α) : Prop :=
  (Text.lowercase (Text.trim text), variant) ∈ known

theorem lookup_eq_some_iff {α : Type} {known : List (String × α)} {name : String} {variant : α}
    (h : (known.map Prod.fst).Nodup) :
    known.lookup name = some variant ↔ (name, variant) ∈ known := by
  induction known with
  | nil => simp
  | cons entry known ih =>
    obtain ⟨key, value⟩ := entry
    obtain ⟨hkey, hknown⟩ := List.nodup_cons.mp h
    rw [List.lookup_cons, List.mem_cons]
    by_cases heq : name = key
    · subst heq
      have hnot : (name, variant) ∉ known := fun hmem =>
        hkey (List.mem_map.mpr ⟨(name, variant), hmem, rfl⟩)
      simp [hnot, eq_comm]
    · rw [beq_false_of_ne heq]
      simp [ih hknown, heq]

theorem parseVariant_eq_ok_iff {α : Type} {known : List (String × α)} {text : String} {variant : α}
    (h : (known.map Prod.fst).Nodup) :
    parseVariant known text = .ok variant ↔ NamesVariant known text variant := by
  rw [NamesVariant, ← lookup_eq_some_iff h, parseVariant, Data.Reader.variantOf]
  cases known.lookup (Text.lowercase (Text.trim text)) with
  | none => simp
  | some found => simp

theorem LogFormat.nodup_known : (LogFormat.known.map Prod.fst).Nodup := by decide

theorem StoreDriver.nodup_known : (StoreDriver.known.map Prod.fst).Nodup := by decide

namespace Config

/-! ## Variables -/

/-- A variable of the environment that replaces a field. -/
inductive Variable where
  | chainId
  | httpAddress
  | httpPort
  | logLevel
  | logFormat
  | privateKey
  | storeDriver
deriving DecidableEq

namespace Variable

/-- The variables in the order in which they are applied. -/
def order : List Variable :=
  [.chainId, .httpAddress, .httpPort, .logLevel, .logFormat, .privateKey, .storeDriver]

theorem mem_order (v : Variable) : v ∈ order := by cases v <;> decide

def name : Variable → String
  | .chainId => "APPROVER_CHAIN_ID"
  | .httpAddress => "APPROVER_HTTP_ADDR"
  | .httpPort => "APPROVER_HTTP_PORT"
  | .logLevel => "APPROVER_LOGGER_LEVEL"
  | .logFormat => "APPROVER_LOGGER_FORMAT"
  | .privateKey => "APPROVER_SECRET_PRIVATE_KEY"
  | .storeDriver => "APPROVER_STORE_DRIVER"

def Accepts : Variable → String → Prop
  | .httpPort, text => ∃ port, IsPort text port
  | .logFormat, text => ∃ format, NamesVariant LogFormat.known text format
  | .storeDriver, text => ∃ driver, NamesVariant StoreDriver.known text driver
  | _, _ => True

end Variable

end Config

/-- The variable whose value an error refuses. -/
def OverrideError.variable : OverrideError → Config.Variable
  | .port .. => .httpPort
  | .logFormat _ => .logFormat
  | .storeDriver _ => .storeDriver

namespace Config

variable {env : Environment} {given more : Variable → Option String} {before between after : Config}

/-! ## Replaced fields -/

/-- A field takes the value that is read from the text given for it, and keeps its value if no text
is given. -/
def Takes {α : Type} (reads : String → α → Prop) (text : Option String) (old new : α) : Prop :=
  match text with
  | none => new = old
  | some text => reads text new

theorem Takes.trans {α : Type} {reads : String → α → Prop} {first second : Option String}
    {a b c : α} (hab : Takes reads first a b) (hbc : Takes reads second b c)
    (h : first = none ∨ second = none) : Takes reads (first.or second) a c := by
  rcases h with rfl | rfl
  · obtain rfl : b = a := hab
    rw [Option.none_or]
    exact hbc
  · obtain rfl : c = b := hbc
    rw [Option.or_none]
    exact hab

/-- The fields of the variables with a text take their values from it, and nothing else changes. -/
structure Replaced (given : Variable → Option String) (before after : Config) : Prop where
  chainId : Takes Eq (given .chainId) before.chainId after.chainId
  httpAddress : Takes Eq (given .httpAddress) before.http.address after.http.address
  httpPort : Takes IsPort (given .httpPort) before.http.port after.http.port
  logLevel : Takes Eq (given .logLevel) before.logger.level after.logger.level
  logFormat : Takes (NamesVariant LogFormat.known) (given .logFormat) before.logger.format
    after.logger.format
  privateKey : Takes Eq (given .privateKey) before.secret.privateKey after.secret.privateKey
  storeDriver : Takes (NamesVariant StoreDriver.known) (given .storeDriver) before.store.driver
    after.store.driver
  others : after = { before with
    chainId := after.chainId
    http := ⟨after.http.address, after.http.port⟩
    logger := ⟨after.logger.level, after.logger.format⟩
    secret := { before.secret with privateKey := after.secret.privateKey }
    store := { before.store with driver := after.store.driver } }

theorem Replaced.refl (config : Config) : Replaced (fun _ => none) config config :=
  ⟨rfl, rfl, rfl, rfl, rfl, rfl, rfl, rfl⟩

theorem Replaced.trans (hfirst : Replaced given before between)
    (hsecond : Replaced more between after) (h : ∀ v, given v = none ∨ more v = none) :
    Replaced (fun v => (given v).or (more v)) before after := by
  constructor
  case chainId => exact hfirst.chainId.trans hsecond.chainId (h _)
  case httpAddress => exact hfirst.httpAddress.trans hsecond.httpAddress (h _)
  case httpPort => exact hfirst.httpPort.trans hsecond.httpPort (h _)
  case logLevel => exact hfirst.logLevel.trans hsecond.logLevel (h _)
  case logFormat => exact hfirst.logFormat.trans hsecond.logFormat (h _)
  case privateKey => exact hfirst.privateKey.trans hsecond.privateKey (h _)
  case storeDriver => exact hfirst.storeDriver.trans hsecond.storeDriver (h _)
  case others =>
    have hothers := hsecond.others
    rw [hfirst.others] at hothers
    exact hothers

/-! ## One override -/

/-- A text for one variable. -/
def only (v : Variable) (text : String) : Variable → Option String :=
  fun w => if w = v then some text else none

/-- An override is about a variable: it reads the texts that the variable accepts, and gives their
values to the variable's field alone. -/
structure About (v : Variable) (override : Override) : Prop where
  name_eq : override.name = v.name
  of_ok : ∀ {text before after}, override.apply text before = .ok after →
    v.Accepts text ∧ Replaced (only v text) before after
  of_error : ∀ {text before e}, override.apply text before = .error e →
    ¬ v.Accepts text ∧ e.variable = v

/-- An override that reads its text, then sets what was read. -/
theorem about_of_reading {ε α : Type} {v : Variable} {override : Override}
    (read : String → Except ε α) (set : α → Config → Config) (refuse : String → ε → OverrideError)
    (hname : override.name = v.name)
    (happly : ∀ text c, override.apply text c =
      match read text with
      | .error e => .error (refuse text e)
      | .ok value => .ok (set value c))
    (haccepts : ∀ text, v.Accepts text ↔ ∃ value, read text = .ok value)
    (hset : ∀ text value c, read text = .ok value → Replaced (only v text) c (set value c))
    (hrefuse : ∀ text e, (refuse text e).variable = v) : About v override := by
  refine ⟨hname, ?_, ?_⟩
  · intro text before after hafter
    rw [happly] at hafter
    cases hread : read text with
    | error e => simp [hread] at hafter
    | ok value =>
      simp only [hread, Except.ok.injEq] at hafter
      subst hafter
      exact ⟨(haccepts text).mpr ⟨value, hread⟩, hset text value before hread⟩
  · intro text before e hrefused
    rw [happly] at hrefused
    cases hread : read text with
    | ok value => simp [hread] at hrefused
    | error fault =>
      simp only [hread, Except.error.injEq] at hrefused
      subst hrefused
      refine ⟨fun haccepted => ?_, hrefuse text fault⟩
      obtain ⟨value, hvalue⟩ := (haccepts text).mp haccepted
      cases hread.symm.trans hvalue

/-- An override that sets its text as it is. -/
theorem about_of_setting {v : Variable} {override : Override} {set : String → Config → Config}
    (hname : override.name = v.name) (happly : ∀ text c, override.apply text c = .ok (set text c))
    (haccepts : ∀ text, v.Accepts text)
    (hset : ∀ text c, Replaced (only v text) c (set text c)) : About v override := by
  refine ⟨hname, ?_, ?_⟩
  · intro text before after hafter
    rw [happly, Except.ok.injEq] at hafter
    subst hafter
    exact ⟨haccepts text, hset text before⟩
  · intro text before e hrefused
    rw [happly] at hrefused
    cases hrefused

theorem forall₂_about : List.Forall₂ About Variable.order overrides := by
  refine .cons ?chainId <| .cons ?httpAddress <| .cons ?httpPort <| .cons ?logLevel <|
    .cons ?logFormat <| .cons ?privateKey <| .cons ?storeDriver .nil
  case chainId | httpAddress | logLevel | privateKey =>
    exact about_of_setting rfl (fun _ _ => rfl) (fun _ => trivial)
      fun _ _ => ⟨rfl, rfl, rfl, rfl, rfl, rfl, rfl, rfl⟩
  case httpPort =>
    refine about_of_reading parsePort
      (fun port c => { c with http := { c.http with port := port } }) .port rfl (fun text c => ?_) ?_ ?_ fun _ _ => rfl
    · dsimp only
      cases parsePort text <;> rfl
    · exact fun text => exists_congr fun port => parsePort_eq_ok_iff.symm
    · exact fun text port c hread =>
        ⟨rfl, rfl, parsePort_eq_ok_iff.mp hread, rfl, rfl, rfl, rfl, rfl⟩
  case logFormat =>
    refine about_of_reading (parseVariant LogFormat.known)
      (fun format c => { c with logger := { c.logger with format := format } })
      (fun _ => .logFormat) rfl (fun text c => ?_) ?_ ?_ fun _ _ => rfl
    · dsimp only
      cases parseVariant LogFormat.known text <;> rfl
    · exact fun text => exists_congr fun format =>
        (parseVariant_eq_ok_iff LogFormat.nodup_known).symm
    · exact fun text format c hread =>
        ⟨rfl, rfl, rfl, rfl, (parseVariant_eq_ok_iff LogFormat.nodup_known).mp hread, rfl, rfl, rfl⟩
  case storeDriver =>
    refine about_of_reading (parseVariant StoreDriver.known)
      (fun driver c => { c with store := { c.store with driver := driver } })
      (fun _ => .storeDriver) rfl (fun text c => ?_) ?_ ?_ fun _ _ => rfl
    · dsimp only
      cases parseVariant StoreDriver.known text <;> rfl
    · exact fun text => exists_congr fun driver =>
        (parseVariant_eq_ok_iff StoreDriver.nodup_known).symm
    · exact fun text driver c hread =>
        ⟨rfl, rfl, rfl, rfl, rfl, rfl, (parseVariant_eq_ok_iff StoreDriver.nodup_known).mp hread,
          rfl⟩

/-! ## A run of overrides -/

/-- The texts that the environment has for these variables. -/
def among (env : Environment) (vs : List Variable) : Variable → Option String :=
  fun v => if v ∈ vs then env.get? v.name else none

/-- Each set variable has an accepted value, and their fields are replaced. -/
structure Applies (env : Environment) (vs : List Variable) (before after : Config) :
    Prop where
  accepts : ∀ v ∈ vs, ∀ text, env.get? v.name = some text → v.Accepts text
  replaced : Replaced (among env vs) before after

/-- The variables in front of a refused one are applied, and nothing from there on. -/
structure StopsAt (env : Environment) (vs : List Variable) (v : Variable)
    (before after : Config) : Prop where
  refuses : ∃ text, env.get? v.name = some text ∧ ¬ v.Accepts text
  applies : ∃ passed rest, vs = passed ++ v :: rest ∧ Applies env passed before after

/-- What a run leaves: all variables applied, or those in front of the one that its error is
about. -/
def Leaves (env : Environment) (vs : List Variable) (before : Config)
    (run : Config × Except OverrideError Unit) : Prop :=
  match run.2 with
  | .ok () => Applies env vs before run.1
  | .error e => StopsAt env vs e.variable before run.1

/-- A set variable that is accepted is applied in front of others. -/
theorem Applies.cons {v : Variable} {vs : List Variable} {text : String}
    (hset : env.get? v.name = some text)
    (hfirst : v.Accepts text ∧ Replaced (only v text) before between)
    (hrest : Applies env vs between after) (hv : v ∉ vs) : Applies env (v :: vs) before after := by
  constructor
  case accepts =>
    rintro w (_ | ⟨_, hw⟩) other hother
    · obtain rfl := Option.some.inj (hset.symm.trans hother)
      exact hfirst.1
    · exact hrest.accepts w hw other hother
  case replaced =>
    have happart (w : Variable) : only v text w = none ∨ among env vs w = none := by
      by_cases hw : w = v
      · exact .inr (if_neg (hw ▸ hv))
      · exact .inl (if_neg hw)
    have hboth : among env (v :: vs) = fun w => (only v text w).or (among env vs w) := by
      funext w
      by_cases hw : w = v
      · subst hw
        simp [among, only, hset]
      · simp [among, only, hw]
    rw [hboth]
    exact hfirst.2.trans hrest.replaced happart

/-- A variable that is not set is passed over. -/
theorem Applies.cons_unset {v : Variable} {vs : List Variable} (hunset : env.get? v.name = none)
    (hrest : Applies env vs before after) : Applies env (v :: vs) before after := by
  constructor
  case accepts =>
    rintro w (_ | ⟨_, hw⟩) text hset
    · rw [hunset] at hset
      cases hset
    · exact hrest.accepts w hw text hset
  case replaced =>
    have hsame : among env (v :: vs) = among env vs := by
      funext w
      by_cases hw : w = v
      · subst hw
        simp [among, hunset]
      · simp [among, hw]
    rw [hsame]
    exact hrest.replaced

/-- Whatever passes a variable also passes it in front of a run. -/
theorem Leaves.cons {v : Variable} {vs : List Variable} {run : Config × Except OverrideError Unit}
    (hrun : Leaves env vs between run)
    (hpass : ∀ {passed config}, passed <+: vs → Applies env passed between config →
      Applies env (v :: passed) before config) : Leaves env (v :: vs) before run := by
  obtain ⟨after, result⟩ := run
  cases result with
  | ok => exact hpass (List.prefix_refl vs) hrun
  | error e =>
    obtain ⟨hrefuses, passed, rest, rfl, happlies⟩ := hrun
    exact ⟨hrefuses, v :: passed, rest, rfl, hpass (List.prefix_append ..) happlies⟩

/-- A run over overrides that are about different variables. -/
theorem applyAll_run {vs : List Variable} {overrides : List Override}
    (habout : List.Forall₂ About vs overrides) (hvs : vs.Nodup) (config : Config) :
    Leaves env vs config (applyAll env overrides config) := by
  induction habout generalizing config with
  | nil => exact ⟨nofun, Replaced.refl config⟩
  | @cons v override vs overrides hv _ ih =>
    obtain ⟨hnot, hvs⟩ := List.nodup_cons.mp hvs
    unfold applyAll
    rw [hv.name_eq]
    cases hset : env.get? v.name with
    | none => exact (ih hvs config).cons fun _ happlies => happlies.cons_unset hset
    | some text =>
      dsimp only
      cases happly : override.apply text config with
      | error e =>
        obtain ⟨hrefused, rfl⟩ := hv.of_error happly
        exact ⟨⟨text, hset, hrefused⟩, [], vs, rfl, nofun, Replaced.refl config⟩
      | ok between =>
        exact (ih hvs between).cons fun hfront happlies =>
          happlies.cons hset (hv.of_ok happly) fun hmem => hnot (hfront.mem hmem)

theorem applyOverrides_run (config : Config) (env : Environment) :
    Leaves env Variable.order config (config.applyOverrides env) :=
  applyAll_run forall₂_about (by decide) config

/-- Overrides succeed exactly if each set variable has an accepted value. -/
theorem applyOverrides_ok_iff {config : Config} :
    (config.applyOverrides env).2 = .ok () ↔
      ∀ (v : Variable) text, env.get? v.name = some text → v.Accepts text := by
  have hrun := applyOverrides_run config env
  unfold Leaves at hrun
  split at hrun
  · next hok =>
    exact iff_of_true hok fun v => hrun.accepts v v.mem_order
  · next e herror =>
    obtain ⟨text, hset, hrefused⟩ := hrun.refuses
    refine iff_of_false (fun hok => ?_) fun hall => hrefused (hall _ _ hset)
    cases hok.symm.trans herror

end Config

end TokenApproval
