import TokenApproval.Approval.Request
import TokenApproval.Ledger.Documents
import TokenApproval.Proofs.Data.Members
import TokenApproval.Proofs.Files
import TokenApproval.Proofs.Json.Reading

/-!
# Documents are read by field name

The general argument is about any record; the requests and the snapshot documents follow.
-/

/-! ## Records are read by the names of their fields

A record is read from an object by the names of its fields alone (`ReadsByName`): `SameFields` says
that two objects give the same fields, and a reader that `Ignores` the difference reads both alike.
The relation is closed under single edits, so each edit needs one lemma about members; that a reader
ignores the edits inside of its fields lifts through lists and maps to whole documents. -/

namespace TokenApproval.Json

open Data (Value Reader Shape Field Member)

/-- A reader reads values alike that are related. -/
def Ignores {α : Type} (reader : Reader α) (R : Value → Value → Prop) : Prop :=
  ∀ ⦃v w⦄, R v w → ∀ a, reader .json v = .ok a ↔ reader .json w = .ok a

/-- Two objects give the fields of the names `own` alike. Their members may stand in any order and
among others of foreign names, and `inside` says what may differ in the value of a field. -/
inductive SameFields (own : List String) (inside : String → Value → Value → Prop) :
    Value → Value → Prop
  | reorder {members others : List Member} (h : members.Perm others) :
      SameFields own inside (.object members true) (.object others true)
  | insert {name : String} {text : Bytes} {value : Value} {members : List Member}
      (hname : name ∉ own) (hvalue : ElementText text value) :
      SameFields own inside (.object members true) (.object ((some name, value) :: members) true)
  | within {name : String} {value other : Value} {members : List Member} (hname : name ∈ own)
      (h : inside name value other) :
      SameFields own inside (.object ((some name, value) :: members) true)
        (.object ((some name, other) :: members) true)
  | symm {v w : Value} (h : SameFields own inside v w) : SameFields own inside w v
  | trans {v w x : Value} (h : SameFields own inside v w) (h' : SameFields own inside w x) :
      SameFields own inside v x

/-- Lists whose items are related one by one. -/
inductive SameItems (R : Value → Value → Prop) : Value → Value → Prop
  | mk {items others : List Value} (h : List.Forall₂ R items others) :
      SameItems R (.array items true) (.array others true)

/-- Objects of the same keys, in order, whose values are related one by one. -/
inductive SameEntries (R : Value → Value → Prop) : Value → Value → Prop
  | mk {entries others : List Member}
      (h : List.Forall₂ (fun entry other => entry.1 = other.1 ∧ R entry.2 other.2) entries others) :
      SameEntries R (.object entries true) (.object others true)

variable {α β ρ : Type} {R : Value → Value → Prop}

/-! ### Readers -/

theorem ignores_eq (reader : Reader α) : Ignores reader Eq := by
  rintro v _ rfl a
  rfl

theorem Ignores.map {reader : Reader α} (h : Ignores reader R) (convert : α → β) :
    Ignores (Reader.map reader convert) R := by
  intro v w hvw b
  simp only [Reader.map, Outcome.map_eq_ok_iff, h hvw]

theorem Ignores.list {item : Reader α} (h : Ignores item R) :
    Ignores (Reader.list item) (SameItems R) := by
  rintro _ _ ⟨hitems⟩ values
  rename_i items others
  have hread (values : List α) :
      items.mapM (item .json) = .ok values ↔ others.mapM (item .json) = .ok values := by
    simp only [Outcome.mapM_eq_ok_iff]
    induction hitems generalizing values with
    | nil => rfl
    | cons hvw _ ih => simp only [List.forall₂_cons_left_iff, h hvw, ih]
  show (_ >>= _) = _ ↔ (_ >>= _) = _
  simp only [Outcome.bind_eq_ok_iff, hread]

theorem Ignores.members {item : Reader α} (h : Ignores item R) {entries others : List Member}
    (hentries : List.Forall₂ (fun entry other => entry.1 = other.1 ∧ R entry.2 other.2) entries
      others) (values : List (String × α)) :
    Reader.members (item .json) entries = .ok values ↔
      Reader.members (item .json) others = .ok values := by
  induction hentries generalizing values with
  | nil => rfl
  | @cons entry other entries others hentry _ ih =>
    obtain ⟨key, v⟩ := entry
    obtain ⟨key', w⟩ := other
    obtain ⟨rfl, hvw⟩ := hentry
    cases key with
    | none => rfl
    | some key => simp only [Reader.members, Outcome.bind_eq_ok_iff, h hvw, ih]

theorem Ignores.entries {item : Reader α} (h : Ignores item R) :
    Ignores (Reader.map? item) (SameEntries R) := by
  rintro _ _ ⟨hentries⟩ values
  show (_ >>= _) = _ ↔ (_ >>= _) = _
  simp only [Outcome.bind_eq_ok_iff, h.members hentries]

/-- Records are read alike from objects that give the same fields. -/
theorem ignores_sameFields {shape : Shape ρ} {inside : String → Value → Value → Prop}
    (hcommutes : shape.Commutes)
    (hfields : ∀ field ∈ shape.fields, Ignores field.read (inside field.name)) :
    Ignores shape.read (SameFields shape.names inside) := by
  intro v w h
  induction h with
  | reorder h =>
    exact fun a => ⟨Shape.readMembers_perm hcommutes h, Shape.readMembers_perm hcommutes h.symm⟩
  | insert hname hvalue =>
    intro a
    show shape.readMembers .json true [] shape.blank _ = .ok a ↔ _
    rw [← Shape.readMembers_foreign hname hvalue.isComplete]
    rfl
  | within hname h =>
    intro a
    constructor
    · refine Shape.readMembers_alike hname ?_
      rintro field hfield rfl set
      exact (hfields field hfield h set).mp
    · refine Shape.readMembers_alike hname ?_
      rintro field hfield rfl set
      exact (hfields field hfield h set).mpr
  | symm _ ih => exact fun a => (ih a).symm
  | trans _ _ ih ih' => exact fun a => (ih a).trans (ih' a)

/-! ### Texts -/

/-- A record is read from the text of an object by the names of its fields: alike from every text
that gives the same fields, and from none that gives one of them twice or has a key without a
name. -/
structure ReadsByName (shape : Shape ρ) (inside : String → Value → Value → Prop) : Prop where
  alike : ∀ {text other : Bytes} {v w : Value}, ElementText text v → ElementText other w →
    SameFields shape.names inside v w →
      ∀ record, decode shape.read text = .ok record ↔ decode shape.read other = .ok record
  once : ∀ {text : Bytes} {members : List Member} {name : String},
    ElementText text (.object members true) → name ∈ shape.names →
      [some name, some name].Sublist (members.map Prod.fst) →
        ∃ fault, decode shape.read text = .error fault
  named : ∀ {text : Bytes} {members : List Member}, ElementText text (.object members true) →
    none ∈ members.map Prod.fst → ∃ fault, decode shape.read text = .error fault

/-- A text is of one value. -/
theorem ElementText.unique {text : Bytes} {v w : Value} (hv : ElementText text v)
    (hw : ElementText text w) : v = w := by
  obtain ⟨_, -, hparse⟩ := parse_of_elementText hv
  obtain ⟨_, -, hparse'⟩ := parse_of_elementText hw
  exact (Prod.mk.inj (hparse.symm.trans hparse')).1

theorem decode_eq_ok_iff_of_elementText {reader : Reader α} {text : Bytes} {v : Value}
    (h : ElementText text v) {a : α} : decode reader text = .ok a ↔ reader .json v = .ok a := by
  rw [decode_eq_ok_iff]
  constructor
  · rintro ⟨w, hw, hread⟩
    rwa [h.unique hw]
  · intro hread
    exact ⟨v, h, hread⟩

theorem Ignores.decode {reader : Reader α} (h : Ignores reader R) {text other : Bytes} {v w : Value}
    (hv : ElementText text v) (hw : ElementText other w) (hvw : R v w) (a : α) :
    decode reader text = .ok a ↔ Json.decode reader other = .ok a := by
  rw [decode_eq_ok_iff_of_elementText hv, decode_eq_ok_iff_of_elementText hw]
  exact h hvw a

theorem refused_of_elementText {reader : Reader α} {text : Bytes} {v : Value}
    (h : ElementText text v) (hrefused : ∀ a, reader .json v ≠ .ok a) :
    ∃ fault, decode reader text = .error fault := by
  cases hread : decode reader text with
  | error fault => exact ⟨fault, rfl⟩
  | ok a => exact absurd ((decode_eq_ok_iff_of_elementText h).mp hread) (hrefused a)

theorem readsByName {shape : Shape ρ} {inside : String → Value → Value → Prop}
    (hcommutes : shape.Commutes)
    (hfields : ∀ field ∈ shape.fields, Ignores field.read (inside field.name)) :
    ReadsByName shape inside := by
  constructor
  case alike =>
    intro text other v w hv hw hvw
    exact (ignores_sameFields hcommutes hfields).decode hv hw hvw
  case once =>
    intro text members name htext hname htwice
    refine refused_of_elementText htext fun record hread => ?_
    exact Shape.not_sublist_of_readMembers hread hname htwice
  case named =>
    intro text members htext hnameless
    refine refused_of_elementText htext fun record hread => ?_
    exact Shape.not_nameless_of_readMembers hread hnameless

end TokenApproval.Json

/-! ## Requests and snapshot documents are read by field name

No type of a request or of a snapshot document sees the order of its fields, members of other names
or blanks, and each refuses a field that is given twice (`records_read_by_name`). In an account and
in a proof the order does not matter in the coins inside either; so it matters nowhere in the
documents, and a snapshot is loaded alike from files that differ in nothing else.

A key is no name if it denotes no text, as one with an unpaired surrogate does. A value of that kind
is skipped, but an object with such a key is refused (`nameless_member_refused`). -/

namespace TokenApproval

open Data (Member Reader Shape Value)
open Json (ElementText Ignores ReadsByName SameFields SameItems SameEntries)

/-! ### What may differ in a document -/

/-- Objects that give the same coin. -/
def sameCoin : Value → Value → Prop := SameFields Coin.shape.names fun _ => Eq

/-- In an account the coins of the summary may be given by other objects. -/
def AccountDocument.inside (name : String) : Value → Value → Prop :=
  if name = "summary_coins" then SameItems sameCoin else Eq

/-- In a proof the coin may be given by another object. -/
def ProofDocument.inside (name : String) : Value → Value → Prop :=
  if name = "coin" then sameCoin else Eq

/-- The files hold texts at a path whose values are related. -/
def SameDocument (R : Value → Value → Prop) (files others : Files) (path : String) : Prop :=
  ∃ text other v w, files.readText path = .ok text ∧ others.readText path = .ok other
    ∧ ElementText (Text.bytes text) v ∧ ElementText (Text.bytes other) w ∧ R v w

/-- The documents of a snapshot give the same fields throughout. -/
structure SameDocuments (files others : Files) (paths : SnapshotPaths) : Prop where
  stateRoot : SameDocument (SameFields StateRootDocument.shape.names fun _ => Eq) files others
    paths.stateRoot
  accounts : SameDocument (SameItems (SameFields AccountDocument.shape.names
    AccountDocument.inside)) files others paths.accounts
  proofs : SameDocument (SameItems (SameFields ProofDocument.shape.names
    ProofDocument.inside)) files others paths.merkleProofs
  assets : paths.assets ≠ "" →
    SameDocument (SameEntries (SameFields AssetDocument.shape.names fun _ => Eq)) files others
      paths.assets

/-! ### Their fields commute -/

section Commutes

open Data (Field)

attribute [local simp] Shape.Commutes Field.required Field.defaulted Field.optional
  Field.commutes_of_setters

theorem Coin.shape_commutes : Coin.shape.Commutes := by
  simp [Coin.shape]

theorem StateRootDocument.shape_commutes : StateRootDocument.shape.Commutes := by
  simp [StateRootDocument.shape]

theorem AccountDocument.shape_commutes : AccountDocument.shape.Commutes := by
  simp [AccountDocument.shape]

theorem AssetDocument.shape_commutes : AssetDocument.shape.Commutes := by
  simp [AssetDocument.shape]

theorem ProofDocument.shape_commutes : ProofDocument.shape.Commutes := by
  simp [ProofDocument.shape]

theorem ClaimRequest.shape_commutes : ClaimRequest.shape.Commutes := by
  simp [ClaimRequest.shape]

theorem RegisterRequest.shape_commutes : RegisterRequest.shape.Commutes := by
  simp [RegisterRequest.shape]

end Commutes

/-! ### What readers ignore -/

/-- Where no field is an object, nothing may differ inside. -/
theorem ignores_inside {ρ : Type} (shape : Shape ρ) :
    ∀ field ∈ shape.fields, Ignores field.read ((fun _ => Eq) field.name) :=
  fun field _ => Json.ignores_eq field.read

theorem ignores_sameCoin : Ignores Coin.shape.read sameCoin :=
  Json.ignores_sameFields Coin.shape_commutes (ignores_inside _)

theorem AccountDocument.ignores_inside :
    ∀ field ∈ AccountDocument.shape.fields, Ignores field.read (inside field.name) := by
  simp only [AccountDocument.shape, List.forall_mem_cons]
  refine ⟨Json.ignores_eq _, Json.ignores_eq _, ?_, List.forall_mem_nil _⟩
  exact ignores_sameCoin.list.map _

theorem ProofDocument.ignores_inside :
    ∀ field ∈ ProofDocument.shape.fields, Ignores field.read (inside field.name) := by
  simp only [ProofDocument.shape, List.forall_mem_cons]
  refine ⟨Json.ignores_eq _, Json.ignores_eq _, ?_, Json.ignores_eq _, List.forall_mem_nil _⟩
  exact ignores_sameCoin.map _

theorem AssetDocuments.ignores_sameEntries :
    Ignores AssetDocuments.reader
      (SameEntries (SameFields AssetDocument.shape.names fun _ => Eq)) :=
  (Json.ignores_sameFields AssetDocument.shape_commutes (ignores_inside _)).entries.map _

theorem SameDocument.read {α : Type} {R : Value → Value → Prop} {reader : Reader α}
    (hreader : Ignores reader R) {files others : Files} {path : String}
    (h : SameDocument R files others path) (a : α) :
    readDocument files reader path = .ok a ↔ readDocument others reader path = .ok a := by
  obtain ⟨text, other, v, w, htext, hother, hv, hw, hvw⟩ := h
  simp only [readDocument, Outcome.bind_eq_ok_iff, Outcome.mapError_eq_ok_iff, htext, hother,
    Except.ok.injEq, exists_eq_left', hreader.decode hv hw hvw]

theorem SameDocuments.load {files others : Files} {paths : SnapshotPaths}
    (h : SameDocuments files others paths) (network : Network) (snapshot : Snapshot) :
    Snapshot.load files paths network = .ok snapshot ↔
      Snapshot.load others paths network = .ok snapshot := by
  have hroot := h.stateRoot.read
    (Json.ignores_sameFields StateRootDocument.shape_commutes (ignores_inside _))
  have haccounts := h.accounts.read (Json.ignores_sameFields AccountDocument.shape_commutes
    AccountDocument.ignores_inside).list
  have hproofs := h.proofs.read (Json.ignores_sameFields ProofDocument.shape_commutes
    ProofDocument.ignores_inside).list
  simp only [Snapshot.load, Outcome.bind_eq_ok_iff, hroot, haccounts, hproofs]
  split
  · rfl
  · next hpath =>
    have hassets := (h.assets hpath).read AssetDocuments.ignores_sameEntries
    simp only [hassets, Outcome.bind_eq_ok_iff]

/-- Requests and the objects of snapshot documents are read by the names of their fields, and a
snapshot is loaded alike from documents that give the same fields. -/
theorem records_read_by_name :
    ReadsByName AccountDocument.shape AccountDocument.inside
      ∧ ReadsByName ProofDocument.shape ProofDocument.inside
      ∧ ReadsByName AssetDocument.shape (fun _ => Eq)
      ∧ ReadsByName StateRootDocument.shape (fun _ => Eq)
      ∧ ReadsByName Coin.shape (fun _ => Eq)
      ∧ ReadsByName ClaimRequest.shape (fun _ => Eq)
      ∧ ReadsByName RegisterRequest.shape (fun _ => Eq)
      ∧ ∀ files others paths network snapshot, SameDocuments files others paths →
        (Snapshot.load files paths network = .ok snapshot ↔
          Snapshot.load others paths network = .ok snapshot) := by
  refine ⟨?account, ?proof, ?asset, ?stateRoot, ?coin, ?claim, ?register, ?load⟩
  case account =>
    exact Json.readsByName AccountDocument.shape_commutes AccountDocument.ignores_inside
  case proof =>
    exact Json.readsByName ProofDocument.shape_commutes ProofDocument.ignores_inside
  case asset => exact Json.readsByName AssetDocument.shape_commutes (ignores_inside _)
  case stateRoot => exact Json.readsByName StateRootDocument.shape_commutes (ignores_inside _)
  case coin => exact Json.readsByName Coin.shape_commutes (ignores_inside _)
  case claim => exact Json.readsByName ClaimRequest.shape_commutes (ignores_inside _)
  case register => exact Json.readsByName RegisterRequest.shape_commutes (ignores_inside _)
  case load =>
    intro files others paths network snapshot h
    exact h.load network snapshot

/-! ### Two exports of one ledger -/

namespace Export

def files (texts : List (String × String)) : Files :=
  ⟨fun path => (texts.lookup path).elim (.error .notFound) fun text => .ok (Text.bytes text)⟩

theorem readText_files {texts : List (String × String)} {path text : String}
    (h : texts.lookup path = some text) : (files texts).readText path = .ok text := by
  refine Files.readText_of_read ?_
  simp only [files, h, Option.elim_some]

def paths : SnapshotPaths := ⟨"root", "assets", "accounts", "proofs"⟩

def network : Network := ⟨"Binance-Chain-Ganges", ⟨"tbnb".toList⟩, .hex⟩

def owner : String := "fa3b227adff8ea1706098928715076d76959ae6c"

def root : String := "0000000000000000000000000000000000000000000000000000000000000000"

/-- Documents of one account without proofs. -/
def plainTexts : List (String × String) := [
  ("root", "\x7b\"state_root\":\"" ++ root ++ "\"\x7d"),
  ("accounts", "[\x7b\"address\":\"" ++ owner ++ "\",\"account_number\":1,\"summary_coins\":"
    ++ "[\x7b\"denom\":\"BNB\",\"amount\":5\x7d]\x7d]"),
  ("proofs", "[]"),
  ("assets", "\x7b\"BNB\":\x7b\"owner\":\"" ++ owner ++ "\",\"amount\":9\x7d\x7d")]

/-- The same in another order and with more, such as numbers and texts that cannot be read. -/
def richTexts : List (String × String) := [
  ("root", "\x7b \"height\" : 1e999, \"state_root\" : \"" ++ root ++ "\" \x7d\n"),
  ("accounts", "[\x7b\"coins\":[[\"\x7b\\\"\\ud800\"]],\"summary_coins\":"
    ++ "[\x7b\"amount\":5,\"denom\":\"BNB\"\x7d],\"account_number\":1,\"address\":\"" ++ owner
    ++ "\"\x7d]"),
  ("proofs", " [ ] "),
  ("assets", "\x7b\"BNB\":\x7b\"amount\":9,\"owner\":\"" ++ owner ++ "\"\x7d\x7d")]

def rootMember : Member := (some "state_root", .text root)

def denom : Member := (some "denom", .text "BNB")

def amount (n : Int) : Member := (some "amount", .number (.integer n))

def address : Member := (some "address", .text owner)

def number : Member := (some "account_number", .number (.integer 1))

def summary (coin : List Member) : Member :=
  (some "summary_coins", .array [.object coin true] true)

/-- Coins of another list, with a text in it that is none. -/
def otherCoins : Member := (some "coins", .array [.array [.unreadable] true] true)

theorem same_root :
    SameDocument (SameFields StateRootDocument.shape.names fun _ => Eq) (files plainTexts)
      (files richTexts) paths.stateRoot := by
  refine ⟨_, _, .object [rootMember] true, .object [(some "height", .unreadable), rootMember] true,
    readText_files rfl, readText_files rfl, Json.elementText_of_parse rfl rfl,
    Json.elementText_of_parse rfl rfl, ?_⟩
  have hheight : ElementText (Text.bytes "1e999") .unreadable := Json.elementText_of_parse rfl rfl
  exact .insert (by decide) hheight

set_option maxRecDepth 2000 in
theorem same_accounts :
    SameDocument (SameItems (SameFields AccountDocument.shape.names AccountDocument.inside))
      (files plainTexts) (files richTexts) paths.accounts := by
  refine ⟨_, _, .array [.object [address, number, summary [denom, amount 5]] true] true,
    .array [.object [otherCoins, summary [amount 5, denom], number, address] true] true,
    readText_files rfl, readText_files rfl, Json.elementText_of_parse rfl rfl,
    Json.elementText_of_parse rfl rfl, .mk (.cons ?_ .nil)⟩
  have hcoins : ElementText (Text.bytes "[[\"\x7b\\\"\\ud800\"]]")
      (.array [.array [.unreadable] true] true) := Json.elementText_of_parse rfl rfl
  have hsummary : AccountDocument.inside "summary_coins"
      (.array [.object [denom, amount 5] true] true)
      (.array [.object [amount 5, denom] true] true) :=
    SameItems.mk (.cons (.reorder (.swap _ _ _)) .nil)
  exact (SameFields.reorder (List.reverse_perm [summary [denom, amount 5], number, address])).trans
    (.trans (.within (by decide) hsummary) (.insert (by decide) hcoins))

theorem same_assets :
    SameDocument (SameEntries (SameFields AssetDocument.shape.names fun _ => Eq))
      (files plainTexts) (files richTexts) paths.assets := by
  refine ⟨_, _, .object [(some "BNB", .object [(some "owner", .text owner), amount 9] true)] true,
    .object [(some "BNB", .object [amount 9, (some "owner", .text owner)] true)] true,
    readText_files rfl, readText_files rfl, Json.elementText_of_parse rfl rfl,
    Json.elementText_of_parse rfl rfl, .mk (.cons ⟨rfl, .reorder (.swap _ _ _)⟩ .nil)⟩

theorem same_documents : SameDocuments (files plainTexts) (files richTexts) paths where
  stateRoot := same_root
  accounts := same_accounts
  proofs := ⟨_, _, .array [] true, .array [] true, readText_files rfl, readText_files rfl,
    Json.elementText_of_parse rfl rfl, Json.elementText_of_parse rfl rfl, .mk .nil⟩
  assets := fun _ => same_assets

def account : AccountId := ⟨Octets.ofNat 20 0xFA3B227ADFF8EA1706098928715076D76959AE6C⟩

def snapshot : Snapshot where
  stateRoot := ⟨Octets.zero 32⟩
  accounts := [⟨account, 1, [⟨"BNB", 5⟩]⟩]
  assets := [⟨account, "BNB", 9⟩]
  proofs := []

theorem records_read_by_name_sample :
    SameDocuments (files plainTexts) (files richTexts) paths
      ∧ Snapshot.load (files plainTexts) paths network = .ok snapshot
      ∧ Snapshot.load (files richTexts) paths network = .ok snapshot
      ∧ ∃ fault, Json.decode Coin.shape.read
        (Text.bytes "\x7b\"denom\":\"BNB\",\"amount\":5,\"denom\":\"BNB\"\x7d") = .error fault := by
  obtain ⟨-, -, -, -, hcoin, -, -, hload⟩ := records_read_by_name
  have hplain : Snapshot.load (files plainTexts) paths network = .ok snapshot :=
    Outcome.eq_ok_of_toOption (by decide +kernel)
  refine ⟨same_documents, hplain, (hload _ _ _ _ _ same_documents).mp hplain, ?_⟩
  have htext : ElementText
      (Text.bytes "\x7b\"denom\":\"BNB\",\"amount\":5,\"denom\":\"BNB\"\x7d")
      (.object [denom, amount 5, denom] true) := Json.elementText_of_parse rfl rfl
  exact hcoin.once htext List.mem_cons_self (by decide)

/-- A coin is not read from an object with a key that denotes no text. -/
theorem nameless_member_refused :
    Json.decode Coin.shape.read (Text.bytes "\x7b\"denom\":\"BNB\",\"amount\":5\x7d") =
        .ok ⟨"BNB", 5⟩
      ∧ ElementText (Text.bytes "\x7b\"denom\":\"BNB\",\"amount\":5,\"\\ud800\":0\x7d")
        (.object [denom, amount 5, (none, .number (.integer 0))] true)
      ∧ Json.decode Coin.shape.read
        (Text.bytes "\x7b\"denom\":\"BNB\",\"amount\":5,\"\\ud800\":0\x7d") =
        .error .malformed := by
  refine ⟨rfl, ?_, rfl⟩
  exact Json.elementText_of_parse rfl rfl

end Export

end TokenApproval
