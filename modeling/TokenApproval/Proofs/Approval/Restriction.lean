import Mathlib.Data.List.Perm.Subperm
import TokenApproval.Network
import TokenApproval.Proofs.Approval.Claimable
import TokenApproval.Proofs.Approval.Isolation
import TokenApproval.Proofs.Outcome

/-!
# Whitelists of texts

A whitelist is loaded if each text names an account of the network. It then lists exactly the named
accounts, each once however often and in which spellings it is named (`ofTexts_listsNamed`).

An empty list serves everyone, so two things keep a configured list a restriction: a list that is
loaded from some text is not empty, as no text is skipped, and there are `256 ^ 20` accounts, of
which fewer texts than that leave one out.
-/

namespace TokenApproval

/-- A text names an account of the network; blanks around it do not count. -/
def Network.Names (network : Network) (text : String) (account : AccountId) : Prop :=
  network.parseAccount (Text.trim text) = .ok account

namespace Whitelist

variable {network : Network} {texts : List String} {accounts : List AccountId} {list : Whitelist}

/-! ## Lists of accounts -/

theorem mem_ofAccounts_iff {account : AccountId} :
    account ∈ (ofAccounts accounts).accounts ↔ account ∈ accounts := by
  show account ∈ accounts.foldr List.insert [] ↔ account ∈ accounts
  induction accounts with
  | nil => rfl
  | cons first rest ih => rw [List.foldr_cons, List.mem_insert_iff, List.mem_cons, ih]

theorem nodup_ofAccounts (accounts : List AccountId) : (ofAccounts accounts).accounts.Nodup := by
  show (accounts.foldr List.insert []).Nodup
  induction accounts with
  | nil => exact List.nodup_nil
  | cons first rest ih =>
    rw [List.foldr_cons]
    by_cases hlisted : first ∈ rest.foldr List.insert []
    · rw [List.insert_of_mem hlisted]
      exact ih
    · rw [List.insert_of_not_mem hlisted]
      exact List.nodup_cons.mpr ⟨hlisted, ih⟩

theorem ofNat_octets_inj {width m n : Nat} (hm : m < Nat.pow 256 width) (hn : n < Nat.pow 256 width)
    (h : Octets.ofNat width m = Octets.ofNat width n) : m = n :=
  (Bytes.ofNat_inj hm hn).mp (congrArg Octets.bytes h)

/-- No list of accounts that has fewer than there are accounts has all of them. -/
theorem exists_not_mem (h : accounts.length < Nat.pow 256 20) : ∃ account, account ∉ accounts := by
  apply Classical.byContradiction
  intro hnone
  have hall : ∀ account, account ∈ accounts :=
    fun account => Classical.not_not.mp fun hmem => hnone ⟨account, hmem⟩
  -- numbers are written in 20 bytes as different accounts, and there is one more than are listed
  let numbered (n : Nat) : AccountId := ⟨Octets.ofNat 20 n⟩
  have hfits {n : Nat} (hn : n ∈ List.range (accounts.length + 1)) : n < Nat.pow 256 20 :=
    Nat.lt_of_le_of_lt (Nat.le_of_lt_succ (List.mem_range.mp hn)) h
  have hdifferent : ((List.range (accounts.length + 1)).map numbered).Nodup := by
    apply List.pairwise_map.mpr
    refine List.nodup_range.imp_of_mem ?_
    intro m n hm hn hne heq
    exact hne (ofNat_octets_inj (hfits hm) (hfits hn) (AccountId.mk.inj heq))
  have hlength := (hdifferent.subperm fun account _ => hall account).length_le
  rw [List.length_map, List.length_range] at hlength
  exact absurd hlength (Nat.not_succ_le_self _)

/-! ## Loading -/

theorem ofTexts_eq_ok_iff :
    ofTexts network texts = .ok list ↔
      ∃ accounts, List.Forall₂ network.Names texts accounts ∧ ofAccounts accounts = list := by
  rw [ofTexts, Outcome.map_eq_ok_iff]
  exact exists_congr fun accounts => and_congr_left fun _ => Outcome.mapM_eq_ok_iff

/-- A whitelist is loaded exactly if each text names an account. -/
theorem exists_ofTexts_iff :
    (∃ list, ofTexts network texts = .ok list) ↔
      ∀ text ∈ texts, ∃ account, network.Names text account := by
  simp only [ofTexts_eq_ok_iff]
  constructor
  · rintro ⟨_, accounts, hnames, -⟩
    induction hnames with
    | nil => exact nofun
    | cons hname _ ih => exact List.forall_mem_cons.mpr ⟨⟨_, hname⟩, ih⟩
  · intro hnames
    induction texts with
    | nil => exact ⟨_, [], .nil, rfl⟩
    | cons text texts ih =>
      obtain ⟨⟨account, hname⟩, hrest⟩ := List.forall_mem_cons.mp hnames
      obtain ⟨_, accounts, haccounts, -⟩ := ih hrest
      exact ⟨_, account :: accounts, .cons hname haccounts, rfl⟩

theorem mem_iff_of_names (h : List.Forall₂ network.Names texts accounts) {account : AccountId} :
    account ∈ accounts ↔ ∃ text ∈ texts, network.Names text account := by
  induction h with
  | nil => simp
  | @cons text named texts accounts hname _ ih =>
    have hfirst : account = named ↔ network.Names text account := by
      constructor
      · rintro rfl
        exact hname
      · intro hother
        exact (Except.ok.inj (hname.symm.trans hother)).symm
    rw [List.mem_cons, hfirst, ih, List.exists_mem_cons_iff]

/-! ## What a loaded list lists -/

/-- The whitelist serves the accounts that the texts name, and everyone only if there is no text. -/
structure ListsNamed (list : Whitelist) (network : Network) (texts : List String) : Prop where
  allows_iff : ∀ account, list.allows account = true ↔
    texts = [] ∨ ∃ text ∈ texts, network.Names text account
  /-- The size is the number of different accounts that are named. -/
  size_eq : ∃ accounts : List AccountId, accounts.Nodup
    ∧ (∀ account, account ∈ accounts ↔ ∃ text ∈ texts, network.Names text account)
    ∧ list.size = accounts.length
  isEmpty_iff : list.isEmpty = true ↔ texts = []
  /-- Some account is not served, unless there are as many texts as accounts. -/
  restricts : texts ≠ [] → texts.length < Nat.pow 256 20 → ∃ account, list.allows account = false

theorem ofTexts_listsNamed (h : ofTexts network texts = .ok list) :
    list.ListsNamed network texts := by
  obtain ⟨accounts, hnames, rfl⟩ := ofTexts_eq_ok_iff.mp h
  have hmem (account : AccountId) : account ∈ (ofAccounts accounts).accounts ↔
      ∃ text ∈ texts, network.Names text account :=
    mem_ofAccounts_iff.trans (mem_iff_of_names hnames)
  have hempty : (ofAccounts accounts).isEmpty = true ↔ texts = [] := by
    rw [isEmpty, List.isEmpty_iff, List.eq_nil_iff_forall_not_mem]
    simp only [mem_ofAccounts_iff, ← List.eq_nil_iff_forall_not_mem]
    rw [← List.length_eq_zero_iff, ← List.length_eq_zero_iff, hnames.length_eq]
  have hallows (account : AccountId) : (ofAccounts accounts).allows account = true ↔
      texts = [] ∨ ∃ text ∈ texts, network.Names text account := by
    rw [allows, Bool.or_eq_true, hempty, List.contains_iff_mem, hmem]
  constructor
  case allows_iff => exact hallows
  case size_eq => exact ⟨_, nodup_ofAccounts accounts, hmem, rfl⟩
  case isEmpty_iff => exact hempty
  case restricts =>
    intro hsome hfew
    rw [hnames.length_eq] at hfew
    obtain ⟨account, hother⟩ := exists_not_mem hfew
    refine ⟨account, Bool.eq_false_iff.mpr fun hserved => ?_⟩
    rcases (hallows account).mp hserved with hnone | hnamed
    · exact hsome hnone
    · exact hother ((mem_iff_of_names hnames).mpr hnamed)

end Whitelist

/-! ## Whitelists only restrict

An approval reads the whitelist in one place, between the identification of the requester and
everything that is done with the account. Whoever is left out is refused there, before the ledger
and the signer are reached; whoever is served, and whoever is not even identified, meets the service
as if there were no whitelist.

So two runs of one request, under a whitelist and under the empty one, have the steps up to the
whitelist and those behind it in common, and `restrictedBy_of_steps` compares them at the one place
where they differ. -/

namespace ApprovalService

open Secp256k1 (PublicKey)

variable {α : Type} {settings : ApprovalSettings} {validated : Except RequestFault ValidRequest}
  {list : Whitelist}

/-! ### One request under two whitelists -/

/-- A service with these settings but for the whitelist. -/
def underList (settings : ApprovalSettings) (list : Whitelist) (ledger : Ledger)
    (signer : Signer) : ApprovalService :=
  ⟨{ settings with whitelist := list }, ledger, signer⟩

/-- How a whitelist bears on a request that `run` has approved under it, or under another one. -/
structure RestrictedBy (list : Whitelist) (settings : ApprovalSettings)
    (validated : Except RequestFault ValidRequest)
    (run : Whitelist → Ledger → Signer → Run α) : Prop where
  /-- Whoever is left out is refused, whatever the ledger holds and the signer does. -/
  refused : ∀ address, settings.scheme.Recovers validated address → list.allows address = false →
    ∀ ledger signer, (run list ledger signer).outcome =
      (.error (.notWhitelisted (settings.network.formatAccount address)), [])
  /-- All other requests end as under the empty list. -/
  unaffected : (∀ address, settings.scheme.Recovers validated address →
      list.allows address = true) →
    ∀ ledger signer, (run list ledger signer).outcome = (run ⟨[]⟩ ledger signer).outcome

/-- A whitelist bears on requests in this way if what `run` has approved reads it behind the
identification, and not again. -/
theorem restrictedBy_of_steps {run : Whitelist → Ledger → Signer → Run α}
    {rest : Whitelist → Ledger → Signer → ValidRequest → AccountId × PublicKey → Run (Prepared α)}
    (hrun : ∀ list ledger signer, run list ledger signer =
      (do
        let valid ← Run.lift .badRequest validated
        let found ← Run.lift .ofIdentity (settings.scheme.identify valid.publicKey.bytes)
        (underList settings list ledger signer).checkWhitelist found.1
        rest list ledger signer valid found)
      >>= (underList settings list ledger signer).approve)
    (hrest : ∀ list, rest list = rest ⟨[]⟩) : RestrictedBy list settings validated run := by
  constructor
  case refused =>
    rintro address ⟨valid, key, hvalid, hfound⟩ hleft ledger signer
    have hlisted : ((underList settings list ledger signer).checkWhitelist address).Refuses []
        (.notWhitelisted (settings.network.formatAccount address)) [] := by
      show (if list.allows address then pure () else throw _ : Run Unit).Refuses _ _ _
      rw [hleft]
      exact Run.refuses_throw _ _
    have hrefuses : (run list ledger signer).Refuses []
        (.notWhitelisted (settings.network.formatAccount address)) [] := by
      rw [hrun]
      refine Run.refuses_bind_of_refuses ?_
      refine Run.refuses_bind_of_returns (Run.returns_lift_iff.mpr ⟨hvalid, rfl⟩) ?_
      refine Run.refuses_bind_of_returns (Run.returns_lift_iff.mpr ⟨hfound, rfl⟩) ?_
      exact Run.refuses_bind_of_refuses hlisted
    exact Run.outcome_of_refuses hrefuses
  case unaffected =>
    intro hserved ledger signer
    rw [hrun, hrun]
    refine congrArg (fun prepared => Run.outcome (prepared >>= _)) ?_
    refine Run.lift_bind_congr fun valid hvalid => ?_
    refine Run.lift_bind_congr fun (address, key) hfound => ?_
    -- both whitelists let the account pass, and nothing behind them reads one
    have hallowed := hserved address ⟨valid, key, hvalid, hfound⟩
    show (if list.allows address then pure () else throw _ : Run Unit) >>= _ = _
    rw [hallowed, hrest list]
    rfl

/-! ### Claims and registrations -/

theorem claim_restrictedBy (request : ClaimRequest) :
    RestrictedBy list settings request.validate fun list ledger signer =>
      (underList settings list ledger signer).claim request :=
  restrictedBy_of_steps (fun _ _ _ => rfl) fun _ => rfl

theorem register_restrictedBy (request : RegisterRequest) :
    RestrictedBy list settings request.validate fun list ledger signer =>
      (underList settings list ledger signer).register request :=
  restrictedBy_of_steps (fun _ _ _ => rfl) fun _ => rfl

/-- **Whitelists only restrict.** A whitelist is loaded exactly if each text names an account. It
then serves the named accounts, and everyone only if there is no text; a service that has it refuses
the claims and registrations of others without looking anything up, and ends all the rest as without
a whitelist. -/
theorem whitelist_restricts (settings : ApprovalSettings) (texts : List String) :
    ((∃ list, Whitelist.ofTexts settings.network texts = .ok list) ↔
        ∀ text ∈ texts, ∃ account, settings.network.parseAccount (Text.trim text) = .ok account)
      ∧ ∀ list, Whitelist.ofTexts settings.network texts = .ok list →
        list.ListsNamed settings.network texts
          ∧ (∀ request : ClaimRequest, RestrictedBy list settings request.validate
            fun list ledger signer => (underList settings list ledger signer).claim request)
          ∧ ∀ request : RegisterRequest, RestrictedBy list settings request.validate
            fun list ledger signer => (underList settings list ledger signer).register request := by
  constructor
  · exact Whitelist.exists_ofTexts_iff
  · intro list hlist
    exact ⟨Whitelist.ofTexts_listsNamed hlist, claim_restrictedBy, register_restrictedBy⟩

end ApprovalService

/-! ### A list of one account

One account in two spellings is listed once; the owner of the asset is not on the list.
-/

namespace Sample

def listTexts : List String := [ownerText, " TBNB1VU8VU6JXQTWY5CC3KC6WJ2FLJSM5K0QQPWT3SN\n"]

def ownerList : Whitelist := ⟨[owner]⟩

theorem listTexts_named : List.Forall₂ settings.network.Names listTexts [owner, owner] :=
  .cons (Outcome.eq_ok_of_toOption (by decide +kernel))
    (.cons (Outcome.eq_ok_of_toOption (by decide +kernel)) .nil)

theorem ofTexts_listTexts : Whitelist.ofTexts settings.network listTexts = .ok ownerList :=
  Whitelist.ofTexts_eq_ok_iff.mpr ⟨_, listTexts_named, by decide⟩

theorem registerRequest_recovers :
    settings.scheme.Recovers registerRequest.validate asset.owner :=
  ⟨_, _, registerEvidence_supports.validates, registerEvidence_supports.identifies⟩

end Sample

namespace ApprovalService

theorem whitelist_restricts_sample :
    Whitelist.ofTexts Sample.settings.network Sample.listTexts = .ok Sample.ownerList
      ∧ Sample.ownerList.ListsNamed Sample.settings.network Sample.listTexts
      ∧ ((underList Sample.settings Sample.ownerList Sample.store.ledger Sample.service.signer).claim
          Sample.claimRequest).result = .ok Sample.evidence.response
      ∧ ((underList Sample.settings Sample.ownerList Sample.registry.ledger
          Sample.service.signer).register Sample.registerRequest).outcome =
            (.error (.notWhitelisted (Sample.settings.network.formatAccount Sample.asset.owner)),
              []) := by
  obtain ⟨hlists, hclaims, hregisters⟩ := (whitelist_restricts Sample.settings Sample.listTexts).2
    _ Sample.ofTexts_listTexts
  refine ⟨Sample.ofTexts_listTexts, hlists, ?_, ?_⟩
  · have hserved : ∀ address, Sample.settings.scheme.Recovers Sample.claimRequest.validate address →
        Sample.ownerList.allows address = true := by
      intro address hnamed
      rw [Sample.named_claimRequest address hnamed]
      decide
    have happroved := claim_of_supports Sample.evidence_supports
    have hsame := (hclaims Sample.claimRequest).unaffected hserved Sample.store.ledger
      Sample.service.signer
    exact (Run.result_congr hsame).trans happroved
  · have hleft : Sample.ownerList.allows Sample.asset.owner = false := by decide
    exact (hregisters Sample.registerRequest).refused _ Sample.registerRequest_recovers hleft _ _

end ApprovalService

end TokenApproval
