import TokenApproval.Proofs.Approval.Evidence
import TokenApproval.Proofs.Hex

/-!
# Requests are judged by the bytes they spell

`RequestField.Holds` is what each field of a request has to be, said of its text. A request is valid
if all four fields are, and otherwise the first one that is not decides what the request is refused
for. Behind the check a run only knows the decoded fields, so requests that spell the same bytes in
different texts run alike.
-/

namespace TokenApproval

/-! ## Fields -/

/-- A field of a request that is checked before anything is looked up. -/
inductive RequestField where
  | tokenSymbol
  | publicKey
  | signature
  | destination
deriving DecidableEq

structure RequestTexts where
  tokenSymbol : String
  publicKey : String
  signature : String
  destination : String

def ClaimRequest.texts (request : ClaimRequest) : RequestTexts :=
  ⟨request.tokenSymbol, request.ownerPubKey, request.ownerSignature, request.claimAddress⟩

def RegisterRequest.texts (request : RegisterRequest) : RequestTexts :=
  ⟨request.tokenSymbol, request.ownerPubKey, request.ownerSignature, request.registerAddress⟩

/-- The same token is named, and the other texts differ at most in their markers and in the case of
letters. -/
structure RequestTexts.Alike (first second : RequestTexts) : Prop where
  tokenSymbol : first.tokenSymbol = second.tokenSymbol
  publicKey : Hex.Alike first.publicKey second.publicKey
  signature : Hex.Alike first.signature second.signature
  destination : Hex.Alike first.destination second.destination

namespace RequestField

/-- The fields in the order in which they are checked. -/
def order : List RequestField := [.tokenSymbol, .publicKey, .signature, .destination]

/-- What a field has to be. -/
def Holds (texts : RequestTexts) : RequestField → Prop
  | .tokenSymbol => texts.tokenSymbol ≠ ""
  | .publicKey => Hex.IsText texts.publicKey 33
  | .signature => Hex.IsText texts.signature 64
  | .destination => Hex.IsText texts.destination 20
    ∧ ∃ c ∈ Hex.afterMarker texts.destination.toList, c ≠ '0'

instance (texts : RequestTexts) : (field : RequestField) → Decidable (field.Holds texts)
  | .tokenSymbol => inferInstanceAs (Decidable (texts.tokenSymbol ≠ ""))
  | .publicKey => inferInstanceAs (Decidable (Hex.IsText texts.publicKey 33))
  | .signature => inferInstanceAs (Decidable (Hex.IsText texts.signature 64))
  | .destination => inferInstanceAs (Decidable (Hex.IsText texts.destination 20
    ∧ ∃ c ∈ Hex.afterMarker texts.destination.toList, c ≠ '0'))

/-- The first field that is not what it has to be. -/
def firstWrong? (texts : RequestTexts) : Option RequestField :=
  order.find? fun field => !decide (field.Holds texts)

end RequestField

/-- The field that a fault of a request is about. -/
def RequestFault.field? : RequestFault → Option RequestField
  | .emptySymbol => some .tokenSymbol
  | .fieldHex name _ | .fieldLength name _ _ =>
    if name = "owner_pub_key" then some .publicKey
    else if name = "owner_signature" then some .signature
    else none
  | .destination _ | .zeroDestination => some .destination
  | .leaf _ | .body _ => none

/-! ## The checks -/

variable {α β : Type} {texts : RequestTexts} {field : RequestField} {fields : List RequestField}
  {x : Except RequestFault α}

/-- A step succeeds or is refused as the first wrong one of the fields says. -/
def DecidedByFields (texts : RequestTexts) (fields : List RequestField)
    (x : Except RequestFault α) : Prop :=
  match fields.find? fun field => !decide (field.Holds texts) with
  | none => ∃ a, x = .ok a
  | some field => ∃ fault, x = .error fault ∧ fault.field? = some field

theorem decidedByFields_ok (a : α) : DecidedByFields texts [] (.ok a) := ⟨a, rfl⟩

/-- A step that checks the first field, before the steps that check the others. -/
theorem decidedByFields_bind {next : α → Except RequestFault β}
    (hfirst : DecidedByFields texts [field] x)
    (hnext : ∀ a, DecidedByFields texts fields (next a)) :
    DecidedByFields texts (field :: fields) (x >>= next) := by
  unfold DecidedByFields at hfirst ⊢
  rw [List.find?_cons] at hfirst ⊢
  cases hholds : !decide (field.Holds texts) with
  | true =>
    rw [hholds] at hfirst
    obtain ⟨fault, rfl, hfield⟩ := hfirst
    exact ⟨fault, rfl, hfield⟩
  | false =>
    rw [hholds] at hfirst
    obtain ⟨a, rfl⟩ := hfirst
    exact hnext a

/-- A step that fails only for the field that it checks. -/
theorem decidedByFields_single (hok : (∃ a, x = .ok a) ↔ field.Holds texts)
    (herror : ∀ fault, x = .error fault → fault.field? = some field) :
    DecidedByFields texts [field] x := by
  unfold DecidedByFields
  rw [List.find?_singleton]
  by_cases hholds : field.Holds texts
  · simp only [hholds, decide_true, Bool.not_true, Bool.false_eq_true, if_false]
    exact hok.mpr hholds
  · simp only [hholds, decide_false, Bool.not_false, if_true]
    cases x with
    | ok a => exact absurd (hok.mp ⟨a, rfl⟩) hholds
    | error fault => exact ⟨fault, rfl, herror fault rfl⟩

theorem exists_decodeField_iff {name text : String} {count : Nat} :
    (∃ octets, decodeField name count text = .ok octets) ↔ Hex.IsText text count := by
  rw [Hex.isText_iff]
  constructor
  · rintro ⟨octets, h⟩
    exact ⟨octets.bytes, decodeField_eq_ok_iff.mp h, octets.length_bytes⟩
  · rintro ⟨bytes, h, hlength⟩
    exact ⟨⟨bytes, hlength⟩, decodeField_eq_ok_iff.mpr h⟩

theorem field?_of_decodeField {name text : String} {count : Nat} {fault : RequestFault}
    (hname : ∀ cause, (RequestFault.fieldHex name cause).field? = some field)
    (h : decodeField name count text = .error fault) : fault.field? = some field := by
  unfold decodeField at h
  split at h
  · next cause _ =>
    obtain rfl := Except.error.inj h
    exact hname cause
  · split at h
    · obtain rfl := Except.error.inj h
      exact hname .oddLength
    · cases h

theorem isZero_iff {text : String} {address : EvmAddress}
    (h : Hex.decode text = .ok address.octets.bytes) :
    address.isZero = false ↔ ∃ c ∈ Hex.afterMarker text.toList, c ≠ '0' := by
  have hzero : address.isZero = true ↔ ∀ b ∈ address.octets.bytes, b = 0 := by
    rw [EvmAddress.isZero, beq_iff_eq, Octets.ext_iff]
    show address.octets.bytes = List.replicate 20 0 ↔ _
    rw [List.eq_replicate_iff]
    exact and_iff_right address.octets.length_bytes
  rw [← Bool.not_eq_true, hzero, Hex.forall_zero_iff h]
  simp

theorem exists_decodeDestination_iff {text : String} :
    (∃ address, decodeDestination text = .ok address) ↔
      Hex.IsText text 20 ∧ ∃ c ∈ Hex.afterMarker text.toList, c ≠ '0' := by
  rw [Hex.isText_iff]
  constructor
  · rintro ⟨address, h⟩
    obtain ⟨hdecode, hzero⟩ := decodeDestination_eq_ok_iff.mp h
    exact ⟨⟨_, hdecode, address.octets.length_bytes⟩, (isZero_iff hdecode).mp hzero⟩
  · rintro ⟨⟨bytes, h, hlength⟩, hdigit⟩
    exact ⟨⟨bytes, hlength⟩, decodeDestination_eq_ok_iff.mpr ⟨h, (isZero_iff h).mpr hdigit⟩⟩

theorem field?_of_decodeDestination {text : String} {fault : RequestFault}
    (h : decodeDestination text = .error fault) : fault.field? = some .destination := by
  unfold decodeDestination at h
  split at h
  · obtain rfl := Except.error.inj h
    rfl
  · split at h
    · obtain rfl := Except.error.inj h
      rfl
    · cases h

/-- The fields are checked in their order, each by a step of its own. -/
theorem validateFields_decided (texts : RequestTexts) (index : Option UInt32) :
    DecidedByFields texts RequestField.order
      (validateFields texts.tokenSymbol index texts.publicKey texts.signature
        texts.destination) := by
  have hsymbol : DecidedByFields texts [.tokenSymbol]
      (if texts.tokenSymbol = "" then .error .emptySymbol else .ok ()) := by
    apply decidedByFields_single
    · split <;> simp_all [RequestField.Holds]
    · intro fault h
      split at h
      · obtain rfl := Except.error.inj h
        rfl
      · cases h
  have hbind : validateFields texts.tokenSymbol index texts.publicKey texts.signature
      texts.destination =
        (if texts.tokenSymbol = "" then .error .emptySymbol else .ok ()) >>= fun _ =>
          decodeField "owner_pub_key" 33 texts.publicKey >>= fun key =>
          decodeField "owner_signature" 64 texts.signature >>= fun signature =>
          decodeDestination texts.destination >>= fun destination =>
          .ok ⟨texts.tokenSymbol, index, key, signature, destination⟩ := by
    unfold validateFields
    split <;> rfl
  have hkey : DecidedByFields texts [.publicKey]
      (decodeField "owner_pub_key" 33 texts.publicKey) := by
    apply decidedByFields_single
    · rw [RequestField.Holds]
      exact exists_decodeField_iff
    · exact fun fault => field?_of_decodeField (by simp [RequestFault.field?])
  have hsignature : DecidedByFields texts [.signature]
      (decodeField "owner_signature" 64 texts.signature) := by
    apply decidedByFields_single
    · rw [RequestField.Holds]
      exact exists_decodeField_iff
    · exact fun fault => field?_of_decodeField (by simp [RequestFault.field?])
  have hdestination : DecidedByFields texts [.destination]
      (decodeDestination texts.destination) := by
    apply decidedByFields_single
    · rw [RequestField.Holds]
      exact exists_decodeDestination_iff
    · exact fun fault => field?_of_decodeDestination
  rw [hbind]
  refine decidedByFields_bind hsymbol fun _ => ?_
  refine decidedByFields_bind hkey fun _ => ?_
  refine decidedByFields_bind hsignature fun _ => ?_
  exact decidedByFields_bind hdestination fun _ => decidedByFields_ok _

/-- Requests whose texts are alike decode to the same fields. -/
theorem validateFields_alike {first second : RequestTexts} (h : first.Alike second)
    {index : Option UInt32} {valid : ValidRequest} :
    validateFields first.tokenSymbol index first.publicKey first.signature first.destination =
        .ok valid ↔
      validateFields second.tokenSymbol index second.publicKey second.signature
        second.destination = .ok valid := by
  rw [validateFields_eq_ok_iff, validateFields_eq_ok_iff, h.tokenSymbol, h.publicKey.decode_iff,
    h.signature.decode_iff, h.destination.decode_iff]

/-! ## Requests -/

/-- A request is valid if all its fields are what they have to be, and is otherwise refused for the
first one that is not, before anything is looked up. -/
structure JudgedByTexts (validated : Except RequestFault ValidRequest) (texts : RequestTexts)
    (run : ApprovalService → Run α) : Prop where
  valid_iff : (∃ valid, validated = .ok valid) ↔ ∀ field : RequestField, field.Holds texts
  refused_iff : ∀ field, (∃ fault, validated = .error fault ∧ fault.field? = some field) ↔
    RequestField.firstWrong? texts = some field
  badRequest : ∀ fault, validated = .error fault → ∀ service,
    (run service).outcome = (.error (.badRequest fault), [])

theorem forall_holds_iff : (∀ field : RequestField, field.Holds texts) ↔
    RequestField.firstWrong? texts = none := by
  rw [RequestField.firstWrong?, List.find?_eq_none]
  constructor
  · intro h field _
    simpa using h field
  · intro h field
    have hmem : field ∈ RequestField.order := by cases field <;> decide
    simpa using h field hmem

theorem judgedByTexts {validated : Except RequestFault ValidRequest} {run : ApprovalService → Run α}
    {next : ApprovalService → ValidRequest → Run (Prepared α)}
    (hdecided : DecidedByFields texts RequestField.order validated)
    (hrun : ∀ service, run service =
      (Run.lift .badRequest validated >>= next service) >>= service.approve) :
    JudgedByTexts validated texts run := by
  unfold DecidedByFields at hdecided
  rw [← RequestField.firstWrong?] at hdecided
  have hrefused : ∀ fault, validated = .error fault → ∀ service,
      (run service).outcome = (.error (.badRequest fault), []) := by
    intro fault hfault service
    rw [hrun]
    have hrefuses : (Run.lift .badRequest validated >>= next service).Refuses []
        (.badRequest fault) [] := Run.refuses_bind_of_refuses (Run.refuses_lift hfault [])
    exact Run.outcome_of_refuses (Run.refuses_bind_of_refuses hrefuses)
  cases hwrong : RequestField.firstWrong? texts with
  | none =>
    rw [hwrong] at hdecided
    obtain ⟨valid, rfl⟩ := hdecided
    refine ⟨iff_of_true ⟨valid, rfl⟩ (forall_holds_iff.mpr hwrong), fun field => ?_, hrefused⟩
    rw [hwrong]
    exact iff_of_false nofun nofun
  | some wrong =>
    rw [hwrong] at hdecided
    obtain ⟨fault, rfl, hfield⟩ := hdecided
    refine ⟨iff_of_false nofun fun h => ?_, fun field => ?_, hrefused⟩
    · rw [forall_holds_iff.mp h] at hwrong
      cases hwrong
    · rw [hwrong, ← hfield]
      constructor
      · rintro ⟨_, ⟨⟩, h⟩
        exact h
      · exact fun h => ⟨fault, rfl, h⟩

/-- **Bytes, not texts.** The fields of a request, each judged by its text alone, decide whether it
is valid and what it is refused for; and of two valid requests that name the same token and
position, and whose other texts differ at most in their markers and in the case of letters, every
service answers one as it answers the other, after the same look-ups and with the same signature. -/
theorem requests_judged_by_bytes :
    (∀ request : ClaimRequest,
      JudgedByTexts request.validate request.texts fun service => service.claim request)
    ∧ (∀ request : RegisterRequest,
      JudgedByTexts request.validate request.texts fun service => service.register request)
    ∧ (∀ first second : ClaimRequest, first.texts.Alike second.texts →
      first.tokenIndex = second.tokenIndex →
      (∃ valid, first.validate = .ok valid) → (∃ valid, second.validate = .ok valid) →
      ∀ service : ApprovalService, (service.claim first).outcome = (service.claim second).outcome)
    ∧ ∀ first second : RegisterRequest, first.texts.Alike second.texts →
      (∃ valid, first.validate = .ok valid) → (∃ valid, second.validate = .ok valid) →
      ∀ service : ApprovalService,
        (service.register first).outcome = (service.register second).outcome := by
  refine ⟨fun request => judgedByTexts (validateFields_decided _ _) fun _ => rfl,
    fun request => judgedByTexts (validateFields_decided _ _) fun _ => rfl, ?_, ?_⟩
  · rintro first second halike hindex ⟨valid, hfirst⟩ - service
    have hsecond : second.validate = .ok valid := by
      rw [ClaimRequest.validate, ← hindex]
      exact (validateFields_alike halike).mp hfirst
    unfold ApprovalService.claim ApprovalService.prepareClaim
    rw [hfirst, hsecond]
  · rintro first second halike ⟨valid, hfirst⟩ - service
    have hsecond : second.validate = .ok valid := (validateFields_alike halike).mp hfirst
    unfold ApprovalService.register ApprovalService.prepareRegister
    rw [hfirst, hsecond]

/-! ## The sample request in other letters -/

namespace Sample

/-- The claim of the sample in capitals, with the markers where the other texts have none. -/
def capitalClaim : ClaimRequest where
  tokenSymbol := "BNB"
  tokenIndex := some 1
  ownerPubKey := "025EED5FA3A67696C334762BB4823E585E2EE579ABA3558D9955296D6C04541B42"
  ownerSignature := "0XA8B16DD6E5EE27E0F8586137849D9BA37CB33F424100374CDD7F2998F31E3DDB" ++
    "6B474E632852E546580DCF5F78DC1BD11D056E80AF91CF6D6D8D38F11EEF5CBF"
  claimAddress := "5B38DA6A701C568545DCFCB03FCB875F56BEDDC4"

end Sample

open Sample in
theorem requests_judged_by_bytes_sample :
    claimRequest.texts.Alike capitalClaim.texts
      ∧ claimRequest.tokenIndex = capitalClaim.tokenIndex
      ∧ (∃ valid, claimRequest.validate = .ok valid) ∧ (∃ valid, capitalClaim.validate = .ok valid)
      ∧ (service.claim claimRequest).outcome = (service.claim capitalClaim).outcome := by
  have halike : claimRequest.texts.Alike capitalClaim.texts :=
    ⟨rfl, by decide +kernel, by decide +kernel, by decide +kernel⟩
  have hvalid : ∃ valid, claimRequest.validate = .ok valid := ⟨_, evidence_supports.validates⟩
  have hcapital : ∃ valid, capitalClaim.validate = .ok valid :=
    hvalid.imp fun _ => (validateFields_alike halike).mp
  exact ⟨halike, rfl, hvalid, hcapital,
    requests_judged_by_bytes.2.2.1 _ _ halike rfl hvalid hcapital service⟩

end TokenApproval
