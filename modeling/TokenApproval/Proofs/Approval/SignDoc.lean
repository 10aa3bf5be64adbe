import TokenApproval.Approval.Payload
import TokenApproval.Data
import TokenApproval.Identity
import TokenApproval.Proofs.Ledger.Shapes

/-!
# One ownership message, one request

A sign document is read back from its text, whatever stands in its chain id and symbol, so no two
documents have one text. A wallet of the Ethereum scheme hashes the text behind its length in
decimal; since a document starts with a brace, the digits of the length end where the text starts.
-/

namespace TokenApproval

open Data (Reader Shape Field)

/-! ## Personal messages -/

theorem bytes_toString (n : Nat) : Text.bytes (toString n) = Decimal.digitBytes n := by
  rw [Text.bytes_eq_encode]
  show Text.encode (Nat.repr n).toList = _
  rw [Nat.toList_repr]
  rfl

/-- The digits of a message's length end where the message starts, unless that is a digit. -/
theorem dropWhile_length (n : Nat) {message : Bytes} (h : Json.EndsNumber message) :
    (Text.bytes (toString n) ++ message).dropWhile Json.isDigit = message := by
  have hdigits : ∀ b ∈ Text.bytes (toString n), Json.isDigit b = true := by
    rw [bytes_toString]
    exact fun b hb => Json.isDigit_eq_true_iff.mpr (Decimal.isDecimal_of_mem hb)
  rw [List.dropWhile_append_of_pos hdigits, (Json.takeWhile_of_endsDigits h.endsDigits).2]

/-- Messages that do not start like a number are told apart by what is hashed of them. -/
theorem personalMessage_inj {m n : Bytes} (hm : Json.EndsNumber m) (hn : Json.EndsNumber n) :
    personalMessage m = personalMessage n ↔ m = n := by
  constructor
  · intro h
    rw [personalMessage, personalMessage, List.append_assoc, List.append_assoc,
      List.append_cancel_left_eq] at h
    rw [← dropWhile_length m.length hm, h, dropWhile_length n.length hn]
  · rintro rfl
    rfl

/-- The bytes that a wallet of the scheme hashes for a message. -/
def Scheme.preimage : Scheme → Bytes → Bytes
  | .cosmos, message => message
  | .ethereum, message => personalMessage message

/-- The hash function of the scheme's wallets. -/
def Scheme.digest : Scheme → Bytes → Octets 32
  | .cosmos => sha256
  | .ethereum => keccak256

theorem Scheme.messageHash_eq (scheme : Scheme) (message : Bytes) :
    scheme.messageHash message = scheme.digest (scheme.preimage message) := by
  cases scheme <;> rfl

namespace SignDoc

/-! ## Reading documents -/

def amountReader : Reader Int64 :=
  Reader.mapM Reader.text fun written => Json.decode Reader.int64 (Text.bytes written)

def kindReader : Reader RequestKind :=
  Reader.variant
    [(RequestKind.claim.name, .claim), (RequestKind.registerToken.name, .registerToken)]

/-- A document in the form in which it is written. -/
def shape : Shape SignDoc where
  title := "SignDoc"
  blank := ⟨.claim, 0, "", ⟨Octets.zero 20⟩, ""⟩
  fields := [
    .required "amount" amountReader (fun v r => { r with amount := v })
      (fun r => .text (toString r.amount.toInt)),
    .required "chain_id" Reader.text (fun v r => { r with chainId := v })
      (fun r => .text r.chainId),
    .required "recipient" (Reader.map (Reader.octets 20) EvmAddress.mk)
      (fun v r => { r with recipient := v }) (fun r => .text r.recipient.hex),
    .required "token_symbol" Reader.text (fun v r => { r with tokenSymbol := v })
      (fun r => .text r.tokenSymbol),
    .required "type" kindReader (fun v r => { r with kind := v })
      (fun r => .text r.kind.name)]

theorem write_shape (doc : SignDoc) : shape.write doc = doc.tree := rfl

theorem amountReader_text (amount : Int64) :
    amountReader .json (.text (toString amount.toInt)) = .ok amount := by
  have hrender : Json.render (.integer amount.toInt) = toString amount.toInt := by
    rw [Json.render, Json.write, String.ofList_toList]
  show Json.decode Reader.int64 (Text.bytes (toString amount.toInt)) = .ok amount
  rw [← hrender]
  exact Json.decode_render (Data.fitsNumber_int64 amount) (Reader.int64_read amount)

theorem restores (doc : SignDoc) : shape.Restores doc := by
  have hrecipient : Reader.map (Reader.octets 20) EvmAddress.mk .json (.text doc.recipient.hex) =
      .ok doc.recipient := by
    show (Reader.octets 20 .json (.text doc.recipient.octets.hex)).map EvmAddress.mk = _
    rw [Reader.octets_read]
    rfl
  have hkind : kindReader .json (.text doc.kind.name) = .ok doc.kind := by
    cases doc.kind <;> rfl
  exact ⟨_, Field.restores_required True.intro (amountReader_text _),
    _, Field.restores_required True.intro rfl,
    _, Field.restores_required True.intro hrecipient,
    _, Field.restores_required True.intro rfl,
    _, Field.restores_required True.intro hkind, rfl⟩

theorem decode_bytes (doc : SignDoc) : Json.decode shape.read doc.bytes = .ok doc := by
  have hread := Shape.read_write (by decide) doc.restores
  have hfits := Shape.fits_write doc.restores
  rw [write_shape] at hread hfits
  exact Json.decode_render hfits hread

theorem bytes_inj {d e : SignDoc} : d.bytes = e.bytes ↔ d = e := by
  constructor
  · intro h
    have hread := d.decode_bytes
    rw [h, e.decode_bytes] at hread
    exact (Except.ok.inj hread).symm
  · rintro rfl
    rfl

/-- A document starts with a brace. -/
theorem exists_bytes_eq (doc : SignDoc) : ∃ rest, doc.bytes = 0x7b :: rest := by
  rw [bytes, text, Json.render, Text.bytes_ofList, tree, Json.write, List.cons_append,
    Text.encode_cons_ascii (by decide)]
  exact ⟨_, rfl⟩

theorem personalMessage_bytes_inj {d e : SignDoc} :
    personalMessage d.bytes = personalMessage e.bytes ↔ d = e := by
  have hends : ∀ rest, Json.EndsNumber (0x7b :: rest) := fun _ =>
    ⟨by decide, by decide, by decide, by decide⟩
  obtain ⟨drest, hd⟩ := d.exists_bytes_eq
  obtain ⟨erest, he⟩ := e.exists_bytes_eq
  rw [← bytes_inj, hd, he, personalMessage_inj (hends drest) (hends erest)]

/-- **One message, one request.** A document is read back from its text, to the last of its five
fields, and what a wallet hashes of it, under either scheme, it hashes for no other document. -/
theorem preimage_inj_and_reads_back (scheme : Scheme) (d e : SignDoc) :
    (scheme.messageHash d.bytes = scheme.digest (scheme.preimage d.bytes))
      ∧ (scheme.preimage d.bytes = scheme.preimage e.bytes ↔ d = e)
      ∧ Json.decode shape.read d.bytes = .ok d := by
  refine ⟨scheme.messageHash_eq d.bytes, ?_, d.decode_bytes⟩
  cases scheme with
  | cosmos =>
    show d.bytes = e.bytes ↔ d = e
    rw [bytes_inj]
  | ethereum =>
    show personalMessage d.bytes = personalMessage e.bytes ↔ d = e
    rw [personalMessage_bytes_inj]

end SignDoc

end TokenApproval
