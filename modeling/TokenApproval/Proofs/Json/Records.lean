import TokenApproval.Approval.Request
import TokenApproval.Http.Router
import TokenApproval.Proofs.Ledger.Shapes

/-!
# Records are read back from their texts

A database rereads every record that it serves, and clients reread every answer, so nothing may get
lost between writing and reading. That a tree is parsed into its value is the round trip of
documents; what is left here is that each field of a request, a response and an envelope is read
back from its tree, and that a field which is left out where it is empty leaves the blank record's
value in its place. An empty text or byte string is written, so it is not taken for an absent one.
-/

namespace TokenApproval

open Data (Tree Reader Shape Field)

namespace Data.Reader

theorem bytes_read (value : Bytes) : bytes .json (Tree.bytes value).value = .ok value := by
  show ((Hex.decode (Hex.prefixed value)).mapError Fault.hex) = _
  rw [Hex.decode_prefixed]
  rfl

theorem optionalBytes_read (value : Bytes) :
    optionalBytes .json (Tree.bytes value).value = .ok (some value) := by
  show ((Hex.decode (Hex.prefixed value)).mapError Fault.hex).map some = _
  rw [Hex.decode_prefixed]
  rfl

/-- A record is not null, so it is read as one where it may be left out. -/
theorem optional_read {ρ : Type} {shape : Shape ρ} {record : ρ}
    (hread : shape.read .json (shape.write record).value = .ok record) :
    Reader.optional shape.read .json (shape.write record).value = .ok (some record) := by
  rw [Shape.write, Tree.value] at hread ⊢
  show (shape.read .json _).map some = _
  rw [hread]
  rfl

end Data.Reader

/-! ## Requests and responses -/

namespace ClaimRequest

theorem restores (request : ClaimRequest) : shape.Restores request :=
  ⟨_, Field.restores_required True.intro rfl,
    _, Field.restores_optional rfl Data.fitsNumber_uint32 fun index =>
      (congrArg (Except.map some) (Reader.uint32_read index) :),
    _, Field.restores_required True.intro rfl,
    _, Field.restores_required True.intro rfl,
    _, Field.restores_required True.intro rfl, rfl⟩

end ClaimRequest

namespace RegisterRequest

theorem restores (request : RegisterRequest) : shape.Restores request :=
  ⟨_, Field.restores_required True.intro rfl,
    _, Field.restores_required True.intro rfl,
    _, Field.restores_required True.intro rfl,
    _, Field.restores_required True.intro rfl, rfl⟩

end RegisterRequest

namespace ClaimResponse

theorem restores (response : ClaimResponse) : shape.Restores response :=
  ⟨_, Field.restores_required (Data.fitsNumber_int64 _) (Reader.int64_read _),
    _, Field.restores_required (Data.fits_hashes _) (Reader.hashes_read _),
    _, Field.restores_required True.intro (Reader.bytes_read _),
    _, Field.restores_optional rfl (fun _ => True.intro) Reader.optionalBytes_read,
    _, Field.restores_optional rfl (fun _ => True.intro) Reader.optionalBytes_read, rfl⟩

end ClaimResponse

namespace RegisterResponse

theorem restores (response : RegisterResponse) : shape.Restores response :=
  ⟨_, Field.restores_required (Data.fitsNumber_int64 _) (Reader.int64_read _),
    _, Field.restores_required True.intro (Reader.bytes_read _), rfl⟩

end RegisterResponse

/-! ## Envelopes -/

theorem ResponseCode.reader_toNat (code : ResponseCode) :
    ResponseCode.reader .json (Tree.integer code.toNat).value = .ok code := by
  cases code <;> rfl

namespace Envelope

variable {α : Type} {reader : Reader α} {write : α → Tree}

/-- An envelope is read back if the data is, where it may be left out. -/
theorem restores_shape (hfits : ∀ data, (write data).Fits)
    (hread : ∀ data, Reader.optional reader .json (write data).value = .ok (some data))
    (envelope : Envelope α) : (shape reader write).Restores envelope := by
  have hcode : Data.FitsNumber envelope.code.toNat := by
    rw [Data.FitsNumber]
    cases envelope.code <;> decide
  exact ⟨_, Field.restores_required hcode (ResponseCode.reader_toNat _),
    _, Field.restores_optional rfl hfits hread,
    _, Field.restores_optional rfl (fun _ => True.intro) fun _ => rfl, rfl⟩

theorem restores_text (envelope : Envelope String) : textShape.Restores envelope :=
  @restores_shape String Reader.text Tree.text (fun _ => True.intro) (fun _ => rfl) envelope

end Envelope

/-! ## Texts -/

namespace Json

variable {α ρ : Type} {reader : Reader α} {write : α → Tree}

/-- Every value is read back from the text that it is written as. -/
def Lawful (reader : Reader α) (write : α → Tree) : Prop :=
  ∀ value, decode reader (Text.bytes (render (write value))) = .ok value

theorem lawful_of_read (hfits : ∀ value, (write value).Fits)
    (hread : ∀ value, reader .json (write value).value = .ok value) : Lawful reader write := by
  intro value
  exact decode_render (hfits value) (hread value)

theorem lawful_shape {shape : Shape ρ} (hnames : (shape.fields.map Field.name).Nodup)
    (hrestores : ∀ record, shape.Restores record) : Lawful shape.read shape.write :=
  lawful_of_read (fun record => Shape.fits_write (hrestores record))
    fun record => Shape.read_write hnames (hrestores record)

/-- Different values have different texts. -/
theorem Lawful.render_ne (h : Lawful reader write) {a b : α} (hne : a ≠ b) :
    render (write a) ≠ render (write b) := by
  intro htexts
  have hread := h a
  rw [htexts, h b] at hread
  exact hne (Except.ok.inj hread).symm

/-- **Round trip of records.** Whatever their texts, numbers, lists and byte strings, the records of
the ledger, the requests and responses and the envelopes of texts are read back from their texts.
With a field left out, a record has another text than with that field empty. -/
theorem records_read_back :
    (Lawful AccountId.reader AccountId.tree ∧ Lawful StateRoot.reader StateRoot.tree
        ∧ Lawful Coin.shape.read Coin.shape.write ∧ Lawful Account.shape.read Account.shape.write
        ∧ Lawful Asset.shape.read Asset.shape.write ∧ Lawful Proof.shape.read Proof.shape.write)
      ∧ (Lawful ClaimRequest.shape.read ClaimRequest.shape.write
        ∧ Lawful RegisterRequest.shape.read RegisterRequest.shape.write
        ∧ Lawful ClaimResponse.shape.read ClaimResponse.shape.write
        ∧ Lawful RegisterResponse.shape.read RegisterResponse.shape.write
        ∧ Lawful Envelope.textShape.read Envelope.textShape.write)
      ∧ (∀ (response : ClaimResponse) (node : Bytes),
        render (ClaimResponse.shape.write { response with prefixNode := none }) ≠
            render (ClaimResponse.shape.write { response with prefixNode := some node })
          ∧ render (ClaimResponse.shape.write { response with suffixNode := none }) ≠
            render (ClaimResponse.shape.write { response with suffixNode := some node }))
      ∧ ∀ (envelope : Envelope String) (text : String),
        render (Envelope.textShape.write { envelope with data := none }) ≠
            render (Envelope.textShape.write { envelope with data := some text })
          ∧ render (Envelope.textShape.write { envelope with error := none }) ≠
            render (Envelope.textShape.write { envelope with error := some text }) := by
  have hresponses : Lawful ClaimResponse.shape.read ClaimResponse.shape.write :=
    lawful_shape (by decide) ClaimResponse.restores
  have henvelopes : Lawful Envelope.textShape.read Envelope.textShape.write :=
    lawful_shape (by decide) Envelope.restores_text
  refine ⟨⟨?_, ?_, ?_, ?_, ?_, ?_⟩, ⟨?_, ?_, hresponses, ?_, henvelopes⟩,
    fun response node => ⟨?_, ?_⟩, fun envelope text => ⟨?_, ?_⟩⟩
  · exact lawful_of_read (fun _ => True.intro) AccountId.reader_tree
  · exact lawful_of_read (fun _ => True.intro) StateRoot.reader_tree
  · exact lawful_shape (by decide) Coin.restores
  · exact lawful_shape (by decide) Account.restores
  · exact lawful_shape (by decide) Asset.restores
  · exact lawful_shape (by decide) Proof.restores
  · exact lawful_shape (by decide) ClaimRequest.restores
  · exact lawful_shape (by decide) RegisterRequest.restores
  · exact lawful_shape (by decide) RegisterResponse.restores
  · exact hresponses.render_ne (by simp)
  · exact hresponses.render_ne (by simp)
  · exact henvelopes.render_ne (by simp)
  · exact henvelopes.render_ne (by simp)

end Json

end TokenApproval
