import TokenApproval.Ledger.Record
import TokenApproval.Proofs.Hex
import TokenApproval.Proofs.Outcome

/-!
# Canonical hexadecimal texts

A byte string can be spelled in many ways, with either marker or none and with digits of either
case. Written, it has one form: `0x` and lower-case digits. `canonical` brings any text into that
form, and a text spells exactly the bytes that are written as its canonical form
(`decode_eq_ok_iff_canonical`). Identifiers, addresses and roots read and write the byte strings of
one length, so all that holds of them follows from how `Octets` are read (`readsHex_map`).
-/

namespace TokenApproval

namespace Hex

/-! ## Which texts are hexadecimal -/

/-- Behind at most one marker there are only digits, and their bytes pair up. -/
structure IsHex (text : String) : Prop where
  digits : ∀ c ∈ afterMarker text.toList, IsDigit c
  even : (Text.encode (afterMarker text.toList)).length % 2 = 0

theorem IsDigit.ascii {c : Char} (h : IsDigit c) : c.toNat < 128 := by
  obtain ⟨v, hv, hlower⟩ := isDigit_iff.mp h
  exact ascii_of_toLower hv hlower

/-- Digits are one byte each. -/
theorem length_encode_digits {chars : List Char} (h : ∀ c ∈ chars, IsDigit c) :
    (Text.encode chars).length = chars.length := by
  rw [Text.encode_of_ascii fun c hc => (h c hc).ascii, List.length_map]

theorem isHex_iff_isText {text : String} : IsHex text ↔ ∃ count, IsText text count := by
  constructor
  · rintro ⟨hdigits, heven⟩
    rw [length_encode_digits hdigits] at heven
    exact ⟨(afterMarker text.toList).length / 2, hdigits, by omega⟩
  · rintro ⟨count, hdigits, hlength⟩
    refine ⟨hdigits, ?_⟩
    rw [length_encode_digits hdigits, hlength]
    omega

theorem isHex_iff_exists {text : String} : IsHex text ↔ ∃ bytes, decode text = .ok bytes := by
  simp only [isHex_iff_isText, isText_iff]
  constructor
  · rintro ⟨count, bytes, hbytes, -⟩
    exact ⟨bytes, hbytes⟩
  · rintro ⟨bytes, hbytes⟩
    exact ⟨bytes.length, bytes, hbytes, rfl⟩

/-! ## The one written form -/

/-- `0x` and, in lower case, what stands behind the marker of a text. -/
def canonical (text : String) : String :=
  String.ofList ('0' :: 'x' :: (afterMarker text.toList).map Char.toLower)

theorem prefixed_eq (bytes : Bytes) :
    prefixed bytes = String.ofList ('0' :: 'x' :: digits bytes) := by
  rw [← String.toList_inj, prefixed, encode, String.toList_append, String.toList_ofList,
    String.toList_ofList]
  simp

/-- A text spells the bytes that are written as its canonical form. -/
theorem decode_eq_ok_iff_canonical {text : String} {bytes : Bytes} :
    decode text = .ok bytes ↔ prefixed bytes = canonical text := by
  rw [decode_eq_ok_iff, prefixed_eq, canonical, String.ofList_inj, List.cons.injEq, List.cons.injEq,
    eq_comm]
  simp

theorem canonical_inj {a b : String} : canonical a = canonical b ↔ Alike a b := by
  rw [canonical, canonical, String.ofList_inj, Alike]
  simp

end Hex

/-! ## Values of a fixed length -/

/-- Values of `n` bytes are read from every text that spells so many bytes, whatever its marker and
case, and are written in a form that is read back. -/
structure ReadsHex {α : Type} (n : Nat) (parse : String → Except OctetsError α)
    (display : α → String) (octets : α → Octets n) : Prop where
  parse_iff : ∀ text value, parse text = .ok value ↔ Hex.decode text = .ok (octets value).bytes
  accepts_iff : ∀ text, (∃ value, parse text = .ok value) ↔
    ∃ bytes, Hex.decode text = .ok bytes ∧ bytes.length = n
  parse_display : ∀ value, parse (display value) = .ok value
  /-- A value is written in the canonical form of each of its texts. -/
  display_eq : ∀ text value, parse text = .ok value → display value = Hex.canonical text
  same_iff : ∀ text other value value', parse text = .ok value → parse other = .ok value' →
    (value = value' ↔ Hex.Alike text other)

section

variable {α : Type} {n : Nat} {mk : Octets n → α} {octets : α → Octets n}

/-- A value that is nothing but `n` bytes reads and writes as these do. -/
theorem readsHex_map (hmk : ∀ value, mk (octets value) = value) (hoctets : ∀ o, octets (mk o) = o) :
    ReadsHex n (fun text => (Octets.ofHex n text).map mk) (fun value => (octets value).hex)
      octets := by
  have hparse : ∀ text value, (Octets.ofHex n text).map mk = .ok value ↔
      Hex.decode text = .ok (octets value).bytes := by
    intro text value
    rw [Outcome.map_eq_ok_iff, ← Octets.ofHex_eq_ok_iff]
    constructor
    · rintro ⟨o, ho, rfl⟩
      rw [hoctets, ho]
    · intro ho
      exact ⟨octets value, ho, hmk value⟩
  have hback : ∀ value, (Octets.ofHex n (octets value).hex).map mk = .ok value :=
    fun value => (hparse _ _).mpr (Hex.decode_prefixed _)
  have hdisplay : ∀ text value, (Octets.ofHex n text).map mk = .ok value →
      (octets value).hex = Hex.canonical text := by
    intro text value h
    exact Hex.decode_eq_ok_iff_canonical.mp ((hparse text value).mp h)
  refine ⟨hparse, ?_, hback, hdisplay, ?_⟩
  · intro text
    simp only [hparse]
    constructor
    · rintro ⟨value, h⟩
      exact ⟨_, h, (octets value).length_bytes⟩
    · rintro ⟨bytes, h, hlength⟩
      refine ⟨mk ⟨bytes, hlength⟩, ?_⟩
      rw [hoctets, h]
  · intro text other value value' h h'
    rw [← Hex.canonical_inj, ← hdisplay text value h, ← hdisplay other value' h']
    constructor
    · rintro rfl
      rfl
    · intro hsame
      have hvalue := hback value
      rw [hsame, hback value'] at hvalue
      exact (Except.ok.inj hvalue).symm

end

/-- **Hexadecimal texts are read exactly and have one written form.** A text is read if what stands
behind at most one marker is digits that pair up. What is read from it is the one byte string that
is written as the canonical form of the text, and every byte string is read back from its text.
Identifiers, addresses and roots inherit this for texts of 20, 20 and 32 bytes. -/
theorem hex_texts_canonical :
    (∀ text, (∃ bytes, Hex.decode text = .ok bytes) ↔ Hex.IsHex text)
      ∧ (∀ bytes, Hex.decode (Hex.prefixed bytes) = .ok bytes)
      ∧ (∀ text bytes, Hex.decode text = .ok bytes ↔ Hex.prefixed bytes = Hex.canonical text)
      ∧ ReadsHex 20 AccountId.ofHex AccountId.hex AccountId.octets
      ∧ ReadsHex 20 EvmAddress.ofHex EvmAddress.hex EvmAddress.octets
      ∧ ReadsHex 32 StateRoot.ofHex StateRoot.hex StateRoot.octets := by
  refine ⟨fun _ => Hex.isHex_iff_exists.symm, Hex.decode_prefixed,
    fun _ _ => Hex.decode_eq_ok_iff_canonical, ?_, ?_, ?_⟩
  · exact readsHex_map (fun _ => rfl) fun _ => rfl
  · exact readsHex_map (fun _ => rfl) fun _ => rfl
  · exact readsHex_map (fun _ => rfl) fun _ => rfl

end TokenApproval
