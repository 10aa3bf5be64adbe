import TokenApproval.Hex
import TokenApproval.Proofs.Text

/-!
# Hexadecimal texts of byte strings

What is written in hexadecimal is read back, and written byte strings compare like the byte strings
themselves.
-/

namespace TokenApproval

namespace Hex

/-! ## Digits -/

theorem digit_ascii {value : Nat} (h : value < 16) : (digit value).toNat < 128 := by
  have hall : ∀ v < 16, (digit v).toNat < 128 := by decide
  exact hall value h

/-- The code of a digit. -/
def digitByte (value : Nat) : UInt8 := UInt8.ofNat (digit value).toNat

theorem value?_digitByte {value : Nat} (h : value < 16) :
    value? (digitByte value) = some value := by
  have hall : ∀ v < 16, value? (digitByte v) = some v := by decide
  exact hall value h

theorem digitByte_lt_iff {v w : Nat} (hv : v < 16) (hw : w < 16) :
    digitByte v < digitByte w ↔ v < w := by
  have hall : ∀ v < 16, ∀ w < 16, digitByte v < digitByte w ↔ v < w := by decide
  exact hall v hv w hw

theorem digitByte_inj {v w : Nat} (hv : v < 16) (hw : w < 16) :
    digitByte v = digitByte w ↔ v = w := by
  constructor
  · intro h
    have hvalue := value?_digitByte hv
    rw [h, value?_digitByte hw] at hvalue
    exact (Option.some.inj hvalue).symm
  · rintro rfl
    rfl

theorem high_lt (b : UInt8) : b.toNat / 16 < 16 :=
  Nat.div_lt_of_lt_mul (UInt8.toNat_lt_size b)

theorem low_lt (b : UInt8) : b.toNat % 16 < 16 := Nat.mod_lt _ (by decide)

/-! ## The bytes of a hexadecimal text -/

def digitBytes (bytes : Bytes) : Bytes :=
  bytes.flatMap fun b => [digitByte (b.toNat / 16), digitByte (b.toNat % 16)]

theorem digitBytes_cons (b : UInt8) (bytes : Bytes) :
    digitBytes (b :: bytes) =
      digitByte (b.toNat / 16) :: digitByte (b.toNat % 16) :: digitBytes bytes := rfl

theorem encode_digits (bytes : Bytes) : Text.encode (digits bytes) = digitBytes bytes := by
  induction bytes with
  | nil => rfl
  | cons b bytes ih =>
    have hdigits : digits (b :: bytes) =
        digit (b.toNat / 16) :: digit (b.toNat % 16) :: digits bytes := rfl
    rw [hdigits, digitBytes_cons, Text.encode_cons_ascii (digit_ascii (high_lt b)),
      Text.encode_cons_ascii (digit_ascii (low_lt b)), ih]
    rfl

theorem bytes_encode (bytes : Bytes) : Text.bytes (encode bytes) = digitBytes bytes := by
  rw [encode, Text.bytes_ofList, encode_digits]

theorem length_digitBytes (bytes : Bytes) : (digitBytes bytes).length = 2 * bytes.length := by
  induction bytes with
  | nil => rfl
  | cons b bytes ih =>
    rw [digitBytes_cons, List.length_cons, List.length_cons, List.length_cons, ih]
    omega

theorem digitBytes_lt_iff {a b : Bytes} : digitBytes a < digitBytes b ↔ a < b := by
  induction a generalizing b with
  | nil =>
    cases b with
    | nil => rfl
    | cons d b => exact ⟨fun _ => List.Lex.nil, fun _ => List.Lex.nil⟩
  | cons c a ih =>
    cases b with
    | nil => exact ⟨fun h => absurd h (List.not_lt_nil _), fun h => absurd h (List.not_lt_nil _)⟩
    | cons d b =>
      simp only [digitBytes_cons, List.cons_lt_cons_iff, ih, UInt8.lt_iff_toNat_lt (a := c),
        digitByte_lt_iff (high_lt c) (high_lt d), digitByte_lt_iff (low_lt c) (low_lt d),
        digitByte_inj (high_lt c) (high_lt d), digitByte_inj (low_lt c) (low_lt d),
        (UInt8.toNat_inj (a := c) (b := d)).symm]
      constructor
      · rintro (hlt | ⟨hhigh, hlt | ⟨hlow, hab⟩⟩)
        · exact .inl (by omega)
        · exact .inl (by omega)
        · exact .inr ⟨by omega, hab⟩
      · rintro (hlt | ⟨heq, hab⟩)
        · by_cases hhigh : c.toNat / 16 < d.toNat / 16
          · exact .inl hhigh
          · exact .inr ⟨by omega, .inl (by omega)⟩
        · exact .inr ⟨by omega, .inr ⟨by omega, hab⟩⟩

theorem digitBytes_inj {a b : Bytes} : digitBytes a = digitBytes b ↔ a = b := by
  constructor
  · intro h
    apply List.le_antisymm
    · exact fun hlt => List.lt_irrefl _ (h ▸ digitBytes_lt_iff.mpr hlt)
    · exact fun hlt => List.lt_irrefl _ (h ▸ digitBytes_lt_iff.mpr hlt)
  · rintro rfl
    rfl

/-! ## Reading back -/

theorem decodePairs_digitBytes (position : Nat) (bytes : Bytes) :
    decodePairs position (digitBytes bytes) = .ok bytes := by
  induction bytes generalizing position with
  | nil => rfl
  | cons b bytes ih =>
    have hbyte : UInt8.ofNat (b.toNat / 16 * 16 + b.toNat % 16) = b := by
      rw [Nat.div_add_mod', UInt8.ofNat_toNat]
    rw [digitBytes_cons, decodePairs]
    simp only [value?_digitByte (high_lt b), value?_digitByte (low_lt b), ih, hbyte]

/-- A byte string is read back from its text. -/
theorem decode_prefixed (bytes : Bytes) : decode (prefixed bytes) = .ok bytes := by
  have hmarker : Text.bytes (prefixed bytes) = 48 :: 120 :: digitBytes bytes := by
    rw [prefixed, Text.bytes_append, bytes_encode]
    rfl
  have heven : ¬ (digitBytes bytes).length % 2 = 1 := by
    rw [length_digitBytes]
    omega
  rw [decode, hmarker, dropMarker, decodeDigits, if_neg heven, decodePairs_digitBytes]

end Hex

namespace Octets

/-- A text spells the bytes that it decodes to, if there are as many as asked for. -/
theorem ofHex_eq_ok_iff {n : Nat} {text : String} {octets : Octets n} :
    ofHex n text = .ok octets ↔ Hex.decode text = .ok octets.bytes := by
  unfold ofHex
  constructor
  · intro h
    split at h
    · cases h
    · next bytes hbytes =>
      split at h
      · cases h
      · next found hfound =>
        obtain rfl := Except.ok.inj h
        rw [hbytes, ofBytes?_eq_some.mp hfound]
  · intro h
    simp only [h, ofBytes?_eq_some.mpr rfl]

theorem ofHex_hex {n : Nat} (octets : Octets n) : ofHex n octets.hex = .ok octets :=
  ofHex_eq_ok_iff.mpr (Hex.decode_prefixed octets.bytes)

end Octets

end TokenApproval

/-! ## Which texts spell which bytes

A text spells bytes exactly if what stands behind its marker, in lower case, is how the bytes are
written. So the digits decide alone: a text is hexadecimal if all its characters behind the marker
are digits and pair up, and two texts that agree there but for the case of letters spell the same
bytes. -/

namespace TokenApproval.Hex

/-! ### Nibbles -/

/-- The two halves of each byte, in order. -/
def nibbles (bytes : Bytes) : List Nat := bytes.flatMap fun b => [b.toNat / 16, b.toNat % 16]

theorem nibbles_cons (b : UInt8) (bytes : Bytes) :
    nibbles (b :: bytes) = b.toNat / 16 :: b.toNat % 16 :: nibbles bytes := rfl

theorem digits_eq_map (bytes : Bytes) : digits bytes = (nibbles bytes).map digit := by
  rw [nibbles, List.map_flatMap]
  rfl

theorem length_nibbles (bytes : Bytes) : (nibbles bytes).length = 2 * bytes.length := by
  induction bytes with
  | nil => rfl
  | cons b bytes ih =>
    rw [nibbles_cons, List.length_cons, List.length_cons, List.length_cons, ih]
    omega

theorem nibbles_lt {bytes : Bytes} {v : Nat} (h : v ∈ nibbles bytes) : v < 16 := by
  obtain ⟨b, -, hv⟩ := List.mem_flatMap.mp h
  rcases List.mem_cons.mp hv with rfl | hlow
  · exact high_lt b
  · rw [List.mem_singleton.mp hlow]
    exact low_lt b

theorem toNat_pair {high low : Nat} (hhigh : high < 16) (hlow : low < 16) :
    (UInt8.ofNat (high * 16 + low)).toNat = high * 16 + low := by
  rw [UInt8.toNat_ofNat']
  exact Nat.mod_eq_of_lt (by omega)

/-- Halves that pair up are those of bytes. -/
theorem exists_nibbles {values : List Nat} {count : Nat} (hlength : values.length = 2 * count)
    (hvalues : ∀ v ∈ values, v < 16) : ∃ bytes, nibbles bytes = values := by
  induction count generalizing values with
  | zero => exact ⟨[], (List.length_eq_zero_iff.mp hlength).symm⟩
  | succ count ih =>
    match values, hlength with
    | [], hlength => simp at hlength
    | [_], hlength => simp only [List.length_singleton] at hlength; omega
    | high :: low :: rest, hlength =>
      rw [List.length_cons, List.length_cons] at hlength
      have hhigh : high < 16 := hvalues high List.mem_cons_self
      have hlow : low < 16 := hvalues low (List.mem_cons_of_mem _ List.mem_cons_self)
      have hrest : rest.length = 2 * count := by omega
      obtain ⟨bytes, hbytes⟩ := ih hrest
        fun v hv => hvalues v (List.mem_cons_of_mem _ (List.mem_cons_of_mem _ hv))
      have hcode := toNat_pair hhigh hlow
      refine ⟨UInt8.ofNat (high * 16 + low) :: bytes, ?_⟩
      rw [nibbles_cons, hcode, hbytes]
      congr 2 <;> omega

/-! ### Bytes of digits -/

theorem value?_lt {b : UInt8} {v : Nat} (h : value? b = some v) : v < 16 := by
  unfold value? at h
  simp only at h
  split at h
  · obtain rfl := Option.some.inj h
    omega
  · split at h
    · obtain rfl := Option.some.inj h
      omega
    · split at h
      · obtain rfl := Option.some.inj h
        omega
      · cases h

/-- Pairs of digits decode to the bytes whose halves they stand for. -/
theorem decodePairs_eq_ok_iff : ∀ (text : Bytes) (position : Nat) (bytes : Bytes),
    decodePairs position text = .ok bytes ↔ text.map value? = (nibbles bytes).map some
  | [], position, bytes => by
    rw [decodePairs, Except.ok.injEq, List.map_nil, eq_comm (a := []), eq_comm (a := []),
      List.map_eq_nil_iff, ← List.length_eq_zero_iff, ← List.length_eq_zero_iff, length_nibbles]
    omega
  | [b], position, bytes => by
    refine ⟨fun h => (by cases h), fun h => ?_⟩
    have hlength := congrArg List.length h
    rw [List.length_map, List.length_map, length_nibbles, List.length_singleton] at hlength
    omega
  | high :: low :: rest, position, bytes => by
    rw [List.map_cons, List.map_cons, decodePairs]
    cases hhigh : value? high with
    | none =>
      refine ⟨fun h => (by cases h), fun h => ?_⟩
      cases bytes with
      | nil => cases h
      | cons b bytes => cases (List.cons.inj h).1
    | some h =>
      cases hlow : value? low with
      | none =>
        refine ⟨fun h => (by cases h), fun h => ?_⟩
        cases bytes with
        | nil => cases h
        | cons b bytes => cases (List.cons.inj (List.cons.inj h).2).1
      | some l =>
        have hh := value?_lt hhigh
        have hl := value?_lt hlow
        have hcode := toNat_pair hh hl
        constructor
        · intro hok
          cases hrest : decodePairs (position + 2) rest with
          | error e =>
            rw [hrest] at hok
            cases hok
          | ok more =>
            rw [hrest] at hok
            obtain rfl := Except.ok.inj hok
            rw [(decodePairs_eq_ok_iff rest _ more).mp hrest, nibbles_cons, hcode]
            show _ = some _ :: some _ :: _
            congr 2 <;> congr 1 <;> omega
        · intro hmap
          cases bytes with
          | nil => cases hmap
          | cons b bytes =>
            rw [nibbles_cons, List.map_cons, List.map_cons] at hmap
            obtain ⟨hfirst, htail⟩ := List.cons.inj hmap
            obtain ⟨hsecond, hrest⟩ := List.cons.inj htail
            obtain rfl := Option.some.inj hfirst
            obtain rfl := Option.some.inj hsecond
            rw [(decodePairs_eq_ok_iff rest (position + 2) bytes).mpr hrest]
            simp only [Nat.div_add_mod', UInt8.ofNat_toNat]

theorem decodeDigits_eq_ok_iff {text bytes : Bytes} :
    decodeDigits text = .ok bytes ↔ text.map value? = (nibbles bytes).map some := by
  rw [decodeDigits]
  split
  · next hodd =>
    refine ⟨fun h => (by cases h), fun h => ?_⟩
    have hlength := congrArg List.length h
    rw [List.length_map, List.length_map, length_nibbles] at hlength
    omega
  · exact decodePairs_eq_ok_iff text 0 bytes

/-! ### Characters -/

/-- The characters behind at most one leading `0x` or `0X`. -/
def afterMarker : List Char → List Char
  | '0' :: 'x' :: rest => rest
  | '0' :: 'X' :: rest => rest
  | chars => chars

/-- A character is a digit, of either case. -/
def IsDigit (c : Char) : Prop :=
  ('0' ≤ c ∧ c ≤ '9') ∨ ('a' ≤ c ∧ c ≤ 'f') ∨ ('A' ≤ c ∧ c ≤ 'F')

instance (c : Char) : Decidable (IsDigit c) := inferInstanceAs (Decidable (_ ∨ _ ∨ _))

theorem dropMarker_encode (chars : List Char) :
    dropMarker (Text.encode chars) = Text.encode (afterMarker chars) := by
  unfold afterMarker
  split
  · next rest => rw [Text.encode_cons_ascii (by decide), Text.encode_cons_ascii (by decide)]; rfl
  · next rest => rw [Text.encode_cons_ascii (by decide), Text.encode_cons_ascii (by decide)]; rfl
  · next hlower hupper =>
    unfold dropMarker
    split
    · next rest h =>
      obtain ⟨tail, rfl, htail⟩ := Text.eq_cons_of_encode (show '0'.toNat < 128 by decide) h
      obtain ⟨more, rfl, -⟩ := Text.eq_cons_of_encode (show 'x'.toNat < 128 by decide) htail
      exact absurd rfl (hlower more)
    · next rest h =>
      obtain ⟨tail, rfl, htail⟩ := Text.eq_cons_of_encode (show '0'.toNat < 128 by decide) h
      obtain ⟨more, rfl, -⟩ := Text.eq_cons_of_encode (show 'X'.toNat < 128 by decide) htail
      exact absurd rfl (hupper more)
    · rfl

/-- A byte of an ASCII character has the value of the digit that the character is. -/
theorem value?_eq_some_iff {c : Char} (hascii : c.toNat < 128) {v : Nat} (hv : v < 16) :
    value? (UInt8.ofNat c.toNat) = some v ↔ c.toLower = digit v := by
  have hall : ∀ n < 128, ∀ v < 16,
      value? (UInt8.ofNat n) = some v ↔ (Char.ofNat n).toLower = digit v := by decide
  have hchar := hall c.toNat hascii v hv
  rwa [Char.ofNat_toNat] at hchar

theorem value?_large {b : UInt8} (h : 128 ≤ b.toNat) : value? b = none := by
  unfold value?
  simp only
  rw [if_neg (by omega), if_neg (by omega), if_neg (by omega)]

theorem ascii_of_toLower {c : Char} {v : Nat} (hv : v < 16) (h : c.toLower = digit v) :
    c.toNat < 128 := by
  unfold Char.toLower at h
  split at h
  · next hupper =>
    exact Nat.lt_of_le_of_lt (UInt32.le_iff_toNat_le.mp hupper.2) (by decide)
  · rw [h]
    exact digit_ascii hv

/-- The bytes of a text have values exactly if its characters, in lower case, are their digits. -/
theorem map_value?_eq_iff {chars : List Char} {values : List Nat} (hvalues : ∀ v ∈ values, v < 16) :
    (Text.encode chars).map value? = values.map some ↔
      chars.map Char.toLower = values.map digit := by
  induction chars generalizing values with
  | nil => cases values <;> simp
  | cons c chars ih =>
    cases values with
    | nil =>
      have hne : Text.encode (c :: chars) ≠ [] := by
        rw [Text.encode_cons]
        exact List.append_ne_nil_of_left_ne_nil String.utf8EncodeChar_ne_nil _
      simp [hne]
    | cons v values =>
      have hv := hvalues v List.mem_cons_self
      have hrest := ih fun w hw => hvalues w (List.mem_cons_of_mem v hw)
      by_cases hascii : c.toNat < 128
      · rw [Text.encode_cons_ascii hascii, List.map_cons, List.map_cons, List.map_cons,
          List.map_cons, List.cons.injEq, List.cons.injEq, hrest, value?_eq_some_iff hascii hv]
      · -- neither side can hold of a character that is no digit
        constructor
        · intro h
          cases hbytes : String.utf8EncodeChar c with
          | nil => exact absurd hbytes String.utf8EncodeChar_ne_nil
          | cons b more =>
            have hlarge := Text.le_of_mem_utf8EncodeChar (Nat.not_lt.mp hascii)
              (hbytes ▸ List.mem_cons_self)
            rw [Text.encode_cons, hbytes, List.cons_append, List.map_cons, value?_large hlarge] at h
            cases (List.cons.inj h).1
        · intro h
          exact absurd (ascii_of_toLower hv (List.cons.inj h).1) hascii

theorem isDigit_iff {c : Char} : IsDigit c ↔ ∃ v < 16, c.toLower = digit v := by
  have hall : ∀ n < 128, IsDigit (Char.ofNat n) ↔ (value? (UInt8.ofNat n)).isSome := by decide
  by_cases hascii : c.toNat < 128
  · have hchar := hall c.toNat hascii
    rw [Char.ofNat_toNat, Option.isSome_iff_exists] at hchar
    rw [hchar]
    constructor
    · rintro ⟨v, h⟩
      exact ⟨v, value?_lt h, (value?_eq_some_iff hascii (value?_lt h)).mp h⟩
    · rintro ⟨v, hv, h⟩
      exact ⟨v, (value?_eq_some_iff hascii hv).mpr h⟩
  · constructor
    · intro h
      have hle : c ≤ 'f' := by
        rcases h with ⟨-, h⟩ | ⟨-, h⟩ | ⟨-, h⟩
        · exact Char.le_trans h (by decide)
        · exact h
        · exact Char.le_trans h (by decide)
      exact absurd (Nat.lt_of_le_of_lt (UInt32.le_iff_toNat_le.mp hle) (by decide)) hascii
    · rintro ⟨v, hv, h⟩
      exact absurd (ascii_of_toLower hv h) hascii

/-- The values of digits. -/
theorem exists_values {chars : List Char} (h : ∀ c ∈ chars, IsDigit c) :
    ∃ values : List Nat, (∀ v ∈ values, v < 16) ∧ chars.map Char.toLower = values.map digit := by
  induction chars with
  | nil => exact ⟨[], nofun, rfl⟩
  | cons c chars ih =>
    obtain ⟨v, hv, hc⟩ := isDigit_iff.mp (h c List.mem_cons_self)
    obtain ⟨values, hvalues, hrest⟩ := ih fun d hd => h d (List.mem_cons_of_mem c hd)
    refine ⟨v :: values, List.forall_mem_cons.mpr ⟨hv, hvalues⟩, ?_⟩
    rw [List.map_cons, List.map_cons, hc, hrest]

/-! ### Texts -/

/-- A text spells bytes exactly if its characters behind the marker, in lower case, are the digits
that the bytes are written with. -/
theorem decode_eq_ok_iff {text : String} {bytes : Bytes} :
    decode text = .ok bytes ↔ (afterMarker text.toList).map Char.toLower = digits bytes := by
  rw [decode, Text.bytes_eq_encode, dropMarker_encode, decodeDigits_eq_ok_iff,
    map_value?_eq_iff fun _ => nibbles_lt, digits_eq_map]

/-- A text spells `count` bytes in digits of any case, behind at most one marker. -/
structure IsText (text : String) (count : Nat) : Prop where
  digits : ∀ c ∈ afterMarker text.toList, IsDigit c
  length : (afterMarker text.toList).length = 2 * count

instance (text : String) (count : Nat) : Decidable (IsText text count) :=
  decidable_of_iff ((afterMarker text.toList).all (fun c => decide (IsDigit c)) = true
      ∧ (afterMarker text.toList).length = 2 * count)
    ⟨fun h => ⟨by simpa using h.1, h.2⟩, fun h => ⟨by simpa using h.digits, h.length⟩⟩

/-- The texts that spell `count` bytes are those that can be read as so many bytes. -/
theorem isText_iff {text : String} {count : Nat} :
    IsText text count ↔ ∃ bytes, decode text = .ok bytes ∧ bytes.length = count := by
  constructor
  · intro h
    obtain ⟨values, hlt, hlower⟩ := exists_values h.digits
    have hlength := congrArg List.length hlower
    rw [List.length_map, List.length_map, h.length] at hlength
    obtain ⟨bytes, rfl⟩ := exists_nibbles hlength.symm hlt
    rw [length_nibbles] at hlength
    exact ⟨bytes, decode_eq_ok_iff.mpr (hlower.trans (digits_eq_map bytes).symm), by omega⟩
  · rintro ⟨bytes, hbytes, rfl⟩
    rw [decode_eq_ok_iff] at hbytes
    constructor
    · intro c hc
      have hlower : c.toLower ∈ Hex.digits bytes := hbytes ▸ List.mem_map_of_mem hc
      rw [digits_eq_map] at hlower
      obtain ⟨v, hv, hdigit⟩ := List.mem_map.mp hlower
      exact isDigit_iff.mpr ⟨v, nibbles_lt hv, hdigit.symm⟩
    · rw [← List.length_map, hbytes, digits_eq_map, List.length_map, length_nibbles]

theorem digit_eq_zero_iff {v : Nat} (h : v < 16) : digit v = '0' ↔ v = 0 := by
  have hall : ∀ v < 16, digit v = '0' ↔ v = 0 := by decide
  exact hall v h

theorem toLower_eq_zero_iff {c : Char} : c.toLower = '0' ↔ c = '0' := by
  have hall : ∀ n < 128, (Char.ofNat n).toLower = '0' ↔ Char.ofNat n = '0' := by decide
  constructor
  · intro h
    have hascii := ascii_of_toLower (v := 0) (by decide) h
    have hchar := hall c.toNat hascii
    rw [Char.ofNat_toNat] at hchar
    exact hchar.mp h
  · rintro rfl
    rfl

/-- A text of zeros alone spells the zero bytes. -/
theorem forall_zero_iff {text : String} {bytes : Bytes} (h : decode text = .ok bytes) :
    (∀ b ∈ bytes, b = 0) ↔ ∀ c ∈ afterMarker text.toList, c = '0' := by
  have hnibbles : (∀ b ∈ bytes, b = 0) ↔ ∀ v ∈ nibbles bytes, digit v = '0' := by
    constructor
    · intro hzero v hv
      obtain ⟨b, hb, hhalf⟩ := List.mem_flatMap.mp hv
      rw [hzero b hb] at hhalf
      rcases List.mem_cons.mp hhalf with rfl | hlow
      · rfl
      · rw [List.mem_singleton.mp hlow]
        rfl
    · intro hzero b hb
      have hhalf : ∀ v ∈ [b.toNat / 16, b.toNat % 16], v = 0 := by
        intro v hv
        have hmem : v ∈ nibbles bytes := List.mem_flatMap.mpr ⟨b, hb, hv⟩
        exact (digit_eq_zero_iff (nibbles_lt hmem)).mp (hzero v hmem)
      have hhigh := hhalf _ List.mem_cons_self
      have hlow := hhalf _ (List.mem_cons_of_mem _ List.mem_cons_self)
      rw [← UInt8.toNat_inj]
      show b.toNat = 0
      omega
  have hchars : (∀ c ∈ (afterMarker text.toList).map Char.toLower, c = '0') ↔
      ∀ c ∈ afterMarker text.toList, c = '0' := by
    rw [List.forall_mem_map]
    exact forall₂_congr fun c _ => toLower_eq_zero_iff
  rw [hnibbles, ← hchars, decode_eq_ok_iff.mp h, digits_eq_map, List.forall_mem_map]

/-- Two texts differ at most in their markers and in the case of letters. -/
def Alike (a b : String) : Prop :=
  (afterMarker a.toList).map Char.toLower = (afterMarker b.toList).map Char.toLower

instance (a b : String) : Decidable (Alike a b) := inferInstanceAs (Decidable (_ = _))

/-- Markers and the case of letters do not change what a text spells. -/
theorem Alike.decode_iff {a b : String} (h : Alike a b) {bytes : Bytes} :
    decode a = .ok bytes ↔ decode b = .ok bytes := by
  rw [decode_eq_ok_iff, decode_eq_ok_iff, h]

end TokenApproval.Hex
