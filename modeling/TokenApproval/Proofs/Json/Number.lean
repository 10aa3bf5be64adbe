import TokenApproval.Json
import TokenApproval.Proofs.Data.Shape
import TokenApproval.Proofs.Text

/-!
# Numbers in JSON

`NumberText` says which bytes are a number, and how it is taken apart; the scanner takes exactly
these, up to where the digits end (`NumberText.scan`, `exists_numberText`). Numbers may have any
digits, so a literal need not denote a number.

A written integer is such a text, and its digits are taken into a significand without a loss as long
as it stays below `2 ^ 64`.
-/

namespace TokenApproval.Json

open Decimal (IsDecimal decimalFrom digitBytes)

/-! ## The grammar -/

/-- One or more decimal digits. -/
def Digits (bytes : Bytes) : Prop := bytes ≠ [] ∧ ∀ b ∈ bytes, isDigit b = true

def valuesOf (digits : Bytes) : List Nat := digits.map fun b => b.toNat - 48

/-- A fraction, if there is one, and its digits. -/
inductive FractionText : Bytes → Option (List Nat) → Prop
  | absent : FractionText [] none
  | point {digits : Bytes} (hdigits : Digits digits) :
      FractionText (46 :: digits) (some (valuesOf digits))

/-- The sign of an exponent, and whether it is a minus. -/
inductive SignText : Bytes → Bool → Prop
  | absent : SignText [] false
  | plus : SignText [43] false
  | minus : SignText [45] true

/-- An exponent, if there is one, with its sign and its digits. -/
inductive ExponentText : Bytes → Option (Bool × List Nat) → Prop
  | absent : ExponentText [] none
  | power {mark : UInt8} {sign digits : Bytes} {negative : Bool} (hmark : mark = 101 ∨ mark = 69)
      (hsign : SignText sign negative) (hdigits : Digits digits) :
      ExponentText (mark :: (sign ++ digits)) (some (negative, valuesOf digits))

/-- The sign of an integer. -/
def signBytes (negative : Bool) : Bytes := if negative then [45] else []

/-- A number. Its integer has no zero in front, unless it is one. -/
inductive NumberText : Bytes → Literal → Prop
  | mk {negative : Bool} {integer fraction exponent : Bytes} {places : Option (List Nat)}
      {power : Option (Bool × List Nat)} (hinteger : Digits integer)
      (hlead : integer = [48] ∨ integer.head? ≠ some 48) (hfraction : FractionText fraction places)
      (hexponent : ExponentText exponent power) :
      NumberText (signBytes negative ++ integer ++ fraction ++ exponent)
        ⟨negative, valuesOf integer, places.getD [], power, places.isNone && power.isNone⟩

/-! ## Where a number ends -/

/-- Nothing at the start of the text continues a number. -/
def EndsNumber : Bytes → Prop
  | [] => True
  | b :: _ => isDigit b = false ∧ b ≠ 46 ∧ b ≠ 101 ∧ b ≠ 69

theorem isDigit_eq_true_iff {b : UInt8} : isDigit b = true ↔ IsDecimal b := by
  rw [isDigit, Bool.and_eq_true, decide_eq_true_iff, decide_eq_true_iff, UInt8.le_iff_toNat_le,
    UInt8.le_iff_toNat_le]
  exact and_congr_right fun _ => Nat.lt_succ_iff.symm

/-- Nothing at the start of the text continues digits. -/
def EndsDigits (rest : Bytes) : Prop := ∀ b ∈ rest.head?, isDigit b = false

theorem EndsNumber.endsDigits {rest : Bytes} (h : EndsNumber rest) : EndsDigits rest := by
  cases rest with
  | nil => simp [EndsDigits]
  | cons b rest => simpa [EndsDigits] using h.1

theorem takeWhile_of_endsDigits {rest : Bytes} (h : EndsDigits rest) :
    rest.takeWhile isDigit = [] ∧ rest.dropWhile isDigit = rest := by
  cases rest with
  | nil => exact ⟨rfl, rfl⟩
  | cons b rest =>
    rw [List.takeWhile_cons, List.dropWhile_cons, h b rfl]
    exact ⟨rfl, rfl⟩

theorem scanExponent_of_endsNumber {rest : Bytes} (h : EndsNumber rest) :
    scanExponent rest = some (none, rest) := by
  cases rest with
  | nil => rfl
  | cons b rest =>
    unfold scanExponent
    exact if_neg (not_or.mpr h.2.2)

/-! ## The scanner -/

theorem Digits.scan {ds rest : Bytes} (h : Digits ds) (hrest : EndsDigits rest) :
    digits (ds ++ rest) = (valuesOf ds, rest) := by
  obtain ⟨htake, hdrop⟩ := takeWhile_of_endsDigits hrest
  rw [digits, List.takeWhile_append_of_pos h.2, List.dropWhile_append_of_pos h.2, htake, hdrop,
    List.append_nil]
  rfl

theorem exists_digits {bytes rest : Bytes} {values : List Nat} (h : digits bytes = (values, rest))
    (hsome : values ≠ []) :
    ∃ ds, bytes = ds ++ rest ∧ Digits ds ∧ values = valuesOf ds := by
  obtain ⟨rfl, rfl⟩ := Prod.mk.inj h
  refine ⟨bytes.takeWhile isDigit, List.takeWhile_append_dropWhile.symm, ⟨?_, ?_⟩, rfl⟩
  · intro hnone
    simp [hnone] at hsome
  · exact List.all_eq_true.mp List.all_takeWhile

theorem Digits.valuesOf_ne_nil {ds : Bytes} (h : Digits ds) : valuesOf ds ≠ [] := by
  simpa [valuesOf] using h.1

theorem Digits.exists_cons {ds : Bytes} (h : Digits ds) :
    ∃ b rest, ds = b :: rest ∧ isDigit b = true := by
  obtain ⟨hsome, hall⟩ := h
  obtain ⟨b, rest, rfl⟩ := List.exists_cons_of_ne_nil hsome
  exact ⟨b, rest, rfl, hall b List.mem_cons_self⟩

theorem FractionText.scan {text rest : Bytes} {places : Option (List Nat)}
    (h : FractionText text places) (hrest : EndsDigits rest) (hpoint : ∀ tail, rest ≠ 46 :: tail) :
    scanFraction (text ++ rest) = some (places, rest) := by
  cases h with
  | absent =>
    rw [List.nil_append, scanFraction]
    exact fun tail heq => hpoint tail heq
  | point hdigits =>
    rw [List.cons_append, scanFraction, hdigits.scan hrest]
    have hsome := hdigits.valuesOf_ne_nil
    split <;> simp_all

theorem exists_fractionText {bytes rest : Bytes} {places : Option (List Nat)}
    (h : scanFraction bytes = some (places, rest)) :
    ∃ text, bytes = text ++ rest ∧ FractionText text places := by
  unfold scanFraction at h
  split at h
  · next tail =>
    split at h
    · cases h
    · next values after hsome hdigits =>
      obtain ⟨rfl, rfl⟩ := Prod.mk.inj (Option.some.inj h)
      obtain ⟨ds, rfl, hds, rfl⟩ := exists_digits hdigits hsome
      exact ⟨46 :: ds, rfl, .point hds⟩
  · obtain ⟨rfl, rfl⟩ := Prod.mk.inj (Option.some.inj h)
    exact ⟨[], rfl, .absent⟩

theorem not_digit_of_sign {b : UInt8} (h : isDigit b = true) : b ≠ 43 ∧ b ≠ 45 ∧ b ≠ 46 := by
  refine ⟨?_, ?_, ?_⟩
  · rintro rfl
    cases h
  · rintro rfl
    cases h
  · rintro rfl
    cases h

theorem ExponentText.scan {text rest : Bytes} {power : Option (Bool × List Nat)}
    (h : ExponentText text power) (hrest : EndsNumber rest) :
    scanExponent (text ++ rest) = some (power, rest) := by
  cases h with
  | absent => exact scanExponent_of_endsNumber hrest
  | power hmark hsign hdigits =>
    have hscan := hdigits.scan hrest.endsDigits
    have hsome := hdigits.valuesOf_ne_nil
    obtain ⟨b, tail, rfl, hb⟩ := hdigits.exists_cons
    obtain ⟨hplus, hminus, -⟩ := not_digit_of_sign hb
    unfold scanExponent
    rw [List.cons_append, List.append_assoc]
    simp only [if_pos hmark]
    rw [List.cons_append] at hscan ⊢
    cases hsign with
    | absent =>
      simp only [List.nil_append]
      split <;> simp_all
    | plus => simp only [List.nil_append, List.cons_append, hscan]
    | minus => simp only [List.nil_append, List.cons_append, hscan]

theorem exists_exponentText {bytes rest : Bytes} {power : Option (Bool × List Nat)}
    (h : scanExponent bytes = some (power, rest)) :
    ∃ text, bytes = text ++ rest ∧ ExponentText text power := by
  fun_cases scanExponent bytes with
  | case1 mark tail hmark negative behind hsign after hdigits =>
    simp [scanExponent, hmark, hsign, hdigits] at h
  | case2 mark tail hmark negative behind hsign values after hsome hdigits =>
    obtain ⟨ds, rfl, hds, rfl⟩ := exists_digits hdigits hsome
    obtain ⟨sign, rfl, hsigned⟩ :
        ∃ sign, tail = sign ++ (ds ++ after) ∧ SignText sign negative := by
      split at hsign
      · obtain ⟨rfl, rfl⟩ := Prod.mk.inj hsign
        exact ⟨[43], rfl, .plus⟩
      · obtain ⟨rfl, rfl⟩ := Prod.mk.inj hsign
        exact ⟨[45], rfl, .minus⟩
      · obtain ⟨rfl, rfl⟩ := Prod.mk.inj hsign
        exact ⟨[], rfl, .absent⟩
    obtain ⟨rfl, rfl⟩ : some (negative, valuesOf ds) = power ∧ after = rest := by
      simpa [scanExponent, hmark, hsign, hdigits, hds.valuesOf_ne_nil] using h
    exact ⟨mark :: (sign ++ ds), by simp, .power hmark hsigned hds⟩
  | case3 mark tail hmark =>
    rw [scanExponent.eq_def] at h
    simp only [if_neg hmark, Option.some.injEq, Prod.mk.injEq] at h
    obtain ⟨rfl, rfl⟩ := h
    exact ⟨[], rfl, .absent⟩
  | case4 =>
    obtain ⟨rfl, rfl⟩ := Prod.mk.inj (Option.some.inj h)
    exact ⟨[], rfl, .absent⟩

/-! What stands behind the parts of a number does not continue the part in front of it. -/

theorem ExponentText.endsDigits {text rest : Bytes} {power : Option (Bool × List Nat)}
    (h : ExponentText text power) (hrest : EndsNumber rest) :
    EndsDigits (text ++ rest) ∧ ∀ tail, text ++ rest ≠ 46 :: tail := by
  cases h with
  | absent =>
    refine ⟨hrest.endsDigits, ?_⟩
    rintro tail rfl
    exact hrest.2.1 rfl
  | power hmark _ _ => rcases hmark with rfl | rfl <;> simp [EndsDigits] <;> rfl

theorem FractionText.endsDigits {text rest : Bytes} {places : Option (List Nat)}
    (h : FractionText text places) (hrest : EndsDigits rest) : EndsDigits (text ++ rest) := by
  cases h with
  | absent => exact hrest
  | point _ => simp [EndsDigits]; rfl

/-- A zero stands alone before the point. -/
theorem refused_lead_iff {ds : Bytes} (h : Digits ds) :
    ((valuesOf ds).isEmpty
      || ((valuesOf ds).head? == some 0 && decide (1 < (valuesOf ds).length))) = true ↔
        ¬ (ds = [48] ∨ ds.head? ≠ some 48) := by
  obtain ⟨b, tail, rfl, hb⟩ := h.exists_cons
  have hzero : b.toNat - 48 = 0 ↔ b = 48 := by
    obtain ⟨hlow, -⟩ := isDigit_eq_true_iff.mp hb
    rw [← UInt8.toNat_inj]
    show _ ↔ b.toNat = 48
    omega
  cases tail <;> simp [valuesOf, hzero]

theorem NumberText.scan {text rest : Bytes} {literal : Literal} (h : NumberText text literal)
    (hrest : EndsNumber rest) : scanLiteral (text ++ rest) = some (literal, rest) := by
  obtain ⟨hinteger, hlead, hfraction, hexponent⟩ := h
  rename_i negative integer fraction exponent places power
  obtain ⟨hbehind, hpoint⟩ := hexponent.endsDigits hrest
  have hdigits := hinteger.scan (hfraction.endsDigits hbehind)
  have hformed := Bool.eq_false_iff.mpr fun hrefused =>
    (refused_lead_iff hinteger).mp hrefused hlead
  have hpoints := hfraction.scan hbehind hpoint
  have hpower := hexponent.scan hrest
  simp only [List.append_assoc]
  cases negative with
  | true =>
    simp only [signBytes, if_true, List.singleton_append, scanLiteral, hdigits, hformed,
      Bool.false_eq_true, if_false, hpoints, Option.bind_eq_bind, Option.bind_some, hpower]
    rfl
  | false =>
    have hunsigned : ∀ tail, integer ++ (fraction ++ (exponent ++ rest)) = 45 :: tail → False := by
      obtain ⟨b, more, rfl, hb⟩ := hinteger.exists_cons
      intro tail heq
      exact (not_digit_of_sign hb).2.1 (List.cons.inj heq).1
    simp only [signBytes, Bool.false_eq_true, if_false, List.nil_append, scanLiteral, hdigits,
      hformed, hpoints, Option.bind_eq_bind, Option.bind_some, hpower]
    rfl

theorem exists_numberText {bytes rest : Bytes} {literal : Literal}
    (h : scanLiteral bytes = some (literal, rest)) :
    ∃ text, bytes = text ++ rest ∧ NumberText text literal := by
  fun_cases scanLiteral bytes with
  | case1 negative behind hsign integer after hdigits hrefused =>
    simp [scanLiteral, hsign, hdigits, hrefused] at h
  | case2 negative behind hsign integer after hdigits hformed =>
    obtain ⟨sign, rfl, hsigned⟩ : ∃ sign, bytes = sign ++ behind ∧ sign = signBytes negative := by
      split at hsign
      · obtain ⟨rfl, rfl⟩ := Prod.mk.inj hsign
        exact ⟨[45], rfl, rfl⟩
      · obtain ⟨rfl, rfl⟩ := Prod.mk.inj hsign
        exact ⟨[], rfl, rfl⟩
    simp only [scanLiteral, hsign, hdigits, if_neg hformed, Option.bind_eq_bind,
      Option.bind_eq_some_iff] at h
    obtain ⟨⟨places, middle⟩, hplaces, ⟨power, last⟩, hpower, hresult⟩ := h
    obtain ⟨rfl, rfl⟩ := Prod.mk.inj (Option.some.inj hresult)
    have hsome : integer ≠ [] := by
      rintro rfl
      exact hformed rfl
    obtain ⟨ds, rfl, hds, rfl⟩ := exists_digits hdigits hsome
    obtain ⟨fraction, rfl, hfraction⟩ := exists_fractionText hplaces
    obtain ⟨exponent, rfl, hexponent⟩ := exists_exponentText hpower
    have hlead : ds = [48] ∨ ds.head? ≠ some 48 :=
      Classical.not_not.mp (mt (refused_lead_iff hds).mpr hformed)
    refine ⟨_, ?_, .mk hds hlead hfraction hexponent⟩
    simp [hsigned]

/-- The bytes that an integer starts with. -/
def StartsNumber (b : UInt8) : Prop := b = 45 ∨ isDigit b = true

/-- What starts an integer starts nothing else. -/
theorem StartsNumber.range {b : UInt8} (h : StartsNumber b) : 45 ≤ b.toNat ∧ b.toNat < 58 := by
  rcases h with rfl | hdigit
  · decide
  · obtain ⟨hlow, hhigh⟩ := isDigit_eq_true_iff.mp hdigit
    exact ⟨by omega, hhigh⟩

theorem NumberText.exists_cons {text : Bytes} {literal : Literal} (h : NumberText text literal) :
    ∃ b tail, text = b :: tail ∧ StartsNumber b := by
  obtain ⟨hinteger, -, -, -⟩ := h
  rename_i negative integer fraction exponent places power
  obtain ⟨b, tail, rfl, hb⟩ := hinteger.exists_cons
  cases negative with
  | true => exact ⟨45, _, rfl, .inl rfl⟩
  | false => exact ⟨b, _, rfl, .inr hb⟩

/-! ## Written integers -/

theorem le_decimalFrom (value : Nat) (digits : Bytes) : value ≤ decimalFrom value digits := by
  induction digits generalizing value with
  | nil => exact Nat.le_refl value
  | cons b digits ih =>
    have hstep := ih (value * 10 + (b.toNat - 48))
    exact Nat.le_trans (by omega) hstep

/-- Digits are taken in without a loss while their number is below `2 ^ 64`. -/
theorem absorb_valuesOf {value : Nat} {bytes : Bytes} (h : decimalFrom value bytes < UInt64.size) :
    absorb value (valuesOf bytes) = (decimalFrom value bytes, []) := by
  induction bytes generalizing value with
  | nil => rfl
  | cons b bytes ih =>
    have hrest : decimalFrom (value * 10 + (b.toNat - 48)) bytes < UInt64.size := h
    have hfits := Nat.lt_of_le_of_lt (le_decimalFrom _ bytes) hrest
    rw [valuesOf, List.map_cons, absorb, if_neg (Nat.not_le.mpr hfits)]
    exact ih hrest

def integerLiteral (negative : Bool) (n : Nat) : Literal :=
  ⟨negative, valuesOf (digitBytes n), [], none, true⟩

theorem number?_integerLiteral (negative : Bool) {n : Nat} (h : n < UInt64.size) :
    (integerLiteral negative n).number? = some (wholeNumber negative n) := by
  have habsorb : absorb 0 (valuesOf (digitBytes n)) = (n, []) := by
    rw [absorb_valuesOf (by rwa [Decimal.decimalFrom_digitBytes]), Decimal.decimalFrom_digitBytes]
  unfold integerLiteral Literal.number?
  rw [habsorb]
  rfl

theorem numberText_integerLiteral (negative : Bool) (n : Nat) :
    NumberText (signBytes negative ++ digitBytes n) (integerLiteral negative n) := by
  have hdigits : Digits (digitBytes n) := ⟨Decimal.digitBytes_ne_nil n, fun b hb =>
    isDigit_eq_true_iff.mpr (Decimal.isDecimal_of_mem hb)⟩
  have hlead : digitBytes n = [48] ∨ (digitBytes n).head? ≠ some 48 := by
    obtain ⟨b, rest, hcons, -⟩ := hdigits.exists_cons
    rw [hcons]
    cases rest with
    | nil => simp [Classical.em]
    | cons c rest =>
      have hb := Decimal.head_ne_zero hcons (List.cons_ne_nil c rest)
      exact .inr (by simpa using hb)
  simpa [integerLiteral] using NumberText.mk hdigits hlead .absent .absent

theorem encode_toString_ofNat (n : Nat) :
    Text.encode (toString (Int.ofNat n)).toList = signBytes false ++ digitBytes n := by
  show Text.encode (Nat.repr n).toList = _
  rw [Nat.toList_repr]
  rfl

theorem encode_toString_negSucc (n : Nat) :
    Text.encode (toString (Int.negSucc n)).toList = signBytes true ++ digitBytes (n + 1) := by
  show Text.encode ("-" ++ Nat.repr (n + 1)).toList = _
  rw [String.toList_append, Text.encode_append, Nat.toList_repr]
  rfl

/-- An integer that fits is written as a number that denotes it. -/
theorem numberText_toString {value : Int} (hvalue : Data.FitsNumber value) :
    ∃ literal, NumberText (Text.encode (toString value).toList) literal
      ∧ literal.number? = some (.integer value) := by
  cases value with
  | ofNat n =>
    have hbound : n < UInt64.size := Int.ofNat_lt.mp hvalue.2
    rw [encode_toString_ofNat]
    refine ⟨_, numberText_integerLiteral false n, ?_⟩
    rw [number?_integerLiteral false hbound]
    rfl
  | negSucc n =>
    have hbound : n + 1 ≤ Data.signedBound := by
      have hlow := hvalue.1
      rw [Int.negSucc_eq] at hlow
      omega
    rw [encode_toString_negSucc]
    refine ⟨_, numberText_integerLiteral true (n + 1), ?_⟩
    rw [number?_integerLiteral true (Nat.lt_of_le_of_lt hbound (by decide)), wholeNumber,
      if_neg (by decide), if_pos ⟨Nat.succ_pos n, hbound⟩]
    rfl

end TokenApproval.Json
