import Mathlib.Data.List.TakeWhile
import TokenApproval.Proofs.Bech32.Groups

/-!
# Bech32 texts

A text is read exactly when it has the form that `IsText` names, and what is written has this form
in either case: the case of a letter changes neither its symbol nor how the human-readable part
enters the checksum.
-/

namespace TokenApproval.Bech32

/-! ## Letters -/

/-- Whether a character may stand in a human-readable part. -/
def IsPrintable (c : Char) : Prop := 33 ≤ c.toNat ∧ c.toNat ≤ 126

instance (c : Char) : Decidable (IsPrintable c) := inferInstanceAs (Decidable (_ ∧ _))

/-- What holds of the printable characters one by one holds of each. -/
theorem IsPrintable.elim {P : Char → Prop} (h : ∀ n < 127, 33 ≤ n → P (Char.ofNat n)) {c : Char}
    (hc : IsPrintable c) : P c := by
  have hn := h c.toNat (Nat.lt_succ_of_le hc.2) hc.1
  rwa [Char.ofNat_toNat] at hn

theorem isPrintable_char (symbol : Symbol) : IsPrintable (char symbol) := by
  revert symbol
  decide

theorem symbol?_char (symbol : Symbol) : symbol? (char symbol) = some symbol := by
  revert symbol
  decide

theorem toLower_char (symbol : Symbol) : (char symbol).toLower = char symbol := by
  revert symbol
  decide

/-- A way to write all letters in one case. -/
structure IsCasing (f : Char → Char) : Prop where
  isPrintable : ∀ {c}, IsPrintable c → IsPrintable (f c)
  toLower : ∀ {c}, IsPrintable c → (f c).toLower = c.toLower
  oneCase : (∀ c, IsPrintable c → (f c).isUpper = false) ∨
    ∀ c, IsPrintable c → (f c).isLower = false
  separator : f '1' = '1'

theorem isCasing_toLower : IsCasing Char.toLower where
  isPrintable := IsPrintable.elim (P := fun c => IsPrintable c.toLower) (by decide)
  toLower := IsPrintable.elim (P := fun c => c.toLower.toLower = c.toLower) (by decide)
  oneCase := .inl fun _ => IsPrintable.elim (P := fun c => c.toLower.isUpper = false) (by decide)
  separator := rfl

theorem isCasing_toUpper : IsCasing Char.toUpper where
  isPrintable := IsPrintable.elim (P := fun c => IsPrintable c.toUpper) (by decide)
  toLower := IsPrintable.elim (P := fun c => c.toUpper.toLower = c.toLower) (by decide)
  oneCase := .inr fun _ => IsPrintable.elim (P := fun c => c.toUpper.isLower = false) (by decide)
  separator := rfl

/-- Letters that are written in one case are not mixed. -/
theorem IsCasing.isMixedCase_map {f : Char → Char} (hf : IsCasing f) {chars : List Char}
    (hchars : ∀ c ∈ chars, IsPrintable c) : isMixedCase (chars.map f) = false := by
  rw [isMixedCase, Bool.and_eq_false_iff, List.any_map, List.any_map, List.any_eq_false,
    List.any_eq_false]
  refine hf.oneCase.imp (fun h => ?_) (fun h => ?_)
  all_goals
    intro c hc
    rw [Function.comp_apply, h c (hchars c hc)]
    exact Bool.false_ne_true

/-- The case of a character does not change its symbol. -/
theorem IsCasing.symbol?_char {f : Char → Char} (hf : IsCasing f) (symbol : Symbol) :
    symbol? (f (char symbol)) = some symbol := by
  rw [symbol?, hf.toLower (isPrintable_char symbol), ← symbol?, Bech32.symbol?_char]

/-! ## Human-readable parts -/

/-- What may stand before the separator. -/
structure IsPart (chars : List Char) : Prop where
  ne_nil : chars ≠ []
  length_le : chars.length ≤ 83
  isPrintable : ∀ c ∈ chars, IsPrintable c
  oneCase : isMixedCase chars = false

theorem HumanPart.ofChars?_eq_some_iff {chars : List Char} {part : HumanPart} :
    HumanPart.ofChars? chars = some part ↔ IsPart chars ∧ part.chars = chars := by
  have hany : (chars.any fun c => decide (c.toNat < 33) || decide (126 < c.toNat)) = false ↔
      ∀ c ∈ chars, IsPrintable c := by
    simp [List.any_eq_false, IsPrintable]
  have hcond : (chars.isEmpty || decide (83 < chars.length)
      || chars.any (fun c => decide (c.toNat < 33) || decide (126 < c.toNat))
      || isMixedCase chars) = false ↔ IsPart chars := by
    rw [Bool.or_eq_false_iff, Bool.or_eq_false_iff, Bool.or_eq_false_iff, hany,
      List.isEmpty_eq_false_iff, decide_eq_false_iff_not, Nat.not_lt]
    constructor
    · rintro ⟨⟨⟨hne, hlength⟩, hprintable⟩, hcase⟩
      exact ⟨hne, hlength, hprintable, hcase⟩
    · intro h
      exact ⟨⟨⟨h.ne_nil, h.length_le⟩, h.isPrintable⟩, h.oneCase⟩
  unfold HumanPart.ofChars?
  split
  · next h =>
    refine ⟨nofun, fun ⟨hpart, _⟩ => ?_⟩
    rw [hcond.mpr hpart] at h
    cases h
  · next h =>
    rw [Bool.not_eq_true] at h
    constructor
    · intro hsome
      obtain rfl := Option.some.inj hsome
      exact ⟨hcond.mp h, rfl⟩
    · rintro ⟨-, rfl⟩
      rfl

theorem IsPart.ofChars? {chars : List Char} (h : IsPart chars) :
    HumanPart.ofChars? chars = some ⟨chars⟩ :=
  HumanPart.ofChars?_eq_some_iff.mpr ⟨h, rfl⟩

theorem IsPart.map {f : Char → Char} (hf : IsCasing f) {chars : List Char} (h : IsPart chars) :
    IsPart (chars.map f) where
  ne_nil := fun hnil => h.ne_nil (List.map_eq_nil_iff.mp hnil)
  length_le := by
    rw [List.length_map]
    exact h.length_le
  isPrintable := List.forall_mem_map.mpr fun c hc => hf.isPrintable (h.isPrintable c hc)
  oneCase := hf.isMixedCase_map h.isPrintable

/-- Parts that differ in case only enter the checksum alike. -/
theorem hasChecksum_congr {part other : HumanPart} (h : part.lower = other.lower)
    (symbols : List Symbol) : hasChecksum part symbols = hasChecksum other symbols := by
  rw [hasChecksum, expand, h, ← expand, ← hasChecksum]

theorem HumanPart.lower_map {f : Char → Char} (hf : IsCasing f) {chars : List Char}
    (h : IsPart chars) : (HumanPart.mk (chars.map f)).lower = (HumanPart.mk chars).lower := by
  rw [lower, lower, List.map_map]
  exact List.map_congr_left fun c hc => hf.toLower (h.isPrintable c hc)

theorem IsPart.lower {part : HumanPart} (h : IsPart part.chars) : IsPart part.lower :=
  h.map isCasing_toLower

theorem HumanPart.lower_lower {part : HumanPart} (h : IsPart part.chars) :
    (HumanPart.mk part.lower).lower = part.lower :=
  lower_map isCasing_toLower h

/-! ## Splitting -/

theorem splitLast?_append (head : List Char) {tail : List Char} (h : '1' ∉ tail) :
    splitLast? (head ++ '1' :: tail) = some (head, tail) := by
  have hall : ∀ c ∈ tail.reverse, decide (c ≠ '1') = true := by
    intro c hc
    rw [decide_eq_true_iff]
    rintro rfl
    exact h (List.mem_reverse.mp hc)
  have hreverse : (head ++ '1' :: tail).reverse = tail.reverse ++ '1' :: head.reverse := by
    rw [List.reverse_append, List.reverse_cons, List.append_assoc, List.singleton_append]
  rw [splitLast?, hreverse, List.takeWhile_append_of_pos hall, List.dropWhile_append_of_pos hall,
    List.takeWhile_cons_of_neg (by decide), List.dropWhile_cons_of_neg (by decide)]
  simp only [List.append_nil, List.reverse_reverse]

/-- A text is split at its last separator. -/
theorem splitLast?_eq_some_iff {chars head tail : List Char} :
    splitLast? chars = some (head, tail) ↔ chars = head ++ '1' :: tail ∧ '1' ∉ tail := by
  constructor
  · intro h
    by_cases hmem : '1' ∈ chars
    · obtain ⟨back, front, hreverse, hback⟩ :=
        List.eq_append_cons_of_mem (List.mem_reverse.mpr hmem)
      have hchars : chars = front.reverse ++ '1' :: back.reverse := by
        rw [← List.reverse_inj, hreverse, List.reverse_append, List.reverse_cons,
          List.reverse_reverse, List.reverse_reverse, List.append_assoc, List.singleton_append]
      have hlast : '1' ∉ back.reverse := fun h => hback (List.mem_reverse.mp h)
      rw [hchars, splitLast?_append _ hlast] at h
      obtain ⟨rfl, rfl⟩ := Prod.mk.inj (Option.some.inj h)
      exact ⟨hchars, hlast⟩
    · have hnone : chars.reverse.dropWhile (· ≠ '1') = [] := by
        rw [List.dropWhile_eq_nil_iff]
        intro c hc
        rw [decide_eq_true_iff]
        rintro rfl
        exact hmem (List.mem_reverse.mp hc)
      rw [splitLast?, hnone] at h
      cases h
  · rintro ⟨rfl, h⟩
    exact splitLast?_append head h

/-! ## Texts -/

theorem mapM_symbol?_eq_some_iff {tail : List Char} {symbols : List Symbol} :
    tail.mapM symbol? = some symbols ↔ tail.map symbol? = symbols.map some := by
  induction tail generalizing symbols with
  | nil => cases symbols <;> simp
  | cons c tail ih =>
    cases symbols with
    | nil =>
      rw [List.mapM_cons]
      cases symbol? c <;> cases tail.mapM symbol? <;> simp
    | cons symbol symbols =>
      rw [List.mapM_cons, List.map_cons, List.map_cons, List.cons.injEq, ← ih]
      cases symbol? c <;> cases tail.mapM symbol? <;> simp

theorem separator_not_mem {tail : List Char} {symbols : List Symbol}
    (h : tail.map symbol? = symbols.map some) : '1' ∉ tail := by
  intro hmem
  have hnone : symbol? '1' ∈ symbols.map some := h ▸ List.mem_map_of_mem hmem
  obtain ⟨symbol, -, hsymbol⟩ := List.mem_map.mp hnone
  exact absurd hsymbol (by decide +revert)

/-- The texts that are read as a human-readable part and symbols. -/
structure IsText (text : String) (part : HumanPart) (symbols : List Symbol) : Prop where
  isPart : IsPart part.chars
  oneCase : isMixedCase text.toList = false
  checksum : hasChecksum part symbols = true
  six_le : 6 ≤ symbols.length
  length_le : part.chars.length + 1 + symbols.length ≤ maxLength
  toList_eq : ∃ tail, text.toList = part.chars ++ '1' :: tail ∧
    tail.map symbol? = symbols.map some

theorem parts?_eq_some_iff {text : String} {part : HumanPart} {symbols : List Symbol} :
    parts? text = some (part, symbols) ↔
      IsPart part.chars ∧ isMixedCase text.toList = false ∧
        ∃ tail, text.toList = part.chars ++ '1' :: tail ∧
          tail.map symbol? = symbols.map some := by
  unfold parts?
  constructor
  · intro h
    obtain ⟨⟨head, tail⟩, hsplit, h⟩ := Option.bind_eq_some_iff.mp h
    obtain ⟨found, hsymbols, h⟩ := Option.bind_eq_some_iff.mp h
    split at h
    · cases h
    · next hcase =>
      obtain ⟨read, hpart, h⟩ := Option.bind_eq_some_iff.mp h
      obtain ⟨rfl, rfl⟩ := Prod.mk.inj (Option.some.inj h)
      obtain ⟨hpart, hchars⟩ := HumanPart.ofChars?_eq_some_iff.mp hpart
      subst hchars
      exact ⟨hpart, Bool.eq_false_iff.mpr hcase, tail, (splitLast?_eq_some_iff.mp hsplit).1,
        mapM_symbol?_eq_some_iff.mp hsymbols⟩
  · rintro ⟨hpart, hcase, tail, hchars, hsymbols⟩
    have hsplit := splitLast?_eq_some_iff.mpr ⟨hchars, separator_not_mem hsymbols⟩
    simp only [hsplit, Option.bind_eq_bind, Option.bind_some, hcase, hpart.ofChars?,
      mapM_symbol?_eq_some_iff.mpr hsymbols]
    rfl

/-- A text decodes to the bytes of its symbols before the checksum. -/
theorem decode_eq_ok_iff {text : String} {part : HumanPart} {bytes : Bytes} :
    decode text = .ok (part, bytes) ↔ ∃ symbols, IsText text part symbols ∧
      bytesOfSymbols (symbols.take (symbols.length - 6)) = bytes := by
  unfold decode
  constructor
  · intro h
    split at h
    · cases h
    · next found symbols hparts =>
      split at h
      · cases h
      · next hrefused =>
        obtain ⟨rfl, rfl⟩ := Prod.mk.inj (Except.ok.inj h)
        obtain ⟨hpart, hcase, hchars⟩ := parts?_eq_some_iff.mp hparts
        simp only [not_or, Bool.not_eq_true', Bool.not_eq_false, Nat.not_lt] at hrefused
        exact ⟨symbols, ⟨hpart, hcase, hrefused.2.2, hrefused.1, hrefused.2.1, hchars⟩, rfl⟩
  · rintro ⟨symbols, h, rfl⟩
    have hrefused : ¬ (symbols.length < 6 ∨ maxLength < part.chars.length + 1 + symbols.length
        ∨ !hasChecksum part symbols) := by
      rw [h.checksum, not_or, not_or, Nat.not_lt, Nat.not_lt]
      exact ⟨h.six_le, h.length_le, Bool.false_ne_true⟩
    rw [parts?_eq_some_iff.mpr ⟨h.isPart, h.oneCase, h.toList_eq⟩]
    exact if_neg hrefused

/-! ## What is written -/

theorem toList_encode (part : HumanPart) (bytes : Bytes) :
    (encode part bytes).toList = part.lower ++ '1' ::
      (symbolsOfBytes bytes ++ checksum part (symbolsOfBytes bytes)).map char := by
  rw [encode, String.toList_ofList, List.append_assoc, List.singleton_append]

variable {part : HumanPart} {bytes : Bytes} {f : Char → Char}

theorem isPrintable_encode (hpart : IsPart part.chars) :
    ∀ c ∈ (encode part bytes).toList, IsPrintable c := by
  rw [toList_encode, List.forall_mem_append, List.forall_mem_cons, List.forall_mem_map]
  exact ⟨hpart.lower.isPrintable, by decide, fun symbol _ => isPrintable_char symbol⟩

/-- What is written has the form of a text, in lower and in upper case. -/
theorem isText_encode (hf : IsCasing f) (hpart : IsPart part.chars)
    (hlength : part.chars.length + 7 + (symbolsOfBytes bytes).length ≤ maxLength) :
    IsText ((encode part bytes).map f) ⟨part.lower.map f⟩
      (symbolsOfBytes bytes ++ checksum part (symbolsOfBytes bytes)) where
  isPart := hpart.lower.map hf
  oneCase := by
    rw [String.toList_map]
    exact hf.isMixedCase_map (isPrintable_encode hpart)
  checksum := by
    have hlower := (HumanPart.lower_map hf hpart.lower).trans (HumanPart.lower_lower hpart)
    rw [hasChecksum_congr hlower, hasChecksum_checksum]
  six_le := by
    rw [List.length_append]
    exact Nat.le_add_left 6 _
  length_le := by
    have hsix : (checksum part (symbolsOfBytes bytes)).length = 6 := rfl
    rw [List.length_map, HumanPart.lower, List.length_map, List.length_append, hsix]
    omega
  toList_eq := by
    refine ⟨(symbolsOfBytes bytes ++ Bech32.checksum part (symbolsOfBytes bytes)).map (f ∘ char),
      ?_, ?_⟩
    · rw [String.toList_map, toList_encode, List.map_append, List.map_cons, hf.separator,
        List.map_map]
    · rw [List.map_map]
      exact List.map_congr_left fun symbol _ => hf.symbol?_char symbol

/-- What is written is read back, in lower and in upper case. -/
theorem decode_map_encode (hf : IsCasing f) (hpart : IsPart part.chars)
    (hlength : part.chars.length + 7 + (symbolsOfBytes bytes).length ≤ maxLength) :
    decode ((encode part bytes).map f) = .ok (⟨part.lower.map f⟩, bytes) := by
  refine decode_eq_ok_iff.mpr ⟨_, isText_encode hf hpart hlength, ?_⟩
  have hsix : (checksum part (symbolsOfBytes bytes)).length = 6 := rfl
  rw [List.length_append, hsix, Nat.add_sub_cancel, List.take_left, bytesOfSymbols_symbolsOfBytes]

/-- What is written is in lower case. -/
theorem map_toLower_encode (hpart : IsPart part.chars) :
    (encode part bytes).map Char.toLower = encode part bytes := by
  have hchars : ∀ symbols : List Symbol, symbols.map (Char.toLower ∘ char) = symbols.map char :=
    fun symbols => List.map_congr_left fun symbol _ => toLower_char symbol
  have hlower : part.lower.map Char.toLower = part.lower := HumanPart.lower_lower hpart
  rw [← String.toList_inj, String.toList_map, toList_encode, List.map_append, List.map_cons,
    List.map_map, hchars, hlower, isCasing_toLower.separator]

end TokenApproval.Bech32
