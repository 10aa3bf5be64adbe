import Mathlib.Data.List.Induction
import Mathlib.Data.List.TakeWhile
import TokenApproval.Bytes
import TokenApproval.Text

/-!
# Byte strings, texts and digits

How byte strings are ordered, which bytes the characters of a text have, and what decimal digits
spell.
-/

/-! ## The order and the numbers of byte strings

Byte strings are compared byte by byte, so strings of one length in front decide before what stands
behind them. A byte string of a given length is told by the number that it spells. -/

namespace TokenApproval

/-- Comparisons that find less in the same two directions are the same. -/
theorem compare_eq_compare {α β : Type} [Ord α] [Ord β] [Std.OrientedOrd α] [Std.OrientedOrd β]
    {x y : α} {u v : β} (hlt : compare x y = .lt ↔ compare u v = .lt)
    (hgt : compare y x = .lt ↔ compare v u = .lt) : compare x y = compare u v := by
  rw [← Std.OrientedCmp.gt_iff_lt, ← Std.OrientedCmp.gt_iff_lt (a := u)] at hgt
  cases hxy : compare x y with
  | lt => exact (hlt.mp hxy).symm
  | gt => exact (hgt.mp hxy).symm
  | eq =>
    rw [hxy] at hlt hgt
    cases huv : compare u v with
    | lt => cases hlt.mpr huv
    | eq => rfl
    | gt => cases hgt.mpr huv

namespace Bytes

theorem compare_cons (c d : UInt8) (a b : Bytes) :
    compare (c :: a) (d :: b) = (compare c d).then (compare a b) := List.compareLex_cons_cons

theorem compare_eq_lt_iff {a b : Bytes} : compare a b = .lt ↔ a < b := by
  induction a generalizing b with
  | nil =>
    cases b with
    | nil => simp [Std.ReflCmp.compare_self]
    | cons d b => exact ⟨fun _ => List.Lex.nil, fun _ => rfl⟩
  | cons c a ih =>
    cases b with
    | nil => exact ⟨fun h => (by cases h), fun h => absurd h (List.not_lt_nil _)⟩
    | cons d b =>
      rw [compare_cons, Ordering.then_eq_lt, ih, List.cons_lt_cons_iff, Std.compare_eq_lt,
        Std.compare_eq_iff_eq]

/-- Byte strings with starts of one length compare by these first. -/
theorem compare_append {a b : Bytes} (h : a.length = b.length) (x y : Bytes) :
    compare (a ++ x) (b ++ y) = (compare a b).then (compare x y) := by
  induction a generalizing b with
  | nil =>
    obtain rfl := List.eq_nil_of_length_eq_zero h.symm
    rfl
  | cons c a ih =>
    cases b with
    | nil => cases h
    | cons d b =>
      rw [List.cons_append, List.cons_append, compare_cons, compare_cons, ih (Nat.succ.inj h),
        Ordering.then_assoc]

theorem compare_append_left (lead x y : Bytes) : compare (lead ++ x) (lead ++ y) = compare x y := by
  have hlead : compare lead lead = .eq := Std.ReflCmp.compare_self
  rw [compare_append rfl, hlead, Ordering.then]

theorem append_lt_append_iff {a b x y : Bytes} (h : a.length = b.length) :
    a ++ x < b ++ y ↔ a < b ∨ a = b ∧ x < y := by
  rw [← compare_eq_lt_iff, compare_append h, Ordering.then_eq_lt, compare_eq_lt_iff,
    compare_eq_lt_iff, Std.compare_eq_iff_eq]

/-! ### Numbers -/

/-- Reading a byte string as a number and writing the number in as many bytes gives the byte
string. -/
theorem ofNat_toNat {bytes : Bytes} {width : Nat} (h : bytes.length = width) :
    ofNat width bytes.toNat = bytes := by
  subst h
  induction bytes using List.reverseRecOn with
  | nil => rfl
  | append_singleton front b ih =>
    have hb := b.toNat_lt_size
    simp only [UInt8.size] at hb
    have hdiv : (toNat front * 256 + b.toNat) / 256 = toNat front := by omega
    have hmod : (toNat front * 256 + b.toNat) % 256 = b.toNat := by omega
    rw [List.length_append, List.length_singleton, toNat_append_singleton, ofNat, hdiv, hmod, ih,
      UInt8.ofNat_toNat]

/-! ### Sorting by keys -/

variable {α : Type} {le : α → α → Bool} (key : α → Bytes)

theorem pairwise_le_mergeSort (hle : ∀ a b, le a b = true ↔ key a ≤ key b) (list : List α) :
    (list.mergeSort le).Pairwise fun a b => key a ≤ key b := by
  have hsorted : (list.mergeSort le).Pairwise fun a b => le a b = true := by
    apply List.pairwise_mergeSort
    · intro a b c hab hbc
      exact (hle a c).mpr (List.le_trans ((hle a b).mp hab) ((hle b c).mp hbc))
    · intro a b
      rw [Bool.or_eq_true, hle, hle]
      exact List.le_total (key a) (key b)
  exact hsorted.imp fun {a b} => (hle a b).mp

/-- Elements of different keys are sorted into strictly ascending order. -/
theorem pairwise_lt_mergeSort (hle : ∀ a b, le a b = true ↔ key a ≤ key b) {list : List α}
    (hdifferent : list.Pairwise fun a b => key a ≠ key b) :
    (list.mergeSort le).Pairwise fun a b => key a < key b := by
  have hne : (list.mergeSort le).Pairwise fun a b => key a ≠ key b :=
    (List.mergeSort_perm list le).symm.pairwise hdifferent fun hab => Ne.symm hab
  refine ((pairwise_le_mergeSort key hle list).and hne).imp fun {a b} hab => ?_
  exact (List.le_iff_lt_or_eq.mp hab.1).resolve_right hab.2

end Bytes

end TokenApproval

/-! ## Texts character by character

The bytes of a text are those of its characters, one behind the other. A character below 128 is the
one byte of its code, and all bytes of the others are from 128 on, so scanners that look for ASCII
marks never find one inside another character. -/

namespace TokenApproval.Text

/-- The UTF-8 bytes of characters. -/
def encode (chars : List Char) : Bytes := chars.flatMap String.utf8EncodeChar

@[simp] theorem encode_nil : encode [] = [] := rfl

theorem encode_cons (c : Char) (chars : List Char) :
    encode (c :: chars) = String.utf8EncodeChar c ++ encode chars := List.flatMap_cons

@[simp] theorem encode_append (a b : List Char) : encode (a ++ b) = encode a ++ encode b :=
  List.flatMap_append

theorem bytes_ofList (chars : List Char) : bytes (String.ofList chars) = encode chars := by
  simp only [bytes, String.toByteArray_ofList, List.utf8Encode, List.toList_data_toByteArray]
  rfl

theorem bytes_eq_encode (text : String) : bytes text = encode text.toList := by
  rw [← bytes_ofList, String.ofList_toList]

theorem encode_inj {a b : List Char} : encode a = encode b ↔ a = b := by
  rw [← bytes_ofList, ← bytes_ofList, bytes_inj, String.ofList_inj]

theorem ofBytes?_encode (text : String) : ofBytes? (encode text.toList) = some text := by
  rw [← bytes_eq_encode, ofBytes?_bytes]

/-! ### ASCII and other characters -/

theorem utf8EncodeChar_ascii {c : Char} (h : c.toNat < 128) :
    String.utf8EncodeChar c = [UInt8.ofNat c.toNat] := by
  have hle : c.val.toNat ≤ 127 := Nat.le_of_lt_succ h
  simp only [String.utf8EncodeChar, hle, if_true]
  rfl

/-- No byte of a character from 128 on is an ASCII character. -/
theorem le_of_mem_utf8EncodeChar {c : Char} (h : 128 ≤ c.toNat) {b : UInt8}
    (hb : b ∈ String.utf8EncodeChar c) : 128 ≤ b.toNat := by
  have hle : ¬ c.val.toNat ≤ 127 := Nat.not_le.mpr h
  revert hb
  simp only [String.utf8EncodeChar, hle, if_false]
  split
  · simp only [List.mem_cons, List.not_mem_nil, or_false]
    rintro (rfl | rfl) <;> simp only [UInt8.toNat_ofNat'] <;> omega
  · split
    · simp only [List.mem_cons, List.not_mem_nil, or_false]
      rintro (rfl | rfl | rfl) <;> simp only [UInt8.toNat_ofNat'] <;> omega
    · simp only [List.mem_cons, List.not_mem_nil, or_false]
      rintro (rfl | rfl | rfl | rfl) <;> simp only [UInt8.toNat_ofNat'] <;> omega

theorem encode_cons_ascii {c : Char} (h : c.toNat < 128) (chars : List Char) :
    encode (c :: chars) = UInt8.ofNat c.toNat :: encode chars := by
  rw [encode_cons, utf8EncodeChar_ascii h, List.singleton_append]

/-- Bytes that start with an ASCII mark are those of characters that do. -/
theorem eq_cons_of_encode {chars : List Char} {mark : Char} (hmark : mark.toNat < 128)
    {rest : Bytes} (h : encode chars = UInt8.ofNat mark.toNat :: rest) :
    ∃ tail, chars = mark :: tail ∧ encode tail = rest := by
  have hcode : (UInt8.ofNat mark.toNat).toNat = mark.toNat :=
    UInt8.toNat_ofNat_of_lt' (Nat.lt_trans hmark (by decide))
  cases chars with
  | nil => cases h
  | cons c chars =>
    by_cases hascii : c.toNat < 128
    · rw [encode_cons_ascii hascii] at h
      obtain ⟨hhead, htail⟩ := List.cons.inj h
      have hsame := congrArg UInt8.toNat hhead
      rw [hcode, UInt8.toNat_ofNat_of_lt' (Nat.lt_trans hascii (by decide))] at hsame
      exact ⟨chars, congrArg (· :: chars) (Char.toNat_inj.mp hsame), htail⟩
    · rw [encode_cons] at h
      cases hbytes : String.utf8EncodeChar c with
      | nil => exact absurd hbytes String.utf8EncodeChar_ne_nil
      | cons b more =>
        rw [hbytes] at h
        have hlarge : 128 ≤ b.toNat :=
          le_of_mem_utf8EncodeChar (Nat.not_lt.mp hascii) (hbytes ▸ List.mem_cons_self)
        rw [(List.cons.inj h).1, hcode] at hlarge
        exact absurd hmark (Nat.not_lt.mpr hlarge)

/-- Texts of ASCII characters are their codes. -/
theorem encode_of_ascii {chars : List Char} (h : ∀ c ∈ chars, c.toNat < 128) :
    encode chars = chars.map fun c => UInt8.ofNat c.toNat := by
  induction chars with
  | nil => rfl
  | cons c chars ih =>
    rw [encode_cons_ascii (h c List.mem_cons_self), List.map_cons,
      ih fun d hd => h d (List.mem_cons_of_mem c hd)]

/-! ## Texts without the white space at their ends

`Trims` says what is left of a text: its core, with nothing but white space around it, and none at
its own two ends. Every text has one core, which is what `trim` gives (`trim_eq_iff`); so trimming
twice is trimming once, and nothing is left exactly of white space. -/

/-- The text is the core with white space around it, and the core has none at its ends. -/
structure Trims (text core : String) : Prop where
  around : ∃ before after, text.toList = before ++ core.toList ++ after
    ∧ (∀ c ∈ before, isBlank c = true) ∧ ∀ c ∈ after, isBlank c = true
  first : ∀ c, core.toList.head? = some c → isBlank c = false
  last : ∀ c, core.toList.getLast? = some c → isBlank c = false

variable {before chars : List Char}

theorem dropWhile_blanks (hbefore : ∀ c ∈ before, isBlank c = true)
    (hfirst : ∀ c, chars.head? = some c → isBlank c = false) :
    (before ++ chars).dropWhile isBlank = chars := by
  rw [List.dropWhile_append_of_pos hbefore]
  cases chars with
  | nil => rfl
  | cons c chars => rw [List.dropWhile_cons, hfirst c rfl, if_neg Bool.false_ne_true]

/-- What is left behind leading white space starts with no white space. -/
theorem head?_dropWhile_isBlank {c : Char} (h : (chars.dropWhile isBlank).head? = some c) :
    isBlank c = false := by
  have hfirst := List.head?_dropWhile_not isBlank chars
  rw [h] at hfirst
  exact hfirst

theorem toList_trim (text : String) :
    (trim text).toList =
      ((text.toList.dropWhile isBlank).reverse.dropWhile isBlank).reverse := String.toList_ofList

theorem trims_trim (text : String) : Trims text (trim text) := by
  have hfront := List.takeWhile_append_dropWhile (p := isBlank) (l := text.toList)
  have hback := List.takeWhile_append_dropWhile (p := isBlank)
    (l := (text.toList.dropWhile isBlank).reverse)
  have hstripped : text.toList.dropWhile isBlank = (trim text).toList ++
      ((text.toList.dropWhile isBlank).reverse.takeWhile isBlank).reverse := by
    rw [toList_trim, ← List.reverse_append, hback, List.reverse_reverse]
  refine ⟨⟨text.toList.takeWhile isBlank,
    ((text.toList.dropWhile isBlank).reverse.takeWhile isBlank).reverse, ?_, ?_, ?_⟩, ?_, ?_⟩
  · rw [List.append_assoc, ← hstripped, hfront]
  · exact List.all_eq_true.mp List.all_takeWhile
  · intro c hc
    exact List.all_eq_true.mp List.all_takeWhile c (List.mem_reverse.mp hc)
  · intro c hc
    have hhead : (text.toList.dropWhile isBlank).head? = some c := by
      rw [hstripped, List.head?_append, hc, Option.some_or]
    exact head?_dropWhile_isBlank hhead
  · intro c hc
    rw [toList_trim, List.getLast?_reverse] at hc
    exact head?_dropWhile_isBlank hc

theorem Trims.trim_eq {text core : String} (h : Trims text core) : trim text = core := by
  obtain ⟨before, after, htext, hbefore, hafter⟩ := h.around
  rw [← String.toList_inj, toList_trim, htext]
  by_cases hcore : core.toList = []
  · have hblank : ∀ c ∈ before ++ after, isBlank c = true :=
      List.forall_mem_append.mpr ⟨hbefore, hafter⟩
    rw [hcore, List.append_nil, List.dropWhile_eq_nil_iff.mpr hblank]
    rfl
  · obtain ⟨d, rest, hcons⟩ := List.exists_cons_of_ne_nil hcore
    have hfirst : ∀ c, (core.toList ++ after).head? = some c → isBlank c = false := by
      intro c hc
      apply h.first
      simpa [hcons] using hc
    have hlast : ∀ c, core.toList.reverse.head? = some c → isBlank c = false := by
      rw [List.head?_reverse]
      exact h.last
    have hbehind : ∀ c ∈ after.reverse, isBlank c = true :=
      fun c hc => hafter c (List.mem_reverse.mp hc)
    rw [List.append_assoc, dropWhile_blanks hbefore hfirst, List.reverse_append,
      dropWhile_blanks hbehind hlast, List.reverse_reverse]

theorem trim_eq_iff {text core : String} : trim text = core ↔ Trims text core := by
  constructor
  · rintro rfl
    exact trims_trim text
  · exact Trims.trim_eq

theorem trim_trim (text : String) : trim (trim text) = trim text := by
  have h := trims_trim text
  exact trim_eq_iff.mpr ⟨⟨[], [], by simp⟩, h.first, h.last⟩

theorem trim_eq_empty_iff {text : String} :
    trim text = "" ↔ ∀ c ∈ text.toList, isBlank c = true := by
  rw [trim_eq_iff]
  constructor
  · rintro ⟨⟨before, after, htext, hbefore, hafter⟩, -, -⟩
    rw [htext, String.toList_empty, List.append_nil]
    exact List.forall_mem_append.mpr ⟨hbefore, hafter⟩
  · intro h
    exact ⟨⟨text.toList, [], by simp, h, by simp⟩, by simp, by simp⟩

end TokenApproval.Text

/-! ## Decimal digits

The digits of a number spell the number, do not start with a zero unless they are the one digit of
zero, and digits of one length compare like the numbers that they spell. -/

namespace TokenApproval.Decimal

def IsDecimal (b : UInt8) : Prop := 48 ≤ b.toNat ∧ b.toNat < 58

/-- The number that decimal digits spell behind a number. -/
def decimalFrom (value : Nat) (digits : Bytes) : Nat :=
  digits.foldl (fun acc b => acc * 10 + (b.toNat - 48)) value

/-- As many digits behind two numbers compare like the numbers first. -/
theorem decimalFrom_lt_iff {m n : Nat} {a b : Bytes} (h : a.length = b.length)
    (ha : ∀ c ∈ a, IsDecimal c) (hb : ∀ c ∈ b, IsDecimal c) :
    decimalFrom m a < decimalFrom n b ↔ m < n ∨ m = n ∧ a < b := by
  induction a generalizing b m n with
  | nil =>
    obtain rfl := List.eq_nil_of_length_eq_zero h.symm
    simp [decimalFrom]
  | cons c a ih =>
    cases b with
    | nil => cases h
    | cons d b =>
      have hrest := @ih (m * 10 + (c.toNat - 48)) (n * 10 + (d.toNat - 48)) b (Nat.succ.inj h)
        (fun e he => ha e (List.mem_cons_of_mem c he))
        (fun e he => hb e (List.mem_cons_of_mem d he))
      have hc : IsDecimal c := ha c List.mem_cons_self
      have hd : IsDecimal d := hb d List.mem_cons_self
      unfold IsDecimal at hc hd
      show decimalFrom _ a < decimalFrom _ b ↔ _
      rw [hrest, List.cons_lt_cons_iff, UInt8.lt_iff_toNat_lt, ← UInt8.toNat_inj]
      -- the two leading digits are below ten, so that they never carry into the number in front
      constructor
      · rintro (hlt | ⟨heq, hab⟩)
        · omega
        · exact .inr ⟨by omega, .inr ⟨by omega, hab⟩⟩
      · rintro (hlt | ⟨rfl, hlt | ⟨heq, hab⟩⟩)
        · exact .inl (by omega)
        · exact .inl (by omega)
        · exact .inr ⟨by omega, hab⟩

/-- Digits of one length compare like the numbers that they spell. -/
theorem lt_iff_decimal_lt {a b : Bytes} (h : a.length = b.length) (ha : ∀ c ∈ a, IsDecimal c)
    (hb : ∀ c ∈ b, IsDecimal c) : a < b ↔ decimalFrom 0 a < decimalFrom 0 b := by
  rw [decimalFrom_lt_iff h ha hb]
  simp

/-! ### The digits of a number -/

def digitBytes (n : Nat) : Bytes := Text.encode (Nat.toDigits 10 n)

theorem code_of_isDigit {c : Char} (h : c.isDigit = true) : 48 ≤ c.toNat ∧ c.toNat < 58 := by
  rw [Char.isDigit, Bool.and_eq_true, decide_eq_true_iff, decide_eq_true_iff] at h
  exact ⟨UInt32.le_iff_toNat_le.mp h.1, Nat.lt_succ_of_le (UInt32.le_iff_toNat_le.mp h.2)⟩

theorem ascii_of_isDigit {c : Char} (h : c.isDigit = true) : c.toNat < 128 :=
  Nat.lt_trans (code_of_isDigit h).2 (by decide)

theorem toNat_code {c : Char} (h : c.isDigit = true) : (UInt8.ofNat c.toNat).toNat = c.toNat := by
  rw [UInt8.toNat_ofNat']
  exact Nat.mod_eq_of_lt (Nat.lt_trans (ascii_of_isDigit h) (by decide))

theorem isDecimal_of_mem_encode {chars : List Char} (h : ∀ c ∈ chars, c.isDigit = true) {b : UInt8}
    (hb : b ∈ Text.encode chars) : IsDecimal b := by
  rw [Text.encode_of_ascii fun c hc => ascii_of_isDigit (h c hc), List.mem_map] at hb
  obtain ⟨c, hc, rfl⟩ := hb
  rw [IsDecimal, toNat_code (h c hc)]
  exact code_of_isDigit (h c hc)

theorem decimalFrom_encode {chars : List Char} (h : ∀ c ∈ chars, c.isDigit = true) (value : Nat) :
    decimalFrom value (Text.encode chars) = Nat.ofDigitChars 10 chars value := by
  induction chars generalizing value with
  | nil => rfl
  | cons c chars ih =>
    have hc := h c List.mem_cons_self
    rw [Text.encode_cons_ascii (ascii_of_isDigit hc), Nat.ofDigitChars_cons,
      ← ih fun d hd => h d (List.mem_cons_of_mem c hd)]
    show decimalFrom (value * 10 + ((UInt8.ofNat c.toNat).toNat - 48)) _ = _
    rw [toNat_code hc, Nat.mul_comm]
    rfl

theorem isDigit_of_mem {n : Nat} {c : Char} (h : c ∈ Nat.toDigits 10 n) : c.isDigit = true :=
  Nat.isDigit_of_mem_toDigits (by decide) (by decide) h

theorem isDecimal_of_mem {n : Nat} {b : UInt8} (h : b ∈ digitBytes n) : IsDecimal b :=
  isDecimal_of_mem_encode (fun _ hc => isDigit_of_mem hc) h

/-- The digits of a number spell the number. -/
theorem decimalFrom_digitBytes (n : Nat) : decimalFrom 0 (digitBytes n) = n := by
  rw [digitBytes, decimalFrom_encode fun _ hc => isDigit_of_mem hc, Nat.ofDigitChars_ten_toDigits]

theorem digitBytes_ne_nil (n : Nat) : digitBytes n ≠ [] := by
  intro h
  have hnil : Nat.toDigits 10 n = [] := Text.encode_inj.mp h
  exact Nat.toDigits_ne_nil hnil

/-- More than one digit do not start with a zero. -/
theorem head_ne_zero {n : Nat} {b : UInt8} {rest : Bytes} (h : digitBytes n = b :: rest)
    (hrest : rest ≠ []) : b ≠ 48 := by
  induction n using Nat.strongRecOn generalizing rest with
  | _ n ih =>
    by_cases hn : n < 10
    · rw [digitBytes, Nat.toDigits_of_lt_base hn, Text.encode_cons_ascii (ascii_of_isDigit
        (isDigit_of_mem (by rw [Nat.toDigits_of_lt_base hn]; exact List.mem_cons_self)))] at h
      exact absurd (List.cons.inj h).2.symm hrest
    · have hsplit : digitBytes n = digitBytes (n / 10) ++ Text.encode [Nat.digitChar (n % 10)] := by
        rw [digitBytes, Nat.toDigits_of_base_le (by decide) (Nat.not_lt.mp hn), Text.encode_append]
        rfl
      cases hfront : digitBytes (n / 10) with
      | nil => exact absurd hfront (digitBytes_ne_nil _)
      | cons c front =>
        rw [hsplit, hfront, List.cons_append] at h
        obtain ⟨rfl, -⟩ := List.cons.inj h
        by_cases hsingle : front = []
        · -- a single zero in front would spell a tenth of zero
          rintro rfl
          have hvalue := decimalFrom_digitBytes (n / 10)
          rw [hfront, hsingle] at hvalue
          have hzero : n / 10 = 0 := hvalue.symm
          omega
        · exact ih (n / 10) (by omega) hfront hsingle

end TokenApproval.Decimal
