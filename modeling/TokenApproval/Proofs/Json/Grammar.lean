import TokenApproval.Json
import TokenApproval.Proofs.Hex
import TokenApproval.Proofs.Json.Number

/-!
# The grammar of JSON, from its strings up

Which bytes are a string or a text of a value; the scanner of strings takes exactly these.
-/

/-! ## Strings in JSON

`StringBody` says which bytes may stand between the quotes of a string, and which pieces they are;
the scanner takes exactly these (`scan_eq_some_iff`). A string may hold any escape, so its pieces
need not denote a text.

Every escaped character spells the character (`Spells`), so every written text is read back. -/

namespace TokenApproval.Json

/-! ### The grammar -/

/-- The part of a string between its quotes, and the pieces that it consists of. -/
inductive StringBody : Bytes → List Piece → Prop
  | nil : StringBody [] []
  | plain {b : UInt8} {body : Bytes} {pieces : List Piece} (hquote : b ≠ 34) (hbackslash : b ≠ 92)
      (hcontrol : ¬ b < 32) (hbody : StringBody body pieces) :
      StringBody (b :: body) (.byte b :: pieces)
  | escaped {letter b : UInt8} {body : Bytes} {pieces : List Piece}
      (hletter : escaped? letter = some b) (hbody : StringBody body pieces) :
      StringBody (92 :: letter :: body) (.byte b :: pieces)
  | unit {a b c d : UInt8} {unit : Nat} {body : Bytes} {pieces : List Piece}
      (hunit : unitOf? a b c d = some unit) (hbody : StringBody body pieces) :
      StringBody (92 :: 117 :: a :: b :: c :: d :: body) (.unit unit :: pieces)

theorem StringBody.append {a b : Bytes} {p q : List Piece} (ha : StringBody a p)
    (hb : StringBody b q) : StringBody (a ++ b) (p ++ q) := by
  induction ha with
  | nil => exact hb
  | plain hquote hbackslash hcontrol _ ih => exact .plain hquote hbackslash hcontrol ih
  | escaped hletter _ ih => exact .escaped hletter ih
  | unit hunit _ ih => exact .unit hunit ih

/-! ### The scanner -/

theorem scanFrom_plain {b : UInt8} (hquote : b ≠ 34) (hbackslash : b ≠ 92) (hcontrol : ¬ b < 32)
    (before : List Piece) (rest : Bytes) :
    scanFrom before (b :: rest) = scanFrom (.byte b :: before) rest := by
  rw [scanFrom]
  · simp [hcontrol, hbackslash]
  · exact hquote
  · rintro _ _ _ _ _ rfl
    exact absurd rfl hbackslash
  · rintro _ _ rfl
    exact absurd rfl hbackslash

theorem scanFrom_escaped {letter b : UInt8} (h : escaped? letter = some b) (before : List Piece)
    (rest : Bytes) :
    scanFrom before (92 :: letter :: rest) = scanFrom (.byte b :: before) rest := by
  have hletter : letter ≠ 117 := by
    rintro rfl
    cases h
  rw [scanFrom]
  · rw [h]
  · rintro _ _ _ _ _ rfl
    exact absurd rfl hletter

theorem scanFrom_unit {a b c d : UInt8} {code : Nat} (h : unitOf? a b c d = some code)
    (before : List Piece) (rest : Bytes) :
    scanFrom before (92 :: 117 :: a :: b :: c :: d :: rest) =
      scanFrom (.unit code :: before) rest := by
  rw [scanFrom, h]

theorem scanFrom_body {body : Bytes} {pieces : List Piece} (h : StringBody body pieces)
    (before : List Piece) (rest : Bytes) :
    scanFrom before (body ++ 34 :: rest) = some (before.reverse ++ pieces, rest) := by
  induction h generalizing before with
  | nil => rw [List.nil_append, scanFrom, List.append_nil]
  | plain hquote hbackslash hcontrol _ ih =>
    rw [List.cons_append, scanFrom_plain hquote hbackslash hcontrol, ih, List.reverse_cons,
      List.append_assoc, List.singleton_append]
  | escaped hletter _ ih =>
    rw [List.cons_append, List.cons_append, scanFrom_escaped hletter, ih, List.reverse_cons,
      List.append_assoc, List.singleton_append]
  | unit hunit _ ih =>
    rw [List.cons_append, List.cons_append, List.cons_append, List.cons_append, List.cons_append,
      List.cons_append, scanFrom_unit hunit, ih, List.reverse_cons, List.append_assoc,
      List.singleton_append]

theorem exists_body {before pieces : List Piece} {bytes rest : Bytes}
    (h : scanFrom before bytes = some (pieces, rest)) :
    ∃ body own, bytes = body ++ 34 :: rest ∧ StringBody body own
      ∧ pieces = before.reverse ++ own := by
  fun_induction scanFrom before bytes with
  | case1 => cases h
  | case2 before tail =>
    obtain ⟨rfl, rfl⟩ := Prod.mk.inj (Option.some.inj h)
    exact ⟨[], [], rfl, .nil, (List.append_nil _).symm⟩
  | case3 => cases h
  | case4 before a b c d tail unit hunit ih =>
    obtain ⟨body, own, rfl, hbody, rfl⟩ := ih h
    exact ⟨_, _, rfl, .unit hunit hbody, by simp⟩
  | case5 => cases h
  | case6 before letter tail _ b hletter ih =>
    obtain ⟨body, own, rfl, hbody, rfl⟩ := ih h
    exact ⟨_, _, rfl, .escaped hletter hbody, by simp⟩
  | case7 => cases h
  | case8 before b tail hquote _ _ hplain ih =>
    obtain ⟨hcontrol, hbackslash⟩ := not_or.mp hplain
    obtain ⟨body, own, rfl, hbody, rfl⟩ := ih h
    exact ⟨_, _, rfl, .plain hquote hbackslash hcontrol hbody, by simp⟩

/-- The scanner takes exactly the bodies of strings. -/
theorem scan_eq_some_iff {bytes rest : Bytes} {pieces : List Piece} :
    scan bytes = some (pieces, rest) ↔
      ∃ body, bytes = body ++ 34 :: rest ∧ StringBody body pieces := by
  constructor
  · intro h
    obtain ⟨body, own, hbytes, hbody, rfl⟩ := exists_body h
    exact ⟨body, hbytes, hbody⟩
  · rintro ⟨body, rfl, hbody⟩
    exact scanFrom_body hbody [] rest

/-! ### Parts of strings -/

/-- `written` is a part of a string that stands for the bytes `spelled`. -/
def Spells (written spelled : Bytes) : Prop :=
  ∃ pieces, StringBody written pieces
    ∧ ∀ more, pieceBytes? (pieces ++ more) = (pieceBytes? more).map (spelled ++ ·)

namespace Spells

theorem nil : Spells [] [] := by
  refine ⟨[], .nil, fun more => ?_⟩
  simp

theorem append {a b x y : Bytes} (hax : Spells a x) (hby : Spells b y) :
    Spells (a ++ b) (x ++ y) := by
  obtain ⟨p, hp, hbytes⟩ := hax
  obtain ⟨q, hq, hbytes'⟩ := hby
  refine ⟨p ++ q, hp.append hq, fun more => ?_⟩
  rw [List.append_assoc, hbytes, hbytes', Option.map_map]
  congr 1
  funext z
  exact (List.append_assoc x y z).symm

theorem plain {b : UInt8} (hquote : b ≠ 34) (hbackslash : b ≠ 92) (hcontrol : ¬ b < 32) :
    Spells [b] [b] :=
  ⟨[.byte b], .plain hquote hbackslash hcontrol .nil, fun _ => rfl⟩

theorem plains {bytes : Bytes} (h : ∀ b ∈ bytes, b ≠ 34 ∧ b ≠ 92 ∧ ¬ b < 32) :
    Spells bytes bytes := by
  induction bytes with
  | nil => exact nil
  | cons b bytes ih =>
    obtain ⟨hquote, hbackslash, hcontrol⟩ := h b List.mem_cons_self
    exact (plain hquote hbackslash hcontrol).append (ih fun c hc => h c (List.mem_cons_of_mem b hc))

theorem escaped {letter b : UInt8} (h : escaped? letter = some b) : Spells [92, letter] [b] :=
  ⟨[.byte b], .escaped h .nil, fun _ => rfl⟩

/-- A unit below the surrogates. -/
theorem unit {a b c d : UInt8} {code : Nat} (h : unitOf? a b c d = some code)
    (hcode : code < 0xD800) :
    Spells [92, 117, a, b, c, d] (Text.bytes (String.singleton (Char.ofNat code))) := by
  refine ⟨[.unit code], .unit h .nil, fun more => ?_⟩
  show pieceBytes? (.unit code :: more) = _
  rw [pieceBytes?.eq_def]
  simp only [hcode, true_or, if_true]

end Spells

/-! ### Written texts -/

theorem unitOf?_control {code : Nat} (h : code < 32) :
    unitOf? 48 48 (Hex.digitByte (code / 16)) (Hex.digitByte (code % 16)) = some code := by
  have hall : ∀ n < 32,
      unitOf? 48 48 (Hex.digitByte (n / 16)) (Hex.digitByte (n % 16)) = some n := by decide
  exact hall code h

theorem bytes_singleton (c : Char) : Text.bytes (String.singleton c) = String.utf8EncodeChar c := by
  rw [Text.bytes_eq_encode, String.toList_singleton, Text.encode_cons, Text.encode_nil,
    List.append_nil]

/-- A character with a letter that stands for it behind a backslash. -/
theorem spells_letter {c letter : Char} {code : Nat} (hc : c.toNat = code)
    (h : code < 128 ∧ letter.toNat < 128
      ∧ escaped? (UInt8.ofNat letter.toNat) = some (UInt8.ofNat code)) :
    Spells (Text.encode ['\\', letter]) (String.utf8EncodeChar c) := by
  subst hc
  obtain ⟨hcode, hletter, hescaped⟩ := h
  rw [Text.encode_cons_ascii (by decide), Text.encode_cons_ascii hletter,
    Text.utf8EncodeChar_ascii hcode]
  exact Spells.escaped hescaped

/-- A control character, by its code. -/
theorem spells_control {c : Char} (h : c.toNat < 32) :
    Spells (Text.encode ['\\', 'u', '0', '0', Hex.digit (c.toNat / 16), Hex.digit (c.toNat % 16)])
      (String.utf8EncodeChar c) := by
  have hhigh : c.toNat / 16 < 16 := by omega
  have hlow : c.toNat % 16 < 16 := by omega
  have hunit := Spells.unit (unitOf?_control h) (by omega)
  rw [Char.ofNat_toNat, bytes_singleton] at hunit
  rw [Text.encode_cons_ascii (by decide), Text.encode_cons_ascii (by decide),
    Text.encode_cons_ascii (by decide), Text.encode_cons_ascii (by decide),
    Text.encode_cons_ascii (Hex.digit_ascii hhigh), Text.encode_cons_ascii (Hex.digit_ascii hlow)]
  exact hunit

/-- A character that is neither a control character nor a mark of the notation. -/
theorem spells_unescaped {c : Char} (hquote : c ≠ '"') (hbackslash : c ≠ '\\')
    (hcontrol : ¬ c.toNat < 32) : Spells (Text.encode [c]) (String.utf8EncodeChar c) := by
  rw [Text.encode_cons, Text.encode_nil, List.append_nil]
  apply Spells.plains
  intro b hb
  by_cases hascii : c.toNat < 128
  · rw [Text.utf8EncodeChar_ascii hascii, List.mem_singleton] at hb
    have hcode : b.toNat = c.toNat := by
      rw [hb, UInt8.toNat_ofNat']
      exact Nat.mod_eq_of_lt (by omega)
    refine ⟨?_, ?_, ?_⟩
    · rintro rfl
      exact hquote (Char.toNat_inj.mp hcode.symm)
    · rintro rfl
      exact hbackslash (Char.toNat_inj.mp hcode.symm)
    · rw [UInt8.lt_iff_toNat_lt, hcode]
      exact hcontrol
  · have hlarge := Text.le_of_mem_utf8EncodeChar (Nat.not_lt.mp hascii) hb
    refine ⟨?_, ?_, ?_⟩
    · rintro rfl
      exact absurd hlarge (by decide)
    · rintro rfl
      exact absurd hlarge (by decide)
    · rw [UInt8.lt_iff_toNat_lt, Nat.not_lt]
      exact Nat.le_trans (by decide) hlarge

/-- A character as it is written spells the character. -/
theorem spells_escape (c : Char) : Spells (Text.encode (escape c)) (String.utf8EncodeChar c) := by
  unfold escape
  split
  · next h => exact spells_letter (congrArg Char.toNat h) (by decide)
  · next hquote =>
    split
    · next h => exact spells_letter (congrArg Char.toNat h) (by decide)
    · next hbackslash =>
      repeat' split
      · next h => exact spells_letter h (by decide)
      · next h => exact spells_letter h (by decide)
      · next h => exact spells_letter h (by decide)
      · next h => exact spells_letter h (by decide)
      · next h => exact spells_letter h (by decide)
      · next h => exact spells_control h
      · next h => exact spells_unescaped hquote hbackslash h

theorem spells_text (chars : List Char) :
    Spells (Text.encode (chars.flatMap escape)) (Text.encode chars) := by
  induction chars with
  | nil => exact Spells.nil
  | cons c chars ih =>
    rw [List.flatMap_cons, Text.encode_append, Text.encode_cons]
    exact (spells_escape c).append ih

/-- A written text is the body of a string that denotes it. -/
theorem exists_stringBody (text : String) :
    ∃ pieces, StringBody (Text.encode (text.toList.flatMap escape)) pieces
      ∧ text? pieces = some text := by
  obtain ⟨pieces, hbody, hbytes⟩ := spells_text text.toList
  refine ⟨pieces, hbody, ?_⟩
  have hall := hbytes []
  rw [List.append_nil, pieceBytes?, Option.map_some, List.append_nil] at hall
  rw [text?, hall]
  exact Text.ofBytes?_encode text

/-! ## The grammar of JSON

Which bytes are a text of which value, with blanks wherever the grammar allows them. A string or a
number of correct form that denotes nothing is a text of a value all the same, which can only be
skipped. -/

open Data (Value)

/-- Bytes that may stand between the parts of a text. -/
def Blanks (bytes : Bytes) : Prop := ∀ b ∈ bytes, isBlank b = true

theorem Blanks.nil : Blanks [] := List.forall_mem_nil _

def stringValue (pieces : List Piece) : Value :=
  match text? pieces with
  | none => .unreadable
  | some text => .text text

def numberValue (literal : Literal) : Value :=
  match literal.number? with
  | none => .unreadable
  | some number => .number number

mutual

/-- A value, without blanks around it. -/
inductive ValueText : Bytes → Value → Prop
  | null : ValueText [110, 117, 108, 108] .null
  | wordTrue : ValueText [116, 114, 117, 101] (.boolean true)
  | wordFalse : ValueText [102, 97, 108, 115, 101] (.boolean false)
  | string {body : Bytes} {pieces : List Piece} (hbody : StringBody body pieces) :
      ValueText (34 :: (body ++ [34])) (stringValue pieces)
  | number {text : Bytes} {literal : Literal} (hnumber : NumberText text literal) :
      ValueText text (numberValue literal)
  | emptyArray {blanks : Bytes} (hblanks : Blanks blanks) :
      ValueText (91 :: (blanks ++ [93])) (.array [] true)
  | array {inner : Bytes} {items : List Value} (hitems : ItemsText inner items) :
      ValueText (91 :: (inner ++ [93])) (.array items true)
  | emptyObject {blanks : Bytes} (hblanks : Blanks blanks) :
      ValueText (123 :: (blanks ++ [125])) (.object [] true)
  | object {inner : Bytes} {members : List (Option String × Value)}
      (hmembers : MembersText inner members) :
      ValueText (123 :: (inner ++ [125])) (.object members true)

/-- A value with blanks around it, as it makes up a whole document. -/
inductive ElementText : Bytes → Value → Prop
  | mk {front text back : Bytes} {value : Value} (hfront : Blanks front)
      (hvalue : ValueText text value) (hback : Blanks back) :
      ElementText (front ++ (text ++ back)) value

/-- The items of a list, which are separated by commas. -/
inductive ItemsText : Bytes → List Value → Prop
  | last {text : Bytes} {item : Value} (hitem : ElementText text item) : ItemsText text [item]
  | more {text others : Bytes} {item : Value} {items : List Value} (hitem : ElementText text item)
      (hitems : ItemsText others items) : ItemsText (text ++ 44 :: others) (item :: items)

/-- A key and a value, which are separated by a colon. -/
inductive MemberText : Bytes → Option String × Value → Prop
  | mk {front body between text : Bytes} {pieces : List Piece} {value : Value}
      (hfront : Blanks front) (hkey : StringBody body pieces) (hbetween : Blanks between)
      (hvalue : ElementText text value) :
      MemberText (front ++ 34 :: (body ++ 34 :: (between ++ 58 :: text))) (text? pieces, value)

/-- The members of an object, which are separated by commas. -/
inductive MembersText : Bytes → List (Option String × Value) → Prop
  | last {text : Bytes} {member : Option String × Value} (hmember : MemberText text member) :
      MembersText text [member]
  | more {text others : Bytes} {member : Option String × Value}
      {members : List (Option String × Value)} (hmember : MemberText text member)
      (hmembers : MembersText others members) :
      MembersText (text ++ 44 :: others) (member :: members)

end

/-! ### First bytes -/

theorem StartsNumber.isBlank {b : UInt8} (h : StartsNumber b) : isBlank b = false := by
  obtain ⟨hlow, -⟩ := h.range
  simp only [Json.isBlank, Bool.or_eq_false_iff, decide_eq_false_iff_not]
  refine ⟨⟨⟨?_, ?_⟩, ?_⟩, ?_⟩
  all_goals
    rintro rfl
    exact absurd hlow (by decide)

theorem ValueText.exists_cons {text : Bytes} {value : Value} (h : ValueText text value) :
    ∃ b tail, text = b :: tail ∧ isBlank b = false := by
  cases h with
  | number hnumber =>
    obtain ⟨b, tail, rfl, hb⟩ := hnumber.exists_cons
    exact ⟨b, tail, rfl, hb.isBlank⟩
  | null => exact ⟨_, _, rfl, by decide⟩
  | wordTrue => exact ⟨_, _, rfl, by decide⟩
  | wordFalse => exact ⟨_, _, rfl, by decide⟩
  | string _ => exact ⟨_, _, rfl, by decide⟩
  | emptyArray _ => exact ⟨_, _, rfl, by decide⟩
  | array _ => exact ⟨_, _, rfl, by decide⟩
  | emptyObject _ => exact ⟨_, _, rfl, by decide⟩
  | object _ => exact ⟨_, _, rfl, by decide⟩

theorem ElementText.length_pos {text : Bytes} {value : Value} (h : ElementText text value) :
    0 < text.length := by
  obtain ⟨-, hvalue, -⟩ := h
  obtain ⟨b, tail, rfl, -⟩ := hvalue.exists_cons
  simp only [List.length_append, List.length_cons]
  omega

theorem ItemsText.length_pos {text : Bytes} {items : List Value} (h : ItemsText text items) :
    0 < text.length := by
  cases h with
  | last hitem => exact hitem.length_pos
  | more _ _ =>
    rw [List.length_append, List.length_cons]
    omega

theorem MembersText.length_pos {text : Bytes} {members : List (Option String × Value)}
    (h : MembersText text members) : 0 < text.length := by
  cases h with
  | last hmember =>
    obtain ⟨-, -, -, -⟩ := hmember
    rw [List.length_append, List.length_cons]
    omega
  | more _ _ =>
    rw [List.length_append, List.length_cons]
    omega

theorem ValueText.element {text : Bytes} {value : Value} (h : ValueText text value) :
    ElementText text value := by
  simpa using ElementText.mk .nil h .nil

/-- Whatever is a text of the grammar can be skipped. -/
theorem ValueText.isComplete {text : Bytes} {value : Value} (h : ValueText text value) :
    value.isComplete = true := by
  cases h with
  | string _ => unfold stringValue; split <;> rfl
  | number _ => unfold numberValue; split <;> rfl
  | _ => rfl

theorem ElementText.isComplete {text : Bytes} {value : Value} (h : ElementText text value) :
    value.isComplete = true := by
  obtain ⟨-, hvalue, -⟩ := h
  exact hvalue.isComplete

end TokenApproval.Json
