import TokenApproval.Proofs.Json.Grammar
import TokenApproval.Proofs.Outcome

/-!
# The parser reads the grammar

The parser takes exactly the texts of the grammar, so a whole text is read as a type if and only if
it is the text of a value that is (`decode_eq_ok_iff`).

One lemma for each of the parser's functions says what its next step can be. The texts of the
grammar follow from these steps, and the steps from the texts, by induction on the fuel; twice the
length of a text is enough of it.
-/

namespace TokenApproval.Json

open Data (Value Reader)

variable {fuel : Nat} {bytes inner rest : Bytes} {value : Value} {items : List Value}
  {members : List (Option String × Value)}

/-! ## Blanks -/

theorem skipBlank_cons {b : UInt8} (h : isBlank b = false) (rest : Bytes) :
    skipBlank (b :: rest) = b :: rest := by
  rw [skipBlank, List.dropWhile_cons, h]
  rfl

theorem skipBlank_blanks {front : Bytes} (h : Blanks front) (rest : Bytes) :
    skipBlank (front ++ rest) = skipBlank rest := List.dropWhile_append_of_pos h

theorem exists_blanks (bytes : Bytes) : ∃ front, Blanks front ∧ bytes = front ++ skipBlank bytes :=
  ⟨bytes.takeWhile isBlank, List.all_eq_true.mp List.all_takeWhile,
    List.takeWhile_append_dropWhile.symm⟩

theorem skipBlank_skipBlank (bytes : Bytes) : skipBlank (skipBlank bytes) = skipBlank bytes := by
  obtain ⟨front, hfront, hbytes⟩ := exists_blanks bytes
  rw [← skipBlank_blanks hfront (skipBlank bytes), ← hbytes]

/-- The byte behind blanks is not one. -/
theorem skipBlank_eq_cons {mark : UInt8} {front : Bytes} (hfront : Blanks front)
    (hmark : isBlank mark = false) (rest : Bytes) :
    skipBlank (front ++ mark :: rest) = mark :: rest := by
  rw [skipBlank_blanks hfront, skipBlank_cons hmark]

theorem parseValue_skipBlank (fuel : Nat) (bytes : Bytes) :
    parseValue fuel (skipBlank bytes) = parseValue fuel bytes := by
  cases fuel with
  | zero => simp only [parseValue]
  | succ fuel => rw [parseValue, parseValue, skipBlank_skipBlank]

theorem parseItems_skipBlank (fuel : Nat) (bytes : Bytes) :
    parseItems fuel (skipBlank bytes) = parseItems fuel bytes := by
  cases fuel with
  | zero => simp only [parseItems]
  | succ fuel => rw [parseItems, parseItems, parseValue_skipBlank]

/-! ## What a step can be -/

/-- No value starts with a closing bracket. -/
theorem ne_closing_of_parseItems (h : parseItems fuel bytes = (items, some rest)) (tail : Bytes) :
    skipBlank bytes ≠ 93 :: tail := by
  intro hclosing
  have hbroken (fuel : Nat) : parseValue fuel bytes = (.broken, none) := by
    rw [← parseValue_skipBlank, hclosing]
    cases fuel <;> rfl
  cases fuel with
  | zero => cases h
  | succ fuel =>
    rw [parseItems, hbroken] at h
    cases h

theorem parseItems_eq_some_iff :
    parseItems (fuel + 1) bytes = (items, some rest) ↔
      ∃ item behind, parseValue fuel bytes = (item, some behind)
        ∧ (skipBlank behind = 93 :: rest ∧ items = [item]
          ∨ ∃ others more, skipBlank behind = 44 :: others
            ∧ parseItems fuel others = (more, some rest) ∧ items = item :: more) := by
  rw [parseItems]
  constructor
  · intro h
    split at h
    · cases h
    · next item behind hitem =>
      refine ⟨item, behind, hitem, ?_⟩
      split at h
      · next tail hlast =>
        obtain ⟨rfl, htail⟩ := Prod.mk.inj h
        exact .inl ⟨Option.some.inj htail ▸ hlast, rfl⟩
      · next others hcomma =>
        split at h
        · cases h
        · obtain ⟨rfl, hrest⟩ := Prod.mk.inj h
          rw [parseItems_skipBlank] at hrest ⊢
          exact .inr ⟨others, _, hcomma, Prod.ext rfl hrest, rfl⟩
      · cases h
  · rintro ⟨item, behind, hitem, ⟨hlast, rfl⟩ | ⟨others, more, hcomma, hmore, rfl⟩⟩
    · simp only [hitem, hlast]
    · have hopen := ne_closing_of_parseItems hmore
      rw [← parseItems_skipBlank] at hmore
      simp only [hitem, hcomma, hmore]

theorem parseMembers_eq_some_iff :
    parseMembers (fuel + 1) bytes = (members, some rest) ↔
      ∃ pieces colon text item behind, scan bytes = some (pieces, colon)
        ∧ skipBlank colon = 58 :: text ∧ parseValue fuel text = (item, some behind)
        ∧ (skipBlank behind = 125 :: rest ∧ members = [(text? pieces, item)]
          ∨ ∃ others next more, skipBlank behind = 44 :: others ∧ skipBlank others = 34 :: next
            ∧ parseMembers fuel next = (more, some rest)
            ∧ members = (text? pieces, item) :: more) := by
  rw [parseMembers]
  constructor
  · intro h
    split at h
    · cases h
    · next pieces colon hscan =>
      split at h
      · next text hcolon =>
        split at h
        · cases h
        · next item behind hitem =>
          refine ⟨pieces, colon, text, item, behind, hscan, hcolon, hitem, ?_⟩
          split at h
          · next tail hlast =>
            obtain ⟨rfl, htail⟩ := Prod.mk.inj h
            exact .inl ⟨Option.some.inj htail ▸ hlast, rfl⟩
          · next others hcomma =>
            split at h
            · next next hquote =>
              obtain ⟨rfl, hrest⟩ := Prod.mk.inj h
              exact .inr ⟨others, next, _, hcomma, hquote, Prod.ext rfl hrest, rfl⟩
            · cases h
          · cases h
      · cases h
  · rintro ⟨pieces, colon, text, item, behind, hscan, hcolon, hitem, ⟨hlast, rfl⟩ | hmore⟩
    · simp only [hscan, hcolon, hitem, hlast]
    · obtain ⟨others, next, more, hcomma, hquote, hmore, rfl⟩ := hmore
      simp only [hscan, hcolon, hitem, hcomma, hquote, hmore]

theorem parseValue_array_iff :
    parseValue (fuel + 1) (91 :: inner) = (value, some rest) ↔
      skipBlank inner = 93 :: rest ∧ value = .array [] true
      ∨ ∃ items, parseItems fuel inner = (items, some rest) ∧ value = .array items true := by
  rw [parseValue, skipBlank_cons (by decide)]
  simp +decide only [if_false, if_true]
  constructor
  · intro h
    split at h
    · next tail hclosing =>
      obtain ⟨rfl, htail⟩ := Prod.mk.inj h
      exact .inl ⟨Option.some.inj htail ▸ hclosing, rfl⟩
    · obtain ⟨rfl, hrest⟩ := Prod.mk.inj h
      rw [hrest]
      rw [parseItems_skipBlank] at hrest ⊢
      exact .inr ⟨_, Prod.ext rfl hrest, rfl⟩
  · rintro (⟨hclosing, rfl⟩ | ⟨items, hitems, rfl⟩)
    · simp only [hclosing]
    · have hopen := ne_closing_of_parseItems hitems
      rw [← parseItems_skipBlank] at hitems
      split
      · next tail hclosing => exact absurd hclosing (hopen tail)
      · rw [hitems]
        rfl

theorem parseValue_object_iff :
    parseValue (fuel + 1) (123 :: inner) = (value, some rest) ↔
      skipBlank inner = 125 :: rest ∧ value = .object [] true
      ∨ ∃ next members, skipBlank inner = 34 :: next
        ∧ parseMembers fuel next = (members, some rest) ∧ value = .object members true := by
  rw [parseValue, skipBlank_cons (by decide)]
  simp +decide only [if_false, if_true]
  constructor
  · intro h
    split at h
    · next tail hclosing =>
      obtain ⟨rfl, htail⟩ := Prod.mk.inj h
      exact .inl ⟨Option.some.inj htail ▸ hclosing, rfl⟩
    · next next hquote =>
      obtain ⟨rfl, hrest⟩ := Prod.mk.inj h
      rw [hrest]
      exact .inr ⟨next, _, hquote, Prod.ext rfl hrest, rfl⟩
    · cases h
  · rintro (⟨hclosing, rfl⟩ | ⟨next, members, hquote, hmembers, rfl⟩)
    · simp only [hclosing]
    · simp only [hquote, hmembers]
      rfl

theorem parseValue_number {b : UInt8} (hb : StartsNumber b) (fuel : Nat) (rest : Bytes) :
    parseValue (fuel + 1) (b :: rest) = parseNumber (b :: rest) := by
  obtain ⟨hlow, hhigh⟩ := hb.range
  have hne : ∀ mark : UInt8, 58 ≤ mark.toNat ∨ mark.toNat < 45 → b ≠ mark := by
    rintro mark hmark rfl
    omega
  rw [parseValue, skipBlank_cons hb.isBlank]
  simp only [hne 110 (by decide), hne 116 (by decide), hne 102 (by decide), hne 34 (by decide),
    hne 91 (by decide), hne 123 (by decide), if_false]
  exact if_pos hb

theorem parseWord_eq_some_iff {word : String} {found : Value} :
    parseWord bytes word found = (value, some rest) ↔
      bytes = Text.bytes word ++ rest ∧ value = found := by
  rw [parseWord]
  constructor
  · intro h
    split at h
    · next hletters =>
      obtain ⟨rfl, hrest⟩ := Prod.mk.inj h
      have hsplit := List.take_append_drop (Text.bytes word).length bytes
      rw [hletters, Option.some.inj hrest] at hsplit
      exact ⟨hsplit.symm, rfl⟩
    · cases h
  · rintro ⟨rfl, rfl⟩
    simp

theorem parseString_of_scan {pieces : List Piece} (h : scan bytes = some (pieces, rest)) :
    parseString bytes = (stringValue pieces, some rest) := by
  simp only [parseString, h]
  cases htext : text? pieces <;> simp [stringValue, htext]

theorem parseString_eq_some_iff :
    parseString bytes = (value, some rest) ↔
      ∃ pieces, scan bytes = some (pieces, rest) ∧ value = stringValue pieces := by
  constructor
  · intro h
    cases hscan : scan bytes with
    | none => simp [parseString, hscan] at h
    | some scanned =>
      rw [parseString_of_scan hscan] at h
      obtain ⟨rfl, hrest⟩ := Prod.mk.inj h
      exact ⟨scanned.1, congrArg some (Prod.ext rfl (Option.some.inj hrest)), rfl⟩
  · rintro ⟨pieces, hscan, rfl⟩
    exact parseString_of_scan hscan

theorem parseNumber_of_scan {literal : Literal} (h : scanLiteral bytes = some (literal, rest)) :
    parseNumber bytes = (numberValue literal, some rest) := by
  simp only [parseNumber, h]
  cases hnumber : literal.number? <;> simp [numberValue, hnumber]

theorem parseNumber_eq_some_iff :
    parseNumber bytes = (value, some rest) ↔
      ∃ literal, scanLiteral bytes = some (literal, rest) ∧ value = numberValue literal := by
  constructor
  · intro h
    cases hscan : scanLiteral bytes with
    | none => simp [parseNumber, hscan] at h
    | some scanned =>
      rw [parseNumber_of_scan hscan] at h
      obtain ⟨rfl, hrest⟩ := Prod.mk.inj h
      exact ⟨scanned.1, congrArg some (Prod.ext rfl (Option.some.inj hrest)), rfl⟩
  · rintro ⟨literal, hscan, rfl⟩
    exact parseNumber_of_scan hscan

/-! ## What is parsed is a text of the grammar -/

/-- What the parser has come through up to a text `rest` when it gives these results. -/
structure Sound (fuel : Nat) : Prop where
  value : ∀ {bytes value rest}, parseValue fuel bytes = (value, some rest) →
    ∃ front text, bytes = front ++ (text ++ rest) ∧ Blanks front ∧ ValueText text value
  items : ∀ {bytes items rest}, parseItems fuel bytes = (items, some rest) →
    ∃ text, bytes = text ++ 93 :: rest ∧ ItemsText text items
  members : ∀ {bytes members rest}, parseMembers fuel bytes = (members, some rest) →
    ∃ text, bytes = text ++ 125 :: rest
      ∧ ∀ front, Blanks front → MembersText (front ++ 34 :: text) members

/-- A parsed value and the blanks up to the mark behind it. -/
theorem Sound.element (h : Sound fuel) {behind : Bytes} {mark : UInt8}
    (hvalue : parseValue fuel bytes = (value, some behind))
    (hmark : skipBlank behind = mark :: rest) :
    ∃ text, bytes = text ++ mark :: rest ∧ ElementText text value := by
  obtain ⟨front, text, rfl, hfront, htext⟩ := h.value hvalue
  obtain ⟨back, hback, hbehind⟩ := exists_blanks behind
  rw [hmark] at hbehind
  refine ⟨front ++ (text ++ back), ?_, .mk hfront htext hback⟩
  simp [hbehind]

theorem sound_items (h : Sound fuel) (hitems : parseItems (fuel + 1) bytes = (items, some rest)) :
    ∃ text, bytes = text ++ 93 :: rest ∧ ItemsText text items := by
  obtain ⟨item, behind, hitem, ⟨hlast, rfl⟩ | ⟨others, more, hcomma, hmore, rfl⟩⟩ :=
    parseItems_eq_some_iff.mp hitems
  · obtain ⟨text, rfl, htext⟩ := h.element hitem hlast
    exact ⟨text, rfl, .last htext⟩
  · obtain ⟨text, rfl, htext⟩ := h.element hitem hcomma
    obtain ⟨inner, rfl, hinner⟩ := h.items hmore
    exact ⟨text ++ 44 :: inner, by simp, .more htext hinner⟩

theorem sound_members (h : Sound fuel)
    (hmembers : parseMembers (fuel + 1) bytes = (members, some rest)) :
    ∃ text, bytes = text ++ 125 :: rest
      ∧ ∀ front, Blanks front → MembersText (front ++ 34 :: text) members := by
  obtain ⟨pieces, colon, text, item, behind, hscan, hcolon, hitem, hend⟩ :=
    parseMembers_eq_some_iff.mp hmembers
  obtain ⟨body, rfl, hbody⟩ := scan_eq_some_iff.mp hscan
  obtain ⟨between, hbetween, hsplit⟩ := exists_blanks colon
  rw [hcolon] at hsplit
  subst hsplit
  rcases hend with ⟨hlast, rfl⟩ | ⟨others, next, more, hcomma, hquote, hmore, rfl⟩
  · obtain ⟨element, rfl, helement⟩ := h.element hitem hlast
    refine ⟨body ++ 34 :: (between ++ 58 :: element), by simp, fun front hfront => ?_⟩
    exact .last (.mk hfront hbody hbetween helement)
  · obtain ⟨element, rfl, helement⟩ := h.element hitem hcomma
    obtain ⟨inner, rfl, hinner⟩ := h.members hmore
    obtain ⟨gap, hgap, hothers⟩ := exists_blanks others
    rw [hquote] at hothers
    subst hothers
    refine ⟨body ++ 34 :: (between ++ 58 :: (element ++ 44 :: (gap ++ 34 :: inner))), by simp,
      fun front hfront => ?_⟩
    have hmember := MemberText.mk hfront hbody hbetween helement
    simpa using MembersText.more hmember (hinner gap hgap)

theorem sound_array (h : Sound fuel)
    (hvalue : parseValue (fuel + 1) (91 :: inner) = (value, some rest)) :
    ∃ text, 91 :: inner = text ++ rest ∧ ValueText text value := by
  rcases parseValue_array_iff.mp hvalue with ⟨hclosing, rfl⟩ | ⟨items, hitems, rfl⟩
  · obtain ⟨blanks, hblanks, hsplit⟩ := exists_blanks inner
    rw [hclosing] at hsplit
    exact ⟨91 :: (blanks ++ [93]), by simp [hsplit], .emptyArray hblanks⟩
  · obtain ⟨text, rfl, htext⟩ := h.items hitems
    exact ⟨91 :: (text ++ [93]), by simp, .array htext⟩

theorem sound_object (h : Sound fuel)
    (hvalue : parseValue (fuel + 1) (123 :: inner) = (value, some rest)) :
    ∃ text, 123 :: inner = text ++ rest ∧ ValueText text value := by
  obtain ⟨blanks, hblanks, hsplit⟩ := exists_blanks inner
  rcases parseValue_object_iff.mp hvalue with
    ⟨hclosing, rfl⟩ | ⟨next, members, hquote, hmembers, rfl⟩
  · rw [hclosing] at hsplit
    exact ⟨123 :: (blanks ++ [125]), by simp [hsplit], .emptyObject hblanks⟩
  · obtain ⟨text, rfl, htext⟩ := h.members hmembers
    rw [hquote] at hsplit
    exact ⟨123 :: (blanks ++ 34 :: text ++ [125]), by simp [hsplit], .object (htext blanks hblanks)⟩

theorem sound_value (h : Sound fuel) (hvalue : parseValue (fuel + 1) bytes = (value, some rest)) :
    ∃ front text, bytes = front ++ (text ++ rest) ∧ Blanks front ∧ ValueText text value := by
  obtain ⟨front, hfront, hbytes⟩ := exists_blanks bytes
  suffices htext : ∃ text, skipBlank bytes = text ++ rest ∧ ValueText text value by
    obtain ⟨text, hskip, htext⟩ := htext
    exact ⟨front, text, hskip ▸ hbytes, hfront, htext⟩
  rw [← parseValue_skipBlank] at hvalue
  have hidem := skipBlank_skipBlank bytes
  cases hskip : skipBlank bytes with
  | nil =>
    rw [parseValue, hidem, hskip] at hvalue
    cases hvalue
  | cons b tail =>
    by_cases harray : b = 91
    · subst harray
      exact sound_array h (hskip ▸ hvalue)
    by_cases hobject : b = 123
    · subst hobject
      exact sound_object h (hskip ▸ hvalue)
    rw [parseValue, hidem, hskip] at hvalue
    simp only [if_neg harray, if_neg hobject] at hvalue
    split at hvalue
    · next hb =>
      obtain ⟨rfl, rfl⟩ := parseWord_eq_some_iff.mp hvalue
      exact ⟨_, by rw [hb]; rfl, .null⟩
    split at hvalue
    · next hb =>
      obtain ⟨rfl, rfl⟩ := parseWord_eq_some_iff.mp hvalue
      exact ⟨_, by rw [hb]; rfl, .wordTrue⟩
    split at hvalue
    · next hb =>
      obtain ⟨rfl, rfl⟩ := parseWord_eq_some_iff.mp hvalue
      exact ⟨_, by rw [hb]; rfl, .wordFalse⟩
    split at hvalue
    · next hb =>
      obtain ⟨pieces, hscan, rfl⟩ := parseString_eq_some_iff.mp hvalue
      obtain ⟨body, rfl, hbody⟩ := scan_eq_some_iff.mp hscan
      exact ⟨34 :: (body ++ [34]), by simp [hb], .string hbody⟩
    split at hvalue
    · obtain ⟨literal, hscan, rfl⟩ := parseNumber_eq_some_iff.mp hvalue
      obtain ⟨text, htext, hnumber⟩ := exists_numberText hscan
      exact ⟨text, htext, .number hnumber⟩
    · cases hvalue

theorem sound (fuel : Nat) : Sound fuel := by
  induction fuel with
  | zero =>
    constructor
    case value => exact fun h => (by cases h)
    case items => exact fun h => (by cases h)
    case members => exact fun h => (by cases h)
  | succ fuel ih => exact ⟨sound_value ih, sound_items ih, sound_members ih⟩

/-! ## What is a text of the grammar is parsed -/

/-- Texts up to a length that the fuel is enough for are parsed into what they are texts of. -/
structure Complete (fuel : Nat) : Prop where
  value : ∀ {text value rest}, ValueText text value → EndsNumber rest →
    2 * text.length ≤ fuel + 1 → parseValue fuel (text ++ rest) = (value, some rest)
  items : ∀ {text items}, ItemsText text items → 2 * text.length ≤ fuel →
    ∀ rest, parseItems fuel (text ++ 93 :: rest) = (items, some rest)
  members : ∀ {text members}, MembersText text members → 2 * text.length ≤ fuel →
    ∃ front next, text = front ++ 34 :: next ∧ Blanks front
      ∧ ∀ rest, parseMembers fuel (next ++ 125 :: rest) = (members, some rest)

theorem endsNumber_mark {b : UInt8} (h : b = 44 ∨ b = 93 ∨ b = 125) (rest : Bytes) :
    EndsNumber (b :: rest) := by
  rcases h with rfl | rfl | rfl
  · exact ⟨by decide, by decide, by decide, by decide⟩
  · exact ⟨by decide, by decide, by decide, by decide⟩
  · exact ⟨by decide, by decide, by decide, by decide⟩

theorem endsNumber_blanks {back : Bytes} (hback : Blanks back) (h : EndsNumber rest) :
    EndsNumber (back ++ rest) := by
  cases back with
  | nil => exact h
  | cons b back =>
    have hb : isBlank b = true := hback b List.mem_cons_self
    simp only [isBlank, Bool.or_eq_true, decide_eq_true_eq] at hb
    rcases hb with ((rfl | rfl) | rfl) | rfl <;>
      exact ⟨by decide, by decide, by decide, by decide⟩

/-- A value with blanks around it is parsed up to the blanks in front of the mark behind it. -/
theorem Complete.element (h : Complete fuel) {text : Bytes} (htext : ElementText text value)
    (hfuel : 2 * text.length ≤ fuel + 1) {mark : UInt8} (hmark : mark = 44 ∨ mark = 93 ∨ mark = 125)
    (rest : Bytes) :
    ∃ behind, parseValue fuel (text ++ mark :: rest) = (value, some behind)
      ∧ skipBlank behind = mark :: rest := by
  obtain ⟨hfront, hvalue, hback⟩ := htext
  rename_i front text back
  have hends := endsNumber_blanks hback (endsNumber_mark hmark rest)
  refine ⟨back ++ mark :: rest, ?_, skipBlank_eq_cons hback ?_ rest⟩
  · rw [← parseValue_skipBlank, List.append_assoc, skipBlank_blanks hfront, parseValue_skipBlank,
      List.append_assoc]
    refine h.value hvalue hends ?_
    simp only [List.length_append] at hfuel
    omega
  · rcases hmark with rfl | rfl | rfl <;> decide

theorem complete_items (h : Complete fuel) {text : Bytes} (hitems : ItemsText text items)
    (hfuel : 2 * text.length ≤ fuel + 1) (rest : Bytes) :
    parseItems (fuel + 1) (text ++ 93 :: rest) = (items, some rest) := by
  rw [parseItems_eq_some_iff]
  cases hitems with
  | last hitem =>
    obtain ⟨behind, hvalue, hlast⟩ := h.element hitem hfuel (.inr (.inl rfl)) rest
    exact ⟨_, behind, hvalue, .inl ⟨hlast, rfl⟩⟩
  | more hitem hmore =>
    have hpos := hitem.length_pos
    simp only [List.length_append, List.length_cons] at hfuel
    rw [List.append_assoc, List.cons_append]
    obtain ⟨behind, hvalue, hcomma⟩ := h.element hitem (by omega) (.inl rfl) _
    exact ⟨_, behind, hvalue, .inr ⟨_, _, hcomma, h.items hmore (by omega) rest, rfl⟩⟩

theorem complete_members (h : Complete fuel) {text : Bytes} (hmembers : MembersText text members)
    (hfuel : 2 * text.length ≤ fuel + 1) :
    ∃ front next, text = front ++ 34 :: next ∧ Blanks front
      ∧ ∀ rest, parseMembers (fuel + 1) (next ++ 125 :: rest) = (members, some rest) := by
  cases hmembers with
  | last hmember =>
    obtain ⟨hfront, hkey, hbetween, hvalue⟩ := hmember
    rename_i front body between element pieces item
    simp only [List.length_append, List.length_cons] at hfuel
    refine ⟨front, body ++ 34 :: (between ++ 58 :: element), rfl, hfront, fun rest => ?_⟩
    have hbytes : body ++ 34 :: (between ++ 58 :: element) ++ 125 :: rest =
      body ++ 34 :: (between ++ 58 :: (element ++ 125 :: rest)) := by simp
    obtain ⟨behind, hparse, hlast⟩ := h.element hvalue (by omega) (.inr (.inr rfl)) rest
    rw [hbytes]
    exact parseMembers_eq_some_iff.mpr ⟨pieces, _, _, item, behind,
      scan_eq_some_iff.mpr ⟨body, rfl, hkey⟩, skipBlank_eq_cons hbetween (by decide) _, hparse,
      .inl ⟨hlast, rfl⟩⟩
  | more hmember hmore =>
    -- the parser skips the blanks behind the comma, which the grammar counts to the next member
    obtain ⟨hfront, hkey, hbetween, hvalue⟩ := hmember
    rename_i members others front body between element pieces item
    simp only [List.length_append, List.length_cons] at hfuel
    obtain ⟨gap, next, rfl, hgap, hnext⟩ := h.members hmore (by omega)
    refine ⟨front, body ++ 34 :: (between ++ 58 :: (element ++ 44 :: (gap ++ 34 :: next))),
      by simp, hfront, fun rest => ?_⟩
    have hbytes : body ++ 34 :: (between ++ 58 :: (element ++ 44 :: (gap ++ 34 :: next)))
        ++ 125 :: rest =
      body ++ 34 :: (between ++ 58 :: (element ++ 44 :: (gap ++ 34 :: (next ++ 125 :: rest)))) := by
        simp
    obtain ⟨behind, hparse, hcomma⟩ := h.element hvalue (by omega) (.inl rfl)
      (gap ++ 34 :: (next ++ 125 :: rest))
    rw [hbytes]
    exact parseMembers_eq_some_iff.mpr ⟨pieces, _, _, item, behind,
      scan_eq_some_iff.mpr ⟨body, rfl, hkey⟩, skipBlank_eq_cons hbetween (by decide) _, hparse,
      .inr ⟨_, _, _, hcomma, skipBlank_eq_cons hgap (by decide) _, hnext rest, rfl⟩⟩

theorem parseValue_string {body : Bytes} {pieces : List Piece} (hbody : StringBody body pieces)
    (fuel : Nat) (rest : Bytes) :
    parseValue (fuel + 1) (34 :: (body ++ 34 :: rest)) = (stringValue pieces, some rest) := by
  rw [parseValue, skipBlank_cons (by decide)]
  simp +decide only [if_false, if_true]
  exact parseString_eq_some_iff.mpr ⟨pieces, scan_eq_some_iff.mpr ⟨body, rfl, hbody⟩, rfl⟩

theorem complete_value (h : Complete fuel) {text : Bytes} (hvalue : ValueText text value)
    (hrest : EndsNumber rest) (hfuel : 2 * text.length ≤ fuel + 2) :
    parseValue (fuel + 1) (text ++ rest) = (value, some rest) := by
  cases hvalue with
  | null => rfl
  | wordTrue => rfl
  | wordFalse => rfl
  | string hbody => simpa using parseValue_string hbody fuel rest
  | number hnumber =>
    have hscan := hnumber.scan hrest
    obtain ⟨b, tail, rfl, hb⟩ := hnumber.exists_cons
    rw [List.cons_append, parseValue_number hb]
    exact parseNumber_eq_some_iff.mpr ⟨_, hscan, rfl⟩
  | emptyArray hblanks =>
    rw [List.cons_append, List.append_assoc, parseValue_array_iff]
    exact .inl ⟨skipBlank_eq_cons hblanks (by decide) rest, rfl⟩
  | array hitems =>
    simp only [List.length_append, List.length_cons, List.length_nil] at hfuel
    rw [List.cons_append, List.append_assoc, parseValue_array_iff]
    exact .inr ⟨_, h.items hitems (by omega) rest, rfl⟩
  | emptyObject hblanks =>
    rw [List.cons_append, List.append_assoc, parseValue_object_iff]
    exact .inl ⟨skipBlank_eq_cons hblanks (by decide) rest, rfl⟩
  | object hmembers =>
    simp only [List.length_append, List.length_cons, List.length_nil] at hfuel
    obtain ⟨front, next, rfl, hfront, hnext⟩ := h.members hmembers (by omega)
    have hbytes : 123 :: (front ++ 34 :: next ++ [125]) ++ rest =
      123 :: (front ++ 34 :: (next ++ 125 :: rest)) := by simp
    rw [hbytes, parseValue_object_iff]
    exact .inr ⟨_, _, skipBlank_eq_cons hfront (by decide) _, hnext rest, rfl⟩

theorem complete (fuel : Nat) : Complete fuel := by
  induction fuel with
  | zero =>
    constructor
    case value =>
      intro text value rest hvalue _ hfuel
      obtain ⟨b, tail, rfl, -⟩ := hvalue.exists_cons
      rw [List.length_cons] at hfuel
      omega
    case items =>
      intro text items hitems hfuel
      have hpos := hitems.length_pos
      omega
    case members =>
      intro text members hmembers hfuel
      have hpos := hmembers.length_pos
      omega
  | succ fuel ih =>
    exact ⟨complete_value ih, complete_items ih, complete_members ih⟩

/-! ## Whole texts -/

/-- A text is parsed into what it is a text of. -/
theorem parse_of_elementText (h : ElementText bytes value) :
    ∃ back, Blanks back ∧ parse bytes = (value, some back) := by
  obtain ⟨hfront, hvalue, hback⟩ := h
  rename_i front text back
  refine ⟨back, hback, ?_⟩
  have hends : EndsNumber back := by
    rw [← List.append_nil back]
    exact endsNumber_blanks hback True.intro
  rw [parse, ← parseValue_skipBlank, skipBlank_blanks hfront, parseValue_skipBlank]
  refine (complete _).value hvalue hends ?_
  simp only [List.length_append]
  omega

theorem elementText_of_parse (h : parse bytes = (value, some rest)) (hrest : skipBlank rest = []) :
    ElementText bytes value := by
  obtain ⟨front, text, rfl, hfront, htext⟩ := (sound _).value h
  obtain ⟨back, hback, hsplit⟩ := exists_blanks rest
  rw [hrest, List.append_nil] at hsplit
  subst hsplit
  exact .mk hfront htext hback

/-- A whole text is read as a type exactly if it is the text of a value that is. -/
theorem decode_eq_ok_iff {α : Type} {reader : Reader α} {a : α} :
    decode reader bytes = .ok a ↔
      ∃ value, ElementText bytes value ∧ reader .json value = .ok a := by
  constructor
  · intro h
    cases hparse : parse bytes with
    | mk value behind =>
      rw [decode, hparse, Outcome.bind_eq_ok_iff] at h
      obtain ⟨found, hread, hend⟩ := h
      split at hend
      · cases hend
      · next rest =>
        split at hend
        · next hblank =>
          obtain rfl := Except.ok.inj hend
          exact ⟨value, elementText_of_parse hparse (List.isEmpty_iff.mp hblank), hread⟩
        · cases hend
  · rintro ⟨value, htext, hread⟩
    obtain ⟨back, hback, hparse⟩ := parse_of_elementText htext
    have hempty : skipBlank back = [] := by
      rw [← List.append_nil back, skipBlank_blanks hback]
      rfl
    rw [decode, hparse]
    simp only [hread, hempty]
    rfl

end TokenApproval.Json
