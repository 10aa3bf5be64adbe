import TokenApproval.Network
import TokenApproval.Proofs.Bech32.Texts
import TokenApproval.Proofs.Hex
import TokenApproval.Proofs.Outcome

/-!
# Accounts of a network

Every account of a network is read back from its text. A bech32 text also says which network it is
of, since it carries the network's prefix, and a network reads no text that carries another one.
-/

namespace TokenApproval

namespace AccountId

theorem ofBytes?_eq_some_iff {bytes : Bytes} {account : AccountId} :
    ofBytes? bytes = some account ↔ bytes = account.octets.bytes := by
  constructor
  · intro h
    obtain ⟨octets, hoctets, rfl⟩ := Option.map_eq_some_iff.mp h
    exact Octets.ofBytes?_eq_some.mp hoctets
  · intro h
    rw [ofBytes?, Octets.ofBytes?_eq_some.mpr h]
    rfl

end AccountId

namespace Network

open Bech32 (IsPart IsText IsCasing isCasing_toLower isCasing_toUpper)

variable {network other : Network} {text : String} {account : AccountId}

/-! ## Networks with a prefix -/

theorem withLead_eq_ok_iff {chainId lead : String} {style : AddressStyle} :
    withLead chainId lead style = .ok network ↔
      IsPart lead.toList ∧ network = ⟨chainId, ⟨lead.toList⟩, style⟩ := by
  unfold withLead
  constructor
  · intro h
    split at h
    · cases h
    · next part hpart =>
      obtain rfl := Except.ok.inj h
      obtain ⟨hlead, hchars⟩ := Bech32.HumanPart.ofChars?_eq_some_iff.mp hpart
      exact ⟨hlead, by rw [← hchars]⟩
  · rintro ⟨hlead, rfl⟩
    rw [hlead.ofChars?]

/-! ## Reading accounts -/

theorem parseAccount_eq_ok_iff :
    network.parseAccount text = .ok account ↔
      network.accountBytes text = .ok account.octets.bytes := by
  rw [parseAccount, Outcome.bind_eq_ok_iff]
  constructor
  · rintro ⟨bytes, hbytes, hread⟩
    split at hread
    · cases hread
    · next found hfound =>
      obtain rfl := Except.ok.inj hread
      rw [hbytes, AccountId.ofBytes?_eq_some_iff.mp hfound]
  · intro hbytes
    refine ⟨_, hbytes, ?_⟩
    rw [AccountId.ofBytes?_eq_some_iff.mpr rfl]

theorem accountBytes_of_hex (hstyle : network.style = .hex) :
    network.accountBytes text = (Hex.decode text).mapError .hex := by
  rw [accountBytes, hstyle]

theorem accountBytes_of_bech32 (hstyle : network.style = .bech32) {part : Bech32.HumanPart}
    {bytes : Bytes} (hdecode : Bech32.decode text = .ok (part, bytes)) :
    network.accountBytes text = if part.lower = network.lead.lower then .ok bytes
      else .error (.wrongPrefix text network.lead.text) := by
  rw [accountBytes, hstyle]
  simp only [hdecode]

/-- A bech32 network reads the bytes of a text that carries its prefix. -/
theorem accountBytes_eq_ok_iff (hstyle : network.style = .bech32) {bytes : Bytes} :
    network.accountBytes text = .ok bytes ↔
      ∃ part, Bech32.decode text = .ok (part, bytes) ∧ part.lower = network.lead.lower := by
  constructor
  · intro h
    cases hdecode : Bech32.decode text with
    | error cause =>
      rw [accountBytes, hstyle] at h
      simp only [hdecode] at h
      cases h
    | ok read =>
      obtain ⟨part, found⟩ := read
      rw [accountBytes_of_bech32 hstyle hdecode] at h
      split at h
      · next hlead => exact ⟨part, by rw [Except.ok.inj h], hlead⟩
      · cases h
  · rintro ⟨part, hdecode, hlead⟩
    rw [accountBytes_of_bech32 hstyle hdecode, if_pos hlead]

/-! ## Reading what is written -/

/-- The text of an account is not too long for its checksum. -/
theorem length_formatAccount_le (hlead : IsPart network.lead.chars) (account : AccountId) :
    network.lead.chars.length + 7 + (Bech32.symbolsOfBytes account.octets.bytes).length ≤
      Bech32.maxLength := by
  have hlength := hlead.length_le
  have hsymbols := Bech32.length_symbolsOfBytes_lt account.octets.bytes
  rw [account.octets.length_bytes] at hsymbols
  have hmax : Bech32.maxLength = 1023 := rfl
  omega

/-- Behind a prefix that is one, bech32 writes every account. -/
theorem formatAccount_of_bech32 (hstyle : network.style = .bech32)
    (hlead : IsPart network.lead.chars) (account : AccountId) :
    network.formatAccount account = Bech32.encode network.lead account.octets.bytes := by
  have hlength := Nat.not_lt.mpr (length_formatAccount_le hlead account)
  rw [formatAccount, hstyle]
  simp only [Bech32.encode?, if_neg hlength, Option.getD_some]

/-- A bech32 text of an account decodes to its bytes, in lower and in upper case. -/
theorem decode_map_formatAccount (hstyle : network.style = .bech32)
    (hlead : IsPart network.lead.chars) {f : Char → Char} (hf : IsCasing f) (account : AccountId) :
    Bech32.decode ((network.formatAccount account).map f) =
      .ok (⟨network.lead.lower.map f⟩, account.octets.bytes) := by
  rw [formatAccount_of_bech32 hstyle hlead]
  exact Bech32.decode_map_encode hf hlead (length_formatAccount_le hlead account)

theorem map_toLower_formatAccount (hstyle : network.style = .bech32)
    (hlead : IsPart network.lead.chars) (account : AccountId) :
    (network.formatAccount account).map Char.toLower = network.formatAccount account := by
  rw [formatAccount_of_bech32 hstyle hlead]
  exact Bech32.map_toLower_encode hlead

theorem parseAccount_map_formatAccount (hstyle : network.style = .bech32)
    (hlead : IsPart network.lead.chars) {f : Char → Char} (hf : IsCasing f) (account : AccountId) :
    network.parseAccount ((network.formatAccount account).map f) = .ok account := by
  rw [parseAccount_eq_ok_iff, accountBytes_eq_ok_iff hstyle]
  exact ⟨_, decode_map_formatAccount hstyle hlead hf account,
    (Bech32.HumanPart.lower_map hf hlead.lower).trans (Bech32.HumanPart.lower_lower hlead)⟩

theorem parseAccount_formatAccount_of_hex (hstyle : network.style = .hex) (account : AccountId) :
    network.parseAccount (network.formatAccount account) = .ok account := by
  have htext : network.formatAccount account = Hex.prefixed account.octets.bytes := by
    rw [formatAccount, hstyle]
    rfl
  rw [parseAccount_eq_ok_iff, accountBytes_of_hex hstyle, htext, Hex.decode_prefixed]
  rfl

/-- Every account is read back from its text. -/
theorem parseAccount_formatAccount (hlead : IsPart network.lead.chars) (account : AccountId) :
    network.parseAccount (network.formatAccount account) = .ok account := by
  cases hstyle : network.style with
  | hex => exact parseAccount_formatAccount_of_hex hstyle account
  | bech32 =>
    have hlower := parseAccount_map_formatAccount hstyle hlead isCasing_toLower account
    rwa [map_toLower_formatAccount hstyle hlead] at hlower

/-- No account is read from a text with another prefix. -/
theorem parseAccount_of_lower_ne (hstyle : network.style = .bech32) (hother : other.style = .bech32)
    (hlead : IsPart other.lead.chars) (hne : network.lead.lower ≠ other.lead.lower)
    (account : AccountId) :
    network.parseAccount (other.formatAccount account) =
      .error (.wrongPrefix (other.formatAccount account) network.lead.text) := by
  have hdecode := decode_map_formatAccount hother hlead isCasing_toLower account
  rw [map_toLower_formatAccount hother hlead] at hdecode
  have hlower := (Bech32.HumanPart.lower_map isCasing_toLower hlead.lower).trans
    (Bech32.HumanPart.lower_lower hlead)
  rw [parseAccount, accountBytes_of_bech32 hstyle hdecode, hlower, if_neg hne.symm]
  rfl

/-! ## Texts that are read -/

/-- A bech32 text that carries a prefix in any case, and the bytes of an account behind it. -/
structure Carries (lead text : String) (account : AccountId) : Prop where
  oneCase : Bech32.isMixedCase text.toList = false
  spelled : ∃ head tail data check, text.toList = head ++ '1' :: tail ∧ '1' ∉ tail
    ∧ (String.ofList head).toLower = lead.toLower
    ∧ tail.map Bech32.symbol? = (data ++ check).map some ∧ check.length = 6
    ∧ Bech32.hasChecksum ⟨head⟩ (data ++ check) = true
    ∧ Bech32.bytesOfSymbols data = account.octets.bytes
    ∧ (Bech32.bytesOfSymbols data).length = 20

theorem toList_toLower (text : String) : text.toLower.toList = text.toList.map Char.toLower :=
  String.toList_map

theorem lower_eq_iff {head lead : List Char} :
    (Bech32.HumanPart.mk head).lower = (Bech32.HumanPart.mk lead).lower ↔
      (String.ofList head).toLower = (String.ofList lead).toLower := by
  rw [← String.toList_inj, toList_toLower, toList_toLower, String.toList_ofList,
    String.toList_ofList]
  rfl

theorem carries_of_parseAccount (hstyle : network.style = .bech32)
    (h : network.parseAccount text = .ok account) : Carries network.lead.text text account := by
  obtain ⟨part, hdecode, hlead⟩ :=
    (accountBytes_eq_ok_iff hstyle).mp (parseAccount_eq_ok_iff.mp h)
  obtain ⟨symbols, htext, hbytes⟩ := Bech32.decode_eq_ok_iff.mp hdecode
  obtain ⟨tail, htail, hsymbols⟩ := htext.toList_eq
  have hcheck : (symbols.drop (symbols.length - 6)).length = 6 := by
    rw [List.length_drop]
    have := htext.six_le
    omega
  refine ⟨htext.oneCase, part.chars, tail, symbols.take (symbols.length - 6),
    symbols.drop (symbols.length - 6), htail, Bech32.separator_not_mem hsymbols,
    lower_eq_iff.mp hlead, ?_, hcheck, ?_, hbytes, ?_⟩
  · rw [List.take_append_drop, hsymbols]
  · rw [List.take_append_drop]
    exact htext.checksum
  · rw [hbytes, account.octets.length_bytes]

/-! ## Round trips -/

/-- Every account is read back from its text, which no network with another prefix reads. -/
theorem account_texts_round_trip {chainId lead : String} {style : AddressStyle}
    (h : withLead chainId lead style = .ok network) :
    (∀ account, network.parseAccount (network.formatAccount account) = .ok account)
    ∧ Function.Injective network.formatAccount
    ∧ (style = .bech32 →
      (∀ account, network.parseAccount (network.formatAccount account).toUpper = .ok account)
      ∧ (∀ otherId otherLead other, withLead otherId otherLead .bech32 = .ok other →
        otherLead.toLower ≠ lead.toLower → ∀ account,
          network.parseAccount (other.formatAccount account) =
            .error (.wrongPrefix (other.formatAccount account) lead))
      ∧ ∀ text account, network.parseAccount text = .ok account → Carries lead text account) := by
  obtain ⟨hlead, rfl⟩ := withLead_eq_ok_iff.mp h
  have hback : ∀ account, parseAccount ⟨chainId, ⟨lead.toList⟩, style⟩
      (formatAccount ⟨chainId, ⟨lead.toList⟩, style⟩ account) = .ok account :=
    parseAccount_formatAccount hlead
  have htext : (Bech32.HumanPart.mk lead.toList).text = lead := String.ofList_toList
  refine ⟨hback, fun a b hab => ?_, ?_⟩
  · have ha := hback a
    rw [hab, hback b] at ha
    exact (Except.ok.inj ha).symm
  · rintro rfl
    refine ⟨?_, ?_, ?_⟩
    · intro account
      exact parseAccount_map_formatAccount rfl hlead isCasing_toUpper account
    · intro otherId otherLead other hother hne account
      obtain ⟨hotherLead, rfl⟩ := withLead_eq_ok_iff.mp hother
      have hlower : (Bech32.HumanPart.mk lead.toList).lower ≠
          (Bech32.HumanPart.mk otherLead.toList).lower := by
        rw [Ne, lower_eq_iff, String.ofList_toList, String.ofList_toList]
        exact hne.symm
      rw [parseAccount_of_lower_ne rfl rfl hotherLead hlower, htext]
    · intro text account hread
      have hcarries := carries_of_parseAccount rfl hread
      rwa [htext] at hcarries

/-- A prefix may be of capitals and have a separator, and each clause has an instance. -/
theorem account_texts_round_trip_sample :
    ∃ network other : Network, ∃ account : AccountId, ∃ text : String,
      withLead "Binance-Chain-Ganges" "T1BNB" .bech32 = .ok network
      ∧ withLead mainChainId "bnb" .bech32 = .ok other
      ∧ "bnb".toLower ≠ "T1BNB".toLower
      ∧ network.formatAccount account = text
      ∧ text = "t1bnb1vu8vu6jxqtwy5cc3kc6wj2fljsm5k0qq2u84dk"
      ∧ network.parseAccount text = .ok account
      ∧ network.parseAccount text.toUpper = .ok account
      ∧ network.parseAccount (other.formatAccount account) =
          .error (.wrongPrefix (other.formatAccount account) "T1BNB")
      ∧ Carries "T1BNB" text account := by
  have h : withLead "Binance-Chain-Ganges" "T1BNB" .bech32 =
    .ok ⟨"Binance-Chain-Ganges", ⟨"T1BNB".toList⟩, .bech32⟩ := by decide
  have hother : withLead mainChainId "bnb" .bech32 =
    .ok ⟨mainChainId, ⟨"bnb".toList⟩, .bech32⟩ := by decide
  have hne : "bnb".toLower ≠ "T1BNB".toLower := by
    rw [Ne, ← String.toList_inj, toList_toLower, toList_toLower]
    decide
  have hclauses := account_texts_round_trip h
  let account : AccountId := ⟨Octets.ofNat 20 0x670ece6a4602dc4a6311b634e9293f94374b3c00⟩
  refine ⟨_, _, account, _, h, hother, hne, rfl, by decide +kernel, hclauses.1 account,
    (hclauses.2.2 rfl).1 account, (hclauses.2.2 rfl).2.1 _ _ _ hother hne account,
    (hclauses.2.2 rfl).2.2 _ account (hclauses.1 account)⟩

end Network

end TokenApproval
