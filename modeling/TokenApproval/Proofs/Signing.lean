import TokenApproval.Proofs.Files
import TokenApproval.Proofs.Hex
import TokenApproval.Proofs.Identity
import TokenApproval.Proofs.Outcome
import TokenApproval.Proofs.Secp256k1.Signature
import TokenApproval.Proofs.Text
import TokenApproval.Signing

/-!
# Approval signatures and the key that makes them

An approval signature is written as 65 bytes, which recovery reads in full, and verification but for
the last one. Each reads the numbers that were written, so by the signature equation recovery finds
the signer's key, and the key verifies the signature.
-/

namespace TokenApproval

open Secp256k1 (PublicKey SecretKey Signature RecoverableSignature Recovers groupOrder)

variable {secret : SecretKey} {digest : Octets 32} {bytes : Bytes}

/-! ## Recovery -/

/-- The bytes are a signature and an identifier from 0 to 3. -/
def Recoverable (bytes : Bytes) : Prop :=
  bytes.length = approvalSignatureLength ∧ (bytes.getD 64 0).toNat ≤ 3
    ∧ Bytes.toNat (bytes.take 32) < groupOrder
    ∧ Bytes.toNat ((bytes.drop 32).take 32) < groupOrder

theorem fits_take_iff (hlength : bytes.length = approvalSignatureLength) :
    Signature.Fits (bytes.take 64) ↔ Bytes.toNat (bytes.take 32) < groupOrder
      ∧ Bytes.toNat ((bytes.drop 32).take 32) < groupOrder := by
  have hfront : (bytes.take 64).length = Signature.compactLength := by
    rw [List.length_take, hlength]
    rfl
  rw [Signature.Fits, List.take_take, List.drop_take]
  exact and_iff_right hfront

/-- Bytes that are no signature with an identifier are refused for their encoding, and only they. -/
theorem recoverPublicKey_invalidEncoding_iff :
    (∃ fault, recoverPublicKey digest bytes = .error (.invalidEncoding fault)) ↔
      ¬ Recoverable bytes := by
  unfold recoverPublicKey Recoverable
  by_cases hlength : bytes.length = approvalSignatureLength
  · rw [if_neg (not_not_intro hlength), ← fits_take_iff hlength]
    by_cases hrecovery : 3 < (bytes.getD 64 0).toNat
    · simp only [if_pos hrecovery]
      exact ⟨fun _ h => absurd h.2.1 (Nat.not_le.mpr hrecovery), fun _ => ⟨_, rfl⟩⟩
    · simp only [if_neg hrecovery]
      cases hparsed : Signature.ofBytes? (bytes.take 64) with
      | none =>
        have hunfit := Signature.ofBytes?_eq_none_iff.mp hparsed
        exact ⟨fun _ h => hunfit h.2.2, fun _ => ⟨_, rfl⟩⟩
      | some parsed =>
        have hfits : Signature.Fits (bytes.take 64) :=
          Signature.fits_iff_exists.mpr ⟨parsed, Signature.ofBytes?_eq_some_iff.mp hparsed⟩
        refine ⟨?_, fun h => absurd ⟨hlength, Nat.not_lt.mp hrecovery, hfits⟩ h⟩
        rintro ⟨fault, hfault⟩
        simp only at hfault
        split at hfault
        · cases hfault
        · cases hfault
  · rw [if_pos hlength]
    exact ⟨fun _ h => hlength h.1, fun _ => ⟨_, rfl⟩⟩

/-! ## Approval signatures -/

theorem bytes_approvalSignature (signed : RecoverableSignature) :
    (approvalSignature signed).bytes = Bytes.ofNat 32 signed.signature.r ++
      Bytes.ofNat 32 signed.signature.s ++ [UInt8.ofNat signed.recovery] := by
  show signed.signature.bytes ++ [UInt8.ofNat signed.recovery] = _
  rw [Signature.bytes]

theorem take_approvalSignature (signed : RecoverableSignature) :
    (approvalSignature signed).bytes.take 64 = signed.signature.bytes :=
  List.take_left' signed.signature.length_bytes

theorem getD_approvalSignature {signed : RecoverableSignature} (h : signed.recovery ≤ 3) :
    ((approvalSignature signed).bytes.getD 64 0).toNat = signed.recovery := by
  have hlength : signed.signature.bytes.length = 64 := signed.signature.length_bytes
  have hlast : (approvalSignature signed).bytes.getD 64 0 = UInt8.ofNat signed.recovery := by
    rw [approvalSignature, List.getD_eq_getElem?_getD, List.getElem?_append_right hlength.le,
      hlength]
    rfl
  rw [hlast, UInt8.toNat_ofNat', Nat.mod_eq_of_lt (by omega)]

/-- The signer's key is recovered from the bytes of an approval signature. -/
theorem recoverPublicKey_approvalSignature {signed : RecoverableSignature}
    (h : Recovers secret digest signed) :
    recoverPublicKey digest (approvalSignature signed).bytes = .ok (PublicKey.ofSecret secret) := by
  have hrecovery := h.recovery_le
  rw [recoverPublicKey, if_neg (not_not_intro (approvalSignature signed).length_bytes)]
  simp only [getD_approvalSignature hrecovery, if_neg (Nat.not_lt.mpr hrecovery),
    take_approvalSignature, Signature.ofBytes?_eq_some_iff.mpr rfl, h.recover?]

/-- The signer's key accepts what stands before the identifier. -/
theorem checkSignature_approvalSignature {signed : RecoverableSignature}
    (h : Recovers secret digest signed) (hlow : signed.signature.s ≤ groupOrder / 2) :
    checkSignature (PublicKey.ofSecret secret) ((approvalSignature signed).bytes.take 64) digest =
      .ok () := by
  rw [take_approvalSignature, checkSignature_ok_iff]
  rw [Secp256k1.half_groupOrder] at hlow
  obtain ⟨nonce, x, y, hsigned, -⟩ := h
  exact ⟨signed.signature, rfl, hlow, Secp256k1.verify_iff.mpr ⟨nonce, x, y, hsigned⟩⟩

/-! ## Signers -/

theorem Signer.ofHex_eq_ok_iff {text : String} {signer : Signer} :
    Signer.ofHex text = .ok signer ↔
      ∃ secret, parseSecretKey text = .ok secret ∧ Signer.ofSecret secret = signer :=
  Outcome.map_eq_ok_iff

/-- A signer by any way to sign issues what this yields. -/
theorem Signer.sign_mk (key : PublicKey) (yields : Octets 32 → Option RecoverableSignature)
    {signed : RecoverableSignature} (h : yields digest = some signed) :
    (Signer.mk key fun digest =>
      match yields digest with
      | none => .error (.signing "no nonce gives a signature")
      | some signature => .ok (approvalSignature signature)).sign digest =
        .ok (approvalSignature signed) := by
  simp only [h]

theorem Signer.sign_ofSecret {signed : RecoverableSignature}
    (h : RecoverableSignature.sign? secret digest = some signed) :
    (Signer.ofSecret secret).sign digest = .ok (approvalSignature signed) := by
  refine (congrFun (congrArg Signer.sign (Signer.ofSecret.eq_1 secret)) digest).trans ?_
  -- the way to sign is made a variable, or else its nonces are drawn to compare the two sides
  revert h
  generalize RecoverableSignature.sign? secret = yields
  exact Signer.sign_mk _ yields

/-- What a signer issues, recovery and the service's own check read alike; and recovery refuses for
its encoding whatever is not a signature with an identifier. That some nonce gives a signature is
not provable of the generator, so it is asked for the digest at hand. -/
theorem sign_recover_verify {text : String} {signer : Signer} (h : Signer.ofHex text = .ok signer) :
    (∃ secret, parseSecretKey text = .ok secret ∧ signer.publicKey = PublicKey.ofSecret secret
      ∧ ∀ digest, RecoverableSignature.sign? secret digest ≠ none →
        ∃ (approval : Octets approvalSignatureLength) (r s v : Nat),
          signer.sign digest = .ok approval
          ∧ approval.bytes = Bytes.ofNat 32 r ++ Bytes.ofNat 32 s ++ [UInt8.ofNat v]
          ∧ 0 < r ∧ r < groupOrder ∧ 0 < s ∧ s ≤ (groupOrder - 1) / 2 ∧ v ≤ 3
          ∧ recoverPublicKey digest approval.bytes = .ok signer.publicKey
          ∧ checkSignature signer.publicKey (approval.bytes.take 64) digest = .ok ())
    ∧ ∀ digest bytes, (∃ fault, recoverPublicKey digest bytes = .error (.invalidEncoding fault)) ↔
        bytes.length ≠ approvalSignatureLength ∨ 3 < (bytes.getD 64 0).toNat
          ∨ groupOrder ≤ Bytes.toNat (bytes.take 32)
          ∨ groupOrder ≤ Bytes.toNat ((bytes.drop 32).take 32) := by
  obtain ⟨secret, hsecret, rfl⟩ := Signer.ofHex_eq_ok_iff.mp h
  refine ⟨⟨secret, hsecret, rfl, fun digest hyields => ?_⟩, fun digest bytes => ?_⟩
  · obtain ⟨signed, hsign⟩ := Option.ne_none_iff_exists'.mp hyields
    obtain ⟨hrecovers, hlow⟩ := Secp256k1.recovers_of_sign? hsign
    have ⟨_, _, _, hsigned, _⟩ := hrecovers
    have hrecovered := recoverPublicKey_approvalSignature hrecovers
    have haccepted := checkSignature_approvalSignature hrecovers hlow
    rw [Secp256k1.half_groupOrder] at hlow
    exact ⟨approvalSignature signed, signed.signature.r, signed.signature.s, signed.recovery,
      Signer.sign_ofSecret hsign, bytes_approvalSignature signed, hsigned.r_pos,
      signed.signature.r_lt, hsigned.s_pos, hlow, hrecovers.recovery_le, hrecovered, haccepted⟩
  · rw [recoverPublicKey_invalidEncoding_iff, Recoverable, not_and_or, not_and_or, not_and_or,
      Nat.not_le, Nat.not_lt, Nat.not_lt]

/-- A secret key and a digest for which the first nonce gives a signature. -/
def sampleSecret : SecretKey :=
  ⟨0xafc2986f283cf5f9d17e04c6a12ccf8fa46149fc37d48e11abef15a46ae34eb7, by decide, by decide⟩

def sampleDigest : Octets 32 :=
  .ofNat 32 0x1f0ac62d7c11d7797f901f29c7458153419e59b6bf7c6e07ca45831936f821de

def sampleSignature : RecoverableSignature where
  signature.r := 0x3a15ae83088ae56619d9ae63f2c5a977f0e80208cc22ef3a7138930577894439
  signature.s := 0x52580275d4f043e84e8be778d2dea63364af56726b822681ca43b4d1ce08a862
  signature.r_lt := by decide
  signature.s_lt := by decide
  recovery := 0

theorem parseSecretKey_sampleSecret :
    parseSecretKey "0xafc2986f283cf5f9d17e04c6a12ccf8fa46149fc37d48e11abef15a46ae34eb7" =
      .ok sampleSecret := by
  decide +kernel

theorem sign?_sampleSecret :
    RecoverableSignature.sign? sampleSecret sampleDigest = some sampleSignature := by
  decide +kernel

/-- The key accepts the signature that it yields, and is recovered from it. -/
theorem sign_recover_verify_sample :
    ∃ text signer approval,
      Signer.ofHex text = .ok signer
      ∧ parseSecretKey text = .ok sampleSecret
      ∧ RecoverableSignature.sign? sampleSecret sampleDigest ≠ none
      ∧ signer.sign sampleDigest = .ok approval
      ∧ approval = approvalSignature sampleSignature
      ∧ recoverPublicKey sampleDigest approval.bytes = .ok signer.publicKey
      ∧ checkSignature signer.publicKey (approval.bytes.take 64) sampleDigest = .ok () := by
  have hsecret := parseSecretKey_sampleSecret
  have hyields : RecoverableSignature.sign? sampleSecret sampleDigest ≠ none := by
    rw [sign?_sampleSecret]
    exact Option.some_ne_none _
  have hsigner := Signer.ofHex_eq_ok_iff.mpr ⟨sampleSecret, hsecret, rfl⟩
  obtain ⟨secret, hparsed, -, hagree⟩ := (sign_recover_verify hsigner).1
  obtain rfl := Except.ok.inj (hsecret.symm.trans hparsed)
  obtain ⟨approval, r, s, v, hissued, -, -, -, -, -, -, hrecovered, haccepted⟩ :=
    hagree sampleDigest hyields
  have hbytes := Except.ok.inj (hissued.symm.trans (Signer.sign_ofSecret sign?_sampleSecret))
  exact ⟨_, Signer.ofSecret sampleSecret, approval, hsigner, hsecret, hyields, hissued, hbytes,
    hrecovered, haccepted⟩

end TokenApproval

/-! ## One key from every source

The text of the signing key is trimmed where it is found and again where it is parsed. Trimming
twice is trimming once, so a configuration loads what `Signer.ofHex` makes of the text at its place
(`SecretConfig.signer_eq_ofHex`), wherever that place is. What is loaded depends on the core of the
text, and of that on the bytes it spells. -/

namespace TokenApproval

open Secp256k1 (PublicKey SecretKey groupOrder)

variable {text : String} {secret : SecretKey}

/-! ### The bytes of a secret key -/

namespace Secp256k1

theorem SecretKey.length_bytes (key : SecretKey) : key.bytes.length = 32 := Bytes.length_ofNat _ _

theorem SecretKey.toNat_bytes (key : SecretKey) : key.bytes.toNat = key.scalar :=
  Bytes.toNat_ofNat (Nat.lt_trans key.scalar_lt groupOrder_lt_width)

/-- Bytes spell the key whose bytes they are, and no other. -/
theorem SecretKey.ofBytes?_eq_some_iff {bytes : Bytes} {key : SecretKey} :
    SecretKey.ofBytes? bytes = some key ↔ key.bytes = bytes := by
  constructor
  · intro h
    obtain ⟨hlength, h⟩ := Option.ite_none_right_eq_some.mp h
    obtain ⟨hrange, h⟩ := Option.dite_none_right_eq_some.mp h
    obtain rfl := Option.some.inj h
    rw [SecretKey.bytes, Bytes.ofNat_toNat hlength]
  · rintro rfl
    have hrange : 0 < key.bytes.toNat ∧ key.bytes.toNat < groupOrder := by
      rw [key.toNat_bytes]
      exact ⟨key.scalar_pos, key.scalar_lt⟩
    rw [SecretKey.ofBytes?, if_pos key.length_bytes, dif_pos hrange]
    simp only [key.toNat_bytes]

theorem SecretKey.bytes_inj {a b : SecretKey} : a.bytes = b.bytes ↔ a = b := by
  rw [← ofBytes?_eq_some_iff, ofBytes?_eq_some_iff.mpr rfl, Option.some_inj, eq_comm]

/-- The bytes of keys are those of the 32-byte numbers from one to below the group's order. -/
theorem SecretKey.exists_bytes_iff {bytes : Bytes} :
    (∃ key : SecretKey, key.bytes = bytes) ↔
      bytes.length = 32 ∧ 0 < bytes.toNat ∧ bytes.toNat < groupOrder := by
  constructor
  · rintro ⟨key, rfl⟩
    rw [key.toNat_bytes]
    exact ⟨key.length_bytes, key.scalar_pos, key.scalar_lt⟩
  · rintro ⟨hlength, hrange⟩
    exact ⟨_, ofBytes?_eq_some_iff.mp (by rw [ofBytes?, if_pos hlength, dif_pos hrange])⟩

end Secp256k1

/-! ### The text of a key -/

theorem parseSecretKey_trim (text : String) :
    parseSecretKey (Text.trim text) = parseSecretKey text := by
  rw [parseSecretKey, parseSecretKey, Text.trim_trim]

theorem parseSecretKey_missing (h : Text.trim text = "") :
    parseSecretKey text = .error .missingKey := if_pos h

theorem parseSecretKey_present (h : Text.trim text ≠ "") :
    (∃ secret, Hex.decode (Text.trim text) = .ok secret.bytes ∧ parseSecretKey text = .ok secret)
    ∨ (∀ secret : SecretKey, Hex.decode (Text.trim text) ≠ .ok secret.bytes)
      ∧ ∃ fault, parseSecretKey text = .error (.invalidKey fault) := by
  unfold parseSecretKey
  rw [if_neg h]
  cases hdecoded : Hex.decode (Text.trim text) with
  | error cause => exact .inr ⟨nofun, _, rfl⟩
  | ok bytes =>
    cases hkey : SecretKey.ofBytes? bytes with
    | none =>
      refine .inr ⟨fun secret hbytes => ?_, .malformed, by simp only [hkey]⟩
      have hsome := SecretKey.ofBytes?_eq_some_iff.mpr (Except.ok.inj hbytes).symm
      exact Option.some_ne_none _ (hsome.symm.trans hkey)
    | some secret =>
      have hbytes := SecretKey.ofBytes?_eq_some_iff.mp hkey
      exact .inl ⟨secret, congrArg Except.ok hbytes.symm, by simp only [hkey]⟩

theorem parseSecretKey_eq_missingKey_iff :
    parseSecretKey text = .error .missingKey ↔ ∀ c ∈ text.toList, Text.isBlank c = true := by
  rw [← Text.trim_eq_empty_iff]
  by_cases h : Text.trim text = ""
  · simp only [parseSecretKey_missing h, h]
  · rcases parseSecretKey_present h with ⟨secret, -, hparsed⟩ | ⟨-, fault, hparsed⟩
    · simp [hparsed, h]
    · simp [hparsed, h]

theorem parseSecretKey_eq_ok_iff :
    parseSecretKey text = .ok secret ↔ Hex.decode (Text.trim text) = .ok secret.bytes := by
  by_cases h : Text.trim text = ""
  · have hempty : Hex.decode "" = .ok [] := rfl
    have hlength := secret.length_bytes
    rw [parseSecretKey_missing h, h, hempty]
    refine ⟨nofun, fun hbytes => ?_⟩
    rw [← Except.ok.inj hbytes] at hlength
    cases hlength
  · rcases parseSecretKey_present h with ⟨other, hdecoded, hparsed⟩ | ⟨hnone, fault, hparsed⟩
    · rw [hparsed, hdecoded, Except.ok.injEq, Except.ok.injEq, SecretKey.bytes_inj]
    · simp [hparsed, hnone]

theorem errsOnly_parseSecretKey :
    Outcome.ErrsOnly (fun error => error = .missingKey ∨ ∃ fault, error = .invalidKey fault)
      (parseSecretKey text) := by
  by_cases h : Text.trim text = ""
  · rw [parseSecretKey_missing h]
    exact Outcome.errsOnly_error (.inl rfl)
  · rcases parseSecretKey_present h with ⟨secret, -, hparsed⟩ | ⟨-, fault, hparsed⟩
    · rw [hparsed]
      exact Outcome.errsOnly_ok _ _
    · rw [hparsed]
      exact Outcome.errsOnly_error (.inr ⟨fault, rfl⟩)

/-! ### What a text loads -/

/-- White space alone is no key, the core of another text is one if it spells the 32 bytes of a
number from one to below the group's order, and every other text is invalid. -/
structure Loads (text : String) (outcome : Except SignerError Signer) : Prop where
  missing_iff : outcome = .error .missingKey ↔ ∀ c ∈ text.toList, Text.isBlank c = true
  accepts_iff : (∃ signer, outcome = .ok signer) ↔ ∃ core bytes, Text.Trims text core
    ∧ Hex.IsText core 32 ∧ Hex.decode core = .ok bytes ∧ 0 < bytes.toNat ∧ bytes.toNat < groupOrder
  signer_iff : ∀ signer, outcome = .ok signer ↔ ∃ core secret, Text.Trims text core
    ∧ Hex.decode core = .ok secret.bytes ∧ Signer.ofSecret secret = signer
  otherwise : ∀ error, outcome = .error error → error = .missingKey
    ∨ ∃ fault, error = .invalidKey fault

theorem loads_ofHex (text : String) : Loads text (Signer.ofHex text) := by
  have hsigner : ∀ signer, Signer.ofHex text = .ok signer ↔ ∃ core secret, Text.Trims text core
      ∧ Hex.decode core = .ok secret.bytes ∧ Signer.ofSecret secret = signer := by
    intro signer
    simp only [Signer.ofHex_eq_ok_iff, parseSecretKey_eq_ok_iff, ← Text.trim_eq_iff]
    constructor
    · rintro ⟨secret, hbytes, hsecret⟩
      exact ⟨_, secret, rfl, hbytes, hsecret⟩
    · rintro ⟨_, secret, rfl, hbytes, hsecret⟩
      exact ⟨secret, hbytes, hsecret⟩
  refine ⟨?_, ?_, hsigner, ?_⟩
  · rw [← parseSecretKey_eq_missingKey_iff, Signer.ofHex, Outcome.map_eq_error_iff]
  · simp only [hsigner, Hex.isText_iff]
    constructor
    · rintro ⟨_, core, secret, hcore, hbytes, -⟩
      obtain ⟨hlength, hpos, hlt⟩ := SecretKey.exists_bytes_iff.mp ⟨secret, rfl⟩
      exact ⟨core, secret.bytes, hcore, ⟨_, hbytes, hlength⟩, hbytes, hpos, hlt⟩
    · rintro ⟨core, bytes, hcore, ⟨_, hdecoded, hlength⟩, hbytes, hpos, hlt⟩
      obtain rfl := Except.ok.inj (hbytes.symm.trans hdecoded)
      obtain ⟨secret, rfl⟩ := SecretKey.exists_bytes_iff.mpr ⟨hlength, hpos, hlt⟩
      exact ⟨_, core, secret, hcore, hbytes, rfl⟩
  · intro error herror
    exact errsOnly_parseSecretKey error (Outcome.map_eq_error_iff.mp herror)

/-! ### Where the text stands -/

namespace SecretConfig

variable {config : SecretConfig} {env : Environment} {files : Files}

/-- The place that is used has the text: the configuration itself, the file at a path that is not
empty, or the variable of the configured name. -/
def Holds (config : SecretConfig) (env : Environment) (files : Files) (text : String) : Prop :=
  match config.kind with
  | .inline => config.privateKey = text
  | .file => config.filePath ≠ "" ∧ files.read config.filePath = .ok (Text.bytes text)
  | .variable => env.get? config.variableName = some text

theorem source_of_holds (h : config.Holds env files text) :
    config.source env files = .ok text := by
  unfold Holds at h
  unfold source
  rcases hkind : config.kind with _ | _ | _
  · simp only [hkind] at h ⊢
    rw [h]
  · simp only [hkind] at h ⊢
    rw [if_neg h.1, Files.readText_of_read h.2]
    rfl
  · simp only [hkind] at h ⊢
    rw [h]

/-- Trimming the text before it is parsed makes no difference. -/
theorem signer_eq_ofHex (h : config.Holds env files text) :
    config.signer env files = Signer.ofHex text := by
  have hsource := source_of_holds h
  by_cases hblank : Text.trim text = ""
  · have hmissing : config.privateKeyText env files = .error .missingKey := by
      rw [privateKeyText, hsource, Outcome.ok_bind]
      simp only [if_pos hblank]
    rw [signer, hmissing, Outcome.error_bind, Signer.ofHex, parseSecretKey_missing hblank]
    rfl
  · have hpresent : config.privateKeyText env files = .ok (Text.trim text) := by
      rw [privateKeyText, hsource, Outcome.ok_bind]
      simp only [if_neg hblank]
      rfl
    rw [signer, hpresent, Outcome.ok_bind, Signer.ofHex, Signer.ofHex, parseSecretKey_trim]

/-- A text loads the same from every place. Texts whose cores differ in marker and case load signers
that nobody can tell apart. -/
theorem loads_alike (h : config.Holds env files text) :
    Loads text (config.signer env files)
    ∧ (∀ config' env' files', Holds config' env' files' text →
        config'.signer env' files' = config.signer env files)
    ∧ ∀ config' env' files' text' core core' signer, Holds config' env' files' text' →
        Text.Trims text core → Text.Trims text' core' → Hex.Alike core core' →
        config.signer env files = .ok signer →
        ∃ signer', config'.signer env' files' = .ok signer' ∧ signer'.publicKey = signer.publicKey
          ∧ ∀ digest, signer'.sign digest = signer.sign digest := by
  rw [signer_eq_ofHex h]
  refine ⟨loads_ofHex text, fun config' env' files' h' => signer_eq_ofHex h', ?_⟩
  intro config' env' files' text' core core' signer h' hcore hcore' halike hsigner
  rw [signer_eq_ofHex h']
  obtain ⟨secret, hparsed, rfl⟩ := Signer.ofHex_eq_ok_iff.mp hsigner
  rw [parseSecretKey_eq_ok_iff, hcore.trim_eq, halike.decode_iff, ← hcore'.trim_eq,
    ← parseSecretKey_eq_ok_iff] at hparsed
  exact ⟨_, Signer.ofHex_eq_ok_iff.mpr ⟨secret, hparsed, rfl⟩, rfl, fun digest => rfl⟩

/-- A key in plain digits, and the same key as it may stand in a file. -/
def plainText : String := "afc2986f283cf5f9d17e04c6a12ccf8fa46149fc37d48e11abef15a46ae34eb7"

def filedText : String := "\t 0XAFC2986F283CF5F9D17E04C6A12CCF8FA46149FC37D48E11ABEF15A46AE34EB7\n"

def filedCore : String := "0XAFC2986F283CF5F9D17E04C6A12CCF8FA46149FC37D48E11ABEF15A46AE34EB7"

/-- The key stands in the working directory, beside the directory of a database. -/
def keyFile : Files :=
  (Directory.ofList [("key.txt", Text.bytes filedText)]).disk.after ["./data/ledger"]

def keyVariable : Environment := ⟨[(standardVariable, plainText)]⟩

/-- The three places load one key. -/
theorem loads_alike_sample :
    ∃ inside infile invariable : SecretConfig,
      inside.Holds keyVariable keyFile plainText
      ∧ infile.Holds keyVariable keyFile filedText
      ∧ invariable.Holds keyVariable keyFile plainText
      ∧ inside.signer keyVariable keyFile = .ok (Signer.ofSecret sampleSecret)
      ∧ invariable.signer keyVariable keyFile = .ok (Signer.ofSecret sampleSecret)
      ∧ ∃ signer, infile.signer keyVariable keyFile = .ok signer
        ∧ signer.publicKey = (Signer.ofSecret sampleSecret).publicKey
        ∧ ∀ digest, signer.sign digest = (Signer.ofSecret sampleSecret).sign digest := by
  refine ⟨{ standard with privateKey := plainText },
    { standard with kind := .file, filePath := "key.txt" },
    { standard with kind := .variable }, ?_⟩
  have hinside : Holds { standard with privateKey := plainText } keyVariable keyFile plainText :=
    rfl
  have hinfile : Holds { standard with kind := .file, filePath := "key.txt" } keyVariable keyFile
      filedText :=
    ⟨by decide, Directory.read_after (by decide +kernel) (by decide +kernel) (by decide +kernel)⟩
  have hinvariable : Holds { standard with kind := .variable } keyVariable keyFile plainText := by
    show keyVariable.get? standardVariable = some plainText
    decide +kernel
  have hplain : Text.Trims plainText plainText := Text.trim_eq_iff.mp (by decide +kernel)
  have hfiled : Text.Trims filedText filedCore := Text.trim_eq_iff.mp (by decide +kernel)
  have hdecoded : Hex.decode plainText = .ok sampleSecret.bytes := by decide +kernel
  obtain ⟨hloads, hsame, halike⟩ := loads_alike hinside
  have hsigner := (hloads.signer_iff _).mpr ⟨plainText, sampleSecret, hplain, hdecoded, rfl⟩
  have hinfile_signer := halike _ _ _ _ _ _ _ hinfile hplain hfiled (by decide +kernel) hsigner
  exact ⟨hinside, hinfile, hinvariable, hsigner, (hsame _ _ _ hinvariable).trans hsigner,
    hinfile_signer⟩

end SecretConfig

end TokenApproval
