import TokenApproval.Config.Settings
import TokenApproval.Proofs.Config.Overrides
import TokenApproval.Proofs.Network

/-!
# Settings of a configuration

A configuration that passes its check gives settings, since the check takes the same two steps: the
network and, under this network, the whitelist. The settings say how they follow from the
configuration, so that what is derived from an overridden field follows the new value.
-/

namespace TokenApproval

/-- Settings follow from a configuration whose chain has an identifier that may have been
overridden. -/
structure ApprovalSettings.Follows (settings : ApprovalSettings) (config : Config)
    (chainId : String) : Prop where
  chainId_eq : settings.network.chainId = chainId
  lead_eq : settings.network.lead.text = config.accountPrefix.getD (Network.defaultLead chainId)
  style_eq : settings.network.style = config.addressStyle.getD config.scheme.standardStyle
  whitelist_eq : Whitelist.ofTexts settings.network config.whitelist = .ok settings.whitelist
  scheme_eq : settings.scheme = config.scheme
  encoder_eq : settings.encoder = ⟨config.leafVersion, config.entryLayout⟩
  payloadFormat_eq : settings.payloadFormat = config.payloadFormat

namespace Config

variable {config : Config} {settings : ApprovalSettings} {env : Environment}

/-! ## Checking and settings -/

theorem validate_eq (config : Config) : config.validate = config.settings.map fun _ => () := by
  rw [validate, Config.settings]
  cases config.network with
  | error cause => rfl
  | ok network =>
    show (Whitelist.ofTexts network config.whitelist).mapError SettingsError.whitelist >>= _ =
      ((Whitelist.ofTexts network config.whitelist).mapError SettingsError.whitelist >>= _).map _
    cases (Whitelist.ofTexts network config.whitelist).mapError SettingsError.whitelist with
    | error cause => rfl
    | ok whitelist => rfl

theorem validate_eq_error_iff {cause : SettingsError} :
    config.validate = .error cause ↔ config.settings = .error cause := by
  rw [validate_eq]
  cases config.settings <;> simp [Except.map]

theorem validate_eq_ok_iff :
    config.validate = .ok () ↔ ∃ settings, config.settings = .ok settings := by
  rw [validate_eq, Outcome.map_eq_ok_iff]
  exact exists_congr fun settings => and_iff_left rfl

/-- The settings of a configuration are those that follow from it. -/
theorem settings_eq_ok_iff :
    config.settings = .ok settings ↔
      Bech32.IsPart (config.accountPrefix.getD (Network.defaultLead config.chainId)).toList
        ∧ settings.Follows config config.chainId := by
  rw [Config.settings, Outcome.bind_eq_ok_iff]
  simp only [Outcome.mapError_eq_ok_iff, Outcome.bind_eq_ok_iff]
  constructor
  · rintro ⟨network, hnetwork, whitelist, hwhitelist, hsettings⟩
    obtain rfl := Except.ok.inj hsettings
    obtain ⟨hlead, rfl⟩ := Network.withLead_eq_ok_iff.mp hnetwork
    exact ⟨hlead, rfl, String.ofList_toList, rfl, hwhitelist, rfl, rfl, rfl⟩
  · rintro ⟨hlead, hfollows⟩
    have hnetwork : settings.network = ⟨config.chainId,
        ⟨(config.accountPrefix.getD (Network.defaultLead config.chainId)).toList⟩,
        config.style⟩ := by
      obtain ⟨⟨chainId, ⟨lead⟩, style⟩, scheme, encoder, payloadFormat, whitelist⟩ := settings
      obtain rfl : chainId = config.chainId := hfollows.chainId_eq
      obtain rfl : style = config.style := hfollows.style_eq
      rw [← hfollows.lead_eq]
      show _ = Network.mk _ ⟨(String.ofList lead).toList⟩ _
      rw [String.toList_ofList]
    refine ⟨settings.network, Network.withLead_eq_ok_iff.mpr ⟨hlead, hnetwork⟩,
      settings.whitelist, hfollows.whitelist_eq, ?_⟩
    obtain ⟨network, scheme, encoder, payloadFormat, whitelist⟩ := settings
    obtain rfl : scheme = config.scheme := hfollows.scheme_eq
    obtain rfl : encoder = config.encoder := hfollows.encoder_eq
    obtain rfl : payloadFormat = config.payloadFormat := hfollows.payloadFormat_eq
    rfl

/-! ## Settings after overrides -/

theorem Replaced.chainId_eq {given : Variable → Option String} {before after : Config}
    (h : Replaced given before after) : after.chainId = (given .chainId).getD before.chainId := by
  have htakes := h.chainId
  cases hgiven : given .chainId with
  | none =>
    rw [hgiven] at htakes
    exact htakes
  | some text =>
    rw [hgiven] at htakes
    exact Eq.symm htakes

/-- What is derived from the chain follows the new chain, and the rest the old configuration. -/
theorem Replaced.follows {given : Variable → Option String} {before after : Config}
    (h : Replaced given before after) (hfollows : settings.Follows after after.chainId) :
    settings.Follows before ((given .chainId).getD before.chainId) := by
  rw [h.chainId_eq] at hfollows
  rw [h.others] at hfollows
  exact ⟨hfollows.chainId_eq, hfollows.lead_eq, hfollows.style_eq, hfollows.whitelist_eq,
    hfollows.scheme_eq, hfollows.encoder_eq, hfollows.payloadFormat_eq⟩

theorem among_order (env : Environment) :
    among env Variable.order = fun v => env.get? v.name := by
  funext v
  exact if_pos v.mem_order

/-- Overrides touch only their own fields, also when they fail, and a checked configuration gives
settings that follow what was overridden. -/
theorem overrides_then_settings (config : Config) (env : Environment) :
    ((config.applyOverrides env).2 = .ok () ↔
      ∀ (v : Variable) text, env.get? v.name = some text → v.Accepts text)
    ∧ ((config.applyOverrides env).2 = .ok () →
      Replaced (fun v => env.get? v.name) config (config.applyOverrides env).1)
    ∧ (∀ e, (config.applyOverrides env).2 = .error e →
      StopsAt env Variable.order e.variable config (config.applyOverrides env).1)
    ∧ (config.validate = .ok () ↔ ∃ settings, config.settings = .ok settings)
    ∧ (∀ cause, config.validate = .error cause ↔ config.settings = .error cause)
    ∧ (∀ settings, config.settings = .ok settings → settings.Follows config config.chainId)
    ∧ ((config.applyOverrides env).2 = .ok () →
      ∀ settings, (config.applyOverrides env).1.settings = .ok settings →
        settings.Follows config ((env.get? Variable.chainId.name).getD config.chainId)) := by
  have hrun := applyOverrides_run config env
  have hreplaced (hok : (config.applyOverrides env).2 = .ok ()) :
      Replaced (fun v => env.get? v.name) config (config.applyOverrides env).1 := by
    rw [Leaves, hok] at hrun
    rw [← among_order]
    exact hrun.replaced
  refine ⟨applyOverrides_ok_iff, hreplaced, ?_, validate_eq_ok_iff, fun _ => validate_eq_error_iff,
    fun settings h => (settings_eq_ok_iff.mp h).2, ?_⟩
  · intro e herror
    rw [Leaves, herror] at hrun
    exact hrun
  · intro hok settings h
    exact (hreplaced hok).follows (settings_eq_ok_iff.mp h).2

/-- The whitelist of another chain is read once the chain is overridden, as are a port with a plus
sign and a format with blanks and capitals; a driver without a name leaves replaced what is in front
of it. -/
theorem overrides_then_settings_sample :
    ∃ (config : Config) (env other : Environment) (settings : ApprovalSettings),
      (∃ cause, config.validate = .error cause ∧ config.settings = .error cause)
      ∧ (config.applyOverrides env).2 = .ok ()
      ∧ Replaced (fun v => env.get? v.name) config (config.applyOverrides env).1
      ∧ (config.applyOverrides env).1.http.port = 7000
      ∧ (config.applyOverrides env).1.logger.format = .json
      ∧ (config.applyOverrides env).1.settings = .ok settings
      ∧ settings.network.lead.text = "bnb"
      ∧ (config.applyOverrides other).2 ≠ .ok ()
      ∧ StopsAt other Variable.order .storeDriver config (config.applyOverrides other).1
      ∧ (config.applyOverrides other).1.http.port = 7000 := by
  obtain ⟨config, hconfig⟩ : ∃ config : Config, config = { standard with
    whitelist := ["bnb1vu8vu6jxqtwy5cc3kc6wj2fljsm5k0qq0mz4sz"] } := ⟨_, rfl⟩
  obtain ⟨env, henv⟩ : ∃ env : Environment, env = ⟨[("APPROVER_CHAIN_ID", Network.mainChainId),
    ("APPROVER_HTTP_PORT", "+7000"), ("APPROVER_LOGGER_FORMAT", " JSON ")]⟩ := ⟨_, rfl⟩
  obtain ⟨other, hother⟩ : ∃ other : Environment, other = ⟨[("APPROVER_STORE_DRIVER", "disk"),
    ("APPROVER_HTTP_PORT", "7000")]⟩ := ⟨_, rfl⟩
  obtain ⟨-, hreplaced, -, -, herror, -, hfollows⟩ := overrides_then_settings config env
  have hstops := (overrides_then_settings config other).2.2.1
  have hok : (config.applyOverrides env).2 = .ok () :=
    Outcome.eq_ok_of_toOption (by rw [hconfig, henv]; decide +kernel)
  have hchain : env.get? Variable.chainId.name = some Network.mainChainId := by
    rw [henv]
    decide +kernel
  have hstopped : (config.applyOverrides other).2 =
      .error (.storeDriver (.unknownVariant "disk" ["memory", "sled"])) := by
    rw [hconfig, hother]
    rfl
  cases hcause : config.validate with
  | ok =>
    have hrefused : config.validate.toOption.isSome = false := by
      rw [hconfig]
      decide +kernel
    rw [hcause] at hrefused
    cases hrefused
  | error cause =>
    cases hsettings : (config.applyOverrides env).1.settings with
    | error cause =>
      have hread : (config.applyOverrides env).1.settings.toOption.isSome = true := by
        rw [hconfig, henv]
        decide +kernel
      rw [hsettings] at hread
      cases hread
    | ok settings =>
      refine ⟨config, env, other, settings, ⟨cause, hcause, (herror cause).mp hcause⟩, hok,
        hreplaced hok, ?port, ?format, hsettings, ?lead, ?stopped, hstops _ hstopped, ?replaced⟩
      case port =>
        rw [hconfig, henv]
        decide +kernel
      case format =>
        rw [hconfig, henv]
        decide +kernel
      case lead =>
        rw [(hfollows hok settings hsettings).lead_eq, hchain, hconfig]
        rfl
      case stopped =>
        rw [hstopped]
        nofun
      case replaced =>
        rw [hconfig, hother]
        decide +kernel

end Config

end TokenApproval
