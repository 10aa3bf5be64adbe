import TokenApproval.Bech32
import TokenApproval.Ledger.Record
import TokenApproval.Text

/-!
# Networks and served accounts

A network has a chain identifier and a way to write its accounts: bech32 behind the network's own
prefix, or hexadecimal.
-/

namespace TokenApproval

/-- Why a text is not an account of the network, or a prefix is not usable. -/
inductive AddressError where
  | invalidPrefix (text : String)
  /-- The text belongs to another network. -/
  | wrongPrefix (address expected : String)
  | hex (cause : HexError)
  | bech32 (cause : Bech32.Error)
  /-- The text spells another number of bytes. -/
  | length (got : Nat)
deriving DecidableEq

def AddressError.message : AddressError → String
  | .invalidPrefix text => "invalid account prefix " ++ Text.quoted text
  | .wrongPrefix address expected =>
    "account " ++ Text.quoted address ++ " does not use prefix " ++ Text.quoted expected
  | .hex cause => "invalid account encoding: " ++ cause.message
  | .bech32 cause => "invalid account encoding: " ++ cause.message
  | .length got => "account must be 20 bytes, got " ++ toString got

/-- How accounts are written. -/
inductive AddressStyle where
  | bech32
  | hex
deriving DecidableEq, Repr

/-- A network that accounts can be written for. -/
structure Network where
  chainId : String
  /-- What stands before the accounts of the network. -/
  lead : Bech32.HumanPart
  style : AddressStyle
deriving DecidableEq

namespace Network

/-- The chain identifier of the production network. -/
def mainChainId : String := "Binance-Chain-Tigris"

/-- The account prefix that goes with a chain identifier. -/
def defaultLead (chainId : String) : String := if chainId = mainChainId then "bnb" else "tbnb"

/-- The network with a given account prefix. -/
def withLead (chainId lead : String) (style : AddressStyle) : Except AddressError Network :=
  match Bech32.HumanPart.ofChars? lead.toList with
  | none => .error (.invalidPrefix lead)
  | some part => .ok ⟨chainId, part, style⟩

/-- The network with the account prefix that goes with its chain identifier. -/
def ofChain (chainId : String) (style : AddressStyle) : Except AddressError Network :=
  withLead chainId (defaultLead chainId) style

/-- The text of an account, which is hexadecimal also where bech32 cannot write it. -/
def formatAccount (network : Network) (account : AccountId) : String :=
  match network.style with
  | .hex => account.hex
  | .bech32 => (Bech32.encode? network.lead account.octets.bytes).getD account.hex

/-- The bytes of an account's text. -/
def accountBytes (network : Network) (text : String) : Except AddressError Bytes :=
  match network.style with
  | .hex => (Hex.decode text).mapError .hex
  | .bech32 =>
    match Bech32.decode text with
    | .error cause => .error (.bech32 cause)
    | .ok (part, bytes) =>
      if part.lower = network.lead.lower then .ok bytes
      else .error (.wrongPrefix text network.lead.text)

/-- The account that a text names. -/
def parseAccount (network : Network) (text : String) : Except AddressError AccountId := do
  let bytes ← network.accountBytes text
  match AccountId.ofBytes? bytes with
  | none => .error (.length bytes.length)
  | some account => .ok account

end Network

/-! ## The list of served accounts

A deployment may restrict its service to listed accounts. An empty list restricts nothing. -/

/-- The accounts that are served, each listed once. -/
structure Whitelist where
  accounts : List AccountId
deriving DecidableEq

namespace Whitelist

/-- The list of these accounts, however often each is given. -/
def ofAccounts (accounts : List AccountId) : Whitelist := ⟨accounts.foldr List.insert []⟩

/-- The list of the accounts that a network's texts name; blanks around a text do not count. -/
def ofTexts (network : Network) (texts : List String) : Except AddressError Whitelist :=
  (texts.mapM fun text => network.parseAccount (Text.trim text)).map ofAccounts

def size (list : Whitelist) : Nat := list.accounts.length

def isEmpty (list : Whitelist) : Bool := list.accounts.isEmpty

def allows (list : Whitelist) (account : AccountId) : Bool :=
  list.isEmpty || list.accounts.contains account

end Whitelist

end TokenApproval
