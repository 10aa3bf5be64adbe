import TokenApproval.Ledger.Leaf

/-!
# The balance entry that a token selects

A token may stand several times in an account's balance list; its first entry is the one that
counts. `Account.FirstEntry` says which entry that is without a search, `position?_eq_some_iff`
ties it to the search, and `select_eq_ok_iff` says when a leaf may be claimed at it.
-/

namespace TokenApproval

/-- `coin` stands at `position`, is of the token `denom`, and no entry before it is. -/
structure Account.FirstEntry (account : Account) (denom : String) (position : Nat) (coin : Coin) :
    Prop where
  entry : account.balances[position]? = some coin
  denom_eq : coin.denom = denom
  earlier : ∀ i < position, ∀ other, account.balances[i]? = some other → other.denom ≠ denom

namespace Account

variable {account : Account} {denom : String} {position : Nat}

theorem position?_eq_some_iff :
    account.position? denom = some position ↔ ∃ coin, account.FirstEntry denom position coin := by
  unfold position?
  rw [List.findIdx?_eq_some_iff_getElem]
  constructor
  · rintro ⟨hlt, hdenom, hearlier⟩
    refine ⟨account.balances[position], List.getElem?_eq_getElem hlt, beq_iff_eq.mp hdenom, ?_⟩
    intro i hi other hother heq
    obtain ⟨hlen, rfl⟩ := List.getElem?_eq_some_iff.mp hother
    exact hearlier i hi (beq_iff_eq.mpr heq)
  · rintro ⟨coin, hentry, hdenom, hearlier⟩
    obtain ⟨hlt, rfl⟩ := List.getElem?_eq_some_iff.mp hentry
    refine ⟨hlt, beq_iff_eq.mpr hdenom, fun i hi heq => ?_⟩
    exact hearlier i hi _ (List.getElem?_eq_getElem (Nat.lt_trans hi hlt)) (beq_iff_eq.mp heq)

/-- A token that an entry has, has a first entry. -/
theorem exists_firstEntry {coin : Coin} {i : Nat} (hi : account.balances[i]? = some coin)
    (hdenom : coin.denom = denom) : ∃ position first, account.FirstEntry denom position first := by
  cases hposition : account.position? denom with
  | none =>
    have hother := List.findIdx?_eq_none_iff.mp hposition coin (List.mem_of_getElem? hi)
    exact absurd hdenom (by simpa using hother)
  | some position => exact ⟨position, position?_eq_some_iff.mp hposition⟩

/-- An entry of the token stands at its first position or behind it. -/
theorem FirstEntry.position_le {coin other : Coin} {i : Nat}
    (h : account.FirstEntry denom position coin) (hi : account.balances[i]? = some other)
    (hdenom : other.denom = denom) : position ≤ i := by
  rcases Nat.lt_or_ge i position with hlt | hge
  · exact absurd hdenom (h.earlier i hlt other hi)
  · exact hge

theorem FirstEntry.position_lt_length {coin : Coin} (h : account.FirstEntry denom position coin) :
    position < account.balances.length :=
  (List.getElem?_eq_some_iff.mp h.entry).1

end Account

namespace LeafEncoder

/-- An amount is claimable unless it is negative or zero. -/
theorem amount_pos_iff {amount : Int64} : 0 < amount ↔ ¬ amount < 0 ∧ ¬ amount = 0 := by
  rw [Int64.lt_iff_toInt_lt, Int64.lt_iff_toInt_lt, ← Int64.toInt_inj]
  omega

/-- A token is selected at its first position, if its amount there is positive and no other
position is asked for. -/
theorem select_eq_ok_iff {account : Account} {denom : String} {requested : Option UInt32}
    {index : Nat} :
    select account denom requested = .ok index ↔
      ∃ coin, account.FirstEntry denom index coin ∧ 0 < coin.amount
        ∧ ∀ i, requested = some i → i.toNat = index := by
  unfold select
  constructor
  · intro h
    split at h
    · cases h
    · next position hposition =>
      split at h
      · cases h
      · next hrequested =>
        obtain ⟨coin, hcoin⟩ := Account.position?_eq_some_iff.mp hposition
        rw [hcoin.entry] at h
        simp only at h
        split at h
        · cases h
        · next hneg =>
          split at h
          · cases h
          · next hzero =>
            obtain rfl := Except.ok.inj h
            refine ⟨coin, hcoin, amount_pos_iff.mpr ⟨hneg, hzero⟩, ?_⟩
            rintro i rfl
            simpa [Option.filter] using hrequested
  · rintro ⟨coin, hcoin, hpos, hrequested⟩
    have hfilter : requested.filter (·.toNat ≠ index) = none := by
      cases requested with
      | none => rfl
      | some i => simp [Option.filter, hrequested i rfl]
    obtain ⟨hneg, hzero⟩ := amount_pos_iff.mp hpos
    rw [Account.position?_eq_some_iff.mpr ⟨coin, hcoin⟩]
    simp only [hfilter, hcoin.entry, if_neg hneg, if_neg hzero]

/-- What becomes of the first entry of a token: another position may have been asked for, and its
amount may not be positive. -/
theorem select_of_firstEntry {account : Account} {denom : String} {position : Nat} {coin : Coin}
    (h : account.FirstEntry denom position coin) (requested : Option UInt32) :
    select account denom requested =
      match requested.filter (·.toNat ≠ position) with
      | some other => .error (.indexMismatch other denom)
      | none =>
        if coin.amount < 0 then .error (.negativeAmount denom coin.amount)
        else if coin.amount = 0 then .error (.zeroBalance denom)
        else .ok position := by
  unfold select
  rw [Account.position?_eq_some_iff.mpr ⟨coin, h⟩]
  cases hother : requested.filter (·.toNat ≠ position) with
  | some other => simp only [hother]
  | none => simp only [hother, h.entry]

end LeafEncoder

end TokenApproval
