import Mathlib.Data.List.Basic
import Mathlib.Tactic.Ring
import TokenApproval.Bech32

/-!
# Checksums and groups of bits in bech32

The symbols of a text carry bytes and a checksum, and both are bits taken five at a time.

## The checksum

A step of the register is linear in exclusive or, and it only shifts a register whose upper five
bits are clear. So the six symbols of a checksum, which spell 30 bits, add just these bits to what
six zeros would have given, and `checksum` chooses them such that the register ends in its constant.
-/

namespace TokenApproval.Bech32

/-! ### Steps -/

/-- What a bit that leaves the register adds to it. -/
def tap (register : BitVec 30) (position : Nat) (generator : BitVec 30) : BitVec 30 :=
  if register.getLsbD position then generator else 0#30

theorem xor_tap (acc register generator : BitVec 30) (position : Nat) :
    (if register.getLsbD position then acc ^^^ generator else acc) =
      acc ^^^ tap register position generator := by
  unfold tap
  split
  · rfl
  · rw [BitVec.xor_zero]

/-- What the five bits that leave the register add to it. -/
def feedback (register : BitVec 30) : BitVec 30 :=
  generators.zipIdx.foldl (fun acc g => acc ^^^ tap register (25 + g.2) g.1) 0#30

theorem step_eq (register : BitVec 30) (symbol : Symbol) :
    step register symbol = register <<< 5 ^^^ symbol.setWidth 30 ^^^ feedback register := by
  simp only [step, feedback, generators, List.zipIdx_cons, List.zipIdx_nil, List.foldl_cons,
    List.foldl_nil, xor_tap, BitVec.xor_assoc, BitVec.zero_xor]

theorem tap_xor (a b generator : BitVec 30) (position : Nat) :
    tap (a ^^^ b) position generator = tap a position generator ^^^ tap b position generator := by
  unfold tap
  rw [BitVec.getLsbD_xor]
  cases a.getLsbD position <;> cases b.getLsbD position <;> simp

theorem feedback_xor (a b : BitVec 30) : feedback (a ^^^ b) = feedback a ^^^ feedback b := by
  simp only [feedback, generators, List.zipIdx_cons, List.zipIdx_nil, List.foldl_cons,
    List.foldl_nil, BitVec.zero_xor, tap_xor]
  ac_rfl

theorem feedback_of_clear {register : BitVec 30}
    (h : ∀ i, 25 ≤ i → register.getLsbD i = false) : feedback register = 0#30 := by
  simp only [feedback, generators, List.zipIdx_cons, List.zipIdx_nil, List.foldl_cons,
    List.foldl_nil, tap, h _ (Nat.le_add_right 25 _), Bool.false_eq_true, if_false,
    BitVec.xor_zero]

/-- A step is linear. -/
theorem step_xor (a b : BitVec 30) (x y : Symbol) :
    step (a ^^^ b) (x ^^^ y) = step a x ^^^ step b y := by
  rw [step_eq, step_eq, step_eq, feedback_xor, BitVec.shiftLeft_xor_distrib, BitVec.setWidth_xor]
  ac_rfl

theorem foldl_step_xor (xs ys : List Symbol) (h : xs.length = ys.length) (a b : BitVec 30) :
    (List.zipWith (· ^^^ ·) xs ys).foldl step (a ^^^ b) = xs.foldl step a ^^^ ys.foldl step b := by
  induction xs generalizing ys a b with
  | nil =>
    obtain rfl := List.eq_nil_of_length_eq_zero h.symm
    rfl
  | cons x xs ih =>
    cases ys with
    | nil => cases h
    | cons y ys =>
      rw [List.zipWith_cons_cons, List.foldl_cons, List.foldl_cons, List.foldl_cons, step_xor,
        ih ys (Nat.succ.inj h)]

/-! ### Six symbols -/

/-- A register whose upper bits are clear moves up, and the symbol takes the lower bits. -/
theorem step_ushiftRight (v : BitVec 30) (k : Nat) :
    step (v >>> (k + 5)) ((v >>> k).setWidth 5) = v >>> k := by
  have hclear : ∀ i, 25 ≤ i → (v >>> (k + 5)).getLsbD i = false := by
    intro i hi
    rw [BitVec.getLsbD_ushiftRight]
    exact BitVec.getLsbD_of_ge v _ (by omega)
  rw [step_eq, feedback_of_clear hclear, BitVec.xor_zero]
  apply BitVec.eq_of_getLsbD_eq
  intro i hi
  simp only [BitVec.getLsbD_xor, BitVec.getLsbD_shiftLeft, BitVec.getLsbD_ushiftRight,
    BitVec.getLsbD_setWidth, hi, decide_true, Bool.true_and]
  by_cases hlow : i < 5
  · simp [hlow]
  · have hplace : k + 5 + (i - 5) = k + i := by omega
    simp [hlow, hplace]

/-- The symbols that spell 30 bits. -/
def spell (v : BitVec 30) : List Symbol :=
  [25, 20, 15, 10, 5, 0].map fun shift => (v >>> shift).setWidth 5

/-- Taken into an empty register, the symbols that spell a value leave the value. -/
theorem foldl_step_spell (v : BitVec 30) : (spell v).foldl step 0#30 = v := by
  have hempty : v >>> 30 = 0#30 := BitVec.ushiftRight_eq_zero (Nat.le_refl 30)
  simp only [spell, List.map_cons, List.map_nil, List.foldl_cons, List.foldl_nil]
  rw [← hempty, step_ushiftRight v 25, step_ushiftRight v 20, step_ushiftRight v 15,
    step_ushiftRight v 10, step_ushiftRight v 5, step_ushiftRight v 0, BitVec.ushiftRight_zero]

/-- Six symbols add the bits that they spell to what six zeros give. -/
theorem foldl_step_spell_xor (r v : BitVec 30) :
    (spell v).foldl step r = (List.replicate 6 0).foldl step r ^^^ v := by
  have hsum := foldl_step_xor (List.replicate 6 0) (spell v) rfl r 0#30
  have hsymbols : List.zipWith (· ^^^ ·) (List.replicate 6 0) (spell v) = spell v := by
    simp [spell, List.replicate_succ]
  rwa [hsymbols, BitVec.xor_zero, foldl_step_spell] at hsum

/-- A text that is written has the checksum that is written. -/
theorem hasChecksum_checksum (part : HumanPart) (data : List Symbol) :
    hasChecksum part (data ++ checksum part data) = true := by
  have hsplit : ∀ more, register (expand part ++ data ++ more) =
      more.foldl step (register (expand part ++ data)) := fun more => List.foldl_append
  have hfinal : register (expand part ++ data ++ checksum part data) = residue := by
    rw [hsplit, show checksum part data = spell _ from rfl, foldl_step_spell_xor, ← hsplit,
      ← BitVec.xor_assoc, BitVec.xor_self, BitVec.zero_xor]
  rw [hasChecksum, ← List.append_assoc, hfinal]
  rfl

end TokenApproval.Bech32

/-! ## Bytes in groups of five bits

Bytes and symbols are lists of bits of the two lengths, highest first, and each is told by its bits.
Cut into pieces of five, the bits of bytes may leave a shorter piece, which is filled up with less
than five zeros; cut into pieces of eight again, these zeros are too few for a piece, and they are
dropped. -/

namespace TokenApproval

/-! ### Pieces of lists -/

namespace Bytes

variable {α : Type} {size count : Nat} {front rest list : List α}

theorem cut_nil (size count : Nat) : cut size count ([] : List α) = [] := by
  cases count <;> rfl

theorem cut_succ (hlist : list ≠ []) :
    cut size (count + 1) list = list.take size :: cut size count (list.drop size) := by
  cases list with
  | nil => exact absurd rfl hlist
  | cons a list => rfl

/-- A count that is large enough does not matter. -/
theorem cut_eq_cut (hsize : 0 < size) {more : Nat} (hcount : list.length ≤ count)
    (hmore : list.length ≤ more) : cut size count list = cut size more list := by
  induction count generalizing list more with
  | zero =>
    obtain rfl := List.eq_nil_of_length_eq_zero (Nat.le_zero.mp hcount)
    rw [cut_nil, cut_nil]
  | succ count ih =>
    by_cases hlist : list = []
    · rw [hlist, cut_nil, cut_nil]
    · have hpos := List.length_pos_iff.mpr hlist
      obtain ⟨more, rfl⟩ : ∃ m, more = m + 1 := ⟨more - 1, by omega⟩
      have hdrop : (list.drop size).length = list.length - size := List.length_drop
      have hrest : cut size count (list.drop size) = cut size more (list.drop size) :=
        ih (by omega) (by omega)
      rw [cut_succ hlist, cut_succ hlist, hrest]

theorem chunks_append (hsize : 0 < size) (h : front.length = size) :
    chunks size (front ++ rest) = front :: chunks size rest := by
  have hlength : (front ++ rest).length = size + rest.length := by rw [List.length_append, h]
  have hne : front ++ rest ≠ [] := List.length_pos_iff.mp (by omega)
  obtain ⟨count, hcount⟩ : ∃ count, (front ++ rest).length = count + 1 :=
    ⟨size + rest.length - 1, by omega⟩
  rw [chunks, hcount, cut_succ hne, List.take_left' h, List.drop_left' h, chunks,
    cut_eq_cut hsize (by omega) (Nat.le_refl rest.length)]

theorem chunks_short (hpos : 0 < list.length) (hlength : list.length ≤ size) :
    chunks size list = [list] := by
  obtain ⟨count, hcount⟩ : ∃ count, list.length = count + 1 := ⟨list.length - 1, by omega⟩
  rw [chunks, hcount, cut_succ (List.length_pos_iff.mp hpos), List.take_of_length_le hlength,
    List.drop_of_length_le hlength, cut_nil]

end Bytes

namespace Bech32

open Bytes (chunks chunks_append chunks_short)

/-! ### Bits of numbers -/

/-- The lowest bits of a number, highest first. -/
def bitsOf (width n : Nat) : List Bool := (List.range width).map fun i => n.testBit (width - 1 - i)

theorem length_bitsOf (width n : Nat) : (bitsOf width n).length = width := by
  rw [bitsOf, List.length_map, List.length_range]

theorem bitsOf_succ (width n : Nat) :
    bitsOf (width + 1) n = n.testBit width :: bitsOf width n := by
  rw [bitsOf, List.range_succ_eq_map, List.map_cons, List.map_map, bitsOf]
  refine congrArg _ (List.map_congr_left fun i _ => ?_)
  show n.testBit (width + 1 - 1 - (i + 1)) = n.testBit (width - 1 - i)
  rw [Nat.add_sub_cancel, Nat.sub_sub, Nat.add_comm 1 i]

theorem foldl_bits (bits : List Bool) (acc : Nat) :
    bits.foldl (fun acc bit => 2 * acc + bit.toNat) acc =
      acc * 2 ^ bits.length + bitsToNat bits := by
  induction bits generalizing acc with
  | nil => exact (Nat.mul_one acc).symm
  | cons bit bits ih =>
    rw [bitsToNat, List.foldl_cons, List.foldl_cons, ih, ih, List.length_cons, Nat.pow_succ]
    ring

theorem bitsToNat_cons (bit : Bool) (bits : List Bool) :
    bitsToNat (bit :: bits) = bit.toNat * 2 ^ bits.length + bitsToNat bits := by
  rw [bitsToNat, List.foldl_cons, foldl_bits, Nat.mul_zero, Nat.zero_add]

theorem bitsToNat_lt (bits : List Bool) : bitsToNat bits < 2 ^ bits.length := by
  induction bits with
  | nil => exact Nat.one_pos
  | cons bit bits ih =>
    have hbit : bit.toNat * 2 ^ bits.length ≤ 2 ^ bits.length := by
      cases bit <;> simp
    rw [bitsToNat_cons, List.length_cons, Nat.pow_succ]
    omega

/-- Bits are the lowest bits of the number that they spell. -/
theorem bitsOf_bitsToNat (bits : List Bool) : bitsOf bits.length (bitsToNat bits) = bits := by
  suffices h : ∀ high, bitsOf bits.length (high * 2 ^ bits.length + bitsToNat bits) = bits by
    have hzero := h 0
    rwa [Nat.zero_mul, Nat.zero_add] at hzero
  induction bits with
  | nil => exact fun _ => rfl
  | cons bit bits ih =>
    intro high
    have hsum : high * 2 ^ (bits.length + 1) + (bit.toNat * 2 ^ bits.length + bitsToNat bits) =
        (2 * high + bit.toNat) * 2 ^ bits.length + bitsToNat bits := by
      ring
    have hbit : ((2 * high + bit.toNat) * 2 ^ bits.length + bitsToNat bits).testBit bits.length =
        bit := by
      rw [Nat.mul_comm, Nat.testBit_two_pow_mul_add _ (bitsToNat_lt bits)]
      cases bit <;> simp [Nat.testBit_zero]
    rw [List.length_cons, bitsToNat_cons, bitsOf_succ, hsum, hbit, ih]

/-- The number that bits spell has them as its lowest bits. -/
theorem bitsToNat_bitsOf (width n : Nat) : bitsToNat (bitsOf width n) = n % 2 ^ width := by
  induction width with
  | zero => exact (Nat.mod_one n).symm
  | succ width ih =>
    rw [bitsOf_succ, bitsToNat_cons, length_bitsOf, ih, Nat.toNat_testBit, Nat.mod_pow_succ,
      Nat.mul_comm, Nat.add_comm]

/-! ### Bits of bytes and symbols -/

theorem byteBits_eq (byte : UInt8) : byteBits byte = bitsOf 8 byte.toNat := rfl

theorem symbolBits_eq (symbol : Symbol) : symbolBits symbol = bitsOf 5 symbol.toNat := rfl

theorem length_byteBits (byte : UInt8) : (byteBits byte).length = 8 := length_bitsOf 8 _

theorem length_symbolBits (symbol : Symbol) : (symbolBits symbol).length = 5 := length_bitsOf 5 _

/-- A byte is told by its bits. -/
theorem ofNat_byteBits (byte : UInt8) : UInt8.ofNat (bitsToNat (byteBits byte)) = byte := by
  rw [byteBits_eq, bitsToNat_bitsOf, Nat.mod_eq_of_lt byte.toNat_lt, UInt8.ofNat_toNat]

/-- Five bits are those of their symbol. -/
theorem symbolBits_ofNat {bits : List Bool} (h : bits.length = 5) :
    symbolBits (BitVec.ofNat 5 (bitsToNat bits)) = bits := by
  have hlt := bitsToNat_lt bits
  rw [h] at hlt
  rw [symbolBits_eq, BitVec.toNat_ofNat, Nat.mod_eq_of_lt hlt, ← h, bitsOf_bitsToNat]

/-! ### Cutting bits -/

/-- Zeros to fill up a piece. -/
def fill (size : Nat) (bits : List Bool) : List Bool :=
  bits ++ List.replicate (size - bits.length) false

/-- The pieces of some bits, filled up, are the bits and fewer zeros than a piece has. -/
theorem exists_flatMap_fill (size : Nat) (hsize : 0 < size) (bits : List Bool) :
    ∃ zeros, zeros < size ∧ (∀ piece ∈ chunks size bits, (fill size piece).length = size)
      ∧ (chunks size bits).flatMap (fill size) = bits ++ List.replicate zeros false := by
  induction hlength : bits.length using Nat.strongRecOn generalizing bits with
  | ind length ih =>
    subst hlength
    by_cases hempty : bits = []
    · subst hempty
      exact ⟨0, hsize, by simp [chunks, Bytes.cut], rfl⟩
    · have hpos := List.length_pos_iff.mpr hempty
      by_cases hshort : bits.length ≤ size
      · refine ⟨size - bits.length, by omega, ?_, ?_⟩
        · rw [chunks_short hpos hshort]
          intro piece hpiece
          rw [List.mem_singleton.mp hpiece, fill, List.length_append, List.length_replicate]
          omega
        · rw [chunks_short hpos hshort, List.flatMap_singleton, fill]
      · have hfront : (bits.take size).length = size := by
          rw [List.length_take]
          omega
        obtain ⟨zeros, hzeros, hpieces, hrest⟩ := ih (bits.drop size).length
          (by rw [List.length_drop]; omega) (bits.drop size) rfl
        have hfull : fill size (bits.take size) = bits.take size := by
          rw [fill, hfront, Nat.sub_self, List.replicate_zero, List.append_nil]
        refine ⟨zeros, hzeros, ?_, ?_⟩
        · rw [← List.take_append_drop size bits, chunks_append hsize hfront, List.forall_mem_cons]
          exact ⟨by rw [hfull, hfront], hpieces⟩
        · conv_lhs => rw [← List.take_append_drop size bits]
          rw [chunks_append hsize hfront, List.flatMap_cons, hfull, hrest, ← List.append_assoc,
            List.take_append_drop]

/-- Symbols spell the bits of the bytes that they are made from, and fewer than five zeros. -/
theorem exists_flatMap_symbolsOfBytes (bytes : Bytes) :
    ∃ zeros, zeros < 5 ∧ (symbolsOfBytes bytes).flatMap symbolBits =
      bytes.flatMap byteBits ++ List.replicate zeros false := by
  obtain ⟨zeros, hzeros, hpieces, hbits⟩ :=
    exists_flatMap_fill 5 (by decide) (bytes.flatMap byteBits)
  refine ⟨zeros, hzeros, ?_⟩
  rw [← hbits, symbolsOfBytes, List.flatMap_map]
  exact List.flatMap_congr fun piece hpiece => symbolBits_ofNat (hpieces piece hpiece)

theorem length_flatMap_bits {α : Type} {bits : α → List Bool} {size : Nat}
    (h : ∀ a, (bits a).length = size) (list : List α) :
    (list.flatMap bits).length = size * list.length := by
  rw [List.length_flatMap, funext h, List.map_const', List.sum_replicate_nat, Nat.mul_comm]

/-- There are only as many symbols as the bits of the bytes need. -/
theorem length_symbolsOfBytes_lt (bytes : Bytes) :
    5 * (symbolsOfBytes bytes).length < 8 * bytes.length + 5 := by
  obtain ⟨zeros, hzeros, hbits⟩ := exists_flatMap_symbolsOfBytes bytes
  have hlength := congrArg List.length hbits
  rw [List.length_append, List.length_replicate, length_flatMap_bits length_byteBits,
    length_flatMap_bits length_symbolBits] at hlength
  omega

/-- Pieces of eight bits are bytes, and what is left behind them is dropped. -/
theorem filter_chunks_byteBits (bytes : Bytes) {rest : List Bool} (hrest : rest.length < 8) :
    (chunks 8 (bytes.flatMap byteBits ++ rest)).filter (·.length == 8) = bytes.map byteBits := by
  induction bytes with
  | nil =>
    rw [List.flatMap_nil, List.nil_append, List.map_nil]
    by_cases hempty : rest = []
    · subst hempty
      rfl
    · rw [chunks_short (List.length_pos_iff.mpr hempty) (Nat.le_of_lt hrest),
        List.filter_singleton, beq_eq_false_iff_ne.mpr (Nat.ne_of_lt hrest)]
      rfl
  | cons byte bytes ih =>
    rw [List.flatMap_cons, List.append_assoc, chunks_append (by decide) (length_byteBits byte),
      List.filter_cons, length_byteBits, ih, List.map_cons]
    rfl

/-- Bytes are read back from their symbols. -/
theorem bytesOfSymbols_symbolsOfBytes (bytes : Bytes) :
    bytesOfSymbols (symbolsOfBytes bytes) = bytes := by
  obtain ⟨zeros, hzeros, hbits⟩ := exists_flatMap_symbolsOfBytes bytes
  have hrest : (List.replicate zeros false).length < 8 := by
    rw [List.length_replicate]
    omega
  rw [bytesOfSymbols, hbits, filter_chunks_byteBits bytes hrest, List.map_map]
  exact (List.map_congr_left fun byte _ => ofNat_byteBits byte).trans (List.map_id bytes)

end Bech32

end TokenApproval
