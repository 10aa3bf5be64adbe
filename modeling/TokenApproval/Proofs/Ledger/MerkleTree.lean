import TokenApproval.Ledger.Leaf
import TokenApproval.Proofs.Ledger.Leaf

/-!
# Membership in the snapshot tree

`levels` is the tree of a snapshot: each level holds the parents of the pairs of neighbours below
it, the last node of an odd level being its own neighbour, until one node is left. A proof may have
any length and does not say which node stood on the left. Still it leads down from the root along
the tree: a level is entered from the level above it, since the two nodes that are hashed there are
told by their hash, up to their order. The way down cannot end early nor go on below the leaves,
since two nodes have 64 bytes and no leaf has. All this holds unless two of the byte strings that
are hashed on the way, or in the tree, have one hash.
-/

namespace TokenApproval

/-- Two of the byte strings have one hash. -/
def Collide (inputs : List Bytes) : Prop :=
  ∃ x ∈ inputs, ∃ y ∈ inputs, x ≠ y ∧ keccak256 x = keccak256 y

theorem eq_of_not_collide {inputs : List Bytes} (h : ¬ Collide inputs) {x y : Bytes}
    (hx : x ∈ inputs) (hy : y ∈ inputs) (heq : keccak256 x = keccak256 y) : x = y := by
  by_contra hne
  exact h ⟨x, hx, y, hy, hne, heq⟩

theorem Collide.mono {inputs more : List Bytes} (hsubset : inputs ⊆ more) (h : Collide inputs) :
    Collide more := by
  obtain ⟨x, hx, y, hy, hne, heq⟩ := h
  exact ⟨x, hsubset hx, y, hsubset hy, hne, heq⟩

namespace MerkleTree

/-! ## Parents -/

/-- The bytes that are hashed into the parent of two nodes. -/
def pairBytes (a b : Octets 32) : Bytes :=
  if a.bytes ≤ b.bytes then a.bytes ++ b.bytes else b.bytes ++ a.bytes

variable {a b c d : Octets 32}

theorem hashPair_eq (a b : Octets 32) : hashPair a b = keccak256 (pairBytes a b) := by
  unfold hashPair pairBytes
  split <;> rfl

theorem length_pairBytes (a b : Octets 32) : (pairBytes a b).length = 64 := by
  unfold pairBytes
  split <;> rw [List.length_append, Octets.length_bytes, Octets.length_bytes]

theorem pairBytes_comm (a b : Octets 32) : pairBytes a b = pairBytes b a := by
  unfold pairBytes
  by_cases hab : a.bytes ≤ b.bytes
  · by_cases hba : b.bytes ≤ a.bytes
    · rw [if_pos hab, if_pos hba, List.le_antisymm hab hba]
    · rw [if_pos hab, if_neg hba]
  · rw [if_neg hab, if_pos ((List.le_total a.bytes b.bytes).resolve_left hab)]

/-- A proof needs no note of which node stood on the left. -/
theorem hashPair_comm (a b : Octets 32) : hashPair a b = hashPair b a := by
  rw [hashPair_eq, hashPair_eq, pairBytes_comm]

/-- The two nodes are told by their bytes, but not which of them stood on the left. -/
theorem left_mem_of_pairBytes_eq (h : pairBytes a b = pairBytes c d) : a = c ∨ a = d := by
  have hcut : ∀ x y u v : Octets 32, x.bytes ++ y.bytes = u.bytes ++ v.bytes → x = u ∧ y = v := by
    intro x y u v heq
    obtain ⟨hxu, hyv⟩ := Octets.append_inj.mp heq
    exact ⟨hxu, Octets.ext hyv⟩
  unfold pairBytes at h
  split at h
  · split at h
    · exact .inl (hcut _ _ _ _ h).1
    · exact .inr (hcut _ _ _ _ h).1
  · split at h
    · exact .inr (hcut _ _ _ _ h).2
    · exact .inl (hcut _ _ _ _ h).2

/-! ## Levels -/

/-- The pairs of neighbours on a level; the last node of an odd level is its own neighbour. -/
def pairs : List (Octets 32) → List (Octets 32 × Octets 32)
  | [] => []
  | [last] => [(last, last)]
  | a :: b :: rest => (a, b) :: pairs rest

def parents (nodes : List (Octets 32)) : List (Octets 32) :=
  (pairs nodes).map fun pair => hashPair pair.1 pair.2

theorem length_parents (nodes : List (Octets 32)) :
    (parents nodes).length = (nodes.length + 1) / 2 := by
  rw [parents, List.length_map]
  induction nodes using pairs.induct with
  | case1 => rfl
  | case2 last => simp [pairs]
  | case3 a b rest ih =>
    rw [pairs, List.length_cons, ih, List.length_cons, List.length_cons]
    omega

/-- A level and all levels above it, up to the first one of at most one node. -/
def levels (nodes : List (Octets 32)) : List (List (Octets 32)) :=
  if nodes.length ≤ 1 then [nodes] else nodes :: levels (parents nodes)
termination_by nodes.length
decreasing_by
  rw [length_parents]
  omega

/-- The root of the tree over a level. -/
def root? (nodes : List (Octets 32)) : Option (Octets 32) :=
  (levels nodes).getLast?.bind List.head?

def height (nodes : List (Octets 32)) : Nat := (levels nodes).length - 1

/-- The byte strings that are hashed into the level above. -/
def parentInputs (nodes : List (Octets 32)) : List Bytes :=
  (pairs nodes).map fun pair => pairBytes pair.1 pair.2

/-- The byte strings that are hashed into all levels above. -/
def innerInputs (nodes : List (Octets 32)) : List Bytes :=
  (levels nodes).dropLast.flatMap parentInputs

variable {nodes : List (Octets 32)} {node root : Octets 32} {siblings : List (Octets 32)}

theorem levels_ne_nil (nodes : List (Octets 32)) : levels nodes ≠ [] := by
  rw [levels]
  split <;> exact List.cons_ne_nil _ _

theorem root?_of_single (h : nodes.length ≤ 1) : root? nodes = nodes.head? := by
  rw [root?, levels, if_pos h]
  rfl

theorem root?_parents (h : ¬ nodes.length ≤ 1) : root? nodes = root? (parents nodes) := by
  rw [root?, levels, if_neg h, List.getLast?_cons, root?]
  rw [List.getLast?_eq_some_getLast (levels_ne_nil (parents nodes))]
  rfl

theorem height_of_single (h : nodes.length ≤ 1) : height nodes = 0 := by
  rw [height, levels, if_pos h]
  rfl

theorem height_parents (h : ¬ nodes.length ≤ 1) : height nodes = height (parents nodes) + 1 := by
  have hpos := List.length_pos_iff.mpr (levels_ne_nil (parents nodes))
  rw [height, levels, if_neg h, List.length_cons, height]
  omega

theorem innerInputs_parents (h : ¬ nodes.length ≤ 1) :
    innerInputs nodes = parentInputs nodes ++ innerInputs (parents nodes) := by
  rw [innerInputs, levels, if_neg h, List.dropLast_cons_of_ne_nil (levels_ne_nil _),
    List.flatMap_cons, innerInputs]

theorem mem_of_mem_pairs (h : (a, b) ∈ pairs nodes) : a ∈ nodes ∧ b ∈ nodes := by
  induction nodes using pairs.induct with
  | case1 => cases h
  | case2 last =>
    rw [pairs, List.mem_singleton, Prod.mk.injEq] at h
    obtain ⟨rfl, rfl⟩ := h
    exact ⟨List.mem_cons_self, List.mem_cons_self⟩
  | case3 x y rest ih =>
    rcases List.mem_cons.mp h with hfirst | hrest
    · obtain ⟨rfl, rfl⟩ := Prod.mk.inj hfirst
      exact ⟨List.mem_cons_self, List.mem_cons_of_mem _ List.mem_cons_self⟩
    · obtain ⟨ha, hb⟩ := ih hrest
      exact ⟨List.mem_cons_of_mem _ (List.mem_cons_of_mem _ ha),
        List.mem_cons_of_mem _ (List.mem_cons_of_mem _ hb)⟩

/-- A node of the level above is the hash of two nodes of the level. -/
theorem exists_pair_of_mem_parents (h : node ∈ parents nodes) :
    ∃ a ∈ nodes, ∃ b ∈ nodes, pairBytes a b ∈ parentInputs nodes
      ∧ node = keccak256 (pairBytes a b) := by
  obtain ⟨⟨a, b⟩, hpair, rfl⟩ := List.mem_map.mp h
  obtain ⟨ha, hb⟩ := mem_of_mem_pairs hpair
  exact ⟨a, ha, b, hb, List.mem_map_of_mem hpair, hashPair_eq a b⟩

theorem length_of_mem_innerInputs {input : Bytes} (h : input ∈ innerInputs nodes) :
    input.length = 64 := by
  obtain ⟨level, -, hinput⟩ := List.mem_flatMap.mp h
  obtain ⟨⟨a, b⟩, -, rfl⟩ := List.mem_map.mp hinput
  exact length_pairBytes a b

/-! ## The way of a proof -/

/-- The byte strings that are hashed when siblings are folded onto a node. -/
def foldInputs : Octets 32 → List (Octets 32) → List Bytes
  | _, [] => []
  | node, sibling :: rest => pairBytes node sibling :: foldInputs (hashPair node sibling) rest

theorem mem_foldInputs (before : List (Octets 32)) (sibling : Octets 32)
    (after : List (Octets 32)) (node : Octets 32) :
    pairBytes (computeRoot node before) sibling
      ∈ foldInputs node (before ++ sibling :: after) := by
  induction before generalizing node with
  | nil => exact List.mem_cons_self
  | cons first before ih => exact List.mem_cons_of_mem _ (ih _)

/-- The last step of a fold is a hash. -/
theorem computeRoot_concat (before : List (Octets 32)) (sibling : Octets 32) :
    computeRoot node (before ++ [sibling]) =
      keccak256 (pairBytes (computeRoot node before) sibling) := by
  rw [computeRoot, List.foldl_append, ← hashPair_eq]
  rfl

/-- **The way down.** A fold that ends in the root came through every level of the tree: it has
entered the lowest one after the steps `before`, or it has started on an inner node. -/
theorem enters_level (hroot : root? nodes = some root) (hfold : computeRoot node siblings = root)
    (hfree : ¬ Collide (innerInputs nodes ++ foldInputs node siblings)) :
    (∃ before after, siblings = before ++ after ∧ after.length = height nodes
        ∧ computeRoot node before ∈ nodes)
      ∨ ∃ input ∈ innerInputs nodes, node = keccak256 input := by
  induction nodes using levels.induct with
  | case1 nodes hsingle =>
    rw [root?_of_single hsingle] at hroot
    refine .inl ⟨siblings, [], (List.append_nil _).symm, (height_of_single hsingle).symm, ?_⟩
    rw [hfold]
    exact List.mem_of_head? hroot
  | case2 nodes hmany ih =>
    rw [root?_parents hmany] at hroot
    rw [innerInputs_parents hmany] at hfree ⊢
    have habove : ¬ Collide (innerInputs (parents nodes) ++ foldInputs node siblings) := by
      refine fun hcollide => hfree (hcollide.mono ?_)
      rw [List.append_assoc]
      exact List.subset_append_right _ _
    rcases ih hroot habove with ⟨before, after, rfl, hafter, hmem⟩ | ⟨input, hinput, rfl⟩
    · -- the level above was entered: by a step from this level, or at the very start
      obtain ⟨a, ha, b, hb, hpair, hnode⟩ := exists_pair_of_mem_parents hmem
      cases before using List.reverseRecOn with
      | nil => exact .inr ⟨_, List.mem_append_left _ hpair, hnode⟩
      | append_singleton before sibling =>
        rw [computeRoot_concat] at hnode
        rw [← List.append_cons] at hfree ⊢
        have hsame := eq_of_not_collide hfree
          (List.mem_append_right _ (mem_foldInputs before sibling after node))
          (List.mem_append_left _ (List.mem_append_left _ hpair)) hnode
        refine .inl ⟨before, sibling :: after, rfl, ?_, ?_⟩
        · rw [List.length_cons, hafter, height_parents hmany]
        · rcases left_mem_of_pairBytes_eq hsame with hleft | hright
          · exact hleft ▸ ha
          · exact hright ▸ hb
    · exact .inr ⟨input, List.mem_append_right _ hinput, rfl⟩

end MerkleTree

/-! ## Leaves -/

/-- The byte string is a leaf that the encoder writes, of whatever account and position. -/
def LeafEncoder.Writes (encoder : LeafEncoder) (bytes : Bytes) : Prop :=
  ∃ account index leaf, encoder.encodeAt account index = .ok leaf ∧ leaf.bytes = bytes

namespace LeafEncoder.Writes

variable {encoder : LeafEncoder} {bytes input : Bytes} {inputs : List Bytes}

/-- No leaf is as long as two hashes. -/
theorem length_ne (h : encoder.Writes bytes) : bytes.length ≠ 64 := by
  obtain ⟨account, index, leaf, hleaf, rfl⟩ := h
  have hlength := LeafEncoder.length_bytes_mod hleaf
  omega

/-- No inner node has the hash of a leaf. -/
theorem hash_ne (h : encoder.Writes bytes) (hfree : ¬ Collide inputs) (hbytes : bytes ∈ inputs)
    (hinput : input ∈ inputs) (hlength : input.length = 64) :
    keccak256 input ≠ keccak256 bytes := by
  intro heq
  exact h.length_ne (eq_of_not_collide hfree hinput hbytes heq ▸ hlength)

end LeafEncoder.Writes

namespace MerkleTree

/-- The byte strings that are hashed to build the tree over leaves. -/
def treeInputs (leaves : List Bytes) : List Bytes :=
  leaves ++ innerInputs (leaves.map keccak256)

/-- The byte strings that are hashed to check a proof of a leaf. -/
def proofInputs (leaf : Bytes) (siblings : List (Octets 32)) : List Bytes :=
  leaf :: foldInputs (keccak256 leaf) siblings

variable {encoder : LeafEncoder} {leaves : List Bytes} {leaf : Bytes}
  {siblings : List (Octets 32)} {root : Octets 32}

/-- **Membership.** A proof of any length that takes a leaf to the root of a tree proves that the
leaf is one of those of the tree, from which it stands as many steps away as the proof has siblings,
and no inner node has its hash; or else two of the hashed byte strings collide. -/
theorem mem_leaves_or_collide (hleaves : ∀ bytes ∈ leaves, encoder.Writes bytes)
    (hleaf : encoder.Writes leaf) (hroot : root? (leaves.map keccak256) = some root)
    (hverify : verifyProof (keccak256 leaf) siblings root = true) :
    (leaf ∈ leaves ∧ siblings.length = height (leaves.map keccak256)
        ∧ ∀ input ∈ innerInputs (leaves.map keccak256), keccak256 input ≠ keccak256 leaf)
      ∨ Collide (treeInputs leaves ++ proofInputs leaf siblings) := by
  by_cases hcollide : Collide (treeInputs leaves ++ proofInputs leaf siblings)
  · exact .inr hcollide
  · left
    have hmine : leaf ∈ treeInputs leaves ++ proofInputs leaf siblings :=
      List.mem_append_right _ List.mem_cons_self
    have hseparate : ∀ input ∈ innerInputs (leaves.map keccak256),
        keccak256 input ≠ keccak256 leaf := by
      intro input hinput
      exact hleaf.hash_ne hcollide hmine
        (List.mem_append_left _ (List.mem_append_right _ hinput))
        (length_of_mem_innerInputs hinput)
    have hpart : innerInputs (leaves.map keccak256) ++ foldInputs (keccak256 leaf) siblings
        ⊆ treeInputs leaves ++ proofInputs leaf siblings :=
      List.append_subset.mpr
        ⟨fun x hx => List.mem_append_left _ (List.mem_append_right _ hx),
          fun x hx => List.mem_append_right _ (List.mem_cons_of_mem _ hx)⟩
    rcases enters_level hroot (beq_iff_eq.mp hverify) fun h => hcollide (h.mono hpart) with
      ⟨before, after, rfl, hafter, hmem⟩ | ⟨input, hinput, heq⟩
    · obtain ⟨found, hfound, hhash⟩ := List.mem_map.mp hmem
      have hknown : found ∈ treeInputs leaves ++ proofInputs leaf (before ++ after) :=
        List.mem_append_left _ (List.mem_append_left _ hfound)
      cases before using List.reverseRecOn with
      | nil =>
        have hsame := eq_of_not_collide hcollide hknown hmine hhash
        exact ⟨hsame ▸ hfound, hafter, hseparate⟩
      | append_singleton before sibling =>
        -- a step that enters the leaves would hash two nodes to a leaf
        rw [computeRoot_concat] at hhash
        rw [← List.append_cons] at hcollide hknown
        have hstep := mem_foldInputs before sibling after (keccak256 leaf)
        exact absurd hhash.symm ((hleaves found hfound).hash_ne hcollide hknown
          (List.mem_append_right _ (List.mem_cons_of_mem _ hstep)) (length_pairBytes _ _))
    · exact absurd heq.symm (hseparate input hinput)

/-! A tree over three balances of an account, in which the last node of the lowest level is its own
neighbour, and the proof of that node's leaf. -/

/-- Three balances, one of which is zero. -/
def sampleAccount : Account :=
  ⟨⟨Octets.ofNat 20 0x670ece6a4602dc4a6311b634e9293f94374b3c00⟩, 1,
    [⟨"BNB", 1000000000⟩, ⟨"BTCB-1DE", 0⟩, ⟨"XRP-BF2", 500000⟩]⟩

/-- The per-denom leaf of a sample balance. -/
def sampleLeaf (index : Nat) (coin : Coin) : Bytes :=
  sampleAccount.address.octets.bytes ++ Leaf.entryBytes .symbol index coin

def sampleLeaves : List Bytes :=
  [sampleLeaf 0 ⟨"BNB", 1000000000⟩, sampleLeaf 1 ⟨"BTCB-1DE", 0⟩,
    sampleLeaf 2 ⟨"XRP-BF2", 500000⟩]

/-- The proof of the last of the three leaves. -/
def sampleSiblings : List (Octets 32) :=
  [keccak256 (sampleLeaf 2 ⟨"XRP-BF2", 500000⟩),
    hashPair (keccak256 (sampleLeaf 0 ⟨"BNB", 1000000000⟩))
      (keccak256 (sampleLeaf 1 ⟨"BTCB-1DE", 0⟩))]

theorem mem_leaves_or_collide_sample :
    ∃ root, root? (sampleLeaves.map keccak256) = some root
      ∧ verifyProof (keccak256 (sampleLeaf 2 ⟨"XRP-BF2", 500000⟩)) sampleSiblings root = true
      ∧ ((sampleLeaf 2 ⟨"XRP-BF2", 500000⟩ ∈ sampleLeaves
          ∧ sampleSiblings.length = height (sampleLeaves.map keccak256)
          ∧ ∀ input ∈ innerInputs (sampleLeaves.map keccak256),
            keccak256 input ≠ keccak256 (sampleLeaf 2 ⟨"XRP-BF2", 500000⟩))
        ∨ Collide (treeInputs sampleLeaves
          ++ proofInputs (sampleLeaf 2 ⟨"XRP-BF2", 500000⟩) sampleSiblings)) := by
  have hentry : ∀ index coin, sampleAccount.balances[index]? = some coin → coin.Encodable →
      LeafEncoder.Writes ⟨.perDenom, .symbol⟩ (sampleLeaf index coin) := by
    intro index coin hcoin hencodable
    exact ⟨sampleAccount, index, _,
      LeafEncoder.perDenom_eq_ok_iff.mpr ⟨coin, hcoin, hencodable, rfl⟩, rfl⟩
  have hlast := hentry 2 ⟨"XRP-BF2", 500000⟩ rfl ⟨by decide, by decide⟩
  have hwrites : ∀ bytes ∈ sampleLeaves, LeafEncoder.Writes ⟨.perDenom, .symbol⟩ bytes := by
    intro bytes hbytes
    simp only [sampleLeaves, List.mem_cons, List.not_mem_nil, or_false] at hbytes
    rcases hbytes with rfl | rfl | rfl
    · exact hentry 0 _ rfl ⟨by decide, by decide⟩
    · exact hentry 1 _ rfl ⟨by decide, by decide⟩
    · exact hlast
  have hroot : ∀ a b c, root? [a, b, c] = some (hashPair (hashPair a b) (hashPair c c)) := by
    intro a b c
    rw [root?_parents (by simp), root?_parents (by simp [parents, pairs])]
    exact root?_of_single (by simp [parents, pairs])
  have hverify : ∀ a b c,
      verifyProof c [c, hashPair a b] (hashPair (hashPair a b) (hashPair c c)) = true :=
    fun a b c => beq_iff_eq.mpr (hashPair_comm _ _)
  exact ⟨_, hroot _ _ _, hverify _ _ _,
    mem_leaves_or_collide hwrites hlast (hroot _ _ _) (hverify _ _ _)⟩

end MerkleTree

end TokenApproval

/-! ## Proofs from the snapshot tree

The proof of a leaf lists, level by level, the neighbour of the node that stands above the leaf: on
the level `k` that node has the position of the leaf divided by `2 ^ k`. The fold over such a proof
stands on the node of each level in turn. It knows no positions, and needs none, since two nodes
have one parent in either order; the last node of an odd level is folded onto itself, as it is in
the tree. So every leaf of a tree of any size reaches its root. -/

namespace TokenApproval.MerkleTree

/-! ### Neighbours -/

/-- The node beside a position of a level: the other node of its pair, or the node itself if it is
the last one of an odd level. -/
def neighbour? (nodes : List (Octets 32)) (position : Nat) : Option (Octets 32) :=
  nodes[if position % 2 = 0 then position + 1 else position - 1]?.or nodes[position]?

variable {nodes : List (Octets 32)} {node : Octets 32} {position : Nat}

theorem neighbour?_add_two (a b : Octets 32) (nodes : List (Octets 32)) (position : Nat) :
    neighbour? (a :: b :: nodes) (position + 2) = neighbour? nodes position := by
  unfold neighbour?
  rw [Nat.add_mod_right]
  by_cases heven : position % 2 = 0
  · simp only [if_pos heven, List.getElem?_cons_succ]
  · obtain ⟨before, rfl⟩ : ∃ n, position = n + 1 := ⟨position - 1, by omega⟩
    simp only [if_neg heven, Nat.add_sub_cancel, List.getElem?_cons_succ]
    rfl

/-- The parent of a node is that of the node and its neighbour, and stands at half the position. -/
theorem exists_neighbour (h : nodes[position]? = some node) :
    ∃ sibling, neighbour? nodes position = some sibling
      ∧ (parents nodes)[position / 2]? = some (hashPair node sibling) := by
  induction nodes using pairs.induct generalizing position with
  | case1 => cases h
  | case2 last =>
    obtain ⟨hposition, hlast⟩ := List.getElem?_eq_some_iff.mp h
    obtain rfl : position = 0 := Nat.lt_one_iff.mp hposition
    obtain rfl : last = node := hlast
    exact ⟨last, rfl, rfl⟩
  | case3 a b rest ih =>
    rcases position with _ | _ | position
    · obtain rfl := Option.some.inj h
      exact ⟨b, rfl, rfl⟩
    · -- the one place where a fold meets the node on the right first
      obtain rfl := Option.some.inj h
      exact ⟨a, rfl, congrArg some (hashPair_comm a b)⟩
    · obtain ⟨sibling, hsibling, hparent⟩ := ih h
      refine ⟨sibling, ?_, ?_⟩
      · rw [neighbour?_add_two]
        exact hsibling
      · rw [Nat.add_div_right position (Nat.succ_pos 1)]
        exact hparent

/-! ### The proof of a leaf -/

/-- The siblings of the leaf at a position, from the lowest level up. -/
def siblings (leaves : List (Octets 32)) (position : Nat) : List (Octets 32) :=
  (levels leaves).dropLast.zipIdx.filterMap fun level =>
    neighbour? level.1 (position / Nat.pow 2 level.2)

theorem siblings_of_single (h : nodes.length ≤ 1) (position : Nat) :
    siblings nodes position = [] := by
  rw [siblings, levels, if_pos h]
  rfl

/-- Above its own sibling a leaf has the siblings of its parent. -/
theorem siblings_parents (h : ¬ nodes.length ≤ 1) {sibling : Octets 32}
    (hsibling : neighbour? nodes position = some sibling) :
    siblings nodes position = sibling :: siblings (parents nodes) (position / 2) := by
  have hhalf (k : Nat) : position / Nat.pow 2 (k + 1) = position / 2 / Nat.pow 2 k := by
    rw [Nat.div_div_eq_div_mul, Nat.mul_comm]
    rfl
  rw [siblings, levels, if_neg h, List.dropLast_cons_of_ne_nil (levels_ne_nil _),
    List.zipIdx_cons', List.filterMap_cons_some (b := sibling), List.filterMap_map, siblings]
  · congr 2
    funext level
    exact congrArg (neighbour? level.1) (hhalf level.2)
  · show neighbour? nodes (position / 1) = some sibling
    rw [Nat.div_one]
    exact hsibling

/-- The fold goes up one level with each sibling, and ends on the level of the root. -/
theorem climbs (h : nodes[position]? = some node) :
    root? nodes = some (computeRoot node (siblings nodes position))
      ∧ (siblings nodes position).length = height nodes := by
  induction nodes using levels.induct generalizing position node with
  | case1 nodes hsingle =>
    obtain ⟨hposition, -⟩ := List.getElem?_eq_some_iff.mp h
    obtain rfl : position = 0 := by omega
    rw [root?_of_single hsingle, siblings_of_single hsingle, height_of_single hsingle,
      List.head?_eq_getElem?, h]
    exact ⟨rfl, rfl⟩
  | case2 nodes hmany ih =>
    obtain ⟨sibling, hsibling, hparent⟩ := exists_neighbour h
    obtain ⟨hroot, hlength⟩ := ih hparent
    rw [root?_parents hmany, height_parents hmany, siblings_parents hmany hsibling,
      List.length_cons, hlength, hroot]
    exact ⟨rfl, rfl⟩

/-- **Completeness.** Whatever the number of leaves, the siblings of each leaf take it to the root
of the tree, in as many steps as there are levels above the leaves; no step depends on the order of
the two nodes that it hashes. -/
theorem verifyProof_siblings {leaves : List (Octets 32)} (h : position < leaves.length) :
    (∃ root, root? leaves = some root
      ∧ verifyProof leaves[position] (siblings leaves position) root = true)
      ∧ (siblings leaves position).length = height leaves
      ∧ ∀ a b, hashPair a b = hashPair b a := by
  obtain ⟨hroot, hlength⟩ := climbs (List.getElem?_eq_getElem h)
  exact ⟨⟨_, hroot, beq_self_eq_true _⟩, hlength, hashPair_comm⟩

/-! The last of five leaves is its own neighbour, as its parent is on the next level. -/

theorem siblings_of_five (a b c d e : Octets 32) :
    siblings [a, b, c, d, e] 4 =
      [e, hashPair e e, hashPair (hashPair a b) (hashPair c d)] := by
  rw [siblings_parents (by simp) rfl, siblings_parents (by simp [parents, pairs]) rfl,
    siblings_parents (by simp [parents, pairs]) rfl,
    siblings_of_single (by simp [parents, pairs])]

def fiveLeaves : List (Octets 32) := [1, 2, 3, 4, 5].map (Octets.ofNat 32)

theorem verifyProof_siblings_five :
    4 < fiveLeaves.length
      ∧ siblings fiveLeaves 4 =
        [Octets.ofNat 32 5, hashPair (Octets.ofNat 32 5) (Octets.ofNat 32 5),
          hashPair (hashPair (Octets.ofNat 32 1) (Octets.ofNat 32 2))
            (hashPair (Octets.ofNat 32 3) (Octets.ofNat 32 4))]
      ∧ (∃ root, root? fiveLeaves = some root
        ∧ verifyProof (Octets.ofNat 32 5) (siblings fiveLeaves 4) root = true)
      ∧ (siblings fiveLeaves 4).length = height fiveLeaves
      ∧ ∀ a b, hashPair a b = hashPair b a :=
  have hlast : 4 < fiveLeaves.length := by decide
  ⟨hlast, siblings_of_five _ _ _ _ _, verifyProof_siblings hlast⟩

end TokenApproval.MerkleTree
