import Verathos.Contracts.Basic
import Verathos.Lib.Chains
import Verathos.Lib.SortedSet
import Verathos.Lib.OddMerkle

/-!
# Balance checkpoints

A translation of `_compute_merkle_root` and `record_checkpoint` of `verallm/chain/checkpoint.py`.
The root of a checkpoint is that of a Merkle tree over the sorted leaves, in which every pair of
nodes is sorted again and the last node of an odd level is paired with itself.

- The root does not depend on the order of the leaves (`computeMerkleRoot_perm`).
- Two roots over equally many leaves are different unless both have the same leaves, or two of the
  64-byte messages that they hash collide (`leaves_eq_or_collide`).
- Two checkpoints of equally many users with one root record the same balances, or hashed messages
  collide (`checkpointRoot_binds`).

Keccak-256 is a parameter, and so is the conversion of an address string by the chain library.
-/

namespace Verathos.Chain

open Verathos.Contracts (Address)

/-- Digests are ordered as their bytes are. -/
instance : LinearOrder Digest := LinearOrder.lift' Digest.bytes fun _ _ => Digest.ext

section Root

variable (keccak : Bytes → Digest)

/-- `left + right`, after sorting the pair. -/
def pairMessage (left right : Digest) : Bytes :=
  if right < left then right.bytes ++ left.bytes else left.bytes ++ right.bytes

/-- The node over a pair. -/
def hashPair (left right : Digest) : Digest := keccak (pairMessage left right)

/-- `_compute_merkle_root`. The loop ends with a layer of one node. -/
def computeMerkleRoot (leaves : List Digest) : Digest :=
  match leaves with
  | [] => Digest.zero
  | [leaf] => leaf
  | leaves =>
    (OddMerkle.reduce (hashPair keccak) (SortedSet.sorted leaves)).headD Digest.zero

/-- The messages that `computeMerkleRoot` hashes. -/
def nodeMessages (leaves : List Digest) : List Bytes :=
  (OddMerkle.combined (hashPair keccak) (SortedSet.sorted leaves)).map fun pair =>
    pairMessage pair.1 pair.2

/-- Two different 64-byte messages with one hash, each hashed for one of the roots. -/
def NodeCollision (leaves leaves' : List Digest) : Prop :=
  ∃ m ∈ nodeMessages keccak leaves, ∃ m' ∈ nodeMessages keccak leaves',
    m.length = 64 ∧ m'.length = 64 ∧ m ≠ m' ∧ keccak m = keccak m'

/-! ## Pairs -/

@[simp]
theorem length_pairMessage (left right : Digest) : (pairMessage left right).length = 64 := by
  unfold pairMessage
  split_ifs <;> simp

theorem pairMessage_comm (left right : Digest) : pairMessage left right = pairMessage right left := by
  unfold pairMessage
  rcases lt_trichotomy left right with h | rfl | h
  · rw [if_neg h.not_gt, if_pos h]
  · rfl
  · rw [if_pos h, if_neg h.not_gt]

theorem pairMessage_of_le {left right : Digest} (h : left ≤ right) :
    pairMessage left right = left.bytes ++ right.bytes := if_neg h.not_gt

theorem eq_or_swap_of_pairMessage {pair pair' : Digest × Digest}
    (h : pairMessage pair.1 pair.2 = pairMessage pair'.1 pair'.2) :
    pair = pair' ∨ pair = pair'.swap := by
  obtain ⟨a, b⟩ := pair
  obtain ⟨c, d⟩ := pair'
  have hsorted : ∀ a b c d : Digest, a.bytes ++ b.bytes = c.bytes ++ d.bytes → a = c ∧ b = d := by
    intro a b c d h
    obtain ⟨hleft, hright⟩ := List.append_inj h (by rw [a.length_eq, c.length_eq])
    exact ⟨Digest.ext hleft, Digest.ext hright⟩
  rcases le_total a b with hab | hab <;> rcases le_total c d with hcd | hcd
  · rw [pairMessage_of_le hab, pairMessage_of_le hcd] at h
    obtain ⟨rfl, rfl⟩ := hsorted _ _ _ _ h
    exact .inl rfl
  · rw [pairMessage_of_le hab, pairMessage_comm c, pairMessage_of_le hcd] at h
    obtain ⟨rfl, rfl⟩ := hsorted _ _ _ _ h
    exact .inr rfl
  · rw [pairMessage_comm a, pairMessage_of_le hab, pairMessage_of_le hcd] at h
    obtain ⟨rfl, rfl⟩ := hsorted _ _ _ _ h
    exact .inr rfl
  · rw [pairMessage_comm a, pairMessage_of_le hab, pairMessage_comm c, pairMessage_of_le hcd] at h
    obtain ⟨rfl, rfl⟩ := hsorted _ _ _ _ h
    exact .inl rfl

/-! ## The root -/

variable {keccak}

variable {leaves leaves' : List Digest}

theorem sorted_eq_of_perm (h : leaves.Perm leaves') :
    SortedSet.sorted leaves = SortedSet.sorted leaves' := by
  refine List.Perm.eq_of_pairwise' (List.pairwise_insertionSort (· ≤ ·) _)
    (List.pairwise_insertionSort (· ≤ ·) _) ?_
  exact (List.perm_insertionSort _ _).trans (h.trans (List.perm_insertionSort _ _).symm)

theorem length_sorted (leaves : List Digest) : (SortedSet.sorted leaves).length = leaves.length :=
  (List.perm_insertionSort _ _).length_eq

theorem computeMerkleRoot_eq (leaves : List Digest) :
    computeMerkleRoot keccak leaves =
      (OddMerkle.root (hashPair keccak) (SortedSet.sorted leaves)).getD Digest.zero := by
  match leaves with
  | [] =>
    rw [show SortedSet.sorted ([] : List Digest) = [] from rfl, OddMerkle.root_nil]
    rfl
  | [leaf] =>
    rw [show SortedSet.sorted [leaf] = [leaf] from rfl, OddMerkle.root_singleton]
    rfl
  | a :: b :: rest => exact List.headD_eq_head?_getD

theorem computeMerkleRoot_perm (h : leaves.Perm leaves') :
    computeMerkleRoot keccak leaves = computeMerkleRoot keccak leaves' := by
  rw [computeMerkleRoot_eq, computeMerkleRoot_eq, sorted_eq_of_perm h]

variable (keccak) in
theorem unordered_or_collide (leaves leaves' : List Digest) :
    OddMerkle.Unordered (hashPair keccak)
        (OddMerkle.combined (hashPair keccak) (SortedSet.sorted leaves))
        (OddMerkle.combined (hashPair keccak) (SortedSet.sorted leaves')) ∨
      NodeCollision keccak leaves leaves' := by
  by_cases hcollide : NodeCollision keccak leaves leaves'
  · exact .inr hcollide
  · refine .inl fun pair hpair pair' hpair' heq => eq_or_swap_of_pairMessage ?_
    by_contra hne
    exact hcollide ⟨_, List.mem_map_of_mem hpair, _, List.mem_map_of_mem hpair',
      length_pairMessage _ _, length_pairMessage _ _, hne, heq⟩

theorem leaves_eq_or_collide (hlength : leaves.length = leaves'.length)
    (hroot : computeMerkleRoot keccak leaves = computeMerkleRoot keccak leaves') :
    (∀ leaf, leaf ∈ leaves ↔ leaf ∈ leaves') ∨ NodeCollision keccak leaves leaves' := by
  rcases unordered_or_collide keccak leaves leaves' with hnode | hcollide
  swap
  · exact .inr hcollide
  · rcases eq_or_ne leaves [] with rfl | hne
    · obtain rfl := List.length_eq_zero_iff.mp hlength.symm
      exact .inl fun _ => Iff.rfl
    · have hsorted : ∀ {items : List Digest}, 0 < items.length → SortedSet.sorted items ≠ [] := by
        intro items hpos
        rw [← List.length_pos_iff, length_sorted]
        exact hpos
      have hpos := List.length_pos_iff.mpr hne
      obtain ⟨r, hr⟩ := OddMerkle.exists_root (hashPair keccak) (hsorted hpos)
      obtain ⟨r', hr'⟩ := OddMerkle.exists_root (hashPair keccak) (hsorted (hlength ▸ hpos))
      rw [computeMerkleRoot_eq, computeMerkleRoot_eq, hr, hr', Option.getD_some,
        Option.getD_some] at hroot
      left
      intro leaf
      have hmem := OddMerkle.mem_iff_of_root_eq (by rw [length_sorted, length_sorted, hlength])
        hnode (by rw [hr, hr', hroot]) leaf
      simpa using hmem

end Root

/-! ## Recording a checkpoint -/

/-- A user's balance as a checkpoint records it. -/
structure Balance where
  user : Address
  taoWei : ℤ
  usdMicros : ℤ
deriving DecidableEq

/-- `value.to_bytes(32, "big")`. -/
def toBytes32 (value : ℤ) : Result Bytes := do
  raiseIf (value < 0 ∨ 2 ^ 256 ≤ value) (.builtin "OverflowError")
  return BigEndian.toBytes 32 value.toNat

/-- The message that is hashed to a leaf. -/
def leafMessage (balance : Balance) : Result Bytes := do
  let tao ← toBytes32 balance.taoWei
  let usd ← toBytes32 balance.usdMicros
  return BigEndian.toBytes 20 balance.user ++ tao ++ usd

/-- The arguments of the transaction that records a checkpoint. -/
structure CheckpointCall where
  merkleRoot : Digest
  userCount : ℕ
  totalConsumedWei : ℤ
  totalConsumedUsdMicros : ℤ
deriving DecidableEq

section Record

variable (keccak : Bytes → Digest) (toAddress : String → Result Address)

/-- The balance of one round of the loop. -/
def balanceOf (row : String × ℤ × ℤ) : Result Balance := do
  let user ← toAddress row.1
  return ⟨user, row.2.1, row.2.2⟩

/-- The body of the loop: the leaf of a user. -/
def leafOf (row : String × ℤ × ℤ) : Result Digest := do
  let balance ← balanceOf toAddress row
  let message ← leafMessage balance
  return keccak message

/-- `record_checkpoint`, up to the transaction that it sends. -/
def recordCheckpoint (privateKey : Option String) (users : List String)
    (consumedTao consumedUsd : List ℤ) : Result CheckpointCall := do
  raiseIf (¬(users.length = consumedTao.length ∧ consumedTao.length = consumedUsd.length))
    (.builtin "AssertionError")
  raiseIf (privateKey.getD "" = "") (.builtin "ValueError")
  let rows := users.zip (consumedTao.zip consumedUsd)
  let leaves ← rows.mapM (leafOf keccak toAddress)
  let root := if leaves = [] then Digest.zero else computeMerkleRoot keccak leaves
  return ⟨root, users.length, (rows.map (·.2.1)).sum, (rows.map (·.2.2)).sum⟩

/-- The balances that the arguments of `record_checkpoint` name. -/
def balancesOf (users : List String) (consumedTao consumedUsd : List ℤ) : Result (List Balance) :=
  (users.zip (consumedTao.zip consumedUsd)).mapM (balanceOf toAddress)

/-- The leaf messages of two checkpoints collide: different 84-byte messages with one hash. -/
def LeafCollision (balances balances' : List Balance) : Prop :=
  ∃ balance ∈ balances, ∃ balance' ∈ balances', ∃ m m', leafMessage balance = .ok m ∧
    leafMessage balance' = .ok m' ∧ m.length = 84 ∧ m'.length = 84 ∧ m ≠ m' ∧ keccak m = keccak m'

/-- The leaves of balances. -/
def leavesOf (balances : List Balance) : Result (List Digest) :=
  balances.mapM fun balance => do return keccak (← leafMessage balance)

/-! ## What is recorded -/

variable {keccak toAddress}

variable {bytes : Bytes}

theorem toBytes32_eq_ok {value : ℤ} :
    toBytes32 value = .ok bytes ↔
      (0 ≤ value ∧ value < 2 ^ 256) ∧ bytes = BigEndian.toBytes 32 value.toNat := by
  simp only [toBytes32, bind_eq_ok, raiseIf_eq_ok, pure_eq_ok, not_or, not_lt, not_le]
  constructor
  · rintro ⟨-, hrange, rfl⟩
    exact ⟨hrange, rfl⟩
  · rintro ⟨hrange, rfl⟩
    exact ⟨(), hrange, rfl⟩

theorem toBytes32_inj {a b : ℤ} (ha : toBytes32 a = .ok bytes) (hb : toBytes32 b = .ok bytes) :
    a = b := by
  obtain ⟨⟨ha0, ha⟩, rfl⟩ := toBytes32_eq_ok.mp ha
  obtain ⟨⟨hb0, hb⟩, heq⟩ := toBytes32_eq_ok.mp hb
  have hnat := BigEndian.toBytes_inj (by norm_num; omega) (by norm_num; omega) heq
  omega

variable {balance : Balance} {message : Bytes}

theorem leafMessage_eq_ok :
    leafMessage balance = .ok message ↔ ∃ tao usd, toBytes32 balance.taoWei = .ok tao ∧
      toBytes32 balance.usdMicros = .ok usd ∧
        BigEndian.toBytes 20 balance.user ++ tao ++ usd = message := by
  simp only [leafMessage, bind_eq_ok, pure_eq_ok, exists_and_left]

theorem length_toBytes32 {value : ℤ} (h : toBytes32 value = .ok bytes) : bytes.length = 32 := by
  rw [(toBytes32_eq_ok.mp h).2, BigEndian.length_toBytes]

theorem length_leafMessage (h : leafMessage balance = .ok message) : message.length = 84 := by
  obtain ⟨tao, usd, htao, husd, rfl⟩ := leafMessage_eq_ok.mp h
  rw [List.length_append, List.length_append, BigEndian.length_toBytes, length_toBytes32 htao,
    length_toBytes32 husd]

theorem leafMessage_inj {balance' : Balance} (h : leafMessage balance = .ok message)
    (h' : leafMessage balance' = .ok message) : balance = balance' := by
  obtain ⟨tao, usd, htao, husd, rfl⟩ := leafMessage_eq_ok.mp h
  obtain ⟨tao', usd', htao', husd', heq⟩ := leafMessage_eq_ok.mp h'
  obtain ⟨hfront, rfl⟩ := List.append_inj' heq
    (by rw [length_toBytes32 husd, length_toBytes32 husd'])
  obtain ⟨huser, rfl⟩ := List.append_inj' hfront
    (by rw [length_toBytes32 htao, length_toBytes32 htao'])
  have huser := BigEndian.toBytes_inj (by norm_num; omega) (by norm_num; omega) huser
  obtain ⟨user, taoWei, usdMicros⟩ := balance
  obtain ⟨user', taoWei', usdMicros'⟩ := balance'
  obtain rfl : user = user' := Fin.ext huser.symm
  obtain rfl : taoWei = taoWei' := toBytes32_inj htao htao'
  obtain rfl : usdMicros = usdMicros' := toBytes32_inj husd husd'
  rfl

variable {leaves : List Digest}

theorem leavesOf_eq_ok {balances : List Balance} :
    leavesOf keccak balances = .ok leaves ↔ List.Forall₂ (fun balance leaf =>
      ∃ message, leafMessage balance = .ok message ∧ keccak message = leaf) balances leaves := by
  simp only [leavesOf, mapM_eq_ok, bind_eq_ok, pure_eq_ok]

theorem mapM_leafOf {rows : List (String × ℤ × ℤ)}
    (h : rows.mapM (leafOf keccak toAddress) = .ok leaves) :
    ∃ balances, rows.mapM (balanceOf toAddress) = .ok balances ∧
      leavesOf keccak balances = .ok leaves := by
  rw [mapM_eq_ok] at h
  induction h with
  | nil => exact ⟨[], rfl, rfl⟩
  | @cons row leaf rows leaves hleaf _ ih =>
    obtain ⟨balances, hbalances, hleaves⟩ := ih
    obtain ⟨balance, hbalance, message, hmessage, hpure⟩ :=
      (bind_eq_ok.mp hleaf).imp fun _ h => h.imp_right bind_eq_ok.mp
    refine ⟨balance :: balances, ?_, ?_⟩
    · exact mapM_eq_ok.mpr (.cons hbalance (mapM_eq_ok.mp hbalances))
    · exact leavesOf_eq_ok.mpr (.cons ⟨message, hmessage, pure_eq_ok.mp hpure⟩
        (leavesOf_eq_ok.mp hleaves))

/-- What `record_checkpoint` sends: the root of the leaves of the balances, and their number. -/
theorem recordCheckpoint_spec {privateKey : Option String} {users : List String}
    {consumedTao consumedUsd : List ℤ} {call : CheckpointCall}
    (h : recordCheckpoint keccak toAddress privateKey users consumedTao consumedUsd = .ok call) :
    ∃ balances leaves, balancesOf toAddress users consumedTao consumedUsd = .ok balances ∧
      leavesOf keccak balances = .ok leaves ∧ call.merkleRoot = computeMerkleRoot keccak leaves ∧
        call.userCount = balances.length := by
  simp only [recordCheckpoint, bind_eq_ok, raiseIf_eq_ok, pure_eq_ok, not_not] at h
  obtain ⟨-, ⟨htao, husd⟩, -, -, leaves, hleaves, rfl⟩ := h
  obtain ⟨balances, hbalances, hof⟩ := mapM_leafOf hleaves
  refine ⟨balances, leaves, hbalances, hof, ?_, ?_⟩
  · show (if leaves = [] then Digest.zero else computeMerkleRoot keccak leaves) = _
    split_ifs with hnil
    · rw [hnil]
      rfl
    · rfl
  · show users.length = balances.length
    rw [← (mapM_eq_ok.mp hbalances).length_eq, List.length_zip, List.length_zip, htao, husd]
    omega

theorem exists_mem_of_forall₂ {α β : Type} {r : α → β → Prop} {items : List α} {results : List β}
    (h : List.Forall₂ r items results) {a : α} (ha : a ∈ items) : ∃ b ∈ results, r a b := by
  induction h with
  | nil => cases ha
  | @cons item result items results hr _ ih =>
    rcases List.mem_cons.mp ha with rfl | ha
    · exact ⟨result, List.mem_cons_self, hr⟩
    · obtain ⟨b, hb, hrel⟩ := ih ha
      exact ⟨b, List.mem_cons_of_mem _ hb, hrel⟩

theorem balances_subset_or_collide {balances balances' : List Balance} {leaves' : List Digest}
    (hleaves : leavesOf keccak balances = .ok leaves)
    (hleaves' : leavesOf keccak balances' = .ok leaves') (hsubset : leaves ⊆ leaves') :
    balances ⊆ balances' ∨ LeafCollision keccak balances balances' := by
  by_cases hcollide : LeafCollision keccak balances balances'
  · exact .inr hcollide
  · left
    intro balance hbalance
    obtain ⟨leaf, hleaf, message, hmessage, rfl⟩ :=
      exists_mem_of_forall₂ (leavesOf_eq_ok.mp hleaves) hbalance
    obtain ⟨balance', hbalance', message', hmessage', heq⟩ :=
      exists_mem_of_forall₂ (leavesOf_eq_ok.mp hleaves').flip (hsubset hleaf)
    rcases eq_or_ne message message' with rfl | hne
    · rwa [leafMessage_inj hmessage hmessage']
    · exact absurd ⟨balance, hbalance, balance', hbalance', message, message', hmessage, hmessage',
        length_leafMessage hmessage, length_leafMessage hmessage', hne, heq.symm⟩ hcollide

/-- The root of a checkpoint does not depend on the order of its leaves, and it binds them: over
equally many leaves, two roots are different unless the leaves are the same or hashed nodes collide.
Two checkpoints of equally many users with distinct addresses and one root record the same balances,
unless hashed messages collide. -/
theorem checkpointRoot_binds (keccak : Bytes → Digest) (toAddress : String → Result Address) :
    (∀ leaves leaves', leaves.Perm leaves' →
      computeMerkleRoot keccak leaves = computeMerkleRoot keccak leaves') ∧
    (∀ leaves leaves', leaves.length = leaves'.length →
      computeMerkleRoot keccak leaves = computeMerkleRoot keccak leaves' →
        leaves.toFinset = leaves'.toFinset ∨ NodeCollision keccak leaves leaves') ∧
    ∀ privateKey privateKey' users users' tao tao' usd usd' call call',
      recordCheckpoint keccak toAddress privateKey users tao usd = .ok call →
      recordCheckpoint keccak toAddress privateKey' users' tao' usd' = .ok call' →
      call.userCount = call'.userCount → call.merkleRoot = call'.merkleRoot →
        ∃ balances balances' leaves leaves',
          balancesOf toAddress users tao usd = .ok balances ∧
          balancesOf toAddress users' tao' usd' = .ok balances' ∧
          leavesOf keccak balances = .ok leaves ∧ leavesOf keccak balances' = .ok leaves' ∧
          ((balances.map (·.user)).Nodup → (balances'.map (·.user)).Nodup →
            balances.Perm balances' ∨ NodeCollision keccak leaves leaves' ∨
              LeafCollision keccak balances balances') := by
  refine ⟨fun _ _ => computeMerkleRoot_perm, ?_, ?_⟩
  · intro leaves leaves' hlength hroot
    refine (leaves_eq_or_collide hlength hroot).imp_left fun h => ?_
    ext leaf
    simpa using h leaf
  · intro _ _ _ _ _ _ _ _ call call' hcall hcall' hcount hroot
    obtain ⟨balances, leaves, hbalances, hleaves, hcallRoot, hcallCount⟩ :=
      recordCheckpoint_spec hcall
    obtain ⟨balances', leaves', hbalances', hleaves', hcallRoot', hcallCount'⟩ :=
      recordCheckpoint_spec hcall'
    refine ⟨balances, balances', leaves, leaves', hbalances, hbalances', hleaves, hleaves', ?_⟩
    intro hnodup hnodup'
    have hlength : balances.length = balances'.length := by rw [← hcallCount, ← hcallCount', hcount]
    have hleavesLength : leaves.length = leaves'.length := by
      rw [← (leavesOf_eq_ok.mp hleaves).length_eq, ← (leavesOf_eq_ok.mp hleaves').length_eq, hlength]
    rw [hcallRoot, hcallRoot'] at hroot
    rcases leaves_eq_or_collide hleavesLength hroot with hmem | hcollide
    · rcases balances_subset_or_collide hleaves hleaves' fun _ h => (hmem _).mp h with
        hsubset | hcollide
      · left
        exact (List.subperm_of_subset hnodup.of_map hsubset).perm_of_length_le hlength.ge
      · exact .inr (.inr hcollide)
    · exact .inr (.inl hcollide)

/-- A stand-in for the hash: the last 32 bytes, after 32 zero bytes. -/
def lastBytes (message : Bytes) : Digest :=
  ⟨(message.reverse ++ List.replicate 32 0).take 32, by
    rw [List.length_take, List.length_append, List.length_replicate]
    omega⟩

/-- Two leaves in both orders, and the balance of one user recorded twice. -/
theorem checkpointRoot_binds_sample :
    computeMerkleRoot lastBytes [Digest.zero, lastBytes [1]] =
        computeMerkleRoot lastBytes [lastBytes [1], Digest.zero] ∧
      ([Digest.zero, lastBytes [1]].toFinset = [lastBytes [1], Digest.zero].toFinset ∨
        NodeCollision lastBytes [Digest.zero, lastBytes [1]] [lastBytes [1], Digest.zero]) ∧
      ∃ balances balances' leaves leaves',
        balancesOf (fun _ => .ok 7) ["user"] [1000] [5] = .ok balances ∧
        balancesOf (fun _ => .ok 7) ["user"] [1000] [5] = .ok balances' ∧
        (balances.Perm balances' ∨ NodeCollision lastBytes leaves leaves' ∨
          LeafCollision lastBytes balances balances') := by
  obtain ⟨hperm, hleaves, hrecord⟩ := checkpointRoot_binds lastBytes fun _ => .ok 7
  have hswap := hperm [Digest.zero, lastBytes [1]] [lastBytes [1], Digest.zero] (.swap _ _ _)
  obtain ⟨balances, balances', leaves, leaves', h, h', -, -, hbinds⟩ :=
    hrecord (some "key") (some "key") ["user"] ["user"] [1000] [1000] [5] [5] _ _ rfl rfl rfl rfl
  refine ⟨hswap, hleaves _ _ rfl hswap, balances, balances', leaves, leaves', h, h', hbinds ?_ ?_⟩
  · cases h
    simp
  · cases h'
    simp

end Record

end Verathos.Chain
