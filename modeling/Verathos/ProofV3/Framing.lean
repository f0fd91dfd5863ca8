import Verathos.PrefixCache.Defs

/-!
# Fields of a message

The messages of proof-v3 are fields of fixed widths, one after the other. A message is read from the
left: equal messages have equal first fields and equal rests.
-/

namespace Verathos.ProofV3

open PrefixCache (packI)

@[simp]
theorem length_packI (value : ℕ) : (packI value).length = 4 := LittleEndian.length_toBytes 4 value

theorem packI_append_inj {a b : ℕ} {x y : Bytes} (ha : a < 2 ^ 32) (hb : b < 2 ^ 32)
    (h : packI a ++ x = packI b ++ y) : a = b ∧ x = y := by
  obtain ⟨hvalue, hrest⟩ := List.append_inj h (by simp)
  exact ⟨LittleEndian.toBytes_inj (by simpa using ha) (by simpa using hb) hvalue, hrest⟩

theorem packI_inj {a b : ℕ} (ha : a < 2 ^ 32) (hb : b < 2 ^ 32) (h : packI a = packI b) : a = b :=
  (packI_append_inj ha hb (congrArg (· ++ []) h)).1

theorem digest_append_inj {a b : Digest} {x y : Bytes} (h : a.bytes ++ x = b.bytes ++ y) :
    a = b ∧ x = y := by
  obtain ⟨hbytes, hrest⟩ := List.append_inj h (a.length_eq.trans b.length_eq.symm)
  exact ⟨Digest.ext hbytes, hrest⟩

theorem framed_append_inj {a b x y : Bytes} (ha : a.length < 2 ^ 32) (hb : b.length < 2 ^ 32)
    (h : packI a.length ++ a ++ x = packI b.length ++ b ++ y) : a = b ∧ x = y := by
  rw [List.append_assoc, List.append_assoc] at h
  obtain ⟨hlength, hrest⟩ := packI_append_inj ha hb h
  exact List.append_inj hrest hlength

theorem counted_packI_inj {as bs : List ℕ} (ha : as.length < 2 ^ 32) (hb : bs.length < 2 ^ 32)
    (has : ∀ a ∈ as, a < 2 ^ 32) (hbs : ∀ b ∈ bs, b < 2 ^ 32)
    (h : packI as.length ++ as.flatMap packI = packI bs.length ++ bs.flatMap packI) : as = bs := by
  obtain ⟨hlength, hitems⟩ := packI_append_inj ha hb h
  clear ha hb h
  induction as generalizing bs with
  | nil => exact (List.length_eq_zero_iff.mp hlength.symm).symm
  | cons a as ih =>
    obtain ⟨b, bs, rfl⟩ := List.exists_cons_of_length_eq_add_one hlength.symm
    obtain ⟨hfirst, hrestA⟩ := List.forall_mem_cons.mp has
    obtain ⟨hfirst', hrestB⟩ := List.forall_mem_cons.mp hbs
    rw [List.flatMap_cons, List.flatMap_cons] at hitems
    rw [List.length_cons, List.length_cons, Nat.add_right_cancel_iff] at hlength
    obtain ⟨rfl, hrest⟩ := packI_append_inj hfirst hfirst' hitems
    rw [ih hrestA hrestB hlength hrest]

end Verathos.ProofV3
