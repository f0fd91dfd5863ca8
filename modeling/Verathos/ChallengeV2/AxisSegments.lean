import Mathlib.Data.Nat.Size
import Verathos.Basic
import Verathos.Lib.Intervals

/-!
# The segments of an axis

A translation of `canonical_axis_segments_v2` of `challenge/v2.py`, which cuts an axis greedily into
aligned segments whose sizes are powers of two.

The two loops of the source take a bound on their iterations. `axisSegmentsLoop_eq` says that they
end within it. What carries it is that the loop stands at an offset to which the next size is
already aligned: the sizes never grow, so each of them divides every later offset.
-/

namespace Verathos.ChallengeV2

open Tiling (Tiles cells)

def bitLength (value : ℕ) : ℕ := if value = 0 then 0 else Nat.log2 value + 1

/-- `while offset % size: size >>= 1`, for at most `fuel` steps. At size 0 the remainder raises. -/
def alignedSize (offset : ℕ) : ℕ → ℕ → Option (Result ℕ)
  | 0, _ => none
  | fuel + 1, size =>
    if size = 0 then some (.error (.builtin "ZeroDivisionError"))
    else if offset % size = 0 then some (.ok size)
    else alignedSize offset fuel (size >>> 1)

/-- The loop of `canonical_axis_segments_v2` from a state, for at most `fuel` steps. -/
def axisSegmentsLoop (maximum : ℕ) : ℕ → ℕ → ℕ → Option (Result (List (ℕ × ℕ)))
  | 0, _, _ => none
  | fuel + 1, offset, remaining =>
    if remaining = 0 then some (.ok [])
    else
      match alignedSize offset (fuel + 1) (min maximum (1 <<< (bitLength remaining - 1))) with
      | none => none
      | some (.error error) => some (.error error)
      | some (.ok size) =>
        -- `remaining` is an integer of the source, but no size exceeds it
        (axisSegmentsLoop maximum fuel (offset + size) (remaining - size)).map fun rest =>
          rest.map ((offset, size) :: ·)

/-- `canonical_axis_segments_v2`, whose loops take at most `fuel` steps each. -/
def canonicalAxisSegments (fuel length maximum : ℕ) : Option (Result (List (ℕ × ℕ))) :=
  if length = 0 ∨ maximum = 0 ∨ maximum &&& (maximum - 1) ≠ 0 then
    some (.error (.builtin "ValueError"))
  else axisSegmentsLoop maximum fuel 0 length

theorem one_shiftLeft_bitLength {value : ℕ} (hvalue : 0 < value) :
    1 <<< (bitLength value - 1) = 2 ^ Nat.log2 value := by
  rw [bitLength, if_neg hvalue.ne', Nat.add_sub_cancel, Nat.one_shiftLeft]

variable {remaining : ℕ}

theorem min_maximum_eq {e : ℕ} (hremaining : 0 < remaining) :
    min (2 ^ e) (1 <<< (bitLength remaining - 1)) = 2 ^ min e (Nat.log2 remaining) := by
  rw [one_shiftLeft_bitLength hremaining]
  exact ((pow_right_mono₀ one_le_two).map_min).symm

theorem alignedSize_of_dvd {offset fuel size : ℕ} (hsize : 0 < size) (h : size ∣ offset) :
    alignedSize offset (fuel + 1) size = some (.ok size) := by
  rw [alignedSize, if_neg hsize.ne', if_pos (Nat.mod_eq_zero_of_dvd h)]

/-! ## The greedy cut -/

/-- The number of segments of a remainder, for a maximum of `2 ^ e`: the whole segments, and at most
one for each binary digit of what they leave. -/
def segmentBound (e remaining : ℕ) : ℕ := remaining / 2 ^ e + (remaining % 2 ^ e).size

theorem segmentBound_le (e remaining : ℕ) : segmentBound e remaining ≤ remaining / 2 ^ e + e := by
  have hlt : remaining % 2 ^ e < 2 ^ e := Nat.mod_lt _ (Nat.two_pow_pos e)
  have hsize : (remaining % 2 ^ e).size ≤ e := Nat.size_le.mpr hlt
  rw [segmentBound]
  omega

theorem segmentBound_sub_lt {e : ℕ} (hremaining : 0 < remaining) :
    segmentBound e (remaining - 2 ^ min e (Nat.log2 remaining)) + 1 ≤ segmentBound e remaining := by
  have hlog : 2 ^ Nat.log2 remaining ≤ remaining := Nat.log2_self_le hremaining.ne'
  rcases le_or_gt (2 ^ e) remaining with hle | hlt
  · -- a whole segment: the quotient drops by one
    have he : e ≤ Nat.log2 remaining := (Nat.le_log2 hremaining.ne').mpr hle
    obtain ⟨rest, rfl⟩ := Nat.exists_eq_add_of_le hle
    rw [min_eq_left he, Nat.add_sub_cancel_left, segmentBound, segmentBound,
      Nat.add_div_left _ (Nat.two_pow_pos e), Nat.add_mod_left]
    omega
  · -- the highest binary digit: what is left is shorter
    have he : Nat.log2 remaining < e := (Nat.log2_lt hremaining.ne').mpr hlt
    have hupper : remaining < 2 ^ (Nat.log2 remaining + 1) := Nat.lt_log2_self
    have hrest : remaining - 2 ^ Nat.log2 remaining < 2 ^ Nat.log2 remaining := by
      rw [pow_succ] at hupper
      omega
    have hsize : (remaining - 2 ^ Nat.log2 remaining).size ≤ Nat.log2 remaining :=
      Nat.size_le.mpr hrest
    have hdigits : Nat.log2 remaining < remaining.size := Nat.lt_size.mpr hlog
    rw [min_eq_right he.le, segmentBound, segmentBound, Nat.mod_eq_of_lt hlt,
      Nat.mod_eq_of_lt (by omega), Nat.div_eq_of_lt hlt, Nat.div_eq_of_lt (by omega)]
    omega

/-- A segment is a power of two of at most `2 ^ e` cells, and begins at a multiple of its size. -/
def Aligned (e : ℕ) (segment : ℕ × ℕ) : Prop :=
  (∃ k ≤ e, segment.2 = 2 ^ k) ∧ segment.2 ∣ segment.1

theorem axisSegmentsLoop_eq {e offset : ℕ} (halign : 2 ^ min e (Nat.log2 remaining) ∣ offset) :
    ∃ segments, (∀ fuel, remaining < fuel →
        axisSegmentsLoop (2 ^ e) fuel offset remaining = some (.ok segments)) ∧
      Tiles offset (offset + remaining) segments ∧ (∀ segment ∈ segments, Aligned e segment) ∧
      segments.length ≤ segmentBound e remaining := by
  induction hr : remaining using Nat.strong_induction_on generalizing offset remaining with
  | _ r ih =>
    subst hr
    rcases Nat.eq_zero_or_pos remaining with rfl | hremaining
    · refine ⟨[], fun fuel hfuel => ?_, rfl, by simp, Nat.zero_le _⟩
      obtain ⟨fuel, rfl⟩ := Nat.exists_eq_succ_of_ne_zero hfuel.ne'
      rfl
    · set size := 2 ^ min e (Nat.log2 remaining) with hsize
      have hpos : 0 < size := Nat.two_pow_pos _
      have hle : size ≤ remaining :=
        (Nat.pow_le_pow_right two_pos (min_le_right _ _)).trans (Nat.log2_self_le hremaining.ne')
      have halign' : 2 ^ min e (Nat.log2 (remaining - size)) ∣ offset + size := by
        have hlog : Nat.log2 (remaining - size) ≤ Nat.log2 remaining := by
          rw [Nat.log2_eq_log_two, Nat.log2_eq_log_two]
          exact Nat.log_mono_right (Nat.sub_le _ _)
        have hdvd : 2 ^ min e (Nat.log2 (remaining - size)) ∣ size :=
          pow_dvd_pow 2 (min_le_min_left e hlog)
        exact dvd_add (hdvd.trans halign) hdvd
      obtain ⟨segments, hloop, htiles, hsegments, hlength⟩ :=
        ih (remaining - size) (by omega) halign' rfl
      refine ⟨(offset, size) :: segments, fun fuel hfuel => ?_, ⟨rfl, hpos, ?_⟩, ?_, ?_⟩
      · obtain ⟨fuel, rfl⟩ := Nat.exists_eq_succ_of_ne_zero (Nat.ne_zero_of_lt hfuel)
        rw [axisSegmentsLoop, if_neg hremaining.ne', min_maximum_eq hremaining, ← hsize,
          alignedSize_of_dvd hpos halign]
        simp only [hloop fuel (by omega), Option.map_some]
        rfl
      · rwa [show offset + remaining = offset + size + (remaining - size) by omega]
      · rw [List.forall_mem_cons]
        exact ⟨⟨⟨_, min_le_left _ _, rfl⟩, halign⟩, hsegments⟩
      · have hstep := segmentBound_sub_lt (e := e) hremaining
        rw [← hsize] at hstep
        rw [List.length_cons]
        omega

/-- The axis is cut into consecutive aligned segments, and the loops end. -/
theorem canonicalAxisSegments_partition {length maximum : ℕ} (hlength : 1 ≤ length)
    (hmaximum : ∃ e, maximum = 2 ^ e) :
    ∃ segments, (∀ fuel, length < fuel →
        canonicalAxisSegments fuel length maximum = some (.ok segments)) ∧
      Tiles 0 length segments ∧ segments.flatMap cells = List.range length ∧
      (∀ segment ∈ segments, (∃ k, segment.2 = 2 ^ k) ∧ segment.2 ≤ maximum ∧
        segment.2 ∣ segment.1) ∧
      segments.length ≤ length / maximum + Nat.log2 maximum + 1 := by
  obtain ⟨e, rfl⟩ := hmaximum
  obtain ⟨segments, hloop, htiles, hsegments, hcount⟩ :=
    axisSegmentsLoop_eq (dvd_zero (2 ^ min e (Nat.log2 length)))
  rw [Nat.zero_add] at htiles
  refine ⟨segments, fun fuel hfuel => ?_, htiles, ?_, fun segment hsegment => ?_, ?_⟩
  · have hguard : ¬ (length = 0 ∨ 2 ^ e = 0 ∨ 2 ^ e &&& (2 ^ e - 1) ≠ 0) := by
      have hpos := Nat.two_pow_pos e
      have hand : 2 ^ e &&& (2 ^ e - 1) = 0 := by
        rw [Nat.and_two_pow_sub_one_eq_mod, Nat.mod_self]
      omega
    rw [canonicalAxisSegments, if_neg hguard]
    exact hloop fuel hfuel
  · rw [htiles.flatMap_cells, Nat.sub_zero, List.range_eq_range']
  · obtain ⟨⟨k, hk, hsize⟩, hdvd⟩ := hsegments segment hsegment
    exact ⟨⟨k, hsize⟩, hsize ▸ Nat.pow_le_pow_right two_pos hk, hdvd⟩
  · have hbound := segmentBound_le e length
    rw [Nat.log2_two_pow]
    omega

/-- An axis of thirteen cells, with a maximum of four. -/
theorem canonicalAxisSegments_partition_small :
    1 ≤ 13 ∧ (∃ e, 4 = 2 ^ e) ∧
      canonicalAxisSegments 14 13 4 = some (.ok [(0, 4), (4, 4), (8, 4), (12, 1)]) ∧
      ∃ segments, (∀ fuel, 13 < fuel →
          canonicalAxisSegments fuel 13 4 = some (.ok segments)) ∧
        Tiles 0 13 segments ∧ segments.flatMap cells = List.range 13 ∧
        (∀ segment ∈ segments, (∃ k, segment.2 = 2 ^ k) ∧ segment.2 ≤ 4 ∧
          segment.2 ∣ segment.1) ∧
        segments.length ≤ 13 / 4 + Nat.log2 4 + 1 :=
  ⟨by decide, ⟨2, rfl⟩, by decide, canonicalAxisSegments_partition (by decide) ⟨2, rfl⟩⟩

end Verathos.ChallengeV2
