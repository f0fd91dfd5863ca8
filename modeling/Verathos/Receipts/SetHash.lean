import Mathlib.Data.Prod.Lex
import Mathlib.Data.String.Basic
import Verathos.Lib.StableSort
import Verathos.Receipts.Defs

/-!
# The hash of a receipt set

A translation of `compute_receipt_set_hash` of `neurons/scoring.py`, which hashes five fields of the
organic receipts of an epoch, sorted by three of them.

* `forall_perm_stream_iff`: the hashed bytes are the same for every order of the receipts exactly
  when receipts that agree on the three sorted fields agree on the two others, or when a field does
  not fit and the call raises for every order.
* `fields_perm_iff_of_stream_eq`: receipts with the same hashed bytes agree in the five fields exactly
  when their addresses and model ids have the same lengths, in the sorted order. The strings are
  hashed without their lengths.
-/

namespace Verathos.Receipts

open StableSort

/-- `b"VERATHOS_RECEIPT_SET_V1"`. -/
def receiptSetDomain : Bytes := asciiBytes "VERATHOS_RECEIPT_SET_V1"

/-- The organic receipts of an epoch. -/
def organic (allReceipts : List ServiceReceipt) (epochNumber : ℤ) : List ServiceReceipt :=
  allReceipts.filter fun r => r.epochNumber = epochNumber ∧ ¬ r.isCanary

/-- The key of the sort: miner address, model id and timestamp. -/
def sortKey (r : ServiceReceipt) : String ×ₗ String ×ₗ ℤ :=
  toLex (r.minerAddress, toLex (r.modelId, r.timestamp))

/-- What is hashed for one receipt. -/
def receiptBytes (r : ServiceReceipt) : Result Bytes := do
  let timestamp ← packQ r.timestamp
  let tokensGenerated ← packQ r.tokensGenerated
  return utf8 r.minerAddress ++ (utf8 r.modelId ++ (timestamp ++ (tokensGenerated ++
    packD r.tokensPerSec)))

/-- Everything that is hashed. -/
def receiptSetStream (allReceipts : List ServiceReceipt) (epochNumber : ℤ) : Result Bytes := do
  let epoch ← packQ epochNumber
  let receipts : List Bytes ← (sortBy sortKey (organic allReceipts epochNumber)).mapM receiptBytes
  return receiptSetDomain ++ (epoch ++ receipts.flatten)

def computeReceiptSetHash (sha256 : Bytes → Digest) (allReceipts : List ServiceReceipt)
    (epochNumber : ℤ) : Result Digest := do
  let stream ← receiptSetStream allReceipts epochNumber
  return sha256 stream

/-! ## Receipts and their bytes -/

/-- The integers of a receipt that are hashed fit. -/
def Packs (r : ServiceReceipt) : Prop := FitsQ r.timestamp ∧ FitsQ r.tokensGenerated

/-- The fields that are hashed but not sorted. -/
def measured (r : ServiceReceipt) : ℤ × Double := (r.tokensGenerated, r.tokensPerSec)

/-- The five hashed fields. -/
def hashedFields (r : ServiceReceipt) : String × String × ℤ × ℤ × Double :=
  (r.minerAddress, r.modelId, r.timestamp, r.tokensGenerated, r.tokensPerSec)

/-- The lengths of the two strings of a receipt. -/
def stringLengths (r : ServiceReceipt) : ℕ × ℕ :=
  ((utf8 r.minerAddress).length, (utf8 r.modelId).length)

/-- The bytes of a receipt whose integers fit. -/
def layout (r : ServiceReceipt) : Bytes :=
  utf8 r.minerAddress ++ (utf8 r.modelId ++ (BigEndian.toBytesSigned 8 r.timestamp ++
    (BigEndian.toBytesSigned 8 r.tokensGenerated ++ packD r.tokensPerSec)))

variable {r : ServiceReceipt}

theorem receiptBytes_eq_ok {bytes : Bytes} :
    receiptBytes r = .ok bytes ↔ Packs r ∧ bytes = layout r := by
  simp only [receiptBytes, bind_eq_ok, packQ_eq_ok, pure_eq_ok]
  constructor
  · rintro ⟨_, ⟨htimestamp, rfl⟩, _, ⟨htokens, rfl⟩, rfl⟩
    exact ⟨⟨htimestamp, htokens⟩, rfl⟩
  · rintro ⟨⟨htimestamp, htokens⟩, rfl⟩
    exact ⟨_, ⟨htimestamp, rfl⟩, _, ⟨htokens, rfl⟩, rfl⟩

/-- The only exception is that of `struct.pack`. -/
theorem receiptBytes_eq_error (h : ¬ Packs r) : receiptBytes r = .error structError := by
  unfold receiptBytes packQ raiseIf
  by_cases htimestamp : FitsQ r.timestamp
  · have htokens : ¬ FitsQ r.tokensGenerated := fun htokens => h ⟨htimestamp, htokens⟩
    simp [htimestamp, htokens, bind, Except.bind, pure, Except.pure]
  · simp [htimestamp, bind, Except.bind]

variable {l : List ServiceReceipt}

variable {epoch : ℤ}

theorem receiptSetStream_eq_ok {stream : Bytes} :
    receiptSetStream l epoch = .ok stream ↔
      (FitsQ epoch ∧ ∀ r ∈ organic l epoch, Packs r) ∧
        stream = receiptSetDomain ++ (BigEndian.toBytesSigned 8 epoch ++
          ((sortBy sortKey (organic l epoch)).map layout).flatten) := by
  simp only [receiptSetStream, bind_eq_ok, packQ_eq_ok, pure_eq_ok,
    mapM_eq_ok_of_iff fun r bytes => @receiptBytes_eq_ok r bytes, mem_sortBy]
  constructor
  · rintro ⟨_, ⟨hepoch, rfl⟩, _, ⟨hpacks, rfl⟩, rfl⟩
    exact ⟨⟨hepoch, hpacks⟩, rfl⟩
  · rintro ⟨⟨hepoch, hpacks⟩, rfl⟩
    exact ⟨_, ⟨hepoch, rfl⟩, _, ⟨hpacks, rfl⟩, rfl⟩

theorem mapM_eq_error {α β : Type} {f : α → Result β} {e : PyError} {items : List α}
    (hf : ∀ a ∈ items, (∃ b, f a = .ok b) ∨ f a = .error e) (h : ∃ a ∈ items, f a = .error e) :
    items.mapM f = .error e := by
  induction items with
  | nil => simp at h
  | cons a items ih =>
    obtain ⟨hhead, hrest⟩ := List.forall_mem_cons.mp hf
    rw [List.mapM_cons]
    rcases hhead with ⟨b, hb⟩ | herror
    · have hitems := ih hrest ?_
      · rw [hb, hitems]
        rfl
      · obtain ⟨a', ha', herror⟩ := h
        rcases List.mem_cons.mp ha' with rfl | ha'
        · rw [hb] at herror
          cases herror
        · exact ⟨a', ha', herror⟩
    · rw [herror]
      rfl

theorem receiptSetStream_eq_error (h : ¬ (FitsQ epoch ∧ ∀ r ∈ organic l epoch, Packs r)) :
    receiptSetStream l epoch = .error structError := by
  unfold receiptSetStream
  by_cases hepoch : FitsQ epoch
  · have hexists : ∃ r ∈ sortBy sortKey (organic l epoch), receiptBytes r = .error structError := by
      by_contra hnone
      push Not at hnone
      refine h ⟨hepoch, fun r hr => ?_⟩
      by_contra hr'
      exact hnone r ((mem_sortBy _).mpr hr) (receiptBytes_eq_error hr')
    rw [mapM_eq_error (fun r _ => ?_) hexists, packQ_eq_ok.mpr ⟨hepoch, rfl⟩]
    · rfl
    · by_cases hr : Packs r
      · exact Or.inl ⟨_, receiptBytes_eq_ok.mpr ⟨hr, rfl⟩⟩
      · exact Or.inr (receiptBytes_eq_error hr)
  · simp [packQ, raiseIf, hepoch, bind, Except.bind]

theorem map_eq_of_flatten_eq {α : Type} {f : α → Bytes} {xs ys : List α}
    (hlength : xs.map (fun x => (f x).length) = ys.map fun y => (f y).length)
    (h : (xs.map f).flatten = (ys.map f).flatten) : xs.map f = ys.map f := by
  induction xs generalizing ys with
  | nil => rw [List.map_nil, List.map_eq_nil_iff.mp hlength.symm, List.map_nil]
  | cons x xs ih =>
    obtain ⟨y, ys, rfl⟩ := List.exists_cons_of_ne_nil (l := ys) (by rintro rfl; simp at hlength)
    simp only [List.map_cons, List.cons.injEq, List.flatten_cons] at hlength h ⊢
    obtain ⟨hblock, hrest⟩ := List.append_inj h hlength.1
    exact ⟨hblock, ih hlength.2 hrest⟩

theorem map_eq_map_of_forall {α β γ : Type} {f : α → β} {g : α → γ} {xs ys : List α}
    (h : xs.map f = ys.map f) (hfg : ∀ x ∈ xs, ∀ y ∈ ys, f x = f y → g x = g y) :
    xs.map g = ys.map g := by
  induction xs generalizing ys with
  | nil => rw [List.map_nil, List.map_eq_nil_iff.mp h.symm, List.map_nil]
  | cons x xs ih =>
    obtain ⟨y, ys, rfl⟩ := List.exists_cons_of_ne_nil (l := ys) (by rintro rfl; simp at h)
    simp only [List.map_cons, List.cons.injEq] at h ⊢
    exact ⟨hfg x List.mem_cons_self y List.mem_cons_self h.1, ih h.2 fun x' hx' y' hy' =>
      hfg x' (List.mem_cons_of_mem _ hx') y' (List.mem_cons_of_mem _ hy')⟩

theorem length_layout (r : ServiceReceipt) :
    (layout r).length = (stringLengths r).1 + ((stringLengths r).2 + 24) := by
  simp [layout, stringLengths]

variable {s : ServiceReceipt}

/-- Receipts with strings of the same lengths have the same bytes only if they agree. -/
theorem hashedFields_eq_of_layout_eq (hr : Packs r) (hs : Packs s)
    (hlength : stringLengths r = stringLengths s) (h : layout r = layout s) :
    hashedFields r = hashedFields s := by
  obtain ⟨haddress, hmodel⟩ := Prod.mk.inj hlength
  unfold layout at h
  obtain ⟨haddress, h⟩ := List.append_inj h haddress
  obtain ⟨hmodel, h⟩ := List.append_inj h hmodel
  obtain ⟨htimestamp, h⟩ := List.append_inj h (by simp)
  obtain ⟨htokens, hspeed⟩ := List.append_inj h (by simp)
  rw [hashedFields, hashedFields, utf8_injective haddress, utf8_injective hmodel,
    toBytesSigned_inj_of_fitsQ hr.1 hs.1 htimestamp, toBytesSigned_inj_of_fitsQ hr.2 hs.2 htokens,
    packD_injective hspeed]

/-- The lengths of the strings and of the bytes of a receipt are those of its key. -/
def keyLength (key : String ×ₗ String ×ₗ ℤ) : ℕ :=
  (utf8 (ofLex key).1).length + ((utf8 (ofLex (ofLex key).2).1).length + 24)

theorem length_layout_eq (r : ServiceReceipt) : (layout r).length = keyLength (sortKey r) :=
  length_layout r

theorem stringLengths_eq_of_sortKey_eq (h : sortKey r = sortKey s) :
    r.minerAddress = s.minerAddress ∧ r.modelId = s.modelId ∧ r.timestamp = s.timestamp := by
  simpa [sortKey] using h

/-- Receipts with one key have the same bytes exactly when they agree on the other two fields. -/
theorem layout_eq_iff_of_sortKey_eq (hr : Packs r) (hs : Packs s) (hkey : sortKey r = sortKey s) :
    layout r = layout s ↔ measured r = measured s := by
  obtain ⟨haddress, hmodel, htimestamp⟩ := stringLengths_eq_of_sortKey_eq hkey
  constructor
  · intro h
    have hfields := hashedFields_eq_of_layout_eq hr hs
      (by rw [stringLengths, stringLengths, haddress, hmodel]) h
    simp only [hashedFields, Prod.mk.injEq] at hfields
    exact Prod.ext hfields.2.2.2.1 hfields.2.2.2.2
  · intro h
    obtain ⟨htokens, hspeed⟩ := Prod.mk.inj h
    rw [layout, layout, haddress, hmodel, htimestamp, htokens, hspeed]

/-! ## The order of the receipts -/

variable {l' : List ServiceReceipt}

theorem organic_perm (h : l'.Perm l) (epoch : ℤ) : (organic l' epoch).Perm (organic l epoch) :=
  h.filter _

theorem exists_perm_organic_eq {items : List ServiceReceipt} (h : items.Perm (organic l epoch)) :
    ∃ l', l'.Perm l ∧ organic l' epoch = items := by
  refine ⟨items ++ l.filter fun r => ! decide (r.epochNumber = epoch ∧ ¬ r.isCanary), ?_, ?_⟩
  · exact (h.append_right _).trans (List.filter_append_perm _ l)
  · rw [organic, List.filter_append, List.filter_filter]
    have hitems : ∀ r ∈ items, decide (r.epochNumber = epoch ∧ ¬ r.isCanary) = true := fun r hr =>
      (List.mem_filter.mp (h.subset hr)).2
    rw [List.filter_eq_self.mpr hitems]
    simp

/-- Receipts whose integers fit have the same hashed bytes exactly when the bytes of the sorted
receipts agree one by one. -/
theorem stream_eq_iff_of_perm (h : l'.Perm l) (hfits : FitsQ epoch ∧ ∀ r ∈ organic l epoch, Packs r)
    :
    receiptSetStream l' epoch = receiptSetStream l epoch ↔
      (sortBy sortKey (organic l' epoch)).map layout =
        (sortBy sortKey (organic l epoch)).map layout := by
  have hfits' : FitsQ epoch ∧ ∀ r ∈ organic l' epoch, Packs r :=
    ⟨hfits.1, fun r hr => hfits.2 r ((organic_perm h epoch).subset hr)⟩
  rw [receiptSetStream_eq_ok.mpr ⟨hfits, rfl⟩, receiptSetStream_eq_ok.mpr ⟨hfits', rfl⟩,
    Except.ok.injEq, List.append_cancel_left_eq, List.append_cancel_left_eq]
  refine ⟨fun hflatten => map_eq_of_flatten_eq ?_ hflatten, fun heq => by rw [heq]⟩
  simp only [length_layout_eq]
  rw [← Function.comp_def keyLength sortKey, ← List.map_map, ← List.map_map,
    map_key_sortBy sortKey ((organic_perm h epoch).map sortKey)]

theorem forall_perm_stream_iff (l : List ServiceReceipt) (epoch : ℤ) :
    (∀ l', l'.Perm l → receiptSetStream l' epoch = receiptSetStream l epoch) ↔
      ¬ (FitsQ epoch ∧ ∀ r ∈ organic l epoch, Packs r) ∨
        ∀ r ∈ organic l epoch, ∀ s ∈ organic l epoch, sortKey r = sortKey s →
          measured r = measured s := by
  by_cases hfits : FitsQ epoch ∧ ∀ r ∈ organic l epoch, Packs r
  · have hties : (∀ r ∈ organic l epoch, ∀ s ∈ organic l epoch, sortKey r = sortKey s →
        measured r = measured s) ↔
          ∀ r ∈ organic l epoch, ∀ s ∈ organic l epoch, sortKey r = sortKey s →
            layout r = layout s := by
      refine forall₂_congr fun r hr => forall₂_congr fun s hs => forall_congr' fun hkey => ?_
      exact (layout_eq_iff_of_sortKey_eq (hfits.2 r hr) (hfits.2 s hs) hkey).symm
    rw [or_iff_right (not_not_intro hfits), hties, ← forall_perm_map_sortBy_iff sortKey layout]
    constructor
    · intro h items hitems
      obtain ⟨l', hperm, rfl⟩ := exists_perm_organic_eq hitems
      exact (stream_eq_iff_of_perm hperm hfits).mp (h l' hperm)
    · intro h l' hperm
      exact (stream_eq_iff_of_perm hperm hfits).mpr (h _ (organic_perm hperm epoch))
  · refine iff_of_true (fun l' hperm => ?_) (Or.inl hfits)
    rw [receiptSetStream_eq_error hfits, receiptSetStream_eq_error]
    rintro ⟨hepoch, hpacks⟩
    exact hfits ⟨hepoch, fun r hr => hpacks r ((organic_perm hperm epoch).symm.subset hr)⟩

/-! ## The strings -/

theorem fields_perm_iff_of_stream_eq {stream : Bytes} (hl : receiptSetStream l epoch = .ok stream)
    (hl' : receiptSetStream l' epoch = .ok stream) :
    ((organic l epoch).map hashedFields).Perm ((organic l' epoch).map hashedFields) ↔
      (sortBy sortKey (organic l epoch)).map stringLengths =
        (sortBy sortKey (organic l' epoch)).map stringLengths := by
  obtain ⟨⟨-, hpacks⟩, rfl⟩ := receiptSetStream_eq_ok.mp hl
  obtain ⟨⟨-, hpacks'⟩, hstream⟩ := receiptSetStream_eq_ok.mp hl'
  rw [List.append_cancel_left_eq, List.append_cancel_left_eq] at hstream
  constructor
  · intro hperm
    -- the keys are fields, and the lengths are those of the keys
    have hkeys : ((organic l epoch).map sortKey).Perm ((organic l' epoch).map sortKey) := by
      have hmap := hperm.map fun fields => toLex (fields.1, toLex (fields.2.1, fields.2.2.1))
      rwa [List.map_map, List.map_map] at hmap
    have hlengths := congrArg (List.map fun key : String ×ₗ String ×ₗ ℤ =>
      ((utf8 (ofLex key).1).length, (utf8 (ofLex (ofLex key).2).1).length))
      (map_key_sortBy sortKey hkeys)
    rwa [List.map_map, List.map_map] at hlengths
  · intro hlengths
    have hlayouts : (sortBy sortKey (organic l epoch)).map layout =
        (sortBy sortKey (organic l' epoch)).map layout := by
      refine map_eq_of_flatten_eq ?_ hstream
      have hsum := congrArg (List.map fun n : ℕ × ℕ => n.1 + (n.2 + 24)) hlengths
      simpa only [List.map_map, Function.comp_def, ← length_layout] using hsum
    have hboth : (sortBy sortKey (organic l epoch)).map (fun r => (stringLengths r, layout r)) =
        (sortBy sortKey (organic l' epoch)).map fun r => (stringLengths r, layout r) := by
      have hzip := congrArg₂ List.zip hlengths hlayouts
      rwa [List.zip_map', List.zip_map'] at hzip
    have hfields : (sortBy sortKey (organic l epoch)).map hashedFields =
        (sortBy sortKey (organic l' epoch)).map hashedFields := by
      refine map_eq_map_of_forall hboth fun r hr s hs h => ?_
      obtain ⟨hlength, hlayout⟩ := Prod.mk.inj h
      exact hashedFields_eq_of_layout_eq (hpacks r ((mem_sortBy _).mp hr))
        (hpacks' s ((mem_sortBy _).mp hs)) hlength hlayout
    have hperm := (sortBy_perm sortKey (organic l epoch)).map hashedFields
    have hperm' := (sortBy_perm sortKey (organic l' epoch)).map hashedFields
    exact (hperm.symm.trans (hfields ▸ List.Perm.refl _)).trans hperm'

/-! ## The digest -/

/-- Two byte strings have the same digest under every hash function only if they are equal. -/
theorem eq_of_forall_hash_eq {x y : Result Bytes}
    (h : ∀ sha256 : Bytes → Digest, (do return sha256 (← x) : Result Digest) =
      (do return sha256 (← y) : Result Digest)) : x = y := by
  cases x with
  | error e =>
    cases y with
    | error e' => exact congrArg Except.error (Except.error.inj (h fun _ => Digest.zero))
    | ok b => cases h fun _ => Digest.zero
  | ok a =>
    cases y with
    | error e' => cases h fun _ => Digest.zero
    | ok b =>
      -- a function that tells the first string from all others
      have hdigest := Except.ok.inj (h fun m =>
        if m = a then Digest.zero else Digest.fill 1)
      by_contra hne
      simp only [if_pos, if_neg fun hba : b = a => hne (congrArg Except.ok hba.symm)] at hdigest
      exact absurd (congrArg Digest.bytes hdigest) (by decide)

/-- The digest of a receipt set is the same for every order of the receipts, whatever the hash
function, exactly when the call raises for every order or receipts that tie in the sort agree. And
receipts with the same hashed bytes agree as multisets in the five hashed fields exactly when the
lengths of their strings agree in the sorted order. -/
theorem receiptSetHash_faithful_iff (l : List ServiceReceipt) (epoch : ℤ) :
    ((∀ l', l'.Perm l → ∀ sha256,
          computeReceiptSetHash sha256 l' epoch = computeReceiptSetHash sha256 l epoch) ↔
        ¬ (FitsQ epoch ∧ ∀ r ∈ organic l epoch, Packs r) ∨
          ∀ r ∈ organic l epoch, ∀ s ∈ organic l epoch, sortKey r = sortKey s →
            measured r = measured s) ∧
      ∀ (l' : List ServiceReceipt) (stream : Bytes),
        receiptSetStream l epoch = .ok stream → receiptSetStream l' epoch = .ok stream →
          (Multiset.ofList ((organic l epoch).map hashedFields) =
              Multiset.ofList ((organic l' epoch).map hashedFields) ↔
            (sortBy sortKey (organic l epoch)).map stringLengths =
              (sortBy sortKey (organic l' epoch)).map stringLengths) := by
  refine ⟨?_, fun l' stream hl hl' => ?_⟩
  · rw [← forall_perm_stream_iff]
    refine forall₂_congr fun l' _ => ⟨fun h => eq_of_forall_hash_eq h, fun h sha256 => ?_⟩
    rw [computeReceiptSetHash, computeReceiptSetHash, h]
  · rw [Multiset.coe_eq_coe]
    exact fields_perm_iff_of_stream_eq hl hl'

/-- A receipt of epoch one. -/
def sampleReceipt (minerAddress modelId : String) (tokensGenerated : ℤ) : ServiceReceipt where
  minerAddress := minerAddress
  modelId := modelId
  modelIndex := 0
  epochNumber := 1
  commitmentHash := List.replicate 32 7
  timestamp := 1744830464
  ttftMs := 0
  tokensGenerated := tokensGenerated
  generationTimeMs := 0
  tokensPerSec := 0

theorem packs_sampleReceipt (minerAddress modelId : String) {tokensGenerated : ℤ}
    (h : FitsQ tokensGenerated) : Packs (sampleReceipt minerAddress modelId tokensGenerated) :=
  ⟨by norm_num [sampleReceipt, FitsQ], h⟩

theorem stream_sampleReceipt (minerAddress modelId : String) {tokensGenerated : ℤ}
    (h : FitsQ tokensGenerated) :
    receiptSetStream [sampleReceipt minerAddress modelId tokensGenerated] 1 =
      .ok (receiptSetDomain ++ (BigEndian.toBytesSigned 8 1 ++
        [layout (sampleReceipt minerAddress modelId tokensGenerated)].flatten)) := by
  have horganic : organic [sampleReceipt minerAddress modelId tokensGenerated] 1 =
      [sampleReceipt minerAddress modelId tokensGenerated] := rfl
  refine receiptSetStream_eq_ok.mpr ⟨⟨by norm_num [FitsQ], ?_⟩, ?_⟩
  · rw [horganic]
    simpa using packs_sampleReceipt minerAddress modelId h
  · rw [horganic, sortBy_of_pairwise _ (List.pairwise_singleton _ _)]
    rfl

/-- Two receipts of one miner and model in the same second, in both orders; and the same bytes for
receipts whose model ids begin where their addresses end. -/
theorem receiptSetHash_not_faithful :
    (¬ ∀ sha256, computeReceiptSetHash sha256 [sampleReceipt "ab" "c" 1, sampleReceipt "ab" "c" 2] 1 =
        computeReceiptSetHash sha256 [sampleReceipt "ab" "c" 2, sampleReceipt "ab" "c" 1] 1) ∧
      (∃ stream, receiptSetStream [sampleReceipt "ab" "c" 1] 1 = .ok stream ∧
          receiptSetStream [sampleReceipt "a" "bc" 1] 1 = .ok stream) ∧
      Multiset.ofList ((organic [sampleReceipt "ab" "c" 1] 1).map hashedFields) ≠
        Multiset.ofList ((organic [sampleReceipt "a" "bc" 1] 1).map hashedFields) := by
  refine ⟨fun h => ?_, ⟨_, stream_sampleReceipt "ab" "c" (by norm_num [FitsQ]), ?_⟩, ?_⟩
  · have hstream := eq_of_forall_hash_eq h
    have hfits : FitsQ 1 ∧
        ∀ r ∈ organic [sampleReceipt "ab" "c" 2, sampleReceipt "ab" "c" 1] 1, Packs r := by
      refine ⟨by norm_num [FitsQ], fun r hr => ?_⟩
      have hmem := (List.mem_filter.mp hr).1
      simp only [List.mem_cons, List.not_mem_nil, or_false] at hmem
      rcases hmem with rfl | rfl <;> exact packs_sampleReceipt _ _ (by norm_num [FitsQ])
    rw [stream_eq_iff_of_perm (List.Perm.swap _ _ _) hfits] at hstream
    -- the keys tie, so both orders are sorted as they are
    have hsorted : ∀ x y : ℤ, sortBy sortKey (organic [sampleReceipt "ab" "c" x,
        sampleReceipt "ab" "c" y] 1) = [sampleReceipt "ab" "c" x, sampleReceipt "ab" "c" y] :=
      fun x y => sortBy_of_pairwise _ (List.pairwise_pair.mpr le_rfl)
    rw [hsorted, hsorted] at hstream
    exact absurd hstream (by decide)
  · rw [stream_sampleReceipt "a" "bc" (by norm_num [FitsQ])]
    rfl
  · rw [Ne, Multiset.coe_eq_coe]
    intro h
    have hmem := h.subset (List.mem_singleton_self _)
    exact absurd (List.mem_singleton.mp hmem) (by decide)

/-- One receipt and its hashed bytes. -/
theorem receiptSetHash_faithful_iff_sample :
    Multiset.ofList ((organic [sampleReceipt "ab" "c" 1] 1).map hashedFields) =
      Multiset.ofList ((organic [sampleReceipt "ab" "c" 1] 1).map hashedFields) :=
  ((receiptSetHash_faithful_iff _ _).2 _ _ (stream_sampleReceipt "ab" "c" (by norm_num [FitsQ]))
    (stream_sampleReceipt "ab" "c" (by norm_num [FitsQ]))).mpr rfl

end Verathos.Receipts
