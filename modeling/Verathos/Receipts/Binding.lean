import Verathos.Receipts.Transport
import Verathos.Receipts.Verify

/-!
# What a receipt signature binds

The message of a receipt determines the fields of its version once the length of the commitment hash
is known: every other text carries its length, and the hotkey has 32 bytes.

* `layoutV1`, …, `layoutV4`: the messages of receipts whose fields fit.
* `coveredV1`, …, `coveredV4`: a receipt with the fields that a version does not cover reset.
* `agrees_iff_sameShape`: receipts with one message agree on the covered fields exactly when their
  commitment hashes and hotkeys have the same lengths and their layouts both have a tag or both have
  none.
* `receiptSignatures_bind_iff`: the same for a receipt that was accepted through its primary
  signature and a receipt that the holder of its key passed to `sign_receipt`.
-/

namespace Verathos.Receipts

/-! ## Texts with their lengths -/

/-- A byte string with its length before it. -/
def sized (bytes : Bytes) : Bytes := BigEndian.toBytes 4 bytes.length ++ bytes

theorem packText_eq_ok {text : String} {bytes : Bytes} :
    packText text = .ok bytes ↔ (utf8 text).length < 2 ^ 32 ∧ bytes = sized (utf8 text) := by
  simp only [packText, bind_eq_ok, packI_eq_ok, pure_eq_ok, sized]
  constructor
  · rintro ⟨_, ⟨hlength, rfl⟩, rfl⟩
    exact ⟨hlength, rfl⟩
  · rintro ⟨hlength, rfl⟩
    exact ⟨_, ⟨hlength, rfl⟩, rfl⟩

variable {x y : Bytes}

theorem sized_append_inj {a b : Bytes} (ha : a.length < 2 ^ 32) (hb : b.length < 2 ^ 32)
    (h : sized a ++ x = sized b ++ y) : a = b ∧ x = y := by
  rw [sized, sized, List.append_assoc, List.append_assoc] at h
  obtain ⟨hlength, hrest⟩ := List.append_inj h (by simp)
  exact List.append_inj hrest (BigEndian.toBytes_inj (ha.trans_le (by norm_num))
    (hb.trans_le (by norm_num)) hlength)

theorem sized_utf8_append_inj {a b : String} (ha : (utf8 a).length < 2 ^ 32)
    (hb : (utf8 b).length < 2 ^ 32) (h : sized (utf8 a) ++ x = sized (utf8 b) ++ y) :
    a = b ∧ x = y := by
  obtain ⟨htext, hrest⟩ := sized_append_inj ha hb h
  exact ⟨utf8_injective htext, hrest⟩

theorem signed_append_inj {a b : ℤ} (ha : FitsQ a) (hb : FitsQ b)
    (h : BigEndian.toBytesSigned 8 a ++ x = BigEndian.toBytesSigned 8 b ++ y) : a = b ∧ x = y := by
  obtain ⟨hvalue, hrest⟩ := List.append_inj h (by simp)
  exact ⟨toBytesSigned_inj_of_fitsQ ha hb hvalue, hrest⟩

theorem packD_append_inj {a b : Double} (h : packD a ++ x = packD b ++ y) : a = b ∧ x = y := by
  obtain ⟨hvalue, hrest⟩ := List.append_inj h (by simp)
  exact ⟨packD_injective hvalue, hrest⟩

theorem packBool_append_inj {a b : Bool} (h : packBool a ++ x = packBool b ++ y) :
    a = b ∧ x = y := by
  obtain ⟨hvalue, hrest⟩ := List.append_inj h (by simp)
  exact ⟨packBool_injective hvalue, hrest⟩

theorem packTee_append_inj {a b : Option Bool} (h : packTee a ++ x = packTee b ++ y) :
    a = b ∧ x = y := by
  have hlength : ∀ value, (packTee value).length = 1 := by
    rintro (_ | _ | _) <;> rfl
  obtain ⟨hvalue, hrest⟩ := List.append_inj h ((hlength a).trans (hlength b).symm)
  refine ⟨?_, hrest⟩
  rcases a with _ | _ | _ <;> rcases b with _ | _ | _ <;> simp_all [packTee]

/-! ## The first layout -/

/-- The v1 fields of a receipt fit. -/
structure FitsV1 (r : ServiceReceipt) : Prop where
  minerAddress : (utf8 r.minerAddress).length < 2 ^ 32
  modelId : (utf8 r.modelId).length < 2 ^ 32
  modelIndex : FitsQ r.modelIndex
  epochNumber : FitsQ r.epochNumber
  timestamp : FitsQ r.timestamp
  tokensGenerated : FitsQ r.tokensGenerated
  promptTokens : FitsQ r.promptTokens

/-- The v1 message of a receipt that fits. -/
def layoutV1 (r : ServiceReceipt) : Bytes :=
  sized (utf8 r.minerAddress) ++ (sized (utf8 r.modelId) ++
    (BigEndian.toBytesSigned 8 r.modelIndex ++ (BigEndian.toBytesSigned 8 r.epochNumber ++
      (r.commitmentHash ++ (BigEndian.toBytesSigned 8 r.timestamp ++ (packD r.ttftMs ++
        (BigEndian.toBytesSigned 8 r.tokensGenerated ++ (packD r.generationTimeMs ++
          (packD r.tokensPerSec ++ (BigEndian.toBytesSigned 8 r.promptTokens ++
            (packBool r.proofVerified ++ (packBool r.proofRequested ++ (packBool r.isCanary ++
              (packTee r.teeAttestationVerified ++ r.validatorHotkey))))))))))))))

variable {r : ServiceReceipt} {message : Bytes}

theorem encodeReceiptMessageV1_eq_ok :
    encodeReceiptMessageV1 r = .ok message ↔ FitsV1 r ∧ message = layoutV1 r := by
  simp only [encodeReceiptMessageV1, bind_eq_ok, packText_eq_ok, packQ_eq_ok, pure_eq_ok]
  constructor
  · rintro ⟨_, ⟨h0, rfl⟩, _, ⟨h1, rfl⟩, _, ⟨h2, rfl⟩, _, ⟨h3, rfl⟩, _, ⟨h4, rfl⟩, _, ⟨h5, rfl⟩, _,
      ⟨h6, rfl⟩, rfl⟩
    exact ⟨⟨h0, h1, h2, h3, h4, h5, h6⟩, rfl⟩
  · rintro ⟨h, rfl⟩
    exact ⟨_, ⟨h.minerAddress, rfl⟩, _, ⟨h.modelId, rfl⟩, _, ⟨h.modelIndex, rfl⟩, _,
      ⟨h.epochNumber, rfl⟩, _, ⟨h.timestamp, rfl⟩, _, ⟨h.tokensGenerated, rfl⟩, _,
      ⟨h.promptTokens, rfl⟩, rfl⟩

/-- A receipt with only its v1 fields. -/
def coveredV1 (r : ServiceReceipt) : ServiceReceipt where
  minerAddress := r.minerAddress
  modelId := r.modelId
  modelIndex := r.modelIndex
  epochNumber := r.epochNumber
  commitmentHash := r.commitmentHash
  timestamp := r.timestamp
  ttftMs := r.ttftMs
  tokensGenerated := r.tokensGenerated
  generationTimeMs := r.generationTimeMs
  tokensPerSec := r.tokensPerSec
  promptTokens := r.promptTokens
  proofVerified := r.proofVerified
  proofRequested := r.proofRequested
  teeAttestationVerified := r.teeAttestationVerified
  isCanary := r.isCanary
  validatorHotkey := r.validatorHotkey

variable {s : ServiceReceipt}

/-- With commitment hashes and hotkeys of the same lengths, the v1 message determines the v1 fields
and ends where they end. -/
theorem coveredV1_eq_of_append (hr : FitsV1 r) (hs : FitsV1 s)
    (hcommitment : r.commitmentHash.length = s.commitmentHash.length)
    (hhotkey : r.validatorHotkey.length = s.validatorHotkey.length)
    (h : layoutV1 r ++ x = layoutV1 s ++ y) : coveredV1 r = coveredV1 s ∧ x = y := by
  unfold layoutV1 at h
  simp only [List.append_assoc] at h
  obtain ⟨haddress, h⟩ := sized_utf8_append_inj hr.minerAddress hs.minerAddress h
  obtain ⟨hmodel, h⟩ := sized_utf8_append_inj hr.modelId hs.modelId h
  obtain ⟨hindex, h⟩ := signed_append_inj hr.modelIndex hs.modelIndex h
  obtain ⟨hepoch, h⟩ := signed_append_inj hr.epochNumber hs.epochNumber h
  obtain ⟨hcommitment, h⟩ := List.append_inj h hcommitment
  obtain ⟨htimestamp, h⟩ := signed_append_inj hr.timestamp hs.timestamp h
  obtain ⟨httft, h⟩ := packD_append_inj h
  obtain ⟨htokens, h⟩ := signed_append_inj hr.tokensGenerated hs.tokensGenerated h
  obtain ⟨hgeneration, h⟩ := packD_append_inj h
  obtain ⟨hspeed, h⟩ := packD_append_inj h
  obtain ⟨hprompt, h⟩ := signed_append_inj hr.promptTokens hs.promptTokens h
  obtain ⟨hverified, h⟩ := packBool_append_inj h
  obtain ⟨hrequested, h⟩ := packBool_append_inj h
  obtain ⟨hcanary, h⟩ := packBool_append_inj h
  obtain ⟨htee, h⟩ := packTee_append_inj h
  obtain ⟨hhotkey, h⟩ := List.append_inj h hhotkey
  refine ⟨?_, h⟩
  simp only [coveredV1, haddress, hmodel, hindex, hepoch, hcommitment, htimestamp, httft, htokens,
    hgeneration, hspeed, hprompt, hverified, hrequested, hcanary, htee, hhotkey]

/-! ## The tagged layouts -/

/-- The v2 fields of a receipt fit. -/
structure FitsV2 (r : ServiceReceipt) : Prop extends FitsV1 r where
  receiptVersion : FitsQ r.receiptVersion
  timingSource : (utf8 r.timingSource).length < 2 ^ 32

/-- The v2 message of a receipt that fits. -/
def layoutV2 (r : ServiceReceipt) : Bytes :=
  tagV2 ++ (layoutV1 r ++ (BigEndian.toBytesSigned 8 r.receiptVersion ++
    (sized (utf8 r.timingSource) ++
      (packD (orZero r.observedStartTs) ++ packD (orZero r.observedEndTs)))))

theorem encodeReceiptMessageV2_eq_ok :
    encodeReceiptMessageV2 r = .ok message ↔ FitsV2 r ∧ message = layoutV2 r := by
  simp only [encodeReceiptMessageV2, bind_eq_ok, encodeReceiptMessageV1_eq_ok, packText_eq_ok,
    packQ_eq_ok, pure_eq_ok]
  constructor
  · rintro ⟨_, ⟨hfits, rfl⟩, _, ⟨hversion, rfl⟩, _, ⟨hsource, rfl⟩, rfl⟩
    exact ⟨⟨hfits, hversion, hsource⟩, rfl⟩
  · rintro ⟨h, rfl⟩
    exact ⟨_, ⟨h.toFitsV1, rfl⟩, _, ⟨h.receiptVersion, rfl⟩, _, ⟨h.timingSource, rfl⟩, rfl⟩

/-- A receipt with only its v2 fields. -/
def coveredV2 (r : ServiceReceipt) : ServiceReceipt :=
  { coveredV1 r with
    receiptVersion := r.receiptVersion
    timingSource := r.timingSource
    observedStartTs := orZero r.observedStartTs
    observedEndTs := orZero r.observedEndTs }

theorem coveredV2_eq_of_append (hr : FitsV2 r) (hs : FitsV2 s)
    (hcommitment : r.commitmentHash.length = s.commitmentHash.length)
    (hhotkey : r.validatorHotkey.length = s.validatorHotkey.length)
    (h : layoutV2 r ++ x = layoutV2 s ++ y) : coveredV2 r = coveredV2 s ∧ x = y := by
  unfold layoutV2 at h
  simp only [List.append_assoc, List.append_cancel_left_eq] at h
  obtain ⟨hlegacy, h⟩ := coveredV1_eq_of_append hr.toFitsV1 hs.toFitsV1 hcommitment hhotkey h
  obtain ⟨hversion, h⟩ := signed_append_inj hr.receiptVersion hs.receiptVersion h
  obtain ⟨hsource, h⟩ := sized_utf8_append_inj hr.timingSource hs.timingSource h
  obtain ⟨hstart, h⟩ := packD_append_inj h
  obtain ⟨hend, h⟩ := packD_append_inj h
  refine ⟨?_, h⟩
  simp only [coveredV2, hlegacy, hversion, hsource, hstart, hend]

/-- The v3 message of a receipt that fits. -/
def layoutV3 (r : ServiceReceipt) : Bytes :=
  tagV3 ++ (layoutV2 r ++ sized r.captureChainDigest)

theorem encodeReceiptMessageV3_eq_ok :
    encodeReceiptMessageV3 r = .ok message ↔
      (FitsV2 r ∧ r.captureChainDigest.length < 2 ^ 32) ∧ message = layoutV3 r := by
  simp only [encodeReceiptMessageV3, bind_eq_ok, encodeReceiptMessageV2_eq_ok, packI_eq_ok,
    pure_eq_ok, layoutV3, sized]
  constructor
  · rintro ⟨_, ⟨hfits, rfl⟩, _, ⟨hlength, rfl⟩, rfl⟩
    exact ⟨⟨hfits, hlength⟩, rfl⟩
  · rintro ⟨⟨hfits, hlength⟩, rfl⟩
    exact ⟨_, ⟨hfits, rfl⟩, _, ⟨hlength, rfl⟩, rfl⟩

/-- A receipt with only its v3 fields. -/
def coveredV3 (r : ServiceReceipt) : ServiceReceipt :=
  { coveredV2 r with captureChainDigest := r.captureChainDigest }

theorem coveredV3_eq_of_append (hr : FitsV2 r ∧ r.captureChainDigest.length < 2 ^ 32)
    (hs : FitsV2 s ∧ s.captureChainDigest.length < 2 ^ 32)
    (hcommitment : r.commitmentHash.length = s.commitmentHash.length)
    (hhotkey : r.validatorHotkey.length = s.validatorHotkey.length)
    (h : layoutV3 r ++ x = layoutV3 s ++ y) : coveredV3 r = coveredV3 s ∧ x = y := by
  unfold layoutV3 at h
  simp only [List.append_assoc, List.append_cancel_left_eq] at h
  obtain ⟨hfields, h⟩ := coveredV2_eq_of_append hr.1 hs.1 hcommitment hhotkey h
  obtain ⟨hdigest, h⟩ := sized_append_inj hr.2 hs.2 h
  refine ⟨?_, h⟩
  simp only [coveredV3, hfields, hdigest]

/-- The canary fields that `_encode_receipt_message_v4` admits. -/
structure CanaryFits (r : ServiceReceipt) : Prop where
  obligation : r.canaryObligationId ≠ [] → r.canaryObligationId.length = 16
  kind : r.canaryKind = "" ∨ r.canaryKind = "low" ∨ r.canaryKind = "full"
  together : r.canaryObligationId ≠ [] ↔ r.canaryKind ≠ ""
  target : 0 ≤ r.canaryTargetPromptTokens ∧ r.canaryTargetPromptTokens < 2 ^ 32
  organic : r.canaryObligationId = [] → r.canaryTargetPromptTokens = 0

/-- The v4 message of a receipt that fits. -/
def layoutV4 (r : ServiceReceipt) : Bytes :=
  tagV4 ++ (layoutV3 r ++ (sized r.canaryObligationId ++ (sized (utf8 r.canaryKind) ++
    BigEndian.toBytes 4 r.canaryTargetPromptTokens.toNat)))

theorem CanaryFits.length_lt (h : CanaryFits r) :
    r.canaryObligationId.length < 2 ^ 32 ∧ (utf8 r.canaryKind).length < 2 ^ 32 := by
  constructor
  · by_cases hnil : r.canaryObligationId = []
    · simp [hnil]
    · rw [h.obligation hnil]
      norm_num
  · rcases h.kind with hkind | hkind | hkind <;> rw [hkind] <;> decide

theorem encodeReceiptMessageV4_eq_ok :
    encodeReceiptMessageV4 r = .ok message ↔
      (FitsV2 r ∧ r.captureChainDigest.length < 2 ^ 32) ∧ CanaryFits r ∧ message = layoutV4 r := by
  simp only [encodeReceiptMessageV4, bind_eq_ok, raiseIf_eq_ok, encodeReceiptMessageV3_eq_ok,
    packI_eq_ok, pure_eq_ok, layoutV4, sized]
  constructor
  · rintro ⟨-, hobligation, -, hkind, -, htogether, -, htarget, -, horganic, _, ⟨hfits, rfl⟩, _,
      ⟨-, rfl⟩, _, ⟨-, rfl⟩, _, ⟨-, rfl⟩, rfl⟩
    refine ⟨hfits, ⟨?_, ?_, not_not.mp htogether, ?_, ?_⟩, by simp⟩
    · exact fun hne => by_contra fun hlength => hobligation ⟨hne, hlength⟩
    · tauto
    · omega
    · exact fun hnil => by_contra fun hne => horganic ⟨hnil, hne⟩
  · rintro ⟨hfits, hcanary, rfl⟩
    have htarget := hcanary.target
    refine ⟨(), ?_, (), ?_, (), not_not.mpr hcanary.together, (), by omega, (), ?_, _, ⟨hfits, rfl⟩,
      _, ⟨hcanary.length_lt.1, rfl⟩, _, ⟨hcanary.length_lt.2, rfl⟩, _, ⟨by omega, rfl⟩, by simp⟩
    · exact fun h => h.2 (hcanary.obligation h.1)
    · have := hcanary.kind
      tauto
    · exact fun h => h.2 (hcanary.organic h.1)

/-- A receipt with only its v4 fields: all but the signatures. -/
def coveredV4 (r : ServiceReceipt) : ServiceReceipt :=
  { coveredV3 r with
    canaryObligationId := r.canaryObligationId
    canaryKind := r.canaryKind
    canaryTargetPromptTokens := r.canaryTargetPromptTokens }

theorem coveredV4_eq (hr : (FitsV2 r ∧ r.captureChainDigest.length < 2 ^ 32) ∧ CanaryFits r)
    (hs : (FitsV2 s ∧ s.captureChainDigest.length < 2 ^ 32) ∧ CanaryFits s)
    (hcommitment : r.commitmentHash.length = s.commitmentHash.length)
    (hhotkey : r.validatorHotkey.length = s.validatorHotkey.length) (h : layoutV4 r = layoutV4 s) :
    coveredV4 r = coveredV4 s := by
  unfold layoutV4 at h
  simp only [List.append_cancel_left_eq] at h
  obtain ⟨hfields, h⟩ := coveredV3_eq_of_append hr.1 hs.1 hcommitment hhotkey h
  obtain ⟨hobligation, h⟩ := sized_append_inj hr.2.length_lt.1 hs.2.length_lt.1 h
  obtain ⟨hkind, h⟩ := sized_utf8_append_inj hr.2.length_lt.2 hs.2.length_lt.2 h
  have htarget : r.canaryTargetPromptTokens = s.canaryTargetPromptTokens := by
    have hr' := hr.2.target
    have hs' := hs.2.target
    have hnat := BigEndian.toBytes_inj (by omega) (by omega) h
    omega
  simp only [coveredV4, hfields, hobligation, hkind, htarget]

/-! ## One message for two receipts -/

/-- The fields that the message of a version covers. -/
def covered (version : ℤ) (receipt : ServiceReceipt) : ServiceReceipt :=
  if version ≥ 4 then coveredV4 receipt
  else if version ≥ 3 then coveredV3 receipt
  else if version ≥ 2 then coveredV2 receipt
  else coveredV1 receipt

/-- `s` agrees with `r` on the fields that the version of `r` covers. -/
def Agrees (r s : ServiceReceipt) : Prop := covered (versionOf r) r = covered (versionOf r) s

instance (r s : ServiceReceipt) : Decidable (Agrees r s) := inferInstanceAs (Decidable (_ = _))

/-- The two fields without a length before them have the same lengths, and both layouts have a tag
or none has. -/
structure SameShape (r s : ServiceReceipt) : Prop where
  commitmentHash : r.commitmentHash.length = s.commitmentHash.length
  validatorHotkey : r.validatorHotkey.length = s.validatorHotkey.length
  tagged : 2 ≤ versionOf r ↔ 2 ≤ versionOf s

@[simp]
theorem commitmentHash_covered (version : ℤ) (r : ServiceReceipt) :
    (covered version r).commitmentHash = r.commitmentHash := by
  unfold covered
  split_ifs <;> rfl

@[simp]
theorem validatorHotkey_covered (version : ℤ) (r : ServiceReceipt) :
    (covered version r).validatorHotkey = r.validatorHotkey := by
  unfold covered
  split_ifs <;> rfl

theorem receiptVersion_covered {version : ℤ} (h : 2 ≤ version) (r : ServiceReceipt) :
    (covered version r).receiptVersion = r.receiptVersion := by
  unfold covered
  split_ifs
  · rfl
  · rfl
  · rfl

/-- The message of a receipt, by the layout of its version. -/
inductive Encoded (r : ServiceReceipt) (message : Bytes) : Prop
  | v1 (version : versionOf r < 2) (fits : FitsV1 r) (layout : message = layoutV1 r)
  | v2 (version : versionOf r = 2) (fits : FitsV2 r) (layout : message = layoutV2 r)
  | v3 (version : versionOf r = 3) (fits : FitsV2 r ∧ r.captureChainDigest.length < 2 ^ 32)
    (layout : message = layoutV3 r)
  | v4 (version : 4 ≤ versionOf r)
    (fits : (FitsV2 r ∧ r.captureChainDigest.length < 2 ^ 32) ∧ CanaryFits r)
    (layout : message = layoutV4 r)

theorem encoded_of_eq_ok (h : encodeReceiptMessage r = .ok message) : Encoded r message := by
  simp only [encodeReceiptMessage] at h
  split_ifs at h with h4 h3 h2
  · obtain ⟨hfits, hcanary, hlayout⟩ := encodeReceiptMessageV4_eq_ok.mp h
    exact .v4 h4 ⟨hfits, hcanary⟩ hlayout
  · obtain ⟨hfits, hlayout⟩ := encodeReceiptMessageV3_eq_ok.mp h
    exact .v3 (by omega) hfits hlayout
  · obtain ⟨hfits, hlayout⟩ := encodeReceiptMessageV2_eq_ok.mp h
    exact .v2 (by omega) hfits hlayout
  · obtain ⟨hfits, hlayout⟩ := encodeReceiptMessageV1_eq_ok.mp h
    exact .v1 (by omega) hfits hlayout

/-- The tag of a message of a tagged version. -/
def tagOf (version : ℤ) : Bytes := if version ≥ 4 then tagV4 else if version ≥ 3 then tagV3 else tagV2

theorem Encoded.exists_tag (h : Encoded r message) (hversion : 2 ≤ versionOf r) :
    ∃ rest, message = tagOf (versionOf r) ++ rest := by
  cases h with
  | v1 version => omega
  | v2 version _ layout => exact ⟨_, by rw [layout, layoutV2, tagOf, version]; rfl⟩
  | v3 version _ layout => exact ⟨_, by rw [layout, layoutV3, tagOf, version]; rfl⟩
  | v4 version _ layout => exact ⟨_, by rw [layout, layoutV4, tagOf, if_pos version]⟩

theorem tagOf_eq (hr : Encoded r message) (hs : Encoded s message) (hrVersion : 2 ≤ versionOf r)
    (hsVersion : 2 ≤ versionOf s) : tagOf (versionOf r) = tagOf (versionOf s) := by
  obtain ⟨_, hr⟩ := hr.exists_tag hrVersion
  obtain ⟨_, hs⟩ := hs.exists_tag hsVersion
  have hlength : ∀ version, (tagOf version).length = 27 := by
    intro version
    unfold tagOf
    split_ifs <;> decide
  exact (List.append_inj (hr.symm.trans hs) ((hlength _).trans (hlength _).symm)).1

theorem layoutV1_covered (r : ServiceReceipt) : layoutV1 (coveredV1 r) = layoutV1 r := rfl

theorem agrees_of_sameShape (hr : Encoded r message) (hs : Encoded s message)
    (hshape : SameShape r s) : Agrees r s := by
  obtain ⟨hcommitment, hhotkey, htagged⟩ := hshape
  have htag := tagOf_eq hr hs
  unfold Agrees covered
  cases hr with
  | v1 version fits layout =>
    cases hs with
    | v1 version' fits' layout' =>
      rw [if_neg (by omega), if_neg (by omega), if_neg (by omega), if_neg (by omega),
        if_neg (by omega), if_neg (by omega)]
      have h : layoutV1 r ++ [] = layoutV1 s ++ [] := by rw [← layout, ← layout']
      exact (coveredV1_eq_of_append fits fits' hcommitment hhotkey h).1
    | v2 version' | v3 version' | v4 version' => omega
  | v2 version fits layout =>
    have hsVersion := htagged.mp (by omega)
    have htag := htag (by omega) hsVersion
    cases hs with
    | v1 version' => omega
    | v2 version' fits' layout' =>
      rw [version]
      have h : layoutV2 r ++ [] = layoutV2 s ++ [] := by rw [← layout, ← layout']
      exact (coveredV2_eq_of_append fits fits' hcommitment hhotkey h).1
    | v3 version' => exact absurd htag (by rw [version, version']; decide)
    | v4 version' =>
      rw [version, tagOf, tagOf, if_pos version'] at htag
      exact absurd htag (by decide)
  | v3 version fits layout =>
    have hsVersion := htagged.mp (by omega)
    have htag := htag (by omega) hsVersion
    cases hs with
    | v1 version' => omega
    | v2 version' => exact absurd htag (by rw [version, version']; decide)
    | v3 version' fits' layout' =>
      rw [version]
      have h : layoutV3 r ++ [] = layoutV3 s ++ [] := by rw [← layout, ← layout']
      exact (coveredV3_eq_of_append fits fits' hcommitment hhotkey h).1
    | v4 version' =>
      rw [version, tagOf, tagOf, if_pos version'] at htag
      exact absurd htag (by decide)
  | v4 version fits layout =>
    have hsVersion := htagged.mp (by omega)
    have htag := htag (by omega) hsVersion
    cases hs with
    | v1 version' => omega
    | v2 version' | v3 version' =>
      rw [version', tagOf, tagOf, if_pos version] at htag
      exact absurd htag (by decide)
    | v4 version' fits' layout' =>
      rw [if_pos version, if_pos version]
      exact coveredV4_eq fits fits' hcommitment hhotkey (layout.symm.trans layout')

theorem Encoded.length_gt (h : Encoded r message) (hversion : 2 ≤ versionOf r) :
    (layoutV1 r).length < message.length := by
  have htag : tagV2.length = 27 := by decide
  cases h with
  | v1 version => omega
  | v2 version _ layout =>
    rw [layout]
    simp only [layoutV2, List.length_append]
    omega
  | v3 version _ layout =>
    rw [layout]
    simp only [layoutV3, layoutV2, List.length_append]
    omega
  | v4 version _ layout =>
    rw [layout]
    simp only [layoutV4, layoutV3, layoutV2, List.length_append]
    omega

theorem sameShape_of_agrees (hr : Encoded r message) (hs : Encoded s message) (h : Agrees r s) :
    SameShape r s := by
  have hcommitment : r.commitmentHash = s.commitmentHash := by
    simpa using congrArg ServiceReceipt.commitmentHash h
  have hhotkey : r.validatorHotkey = s.validatorHotkey := by
    simpa using congrArg ServiceReceipt.validatorHotkey h
  refine ⟨by rw [hcommitment], by rw [hhotkey], ?_⟩
  by_cases hr2 : 2 ≤ versionOf r
  · have hversion : r.receiptVersion = s.receiptVersion := by
      simpa [receiptVersion_covered hr2] using congrArg ServiceReceipt.receiptVersion h
    have hsame : versionOf r = versionOf s := by rw [versionOf, versionOf, hversion]
    rw [hsame]
  · -- an untagged message that a tagged receipt also has would be longer than itself
    refine ⟨fun h2 => absurd h2 hr2, fun hs2 => ?_⟩
    have hfields : coveredV1 r = coveredV1 s := by
      have h' := h
      rwa [Agrees, covered, covered, if_neg (by omega), if_neg (by omega), if_neg hr2,
        if_neg (by omega), if_neg (by omega), if_neg hr2] at h'
    have hlayout : message = layoutV1 r := by
      cases hr with
      | v1 _ _ layout => exact layout
      | v2 version | v3 version | v4 version => omega
    have hlonger := hs.length_gt hs2
    rw [hlayout, ← layoutV1_covered r, hfields, layoutV1_covered s] at hlonger
    omega

theorem agrees_iff_sameShape (hr : encodeReceiptMessage r = .ok message)
    (hs : encodeReceiptMessage s = .ok message) : Agrees r s ↔ SameShape r s :=
  ⟨sameShape_of_agrees (encoded_of_eq_ok hr) (encoded_of_eq_ok hs),
    agrees_of_sameShape (encoded_of_eq_ok hr) (encoded_of_eq_ok hs)⟩

/-! ## Accepted receipts -/

/-- The calls of `sign_receipt` so far: each receipt with the seed of its key. -/
abbrev Signed := List (ServiceReceipt × Bytes)

/-- Sr25519 as an ideal signature: what verifies under a hotkey was signed by a call with a seed of
that hotkey. -/
def Ideal (keys : Sr25519) (publicKey : Bytes → Bytes) (calls : Signed) : Prop :=
  ∀ hotkey message signature, keys.verify (keys.ss58Encode hotkey) message signature = true →
    ∃ call ∈ calls, publicKey (call.2.take 32) = hotkey ∧ encodeReceiptMessage call.1 = .ok message

/-- The receipts that a hotkey signed with the message of `r`. -/
def SignedLike (publicKey : Bytes → Bytes) (calls : Signed) (r s : ServiceReceipt) : Prop :=
  (∃ seed, (s, seed) ∈ calls ∧ publicKey (seed.take 32) = r.validatorHotkey) ∧
    encodeReceiptMessage s = encodeReceiptMessage r

/-- Sr25519 being ideal, a receipt that was accepted through its primary signature has the message
of a receipt that its key signed, and one of these agrees with it exactly when one of them has its
shape. The same holds of any two receipts with one message, and the dictionary of a receipt keeps
its message. -/
theorem receiptSignatures_bind_iff (keys : Sr25519) (publicKey : Bytes → Bytes) (calls : Signed) :
    (Ideal keys publicKey calls →
      ∀ receipt epochNumber authority now receiptWindowSec,
        AcceptedPrimary keys receipt epochNumber authority now receiptWindowSec →
        (∃ signed, SignedLike publicKey calls receipt signed) ∧
          ((∃ signed, SignedLike publicKey calls receipt signed ∧ Agrees receipt signed) ↔
            ∃ signed, SignedLike publicKey calls receipt signed ∧ SameShape receipt signed)) ∧
    (∀ r s message, encodeReceiptMessage r = .ok message → encodeReceiptMessage s = .ok message →
      (Agrees r s ↔ SameShape r s)) ∧
    ∀ r, (receiptFromDict (receiptToDict r)).bind encodeReceiptMessage = encodeReceiptMessage r := by
  refine ⟨?_, fun r s message => agrees_iff_sameShape, fun r => ?_⟩
  · intro hideal receipt epochNumber authority now window haccepted
    obtain ⟨-, message, hmessage, hverified⟩ := haccepted.spec
    have hiff : ∀ signed, SignedLike publicKey calls receipt signed →
        (Agrees receipt signed ↔ SameShape receipt signed) := by
      rintro signed ⟨-, hsame⟩
      exact agrees_iff_sameShape hmessage (hsame.trans hmessage)
    refine ⟨?_, exists_congr fun signed => and_congr_right (hiff signed)⟩
    obtain ⟨⟨signed, seed⟩, hcall, hkey, hsigned⟩ := hideal _ _ _ hverified
    exact ⟨signed, ⟨seed, hcall, hkey⟩, hsigned.trans hmessage.symm⟩
  · rw [receiptFromDict_receiptToDict]
    rfl

/-! ## A signed receipt and another reading of it -/

/-- The bytes of the sample receipts from the timestamp to the version. -/
def sampleMiddle : Bytes :=
  [0, 0, 0, 0, 0x68, 0, 0, 0] ++ (List.replicate 44 0 ++ (List.replicate 32 97 ++
    [0, 0, 0, 0, 0, 0, 0, 2]))

/-- A v2 receipt that was signed, with a commitment hash of 128 bytes. -/
def sampleSigned : ServiceReceipt where
  minerAddress := "5F"
  modelId := "qwen3"
  modelIndex := 1
  epochNumber := 7
  commitmentHash := List.replicate 32 5 ++ (sampleMiddle ++ [0, 0, 0, 114])
  timestamp := 0x68000000
  ttftMs := 0
  tokensGenerated := 0
  generationTimeMs := 0
  tokensPerSec := 0
  teeAttestationVerified := some false
  receiptVersion := 2
  timingSource := "validator_observed"
  validatorHotkey := List.replicate 32 97
  validatorSignature := List.replicate 64 1

/-- A v2 receipt whose commitment hash is the first 32 bytes of that one, and whose timing source is
the text of what follows in the message. -/
def sampleReread : ServiceReceipt :=
  { sampleSigned with
    commitmentHash := List.replicate 32 5
    timingSource := String.ofList ((sampleMiddle ++ sized (asciiBytes "validator_observed")).map
      fun byte => Char.ofNat byte.toNat) }

/-- Keys whose public key is the seed, and under which only the message of `sampleSigned` verifies. -/
def sampleKeys : Sr25519 where
  ss58Encode := Hex.toText
  verify := fun address message signature =>
    decide (address = Hex.toText sampleSigned.validatorHotkey ∧
      encodeReceiptMessage sampleSigned = .ok message ∧ signature = List.replicate 64 1)
  sign := fun _ _ => List.replicate 64 1

/-- The one call of `sign_receipt`. -/
def sampleCalls : Signed := [(sampleSigned, List.replicate 32 97)]

/-- A metagraph with one validator. -/
def sampleAuthority : ValidatorAuthority where
  ss58ToUid := OrderedDict.ofList [(Hex.toText sampleSigned.validatorHotkey, 0)]
  validatorPermit := [true]
  stakes := [0x3FF0000000000000]
  minStake := 0

theorem sampleKeys_ideal : Ideal sampleKeys id sampleCalls := by
  intro hotkey message signature h
  obtain ⟨haddress, hmessage, -⟩ := of_decide_eq_true h
  have hhotkey : hotkey = sampleSigned.validatorHotkey := by
    have htext := congrArg Hex.ofText haddress
    simpa [sampleKeys] using htext
  exact ⟨_, List.mem_singleton.mpr rfl, hhotkey ▸ rfl, hmessage⟩

/-- The receipt that was not signed is accepted through the signature of the other one, and differs
from it in the commitment hash and the timing source. -/
theorem receiptSignatures_not_bind :
    Ideal sampleKeys id sampleCalls ∧
      AcceptedPrimary sampleKeys sampleReread 7 (some sampleAuthority) 0x68000000 4500 ∧
      ¬ ∃ call ∈ sampleCalls, Agrees sampleReread call.1 := by
  refine ⟨sampleKeys_ideal, ⟨by decide +kernel, by decide +kernel⟩, ?_⟩
  rintro ⟨call, hcall, hagrees⟩
  rw [List.mem_singleton.mp hcall] at hagrees
  revert hagrees
  decide +kernel

/-- The signed receipt agrees with a signed one, itself; the other reading does not agree with it. -/
theorem receiptSignatures_bind_iff_sampleSigned :
    (∃ signed, SignedLike id sampleCalls sampleSigned signed ∧ Agrees sampleSigned signed) ∧
      ¬ Agrees sampleReread sampleSigned := by
  have haccepted :
      AcceptedPrimary sampleKeys sampleSigned 7 (some sampleAuthority) 0x68000000 4500 :=
    ⟨by decide +kernel, by decide +kernel⟩
  have hsigned : SignedLike id sampleCalls sampleSigned sampleSigned :=
    ⟨⟨_, List.mem_singleton.mpr rfl, by decide +kernel⟩, rfl⟩
  have hbind := (receiptSignatures_bind_iff sampleKeys id sampleCalls).1 sampleKeys_ideal
    _ _ _ _ _ haccepted
  refine ⟨hbind.2.mpr ⟨sampleSigned, hsigned, rfl, rfl, Iff.rfl⟩, fun hagrees => ?_⟩
  have hshape := ((receiptSignatures_bind_iff sampleKeys id sampleCalls).2.1 sampleReread
    sampleSigned (layoutV2 sampleSigned) (by decide +kernel) (by decide +kernel)).mp hagrees
  -- the two commitment hashes have 32 and 128 bytes
  exact absurd hshape.commitmentHash (by decide +kernel)

end Verathos.Receipts
