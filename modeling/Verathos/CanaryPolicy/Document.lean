import Verathos.CanaryPolicy.Records

/-!
# Signed canary policy documents

The bytes of a document and its signatures.

* `canonical_toDict`: the dictionary of a document is in the form that the writer keeps;
* `fromJsonBytes_iff`: a document that fits the size limit is read back exactly when its policy is
  reloadable;
* `recoverSigners_eq_ok`: what the loop over the signatures establishes of the signers;
* `signedCanaryPolicy_exact`: one encoding, order-free identity and the threshold of the authorities,
  where `dottedCapital` is the letter that lower-casing turns into two characters.
-/

namespace Verathos.CanaryPolicy

open StrictJson
open SortedSet (sorted)

variable {u : Unicode}

/-! ## Bytes -/

theorem canonical_toDict_model (m : CanaryModelPolicyV3) : StrictJson.Canonical m.toDict := by
  have hkeys : ["allowed_quantizations", "execution_profile_digest",
      "max_hard_audit_decode_tokens", "model_id"].Pairwise (· < ·) := by decide +kernel
  apply canonical_obj
  · exact hkeys
  · simp only [List.mem_cons, List.not_mem_nil, or_false, forall_eq_or_imp, forall_eq]
    refine ⟨canonical_arr ?_, canonical_str _, canonical_int _, canonical_str _⟩
    intro value hvalue
    obtain ⟨q, -, rfl⟩ := List.mem_map.mp hvalue
    exact canonical_str q

theorem canonical_toJson (x : PyInt) : StrictJson.Canonical x.toJson := by
  cases x with
  | int n => exact canonical_int n
  | bool b => exact canonical_bool b

theorem canonical_toDict_policy (p : CanaryPolicyV3) : StrictJson.Canonical p.toDict := by
  have hkeys : CanaryPolicyV3.keys.Pairwise (· < ·) := by decide +kernel
  apply canonical_obj
  · exact hkeys
  · simp only [CanaryPolicyV3.members, List.mem_cons, List.not_mem_nil, or_false,
      forall_eq_or_imp, forall_eq]
    have hmodels : StrictJson.Canonical (.arr (p.modelPolicies.map CanaryModelPolicyV3.toDict)) := by
      apply canonical_arr
      intro value hvalue
      obtain ⟨m, -, rfl⟩ := List.mem_map.mp hvalue
      exact canonical_toDict_model m
    simp only [canonical_int, canonical_str, canonical_toJson, hmodels, and_self]

theorem canonical_toDict (d : SignedCanaryPolicyDocumentV3) : StrictJson.Canonical d.toDict := by
  have hkeys : ["policy", "signatures"].Pairwise (· < ·) := by decide +kernel
  apply canonical_obj
  · exact hkeys
  · simp only [List.mem_cons, List.not_mem_nil, or_false, forall_eq_or_imp, forall_eq]
    refine ⟨canonical_toDict_policy d.policy, canonical_arr ?_⟩
    intro value hvalue
    obtain ⟨s, -, rfl⟩ := List.mem_map.mp hvalue
    exact canonical_str _

@[simp]
theorem jsonFault_eq_ok {α : Type} {result : Except Fault α} {a : α} :
    jsonFault result = .ok a ↔ result = .ok a := by
  rcases result with (_ | _ | _) | _ <;> simp [jsonFault]

variable {d : SignedCanaryPolicyDocumentV3}

variable {encoded : Bytes}

@[simp]
theorem canonicalJsonBytes_eq_ok :
    d.canonicalJsonBytes = .ok encoded ↔
      (write d.toDict).length ≤ maxCanaryPolicyDocumentBytes ∧ encoded = write d.toDict := by
  simp only [SignedCanaryPolicyDocumentV3.canonicalJsonBytes, bind_eq_ok, refuseIf_eq_ok,
    pure_eq_ok, exists_const, not_lt, @eq_comm _ encoded]

/-- A document is read only from its own encoding. -/
theorem canonicalJsonBytes_of_fromJsonBytes
    (h : SignedCanaryPolicyDocumentV3.fromJsonBytes u encoded = .ok d) :
    d.canonicalJsonBytes = .ok encoded := by
  simp only [SignedCanaryPolicyDocumentV3.fromJsonBytes, bind_eq_ok, refuseIf_eq_ok, pure_eq_ok,
    exists_const] at h
  obtain ⟨-, _, -, _, -, _, -, _, -, _, -, _, -, _, -, result, -, again, hagain, hsame, rfl⟩ := h
  rw [hagain, not_not.mp hsame]

theorem mapM_signatureOf (h : IsDocument u d) :
    ((d.signatures.map fun value => Json.str (Hex.toText value)).mapM fun value =>
      signatureOf (.object value)) = .ok d.signatures := by
  rw [mapM_eq_ok, List.forall₂_map_left_iff, List.forall₂_same]
  intro s hs
  exact signatureOf_eq_ok.mpr ⟨signatureBytes_toText s, h.canonical s hs⟩

theorem fromJsonBytes_iff (h : IsDocument u d) (hencoded : d.canonicalJsonBytes = .ok encoded) :
    SignedCanaryPolicyDocumentV3.fromJsonBytes u encoded = .ok d ↔ d.policy.Reloadable u := by
  obtain ⟨hlength, rfl⟩ := canonicalJsonBytes_eq_ok.mp hencoded
  have hread := read_write (canonical_toDict d)
  have hdict (message : String) : dictOf d.toDict ["policy", "signatures"] message =
      .ok [("policy", d.policy.toDict),
        ("signatures", .arr (d.signatures.map fun value => .str (Hex.toText value)))] :=
    dictOf_eq_ok.mpr ⟨rfl, rfl⟩
  simp only [SignedCanaryPolicyDocumentV3.fromJsonBytes, bind_eq_ok, refuseIf_eq_ok, pure_eq_ok,
    exists_const, jsonFault_eq_ok, hread, Except.ok.injEq, exists_eq_left', hdict, item_eq_ok,
    List.lookup_cons, String.reduceBEq, Option.some.injEq, listOf_eq_ok, Json.arr.injEq,
    mapM_signatureOf h, fromDict_toDict_policy h.policy]
  constructor
  · rintro ⟨-, _, ⟨hreload, -⟩, -⟩
    exact hreload
  · intro hreload
    refine ⟨not_or.mpr ⟨write_ne_nil (canonical_toDict d), not_lt.mpr hlength⟩, d.policy,
      ⟨hreload, rfl⟩, d, h.new, _, hencoded, not_not.mpr rfl, rfl⟩

/-! ## Signers -/

section Signers

variable {sha256 : Bytes → Digest} {recover : Digest → Bytes → PolicyResult BytesOrObject}
  {digest : Digest} {authorities : List Bytes}

/-- A signature recovers to the address of a signer. -/
def SignedBy (recover : Digest → Bytes → PolicyResult BytesOrObject) (digest : Digest)
    (signature signer : Bytes) : Prop :=
  ∃ value, recover digest signature = .ok value ∧
    address value "recovered canary policy authority" = .ok signer

@[simp]
theorem recoveryFailed_eq_ok {α : Type} {result : PolicyResult α} {a : α} :
    recoveryFailed result = .ok a ↔ result = .ok a := by
  cases result <;> simp [recoveryFailed]

theorem recoverSigners_eq_ok {signatures recovered signers : List Bytes}
    (h : recoverSigners recover digest authorities signatures recovered = .ok signers)
    (hnodup : recovered.Nodup) (hmem : ∀ signer ∈ recovered, signer ∈ authorities) :
    ∃ collected, signers = recovered ++ collected ∧
      List.Forall₂ (SignedBy recover digest) signatures collected ∧ signers.Nodup ∧
        ∀ signer ∈ signers, signer ∈ authorities := by
  induction signatures generalizing recovered with
  | nil =>
    obtain rfl := Except.ok.inj h
    exact ⟨[], (List.append_nil _).symm, .nil, hnodup, hmem⟩
  | cons signature signatures ih =>
    simp only [recoverSigners, bind_eq_ok, recoveryFailed_eq_ok, refuseIf_eq_ok, exists_const,
      not_or, not_not] at h
    obtain ⟨signer, ⟨value, hvalue, haddress⟩, ⟨hauthority, hnew⟩, hrest⟩ := h
    have hnodup' : (recovered ++ [signer]).Nodup := by
      rw [List.nodup_append]
      refine ⟨hnodup, List.nodup_singleton _, fun a ha b hb hab => hnew ?_⟩
      rw [← List.mem_singleton.mp hb, ← hab]
      exact ha
    have hmem' : ∀ s ∈ recovered ++ [signer], s ∈ authorities := by
      intro s hs
      rcases List.mem_append.mp hs with hs | hs
      · exact hmem s hs
      · exact List.mem_singleton.mp hs ▸ hauthority
    obtain ⟨collected, rfl, hcollected, hall⟩ := ih hrest hnodup' hmem'
    refine ⟨signer :: collected, ?_, .cons ⟨value, hvalue, haddress⟩ hcollected, hall⟩
    rw [List.append_assoc, List.singleton_append]

/-- What a verified document establishes: the signers of its signatures are pairwise distinct
authorities, and there are at least as many as the threshold. -/
theorem verify_eq_ok {d : SignedCanaryPolicyDocumentV3} {expected : List BytesOrObject}
    {threshold : ℤ} {texts : List String}
    (h : verifySignedCanaryPolicyV3 sha256 recover d expected threshold = .ok texts) :
    ∃ authorities signers,
      (expected.mapM fun value => address value "expected canary policy authority") =
        .ok authorities ∧
      List.Forall₂ (SignedBy recover (d.policy.digest sha256)) d.signatures signers ∧
      signers.Nodup ∧ (∀ signer ∈ signers, signer ∈ authorities) ∧
      1 ≤ threshold ∧ threshold ≤ signers.length := by
  simp only [verifySignedCanaryPolicyV3, bind_eq_ok, refuseIf_eq_ok, pure_eq_ok, exists_const,
    not_or, not_not, not_lt] at h
  obtain ⟨authorities, hauthorities, ⟨-, -, hthreshold, -⟩, signers, hsigners, henough, -⟩ := h
  obtain ⟨collected, rfl, hcollected, hnodup, hmem⟩ :=
    recoverSigners_eq_ok hsigners List.nodup_nil (List.forall_mem_nil _)
  exact ⟨authorities, _, hauthorities, hcollected, hnodup, hmem, hthreshold, henough⟩

end Signers

/-! ## Documents as the constructors admit them -/

/-- The constructor of a model policy returned it. -/
def CanaryModelPolicyV3.Admitted (u : Unicode) (m : CanaryModelPolicyV3) : Prop :=
  ∃ modelId digest quants maxHard, CanaryModelPolicyV3.new u modelId digest quants maxHard = .ok m

/-- The constructors returned the document. -/
def SignedCanaryPolicyDocumentV3.Admitted (u : Unicode) (d : SignedCanaryPolicyDocumentV3) : Prop :=
  ∃ (policy p : CanaryPolicyV3) (signatures : List BytesOrObject),
    (∀ m ∈ policy.modelPolicies, m.Admitted u) ∧ policy.postInit u = .ok p ∧
      SignedCanaryPolicyDocumentV3.new p signatures = .ok d

theorem isDocument_of_admitted (h : d.Admitted u) : IsDocument u d := by
  obtain ⟨policy, p, signatures, hmodels, hp, hd⟩ := h
  refine isDocument_of_new (isPolicy_of_postInit (fun m hm => ?_) hp) hd
  obtain ⟨_, _, _, _, hnew⟩ := hmodels m hm
  exact isModel_of_new hnew

/-- A document is read back exactly when it is reloadable; a document is read only from its own
encoding; the order of models and signatures does not matter; and a verified document is signed by
the threshold of pairwise distinct authorities and by nobody else. -/
theorem signedCanaryPolicy_exact (u : Unicode) (sha256 : Bytes → Digest)
    (recover : Digest → Bytes → PolicyResult BytesOrObject) :
    (∀ (d : SignedCanaryPolicyDocumentV3) encoded, d.Admitted u →
      d.canonicalJsonBytes = .ok encoded →
        (SignedCanaryPolicyDocumentV3.fromJsonBytes u encoded = .ok d ↔ d.policy.Reloadable u)) ∧
    (∀ (d : SignedCanaryPolicyDocumentV3) encoded,
      SignedCanaryPolicyDocumentV3.fromJsonBytes u encoded = .ok d →
        d.canonicalJsonBytes = .ok encoded) ∧
    (∀ (policy p : CanaryPolicyV3) models signatures signatures' d, models.Perm policy.modelPolicies →
      signatures'.Perm signatures → policy.postInit u = .ok p →
      SignedCanaryPolicyDocumentV3.new p signatures = .ok d →
        ∃ p' d', CanaryPolicyV3.postInit u { policy with modelPolicies := models } = .ok p' ∧
          SignedCanaryPolicyDocumentV3.new p' signatures' = .ok d' ∧
          d'.policy.digest sha256 = d.policy.digest sha256 ∧ d' = d) ∧
    ∀ (d : SignedCanaryPolicyDocumentV3) expected threshold texts,
      verifySignedCanaryPolicyV3 sha256 recover d expected threshold = .ok texts →
        ∃ authorities signers,
          (expected.mapM fun value => address value "expected canary policy authority") =
            .ok authorities ∧
          List.Forall₂ (SignedBy recover (d.policy.digest sha256)) d.signatures signers ∧
          signers.Nodup ∧ (∀ signer ∈ signers, signer ∈ authorities) ∧
          1 ≤ threshold ∧ threshold ≤ signers.length := by
  refine ⟨fun d encoded hd hencoded => fromJsonBytes_iff (isDocument_of_admitted hd) hencoded,
    fun d encoded => canonicalJsonBytes_of_fromJsonBytes, ?_,
    fun d expected threshold texts => verify_eq_ok⟩
  intro policy p models signatures signatures' d hmodels hsignatures hp hd
  exact ⟨p, d, postInit_perm hmodels hp, new_perm hsignatures hd, rfl, rfl⟩

/-! ## A letter that lower-casing makes two -/

/-- The capital I with a dot above. -/
def dottedCapital : Char := Char.ofNat 0x130

/-- Lower-casing one letter. -/
def lowerLetter (c : Char) : List Char :=
  if c = dottedCapital then ['i', Char.ofNat 0x307] else [c.toLower]

theorem toLower_ne_dottedCapital {c : Char} (h : c ≠ dottedCapital) : c.toLower ≠ dottedCapital := by
  by_cases hupper : c.isUpper
  · -- The capitals are 26 characters.
    have hcapital : 65 ≤ c.toNat ∧ c.toNat ≤ 90 := of_decide_eq_true hupper
    obtain ⟨n, hn⟩ : ∃ n, c.toNat = n := ⟨_, rfl⟩
    obtain rfl : c = Char.ofNat n := by rw [← hn, Char.ofNat_toNat]
    rw [hn] at hcapital
    obtain ⟨hlow, hhigh⟩ := hcapital
    interval_cases n <;> decide
  · rwa [LowerCase.toLower_of_isUpper_eq_false (by simpa using hupper)]

/-- Lower-casing the ASCII letters and the dotted capital, with these and the digits as the letters
and digits there are. -/
def latin : Unicode where
  lower s := String.ofList (s.toList.flatMap lowerLetter)
  isalnum c := c.isAlphanum || c = dottedCapital
  lower_lower s := by
    rw [String.toList_ofList, List.flatMap_assoc]
    congr 1
    refine List.flatMap_congr fun c _ => ?_
    by_cases h : c = dottedCapital
    · rw [h]
      decide
    · have hlower : lowerLetter c = [c.toLower] := if_neg h
      rw [hlower, List.flatMap_singleton, lowerLetter, if_neg (toLower_ne_dottedCapital h),
        LowerCase.toLower_of_isUpper_eq_false (LowerCase.isUpper_toLower c)]
  lower_ne_empty s h := by
    intro hempty
    have hnil : s.toList.flatMap lowerLetter = [] := by
      simpa using congrArg String.toList hempty
    have hletter (c : Char) : lowerLetter c ≠ [] := by
      unfold lowerLetter
      split_ifs <;> simp
    rw [List.flatMap_eq_nil_iff] at hnil
    apply h
    rw [← String.toList_eq_nil_iff]
    exact List.eq_nil_iff_forall_not_mem.mpr fun c hc => hletter c (hnil c hc)
  lower_of_ascii s h := by
    have hlower : ∀ c ∈ s.toList, lowerLetter c = [c] := by
      intro c hc
      obtain ⟨hascii, hupper⟩ := h c hc
      rw [lowerLetter, if_neg, LowerCase.toLower_of_isUpper_eq_false hupper]
      rintro rfl
      exact absurd hascii (by decide)
    rw [List.flatMap_congr hlower]
    simp

/-- A policy for one model with one quantization. -/
def oneQuantPolicy (quant : String) : CanaryPolicyV3 where
  modelPolicies := [⟨"m", List.replicate 32 1, [quant], 1⟩]

/-- A signature in the canonical range. -/
def sampleSignature : Bytes :=
  List.replicate 31 0 ++ [1] ++ (List.replicate 31 0 ++ [1]) ++ [27]

/-- A document for one model with one quantization. -/
def oneQuantDocument (quant : String) : SignedCanaryPolicyDocumentV3 :=
  ⟨oneQuantPolicy quant, [sampleSignature]⟩

theorem admitted_oneQuantDocument (given : String) {quant : String}
    (hmodel : CanaryModelPolicyV3.new latin "m" (List.replicate 32 1) [.str given] 1 =
      .ok ⟨"m", List.replicate 32 1, [quant], 1⟩) : (oneQuantDocument quant).Admitted latin := by
  refine ⟨oneQuantPolicy quant, oneQuantPolicy quant, [.bytes sampleSignature], ?_, ?_, ?_⟩
  · intro m hm
    obtain rfl := List.mem_singleton.mp hm
    exact ⟨_, _, _, _, hmodel⟩
  · have habiIds : (oneQuantPolicy "").checkAbiIds latin = .ok () := by decide +kernel
    refine IsPolicy.postInit ⟨fun m hm => ?_, List.cons_ne_nil _ _, ?_, ?_, ?_, rfl, habiIds⟩
    · obtain rfl := List.mem_singleton.mp hm
      exact isModel_of_new hmodel
    · exact Nat.one_le_two_pow
    · exact List.nodup_singleton _
    · exact List.pairwise_singleton _ _
  · rfl

/-- A plain quantization survives the round trip, as long as the document fits. -/
theorem signedCanaryPolicy_exact_int4 :
    SignedCanaryPolicyDocumentV3.fromJsonBytes latin (write (oneQuantDocument "int4").toDict) =
      .ok (oneQuantDocument "int4") :=
  ((signedCanaryPolicy_exact latin (fun _ => Digest.zero) fun _ value => .ok (.bytes value)).1
    (oneQuantDocument "int4") _ (admitted_oneQuantDocument "INT4" (by decide +kernel))
    (canonicalJsonBytes_eq_ok.mpr
      ⟨by rw [length_write (canonical_toDict _)]; decide +kernel, rfl⟩)).mpr (by decide +kernel)

/-- The constructors admit the dotted capital as a quantization, and the document is not read
back. -/
theorem dottedCapital_is_not_read_back :
    ∃ (d : SignedCanaryPolicyDocumentV3) (encoded : Bytes), d.Admitted latin ∧
      d.canonicalJsonBytes = .ok encoded ∧
      SignedCanaryPolicyDocumentV3.fromJsonBytes latin encoded ≠ .ok d := by
  let quant := String.ofList ['i', Char.ofNat 0x307]
  have hadmitted : (oneQuantDocument quant).Admitted latin :=
    admitted_oneQuantDocument (String.ofList [dottedCapital]) (by decide +kernel)
  have hencoded : (oneQuantDocument quant).canonicalJsonBytes =
      .ok (write (oneQuantDocument quant).toDict) :=
    canonicalJsonBytes_eq_ok.mpr
      ⟨by rw [length_write (canonical_toDict _)]; decide +kernel, rfl⟩
  refine ⟨_, _, hadmitted, hencoded, fun hread => ?_⟩
  -- The combining dot is no letter, so the stored quantization is no identifier.
  have hreload := (fromJsonBytes_iff (isDocument_of_admitted hadmitted) hencoded).mp hread
  exact absurd hreload (by decide +kernel)

end Verathos.CanaryPolicy
