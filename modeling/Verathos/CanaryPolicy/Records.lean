import Verathos.CanaryPolicy.Defs

/-!
# The records that the constructors admit

What is known of a stored record, and that its dictionary gives it back.

* `IsModel`, `IsPolicy`, `IsDocument`: what the constructors establish;
* `fromDict_toDict_model`, `fromDict_toDict_policy`: the dictionary of a record gives the record
  back exactly when it is `Reloadable`: lower-casing left its quantizations identifiers, and its
  deferral is a plain integer;
* `postInit_perm`, `new_perm`: the order of the models and of the signatures does not matter.
-/

namespace Verathos.CanaryPolicy

open StableSort (sortBy)
open SortedSet (sorted)

variable {u : Unicode}

/-! ## Lists in order -/

variable {α : Type}

variable {items : List α}

theorem sorted_eq_of_perm [LinearOrder α] {items' : List α} (h : items.Perm items') :
    sorted items = sorted items' := by
  have hperm : (sorted items).Perm (sorted items') :=
    ((List.perm_insertionSort _ items).trans h).trans (List.perm_insertionSort _ items').symm
  exact hperm.eq_of_pairwise (fun a b _ _ => le_antisymm) (List.pairwise_insertionSort _ _)
    (List.pairwise_insertionSort _ _)

theorem sorted_eq_self [LinearOrder α] (h : items.Pairwise (· ≤ ·)) : sorted items = items :=
  h.insertionSort_eq

theorem pairwise_sorted [LinearOrder α] (items : List α) : (sorted items).Pairwise (· ≤ ·) :=
  List.pairwise_insertionSort _ _

theorem sortBy_eq_of_perm {κ : Type} [LinearOrder κ] {key : α → κ} {items' : List α}
    (h : items.Perm items') (hnodup : (items.map key).Nodup) :
    sortBy key items = sortBy key items' := by
  have hinj : ∀ a ∈ items, ∀ b ∈ items, key a = key b → a = b :=
    fun a ha b hb => List.inj_on_of_nodup_map hnodup ha hb
  have hout := (StableSort.forall_perm_map_sortBy_iff key id items).mpr hinj items' h.symm
  rw [List.map_id, List.map_id] at hout
  exact hout.symm

theorem forall_mem_of_mapM {ε β : Type} {f : α → Except ε β} {P : β → Prop} {results : List β}
    (h : items.mapM f = .ok results) (hf : ∀ a b, f a = .ok b → P b) : ∀ b ∈ results, P b := by
  have hall : List.Forall₂ (fun b a => P b ∧ f a = .ok b) results items :=
    ((mapM_eq_ok.mp h).imp fun a b hab => ⟨hf a b hab, hab⟩).flip
  exact ((List.forall₂_and_left _ _).mp hall).1

/-! ## Dictionaries -/

variable {value : Json}

@[simp]
theorem dictOf_eq_ok {keys : List String} {message : String} {members : List (String × Json)} :
    dictOf value keys message = .ok members ↔
      value = .obj members ∧ (members.map Prod.fst).toFinset = keys.toFinset := by
  cases value with
  | obj items =>
    simp only [dictOf, ne_eq, ite_not]
    split_ifs with h
    · rw [Except.ok.injEq, Json.obj.injEq]
      exact ⟨fun heq => ⟨heq, heq ▸ h⟩, And.left⟩
    · simp only [Json.obj.injEq, false_iff, not_and]
      rintro rfl
      exact h
  | _ => simp [dictOf]

@[simp]
theorem listOf_eq_ok {message : String} {items : List Json} :
    listOf value message = .ok items ↔ value = .arr items := by
  cases value <;> simp [listOf]

@[simp]
theorem item_eq_ok {members : List (String × Json)} {key : String} :
    item members key = .ok value ↔ members.lookup key = some value := by
  unfold item
  cases members.lookup key <;> simp

/-! ## Model policies -/

/-- What the constructor of a model policy establishes. -/
structure IsModel (u : Unicode) (m : CanaryModelPolicyV3) : Prop where
  modelId : IsIdentifier u m.modelId
  digest_length : m.executionProfileDigest.length = 32
  digest_ne : m.executionProfileDigest ≠ List.replicate 32 0
  lowered : ∀ q ∈ m.allowedQuantizations, u.lower q = q ∧ q.length ≤ 32
  quants_ne : m.allowedQuantizations ≠ []
  quants_length : m.allowedQuantizations.length ≤ 32
  quants_nodup : m.allowedQuantizations.Nodup
  quants_sorted : m.allowedQuantizations.Pairwise (· ≤ ·)
  maxHardAuditDecodeTokens : 1 ≤ m.maxHardAuditDecodeTokens ∧ m.maxHardAuditDecodeTokens < 2 ^ 32

/-- The quantizations of a model policy are identifiers after they were lower-cased. -/
def CanaryModelPolicyV3.Reloadable (u : Unicode) (m : CanaryModelPolicyV3) : Prop :=
  ∀ q ∈ m.allowedQuantizations, IsIdentifier u q

instance (m : CanaryModelPolicyV3) : Decidable (m.Reloadable u) :=
  inferInstanceAs (Decidable (∀ q ∈ m.allowedQuantizations, IsIdentifier u q))

variable {m : CanaryModelPolicyV3}

theorem isModel_of_new {modelId : String} {digest : Bytes} {quants : List Json} {maxHard : ℤ}
    (h : CanaryModelPolicyV3.new u modelId digest quants maxHard = .ok m) : IsModel u m := by
  simp only [CanaryModelPolicyV3.new, bind_eq_ok, identifier_eq_ok, refuseIf_eq_ok, u32_eq_ok,
    pure_eq_ok, exists_const, mapM_eq_ok] at h
  obtain ⟨_, ⟨hid, hidentifier⟩, hdigest, texts, htexts, hquants, n, ⟨hn, hlow, hhigh⟩, rfl⟩ := h
  simp only [not_or, not_not, not_lt] at hdigest hquants
  obtain rfl := Json.str.inj hid
  refine ⟨hidentifier, hdigest.1, hdigest.2, fun q hq => ?_, hquants.1, hquants.2.1, hquants.2.2,
    pairwise_sorted _, hlow, hhigh⟩
  -- A stored quantization is the lower case of one that was given.
  have hlowered : ∀ q ∈ texts, u.lower q = q ∧ q.length ≤ 32 := by
    refine forall_mem_of_mapM (mapM_eq_ok.mpr htexts) fun value q hvalue => ?_
    obtain ⟨t, -, -, rfl, hlength⟩ := canonicalQuant_eq_ok.mp hvalue
    exact ⟨u.lower_lower t, hlength⟩
  exact hlowered q (SortedSet.mem_sorted.mp hq)

theorem mapM_canonicalQuant (h : IsModel u m) {texts : List String} :
    (m.allowedQuantizations.map Json.str).mapM (canonicalQuant u) = .ok texts ↔
      m.Reloadable u ∧ texts = m.allowedQuantizations := by
  rw [mapM_eq_ok, List.forall₂_map_left_iff]
  have hlowered := h.lowered
  constructor
  · intro htexts
    have hmem := (List.forall₂_and_left (p := fun q => q ∈ m.allowedQuantizations) _ _).mpr
      ⟨fun _ hq => hq, htexts⟩
    have hquants : List.Forall₂ (fun q t => IsIdentifier u q ∧ q = t) m.allowedQuantizations
        texts := by
      refine hmem.imp fun q t h => ?_
      obtain ⟨_, hstr, hidentifier, rfl, -⟩ := canonicalQuant_eq_ok.mp h.2
      obtain rfl := Json.str.inj hstr
      exact ⟨hidentifier, (hlowered q h.1).1.symm⟩
    obtain ⟨hreload, heq⟩ := (List.forall₂_and_left _ _).mp hquants
    rw [List.forall₂_eq_eq_eq] at heq
    exact ⟨hreload, heq.symm⟩
  · rintro ⟨hreload, rfl⟩
    apply List.forall₂_same.mpr
    intro q hq
    exact canonicalQuant_eq_ok.mpr ⟨q, rfl, hreload q hq, (hlowered q hq).1.symm, (hlowered q hq).2⟩

theorem new_eq_ok {m' : CanaryModelPolicyV3} (h : IsModel u m) :
    CanaryModelPolicyV3.new u m.modelId m.executionProfileDigest
        (m.allowedQuantizations.map .str) m.maxHardAuditDecodeTokens = .ok m' ↔
      m.Reloadable u ∧ m' = m := by
  have hsorted := sorted_eq_self h.quants_sorted
  simp only [CanaryModelPolicyV3.new, bind_eq_ok, identifier_eq_ok, refuseIf_eq_ok, u32_eq_ok,
    pure_eq_ok, exists_const, mapM_canonicalQuant h, not_or, not_not, not_lt]
  constructor
  · rintro ⟨_, ⟨hid, -⟩, -, _, ⟨hreload, rfl⟩, -, _, ⟨hmax, -⟩, rfl⟩
    obtain rfl := Json.str.inj hid
    obtain rfl := Json.int.inj hmax
    rw [hsorted]
    exact ⟨hreload, rfl⟩
  · rintro ⟨hreload, rfl⟩
    refine ⟨_, ⟨rfl, h.modelId⟩, ⟨h.digest_length, h.digest_ne⟩, _, ⟨hreload, rfl⟩, ?_, _,
      ⟨rfl, h.maxHardAuditDecodeTokens⟩, by rw [hsorted]⟩
    rw [hsorted]
    exact ⟨h.quants_ne, h.quants_length, h.quants_nodup⟩

theorem fromDict_toDict_model {m' : CanaryModelPolicyV3} (h : IsModel u m) :
    CanaryModelPolicyV3.fromDict u m.toDict = .ok m' ↔ m.Reloadable u ∧ m' = m := by
  rw [← new_eq_ok h]
  -- Every field is found under its key and has passed its check before.
  simp [CanaryModelPolicyV3.fromDict, CanaryModelPolicyV3.toDict, List.lookup_cons, and_assoc,
    hex32_toText h.digest_length, h.modelId, h.maxHardAuditDecodeTokens.1,
    show m.maxHardAuditDecodeTokens < 4294967296 from h.maxHardAuditDecodeTokens.2]

theorem mapM_toDict {models models' : List CanaryModelPolicyV3}
    (h : ∀ m ∈ models, IsModel u m) :
    (models.map CanaryModelPolicyV3.toDict).mapM (CanaryModelPolicyV3.fromDict u) = .ok models' ↔
      (∀ m ∈ models, m.Reloadable u) ∧ models' = models := by
  induction models generalizing models' with
  | nil => simp [eq_comm, pure, Except.pure]
  | cons m models ih =>
    obtain ⟨hm, hmodels⟩ := List.forall_mem_cons.mp h
    rw [List.map_cons, List.mapM_cons]
    simp only [bind_eq_ok, pure_eq_ok, fromDict_toDict_model hm, ih hmodels, List.forall_mem_cons]
    constructor
    · rintro ⟨_, ⟨hreload, rfl⟩, _, ⟨hreloads, rfl⟩, rfl⟩
      exact ⟨⟨hreload, hreloads⟩, rfl⟩
    · rintro ⟨⟨hreload, hreloads⟩, rfl⟩
      exact ⟨m, ⟨hreload, rfl⟩, models, ⟨hreloads, rfl⟩, rfl⟩

/-! ## Policies -/

/-- What the constructor of a policy establishes. -/
structure IsPolicy (u : Unicode) (p : CanaryPolicyV3) : Prop where
  models : ∀ m ∈ p.modelPolicies, IsModel u m
  models_ne : p.modelPolicies ≠ []
  models_length : p.modelPolicies.length ≤ maxCanaryPolicyModels
  models_nodup : (p.modelPolicies.map CanaryModelPolicyV3.modelId).Nodup
  models_sorted : p.modelPolicies.Pairwise fun a b => a.modelId ≤ b.modelId
  numbers : p.checkNumbers = .ok ()
  abiIds : p.checkAbiIds u = .ok ()

/-- A policy that its dictionary gives back: lower-casing left its quantizations identifiers, and
its deferral is an integer and not a truth value. -/
def CanaryPolicyV3.Reloadable (u : Unicode) (p : CanaryPolicyV3) : Prop :=
  p.maxFullContextDeferralEpochs = .int 1 ∧ ∀ m ∈ p.modelPolicies, m.Reloadable u

instance (p : CanaryPolicyV3) : Decidable (p.Reloadable u) :=
  inferInstanceAs (Decidable (_ ∧ ∀ m ∈ p.modelPolicies, m.Reloadable u))

variable {p : CanaryPolicyV3}

theorem isPolicy_of_postInit {policy : CanaryPolicyV3}
    (hmodels : ∀ m ∈ policy.modelPolicies, IsModel u m) (h : policy.postInit u = .ok p) :
    IsPolicy u p := by
  simp only [CanaryPolicyV3.postInit, bind_eq_ok, refuseIf_eq_ok, pure_eq_ok, exists_const, not_or,
    not_not, not_lt] at h
  obtain ⟨⟨hne, hlength, hnodup⟩, ⟨⟩, hnumbers, ⟨⟩, habiIds, rfl⟩ := h
  refine ⟨fun m hm => ?_, hne, hlength, hnodup, StableSort.pairwise_sortBy _ _, hnumbers, habiIds⟩
  exact hmodels m ((StableSort.mem_sortBy _).mp hm)

theorem IsPolicy.postInit (h : IsPolicy u p) : p.postInit u = .ok p := by
  have hsorted := StableSort.sortBy_of_pairwise _ h.models_sorted
  simp only [CanaryPolicyV3.postInit, hsorted, bind_eq_ok, refuseIf_eq_ok, pure_eq_ok, exists_const,
    not_or, not_not, not_lt]
  exact ⟨⟨h.models_ne, h.models_length, h.models_nodup⟩, (), h.numbers, (), h.abiIds, trivial⟩

/-- The numbers of a policy that are checked where the policy is constructed. -/
def CanaryPolicyV3.numbers (p : CanaryPolicyV3) : List ℤ :=
  [p.minimumLowContextCanaries, p.minimumAdvertisedContextLightCanaries,
    p.hardAuditorCandidateTargetPerEpoch, p.hardAuditorCandidateHardBps, p.lowContextMinTokens,
    p.lowContextMaxTokens, p.lowContextMaxDecodeTokens, p.fullContextDecodeReserveTokens,
    p.fullContextMaxDecodeTokens, p.fullContextMaxAttempts, p.advertisedContextTargetBps,
    p.hardDecodeAnchorBps, p.hardDecodeTailBps, p.lateDecodeMinOutputBps, p.repeatPrefixTargetBps,
    p.repeatPrefixMinTokens, p.maxHardAuditDroughtEpochs]

/-- The identifiers of a policy. -/
def CanaryPolicyV3.abiIds (p : CanaryPolicyV3) : List String :=
  [p.policyAbiId, p.promptRecipeAbiId, p.contextConstructionAbiId, p.busyPolicyAbiId,
    p.scheduleSelectionAbiId, p.hardDecodeSelectionAbiId, p.repeatPrefixAbiId]

theorem facts_of_checkNumbers (h : p.checkNumbers = .ok ()) :
    (∀ n ∈ p.numbers, 0 ≤ n ∧ n < 4294967296) ∧ p.maxFullContextDeferralEpochs.value = 1 ∧
      p.policyVersion.value = 3 ∧ p.protocolVersion.value = 3 := by
  simp only [CanaryPolicyV3.checkNumbers, bind_eq_ok, u32_eq_ok, refuseIf_eq_ok, exists_const,
    Json.int.injEq, and_assoc, exists_eq_left'] at h
  constructor
  · simp only [CanaryPolicyV3.numbers, List.mem_cons, List.not_mem_nil, or_false,
      forall_eq_or_imp, forall_eq]
    and_intros <;> omega
  · omega

theorem isIdentifier_of_checkAbiIds (h : p.checkAbiIds u = .ok ()) :
    ∀ s ∈ p.abiIds, IsIdentifier u s := by
  simp only [CanaryPolicyV3.checkAbiIds, bind_eq_ok, refuseIf_eq_ok, identifier_eq_ok, pure_eq_ok,
    exists_const, Json.str.injEq, and_assoc, exists_eq_left'] at h
  obtain ⟨-, -, -, -, -, -, -, hids⟩ := h
  simp only [CanaryPolicyV3.abiIds, List.mem_cons, List.not_mem_nil, or_false, forall_eq_or_imp,
    forall_eq]
  simpa only [and_true] using hids

/-- The numbers of the versions are three only for integers. -/
theorem PyInt.eq_int_of_value {x : PyInt} {n : ℤ} (h : x.value = n) (hn : n ≠ 0 ∧ n ≠ 1) :
    x = .int n := by
  cases x with
  | int m => exact congrArg _ h
  | bool b => cases b <;> simp [PyInt.value] at h <;> omega

theorem PyInt.toJson_eq_int {x : PyInt} {n : ℤ} (h : x.toJson = .int n) : x = .int n := by
  cases x with
  | int m => exact congrArg _ (Json.int.inj h)
  | bool b => cases h

theorem CanaryPolicyV3.with_versions {version protocol : PyInt}
    (hversion : p.policyVersion = version) (hprotocol : p.protocolVersion = protocol) :
    { p with policyVersion := version, protocolVersion := protocol } = p := by
  subst hversion hprotocol
  rfl

theorem fromDict_toDict_policy {p' : CanaryPolicyV3} (h : IsPolicy u p) :
    CanaryPolicyV3.fromDict u p.toDict = .ok p' ↔ p.Reloadable u ∧ p' = p := by
  obtain ⟨hnumbers, hdeferral, hversion, hprotocol⟩ := facts_of_checkNumbers h.numbers
  have habiIds := isIdentifier_of_checkAbiIds h.abiIds
  simp only [CanaryPolicyV3.numbers, CanaryPolicyV3.abiIds, List.mem_cons, List.not_mem_nil,
    or_false, forall_eq_or_imp, forall_eq] at hnumbers habiIds
  have hversion' := PyInt.eq_int_of_value hversion (by decide)
  have hprotocol' := PyInt.eq_int_of_value hprotocol (by decide)
  have hdict (message : String) :
      dictOf p.toDict CanaryPolicyV3.keys message = .ok p.members :=
    dictOf_eq_ok.mpr ⟨rfl, rfl⟩
  simp only [CanaryPolicyV3.fromDict, hdict, bind_eq_ok, Except.ok.injEq, exists_eq_left',
    listOf_eq_ok, item_eq_ok, CanaryPolicyV3.u32Field, u32_eq_ok, CanaryPolicyV3.identifierField,
    identifier_eq_ok]
  -- Every field is found under its key and has passed its check before.
  simp only [CanaryPolicyV3.members, List.lookup_cons, String.reduceBEq, Option.some.injEq,
    exists_eq_left', Json.arr.injEq, Json.int.injEq, Json.str.injEq, and_assoc, hnumbers, habiIds,
    true_and]
  have hmodels (models : List CanaryModelPolicyV3) :
      (p.modelPolicies.map CanaryModelPolicyV3.toDict).mapM (CanaryModelPolicyV3.fromDict u) =
          .ok models ↔ (∀ m ∈ p.modelPolicies, m.Reloadable u) ∧ models = p.modelPolicies :=
    mapM_toDict h.models
  -- The stored policy, with its three loosely typed fields in place of the numbers read.
  constructor
  · rintro ⟨models, hread, -, -, -, -, -, -, -, -, -, -, -, -, -, -, -, -, deferral, hdeferral', -, -,
      -, version, hversion'', -, -, protocol, hprotocol'', -, -, hp'⟩
    obtain ⟨hreload, rfl⟩ := (hmodels models).mp hread
    have hpolicy : p.maxFullContextDeferralEpochs = .int deferral := PyInt.toJson_eq_int hdeferral'
    obtain rfl : deferral = 1 := by
      rw [hpolicy] at hdeferral
      exact hdeferral
    rw [← hpolicy, ← PyInt.toJson_eq_int hversion'', ← PyInt.toJson_eq_int hprotocol''] at hp'
    have hstored := h.postInit.symm.trans hp'
    exact ⟨⟨hpolicy, hreload⟩, (Except.ok.inj hstored).symm⟩
  · rintro ⟨⟨hpolicy, hreload⟩, rfl⟩
    refine ⟨p'.modelPolicies, (hmodels _).mpr ⟨hreload, rfl⟩, by omega, by omega, by omega, by omega,
      by omega, by omega, by omega, by omega, by omega, by omega, by omega, by omega, by omega,
      by omega, by omega, by omega, 1, by rw [hpolicy]; rfl, by omega, by omega, by omega, 3,
      by rw [hversion']; rfl, by omega, by omega, 3, by rw [hprotocol']; rfl, by omega, by omega, ?_⟩
    rw [← hpolicy]
    have hfields := CanaryPolicyV3.with_versions hversion' hprotocol'
    exact (congrArg (CanaryPolicyV3.postInit u) hfields).trans h.postInit

/-! ## Permutations -/

theorem postInit_perm {policy : CanaryPolicyV3} {models : List CanaryModelPolicyV3}
    (hperm : models.Perm policy.modelPolicies) (h : policy.postInit u = .ok p) :
    CanaryPolicyV3.postInit u { policy with modelPolicies := models } = .ok p := by
  have hnodup : (policy.modelPolicies.map CanaryModelPolicyV3.modelId).Nodup := by
    simp only [CanaryPolicyV3.postInit, bind_eq_ok, refuseIf_eq_ok, not_or, not_not] at h
    obtain ⟨-, ⟨-, -, hnodup⟩, -⟩ := h
    exact (((StableSort.sortBy_perm _ _).map _).nodup_iff).mp hnodup
  have hsorted := sortBy_eq_of_perm hperm.symm hnodup
  rw [← h]
  simp only [CanaryPolicyV3.postInit, hsorted]
  rfl

/-! ## Documents -/

/-- What the constructor of a document establishes. -/
structure IsDocument (u : Unicode) (d : SignedCanaryPolicyDocumentV3) : Prop where
  policy : IsPolicy u d.policy
  canonical : ∀ s ∈ d.signatures, s.length = 65 ∧ IsCanonicalSignature s
  signatures_ne : d.signatures ≠ []
  signatures_length : d.signatures.length ≤ maxCanaryPolicySignatures
  signatures_nodup : d.signatures.Nodup
  signatures_sorted : d.signatures.Pairwise (· ≤ ·)

@[simp]
theorem signaturesNotCanonical_eq_ok {result : PolicyResult α} {a : α} :
    signaturesNotCanonical result = .ok a ↔ result = .ok a := by
  rcases result with (_ | _ | _) | _ <;> simp [signaturesNotCanonical]

variable {d : SignedCanaryPolicyDocumentV3}

theorem isDocument_of_new {signatures : List BytesOrObject} (hp : IsPolicy u p)
    (h : SignedCanaryPolicyDocumentV3.new p signatures = .ok d) : IsDocument u d := by
  simp only [SignedCanaryPolicyDocumentV3.new, bind_eq_ok, signaturesNotCanonical_eq_ok,
    refuseIf_eq_ok, pure_eq_ok, exists_const, not_or, not_not, not_lt] at h
  obtain ⟨values, hvalues, ⟨hne, hlength, hnodup⟩, rfl⟩ := h
  refine ⟨hp, fun s hs => ?_, hne, hlength, hnodup, pairwise_sorted _⟩
  have hcanonical : ∀ s ∈ values, s.length = 65 ∧ IsCanonicalSignature s :=
    forall_mem_of_mapM hvalues fun _ _ hs => (signatureOf_eq_ok.mp hs).2
  exact hcanonical s (SortedSet.mem_sorted.mp hs)

theorem IsDocument.new (h : IsDocument u d) :
    SignedCanaryPolicyDocumentV3.new d.policy (d.signatures.map .bytes) = .ok d := by
  have hsorted := sorted_eq_self h.signatures_sorted
  have hvalues : (d.signatures.map BytesOrObject.bytes).mapM signatureOf = .ok d.signatures := by
    rw [mapM_eq_ok, List.forall₂_map_left_iff, List.forall₂_same]
    exact fun s hs => signatureOf_eq_ok.mpr ⟨rfl, h.canonical s hs⟩
  simp only [SignedCanaryPolicyDocumentV3.new, bind_eq_ok, signaturesNotCanonical_eq_ok, hvalues,
    Except.ok.injEq, exists_eq_left', hsorted, refuseIf_eq_ok, pure_eq_ok, exists_const, not_or,
    not_not, not_lt]
  exact ⟨⟨h.signatures_ne, h.signatures_length, h.signatures_nodup⟩, trivial⟩

theorem new_perm {signatures signatures' : List BytesOrObject} (hperm : signatures'.Perm signatures)
    (h : SignedCanaryPolicyDocumentV3.new p signatures = .ok d) :
    SignedCanaryPolicyDocumentV3.new p signatures' = .ok d := by
  simp only [SignedCanaryPolicyDocumentV3.new, bind_eq_ok, signaturesNotCanonical_eq_ok] at h ⊢
  obtain ⟨values, hvalues, hrest⟩ := h
  obtain ⟨values', hvalues', hperm'⟩ :=
    List.perm_comp_forall₂ hperm (mapM_eq_ok.mp hvalues)
  refine ⟨values', mapM_eq_ok.mpr hvalues', ?_⟩
  rw [sorted_eq_of_perm hperm']
  exact hrest

end Verathos.CanaryPolicy
