import Verathos.CapacityAudit.PublicSelection
import Verathos.Lib.StrictJson

/-!
# What the capacity identifiers hash

A translation of `lease_id` and `transcript_root` of `neurons/capacity_audit.py`. `slot_id` is in the
module on the selection.

The hashed strings put texts of any length side by side. A lease has three of them in a row after a
fourth that is followed by a number, and a transcript has the text of a root between two counters,
so that one string of bytes can be read in several ways.

* `leaseFields_eq_iff`: leases with one preimage have the same fields exactly when the texts are cut
  at the same places.
* `passRoots_eq_iff`: transcripts with one preimage have the same roots exactly when the roots are
  of the same kinds and their texts are cut at the same places.
-/

namespace Verathos.CapacityAudit

open Receipts (utf8 utf8_injective packQ FitsQ packQ_eq_ok)

/-! ## Leases -/

section

variable (p : Platform)

/-- What `lease_id` hashes. -/
def leasePreimage (slot : CapacitySlot) (auditEpoch : ℤ) : Result Bytes := do
  let chainId ← u64 slot.chainId
  let netuid ← u64 slot.netuid
  let modelIndex ← packQ slot.modelIndex
  let maxContextLen ← u64 slot.maxContextLen
  let epoch ← u64 auditEpoch
  return asciiBytes "VERATHOS_CAPACITY_LEASE_V1" ++ (chainId ++ (netuid ++
    (utf8 (slot.addressLower p) ++ (modelIndex ++ (utf8 slot.endpoint ++ (utf8 slot.modelId ++
      (utf8 slot.quant ++ (maxContextLen ++ epoch))))))))

def leaseId (sha256 : Bytes → Digest) (slot : CapacitySlot) (auditEpoch : ℤ) : Result String := do
  let preimage ← leasePreimage p slot auditEpoch
  return Hex.toText (sha256 preimage).bytes

/-- The fields that a lease is about. -/
structure LeaseFields where
  chainId : ℤ
  netuid : ℤ
  address : String
  modelIndex : ℤ
  endpoint : String
  modelId : String
  quant : String
  maxContextLen : ℤ
  auditEpoch : ℤ
deriving DecidableEq

/-- The fields of the lease of a slot, its address in lower case. -/
def leaseFields (slot : CapacitySlot) (auditEpoch : ℤ) : LeaseFields where
  chainId := slot.chainId
  netuid := slot.netuid
  address := slot.addressLower p
  modelIndex := slot.modelIndex
  endpoint := slot.endpoint
  modelId := slot.modelId
  quant := slot.quant
  maxContextLen := slot.maxContextLen
  auditEpoch := auditEpoch

/-- The texts of two slots are cut at the same places. -/
def SameCuts (a b : CapacitySlot) : Prop :=
  (utf8 (a.addressLower p)).length = (utf8 (b.addressLower p)).length ∧
    (utf8 a.endpoint).length = (utf8 b.endpoint).length ∧
    (utf8 a.modelId).length = (utf8 b.modelId).length

end

variable {p : Platform}

variable {a : ℤ}

theorem u64_inj {b : ℤ} {bytes : Bytes} (ha : u64 a = .ok bytes) (hb : u64 b = .ok bytes) :
    a = b := by
  obtain ⟨⟨ha₀, ha⟩, rfl⟩ := u64_eq_ok.mp ha
  obtain ⟨⟨hb₀, hb⟩, h⟩ := u64_eq_ok.mp hb
  have := BigEndian.toBytes_inj (by omega) (by omega) h
  omega

theorem length_of_u64 {bytes : Bytes} (h : u64 a = .ok bytes) : bytes.length = 8 := by
  rw [(u64_eq_ok.mp h).2, BigEndian.length_toBytes]

theorem packQ_inj {b : ℤ} {bytes : Bytes} (ha : packQ a = .ok bytes) (hb : packQ b = .ok bytes) :
    a = b := by
  obtain ⟨hfits, rfl⟩ := packQ_eq_ok.mp ha
  obtain ⟨hfits', h⟩ := packQ_eq_ok.mp hb
  exact Receipts.toBytesSigned_inj_of_fitsQ hfits hfits' h

theorem length_of_packQ {bytes : Bytes} (h : packQ a = .ok bytes) : bytes.length = 8 := by
  rw [(packQ_eq_ok.mp h).2, BigEndian.length_toBytesSigned]

theorem leasePreimage_eq_ok {slot : CapacitySlot} {auditEpoch : ℤ} {bytes : Bytes} :
    leasePreimage p slot auditEpoch = .ok bytes ↔
      ∃ chainId, u64 slot.chainId = .ok chainId ∧ ∃ netuid, u64 slot.netuid = .ok netuid ∧
        ∃ modelIndex, packQ slot.modelIndex = .ok modelIndex ∧
          ∃ maxContextLen, u64 slot.maxContextLen = .ok maxContextLen ∧
            ∃ epoch, u64 auditEpoch = .ok epoch ∧
              asciiBytes "VERATHOS_CAPACITY_LEASE_V1" ++ (chainId ++ (netuid ++
                (utf8 (slot.addressLower p) ++ (modelIndex ++ (utf8 slot.endpoint ++
                  (utf8 slot.modelId ++ (utf8 slot.quant ++ (maxContextLen ++ epoch)))))))) =
                bytes := by
  simp only [leasePreimage, bind_eq_ok, pure_eq_ok]

theorem leaseFields_eq_iff {a b : CapacitySlot} {epoch epoch' : ℤ} {bytes : Bytes}
    (ha : leasePreimage p a epoch = .ok bytes) (hb : leasePreimage p b epoch' = .ok bytes) :
    leaseFields p a epoch = leaseFields p b epoch' ↔ SameCuts p a b := by
  constructor
  · intro h
    rw [leaseFields, leaseFields, LeaseFields.mk.injEq] at h
    obtain ⟨-, -, haddress, -, hendpoint, hmodel, -⟩ := h
    exact ⟨by rw [haddress], by rw [hendpoint], by rw [hmodel]⟩
  · rintro ⟨haddress, hendpoint, hmodel⟩
    obtain ⟨chain, hchain, net, hnet, index, hindex, context, hcontext, audit, haudit, rfl⟩ :=
      leasePreimage_eq_ok.mp ha
    obtain ⟨chain', hchain', net', hnet', index', hindex', context', hcontext', audit', haudit',
      heq⟩ := leasePreimage_eq_ok.mp hb
    -- fixed widths from the left up to the address, whose length is given
    obtain ⟨rfl, hrest⟩ := List.append_inj (List.append_cancel_left heq)
      (by rw [length_of_u64 hchain', length_of_u64 hchain])
    obtain ⟨rfl, htexts⟩ := List.append_inj hrest
      (by rw [length_of_u64 hnet', length_of_u64 hnet])
    obtain ⟨haddress, hafter⟩ := List.append_inj htexts haddress.symm
    obtain ⟨rfl, hthree⟩ := List.append_inj hafter
      (by rw [length_of_packQ hindex', length_of_packQ hindex])
    obtain ⟨hendpoint, htwo⟩ := List.append_inj hthree hendpoint.symm
    obtain ⟨hmodel, hone⟩ := List.append_inj htwo hmodel.symm
    -- the quantization is what the two numbers at the end leave
    obtain ⟨hquant, hnumbers⟩ := List.append_inj' hone
      (by rw [List.length_append, List.length_append, length_of_u64 hcontext',
        length_of_u64 haudit', length_of_u64 hcontext, length_of_u64 haudit])
    obtain ⟨rfl, rfl⟩ := List.append_inj hnumbers
      (by rw [length_of_u64 hcontext', length_of_u64 hcontext])
    rw [leaseFields, leaseFields, LeaseFields.mk.injEq]
    exact ⟨u64_inj hchain hchain', u64_inj hnet hnet', (utf8_injective haddress).symm,
      packQ_inj hindex hindex', (utf8_injective hendpoint).symm, (utf8_injective hmodel).symm,
      (utf8_injective hquant).symm, u64_inj hcontext hcontext', u64_inj haudit haudit'⟩

theorem identity_eq_of_slotPreimage_eq {a b : CapacitySlot} {bytes : Bytes}
    (ha : slotPreimage p a = .ok bytes) (hb : slotPreimage p b = .ok bytes) :
    identity p a = identity p b := by
  obtain ⟨hrange, rfl⟩ := slotPreimage_eq_ok.mp ha
  obtain ⟨hrange', heq⟩ := slotPreimage_eq_ok.mp hb
  exact identity_eq_of_layout_eq hrange hrange' heq

/-! ## Transcripts -/

/-- The items of a root that is a list or a tuple, without floats, each dictionary in the order of
its keys. -/
structure RootItems where
  items : List Json
  canonical : ∀ item ∈ items, StrictJson.Canonical item

/-- The root of a pass. -/
inductive PassRoot where
  | text (value : String)
  | int (value : ℤ)
  | list (root : RootItems)

/-- `list(root)` under the key `root`. -/
def RootItems.json (root : RootItems) : Json := .obj [("root", .arr root.items)]

/-- What a root adds to the transcript: `canonical_json` of a list, `str` of anything else. -/
def PassRoot.bytes : PassRoot → Bytes
  | .text value => utf8 value
  | .int value => utf8 (String.ofList (Json.dumpsInt value))
  | .list root => StrictJson.write root.json

/-- What `transcript_root` hashes, after its domain, from a counter on. -/
def transcriptParts : ℤ → List PassRoot → Result Bytes
  | _, [] => return []
  | idx, root :: roots => do
    let counter ← u64 idx
    let rest ← transcriptParts (idx + 1) roots
    return counter ++ (root.bytes ++ rest)

/-- What `transcript_root` hashes. -/
def transcriptPreimage (passRoots : List PassRoot) : Result Bytes := do
  let parts ← transcriptParts 0 passRoots
  return asciiBytes "VERATHOS_HOT_CAPACITY_TRANSCRIPT_V1" ++ parts

def transcriptRoot (sha256 : Bytes → Digest) (passRoots : List PassRoot) : Result String := do
  let preimage ← transcriptPreimage passRoots
  return Hex.toText (sha256 preimage).bytes

/-- Two roots are of one kind and their texts have the same length. -/
def PassRoot.SameShape : PassRoot → PassRoot → Prop
  | .text a, .text b => (PassRoot.text a).bytes.length = (PassRoot.text b).bytes.length
  | .int a, .int b => (PassRoot.int a).bytes.length = (PassRoot.int b).bytes.length
  | .list a, .list b => (PassRoot.list a).bytes.length = (PassRoot.list b).bytes.length
  | _, _ => False

theorem PassRoot.SameShape.refl (root : PassRoot) : root.SameShape root := by
  cases root <;> rfl

theorem PassRoot.SameShape.length_eq {a b : PassRoot} (h : a.SameShape b) :
    a.bytes.length = b.bytes.length := by
  cases a <;> cases b <;> first | exact h | exact absurd h id

theorem dumpsInt_injective {b : ℤ} (h : Json.dumpsInt a = Json.dumpsInt b) : a = b := by
  have ha : Json.loads (Json.dumps (.int a)) = some (.int a) := Json.loads_dumps trivial
  have hb : Json.loads (Json.dumps (.int b)) = some (.int b) := Json.loads_dumps trivial
  rw [Json.dumps, h, ← Json.dumps, hb] at ha
  exact (Json.int.inj (Option.some.inj ha)).symm

theorem RootItems.canonical_json (root : RootItems) : StrictJson.Canonical root.json := by
  apply StrictJson.canonical_obj
  · exact List.pairwise_singleton _ _
  · intro entry hentry
    obtain rfl := List.mem_singleton.mp hentry
    exact StrictJson.canonical_arr root.canonical

theorem PassRoot.eq_of_bytes_eq {a b : PassRoot} (hshape : a.SameShape b)
    (h : a.bytes = b.bytes) : a = b := by
  cases a with
  | text a =>
    cases b with
    | text b => exact congrArg PassRoot.text (utf8_injective h)
    | _ => exact absurd hshape id
  | int a =>
    cases b with
    | int b => exact congrArg PassRoot.int (dumpsInt_injective (String.ofList_injective
        (utf8_injective h)))
    | _ => exact absurd hshape id
  | list a =>
    cases b with
    | list b =>
      have ha := StrictJson.read_write a.canonical_json
      have hb := StrictJson.read_write b.canonical_json
      rw [show StrictJson.write a.json = StrictJson.write b.json from h, hb] at ha
      have hjson : b.json = a.json := Except.ok.inj ha
      rw [RootItems.json, RootItems.json, Json.obj.injEq] at hjson
      have hitems : b.items = a.items := Json.arr.inj (Prod.mk.inj (List.cons.inj hjson).1).2
      congr 1
      cases a
      cases b
      exact (RootItems.mk.injEq ..).mpr hitems.symm
    | _ => exact absurd hshape id

/-- Parts of one byte string, from one counter, are those of one list of roots exactly when the
roots have the same shapes. -/
theorem passRoots_eq_of_parts {idx : ℤ} {roots roots' : List PassRoot} {bytes : Bytes}
    (h : transcriptParts idx roots = .ok bytes) (h' : transcriptParts idx roots' = .ok bytes)
    (hshape : List.Forall₂ PassRoot.SameShape roots roots') : roots = roots' := by
  induction hshape generalizing idx bytes with
  | nil => rfl
  | @cons root root' roots roots' hroot _ ih =>
    simp only [transcriptParts, bind_eq_ok, pure_eq_ok] at h h'
    obtain ⟨counter, hcounter, rest, hrest, rfl⟩ := h
    obtain ⟨counter', hcounter', rest', hrest', heq⟩ := h'
    obtain ⟨-, hafter⟩ := List.append_inj heq
      (by rw [length_of_u64 hcounter', length_of_u64 hcounter])
    obtain ⟨hbytes, rfl⟩ := List.append_inj hafter hroot.length_eq.symm
    rw [PassRoot.eq_of_bytes_eq hroot hbytes.symm, ih hrest hrest']

theorem passRoots_eq_iff {roots roots' : List PassRoot} {bytes : Bytes}
    (h : transcriptPreimage roots = .ok bytes) (h' : transcriptPreimage roots' = .ok bytes) :
    roots = roots' ↔ List.Forall₂ PassRoot.SameShape roots roots' := by
  simp only [transcriptPreimage, bind_eq_ok, pure_eq_ok] at h h'
  obtain ⟨parts, hparts, rfl⟩ := h
  obtain ⟨parts', hparts', heq⟩ := h'
  obtain rfl := List.append_cancel_left heq
  constructor
  · rintro rfl
    exact List.forall₂_same.mpr fun root _ => .refl root
  · exact passRoots_eq_of_parts hparts hparts'

/-! ## The three identifiers -/

/-- What can be read back from the preimages of the three identifiers: slots are determined, leases
and transcripts exactly when their texts are cut at the same places. -/
theorem capacityPreimages_bind_iff (p : Platform) :
    (∀ a b epoch epoch' bytes, leasePreimage p a epoch = .ok bytes →
        leasePreimage p b epoch' = .ok bytes →
          (leaseFields p a epoch = leaseFields p b epoch' ↔ SameCuts p a b)) ∧
      (∀ a b bytes, slotPreimage p a = .ok bytes → slotPreimage p b = .ok bytes →
        identity p a = identity p b) ∧
      ∀ roots roots' bytes, transcriptPreimage roots = .ok bytes →
        transcriptPreimage roots' = .ok bytes →
          (roots = roots' ↔ List.Forall₂ PassRoot.SameShape roots roots') := by
  refine ⟨?_, ?_, ?_⟩
  · intro a b epoch epoch' bytes ha hb
    exact leaseFields_eq_iff ha hb
  · intro a b bytes ha hb
    exact identity_eq_of_slotPreimage_eq ha hb
  · intro roots roots' bytes h h'
    exact passRoots_eq_iff h h'

/-- A slot whose endpoint ends in the digits with which the other's model begins. -/
def longEndpoint : CapacitySlot :=
  { advertised with endpoint := "http://10.0.0.7:8000", modelId := "0/qwen3" }

/-- The slot with one digit less in its endpoint. -/
def shortEndpoint : CapacitySlot :=
  { advertised with endpoint := "http://10.0.0.7:800", modelId := "00/qwen3" }

/-- Two leases with one preimage and different endpoints, and two transcripts with one preimage and
different numbers of roots. -/
theorem capacityPreimages_not_bind :
    (leasePreimage onePlatform longEndpoint 5 = leasePreimage onePlatform shortEndpoint 5 ∧
        Accepts (leasePreimage onePlatform longEndpoint 5) ∧
        leaseFields onePlatform longEndpoint 5 ≠ leaseFields onePlatform shortEndpoint 5) ∧
      transcriptPreimage [.text "aa\x00\x00\x00\x00\x00\x00\x00\x01bb"] =
        transcriptPreimage [.text "aa", .text "bb"] ∧
      Accepts (transcriptPreimage [.text "aa", .text "bb"]) ∧
      [PassRoot.text "aa\x00\x00\x00\x00\x00\x00\x00\x01bb"] ≠ [.text "aa", .text "bb"] := by
  refine ⟨⟨by decide +kernel, by decide +kernel, by decide +kernel⟩, by decide +kernel,
    by decide +kernel, by simp⟩

/-- The two endpoints have different lengths, so the fields of the two leases differ. -/
theorem capacityPreimages_bind_iff_endpoints :
    leaseFields onePlatform longEndpoint 5 ≠ leaseFields onePlatform shortEndpoint 5 := by
  have heq : leasePreimage onePlatform longEndpoint 5 =
      leasePreimage onePlatform shortEndpoint 5 := by decide +kernel
  have haccepts : Accepts (leasePreimage onePlatform longEndpoint 5) := by decide +kernel
  obtain ⟨bytes, hbytes⟩ := haccepts
  have hiff := (capacityPreimages_bind_iff onePlatform).1 longEndpoint shortEndpoint 5 5 bytes
    hbytes (heq ▸ hbytes)
  rw [ne_eq, hiff]
  rintro ⟨-, hendpoint, -⟩
  revert hendpoint
  decide +kernel

end Verathos.CapacityAudit
