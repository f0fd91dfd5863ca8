import Verathos.Basic
import Verathos.Lib.CounterFrame
import Verathos.Lib.Texts

/-!
# The root chains of a workspace proof

A translation of the root chains of `neurons/capacity_audit_workspace_proof.py`: the pass root, the
two transcript roots, and the checks of `_verify_workspace_proof_payload_strict` on the chains. The
sampling and the openings are parameters.

A failed check gives its reason. An exception gives the reason that `verify_workspace_proof_payload`
gives for it. A list has fewer than `2 ^ 64` items, so that packing a counter of its items does not
raise.
-/

namespace Verathos.WorkspaceProof

open CounterFrame (frame)

/-- The result of a check: its value, or the reason of the rejection. -/
abbrev Check := Except String

/-- `if condition: return False, reason`. -/
def rejectIf (condition : Prop) [Decidable condition] (reason : String) : Check Unit :=
  if condition then .error reason else .ok ()

/-- The reason of a payload whose check raises. -/
def malformed : String := "malformed_workspace_proof"

/-- `_u64` of a counter. -/
def u64 (counter : ℕ) : Bytes := BigEndian.toBytes 8 counter

/-- `_u64(int(value))`. -/
def packU64 (value : ℤ) : Check Bytes := do
  rejectIf (value < 0 ∨ value ≥ 2 ^ 64) malformed
  return u64 value.toNat

/-- `bytes.fromhex(str(root_hex).removeprefix("0x"))`. -/
def rootBytes (rootHex : String) : Check Bytes :=
  match Hex.ofDigits (Hex.stripPrefix rootHex.toList) with
  | some bytes => .ok bytes
  | none => .error malformed

/-! ## The payload -/

/-- A value that should be a list. -/
inductive PyList (α : Type) where
  | none
  | list (items : List α)
  | other

/-- `isinstance(value, list)`. -/
def PyList.require {α : Type} (reason : String) : PyList α → Check (List α)
  | list items => .ok items
  | _ => .error reason

/-- `list(value or [])`. -/
def PyList.orEmpty {α : Type} : PyList α → Check (List α)
  | none => .ok []
  | list items => .ok items
  | other => .error malformed

/-- An entry of `root_chain`. Its roots are the texts that `str` gives. -/
structure PassEntry where
  passIndex : Option ℤ
  passRoot : String
  roundRoots : PyList String

/-- An entry of `state_root_chain`. -/
structure StatePassEntry where
  passIndex : Option ℤ
  roundStateRoots : PyList (PyList String)

/-- The integers that head a payload. -/
structure WorkspaceParameters where
  matrixDim : ℤ
  blockSize : ℤ
  rounds : ℤ
  spotChecks : ℤ
  workspaceSeed : ℤ
  memoryMixRounds : ℤ
  transitionMixRounds : ℤ
  transitionFanout : ℤ
deriving DecidableEq

/-- A workspace proof payload. What is not of its type is `none`. -/
structure Payload where
  format : String
  parameters : Option WorkspaceParameters
  rootChain : PyList PassEntry
  stateRootChain : PyList StatePassEntry

def workspaceProofFormat : String := "fixed_workspace_merkle_gemm_v1"

def workspaceMixedProofFormat : String := "fixed_workspace_mixed_merkle_gemm_v2"

def workspaceTransitionProofFormat : String := "fixed_workspace_transition_merkle_gemm_v3"

/-! ## Roots -/

variable (sha256 : Bytes → Digest)

/-- What `pass_root_from_round_roots` hashes, for decoded roots. -/
def passRootMessage (passIndex : ℕ) (roots : List Bytes) : Bytes :=
  asciiBytes "VERATHOS_FIXED_WORKSPACE_PASS_ROOT_V1" ++
    (u64 passIndex ++ (u64 roots.length ++ frame u64 0 roots))

def passRootFromRoundRoots (passIndex : ℕ) (roundRoots : List String) : Check String := do
  let roots ← roundRoots.mapM rootBytes
  return Hex.toText (sha256 (passRootMessage passIndex roots)).bytes

/-- The bytes of a pass in both transcript roots. -/
def passEntryBytes (entry : PassEntry) : Check Bytes := do
  let passIndex ← packU64 (entry.passIndex.getD 0)
  let passRoot ← rootBytes entry.passRoot
  let roundRoots ← entry.roundRoots.orEmpty
  let roots ← roundRoots.mapM rootBytes
  return passIndex ++ (passRoot ++ (u64 roots.length ++ frame u64 0 roots))

/-- What `workspace_transcript_root` hashes. -/
def workspaceTranscriptMessage (passEntries : List PassEntry) : Check Bytes := do
  let passes ← passEntries.mapM passEntryBytes
  return asciiBytes "VERATHOS_FIXED_WORKSPACE_TRANSCRIPT_V1" ++
    (u64 passEntries.length ++ passes.flatten)

def workspaceTranscriptRoot (passEntries : List PassEntry) : Check String := do
  let message ← workspaceTranscriptMessage passEntries
  return Hex.toText (sha256 message).bytes

/-- The bytes of the state roots of a round: their count and the roots. -/
def stateRoundBytes (stateRoots : PyList String) : Check Bytes := do
  let items ← stateRoots.require malformed
  let roots ← items.mapM rootBytes
  return u64 roots.length ++ frame u64 0 roots

/-- The bytes of the state roots of a pass. -/
def statePassBytes (entry : StatePassEntry) : Check Bytes := do
  let passIndex ← packU64 (entry.passIndex.getD 0)
  let roundStateRoots ← entry.roundStateRoots.orEmpty
  let rounds ← roundStateRoots.mapM stateRoundBytes
  return passIndex ++ (u64 rounds.length ++ frame u64 0 rounds)

/-- What `workspace_transcript_root_v2` hashes. -/
def workspaceTranscriptMessageV2 (passEntries : List PassEntry)
    (statePassEntries : List StatePassEntry) : Check Bytes := do
  let passes ← passEntries.mapM passEntryBytes
  let states ← statePassEntries.mapM statePassBytes
  return asciiBytes "VERATHOS_FIXED_WORKSPACE_TRANSCRIPT_V2" ++
    (u64 passEntries.length ++ (passes.flatten ++
      (u64 statePassEntries.length ++ states.flatten)))

def workspaceTranscriptRootV2 (passEntries : List PassEntry)
    (statePassEntries : List StatePassEntry) : Check String := do
  let message ← workspaceTranscriptMessageV2 passEntries statePassEntries
  return Hex.toText (sha256 message).bytes

/-! ## The checks -/

/-- What the verifier expects of the chains. -/
structure ExpectedRoots where
  transcriptRoot : String
  pass0Root : String
  finalRoot : String
  passCount : ℤ
  expectedSpotChecks : Option ℤ
  proofProtocolVersion : ℤ

/-- The format and the integers of a payload. -/
def checkParameters (expected : ExpectedRoots) (proof : Payload) : Check WorkspaceParameters := do
  rejectIf (expected.proofProtocolVersion ∉ [1, 2])
    "unsupported_workspace_proof_protocol_version"
  rejectIf (proof.format ∉ [workspaceProofFormat, workspaceMixedProofFormat,
    workspaceTransitionProofFormat]) "unsupported_proof_payload_format"
  let invalid := "invalid_workspace_proof_parameters"
  let p ← match proof.parameters with
    | some p => .ok p
    | none => .error invalid
  rejectIf (p.matrixDim ≤ 1 ∨ p.blockSize ≤ 1 ∨ p.rounds ≤ 0 ∨ p.spotChecks ≤ 0 ∨
    p.spotChecks > 4096 ∨ expected.passCount ≤ 0 ∨ p.matrixDim % p.blockSize ≠ 0 ∨
    p.blockSize.toNat &&& (p.blockSize.toNat - 1) ≠ 0) invalid
  match expected.expectedSpotChecks with
  | none => pure ()
  | some count =>
    rejectIf (count ≤ 0 ∨ count > 4096) "invalid_expected_spot_check_count"
    rejectIf (p.spotChecks ≠ count) "spot_check_count_does_not_match_scheduled_workload"
  rejectIf (p.memoryMixRounds < 0 ∨ p.transitionMixRounds < 0 ∨ p.transitionFanout ≤ 0) invalid
  rejectIf (proof.format = workspaceMixedProofFormat ∧ p.memoryMixRounds ≤ 0) invalid
  rejectIf (proof.format = workspaceProofFormat ∧ p.memoryMixRounds ≠ 0) invalid
  if proof.format = workspaceTransitionProofFormat then
    rejectIf (p.memoryMixRounds ≠ 0 ∨ p.transitionMixRounds ≤ 0) invalid
  else
    rejectIf (p.transitionMixRounds ≠ 0) invalid
  return p

/-- The body of the loop over `root_chain`. -/
def checkPassEntry (rounds : ℤ) (index : ℕ) (entry : PassEntry) : Check Unit := do
  rejectIf (entry.passIndex.getD (-1) ≠ index) "root_chain_pass_index_mismatch"
  let roundRoots ← entry.roundRoots.require "round_root_chain_length_mismatch"
  rejectIf (roundRoots.length ≠ rounds) "round_root_chain_length_mismatch"
  let passRoot ← passRootFromRoundRoots sha256 index roundRoots
  rejectIf (passRoot ≠ entry.passRoot) "pass_root_mismatch"

/-- The loop over `root_chain`. -/
def checkPassEntries (rounds : ℤ) : ℕ → List PassEntry → Check Unit
  | _, [] => .ok ()
  | index, entry :: entries => do
    checkPassEntry sha256 rounds index entry
    checkPassEntries rounds (index + 1) entries

/-- The body of the loop over `state_root_chain`. -/
def checkStatePassEntry (rounds transitionMixRounds : ℤ) (index : ℕ) (entry : StatePassEntry) :
    Check Unit := do
  rejectIf (entry.passIndex.getD (-1) ≠ index) "state_root_chain_pass_index_mismatch"
  let stateRounds ← entry.roundStateRoots.require "state_round_root_chain_length_mismatch"
  rejectIf (stateRounds.length ≠ rounds) "state_round_root_chain_length_mismatch"
  stateRounds.forM fun stateRoots => do
    let roots ← stateRoots.require "state_mix_root_chain_length_mismatch"
    rejectIf (roots.length ≠ transitionMixRounds + 1) "state_mix_root_chain_length_mismatch"

/-- The loop over `state_root_chain`. -/
def checkStatePassEntries (rounds transitionMixRounds : ℤ) :
    ℕ → List StatePassEntry → Check Unit
  | _, [] => .ok ()
  | index, entry :: entries => do
    checkStatePassEntry rounds transitionMixRounds index entry
    checkStatePassEntries rounds transitionMixRounds (index + 1) entries

/-- The checks of `state_root_chain`, which give the chain that the second transcript commits. -/
def checkStateRootChain (expected : ExpectedRoots) (p : WorkspaceParameters) (proof : Payload) :
    Check (List StatePassEntry) :=
  if proof.format = workspaceTransitionProofFormat then do
    let chain ← proof.stateRootChain.require "state_root_chain_length_mismatch"
    rejectIf (chain.length ≠ expected.passCount) "state_root_chain_length_mismatch"
    checkStatePassEntries p.rounds p.transitionMixRounds 0 chain
    return chain
  else
    match proof.stateRootChain with
    | .none => .ok []
    | .list [] => .ok []
    | .list (entry :: entries) =>
      if expected.proofProtocolVersion = 2 then .error "unexpected_state_root_chain"
      else .ok (entry :: entries)
    | .other =>
      if expected.proofProtocolVersion = 2 then .error "unexpected_state_root_chain" else .ok []

/-- The comparison of the transcript root of a protocol version with the expected one. -/
def checkTranscriptRoot (version : ℤ) (expected : ExpectedRoots) (transcriptRoot : Check String) :
    Check Unit :=
  if expected.proofProtocolVersion = version then do
    let root ← transcriptRoot
    rejectIf (root ≠ expected.transcriptRoot) "transcript_root_mismatch"
  else .ok ()

/-- The checks of `_verify_workspace_proof_payload_strict` on the chains. The sampling and the
openings, which stand between and after them in the source and may reject more payloads, are
`sampling` and `openings`. -/
def verifyRootChains (sampling openings : Payload → Check Unit) (expected : ExpectedRoots)
    (proof : Payload) : Check Unit := do
  let p ← checkParameters expected proof
  let rootChain ← proof.rootChain.require "root_chain_length_mismatch"
  rejectIf (rootChain.length ≠ expected.passCount) "root_chain_length_mismatch"
  checkPassEntries sha256 p.rounds 0 rootChain
  checkTranscriptRoot 1 expected (workspaceTranscriptRoot sha256 rootChain)
  rejectIf (rootChain.head?.map PassEntry.passRoot ≠ some expected.pass0Root) "pass0_root_mismatch"
  rejectIf (rootChain.getLast?.map PassEntry.passRoot ≠ some expected.finalRoot)
    "final_root_mismatch"
  sampling proof
  let committedStateRoots ← checkStateRootChain expected p proof
  checkTranscriptRoot 2 expected (workspaceTranscriptRootV2 sha256 rootChain committedStateRoots)
  openings proof

end Verathos.WorkspaceProof
