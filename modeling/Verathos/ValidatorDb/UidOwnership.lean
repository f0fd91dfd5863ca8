import Verathos.Lib.Texts
import Verathos.Lib.OrderedDict
import Verathos.Lib.StableSort

/-!
# The owners of UIDs

A translation of `reconcile_uid_owner` of `neurons/validator_db.py`, with the table `uid_ownership`
and the columns of `miner_entries` that it reads. The column `updated_at` of `uid_ownership`, which
is the time of the call and which nothing reads, is left out. Rows that the `ORDER BY` of the cache
query does not tell apart come in the order of the table.

* `reconcileUidOwner`: one call, which raises for integers that SQLite cannot store;
* `Valid`: addresses are in lower case and no address has two UIDs;
* `get_reconcile`: the row of every UID after a call.
-/

namespace Verathos.UidOwnership

/-- The mapping `str.lower`. Besides its general laws, its images have no capital ASCII letters, so
that the SQL function `LOWER` leaves them alone. -/
structure SqlLower extends LowerCase where
  lower_empty : lower "" = ""
  sqlLower_lower : ∀ s, LowerCase.ascii.lower (lower s) = lower s

/-- The SQL function `LOWER`. -/
def sqlLower (s : String) : String := LowerCase.ascii.lower s

/-- A row of `uid_ownership`. -/
structure OwnerRow where
  hotkeySs58 : String
  evmAddress : String
  generation : ℤ
  identityStartEpoch : ℤ
deriving DecidableEq

/-- A row of `miner_entries`. -/
structure CachedRow where
  address : String
  hotkeySs58 : Option String
  bittensorUid : Option ℤ
  isActive : ℤ
  lastSeenEpoch : ℤ
  updatedAt : ℚ
deriving DecidableEq

/-- The tables that a call reads. -/
structure UidState where
  owners : OrderedDict ℤ OwnerRow
  cache : List CachedRow

/-- The arguments of a call. -/
structure OwnerCall where
  uid : ℤ
  hotkeySs58 : String
  evmAddress : String
  epoch : ℤ

/-- What a call returns. -/
structure Reconciled where
  changed : Bool
  uid : ℤ
  hotkeySs58 : String
  evmAddress : String
  generation : ℤ
  identityStartEpoch : ℤ
  previous : Option OwnerRow
  inferredPreviousHotkey : String
  inferredPreviousEvm : String
  movedFromUids : List ℤ
  addressMoved : Bool

/-- SQLite stores integers of 64 bits. -/
def Storable (n : ℤ) : Prop := -2 ^ 63 ≤ n ∧ n < 2 ^ 63

instance (n : ℤ) : Decidable (Storable n) := inferInstanceAs (Decidable (_ ∧ _))

/-- `max(0, int(epoch or 0))`. -/
def OwnerCall.epochI (call : OwnerCall) : ℤ := max 0 call.epoch

variable (lc : SqlLower)

/-- `str(evm_address or "").lower()`. -/
def OwnerCall.evm (call : OwnerCall) : String := lc.lower call.evmAddress

/-- The rows of the other UIDs that have the address. -/
def HasAddress (call : OwnerCall) (uid : ℤ) (row : OwnerRow) : Prop :=
  sqlLower row.evmAddress = call.evm lc ∧ uid ≠ call.uid

instance (call : OwnerCall) (uid : ℤ) (row : OwnerRow) : Decidable (HasAddress lc call uid row) :=
  inferInstanceAs (Decidable (_ ∧ _))

def movedFromUids (s : UidState) (call : OwnerCall) : List ℤ :=
  if call.evm lc = "" then []
  else StableSort.sortBy id
    ((s.owners.entries.filter fun entry => HasAddress lc call entry.1 entry.2).map Prod.fst)

/-- The first `UPDATE`: the other UIDs lose the address. -/
def evict (s : UidState) (call : OwnerCall) : OrderedDict ℤ OwnerRow :=
  if movedFromUids lc s call = [] then s.owners
  else s.owners.mapItems fun uid row =>
    if HasAddress lc call uid row then
      ⟨"", "", row.generation + 1, call.epochI⟩
    else row

def cachedRows (s : UidState) (call : OwnerCall) : List CachedRow :=
  StableSort.sortBy
    (fun row => toLex (-row.isActive, toLex (-row.lastSeenEpoch, -row.updatedAt)))
    (s.cache.filter fun row => row.bittensorUid = some call.uid)

/-- A cached row that names another owner. -/
def OtherOwner (call : OwnerCall) (row : CachedRow) : Prop :=
  lc.lower row.address ≠ call.evm lc ∨
    (row.hotkeySs58.getD "" ≠ "" ∧ call.hotkeySs58 ≠ "" ∧
      row.hotkeySs58.getD "" ≠ call.hotkeySs58)

instance (call : OwnerCall) (row : CachedRow) : Decidable (OtherOwner lc call row) :=
  inferInstanceAs (Decidable (_ ∨ _))

def previousRow (s : UidState) (call : OwnerCall) : Option CachedRow :=
  (cachedRows s call).find? fun row => OtherOwner lc call row

/-- `changed`, for the row that stands under the UID after the eviction. -/
def changed (s : UidState) (call : OwnerCall) : Option OwnerRow → Bool
  | none => (previousRow lc s call).isSome || movedFromUids lc s call != []
  | some row => row.hotkeySs58 != call.hotkeySs58 || lc.lower row.evmAddress != call.evm lc ||
      movedFromUids lc s call != []

/-- The row that a call writes. -/
def newRow (call : OwnerCall) (changed : Bool) : Option OwnerRow → OwnerRow
  | none => ⟨call.hotkeySs58, call.evm lc, 1, if changed then call.epochI else 0⟩
  | some row =>
    { hotkeySs58 := call.hotkeySs58
      evmAddress := call.evm lc
      generation := (if row.generation = 0 then 1 else row.generation) + if changed then 1 else 0
      identityStartEpoch := if changed then call.epochI else row.identityStartEpoch }

/-- `reconcile_uid_owner`. An integer outside of 64 bits raises before anything is written. -/
def reconcileUidOwner (s : UidState) (call : OwnerCall) : Option (UidState × Reconciled) :=
  let moved := movedFromUids lc s call
  let owners := evict lc s call
  let row := owners.get call.uid
  let isChanged := changed lc s call row
  let written := newRow lc call isChanged row
  let inferred := if row.isSome then none else previousRow lc s call
  if ¬ Storable call.uid ∨ isChanged ∧ ¬ Storable call.epochI then none
  else some
    ({ s with owners := owners.set call.uid written },
      { changed := isChanged
        uid := call.uid
        hotkeySs58 := call.hotkeySs58
        evmAddress := call.evm lc
        generation := written.generation
        identityStartEpoch := written.identityStartEpoch
        previous := row
        inferredPreviousHotkey := (inferred.bind CachedRow.hotkeySs58).getD ""
        inferredPreviousEvm := (inferred.map fun previous => lc.lower previous.address).getD ""
        movedFromUids := moved
        addressMoved := moved != [] })

/-- The state after a call. A call that raises leaves it as it is. -/
def UidState.after (s : UidState) (call : OwnerCall) : UidState :=
  ((reconcileUidOwner lc s call).map Prod.fst).getD s

/-- The state before the first call. -/
def UidState.initial (cache : List CachedRow) : UidState where
  owners := .empty
  cache := cache

end Verathos.UidOwnership
