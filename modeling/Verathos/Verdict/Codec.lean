import Verathos.Verdict.Records

/-!
# The binary format of verdict snapshots

The printer and the parser of the format are inverse: both relate a snapshot to the same layout.

* `run_entry_eq_ok`, `run_snapshot_eq_ok`: what the cursor reads is the layout of what it returns;
* `toBytes_eq_ok`: what the printer writes is the layout;
* `fromBytes_eq_ok_iff`: the parser accepts exactly what the printer writes.
-/

namespace Verathos.Verdict

open Receipts (utf8 fromUtf8_eq_some)
open ByteReader

variable {u : Unit}

@[simp]
theorem refuseIf_eq_ok {condition : Prop} [Decidable condition] {message : String} :
    refuseIf condition message = .ok u ↔ ¬ condition := by
  unfold refuseIf
  split_ifs with h <;> simp [h]

/-! ## Strings and integers -/

/-- The texts that a field holds. -/
def IsField (value : String) : Prop := utf8 value ≠ [] ∧ (utf8 value).length ≤ maxStringBytes

/-- The layout of a text. -/
def fieldBytes (value : String) : Bytes :=
  BigEndian.toBytes 4 (utf8 value).length ++ utf8 value

variable {bytes : Bytes}

@[simp]
theorem encodeString_eq_ok {value field : String} :
    encodeString value field = .ok bytes ↔ IsField value ∧ bytes = fieldBytes value := by
  simp only [encodeString, bind_eq_ok, refuseIf_eq_ok, pure_eq_ok, exists_const, not_or, not_lt,
    @eq_comm _ bytes]
  rfl

variable {value : ℤ}

@[simp]
theorem packSigned_eq_ok {width : ℕ} :
    packSigned width value = .ok bytes ↔
      Fits width value ∧ bytes = BigEndian.toBytesSigned width value := by
  unfold packSigned
  split_ifs with h <;> simp [h, eq_comm]

@[simp]
theorem packI_eq_ok :
    packI value = .ok bytes ↔
      (0 ≤ value ∧ value < 2 ^ 32) ∧ bytes = BigEndian.toBytes 4 value.toNat := by
  unfold packI
  split_ifs with h
  · rw [Except.ok.injEq, eq_comm, and_iff_right h]
  · exact iff_of_false (by simp) fun hbytes => h hbytes.1

@[simp]
theorem decodeUtf8_eq_ok {encoded : Bytes} {message text : String} :
    decodeUtf8 encoded message = .ok text ↔ encoded = utf8 text := by
  unfold decodeUtf8
  rw [← fromUtf8_eq_some]
  cases String.fromUTF8? ⟨encoded.toArray⟩ <;> simp

/-! ## The cursor -/

variable {input rest : Bytes}

@[simp]
theorem run_take_eq_ok {size : ℕ} :
    (Cursor.take size).run input = .ok (bytes, rest) ↔
      bytes.length = size ∧ input = bytes ++ rest :=
  run_exactly_eq_ok

@[simp]
theorem run_u32_eq_ok {value : ℕ} :
    Cursor.u32.run input = .ok (value, rest) ↔
      value < 2 ^ 32 ∧ input = BigEndian.toBytes 4 value ++ rest := by
  simp only [Cursor.u32, run_bind_eq_ok, run_take_eq_ok, run_pure_eq_ok]
  constructor
  · rintro ⟨bytes, left, ⟨hlength, rfl⟩, hvalue, rfl⟩
    obtain ⟨hlt, hbytes⟩ := BigEndian.eq_toBytes_iff.mp hvalue.symm
    rw [hlength] at hlt hbytes
    exact ⟨by norm_num at hlt ⊢; exact hlt, by rw [hbytes]⟩
  · rintro ⟨hlt, rfl⟩
    refine ⟨_, rest, ⟨BigEndian.length_toBytes 4 value, rfl⟩, ?_, rfl⟩
    exact (BigEndian.eq_toBytes_iff.mpr ⟨by rw [BigEndian.length_toBytes]; norm_num; exact hlt,
      by rw [BigEndian.length_toBytes]⟩).symm

@[simp]
theorem run_signed_eq_ok {width : ℕ} :
    (Cursor.signed width).run input = .ok (value, rest) ↔
      Fits width value ∧ input = BigEndian.toBytesSigned width value ++ rest := by
  simp only [Cursor.signed, run_bind_eq_ok, run_take_eq_ok, run_pure_eq_ok]
  constructor
  · rintro ⟨bytes, left, ⟨rfl, rfl⟩, hvalue, rfl⟩
    obtain ⟨hfits, hbytes⟩ := BigEndian.eq_toBytesSigned_iff.mp hvalue.symm
    exact ⟨hfits, by rw [← hbytes]⟩
  · rintro ⟨hfits, rfl⟩
    refine ⟨_, rest, ⟨BigEndian.length_toBytesSigned width value, rfl⟩, ?_, rfl⟩
    exact (BigEndian.eq_toBytesSigned_iff.mpr
      ⟨by rw [BigEndian.length_toBytesSigned]; exact hfits,
        by rw [BigEndian.length_toBytesSigned]⟩).symm

@[simp]
theorem run_boolean_eq_ok {value : Bool} :
    Cursor.boolean.run input = .ok (value, rest) ↔ input = packBool value ++ rest := by
  simp only [Cursor.boolean, run_bind_eq_ok, run_take_eq_ok, run_lift_eq_ok, run_pure_eq_ok,
    refuseIf_eq_ok, not_not]
  constructor
  · rintro ⟨bytes, left, ⟨-, rfl⟩, _, _, ⟨hmem, rfl⟩, hvalue, rfl⟩
    rcases List.mem_pair.mp hmem with rfl | rfl
    · obtain rfl : value = false := by rw [← hvalue]; decide
      rfl
    · obtain rfl : value = true := by rw [← hvalue]; decide
      rfl
  · rintro rfl
    refine ⟨packBool value, rest, ⟨rfl, rfl⟩, (), rest, ⟨?_, rfl⟩, ?_, rfl⟩
    · cases value <;> decide
    · cases value <;> decide

@[simp]
theorem run_string_eq_ok {field value : String} :
    (Cursor.string field).run input = .ok (value, rest) ↔
      IsField value ∧ input = fieldBytes value ++ rest := by
  simp only [Cursor.string, run_bind_eq_ok, run_take_eq_ok, run_u32_eq_ok, run_lift_eq_ok,
    refuseIf_eq_ok, decodeUtf8_eq_ok, not_or, not_le, not_lt]
  constructor
  · rintro ⟨size, _, ⟨hsize, rfl⟩, _, _, ⟨⟨hpos, hmax⟩, rfl⟩, _, _, ⟨rfl, rfl⟩, rfl, rfl⟩
    refine ⟨⟨List.ne_nil_of_length_pos hpos, hmax⟩, ?_⟩
    rw [fieldBytes, List.append_assoc]
  · rintro ⟨⟨hne, hmax⟩, rfl⟩
    have hsize : (utf8 value).length < 2 ^ 32 := hmax.trans_lt (by norm_num [maxStringBytes])
    refine ⟨(utf8 value).length, utf8 value ++ rest, ⟨hsize, ?_⟩, (), _,
      ⟨⟨List.length_pos_iff.mpr hne, hmax⟩, rfl⟩, utf8 value, rest, ⟨rfl, rfl⟩, rfl, rfl⟩
    rw [fieldBytes, List.append_assoc]

/-! ## Entries -/

/-- The entries that pass the check. -/
structure IsEntry (lower : String → String) (entry : VerdictSnapshotEntryV1) : Prop where
  lower_eq : entry.minerAddress = lower entry.minerAddress
  minerAddress : IsField entry.minerAddress
  modelIndex : 0 ≤ entry.modelIndex
  minerHotkeySs58 : IsField entry.minerHotkeySs58
  modelId : IsField entry.modelId
  hardVerdict : entry.hardVerdict ∈ [-1, 0, 1]
  hardSourceEpoch : if entry.hardVerdict = -1 then entry.hardSourceEpoch = -1
    else 0 ≤ entry.hardSourceEpoch

/-- The entries that the layout can hold. -/
structure EntryFits (entry : VerdictSnapshotEntryV1) : Prop where
  minerAddress : IsField entry.minerAddress
  modelIndex : Fits 8 entry.modelIndex
  minerHotkeySs58 : IsField entry.minerHotkeySs58
  modelId : IsField entry.modelId
  hardVerdict : Fits 1 entry.hardVerdict
  hardSourceEpoch : Fits 8 entry.hardSourceEpoch

/-- The layout of an entry. -/
def entryBytes (entry : VerdictSnapshotEntryV1) : Bytes :=
  fieldBytes entry.minerAddress ++ (BigEndian.toBytesSigned 8 entry.modelIndex ++
    (fieldBytes entry.minerHotkeySs58 ++ (fieldBytes entry.modelId ++
      (BigEndian.toBytesSigned 1 entry.hardVerdict ++
        (BigEndian.toBytesSigned 8 entry.hardSourceEpoch ++
          (packBool entry.capacityGated ++ packBool entry.probation))))))

variable {lower : String → String} {entry : VerdictSnapshotEntryV1}

@[simp]
theorem validate_entry_eq_ok : entry.validate lower = .ok u ↔ IsEntry lower entry := by
  simp only [VerdictSnapshotEntryV1.validate, bind_eq_ok, refuseIf_eq_ok, encodeString_eq_ok,
    exists_const, not_not, not_lt]
  constructor
  · rintro ⟨hlower, _, ⟨haddress, -⟩, hindex, _, ⟨hhotkey, -⟩, _, ⟨hmodel, -⟩, hverdict, hepoch⟩
    refine ⟨hlower, haddress, hindex, hhotkey, hmodel, hverdict, ?_⟩
    split_ifs at hepoch ⊢
    · exact not_not.mp (refuseIf_eq_ok.mp hepoch)
    · exact not_lt.mp (refuseIf_eq_ok.mp hepoch)
  · rintro ⟨hlower, haddress, hindex, hhotkey, hmodel, hverdict, hepoch⟩
    refine ⟨hlower, _, ⟨haddress, rfl⟩, hindex, _, ⟨hhotkey, rfl⟩, _, ⟨hmodel, rfl⟩, hverdict, ?_⟩
    split_ifs at hepoch ⊢
    · exact refuseIf_eq_ok.mpr (not_not.mpr hepoch)
    · exact refuseIf_eq_ok.mpr (not_lt.mpr hepoch)

theorem IsEntry.fits (h : IsEntry lower entry) (hindex : Fits 8 entry.modelIndex)
    (hepoch : Fits 8 entry.hardSourceEpoch) : EntryFits entry := by
  refine ⟨h.minerAddress, hindex, h.minerHotkeySs58, h.modelId, ?_, hepoch⟩
  have hmem := h.hardVerdict
  simp only [List.mem_cons, List.not_mem_nil, or_false] at hmem
  rcases hmem with hverdict | hverdict | hverdict <;> rw [hverdict] <;> decide

@[simp]
theorem encode_eq_ok :
    entry.encode lower = .ok bytes ↔
      IsEntry lower entry ∧ EntryFits entry ∧ bytes = entryBytes entry := by
  simp only [VerdictSnapshotEntryV1.encode, bind_eq_ok, validate_entry_eq_ok, encodeString_eq_ok,
    packSigned_eq_ok, pure_eq_ok, exists_const]
  constructor
  · rintro ⟨hentry, _, ⟨haddress, rfl⟩, _, ⟨hindex, rfl⟩, _, ⟨hhotkey, rfl⟩, _, ⟨hmodel, rfl⟩, _,
      ⟨hverdict, rfl⟩, _, ⟨hepoch, rfl⟩, rfl⟩
    exact ⟨hentry, ⟨haddress, hindex, hhotkey, hmodel, hverdict, hepoch⟩, rfl⟩
  · rintro ⟨hentry, ⟨haddress, hindex, hhotkey, hmodel, hverdict, hepoch⟩, rfl⟩
    exact ⟨hentry, _, ⟨haddress, rfl⟩, _, ⟨hindex, rfl⟩, _, ⟨hhotkey, rfl⟩, _, ⟨hmodel, rfl⟩, _,
      ⟨hverdict, rfl⟩, _, ⟨hepoch, rfl⟩, rfl⟩

theorem run_entry_eq_ok :
    Cursor.entry.run input = .ok (entry, rest) ↔
      EntryFits entry ∧ input = entryBytes entry ++ rest := by
  simp only [Cursor.entry, run_bind_eq_ok, run_string_eq_ok, run_signed_eq_ok, run_boolean_eq_ok,
    run_pure_eq_ok]
  constructor
  · rintro ⟨_, _, ⟨haddress, rfl⟩, _, _, ⟨hindex, rfl⟩, _, _, ⟨hhotkey, rfl⟩, _, _, ⟨hmodel, rfl⟩,
      _, _, ⟨hverdict, rfl⟩, _, _, ⟨hepoch, rfl⟩, _, _, rfl, _, _, rfl, rfl, rfl⟩
    refine ⟨⟨haddress, hindex, hhotkey, hmodel, hverdict, hepoch⟩, ?_⟩
    simp only [entryBytes, List.append_assoc]
  · rintro ⟨⟨haddress, hindex, hhotkey, hmodel, hverdict, hepoch⟩, rfl⟩
    refine ⟨_, _, ⟨haddress, ?_⟩, _, _, ⟨hindex, rfl⟩, _, _, ⟨hhotkey, rfl⟩, _, _, ⟨hmodel, rfl⟩,
      _, _, ⟨hverdict, rfl⟩, _, _, ⟨hepoch, rfl⟩, _, _, rfl, _, _, rfl, rfl, rfl⟩
    simp only [entryBytes, List.append_assoc]

/-! ## Snapshots -/

variable {snapshot : VerdictSnapshotV1}

/-- The integers of a snapshot fit signed 64-bit fields. -/
structure SnapshotFits (snapshot : VerdictSnapshotV1) : Prop where
  epochNumber : Fits 8 snapshot.epochNumber
  generatedAt : Fits 8 snapshot.generatedAt
  entries : ∀ entry ∈ snapshot.entries, Fits 8 entry.modelIndex ∧ Fits 8 entry.hardSourceEpoch

/-- The layout of a snapshot without its signature. -/
def unsignedLayout (snapshot : VerdictSnapshotV1) : Bytes :=
  BigEndian.toBytes 4 snapshot.snapshotVersion.toNat ++ (snapshot.auditorHotkey ++
    (BigEndian.toBytesSigned 8 snapshot.epochNumber ++
      (BigEndian.toBytesSigned 8 snapshot.generatedAt ++
        (BigEndian.toBytes 4 snapshot.entries.length ++ snapshot.entries.flatMap entryBytes))))

theorem isEntry_of_validateEntries {entries : List VerdictSnapshotEntryV1}
    {priorKey : Option (String ×ₗ ℤ)}
    (h : VerdictSnapshotV1.validateEntries lower entries priorKey = .ok u) :
    ∀ entry ∈ entries, IsEntry lower entry := by
  induction entries generalizing priorKey with
  | nil => simp
  | cons entry entries ih =>
    simp only [VerdictSnapshotV1.validateEntries, bind_eq_ok, validate_entry_eq_ok] at h
    obtain ⟨-, hentry, -, -, hrest⟩ := h
    exact List.forall_mem_cons.mpr ⟨hentry, ih hrest⟩

theorem validate_of_signed (h : snapshot.validate lower true = .ok u) :
    snapshot.validate lower false = .ok u := by
  simp only [VerdictSnapshotV1.validate, bind_eq_ok, refuseIf_eq_ok, exists_const] at h ⊢
  obtain ⟨hversion, hhotkey, hepoch, htime, hcount, _, hentries, hsignature, -⟩ := h
  exact ⟨hversion, hhotkey, hepoch, htime, hcount, (), hentries, hsignature, by simp⟩

/-- The parts of the check that the layout needs. -/
structure IsSigned (lower : String → String) (snapshot : VerdictSnapshotV1) : Prop where
  snapshotVersion : snapshot.snapshotVersion = verdictSnapshotVersion
  auditorHotkey : snapshot.auditorHotkey.length = 32
  count : snapshot.entries.length ≤ maxEntries
  entries : ∀ entry ∈ snapshot.entries, IsEntry lower entry
  signature : snapshot.signature.length = signatureBytes

theorem isSigned_of_validate (h : snapshot.validate lower true = .ok u) :
    IsSigned lower snapshot := by
  simp only [VerdictSnapshotV1.validate, bind_eq_ok, refuseIf_eq_ok, exists_const, not_not,
    not_lt, true_and] at h
  obtain ⟨hversion, hhotkey, -, -, hcount, _, hentries, -, hsignature⟩ := h
  exact ⟨hversion, hhotkey, hcount, isEntry_of_validateEntries hentries, hsignature⟩

theorem unsignedBytes_eq_ok (h : snapshot.validate lower true = .ok ()) :
    snapshot.unsignedBytes lower = .ok bytes ↔
      SnapshotFits snapshot ∧ bytes = unsignedLayout snapshot := by
  have hsigned := isSigned_of_validate h
  have hentry : ∀ (entry : VerdictSnapshotEntryV1) bytes, entry.encode lower = .ok bytes ↔
      (IsEntry lower entry ∧ EntryFits entry) ∧ bytes = entryBytes entry := by
    intro entry bytes
    rw [encode_eq_ok, and_assoc]
  -- The count of the entries and the version fit their fields by the check.
  have hversion : 0 ≤ snapshot.snapshotVersion ∧ snapshot.snapshotVersion < 2 ^ 32 := by
    rw [hsigned.snapshotVersion]
    decide
  have hcount : (0 : ℤ) ≤ snapshot.entries.length ∧ (snapshot.entries.length : ℤ) < 2 ^ 32 := by
    have hle := hsigned.count
    unfold maxEntries at hle
    omega
  simp only [VerdictSnapshotV1.unsignedBytes, validate_of_signed h, bind_eq_ok, packI_eq_ok,
    packSigned_eq_ok, mapM_eq_ok_of_iff hentry, pure_eq_ok]
  constructor
  · rintro ⟨-, -, _, ⟨-, rfl⟩, _, ⟨hepoch, rfl⟩, _, ⟨htime, rfl⟩, _, ⟨-, rfl⟩, _,
      ⟨hentries, rfl⟩, rfl⟩
    refine ⟨⟨hepoch, htime, fun entry hmem => ?_⟩, ?_⟩
    · exact ⟨(hentries entry hmem).2.modelIndex, (hentries entry hmem).2.hardSourceEpoch⟩
    · rw [unsignedLayout, List.flatMap_def, Int.toNat_natCast]
  · rintro ⟨⟨hepoch, htime, hentries⟩, rfl⟩
    refine ⟨(), trivial, _, ⟨hversion, rfl⟩, _, ⟨hepoch, rfl⟩, _, ⟨htime, rfl⟩, _, ⟨hcount, rfl⟩, _,
      ⟨fun entry hmem => ?_, rfl⟩, ?_⟩
    · have hvalid := hsigned.entries entry hmem
      exact ⟨hvalid, hvalid.fits (hentries entry hmem).1 (hentries entry hmem).2⟩
    · rw [unsignedLayout, List.flatMap_def, Int.toNat_natCast]

theorem toBytes_eq_ok {raw : Bytes} :
    snapshot.toBytes lower = .ok raw ↔
      snapshot.validate lower true = .ok () ∧ SnapshotFits snapshot ∧
        raw = unsignedLayout snapshot ++ snapshot.signature := by
  rw [VerdictSnapshotV1.toBytes, bind_eq_ok]
  constructor
  · rintro ⟨⟨⟩, hvalid, h⟩
    obtain ⟨message, hmessage, hraw⟩ := bind_eq_ok.mp h
    obtain ⟨hfits, rfl⟩ := (unsignedBytes_eq_ok hvalid).mp hmessage
    exact ⟨hvalid, hfits, (pure_eq_ok.mp hraw).symm⟩
  · rintro ⟨hvalid, hfits, rfl⟩
    refine ⟨(), hvalid, bind_eq_ok.mpr ⟨_, (unsignedBytes_eq_ok hvalid).mpr ⟨hfits, rfl⟩, rfl⟩⟩

/-- What the reads of the parser need of the snapshot that they build. -/
structure IsRead (snapshot : VerdictSnapshotV1) : Prop where
  snapshotVersion : 0 ≤ snapshot.snapshotVersion ∧ snapshot.snapshotVersion < 2 ^ 32
  auditorHotkey : snapshot.auditorHotkey.length = 32
  epochNumber : Fits 8 snapshot.epochNumber
  generatedAt : Fits 8 snapshot.generatedAt
  count : snapshot.entries.length ≤ maxEntries
  entries : ∀ entry ∈ snapshot.entries, EntryFits entry
  signature : snapshot.signature.length = signatureBytes

theorem run_snapshot_eq_ok :
    Cursor.snapshot.run input = .ok (snapshot, rest) ↔
      IsRead snapshot ∧ input = unsignedLayout snapshot ++ (snapshot.signature ++ rest) := by
  simp only [Cursor.snapshot, run_bind_eq_ok, run_u32_eq_ok, run_take_eq_ok, run_signed_eq_ok,
    run_lift_eq_ok, refuseIf_eq_ok, run_pure_eq_ok,
    run_times_eq_ok fun _ _ _ => run_entry_eq_ok, not_lt]
  constructor
  · rintro ⟨version, _, ⟨hversion, rfl⟩, _, _, ⟨hhotkey, rfl⟩, _, _, ⟨hepoch, rfl⟩, _, _,
      ⟨htime, rfl⟩, _, _, ⟨-, rfl⟩, _, _, ⟨hcount, rfl⟩, _, _, ⟨rfl, hentries, rfl⟩, _, _,
      ⟨hsignature, rfl⟩, rfl, rfl⟩
    refine ⟨⟨?_, hhotkey, hepoch, htime, hcount, hentries, hsignature⟩, ?_⟩
    · change 0 ≤ (version : ℤ) ∧ (version : ℤ) < 2 ^ 32
      omega
    · simp only [unsignedLayout, Int.toNat_natCast, List.append_assoc]
  · rintro ⟨⟨⟨hnonneg, hversion⟩, hhotkey, hepoch, htime, hcount, hentries, hsignature⟩, rfl⟩
    have hsize : snapshot.entries.length < 2 ^ 32 := hcount.trans_lt (by norm_num [maxEntries])
    refine ⟨snapshot.snapshotVersion.toNat, _, ⟨by omega, ?_⟩, _, _, ⟨hhotkey, rfl⟩, _, _,
      ⟨hepoch, rfl⟩, _, _, ⟨htime, rfl⟩, _, _, ⟨hsize, rfl⟩, (), _, ⟨hcount, rfl⟩, _, _,
      ⟨rfl, hentries, rfl⟩, _, _, ⟨hsignature, rfl⟩, ?_, rfl⟩
    · simp only [unsignedLayout, List.append_assoc]
    · rw [Int.toNat_of_nonneg hnonneg]

theorem length_unsignedLayout (snapshot : VerdictSnapshotV1) :
    20 + snapshot.auditorHotkey.length + 4 ≤ (unsignedLayout snapshot).length := by
  simp only [unsignedLayout, List.length_append, BigEndian.length_toBytes,
    BigEndian.length_toBytesSigned]
  omega

theorem fromBytes_eq_ok_iff {raw : Bytes} :
    VerdictSnapshotV1.fromBytes lower raw = .ok snapshot ↔ snapshot.toBytes lower = .ok raw := by
  rw [toBytes_eq_ok]
  simp only [VerdictSnapshotV1.fromBytes, bind_eq_ok, refuseIf_eq_ok, pure_eq_ok, exists_const,
    not_not, not_lt]
  constructor
  · rintro ⟨-, ⟨s, remaining⟩, hrun, hrest, ⟨⟩, hvalid, rfl⟩
    obtain ⟨hread, hraw⟩ := run_snapshot_eq_ok.mp hrun
    refine ⟨hvalid, ⟨hread.epochNumber, hread.generatedAt, fun entry hmem => ?_⟩, ?_⟩
    · exact ⟨(hread.entries entry hmem).modelIndex, (hread.entries entry hmem).hardSourceEpoch⟩
    · obtain rfl : remaining = [] := hrest
      rw [hraw, List.append_nil]
  · rintro ⟨hvalid, hfits, rfl⟩
    have hsigned := isSigned_of_validate hvalid
    have hread : IsRead snapshot := by
      refine ⟨?_, hsigned.auditorHotkey, hfits.epochNumber, hfits.generatedAt, hsigned.count,
        fun entry hmem => ?_, hsigned.signature⟩
      · rw [hsigned.snapshotVersion]
        decide
      · have hentry := hfits.entries entry hmem
        exact (hsigned.entries entry hmem).fits hentry.1 hentry.2
    refine ⟨?_, (snapshot, []), run_snapshot_eq_ok.mpr ⟨hread, ?_⟩, rfl, (), hvalid, rfl⟩
    · have hlength := length_unsignedLayout snapshot
      rw [hsigned.auditorHotkey] at hlength
      rw [List.length_append, hsigned.signature, signatureBytes]
      omega
    · rw [List.append_nil]

end Verathos.Verdict
