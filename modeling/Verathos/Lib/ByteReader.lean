import Verathos.Lib.Digits

/-!
# Reading byte strings from the front

A `Reader` takes bytes from the front of what is left of an input, or fails. A decoder is written
as one reader for each field, in order, and its round trip is composed in the same order:
`Reads reader bytes a` says that the reader turns `bytes` into `a` whatever follows them.

The module introduces:

* `exactly width`: the next `width` bytes, failing when fewer are left;
* `upTo width`: the next `width` bytes or all that are left, as a slice takes them;
* `unsigned width`: a little-endian number of `width` bytes;
* `times reader count`: `count` items in turn;
* `finished`: nothing is left.

Where a decoder must also refuse every other input, `Inverts reader valid write` says that the reader
returns exactly the valid items, each from what `write` makes of it.
-/

namespace ByteReader

/-- A reader takes bytes from the front of its input and may fail. -/
abbrev Reader (ε α : Type) := StateT (List UInt8) (Except ε) α

variable {ε α β : Type}

/-- The next `width` bytes, or `error` when fewer are left. -/
def exactly (error : ε) (width : ℕ) : Reader ε (List UInt8) := fun input =>
  if width ≤ input.length then .ok (input.take width, input.drop width) else .error error

/-- The next `width` bytes, or all that are left when they are fewer. -/
def upTo (width : ℕ) : Reader ε (List UInt8) := fun input =>
  .ok (input.take width, input.drop width)

/-- A little-endian number of `width` bytes. -/
def unsigned (error : ε) (width : ℕ) : Reader ε ℕ := do
  let bytes ← exactly error width
  return LittleEndian.toNat bytes

/-- `count` items in turn. -/
def times (reader : Reader ε α) : ℕ → Reader ε (List α)
  | 0 => pure []
  | count + 1 => do
    let a ← reader
    let as ← times reader count
    return a :: as

/-- Nothing is left, or `error`. -/
def finished (error : ε) : Reader ε Unit := fun input =>
  if input = [] then .ok ((), input) else .error error

/-! ## Successful runs -/

variable {reader : Reader ε α} {next : α → Reader ε β} {input rest : List UInt8}

variable {b : β}

/-- A sequence of two readers returns exactly when both do, the second on what the first left. -/
theorem run_bind_eq_ok :
    (reader >>= next).run input = .ok (b, rest) ↔
      ∃ a left, reader.run input = .ok (a, left) ∧ (next a).run left = .ok (b, rest) := by
  rw [StateT.run_bind]
  cases h : reader.run input with
  | error e => simp [bind, Except.bind]
  | ok result => simp [bind, Except.bind, Prod.ext_iff]

variable {a : α}

theorem run_pure_eq_ok {b : α} :
    (pure a : Reader ε α).run input = .ok (b, rest) ↔ a = b ∧ input = rest := by
  rw [StateT.run_pure]
  simp [Pure.pure, Except.pure]

variable {result : Except ε α}

theorem run_lift_eq_ok :
    (liftM result : Reader ε α).run input = .ok (a, rest) ↔ result = .ok a ∧ input = rest := by
  cases result with
  | error e => simp [liftM, monadLift, MonadLift.monadLift, StateT.lift, StateT.run, bind, Except.bind]
  | ok value =>
    simp [liftM, monadLift, MonadLift.monadLift, StateT.lift, StateT.run, bind, Except.bind, pure,
      Except.pure]

variable {width : ℕ} {bytes : List UInt8}

variable {error : ε}

theorem run_exactly_eq_ok :
    (exactly error width).run input = .ok (bytes, rest) ↔
      bytes.length = width ∧ input = bytes ++ rest := by
  change (if width ≤ input.length then _ else _) = _ ↔ _
  split_ifs with hle
  · simp only [Except.ok.injEq, Prod.mk.injEq]
    constructor
    · rintro ⟨rfl, rfl⟩
      exact ⟨List.length_take_of_le hle, (List.take_append_drop _ _).symm⟩
    · rintro ⟨rfl, rfl⟩
      exact ⟨List.take_left, List.drop_left⟩
  · simp only [false_iff, not_and]
    rintro rfl rfl
    rw [List.length_append] at hle
    omega

variable {value : ℕ}

theorem run_unsigned_eq_ok :
    (unsigned error width).run input = .ok (value, rest) ↔
      value < 256 ^ width ∧ input = LittleEndian.toBytes width value ++ rest := by
  simp only [unsigned, run_bind_eq_ok, run_exactly_eq_ok, run_pure_eq_ok]
  constructor
  · rintro ⟨bytes, left, ⟨hlength, rfl⟩, rfl, rfl⟩
    rw [← hlength]
    exact ⟨LittleEndian.toNat_lt bytes, by rw [LittleEndian.toBytes_toNat]⟩
  · rintro ⟨hvalue, rfl⟩
    exact ⟨_, rest, ⟨LittleEndian.length_toBytes width value, rfl⟩,
      LittleEndian.toNat_toBytes hvalue, rfl⟩

theorem run_finished_eq_ok {u : Unit} :
    (finished error).run input = .ok (u, rest) ↔ input = [] ∧ rest = [] := by
  change (if input = [] then _ else _) = _ ↔ _
  split_ifs with hinput
  · simp [hinput, eq_comm]
  · simp [hinput]

theorem run_times_eq_ok {valid : α → Prop} {write : α → List UInt8} (hreader : ∀ input a rest,
      reader.run input = .ok (a, rest) ↔ valid a ∧ input = write a ++ rest) {count : ℕ}
    {items : List α} :
    (times reader count).run input = .ok (items, rest) ↔
      items.length = count ∧ (∀ a ∈ items, valid a) ∧ input = items.flatMap write ++ rest := by
  induction count generalizing input items rest with
  | zero =>
    rw [times, run_pure_eq_ok, List.length_eq_zero_iff, @eq_comm _ []]
    constructor
    · rintro ⟨rfl, rfl⟩
      simp
    · rintro ⟨rfl, -, hinput⟩
      exact ⟨rfl, hinput⟩
  | succ count ih =>
    simp only [times, run_bind_eq_ok, run_pure_eq_ok, hreader, ih]
    constructor
    · rintro ⟨a, left, ⟨ha, rfl⟩, as, last, ⟨hlength, has, rfl⟩, rfl, rfl⟩
      refine ⟨by rw [List.length_cons, hlength], List.forall_mem_cons.mpr ⟨ha, has⟩, ?_⟩
      rw [List.flatMap_cons, List.append_assoc]
    · rintro ⟨hlength, hvalid, rfl⟩
      obtain ⟨a, as, rfl⟩ := List.exists_cons_of_length_eq_add_one hlength
      obtain ⟨ha, has⟩ := List.forall_mem_cons.mp hvalid
      refine ⟨a, as.flatMap write ++ rest, ⟨ha, by rw [List.flatMap_cons, List.append_assoc]⟩, as,
        rest, ⟨Nat.succ.inj hlength, has, rfl⟩, rfl, rfl⟩

/-- The reader returns exactly the valid items, each from what is written of it. -/
def Inverts (reader : Reader ε α) (valid : α → Prop) (write : α → List UInt8) : Prop :=
  ∀ input a rest, reader.run input = .ok (a, rest) ↔ valid a ∧ input = write a ++ rest

theorem inverts_unsigned (error : ε) (width : ℕ) :
    Inverts (unsigned error width) (· < 256 ^ width) (LittleEndian.toBytes width) :=
  fun _ _ _ => run_unsigned_eq_ok

theorem inverts_exactly (error : ε) (width : ℕ) :
    Inverts (exactly error width) (·.length = width) id :=
  fun _ _ _ => run_exactly_eq_ok

theorem Inverts.times {valid : α → Prop} {write : α → List UInt8} (h : Inverts reader valid write)
    (count : ℕ) :
    Inverts (times reader count) (fun items => items.length = count ∧ ∀ a ∈ items, valid a)
      (·.flatMap write) := by
  intro input items rest
  rw [run_times_eq_ok h, and_assoc]

theorem length_of_run_upTo (h : (upTo width : Reader ε (List UInt8)).run input = .ok (bytes, rest))
    (hrest : rest ≠ []) : bytes.length = width ∧ input ≠ [] := by
  obtain ⟨rfl, rfl⟩ : input.take width = bytes ∧ input.drop width = rest := by
    simpa [upTo, StateT.run] using h
  have hlt : width < input.length := by
    by_contra hge
    exact hrest (List.drop_eq_nil_of_le (not_lt.mp hge))
  exact ⟨List.length_take_of_le hlt.le, List.ne_nil_of_length_pos (Nat.zero_lt_of_lt hlt)⟩

theorem ne_nil_of_run_unsigned (h : (unsigned error (width + 1)).run input = .ok (value, rest)) :
    input ≠ [] := by
  rintro rfl
  simp only [unsigned, run_bind_eq_ok, run_exactly_eq_ok] at h
  obtain ⟨bytes, left, ⟨hlength, hnil⟩, -⟩ := h
  rw [(List.append_eq_nil_iff.mp hnil.symm).1] at hlength
  simp at hlength

/-- What every item satisfies, when the items before it leave an input of the right kind. -/
theorem forall_of_run_times {P : α → Prop} {Q : List UInt8 → Prop}
    (hreader : ∀ input a rest, reader.run input = .ok (a, rest) → Q rest → P a ∧ Q input)
    {count : ℕ} {items : List α} (h : (times reader count).run input = .ok (items, rest))
    (hrest : Q rest) : (∀ a ∈ items, P a) ∧ Q input := by
  induction count generalizing input items with
  | zero =>
    obtain ⟨rfl, rfl⟩ := run_pure_eq_ok.mp h
    exact ⟨by simp, hrest⟩
  | succ count ih =>
    simp only [times, run_bind_eq_ok, run_pure_eq_ok] at h
    obtain ⟨a, left, ha, as, last, has, rfl, rfl⟩ := h
    obtain ⟨hall, hleft⟩ := ih has
    obtain ⟨hP, hQ⟩ := hreader _ _ _ ha hleft
    exact ⟨List.forall_mem_cons.mpr ⟨hP, hall⟩, hQ⟩

/-! ## Round trips -/

/-- The reader turns `bytes` into `a` and leaves whatever follows. -/
def Reads (reader : Reader ε α) (bytes : List UInt8) (a : α) : Prop :=
  ∀ rest, reader.run (bytes ++ rest) = .ok (a, rest)

theorem Reads.bind {more : List UInt8} (h : Reads reader bytes a) (hnext : Reads (next a) more b) :
    Reads (reader >>= next) (bytes ++ more) b := by
  intro rest
  rw [List.append_assoc, run_bind_eq_ok]
  exact ⟨a, more ++ rest, h _, hnext rest⟩

theorem Reads.pure (a : α) : Reads (pure a : Reader ε α) [] a :=
  fun _ => run_pure_eq_ok.mpr ⟨rfl, rfl⟩

theorem Reads.bind_nil (h : Reads reader bytes a) (hnext : Reads (next a) [] b) :
    Reads (reader >>= next) bytes b := by
  rw [← List.append_nil bytes]
  exact h.bind hnext

theorem Reads.bind_pure {f : α → β} (h : Reads reader bytes a) :
    Reads (reader >>= fun a => Pure.pure (f a)) bytes (f a) :=
  h.bind_nil (Reads.pure _)

theorem Reads.lift (h : result = .ok a) : Reads (liftM result : Reader ε α) [] a :=
  fun _ => run_lift_eq_ok.mpr ⟨h, rfl⟩

theorem Reads.lift_bind (h : result = .ok a) (hnext : Reads (next a) bytes b) :
    Reads (liftM result >>= next) bytes b :=
  (Reads.lift h).bind hnext

theorem reads_exactly (error : ε) (h : bytes.length = width) :
    Reads (exactly error width) bytes bytes :=
  fun _ => run_exactly_eq_ok.mpr ⟨h, rfl⟩

theorem reads_upTo (h : bytes.length = width) :
    Reads (upTo width : Reader ε (List UInt8)) bytes bytes := by
  intro rest
  subst h
  simp [upTo, StateT.run]

theorem reads_unsigned (error : ε) (h : value < 256 ^ width) :
    Reads (unsigned error width) (LittleEndian.toBytes width value) value := by
  have hbytes := (reads_exactly error (LittleEndian.length_toBytes width value)).bind_pure
    (f := LittleEndian.toNat)
  rwa [LittleEndian.toNat_toBytes h] at hbytes

theorem reads_times {g : β → α} {items : List β} {parts : List (List UInt8)}
    (h : List.Forall₂ (fun item bytes => Reads reader bytes (g item)) items parts) :
    Reads (times reader items.length) parts.flatten (items.map g) := by
  induction h with
  | nil => exact Reads.pure []
  | @cons item bytes items parts hitem _ ih => exact hitem.bind ih.bind_pure

/-! ## Slices -/

/-- A block of a concatenation, as the slice at the length of what precedes it. -/
theorem take_drop_flatten {blocks : List (List α)} {k : ℕ} {block : List α} {offset : ℕ}
    (hblock : blocks[k]? = some block) (hoffset : (blocks.take k).flatten.length = offset)
    (hwidth : block.length = width) : (blocks.flatten.drop offset).take width = block := by
  obtain ⟨hk, rfl⟩ := List.getElem?_eq_some_iff.mp hblock
  have hsplit : blocks.flatten =
      (blocks.take k).flatten ++ (blocks[k] ++ (blocks.drop (k + 1)).flatten) := by
    rw [← List.flatten_cons, ← List.flatten_append, List.getElem_cons_drop, List.take_append_drop]
  rw [hsplit, List.drop_left' hoffset, List.take_left' hwidth]

end ByteReader
