import Verathos.Wire.Codec

/-!
# The walk over the scaffolding

A translation of `_transform` of `wire_codec.py`: the walk that replaces every opening in a tree of
tuples, lists, dictionaries and dataclasses by its packed bytes, and back.

* `Value` is such a tree. Whatever else a proof holds is an atom of the type `α`.
* `construct` stands for the constructors of the dataclasses, which `dataclasses.replace` runs on
  the changed fields: it takes the name of the class and the values of the fields in the order of
  their declaration, and returns or raises.
* `codec_roundTrip_iff`: which openings survive the codec and which trees survive the walk.
-/

namespace Verathos.Wire

open Merkle Pcs

/-- A tree that `_transform` walks. -/
inductive Value (α : Type) where
  | opening (op : GoldilocksMultilinearOpeningProofV3)
  | encoded (data : Bytes)
  | tuple (items : List (Value α))
  | list (items : List (Value α))
  /-- The keys of a dictionary in their order, and their values. -/
  | dict (keys : List α) (values : List (Value α))
  /-- The class of a dataclass and the values of its fields, in the order of their declaration. -/
  | dataclass (cls : String) (values : List (Value α))
  | atom (a : α)

namespace Value

variable {α : Type}

mutual

/-- `_transform(obj, encode) is not obj`: tuples with items, lists and dictionaries are made anew,
a dataclass when one of its fields is. -/
def rebuilt (encode : Bool) : Value α → Bool
  | .opening op => encode || !op.roundPolynomials.isEmpty || !op.layerOpenings.isEmpty
  | .encoded _ => !encode
  | .tuple items => !items.isEmpty
  | .list _ => true
  | .dict _ _ => true
  | .dataclass _ values => rebuiltAny encode values
  | .atom _ => false

/-- Some item is made anew. -/
def rebuiltAny (encode : Bool) : List (Value α) → Bool
  | [] => false
  | value :: values => rebuilt encode value || rebuiltAny encode values

end

section Transform

variable (lib : Bool) (construct : String → List (Value α) → Result Unit)

mutual

def transform (encode : Bool) : Value α → Result (Value α)
  | .opening op =>
    if encode then do
      let data ← packOpening op
      return .encoded data
    -- an opening holds no encoded opening, so its fields are rebuilt as they were
    else return .opening op
  | .encoded data =>
    if encode then return .encoded data
    else do
      let op ← unpackOpening lib data
      return .opening op
  | .tuple items => do
    let items ← transformAll encode items
    return .tuple items
  | .list items => do
    let items ← transformAll encode items
    return .list items
  | .dict keys values => do
    let values ← transformAll encode values
    return .dict keys values
  | .dataclass cls values => do
    let changes ← transformAll encode values
    if rebuiltAny encode values then
      construct cls changes
      return .dataclass cls changes
    else return .dataclass cls values
  | .atom a => return .atom a

/-- `_transform` of every item. -/
def transformAll (encode : Bool) : List (Value α) → Result (List (Value α))
  | [] => return []
  | value :: values => do
    let value ← transform encode value
    let values ← transformAll encode values
    return value :: values

end

end Transform

/-! ## Predicates on trees -/

mutual

/-- `P` holds of every node of a tree. -/
def All (P : Value α → Prop) : Value α → Prop
  | .opening op => P (.opening op)
  | .encoded data => P (.encoded data)
  | .tuple items => P (.tuple items) ∧ AllItems P items
  | .list items => P (.list items) ∧ AllItems P items
  | .dict keys values => P (.dict keys values) ∧ AllItems P values
  | .dataclass cls values => P (.dataclass cls values) ∧ AllItems P values
  | .atom a => P (.atom a)

/-- `P` holds of every node of every item. -/
def AllItems (P : Value α → Prop) : List (Value α) → Prop
  | [] => True
  | value :: values => All P value ∧ AllItems P values

end

mutual

/-- The tree with the packed bytes of every opening in its place. -/
def encodedForm : Value α → Value α
  | .opening op => .encoded ((packOpening op).toOption.getD [])
  | .encoded data => .encoded data
  | .tuple items => .tuple (encodedForms items)
  | .list items => .list (encodedForms items)
  | .dict keys values => .dict keys (encodedForms values)
  | .dataclass cls values => .dataclass cls (encodedForms values)
  | .atom a => .atom a

/-- The items with the packed bytes of every opening in its place. -/
def encodedForms : List (Value α) → List (Value α)
  | [] => []
  | value :: values => encodedForm value :: encodedForms values

end

variable (construct : String → List (Value α) → Result Unit)

/-- A node of a proof before it is encoded: not an encoded opening, and if it is a dataclass, one
that its constructor admits. -/
def WellFormed : Value α → Prop
  | .encoded _ => False
  | .dataclass cls values => Accepts (construct cls values)
  | _ => True

/-- A node that survives the walk: a packable opening, or a dataclass whose constructor also admits
its fields with the packed bytes in place of the openings. -/
def Survives : Value α → Prop
  | .opening op => Packable op
  | .dataclass cls values => Accepts (construct cls (encodedForms values))
  | _ => True

/-! ## The walk -/

variable {lib : Bool} {construct : String → List (Value α) → Result Unit}

mutual

theorem transform_of_not_rebuilt {encode : Bool} : ∀ {t : Value α}, rebuilt encode t = false →
    transform lib construct encode t = .ok t
  | .opening op, h => by
    simp only [rebuilt, Bool.or_eq_false_iff] at h
    simp [transform, h.1.1, pure, Except.pure]
  | .encoded data, h => by
    simp only [rebuilt, Bool.not_eq_false'] at h
    simp [transform, h, pure, Except.pure]
  | .tuple items, h => by
    simp only [rebuilt, Bool.not_eq_false', List.isEmpty_iff] at h
    simp [transform, transformAll, h, pure, bind, Except.pure, Except.bind]
  | .dataclass cls values, h => by
    simp only [rebuilt] at h
    simp only [transform, transformAll_of_not_rebuilt h, h]
    rfl
  | .atom a, _ => by rw [transform]; rfl

theorem transformAll_of_not_rebuilt {encode : Bool} : ∀ {items : List (Value α)},
    rebuiltAny encode items = false → transformAll lib construct encode items = .ok items
  | [], _ => by rw [transformAll]; rfl
  | value :: values, h => by
    simp only [rebuiltAny, Bool.or_eq_false_iff] at h
    rw [transformAll, transform_of_not_rebuilt h.1, transformAll_of_not_rebuilt h.2]
    rfl

end

/-- A dataclass is made anew from its changed fields, by its constructor when a field changed. -/
theorem transform_dataclass_eq_ok {encode : Bool} {cls : String} {values : List (Value α)}
    {wire : Value α} :
    transform lib construct encode (.dataclass cls values) = .ok wire ↔
      ∃ changes, transformAll lib construct encode values = .ok changes ∧
        (rebuiltAny encode values → Accepts (construct cls changes)) ∧
        wire = .dataclass cls changes := by
  simp only [transform, bind_eq_ok]
  cases hrebuilt : rebuiltAny encode values with
  | true =>
    simp only [if_true, bind_eq_ok, pure_eq_ok, forall_const, Accepts]
    constructor
    · rintro ⟨changes, hchanges, u, hu, rfl⟩
      exact ⟨changes, hchanges, ⟨u, hu⟩, rfl⟩
    · rintro ⟨changes, hchanges, ⟨u, hu⟩, rfl⟩
      exact ⟨changes, hchanges, u, hu, rfl⟩
  | false =>
    -- no field is made anew, and the object itself is returned
    have hsame := @transformAll_of_not_rebuilt α lib construct encode values hrebuilt
    simp only [hsame, Bool.false_eq_true, if_false, pure_eq_ok, Except.ok.injEq, false_implies,
      true_and, exists_eq_left']
    exact eq_comm

mutual

theorem eq_encodedForm_of_transform : ∀ {t wire : Value α},
    transform lib construct true t = .ok wire → wire = encodedForm t
  | .opening op, wire, h => by
    simp only [transform, if_true, bind_eq_ok, pure_eq_ok] at h
    obtain ⟨data, hdata, rfl⟩ := h
    rw [encodedForm, hdata]
    rfl
  | .encoded data, wire, h => by
    simp only [transform, if_true, pure_eq_ok] at h
    exact h.symm
  | .tuple items, wire, h => by
    simp only [transform, bind_eq_ok, pure_eq_ok] at h
    obtain ⟨wires, hwires, rfl⟩ := h
    rw [encodedForm, eq_encodedForms_of_transformAll hwires]
  | .list items, wire, h => by
    simp only [transform, bind_eq_ok, pure_eq_ok] at h
    obtain ⟨wires, hwires, rfl⟩ := h
    rw [encodedForm, eq_encodedForms_of_transformAll hwires]
  | .dict keys values, wire, h => by
    simp only [transform, bind_eq_ok, pure_eq_ok] at h
    obtain ⟨wires, hwires, rfl⟩ := h
    rw [encodedForm, eq_encodedForms_of_transformAll hwires]
  | .dataclass cls values, wire, h => by
    obtain ⟨changes, hchanges, -, rfl⟩ := transform_dataclass_eq_ok.mp h
    rw [encodedForm, eq_encodedForms_of_transformAll hchanges]
  | .atom a, wire, h => by
    simp only [transform, pure_eq_ok] at h
    exact h.symm

theorem eq_encodedForms_of_transformAll : ∀ {items wires : List (Value α)},
    transformAll lib construct true items = .ok wires → wires = encodedForms items
  | [], wires, h => by
    simp only [transformAll, pure_eq_ok] at h
    exact h.symm
  | value :: values, wires, h => by
    simp only [transformAll, bind_eq_ok, pure_eq_ok] at h
    obtain ⟨wire, hwire, wires, hwires, rfl⟩ := h
    rw [encodedForms, eq_encodedForm_of_transform hwire, eq_encodedForms_of_transformAll hwires]

end

/-! ## The round trip -/

/-- A tree comes back when it is encoded and decoded. -/
def ComesBack (lib : Bool) (construct : String → List (Value α) → Result Unit) (t : Value α) : Prop :=
  ∃ wire, transform lib construct true t = .ok wire ∧ transform lib construct false wire = .ok t

/-- Every item of a sequence comes back. -/
def ComeBack (lib : Bool) (construct : String → List (Value α) → Result Unit)
    (items : List (Value α)) : Prop :=
  ∃ wires, transformAll lib construct true items = .ok wires ∧
    transformAll lib construct false wires = .ok items

theorem comesBack_container {make : List (Value α) → Value α} (hinj : make.Injective)
    (hmake : ∀ encode items, transform lib construct encode (make items) = (do
      let items ← transformAll lib construct encode items
      return make items)) {items : List (Value α)} :
    ComesBack lib construct (make items) ↔ ComeBack lib construct items := by
  simp only [ComesBack, ComeBack, hmake, bind_eq_ok, pure_eq_ok]
  constructor
  · rintro ⟨_, ⟨wires, hwires, rfl⟩, hback⟩
    simp only [hmake, bind_eq_ok, pure_eq_ok] at hback
    obtain ⟨back, hback, heq⟩ := hback
    exact ⟨wires, hwires, hinj heq ▸ hback⟩
  · rintro ⟨wires, hwires, hback⟩
    refine ⟨make wires, ⟨wires, hwires, rfl⟩, ?_⟩
    rw [hmake, hback]
    rfl

/-- A dataclass that its constructor admits comes back exactly when its fields do and its
constructor also admits them in their encoded form. -/
theorem comesBack_dataclass {cls : String} {values : List (Value α)}
    (hadmits : Accepts (construct cls values)) :
    ComesBack lib construct (.dataclass cls values) ↔
      Accepts (construct cls (encodedForms values)) ∧ ComeBack lib construct values := by
  constructor
  · rintro ⟨wire, hwire, hback⟩
    obtain ⟨changes, hchanges, hconstruct, rfl⟩ := transform_dataclass_eq_ok.mp hwire
    obtain ⟨back, hback', -, heq⟩ := transform_dataclass_eq_ok.mp hback
    obtain ⟨-, rfl⟩ := dataclass.inj heq
    refine ⟨?_, changes, hchanges, hback'⟩
    rw [← eq_encodedForms_of_transformAll hchanges]
    cases hrebuilt : rebuiltAny true values with
    | true => exact hconstruct hrebuilt
    | false =>
      obtain rfl := Except.ok.inj ((transformAll_of_not_rebuilt hrebuilt).symm.trans hchanges)
      exact hadmits
  · rintro ⟨hencoded, wires, hwires, hback⟩
    rw [← eq_encodedForms_of_transformAll hwires] at hencoded
    exact ⟨.dataclass cls wires, transform_dataclass_eq_ok.mpr ⟨wires, hwires, fun _ => hencoded, rfl⟩,
      transform_dataclass_eq_ok.mpr ⟨values, hback, fun _ => hadmits, rfl⟩⟩

mutual

theorem comesBack_iff : ∀ {t : Value α}, t.All (WellFormed construct) →
    (ComesBack lib construct t ↔ t.All (Survives construct))
  | .opening op, _ => by
    rw [All, Survives, ← roundTrip_iff lib op]
    simp only [ComesBack, transform, if_true, bind_eq_ok, pure_eq_ok]
    constructor
    · rintro ⟨_, ⟨data, hdata, rfl⟩, hback⟩
      simp only [transform, Bool.false_eq_true, if_false, bind_eq_ok, pure_eq_ok, opening.injEq,
        exists_eq_right] at hback
      exact ⟨data, hdata, hback⟩
    · rintro ⟨data, hdata, hback⟩
      refine ⟨.encoded data, ⟨data, hdata, rfl⟩, ?_⟩
      simp only [transform, Bool.false_eq_true, if_false, bind_eq_ok, pure_eq_ok, opening.injEq,
        exists_eq_right]
      exact hback
  | .encoded data, h => h.elim
  | .tuple items, h => by
    rw [comesBack_container (fun _ _ => tuple.inj) (fun _ _ => rfl), comeBack_iff h.2]
    exact (and_iff_right trivial).symm
  | .list items, h => by
    rw [comesBack_container (fun _ _ => list.inj) (fun _ _ => rfl), comeBack_iff h.2]
    exact (and_iff_right trivial).symm
  | .dict keys values, h => by
    rw [comesBack_container (fun _ _ heq => (dict.inj heq).2) (fun _ _ => rfl), comeBack_iff h.2]
    exact (and_iff_right trivial).symm
  | .dataclass cls values, h => by
    rw [comesBack_dataclass h.1, comeBack_iff h.2]
    rfl
  | .atom a, _ => iff_of_true ⟨.atom a, rfl, rfl⟩ trivial

theorem comeBack_iff : ∀ {items : List (Value α)}, AllItems (WellFormed construct) items →
    (ComeBack lib construct items ↔ AllItems (Survives construct) items)
  | [], _ => iff_of_true ⟨[], rfl, rfl⟩ trivial
  | value :: values, h => by
    rw [AllItems, ← comesBack_iff h.1, ← comeBack_iff h.2]
    simp only [ComeBack, transformAll, bind_eq_ok, pure_eq_ok]
    constructor
    · rintro ⟨_, ⟨wire, hwire, wires, hwires, rfl⟩, hback⟩
      simp only [transformAll, bind_eq_ok, pure_eq_ok, List.cons.injEq] at hback
      obtain ⟨_, hvalue, _, hvalues, rfl, rfl⟩ := hback
      exact ⟨⟨wire, hwire, hvalue⟩, wires, hwires, hvalues⟩
    · rintro ⟨⟨wire, hwire, hvalue⟩, wires, hwires, hvalues⟩
      refine ⟨wire :: wires, ⟨wire, hwire, wires, hwires, rfl⟩, ?_⟩
      rw [transformAll, hvalue, hvalues]
      rfl

end

end Value

/-! ## Which openings and which trees survive -/

/-- An opening survives the codec exactly when it is packable, and a well-formed tree comes back
exactly when its openings are packable and its dataclasses admit their encoded fields. -/
theorem codec_roundTrip_iff {α : Type} (lib : Bool)
    (construct : String → List (Value α) → Result Unit) :
    (∀ op, (∃ data, packOpening op = .ok data ∧ unpackOpening lib data = .ok op) ↔ Packable op) ∧
      ∀ t : Value α, t.All (Value.WellFormed construct) →
        ((∃ wire, Value.transform lib construct true t = .ok wire ∧
            Value.transform lib construct false wire = .ok t) ↔
          t.All (Value.Survives construct)) :=
  ⟨roundTrip_iff lib, fun _ => Value.comesBack_iff⟩

/-- An opening without rounds whose only layer opens the only leaf of a tree, the given row. -/
def oneLayerOpening (row : List ℤ)
    (h : 1 ≤ row.length ∧ row.length ≤ maxLeafWidth ∧ ∀ v ∈ row, Canonical v) :
    GoldilocksMultilinearOpeningProofV3 where
  claimedValue := 0
  roundPolynomials := []
  layerCommitments := []
  finalValue := 0
  layerOpenings := [⟨singleLeafOpening row, admitted_singleLeafOpening h.1 h.2.1 h.2.2⟩]
  canonical_claimedValue := ⟨le_rfl, goldilocksModulus_pos⟩
  canonical_finalValue := ⟨le_rfl, goldilocksModulus_pos⟩
  length_layerCommitments := rfl

theorem oneColumn_admitted :
    1 ≤ [(0 : ℤ)].length ∧ [(0 : ℤ)].length ≤ maxLeafWidth ∧ ∀ v ∈ [(0 : ℤ)], Canonical v :=
  ⟨by decide, by simp [maxLeafWidth], fun v hv => by
    rw [List.mem_singleton.mp hv]
    exact ⟨le_rfl, goldilocksModulus_pos⟩⟩

theorem twoColumns_admitted :
    1 ≤ [(0 : ℤ), 0].length ∧ [(0 : ℤ), 0].length ≤ maxLeafWidth ∧
      ∀ v ∈ [(0 : ℤ), 0], Canonical v :=
  ⟨by decide, by simp [maxLeafWidth], fun v hv => by
    obtain rfl : v = 0 := by simpa using hv
    exact ⟨le_rfl, goldilocksModulus_pos⟩⟩

/-- A one-column opening in a dataclass whose constructor checks nothing. -/
theorem codec_roundTrip_iff_oneColumn :
    (∃ wire, Value.transform false (fun _ _ => .ok ()) true
        (.dataclass "GoldilocksBatchOpeningProofV3"
          [.tuple [.atom 0], .opening (oneLayerOpening [0] oneColumn_admitted)]) = .ok wire ∧
      Value.transform false (fun _ _ => .ok ()) false wire =
        .ok (.dataclass "GoldilocksBatchOpeningProofV3"
          [.tuple [.atom 0], .opening (oneLayerOpening [0] oneColumn_admitted)])) := by
  refine ((codec_roundTrip_iff false fun _ _ => .ok ()).2 _ ?_).mpr ?_
  · exact ⟨accepts_ok (), ⟨trivial, trivial, trivial⟩, trivial, trivial⟩
  · refine ⟨accepts_ok (), ⟨trivial, trivial, trivial⟩, ?_, trivial⟩
    exact ⟨by simp [oneLayerOpening], by simp [oneLayerOpening], by simp [oneLayerOpening],
      by simp [oneLayerOpening], by simp [oneLayerOpening, singleLeafOpening],
      by simp [oneLayerOpening, singleLeafOpening]⟩

/-- A two-column opening is packed, but its bytes do not unpack to it. -/
theorem twoColumns_not_roundTrip :
    (∃ data, packOpening (oneLayerOpening [0, 0] twoColumns_admitted) = .ok data) ∧
      ¬ ∃ data, packOpening (oneLayerOpening [0, 0] twoColumns_admitted) = .ok data ∧
        unpackOpening false data = .ok (oneLayerOpening [0, 0] twoColumns_admitted) := by
  constructor
  · refine (exists_packOpening_iff _).mpr ⟨?_, ?_, ?_, ?_⟩ <;>
      simp [oneLayerOpening, singleLeafOpening]
  · rw [roundTrip_iff]
    intro h
    have hwidth := h.leafWidth _ (List.mem_singleton_self _)
    exact absurd hwidth (by decide)

end Verathos.Wire
