import Mathlib.Tactic

/-!
# Chunks framed by counters

A list of chunks is written by putting a label before every chunk, the label of its position. The
labels carry no lengths. Chunks of known lengths can be read back (`FixedBy.frame`), and chunks of
unknown lengths cannot, since a label may stand inside a chunk (`frame_ambiguous`).

* `FixedBy`: a writing whose length and whose parse are fixed by a shape of the value;
* `FixedBy.append`, `FixedBy.prepend`, `FixedBy.frame`: how shapes compose.
-/

namespace CounterFrame

variable {β γ δ σ τ : Type*}

/-! ## Writings fixed by a shape -/

/-- Values of one shape have writings of one length, and no two values of one shape share a
writing. -/
structure FixedBy (shape : γ → σ) (write : γ → List β) : Prop where
  length_eq : ∀ v v', shape v = shape v' → (write v).length = (write v').length
  eq_of_write : ∀ v v', shape v = shape v' → write v = write v' → v = v'

theorem FixedBy.list : FixedBy List.length (fun v : List β => v) where
  length_eq _ _ h := h
  eq_of_write _ _ _ h := h

variable {shape : γ → σ} {write : γ → List β}

theorem FixedBy.append_inj (h : FixedBy shape write) {v v' : γ} {rest rest' : List β}
    (hshape : shape v = shape v') (heq : write v ++ rest = write v' ++ rest') :
    v = v' ∧ rest = rest' := by
  obtain ⟨hwrite, hrest⟩ := List.append_inj heq (h.length_eq v v' hshape)
  exact ⟨h.eq_of_write v v' hshape hwrite, hrest⟩

theorem FixedBy.append {shape' : δ → τ} {write' : δ → List β} (h : FixedBy shape write)
    (h' : FixedBy shape' write') :
    FixedBy (Prod.map shape shape') (fun v : γ × δ => write v.1 ++ write' v.2) where
  length_eq v v' hshape := by
    obtain ⟨hfst, hsnd⟩ := Prod.ext_iff.mp hshape
    rw [List.length_append, List.length_append, h.length_eq _ _ hfst, h'.length_eq _ _ hsnd]
  eq_of_write v v' hshape heq := by
    obtain ⟨hfst, hsnd⟩ := Prod.ext_iff.mp hshape
    obtain ⟨heqFst, hrest⟩ := h.append_inj hfst heq
    exact Prod.ext heqFst (h'.eq_of_write _ _ hsnd hrest)

theorem FixedBy.prepend (h : FixedBy shape write) {head : γ → List β}
    (hhead : ∀ v v', shape v = shape v' → head v = head v') :
    FixedBy shape (fun v => head v ++ write v) where
  length_eq v v' hshape := by
    rw [List.length_append, List.length_append, hhead v v' hshape, h.length_eq v v' hshape]
  eq_of_write v v' hshape heq := by
    rw [hhead v v' hshape, List.append_cancel_left_eq] at heq
    exact h.eq_of_write v v' hshape heq

/-! ## Frames -/

/-- The chunks from a position on, each after the label of its position. -/
def frame (label : ℕ → List β) : ℕ → List (List β) → List β
  | _, [] => []
  | position, chunk :: chunks => label position ++ (chunk ++ frame label (position + 1) chunks)

theorem FixedBy.frame (h : FixedBy shape write) (label : ℕ → List β) (position : ℕ) :
    FixedBy (List.map shape) (fun vs => frame label position (vs.map write)) where
  length_eq vs := by
    induction vs generalizing position with
    | nil =>
      intro vs' hshape
      obtain rfl := List.map_eq_nil_iff.mp hshape.symm
      rfl
    | cons v vs ih =>
      intro vs' hshape
      obtain ⟨v', vs', rfl, hv, hvs⟩ := List.map_eq_cons_iff.mp hshape.symm
      simp only [List.map_cons, CounterFrame.frame, List.length_append,
        h.length_eq v v' hv.symm, ih (position + 1) vs' hvs.symm]
  eq_of_write vs := by
    induction vs generalizing position with
    | nil =>
      intro vs' hshape _
      exact (List.map_eq_nil_iff.mp hshape.symm).symm
    | cons v vs ih =>
      intro vs' hshape heq
      obtain ⟨v', vs', rfl, hv, hvs⟩ := List.map_eq_cons_iff.mp hshape.symm
      -- the labels agree, so the chunks are read off one after the other
      simp only [List.map_cons, CounterFrame.frame, List.append_cancel_left_eq] at heq
      obtain ⟨rfl, hrest⟩ := h.append_inj hv.symm heq
      rw [ih (position + 1) vs' hvs.symm hrest]

theorem frame_ambiguous (label : ℕ → List β) (position : ℕ) (x a b c d : List β) :
    frame label position
        [x, a, b ++ (label (position + 1) ++ (c ++ (label (position + 2) ++ d)))] =
      frame label position
        [x ++ (label (position + 1) ++ (a ++ (label (position + 2) ++ b))), c, d] := by
  simp only [frame, List.append_nil, List.append_assoc]

end CounterFrame
