import Verathos.WorkspaceProof.Bands

/-!
# Accepted openings bind the bands

* `eq_or_collide_of_paths`: two paths for one index of one tree that lead to one root start from one
  leaf, unless two of the hashed messages collide;
* `qOpening_binds`, `transitionBands_bind`: two openings that are accepted for one context open the
  same;
* `workspaceOpenings_give_bands`: the openings of the trees give what they commit to, and nothing
  else.
-/

namespace Verathos.WorkspaceProof

open HashChain (Collide)
open RowMajor (HasShape)

variable {sha256 : Bytes → Digest} {floatIs : List Char → ℤ → Bool}

/-! ## Strict paths -/

/-- The siblings of both steps are on the same side. -/
def SameSide (step step' : Bytes × Bool) : Prop := step.2 = step'.2

theorem snd_of_strictSibling {nodeIndex : ℕ} {item : Json} {step : Bytes × Bool}
    (h : strictSibling nodeIndex item = .ok step) : step.2 = decide (nodeIndex % 2 = 1) := by
  unfold strictSibling at h
  split at h
  · simp only [bind_eq_ok] at h
    obtain ⟨-, -, h⟩ := h
    split at h
    · split at h
      · simp only [bind_eq_ok, failIf_eq_ok, pure_eq_ok, not_not] at h
        obtain ⟨-, hside, rfl⟩ := h
        exact hside
      · cases h
    · cases h
  · cases h
  · cases h

theorem sameSide_of_strictSiblings {nodeIndex : ℕ} {items items' : List Json}
    {steps steps' : List (Bytes × Bool)} (hlength : items.length = items'.length)
    (h : strictSiblings nodeIndex items = .ok steps)
    (h' : strictSiblings nodeIndex items' = .ok steps') : List.Forall₂ SameSide steps steps' := by
  induction items generalizing nodeIndex items' steps steps' with
  | nil =>
    obtain rfl := List.length_eq_zero_iff.mp hlength.symm
    obtain rfl := Except.ok.inj h
    obtain rfl := Except.ok.inj h'
    exact .nil
  | cons item items ih =>
    cases items' with
    | nil => cases hlength
    | cons item' items' =>
      simp only [strictSiblings, bind_eq_ok, pure_eq_ok] at h h'
      obtain ⟨step, hstep, steps, hsteps, rfl⟩ := h
      obtain ⟨step', hstep', steps', hsteps', rfl⟩ := h'
      exact .cons ((snd_of_strictSibling hstep).trans (snd_of_strictSibling hstep').symm)
        (ih (Nat.succ.inj hlength) hsteps hsteps')

variable {path : MerklePath}

theorem sameSide_of_strictMerklePath {pathData pathData' : Option Json} {leaf numLeaves : ℕ}
    {path' : MerklePath} (h : strictMerklePath floatIs pathData leaf numLeaves = .ok path)
    (h' : strictMerklePath floatIs pathData' leaf numLeaves = .ok path') :
    List.Forall₂ SameSide path.siblings path'.siblings := by
  have hinv {data : Option Json} {path : MerklePath}
      (h : strictMerklePath floatIs data leaf numLeaves = .ok path) :
      ∃ items, items.length = treeHeight numLeaves ∧
        strictSiblings leaf items = .ok path.siblings := by
    unfold strictMerklePath at h
    split at h
    · cases h
    · simp only [bind_eq_ok] at h
      obtain ⟨-, -, h⟩ := h
      split at h
      · simp only [bind_eq_ok, failIf_eq_ok, pure_eq_ok, not_not] at h
        obtain ⟨-, hlength, siblings, hsiblings, rfl⟩ := h
        exact ⟨_, hlength, hsiblings⟩
      · cases h
  obtain ⟨items, hlength, hitems⟩ := hinv h
  obtain ⟨items', hlength', hitems'⟩ := hinv h'
  exact sameSide_of_strictSiblings (hlength.trans hlength'.symm) hitems hitems'

/-! ## Climbs -/

theorem foldl_climbStep (tag : Bytes) (leaf : Digest) (steps : List (Bytes × Bool)) :
    steps.foldl (climbStep fun left right => sha256 (tag ++ left ++ right)) leaf =
      HashChain.link sha256 (nodeMessage tag) leaf steps := by
  induction steps generalizing leaf with
  | nil => rfl
  | cons step steps ih =>
    rw [List.foldl_cons, ih, HashChain.link, climbStep, nodeMessage]
    split_ifs
    · rfl
    · rfl

theorem nodeMessage_inj (tag : Bytes) (current current' : Digest) (step step' : Bytes × Bool)
    (hside : SameSide step step') (h : nodeMessage tag current step = nodeMessage tag current' step') :
    current = current' ∧ step = step' := by
  have hlength : current.bytes.length = current'.bytes.length := by
    rw [current.length_eq, current'.length_eq]
  unfold nodeMessage at h
  rw [← hside] at h
  split_ifs at h
  · obtain ⟨hfront, hback⟩ := List.append_inj' h hlength
    exact ⟨Digest.ext hback, Prod.ext (List.append_cancel_left hfront) hside⟩
  · rw [List.append_assoc, List.append_assoc] at h
    obtain ⟨hfront, hback⟩ := List.append_inj (List.append_cancel_left h) hlength
    exact ⟨Digest.ext hfront, Prod.ext hback hside⟩

theorem eq_or_collide_of_paths {blockTag leafTag nodeTag bytes bytes' root : Bytes}
    {path' : MerklePath} (hsides : List.Forall₂ SameSide path.siblings path'.siblings)
    (h : verifyPath (fun left right => sha256 (nodeTag ++ left ++ right)) root
      (sha256 (leafMessages sha256 blockTag leafTag bytes).2) path = true)
    (h' : verifyPath (fun left right => sha256 (nodeTag ++ left ++ right)) root
      (sha256 (leafMessages sha256 blockTag leafTag bytes').2) path' = true) :
    bytes = bytes' ∨ Collide sha256 (openingMessages sha256 blockTag leafTag nodeTag bytes path)
      (openingMessages sha256 blockTag leafTag nodeTag bytes' path') := by
  rw [verifyPath, decide_eq_true_eq, foldl_climbStep] at h h'
  have hroot := Digest.ext (h.trans h'.symm)
  rcases HashChain.eq_or_collide_of_forall₂ (nodeMessage_inj nodeTag) hsides hroot with
    ⟨hleaf, -⟩ | hcollide
  · -- one leaf: its two messages are compared, from the leaf down to the block
    rcases HashChain.eq_or_collide_of_mem (List.mem_cons_of_mem _ List.mem_cons_self)
      (List.mem_cons_of_mem _ List.mem_cons_self) hleaf with hmessage | hcollide
    · have hblock := Digest.ext (List.append_cancel_left hmessage)
      exact (HashChain.eq_or_collide_of_mem List.mem_cons_self List.mem_cons_self hblock).imp_left
        List.append_cancel_left
    · exact .inr hcollide
  · exact .inr (hcollide.mono
      (fun _ hmem => List.mem_cons_of_mem _ (List.mem_cons_of_mem _ hmem))
      fun _ hmem => List.mem_cons_of_mem _ (List.mem_cons_of_mem _ hmem))

/-! ## The block of Q -/

variable {context : CapacityGemmV2Context}

theorem hasShape_of_strictI32Block {qBlockI32 : Json} {blockSize : ℕ} {qBlock : List (List ℤ)}
    (h : strictI32Block qBlockI32 blockSize = .ok qBlock) : HasShape blockSize blockSize qBlock := by
  simp only [strictI32Block, bind_eq_ok, failIf_eq_ok, not_or, not_not, not_exists, not_and] at h
  obtain ⟨-, -, rows, -, -, ⟨hlength, hrows⟩, hnormalized⟩ := h
  rw [mapM_eq_ok] at hnormalized
  refine ⟨hnormalized.length_eq.symm.trans hlength, fun row hrow => ?_⟩
  obtain ⟨i, hi, rfl⟩ := List.mem_iff_getElem.mp hrow
  have hi' : i < rows.length := hnormalized.length_eq.symm ▸ hi
  have hvalues := mapM_eq_ok.mp (hnormalized.get hi' hi)
  exact hvalues.length_eq.symm.trans (hrows _ (List.get_mem rows ⟨i, hi'⟩))

theorem qBlock_inj {rows columns : ℕ} {block block' : List (List ℤ)}
    (h : HasShape rows columns block) (h' : HasShape rows columns block') (hvalues : IsI32 block)
    (hvalues' : IsI32 block')
    (heq : (block.flatten.map (LittleEndian.toBytesSigned 4)).flatten =
      (block'.flatten.map (LittleEndian.toBytesSigned 4)).flatten) : block = block' := by
  have hwords {block : List (List ℤ)} (h : HasShape rows columns block) :
      HasShape (rows * columns) 4 (block.flatten.map (LittleEndian.toBytesSigned 4)) := by
    refine ⟨(List.length_map _).trans (RowMajor.length_flatten h), fun word hword => ?_⟩
    obtain ⟨value, -, rfl⟩ := List.mem_map.mp hword
    exact LittleEndian.length_toBytesSigned 4 value
  have hread {block : List (List ℤ)} (hvalues : IsI32 block) :
      (block.flatten.map (LittleEndian.toBytesSigned 4)).map LittleEndian.toIntSigned =
        block.flatten := by
    rw [List.map_map]
    refine (List.map_congr_left fun value hvalue => ?_).trans (List.map_id _)
    obtain ⟨row, hrow, hmem⟩ := List.mem_flatten.mp hvalue
    obtain ⟨hlow, hhigh⟩ := hvalues row hrow value hmem
    exact LittleEndian.toIntSigned_toBytesSigned (by norm_num; omega) (by norm_num; omega)
  apply RowMajor.eq_of_flatten h h'
  rw [← hread hvalues, ← hread hvalues', RowMajor.eq_of_flatten (hwords h) (hwords h') heq]

theorem qOpening_binds {qBlockI32 qBlockI32' : Json} {qMerklePath qMerklePath' : Option Json}
    {opened opened' : List (List ℤ) × Digest}
    (h : verifyQOpening sha256 floatIs context qBlockI32 qMerklePath = .ok opened)
    (h' : verifyQOpening sha256 floatIs context qBlockI32' qMerklePath' = .ok opened') :
    ∃ messages messages',
      qOpeningMessages sha256 floatIs context qBlockI32 qMerklePath = .ok messages ∧
      qOpeningMessages sha256 floatIs context qBlockI32' qMerklePath' = .ok messages' ∧
      (opened = opened' ∨ Collide sha256 messages messages') := by
  simp only [verifyQOpening, bind_eq_ok, failIf_eq_ok, pure_eq_ok, Bool.not_eq_false,
    workspaceQBlockHashI32_eq_ok] at h h'
  obtain ⟨qBlock, hblock, path, hpath, _, ⟨hvalues, rfl⟩, -, hverify, rfl⟩ := h
  obtain ⟨qBlock', hblock', path', hpath', _, ⟨hvalues', rfl⟩, -, hverify', rfl⟩ := h'
  refine ⟨openingMessages sha256 workspaceQBlockTag workspaceQLeafTag workspaceQNodeTag
      (qBlock.flatten.map (LittleEndian.toBytesSigned 4)).flatten path,
    openingMessages sha256 workspaceQBlockTag workspaceQLeafTag workspaceQNodeTag
      (qBlock'.flatten.map (LittleEndian.toBytesSigned 4)).flatten path', ?_, ?_, ?_⟩
  · simp only [qOpeningMessages, bind_eq_ok, pure_eq_ok]
    exact ⟨_, hblock, _, hpath, _, qBlockBytes_eq_ok.mpr ⟨hvalues, rfl⟩, rfl⟩
  · simp only [qOpeningMessages, bind_eq_ok, pure_eq_ok]
    exact ⟨_, hblock', _, hpath', _, qBlockBytes_eq_ok.mpr ⟨hvalues', rfl⟩, rfl⟩
  · refine (eq_or_collide_of_paths (sameSide_of_strictMerklePath hpath hpath') hverify
      hverify').imp_left fun hbytes => ?_
    rw [qBlock_inj (hasShape_of_strictI32Block hblock) (hasShape_of_strictI32Block hblock') hvalues
      hvalues' hbytes]

/-! ## The blocks of A and B -/

theorem hasShape_of_packedStateBlockI8 {value : Option Json} {blockSize : ℕ} {block : StateBlock}
    (h : packedStateBlockI8 value blockSize = .ok block) :
    HasShape blockSize blockSize block.aBlock ∧ HasShape blockSize blockSize block.bBlock := by
  unfold packedStateBlockI8 at h
  split at h
  · simp only [bind_eq_ok] at h
    obtain ⟨-, -, h⟩ := h
    split at h
    · simp only [bind_eq_ok, failIf_eq_ok, pure_eq_ok, not_not] at h
      obtain ⟨-, -, -, hlength, rfl⟩ := h
      exact hasShape_unpackStateBlock hlength
    · cases h
  · cases h

theorem readStateOpening_eq_ok {opening : Json} {index : ℕ} {block : StateBlock}
    (h : readStateOpening floatIs context opening index = .ok (block, path)) :
    (HasShape context.blockSize context.blockSize block.aBlock ∧
      HasShape context.blockSize context.blockSize block.bBlock) ∧
      ∃ pathData, strictMerklePath floatIs pathData index
        (context.blocksPerRow * context.blocksPerRow) = .ok path := by
  unfold readStateOpening at h
  split at h
  · cases h
  · split at h
    · simp only [bind_eq_ok, failIf_eq_ok, pure_eq_ok, Prod.mk.injEq] at h
      obtain ⟨-, -, block, hblock, path, hpath, rfl, rfl⟩ := h
      exact ⟨hasShape_of_packedStateBlockI8 hblock, _, hpath⟩
    · cases h

/-- Two accepted openings of one state block open the same, unless messages collide. -/
theorem openStateBlock_binds {opening opening' : Json} {index : ℕ} {opened opened' : ℕ × StateBlock}
    (h : openStateBlock sha256 floatIs context opening index = .ok opened)
    (h' : openStateBlock sha256 floatIs context opening' index = .ok opened') :
    ∃ messages messages',
      stateOpeningMessages sha256 floatIs context opening index = .ok messages ∧
      stateOpeningMessages sha256 floatIs context opening' index = .ok messages' ∧
      (opened = opened' ∨ Collide sha256 messages messages') := by
  have hinv {opening : Json} {opened : ℕ × StateBlock}
      (h : openStateBlock sha256 floatIs context opening index = .ok opened) :
      ∃ block path, readStateOpening floatIs context opening index = .ok (block, path) ∧
        verifyWorkspaceStateMerklePath sha256 context.stateRoot
          (stateLeaf sha256 block.aBlock block.bBlock) path = true ∧ opened = (index, block) := by
    simp only [openStateBlock, bind_eq_ok, failIf_eq_ok, pure_eq_ok, Bool.not_eq_false] at h
    obtain ⟨⟨block, path⟩, hread, leaf, hleaf, -, hverify, rfl⟩ := h
    obtain ⟨⟨ha, hb⟩, -⟩ := readStateOpening_eq_ok hread
    rw [workspaceStateBlockHashI8_eq (Nat.zero_lt_of_lt context.two_le_blockSize) ha hb] at hleaf
    obtain rfl := Except.ok.inj hleaf
    exact ⟨block, path, hread, hverify, rfl⟩
  obtain ⟨block, path, hread, hverify, rfl⟩ := hinv h
  obtain ⟨block', path', hread', hverify', rfl⟩ := hinv h'
  obtain ⟨⟨ha, hb⟩, _, hpath⟩ := readStateOpening_eq_ok hread
  obtain ⟨⟨ha', hb'⟩, _, hpath'⟩ := readStateOpening_eq_ok hread'
  refine ⟨openingMessages sha256 (fixedTag workspaceStateBlockTag) (fixedTag workspaceStateLeafTag)
      (fixedTag workspaceStateNodeTag) (stateBlockBytes block.aBlock block.bBlock) path,
    openingMessages sha256 (fixedTag workspaceStateBlockTag) (fixedTag workspaceStateLeafTag)
      (fixedTag workspaceStateNodeTag) (stateBlockBytes block'.aBlock block'.bBlock) path', ?_, ?_, ?_⟩
  · rw [stateOpeningMessages, hread]
    rfl
  · rw [stateOpeningMessages, hread']
    rfl
  · refine (eq_or_collide_of_paths (sameSide_of_strictMerklePath hpath hpath') hverify
      hverify').imp_left fun hbytes => ?_
    have hblock : block = block' :=
      calc block = unpackStateBlock context.blockSize (stateBlockBytes block.aBlock block.bBlock) :=
            (unpackStateBlock_stateBlockBytes ha hb).symm
        _ = block' := by rw [hbytes, unpackStateBlock_stateBlockBytes ha' hb']
    rw [hblock]

/-- Openings that are accepted for the same indices open the same blocks, unless messages collide. -/
theorem openStateBlocks_bind {openings openings' : List Json} {indices : List ℕ}
    {opened opened' : List (ℕ × StateBlock)} (hlength : openings.length = indices.length)
    (hlength' : openings'.length = indices.length)
    (h : ((openings.zip indices).mapM fun (opening, index) =>
      openStateBlock sha256 floatIs context opening index) = .ok opened)
    (h' : ((openings'.zip indices).mapM fun (opening, index) =>
      openStateBlock sha256 floatIs context opening index) = .ok opened') :
    ∃ messages messages',
      ((openings.zip indices).mapM fun (opening, index) =>
        stateOpeningMessages sha256 floatIs context opening index) = .ok messages ∧
      ((openings'.zip indices).mapM fun (opening, index) =>
        stateOpeningMessages sha256 floatIs context opening index) = .ok messages' ∧
      (opened = opened' ∨ Collide sha256 messages.flatten messages'.flatten) := by
  induction indices generalizing openings openings' opened opened' with
  | nil =>
    obtain rfl := List.length_eq_zero_iff.mp hlength
    obtain rfl := List.length_eq_zero_iff.mp hlength'
    exact ⟨[], [], rfl, rfl, .inl (Except.ok.inj (h.symm.trans h'))⟩
  | cons index indices ih =>
    obtain ⟨opening, openings, rfl⟩ := List.exists_cons_of_length_eq_add_one hlength
    obtain ⟨opening', openings', rfl⟩ := List.exists_cons_of_length_eq_add_one hlength'
    simp only [List.zip_cons_cons, List.mapM_cons, bind_eq_ok, pure_eq_ok] at h h' ⊢
    obtain ⟨first, hfirst, rest, hrest, rfl⟩ := h
    obtain ⟨first', hfirst', rest', hrest', rfl⟩ := h'
    obtain ⟨messages, messages', hmessages, hmessages', hopened⟩ :=
      openStateBlock_binds hfirst hfirst'
    obtain ⟨more, more', hmore, hmore', hrestOpened⟩ :=
      ih (Nat.succ.inj hlength) (Nat.succ.inj hlength') hrest hrest'
    refine ⟨messages :: more, messages' :: more', ⟨_, hmessages, _, hmore, rfl⟩,
      ⟨_, hmessages', _, hmore', rfl⟩, ?_⟩
    rw [List.flatten_cons, List.flatten_cons]
    rcases hopened with rfl | hcollide
    · rcases hrestOpened with rfl | hcollide
      · exact .inl rfl
      · exact .inr (hcollide.mono (List.subset_append_right _ _) (List.subset_append_right _ _))
    · exact .inr (hcollide.mono (List.subset_append_left _ _) (List.subset_append_left _ _))

theorem transitionBands_bind {stateOpenings stateOpenings' : Json}
    {bands bands' : List (List Int8) × List (List Int8)}
    (h : transitionBands sha256 floatIs context stateOpenings = .ok bands)
    (h' : transitionBands sha256 floatIs context stateOpenings' = .ok bands') :
    ∃ messages messages',
      bandMessages sha256 floatIs context stateOpenings = .ok messages ∧
      bandMessages sha256 floatIs context stateOpenings' = .ok messages' ∧
      (bands = bands' ∨ Collide sha256 messages messages') := by
  have hinv {stateOpenings : Json} {bands : List (List Int8) × List (List Int8)}
      (h : transitionBands sha256 floatIs context stateOpenings = .ok bands) :
      ∃ openings opened, stateOpenings = .arr openings ∧
        openings.length = (requiredTransitionStateBlocks context).length ∧
        ((openings.zip (requiredTransitionStateBlocks context)).mapM fun (opening, index) =>
          openStateBlock sha256 floatIs context opening index) = .ok opened ∧
        bandsOf context (.ofList opened) = .ok bands := by
    unfold transitionBands at h
    split at h
    · simp only [bind_eq_ok, failIf_eq_ok, not_not] at h
      obtain ⟨-, hlength, opened, hopened, hbands⟩ := h
      exact ⟨_, opened, rfl, hlength, hopened, hbands⟩
    · cases h
  obtain ⟨openings, opened, rfl, hlength, hopened, hbands⟩ := hinv h
  obtain ⟨openings', opened', rfl, hlength', hopened', hbands'⟩ := hinv h'
  obtain ⟨messages, messages', hmessages, hmessages', hsame⟩ :=
    openStateBlocks_bind hlength hlength' hopened hopened'
  refine ⟨messages.flatten, messages'.flatten, ?_, ?_, hsame.imp_left fun heq => ?_⟩
  · rw [bandMessages, hmessages]
    rfl
  · rw [bandMessages, hmessages']
    rfl
  · rw [heq] at hbands
    exact Except.ok.inj (hbands.symm.trans hbands')

/-! ## What the trees commit to -/

/-- What a tree of A and B gives. -/
structure StateTreeOpens (sha256 : Bytes → Digest) (floatIs : List Char → ℤ → Bool)
    (aMatrix bMatrix : List (List Int8)) (blockSize : ℕ) (tree : WorkspaceTree)
    (leaves : List Digest) (root : Digest) : Prop where
  root_eq : tree.root = .ok root ∧ workspaceStateMerkleRootFromLeaves sha256 leaves = .ok root
  length_eq : leaves.length = aMatrix.length / blockSize * (aMatrix.length / blockSize)
  /-- The path of every leaf passes the strict checks for its index, and leads to the root. -/
  path : ∀ (index : ℕ) (leaf : Digest), leaves[index]? = some leaf → ∃ path,
    tree.getStatePath index = .ok path ∧
    strictMerklePath floatIs (some (serializeMerklePath path)) index leaves.length = .ok path ∧
    verifyWorkspaceStateMerklePath sha256 root.bytes leaf path = true
  /-- The openings of the required blocks give the bands of the sampled block. -/
  bands : ∀ context : CapacityGemmV2Context, context.matrixDim = aMatrix.length →
    context.blockSize = blockSize → context.transitionMixRounds ≠ 0 →
    context.stateRoot = root.bytes → ∃ openings,
      (requiredTransitionStateBlocks context).mapM (stateOpening aMatrix bMatrix blockSize tree) =
        .ok openings ∧
      transitionBands sha256 floatIs context (.arr openings) =
        .ok (RowMajor.rowBand aMatrix blockSize context.rowBlock,
          RowMajor.columnBand bMatrix blockSize context.columnBlock)

/-- What a tree of Q gives. -/
structure QTreeOpens (sha256 : Bytes → Digest) (floatIs : List Char → ℤ → Bool)
    (matrix : List (List ℤ)) (blockSize : ℕ) (tree : WorkspaceTree) (leaves : List Digest)
    (root : Digest) : Prop where
  root_eq : tree.root = .ok root ∧ workspaceMerkleRootFromLeaves sha256 leaves = .ok root
  length_eq : leaves.length = matrix.length / blockSize * (matrix.length / blockSize)
  /-- The path of every leaf passes the strict checks for its index, and leads to the root. -/
  path : ∀ (bi bj : ℕ) (leaf : Digest) (given : Option ℕ), bi < matrix.length / blockSize →
    bj < matrix.length / blockSize →
    leaves[bi * (matrix.length / blockSize) + bj]? = some leaf →
    given = none ∨ given = some (matrix.length / blockSize) → ∃ path,
      tree.getPath bi bj given = .ok path ∧
      strictMerklePath floatIs (some (serializeMerklePath path))
        (bi * (matrix.length / blockSize) + bj) leaves.length = .ok path ∧
      verifyWorkspaceMerklePath sha256 root.bytes leaf path = true
  opening : ∀ context : CapacityGemmV2Context, context.matrixDim = matrix.length →
    context.blockSize = blockSize → context.roundRoot = root → ∃ path leaf,
      tree.getPath context.rowBlock context.columnBlock none = .ok path ∧
      workspaceQBlockHashI32 sha256
        (blockRows matrix blockSize context.rowBlock context.columnBlock) = .ok leaf ∧
      verifyQOpening sha256 floatIs context
          (qBlockJson (blockRows matrix blockSize context.rowBlock context.columnBlock))
          (some (serializeMerklePath path)) =
        .ok (blockRows matrix blockSize context.rowBlock context.columnBlock, leaf)

section Trees

variable {matrixDim blockSize : ℕ}

theorem exists_stateTreeOpens (hdim : 0 < matrixDim) (hsize : 0 < blockSize)
    (hdvd : blockSize ∣ matrixDim) {aMatrix bMatrix : List (List Int8)}
    (ha : HasShape matrixDim matrixDim aMatrix) (hb : HasShape matrixDim matrixDim bMatrix) :
    ∃ tree leaves root, fromStateI8Matrices sha256 aMatrix bMatrix blockSize = .ok tree ∧
      stateLeaves sha256 aMatrix bMatrix blockSize = .ok leaves ∧
      StateTreeOpens sha256 floatIs aMatrix bMatrix blockSize tree leaves root := by
  obtain ⟨count, rfl⟩ := exists_eq_mul_left_of_dvd hdvd
  have hcount : 0 < count := Nat.pos_of_mul_pos_right hdim
  have hdiv : aMatrix.length / blockSize = count := (length_of_hasShape hcount hsize ha).2.2.1
  obtain ⟨tree, hbuild, hleaves, htree⟩ := exists_fromStateI8Matrices sha256 hcount hsize ha hb
  obtain ⟨root, hroot, hfromLeaves, hreduce⟩ :=
    htree.root_eq "cannot build workspace state Merkle root from empty leaves"
  refine ⟨tree, _, root, hbuild, hleaves, ⟨hroot, hfromLeaves⟩, ?_, fun index leaf hleaf => ?_,
    fun context hcontext hblock hmode hstate => ?_⟩
  · rw [hdiv, length_stateLeafHashes]
  · have hindex := (List.getElem?_eq_some_iff.mp hleaf).1
    exact ⟨_, htree.getStatePath_eq hindex, strictMerklePath_serialize hindex,
      verifyPath_honestPath hleaf hreduce⟩
  · have hblocks : context.blocksPerRow = count := by
      rw [CapacityGemmV2Context.blocksPerRow, hcontext, hblock, hdiv]
    exact transitionBands_stateOpenings hblock hblocks ha hb htree hroot hstate hmode

theorem exists_qTreeOpens (hdim : 0 < matrixDim) (hsize : 0 < blockSize)
    (hdvd : blockSize ∣ matrixDim) {matrix : List (List ℤ)}
    (h : HasShape matrixDim matrixDim matrix) (hvalues : IsI32 matrix) :
    ∃ tree leaves root, fromMatrixI32 sha256 matrix blockSize = .ok tree ∧
      qLeaves sha256 matrix blockSize = .ok leaves ∧
      QTreeOpens sha256 floatIs matrix blockSize tree leaves root := by
  obtain ⟨count, rfl⟩ := exists_eq_mul_left_of_dvd hdvd
  have hcount : 0 < count := Nat.pos_of_mul_pos_right hdim
  have hdiv : matrix.length / blockSize = count := (length_of_hasShape hcount hsize h).2.2.1
  obtain ⟨tree, hbuild, hleaves, htree⟩ := exists_fromMatrixI32 sha256 hcount hsize h hvalues
  obtain ⟨root, hroot, hfromLeaves, hreduce⟩ :=
    htree.root_eq "cannot build workspace Merkle root from empty leaves"
  have hlength : (qLeafHashes sha256 matrix blockSize count).length = count * count :=
    length_qLeafHashes matrix
  refine ⟨tree, _, root, hbuild, hleaves, ⟨hroot, hfromLeaves⟩, hdiv.symm ▸ hlength,
    fun bi bj leaf given hbi hbj hleaf hgiven => ?_, fun context hcontext hblock hround => ?_⟩
  · rw [hdiv] at hbi hbj hleaf hgiven ⊢
    have hindex := (List.getElem?_eq_some_iff.mp hleaf).1
    exact ⟨_, htree.getPath_eq hlength hbi hbj hgiven, strictMerklePath_serialize hindex,
      verifyPath_honestPath hleaf hreduce⟩
  · have hblocks : context.blocksPerRow = count := by
      rw [CapacityGemmV2Context.blocksPerRow, hcontext, hblock, hdiv]
    obtain ⟨path, hpath, hopening⟩ :=
      verifyQOpening_qBlockJson hblock hblocks h hvalues htree hroot hround (.inl rfl)
    exact ⟨path, _, hpath, workspaceQBlockHashI32_eq_ok.mpr ⟨hvalues.block _ _ _, rfl⟩, hopening⟩

variable (sha256 floatIs) in
/-- The trees of matrices that a block size divides open to what they were built from, and two
openings that are accepted for one context open the same, unless two of the messages that their
checks hash collide. -/
theorem workspaceOpenings_give_bands (hdim : 0 < matrixDim) (hsize : 0 < blockSize)
    (hdvd : blockSize ∣ matrixDim) :
    (∀ aMatrix bMatrix : List (List Int8), HasShape matrixDim matrixDim aMatrix →
      HasShape matrixDim matrixDim bMatrix →
      ∃ tree leaves root, fromStateI8Matrices sha256 aMatrix bMatrix blockSize = .ok tree ∧
        stateLeaves sha256 aMatrix bMatrix blockSize = .ok leaves ∧
        StateTreeOpens sha256 floatIs aMatrix bMatrix blockSize tree leaves root) ∧
    (∀ matrix : List (List ℤ), HasShape matrixDim matrixDim matrix → IsI32 matrix →
      ∃ tree leaves root, fromMatrixI32 sha256 matrix blockSize = .ok tree ∧
        qLeaves sha256 matrix blockSize = .ok leaves ∧
        QTreeOpens sha256 floatIs matrix blockSize tree leaves root) ∧
    (∀ (context : CapacityGemmV2Context) (openings openings' : Json)
        (bands bands' : List (List Int8) × List (List Int8)),
      transitionBands sha256 floatIs context openings = .ok bands →
      transitionBands sha256 floatIs context openings' = .ok bands' →
      ∃ messages messages', bandMessages sha256 floatIs context openings = .ok messages ∧
        bandMessages sha256 floatIs context openings' = .ok messages' ∧
        (bands = bands' ∨ Collide sha256 messages messages')) ∧
    ∀ (context : CapacityGemmV2Context) (qBlock qBlock' : Json) (path path' : Option Json)
        (opened opened' : List (List ℤ) × Digest),
      verifyQOpening sha256 floatIs context qBlock path = .ok opened →
      verifyQOpening sha256 floatIs context qBlock' path' = .ok opened' →
      ∃ messages messages', qOpeningMessages sha256 floatIs context qBlock path = .ok messages ∧
        qOpeningMessages sha256 floatIs context qBlock' path' = .ok messages' ∧
        (opened = opened' ∨ Collide sha256 messages messages') :=
  ⟨fun _ _ ha hb => exists_stateTreeOpens hdim hsize hdvd ha hb,
    fun _ h hvalues => exists_qTreeOpens hdim hsize hdvd h hvalues,
    fun _ _ _ _ _ => transitionBands_bind, fun _ _ _ _ _ _ _ => qOpening_binds⟩

/-- The bands of the block (1, 2) of matrices of dimension 6 with nine blocks. -/
theorem workspaceOpenings_give_bands_six :
    ∃ tree openings, ∃ context : CapacityGemmV2Context,
      fromStateI8Matrices (fun _ => Digest.zero)
          ((List.range 6).map fun r => (List.range 6).map fun c => Int8.ofNat (6 * r + c))
          ((List.range 6).map fun r => (List.range 6).map fun c => Int8.ofNat (100 + 6 * r + c)) 2 =
        .ok tree ∧
      transitionBands (fun _ => Digest.zero) (fun _ _ => false) context openings =
        .ok ([[12, 13, 14, 15, 16, 17], [18, 19, 20, 21, 22, 23]],
          [[104, 105], [110, 111], [116, 117], [122, 123], [-128, -127], [-122, -121]]) := by
  obtain ⟨tree, leaves, root, htree, -, hopens⟩ :=
    (workspaceOpenings_give_bands (fun _ => Digest.zero) (fun _ _ => false) (by decide : 0 < 6)
      (by decide : 0 < 2) (by decide)).1
      ((List.range 6).map fun r => (List.range 6).map fun c => Int8.ofNat (6 * r + c))
      ((List.range 6).map fun r => (List.range 6).map fun c => Int8.ofNat (100 + 6 * r + c))
      ⟨by decide, by decide⟩ ⟨by decide, by decide⟩
  set context : CapacityGemmV2Context :=
    { roundRoot := Digest.zero
      matrixDim := 6
      blockSize := 2
      rowBlock := 1
      columnBlock := 2
      transitionMixRounds := 1
      stateRoot := root.bytes
      two_le_matrixDim := by decide
      matrixDim_le := by decide
      two_le_blockSize := by decide
      blockSize_le := by decide
      blockSize_and := by decide
      blockSize_dvd := by decide
      rowBlock_lt := by decide
      columnBlock_lt := by decide
      transitionMixRounds_lt := by decide
      length_stateRoot := root.length_eq } with hcontext
  obtain ⟨openings, -, hbands⟩ := hopens.bands context rfl rfl one_ne_zero rfl
  exact ⟨tree, .arr openings, context, htree, hbands.trans rfl⟩

end Trees

end Verathos.WorkspaceProof
