import Verathos.Lib.OrderedDict
import Verathos.Logup.Defs

/-!
# The bookkeeping of deferred claims

A translation of the collector and checker of `goldilocks_succinct_batch_opening.py` that note the
claims of a batch opening under column tags, and of their namespaced views.

* `BatchOpeningCollectorV3` and `BatchClaimCheckerV3` are the shared objects. A tag may be an alias
  of the tag of a group tree, and a claim under an alias is noted under the group, at the point
  extended by the block point.
* `View` is a path of namespaces over the shared object: the object itself or a namespaced view of
  another view. A namespaced view of the collector writes its aliases through the proxies of the
  view below it; a namespaced view of the checker calls the view below it.
* `bookkeeping_twins`: corresponding calls leave both sides with the same claims, and a claim that
  is deferred in a namespace stays in it.
-/

namespace Verathos.Batched

open Logup

/-- What `register_column` reads of a column: the group tree that holds it, if one does, and its
place in the group. -/
structure RegisteredColumn where
  groupTag : Option String
  blockPoint : List ℤ

structure GoldilocksDeferredOpeningV3 where
  claimedValue : ℤ

/-- The claims noted under every tag. -/
abbrev Claims := OrderedDict String (List GoldilocksBatchOpeningClaimV3)

/-- The group tag and the block point of every alias. -/
abbrev Aliases := OrderedDict String (String × List ℤ)

/-- `claims.setdefault(tag, []).append(claim)`. -/
def appendClaim (claims : Claims) (tag : String) (claim : GoldilocksBatchOpeningClaimV3) : Claims :=
  claims.set tag ((claims.get tag).getD [] ++ [claim])

structure BatchOpeningCollectorV3 where
  claims : Claims
  /-- The columns that have a tree of their own, and the group columns. -/
  columns : OrderedDict String RegisteredColumn
  aliases : Aliases

structure BatchClaimCheckerV3 where
  claims : Claims
  aliases : Aliases

/-- `BatchOpeningCollectorV3()`. -/
def BatchOpeningCollectorV3.new : BatchOpeningCollectorV3 := ⟨.empty, .empty, .empty⟩

/-- `BatchClaimCheckerV3()`. -/
def BatchClaimCheckerV3.new : BatchClaimCheckerV3 := ⟨.empty, .empty⟩

/-- A shared object, or a namespaced view of a view. -/
inductive View where
  | shared
  | namespaced (inner : View) (ns : String)

namespace View

/-! ## The collector -/

/-- `view.columns[key] = column`. -/
def setColumn : View → String → RegisteredColumn → BatchOpeningCollectorV3 → BatchOpeningCollectorV3
  | .shared, key, column, collector =>
    { collector with columns := collector.columns.set key column }
  | .namespaced inner ns, key, column, collector => inner.setColumn (ns ++ key) column collector

/-- `view.aliases[key] = value`. The proxy of a namespaced view also puts the namespace before the
group tag of the value. -/
def setAlias : View → String → String × List ℤ → BatchOpeningCollectorV3 → BatchOpeningCollectorV3
  | .shared, key, value, collector =>
    { collector with aliases := collector.aliases.set key value }
  | .namespaced inner ns, key, value, collector =>
    inner.setAlias (ns ++ key) (ns ++ value.1, value.2) collector

def registerColumn (view : View) (tag : String) (column : RegisteredColumn)
    (collector : BatchOpeningCollectorV3) : BatchOpeningCollectorV3 :=
  match view, column.groupTag with
  | .shared, some groupTag =>
    { collector with aliases := collector.aliases.set tag (groupTag, column.blockPoint) }
  | .shared, none => { collector with columns := collector.columns.set tag column }
  | .namespaced inner ns, some groupTag =>
    inner.setAlias (ns ++ tag) (ns ++ groupTag, column.blockPoint) collector
  | .namespaced inner ns, none => inner.setColumn (ns ++ tag) column collector

/-- `view.register_group(group_column)`, where the group column has this tag. -/
def registerGroup (view : View) (groupTag : String) (column : RegisteredColumn)
    (collector : BatchOpeningCollectorV3) : BatchOpeningCollectorV3 :=
  match view with
  | .shared => { collector with columns := collector.columns.set groupTag column }
  | .namespaced inner ns => inner.setColumn (ns ++ groupTag) column collector

def defer : View → String → List ℤ → ℤ → BatchOpeningCollectorV3 →
    GoldilocksDeferredOpeningV3 × BatchOpeningCollectorV3
  | .shared, tag, point, value, collector =>
    let (tag, point) :=
      match collector.aliases.get tag with
      | some (groupTag, blockPoint) => (groupTag, point ++ blockPoint)
      | none => (tag, point)
    (⟨value⟩,
      { collector with
        claims := appendClaim collector.claims tag
          { point := point.map (· % goldilocksModulus), value := value % goldilocksModulus } })
  | .namespaced inner ns, tag, point, value, collector =>
    inner.defer (ns ++ tag) point value collector

/-! ## The checker -/

/-- `view.alias(tag, group_tag, block_point)`. -/
def aliasTo : View → String → String → List ℤ → BatchClaimCheckerV3 → BatchClaimCheckerV3
  | .shared, tag, groupTag, blockPoint, checker =>
    { checker with aliases := checker.aliases.set tag (groupTag, blockPoint) }
  | .namespaced inner ns, tag, groupTag, blockPoint, checker =>
    inner.aliasTo (ns ++ tag) (ns ++ groupTag) blockPoint checker

def expect : View → String → List ℤ → ℤ → BatchClaimCheckerV3 → BatchClaimCheckerV3
  | .shared, tag, point, value, checker =>
    let (tag, point) :=
      match checker.aliases.get tag with
      | some (groupTag, blockPoint) => (groupTag, point ++ blockPoint)
      | none => (tag, point)
    { checker with
      claims := appendClaim checker.claims tag
        { point := point.map (· % goldilocksModulus), value := value % goldilocksModulus } }
  | .namespaced inner ns, tag, point, value, checker =>
    inner.expect (ns ++ tag) point value checker

/-! ## Views as prefixes -/

/-- The namespaces of a view, from the outermost object inwards. -/
def ns : View → String
  | .shared => ""
  | .namespaced inner ns => inner.ns ++ ns

variable (view : View) {collector : BatchOpeningCollectorV3} {checker : BatchClaimCheckerV3}

theorem setColumn_eq (key : String) (column : RegisteredColumn) :
    view.setColumn key column collector =
      { collector with columns := collector.columns.set (view.ns ++ key) column } := by
  induction view generalizing key with
  | shared => rw [ns, String.empty_append]; rfl
  | namespaced inner ns' ih => rw [setColumn, ih, ns, String.append_assoc]

theorem setAlias_eq (key : String) (value : String × List ℤ) :
    view.setAlias key value collector =
      { collector with aliases :=
          collector.aliases.set (view.ns ++ key) (view.ns ++ value.1, value.2) } := by
  induction view generalizing key value with
  | shared => rw [ns, String.empty_append, String.empty_append]; rfl
  | namespaced inner ns' ih => rw [setAlias, ih, ns, String.append_assoc, String.append_assoc]

theorem aliasTo_eq (tag groupTag : String) (blockPoint : List ℤ) :
    view.aliasTo tag groupTag blockPoint checker =
      { checker with aliases :=
          checker.aliases.set (view.ns ++ tag) (view.ns ++ groupTag, blockPoint) } := by
  induction view generalizing tag groupTag with
  | shared => rw [ns, String.empty_append, String.empty_append]; rfl
  | namespaced inner ns' ih => rw [aliasTo, ih, ns, String.append_assoc, String.append_assoc]

/-- Where a claim is noted that is deferred or expected under a full tag. -/
def landing (aliases : Aliases) (tag : String) (point : List ℤ) : String × List ℤ :=
  match aliases.get tag with
  | some (groupTag, blockPoint) => (groupTag, point ++ blockPoint)
  | none => (tag, point)

/-- The claims after one more was deferred or expected under a full tag. -/
def noteClaim (aliases : Aliases) (claims : Claims) (tag : String) (point : List ℤ) (value : ℤ) :
    Claims :=
  appendClaim claims (landing aliases tag point).1
    { point := (landing aliases tag point).2.map (· % goldilocksModulus)
      value := value % goldilocksModulus }

variable (tag : String)

theorem defer_eq (point : List ℤ) (value : ℤ) :
    view.defer tag point value collector =
      (⟨value⟩,
        { collector with
          claims := noteClaim collector.aliases collector.claims (view.ns ++ tag) point value }) := by
  induction view generalizing tag with
  | shared =>
    rw [ns, String.empty_append, defer, noteClaim, landing]
  | namespaced inner ns' ih => rw [defer, ih, ns, String.append_assoc]

theorem expect_eq (point : List ℤ) (value : ℤ) :
    view.expect tag point value checker =
      { checker with
        claims := noteClaim checker.aliases checker.claims (view.ns ++ tag) point value } := by
  induction view generalizing tag with
  | shared =>
    rw [ns, String.empty_append, expect, noteClaim, landing]
  | namespaced inner ns' ih => rw [expect, ih, ns, String.append_assoc]

theorem registerColumn_eq (column : RegisteredColumn) :
    (view.registerColumn tag column collector).claims = collector.claims ∧
      (view.registerColumn tag column collector).aliases =
        match column.groupTag with
        | some groupTag =>
          collector.aliases.set (view.ns ++ tag) (view.ns ++ groupTag, column.blockPoint)
        | none => collector.aliases := by
  cases view with
  | shared => cases hgroup : column.groupTag <;> simp [registerColumn, hgroup, ns]
  | namespaced inner ns' =>
    cases hgroup : column.groupTag <;>
      simp [registerColumn, hgroup, ns, setAlias_eq, setColumn_eq, String.append_assoc]

end View

/-! ## Corresponding calls -/

/-- A call through a view of the collector. -/
inductive Call where
  /-- `register_column(tag, column)`, of a plain or a grouped column. -/
  | registerColumn (view : View) (tag : String) (column : RegisteredColumn)
  | registerGroup (view : View) (groupTag : String) (column : RegisteredColumn)
  | writeAlias (view : View) (tag groupTag : String) (blockPoint : List ℤ)
  | defer (view : View) (tag : String) (point : List ℤ) (value : ℤ)

namespace Call

/-- The view that a call goes through. -/
def view : Call → View
  | registerColumn view _ _ => view
  | registerGroup view _ _ => view
  | writeAlias view _ _ _ => view
  | defer view _ _ _ => view

/-- The call on the collector. -/
def collect : Call → BatchOpeningCollectorV3 → BatchOpeningCollectorV3
  | registerColumn view tag column, collector => view.registerColumn tag column collector
  | registerGroup view groupTag column, collector => view.registerGroup groupTag column collector
  | writeAlias view tag groupTag blockPoint, collector =>
    view.setAlias tag (groupTag, blockPoint) collector
  | defer view tag point value, collector => (view.defer tag point value collector).2

/-- The corresponding call on the checker, which keeps no columns. -/
def check : Call → BatchClaimCheckerV3 → BatchClaimCheckerV3
  | registerColumn view tag column, checker =>
    match column.groupTag with
    | some groupTag => view.aliasTo tag groupTag column.blockPoint checker
    | none => checker
  | registerGroup _ _ _, checker => checker
  | writeAlias view tag groupTag blockPoint, checker => view.aliasTo tag groupTag blockPoint checker
  | defer view tag point value, checker => view.expect tag point value checker

/-- The collector after a sequence of calls. -/
def collected (calls : List Call) : BatchOpeningCollectorV3 :=
  calls.foldl (fun collector call => call.collect collector) .new

/-- The checker after the corresponding calls. -/
def checked (calls : List Call) : BatchClaimCheckerV3 :=
  calls.foldl (fun checker call => call.check checker) .new

/-! ## Twins -/

/-- Both sides hold the same claims and the same aliases. -/
structure Twins (collector : BatchOpeningCollectorV3) (checker : BatchClaimCheckerV3) : Prop where
  claims : collector.claims = checker.claims
  aliases : collector.aliases = checker.aliases

theorem Twins.step {collector : BatchOpeningCollectorV3} {checker : BatchClaimCheckerV3}
    (h : Twins collector checker) (call : Call) :
    Twins (call.collect collector) (call.check checker) := by
  cases call with
  | registerColumn view tag column =>
    obtain ⟨hclaims, haliases⟩ := @View.registerColumn_eq view collector tag column
    cases hgroup : column.groupTag with
    | none =>
      rw [hgroup] at haliases
      simp only [collect, check, hgroup]
      exact ⟨hclaims.trans h.claims, haliases.trans h.aliases⟩
    | some groupTag =>
      rw [hgroup] at haliases
      simp only [collect, check, hgroup, View.aliasTo_eq]
      exact ⟨hclaims.trans h.claims, haliases.trans (by rw [h.aliases])⟩
  | registerGroup view groupTag column =>
    cases view with
    | shared => exact ⟨h.claims, h.aliases⟩
    | namespaced inner ns =>
      simp only [collect, check, View.registerGroup, View.setColumn_eq]
      exact ⟨h.claims, h.aliases⟩
  | writeAlias view tag groupTag blockPoint =>
    simp only [collect, check, View.setAlias_eq, View.aliasTo_eq]
    exact ⟨h.claims, by rw [h.aliases]⟩
  | defer view tag point value =>
    simp only [collect, check, View.defer_eq, View.expect_eq]
    exact ⟨by rw [h.claims, h.aliases], h.aliases⟩

theorem twins_foldl (calls : List Call) {collector : BatchOpeningCollectorV3}
    {checker : BatchClaimCheckerV3} (h : Twins collector checker) :
    Twins (calls.foldl (fun collector call => call.collect collector) collector)
      (calls.foldl (fun checker call => call.check checker) checker) := by
  induction calls generalizing collector checker with
  | nil => exact h
  | cons call calls ih => exact ih (h.step call)

/-! ## Namespaces apart -/

/-- No namespace is a prefix of another one. -/
def Apart (namespaces : List String) : Prop :=
  ∀ a ∈ namespaces, ∀ b ∈ namespaces, a.toList <+: b.toList → a = b

/-- The namespaces that a sequence of calls uses. -/
def namespaces (calls : List Call) : List String :=
  calls.map fun call => call.view.ns

variable {used : List String}

theorem Apart.eq_of_append (h : Apart used) {a b : String} (ha : a ∈ used) (hb : b ∈ used)
    {x y : String} (heq : a ++ x = b ++ y) : a = b := by
  have hlist : a.toList ++ x.toList = b.toList ++ y.toList := by
    rw [← String.toList_append, heq, String.toList_append]
  have hle := List.prefix_or_prefix_of_prefix (List.prefix_append a.toList x.toList)
    (hlist ▸ List.prefix_append b.toList y.toList)
  exact hle.elim (h a ha b hb) fun hba => (h b hb a ha hba).symm

/-- Every alias leads from a tag of a used namespace to a tag of the same namespace. -/
def Closed (used : List String) (aliases : Aliases) : Prop :=
  ∀ tag groupTag blockPoint, aliases.get tag = some (groupTag, blockPoint) →
    ∃ ns ∈ used, ∃ inner group, tag = ns ++ inner ∧ groupTag = ns ++ group

theorem Closed.set {aliases : Aliases} (h : Closed used aliases) {ns : String} (hns : ns ∈ used)
    (inner group : String) (blockPoint : List ℤ) :
    Closed used (aliases.set (ns ++ inner) (ns ++ group, blockPoint)) := by
  intro tag groupTag blockPoint' hget
  rw [OrderedDict.get_set] at hget
  split_ifs at hget with htag
  · obtain ⟨rfl, -⟩ := Prod.mk.inj (Option.some.inj hget)
    exact ⟨ns, hns, inner, group, htag, rfl⟩
  · exact h tag groupTag blockPoint' hget

theorem Closed.step {collector : BatchOpeningCollectorV3} (h : Closed used collector.aliases)
    {call : Call} (hns : call.view.ns ∈ used) : Closed used (call.collect collector).aliases := by
  cases call with
  | registerColumn view tag column =>
    obtain ⟨-, haliases⟩ := @View.registerColumn_eq view collector tag column
    rw [collect, haliases]
    cases column.groupTag with
    | none => exact h
    | some groupTag => exact h.set hns _ _ _
  | registerGroup view groupTag column =>
    cases view with
    | shared => exact h
    | namespaced inner ns =>
      simp only [collect, View.registerGroup, View.setColumn_eq]
      exact h
  | writeAlias view tag groupTag blockPoint =>
    simp only [collect, View.setAlias_eq]
    exact h.set hns _ _ _
  | defer view tag point value =>
    simp only [collect, View.defer_eq]
    exact h

theorem closed_foldl (calls : List Call) {collector : BatchOpeningCollectorV3}
    (h : Closed used collector.aliases) (hns : ∀ call ∈ calls, call.view.ns ∈ used) :
    Closed used (calls.foldl (fun collector call => call.collect collector) collector).aliases := by
  induction calls generalizing collector with
  | nil => exact h
  | cons call calls ih =>
    obtain ⟨hcall, hcalls⟩ := List.forall_mem_cons.mp hns
    exact ih (h.step hcall) hcalls

theorem exists_landing_eq (hapart : Apart used) {aliases : Aliases} (h : Closed used aliases)
    {ns : String} (hns : ns ∈ used) (tag : String) (point : List ℤ) :
    ∃ rest, (View.landing aliases (ns ++ tag) point).1 = ns ++ rest := by
  unfold View.landing
  cases hget : aliases.get (ns ++ tag) with
  | none => exact ⟨tag, rfl⟩
  | some value =>
    obtain ⟨groupTag, blockPoint⟩ := value
    obtain ⟨ns', hns', inner, group, htag, hgroup⟩ := h _ _ _ hget
    rw [hapart.eq_of_append hns hns' htag]
    exact ⟨group, hgroup⟩

end Call

open Call

/-- After any sequence of corresponding calls the claims of both sides are equal. When the
namespaces in use are pairwise not prefixes of one another, one more claim, deferred in one of them,
is appended under a tag of that namespace, which is no tag of another one. -/
theorem bookkeeping_twins (calls : List Call) :
    (collected calls).claims = (checked calls).claims ∧
      ∀ (view : View) (tag : String) (point : List ℤ) (value : ℤ),
        Apart (view.ns :: namespaces calls) →
          ∃ landingTag claim,
            (view.defer tag point value (collected calls)).2.claims =
              appendClaim (collected calls).claims landingTag claim ∧
            view.ns.toList <+: landingTag.toList ∧
            ∀ ns ∈ namespaces calls, ns ≠ view.ns → ¬ ns.toList <+: landingTag.toList := by
  refine ⟨(twins_foldl calls ⟨rfl, rfl⟩).claims, fun view tag point value hapart => ?_⟩
  have hclosed : Closed (view.ns :: namespaces calls) (collected calls).aliases :=
    closed_foldl calls (fun _ _ _ hget => by cases hget) fun call hcall =>
      List.mem_cons_of_mem _ (List.mem_map_of_mem hcall)
  obtain ⟨rest, hrest⟩ := exists_landing_eq hapart hclosed List.mem_cons_self tag point
  rw [View.defer_eq]
  refine ⟨_, _, rfl, ?_, fun ns hns hne => ?_⟩
  · rw [hrest, String.toList_append]
    exact List.prefix_append _ _
  · rw [hrest]
    rintro ⟨suffix, hsuffix⟩
    refine hne (hapart.eq_of_append (List.mem_cons_of_mem _ hns) List.mem_cons_self
      (x := String.ofList suffix) (y := rest) ?_)
    apply String.toList_injective
    rw [String.toList_append, String.toList_ofList, hsuffix]

/-- Two tiles with an alias each: a claim of the second does not land in the first. -/
theorem bookkeeping_twins_tiles :
    ∃ landingTag claim,
      ((View.shared.namespaced "b/").defer "x" [2] 3
          (collected [.writeAlias (.namespaced .shared "a/") "x" "g" [1],
            .writeAlias (.namespaced .shared "b/") "x" "g" [1]])).2.claims =
        appendClaim (collected [.writeAlias (.namespaced .shared "a/") "x" "g" [1],
            .writeAlias (.namespaced .shared "b/") "x" "g" [1]]).claims landingTag claim ∧
      (View.shared.namespaced "b/").ns.toList <+: landingTag.toList ∧
      ∀ ns ∈ namespaces [.writeAlias (.namespaced .shared "a/") "x" "g" [1],
          .writeAlias (.namespaced .shared "b/") "x" "g" [1]],
        ns ≠ (View.shared.namespaced "b/").ns → ¬ ns.toList <+: landingTag.toList :=
  (bookkeeping_twins _).2 _ _ _ _ (by unfold Apart; decide)

end Verathos.Batched
