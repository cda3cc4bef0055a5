import Mathlib.Algebra.Group.Nat.Defs
import Mathlib.Data.List.Basic
import Mathlib.Data.Nat.Init
import Mathlib.Data.Nat.Log

/-!
# Pairwise reduction of a list

A list is reduced by combining neighbours, level by level, until one element is
left; an odd last element is combined with itself. The reduction is the value of
a perfect binary tree, whose leaves are the list with its odd levels completed.
-/

namespace CipherCli.Library

variable {α β : Type}

/-- One level up. -/
def pairUp (combine : α → α → α) : List α → List α
  | [] => []
  | [a] => [combine a a]
  | a :: b :: rest => combine a b :: pairUp combine rest

@[simp] theorem pairUp_length (combine : α → α → α) (level : List α) :
    (pairUp combine level).length = (level.length + 1) / 2 := by
  induction level using pairUp.induct with
  | case1 => simp [pairUp]
  | case2 a => simp [pairUp]
  | case3 a b rest ih =>
    simp only [pairUp, List.length_cons, ih]
    omega

/-- The element that is left; `empty` is the result for the empty list. -/
def reduce (combine : α → α → α) (empty : α) (level : List α) : α :=
  if 1 < level.length then reduce combine empty (pairUp combine level) else level.headD empty
termination_by level.length
decreasing_by
  rw [pairUp_length]
  omega

/-- The pairs that one level combines. -/
def levelPairs : List α → List (α × α)
  | [] => []
  | [a] => [(a, a)]
  | a :: b :: rest => (a, b) :: levelPairs rest

/-- The pairs that the reduction combines. -/
def combinedPairs (combine : α → α → α) (level : List α) : List (α × α) :=
  if 1 < level.length then levelPairs level ++ combinedPairs combine (pairUp combine level)
  else []
termination_by level.length
decreasing_by
  rw [pairUp_length]
  omega

section Reduce

variable {combine : α → α → α} {empty : α}

theorem reduce_of_long {level : List α} (hLong : 1 < level.length) :
    reduce combine empty level = reduce combine empty (pairUp combine level) := by
  rw [reduce, if_pos hLong]

theorem combinedPairs_of_long {level : List α} (hLong : 1 < level.length) :
    combinedPairs combine level =
      levelPairs level ++ combinedPairs combine (pairUp combine level) := by
  rw [combinedPairs, if_pos hLong]

@[simp] theorem reduce_nil : reduce combine empty [] = empty := by
  rw [reduce, if_neg (by simp)]
  rfl

@[simp] theorem reduce_singleton (a : α) : reduce combine empty [a] = a := by
  rw [reduce, if_neg (by simp)]
  rfl

/-- Only the empty list yields the default. -/
theorem reduce_default (empty' : α) {level : List α} (hNonempty : level ≠ []) :
    reduce combine empty level = reduce combine empty' level := by
  induction level using reduce.induct combine with
  | case1 level hLong ih =>
    rw [reduce_of_long hLong, ih, ← reduce_of_long hLong]
    rw [← List.length_pos_iff, pairUp_length]
    omega
  | case2 level hShort =>
    rw [reduce, if_neg hShort, reduce, if_neg hShort]
    cases level with
    | nil => exact absurd rfl hNonempty
    | cons a rest => rfl

/-- What holds of the elements of a level, and of combinations of two of them on the next
one, holds of the result: the level number is the index. -/
theorem reduce_induction {P : Nat → α → Prop}
    (hCombine : ∀ h a b, P h a → P h b → P (h + 1) (combine a b)) {level : List α}
    (hNonempty : level ≠ []) {h : Nat} (hLevel : ∀ a ∈ level, P h a) :
    ∃ top, P top (reduce combine empty level) := by
  induction level using reduce.induct combine generalizing h with
  | case1 level hLong ih =>
    rw [reduce_of_long hLong]
    refine ih ?_ (h := h + 1) ?_
    · rw [← List.length_pos_iff, pairUp_length]
      omega
    · clear ih hLong hNonempty
      induction level using pairUp.induct with
      | case1 => simp [pairUp]
      | case2 a =>
        have ha := hLevel a List.mem_cons_self
        simpa [pairUp] using hCombine h a a ha ha
      | case3 a b rest ih =>
        have hFirst := hCombine h a b (hLevel a (by simp)) (hLevel b (by simp))
        have hRest := ih fun c hc => hLevel c (by simp [hc])
        simpa [pairUp] using ⟨hFirst, hRest⟩
  | case2 level hShort =>
    obtain ⟨a, rfl⟩ : ∃ a, level = [a] := by
      rw [← List.length_eq_one_iff]
      have hPos := List.length_pos_iff.mpr hNonempty
      omega
    rw [reduce_singleton]
    exact ⟨h, hLevel a List.mem_cons_self⟩

theorem pairUp_map {combine' : β → β → β} {f : α → β}
    (hf : ∀ a b, f (combine a b) = combine' (f a) (f b)) (level : List α) :
    (pairUp combine level).map f = pairUp combine' (level.map f) := by
  induction level using pairUp.induct with
  | case1 => rfl
  | case2 a => simp [pairUp, hf]
  | case3 a b rest ih => simp [pairUp, hf, ih]

/-- A homomorphism commutes with the reduction. -/
theorem reduce_map {combine' : β → β → β} {f : α → β}
    (hf : ∀ a b, f (combine a b) = combine' (f a) (f b)) (empty : α) (level : List α) :
    f (reduce combine empty level) = reduce combine' (f empty) (level.map f) := by
  induction level using reduce.induct combine with
  | case1 level hLong ih =>
    rw [reduce_of_long hLong, ih, pairUp_map hf, ← reduce_of_long (by simpa using hLong)]
  | case2 level hShort =>
    rw [reduce, if_neg hShort, reduce, if_neg (by simpa using hShort)]
    cases level <;> rfl

/-- Levels of one length that are paired to the same level are the same. -/
theorem pairUp_inj_of_length {level level' : List α}
    (hLength : level.length = level'.length)
    (hInjective : ∀ p q, p ∈ levelPairs level → q ∈ levelPairs level' →
      combine p.1 p.2 = combine q.1 q.2 → p = q)
    (hUp : pairUp combine level = pairUp combine level') : level = level' := by
  induction level using pairUp.induct generalizing level' with
  | case1 => exact (List.length_eq_zero_iff.mp hLength.symm).symm
  | case2 a =>
    obtain ⟨a', rfl⟩ := List.length_eq_one_iff.mp hLength.symm
    have hPair := hInjective (a, a) (a', a') List.mem_cons_self List.mem_cons_self
      (List.cons.inj hUp).1
    rw [(Prod.mk.inj hPair).1]
  | case3 a b rest ih =>
    match level', hLength with
    | a' :: b' :: rest', hLength =>
      obtain ⟨hFirst, hRest⟩ := List.cons.inj hUp
      have hPair := hInjective (a, b) (a', b') List.mem_cons_self List.mem_cons_self hFirst
      obtain ⟨rfl, rfl⟩ := Prod.mk.inj hPair
      have hTail := ih (by simpa using hLength)
        (fun p q hp hq => hInjective p q (List.mem_cons_of_mem _ hp) (List.mem_cons_of_mem _ hq))
        hRest
      rw [hTail]

/-- Lists of one length that are reduced to the same element are the same, when different pairs
of the two reductions have different values. -/
theorem reduce_inj_of_length {level level' : List α}
    (hLength : level.length = level'.length)
    (hInjective : ∀ p q, p ∈ combinedPairs combine level → q ∈ combinedPairs combine level' →
      combine p.1 p.2 = combine q.1 q.2 → p = q)
    (hReduce : reduce combine empty level = reduce combine empty level') : level = level' := by
  induction level using reduce.induct combine generalizing level' with
  | case1 level hLong ih =>
    have hLong' : 1 < level'.length := hLength ▸ hLong
    rw [combinedPairs_of_long hLong, combinedPairs_of_long hLong'] at hInjective
    rw [reduce_of_long hLong, reduce_of_long hLong'] at hReduce
    have hUp : pairUp combine level = pairUp combine level' := by
      apply ih
      · rw [pairUp_length, pairUp_length, hLength]
      · exact fun p q hp hq =>
          hInjective p q (List.mem_append_right _ hp) (List.mem_append_right _ hq)
      · exact hReduce
    exact pairUp_inj_of_length hLength
      (fun p q hp hq => hInjective p q (List.mem_append_left _ hp) (List.mem_append_left _ hq)) hUp
  | case2 level hShort =>
    have hShort' : ¬ 1 < level'.length := hLength ▸ hShort
    rw [reduce, if_neg hShort, reduce, if_neg hShort'] at hReduce
    match level, level', hLength with
    | [], [], _ => rfl
    | [a], [a'], _ => exact congrArg (fun a => [a]) hReduce
    | _ :: _ :: _, _, _ => simp at hShort

end Reduce

/-! ## The tree of a reduction -/

inductive PairTree (α : Type)
  | leaf (a : α)
  | node (left right : PairTree α)

namespace PairTree

/-- The value of the tree. -/
def eval (combine : α → α → α) : PairTree α → α
  | leaf a => a
  | node left right => combine (left.eval combine) (right.eval combine)

def leaves : PairTree α → List α
  | leaf a => [a]
  | node left right => left.leaves ++ right.leaves

/-- The pairs that the evaluation combines. -/
def pairs (combine : α → α → α) : PairTree α → List (α × α)
  | leaf _ => []
  | node left right =>
    (left.eval combine, right.eval combine) :: (left.pairs combine ++ right.pairs combine)

/-- All leaves have the same depth. -/
inductive Perfect : Nat → PairTree α → Prop
  | leaf (a : α) : Perfect 0 (leaf a)
  | node {h : Nat} {left right : PairTree α} (hLeft : Perfect h left) (hRight : Perfect h right) :
    Perfect (h + 1) (node left right)

theorem Perfect.length_leaves {h : Nat} {tree : PairTree α} (hTree : tree.Perfect h) :
    tree.leaves.length = 2 ^ h := by
  induction hTree with
  | leaf a => rfl
  | node _ _ ihLeft ihRight =>
    rw [leaves, List.length_append, ihLeft, ihRight, Nat.pow_succ]
    omega

/-- A perfect tree is determined by its leaves. -/
theorem Perfect.eq_of_leaves {h : Nat} {tree tree' : PairTree α} (hTree : tree.Perfect h)
    (hTree' : tree'.Perfect h) (hLeaves : tree.leaves = tree'.leaves) : tree = tree' := by
  induction hTree generalizing tree' with
  | leaf a =>
    cases hTree'
    exact congrArg PairTree.leaf (List.cons.inj hLeaves).1
  | node hLeft hRight ihLeft ihRight =>
    cases hTree' with
    | node hLeft' hRight' =>
      have hLength := hLeft.length_leaves.trans hLeft'.length_leaves.symm
      obtain ⟨hFirst, hSecond⟩ := List.append_inj hLeaves hLength
      rw [ihLeft hLeft' hFirst, ihRight hRight' hSecond]

/-- Trees with one value are the same, if different pairs have different values and no leaf
is the value of a pair. -/
theorem eq_of_eval {combine : α → α → α} {Paired : α × α → Prop} {Leaf : α → Prop}
    (hInjective : ∀ p q, Paired p → Paired q → combine p.1 p.2 = combine q.1 q.2 → p = q)
    (hApart : ∀ a p, Leaf a → Paired p → combine p.1 p.2 ≠ a) {tree tree' : PairTree α}
    (hPairs : ∀ p ∈ tree.pairs combine, Paired p) (hPairs' : ∀ p ∈ tree'.pairs combine, Paired p)
    (hLeaves : ∀ a ∈ tree.leaves, Leaf a) (hLeaves' : ∀ a ∈ tree'.leaves, Leaf a)
    (hEval : tree.eval combine = tree'.eval combine) : tree = tree' := by
  induction tree generalizing tree' with
  | leaf a =>
    cases tree' with
    | leaf a' => exact congrArg leaf hEval
    | node left' right' =>
      have hPair := hPairs' _ List.mem_cons_self
      exact absurd hEval.symm (hApart a _ (hLeaves a List.mem_cons_self) hPair)
  | node left right ihLeft ihRight =>
    have hPair := hPairs _ List.mem_cons_self
    cases tree' with
    | leaf a' => exact absurd hEval (hApart a' _ (hLeaves' a' List.mem_cons_self) hPair)
    | node left' right' =>
      have hPair' := hPairs' _ List.mem_cons_self
      obtain ⟨hLeft, hRight⟩ := Prod.mk.inj (hInjective _ _ hPair hPair' hEval)
      simp only [pairs, leaves, List.mem_cons, List.mem_append] at hPairs hPairs' hLeaves hLeaves'
      congr 1
      · exact ihLeft (fun p hp => hPairs p (Or.inr (Or.inl hp)))
          (fun p hp => hPairs' p (Or.inr (Or.inl hp))) (fun a ha => hLeaves a (Or.inl ha))
          (fun a ha => hLeaves' a (Or.inl ha)) hLeft
      · exact ihRight (fun p hp => hPairs p (Or.inr (Or.inr hp)))
          (fun p hp => hPairs' p (Or.inr (Or.inr hp))) (fun a ha => hLeaves a (Or.inr ha))
          (fun a ha => hLeaves' a (Or.inr ha)) hRight

end PairTree

open PairTree

/-- The tree whose value is the reduction. -/
def pairTree (empty : α) (level : List α) : PairTree α :=
  reduce node (leaf empty) (level.map leaf)

/-- The list with every odd level completed: the last element of the level, with all the
elements of the list that it stands for, is repeated. -/
def completed (level : List α) : List α :=
  reduce (· ++ ·) [] (level.map fun a => [a])

section Tree

variable {combine : α → α → α} {empty : α} {level : List α}

theorem pairTree_eval : (pairTree empty level).eval combine = reduce combine empty level := by
  unfold pairTree
  rw [reduce_map (f := eval combine) fun _ _ => rfl, List.map_map]
  congr 1
  exact List.map_id _

theorem pairTree_perfect (empty : α) (hNonempty : level ≠ []) :
    ∃ h, (pairTree empty level).Perfect h := by
  refine reduce_induction (fun h a b ha hb => ha.node hb) (by simpa using hNonempty) (h := 0) ?_
  intro tree hMem
  obtain ⟨a, -, rfl⟩ := List.mem_map.mp hMem
  exact .leaf a

theorem pairTree_leaves (empty : α) (hNonempty : level ≠ []) :
    (pairTree empty level).leaves = completed level := by
  unfold pairTree completed
  rw [reduce_map (f := leaves) fun _ _ => rfl, List.map_map]
  exact reduce_default [] (by simpa using hNonempty)

/-- The leaves of the tree are elements of the list. -/
theorem mem_of_mem_pairTree_leaves (hNonempty : level ≠ []) {a : α}
    (hMem : a ∈ (pairTree empty level).leaves) : a ∈ level := by
  have hNode : ∀ (h : Nat) (left right : PairTree α), (∀ a ∈ left.leaves, a ∈ level) →
      (∀ a ∈ right.leaves, a ∈ level) → ∀ a ∈ (node left right).leaves, a ∈ level := by
    intro h left right hLeft hRight a ha
    exact (List.mem_append.mp ha).elim (hLeft a) (hRight a)
  have hLeaf : ∀ tree ∈ level.map leaf, ∀ a ∈ tree.leaves, a ∈ level := by simp [leaves]
  have hTrees : level.map leaf ≠ [] := by simpa using hNonempty
  obtain ⟨-, hAll⟩ := reduce_induction
    (P := fun _ (tree : PairTree α) => ∀ a ∈ tree.leaves, a ∈ level) hNode hTrees (h := 0) hLeaf
  exact hAll a hMem

/-- One level up, the trees combine what the level combines. -/
theorem pairs_pairUp {trees : List (PairTree α)} {tree : PairTree α} {p : α × α}
    (hTree : tree ∈ pairUp node trees) (hPair : p ∈ tree.pairs combine) :
    (∃ below ∈ trees, p ∈ below.pairs combine) ∨
      p ∈ levelPairs (trees.map (eval combine)) := by
  induction trees using pairUp.induct with
  | case1 => simp [pairUp] at hTree
  | case2 single =>
    obtain rfl := List.mem_singleton.mp hTree
    rcases List.mem_cons.mp hPair with rfl | hBelow
    · exact Or.inr List.mem_cons_self
    · exact Or.inl ⟨single, List.mem_cons_self, (List.mem_append.mp hBelow).elim id id⟩
  | case3 first second rest ih =>
    rcases List.mem_cons.mp hTree with rfl | hRest
    · rcases List.mem_cons.mp hPair with rfl | hBelow
      · exact Or.inr List.mem_cons_self
      · rcases List.mem_append.mp hBelow with hFirst | hSecond
        · exact Or.inl ⟨first, List.mem_cons_self, hFirst⟩
        · exact Or.inl ⟨second, List.mem_cons_of_mem _ List.mem_cons_self, hSecond⟩
    · rcases ih hRest with ⟨below, hMem, hBelow⟩ | hLevel
      · exact Or.inl ⟨below, List.mem_cons_of_mem _ (List.mem_cons_of_mem _ hMem), hBelow⟩
      · exact Or.inr (List.mem_cons_of_mem _ hLevel)

theorem pairs_reduce {trees : List (PairTree α)} (hNonempty : trees ≠ []) {p : α × α}
    (hPair : p ∈ (reduce node (leaf empty) trees).pairs combine) :
    (∃ below ∈ trees, p ∈ below.pairs combine) ∨
      p ∈ combinedPairs combine (trees.map (eval combine)) := by
  induction trees using reduce.induct node with
  | case1 trees hLong ih =>
    rw [reduce_of_long hLong] at hPair
    have hUp : pairUp node trees ≠ [] := by
      rw [← List.length_pos_iff, pairUp_length]
      omega
    rw [combinedPairs, if_pos (by simpa using hLong), List.mem_append]
    rcases ih hUp hPair with ⟨tree, hMem, hTree⟩ | hAbove
    · rcases pairs_pairUp hMem hTree with hBelow | hLevel
      · exact Or.inl hBelow
      · exact Or.inr (Or.inl hLevel)
    · have hEval : ∀ left right : PairTree α, (node left right).eval combine =
          combine (left.eval combine) (right.eval combine) := fun _ _ => rfl
      rw [pairUp_map hEval] at hAbove
      exact Or.inr (Or.inr hAbove)
  | case2 trees hShort =>
    obtain ⟨tree, rfl⟩ : ∃ tree, trees = [tree] := by
      rw [← List.length_eq_one_iff]
      have hPos := List.length_pos_iff.mpr hNonempty
      omega
    rw [reduce_singleton] at hPair
    exact Or.inl ⟨tree, List.mem_cons_self, hPair⟩

/-- The tree combines the pairs that the reduction combines. -/
theorem pairTree_pairs (hNonempty : level ≠ []) {p : α × α}
    (hPair : p ∈ (pairTree empty level).pairs combine) : p ∈ combinedPairs combine level := by
  rcases pairs_reduce (by simpa using hNonempty) hPair with ⟨below, hMem, hBelow⟩ | hReduced
  · obtain ⟨a, -, rfl⟩ := List.mem_map.mp hMem
    cases hBelow
  · rwa [List.map_map, show eval combine ∘ leaf = id from rfl, List.map_id] at hReduced

/-- The list is at the start of its completion. -/
theorem prefix_completed (level : List α) : level <+: completed level := by
  have hPair : ∀ blocks : List (List α), blocks.flatten <+: (pairUp (· ++ ·) blocks).flatten := by
    intro blocks
    induction blocks using pairUp.induct with
    | case1 => exact List.nil_prefix
    | case2 block => simp [pairUp]
    | case3 first second rest ih =>
      simp only [pairUp, List.flatten_cons, List.append_assoc]
      exact (List.prefix_append_right_inj _).mpr ((List.prefix_append_right_inj _).mpr ih)
  have hReduce : ∀ blocks : List (List α), blocks.flatten <+: reduce (· ++ ·) [] blocks := by
    intro blocks
    induction blocks using reduce.induct (fun first second : List α => first ++ second) with
    | case1 blocks hLong ih =>
      rw [reduce_of_long hLong]
      exact (hPair blocks).trans ih
    | case2 blocks hShort =>
      rw [reduce, if_neg hShort]
      match blocks, hShort with
      | [], _ => exact List.nil_prefix
      | [block], _ => simp
      | _ :: _ :: _, hShort => simp at hShort
  have hSingletons : (level.map fun a => [a]).flatten = level := by
    simp [← List.flatMap_def]
  have hLevel := hReduce (level.map fun a => [a])
  rwa [hSingletons] at hLevel

/-- Lists of one length have different completions. -/
theorem completed_inj_of_length {level level' : List α} (hLength : level.length = level'.length)
    (hCompleted : completed level = completed level') : level = level' := by
  have hPrefix := prefix_completed level
  have hPrefix' := prefix_completed level'
  rw [← hCompleted] at hPrefix'
  exact (List.prefix_of_prefix_length_le hPrefix hPrefix' (Nat.le_of_eq hLength)).eq_of_length
    hLength

theorem completed_map (f : α → β) (level : List α) :
    completed (level.map f) = (completed level).map f := by
  unfold completed
  rw [reduce_map (f := List.map f) fun _ _ => List.map_append, List.map_map, List.map_map]
  rfl

/-- The completion repeats elements of the list. -/
theorem mem_of_mem_completed {a : α} (hMem : a ∈ completed level) : a ∈ level := by
  cases level with
  | nil => rwa [completed, List.map_nil, reduce_nil] at hMem
  | cons first rest =>
    rw [← pairTree_leaves first (List.cons_ne_nil first rest)] at hMem
    exact mem_of_mem_pairTree_leaves (List.cons_ne_nil first rest) hMem

theorem completed_eq_nil {level : List α} : completed level = [] ↔ level = [] := by
  constructor
  · intro hNil
    have hPrefix := prefix_completed level
    rwa [hNil, List.prefix_nil] at hPrefix
  · rintro rfl
    exact reduce_nil

/-- Blocks of one length come together to a power of two of them. -/
theorem reduce_append_length {c : Nat} {blocks : List (List α)} (hNonempty : blocks ≠ [])
    (hBlocks : ∀ block ∈ blocks, block.length = c) :
    (reduce (· ++ ·) [] blocks).length = 2 ^ Nat.clog 2 blocks.length * c := by
  induction blocks using reduce.induct (fun first second : List α => first ++ second)
    generalizing c with
  | case1 blocks hLong ih =>
    have hPaired : ∀ block ∈ pairUp (· ++ ·) blocks, block.length = 2 * c := by
      clear ih hLong hNonempty
      induction blocks using pairUp.induct with
      | case1 => simp [pairUp]
      | case2 block =>
        have hBlock := hBlocks block List.mem_cons_self
        simp [pairUp, hBlock]
        omega
      | case3 first second rest ih =>
        have hFirst := hBlocks first (by simp)
        have hSecond := hBlocks second (by simp)
        have hRest := ih fun block hMem => hBlocks block (by simp [hMem])
        simp only [pairUp, List.mem_cons, forall_eq_or_imp, List.length_append]
        exact ⟨by omega, hRest⟩
    have hUp : pairUp (· ++ ·) blocks ≠ [] := by
      rw [← List.length_pos_iff, pairUp_length]
      omega
    rw [reduce_of_long hLong, ih hUp hPaired, pairUp_length, Nat.clog_of_two_le (by omega) hLong,
      Nat.pow_succ, Nat.mul_assoc]
    rfl
  | case2 blocks hShort =>
    obtain ⟨block, rfl⟩ : ∃ block, blocks = [block] := by
      rw [← List.length_eq_one_iff]
      have hPos := List.length_pos_iff.mpr hNonempty
      omega
    rw [reduce_singleton, hBlocks block List.mem_cons_self]
    simp

/-- The completion has the next power of two as its length. -/
theorem completed_length {level : List α} (hNonempty : level ≠ []) :
    (completed level).length = 2 ^ Nat.clog 2 level.length := by
  have hBlocks : ∀ block ∈ level.map fun a => [a], block.length = 1 := by simp
  have hLength := reduce_append_length (by simpa using hNonempty) hBlocks
  rwa [List.length_map, Nat.mul_one] at hLength

theorem reduce_eq_of_completed {level' : List α} (hNonempty : level ≠ []) (hNonempty' : level' ≠ [])
    (hCompleted : completed level = completed level') :
    reduce combine empty level = reduce combine empty level' := by
  rw [← pairTree_leaves empty hNonempty, ← pairTree_leaves empty hNonempty'] at hCompleted
  rw [← pairTree_eval, ← pairTree_eval]
  obtain ⟨h, hTree⟩ := pairTree_perfect empty hNonempty
  obtain ⟨h', hTree'⟩ := pairTree_perfect empty hNonempty'
  have hLength := congrArg List.length hCompleted
  rw [hTree.length_leaves, hTree'.length_leaves] at hLength
  obtain rfl : h = h' := (Nat.pow_right_inj (by decide)).mp hLength
  rw [hTree.eq_of_leaves hTree' hCompleted]

end Tree

/-- Two reductions agree exactly if the lists have one completion, when different pairs have
different values and no element of the lists is the value of a pair. -/
theorem reduce_eq_iff {combine : α → α → α} {empty : α} {level level' : List α}
    (hNonempty : level ≠ []) (hNonempty' : level' ≠ [])
    (hInjective : ∀ p q, p ∈ combinedPairs combine level ++ combinedPairs combine level' →
      q ∈ combinedPairs combine level ++ combinedPairs combine level' →
        combine p.1 p.2 = combine q.1 q.2 → p = q)
    (hApart : ∀ a p, a ∈ level ++ level' →
      p ∈ combinedPairs combine level ++ combinedPairs combine level' →
        combine p.1 p.2 ≠ a) :
    reduce combine empty level = reduce combine empty level' ↔
      completed level = completed level' := by
  constructor
  · intro hEval
    rw [← pairTree_eval, ← pairTree_eval] at hEval
    rw [← pairTree_leaves empty hNonempty, ← pairTree_leaves empty hNonempty']
    refine congrArg leaves (eq_of_eval hInjective hApart ?_ ?_ ?_ ?_ hEval)
    · exact fun p hp => List.mem_append_left _ (pairTree_pairs hNonempty hp)
    · exact fun p hp => List.mem_append_right _ (pairTree_pairs hNonempty' hp)
    · exact fun a ha => List.mem_append_left _ (mem_of_mem_pairTree_leaves hNonempty ha)
    · exact fun a ha => List.mem_append_right _ (mem_of_mem_pairTree_leaves hNonempty' ha)
  · exact reduce_eq_of_completed hNonempty hNonempty'

end CipherCli.Library
