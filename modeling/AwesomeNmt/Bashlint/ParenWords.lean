/-
  AwesomeNmt.Bashlint.ParenWords — which words `paren_parser` keeps, and when it raises.

  The loop raises only on its first word: a word other than `(` and `)` finds the stack
  empty (`stack[-1]`).  After that the stack is empty only once the loop has stopped.
  It stops at the `)` that empties the stack, so what comes after that word is never
  read (`upToClose`: the words up to the one that brings the nesting depth back to
  zero).  Each word it reads other than `(` and `)` becomes one `t` leaf, and ordering
  the operands only moves leaves.

  ## Main results

    * `parenParser_eq_none_iff` — `paren_parser` raises exactly when the first word of
      the wrapped line is not `(` or `)`, which needs a line that starts with `(` glued
      to a word (`parenParser_ne_none_of_wrapped`).
    * `parenParser_tValues_perm` — when it returns, its `t` leaves are, as a multiset,
      the words other than `(` and `)` that the loop reads.
    * `parenParser_drops_after_close` — `( a ) b` loses `b`.
-/
import Mathlib.Data.List.Perm.Basic
import AwesomeNmt.Bashlint.ParenParser

namespace AwesomeNmt.Bashlint

open AwesomeNmt.Python

/-! ## §1. The words the loop reads. -/

/-- Whether a word becomes a `t` leaf: anything other than `(` and `)`. -/
def isLeafWord (w : String) : Bool := w ≠ "(" && w ≠ ")"

/-- The nesting depth after the word `w`, at depth `d`. -/
def depthAfter (d : Nat) (w : String) : Nat :=
  if w = "(" then d + 1 else if w = ")" then d - 1 else d

/-- The words read from depth `d` on: up to the one that brings the depth to zero. -/
def upToClose : Nat → List String → List String
  | _, [] => []
  | d, w :: ws => w :: if depthAfter d w = 0 then [] else upToClose (depthAfter d w) ws

/-! ## §2. The leaves of a state. -/

/-- The `t` leaves of the state: of the open nodes, or of the root once the stack is
empty. -/
def ParenState.leaves (s : ParenState) : List String :=
  if s.stack.isEmpty then s.root.tValues else s.stack.flatMap PNode.tValues

@[simp] theorem PNode.tValues_addChild (n c : PNode) :
    (n.addChild c).tValues = n.tValues ++ c.tValues := by
  simp [PNode.tValues_eq, PNode.addChild]

@[simp] theorem PNode.tValues_leaf (i : Nat) (k : Kind) (v : String) (p : Option Nat) :
    (⟨i, k, v, p, []⟩ : PNode).tValues = if k = .t then [v] else [] := by
  simp [PNode.tValues_eq]

/-- One turn keeps the depth as the stack's height and adds the word it reads, if it
is a leaf word. -/
theorem parenStep_leaves {s s' : ParenState} {w : String} (h : parenStep s w = some s')
    (hroot : s.stack = [] → s.root.tValues = []) :
    s'.stack.length = depthAfter s.stack.length w ∧
      s'.leaves.Perm (s.leaves ++ if isLeafWord w then [w] else []) := by
  unfold parenStep at h
  by_cases ho : w = "("
  · subst ho
    rcases hs : s.stack with _ | ⟨top, rest⟩ <;> simp only [hs, reduceIte] at h <;> cases h
    · simp [ParenState.leaves, depthAfter, isLeafWord, hs, hroot hs]
    · simp [ParenState.leaves, depthAfter, isLeafWord, hs, PNode.tValues_eq]
  · by_cases hc : w = ")"
    · subst hc
      rcases hs : s.stack with _ | ⟨top, _ | ⟨parent, rest⟩⟩ <;>
        simp only [hs, ho, reduceIte] at h <;> cases h
      iterate 2 simp [ParenState.leaves, depthAfter, isLeafWord, hs]
      · simpa [ParenState.leaves, depthAfter, isLeafWord, hs] using
          List.perm_append_comm_assoc _ _ _
    · rcases hs : s.stack with _ | ⟨top, rest⟩ <;> simp only [hs, ho, hc, reduceIte] at h <;>
        cases h
      simpa [ParenState.leaves, depthAfter, isLeafWord, hs, ho, hc] using
        (List.perm_append_singleton w _).symm.append_left _

/-- The loop adds to the leaves the leaf words it reads. -/
theorem parenLoop_leaves : ∀ (ws : List String) {s s' : ParenState},
    (s.stack = [] → s.root.tValues = []) → parenLoop ws s = some s' →
      s'.leaves.Perm (s.leaves ++ (upToClose s.stack.length ws).filter isLeafWord)
  | [], s, s', _, h => by simp_all [parenLoop, upToClose]
  | w :: ws, s, s', hroot, h => by
    simp only [parenLoop, Option.bind_eq_bind, Option.bind_eq_some] at h
    obtain ⟨s₁, h₁, h⟩ := h
    obtain ⟨hd, hl⟩ := parenStep_leaves h₁ hroot
    by_cases he : s₁.stack = []
    · simp only [he, List.isEmpty_nil, reduceIte, Option.some.injEq] at h
      subst h
      have hd0 : depthAfter s.stack.length w = 0 := by rw [← hd, he, List.length_nil]
      simpa [upToClose, hd0, List.filter_cons] using hl
    · simp only [List.isEmpty_iff, he, reduceIte] at h
      have hd0 : depthAfter s.stack.length w ≠ 0 := by
        rw [← hd]; exact fun h0 => he (List.length_eq_zero.mp h0)
      have ih := parenLoop_leaves ws (fun h => absurd h he) h
      rw [hd] at ih
      refine ih.trans ?_
      rw [upToClose, if_neg hd0, List.filter_cons]
      refine (hl.append_right _).trans ?_
      split <;> simp

/-! ## §3. The leaves of the tree. -/

/-- Closing the open nodes keeps their leaves. -/
theorem closeAll_tValues : ∀ (ps : List PNode) (n : PNode),
    (closeAll ps n).tValues.Perm (n.tValues ++ ps.flatMap PNode.tValues)
  | [], n => by simp [closeAll]
  | p :: ps, n => (closeAll_tValues ps _).trans <| by
    simpa using List.perm_append_comm_assoc p.tValues n.tValues _

theorem ParenState.tree_tValues (s : ParenState) : s.tree.tValues.Perm s.leaves := by
  unfold ParenState.tree ParenState.leaves
  cases s.stack with
  | nil => simp
  | cons top rest => simpa using closeAll_tValues rest top

/-- Ordering the operands only moves leaves. -/
theorem orderChildFun_tValues : ∀ n : PNode, (orderChildFun n).tValues.Perm n.tValues :=
  PNode.induction fun n ih => by
    rw [PNode.tValues_eq, PNode.tValues_eq n, orderChildFun_children, orderChildFun_kind,
      orderChildFun_value]
    refine List.Perm.append_left _ (((orderOperands_perm _).flatMap_right _).trans ?_)
    rw [List.flatMap_map]
    exact List.Perm.flatMap_left _ ih

/-! ## §4. When `paren_parser` raises, and which words it keeps. -/

/-- With a node open, a turn never raises. -/
theorem parenStep_isSome {s : ParenState} (w : String) (h : s.stack ≠ []) :
    (parenStep s w).isSome := by
  obtain ⟨top, rest, hs⟩ := List.exists_cons_of_ne_nil h
  unfold parenStep
  rcases rest with _ | ⟨parent, rest⟩ <;> split_ifs <;> simp [hs]

/-- With a node open, the loop never raises. -/
theorem parenLoop_ne_none : ∀ (ws : List String) {s : ParenState}, s.stack ≠ [] →
    parenLoop ws s ≠ none
  | [], _, _ => by simp [parenLoop]
  | w :: ws, s, h => by
    obtain ⟨s₁, h₁⟩ := Option.isSome_iff_exists.mp (parenStep_isSome w h)
    by_cases he : s₁.stack = []
    · simp [parenLoop_cons_closed ws h₁ he]
    · rw [parenLoop_cons_open ws h₁ he]
      exact parenLoop_ne_none ws he

/-- From the start, the loop raises exactly when the first word is a leaf word. -/
theorem parenLoop_init_eq_none_iff (ws : List String) :
    parenLoop ws ParenState.init = none ↔ ∃ w ws', ws = w :: ws' ∧ isLeafWord w = true := by
  rcases ws with _ | ⟨w, ws⟩
  · simp [parenLoop]
  · by_cases ho : w = "("
    · subst ho
      simpa [isLeafWord, ParenState.init, parenStep_open_root] using
        parenLoop_ne_none ws (s := ⟨_, [⟨0, .root, "root", none, []⟩], 1⟩) (List.cons_ne_nil _ _)
    · by_cases hc : w = ")"
      · subst hc
        simp [parenLoop, parenStep, isLeafWord, ParenState.init]
      · simp [parenLoop, parenStep, isLeafWord, ParenState.init, ho, hc]

/-- `paren_parser` raises exactly when the wrapped line's first word is not `(` or
`)`: a line that starts with `(` glued to a word. -/
theorem parenParser_eq_none_iff (line : String) :
    parenParser line = none ↔
      ∃ w ws, Str.split (wrapLine line) = w :: ws ∧ isLeafWord w = true := by
  rw [← parenLoop_init_eq_none_iff, parenParser]
  cases parenLoop (Str.split (wrapLine line)) ParenState.init <;> simp

/-- `(a b)` is not wrapped, and its first word `(a` finds the stack empty. -/
example : (parenParser "(a b)").isNone = true := by decide

/-- A line that does not start with `(` is wrapped, and `paren_parser` does not raise
on it. -/
theorem parenParser_ne_none_of_wrapped {line : String} (h : Str.startswith line "(" = false) :
    parenParser line ≠ none := by
  have hopen : ∀ t, Str.split ("( " ++ t) = "(" :: Str.split t := fun t => by
    rw [show "( " ++ t = "(" ++ " " ++ t by rw [String.append_assoc]; rfl,
      Str.split_append_space]
    rfl
  rw [Ne, parenParser_eq_none_iff]
  rintro ⟨w, ws, hws, hw⟩
  unfold wrapLine at hws
  simp only [h, Bool.false_eq_true, ↓reduceIte] at hws
  split_ifs at hws
  · rw [hopen] at hws
    simp_all [isLeafWord]
  · rw [show "( " ++ line ++ " )" = "( " ++ line ++ " " ++ ")" by
      rw [String.append_assoc _ " "]; rfl, Str.split_append_space, hopen] at hws
    simp_all [isLeafWord]

/-- When `paren_parser` returns, its `t` leaves are, as a multiset, the words other
than `(` and `)` up to the `)` that closes the outer group: what follows is dropped. -/
theorem parenParser_tValues_perm {line : String} {t : PNode} (h : parenParser line = some t) :
    t.tValues.Perm ((upToClose 0 (Str.split (wrapLine line))).filter isLeafWord) := by
  simp only [parenParser, Option.bind_eq_bind, Option.bind_eq_some, Option.pure_def,
    Option.some.injEq] at h
  obtain ⟨s, hs, rfl⟩ := h
  have hinit : ParenState.init.stack = [] → ParenState.init.root.tValues = [] := fun _ => by
    simp [ParenState.init]
  refine ((orderChildFun_tValues _).trans s.tree_tValues).trans ?_
  simpa [ParenState.leaves, ParenState.init] using parenLoop_leaves _ hinit hs

/-- `( a ) b`: the loop stops at the `)` that closes the group, so `b` is not read. -/
theorem parenParser_tValues_perm_drops :
    parenParser "( a ) b" = some ⟨0, .root, "root", none, [⟨1, .t, "a", some 0, []⟩]⟩ ∧
      (PNode.tValues ⟨0, .root, "root", none, [⟨1, .t, "a", some 0, []⟩]⟩).Perm
        ((upToClose 0 (Str.split (wrapLine "( a ) b"))).filter isLeafWord) :=
  ⟨rfl, parenParser_tValues_perm rfl⟩

/-- `( a ) b` has the leaf words `a` and `b`, but returns without `b`: the loop stops at
the `)` that closes the group. -/
theorem parenParser_drops_after_close :
    (Str.split "( a ) b").filter isLeafWord = ["a", "b"] ∧
      (parenParser "( a ) b").map PNode.tValues = some ["a"] := by
  decide

end AwesomeNmt.Bashlint
