/-
  AwesomeNmt.Bashlint.ParenGrammar — `paren_parser` on balanced lines.

  A balanced line is one group `G ::= '(' item* ')'`, `item ::= word | G`, where a word
  is anything other than `(` and `)` (`Item`).  `refTree` builds the tree the grammar
  describes: the root for the outer group, an `nt` node (value `<n>`) for each inner
  one, a `t` leaf for each word, every node numbered in the order of its first word
  and naming its parent.

  The loop reads an item's words, with an open node on top of the stack, into exactly
  the node `refItem` builds for it (`parenLoop_item`).  That needs the line to start
  with `(`: on a balanced line with leading whitespace the wrapping adds a second outer
  group.

  ## Main results

    * `parenParser_balanced` — on a balanced line that starts with `(`, `paren_parser`
      returns the ordered form of `refTree`, in which every child names the node it
      hangs under and no two nodes share an ident.
    * `parenParser_leading_space` — ` ( a )` comes out with an extra `nt` node.
-/
import Mathlib.Data.List.Perm.Basic
import AwesomeNmt.Bashlint.ParenParser

namespace AwesomeNmt.Bashlint

open AwesomeNmt.Python

/-! ## §1. Balanced lines. -/

/-- An item of a balanced line: a word other than `(` and `)`, or a group of items. -/
inductive Item
  | word (w : String) (hw : w ≠ "(" ∧ w ≠ ")")
  | group (items : List Item)

mutual
/-- The words of an item. -/
def Item.words : Item → List String
  | .word w _ => [w]
  | .group is => "(" :: Item.wordsList is ++ [")"]
/-- The words of the items of a list, one after the other. -/
def Item.wordsList : List Item → List String
  | [] => []
  | i :: is => i.words ++ Item.wordsList is
end

mutual
/-- The node built for an item under the node numbered `parent`, numbering from
`next`, and the number after the last one used. -/
def refItem (parent next : Nat) : Item → PNode × Nat
  | .word w _ => (⟨next, .t, w, some parent, []⟩, next + 1)
  | .group is =>
    (⟨next, .nt, "<n>", some parent, (refItems next (next + 1) is).1⟩,
      (refItems next (next + 1) is).2)
/-- The nodes built for the items of a list, in order. -/
def refItems (parent next : Nat) : List Item → List PNode × Nat
  | [] => ([], next)
  | i :: is =>
    ((refItem parent next i).1 :: (refItems parent (refItem parent next i).2 is).1,
      (refItems parent (refItem parent next i).2 is).2)
end

/-- The tree the grammar describes for the outer group's items. -/
def refTree (is : List Item) : PNode := ⟨0, .root, "root", none, (refItems 0 1 is).1⟩

theorem Item.words_group (is : List Item) (ws : List String) :
    (Item.group is).words ++ ws = "(" :: (Item.wordsList is ++ ")" :: ws) := by
  simp [Item.words]

/-! ## §2. The loop reads an item into its node. -/

/-- With an open node on top of the stack, the loop reads an item's words into the
node `refItem` builds for it, and goes on. -/
theorem parenLoop_item (i : Item) :
    ∀ (root top : PNode) (rest : List PNode) (n : Nat) (ws : List String),
      parenLoop (i.words ++ ws) ⟨root, top :: rest, n⟩ =
        parenLoop ws ⟨root, top.addChild (refItem top.ident n i).1 :: rest,
          (refItem top.ident n i).2⟩ := by
  refine @Item.rec
    (fun i => ∀ (root top : PNode) (rest : List PNode) (n : Nat) (ws : List String),
      parenLoop (i.words ++ ws) ⟨root, top :: rest, n⟩ =
        parenLoop ws ⟨root, top.addChild (refItem top.ident n i).1 :: rest,
          (refItem top.ident n i).2⟩)
    (fun is => ∀ (root top : PNode) (rest : List PNode) (n : Nat) (ws : List String),
      parenLoop (Item.wordsList is ++ ws) ⟨root, top :: rest, n⟩ =
        parenLoop ws ⟨root, top.addChildren (refItems top.ident n is).1 :: rest,
          (refItems top.ident n is).2⟩) ?_ ?_ ?_ ?_ i
  · -- a word: a `t` leaf of the top node
    intro w hw root top rest n ws
    exact parenLoop_cons_open ws (parenStep_word root top rest n hw) (List.cons_ne_nil _ _)
  · -- a group: open an `nt` node, read the items into it, close it
    intro is ih root top rest n ws
    rw [Item.words_group, parenLoop_cons_open _ (parenStep_open root top rest n)
      (List.cons_ne_nil _ _), ih, parenLoop_cons_open _ (parenStep_close root _ rest _ top)
      (List.cons_ne_nil _ _)]
    simp [refItem, PNode.addChildren]
  · intro root top rest n ws
    simp [Item.wordsList, refItems]
  · intro i is ihi ihs root top rest n ws
    rw [Item.wordsList, List.append_assoc, ihi, ihs]
    simp [refItems, PNode.addChildren_cons]

/-- With an open node on top of the stack, the loop reads the items' words into the
nodes `refItems` builds, added to the top node. -/
theorem parenLoop_items : ∀ (is : List Item) (root top : PNode) (rest : List PNode) (n : Nat)
    (ws : List String), parenLoop (Item.wordsList is ++ ws) ⟨root, top :: rest, n⟩ =
      parenLoop ws ⟨root, top.addChildren (refItems top.ident n is).1 :: rest,
        (refItems top.ident n is).2⟩
  | [], root, top, rest, n, ws => by simp [Item.wordsList, refItems]
  | i :: is, root, top, rest, n, ws => by
    rw [Item.wordsList, List.append_assoc, parenLoop_item, parenLoop_items is]
    simp [refItems, PNode.addChildren_cons]

/-- A balanced group, with anything after it: the loop builds `refTree` and stops at
the group's closing word. -/
theorem parenLoop_group (is : List Item) (ws : List String) :
    parenLoop ((Item.group is).words ++ ws) ParenState.init =
      some ⟨refTree is, [], (refItems 0 1 is).2⟩ := by
  rw [Item.words_group, ParenState.init,
    parenLoop_cons_open _ (parenStep_open_root _ _) (List.cons_ne_nil _ _), parenLoop_items,
    parenLoop_cons_closed _ (parenStep_close_root _ _ _) rfl]
  simp [refTree, PNode.addChildren]

/-! ## §3. Every node named once, every child naming its parent. -/

/-- Every child names the node it hangs under as its parent, and no node appears twice
in the tree. -/
def PNode.Linked (t : PNode) : Prop :=
  (∀ m ∈ t.nodes, ∀ c ∈ m.children, c.parent = some m.ident) ∧ (t.nodes.map PNode.ident).Nodup

/-- Two consecutive runs of numbers make one. -/
private theorem range'_append_sub {a b c : Nat} (hab : a ≤ b) (hbc : b ≤ c) :
    List.range' a (b - a) ++ List.range' b (c - b) = List.range' a (c - a) := by
  have h := List.range'_append_1 a (b - a) (c - b)
  rwa [Nat.add_sub_cancel' hab, Nat.sub_add_sub_cancel hbc hab] at h

/-- What `refItem` builds: a node named `next` under `parent`, whose nodes are named
`next`, `next + 1`, ... in preorder, every child naming its parent. -/
theorem refItem_spec (i : Item) : ∀ (parent next : Nat),
    let r := refItem parent next i
    r.1.ident = next ∧ r.1.parent = some parent ∧ next < r.2 ∧
      r.1.nodes.map PNode.ident = List.range' next (r.2 - next) ∧
      ∀ m ∈ r.1.nodes, ∀ c ∈ m.children, c.parent = some m.ident := by
  refine @Item.rec
    (fun i => ∀ (parent next : Nat), let r := refItem parent next i
      r.1.ident = next ∧ r.1.parent = some parent ∧ next < r.2 ∧
      r.1.nodes.map PNode.ident = List.range' next (r.2 - next) ∧
      ∀ m ∈ r.1.nodes, ∀ c ∈ m.children, c.parent = some m.ident)
    (fun is => ∀ (parent next : Nat), let r := refItems parent next is
      (∀ c ∈ r.1, c.parent = some parent) ∧ next ≤ r.2 ∧
      (r.1.flatMap PNode.nodes).map PNode.ident = List.range' next (r.2 - next) ∧
      ∀ m ∈ r.1.flatMap PNode.nodes, ∀ c ∈ m.children, c.parent = some m.ident)
    ?_ ?_ ?_ ?_ i
  · intro w hw parent next
    simp [refItem, PNode.nodes_eq]
  · intro is ih parent next
    obtain ⟨hp, hle, hids, hlinks⟩ := ih next (next + 1)
    refine ⟨rfl, rfl, by simp only [refItem]; omega, ?_, ?_⟩
    · simp only [refItem, PNode.nodes_eq, List.map_cons, hids]
      simpa using range'_append_sub (Nat.le_succ next) hle
    · simp only [refItem, PNode.nodes_eq, List.mem_cons, forall_eq_or_imp]
      exact ⟨hp, hlinks⟩
  · intro parent next
    simp [refItems]
  · intro i is ihi ihs parent next
    obtain ⟨hident, hparent, hlt, hids, hlinks⟩ := ihi parent next
    obtain ⟨hps, hle, hidss, hlinkss⟩ := ihs parent (refItem parent next i).2
    refine ⟨?_, by simp only [refItems]; omega, ?_, ?_⟩
    · simpa [refItems, hparent] using hps
    · simp only [refItems, List.flatMap_cons, List.map_append, hids, hidss]
      exact range'_append_sub hlt.le hle
    · simp only [refItems, List.flatMap_cons, List.mem_append]
      rintro m (hm | hm)
      exacts [hlinks m hm, hlinkss m hm]

theorem refTree_linked (is : List Item) : (refTree is).Linked := by
  obtain ⟨-, -, -, hids, hlinks⟩ := refItem_spec (.group is) 0 0
  simp only [refItem, PNode.nodes_eq, List.map_cons, List.mem_cons, forall_eq_or_imp] at hids hlinks
  refine ⟨?_, ?_⟩
  · simpa only [refTree, PNode.nodes_eq, List.mem_cons, forall_eq_or_imp] using hlinks
  · simp only [refTree, PNode.nodes_eq, List.map_cons, hids]
    exact List.nodup_range' _ _

/-- Each node of the ordered tree is a node of the tree, ordered. -/
theorem mem_nodes_orderChildFun : ∀ (t : PNode), ∀ m' ∈ (orderChildFun t).nodes,
    ∃ m ∈ t.nodes, m' = orderChildFun m :=
  PNode.induction fun t ih m' hm' => by
    rw [PNode.nodes_eq, List.mem_cons] at hm'
    rcases hm' with rfl | hm'
    · exact ⟨t, by rw [PNode.nodes_eq]; exact List.mem_cons_self _ _, rfl⟩
    · rw [orderChildFun_children, List.mem_flatMap] at hm'
      obtain ⟨c', hc', hm'⟩ := hm'
      obtain ⟨c, hc, rfl⟩ := List.mem_map.mp ((orderOperands_perm _).subset hc')
      obtain ⟨m, hm, rfl⟩ := ih c hc m' hm'
      exact ⟨m, by
        rw [PNode.nodes_eq]
        exact List.mem_cons_of_mem _ (List.mem_flatMap.mpr ⟨c, hc, hm⟩), rfl⟩

/-- Ordering moves nodes, and makes or drops none. -/
theorem nodes_ident_orderChildFun : ∀ t : PNode,
    ((orderChildFun t).nodes.map PNode.ident).Perm (t.nodes.map PNode.ident) :=
  PNode.induction fun t ih => by
    rw [PNode.nodes_eq t, PNode.nodes_eq (orderChildFun t)]
    simp only [List.map_cons, orderChildFun_ident, orderChildFun_children, List.map_flatMap]
    refine List.Perm.cons _ (((orderOperands_perm _).flatMap_right _).trans ?_)
    rw [List.flatMap_map]
    exact List.Perm.flatMap_left _ ih

theorem PNode.Linked.orderChildFun {t : PNode} (h : t.Linked) : (orderChildFun t).Linked := by
  refine ⟨fun m' hm' c' hc' => ?_, (nodes_ident_orderChildFun t).nodup_iff.mpr h.2⟩
  obtain ⟨m, hm, rfl⟩ := mem_nodes_orderChildFun t m' hm'
  rw [orderChildFun_children] at hc'
  obtain ⟨c, hc, rfl⟩ := List.mem_map.mp ((orderOperands_perm _).subset hc')
  simpa using h.1 m hm c hc

/-! ## §4. `paren_parser` on balanced lines. -/

/-- On a balanced line that starts with `(`, `paren_parser` returns the canonical form
of the tree the grammar describes, in which every child names its parent and no node
appears twice. -/
theorem parenParser_balanced (line : String) (is : List Item)
    (hw : Str.split line = (Item.group is).words) (hs : Str.startswith line "(" = true) :
    parenParser line = some (orderChildFun (refTree is)) ∧
      (orderChildFun (refTree is)).Linked := by
  refine ⟨?_, (refTree_linked is).orderChildFun⟩
  obtain ⟨ws, hws⟩ : ∃ ws, Str.split (wrapLine line) = (Item.group is).words ++ ws := by
    unfold wrapLine
    simp only [hs, ↓reduceIte]
    split_ifs
    · exact ⟨[], by rw [hw, List.append_nil]⟩
    · refine ⟨[")"], ?_⟩
      rw [show line ++ " )" = line ++ " " ++ ")" by rw [String.append_assoc]; rfl,
        Str.split_append_space, hw]
      rfl
  simp [parenParser, hws, parenLoop_group, ParenState.tree]

/-- `( and b a )`: the operands come out sorted. -/
theorem parenParser_balanced_and :
    Str.split "( and b a )" = (Item.group [.word "and" ⟨by decide, by decide⟩,
        .word "b" ⟨by decide, by decide⟩, .word "a" ⟨by decide, by decide⟩]).words ∧
      Str.startswith "( and b a )" "(" = true ∧
      parenParser "( and b a )" = some (orderChildFun (refTree [.word "and" ⟨by decide, by decide⟩,
        .word "b" ⟨by decide, by decide⟩, .word "a" ⟨by decide, by decide⟩])) ∧
      (orderChildFun (refTree [.word "and" ⟨by decide, by decide⟩,
        .word "b" ⟨by decide, by decide⟩, .word "a" ⟨by decide, by decide⟩])).Linked :=
  ⟨by decide, by decide, parenParser_balanced _ _ (by decide) (by decide)⟩

/-- A balanced line with a leading blank: the wrapping adds a second outer group, so
the word `a` comes out under an `nt` node instead of under the root. -/
theorem parenParser_leading_space :
    Str.split " ( a )" = (Item.group [.word "a" ⟨by decide, by decide⟩]).words ∧
      parenParser " ( a )" ≠ some (orderChildFun (refTree [.word "a" ⟨by decide, by decide⟩])) := by
  refine ⟨by decide, fun h => ?_⟩
  have := congrArg (Option.map fun t => t.children.map PNode.kind) h
  revert this
  decide

end AwesomeNmt.Bashlint
