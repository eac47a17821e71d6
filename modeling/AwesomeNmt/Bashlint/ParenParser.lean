/-
  AwesomeNmt.Bashlint.ParenParser — `paren_parser` (`data_tools`, l. 337–382).

  `paren_parser` wraps the line in parentheses where it does not start or end with
  one, splits it into words, and reads them with a stack of open nodes: `(` opens a
  node (the root first, then `nt` nodes), `)` closes the top one, any other word is a
  `t` leaf of the top node.  The loop stops as soon as the stack is empty.  Then
  `order_child_fun` sorts the operands of every `and`/`or` group.

  The nodes are objects: a child is added to its parent's list when it is created,
  and is filled in afterwards.  The model keeps the open nodes on the stack, each with
  the children it has so far, and adds a node to its parent when it is closed
  (`ParenState.tree` closes what is still open at the end).  Since a parent gets no
  child while one of its children is open, the children come in the same order.  Each
  node carries `ident`, the order in which it was created, so that `parent` names a
  node.  A raised `IndexError` (`stack[-1]` on an empty stack) is `none`.
-/
import AwesomeNmt.Bashlint.Node
import AwesomeNmt.Python.Str
import AwesomeNmt.Python.Sorted

namespace AwesomeNmt.Bashlint

open AwesomeNmt.Python

/-! ## §1. Nodes. -/

/-- A node `paren_parser` builds, `nast.Node(kind=..., value=...)`, with `ident` the
order of its creation and `parent` the creation order of its parent. -/
structure PNode where
  ident : Nat
  kind : Kind
  value : String
  parent : Option Nat
  children : List PNode
  deriving Repr

namespace PNode

/-- `node.add_child(child)`. -/
def addChild (node child : PNode) : PNode := { node with children := node.children ++ [child] }

@[simp] theorem addChild_children (node child : PNode) :
    (node.addChild child).children = node.children ++ [child] := rfl

@[simp] theorem addChild_ident (node child : PNode) :
    (node.addChild child).ident = node.ident := rfl

/-- `node` with `cs` added to its children, one after the other. -/
def addChildren (node : PNode) (cs : List PNode) : PNode :=
  { node with children := node.children ++ cs }

@[simp] theorem addChildren_nil (node : PNode) : node.addChildren [] = node := by
  cases node; simp [addChildren]

theorem addChildren_cons (node c : PNode) (cs : List PNode) :
    node.addChildren (c :: cs) = (node.addChild c).addChildren cs := by
  simp [addChildren, addChild]

@[simp] theorem addChildren_ident (node : PNode) (cs : List PNode) :
    (node.addChildren cs).ident = node.ident := rfl

/-- Induction over the tree. -/
theorem induction {P : PNode → Prop} (h : ∀ n, (∀ c ∈ n.children, P c) → P n) :
    ∀ n, P n :=
  @PNode.rec P (fun cs => ∀ c ∈ cs, P c)
    (fun i k v p cs ih => h ⟨i, k, v, p, cs⟩ ih)
    (fun _ h => absurd h (List.not_mem_nil _))
    (fun c cs hc hcs d hd => by
      rcases List.mem_cons.mp hd with rfl | hd
      exacts [hc, hcs d hd])

mutual
/-- Every node of the tree, in preorder. -/
def nodes : PNode → List PNode
  | ⟨i, k, v, p, cs⟩ => ⟨i, k, v, p, cs⟩ :: nodesList cs
/-- The nodes of each tree of `cs`. -/
def nodesList : List PNode → List PNode
  | [] => []
  | c :: cs => nodes c ++ nodesList cs
end

theorem nodesList_eq : ∀ cs : List PNode, nodesList cs = cs.flatMap nodes
  | [] => rfl
  | c :: cs => by simp [nodesList, nodesList_eq cs]

theorem nodes_eq (n : PNode) : n.nodes = n :: n.children.flatMap nodes := by
  obtain ⟨i, k, v, p, cs⟩ := n
  rw [nodes, nodesList_eq]

mutual
/-- The values of the `t` leaves, in preorder. -/
def tValues : PNode → List String
  | ⟨_, k, v, _, cs⟩ => (if k = .t then [v] else []) ++ tValuesList cs
/-- The values of the `t` leaves of each tree of `cs`. -/
def tValuesList : List PNode → List String
  | [] => []
  | c :: cs => tValues c ++ tValuesList cs
end

theorem tValuesList_eq : ∀ cs : List PNode, tValuesList cs = cs.flatMap tValues
  | [] => rfl
  | c :: cs => by simp [tValuesList, tValuesList_eq cs]

theorem tValues_eq (n : PNode) :
    n.tValues = (if n.kind = .t then [n.value] else []) ++ n.children.flatMap tValues := by
  obtain ⟨i, k, v, p, cs⟩ := n
  rw [tValues, tValuesList_eq]

end PNode

/-! ## §2. The stack loop. -/

/-- `if not line.startswith("("): line = "( " + line`, then
`if not line.endswith(")"): line = line + " )"`. -/
def wrapLine (line : String) : String :=
  let line := if Str.startswith line "(" then line else "( " ++ line
  if Str.endswith line ")" then line else line ++ " )"

/-- The loop's state: the root as it was last closed (or created), the open nodes, top
first, and the order of the next node to create. -/
structure ParenState where
  root : PNode
  stack : List PNode
  next : Nat

/-- The state before the loop: `root` created first, the stack empty. -/
def ParenState.init : ParenState := ⟨⟨0, .root, "root", none, []⟩, [], 1⟩

/-- One turn of the loop on `word`. -/
def parenStep (s : ParenState) (word : String) : Option ParenState :=
  if word = "(" then
    match s.stack with
    | top :: rest =>
      some ⟨s.root, ⟨s.next, .nt, "<n>", some top.ident, []⟩ :: top :: rest, s.next + 1⟩
    | [] => some ⟨s.root, [s.root], s.next⟩
  else if word = ")" then
    match s.stack with
    | [top] => some ⟨top, [], s.next⟩
    | top :: parent :: rest => some ⟨s.root, parent.addChild top :: rest, s.next⟩
    | [] => some s
  else
    match s.stack with
    | top :: rest =>
      some ⟨s.root, top.addChild ⟨s.next, .t, word, some top.ident, []⟩ :: rest, s.next + 1⟩
    | [] => none

section Steps

variable (root top : PNode) (rest : List PNode) (n : Nat)

/-- `(` under an open node opens an `nt` child of it. -/
theorem parenStep_open :
    parenStep ⟨root, top :: rest, n⟩ "(" =
      some ⟨root, ⟨n, .nt, "<n>", some top.ident, []⟩ :: top :: rest, n + 1⟩ := by
  simp [parenStep]

/-- `(` on an empty stack opens the root. -/
theorem parenStep_open_root : parenStep ⟨root, [], n⟩ "(" = some ⟨root, [root], n⟩ := by
  simp [parenStep]

/-- `)` closes the top node into the one below it. -/
theorem parenStep_close (parent : PNode) :
    parenStep ⟨root, top :: parent :: rest, n⟩ ")" =
      some ⟨root, parent.addChild top :: rest, n⟩ := by
  simp [parenStep]

/-- `)` on the root alone closes it, and the stack is empty. -/
theorem parenStep_close_root : parenStep ⟨root, [top], n⟩ ")" = some ⟨top, [], n⟩ := by
  simp [parenStep]

/-- A word is a `t` leaf of the top node. -/
theorem parenStep_word {w : String} (hw : w ≠ "(" ∧ w ≠ ")") :
    parenStep ⟨root, top :: rest, n⟩ w =
      some ⟨root, top.addChild ⟨n, .t, w, some top.ident, []⟩ :: rest, n + 1⟩ := by
  simp [parenStep, hw.1, hw.2]

end Steps

/-- `while i < len(words): ...; if len(stack) == 0: break`. -/
def parenLoop : List String → ParenState → Option ParenState
  | [], s => some s
  | w :: ws, s => do
    let s ← parenStep s w
    if s.stack.isEmpty then some s else parenLoop ws s

/-- A turn that leaves the stack open goes on with the next word. -/
theorem parenLoop_cons_open {s s' : ParenState} {w : String} (ws : List String)
    (h : parenStep s w = some s') (hs : s'.stack ≠ []) :
    parenLoop (w :: ws) s = parenLoop ws s' := by
  simp [parenLoop, h, List.isEmpty_iff, hs]

/-- A turn that empties the stack ends the loop. -/
theorem parenLoop_cons_closed {s s' : ParenState} {w : String} (ws : List String)
    (h : parenStep s w = some s') (hs : s'.stack = []) :
    parenLoop (w :: ws) s = some s' := by
  simp [parenLoop, h, hs]

/-- Close the nodes still open: each is added to the one below it. -/
def closeAll : List PNode → PNode → PNode
  | [], n => n
  | p :: ps, n => closeAll ps (p.addChild n)

/-- The root once the loop is over. -/
def ParenState.tree (s : ParenState) : PNode :=
  match s.stack with
  | [] => s.root
  | top :: rest => closeAll rest top

/-! ## §3. Ordering the operands. -/

/-- `x.value if x.kind == "t" else (x.children[0].value if x.children else x.value)`. -/
def orderKey (x : PNode) : String :=
  if x.kind = .t then x.value
  else match x.children with
    | c :: _ => c.value
    | [] => x.value

/-- Whether `order_child_fun` sorts these children: more than one, the first of them
`and` or `or`. -/
def sortsOperands (cs : List PNode) : Bool :=
  match cs with
  | c :: _ :: _ => c.value = "and" || c.value = "or"
  | _ => false

/-- `children[:1] + sorted(children[1:], key=...)` where `order_child_fun` sorts. -/
def orderOperands (cs : List PNode) : List PNode :=
  if sortsOperands cs then cs.take 1 ++ sorted orderKey (cs.drop 1) else cs

mutual
/-- `order_child_fun(node)`: the children first, then the node's own operands. -/
def orderChildFun : PNode → PNode
  | ⟨i, k, v, p, cs⟩ => ⟨i, k, v, p, orderOperands (orderChildren cs)⟩
/-- `order_child_fun` on each child. -/
def orderChildren : List PNode → List PNode
  | [] => []
  | c :: cs => orderChildFun c :: orderChildren cs
end

theorem orderChildren_eq : ∀ cs : List PNode, orderChildren cs = cs.map orderChildFun
  | [] => rfl
  | c :: cs => by simp [orderChildren, orderChildren_eq cs]

@[simp] theorem orderChildFun_children (n : PNode) :
    (orderChildFun n).children = orderOperands (n.children.map orderChildFun) := by
  obtain ⟨i, k, v, p, cs⟩ := n
  rw [orderChildFun, orderChildren_eq]

@[simp] theorem orderChildFun_ident (n : PNode) : (orderChildFun n).ident = n.ident := by
  obtain ⟨i, k, v, p, cs⟩ := n; rfl

@[simp] theorem orderChildFun_kind (n : PNode) : (orderChildFun n).kind = n.kind := by
  obtain ⟨i, k, v, p, cs⟩ := n; rfl

@[simp] theorem orderChildFun_value (n : PNode) : (orderChildFun n).value = n.value := by
  obtain ⟨i, k, v, p, cs⟩ := n; rfl

@[simp] theorem orderChildFun_parent (n : PNode) : (orderChildFun n).parent = n.parent := by
  obtain ⟨i, k, v, p, cs⟩ := n; rfl

theorem orderOperands_perm (cs : List PNode) : (orderOperands cs).Perm cs := by
  unfold orderOperands
  split_ifs
  · exact ((List.Perm.refl _).append (sorted_perm _ _)).trans (by rw [List.take_append_drop])
  · exact List.Perm.refl cs

/-! ## §4. `paren_parser`. -/

/-- `paren_parser(line)`. -/
def parenParser (line : String) : Option PNode := do
  let s ← parenLoop (Str.split (wrapLine line)) ParenState.init
  pure (orderChildFun s.tree)

end AwesomeNmt.Bashlint
