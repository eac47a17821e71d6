/-
  AwesomeNmt.Bashlint.Node — the bash AST `data_tools` walks, and the tables it reads.

  `nast` (the node classes) and the `bash`/`constants` tables are imported by
  `data_tools` but are not among the repository's files.  A node is therefore the
  record of exactly the attributes `data_tools` reads: `kind`, `value`, `arg_type`,
  `is_open_vocab()`, `parent`, `utility`, `associate`, `simple_prefix`, `to_index()`,
  `index` and `children`.  The back-references are what `data_tools` reads through
  them: whether `parent` is set and the parent's kind and value, and the value of the
  `utility` node.  The tables are the parameters of `Registry`.

  The walk lemmas here (`Node.induction`, `Node.nodes`, `Node.All`) are shared by
  every module over the tree.
-/
import Mathlib.Data.List.Basic

namespace AwesomeNmt.Bashlint

/-! ## §1. Nodes. -/

/-- The twelve node kinds `to_tokens_fun` tells apart (`is_root`, `is_utility`,
`is_option`, `is_argument` test the kind). -/
inductive Kind
  | root | pipeline | utility | option | argument | binarylogicop | unarylogicop
  | bracket | commandsubstitution | processsubstitution | nt | t
  deriving DecidableEq, Repr

/-- `nast.UnaryLogicOpNode.LEFT` / `RIGHT`. -/
inductive Associativity
  | left | right
  deriving DecidableEq, Repr

/-- What `data_tools` reads through a node's `parent` reference. -/
structure ParentRef where
  kind : Kind
  value : String
  deriving DecidableEq, Repr

/-- A node of the bash AST, with the attributes `data_tools` reads. -/
structure Node where
  kind : Kind
  value : String
  argType : String
  /-- `node.is_open_vocab()`. -/
  openVocab : Bool
  parent : Option ParentRef
  /-- `node.utility.value`, `none` when `node.utility` is not set. -/
  utility : Option String
  associate : Associativity
  simplePrefix : String
  /-- `node.to_index()`. -/
  toIndex : Bool
  index : Nat
  children : List Node
  deriving Repr

/-- The module-level tables `data_tools` reads: `constants._QUANTITIES`,
`bash.common_arguments`, `bash.utilities`, `bash.utilities_20_to_15`,
`bash.utilities_15_to_10`, `constants._ENTITIES`, `nast._H_NO_EXPAND` and
`nast._V_NO_EXPAND`. -/
structure Registry where
  quantities : List String
  commonArguments : List String
  utilities : List String
  utilities20to15 : List String
  utilities15to10 : List String
  entities : List String
  hNoExpand : String
  vNoExpand : String

namespace Node

/-- A node of kind `k` and value `v` over `cs`, every other attribute unset. -/
def mk' (k : Kind) (v : String) (cs : List Node) : Node :=
  ⟨k, v, "", false, none, none, .left, "", false, 0, cs⟩

/-- An argument node of type `ty` and value `v` under the utility `u`, parent `p`. -/
def arg (ty v : String) (openVocab : Bool) (p : ParentRef) (u : String) : Node :=
  ⟨.argument, v, ty, openVocab, some p, some u, .left, "", false, 0, []⟩

/-! ## §2. Walking the tree. -/

/-- Induction over the tree: a property of every child gives it of the node. -/
theorem induction {P : Node → Prop} (h : ∀ n, (∀ c ∈ n.children, P c) → P n) :
    ∀ n, P n :=
  @Node.rec P (fun cs => ∀ c ∈ cs, P c)
    (fun k v ty ov p u a sp ti i cs ih => h ⟨k, v, ty, ov, p, u, a, sp, ti, i, cs⟩ ih)
    (fun _ h => absurd h (List.not_mem_nil _))
    (fun c cs hc hcs d hd => by
      rcases List.mem_cons.mp hd with rfl | hd
      exacts [hc, hcs d hd])

mutual
/-- Every node of the tree, in preorder. -/
def nodes : Node → List Node
  | ⟨k, v, ty, ov, p, u, a, sp, ti, i, cs⟩ => ⟨k, v, ty, ov, p, u, a, sp, ti, i, cs⟩ :: nodesList cs
/-- The nodes of each tree of `cs`, in order. -/
def nodesList : List Node → List Node
  | [] => []
  | c :: cs => nodes c ++ nodesList cs
end

theorem nodesList_eq : ∀ cs : List Node, nodesList cs = cs.flatMap nodes
  | [] => rfl
  | c :: cs => by simp [nodesList, nodesList_eq cs]

theorem nodes_eq (n : Node) : n.nodes = n :: n.children.flatMap nodes := by
  obtain ⟨k, v, ty, ov, p, u, a, sp, ti, i, cs⟩ := n
  simp [nodes, nodesList_eq]

mutual
/-- The nodes outside every argument's subtree, in preorder: an argument node is listed,
the nodes below it are not. -/
def topNodes : Node → List Node
  | ⟨k, v, ty, ov, p, u, a, sp, ti, i, cs⟩ =>
    ⟨k, v, ty, ov, p, u, a, sp, ti, i, cs⟩ :: if k = .argument then [] else topNodesList cs
/-- The top nodes of each tree of `cs`, in order. -/
def topNodesList : List Node → List Node
  | [] => []
  | c :: cs => topNodes c ++ topNodesList cs
end

theorem topNodesList_eq : ∀ cs : List Node, topNodesList cs = cs.flatMap topNodes
  | [] => rfl
  | c :: cs => by simp [topNodesList, topNodesList_eq cs]

theorem topNodes_eq (n : Node) :
    n.topNodes = n :: if n.kind = .argument then [] else n.children.flatMap topNodes := by
  obtain ⟨k, v, ty, ov, p, u, a, sp, ti, i, cs⟩ := n
  simp [topNodes, topNodesList_eq]

theorem mem_nodes_of_mem_topNodes : ∀ {n m : Node}, m ∈ n.topNodes → m ∈ n.nodes :=
  fun {n} => Node.induction (P := fun n => ∀ m, m ∈ n.topNodes → m ∈ n.nodes)
    (fun n ih m hm => by
      rw [topNodes_eq] at hm
      rw [nodes_eq, List.mem_cons, List.mem_flatMap]
      rcases List.mem_cons.mp hm with rfl | hm
      · exact .inl rfl
      · split_ifs at hm with hk
        · simp at hm
        · obtain ⟨c, hc, hmc⟩ := List.mem_flatMap.mp hm
          exact .inr ⟨c, hc, ih c hc m hmc⟩) n _

/-- `p` holds at every node of the tree. -/
def All (p : Node → Bool) (n : Node) : Prop := ∀ m ∈ n.nodes, p m = true

instance (p : Node → Bool) (n : Node) : Decidable (All p n) :=
  inferInstanceAs (Decidable (∀ m ∈ n.nodes, p m = true))

theorem all_iff {p : Node → Bool} {n : Node} :
    All p n ↔ p n = true ∧ ∀ c ∈ n.children, All p c := by
  simp only [All, nodes_eq n, List.mem_cons, List.mem_flatMap, forall_eq_or_imp]
  exact and_congr_right fun _ => ⟨fun h c hc m hm => h m ⟨c, hc, hm⟩,
    fun h m ⟨c, hc, hm⟩ => h c hc m hm⟩

theorem All.self {p : Node → Bool} {n : Node} (h : All p n) : p n = true := (all_iff.mp h).1

theorem All.child {p : Node → Bool} {n c : Node} (h : All p n) (hc : c ∈ n.children) :
    All p c := (all_iff.mp h).2 c hc

end Node

end AwesomeNmt.Bashlint
