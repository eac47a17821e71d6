/-
  AwesomeNmt.Bashlint.Classify — `is_simple`, `is_low_frequency` and `get_utilities`
  (`data_tools`, l. 273–309).

  The two predicates walk the whole tree and test every utility node.  `get_utilities`
  collects the utility values but does not go below an argument node (`elif not
  node.is_argument()`), so it sees only the top nodes (`Node.topNodes`).  The Python
  set it returns is a list here; only membership is read.  On a tree with no utility
  node below an argument the three agree; a loose tree can hang a command under an
  argument, and there they do not.

  ## Main results

    * `isSimple_isLowFrequency_getUtilities` — on trees with no utility node below an
      argument, `is_simple` is `get_utilities ⊆ bash.utilities` and `is_low_frequency`
      is `get_utilities` meeting the low-frequency lists.
    * `getUtilities_of_isSimple_isLowFrequency` — on every tree, one direction of each.
    * `isSimple_utility_under_argument` — a utility under an argument is seen by the
      predicates and not by `get_utilities`.
-/
import AwesomeNmt.Bashlint.Node

namespace AwesomeNmt.Bashlint

/-! ## §1. The three walks. -/

mutual
/-- `is_simple(ast)`: no utility node outside `bash.utilities`. -/
def isSimple (reg : Registry) : Node → Bool
  | ⟨k, v, _, _, _, _, _, _, _, _, cs⟩ => !(k = .utility && v ∉ reg.utilities) && isSimpleList reg cs
/-- `is_simple` on each child, stopping at the first that fails. -/
def isSimpleList (reg : Registry) : List Node → Bool
  | [] => true
  | c :: cs => isSimple reg c && isSimpleList reg cs
end

/-- `bash.utilities_20_to_15 + bash.utilities_15_to_10`. -/
def lowFrequencyUtilities (reg : Registry) : List String :=
  reg.utilities20to15 ++ reg.utilities15to10

mutual
/-- `is_low_frequency(ast)`: some utility node in the low-frequency lists. -/
def isLowFrequency (reg : Registry) : Node → Bool
  | ⟨k, v, _, _, _, _, _, _, _, _, cs⟩ =>
    (k = .utility && v ∈ lowFrequencyUtilities reg) || isLowFrequencyList reg cs
/-- `is_low_frequency` on each child, stopping at the first that holds. -/
def isLowFrequencyList (reg : Registry) : List Node → Bool
  | [] => false
  | c :: cs => isLowFrequency reg c || isLowFrequencyList reg cs
end

mutual
/-- `get_utilities_fun(node)`: the utility's value and its children's utilities; below
another node that is not an argument, the children's utilities; below an argument,
nothing. -/
def getUtilitiesFun : Node → List String
  | ⟨k, v, _, _, _, _, _, _, _, _, cs⟩ =>
    if k = .utility then v :: getUtilitiesList cs
    else if k ≠ .argument then getUtilitiesList cs
    else []
/-- The union of `get_utilities_fun` over the children. -/
def getUtilitiesList : List Node → List String
  | [] => []
  | c :: cs => getUtilitiesFun c ++ getUtilitiesList cs
end

/-- `get_utilities(ast)`, the empty set for `None`. -/
def getUtilities : Option Node → List String
  | none => []
  | some n => getUtilitiesFun n

/-! ## §2. What each walk reads. -/

theorem isSimpleList_eq (reg : Registry) :
    ∀ cs : List Node, isSimpleList reg cs = cs.all (isSimple reg)
  | [] => rfl
  | c :: cs => by simp [isSimpleList, isSimpleList_eq reg cs]

theorem isLowFrequencyList_eq (reg : Registry) :
    ∀ cs : List Node, isLowFrequencyList reg cs = cs.any (isLowFrequency reg)
  | [] => rfl
  | c :: cs => by simp [isLowFrequencyList, isLowFrequencyList_eq reg cs]

theorem getUtilitiesList_eq : ∀ cs : List Node, getUtilitiesList cs = cs.flatMap getUtilitiesFun
  | [] => rfl
  | c :: cs => by simp [getUtilitiesList, getUtilitiesList_eq cs]

/-- `is_simple` tests every utility node of the tree. -/
theorem isSimple_iff (reg : Registry) :
    ∀ n : Node, isSimple reg n = true ↔ ∀ m ∈ n.nodes, m.kind = .utility → m.value ∈ reg.utilities :=
  Node.induction fun n ih => by
    obtain ⟨k, v, ty, ov, p, u, a, sp, ti, i, cs⟩ := n
    rw [isSimple, isSimpleList_eq, Node.nodes_eq]
    simp only [Bool.and_eq_true, Bool.not_eq_true', Bool.and_eq_false_iff, decide_eq_false_iff_not,
      List.all_eq_true, List.mem_cons, List.mem_flatMap, forall_eq_or_imp]
    refine and_congr ?_ ⟨fun h m ⟨c, hc, hm⟩ => (ih c hc).mp (h c hc) m hm,
      fun h c hc => (ih c hc).mpr fun m hm => h m ⟨c, hc, hm⟩⟩
    by_cases hk : k = .utility <;> simp [hk]

/-- `is_low_frequency` looks for one utility node of the tree in the low-frequency lists. -/
theorem isLowFrequency_iff (reg : Registry) :
    ∀ n : Node, isLowFrequency reg n = true ↔
      ∃ m ∈ n.nodes, m.kind = .utility ∧ m.value ∈ lowFrequencyUtilities reg :=
  Node.induction fun n ih => by
    obtain ⟨k, v, ty, ov, p, u, a, sp, ti, i, cs⟩ := n
    rw [isLowFrequency, isLowFrequencyList_eq, Node.nodes_eq]
    simp only [Bool.or_eq_true, Bool.and_eq_true, decide_eq_true_eq, List.any_eq_true,
      List.mem_cons, List.mem_flatMap, exists_eq_or_imp]
    refine or_congr Iff.rfl ⟨fun ⟨c, hc, h⟩ => ?_, fun ⟨m, ⟨c, hc, hm⟩, h⟩ =>
      ⟨c, hc, (ih c hc).mpr ⟨m, hm, h⟩⟩⟩
    obtain ⟨m, hm, h⟩ := (ih c hc).mp h
    exact ⟨m, ⟨c, hc, hm⟩, h⟩

/-- `get_utilities` collects the values of the utility nodes outside the arguments'
subtrees. -/
theorem mem_getUtilitiesFun (u : String) :
    ∀ n : Node, u ∈ getUtilitiesFun n ↔ ∃ m ∈ n.topNodes, m.kind = .utility ∧ m.value = u :=
  Node.induction fun n ih => by
    have hkids : u ∈ n.children.flatMap getUtilitiesFun ↔
        ∃ m ∈ n.children.flatMap Node.topNodes, m.kind = .utility ∧ m.value = u := by
      simp only [List.mem_flatMap]
      exact ⟨fun ⟨c, hc, h⟩ => (((ih c hc).mp h).imp fun m ⟨hm, h⟩ => ⟨⟨c, hc, hm⟩, h⟩),
        fun ⟨m, ⟨c, hc, hm⟩, h⟩ => ⟨c, hc, (ih c hc).mpr ⟨m, hm, h⟩⟩⟩
    obtain ⟨k, v, ty, ov, p, us, a, sp, ti, i, cs⟩ := n
    rw [getUtilitiesFun, getUtilitiesList_eq, Node.topNodes_eq]
    by_cases hu : k = .utility
    · subst hu
      simp only [↓reduceIte, List.mem_cons, exists_eq_or_imp, true_and, eq_comm (a := u)] at hkids ⊢
      exact or_congr Iff.rfl hkids
    · by_cases ha : k = .argument
      · subst ha
        simp
      · simp only [hu, ha, ↓reduceIte, ne_eq, not_false_eq_true, List.mem_cons,
          exists_eq_or_imp, false_and, false_or] at hkids ⊢
        exact hkids

/-! ## §3. Where the three agree. -/

/-- A node that is not an argument, or whose children hold no utility node. -/
def utilityFreeArgs (n : Node) : Bool :=
  n.kind != .argument || n.children.all fun c => c.nodes.all (·.kind != .utility)

/-- With no utility node below an argument, every utility node is a top node. -/
theorem mem_topNodes_of_utility :
    ∀ n : Node, n.All utilityFreeArgs → ∀ m ∈ n.nodes, m.kind = .utility → m ∈ n.topNodes :=
  Node.induction fun n ih hn m hm hu => by
    rw [Node.nodes_eq, List.mem_cons, List.mem_flatMap] at hm
    rw [Node.topNodes_eq, List.mem_cons]
    rcases hm with rfl | ⟨c, hc, hmc⟩
    · exact .inl rfl
    · by_cases ha : n.kind = .argument
      · have hfree := hn.self
        simp only [utilityFreeArgs, ha, bne_self_eq_false, Bool.false_or, List.all_eq_true,
          bne_iff_ne, ne_eq] at hfree
        exact absurd hu (hfree c hc m hmc)
      · simp only [ha, ↓reduceIte, List.mem_flatMap]
        exact .inr ⟨c, hc, ih c hc (hn.child hc) m hmc hu⟩

/-- A simple tree has its top utilities in `bash.utilities`. -/
theorem getUtilities_subset_of_isSimple {reg : Registry} {T : Node} (h : isSimple reg T = true) :
    ∀ u ∈ getUtilities (some T), u ∈ reg.utilities := by
  intro u hu
  obtain ⟨m, hm, hk, rfl⟩ := (mem_getUtilitiesFun u T).mp hu
  exact (isSimple_iff reg T).mp h m (Node.mem_nodes_of_mem_topNodes hm) hk

/-- A low-frequency top utility makes the tree low-frequency. -/
theorem isLowFrequency_of_getUtilities {reg : Registry} {T : Node}
    (h : ∃ u ∈ getUtilities (some T), u ∈ lowFrequencyUtilities reg) :
    isLowFrequency reg T = true := by
  obtain ⟨u, hu, hlow⟩ := h
  obtain ⟨m, hm, hk, rfl⟩ := (mem_getUtilitiesFun u T).mp hu
  exact (isLowFrequency_iff reg T).mpr ⟨m, Node.mem_nodes_of_mem_topNodes hm, hk, hlow⟩

/-- On a tree with no utility node below an argument, `is_simple` holds exactly when
`get_utilities` is a subset of `bash.utilities`, and `is_low_frequency` exactly when it
meets `bash.utilities_20_to_15 + bash.utilities_15_to_10`. -/
theorem isSimple_isLowFrequency_getUtilities (reg : Registry) (T : Node)
    (hT : T.All utilityFreeArgs) :
    (isSimple reg T = true ↔ ∀ u ∈ getUtilities (some T), u ∈ reg.utilities) ∧
      (isLowFrequency reg T = true ↔
        ∃ u ∈ getUtilities (some T), u ∈ lowFrequencyUtilities reg) := by
  refine ⟨⟨getUtilities_subset_of_isSimple, fun h => (isSimple_iff reg T).mpr fun m hm hk => ?_⟩,
    ⟨fun h => ?_, isLowFrequency_of_getUtilities⟩⟩
  · exact h m.value ((mem_getUtilitiesFun _ T).mpr ⟨m, mem_topNodes_of_utility T hT m hm hk, hk, rfl⟩)
  · obtain ⟨m, hm, hk, hlow⟩ := (isLowFrequency_iff reg T).mp h
    exact ⟨m.value, (mem_getUtilitiesFun _ T).mpr
      ⟨m, mem_topNodes_of_utility T hT m hm hk, hk, rfl⟩, hlow⟩

/-- `ls x`: no utility below the argument. -/
theorem isSimple_isLowFrequency_getUtilities_ls :
    let T : Node := .mk' .utility "ls" [.mk' .argument "x" []]
    T.All utilityFreeArgs ∧
      ((isSimple ⟨[], [], ["ls"], [], [], [], "", ""⟩ T = true ↔
          ∀ u ∈ getUtilities (some T), u ∈ ["ls"]) ∧
        (isLowFrequency ⟨[], [], ["ls"], [], [], [], "", ""⟩ T = true ↔
          ∃ u ∈ getUtilities (some T), u ∈ lowFrequencyUtilities ⟨[], [], ["ls"], [], [], [], "", ""⟩)) :=
  ⟨by decide, isSimple_isLowFrequency_getUtilities _ _ (by decide)⟩

/-- On every tree, a simple tree has its top utilities in `bash.utilities`, and a
low-frequency top utility makes the tree low-frequency. -/
theorem getUtilities_of_isSimple_isLowFrequency (reg : Registry) (T : Node) :
    (isSimple reg T = true → ∀ u ∈ getUtilities (some T), u ∈ reg.utilities) ∧
      ((∃ u ∈ getUtilities (some T), u ∈ lowFrequencyUtilities reg) →
        isLowFrequency reg T = true) :=
  ⟨getUtilities_subset_of_isSimple, isLowFrequency_of_getUtilities⟩

/-- `ls` with an argument holding the utility `foo`, a low-frequency utility outside
`bash.utilities`: `is_simple` fails and `is_low_frequency` holds, while `get_utilities`
is `{ls}`, inside `bash.utilities` and outside the low-frequency lists. -/
theorem isSimple_utility_under_argument :
    let reg : Registry := ⟨[], [], ["ls"], [], ["foo"], [], "", ""⟩
    let T : Node := .mk' .utility "ls" [.mk' .argument "x" [.mk' .utility "foo" []]]
    isSimple reg T = false ∧ (∀ u ∈ getUtilities (some T), u ∈ reg.utilities) ∧
      isLowFrequency reg T = true ∧ ¬ ∃ u ∈ getUtilities (some T), u ∈ lowFrequencyUtilities reg := by
  decide

end AwesomeNmt.Bashlint
