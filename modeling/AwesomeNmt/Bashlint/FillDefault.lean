/-
  AwesomeNmt.Bashlint.FillDefault — `fill_default_value` (`data_tools`, l. 312–332).

  `fill_default_value` rewrites, in place, the value of every argument node outside the
  arguments' subtrees whose value is an entity marker (`constants._ENTITIES`), by its type
  and context: `.` for a Path under find, `'.*'` for a Regex under grep, `"*"` for the
  Regex `Regex` under `-name`, `10` for a Number under head or tail, and `[type]` for any
  other open-vocabulary argument.  Here the walk returns the rewritten tree; an unset
  `parent` or `utility` it reads raises, which is `none`.  The Regex case has no `else`:
  a Regex argument under any other parent keeps its entity value, where a Path or a Number
  in another context falls through to `[type]`.

  ## Main results

    * `fillDefaultValue_valueEdit` — with the references it reads set, the walk returns,
      changes only the values of arguments that were entities (`ValueEdit`), and leaves
      an entity value on an open-vocabulary top argument only as a Regex outside grep and
      `-name`.
    * `fillDefaultValue_keeps_regex` — a Regex under sed keeps its entity value, where a
      File beside it becomes `[file]`.
    * `fillDefaultValue_idem` — filling a filled tree returns it unchanged.
-/
import Mathlib.Data.List.Forall2
import AwesomeNmt.Bashlint.Node
import AwesomeNmt.Python.Str

namespace AwesomeNmt.Bashlint

open AwesomeNmt.Python

/-! ## §1. The value written into one argument. -/

/-- `node.arg_type == 'Path' and node.parent.is_utility() and node.parent.value == 'find'`:
the parent is read only for a Path. -/
def isFindPath (n : Node) : Option Bool :=
  if n.argType = "Path" then n.parent.map fun p => p.kind = .utility && p.value = "find"
  else some false

/-- `node.arg_type == 'Number' and node.utility.value in ['head', 'tail']`: the utility is
read only for a Number. -/
def isHeadNumber (n : Node) : Option Bool :=
  if n.argType = "Number" then n.utility.map fun u => u ∈ ["head", "tail"] else some false

/-- The value of a Regex argument under the parent `p`: `'.*'` under grep, `"*"` for the
value `Regex` under `-name`, and its own value otherwise. -/
def regexValue (n : Node) (p : ParentRef) : String :=
  if p.kind = .utility ∧ p.value = "grep" then "\x27.*\x27"
  else if p.kind = .option ∧ p.value = "-name" ∧ n.value = "Regex" then "\"*\""
  else n.value

/-- The value `fill_default_value` leaves in the argument node `n`. -/
def fillValue (reg : Registry) (n : Node) : Option String :=
  if n.value ∈ reg.entities then
    (isFindPath n).bind fun findPath =>
      if findPath then some "."
      else if n.argType = "Regex" then n.parent.map (regexValue n)
      else (isHeadNumber n).map fun headNumber =>
        if headNumber then "10"
        else if n.openVocab then "[" ++ Str.lower n.argType ++ "]"
        else n.value
  else some n.value

mutual
/-- `fill_default_value(node)`: an argument gets its value filled; any other node has
its children filled in turn. -/
def fillDefaultValue (reg : Registry) : Node → Option Node
  | ⟨k, v, ty, ov, p, u, a, sp, ti, i, cs⟩ =>
    if k = .argument then
      (fun v' => ⟨k, v', ty, ov, p, u, a, sp, ti, i, cs⟩) <$>
        fillValue reg ⟨k, v, ty, ov, p, u, a, sp, ti, i, cs⟩
    else (fun cs' => ⟨k, v, ty, ov, p, u, a, sp, ti, i, cs'⟩) <$> fillChildren reg cs
/-- `for child in node.children: fill_default_value(child)`. -/
def fillChildren (reg : Registry) : List Node → Option (List Node)
  | [] => some []
  | c :: cs => (fillDefaultValue reg c).bind fun c' => (c' :: ·) <$> fillChildren reg cs
end

/-! ## §2. What the walk may change. -/

/-- The two trees differ at most in the values of argument nodes whose value was an
entity: kinds, types, references, children and every other value are as before. -/
inductive ValueEdit (reg : Registry) : Node → Node → Prop
  | node {k : Kind} {v v' ty : String} {ov : Bool} {p : Option ParentRef} {u : Option String}
      {a : Associativity} {sp : String} {ti : Bool} {i : Nat} {cs cs' : List Node} :
      (v' = v ∨ k = .argument ∧ v ∈ reg.entities) → List.Forall₂ (ValueEdit reg) cs cs' →
      ValueEdit reg ⟨k, v, ty, ov, p, u, a, sp, ti, i, cs⟩ ⟨k, v', ty, ov, p, u, a, sp, ti, i, cs'⟩

theorem ValueEdit.refl (reg : Registry) : ∀ n : Node, ValueEdit reg n n :=
  Node.induction fun ⟨_, _, _, _, _, _, _, _, _, _, _⟩ ih => .node (.inl rfl) (List.forall₂_same.mpr ih)

/-- The defaults `fill_default_value` writes into an argument of type `ty`. -/
def defaultValues (ty : String) : List String :=
  [".", "\x27.*\x27", "\"*\"", "10", "[" ++ Str.lower ty ++ "]"]

/-- A Regex argument whose parent is neither the utility grep nor the option `-name`
over the value `Regex`: the case with no default. -/
def regexFallThrough (n : Node) : Bool :=
  n.argType = "Regex" && n.parent ≠ some ⟨.utility, "grep"⟩ &&
    !(n.parent = some ⟨.option, "-name"⟩ && n.value = "Regex")

/-- An open-vocabulary argument still holding an entity value is a Regex with no default,
or holds a default. -/
def Filled (reg : Registry) (m : Node) : Prop :=
  m.kind = .argument → m.openVocab = true → m.value ∈ reg.entities →
    regexFallThrough m = true ∨ m.value ∈ defaultValues m.argType

/-- What `fill_default_value` reads through an argument: its `parent`, and its `utility`
if it is a Number. -/
def refsSet (n : Node) : Bool :=
  n.kind != .argument || n.parent.isSome && (n.argType != "Number" || n.utility.isSome)

/-! ## §3. One argument. -/

section Value

variable {reg : Registry} {n : Node} {v' : String}

theorem fillValue_of_not_mem (h : n.value ∉ reg.entities) : fillValue reg n = some n.value := by
  simp [fillValue, h]

theorem fillValue_eq_or_entity (h : fillValue reg n = some v') :
    v' = n.value ∨ n.value ∈ reg.entities :=
  (em _).symm.imp (fun hv => (Option.some.inj ((fillValue_of_not_mem hv).symm.trans h)).symm) id

/-- With its references set, an argument's value never raises. -/
theorem fillValue_isSome (hk : n.kind = .argument) (hn : refsSet n = true) :
    (fillValue reg n).isSome := by
  simp only [refsSet, hk, bne_self_eq_false, Bool.false_or, Bool.and_eq_true, Bool.or_eq_true,
    bne_iff_ne, ne_eq, Option.isSome_iff_exists] at hn
  obtain ⟨⟨p, hp⟩, hu⟩ := hn
  obtain ⟨f, hf⟩ : ∃ f, isFindPath n = some f := by unfold isFindPath; split_ifs <;> simp [hp]
  obtain ⟨b, hb⟩ : ∃ b, isHeadNumber n = some b := by
    unfold isHeadNumber
    split_ifs with hN
    · obtain ⟨u, hu⟩ := hu.resolve_left (not_not.mpr hN)
      simp [hu]
    · simp
  simp only [fillValue, hf, hb, hp, Option.some_bind, Option.map_some', apply_ite Option.isSome,
    Option.isSome_some, ite_self]

/-- The value left in an argument is its own, a default, or an entity Regex with no
default. -/
theorem fillValue_filled (h : fillValue reg n = some v') : Filled reg { n with value := v' } := by
  rintro _ (hov : n.openVocab = true) hv'
  by_cases hv : n.value ∈ reg.entities
  swap
  · rw [fillValue_of_not_mem hv, Option.some.injEq] at h
    exact absurd (h ▸ hv') hv
  rw [fillValue, if_pos hv] at h
  obtain ⟨fp, -, h⟩ := Option.bind_eq_some.mp h
  cases fp with
  | true => cases h; simp [defaultValues]
  | false =>
    by_cases hre : n.argType = "Regex"
    · rw [if_neg Bool.false_ne_true, if_pos hre] at h
      obtain ⟨⟨pk, pv⟩, hp, rfl⟩ := Option.map_eq_some'.mp h
      unfold regexValue
      split_ifs with hg hname
      · simp [defaultValues]
      · simp [defaultValues]
      · left
        have hfall : (¬pk = .utility ∨ ¬pv = "grep") ∧
            ((¬pk = .option ∨ ¬pv = "-name") ∨ ¬n.value = "Regex") :=
          ⟨not_and_or.mp hg, or_assoc.mpr ((not_and_or.mp hname).imp_right not_and_or.mp)⟩
        simpa [regexFallThrough, hre, hp] using hfall
    · rw [if_neg Bool.false_ne_true, if_neg hre] at h
      obtain ⟨hn, -, rfl⟩ := Option.map_eq_some'.mp h
      right
      cases hn <;> simp [defaultValues, hov]

/-- Filling a Regex twice under the same parent writes what filling it once did. -/
theorem regexValue_idem (p : ParentRef) :
    regexValue { n with value := regexValue n p } p = regexValue n p := by
  by_cases hg : p.kind = .utility ∧ p.value = "grep"
  · simp only [regexValue, if_pos hg]
  · by_cases hname : p.kind = .option ∧ p.value = "-name" ∧ n.value = "Regex"
    · have hstar : ¬(p.kind = .option ∧ p.value = "-name" ∧ "\"*\"" = "Regex") :=
        fun h => absurd h.2.2 (by decide)
      simp only [regexValue, if_neg hg, if_pos hname, if_neg hstar]
    · simp only [regexValue, if_neg hg, if_neg hname]

/-- The value left in an argument is left as it is by a second fill: the type and the
references that chose it are unchanged. -/
theorem fillValue_idem (h : fillValue reg n = some v') :
    fillValue reg { n with value := v' } = some v' := by
  by_cases hv' : v' ∈ reg.entities
  swap
  · exact fillValue_of_not_mem hv'
  by_cases hv : n.value ∈ reg.entities
  swap
  · rw [fillValue_of_not_mem hv, Option.some.injEq] at h
    exact absurd (h ▸ hv') hv
  rw [fillValue, if_pos hv] at h
  obtain ⟨fp, hfp, h⟩ := Option.bind_eq_some.mp h
  rw [fillValue, if_pos hv']
  refine Option.bind_eq_some.mpr ⟨fp, hfp, ?_⟩
  cases fp with
  | true => exact h
  | false =>
    by_cases hre : n.argType = "Regex"
    · rw [if_neg Bool.false_ne_true, if_pos hre] at h ⊢
      obtain ⟨p, hp, rfl⟩ := Option.map_eq_some'.mp h
      exact Option.map_eq_some'.mpr ⟨p, hp, regexValue_idem p⟩
    · rw [if_neg Bool.false_ne_true, if_neg hre] at h ⊢
      obtain ⟨hn, hhn, rfl⟩ := Option.map_eq_some'.mp h
      exact Option.map_eq_some'.mpr
        ⟨hn, hhn, by cases hn <;> by_cases hov : n.openVocab = true <;> simp [hov]⟩

end Value

/-! ## §4. The walk. -/

section Walk

variable (reg : Registry)

/-- The children are filled in turn, and each returns its own result. -/
theorem fillChildren_eq_some {R : Node → Node → Prop} {Q : Node → Prop} :
    ∀ {cs : List Node}, (∀ c ∈ cs, ∃ c', fillDefaultValue reg c = some c' ∧ R c c' ∧ Q c') →
      ∃ cs', fillChildren reg cs = some cs' ∧ List.Forall₂ R cs cs' ∧ ∀ c' ∈ cs', Q c'
  | [], _ => ⟨[], rfl, .nil, fun _ h => absurd h (List.not_mem_nil _)⟩
  | c :: cs, h => by
    obtain ⟨c', hc, hR, hQ⟩ := h c (List.mem_cons_self c cs)
    obtain ⟨cs', hcs, hRs, hQs⟩ := fillChildren_eq_some fun d hd => h d (List.mem_cons_of_mem c hd)
    exact ⟨c' :: cs', by simp [fillChildren, hc, hcs], .cons hR hRs,
      List.forall_mem_cons.mpr ⟨hQ, hQs⟩⟩

/-- With the references it reads set at every argument, `fill_default_value` returns; it
changes only the values of arguments that were entities; and an open-vocabulary argument
outside the arguments' subtrees keeps an entity value only as a Regex with no default. -/
theorem fillDefaultValue_valueEdit (T : Node) (hT : T.All refsSet) :
    ∃ T', fillDefaultValue reg T = some T' ∧ ValueEdit reg T T' ∧
      ∀ m ∈ T'.topNodes, Filled reg m := by
  induction T using Node.induction with
  | h n ih =>
  obtain ⟨k, v, ty, ov, p, u, a, sp, ti, i, cs⟩ := n
  by_cases hk : k = .argument
  · subst hk
    obtain ⟨v', hv'⟩ := Option.isSome_iff_exists.mp (@fillValue_isSome reg _ rfl hT.self)
    refine ⟨_, by rw [fillDefaultValue, if_pos rfl, hv']; rfl,
      .node ((fillValue_eq_or_entity hv').imp_right (⟨rfl, ·⟩))
        (List.forall₂_same.mpr fun c _ => ValueEdit.refl reg c), ?_⟩
    simpa [Node.topNodes_eq] using fillValue_filled hv'
  · obtain ⟨cs', hcs, hR, hQ⟩ := fillChildren_eq_some reg (R := ValueEdit reg)
      (Q := fun c' => ∀ m ∈ c'.topNodes, Filled reg m) fun c hc => ih c hc (hT.child hc)
    refine ⟨_, by simp [fillDefaultValue, hk, hcs], .node (.inl rfl) hR, ?_⟩
    rw [Node.topNodes_eq]
    simp only [hk, ↓reduceIte, List.mem_cons, List.mem_flatMap]
    rintro m (rfl | ⟨c', hc', hm⟩)
    · exact fun hm => absurd hm hk
    · exact hQ c' hc' m hm

/-- A Number placeholder under head. -/
theorem fillDefaultValue_valueEdit_head :
    let reg : Registry := ⟨[], [], ["head"], [], [], ["Number"], "", ""⟩
    let T := Node.mk' .utility "head" [Node.arg "Number" "Number" true ⟨.utility, "head"⟩ "head"]
    T.All refsSet ∧ ∃ T', fillDefaultValue reg T = some T' ∧ ValueEdit reg T T' ∧
      ∀ m ∈ T'.topNodes, Filled reg m :=
  ⟨by decide, fillDefaultValue_valueEdit _ _ (by decide)⟩

/-- The same tree, filled: the Number under head becomes 10. -/
example : (fillDefaultValue ⟨[], [], ["head"], [], [], ["Number"], "", ""⟩
    (Node.mk' .utility "head" [Node.arg "Number" "Number" true ⟨.utility, "head"⟩ "head"])).map
      (fun T => T.children.map Node.value) = some ["10"] := by
  decide

/-- Under sed, a Regex placeholder keeps its entity value where a File placeholder beside
it becomes [file]: an open-vocabulary top argument still holds an entity. -/
theorem fillDefaultValue_keeps_regex :
    let reg : Registry := ⟨[], [], ["sed"], [], [], ["File", "Regex"], "", ""⟩
    let T := Node.mk' .root "root" [Node.mk' .utility "sed"
      [Node.arg "Regex" "Regex" true ⟨.utility, "sed"⟩ "sed",
        Node.arg "File" "File" true ⟨.utility, "sed"⟩ "sed"]]
    T.All refsSet ∧ ∃ T', fillDefaultValue reg T = some T' ∧
      (T'.topNodes.filter (·.kind = .argument)).map Node.value = ["Regex", "[file]"] ∧
      ∃ m ∈ T'.topNodes, m.kind = .argument ∧ m.openVocab = true ∧ m.value ∈ reg.entities :=
  ⟨by decide, _, rfl, by decide, by decide⟩

/-! ## §5. Filling twice. -/

theorem fillChildren_idem :
    ∀ {cs cs' : List Node}, (∀ c ∈ cs, ∀ c', fillDefaultValue reg c = some c' →
      fillDefaultValue reg c' = some c') → fillChildren reg cs = some cs' →
        fillChildren reg cs' = some cs'
  | [], _, _, h => by cases h; rfl
  | c :: cs, cs', ih, h => by
    simp only [fillChildren, Option.bind_eq_some, Option.map_eq_map, Option.map_eq_some'] at h
    obtain ⟨c', hc, cs'', hcs, rfl⟩ := h
    simp [fillChildren, ih c (List.mem_cons_self c cs) c' hc,
      fillChildren_idem (fun d hd => ih d (List.mem_cons_of_mem c hd)) hcs]

/-- `fill_default_value` on a tree it has filled leaves it as it is. -/
theorem fillDefaultValue_idem (T T' : Node) (h : fillDefaultValue reg T = some T') :
    fillDefaultValue reg T' = some T' := by
  induction T using Node.induction generalizing T' with
  | h n ih =>
  obtain ⟨k, v, ty, ov, p, u, a, sp, ti, i, cs⟩ := n
  by_cases hk : k = .argument
  · subst hk
    simp only [fillDefaultValue, if_pos, Option.map_eq_map, Option.map_eq_some'] at h
    obtain ⟨v', hv', rfl⟩ := h
    simp [fillDefaultValue, fillValue_idem hv']
  · simp only [fillDefaultValue, hk, if_false, Option.map_eq_map, Option.map_eq_some'] at h
    obtain ⟨cs', hcs, rfl⟩ := h
    simp [fillDefaultValue, hk, fillChildren_idem reg (fun c hc => ih c hc) hcs]

/-- The Number under head, filled to 10 and filled again. -/
theorem fillDefaultValue_idem_head :
    let reg : Registry := ⟨[], [], ["head"], [], [], ["Number"], "", ""⟩
    let T := Node.mk' .utility "head" [Node.arg "Number" "Number" true ⟨.utility, "head"⟩ "head"]
    let T' := Node.mk' .utility "head" [Node.arg "Number" "10" true ⟨.utility, "head"⟩ "head"]
    fillDefaultValue reg T = some T' ∧ fillDefaultValue reg T' = some T' :=
  by
  intro reg T T'
  exact ⟨rfl, fillDefaultValue_idem reg T T' rfl⟩

end Walk

end AwesomeNmt.Bashlint
