/-
  AwesomeNmt.Bashlint.Linear — `ast2list` (`data_tools`, l. 238–265) and the sentinel
  encoding it writes.

  `ast2list` writes a node's token, then, when the node has children, every child's
  list (sorted by value at a utility under `ignore_flag_order`) and
  `nast._H_NO_EXPAND`, and otherwise `nast._V_NO_EXPAND`.  Each recursive call
  appends to the one `_list`; the model pairs each child with what it appends, which
  gives the same list (`ast2list_append`).

  ## Main results

    * `ast2list_eq_encode` — `ast2list` is the preorder sentinel encoding of `shape`,
      the rose tree of the tokens it writes.
    * `encode_append_inj` — the encoding of a tree followed by any suffix determines
      both, when no token is a sentinel.
    * `ast2list_eq_iff_shape_eq` — two trees write the same list iff they have the
      same shape.
-/
import AwesomeNmt.Bashlint.Tokens

namespace AwesomeNmt.Bashlint

open AwesomeNmt.Python

/-! ## §1. `ast2list`. -/

/-- The token `ast2list` writes for `node` itself. -/
def listToken (node : Node) (argTypeOnly withParent withPrefix : Bool) : String :=
  let token :=
    if node.kind = .argument && node.openVocab && argTypeOnly then node.argType
    else if node.kind = .option && withParent then
      match node.utility with
      | some u => u ++ "@@" ++ node.value
      | none => node.value
    else node.value
  if withPrefix && (node.kind = .option || (node.kind = .argument && node.openVocab)) then
    node.simplePrefix ++ token
  else token

/-- The children in the order `ast2list` and `to_tokens_fun` visit them. -/
def visitOrder (sort : Bool) (cs : List Node) : List Node :=
  if sort then sorted (·.value) cs else cs

theorem visitOrder_perm (sort : Bool) (cs : List Node) : (visitOrder sort cs).Perm cs := by
  cases sort
  exacts [List.Perm.refl cs, sorted_perm _ cs]

theorem mem_visitOrder {sort : Bool} {cs : List Node} {c : Node} :
    c ∈ visitOrder sort cs ↔ c ∈ cs :=
  (visitOrder_perm sort cs).mem_iff

/-- One call of `ast2list` on `node`, given each child paired with the list its own
call appends. -/
def listEmit (reg : Registry) (node : Node) (order : String) (_list : List String)
    (ignoreFlagOrder argTypeOnly withParent withPrefix : Bool)
    (kids : List (Node × List String)) : List String :=
  if order = "dfs" then
    let _list := _list ++ [listToken node argTypeOnly withParent withPrefix]
    if node.children.length > 0 then
      let kids := if node.kind = .utility && ignoreFlagOrder then sorted (·.1.value) kids
        else kids
      _list ++ (kids.map Prod.snd).flatten ++ [reg.hNoExpand]
    else _list ++ [reg.vNoExpand]
  else _list

mutual
/-- `ast2list(node, order, _list, ignore_flag_order, arg_type_only, keep_common_args,
with_parent, with_prefix)`. -/
def ast2list (reg : Registry) : Node → String → List String →
    Bool → Bool → Bool → Bool → Bool → List String
  | ⟨k, v, ty, ov, p, u, a, sp, ti, i, cs⟩, order, _list, ifo, ato, kca, wpa, wpr =>
    listEmit reg ⟨k, v, ty, ov, p, u, a, sp, ti, i, cs⟩ order _list ifo ato wpa wpr
      (listChildren reg cs order ifo ato kca wpa wpr)
/-- Each child paired with what `ast2list` appends for it. -/
def listChildren (reg : Registry) : List Node → String →
    Bool → Bool → Bool → Bool → Bool → List (Node × List String)
  | [], _, _, _, _, _, _ => []
  | c :: cs, order, ifo, ato, kca, wpa, wpr =>
    (c, ast2list reg c order [] ifo ato kca wpa wpr) ::
      listChildren reg cs order ifo ato kca wpa wpr
end

section Walk

variable (reg : Registry) (order : String) (ifo ato kca wpa wpr : Bool)

theorem listChildren_eq : ∀ cs : List Node,
    listChildren reg cs order ifo ato kca wpa wpr =
      cs.map fun c => (c, ast2list reg c order [] ifo ato kca wpa wpr)
  | [] => rfl
  | c :: cs => by simp [listChildren, listChildren_eq cs]

theorem ast2list_eq (n : Node) (l : List String) :
    ast2list reg n order l ifo ato kca wpa wpr =
      listEmit reg n order l ifo ato wpa wpr
        (n.children.map fun c => (c, ast2list reg c order [] ifo ato kca wpa wpr)) := by
  obtain ⟨k, v, ty, ov, p, u, a, sp, ti, i, cs⟩ := n
  rw [ast2list, listChildren_eq]

/-- Appending to `_list` is the only thing `ast2list` does with it. -/
theorem ast2list_append (n : Node) (l : List String) :
    ast2list reg n order l ifo ato kca wpa wpr = l ++ ast2list reg n order [] ifo ato kca wpa wpr := by
  rw [ast2list_eq, ast2list_eq reg order ifo ato kca wpa wpr n []]
  simp only [listEmit]
  split_ifs <;> simp

end Walk

/-! ## §2. Rose trees of tokens and their sentinel encoding. -/

/-- A rose tree of tokens. -/
inductive Rose where
  | node (label : String) (children : List Rose)

namespace Rose

mutual
/-- The preorder encoding with `h` after a node's children and `v` for a leaf. -/
def encode (h v : String) : Rose → List String
  | node t [] => [t, v]
  | node t (c :: cs) => t :: encodeList h v (c :: cs) ++ [h]
/-- The encodings of the trees of a list, one after the other. -/
def encodeList (h v : String) : List Rose → List String
  | [] => []
  | c :: cs => encode h v c ++ encodeList h v cs
end

mutual
/-- The tokens of a tree, in preorder. -/
def labels : Rose → List String
  | node t cs => t :: labelsList cs
/-- The tokens of the trees of a list. -/
def labelsList : List Rose → List String
  | [] => []
  | c :: cs => labels c ++ labelsList cs
end

theorem encodeList_eq (h v : String) :
    ∀ cs : List Rose, encodeList h v cs = cs.flatMap (encode h v)
  | [] => rfl
  | c :: cs => by simp [encodeList, encodeList_eq h v cs]

theorem labelsList_eq : ∀ cs : List Rose, labelsList cs = cs.flatMap labels
  | [] => rfl
  | c :: cs => by simp [labelsList, labelsList_eq cs]

theorem encode_node (h v t : String) (cs : List Rose) :
    encode h v (node t cs) =
      t :: (if cs.isEmpty then [v] else cs.flatMap (encode h v) ++ [h]) := by
  cases cs <;> simp [encode, encodeList_eq]

theorem labels_node (t : String) (cs : List Rose) :
    labels (node t cs) = t :: cs.flatMap labels := by
  simp [labels, labelsList_eq]

/-- The root's token. -/
def label : Rose → String
  | node t _ => t

/-- No token of the tree is a sentinel. -/
def NoSentinel (h v : String) (r : Rose) : Prop := ∀ t ∈ r.labels, t ≠ h ∧ t ≠ v

instance (h v : String) (r : Rose) : Decidable (NoSentinel h v r) :=
  inferInstanceAs (Decidable (∀ t ∈ r.labels, t ≠ h ∧ t ≠ v))

theorem NoSentinel.root {h v : String} {r : Rose} (hs : NoSentinel h v r) :
    r.label ≠ h ∧ r.label ≠ v := by
  obtain ⟨t, cs⟩ := r
  exact hs t (by simp [labels_node])

theorem NoSentinel.child {h v t : String} {cs : List Rose} {c : Rose}
    (hs : NoSentinel h v (node t cs)) (hc : c ∈ cs) : NoSentinel h v c :=
  fun s hsc => hs s (by
    simp only [labels_node, List.mem_cons, List.mem_flatMap]; exact .inr ⟨c, hc, hsc⟩)

/-- An encoding starts with the root's token. -/
theorem encode_eq_cons (h v : String) (r : Rose) : ∃ rest, encode h v r = r.label :: rest := by
  obtain ⟨t, cs⟩ := r
  exact ⟨_, encode_node h v t cs⟩

/-- A list of encodings followed by `h` starts with a sentinel exactly when it is
empty. -/
theorem flatMap_encode_append_eq_cons {h v : String} {cs : List Rose} {s : List String}
    (hs : ∀ c ∈ cs, NoSentinel h v c) :
    ∃ x rest, cs.flatMap (encode h v) ++ h :: s = x :: rest ∧ (x = h ↔ cs = []) := by
  rcases cs with _ | ⟨c, cs⟩
  · exact ⟨h, s, rfl, by simp⟩
  · obtain ⟨rest, hr⟩ := encode_eq_cons h v c
    exact ⟨c.label, rest ++ (cs.flatMap (encode h v) ++ h :: s), by simp [hr],
      by simpa using (hs c (List.mem_cons_self _ _)).root.1⟩

/-- Prefix cancellation: the encoding of a tree without sentinel tokens, followed by
any suffix, determines the tree and the suffix. -/
theorem encode_append_inj (h v : String) (r₁ : Rose) :
    ∀ (r₂ : Rose) (s₁ s₂ : List String), NoSentinel h v r₁ → NoSentinel h v r₂ →
      encode h v r₁ ++ s₁ = encode h v r₂ ++ s₂ → r₁ = r₂ ∧ s₁ = s₂ := by
  refine @Rose.rec
    (fun r₁ => ∀ (r₂ : Rose) (s₁ s₂ : List String), NoSentinel h v r₁ →
      NoSentinel h v r₂ → encode h v r₁ ++ s₁ = encode h v r₂ ++ s₂ → r₁ = r₂ ∧ s₁ = s₂)
    (fun cs₁ => ∀ (cs₂ : List Rose) (s₁ s₂ : List String),
      (∀ c ∈ cs₁, NoSentinel h v c) → (∀ c ∈ cs₂, NoSentinel h v c) →
      cs₁.flatMap (encode h v) ++ h :: s₁ = cs₂.flatMap (encode h v) ++ h :: s₂ →
        cs₁ = cs₂ ∧ s₁ = s₂) ?_ ?_ ?_ r₁
  · -- a node: equal tokens, then a leaf on both sides or children on both sides
    rintro t₁ cs₁ ih ⟨t₂, cs₂⟩ s₁ s₂ hs₁ hs₂ he
    simp only [encode_node, List.cons_append, List.cons.injEq] at he
    obtain ⟨rfl, he⟩ := he
    have hv : ∀ {c : Rose} {cs : List Rose}, NoSentinel h v (node t₁ (c :: cs)) →
        ∀ rest, c.label :: rest ≠ [v] ++ s₁ ∧ c.label :: rest ≠ [v] ++ s₂ := fun hs rest =>
      ⟨fun e => (hs.child (List.mem_cons_self _ _)).root.2 (List.cons.inj e).1,
        fun e => (hs.child (List.mem_cons_self _ _)).root.2 (List.cons.inj e).1⟩
    rcases cs₁ with _ | ⟨c₁, cs₁⟩ <;> rcases cs₂ with _ | ⟨c₂, cs₂⟩
    · simpa using he
    · obtain ⟨rest, hr⟩ := encode_eq_cons h v c₂
      simp only [List.isEmpty_nil, List.isEmpty_cons, ↓reduceIte, Bool.false_eq_true,
        List.flatMap_cons, List.append_assoc, hr, List.cons_append] at he
      exact absurd he.symm ((hv hs₂ _).1)
    · obtain ⟨rest, hr⟩ := encode_eq_cons h v c₁
      simp only [List.isEmpty_nil, List.isEmpty_cons, ↓reduceIte, Bool.false_eq_true,
        List.flatMap_cons, List.append_assoc, hr, List.cons_append] at he
      exact absurd he ((hv hs₁ _).2)
    · simp only [List.isEmpty_cons, Bool.false_eq_true, ↓reduceIte, List.append_assoc,
        List.singleton_append] at he
      obtain ⟨hcs, rfl⟩ := ih (c₂ :: cs₂) s₁ s₂ (fun c hc => hs₁.child hc)
        (fun c hc => hs₂.child hc) he
      exact ⟨by rw [hcs], rfl⟩
  · -- no children left on the left: the next token is `h` on both sides
    rintro cs₂ s₁ s₂ - hs₂ he
    obtain ⟨x, rest, hx, hxh⟩ := flatMap_encode_append_eq_cons (s := s₂) hs₂
    rw [hx, List.flatMap_nil, List.nil_append] at he
    obtain ⟨rfl, rfl⟩ := List.cons.inj he
    obtain rfl := hxh.mp rfl
    exact ⟨rfl, by simpa using hx.symm⟩
  · -- a first child on the left: the right side has one too, and they agree
    rintro c₁ cs₁ ihc ihs cs₂ s₁ s₂ hs₁ hs₂ he
    rcases cs₂ with _ | ⟨c₂, cs₂⟩
    · obtain ⟨x, rest, hx, hxh⟩ := flatMap_encode_append_eq_cons (s := s₁) hs₁
      rw [hx, List.flatMap_nil, List.nil_append] at he
      exact absurd (hxh.mp (List.cons.inj he).1) (List.cons_ne_nil _ _)
    · simp only [List.flatMap_cons, List.append_assoc] at he
      obtain ⟨rfl, hrest⟩ := ihc c₂ _ _ (hs₁ c₁ (List.mem_cons_self _ _))
        (hs₂ c₂ (List.mem_cons_self _ _)) he
      obtain ⟨rfl, rfl⟩ := ihs cs₂ s₁ s₂ (fun c hc => hs₁ c (List.mem_cons_of_mem _ hc))
        (fun c hc => hs₂ c (List.mem_cons_of_mem _ hc)) hrest
      exact ⟨rfl, rfl⟩

end Rose

/-! ## §3. `ast2list` is the encoding of the token tree. -/

mutual
/-- The rose tree of the tokens `ast2list` writes, children in the order it visits
them. -/
def shape : Node → Bool → Bool → Bool → Bool → Rose
  | ⟨k, v, ty, ov, p, u, a, sp, ti, i, cs⟩, ifo, ato, wpa, wpr =>
    .node (listToken ⟨k, v, ty, ov, p, u, a, sp, ti, i, cs⟩ ato wpa wpr)
      ((if k = .utility && ifo then sorted (·.1.value) (shapeChildren cs ifo ato wpa wpr)
        else shapeChildren cs ifo ato wpa wpr).map Prod.snd)
/-- Each child paired with its shape. -/
def shapeChildren : List Node → Bool → Bool → Bool → Bool → List (Node × Rose)
  | [], _, _, _, _ => []
  | c :: cs, ifo, ato, wpa, wpr => (c, shape c ifo ato wpa wpr) :: shapeChildren cs ifo ato wpa wpr
end

section Shape

variable (reg : Registry) (ifo ato kca wpa wpr : Bool)

theorem shapeChildren_eq : ∀ cs : List Node,
    shapeChildren cs ifo ato wpa wpr = cs.map fun c => (c, shape c ifo ato wpa wpr)
  | [] => rfl
  | c :: cs => by simp [shapeChildren, shapeChildren_eq cs]

theorem shape_eq (n : Node) :
    shape n ifo ato wpa wpr = .node (listToken n ato wpa wpr)
      ((visitOrder (n.kind = .utility && ifo) n.children).map fun c => shape c ifo ato wpa wpr) := by
  obtain ⟨k, v, ty, ov, p, u, a, sp, ti, i, cs⟩ := n
  rw [shape, shapeChildren_eq, visitOrder]
  split_ifs <;> simp [sorted_pair Node.value]

theorem listEmit_dfs (n : Node) (g : Node → List String) :
    listEmit reg n "dfs" [] ifo ato wpa wpr (n.children.map fun c => (c, g c)) =
      listToken n ato wpa wpr :: if n.children.isEmpty then [reg.vNoExpand] else
        ((visitOrder (n.kind = .utility && ifo) n.children).map g).flatten ++ [reg.hNoExpand] := by
  have key : (if n.kind = .utility && ifo then
        sorted (·.1.value) (n.children.map fun c => (c, g c))
        else n.children.map fun c => (c, g c)).map Prod.snd =
      (visitOrder (n.kind = .utility && ifo) n.children).map g := by
    unfold visitOrder; split_ifs <;> simp [sorted_pair Node.value]
  simp only [listEmit, ↓reduceIte, key]
  rcases n.children with _ | ⟨c, cs⟩ <;> simp

/-- `ast2list` writes the sentinel encoding of the token tree. -/
theorem ast2list_eq_encode (n : Node) :
    ast2list reg n "dfs" [] ifo ato kca wpa wpr =
      (shape n ifo ato wpa wpr).encode reg.hNoExpand reg.vNoExpand := by
  induction n using Node.induction with
  | h n ih =>
    rw [ast2list_eq, listEmit_dfs, shape_eq, Rose.encode_node]
    have hmap : (visitOrder (n.kind = .utility && ifo) n.children).map
          (fun c => ast2list reg c "dfs" [] ifo ato kca wpa wpr) =
        (visitOrder (n.kind = .utility && ifo) n.children).map
          (fun c => (shape c ifo ato wpa wpr).encode reg.hNoExpand reg.vNoExpand) :=
      List.map_congr_left fun c hc => ih c (mem_visitOrder.mp hc)
    have hempty : ((visitOrder (n.kind = .utility && ifo) n.children).map
        fun c => shape c ifo ato wpa wpr).isEmpty = n.children.isEmpty := by
      rw [Bool.eq_iff_iff, List.isEmpty_iff_length_eq_zero, List.isEmpty_iff_length_eq_zero,
        List.length_map, (visitOrder_perm _ _).length_eq]
    rw [hmap, hempty, List.flatMap_map, List.flatMap]

/-- Two trees without sentinel tokens write the same list exactly when their token
trees are equal. -/
theorem ast2list_eq_iff_shape_eq (T₁ T₂ : Node)
    (h₁ : (shape T₁ ifo ato wpa wpr).NoSentinel reg.hNoExpand reg.vNoExpand)
    (h₂ : (shape T₂ ifo ato wpa wpr).NoSentinel reg.hNoExpand reg.vNoExpand) :
    ast2list reg T₁ "dfs" [] ifo ato kca wpa wpr = ast2list reg T₂ "dfs" [] ifo ato kca wpa wpr ↔
      shape T₁ ifo ato wpa wpr = shape T₂ ifo ato wpa wpr := by
  rw [ast2list_eq_encode, ast2list_eq_encode]
  refine ⟨fun he => (Rose.encode_append_inj _ _ _ _ [] [] h₁ h₂ (by simpa using he)).1,
    fun he => by rw [he]⟩

/-- `ls -a` and `ls` have no sentinel tokens, so their lists agree exactly when their
token trees do. -/
theorem ast2list_eq_iff_shape_eq_ls :
    ast2list ⟨[], [], [], [], [], [], "<H>", "<V>"⟩ (.mk' .utility "ls" [.mk' .option "-a" []])
        "dfs" [] true true false false false =
      ast2list ⟨[], [], [], [], [], [], "<H>", "<V>"⟩ (.mk' .utility "ls" [])
        "dfs" [] true true false false false ↔
      shape (.mk' .utility "ls" [.mk' .option "-a" []]) true true false false =
        shape (.mk' .utility "ls" []) true true false false :=
  ast2list_eq_iff_shape_eq _ _ _ _ _ _ _ _ (by decide) (by decide)

end Shape

end AwesomeNmt.Bashlint
