/-
  AwesomeNmt.Bashlint.Invariance — what `ast2tokens`, `ast2template` and `ast2list`
  do not see.

  Under `ignore_flag_order` a utility's children are visited sorted by value, and the
  sort is stable.  Two invariances follow, each for the tokens and for the list:

    * reordering the children of utilities, at any depth, changes nothing as long as
      the children of one value keep their order (`StableReorder`).  Children of one
      value are visited in the order they come, so swapping two of them shows;
    * under `arg_type_only` the literal value of an open-vocabulary argument is
      invisible, apart from its sign when its type is a quantity, as long as it sorts
      among its siblings where the old value did (`LiteralVariant`).  Where it sorts
      elsewhere, the argument types come out in another order.

  ## Main results

    * `ast2tokens_ast2list_stableReorder` — a stable reordering of utility children
      keeps the tokens and the list.
    * `ast2tokens_swap_same_flag` — swapping two `-name` options of `find` changes the
      tokens.
    * `ast2template_ast2list_literalVariant` — changing literal argument values, sign
      and sibling order kept, keeps the template and the list.
    * `ast2template_literal_reorders` — changing `cp`'s two literal arguments changes
      its template when they sort the other way.
-/
import AwesomeNmt.Bashlint.Linear

namespace AwesomeNmt.Bashlint

open AwesomeNmt.Python

/-! ## §1. Children seen through a function. -/

/-- Children that agree pointwise under `g`, with equal values, still agree once each
list is sorted by value. -/
theorem map_sorted_value_eq {γ : Type} {g g' : Node → γ} {ds cs : List Node}
    (h : List.Forall₂ (fun d c => g d = g' c ∧ d.value = c.value) ds cs) :
    (sorted (·.value) ds).map g = (sorted (·.value) cs).map g' := by
  refine map_sorted_eq_of_forall₂ (h.imp fun _ _ => And.left) fun ⟨d, c⟩ hp ⟨d', c'⟩ hq => ?_
  rw [((List.forall₂_iff_zip.mp h).2 hp).2, ((List.forall₂_iff_zip.mp h).2 hq).2]

/-- Children that agree pointwise under `g` agree as lists. -/
theorem map_eq_of_forall₂ {γ : Type} {g g' : Node → γ} {ds cs : List Node}
    (h : List.Forall₂ (fun d c => g d = g' c) ds cs) : ds.map g = cs.map g' := by
  rw [← List.forall₂_eq_eq_eq, List.forall₂_map_left_iff, List.forall₂_map_right_iff]
  exact h

/-! ## §2. Reordering the children of utilities. -/

/-- `T'` is `T` with the children of utility nodes reordered, at any depth, each
reordering keeping the children of one value in their order. -/
inductive StableReorder : Node → Node → Prop
  | node (k : Kind) (v ty : String) (ov : Bool) (p : Option ParentRef) (u : Option String)
      (a : Associativity) (sp : String) (ti : Bool) (i : Nat) (cs ds cs' : List Node)
      (hstable : ∀ w, cs.filter (·.value = w) = ds.filter (·.value = w))
      (hfix : k ≠ .utility → ds = cs)
      (hkids : List.Forall₂ StableReorder ds cs') :
      StableReorder ⟨k, v, ty, ov, p, u, a, sp, ti, i, cs⟩ ⟨k, v, ty, ov, p, u, a, sp, ti, i, cs'⟩

theorem StableReorder.refl : ∀ n : Node, StableReorder n n :=
  Node.induction fun ⟨k, v, ty, ov, p, u, a, sp, ti, i, cs⟩ ih =>
    .node k v ty ov p u a sp ti i cs cs cs (fun _ => rfl) (fun _ => rfl)
      (List.forall₂_same.mpr ih)

section Reorder

variable (reg : Registry) {f : Flags} (hf : f.ifo = true) (ato wpa wpr : Bool)
include hf

/-- A stable reordering keeps the tokens under `ignore_flag_order`, the token tree, and
the root's value. -/
theorem stableReorder_agree {T T' : Node} (h : StableReorder T T') :
    toTokensFun reg f T = toTokensFun reg f T' ∧
      shape T true ato wpa wpr = shape T' true ato wpa wpr ∧ T.value = T'.value := by
  refine @StableReorder.rec
    (fun T T' _ => toTokensFun reg f T = toTokensFun reg f T' ∧
      shape T true ato wpa wpr = shape T' true ato wpa wpr ∧ T.value = T'.value)
    (fun ds cs' _ => List.Forall₂ (fun T T' => toTokensFun reg f T = toTokensFun reg f T' ∧
      shape T true ato wpa wpr = shape T' true ato wpa wpr ∧ T.value = T'.value) ds cs')
    ?_ .nil (fun _ _ h₁ h₂ => .cons h₁ h₂) T T' h
  intro k v ty ov p u a sp ti i cs ds cs' hstable hfix _ ih
  have hsort : sorted (·.value) cs = sorted (·.value) ds := sorted_eq_of_filter_key hstable
  have hlen : cs.length = cs'.length := by
    rw [← (sorted_perm (·.value) cs).length_eq, hsort, (sorted_perm _ ds).length_eq]
    exact ih.length_eq
  -- the children in value order agree under the tokens and under the token tree
  have hsorted {γ : Type} (g : Node → γ) (hg : ∀ d c, toTokensFun reg f d = toTokensFun reg f c ∧
      shape d true ato wpa wpr = shape c true ato wpa wpr ∧ d.value = c.value → g d = g c) :
      (sorted (·.value) cs).map g = (sorted (·.value) cs').map g :=
    hsort ▸ map_sorted_value_eq (ih.imp fun d c h => ⟨hg d c h, h.2.2⟩)
  -- away from utilities the children stay in order
  have hinorder {γ : Type} (g : Node → γ) (hg : ∀ d c, toTokensFun reg f d = toTokensFun reg f c ∧
      shape d true ato wpa wpr = shape c true ato wpa wpr ∧ d.value = c.value → g d = g c)
      (hk : k ≠ .utility) : cs.map g = cs'.map g :=
    hfix hk ▸ map_eq_of_forall₂ (ih.imp fun d c h => hg d c h)
  refine ⟨?_, ?_, rfl⟩
  · rw [toTokensFun_eq, toTokensFun_eq,
      layout_parent_children reg f k v ty ov a sp ti i u rfl hlen]
    refine Layout.run_congr (fun hs => ?_) (fun _ => ?_)
    · have hk : k ≠ .utility := fun hk => by
        rw [layout_utility reg f hk] at hs
        simp [Layout.sorts, hf] at hs
      simpa using hinorder (toTokensFun reg f) (fun _ _ h => h.1) hk
    · rw [sorted_pairs_snd, sorted_pairs_snd]
      exact hsorted (toTokensFun reg f) fun _ _ h => h.1
  · rw [shape_eq, shape_eq]
    congr 1
    by_cases hk : k = .utility
    · simpa [visitOrder, hk] using hsorted (shape · true ato wpa wpr) fun _ _ h => h.2.1
    · simpa [visitOrder, hk] using hinorder (shape · true ato wpa wpr) (fun _ _ h => h.2.1) hk

end Reorder

/-- Under `ignore_flag_order`, a stable reordering of the children of utilities keeps
`ast2tokens` under every other setting, and `ast2list`. -/
theorem ast2tokens_ast2list_stableReorder (reg : Registry) {T T' : Node}
    (h : StableReorder T T') (lc ato kca wat wpar ia wp wpa wpr : Bool) :
    ast2tokens reg (some T') lc true ato kca wat wpar ia wp =
        ast2tokens reg (some T) lc true ato kca wat wpar ia wp ∧
      ast2list reg T' "dfs" [] true ato kca wpa wpr =
        ast2list reg T "dfs" [] true ato kca wpa wpr := by
  obtain ⟨htok, hshape, -⟩ :=
    stableReorder_agree reg (f := ⟨lc, true, ato, kca, wat, wp, ia⟩) rfl ato wpa wpr h
  exact ⟨htok.symm, by rw [ast2list_eq_encode, ast2list_eq_encode, hshape]⟩

/-- Swapping a `find`'s `-name` and `-type` options keeps its tokens and its list. -/
theorem ast2tokens_ast2list_stableReorder_find :
    let T : Node → Node → Node := fun c₁ c₂ => .mk' .root "" [.mk' .utility "find" [c₁, c₂]]
    let R : Registry := ⟨[], [], [], [], [], [], "<H>", "<V>"⟩
    StableReorder (T (.mk' .option "-name" []) (.mk' .option "-type" []))
        (T (.mk' .option "-type" []) (.mk' .option "-name" [])) ∧
      ast2tokens R (some (T (.mk' .option "-type" []) (.mk' .option "-name" [])))
          false true false false false false false false =
        ast2tokens R (some (T (.mk' .option "-name" []) (.mk' .option "-type" [])))
          false true false false false false false false ∧
      ast2list R (T (.mk' .option "-type" []) (.mk' .option "-name" [])) "dfs" []
          true false false false false =
        ast2list R (T (.mk' .option "-name" []) (.mk' .option "-type" [])) "dfs" []
          true false false false false := by
  intro T R
  have hswap : StableReorder (T (.mk' .option "-name" []) (.mk' .option "-type" []))
      (T (.mk' .option "-type" []) (.mk' .option "-name" [])) := by
    refine .node .root "" "" false none none .left "" false 0 _ _ _ (fun _ => rfl) (fun _ => rfl)
      (.cons (.node .utility "find" "" false none none .left "" false 0 _
        [.mk' .option "-type" [], .mk' .option "-name" []] _ (fun w => ?_) (absurd rfl)
        (.cons (.refl _) (.cons (.refl _) .nil))) .nil)
    by_cases hn : "-name" = w <;> by_cases ht : "-type" = w <;> simp_all [Node.mk']
  exact ⟨hswap, ast2tokens_ast2list_stableReorder R hswap false false false false false false
    false false false⟩

/-- Two `-name` options of `find`, swapped: their values tie, so the stable sort keeps
the order they come in, and the tokens change. -/
theorem ast2tokens_swap_same_flag :
    let o : String → Node := fun x => ⟨.option, "-name", "", false, some ⟨.utility, "find"⟩,
      some "find", .left, "", false, 0, [Node.arg "Regex" x true ⟨.option, "-name"⟩ "find"]⟩
    let T : Node → Node → Node := fun c₁ c₂ => .mk' .root "" [.mk' .utility "find" [c₁, c₂]]
    let R : Registry := ⟨[], [], [], [], [], [], "<H>", "<V>"⟩
    ast2tokens R (some (T (o "a") (o "b"))) false true false false false false false false =
        some ["find", "-name", "a", "-name", "b"] ∧
      ast2tokens R (some (T (o "b") (o "a"))) false true false false false false false false =
        some ["find", "-name", "b", "-name", "a"] := by
  decide

/-! ## §3. Changing literal argument values. -/

/-- `T'` is `T` with the literal values of open-vocabulary arguments changed: each to one
of the same sign (starting with `+`, with `-`, or with neither) where its type is a
quantity, and with the children of every utility comparing by value as before.  A
parent reference may name a changed argument. -/
inductive LiteralVariant (reg : Registry) : Node → Node → Prop
  | node (k : Kind) (v v' ty : String) (ov : Bool) (p p' : Option ParentRef)
      (u : Option String) (a : Associativity) (sp : String) (ti : Bool) (i : Nat)
      (cs cs' : List Node)
      (hv : v = v' ∨ k = .argument ∧ ov = true ∧ (ty ∈ reg.quantities →
        Str.startswith v "+" = Str.startswith v' "+" ∧
          Str.startswith v "-" = Str.startswith v' "-"))
      (hp : p.map (·.kind) = p'.map (·.kind))
      (horder : k = .utility → ∀ x ∈ cs.zip cs', ∀ y ∈ cs.zip cs',
        x.1.value.data ≤ y.1.value.data ↔ x.2.value.data ≤ y.2.value.data)
      (hkids : List.Forall₂ (LiteralVariant reg) cs cs') :
      LiteralVariant reg ⟨k, v, ty, ov, p, u, a, sp, ti, i, cs⟩
        ⟨k, v', ty, ov, p', u, a, sp, ti, i, cs'⟩

section Literal

variable (reg : Registry) {f : Flags}

/-- Under `arg_type_only`, without `keep_common_args`, an open-vocabulary argument's
token reads its value only for the sign of a quantity. -/
theorem argumentToken_literal (hato : f.ato = true) (hkca : f.kca = false)
    {v v' ty : String} (p p' : Option ParentRef) {u : Option String} {a : Associativity}
    {sp : String} {ti : Bool} {i : Nat} (cs cs' : List Node)
    (hv : ty ∈ reg.quantities → Str.startswith v "+" = Str.startswith v' "+" ∧
      Str.startswith v "-" = Str.startswith v' "-") :
    argumentToken reg f ⟨.argument, v, ty, true, p, u, a, sp, ti, i, cs⟩ =
      argumentToken reg f ⟨.argument, v', ty, true, p', u, a, sp, ti, i, cs'⟩ := by
  by_cases hq : ty ∈ reg.quantities
  · simp [argumentToken, hato, hkca, hq, (hv hq).1, (hv hq).2]
  · simp [argumentToken, hato, hkca, hq]

variable (hato : f.ato = true) (hkca : f.kca = false) (wpa wpr : Bool)
include hato hkca

/-- Literal variants have the same tokens under `arg_type_only`, and the same token tree
under `ignore_flag_order`. -/
theorem literalVariant_agree {T T' : Node} (h : LiteralVariant reg T T') :
    toTokensFun reg f T = toTokensFun reg f T' ∧
      shape T true true wpa wpr = shape T' true true wpa wpr := by
  refine @LiteralVariant.rec reg
    (fun T T' _ => toTokensFun reg f T = toTokensFun reg f T' ∧
      shape T true true wpa wpr = shape T' true true wpa wpr)
    (fun cs cs' _ => List.Forall₂ (fun T T' => toTokensFun reg f T = toTokensFun reg f T' ∧
      shape T true true wpa wpr = shape T' true true wpa wpr) cs cs')
    ?_ .nil (fun _ _ h₁ h₂ => .cons h₁ h₂) T T' h
  intro k v v' ty ov p p' u a sp ti i cs cs' hv hp horder _ ih
  have hlen : cs.length = cs'.length := ih.length_eq
  have hsome : p.isSome = p'.isSome := by simpa using congrArg Option.isSome hp
  -- the node's own case and token
  have hlayout : layout reg f ⟨k, v, ty, ov, p, u, a, sp, ti, i, cs⟩ =
      layout reg f ⟨k, v', ty, ov, p', u, a, sp, ti, i, cs'⟩ := by
    rcases hv with rfl | ⟨rfl, rfl, hq⟩
    · exact layout_parent_children reg f k v ty ov a sp ti i u hsome hlen
    · simp only [layout, hlen, argumentToken_literal reg hato hkca p p' cs cs' hq]
  have htoken : listToken ⟨k, v, ty, ov, p, u, a, sp, ti, i, cs⟩ true wpa wpr =
      listToken ⟨k, v', ty, ov, p', u, a, sp, ti, i, cs'⟩ true wpa wpr := by
    rcases hv with rfl | ⟨rfl, rfl, -⟩ <;> simp [listToken]
  -- at a utility the children sort alike
  have hsorted {γ : Type} (g : Node → γ) (hg : ∀ d c, toTokensFun reg f d = toTokensFun reg f c ∧
      shape d true true wpa wpr = shape c true true wpa wpr → g d = g c) (hk : k = .utility) :
      (sorted (·.value) cs).map g = (sorted (·.value) cs').map g :=
    map_sorted_eq_of_forall₂ (ih.imp hg) fun x hx y hy => by
      simpa only [String.le_iff_toList_le] using horder hk x hx y hy
  refine ⟨?_, ?_⟩
  · rw [toTokensFun_eq, toTokensFun_eq, hlayout]
    refine Layout.run_congr (fun _ => ?_) (fun hs => ?_)
    · simpa using map_eq_of_forall₂ (ih.imp fun _ _ h => h.1)
    · have hk : k = .utility := by
        by_contra hk
        rw [layout_sorts_of_ne reg f hk] at hs
        exact Bool.false_ne_true hs
      rw [sorted_pairs_snd, sorted_pairs_snd]
      exact hsorted (toTokensFun reg f) (fun _ _ h => h.1) hk
  · rw [shape_eq, shape_eq, htoken]
    congr 1
    by_cases hk : k = .utility
    · simpa [visitOrder, hk] using hsorted (shape · true true wpa wpr) (fun _ _ h => h.2) hk
    · simpa [visitOrder, hk] using map_eq_of_forall₂ (ih.imp fun _ _ h => h.2)

end Literal

/-- Literal variants have the same template, under either policy, and the same list,
both under `arg_type_only` and `ignore_flag_order`. -/
theorem ast2template_ast2list_literalVariant (reg : Registry) {T T' : Node}
    (h : LiteralVariant reg T T') (lc : Bool) :
    ast2template reg (some T) lc true true false = ast2template reg (some T') lc true true false ∧
      ast2list reg T "dfs" [] true true false false false =
        ast2list reg T' "dfs" [] true true false false false := by
  obtain ⟨htok, hshape⟩ := literalVariant_agree reg
    (f := ⟨lc, true, true, false, false, false, false⟩) rfl rfl false false h
  refine ⟨congrArg (Functor.map _) htok, ?_⟩
  rw [ast2list_eq_encode, ast2list_eq_encode, hshape]

/-- `cp` of a file `x` to a directory `y`, and of `u` to `w`: both keep their order, so
the template and the list are the same. -/
theorem ast2template_ast2list_literalVariant_cp :
    let P : ParentRef := ⟨.utility, "cp"⟩
    let T : String → String → Node := fun x y => .mk' .root "" [.mk' .utility "cp"
      [Node.arg "File" x true P "cp", Node.arg "Directory" y true P "cp"]]
    let R : Registry := ⟨["Number"], [], [], [], [], [], "<H>", "<V>"⟩
    LiteralVariant R (T "x" "y") (T "u" "w") ∧
      (ast2template R (some (T "x" "y")) false true true false =
          ast2template R (some (T "u" "w")) false true true false ∧
        ast2list R (T "x" "y") "dfs" [] true true false false false =
          ast2list R (T "u" "w") "dfs" [] true true false false false) := by
  intro P T R
  have hleaf (x y ty : String) (hty : ty ∉ R.quantities) :
      LiteralVariant R (Node.arg ty x true P "cp") (Node.arg ty y true P "cp") :=
    .node .argument x y ty true (some P) (some P) (some "cp") .left "" false 0 [] []
      (.inr ⟨rfl, rfl, fun hq => absurd hq hty⟩) rfl (fun h => absurd h (by decide)) .nil
  have hvar : LiteralVariant R (T "x" "y") (T "u" "w") :=
    .node .root "" "" "" false none none none .left "" false 0 _ _ (.inl rfl) rfl
      (fun h => absurd h (by decide))
      (.cons (.node .utility "cp" "cp" "" false none none none .left "" false 0 _ _ (.inl rfl)
        rfl (fun _ => by decide)
        (.cons (hleaf "x" "u" "File" (by decide)) (.cons (hleaf "y" "w" "Directory" (by decide))
          .nil))) .nil)
  exact ⟨hvar, ast2template_ast2list_literalVariant R hvar false⟩

/-- `cp` of a file `x` to a directory `y`, and of `z` to `a`: the arguments sort the
other way, and the argument types of the template change places. -/
theorem ast2template_literal_reorders :
    let P : ParentRef := ⟨.utility, "cp"⟩
    let T : String → String → Node := fun x y => .mk' .root "" [.mk' .utility "cp"
      [Node.arg "File" x true P "cp", Node.arg "Directory" y true P "cp"]]
    let R : Registry := ⟨["Number"], [], [], [], [], [], "<H>", "<V>"⟩
    ast2template R (some (T "x" "y")) false true true false = some "cp File Directory" ∧
      ast2template R (some (T "z" "a")) false true true false = some "cp Directory File" := by
  decide

end AwesomeNmt.Bashlint
