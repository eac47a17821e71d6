/-
  AwesomeNmt.Bashlint.Policy — strict and loose `ast2tokens`: when each raises, and
  where they agree.

  Under `loose_constraints=False` every node kind asserts an arity (`strictArity`).
  Besides the asserts, `to_tokens_fun` can fail only at an option node: the two-way
  unpacking of `value.split('::')` (`execSplits`) and `node.utility.value` under
  `with_prefix` (`utilityRef`).

  ## Main results

    * `ast2tokens_eq_none_iff` — on trees whose option nodes pass those two reads,
      `ast2tokens` raises exactly under the strict policy on a tree breaking an arity.
    * `ast2tokens_loose_eq_strict` — on a tree passing every strict assert, with no
      bracket of one child, the loose and strict policies write the same tokens.
    * `ast2tokens_single_bracket` — a bracket of one child passes every strict assert,
      and the loose policy writes it without its escaped parentheses.
    * `ast2tokens_loose_exec_three_parts` — an `-exec` value with two `::` raises under
      either policy.
-/
import AwesomeNmt.Bashlint.Tokens

namespace AwesomeNmt.Bashlint

open AwesomeNmt.Python

/-! ## §1. What each node needs. -/

/-- The arity `to_tokens_fun` asserts at a node under `loose_constraints=False`. -/
def strictArity (n : Node) : Bool :=
  let count := n.children.length
  match n.kind with
  | .root => count == 1
  | .pipeline => count > 1
  | .commandsubstitution | .processsubstitution => count == 1
  | .utility => true
  | .option => n.parent.isSome
  | .binarylogicop | .unarylogicop => count == 0
  | .bracket => count ≥ 1
  | .nt => count > 0
  | .argument | .t => count == 0

/-- An option node with a parent has its `utility` set. -/
def utilityRef (n : Node) : Bool := !(n.kind == .option && n.parent.isSome) || n.utility.isSome

/-- A `-exec`/`-ok` option value holding `::` holds it once, so `split('::')` unpacks. -/
def execSplits (n : Node) : Bool :=
  !(n.kind == .option && execMarked n.value) || (splitExec n.value).isSome

/-- A bracket node with exactly one child. -/
def singleBracket (n : Node) : Bool := n.kind == .bracket && n.children.length == 1

theorem execToken_ne_none {n : Node} (hk : n.kind = .option) (hs : execSplits n = true) :
    execToken n.value ≠ none := by
  simp only [execSplits, hk, beq_self_eq_true, Bool.true_and, Bool.or_eq_true,
    Bool.not_eq_true'] at hs
  unfold execToken
  cases hm : execMarked n.value <;> simp_all [Option.isSome_iff_ne_none]

theorem parentToken_ne_none {f : Flags} {n : Node} (hk : n.kind = .option)
    (hr : utilityRef n = true) (t : String) : parentToken f n t ≠ none := by
  simp only [utilityRef, hk, beq_self_eq_true, Bool.true_and, Bool.or_eq_true,
    Bool.not_eq_true'] at hr
  unfold parentToken
  cases f.wp <;> cases hp : n.parent.isSome <;> simp_all [Option.isSome_iff_ne_none]

theorem optionToken_ne_none {f : Flags} {n : Node} (hk : n.kind = .option)
    (hr : utilityRef n = true) (hs : execSplits n = true) : optionToken f n ≠ none := by
  unfold optionToken
  obtain ⟨⟨t, tr⟩, ht⟩ := Option.ne_none_iff_exists'.mp (execToken_ne_none hk hs)
  obtain ⟨t', ht'⟩ := Option.ne_none_iff_exists'.mp (parentToken_ne_none (f := f) hk hr t)
  simp [ht, ht']

/-! ## §2. Layouts that return, and layouts that fail with a child. -/

namespace Layout

/-- The layout returns once every child it reads has: it does not fail, and what it
takes the first of, or puts separators between, is not empty. -/
def Total (count : Nat) : Layout → Bool
  | fail => false
  | const _ | concat .. => true
  | head .. | join .. => count != 0

/-- The layout reads each of `count` children. -/
def ReadsAll (count : Nat) : Layout → Bool
  | fail | concat .. | join .. => true
  | const _ => count == 0
  | head .. => count == 1

variable (kids : List (Node × Option (List String)))

/-- Children that all return give the tokens of a total layout. -/
theorem run_ne_none {l : Layout} (hl : l.Total kids.length = true)
    (hall : none ∉ kids.map Prod.snd) : l.run kids ≠ none := by
  have hcat : concatTokens (kids.map Prod.snd) ≠ none := by rwa [ne_eq, concatTokens_eq_none]
  have hcatS : concatTokens ((sorted (·.1.value) kids).map Prod.snd) ≠ none := by
    rwa [ne_eq, concatTokens_perm_eq_none ((sorted_perm _ kids).map Prod.snd)]
  cases l with
  | fail => simp [Total] at hl
  | const ts => simp [run]
  | concat srt pre post => cases srt <;> simpa [run] using ‹_›
  | head pre post =>
    obtain ⟨⟨c, r⟩, rest, rfl⟩ := List.exists_cons_of_ne_nil (by simpa [Total] using hl)
    simpa [run, headTokens] using fun h : r = none => hall (by simp [h])
  | join sep pre post =>
    simpa [run, joinTokens_eq_none, hall] using List.ne_nil_of_length_pos
      (Nat.pos_of_ne_zero (by simpa [Total] using hl))

/-- A layout that reads every child fails with any of them. -/
theorem run_eq_none {l : Layout} (hl : l.ReadsAll kids.length = true)
    (hnone : none ∈ kids.map Prod.snd) : l.run kids = none := by
  have hcat : concatTokens (kids.map Prod.snd) = none := concatTokens_eq_none.mpr hnone
  have hcatS : concatTokens ((sorted (·.1.value) kids).map Prod.snd) = none := by
    rwa [concatTokens_perm_eq_none ((sorted_perm _ kids).map Prod.snd)]
  cases l with
  | fail => rfl
  | const ts =>
    obtain rfl : kids = [] := List.length_eq_zero.mp (by simpa [ReadsAll] using hl)
    simp at hnone
  | concat srt pre post => cases srt <;> simp [run, hcat, hcatS]
  | head pre post =>
    obtain ⟨⟨c, r⟩, rfl⟩ := List.length_eq_one.mp (by simpa [ReadsAll] using hl)
    obtain rfl : r = none := by simpa [eq_comm] using hnone
    rfl
  | join sep pre post => simp [run, joinTokens_eq_none.mpr (.inr hnone)]

/-- With one child, writing all children is writing the first. -/
theorem run_concat_eq_head {pre post : List String} (h : kids.length = 1) :
    (concat false pre post).run kids = (head pre post).run kids := by
  obtain ⟨⟨c, r⟩, rfl⟩ := List.length_eq_one.mp h
  cases r <;> simp [run, headTokens]

end Layout

/-! ## §3. The case of each kind under each policy. -/

section Cases

variable (reg : Registry) (f : Flags) (n : Node)

/-- A failed assert raises. -/
theorem layout_eq_fail (hlc : f.lc = false) (hn : strictArity n = false) :
    layout reg f n = .fail := by
  unfold layout
  cases hk : n.kind <;> simp_all [strictArity]

/-- A node that passes its assert and its own reads has a total layout. -/
theorem layout_total (hmode : f.lc = true ∨ strictArity n = true) (hr : utilityRef n = true)
    (hs : execSplits n = true) : (layout reg f n).Total n.children.length = true := by
  unfold layout
  cases hk : n.kind
  case option =>
    obtain ⟨⟨t, tr⟩, ht⟩ := Option.ne_none_iff_exists'.mp (optionToken_ne_none (f := f) hk hr hs)
    cases hlc : f.lc <;> simp_all [strictArity, Layout.Total]
  all_goals
    simp only [strictArity, hk] at hmode
    generalize n.children.length = m at hmode ⊢
    cases hlc : f.lc <;> simp only [hlc, apply_ite (Layout.Total m), Bool.true_or,
      Bool.false_or, Bool.not_true, Bool.true_and, Bool.false_and, Bool.false_eq_true, ↓reduceIte,
      true_or, false_or] at hmode ⊢ <;> simp only [Layout.Total] <;> simp_all <;> omega

/-- Under the strict policy every case reads all of its children. -/
theorem layout_readsAll (hlc : f.lc = false) :
    (layout reg f n).ReadsAll n.children.length = true := by
  unfold layout
  generalize n.children.length = m
  cases hk : n.kind <;>
    simp only [hlc, Bool.false_or, Bool.false_and, Bool.false_eq_true, ↓reduceIte]
  case option => split <;> (try split) <;> rfl
  all_goals (try split_ifs) <;> simp_all [Layout.ReadsAll]

/-- Where a node passes its strict assert and is not a bracket of one child, the loose
and strict cases write the same tokens from the same children. -/
theorem run_layout_loose_eq_strict (hn : strictArity n = true) (hb : singleBracket n = false)
    (kids : List (Node × Option (List String))) (hlen : kids.length = n.children.length) :
    (layout reg { f with lc := true } n).run kids =
      (layout reg { f with lc := false } n).run kids := by
  unfold layout
  cases hk : n.kind
  case root =>
    simp only [strictArity, hk] at hn
    simpa [(beq_iff_eq.mp hn)] using Layout.run_concat_eq_head kids (hlen.trans (beq_iff_eq.mp hn))
  all_goals
    simp only [strictArity, singleBracket, hk] at hn hb
    generalize n.children.length = m at hn hb hlen
    simp only [Bool.true_or, Bool.false_or, Bool.not_true, Bool.true_and, Bool.false_and,
      Bool.false_eq_true, ↓reduceIte, optionToken_with_lc, argumentToken_with_lc]
  all_goals rcases m with _ | _ | m <;> simp_all [Nat.lt_succ_iff] <;> rfl

end Cases

/-! ## §4. Whole trees. -/

section Trees

variable (reg : Registry)

/-- Where every node passes its assert (or the policy is loose) and its own reads,
`to_tokens_fun` returns. -/
theorem toTokensFun_ne_none (f : Flags) :
    ∀ n : Node, (f.lc = true ∨ n.All strictArity) → n.All utilityRef → n.All execSplits →
      toTokensFun reg f n ≠ none :=
  Node.induction fun n ih hmode hr hs => by
    rw [toTokensFun_eq]
    refine Layout.run_ne_none _ ?_ ?_
    · simpa using layout_total reg f n (hmode.imp_right Node.All.self) hr.self hs.self
    · simp only [List.map_map, Function.comp_def, List.mem_map, not_exists, not_and]
      exact fun c hc h => ih c hc (hmode.imp_right (·.child hc)) (hr.child hc) (hs.child hc) h

/-- Under the strict policy a node anywhere in the tree breaking its assert raises. -/
theorem toTokensFun_strict_eq_none {f : Flags} (hlc : f.lc = false) :
    ∀ n : Node, ¬ n.All strictArity → toTokensFun reg f n = none :=
  Node.induction fun n ih hn => by
    rw [toTokensFun_eq]
    cases ha : strictArity n
    · rw [layout_eq_fail reg f n hlc ha]; rfl
    · rw [Node.all_iff, ha] at hn
      obtain ⟨c, hc, hcn⟩ : ∃ c ∈ n.children, ¬ c.All strictArity := by simpa using hn
      refine Layout.run_eq_none _ (by simpa using layout_readsAll reg f n hlc) ?_
      exact List.mem_map.mpr ⟨(c, none), List.mem_map.mpr ⟨c, hc, by rw [ih c hc hcn]⟩, rfl⟩

/-- On a tree passing every strict assert, with no bracket of one child, the loose and
strict policies write the same tokens. -/
theorem toTokensFun_loose_eq_strict (f : Flags) :
    ∀ n : Node, n.All strictArity → n.All (fun m => !singleBracket m) →
      toTokensFun reg { f with lc := true } n = toTokensFun reg { f with lc := false } n :=
  Node.induction fun n ih hn hb => by
    rw [toTokensFun_eq, toTokensFun_eq,
      run_layout_loose_eq_strict reg f n hn.self (by simpa using hb.self) _ (by simp)]
    exact congrArg (Layout.run · _) (List.map_congr_left fun c hc => by
      rw [ih c hc (hn.child hc) (hb.child hc)])

end Trees

/-! ## §5. `ast2tokens` under the two policies. -/

/-- On trees whose option nodes pass their reads of `utility` and of `split('::')`,
`ast2tokens` raises exactly under the strict policy on a tree breaking an assert. -/
theorem ast2tokens_eq_none_iff (reg : Registry) (T : Node) (hr : T.All utilityRef)
    (hs : T.All execSplits) (lc ifo ato kca wat wpar ia wp : Bool) :
    ast2tokens reg (some T) lc ifo ato kca wat wpar ia wp = none ↔
      lc = false ∧ ¬ T.All strictArity := by
  constructor
  · intro h
    by_contra hc
    refine toTokensFun_ne_none reg _ T ?_ hr hs h
    cases lc <;> simp_all
  · rintro ⟨rfl, hn⟩
    exact toTokensFun_strict_eq_none reg rfl T hn

/-- A pipeline of one command raises under the strict policy. -/
theorem ast2tokens_single_pipeline_raises :
    ast2tokens ⟨[], [], [], [], [], [], "", ""⟩
      (some (.mk' .root "" [.mk' .pipeline "|" [.mk' .utility "ls" []]]))
      false false false false false false false false = none :=
  (ast2tokens_eq_none_iff _ _ (by decide) (by decide) ..).mpr ⟨rfl, by decide⟩

/-- An option `-exec::a::b` under `find` has its `utility` set, yet `ast2tokens`
raises under the loose policy: `split('::')` gives three parts. -/
theorem ast2tokens_loose_exec_three_parts :
    let opt : Node := ⟨.option, "-exec::a::b", "", false, some ⟨.utility, "find"⟩,
      some "find", .left, "", false, 0, []⟩
    let T : Node := .mk' .root "" [.mk' .utility "find" [opt]]
    T.All utilityRef ∧ T.All strictArity ∧
      ast2tokens ⟨[], [], [], [], [], [], "", ""⟩ (some T)
        true false false false false false false false = none := by
  decide

/-- On a tree passing every strict assert, with no bracket of one child, the loose and
strict policies of `ast2tokens` write the same tokens. -/
theorem ast2tokens_loose_eq_strict (reg : Registry) (T : Node) (hn : T.All strictArity)
    (hb : T.All (fun m => !singleBracket m)) (ifo ato kca wat wpar ia wp : Bool) :
    ast2tokens reg (some T) true ifo ato kca wat wpar ia wp =
      ast2tokens reg (some T) false ifo ato kca wat wpar ia wp :=
  toTokensFun_loose_eq_strict reg ⟨true, ifo, ato, kca, wat, wp, ia⟩ T hn hb

/-- `ls` under a root writes the same tokens under both policies. -/
theorem ast2tokens_loose_eq_strict_ls :
    ast2tokens ⟨[], [], [], [], [], [], "", ""⟩ (some (.mk' .root "" [.mk' .utility "ls" []]))
        true false false false false false false false =
      ast2tokens ⟨[], [], [], [], [], [], "", ""⟩ (some (.mk' .root "" [.mk' .utility "ls" []]))
        false false false false false false false false :=
  ast2tokens_loose_eq_strict _ _ (by decide) (by decide) ..

/-- A bracket of one child passes every strict assert, and the loose policy drops its
escaped parentheses. -/
theorem ast2tokens_single_bracket :
    let T : Node := .mk' .root "" [.mk' .bracket "" [.mk' .utility "ls" []]]
    T.All strictArity ∧
      ast2tokens ⟨[], [], [], [], [], [], "", ""⟩ (some T)
        true false false false false false false false = some ["ls"] ∧
      ast2tokens ⟨[], [], [], [], [], [], "", ""⟩ (some T)
        false false false false false false false false = some ["\\(", "ls", "\\)"] := by
  decide

end AwesomeNmt.Bashlint
