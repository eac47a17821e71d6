/-
  AwesomeNmt.Bashlint.Coverage — which nodes `to_tokens_fun` writes, and that it writes
  each of them once.

  `to_tokens_fun` is called on the root and, from each node, on the children its case
  reads: all of them, or only the first (a substitution, a unary operator, a root under
  the strict policy), or none (`calledNodes`).  Each call writes its case's own tokens
  (`ownTokens`: the node's value or flag, the brackets around the children's tokens and
  the separators between them) and the tokens of the calls it makes.

  ## Main results

    * `ast2tokens_perm_own` — the tokens are, as a multiset, the own tokens of the
      nodes `to_tokens_fun` is called on: no call's tokens are lost or repeated; and
      under the loose policy each called node reads the children `looseReads` names
      (`calledNodes_loose`, from `readCount_layout_loose` and
      `layout_ne_fail_of_mem_calledNodes`).
    * `ast2tokens_loose_drops_child` — under the loose policy a command substitution of
      two commands writes the first only.
-/
import AwesomeNmt.Bashlint.Tokens

namespace AwesomeNmt.Bashlint

open AwesomeNmt.Python

/-! ## §1. Calls and own tokens. -/

namespace Layout

/-- How many of `count` children the layout reads, from the first. -/
def readCount (count : Nat) : Layout → Nat
  | fail | const _ => 0
  | head .. => 1
  | concat .. | join .. => count

/-- The tokens a layout writes of its own: around its children's tokens, and between
them. -/
def own (count : Nat) : Layout → List String
  | fail => []
  | const ts => ts
  | concat _ pre post | head pre post => pre ++ post
  | join sep pre post => pre ++ post ++ (List.replicate (count - 1) sep).flatten

end Layout

mutual
/-- The nodes `to_tokens_fun` is called on from `node` down, in call order. -/
def calledNodes (reg : Registry) (f : Flags) : Node → List Node
  | ⟨k, v, ty, ov, p, u, a, sp, ti, i, cs⟩ =>
    ⟨k, v, ty, ov, p, u, a, sp, ti, i, cs⟩ :: calledChildren reg f
      ((layout reg f ⟨k, v, ty, ov, p, u, a, sp, ti, i, cs⟩).readCount cs.length) cs
/-- The nodes called on from the first `m` of `cs`. -/
def calledChildren (reg : Registry) (f : Flags) : Nat → List Node → List Node
  | 0, _ | _, [] => []
  | m + 1, c :: cs => calledNodes reg f c ++ calledChildren reg f m cs
end

/-- The tokens `to_tokens_fun` writes for `node` itself. -/
def ownTokens (reg : Registry) (f : Flags) (node : Node) : List String :=
  (layout reg f node).own node.children.length

section Calls

variable (reg : Registry) (f : Flags)

theorem calledChildren_eq : ∀ (m : Nat) (cs : List Node),
    calledChildren reg f m cs = (cs.take m).flatMap (calledNodes reg f)
  | 0, _ => by simp [calledChildren]
  | _ + 1, [] => by simp [calledChildren]
  | m + 1, c :: cs => by simp [calledChildren, calledChildren_eq m cs]

theorem calledNodes_eq (n : Node) :
    calledNodes reg f n = n :: (n.children.take
      ((layout reg f n).readCount n.children.length)).flatMap (calledNodes reg f) := by
  obtain ⟨k, v, ty, ov, p, u, a, sp, ti, i, cs⟩ := n
  rw [calledNodes, calledChildren_eq]

end Calls

/-- The children a case is meant to read under `loose_constraints=True`, stated without
`layout`: all of them, but only the first of a command or process substitution and of a
unary logic operator. -/
def looseReads (n : Node) : Nat :=
  match n.kind with
  | .commandsubstitution | .processsubstitution | .unarylogicop => min 1 n.children.length
  | _ => n.children.length

/-- Under `loose_constraints=True` every case that does not fail reads the children
`looseReads` names. -/
theorem readCount_layout_loose (reg : Registry) {f : Flags} (hf : f.lc = true) {n : Node}
    (hn : layout reg f n ≠ .fail) :
    (layout reg f n).readCount n.children.length = looseReads n := by
  unfold layout looseReads at *
  cases hk : n.kind <;> simp only [hk, hf, Bool.true_or, Bool.not_true, Bool.false_eq_true,
    Bool.true_and, ↓reduceIte, decide_eq_true_eq, beq_iff_eq] at hn ⊢
  case option => split at hn <;> first | rfl | exact absurd rfl hn
  all_goals (try split_ifs) <;> simp only [Layout.readCount] <;> omega

/-! ## §2. What the combinations write. -/

section Combinations

variable {tok : Node → Option (List String)} {V : Node → List String}

/-- Writing every child in turn writes each child's tokens once. -/
theorem concatTokens_perm : ∀ (cs : List Node) {out : List String},
    (∀ c ∈ cs, ∀ t, tok c = some t → t.Perm (V c)) →
    concatTokens (cs.map tok) = some out → out.Perm (cs.flatMap V)
  | [], out, _, h => by simp at h; simp [← h]
  | c :: cs, out, ih, h => by
    cases hc : tok c with
    | none => simp [hc] at h
    | some t =>
      simp only [List.map_cons, hc, concatTokens_cons_some, Option.map_eq_some'] at h
      obtain ⟨rest, hrest, rfl⟩ := h
      exact (ih c (List.mem_cons_self _ _) t hc).append
        (concatTokens_perm cs (fun d hd => ih d (List.mem_cons_of_mem _ hd)) hrest)

/-- Writing every child with `sep` between writes each child's tokens once, and one
`sep` fewer than there are children. -/
theorem joinTokens_perm (sep : List String) : ∀ (cs : List Node) {out : List String},
    (∀ c ∈ cs, ∀ t, tok c = some t → t.Perm (V c)) →
    joinTokens sep (cs.map tok) = some out →
      out.Perm (cs.flatMap V ++ (List.replicate (cs.length - 1) sep).flatten)
  | [], _, _, h => by simp at h
  | [c], out, ih, h => by simpa using ih c (List.mem_singleton_self c) out h
  | c :: c' :: cs, out, ih, h => by
    cases hc : tok c with
    | none => simp [hc] at h
    | some t =>
      simp only [List.map_cons, hc, joinTokens_cons_some, Option.map_eq_some'] at h
      obtain ⟨rest, hrest, rfl⟩ := h
      have h₁ := ih c (List.mem_cons_self _ _) t hc
      have h₂ := joinTokens_perm sep (c' :: cs) (fun d hd => ih d (List.mem_cons_of_mem _ hd))
        (by simpa using hrest)
      rw [List.perm_iff_count] at h₁ h₂ ⊢
      intro a
      have := h₁ a
      have := h₂ a
      simp only [List.flatMap_cons, List.length_cons, Nat.add_sub_cancel, List.replicate_succ,
        List.flatten_cons, List.count_append] at *
      omega

/-- Writing the first child writes its tokens. -/
theorem headTokens_perm : ∀ (cs : List Node) {out : List String},
    (∀ c ∈ cs, ∀ t, tok c = some t → t.Perm (V c)) →
    headTokens (cs.map tok) = some out → out.Perm ((cs.take 1).flatMap V)
  | [], _, _, h => by simp [headTokens] at h
  | c :: _, out, ih, h => by simpa using ih c (List.mem_cons_self _ _) out h

end Combinations

/-- Tokens written around the children's, from tokens that are the children's calls and
the separators. -/
theorem perm_wrap (pre post S : List String) {out K : List String} (h : out.Perm (K ++ S)) :
    (pre ++ out ++ post).Perm (pre ++ post ++ S ++ K) := by
  rw [List.perm_iff_count] at h ⊢
  intro a
  simp only [List.count_append, h a]
  omega

/-! ## §3. Every call's tokens, once. -/

/-- The tokens of `to_tokens_fun` are, as a multiset, the own tokens of the nodes it is
called on. -/
theorem toTokensFun_perm_own (reg : Registry) (f : Flags) :
    ∀ (n : Node) (toks : List String), toTokensFun reg f n = some toks →
      toks.Perm ((calledNodes reg f n).flatMap (ownTokens reg f)) :=
  Node.induction fun n ih toks h => by
    have ih' : ∀ c ∈ n.children, ∀ t, toTokensFun reg f c = some t →
        t.Perm ((calledNodes reg f c).flatMap (ownTokens reg f)) := ih
    rw [toTokensFun_eq] at h
    rw [calledNodes_eq, List.flatMap_cons, List.flatMap_assoc, ownTokens]
    cases hl : layout reg f n with
    | fail => simp [hl, Layout.run] at h
    | const ts => simp_all [Layout.run, Layout.own, Layout.readCount]
    | concat srt pre post =>
      simp only [hl, Layout.run, Functor.map, Option.map_eq_some'] at h
      obtain ⟨out, hout, rfl⟩ := h
      have hperm : out.Perm (n.children.flatMap fun c =>
          (calledNodes reg f c).flatMap (ownTokens reg f)) := by
        cases srt
        · simp only [Bool.false_eq_true, ↓reduceIte, List.map_map, Function.comp_def] at hout
          exact concatTokens_perm _ ih' hout
        · simp only [↓reduceIte, sorted_pairs_snd] at hout
          exact (concatTokens_perm _ (fun c hc => ih' c (mem_sorted.mp hc)) hout).trans
            ((sorted_perm _ _).flatMap_right _)
      simpa [Layout.own, Layout.readCount] using perm_wrap pre post [] (by simpa using hperm)
    | head pre post =>
      simp only [hl, Layout.run, Functor.map, Option.map_eq_some', List.map_map,
        Function.comp_def] at h
      obtain ⟨out, hout, rfl⟩ := h
      simpa [Layout.own, Layout.readCount] using
        perm_wrap pre post [] (by simpa using headTokens_perm _ ih' hout)
    | join sep pre post =>
      simp only [hl, Layout.run, Functor.map, Option.map_eq_some', List.map_map,
        Function.comp_def] at h
      obtain ⟨out, hout, rfl⟩ := h
      simpa [Layout.own, Layout.readCount] using perm_wrap pre post _ (joinTokens_perm sep _ ih' hout)

/-- A case that writes tokens does not fail, and every child it reads wrote its own. -/
theorem Layout.isSome_of_run {l : Layout} {cs : List Node} {g : Node → Option (List String)}
    {out : List String} (h : l.run (cs.map fun c => (c, g c)) = some out) :
    l ≠ .fail ∧ ∀ c ∈ cs.take (l.readCount cs.length), (g c).isSome := by
  refine ⟨by rintro rfl; simp [run] at h, fun c hc => Option.ne_none_iff_isSome.mp fun hg => ?_⟩
  cases l with
  | fail => simp [run] at h
  | const ts => simp [readCount] at hc
  | concat srt pre post =>
    simp only [readCount, List.take_length] at hc
    have hnone : concatTokens
        ((if srt then sorted (·.1.value) (cs.map fun c => (c, g c))
          else cs.map fun c => (c, g c)).map Prod.snd) = none := by
      rw [concatTokens_eq_none]
      cases srt
      · simpa using ⟨c, hc, hg⟩
      · simpa [sorted_pairs_snd, mem_sorted] using ⟨c, hc, hg⟩
    rw [run, hnone] at h
    simp at h
  | head pre post =>
    obtain ⟨c', cs, rfl⟩ := List.exists_cons_of_ne_nil (List.ne_nil_of_mem (List.mem_of_mem_take hc))
    simp only [readCount, List.take_succ_cons, List.take_zero, List.mem_singleton] at hc
    subst hc
    simp [run, headTokens, hg] at h
  | join sep pre post =>
    simp only [readCount, List.take_length] at hc
    have hnone : joinTokens sep ((cs.map fun c => (c, g c)).map Prod.snd) = none :=
      joinTokens_eq_none.mpr (Or.inr (by simpa using ⟨c, hc, hg⟩))
    rw [run, hnone] at h
    simp at h

/-- When `to_tokens_fun` returns, the case of every node it is called on does not fail. -/
theorem layout_ne_fail_of_mem_calledNodes (reg : Registry) (f : Flags) :
    ∀ (n : Node) (toks : List String), toTokensFun reg f n = some toks →
      ∀ m ∈ calledNodes reg f n, layout reg f m ≠ .fail :=
  Node.induction fun n ih toks h m hm => by
    rw [toTokensFun_eq] at h
    obtain ⟨hn, hread⟩ := Layout.isSome_of_run h
    rw [calledNodes_eq, List.mem_cons, List.mem_flatMap] at hm
    rcases hm with rfl | ⟨c, hc, hm⟩
    · exact hn
    · obtain ⟨t, ht⟩ := Option.isSome_iff_exists.mp (hread c hc)
      exact ih c (List.mem_of_mem_take hc) t ht m hm

/-- Under `loose_constraints=True`, when `to_tokens_fun` returns, it was called from each
node it was called on on the children `looseReads` names, and on nothing else. -/
theorem calledNodes_loose (reg : Registry) {f : Flags} (hf : f.lc = true) {n : Node}
    {toks : List String} (h : toTokensFun reg f n = some toks) :
    ∀ m ∈ calledNodes reg f n,
      calledNodes reg f m = m :: (m.children.take (looseReads m)).flatMap (calledNodes reg f) :=
  fun m hm => by
    rw [calledNodes_eq, readCount_layout_loose reg hf
      (layout_ne_fail_of_mem_calledNodes reg f n toks h m hm)]

/-- Whenever `ast2tokens` returns, its tokens are, as a multiset, the own tokens of the
nodes `to_tokens_fun` is called on, under every policy; and under
`loose_constraints=True` it was called, from each of those nodes, on all the node's
children, but on the first only of a substitution or a unary logic operator. -/
theorem ast2tokens_perm_own (reg : Registry) (T : Node)
    (lc ifo ato kca wat wpar ia wp : Bool) (toks : List String)
    (h : ast2tokens reg (some T) lc ifo ato kca wat wpar ia wp = some toks) :
    let f : Flags := ⟨lc, ifo, ato, kca, wat, wp, ia⟩
    toks.Perm ((calledNodes reg f T).flatMap (ownTokens reg f)) ∧
      (lc = true → ∀ n ∈ calledNodes reg f T,
        calledNodes reg f n = n :: (n.children.take (looseReads n)).flatMap (calledNodes reg f)) :=
  ⟨toTokensFun_perm_own reg _ T toks h, fun hlc => calledNodes_loose reg hlc h⟩

/-- `$(ls pwd)` under the loose policy: `to_tokens_fun` is called on `ls` only, and
writes exactly the own tokens of the substitution and of `ls`. -/
theorem ast2tokens_perm_own_substitution :
    let reg : Registry := ⟨[], [], [], [], [], [], "", ""⟩
    let T : Node := .mk' .root ""
      [.mk' .commandsubstitution "" [.mk' .utility "ls" [], .mk' .utility "pwd" []]]
    let f : Flags := ⟨true, false, false, false, false, false, false⟩
    ["$(", "ls", ")"].Perm ((calledNodes reg f T).flatMap (ownTokens reg f)) ∧
      (true = true → ∀ n ∈ calledNodes reg f T,
        calledNodes reg f n = n :: (n.children.take (looseReads n)).flatMap (calledNodes reg f)) :=
  ast2tokens_perm_own _ _ true false false false false false false false _ (by decide)

/-- Under the loose policy a command substitution of two commands writes the first
only: the utility `pwd` and its token are dropped. -/
theorem ast2tokens_loose_drops_child :
    let T : Node := .mk' .root ""
      [.mk' .commandsubstitution "" [.mk' .utility "ls" [], .mk' .utility "pwd" []]]
    ast2tokens ⟨[], [], [], [], [], [], "", ""⟩ (some T)
      true false false false false false false false = some ["$(", "ls", ")"] := by
  decide

end AwesomeNmt.Bashlint
