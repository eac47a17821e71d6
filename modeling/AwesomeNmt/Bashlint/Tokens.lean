/-
  AwesomeNmt.Bashlint.Tokens — `ast2tokens` and `ast2template` (`data_tools`, l. 57–225).

  `to_tokens_fun` is one case per node kind over the tokens of the children.  Once its
  `assert` and its reads of the node's own attributes are past, every case either
  writes fixed tokens or wraps one of three combinations of its children's tokens: all
  of them in turn (sorted by value under `ignore_flag_order`), the first one, or all of
  them with a separator between.  `layout` is that case analysis, naming the
  combination each case picks (a `Layout`); `Layout.run` performs it on the children
  paired with their tokens; `toTokensFun` is the walk that feeds it.  A raised exception
  (a failed `assert`, `children[0]` or `children[-1]` on no children, the two-way
  unpacking of `split('::')`, `node.utility.value` on an unset `utility`) is `none`.
  Where `to_tokens_fun` looks at only the first child (a substitution), `run` reads
  only that child's tokens, so a child it never visits cannot make it fail.

  `ignore_flag_order` sorts a utility's children by value (`sorted(...,
  key=lambda x: x.value)`): `run` sorts the children paired with their tokens, which
  visits them in the same order.
-/
import AwesomeNmt.Bashlint.Node
import AwesomeNmt.Python.Str
import AwesomeNmt.Python.Sorted

namespace AwesomeNmt.Bashlint

open AwesomeNmt.Python

/-- The flags `to_tokens_fun` reads, as `ast2tokens` binds them.  `ast2tokens` binds
`wp` twice, first to `with_parent` and then to `with_prefix`: `to_tokens_fun` sees
`with_prefix`. -/
structure Flags where
  lc : Bool
  ifo : Bool
  ato : Bool
  kca : Bool
  wat : Bool
  wp : Bool
  ia : Bool
  deriving DecidableEq, Repr

/-! ## §1. The tokens of one node. -/

/-- `'::' in node.value and (node.value.startswith('-exec') or
node.value.startswith('-ok'))`. -/
def execMarked (v : String) : Bool :=
  Str.containsColons v.data && (Str.startswith v "-exec" || Str.startswith v "-ok")

/-- `value, op = node.value.split('::')`: `none` unless the split has two parts. -/
def splitExec (v : String) : Option (String × String) :=
  match Str.splitColons v.data with
  | [a, b] => some (String.mk a, String.mk b)
  | _ => none

/-- The option's token after the `'::'` split, with the terminator appended after the
children (`op`, with `;` escaped). -/
def execToken (v : String) : Option (String × List String) :=
  if execMarked v then
    (fun (value, op) => (value, [if op = ";" then "\\;" else op])) <$> splitExec v
  else some (v, [])

/-- The first `if wp:` of the option case: `node.utility.value + "@@" + token` under a
parent, `"@@" + token` otherwise. -/
def parentToken (f : Flags) (n : Node) (token : String) : Option String :=
  if f.wp then
    if n.parent.isSome then (· ++ "@@" ++ token) <$> n.utility else some ("@@" ++ token)
  else some token

/-- The option case's flag token and trailing terminator, or `none` where the unpacking
or `node.utility.value` fails. -/
def optionToken (f : Flags) (n : Node) : Option (String × List String) := do
  let (token, trailer) ← execToken n.value
  let token ← parentToken f n token
  pure (if f.wp then n.simplePrefix ++ token else token, trailer)

/-- The option's tokens do not read `loose_constraints`. -/
@[simp] theorem optionToken_with_lc (f : Flags) (n : Node) (b : Bool) :
    optionToken { f with lc := b } n = optionToken f n := rfl

/-- The token of an argument or `t` node. -/
def argumentToken (reg : Registry) (f : Flags) (n : Node) : String :=
  let token :=
    if f.ato && n.openVocab then
      if f.kca && n.value ∈ reg.commonArguments then n.value
      else if n.argType ∈ reg.quantities then
        if Str.startswith n.value "+" then "+" ++ n.argType
        else if Str.startswith n.value "-" then "-" ++ n.argType
        else n.argType
      else n.argType
    else n.value
  let token := if f.wp && n.openVocab then n.simplePrefix ++ token else token
  let token := if f.wat then token ++ "_" ++ n.argType else token
  if f.ia && n.toIndex then token ++ "-" ++ Str.format02d n.index else token

/-- An argument's token does not read `loose_constraints`. -/
@[simp] theorem argumentToken_with_lc (reg : Registry) (f : Flags) (n : Node) (b : Bool) :
    argumentToken reg { f with lc := b } n = argumentToken reg f n := rfl

/-! ## §2. Combining the children's tokens. -/

/-- `for child in children: tokens += to_tokens_fun(child)`. -/
def concatTokens : List (Option (List String)) → Option (List String)
  | [] => some []
  | r :: rs => do
    let a ← r
    let b ← concatTokens rs
    pure (a ++ b)

/-- `tokens += to_tokens_fun(children[0])`. -/
def headTokens : List (Option (List String)) → Option (List String)
  | [] => none
  | r :: _ => r

/-- The loop over `children[:-1]` adding `sep` after each, then `children[-1]`. -/
def joinTokens (sep : List String) : List (Option (List String)) → Option (List String)
  | [] => none
  | [r] => r
  | r :: r' :: rs => do
    let a ← r
    let b ← joinTokens sep (r' :: rs)
    pure (a ++ sep ++ b)

@[simp] theorem concatTokens_nil : concatTokens [] = some [] := rfl

@[simp] theorem concatTokens_cons_none (rs : List (Option (List String))) :
    concatTokens (none :: rs) = none := rfl

@[simp] theorem concatTokens_cons_some (a : List String) (rs : List (Option (List String))) :
    concatTokens (some a :: rs) = (concatTokens rs).map (a ++ ·) := by
  rw [concatTokens]; cases concatTokens rs <;> rfl

@[simp] theorem joinTokens_nil (sep : List String) : joinTokens sep [] = none := rfl

@[simp] theorem joinTokens_singleton (sep : List String) (r : Option (List String)) :
    joinTokens sep [r] = r := rfl

@[simp] theorem joinTokens_cons_none (sep : List String) (r : Option (List String))
    (rs : List (Option (List String))) : joinTokens sep (none :: r :: rs) = none := rfl

@[simp] theorem joinTokens_cons_some (sep a : List String) (r : Option (List String))
    (rs : List (Option (List String))) :
    joinTokens sep (some a :: r :: rs) = (joinTokens sep (r :: rs)).map (a ++ sep ++ ·) := by
  rw [joinTokens]; cases joinTokens sep (r :: rs) <;> rfl

theorem concatTokens_singleton (r : Option (List String)) : concatTokens [r] = r := by
  cases r <;> simp

theorem concatTokens_eq_none {rs : List (Option (List String))} :
    concatTokens rs = none ↔ none ∈ rs := by
  induction rs with
  | nil => simp
  | cons r rs ih => cases r <;> simp [ih]

theorem concatTokens_perm_eq_none {rs rs' : List (Option (List String))} (h : rs.Perm rs') :
    concatTokens rs = none ↔ concatTokens rs' = none := by
  simp only [concatTokens_eq_none, h.mem_iff]

theorem joinTokens_eq_none {sep : List String} {rs : List (Option (List String))} :
    joinTokens sep rs = none ↔ rs = [] ∨ none ∈ rs := by
  induction rs with
  | nil => simp
  | cons r rs ih =>
    rcases rs with _ | ⟨r', rs⟩
    · cases r <;> simp
    · cases r <;> simp_all

theorem headTokens_eq_none {rs : List (Option (List String))} :
    headTokens rs = none ↔ rs.head? = none ∨ rs.head? = some none := by
  cases rs <;> simp [headTokens]

/-- How a case of `to_tokens_fun` writes a node's tokens. -/
inductive Layout
  /-- A failed `assert`, or a failed read of the node's own attributes. -/
  | fail
  /-- Fixed tokens; no child is read. -/
  | const (ts : List String)
  /-- `pre`, every child's tokens in turn (sorted by value when `srt`), `post`. -/
  | concat (srt : Bool) (pre post : List String)
  /-- `pre`, the first child's tokens, `post`. -/
  | head (pre post : List String)
  /-- `pre`, every child's tokens with `sep` between, `post`. -/
  | join (sep pre post : List String)
  deriving DecidableEq, Repr

/-- The tokens a layout writes from the children, each paired with its own tokens. -/
def Layout.run (kids : List (Node × Option (List String))) : Layout → Option (List String)
  | fail => none
  | const ts => some ts
  | concat srt pre post =>
    (pre ++ · ++ post) <$>
      concatTokens ((if srt then sorted (·.1.value) kids else kids).map Prod.snd)
  | head pre post => (pre ++ · ++ post) <$> headTokens (kids.map Prod.snd)
  | join sep pre post => (pre ++ · ++ post) <$> joinTokens sep (kids.map Prod.snd)

/-- Whether the layout sorts the children by value. -/
def Layout.sorts : Layout → Bool
  | .concat srt _ _ => srt
  | _ => false

/-- A layout reads the children only through their tokens: in order, or sorted by value
when it sorts. -/
theorem Layout.run_congr {l : Layout} {kids kids' : List (Node × Option (List String))}
    (h : l.sorts = false → kids.map Prod.snd = kids'.map Prod.snd)
    (hs : l.sorts = true →
      (sorted (·.1.value) kids).map Prod.snd = (sorted (·.1.value) kids').map Prod.snd) :
    l.run kids = l.run kids' := by
  cases l with
  | concat srt pre post => cases srt <;> simp_all [run, sorts]
  | _ => simp_all [run, sorts]

/-- The children paired with their tokens, sorted by the child's value, give the tokens
of the sorted children. -/
theorem sorted_pairs_snd {β : Type} (g : Node → β) (cs : List Node) :
    (sorted (·.1.value) (cs.map fun c => (c, g c))).map Prod.snd =
      (sorted (·.value) cs).map g := by
  rw [sorted_pair Node.value g cs]
  simp [Function.comp_def]

/-! ## §3. The case of each node kind. -/

/-- The case `to_tokens_fun` takes at `node`, as it is written: the `assert` under
`loose_constraints=False`, then the loose special cases, then the general one. -/
def layout (reg : Registry) (f : Flags) (node : Node) : Layout :=
  let count := node.children.length
  match node.kind with
  | .root =>
    if !(f.lc || count == 1) then .fail
    else if f.lc then .concat false [] [] else .head [] []
  | .pipeline =>
    if !(f.lc || count > 1) then .fail
    else if f.lc && count < 1 then .const ["|"]
    else if f.lc && count == 1 then .head [] []
    else .join ["|"] [] []
  | .commandsubstitution =>
    if !(f.lc || count == 1) then .fail
    else if f.lc && count < 1 then .const ["$(", ")"]
    else .head ["$("] [")"]
  | .processsubstitution =>
    if !(f.lc || count == 1) then .fail
    else if f.lc && count < 1 then .const [node.value ++ "(", ")"]
    else .head [node.value ++ "("] [")"]
  | .utility => .concat f.ifo [node.value] []
  | .option =>
    if !(f.lc || node.parent.isSome) then .fail
    else match optionToken f node with
      | some (token, trailer) => .concat false [token] trailer
      | none => .fail
  | .binarylogicop =>
    if !(f.lc || count == 0) then .fail
    else if f.lc && count > 0 then .join [node.value] [] []
    else .const [node.value]
  | .unarylogicop =>
    if !(f.lc || count == 0) then .fail
    else if f.lc && count > 0 then
      if node.associate = .right then .head [node.value] [] else .head [] [node.value]
    else .const [node.value]
  | .bracket =>
    if !(f.lc || count ≥ 1) then .fail
    else if f.lc && count < 2 then .concat false [] []
    else .join [] ["\\("] ["\\)"]
  | .nt =>
    if !(f.lc || count > 0) then .fail
    else .concat false ["("] [")"]
  | .argument | .t =>
    if !(f.lc || count == 0) then .fail
    else if f.lc then .concat false [argumentToken reg f node] []
    else .const [argumentToken reg f node]

theorem layout_utility (reg : Registry) (f : Flags) {n : Node} (h : n.kind = .utility) :
    layout reg f n = .concat f.ifo [n.value] [] := by
  simp [layout, h]

/-- Only a utility's case sorts. -/
theorem layout_sorts_of_ne (reg : Registry) (f : Flags) {n : Node} (h : n.kind ≠ .utility) :
    (layout reg f n).sorts = false := by
  unfold layout
  cases hk : n.kind <;> simp only [hk, apply_ite Layout.sorts] at h ⊢
  case utility => exact absurd rfl h
  case option => split <;> (try split) <;> rfl
  all_goals simp only [Layout.sorts, ite_self]

/-- A node's case reads its parent only through whether it has one, and its children
only through their number. -/
theorem layout_parent_children (reg : Registry) (f : Flags) (k : Kind) (v ty : String)
    (ov : Bool) (a : Associativity) (sp : String) (ti : Bool) (i : Nat) (u : Option String)
    {p p' : Option ParentRef} {cs cs' : List Node} (hp : p.isSome = p'.isSome)
    (hc : cs.length = cs'.length) :
    layout reg f ⟨k, v, ty, ov, p, u, a, sp, ti, i, cs⟩ =
      layout reg f ⟨k, v, ty, ov, p', u, a, sp, ti, i, cs'⟩ := by
  simp only [layout, optionToken, parentToken, argumentToken, hp, hc]

/-! ## §4. The walk. -/

mutual
/-- `to_tokens_fun(node)`. -/
def toTokensFun (reg : Registry) (f : Flags) : Node → Option (List String)
  | ⟨k, v, ty, ov, p, u, a, sp, ti, i, cs⟩ =>
    (layout reg f ⟨k, v, ty, ov, p, u, a, sp, ti, i, cs⟩).run (childTokens reg f cs)
/-- Each child paired with `to_tokens_fun(child)`. -/
def childTokens (reg : Registry) (f : Flags) : List Node → List (Node × Option (List String))
  | [] => []
  | c :: cs => (c, toTokensFun reg f c) :: childTokens reg f cs
end

theorem childTokens_eq (reg : Registry) (f : Flags) :
    ∀ cs : List Node, childTokens reg f cs = cs.map fun c => (c, toTokensFun reg f c)
  | [] => rfl
  | c :: cs => by simp [childTokens, childTokens_eq reg f cs]

theorem toTokensFun_eq (reg : Registry) (f : Flags) (n : Node) :
    toTokensFun reg f n =
      (layout reg f n).run (n.children.map fun c => (c, toTokensFun reg f c)) := by
  obtain ⟨k, v, ty, ov, p, u, a, sp, ti, i, cs⟩ := n
  rw [toTokensFun, childTokens_eq]

/-- `ast2tokens(node, loose_constraints, ignore_flag_order, arg_type_only,
keep_common_args, with_arg_type, with_parent, index_arg, with_prefix)`, with `none`
for a `node` that is `None`.  `with_parent` is overwritten before it is read. -/
def ast2tokens (reg : Registry) (node : Option Node)
    (looseConstraints ignoreFlagOrder argTypeOnly keepCommonArgs withArgType
      _withParent indexArg withPrefix : Bool) : Option (List String) :=
  match node with
  | none => some []
  | some n => toTokensFun reg ⟨looseConstraints, ignoreFlagOrder, argTypeOnly,
      keepCommonArgs, withArgType, withPrefix, indexArg⟩ n

/-- `ast2template(node, loose_constraints, ignore_flag_order, arg_type_only,
index_arg)`: the tokens joined by blanks. -/
def ast2template (reg : Registry) (node : Option Node)
    (looseConstraints ignoreFlagOrder argTypeOnly indexArg : Bool) : Option String :=
  (" ".intercalate) <$>
    ast2tokens reg node looseConstraints ignoreFlagOrder argTypeOnly false false false
      indexArg false

end AwesomeNmt.Bashlint
