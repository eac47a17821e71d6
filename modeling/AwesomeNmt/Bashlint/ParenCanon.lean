/-
  AwesomeNmt.Bashlint.ParenCanon — `paren_parser` up to the numbering of its nodes.

  Two trees are compared by their `Form`: kind, value and children at every node, without
  the numbering that `PNode` carries for the node objects.  On forms, `order_child_fun`
  is `Form.canon`, and the faithful model refines it (`orderChildFun_form`).

  Permuting the operands of an `and`/`or` group does not always give the same tree.
  `order_child_fun` sorts them with Python's stable `sorted`, by a key that is a word's
  text and, for a group, the value of its first child; two groups that start with the
  same word tie, and keep the order they had.  A permutation that keeps every operand
  of a key in its order does give the same tree (`OperandPerm`).

  ## Main results

    * `parenParser_operandPerm_form` — two balanced lines that start with `(` and differ
      by an `OperandPerm` give trees of the same form.
    * `parenParser_operand_tie` — swapping two `or` groups under an `and` changes the
      tree.
-/
import AwesomeNmt.Bashlint.ParenGrammar

namespace AwesomeNmt.Bashlint

open AwesomeNmt.Python

/-! ## §1. Forms and their canonical order. -/

/-- A tree as it is compared: kind, value and children at every node. -/
inductive Form
  | mk (kind : Kind) (value : String) (children : List Form)

namespace Form

/-- The kind of the node. -/
def kind : Form → Kind
  | mk k _ _ => k

/-- The value of the node. -/
def value : Form → String
  | mk _ v _ => v

/-- The children of the node. -/
def children : Form → List Form
  | mk _ _ cs => cs

/-- `order_child_fun`'s sort key on forms. -/
def key (x : Form) : String :=
  if x.kind = .t then x.value
  else match x.children with
    | c :: _ => c.value
    | [] => x.value

/-- Whether `order_child_fun` sorts these children. -/
def sortsOperands (cs : List Form) : Bool :=
  match cs with
  | c :: _ :: _ => c.value = "and" || c.value = "or"
  | _ => false

/-- The children in `order_child_fun`'s order, on forms. -/
def orderOperands (cs : List Form) : List Form :=
  if sortsOperands cs then cs.take 1 ++ sorted key (cs.drop 1) else cs

mutual
/-- The form `order_child_fun` gives a tree of this form. -/
def canon : Form → Form
  | mk k v cs => mk k v (orderOperands (canonList cs))
/-- `canon` on each form. -/
def canonList : List Form → List Form
  | [] => []
  | c :: cs => canon c :: canonList cs
end

theorem canonList_eq : ∀ cs : List Form, canonList cs = cs.map canon
  | [] => rfl
  | c :: cs => by rw [canonList, canonList_eq cs, List.map_cons]

@[simp] theorem canon_mk (k : Kind) (v : String) (cs : List Form) :
    canon (mk k v cs) = mk k v (orderOperands (cs.map canon)) := by
  rw [canon, canonList_eq]

/-- Ordering keeps the first child first. -/
theorem orderOperands_cons (c : Form) (cs : List Form) :
    ∃ rest, orderOperands (c :: cs) = c :: rest := by
  unfold orderOperands
  split_ifs
  exacts [⟨_, rfl⟩, ⟨cs, rfl⟩]

/-- A node's key is its first child's value, which ordering keeps. -/
theorem key_orderOperands {k : Kind} (hk : k ≠ .t) (v : String) (c : Form) (cs : List Form) :
    (mk k v (orderOperands (c :: cs))).key = c.value := by
  obtain ⟨rest, h⟩ := orderOperands_cons c cs
  simp [key, kind, children, h, hk]

/-- After `and` or `or`, the operands are sorted. -/
theorem orderOperands_logic {c : Form} (hc : c.value = "and" ∨ c.value = "or")
    (cs : List Form) : orderOperands (c :: cs) = c :: sorted key cs := by
  cases cs with
  | nil => rfl
  | cons d ds => simp [orderOperands, sortsOperands, hc]

end Form

mutual
/-- The form of a tree `paren_parser` builds. -/
def PNode.form : PNode → Form
  | ⟨_, k, v, _, cs⟩ => .mk k v (PNode.formList cs)
/-- The forms of the trees of `cs`. -/
def PNode.formList : List PNode → List Form
  | [] => []
  | c :: cs => c.form :: PNode.formList cs
end

theorem PNode.formList_eq : ∀ cs : List PNode, PNode.formList cs = cs.map PNode.form
  | [] => rfl
  | c :: cs => by rw [PNode.formList, PNode.formList_eq cs, List.map_cons]

theorem PNode.form_eq (n : PNode) :
    n.form = .mk n.kind n.value (n.children.map PNode.form) := by
  obtain ⟨i, k, v, p, cs⟩ := n
  rw [PNode.form, PNode.formList_eq]

@[simp] theorem PNode.value_form (n : PNode) : n.form.value = n.value := by
  rw [PNode.form_eq, Form.value]

/-! ## §2. `order_child_fun` refines `Form.canon`. -/

theorem orderKey_eq_key (n : PNode) : orderKey n = n.form.key := by
  obtain ⟨i, k, v, p, _ | ⟨c, cs⟩⟩ := n <;> simp [orderKey, Form.key, PNode.form_eq, Form.kind,
    Form.value, Form.children]

theorem sortsOperands_eq (cs : List PNode) :
    sortsOperands cs = Form.sortsOperands (cs.map PNode.form) := by
  rcases cs with _ | ⟨c, _ | ⟨d, cs⟩⟩ <;> simp [sortsOperands, Form.sortsOperands]

theorem orderOperands_form (cs : List PNode) :
    (orderOperands cs).map PNode.form = Form.orderOperands (cs.map PNode.form) := by
  have hkey : orderKey = Form.key ∘ PNode.form := funext orderKey_eq_key
  unfold orderOperands Form.orderOperands
  rw [← sortsOperands_eq]
  split_ifs
  · rw [List.map_append, List.map_take, hkey, sorted_map, List.map_drop]
  · rfl

/-- Ordering a tree, then forgetting its numbering, is ordering its form. -/
theorem orderChildFun_form : ∀ n : PNode, (orderChildFun n).form = n.form.canon :=
  PNode.induction fun n ih => by
    rw [PNode.form_eq, PNode.form_eq n, Form.canon_mk, orderChildFun_children,
      orderOperands_form, orderChildFun_kind, orderChildFun_value, List.map_map, List.map_map]
    congr 2
    exact List.map_congr_left ih

/-! ## §3. The form of a balanced line. -/

mutual
/-- The form of the node the grammar builds for an item. -/
def Item.form : Item → Form
  | .word w _ => .mk .t w []
  | .group is => .mk .nt "<n>" (Item.formList is)
/-- The forms of the items of a list. -/
def Item.formList : List Item → List Form
  | [] => []
  | i :: is => i.form :: Item.formList is
end

/-- The numbering `refItem` gives does not show in the form. -/
theorem refItem_form (i : Item) : ∀ parent next : Nat, (refItem parent next i).1.form = i.form := by
  refine @Item.rec (fun i => ∀ parent next : Nat, (refItem parent next i).1.form = i.form)
    (fun is => ∀ parent next : Nat,
      (refItems parent next is).1.map PNode.form = Item.formList is) ?_ ?_ ?_ ?_ i
  · intro w hw parent next
    simp [refItem, PNode.form_eq, Item.form]
  · intro is ih parent next
    simp [refItem, PNode.form_eq, Item.form, ih]
  · intro parent next
    simp [refItems, Item.formList]
  · intro i is ihi ihs parent next
    simp [refItems, Item.formList, ihi, ihs]

theorem refItems_form : ∀ (is : List Item) (parent next : Nat),
    (refItems parent next is).1.map PNode.form = Item.formList is
  | [], _, _ => rfl
  | i :: is, parent, next => by
    simp [refItems, Item.formList, refItem_form, refItems_form is]

theorem refTree_form (is : List Item) :
    (refTree is).form = .mk .root "root" (Item.formList is) := by
  simp [refTree, PNode.form_eq, refItems_form]

/-! ## §4. Permutations of operands that keep the tree. -/

/-- The key `order_child_fun` sorts an item's node by: a word's text; for a group, its
first word, or `<n>` when it starts with a group or is empty. -/
def Item.key : Item → String
  | .word w _ => w
  | .group (.word w _ :: _) => w
  | .group _ => "<n>"

/-- Two items that differ only by permuting operands of `and`/`or` groups, where the
operands of one key stay in their order. -/
inductive OperandPerm : Item → Item → Prop
  /-- The same word. -/
  | word (w : String) (hw hw' : w ≠ "(" ∧ w ≠ ")") : OperandPerm (.word w hw) (.word w hw')
  /-- Groups whose items are related one by one. -/
  | group {is js : List Item} (hkids : List.Forall₂ OperandPerm is js) :
      OperandPerm (.group is) (.group js)
  /-- An `and`/`or` group whose operands are related one by one, then permuted keeping the
  operands of each key in their order. -/
  | operands {op : String} {hw hw' : op ≠ "(" ∧ op ≠ ")"} {is js js' : List Item}
      (hop : op = "and" ∨ op = "or") (hkids : List.Forall₂ OperandPerm is js)
      (hstable : ∀ k, js.filter (fun i => i.key = k) = js'.filter (fun i => i.key = k)) :
      OperandPerm (.group (.word op hw :: is)) (.group (.word op hw' :: js'))

theorem Item.formList_eq : ∀ is : List Item, Item.formList is = is.map Item.form
  | [] => rfl
  | i :: is => by rw [Item.formList, Item.formList_eq is, List.map_cons]

/-- The sort key of an item's ordered form is the item's key. -/
theorem key_canon_form (i : Item) : i.form.canon.key = i.key := by
  rcases i with ⟨w, hw⟩ | ⟨_ | ⟨⟨w, hw⟩ | ⟨is⟩, cs⟩⟩
  · simp [Item.form, Item.key, Form.key, Form.kind, Form.value]
  · simp [Item.form, Item.formList, Item.key, Form.key, Form.kind, Form.value, Form.children,
      Form.orderOperands, Form.sortsOperands]
  all_goals
    simp [Item.form, Item.formList, Item.key, Form.key_orderOperands, Form.value]

/-- Related items have the same ordered form. -/
theorem OperandPerm.canon_eq {i j : Item} (h : OperandPerm i j) : i.form.canon = j.form.canon := by
  refine @OperandPerm.rec (fun i j _ => i.form.canon = j.form.canon)
    (fun is js _ => is.map (Form.canon ∘ Item.form) = js.map (Form.canon ∘ Item.form))
    ?_ ?_ ?_ ?_ ?_ i j h
  · intro w hw hw'
    rfl
  · intro is js _ ih
    simp only [Item.form, Item.formList_eq, Form.canon_mk, List.map_map, ih]
  · intro op hw hw' is js js' hop _ hstable ih
    have hv : (Form.mk .t op []).canon.value = "and" ∨ (Form.mk .t op []).canon.value = "or" := by
      simpa [Form.value, Form.orderOperands, Form.sortsOperands] using hop
    have hs : sorted Form.key (js.map (Form.canon ∘ Item.form)) =
        sorted Form.key (js'.map (Form.canon ∘ Item.form)) :=
      sorted_eq_of_filter_key fun k => by
        simp only [List.filter_map, Function.comp_def, key_canon_form, hstable]
    simp only [Item.form, Item.formList_eq, Form.canon_mk, List.map_cons, List.map_map] at hv ⊢
    rw [Form.orderOperands_logic hv, Form.orderOperands_logic hv, ih, hs]
  · rfl
  · intro a b l l' _ _ h₁ h₂
    simp only [List.map_cons, Function.comp_apply, h₁, h₂]

/-! ## §5. `paren_parser` under permuted operands. -/

/-- Two balanced lines that start with `(` and differ by permuting operands, keeping the
operands of each key in their order, give trees of the same form. -/
theorem parenParser_operandPerm_form (L₁ L₂ : String) (is js : List Item)
    (h₁ : Str.split L₁ = (Item.group is).words) (hs₁ : Str.startswith L₁ "(" = true)
    (h₂ : Str.split L₂ = (Item.group js).words) (hs₂ : Str.startswith L₂ "(" = true)
    (h : OperandPerm (.group is) (.group js)) :
    (parenParser L₁).map PNode.form = (parenParser L₂).map PNode.form := by
  have hc := h.canon_eq
  simp only [Item.form, Form.canon_mk, Form.mk.injEq, true_and] at hc
  rw [(parenParser_balanced L₁ is h₁ hs₁).1, (parenParser_balanced L₂ js h₂ hs₂).1]
  simp only [Option.map_some', orderChildFun_form, refTree_form, Form.canon_mk, hc]

/-- `( and b a )` and `( and a b )`: the two operands have different keys. -/
theorem parenParser_operandPerm_form_and :
    let and' : Item := .word "and" ⟨by decide, by decide⟩
    let a : Item := .word "a" ⟨by decide, by decide⟩
    let b : Item := .word "b" ⟨by decide, by decide⟩
    Str.split "( and b a )" = (Item.group [and', b, a]).words ∧
      Str.split "( and a b )" = (Item.group [and', a, b]).words ∧
      OperandPerm (.group [and', b, a]) (.group [and', a, b]) ∧
      (parenParser "( and b a )").map PNode.form = (parenParser "( and a b )").map PNode.form := by
  intro and' a b
  have hkids : List.Forall₂ OperandPerm [b, a] [b, a] := .cons (.word _ _ _) (.cons (.word _ _ _) .nil)
  have hperm : OperandPerm (.group [and', b, a]) (.group [and', a, b]) :=
    .operands (Or.inl rfl) hkids fun k => by
      by_cases ha : "a" = k <;> by_cases hb : "b" = k <;> simp [a, b, Item.key, ha, hb]
  exact ⟨by decide, by decide, hperm,
    parenParser_operandPerm_form _ _ _ _ (by decide) (by decide) (by decide) (by decide) hperm⟩

/-- Two `or` groups under an `and` have the same key, `or`, so the stable sort keeps
them in the order of the line, and swapping them changes the tree. -/
theorem parenParser_operand_tie :
    (parenParser "( and ( or a ) ( or b ) )").map PNode.form ≠
      (parenParser "( and ( or b ) ( or a ) )").map PNode.form := by
  intro h
  have := congrArg (Option.map fun f : Form => f.children.map fun c => c.children.map Form.value) h
  revert this
  decide

end AwesomeNmt.Bashlint
