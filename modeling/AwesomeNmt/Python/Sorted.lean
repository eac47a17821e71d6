/-
  AwesomeNmt.Python.Sorted — `sorted(xs, key=...)` with a string key.

  Python's sort is stable, and a list has exactly one stable sort by a key into a
  linear order: the sorted list whose restriction to each key is the input's
  restriction to that key (`sorted_filter_key`, `eq_of_sorted_of_filter_key`).
  Insertion sort on the keys' character lists (`str` comparison is code point by
  code point) is such a sort, so it returns what `sorted` returns.

  Main results:
    * `sorted_eq_of_filter_key` — two lists with the same restriction to every key
      sort to the same list (a permutation that keeps equal keys in order is
      invisible after sorting).
    * `forall₂_sorted` — sorting commutes with a pointwise relation, when the two
      sides' keys compare alike.
    * `map_sorted_eq_of_forall₂` — the same for two lists that agree pointwise under a
      map.
-/
import Mathlib.Data.List.Sort
import Mathlib.Data.String.Basic

namespace AwesomeNmt.Python

variable {α β : Type}

/-- `sorted(xs, key=key)`. -/
def sorted (key : α → String) (xs : List α) : List α :=
  xs.insertionSort (fun a b => (key a).data ≤ (key b).data)

section KeyOrder

variable (key : α → String)

instance keyTotal : IsTotal α (fun a b => (key a).data ≤ (key b).data) :=
  ⟨fun a b => le_total (key a).data (key b).data⟩

instance keyTrans : IsTrans α (fun a b => (key a).data ≤ (key b).data) :=
  ⟨fun _ _ _ => le_trans⟩

end KeyOrder

/-! ## §1. What sorting keeps. -/

theorem sorted_perm (key : α → String) (xs : List α) : (sorted key xs).Perm xs :=
  List.perm_insertionSort _ xs

theorem mem_sorted {key : α → String} {xs : List α} {a : α} : a ∈ sorted key xs ↔ a ∈ xs :=
  (sorted_perm key xs).mem_iff

theorem sorted_sorted (key : α → String) (xs : List α) :
    (sorted key xs).Sorted (fun a b => key a ≤ key b) :=
  (List.sorted_insertionSort _ xs).imp fun h => String.le_iff_toList_le.mpr h

/-- Stability: the elements of one key keep their order. -/
theorem sorted_filter_key (key : α → String) (xs : List α) (k : String) :
    (sorted key xs).filter (fun a => key a = k) = xs.filter (fun a => key a = k) := by
  set c := xs.filter (fun a => key a = k)
  have hpw : c.Pairwise (fun a b => (key a).data ≤ (key b).data) :=
    List.Pairwise.imp_of_mem (fun ha hb _ => by
      rw [of_decide_eq_true (List.mem_filter.mp ha).2,
        of_decide_eq_true (List.mem_filter.mp hb).2]) (List.pairwise_of_forall fun _ _ => trivial)
  have hc : c.filter (fun a => key a = k) = c :=
    List.filter_eq_self.mpr fun a ha => (List.mem_filter.mp ha).2
  have hsub := (List.sublist_insertionSort hpw (List.filter_sublist xs)).filter
    (fun a => key a = k)
  rw [hc] at hsub
  exact (hsub.eq_of_length ((sorted_perm key xs).filter _).length_eq.symm).symm

/-! ## §2. The stable order is unique. -/

/-- A list whose restriction to the key of `x` equals that of `x :: l` has an element
of that key. -/
theorem exists_key_of_filter_eq {key : α → String} {x : α} {l m : List α}
    (h : (x :: l).filter (fun z => key z = key x) = m.filter (fun z => key z = key x)) :
    ∃ z ∈ m, key z = key x := by
  have hx : x ∈ m.filter (fun z => key z = key x) := by rw [← h]; simp
  exact ⟨x, (List.mem_filter.mp hx).1, rfl⟩

/-- Two lists sorted by key, with the same restriction to every key, are equal. -/
theorem eq_of_sorted_of_filter_key {key : α → String} :
    ∀ {l₁ l₂ : List α}, l₁.Sorted (fun a b => key a ≤ key b) →
      l₂.Sorted (fun a b => key a ≤ key b) →
      (∀ k, l₁.filter (fun a => key a = k) = l₂.filter (fun a => key a = k)) → l₁ = l₂
  | [], [], _, _, _ => rfl
  | [], b :: _, _, _, h => by simpa using h (key b)
  | a :: _, [], _, _, h => by simpa using h (key a)
  | a :: l₁, b :: l₂, h₁, h₂, h => by
    obtain ⟨ha, hl₁⟩ := List.sorted_cons.mp h₁
    obtain ⟨hb, hl₂⟩ := List.sorted_cons.mp h₂
    -- each head has the least key of its list, and each list holds the other's key
    have hab : key a = key b := by
      obtain ⟨z, hz, hza⟩ := exists_key_of_filter_eq (h (key a))
      obtain ⟨w, hw, hwb⟩ := exists_key_of_filter_eq (h (key b)).symm
      apply le_antisymm
      · rcases List.mem_cons.mp hw with rfl | hw
        · exact hwb.le
        · exact hwb ▸ ha w hw
      · rcases List.mem_cons.mp hz with rfl | hz
        · exact hza.le
        · exact hza ▸ hb z hz
    have hk := h (key a)
    simp only [List.filter_cons, hab, decide_True, ↓reduceIte, List.cons.injEq] at hk
    refine hk.1 ▸ congrArg (a :: ·) (eq_of_sorted_of_filter_key hl₁ hl₂ fun k => ?_)
    have hk := h k
    by_cases e : key a = k
    · simp only [List.filter_cons, e, hab ▸ e, decide_True, ↓reduceIte,
        List.cons.injEq] at hk
      exact hk.2
    · simpa [List.filter_cons, e, hab ▸ e] using hk

/-- A permutation that keeps the elements of each key in their order is invisible after
sorting. -/
theorem sorted_eq_of_filter_key {key : α → String} {xs ys : List α}
    (h : ∀ k, xs.filter (fun a => key a = k) = ys.filter (fun a => key a = k)) :
    sorted key xs = sorted key ys :=
  eq_of_sorted_of_filter_key (sorted_sorted key xs) (sorted_sorted key ys) fun k => by
    rw [sorted_filter_key, sorted_filter_key, h]

/-! ## §3. Sorting related lists. -/

/-- Sorting commutes with `map` when the key factors through it. -/
theorem sorted_map (key : β → String) (f : α → β) (xs : List α) :
    (sorted (key ∘ f) xs).map f = sorted key (xs.map f) :=
  List.map_insertionSort _ _ f xs fun _ _ _ _ => Iff.rfl

/-- Sorting elements paired with a function of themselves, by the element's key. -/
theorem sorted_pair (key : α → String) (g : α → β) (xs : List α) :
    sorted (fun p : α × β => key p.1) (xs.map fun x => (x, g x)) =
      (sorted key xs).map fun x => (x, g x) :=
  (sorted_map (fun p : α × β => key p.1) (fun x => (x, g x)) xs).symm

/-- Sorting two pointwise related lists by keys that compare alike on related positions
gives pointwise related lists. -/
theorem forall₂_sorted {R : α → β → Prop} {key₁ : α → String} {key₂ : β → String} :
    ∀ {xs : List α} {ys : List β}, List.Forall₂ R xs ys →
      (∀ p ∈ xs.zip ys, ∀ q ∈ xs.zip ys, key₁ p.1 ≤ key₁ q.1 ↔ key₂ p.2 ≤ key₂ q.2) →
      List.Forall₂ R (sorted key₁ xs) (sorted key₂ ys) := by
  intro xs ys hR hkey
  set zs := sorted (key₁ ∘ Prod.fst) (xs.zip ys)
  have hfst : (xs.zip ys).map Prod.fst = xs := List.map_fst_zip _ _ hR.length_eq.le
  have hsnd : (xs.zip ys).map Prod.snd = ys := List.map_snd_zip _ _ hR.length_eq.ge
  have h₁ : sorted key₁ xs = zs.map Prod.fst := by rw [sorted_map, hfst]
  have h₂ : sorted key₂ ys = zs.map Prod.snd := by
    rw [← hsnd]
    refine (List.map_insertionSort _ _ Prod.snd _ fun p hp q hq => ?_).symm
    simpa only [String.le_iff_toList_le] using hkey p hp q hq
  rw [h₁, h₂, List.forall₂_map_left_iff, List.forall₂_map_right_iff, List.forall₂_same]
  intro z hz
  exact (List.forall₂_iff_zip.mp hR).2 (mem_sorted.mp hz)

/-- Two lists that agree pointwise under `g₁` and `g₂`, sorted by keys that compare
alike on related positions, still agree pointwise. -/
theorem map_sorted_eq_of_forall₂ {γ : Type} {key₁ : α → String} {key₂ : β → String}
    {g₁ : α → γ} {g₂ : β → γ} {xs : List α} {ys : List β}
    (hR : List.Forall₂ (fun x y => g₁ x = g₂ y) xs ys)
    (hkey : ∀ p ∈ xs.zip ys, ∀ q ∈ xs.zip ys, key₁ p.1 ≤ key₁ q.1 ↔ key₂ p.2 ≤ key₂ q.2) :
    (sorted key₁ xs).map g₁ = (sorted key₂ ys).map g₂ := by
  rw [← List.forall₂_eq_eq_eq, List.forall₂_map_left_iff, List.forall₂_map_right_iff]
  exact forall₂_sorted hR hkey

end AwesomeNmt.Python
