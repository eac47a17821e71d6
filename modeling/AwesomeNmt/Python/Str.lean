/-
  AwesomeNmt.Python.Str — the few `str` methods `data_tools` calls, over `String`.

  `startswith`, `endswith`, `lower()`, `split()` (runs of whitespace), `split('::')`, the
  substring test `'::' in s`, and the `'{:02d}'` format.  Each is written over the
  character list of the string, by structural recursion, so that `decide` runs it.

  The whitespace of `split()` is Python 3's `str.isspace`.  The two facts the parser
  proofs need about `split()` are `split_append_space` (a blank separates words) and
  `splitAux_nonspace` (a word starts at the first non-blank character).
-/
import Mathlib.Data.List.Basic

namespace AwesomeNmt.Python.Str

/-! ## §1. Prefixes, suffixes, formatting. -/

/-- `s.startswith(p)`. -/
def startswith (s p : String) : Bool := p.data.isPrefixOf s.data

/-- `s.endswith(p)`. -/
def endswith (s p : String) : Bool := p.data.reverse.isPrefixOf s.data.reverse

/-- `s.lower()` on ASCII letters, the only letters the argument type names hold. -/
def lower (s : String) : String := String.mk (s.data.map Char.toLower)

/-- `'{:02d}'.format(n)` for a non-negative `n`. -/
def format02d (n : Nat) : String := if n < 10 then "0" ++ toString n else toString n

/-! ## §2. `split()` on whitespace. -/

/-- `c.isspace()` in Python 3: the characters `str.split()` breaks words at. -/
def isspace (c : Char) : Bool :=
  let n := c.toNat
  (0x09 ≤ n && n ≤ 0x0D) || (0x1C ≤ n && n ≤ 0x20) || n == 0x85 || n == 0xA0 ||
    n == 0x1680 || (0x2000 ≤ n && n ≤ 0x200A) || n == 0x2028 || n == 0x2029 ||
    n == 0x202F || n == 0x205F || n == 0x3000

/-- `split()` on the characters still to read, `cur` holding the word read so far,
last character first. -/
def splitAux : List Char → List Char → List String
  | [], cur => if cur = [] then [] else [String.mk cur.reverse]
  | c :: cs, cur =>
    if isspace c then
      if cur = [] then splitAux cs [] else String.mk cur.reverse :: splitAux cs []
    else splitAux cs (c :: cur)

/-- `s.split()`: the maximal runs of non-whitespace characters.  (`s.strip().split()`
is the same list, since `strip()` removes only whitespace.) -/
def split (s : String) : List String := splitAux s.data []

/-- A blank character ends the word being read. -/
theorem splitAux_space_cons {c : Char} (hc : isspace c = true) (cs cur : List Char) :
    splitAux (c :: cs) cur = splitAux [] cur ++ splitAux cs [] := by
  by_cases h : cur = [] <;> simp [splitAux, hc, h]

/-- A blank splits the input into two independent halves. -/
theorem splitAux_append_space {c : Char} (hc : isspace c = true) :
    ∀ (cs ds cur : List Char),
      splitAux (cs ++ c :: ds) cur = splitAux cs cur ++ splitAux ds []
  | [], ds, cur => splitAux_space_cons hc ds cur
  | d :: cs, ds, cur => by
    by_cases hd : isspace d = true
    · rw [List.cons_append, splitAux_space_cons hd, splitAux_space_cons hd,
        splitAux_append_space hc cs ds [], List.append_assoc]
    · simp only [List.cons_append, splitAux, hd, Bool.false_eq_true, ↓reduceIte]
      exact splitAux_append_space hc cs ds (d :: cur)

theorem split_append_space (s t : String) :
    split (s ++ " " ++ t) = split s ++ split t := by
  have h : isspace ' ' = true := by decide
  simpa [split] using splitAux_append_space h s.data t.data []

/-- With a word already started, the next word returned extends it. -/
theorem splitAux_nonempty :
    ∀ (cs cur : List Char), cur ≠ [] →
      ∃ w ws, splitAux cs cur = String.mk (cur.reverse ++ w) :: ws
  | [], cur, h => ⟨[], [], by simp [splitAux, h]⟩
  | c :: cs, cur, h => by
    by_cases hc : isspace c = true
    · exact ⟨[], splitAux cs [], by simp [splitAux, hc, h]⟩
    · obtain ⟨w, ws, e⟩ := splitAux_nonempty cs (c :: cur) (List.cons_ne_nil c cur)
      refine ⟨c :: w, ws, ?_⟩
      simp only [splitAux, hc, Bool.false_eq_true, ↓reduceIte, e, List.reverse_cons,
        List.append_assoc, List.singleton_append]

/-- A line that starts with a non-blank character has a first word starting with it. -/
theorem splitAux_nonspace {c : Char} (hc : isspace c = false) (cs : List Char) :
    ∃ w ws, splitAux (c :: cs) [] = String.mk (c :: w) :: ws := by
  simpa [splitAux, hc] using splitAux_nonempty cs [c] (List.cons_ne_nil c [])

/-! ## §3. The `'::'` marker of `-exec`/`-ok` options. -/

/-- `'::' in s`, over the characters of `s`. -/
def containsColons : List Char → Bool
  | ':' :: ':' :: _ => true
  | _ :: cs => containsColons cs
  | [] => false

/-- `s.split('::')`, over the characters of `s`: cut at each occurrence of `::`, read
left to right without overlap. -/
def splitColons : List Char → List (List Char)
  | ':' :: ':' :: cs => [] :: splitColons cs
  | c :: cs =>
    match splitColons cs with
    | p :: ps => (c :: p) :: ps
    | [] => [[c]]
  | [] => [[]]

end AwesomeNmt.Python.Str
