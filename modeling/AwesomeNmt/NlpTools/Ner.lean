/-
  AwesomeNmt.NlpTools.Ner — the last step of `annotate` (`nlp_tools/ner`, l. 128–136) and
  `is_english_word` (l. 149–155).

  `annotate` joins its tokens with blanks, runs the eight `annotate_ner` passes (regular
  expression substitutions, the parameter `nerPasses` here), cuts the sentence they leave
  into words with `re.findall(_WORD_SPLIT_RESPECT_QUOTES, sentence)`, and replaces each word
  that neither starts with `_` nor is an English word by `constants._REGEX`.

  `_WORD_SPLIT_RESPECT_QUOTES` (l. 31) is written as a plain string, in which `\\.` is the
  two characters `\.`: the pattern is `(?:[^\s,"]|"(?:\.|[^"])*")+`, whose `(?:\.|[^"])*`
  takes every character but `"`.  A backslash therefore escapes nothing inside quotes.
  `findWords` is that `findall`, written out as a scan over the characters.

  The module runs under Python 3: `\s` is `str.isspace`, and `isalpha`, `isdigit` and
  `isupper` read Python's Unicode tables, the parameter `CharTables`.  The character class
  of `is_english_word` under `re.IGNORECASE` takes the 52 ASCII letters and the four
  letters that fold to them.

  ## Main results

    * `findallWords_eq_split` — on a sentence without `"`, the words are the non-empty
      pieces of `String.split` at whitespace and commas.
    * `findallWords_eq_iff` — `findall` returns exactly the matches the pattern defines
      (`Cuts`): the sentence is gaps where no match starts (whitespace, commas, and `"`
      with no `"` after them) and matches each as long as the pattern allows, in order;
      each match is one or more pieces (`isWord_of_mem_findallWords`): characters other
      than whitespace, `,` and `"`, and quoted parts closed at the first `"` after they
      open.
    * `annotate_words` — whatever the `annotate_ner` passes leave, every word `annotate`
      returns is `constants._REGEX`, starts with `_`, or is made of ASCII letters and
      digits, the four folding letters, `-`, `'`, `(` and `)`.
-/
import Mathlib.Data.String.Basic
import AwesomeNmt.Python.Str

namespace AwesomeNmt.NlpTools

open AwesomeNmt.Python

/-! ## §1. `is_english_word`. -/

/-- Python's character tables, which `str.isalpha`, `str.isdigit` and `str.isupper`
read. -/
structure CharTables where
  isalpha : Char → Bool
  isdigit : Char → Bool
  isupper : Char → Bool

/-- The apostrophe. -/
def apostrophe : Char := Char.ofNat 39

/-- `[0-9A-Za-z\-\'\(\)]` under `re.IGNORECASE`: ASCII digits and letters, the letters
`İ`, `ı`, `ſ` and the Kelvin sign, which fold to ASCII ones, and `-`, `'`, `(`, `)`. -/
def wordChar (c : Char) : Bool :=
  ('0' ≤ c && c ≤ '9') || ('A' ≤ c && c ≤ 'Z') || ('a' ≤ c && c ≤ 'z') ||
    c ∈ ['İ', 'ı', 'ſ', 'K'] || c ∈ ['-', apostrophe, '(', ')']

/-- `re.match('[0-9A-Za-z\-\'\(\)]+$', word, re.IGNORECASE)`: one or more characters of
the class up to the end, where `$` also matches before a final newline. -/
def matchesWordClass (cs : List Char) : Bool :=
  let body := if cs.getLast? = some '\n' then cs.dropLast else cs
  !body.isEmpty && body.all wordChar

/-- `is_english_word(word)`. -/
def isEnglishWord (t : CharTables) (word : String) : Bool :=
  if word.data.any t.isalpha && word.data.getLast?.any t.isdigit then false
  else if (!word.isEmpty && word.data.all t.isalpha) && word.data.any t.isupper then false
  else matchesWordClass word.data

/-- An English word that does not end in a newline is made of the class's characters. -/
theorem all_wordChar_of_isEnglishWord {t : CharTables} {word : String}
    (h : isEnglishWord t word = true) (hn : word.data.getLast? ≠ some '\n') :
    word.data ≠ [] ∧ ∀ c ∈ word.data, wordChar c = true := by
  unfold isEnglishWord at h
  split_ifs at h
  simpa [matchesWordClass, hn, List.isEmpty_iff] using h

/-! ## §2. `_WORD_SPLIT_RESPECT_QUOTES`. -/

/-- Where `findall` breaks words: `\s` and `,`. -/
def isBreak (c : Char) : Bool := Str.isspace c || c = ','

/-- `re.findall(_WORD_SPLIT_RESPECT_QUOTES, ...)` on the characters still to read, `w`
holding the match so far and `quoted` whether it is inside a quoted part.  A match takes
characters that are not a break or `"` one at a time, and quoted parts `"[^"]*"`; a `"`
with no `"` ahead neither continues a match nor starts one, and a break ends it. -/
def findWords : Bool → List Char → List Char → List (List Char)
  | false, w, [] => if w = [] then [] else [w]
  | true, _, [] => []
  | false, w, c :: cs =>
    if c = '"' ∧ '"' ∈ cs then findWords true (w ++ [c]) cs
    else if c = '"' ∨ isBreak c then
      (if w = [] then [] else [w]) ++ findWords false [] cs
    else findWords false (w ++ [c]) cs
  | true, w, c :: cs => findWords (c ≠ '"') (w ++ [c]) cs

/-- `re.findall(_WORD_SPLIT_RESPECT_QUOTES, sentence)`. -/
def findallWords (sentence : String) : List String :=
  (findWords false [] sentence.data).map String.mk

/-- The pieces a match is made of: a character other than a break and `"`, or a quoted
part closed at the first `"` after it opens. -/
inductive WordPiece : List Char → Prop
  | char {c : Char} : c ≠ '"' → isBreak c = false → WordPiece [c]
  | quoted {body : List Char} : '"' ∉ body → WordPiece ('"' :: body ++ ['"'])

/-- A run of pieces, possibly empty. -/
def Pieces (w : List Char) : Prop :=
  ∃ ps : List (List Char), (∀ p ∈ ps, WordPiece p) ∧ w = ps.flatten

/-- What `_WORD_SPLIT_RESPECT_QUOTES` matches: one piece or more. -/
def IsWord (w : List Char) : Prop := w ≠ [] ∧ Pieces w

theorem Pieces.nil : Pieces [] := ⟨[], by simp, rfl⟩

theorem Pieces.append_piece {w p : List Char} (hw : Pieces w) (hp : WordPiece p) :
    Pieces (w ++ p) := by
  obtain ⟨ps, hps, rfl⟩ := hw
  exact ⟨ps ++ [p], by simpa [or_imp, forall_and] using ⟨hps, hp⟩, by simp⟩

/-- A match does not end in a newline: its last character is not a break, or is `"`. -/
theorem WordPiece.getLast?_ne_newline {p : List Char} (hp : WordPiece p) :
    p.getLast? ≠ some '\n' := by
  cases hp with
  | char hq hb =>
    intro h
    simp only [List.getLast?_singleton, Option.some.injEq] at h
    subst h
    exact absurd hb (by decide)
  | quoted _ =>
    rw [List.getLast?_concat]
    decide

theorem Pieces.getLast?_ne_newline : ∀ {ps : List (List Char)}, (∀ p ∈ ps, WordPiece p) →
    ps.flatten.getLast? ≠ some '\n'
  | [], _ => by simp
  | p :: ps, h => by
    have ih := Pieces.getLast?_ne_newline fun q hq => h q (List.mem_cons_of_mem p hq)
    rw [List.flatten_cons, List.getLast?_append]
    cases hl : ps.flatten.getLast? with
    | none => simpa using (h p (List.mem_cons_self p ps)).getLast?_ne_newline
    | some c => simpa [hl] using ih

/-- The scan's state: outside a quoted part the match so far is a run of pieces; inside
one, a run of pieces, the opening `"` and characters other than `"`. -/
def ScanInv : Bool → List Char → Prop
  | false, w => Pieces w
  | true, w => ∃ u body, Pieces u ∧ '"' ∉ body ∧ w = u ++ '"' :: body

/-- Every word the scan returns matches the pattern. -/
theorem isWord_of_mem_findWords : ∀ {quoted : Bool} {w cs : List Char} {x : List Char},
    x ∈ findWords quoted w cs → ScanInv quoted w → IsWord x
  | false, w, [], x, hx, hw => by
    simp only [findWords] at hx
    split_ifs at hx with hne
    · simp at hx
    · obtain rfl := List.mem_singleton.mp hx
      exact ⟨hne, hw⟩
  | true, _, [], _, hx, _ => by simp [findWords] at hx
  | false, w, c :: cs, x, hx, hw => by
    simp only [findWords] at hx
    split_ifs at hx with h1 h2 hne
    · exact isWord_of_mem_findWords hx ⟨w, [], hw, by simp, by simp [h1.1]⟩
    · simp only [List.nil_append] at hx
      exact isWord_of_mem_findWords hx Pieces.nil
    · rcases List.mem_append.mp hx with hx | hx
      · obtain rfl := List.mem_singleton.mp hx
        exact ⟨hne, hw⟩
      · exact isWord_of_mem_findWords hx Pieces.nil
    · have hq : c ≠ '"' := fun hc => h2 (.inl hc)
      have hb : isBreak c = false := by simpa using fun hb => h2 (.inr hb)
      exact isWord_of_mem_findWords hx (hw.append_piece (.char hq hb))
  | true, w, c :: cs, x, hx, hw => by
    obtain ⟨u, body, hu, hbody, rfl⟩ := hw
    simp only [findWords] at hx
    by_cases hc : c = '"'
    · subst hc
      have hx' : x ∈ findWords false (u ++ '"' :: body ++ ['"']) cs := by simpa using hx
      have hp : Pieces (u ++ '"' :: body ++ ['"']) := by
        simpa using hu.append_piece (.quoted hbody)
      exact isWord_of_mem_findWords hx' hp
    · have hx' : x ∈ findWords true (u ++ '"' :: (body ++ [c])) cs := by simpa [hc] using hx
      exact isWord_of_mem_findWords hx'
        ⟨u, body ++ [c], hu, by simpa [Ne.symm hc] using hbody, rfl⟩

/-- Every word `findall` returns matches `_WORD_SPLIT_RESPECT_QUOTES`: it is not empty, and
it is made of characters other than whitespace, `,` and `"`, and of quoted parts each
closed at the first `"` after it opens, a `"` after a backslash included. -/
theorem isWord_of_mem_findallWords {sentence x : String} (hx : x ∈ findallWords sentence) :
    IsWord x.data := by
  obtain ⟨w, hw, rfl⟩ := List.mem_map.mp hx
  exact isWord_of_mem_findWords hw Pieces.nil

/-- The whole split of that sentence: the quoted part, then `b`. -/
example : findallWords "\"a\\\" b\"" = ["\"a\\\"", "b"] := by decide

/-- No match starts at `c` with `rest` after it: `c` is a break, or a `"` with no `"` after
it to close a quoted part. -/
def NoMatchAt (c : Char) (rest : List Char) : Prop := isBreak c = true ∨ (c = '"' ∧ '"' ∉ rest)

/-- A gap `g` before `rest`: no match starts at any of its characters. -/
def GapBefore : List Char → List Char → Prop
  | [], _ => True
  | c :: g, rest => NoMatchAt c (g ++ rest) ∧ GapBefore g rest

/-- A match can go no further before `rest`: `rest` is empty, or no match starts at its
first character. -/
def MatchEnd : List Char → Prop
  | [] => True
  | c :: rest => NoMatchAt c rest

/-- `ws` are the matches `findall` cuts out of `cs`, as the pattern defines them: a gap
where no match starts, then a match as long as the pattern allows, and so on, with a gap
at the end. -/
inductive Cuts : List (List Char) → List Char → Prop
  | nil {g : List Char} : GapBefore g [] → Cuts [] g
  | cons {g w rest : List Char} {ws : List (List Char)} :
      GapBefore g (w ++ rest) → IsWord w → MatchEnd rest → Cuts ws rest →
        Cuts (w :: ws) (g ++ w ++ rest)

/-- A character where no match starts, in front, widens the first gap. -/
theorem Cuts.cons_gap {c : Char} {ws : List (List Char)} {cs : List Char}
    (hc : NoMatchAt c cs) : Cuts ws cs → Cuts ws (c :: cs)
  | .nil hg => .nil ⟨by simpa using hc, hg⟩
  | .cons (g := g) hg hw he hws => by
    simpa using Cuts.cons (g := c :: g) ⟨by simpa using hc, hg⟩ hw he hws

/-- The scan at a character where no match starts: the pending match, if any, is a word,
and the scan starts afresh after the character. -/
theorem findWords_noMatch {c : Char} {w cs : List Char} (hc : NoMatchAt c cs) :
    findWords false w (c :: cs) = (if w = [] then [] else [w]) ++ findWords false [] cs := by
  have h1 : ¬(c = '"' ∧ '"' ∈ cs) := by
    rintro ⟨rfl, hq⟩
    rcases hc with hb | ⟨-, hq'⟩
    · exact absurd hb (by decide)
    · exact hq' hq
  have h2 : c = '"' ∨ isBreak c = true := hc.symm.imp And.left id
  simp only [findWords, h1, h2, ↓reduceIte, or_true]

/-- The scan's words, the pending match `w` first, are the matches of `w` and the
characters still to read; inside a quoted part, once a closing `"` is ahead. -/
theorem cuts_findWords : ∀ {quoted : Bool} {w cs : List Char},
    ScanInv quoted w → (quoted = true → '"' ∈ cs) → Cuts (findWords quoted w cs) (w ++ cs)
  | false, w, [], hw, _ => by
    by_cases hne : w = []
    · subst hne
      exact .nil trivial
    · simpa [findWords, hne] using
        @Cuts.cons [] w [] [] trivial ⟨hne, hw⟩ trivial (.nil trivial)
  | true, _, [], _, h => absurd (h rfl) (List.not_mem_nil _)
  | false, w, c :: cs, hw, _ => by
    by_cases h1 : c = '"' ∧ '"' ∈ cs
    · obtain ⟨rfl, hq⟩ := h1
      simp only [findWords, hq, and_self, ↓reduceIte]
      simpa using @cuts_findWords true (w ++ ['"']) cs ⟨w, [], hw, by simp, rfl⟩ fun _ => hq
    by_cases h2 : c = '"' ∨ isBreak c = true
    · have hc : NoMatchAt c cs := by
        rcases h2 with rfl | hb
        · exact .inr ⟨rfl, fun hq => h1 ⟨rfl, hq⟩⟩
        · exact .inl hb
      have hrest := Cuts.cons_gap hc (@cuts_findWords false [] cs Pieces.nil nofun)
      rw [findWords_noMatch hc]
      by_cases hne : w = []
      · subst hne
        simpa using hrest
      · simpa [hne] using @Cuts.cons [] w (c :: cs) _ trivial ⟨hne, hw⟩ hc hrest
    · have hq : c ≠ '"' := fun hc => h2 (.inl hc)
      have hb : isBreak c = false := by simpa using fun hb => h2 (.inr hb)
      simp only [findWords, h1, h2, ↓reduceIte]
      simpa using @cuts_findWords false (w ++ [c]) cs (hw.append_piece (.char hq hb)) nofun
  | true, w, c :: cs, hw, h => by
    obtain ⟨u, body, hu, hbody, rfl⟩ := hw
    simp only [findWords]
    by_cases hc : c = '"'
    · subst hc
      have hp : Pieces (u ++ '"' :: body ++ ['"']) := by
        simpa using hu.append_piece (.quoted hbody)
      simpa using @cuts_findWords false _ cs hp nofun
    · have hq : '"' ∈ cs := (List.mem_cons.mp (h rfl)).resolve_left (Ne.symm hc)
      simpa [hc] using @cuts_findWords true (u ++ '"' :: body ++ [c]) cs
        ⟨u, body ++ [c], hu, by simpa [Ne.symm hc] using hbody, by simp⟩ fun _ => hq

/-- A gap is skipped. -/
theorem findWords_gap : ∀ {g rest : List Char}, GapBefore g rest →
    findWords false [] (g ++ rest) = findWords false [] rest
  | [], _, _ => rfl
  | _ :: _, _, ⟨hc, hg⟩ => by
    rw [List.cons_append, findWords_noMatch hc, findWords_gap hg]
    rfl

/-- Inside a quoted part, the scan takes every character up to the closing `"`. -/
theorem findWords_quoted {v rest : List Char} : ∀ {body : List Char}, '"' ∉ body →
    findWords true v (body ++ '"' :: rest) = findWords false (v ++ body ++ ['"']) rest
  | [], _ => by simp [findWords]
  | b :: body, hb => by
    have hne : b ≠ '"' := fun h => hb (h ▸ List.mem_cons_self _ _)
    simp only [List.cons_append, findWords, ne_eq, hne, not_false_eq_true, decide_True]
    simpa using findWords_quoted (v := v ++ [b]) fun h => hb (List.mem_cons_of_mem _ h)

/-- A run of pieces is taken into the pending match. -/
theorem findWords_pieces {rest : List Char} : ∀ {ps : List (List Char)} {u : List Char},
    (∀ p ∈ ps, WordPiece p) → findWords false u (ps.flatten ++ rest) =
      findWords false (u ++ ps.flatten) rest
  | [], _, _ => by simp
  | p :: ps, u, hps => by
    have ih := @findWords_pieces rest ps
    simp only [List.mem_cons, forall_eq_or_imp] at hps
    obtain ⟨hp, hps⟩ := hps
    cases hp with
    | @char c hq hb =>
      show findWords false u (c :: (ps.flatten ++ rest)) = findWords false (u ++ c :: ps.flatten) rest
      simp only [findWords, hq, false_and, false_or, hb, Bool.false_eq_true, ↓reduceIte]
      rw [ih hps]
      simp
    | @quoted body hbody =>
      have hin : '"' ∈ body ++ '"' :: (ps.flatten ++ rest) := by simp
      have hsplit : (('"' :: body ++ ['"']) :: ps).flatten ++ rest =
          '"' :: (body ++ '"' :: (ps.flatten ++ rest)) := by
        simp
      rw [hsplit]
      simp only [findWords, hin, and_self, ↓reduceIte]
      rw [findWords_quoted hbody, ih hps]
      simp

/-- A match that can go no further is a word, and the scan goes on afresh. -/
theorem findWords_matchEnd {w rest : List Char} (hw : w ≠ []) (he : MatchEnd rest) :
    findWords false w rest = w :: findWords false [] rest := by
  cases rest with
  | nil => simp [findWords, hw]
  | cons c r => rw [findWords_noMatch he, findWords_noMatch he]; simp [hw]

/-- The scan returns the matches `Cuts` describes. -/
theorem findWords_of_cuts {ws : List (List Char)} {cs : List Char} (h : Cuts ws cs) :
    findWords false [] cs = ws := by
  induction h with
  | nil hg => simpa using findWords_gap hg
  | @cons g w rest ws hg hw he _ ih =>
    obtain ⟨hne, ps, hps, rfl⟩ := hw
    rw [List.append_assoc, findWords_gap hg, findWords_pieces hps, List.nil_append,
      findWords_matchEnd hne he, ih]

/-- `findall` returns exactly the matches of `_WORD_SPLIT_RESPECT_QUOTES` the pattern
defines: the sentence is cut into gaps, where no match starts (breaks, and `"` with no `"`
after them), and matches each as long as the pattern allows. -/
theorem findallWords_eq_iff (sentence : String) (ws : List String) :
    findallWords sentence = ws ↔ Cuts (ws.map String.data) sentence.data := by
  constructor
  · rintro rfl
    simpa [findallWords, Function.comp_def] using
      @cuts_findWords false [] sentence.data Pieces.nil nofun
  · intro h
    rw [findallWords, findWords_of_cuts h, List.map_map]
    conv_rhs => rw [← List.map_id ws]
    exact List.map_congr_left fun s _ => rfl

/-! ## §3. Against `String.split`. -/

/-- Without quotes, the scan cuts the characters at the breaks and drops empty pieces. -/
theorem findWords_of_quote_not_mem : ∀ {w cs : List Char}, (∀ c ∈ w, isBreak c = false) →
    '"' ∉ cs → findWords false w cs = ((w ++ cs).splitOnP isBreak).filter (· ≠ [])
  | w, [], hw, _ => by
    rw [List.append_nil, List.splitOnP_eq_single isBreak w fun c hc => by simp [hw c hc]]
    by_cases h : w = [] <;> simp [findWords, h]
  | w, c :: cs, hw, hq => by
    have hc : c ≠ '"' := fun h => hq (h ▸ List.mem_cons_self _ _)
    have hcs : '"' ∉ cs := fun h => hq (List.mem_cons_of_mem _ h)
    simp only [findWords, hc, false_and, false_or, ↓reduceIte]
    by_cases hb : isBreak c = true
    · rw [if_pos hb, findWords_of_quote_not_mem (by simp) hcs,
        List.splitOnP_first isBreak w (fun x hx => by simp [hw x hx]) c hb cs]
      by_cases h : w = [] <;> simp [h]
    · have hb : isBreak c = false := by simpa using hb
      rw [if_neg (by simp [hb]),
        findWords_of_quote_not_mem (by simpa [or_imp, forall_and] using ⟨hw, hb⟩) hcs]
      simp

/-- On a sentence without `"`, `findall` returns the non-empty pieces of `String.split` at
whitespace and commas. -/
theorem findallWords_eq_split {sentence : String} (h : '"' ∉ sentence.data) :
    findallWords sentence = (sentence.split isBreak).filter (· ≠ "") := by
  rw [findallWords, findWords_of_quote_not_mem (by simp) h, String.split_of_valid,
    List.filter_map, List.nil_append]
  congr 2
  funext w
  simp only [Function.comp, ne_eq, decide_not]
  cases w <;> rfl

/-- A sentence of blanks, commas and words. -/
theorem findallWords_eq_split_ls :
    '"' ∉ "ls -l, a.txt".data ∧
      findallWords "ls -l, a.txt" = ("ls -l, a.txt".split isBreak).filter (· ≠ "") :=
  ⟨by decide, findallWords_eq_split (by decide)⟩

/-! ## §4. `annotate`. -/

/-- The words `annotate` returns from the sentence the `annotate_ner` passes leave: each
word of `findall`, replaced by `constants._REGEX` (`regexToken`) unless it starts with `_`
or is an English word. -/
def normalizedWords (t : CharTables) (regexToken sentence : String) : List String :=
  (findallWords sentence).map fun w =>
    if !Str.startswith w "_" && !isEnglishWord t w then regexToken else w

/-- `annotate(tokens)`, its words: `nerPasses` stands for the eight `annotate_ner`
substitutions. -/
def annotate (t : CharTables) (regexToken : String) (nerPasses : String → String)
    (tokens : List String) : List String :=
  normalizedWords t regexToken (nerPasses (" ".intercalate tokens))

/-- Whatever the `annotate_ner` passes leave, every word `annotate` returns is
`constants._REGEX`, starts with `_`, or is a non-empty run of the class of
`is_english_word`: ASCII letters and digits, the four folding letters, `-`, `'`, `(`, `)`. -/
theorem annotate_words (t : CharTables) (regexToken : String) (nerPasses : String → String)
    (tokens : List String) :
    ∀ w ∈ annotate t regexToken nerPasses tokens, w = regexToken ∨ Str.startswith w "_" = true ∨
      (w.data ≠ [] ∧ ∀ c ∈ w.data, wordChar c = true) := by
  intro w hw
  obtain ⟨x, hx, rfl⟩ := List.mem_map.mp hw
  obtain ⟨-, ps, hps, hflat⟩ := isWord_of_mem_findallWords hx
  have hn : x.data.getLast? ≠ some '\n' := hflat ▸ Pieces.getLast?_ne_newline hps
  by_cases hs : Str.startswith x "_" = true
  · split_ifs <;> simp [hs]
  · by_cases he : isEnglishWord t x = true
    · simp only [hs, he, Bool.not_true, Bool.and_false, Bool.false_eq_true, ↓reduceIte]
      exact .inr (.inr (all_wordChar_of_isEnglishWord he hn))
    · simp [hs, he]

/-- With ASCII tables and no substitution, `ls *.txt "a b"`: `ls` is kept as an English
word, the other two words become `_REGEX`. -/
theorem annotate_words_ls :
    let t : CharTables := ⟨Char.isAlpha, Char.isDigit, Char.isUpper⟩
    "ls" ∈ annotate t "_REGEX" id ["ls", "*.txt", "\"a b\""] ∧
      ("ls" = "_REGEX" ∨ Str.startswith "ls" "_" = true ∨
        ("ls".data ≠ [] ∧ ∀ c ∈ "ls".data, wordChar c = true)) := by
  intro t
  have hw : "ls" ∈ annotate t "_REGEX" id ["ls", "*.txt", "\"a b\""] := by decide
  exact ⟨hw, annotate_words t "_REGEX" id _ "ls" hw⟩

example :
    annotate ⟨Char.isAlpha, Char.isDigit, Char.isUpper⟩ "_REGEX" id ["ls", "*.txt", "\"a b\""] =
      ["ls", "_REGEX", "_REGEX"] := by
  decide

end AwesomeNmt.NlpTools
