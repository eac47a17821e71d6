/-
  AwesomeNmt.Bashlint.Commands — `bash_tokenizer` and `cmd2template` (`data_tools`,
  l. 31–36 and 228–235), the entry points from a command string, and `char_tokenizer`
  (l. 20–28), the character tokens of a sentence.

  The first two parse the command with `lint.normalize_ast(cmd, recover_quotation)`,
  which is not among the repository's files: it is the parameter `normalizeAst`, `none`
  for a command it does not parse.  Neither entry point's flags reach `to_tokens_fun`
  under their own names.  `ast2tokens` rebinds `wp` from `with_parent` to `with_prefix`, so the
  `with_parent` that `bash_tokenizer` passes on is never read.  `cmd2template` passes its
  `arg_type_only` in the third positional place of `ast2template`, which is
  `ignore_flag_order`, and `ast2template`'s own `arg_type_only` keeps its default `True`.

  ## Main results

    * `ast2tokens_ignores_withParent` — `with_parent=True` writes the flag of `ls -a` as
      `-a`, as `with_parent=False` does; only `with_prefix=True` writes `ls@@-a`.
    * `cmd2template_argTypeOnly_false` — with `arg_type_only=False`, `cmd2template`
      keeps the flags in their order and abstracts the argument.
    * `charTokenizer_injective` — when `constants._SPACE` is not a single character,
      `char_tokenizer` loses nothing: every other token, read back, is the sentence.
-/
import AwesomeNmt.Bashlint.Tokens

namespace AwesomeNmt.Bashlint

/-! ## §1. The entry points. -/

/-- `bash_tokenizer(cmd, recover_quotation, loose_constraints, ignore_flag_order,
arg_type_only, with_parent)`. -/
def bashTokenizer (reg : Registry) (normalizeAst : String → Bool → Option Node) (cmd : String)
    (recoverQuotation looseConstraints ignoreFlagOrder argTypeOnly withParent : Bool) :
    Option (List String) :=
  ast2tokens reg (normalizeAst cmd recoverQuotation) looseConstraints ignoreFlagOrder
    argTypeOnly false false withParent false false

/-- `cmd2template(cmd, recover_quotation, arg_type_only, loose_constraints)`, which calls
`ast2template(tree, loose_constraints, arg_type_only)`. -/
def cmd2template (reg : Registry) (normalizeAst : String → Bool → Option Node) (cmd : String)
    (recoverQuotation argTypeOnly looseConstraints : Bool) : Option String :=
  ast2template reg (normalizeAst cmd recoverQuotation) looseConstraints argTypeOnly true false

/-! ## §2. Where the flags go. -/

/-- With `with_prefix=False`, `with_parent=True` writes the flag of `ls -a` as `-a`, as
`with_parent=False` does; `ls@@-a` comes only from `with_prefix=True`. -/
theorem ast2tokens_ignores_withParent :
    let reg : Registry := ⟨[], [], ["ls"], [], [], [], "", ""⟩
    let T := Node.mk' .root "root" [Node.mk' .utility "ls"
      [⟨.option, "-a", "", false, some ⟨.utility, "ls"⟩, some "ls", .left, "", false, 0, []⟩]]
    ast2tokens reg (some T) false false false false false true false false = some ["ls", "-a"] ∧
      ast2tokens reg (some T) false false false false false false false false =
        some ["ls", "-a"] ∧
      ast2tokens reg (some T) false false false false false false false true =
        some ["ls", "ls@@-a"] := by
  decide

/-- A command that parses to `ls` over the options `-b` and `-a` and the File `x`: with
`arg_type_only=False`, `cmd2template` writes `ls -b -a File`, where `ast2template` with
sorted flags and literal arguments writes `ls -a -b x`. -/
theorem cmd2template_argTypeOnly_false :
    let reg : Registry := ⟨[], [], ["ls"], [], [], [], "", ""⟩
    let T := Node.mk' .root "root" [Node.mk' .utility "ls"
      [⟨.option, "-b", "", false, some ⟨.utility, "ls"⟩, some "ls", .left, "", false, 0, []⟩,
        ⟨.option, "-a", "", false, some ⟨.utility, "ls"⟩, some "ls", .left, "", false, 0, []⟩,
        Node.arg "File" "x" true ⟨.utility, "ls"⟩ "ls"]]
    ∀ normalizeAst : String → Bool → Option Node, normalizeAst "ls -b -a x" true = some T →
      cmd2template reg normalizeAst "ls -b -a x" true false false = some "ls -b -a File" ∧
        ast2template reg (normalizeAst "ls -b -a x" true) false true false false =
          some "ls -a -b x" :=
  fun _ h => by
    rw [cmd2template, h]
    decide

/-- The same command under a parser that returns its tree. -/
theorem cmd2template_argTypeOnly_false_ls :
    let reg : Registry := ⟨[], [], ["ls"], [], [], [], "", ""⟩
    let T := Node.mk' .root "root" [Node.mk' .utility "ls"
      [⟨.option, "-b", "", false, some ⟨.utility, "ls"⟩, some "ls", .left, "", false, 0, []⟩,
        ⟨.option, "-a", "", false, some ⟨.utility, "ls"⟩, some "ls", .left, "", false, 0, []⟩,
        Node.arg "File" "x" true ⟨.utility, "ls"⟩ "ls"]]
    (fun _ _ => some T : String → Bool → Option Node) "ls -b -a x" true = some T ∧
      cmd2template reg (fun _ _ => some T) "ls -b -a x" true false false = some "ls -b -a File" ∧
        ast2template reg (some T) false true false false = some "ls -a -b x" :=
  ⟨rfl, cmd2template_argTypeOnly_false _ rfl⟩

/-! ## §3. `char_tokenizer`. -/

/-- `char_tokenizer(sentence)`: each character, a blank written as `constants._SPACE`
(`space`), followed by `constants._SPACE`. -/
def charTokenizer (space sentence : String) : List String :=
  sentence.data.flatMap fun c => [if c = ' ' then space else c.toString, space]

/-- The character a token stands for. -/
def charOfToken (space tok : String) : Char :=
  if tok = space then ' ' else tok.get 0

/-- Every other token, read back as a character. -/
def charDecode (space : String) : List String → List Char
  | tok :: _ :: rest => charOfToken space tok :: charDecode space rest
  | _ => []

section CharTokens

variable {space : String}

theorem charOfToken_token (h : space.length ≠ 1) (c : Char) :
    charOfToken space (if c = ' ' then space else c.toString) = c := by
  by_cases hc : c = ' '
  · simp [charOfToken, hc]
  · have hne : c.toString ≠ space := fun e => h (e ▸ rfl)
    simp [charOfToken, hc, hne]
    rfl

/-- Reading back every other token gives the sentence. -/
theorem charDecode_charTokenizer (h : space.length ≠ 1) (s : String) :
    charDecode space (charTokenizer space s) = s.data := by
  obtain ⟨cs⟩ := s
  induction cs with
  | nil => rfl
  | cons c cs ih =>
    show charDecode space ((if c = ' ' then space else c.toString) :: space ::
      charTokenizer space ⟨cs⟩) = c :: cs
    rw [charDecode, charOfToken_token h, ih]

/-- When `constants._SPACE` is not a single character, two sentences with the same
character tokens are the same sentence. -/
theorem charTokenizer_injective (h : space.length ≠ 1) :
    Function.Injective (charTokenizer space) := fun s t hst =>
  String.ext (by rw [← charDecode_charTokenizer h s, hst, charDecode_charTokenizer h t])

/-- The space token written `_SPACE`. -/
theorem charTokenizer_injective_space :
    "_SPACE".length ≠ 1 ∧ Function.Injective (charTokenizer "_SPACE") :=
  ⟨by decide, charTokenizer_injective (by decide)⟩

/-- `a b`: the blank becomes a space token, and a space token follows every character. -/
example : charTokenizer "_SPACE" "a b" = ["a", "_SPACE", "_SPACE", "_SPACE", "b", "_SPACE"] := by
  decide

end CharTokens

end AwesomeNmt.Bashlint
