/-
  AwesomeNmt.EncoderDecoder.Batch — `format_example` and `get_batch`
  (`encoder_decoder`, l. 246–363).

  Both build the batch-major triple fed to `step`: the encoder inputs padded and
  reversed, the decoder inputs padded, both read position by position across the batch,
  and a target weight per position that is 0 at the last position and where the next
  decoder input is `PAD_ID`.  `format_example` takes the examples as arguments;
  `get_batch` draws them with `random.choice` from a bucket of `data`.  The one
  difference in what they compute is the list the weights read the next decoder input
  from: `get_batch` reads its padded decoder inputs, `format_example` the unpadded
  `decoder_inputs` argument (`batchTriple`'s last argument).

  `PAD_ID` comes from `data_utils`, which is not part of the sources: it is the section
  variable `padId`.  The weights are `float32` ones and zeros, written `1` and `0`.  A
  raised exception (`IndexError`, or `NotImplementedError` under `use_copy`) is `none`.

  ## Main results

    * `formatExample_eq_getBatch` — on the examples `get_batch` draws, `format_example`
      returns exactly `get_batch`'s triple when every decoder input is at least as long
      as the bucket's decoder size (or that size is at most 1), and raises otherwise.
    * `getBatch_isSome` — once its bucket and its draws exist, `get_batch` returns.
    * `formatExample_short_decoder_raises` — a decoder input shorter than the bucket
      makes `format_example` raise where `get_batch` returns.
-/
import Mathlib.Data.List.Basic

namespace AwesomeNmt.EncoderDecoder

/-! ## §1. Python lists and `random.choice`. -/

/-- `xs[i]`, with Python's negative indices counting from the end. -/
def pyGet {α : Type} (xs : List α) (i : Int) : Option α :=
  if 0 ≤ i then xs[i.toNat]?
  else if 0 ≤ xs.length + i then xs[(xs.length + i).toNat]? else none

@[simp] theorem pyGet_natCast {α : Type} (xs : List α) (n : Nat) : pyGet xs n = xs[n]? := by
  rw [pyGet, if_pos (Int.ofNat_nonneg n)]
  rfl

/-- `random.choice(seq)` when the generator draws `r`: `seq[r % len(seq)]`, an
`IndexError` on an empty sequence. -/
def choice {α : Type} (seq : List α) (r : Nat) : Option α := seq[r % seq.length]?

section MapM

variable {α β : Type} {f g : α → Option β}

theorem mapM_congr : ∀ {xs : List α}, (∀ x ∈ xs, f x = g x) → xs.mapM f = xs.mapM g
  | [], _ => rfl
  | x :: xs, h => by
    simp only [List.mapM_cons, h x (List.mem_cons_self x xs),
      mapM_congr fun y hy => h y (List.mem_cons_of_mem x hy)]

theorem mapM_eq_none_of_mem : ∀ {xs : List α} {x : α}, x ∈ xs → f x = none → xs.mapM f = none
  | _ :: xs, x, hx, h => by
    rcases List.mem_cons.mp hx with rfl | hx
    · simp only [List.mapM_cons, h, Option.bind_eq_bind, Option.none_bind]
    · simp only [List.mapM_cons, mapM_eq_none_of_mem hx h, Option.bind_eq_bind, Option.none_bind,
        Option.bind_none]

theorem mapM_map {γ : Type} (k : γ → α) : ∀ xs : List γ, (xs.map k).mapM f = xs.mapM (f ∘ k)
  | [] => rfl
  | x :: xs => by rw [List.map_cons, List.mapM_cons, List.mapM_cons, mapM_map k xs]; rfl

theorem mapM_isSome : ∀ {xs : List α}, (∀ x ∈ xs, (f x).isSome) → (xs.mapM f).isSome
  | [], _ => rfl
  | x :: xs, h => by
    obtain ⟨y, hy⟩ := Option.isSome_iff_exists.mp (h x (List.mem_cons_self x xs))
    obtain ⟨ys, hys⟩ := Option.isSome_iff_exists.mp
      (mapM_isSome fun y hy => h y (List.mem_cons_of_mem x hy))
    rw [List.mapM_cons, hy, hys]
    rfl

theorem getElem?_isSome {xs : List α} {i : Nat} (h : i < xs.length) : xs[i]?.isSome := by
  rw [List.getElem?_eq_getElem h]
  rfl

end MapM

/-- Reading position `s + i` for each `i` below the length of `ys` gives `ys` back. -/
theorem mapM_range'_getElem? {α : Type} {f : Nat → Option α} :
    ∀ (s : Nat) (ys : List α), (∀ i < ys.length, f (s + i) = ys[i]?) →
      (List.range' s ys.length).mapM f = some ys
  | _, [], _ => rfl
  | s, y :: ys, h => by
    have h₀ : f s = some y := by simpa using h 0 (Nat.zero_lt_succ _)
    have hs := mapM_range'_getElem? (s + 1) ys fun i hi => by
      simpa [Nat.add_assoc, Nat.add_comm 1 i] using h (i + 1) (Nat.succ_lt_succ hi)
    rw [List.length_cons, List.range'_succ, List.mapM_cons, h₀, hs]
    rfl

/-! ## §2. Padding and re-indexing. -/

/-- The fields of `EncoderDecoderModel` the two functions read, and `step` after them.  Of
the graph, `step` reads what `define_graph(forward_only=False)` builds: called with
`forward_only=True` it sets no `self.updates` or `self.gradient_norms`, and a training
`step` raises `AttributeError`. -/
structure Model where
  buckets : List (Nat × Nat)
  maxSourceLength : Nat
  maxTargetLength : Nat
  batchSize : Nat
  useCopy : Bool

/-- A batch-major triple: encoder inputs, decoder inputs and target weights, one list per
position. -/
abbrev Batch := List (List Nat) × List (List Nat) × List (List Nat)

section Batching

variable (padId : Nat)

/-- `list(reversed(encoder_input + [PAD_ID] * (encoder_size - len(encoder_input))))`. -/
def padEncoder (encoderSize : Nat) (encoderInput : List Nat) : List Nat :=
  (encoderInput ++ List.replicate (encoderSize - encoderInput.length) padId).reverse

/-- `decoder_input + [PAD_ID] * (decoder_size - len(decoder_input))`. -/
def padDecoder (decoderSize : Nat) (decoderInput : List Nat) : List Nat :=
  decoderInput ++ List.replicate (decoderSize - decoderInput.length) padId

/-- `[rows[batch_idx][length_idx] for batch_idx in ...]` for each `length_idx < size`. -/
def batchMajor (size : Nat) (rows : List (List Nat)) : Option (List (List Nat)) :=
  (List.range size).mapM fun lengthIdx => rows.mapM fun row => row[lengthIdx]?

/-- The weight of one example at `length_idx`, the target read from `row`:
`if length_idx < decoder_size - 1: target = row[length_idx + 1]`, then 0 if
`length_idx == decoder_size - 1 or target == PAD_ID`. -/
def targetWeight (decoderSize lengthIdx : Nat) (row : List Nat) : Option Nat :=
  if lengthIdx < decoderSize - 1 then
    row[lengthIdx + 1]?.map fun target => if target = padId then 0 else 1
  else some 0

/-- `batch_weights`, the targets read from `rows`. -/
def batchWeights (decoderSize : Nat) (rows : List (List Nat)) : Option (List (List Nat)) :=
  (List.range decoderSize).mapM fun lengthIdx => rows.mapM (targetWeight padId decoderSize lengthIdx)

/-- The triple both functions return for these examples, the weights' targets read from
`targets`. -/
def batchTriple (encoderSize decoderSize : Nat) (examples : List (List Nat × List Nat))
    (targets : List (List Nat)) : Option Batch := do
  let encoderRows ← batchMajor encoderSize (examples.map fun e => padEncoder padId encoderSize e.1)
  let decoderRows ← batchMajor decoderSize (examples.map fun e => padDecoder padId decoderSize e.2)
  let weights ← batchWeights padId decoderSize targets
  pure (encoderRows, decoderRows, weights)

/-! ## §3. The two functions. -/

/-- `format_example(encoder_inputs, decoder_inputs, bucket_id=bucket_id)`: the weights
read the unpadded `decoder_inputs`. -/
def formatExample (m : Model) (encoderInputs decoderInputs : List (List Nat)) (bucketId : Int) :
    Option Batch := do
  let (encoderSize, decoderSize) ←
    if 0 ≤ bucketId then pyGet m.buckets bucketId else some (m.maxSourceLength, m.maxTargetLength)
  let examples ← (List.range encoderInputs.length).mapM fun i => do
    pure ((← encoderInputs[i]?), (← decoderInputs[i]?))
  if m.useCopy then none
  else batchTriple padId encoderSize decoderSize examples (examples.map Prod.snd)

/-- The `batch_size` examples `get_batch` draws, `random.choice(data[bucket_id])` drawing
`rand b` at its `b`-th call.  (The two leading fields of `data`'s entries are not read.) -/
def drawExamples (m : Model) (data : List (List (List Nat × List Nat))) (bucketId : Int)
    (rand : Nat → Nat) : Option (List (List Nat × List Nat)) :=
  (List.range m.batchSize).mapM fun b => do choice (← pyGet data bucketId) (rand b)

/-- `get_batch(data, bucket_id)`: the weights read the padded decoder inputs. -/
def getBatch (m : Model) (data : List (List (List Nat × List Nat))) (bucketId : Int)
    (rand : Nat → Nat) : Option Batch := do
  let (encoderSize, decoderSize) ← pyGet m.buckets bucketId
  let examples ← drawExamples m data bucketId rand
  batchTriple padId encoderSize decoderSize examples
    (examples.map fun e => padDecoder padId decoderSize e.2)

/-! ## §4. Where the weights' reads agree. -/

theorem length_padEncoder (encoderSize : Nat) (e : List Nat) :
    encoderSize ≤ (padEncoder padId encoderSize e).length := by
  simp [padEncoder]; omega

theorem length_padDecoder (decoderSize : Nat) (d : List Nat) :
    decoderSize ≤ (padDecoder padId decoderSize d).length := by
  simp [padDecoder]; omega

/-- A decoder input at least as long as the bucket is not padded. -/
theorem padDecoder_of_le {decoderSize : Nat} {d : List Nat} (h : decoderSize ≤ d.length) :
    padDecoder padId decoderSize d = d := by
  simp [padDecoder, Nat.sub_eq_zero_of_le h]

/-- The weight reads the same from the padded input as from the unpadded one, when there is
no padding or no position reads a target. -/
theorem targetWeight_padDecoder {decoderSize : Nat} (lengthIdx : Nat) {d : List Nat}
    (h : decoderSize ≤ 1 ∨ decoderSize ≤ d.length) :
    targetWeight padId decoderSize lengthIdx (padDecoder padId decoderSize d) =
      targetWeight padId decoderSize lengthIdx d := by
  rcases h with h | h
  · simp [targetWeight, show ¬lengthIdx < decoderSize - 1 by omega]
  · rw [padDecoder_of_le padId h]

/-- The weights read the same from the padded inputs as from the unpadded ones, when no
input is short. -/
theorem batchWeights_padDecoder {decoderSize : Nat} {examples : List (List Nat × List Nat)}
    (h : ∀ e ∈ examples, decoderSize ≤ 1 ∨ decoderSize ≤ e.2.length) :
    batchWeights padId decoderSize (examples.map fun e => padDecoder padId decoderSize e.2) =
      batchWeights padId decoderSize (examples.map Prod.snd) := by
  unfold batchWeights
  refine mapM_congr fun l _ => ?_
  rw [mapM_map, mapM_map]
  exact mapM_congr fun e he => targetWeight_padDecoder padId l (h e he)

/-- Reading past the end of a short decoder input raises. -/
theorem targetWeight_short {decoderSize : Nat} {d : List Nat} (h2 : 2 ≤ decoderSize)
    (hlt : d.length < decoderSize) : targetWeight padId decoderSize (d.length - 1) d = none := by
  simp [targetWeight, show d.length - 1 < decoderSize - 1 by omega,
    List.getElem?_eq_none (show d.length ≤ d.length - 1 + 1 by omega)]

/-- Rows at least `size` long are read at every position below it. -/
theorem batchMajor_isSome {size : Nat} {rows : List (List Nat)}
    (h : ∀ row ∈ rows, size ≤ row.length) : (batchMajor size rows).isSome :=
  mapM_isSome fun _ hl => mapM_isSome fun row hrow =>
    getElem?_isSome (Nat.lt_of_lt_of_le (List.mem_range.mp hl) (h row hrow))

/-- Rows at least `decoder_size` long have a target wherever the weights read one. -/
theorem batchWeights_isSome {decoderSize : Nat} {rows : List (List Nat)}
    (h : ∀ row ∈ rows, decoderSize ≤ row.length) : (batchWeights padId decoderSize rows).isSome :=
  mapM_isSome fun l hl => mapM_isSome fun row hrow => by
    have hl := List.mem_range.mp hl
    have hrow := h row hrow
    unfold targetWeight
    split_ifs
    · rw [Option.isSome_map']
      exact getElem?_isSome (by omega)
    · rfl

/-- The padded rows are long enough for every read. -/
theorem batchTriple_padded_isSome (encoderSize decoderSize : Nat)
    (examples : List (List Nat × List Nat)) :
    (batchTriple padId encoderSize decoderSize examples
      (examples.map fun e => padDecoder padId decoderSize e.2)).isSome := by
  have hdec : ∀ row ∈ examples.map (fun e => padDecoder padId decoderSize e.2),
      decoderSize ≤ row.length := by
    simp only [List.mem_map]
    rintro _ ⟨e, -, rfl⟩
    exact length_padDecoder padId _ _
  have henc : ∀ row ∈ examples.map (fun e => padEncoder padId encoderSize e.1),
      encoderSize ≤ row.length := by
    simp only [List.mem_map]
    rintro _ ⟨e, -, rfl⟩
    exact length_padEncoder padId _ _
  obtain ⟨a, ha⟩ := Option.isSome_iff_exists.mp (batchMajor_isSome henc)
  obtain ⟨b, hb⟩ := Option.isSome_iff_exists.mp (batchMajor_isSome hdec)
  obtain ⟨c, hc⟩ := Option.isSome_iff_exists.mp (batchWeights_isSome padId hdec)
  simp only [batchTriple, ha, hb, hc]
  rfl

/-- `format_example` reads its arguments back as the examples. -/
theorem formatExample_examples (examples : List (List Nat × List Nat)) :
    ((List.range (examples.map Prod.fst).length).mapM fun i => do
      pure ((← (examples.map Prod.fst)[i]?), (← (examples.map Prod.snd)[i]?))) = some examples := by
  rw [List.length_map, List.range_eq_range']
  refine mapM_range'_getElem? 0 examples fun i hi => ?_
  simp [hi]

/-! ## §5. `format_example` against `get_batch`. -/

/-- Once its bucket and its draws exist, `get_batch` returns. -/
theorem getBatch_isSome (m : Model) (data : List (List (List Nat × List Nat))) (bucketId : Int)
    (rand : Nat → Nat) (sizes : Nat × Nat) (examples : List (List Nat × List Nat))
    (hb : pyGet m.buckets bucketId = some sizes)
    (hdraw : drawExamples m data bucketId rand = some examples) :
    (getBatch padId m data bucketId rand).isSome := by
  simpa [getBatch, hb, hdraw] using batchTriple_padded_isSome padId sizes.1 sizes.2 examples

/-- One bucket `(1, 2)` holding one example: `get_batch` returns. -/
theorem getBatch_isSome_single :
    let m : Model := ⟨[(1, 2)], 1, 2, 1, false⟩
    pyGet m.buckets 0 = some (1, 2) ∧
      drawExamples m [[([5], [1])]] 0 (fun _ => 0) = some [([5], [1])] ∧
      (getBatch 0 m [[([5], [1])]] 0 (fun _ => 0)).isSome :=
  ⟨rfl, rfl, getBatch_isSome 0 _ _ 0 _ (1, 2) _ rfl rfl⟩

/-- On the examples `get_batch` draws, `format_example` returns `get_batch`'s triple when
no decoder input is shorter than the bucket's decoder size (or that size is at most 1), and
raises otherwise. -/
theorem formatExample_eq_getBatch (m : Model) (data : List (List (List Nat × List Nat)))
    (bucketId : Nat) (rand : Nat → Nat) (encoderSize decoderSize : Nat)
    (examples : List (List Nat × List Nat)) (hcopy : m.useCopy = false)
    (hb : m.buckets[bucketId]? = some (encoderSize, decoderSize))
    (hdraw : drawExamples m data bucketId rand = some examples) :
    formatExample padId m (examples.map Prod.fst) (examples.map Prod.snd) bucketId =
      if ∀ e ∈ examples, decoderSize ≤ 1 ∨ decoderSize ≤ e.2.length then
        getBatch padId m data bucketId rand
      else none := by
  have hfe : formatExample padId m (examples.map Prod.fst) (examples.map Prod.snd) bucketId =
      batchTriple padId encoderSize decoderSize examples (examples.map Prod.snd) := by
    simp only [formatExample, if_pos (Int.ofNat_nonneg bucketId), pyGet_natCast, hb,
      formatExample_examples, hcopy, Bool.false_eq_true, ↓reduceIte]
    rfl
  have hgb : getBatch padId m data bucketId rand = batchTriple padId encoderSize decoderSize
      examples (examples.map fun e => padDecoder padId decoderSize e.2) := by
    simp only [getBatch, pyGet_natCast, hb, hdraw]
    rfl
  rw [hfe, hgb]
  split_ifs with h
  · rw [batchTriple, batchTriple, batchWeights_padDecoder padId h]
  · push_neg at h
    obtain ⟨e, he, h1, hlt⟩ := h
    have hnone : batchWeights padId decoderSize (examples.map Prod.snd) = none :=
      mapM_eq_none_of_mem (List.mem_range.mpr (show e.2.length - 1 < decoderSize by omega))
        (mapM_eq_none_of_mem (List.mem_map_of_mem _ he) (targetWeight_short padId (by omega) hlt))
    simp [batchTriple, hnone]

/-- A decoder input as long as the bucket: `format_example` returns `get_batch`'s
triple. -/
theorem formatExample_eq_getBatch_full :
    let m : Model := ⟨[(1, 2)], 1, 2, 1, false⟩
    m.useCopy = false ∧ m.buckets[0]? = some (1, 2) ∧
      drawExamples m [[([5], [1, 7])]] 0 (fun _ => 0) = some [([5], [1, 7])] ∧
      formatExample 0 m ([([5], [1, 7])].map Prod.fst) ([([5], [1, 7])].map Prod.snd) 0 =
        if ∀ e ∈ [([5], [1, 7])], 2 ≤ 1 ∨ 2 ≤ e.2.length then
          getBatch 0 m [[([5], [1, 7])]] 0 (fun _ => 0)
        else none :=
  ⟨rfl, rfl, rfl, formatExample_eq_getBatch 0 _ _ 0 _ 1 2 _ rfl rfl rfl⟩

/-- A decoder input `[1]` shorter than the bucket's decoder size 2: `format_example`
reads `decoder_inputs[0][1]` and raises, where `get_batch`, drawing the same example,
pads it to `[1, PAD_ID]` and returns. -/
theorem formatExample_short_decoder_raises :
    let m : Model := ⟨[(1, 2)], 1, 2, 1, false⟩
    formatExample padId m [[5]] [[1]] 0 = none ∧
      (getBatch padId m [[([5], [1])]] 0 (fun _ => 0)).isSome = true :=
  ⟨rfl, rfl⟩

end Batching

end AwesomeNmt.EncoderDecoder
