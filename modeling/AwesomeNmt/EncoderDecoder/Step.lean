/-
  AwesomeNmt.EncoderDecoder.Step — `step` (`encoder_decoder`, l. 366–458) around its one call
  of `session.run`: the checks of the batch's sizes, the input feed, the output feed, and
  what it returns from the session's outputs.

  `define_graph` (l. 59–77) creates `max_source_length` encoder placeholders and
  `max_target_length + 1` decoder and weight placeholders; each is a `Placeholder` here
  (the graph keeps their names apart).  `step` checks the batch against the bucket, or
  asserts the maximal lengths when `bucket_id == -1`, then feeds each position's vector to
  its placeholder and a zero vector of `batch_size` entries to the decoder placeholder one
  past the last, the target of the last position.  The session is the parameter `run`: the
  value it computes for each op of the output feed, given the input feed.  What `step`
  raises before the session runs is a `StepError`.

  The output feed reads the ops `define_graph` leaves.  With buckets, `self.outputs`,
  `self.losses`, `self.updates`, `self.gradient_norms` and `self.attn_masks` hold one entry
  per bucket (l. 100–116, 136–145): `step`'s `self.losses[bucket_id]` and the like are read
  once `self.buckets[bucket_id]` has been, but under `bucket_id == -1` a forward pass reads
  `self.outputs[l]` for every decoder position `l`, bucket `l`'s list, and runs past the
  buckets when there are fewer of them than positions (`outputsLength`).  Two assumptions
  about the graph are made.  It was built by `define_graph(forward_only=False)`, the only
  call that sets `self.updates` and `self.gradient_norms` (l. 127–151; otherwise a training
  `step` raises `AttributeError`).  The decoder, which the repository leaves to subclasses
  (`define_decoder` is a placeholder), returns one output per decoder input, so bucket
  `(e, d)`'s list of logits has an entry for each of `decoder_inputs[:d]`.

  ## Main results

    * `step_getBatch` — for every session, `step` on a batch `get_batch` draws: the copy
      model's unpacking raises; under `bucket_id == -1`, where `get_batch` pads to the last
      bucket, the assertions raise unless that bucket has the maximal lengths; a bucket past
      the graph's placeholders raises an `IndexError`, and so does a forward pass under
      `bucket_id == -1` with fewer buckets than decoder positions; otherwise `step` feeds
      each placeholder of the bucket its position's vector and returns what it is meant to.
    * `batchFeed_getBatch_width` — every vector fed for a `get_batch` batch has `batch_size`
      entries.
    * `step_formatExample`, `step_formatExample_lt` — `format_example` and `step` take the
      same sizes for every bucket id `≥ -1` (a forward pass under `-1` on a graph with
      fewer buckets than `max_target_length` still raises); below `-1` the first pads to
      the maximal lengths and the second checks `buckets[bucket_id]`, and `step` returns
      exactly when the two agree.
    * `batchFeed_formatExample_width` — for a `format_example` batch of `k` examples, the
      feed is `batch_size` wide only when `k` is `batch_size`: the last target always has
      `batch_size` zeros.
    * `stepReturn_outputFeed` — for every session, a forward pass raises an `IndexError`
      when the list it reads the logits from is short, and otherwise `step` returns the
      gradient norm and loss of the update, or the loss and the logits in order, and the
      attention masks exactly when the model has attention.
-/
import AwesomeNmt.EncoderDecoder.BatchLayout

namespace AwesomeNmt.EncoderDecoder

/-! ## §1. The graph's placeholders and the feed. -/

/-- The placeholders `define_graph` creates: `self.encoder_inputs[i]` (`encoder{i}`),
`self.decoder_inputs[i]` (`decoder{i}`) and `self.target_weights[i]` (`weight{i}`). -/
inductive Placeholder
  | encoder (i : Nat)
  | decoder (i : Nat)
  | weight (i : Nat)
  deriving DecidableEq, Repr

/-- What `step` raises before the session runs. -/
inductive StepError
  /-- A failed `assert` on the sizes under `bucket_id == -1`. -/
  | assertion
  /-- An `IndexError`: a bucket, a placeholder or a vector that is not there. -/
  | indexError
  /-- A `ValueError` with its message. -/
  | valueError (msg : String)
  /-- The six-way unpacking of the batch under `use_copy`, which gets three values. -/
  | unpack
  deriving DecidableEq, Repr

/-- `input_feed`, a dict from the placeholders to the vectors fed to them. -/
def Feed : Type := Placeholder → Option (List Nat)

/-- `input_feed = {}`. -/
def Feed.empty : Feed := fun _ => none

/-- `input_feed[p.name] = v`. -/
def Feed.insert (feed : Feed) (p : Placeholder) (v : List Nat) : Feed :=
  fun q => if q = p then some v else feed q

@[simp] theorem Feed.empty_apply (p : Placeholder) : Feed.empty p = none := rfl

@[simp] theorem Feed.insert_apply (feed : Feed) (p q : Placeholder) (v : List Nat) :
    feed.insert p v q = if q = p then some v else feed q := rfl

/-- `xs[l]`, an `IndexError` past the end. -/
def pyRead {α : Type} (xs : List α) (l : Nat) : Except StepError α :=
  match xs[l]? with
  | some x => .ok x
  | none => .error .indexError

/-- The `l`-th of `count` placeholders made by `mk`, an `IndexError` past the last. -/
def placeholderAt (count : Nat) (mk : Nat → Placeholder) (l : Nat) : Except StepError Placeholder :=
  if l < count then .ok (mk l) else .error .indexError

/-- `self.encoder_inputs[l]`: `max_source_length` placeholders. -/
def encoderPlaceholder (m : Model) : Nat → Except StepError Placeholder :=
  placeholderAt m.maxSourceLength .encoder

/-- `self.decoder_inputs[l]`: `max_target_length + 1` placeholders. -/
def decoderPlaceholder (m : Model) : Nat → Except StepError Placeholder :=
  placeholderAt (m.maxTargetLength + 1) .decoder

/-- `self.target_weights[l]`: `max_target_length + 1` placeholders. -/
def weightPlaceholder (m : Model) : Nat → Except StepError Placeholder :=
  placeholderAt (m.maxTargetLength + 1) .weight

@[simp] theorem ok_bind {ε α β : Type} (a : α) (f : α → Except ε β) :
    (Except.ok a >>= f) = f a := rfl

@[simp] theorem error_bind {ε α β : Type} (e : ε) (f : α → Except ε β) :
    (Except.error e >>= f) = Except.error e := rfl

theorem pyRead_of_lt {α : Type} {xs : List α} {l : Nat} (h : l < xs.length) :
    pyRead xs l = .ok xs[l] := by
  simp [pyRead, List.getElem?_eq_getElem h]

theorem placeholderAt_of_lt {count l : Nat} (mk : Nat → Placeholder) (h : l < count) :
    placeholderAt count mk l = .ok (mk l) := if_pos h

/-! ## §2. The checks and the input feed. -/

/-- The `ValueError` message when the length `n` of `what` is not the bucket's `size`:
`"... length must be equal to the one in bucket, %d != %d."`. -/
def lengthMessage (what : String) (n size : Nat) : String :=
  what ++ " length must be equal to the one in bucket, " ++ toString n ++ " != " ++
    toString size ++ "."

/-- The sizes `step` feeds: under `bucket_id == -1` the batch's own lengths, asserted to be
the maximal ones; otherwise the bucket's, each of the batch's three lengths checked in turn. -/
def stepSizes (m : Model) (batch : Batch) (bucketId : Int) : Except StepError (Nat × Nat) :=
  if bucketId = -1 then
    if batch.1.length ≠ m.maxSourceLength then .error .assertion
    else if batch.2.1.length ≠ m.maxTargetLength then .error .assertion
    else .ok (batch.1.length, batch.2.1.length)
  else
    match pyGet m.buckets bucketId with
    | none => .error .indexError
    | some (encoderSize, decoderSize) =>
      if batch.1.length ≠ encoderSize then
        .error (.valueError (lengthMessage "Encoder" batch.1.length encoderSize))
      else if batch.2.1.length ≠ decoderSize then
        .error (.valueError (lengthMessage "Decoder" batch.2.1.length decoderSize))
      else if batch.2.2.length ≠ decoderSize then
        .error (.valueError (lengthMessage "Weights" batch.2.2.length decoderSize))
      else .ok (encoderSize, decoderSize)

/-- `input_feed[self.encoder_inputs[l].name] = encoder_inputs[l]`. -/
def feedEncoderAt (m : Model) (encoderInputs : List (List Nat)) (feed : Feed) (l : Nat) :
    Except StepError Feed := do
  let v ← pyRead encoderInputs l
  let p ← encoderPlaceholder m l
  pure (feed.insert p v)

/-- The decoder input and then the target weight at position `l`. -/
def feedDecoderAt (m : Model) (decoderInputs targetWeights : List (List Nat)) (feed : Feed)
    (l : Nat) : Except StepError Feed := do
  let v ← pyRead decoderInputs l
  let p ← decoderPlaceholder m l
  let w ← pyRead targetWeights l
  let q ← weightPlaceholder m l
  pure ((feed.insert p v).insert q w)

/-- `input_feed` for the sizes `(encoder_size, decoder_size)`: the two loops, then
`input_feed[last_target] = np.zeros([self.batch_size])`. -/
def inputFeed (m : Model) (batch : Batch) (encoderSize decoderSize : Nat) :
    Except StepError Feed := do
  let feed ← (List.range encoderSize).foldlM (feedEncoderAt m batch.1) Feed.empty
  let feed ← (List.range decoderSize).foldlM (feedDecoderAt m batch.2.1 batch.2.2) feed
  let lastTarget ← decoderPlaceholder m decoderSize
  pure (feed.insert lastTarget (List.replicate m.batchSize 0))

/-- What the two loops feed for sizes `(E, D)`: the encoder vector `i` at `encoder{i}` for
`i < E`, and the decoder and weight vectors `i` at `decoder{i}` and `weight{i}` for `i < D`. -/
def loopFeed (batch : Batch) (encoderSize decoderSize : Nat) : Feed
  | .encoder i => if i < encoderSize then batch.1[i]? else none
  | .decoder i => if i < decoderSize then batch.2.1[i]? else none
  | .weight i => if i < decoderSize then batch.2.2[i]? else none

/-- The feed of a batch with sizes `(E, D)`: the loops' feed, and `batch_size` zeros at the
last target `decoder{D}`. -/
def batchFeed (m : Model) (batch : Batch) (encoderSize decoderSize : Nat) : Feed :=
  (loopFeed batch encoderSize decoderSize).insert (.decoder decoderSize)
    (List.replicate m.batchSize 0)

/-! ## §3. The output feed and what `step` returns. -/

/-- The ops `step` asks the session for. `b` is `none` for the graph's own attribute, read
under `bucket_id == -1` (on a graph with buckets, the list of the buckets' entries), and
`some bucket_id` for the bucket's entry of it. -/
inductive Op
  /-- `self.updates`, the update op. -/
  | updates (b : Option Int)
  /-- `self.gradient_norms`. -/
  | gradientNorms (b : Option Int)
  /-- `self.losses`. -/
  | losses (b : Option Int)
  /-- `self.outputs[l]` of a graph without buckets, or `self.outputs[bucket_id][l]`: the
  output logits at position `l`. -/
  | outputs (b : Option Int) (l : Nat)
  /-- `self.outputs[l]` of a graph with buckets: the whole list of bucket `l`'s output
  logits. -/
  | bucketOutputs (l : Nat)
  /-- `self.attn_masks`. -/
  | attnMasks (b : Option Int)
  deriving DecidableEq, Repr

/-- Which entry of the graph's ops `step` asks for. -/
def bucketOps (bucketId : Int) : Option Int := if bucketId = -1 then none else some bucketId

/-- The length of the list `step` reads its output logits from: `self.outputs` under
`bucket_id == -1`, `self.outputs[bucket_id]` otherwise.  With buckets, `define_graph` leaves
in `self.outputs` one list per bucket, bucket `(e, d)`'s holding the logits of
`decoder_inputs[:d]`; without, the logits of the `max_target_length + 1` decoder inputs. -/
def outputsLength (m : Model) (bucketId : Int) : Nat :=
  if bucketId = -1 then
    if m.buckets = [] then m.maxTargetLength + 1 else m.buckets.length
  else match pyGet m.buckets bucketId with
    | some (_, d) => min d (m.maxTargetLength + 1)
    | none => 0

/-- The op `step` reads as its `l`-th output logits. -/
def logitOp (m : Model) (bucketId : Int) (l : Nat) : Op :=
  if bucketId = -1 then
    if m.buckets = [] then .outputs none l else .bucketOutputs l
  else .outputs (some bucketId) l

/-- `output_feed.append(self.outputs[l])` (or `self.outputs[bucket_id][l]`): an
`IndexError` past the end of the list read. -/
def appendLogit (m : Model) (bucketId : Int) (feed : List Op) (l : Nat) :
    Except StepError (List Op) :=
  if l < outputsLength m bucketId then .ok (feed ++ [logitOp m bucketId l])
  else .error .indexError

/-- `output_feed`: the update, gradient norm and loss, or under `forward_only` the loss and
the `decoder_size` output logits; then the attention masks under `use_attention`. -/
def outputFeed (m : Model) (useAttention : Bool) (bucketId : Int) (decoderSize : Nat)
    (forwardOnly : Bool) : Except StepError (List Op) := do
  let b := bucketOps bucketId
  let feed ← if !forwardOnly then pure [.updates b, .gradientNorms b, .losses b]
    else (List.range decoderSize).foldlM (appendLogit m bucketId) [.losses b]
  pure (feed ++ if useAttention then [.attnMasks b] else [])

/-- What `step` returns from `outputs = session.run(output_feed, input_feed)`:
`(gradient_norm, loss, outputs, attention_masks)`, `none` for an `IndexError`. -/
def stepReturn {α : Type} (useAttention forwardOnly : Bool) (outputs : List α) :
    Option (Option α × α × Option (List α) × Option α) :=
  if !forwardOnly then
    if useAttention then do
      pure (some (← outputs[1]?), ← outputs[2]?, none, some (← outputs.getLast?))
    else do pure (some (← outputs[1]?), ← outputs[2]?, none, none)
  else
    if useAttention then do
      pure (none, ← outputs[0]?, some (outputs.drop 1).dropLast, some (← outputs.getLast?))
    else do pure (none, ← outputs[0]?, some (outputs.drop 1), none)

/-- `step(session, formatted_example, bucket_id, forward_only)` of a model with
`use_attention`, the session computing `run feed op` for each op of the output feed. -/
def step {α : Type} (m : Model) (useAttention : Bool) (run : Feed → Op → α) (batch : Batch)
    (bucketId : Int) (forwardOnly : Bool) :
    Except StepError (Option α × α × Option (List α) × Option α) := do
  if m.useCopy then throw .unpack
  let (encoderSize, decoderSize) ← stepSizes m batch bucketId
  let feed ← inputFeed m batch encoderSize decoderSize
  let ops ← outputFeed m useAttention bucketId decoderSize forwardOnly
  match stepReturn useAttention forwardOnly (ops.map (run feed)) with
  | some r => pure r
  | none => throw .indexError

/-- The `D` output logits `step` reads. -/
def logitOps (m : Model) (bucketId : Int) (decoderSize : Nat) : List Op :=
  (List.range decoderSize).map (logitOp m bucketId)

/-- What `step` is meant to return for the session's values `r` of the ops of entry `b`:
the gradient norm of an update, the loss, the values of the output logits `logits` of a
forward pass in order, and the attention masks when the model has attention. -/
def stepResult {α : Type} (useAttention forwardOnly : Bool) (r : Op → α) (b : Option Int)
    (logits : List Op) : Option α × α × Option (List α) × Option α :=
  (if forwardOnly then none else some (r (.gradientNorms b)), r (.losses b),
    if forwardOnly then some (logits.map r) else none,
    if useAttention then some (r (.attnMasks b)) else none)

/-! ## §4. The loops. -/

section Loops

variable {ε σ : Type} {t : σ → Nat → Except ε σ}

/-- A loop over `xrange(n)` whose turn `l` takes `F l` to `F (l + 1)` ends in `F n`. -/
theorem foldlM_range_eq_ok (F : Nat → σ) :
    ∀ {n : Nat}, (∀ l < n, t (F l) l = .ok (F (l + 1))) → (List.range n).foldlM t (F 0) = .ok (F n)
  | 0, _ => rfl
  | n + 1, h => by
    rw [List.range_succ, List.foldlM_append, foldlM_range_eq_ok F fun l hl => h l (by omega)]
    simp only [ok_bind, List.foldlM_cons, List.foldlM_nil, h n (by omega)]
    rfl

/-- The same loop, when its turn `k < n` raises `e`, raises `e`. -/
theorem foldlM_range_eq_error (F : Nat → σ) {k : Nat} {e : ε}
    (h : ∀ l < k, t (F l) l = .ok (F (l + 1)))
    (hk : t (F k) k = .error e) : ∀ {n : Nat}, k < n → (List.range n).foldlM t (F 0) = .error e
  | n + 1, hn => by
    rw [List.range_succ, List.foldlM_append]
    rcases Nat.lt_succ_iff_lt_or_eq.mp hn with hn | rfl
    · rw [foldlM_range_eq_error F h hk hn, error_bind]
    · rw [foldlM_range_eq_ok F h]
      simp only [ok_bind, List.foldlM_cons, hk, error_bind]

end Loops

/-! ## §5. The input feed. -/

section InputFeed

variable {m : Model} {batch : Batch}

theorem loopFeed_zero (batch : Batch) : loopFeed batch 0 0 = Feed.empty := by
  funext q
  cases q <;> rfl

/-- Turn `l` of the encoder loop adds `encoder{l}`. -/
theorem feedEncoderAt_loopFeed {l : Nat} (hl : l < m.maxSourceLength) (hx : l < batch.1.length) :
    feedEncoderAt m batch.1 (loopFeed batch l 0) l = .ok (loopFeed batch (l + 1) 0) := by
  simp only [feedEncoderAt, pyRead_of_lt hx, encoderPlaceholder, placeholderAt_of_lt _ hl, ok_bind]
  refine congrArg Except.ok (funext fun q => ?_)
  cases q with
  | encoder i =>
    by_cases hi : i = l
    · simp [loopFeed, hi, List.getElem?_eq_getElem hx]
    · simp [loopFeed, hi, Nat.lt_succ_iff_lt_or_eq]
  | decoder i => simp [loopFeed]
  | weight i => simp [loopFeed]

/-- Turn `l` of the decoder loop adds `decoder{l}` and `weight{l}`. -/
theorem feedDecoderAt_loopFeed {E l : Nat} (hl : l < m.maxTargetLength + 1)
    (hd : l < batch.2.1.length) (hw : l < batch.2.2.length) :
    feedDecoderAt m batch.2.1 batch.2.2 (loopFeed batch E l) l =
      .ok (loopFeed batch E (l + 1)) := by
  simp only [feedDecoderAt, pyRead_of_lt hd, pyRead_of_lt hw, decoderPlaceholder,
    weightPlaceholder, placeholderAt_of_lt _ hl, ok_bind]
  refine congrArg Except.ok (funext fun q => ?_)
  cases q with
  | encoder i => simp [loopFeed]
  | decoder i =>
    by_cases hi : i = l
    · simp [loopFeed, hi, List.getElem?_eq_getElem hd]
    · simp [loopFeed, hi, Nat.lt_succ_iff_lt_or_eq]
  | weight i =>
    by_cases hi : i = l
    · simp [loopFeed, hi, List.getElem?_eq_getElem hw]
    · simp [loopFeed, hi, Nat.lt_succ_iff_lt_or_eq]

/-- Turn `l` of the encoder loop, past the graph's encoder placeholders, raises. -/
theorem feedEncoderAt_of_le {xs : List (List Nat)} {l : Nat} (hl : m.maxSourceLength ≤ l)
    (feed : Feed) : feedEncoderAt m xs feed l = .error .indexError := by
  unfold feedEncoderAt pyRead
  split <;> simp [encoderPlaceholder, placeholderAt, Nat.not_lt.mpr hl]

/-- Turn `l` of the decoder loop, past the graph's decoder placeholders, raises. -/
theorem feedDecoderAt_of_le {xs ws : List (List Nat)} {l : Nat} (hl : m.maxTargetLength + 1 ≤ l)
    (feed : Feed) : feedDecoderAt m xs ws feed l = .error .indexError := by
  unfold feedDecoderAt pyRead
  split <;> simp [decoderPlaceholder, placeholderAt, Nat.not_lt.mpr hl]

variable {E D : Nat}

/-- The encoder loop over `xrange(E)` feeds the batch's first `E` encoder vectors. -/
theorem foldlM_feedEncoderAt (hE : E ≤ m.maxSourceLength) (h1 : E ≤ batch.1.length) :
    (List.range E).foldlM (feedEncoderAt m batch.1) Feed.empty = .ok (loopFeed batch E 0) := by
  simpa only [loopFeed_zero] using foldlM_range_eq_ok (t := feedEncoderAt m batch.1) (n := E)
    (fun l => loopFeed batch l 0) fun l hl => feedEncoderAt_loopFeed (by omega) (by omega)

/-- The decoder loop over `xrange(D)` adds the batch's first `D` decoder and weight
vectors. -/
theorem foldlM_feedDecoderAt (hD : D ≤ m.maxTargetLength + 1) (h2 : D ≤ batch.2.1.length)
    (h3 : D ≤ batch.2.2.length) :
    (List.range D).foldlM (feedDecoderAt m batch.2.1 batch.2.2) (loopFeed batch E 0) =
      .ok (loopFeed batch E D) :=
  foldlM_range_eq_ok (loopFeed batch E) fun _ hl =>
    feedDecoderAt_loopFeed (by omega) (by omega) (by omega)

variable (h1 : E ≤ batch.1.length) (h2 : D ≤ batch.2.1.length) (h3 : D ≤ batch.2.2.length)
include h1 h2 h3

/-- Once the sizes fit the graph, `input_feed` is the batch's feed. -/
theorem inputFeed_eq (hE : E ≤ m.maxSourceLength) (hD : D ≤ m.maxTargetLength) :
    inputFeed m batch E D = .ok (batchFeed m batch E D) := by
  simp only [inputFeed, foldlM_feedEncoderAt hE h1,
    foldlM_feedDecoderAt (E := E) (Nat.le_succ_of_le hD) h2 h3, ok_bind, decoderPlaceholder,
    placeholderAt_of_lt _ (Nat.lt_succ_of_le hD)]
  rfl

/-- Sizes past the graph's placeholders raise an `IndexError`: the encoder loop at
`max_source_length`, the decoder loop at `max_target_length + 1`, or the last target. -/
theorem inputFeed_eq_error (hfit : ¬(E ≤ m.maxSourceLength ∧ D ≤ m.maxTargetLength)) :
    inputFeed m batch E D = .error .indexError := by
  by_cases hE : E ≤ m.maxSourceLength
  · rcases Nat.lt_or_eq_of_le (show m.maxTargetLength + 1 ≤ D by omega) with hD | rfl
    · have hdec := foldlM_range_eq_error (t := feedDecoderAt m batch.2.1 batch.2.2)
        (loopFeed batch E) (fun l hl => feedDecoderAt_loopFeed (by omega) (by omega) (by omega))
        (feedDecoderAt_of_le le_rfl _) hD
      simp only [inputFeed, foldlM_feedEncoderAt hE h1, hdec, ok_bind, error_bind]
    · simp [inputFeed, foldlM_feedEncoderAt hE h1, foldlM_feedDecoderAt (E := E) le_rfl h2 h3,
        decoderPlaceholder, placeholderAt]
  · have henc := foldlM_range_eq_error (t := feedEncoderAt m batch.1) (fun l => loopFeed batch l 0)
      (fun l hl => feedEncoderAt_loopFeed hl (by omega)) (feedEncoderAt_of_le le_rfl _)
      (show m.maxSourceLength < E by omega)
    simp only [loopFeed_zero] at henc
    simp only [inputFeed, henc, error_bind]

end InputFeed

/-! ## §6. The output feed. -/

section OutputFeed

variable {m : Model} {bucketId : Int}

/-- The logit loop over `xrange(D)` appends the first `D` logits while the list it reads has
them, and raises at the first it does not. -/
theorem foldlM_appendLogit (x : Op) (D : Nat) :
    (List.range D).foldlM (appendLogit m bucketId) [x] =
      if D ≤ outputsLength m bucketId then .ok (x :: logitOps m bucketId D)
      else .error .indexError := by
  have hturn : ∀ l < outputsLength m bucketId,
      appendLogit m bucketId (x :: logitOps m bucketId l) l =
        .ok (x :: logitOps m bucketId (l + 1)) := fun l hl => by
    simp [appendLogit, hl, logitOps, List.range_succ]
  split_ifs with hD
  · exact foldlM_range_eq_ok (fun l => x :: logitOps m bucketId l) fun l hl => hturn l (by omega)
  · exact foldlM_range_eq_error (fun l => x :: logitOps m bucketId l) hturn
      (by simp [appendLogit]) (by omega)

/-- A forward pass whose logits are not all there raises an `IndexError`. -/
theorem outputFeed_eq_error (useAttention : Bool) {forwardOnly : Bool} {D : Nat}
    (hD : forwardOnly = true ∧ outputsLength m bucketId < D) :
    outputFeed m useAttention bucketId D forwardOnly = .error .indexError := by
  obtain ⟨rfl, hD⟩ := hD
  simp [outputFeed, foldlM_appendLogit, Nat.not_le.mpr hD]

/-- Otherwise the output feed is built, and `step`'s slicing of the session's values of it
picks out the ops it asked for. -/
theorem outputFeed_eq_ok (useAttention : Bool) {forwardOnly : Bool} {D : Nat}
    (hD : ¬(forwardOnly = true ∧ outputsLength m bucketId < D)) :
    ∃ ops, outputFeed m useAttention bucketId D forwardOnly = .ok ops ∧
      ∀ {α : Type} (r : Op → α), stepReturn useAttention forwardOnly (ops.map r) =
        some (stepResult useAttention forwardOnly r (bucketOps bucketId) (logitOps m bucketId D)) := by
  cases forwardOnly
  · exact ⟨_, rfl, fun r => by cases useAttention <;> simp [stepReturn, stepResult]⟩
  · refine ⟨_, by simp [outputFeed, foldlM_appendLogit, Nat.not_lt.mp (hD ⟨rfl, ·⟩)]; rfl,
      fun r => ?_⟩
    cases useAttention <;> simp [stepReturn, stepResult, List.getLast?_cons, Function.comp_def]

/-- Once the sizes fit the graph, the list `step` reads the logits from is shorter than
`D` only under `bucket_id == -1` on a graph with fewer than `D` buckets. -/
theorem outputsLength_lt_iff {E D : Nat} (hD : D ≤ m.maxTargetLength)
    (hb : bucketId ≠ -1 → pyGet m.buckets bucketId = some (E, D)) :
    outputsLength m bucketId < D ↔ bucketId = -1 ∧ m.buckets ≠ [] ∧ m.buckets.length < D := by
  unfold outputsLength
  by_cases h1 : bucketId = -1
  · by_cases h0 : m.buckets = [] <;> simp [h1, h0]
    omega
  · simp [h1, hb h1]
    omega

end OutputFeed

/-! ## §7. `step`. -/

section Step

variable {m : Model} {batch : Batch} {bucketId : Int} {E D : Nat}

theorem ite_error_eq_ok {ε α : Type} {c : Prop} [Decidable c] {e : ε} {x : Except ε α} {v : α}
    (h : (if c then .error e else x) = .ok v) : ¬c ∧ x = .ok v := by
  by_cases hc : c
  · rw [if_pos hc] at h
    cases h
  · rw [if_neg hc] at h
    exact ⟨hc, h⟩

/-- Sizes that pass are the batch's encoder and decoder lengths, and for a bucket other
than `-1` that bucket's. -/
theorem of_stepSizes_eq_ok (h : stepSizes m batch bucketId = .ok (E, D)) :
    batch.1.length = E ∧ batch.2.1.length = D ∧
      (bucketId ≠ -1 → pyGet m.buckets bucketId = some (E, D)) := by
  unfold stepSizes at h
  by_cases hb : bucketId = -1
  · rw [if_pos hb] at h
    obtain ⟨-, h⟩ := ite_error_eq_ok h
    obtain ⟨-, h⟩ := ite_error_eq_ok h
    cases h
    exact ⟨rfl, rfl, absurd hb⟩
  · rw [if_neg hb] at h
    rcases hp : pyGet m.buckets bucketId with _ | ⟨E', D'⟩ <;> rw [hp] at h
    · cases h
    · obtain ⟨h1, h⟩ := ite_error_eq_ok h
      obtain ⟨h2, h⟩ := ite_error_eq_ok h
      obtain ⟨-, h⟩ := ite_error_eq_ok h
      cases h
      exact ⟨not_not.mp h1, not_not.mp h2, fun _ => rfl⟩

/-- The batch of a copy model is unpacked into six names, and raises. -/
theorem step_of_useCopy {α : Type} (useAttention : Bool) (run : Feed → Op → α) (forwardOnly : Bool)
    (hc : m.useCopy = true) :
    step m useAttention run batch bucketId forwardOnly = .error .unpack := by
  simp only [step, hc, ↓reduceIte]
  rfl

/-- A batch whose sizes do not pass raises what the checks raise. -/
theorem step_of_stepSizes_error {α : Type} (useAttention : Bool) (run : Feed → Op → α)
    (forwardOnly : Bool) {e : StepError} (hc : m.useCopy = false)
    (hs : stepSizes m batch bucketId = .error e) :
    step m useAttention run batch bucketId forwardOnly = .error e := by
  simp only [step, hc, hs, Bool.false_eq_true, ↓reduceIte]
  rfl

/-- `step` on a batch whose sizes pass and whose weights cover the decoder size: sizes past
the graph's placeholders raise an `IndexError`; so does a forward pass under
`bucket_id == -1` on a graph with fewer buckets than `D`, whose `self.outputs[l]` runs past
the buckets; otherwise `step` returns what it is meant to from the session run on the
batch's feed. -/
theorem step_eq_of_stepSizes {α : Type} (useAttention : Bool) (run : Feed → Op → α)
    (forwardOnly : Bool) (hc : m.useCopy = false) (hs : stepSizes m batch bucketId = .ok (E, D))
    (hw : D ≤ batch.2.2.length) :
    step m useAttention run batch bucketId forwardOnly =
      if E ≤ m.maxSourceLength ∧ D ≤ m.maxTargetLength then
        if forwardOnly = true ∧ bucketId = -1 ∧ m.buckets ≠ [] ∧ m.buckets.length < D then
          .error .indexError
        else .ok (stepResult useAttention forwardOnly (run (batchFeed m batch E D))
          (bucketOps bucketId) (logitOps m bucketId D))
      else .error .indexError := by
  obtain ⟨h1, h2, hb⟩ := of_stepSizes_eq_ok hs
  simp only [step, hc, hs, Bool.false_eq_true, ↓reduceIte, pure_bind, ok_bind]
  split_ifs with hfit hlogit
  · rw [inputFeed_eq h1.ge h2.ge hw hfit.1 hfit.2, ok_bind, outputFeed_eq_error useAttention
      ⟨hlogit.1, (outputsLength_lt_iff hfit.2 hb).mpr hlogit.2⟩]
    rfl
  · obtain ⟨ops, hops, hr⟩ := outputFeed_eq_ok useAttention
      (show ¬(forwardOnly = true ∧ outputsLength m bucketId < D) from
        fun h => hlogit ⟨h.1, (outputsLength_lt_iff hfit.2 hb).mp h.2⟩)
    rw [inputFeed_eq h1.ge h2.ge hw hfit.1 hfit.2, ok_bind, hops, ok_bind, hr]
    rfl
  · rw [inputFeed_eq_error h1.ge h2.ge hw hfit]
    rfl

/-- A `step` that returns went through the checks of its sizes. -/
theorem exists_stepSizes_of_step_eq_ok {α : Type} {useAttention : Bool} {run : Feed → Op → α}
    {forwardOnly : Bool} {r : Option α × α × Option (List α) × Option α}
    (h : step m useAttention run batch bucketId forwardOnly = .ok r) :
    ∃ E D, stepSizes m batch bucketId = .ok (E, D) := by
  cases hc : m.useCopy
  · rcases hs : stepSizes m batch bucketId with e | ⟨E, D⟩
    · rw [step_of_stepSizes_error _ _ _ hc hs] at h
      cases h
    · exact ⟨E, D, rfl⟩
  · rw [step_of_useCopy _ _ _ hc] at h
    cases h

end Step

/-! ## §8. What `get_batch` and `format_example` hand to `step`. -/

/-- A batch of `E` encoder vectors and `D` decoder and weight vectors, each with `w`
entries. -/
structure BatchShape (w encoderSize decoderSize : Nat) (batch : Batch) : Prop where
  encoder_length : batch.1.length = encoderSize
  decoder_length : batch.2.1.length = decoderSize
  weights_length : batch.2.2.length = decoderSize
  width : ∀ v ∈ batch.1 ++ batch.2.1 ++ batch.2.2, v.length = w

theorem forall_mem_of_mapM_eq_some {α β : Type} {f : α → Option β} {P : β → Prop} :
    ∀ {xs : List α} {ys : List β}, (∀ x ∈ xs, ∀ y, f x = some y → P y) →
      xs.mapM f = some ys → ∀ y ∈ ys, P y
  | [], ys, _, h => by cases h; simp
  | x :: xs, ys, hP, h => by
    simp only [List.mapM_cons, Option.bind_eq_bind, Option.bind_eq_some, Option.pure_def,
      Option.some.injEq] at h
    obtain ⟨y, hy, ys', hys', rfl⟩ := h
    simp only [List.mem_cons, forall_eq_or_imp]
    exact ⟨hP x (List.mem_cons_self x xs) y hy,
      forall_mem_of_mapM_eq_some (fun x' hx' => hP x' (List.mem_cons_of_mem x hx')) hys'⟩

/-- Batch-major vectors read from `rows`: `n` of them, each with one entry per row. -/
theorem columns_of_mapM_eq_some {n : Nat} {rows : List (List Nat)}
    {g : Nat → List Nat → Option Nat} {vs : List (List Nat)}
    (h : (List.range n).mapM (fun l => rows.mapM (g l)) = some vs) :
    vs.length = n ∧ ∀ v ∈ vs, v.length = rows.length :=
  ⟨by rw [length_of_mapM_eq_some h, List.length_range],
    forall_mem_of_mapM_eq_some (fun _ _ _ hv => length_of_mapM_eq_some hv) h⟩

section Shapes

variable (padId : Nat) {m : Model} {batch : Batch} {bucketId : Int} {E D : Nat}

/-- The triple of `examples` has one entry per example in each vector. -/
theorem batchTriple_shape {examples : List (List Nat × List Nat)} {targets : List (List Nat)}
    (ht : targets.length = examples.length)
    (h : batchTriple padId E D examples targets = some batch) :
    BatchShape examples.length E D batch := by
  simp only [batchTriple, Option.bind_eq_bind, Option.bind_eq_some, Option.pure_def,
    Option.some.injEq] at h
  obtain ⟨enc, henc, dec, hdec, ws, hws, rfl⟩ := h
  obtain ⟨he, hew⟩ := columns_of_mapM_eq_some henc
  obtain ⟨hd, hdw⟩ := columns_of_mapM_eq_some hdec
  obtain ⟨hw, hww⟩ := columns_of_mapM_eq_some hws
  refine ⟨he, hd, hw, fun v hv => ?_⟩
  simp only [List.mem_append] at hv
  rcases hv with (hv | hv) | hv
  · simpa using hew v hv
  · simpa using hdw v hv
  · simpa [ht] using hww v hv

/-- `get_batch` from bucket `(E, D)` returns its shape, `batch_size` entries wide. -/
theorem getBatch_shape {data : List (List (List Nat × List Nat))} {rand : Nat → Nat}
    (hb : pyGet m.buckets bucketId = some (E, D))
    (h : getBatch padId m data bucketId rand = some batch) :
    BatchShape m.batchSize E D batch := by
  simp only [getBatch, hb, Option.bind_eq_bind, Option.some_bind, Option.bind_eq_some] at h
  obtain ⟨examples, hex, h⟩ := h
  rw [← length_drawExamples hex]
  exact batchTriple_shape padId (List.length_map _ _) h

/-- `format_example` once its sizes are `(E, D)`. -/
theorem formatExample_of_sizes {encoderInputs decoderInputs : List (List Nat)}
    (hs : (if 0 ≤ bucketId then pyGet m.buckets bucketId
      else some (m.maxSourceLength, m.maxTargetLength)) = some (E, D)) :
    formatExample padId m encoderInputs decoderInputs bucketId =
      ((List.range encoderInputs.length).mapM fun i => do
        pure ((← encoderInputs[i]?), (← decoderInputs[i]?))).bind fun examples =>
          if m.useCopy then none else batchTriple padId E D examples (examples.map Prod.snd) := by
  unfold formatExample
  by_cases h0 : 0 ≤ bucketId <;> simp only [h0, ↓reduceIte] at hs ⊢ <;> rw [hs] <;> rfl

/-- `format_example` with sizes `(E, D)` returns its shape, one entry per example, and only
for a model without copying. -/
theorem formatExample_shape {encoderInputs decoderInputs : List (List Nat)}
    (hs : (if 0 ≤ bucketId then pyGet m.buckets bucketId
      else some (m.maxSourceLength, m.maxTargetLength)) = some (E, D))
    (h : formatExample padId m encoderInputs decoderInputs bucketId = some batch) :
    m.useCopy = false ∧ BatchShape encoderInputs.length E D batch := by
  rw [formatExample_of_sizes padId hs, Option.bind_eq_some] at h
  obtain ⟨examples, hex, h⟩ := h
  have hlen : examples.length = encoderInputs.length := by
    rw [length_of_mapM_eq_some hex, List.length_range]
  cases hc : m.useCopy
  · rw [hc, if_neg Bool.false_ne_true] at h
    exact ⟨rfl, hlen ▸ batchTriple_shape padId (List.length_map _ _) h⟩
  · rw [hc, if_pos rfl] at h
    cases h

end Shapes

/-! ## §9. `step` after `get_batch` and `format_example`. -/

section Compose

variable {m : Model} {batch : Batch} {bucketId : Int} {E D w : Nat}

/-- A batch of the bucket's shape passes the checks of a bucket other than `-1`. -/
theorem stepSizes_of_shape (hs : BatchShape w E D batch) (hb : bucketId ≠ -1)
    (hp : pyGet m.buckets bucketId = some (E, D)) : stepSizes m batch bucketId = .ok (E, D) := by
  simp [stepSizes, hb, hp, hs.encoder_length, hs.decoder_length, hs.weights_length]

/-- Under `bucket_id == -1`, a batch of sizes `(E, D)` passes the assertions exactly when
they are the maximal lengths. -/
theorem stepSizes_last_of_shape (hs : BatchShape w E D batch) :
    stepSizes m batch (-1) =
      if E = m.maxSourceLength ∧ D = m.maxTargetLength then .ok (E, D) else .error .assertion := by
  simp only [stepSizes, ↓reduceIte, hs.encoder_length, hs.decoder_length]
  by_cases h1 : E = m.maxSourceLength <;> by_cases h2 : D = m.maxTargetLength <;> simp [h1, h2]

@[simp] theorem batchFeed_lastTarget :
    batchFeed m batch E D (.decoder D) = some (List.replicate m.batchSize 0) := by
  simp [batchFeed]

/-- Every vector fed for a batch of width `w` has `w` entries, and the last target
`batch_size`. -/
theorem length_of_batchFeed (hs : BatchShape w E D batch) {q : Placeholder} {v : List Nat}
    (h : batchFeed m batch E D q = some v) :
    v.length = if q = .decoder D then m.batchSize else w := by
  split_ifs with hq
  · subst hq
    rw [batchFeed_lastTarget] at h
    cases h
    exact List.length_replicate _ _
  · rw [batchFeed, Feed.insert_apply, if_neg hq] at h
    apply hs.width v
    cases q <;> simp only [loopFeed] at h <;> split_ifs at h <;> simp [List.getElem?_mem h]

/-- Some vector besides the last target is fed, unless both sizes are `0`. -/
theorem exists_batchFeed_of_ne (hs : BatchShape w E D batch) (hED : E + D ≠ 0) :
    ∃ q v, q ≠ .decoder D ∧ batchFeed m batch E D q = some v := by
  by_cases hE : 0 < E
  · obtain ⟨v, hv⟩ : ∃ v, batch.1[0]? = some v :=
      ⟨_, List.getElem?_eq_getElem (by rw [hs.encoder_length]; exact hE)⟩
    exact ⟨.encoder 0, v, by simp, by simp [batchFeed, loopFeed, hE, hv]⟩
  · have hD : 0 < D := by omega
    obtain ⟨v, hv⟩ : ∃ v, batch.2.1[0]? = some v :=
      ⟨_, List.getElem?_eq_getElem (by rw [hs.decoder_length]; exact hD)⟩
    exact ⟨.decoder 0, v, by simp; omega, by simp [batchFeed, loopFeed, hD, hD.ne, hv]⟩

/-- `step` on a batch `get_batch` draws from bucket `bucket_id`, for every session: a copy
model's unpacking raises; under `bucket_id == -1`, where `get_batch` pads to the last bucket
and `step` asserts the maximal lengths, the assertions raise unless that bucket has the
maximal lengths; a bucket past the graph's placeholders raises an `IndexError`; so does a
forward pass under `bucket_id == -1` when there are fewer buckets than decoder positions;
otherwise `step` returns what it is meant to from the session run on the batch's feed. -/
theorem step_getBatch {α : Type} (padId : Nat) (useAttention : Bool) (run : Feed → Op → α)
    (forwardOnly : Bool) {data : List (List (List Nat × List Nat))} {rand : Nat → Nat}
    (hb : pyGet m.buckets bucketId = some (E, D))
    (h : getBatch padId m data bucketId rand = some batch) :
    step m useAttention run batch bucketId forwardOnly =
      if m.useCopy then .error .unpack
      else if bucketId = -1 ∧ ¬(E = m.maxSourceLength ∧ D = m.maxTargetLength) then
        .error .assertion
      else if E ≤ m.maxSourceLength ∧ D ≤ m.maxTargetLength then
        if forwardOnly = true ∧ bucketId = -1 ∧ m.buckets.length < D then .error .indexError
        else .ok (stepResult useAttention forwardOnly (run (batchFeed m batch E D))
          (bucketOps bucketId) (logitOps m bucketId D))
      else .error .indexError := by
  have hs := getBatch_shape padId hb h
  have hne : m.buckets ≠ [] := by
    rintro hnil
    simp [hnil, pyGet] at hb
  cases hc : m.useCopy
  case true => exact step_of_useCopy _ _ _ hc
  case false =>
    simp only [Bool.false_eq_true, ↓reduceIte]
    by_cases hlast : bucketId = -1 ∧ ¬(E = m.maxSourceLength ∧ D = m.maxTargetLength)
    · obtain ⟨rfl, hmax⟩ := hlast
      rw [if_pos ⟨rfl, hmax⟩]
      exact step_of_stepSizes_error _ _ _ hc (by rw [stepSizes_last_of_shape hs, if_neg hmax])
    · rw [if_neg hlast]
      have hsizes : stepSizes m batch bucketId = .ok (E, D) := by
        by_cases hb1 : bucketId = -1
        · subst hb1
          rw [stepSizes_last_of_shape hs, if_pos (not_not.mp (not_and.mp hlast rfl))]
        · exact stepSizes_of_shape hs hb1 hb
      rw [step_eq_of_stepSizes _ _ _ hc hsizes hs.weights_length.ge]
      simp only [hne, ne_eq, not_false_eq_true, true_and]

/-- Under `bucket_id == -1`, `get_batch` pads to the last bucket `(3, 3)`, which has the
maximal lengths, but a forward pass reads `self.outputs[2]` of a graph with two buckets. -/
theorem step_getBatch_last :
    let m : Model := ⟨[(1, 2), (3, 3)], 3, 3, 2, false⟩
    let batch : Batch := ([[0, 0], [7, 7], [5, 5]], [[1, 1], [6, 6], [8, 8]],
      [[1, 1], [1, 1], [0, 0]])
    pyGet m.buckets (-1) = some (3, 3) ∧
      getBatch 0 m [[([5], [1, 6])], [([5, 7], [1, 6, 8])]] (-1) (fun _ => 0) = some batch ∧
      step m false (fun _ _ => (0 : Nat)) batch (-1) true = .error .indexError := by
  intro m batch
  have hb : pyGet m.buckets (-1) = some (3, 3) := rfl
  have h : getBatch 0 m [[([5], [1, 6])], [([5, 7], [1, 6, 8])]] (-1) (fun _ => 0) =
      some batch := by
    decide
  exact ⟨hb, h, (step_getBatch 0 false (fun _ _ => (0 : Nat)) true hb h).trans rfl⟩

/-- Every vector `step` feeds for a batch `get_batch` draws from bucket `(E, D)` has
`batch_size` entries. -/
theorem batchFeed_getBatch_width (padId : Nat) {data : List (List (List Nat × List Nat))}
    {rand : Nat → Nat} (hb : pyGet m.buckets bucketId = some (E, D))
    (h : getBatch padId m data bucketId rand = some batch) :
    ∀ q v, batchFeed m batch E D q = some v → v.length = m.batchSize := by
  intro q v hv
  simpa using length_of_batchFeed (getBatch_shape padId hb h) hv

/-- The batch of bucket `0`, two examples wide. -/
theorem batchFeed_getBatch_width_two :
    let m : Model := ⟨[(1, 2), (2, 3)], 3, 3, 2, false⟩
    let batch : Batch := ([[5, 5]], [[1, 1], [6, 6]], [[1, 1], [0, 0]])
    pyGet m.buckets 0 = some (1, 2) ∧
      getBatch 0 m [[([5], [1, 6])], [([5, 7], [1, 6, 8])]] 0 (fun _ => 0) = some batch ∧
      ∀ q v, batchFeed m batch 1 2 q = some v → v.length = 2 := by
  intro m batch
  have hb : pyGet m.buckets 0 = some (1, 2) := rfl
  have h : getBatch 0 m [[([5], [1, 6])], [([5, 7], [1, 6, 8])]] 0 (fun _ => 0) = some batch := by
    decide
  exact ⟨hb, h, batchFeed_getBatch_width 0 hb h⟩

/-- `step` on a batch `format_example` makes for a bucket id `≥ -1`, for every session: the
two take the same sizes, so the checks pass; a bucket past the graph's placeholders raises an
`IndexError`; so does a forward pass under `bucket_id == -1` on a graph with fewer buckets
than `max_target_length`; otherwise `step` returns what it is meant to from the session run
on the batch's feed. -/
theorem step_formatExample {α : Type} (padId : Nat) (useAttention : Bool) (run : Feed → Op → α)
    (forwardOnly : Bool) {encoderInputs decoderInputs : List (List Nat)} (hb : -1 ≤ bucketId)
    (hs : (if 0 ≤ bucketId then pyGet m.buckets bucketId
      else some (m.maxSourceLength, m.maxTargetLength)) = some (E, D))
    (h : formatExample padId m encoderInputs decoderInputs bucketId = some batch) :
    step m useAttention run batch bucketId forwardOnly =
      if E ≤ m.maxSourceLength ∧ D ≤ m.maxTargetLength then
        if forwardOnly = true ∧ bucketId = -1 ∧ m.buckets ≠ [] ∧ m.buckets.length < D then
          .error .indexError
        else .ok (stepResult useAttention forwardOnly (run (batchFeed m batch E D))
          (bucketOps bucketId) (logitOps m bucketId D))
      else .error .indexError := by
  obtain ⟨hc, hshape⟩ := formatExample_shape padId hs h
  refine step_eq_of_stepSizes _ _ _ hc ?_ hshape.weights_length.ge
  by_cases h0 : 0 ≤ bucketId
  · rw [if_pos h0] at hs
    exact stepSizes_of_shape hshape (by omega) hs
  · obtain rfl : bucketId = -1 := by omega
    simp only [h0, ↓reduceIte, Option.some.injEq, Prod.mk.injEq] at hs
    rw [stepSizes_last_of_shape hshape, if_pos ⟨hs.1.symm, hs.2.symm⟩]

/-- Under `bucket_id == -1`, `format_example` pads to the maximal lengths `(3, 3)`, which
`step` asserts; a forward pass then reads `self.outputs[2]` of a graph with two buckets. -/
theorem step_formatExample_last :
    let m : Model := ⟨[(1, 2), (2, 3)], 3, 3, 2, false⟩
    let batch : Batch := ([[0], [0], [5]], [[1], [6], [8]], [[1], [1], [0]])
    (-1 : Int) ≤ -1 ∧
      (if (0 : Int) ≤ -1 then pyGet m.buckets (-1) else some (3, 3)) = some (3, 3) ∧
      formatExample 0 m [[5]] [[1, 6, 8]] (-1) = some batch ∧
      step m false (fun _ _ => (0 : Nat)) batch (-1) true = .error .indexError := by
  intro m batch
  have hs : (if (0 : Int) ≤ -1 then pyGet m.buckets (-1) else some (3, 3)) = some (3, 3) := rfl
  have h : formatExample 0 m [[5]] [[1, 6, 8]] (-1) = some batch := by decide
  exact ⟨Int.le_refl _, hs, h,
    (step_formatExample 0 false (fun _ _ => (0 : Nat)) true (Int.le_refl _) hs h).trans rfl⟩

/-- For a bucket id below `-1`, `format_example` pads to the maximal lengths while `step`
checks the batch against `buckets[bucket_id]`: for every session, `step` returns exactly
when that bucket has the maximal lengths. -/
theorem step_formatExample_lt {α : Type} (padId : Nat) (useAttention : Bool)
    (run : Feed → Op → α) (forwardOnly : Bool) {encoderInputs decoderInputs : List (List Nat)}
    (hb : bucketId < -1)
    (h : formatExample padId m encoderInputs decoderInputs bucketId = some batch) :
    (∃ r, step m useAttention run batch bucketId forwardOnly = .ok r) ↔
      pyGet m.buckets bucketId = some (m.maxSourceLength, m.maxTargetLength) := by
  obtain ⟨hc, hshape⟩ := formatExample_shape padId (if_neg (show ¬0 ≤ bucketId by omega)) h
  have hb1 : bucketId ≠ -1 := by omega
  constructor
  · rintro ⟨r, hr⟩
    obtain ⟨E', D', hs⟩ := exists_stepSizes_of_step_eq_ok hr
    obtain ⟨h1, h2, hp⟩ := of_stepSizes_eq_ok hs
    rw [hshape.encoder_length] at h1
    rw [hshape.decoder_length] at h2
    subst h1 h2
    exact hp hb1
  · intro hp
    rw [step_eq_of_stepSizes _ _ _ hc (stepSizes_of_shape hshape hb1 hp) hshape.weights_length.ge,
      if_pos ⟨le_rfl, le_rfl⟩, if_neg fun h => hb1 h.2.1]
    exact ⟨_, rfl⟩

/-- At `bucket_id = -2`, `format_example` pads to `(3, 3)` and `step` checks the bucket
`(1, 2)`: the batch is refused. -/
theorem step_formatExample_lt_two :
    let m : Model := ⟨[(1, 2), (2, 3)], 3, 3, 2, false⟩
    let batch : Batch := ([[0], [0], [5]], [[1], [6], [8]], [[1], [1], [0]])
    (-2 : Int) < -1 ∧ formatExample 0 m [[5]] [[1, 6, 8]] (-2) = some batch ∧
      ¬∃ r, step m false (fun _ _ => (0 : Nat)) batch (-2) false = .ok r := by
  intro m batch
  have h : formatExample 0 m [[5]] [[1, 6, 8]] (-2) = some batch := by decide
  exact ⟨by decide, h, fun hr =>
    absurd ((step_formatExample_lt 0 false (fun _ _ => (0 : Nat)) false (by decide) h).mp hr)
      (by decide)⟩

/-- For a batch `format_example` makes of `k` examples with sizes `(E, D)`, every vector
`step` feeds but the last target has `k` entries, and the last target has `batch_size`: the
feed is `batch_size` wide exactly when `k` is `batch_size` or nothing but the last target is
fed. -/
theorem batchFeed_formatExample_width (padId : Nat) {encoderInputs decoderInputs : List (List Nat)}
    (hs : (if 0 ≤ bucketId then pyGet m.buckets bucketId
      else some (m.maxSourceLength, m.maxTargetLength)) = some (E, D))
    (h : formatExample padId m encoderInputs decoderInputs bucketId = some batch) :
    (∀ q v, batchFeed m batch E D q = some v → v.length = m.batchSize) ↔
      E + D = 0 ∨ encoderInputs.length = m.batchSize := by
  obtain ⟨-, hshape⟩ := formatExample_shape padId hs h
  constructor
  · intro hw
    by_cases hED : E + D = 0
    · exact .inl hED
    · obtain ⟨q, v, hq, hv⟩ := exists_batchFeed_of_ne hshape hED
      rw [← hw q v hv, length_of_batchFeed hshape hv, if_neg hq]
      exact .inr rfl
  · rintro hk q v hv
    rw [length_of_batchFeed hshape hv]
    split_ifs with hq
    · rfl
    · rcases hk with hED | hk
      · obtain ⟨rfl, rfl⟩ : E = 0 ∧ D = 0 := by omega
        simp [batchFeed, hq, loopFeed_zero] at hv
      · exact hk

/-- One example under a `batch_size` of two: the encoder vector has one entry, the last
target two. -/
theorem batchFeed_formatExample_width_one :
    let m : Model := ⟨[(1, 2), (2, 3)], 3, 3, 2, false⟩
    let batch : Batch := ([[5]], [[1], [6]], [[1], [0]])
    (if (0 : Int) ≤ 0 then pyGet m.buckets 0 else some (3, 3)) = some (1, 2) ∧
      formatExample 0 m [[5]] [[1, 6]] 0 = some batch ∧
      ¬∀ q v, batchFeed m batch 1 2 q = some v → v.length = 2 := by
  intro m batch
  have hs : (if (0 : Int) ≤ 0 then pyGet m.buckets 0 else some (3, 3)) = some (1, 2) := rfl
  have h : formatExample 0 m [[5]] [[1, 6]] 0 = some batch := by decide
  exact ⟨hs, h, fun hw => absurd ((batchFeed_formatExample_width 0 hs h).mp hw) (by decide)⟩

end Compose

end AwesomeNmt.EncoderDecoder
