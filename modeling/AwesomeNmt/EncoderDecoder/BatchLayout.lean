/-
  AwesomeNmt.EncoderDecoder.BatchLayout — what `get_batch` returns, position by position.

  Every row `get_batch` reads is padded to at least the bucket's size, so none of its reads
  fails, and each batch-major vector is the column of its padded rows at one position.
  At position `l` the reversed, padded encoder input holds `enc[E-1-l]` or `PAD_ID`
  (`getD_padEncoder`); the padded decoder input holds `dec[l]` or `PAD_ID`
  (`getD_padDecoder`); the weight reads the next padded decoder input
  (`targetWeight_padDecoder_eq`).

  ## Main results

    * `getBatch_eq_layout` — with encoder inputs no longer than the bucket, `get_batch`
      returns `E` encoder, `D` decoder and `D` weight vectors of `batch_size` entries,
      each entry given by its position and example.
-/
import AwesomeNmt.EncoderDecoder.Batch

namespace AwesomeNmt.EncoderDecoder

/-! ## §1. Reads that do not fail. -/

theorem mapM_eq_some_map {α β : Type} {f : α → Option β} {g : α → β} :
    ∀ {xs : List α}, (∀ x ∈ xs, f x = some (g x)) → xs.mapM f = some (xs.map g)
  | [], _ => rfl
  | x :: xs, h => by
    rw [List.mapM_cons, h x (List.mem_cons_self x xs),
      mapM_eq_some_map fun y hy => h y (List.mem_cons_of_mem x hy)]
    rfl

theorem length_of_mapM_eq_some {α β : Type} {f : α → Option β} :
    ∀ {xs : List α} {ys : List β}, xs.mapM f = some ys → ys.length = xs.length
  | [], ys, h => by cases h; rfl
  | x :: xs, ys, h => by
    simp only [List.mapM_cons, Option.bind_eq_bind, Option.bind_eq_some, Option.pure_def,
      Option.some.injEq] at h
    obtain ⟨y, -, ys', hys', rfl⟩ := h
    simp [length_of_mapM_eq_some hys']

/-- The examples `get_batch` draws are `batch_size` many. -/
theorem length_drawExamples {m : Model} {data : List (List (List Nat × List Nat))}
    {bucketId : Int} {rand : Nat → Nat} {examples : List (List Nat × List Nat)}
    (h : drawExamples m data bucketId rand = some examples) : examples.length = m.batchSize := by
  rw [length_of_mapM_eq_some h, List.length_range]

section Layout

variable (padId : Nat)

/-- Rows long enough are read as their columns. -/
theorem batchMajor_eq {size : Nat} (rows : List (List Nat))
    (h : ∀ row ∈ rows, size ≤ row.length) :
    batchMajor size rows = some ((List.range size).map fun l => rows.map (·.getD l padId)) :=
  mapM_eq_some_map fun l hl => mapM_eq_some_map fun row hrow => by
    rw [List.getD_eq_getElem?_getD,
      List.getElem?_eq_getElem (Nat.lt_of_lt_of_le (List.mem_range.mp hl) (h row hrow))]
    rfl

/-- Padding with `PAD_ID` reads as `PAD_ID` past the end anyway. -/
theorem getD_append_replicate (e : List Nat) (k l : Nat) :
    (e ++ List.replicate k padId).getD l padId = e.getD l padId := by
  simp only [List.getD_eq_getElem?_getD, List.getElem?_append, List.getElem?_replicate]
  split_ifs with h₁
  · rfl
  all_goals rw [List.getElem?_eq_none (Nat.le_of_not_lt h₁)]; try rfl

/-- Position `l` of a padded decoder input: the input's, or `PAD_ID` past its end. -/
theorem getD_padDecoder (decoderSize l : Nat) (d : List Nat) :
    (padDecoder padId decoderSize d).getD l padId = d.getD l padId :=
  getD_append_replicate padId d _ l

/-- Position `l < E` of a reversed, padded encoder input no longer than `E`: the input's
position `E-1-l`, or `PAD_ID` past its end. -/
theorem getD_padEncoder {encoderSize l : Nat} {e : List Nat} (hl : l < encoderSize)
    (he : e.length ≤ encoderSize) :
    (padEncoder padId encoderSize e).getD l padId = e.getD (encoderSize - 1 - l) padId := by
  have hlen : (e ++ List.replicate (encoderSize - e.length) padId).length = encoderSize := by
    simp; omega
  rw [padEncoder, List.getD_eq_getElem?_getD, List.getElem?_reverse (by omega), hlen,
    ← List.getD_eq_getElem?_getD, getD_append_replicate]

/-- The weight at `l < D` from a padded decoder input: 0 at the last position, where the
input has no next token, or where its next token is `PAD_ID`; 1 otherwise. -/
theorem targetWeight_padDecoder_eq {decoderSize l : Nat} (d : List Nat) (hl : l < decoderSize) :
    targetWeight padId decoderSize l (padDecoder padId decoderSize d) =
      some (if l = decoderSize - 1 ∨ d.length ≤ l + 1 ∨ d[l + 1]? = some padId then 0 else 1) := by
  unfold targetWeight
  by_cases hlast : l < decoderSize - 1
  · have hnext : (padDecoder padId decoderSize d)[l + 1]? = some (d.getD (l + 1) padId) := by
      rw [← getD_padDecoder padId decoderSize, List.getD_eq_getElem?_getD,
        List.getElem?_eq_getElem (Nat.lt_of_lt_of_le (by omega) (length_padDecoder padId _ d))]
      rfl
    rw [if_pos hlast, hnext, Option.map_some']
    have hne : l ≠ decoderSize - 1 := by omega
    cases h : d[l + 1]? with
    | none => simp [List.getD_eq_getElem?_getD, h, List.getElem?_eq_none_iff.mp h]
    | some x =>
      have hlt : ¬ d.length ≤ l + 1 := fun hle => by simp [List.getElem?_eq_none hle] at h
      simp [List.getD_eq_getElem?_getD, h, hne, hlt]
  · rw [if_neg hlast, if_pos (.inl (by omega))]

/-! ## §2. `get_batch`, position by position. -/

/-- With encoder inputs no longer than the bucket, `get_batch` returns `E` encoder
vectors, `D` decoder vectors and `D` weight vectors, each with one entry per drawn
example, `batch_size` of them.  At position `l`, for the example `(enc, dec)`: `enc[E-1-l]`,
or `PAD_ID` past its end; `dec[l]`, or `PAD_ID` past its end; and the weight 0 at the last
position, where `dec` has no token `l+1` or that token is `PAD_ID`, and 1 otherwise. -/
theorem getBatch_eq_layout (m : Model) (data : List (List (List Nat × List Nat)))
    (bucketId : Int) (rand : Nat → Nat) (encoderSize decoderSize : Nat)
    (examples : List (List Nat × List Nat))
    (hb : pyGet m.buckets bucketId = some (encoderSize, decoderSize))
    (hdraw : drawExamples m data bucketId rand = some examples)
    (henc : ∀ e ∈ examples, e.1.length ≤ encoderSize) :
    examples.length = m.batchSize ∧
      getBatch padId m data bucketId rand = some
        ((List.range encoderSize).map fun l =>
          examples.map fun e => e.1.getD (encoderSize - 1 - l) padId,
        (List.range decoderSize).map fun l => examples.map fun e => e.2.getD l padId,
        (List.range decoderSize).map fun l => examples.map fun e =>
          if l = decoderSize - 1 ∨ e.2.length ≤ l + 1 ∨ e.2[l + 1]? = some padId then 0 else 1) := by
  refine ⟨length_drawExamples hdraw, ?_⟩
  have hgb : getBatch padId m data bucketId rand = batchTriple padId encoderSize decoderSize
      examples (examples.map fun e => padDecoder padId decoderSize e.2) := by
    simp only [getBatch, hb, hdraw]
    rfl
  have hE := batchMajor_eq padId (examples.map fun e => padEncoder padId encoderSize e.1)
    fun row hrow => by
      obtain ⟨e, -, rfl⟩ := List.mem_map.mp hrow
      exact length_padEncoder padId _ _
  have hD := batchMajor_eq padId (examples.map fun e => padDecoder padId decoderSize e.2)
    fun row hrow => by
      obtain ⟨e, -, rfl⟩ := List.mem_map.mp hrow
      exact length_padDecoder padId _ _
  have hW : batchWeights padId decoderSize (examples.map fun e => padDecoder padId decoderSize e.2) =
      some ((List.range decoderSize).map fun l => examples.map fun e =>
        if l = decoderSize - 1 ∨ e.2.length ≤ l + 1 ∨ e.2[l + 1]? = some padId then 0 else 1) :=
    mapM_eq_some_map fun l hl => by
      rw [mapM_map]
      exact mapM_eq_some_map fun e _ =>
        targetWeight_padDecoder_eq padId e.2 (List.mem_range.mp hl)
  rw [hgb, batchTriple, hE, hD, hW]
  simp only [List.map_map, Function.comp_def, Option.bind_eq_bind, Option.some_bind,
    Option.pure_def, Option.some.injEq, Prod.mk.injEq]
  refine ⟨List.map_congr_left fun l hl => List.map_congr_left fun e he => ?_,
    List.map_congr_left fun l _ => List.map_congr_left fun e _ => getD_padDecoder padId _ _ _, trivial⟩
  exact getD_padEncoder padId (List.mem_range.mp hl) (henc e he)

/-- Two examples `([5], [1, 7])` and `([6, 8], [1])` in the bucket `(2, 3)`, `PAD_ID` 0. -/
theorem getBatch_eq_layout_two :
    let m : Model := ⟨[(2, 3)], 2, 3, 2, false⟩
    let ex : List (List Nat × List Nat) := [([5], [1, 7]), ([6, 8], [1])]
    pyGet m.buckets 0 = some (2, 3) ∧ drawExamples m [ex] 0 (fun b => b) = some ex ∧
      (∀ e ∈ ex, e.1.length ≤ 2) ∧ ex.length = m.batchSize ∧
      getBatch 0 m [ex] 0 (fun b => b) = some
        ((List.range 2).map fun l => ex.map fun e => e.1.getD (2 - 1 - l) 0,
        (List.range 3).map fun l => ex.map fun e => e.2.getD l 0,
        (List.range 3).map fun l => ex.map fun e =>
          if l = 3 - 1 ∨ e.2.length ≤ l + 1 ∨ e.2[l + 1]? = some 0 then 0 else 1) :=
  ⟨rfl, rfl, by decide, getBatch_eq_layout 0 _ _ 0 _ 2 3 _ rfl rfl (by decide)⟩

/-- The same batch, evaluated: the encoder inputs reversed and left-padded, the weights 1
only where a non-padding token follows. -/
example : getBatch 0 ⟨[(2, 3)], 2, 3, 2, false⟩ [[([5], [1, 7]), ([6, 8], [1])]] 0 (fun b => b) =
    some ([[0, 8], [5, 6]], [[1, 1], [7, 0], [0, 0]], [[1, 0], [0, 0], [0, 0]]) := by
  decide

end Layout

end AwesomeNmt.EncoderDecoder
