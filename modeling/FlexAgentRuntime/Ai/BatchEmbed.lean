import Mathlib

/-!
`BatchEmbed` of `internal/ai/embedding_batch.go`: an embedding request cut into batches of at
most the size that the provider takes.

`embedFn` may answer every call in its own way and `ctx.Err` every batch, so both take the
number of the call.
-/

namespace FlexAgentRuntime.Ai

open List

variable {V C : Type} [Zero C] [Add C] {f : String → V}

/-- The embedding of the text at an index; `Values` and `Raw` are one value here. -/
structure Embedding (V : Type) where
  index : Nat
  value : V
  deriving DecidableEq

structure EmbeddingUsage (C : Type) where
  tokens : Int
  cost : C
  deriving DecidableEq

def EmbeddingUsage.add (u v : EmbeddingUsage C) : EmbeddingUsage C :=
  ⟨u.tokens + v.tokens, u.cost + v.cost⟩

structure EmbeddingResponse (V C : Type) where
  embeddings : List (Embedding V)
  model : String
  usage : EmbeddingUsage C
  deriving DecidableEq

/-- A call's texts, and its response and error. -/
abbrev EmbedFunc (V C : Type) := Nat → List String → Option (EmbeddingResponse V C) × Option String

def batchFailed (start stop : Nat) (err : String) : String :=
  "embed batch [" ++ toString start ++ ":" ++ toString stop ++ "] failed: " ++ err

/-- The loop of `BatchEmbed`, before batch `k`. -/
def batchLoop (embedFn : EmbedFunc V C) (ctxErr : Nat → Option String) (model : String)
    (texts : List String) (batchSize : Nat) (hsize : 0 < batchSize) (k start : Nat)
    (allEmbeddings : List (Embedding V)) (usage : EmbeddingUsage C) :
    Option (EmbeddingResponse V C) × Option String :=
  if start < texts.length then
    match ctxErr k with
    | some err => (some ⟨allEmbeddings, model, usage⟩, some err)
    | none =>
      let stop := min (start + batchSize) texts.length
      match embedFn k ((texts.take stop).drop start) with
      | (_, some err) => (some ⟨allEmbeddings, model, usage⟩, some (batchFailed start stop err))
      | (some resp, none) =>
        batchLoop embedFn ctxErr model texts batchSize hsize (k + 1) (start + batchSize)
          (allEmbeddings ++ resp.embeddings.map fun emb => { emb with index := emb.index + start })
          (usage.add resp.usage)
      | (none, none) =>
        batchLoop embedFn ctxErr model texts batchSize hsize (k + 1) (start + batchSize)
          allEmbeddings usage
  else (some ⟨allEmbeddings, model, usage⟩, none)
  termination_by texts.length - start

/-- `model.MaxBatchSize`, or one batch for all texts. -/
def effectiveBatchSize (maxBatchSize : Int) (texts : List String) : Nat :=
  if maxBatchSize ≤ 0 then max texts.length 1 else maxBatchSize.toNat

theorem effectiveBatchSize_pos (maxBatchSize : Int) (texts : List String) :
    0 < effectiveBatchSize maxBatchSize texts := by
  unfold effectiveBatchSize
  split <;> omega

def batchEmbed (embedFn : Option (EmbedFunc V C)) (ctxErr : Nat → Option String) (model : String)
    (maxBatchSize : Int) (texts : List String) : Option (EmbeddingResponse V C) × Option String :=
  match embedFn with
  | none => (none, some "embed function is required")
  | some embedFn =>
    if texts.length ≤ effectiveBatchSize maxBatchSize texts then embedFn 0 texts
    else batchLoop embedFn ctxErr model texts (effectiveBatchSize maxBatchSize texts)
      (effectiveBatchSize_pos maxBatchSize texts) 0 0 [] ⟨0, 0⟩

/-! ## Batches -/

/-- The texts of batch `k`. -/
def batchTexts (texts : List String) (size k : Nat) : List String :=
  (texts.take (min (k * size + size) texts.length)).drop (k * size)

/-- The embeddings of texts, each at the index of its text. -/
def embedAll (f : String → V) (texts : List String) : List (Embedding V) :=
  texts.mapIdx fun i text => ⟨i, f text⟩

/-- What ends the loop at batch `k`: a cancelled context or a failed call. -/
def batchError (embedFn : EmbedFunc V C) (ctxErr : Nat → Option String) (texts : List String)
    (size k : Nat) : Option String :=
  (ctxErr k).or ((embedFn k (batchTexts texts size k)).2.map
    (batchFailed (k * size) (min (k * size + size) texts.length)))

/-- What the first `k` batches have used. -/
def batchUsage (embedFn : EmbedFunc V C) (texts : List String) (size k : Nat) : EmbeddingUsage C :=
  (range k).foldl (fun usage j => usage.add
    (((embedFn j (batchTexts texts size j)).1.map (·.usage)).getD ⟨0, 0⟩)) ⟨0, 0⟩

/-- A call without an error gives the embeddings of its texts, each of which depends on its
text only. -/
def Embeds (embedFn : EmbedFunc V C) (f : String → V) : Prop :=
  ∀ k texts, (embedFn k texts).2 = none →
    ∃ resp, (embedFn k texts).1 = some resp ∧ resp.embeddings = embedAll f texts

/-- The result after `k` whole batches, at the end or at an error of batch `k`. -/
def StopsAt (embedFn : EmbedFunc V C) (f : String → V) (ctxErr : Nat → Option String)
    (model : String) (texts : List String) (size k : Nat)
    (result : Option (EmbeddingResponse V C) × Option String) : Prop :=
  (∀ j < k, j * size < texts.length ∧ batchError embedFn ctxErr texts size j = none) ∧
  result.1 = some ⟨embedAll f (texts.take (k * size)), model, batchUsage embedFn texts size k⟩ ∧
  (texts.length ≤ k * size ∧ result.2 = none ∨
    k * size < texts.length ∧ result.2 = batchError embedFn ctxErr texts size k ∧ result.2 ≠ none)

theorem embedAll_append (texts more : List String) : embedAll f (texts ++ more) = embedAll f texts ++
    (embedAll f more).map fun emb => { emb with index := emb.index + texts.length } := by
  rw [embedAll, mapIdx_append, embedAll, embedAll]
  congr 1
  apply ext_getElem? fun i => ?_
  simp [Function.comp_def]

theorem take_succ_batch (texts : List String) (size k : Nat) :
    texts.take ((k + 1) * size) = texts.take (k * size) ++ batchTexts texts size k := by
  have h := take_append_drop (k * size) (texts.take (k * size + size))
  rw [take_take, Nat.min_eq_left (by omega)] at h
  rw [batchTexts, ← take_eq_take_min, Nat.succ_mul, h]

theorem batchUsage_succ (embedFn : EmbedFunc V C) (texts : List String) (size k : Nat) :
    batchUsage embedFn texts size (k + 1) = (batchUsage embedFn texts size k).add
      (((embedFn k (batchTexts texts size k)).1.map (·.usage)).getD ⟨0, 0⟩) := by
  simp [batchUsage, range_succ]

theorem batchLoop_stopsAt {embedFn : EmbedFunc V C} (hfn : Embeds embedFn f)
    (ctxErr : Nat → Option String) (model : String) (texts : List String) (size : Nat)
    (hsize : 0 < size) (k : Nat)
    (hk : ∀ j < k, j * size < texts.length ∧ batchError embedFn ctxErr texts size j = none) :
    ∃ n, StopsAt embedFn f ctxErr model texts size n
      (batchLoop embedFn ctxErr model texts size hsize k (k * size)
        (embedAll f (texts.take (k * size))) (batchUsage embedFn texts size k)) := by
  induction hleft : texts.length - k * size using Nat.strongRecOn generalizing k with
  | ind left ih =>
  rw [batchLoop]
  split
  · rename_i hlt
    cases hctx : ctxErr k with
    | some err => exact ⟨k, hk, rfl, .inr ⟨hlt, by simp [batchError, hctx], by simp⟩⟩
    | none =>
      simp only
      rw [← batchTexts]
      rcases hcall : embedFn k (batchTexts texts size k) with ⟨resp?, _ | err⟩
      · obtain ⟨resp, hresp, hembs⟩ := hfn k _ (by rw [hcall])
        rw [hcall] at hresp
        subst hresp
        have hnext : ∀ j < k + 1, j * size < texts.length ∧
            batchError embedFn ctxErr texts size j = none := by
          intro j hj
          rcases Nat.lt_succ_iff_lt_or_eq.1 hj with hj | rfl
          · exact hk j hj
          · exact ⟨hlt, by simp [batchError, hctx, hcall]⟩
        obtain ⟨n, hn⟩ := ih _ (by rw [← hleft, Nat.succ_mul]; omega) (k + 1) hnext rfl
        rw [batchUsage_succ, take_succ_batch, embedAll_append, hcall, Nat.succ_mul,
          length_take_of_le (le_of_lt hlt), ← hembs] at hn
        exact ⟨n, hn⟩
      · exact ⟨k, hk, rfl, .inr ⟨hlt, by simp [batchError, hctx, hcall], by simp⟩⟩
  · exact ⟨k, hk, rfl, .inl ⟨by omega, rfl⟩⟩

/-- Texts that fit into one batch are one call, whatever the context says. More texts give
the embeddings of all of them, each at its index, or those of the batches before the first
one that fails or finds the context cancelled, with its error. -/
theorem batchEmbed_stopsAt (embedFn : EmbedFunc V C) (f : String → V) (hfn : Embeds embedFn f)
    (ctxErr : Nat → Option String) (model : String) (maxBatchSize : Int) (texts : List String) :
    let size := effectiveBatchSize maxBatchSize texts
    let result := batchEmbed (some embedFn) ctxErr model maxBatchSize texts
    (texts.length ≤ size → result = embedFn 0 texts) ∧
      (size < texts.length → ∃ k, StopsAt embedFn f ctxErr model texts size k result) := by
  intro size result
  refine ⟨fun h => if_pos h, fun h => ?_⟩
  have hloop := batchLoop_stopsAt hfn ctxErr model texts size
    (effectiveBatchSize_pos maxBatchSize texts) 0 (by simp)
  rw [Nat.zero_mul] at hloop
  have hresult : result = _ := if_neg (not_le.2 h)
  rwa [hresult]

/-- A function that gives each text its length. -/
def embedLengths : EmbedFunc Nat Nat := fun _ texts =>
  (some ⟨embedAll String.length texts, "m", ⟨texts.length, 1⟩⟩, none)

theorem batchEmbed_stopsAt_three :
    ∃ k, StopsAt embedLengths String.length (fun _ => none) "m" ["a", "bb", "ccc"] 1 k
      (batchEmbed (some embedLengths) (fun _ => none) "m" 1 ["a", "bb", "ccc"]) :=
  (batchEmbed_stopsAt embedLengths String.length (fun _ _ _ => ⟨_, rfl, rfl⟩) (fun _ => none) "m" 1
    ["a", "bb", "ccc"]).2 (by decide)

/-- A text that fits into one batch is embedded although the context is cancelled. -/
theorem cancelled_context_ignored :
    batchEmbed (some embedLengths) (fun _ => some "context canceled") "m" 1 ["a"] =
      (some ⟨[⟨0, 1⟩], "m", ⟨1, 1⟩⟩, none) := by
  decide

end FlexAgentRuntime.Ai
