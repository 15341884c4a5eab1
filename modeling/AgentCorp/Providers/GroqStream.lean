/-
  `GroqProvider.stream_chat`: the chunks of the Groq API as the chunks of the provider.

  The loop ends at the first chunk without choices or with a finish reason; what comes after it
  is not read. `Normalised` is what a stream should keep of its upstream, `KeepsAll` the
  condition on the upstream under which it does.

  * `streamLoop_append`: the chunks before the last one that is read.
  * `normalised_iff`: exactly the streams that lose nothing after that chunk are normalised.
-/
import AgentCorp.Providers.ProviderManager
import Mathlib.Data.List.TakeWhile

namespace AgentCorp.Providers

open AgentCorp.Python AgentCorp.Chat
open AgentCorp.Streaming (Usage StreamChunk ChunkStream)

/-! ## The API -/

structure UpstreamChoice where
  content : Option String := none
  finishReason : Option String := none
  deriving DecidableEq, Repr

structure UpstreamChunk where
  choices : List UpstreamChoice := []
  usage : Option Usage := none
  model : Option String := none
  deriving DecidableEq, Repr

/-- A stream of the API: its chunks, and whether it is exhausted or raises after them. -/
structure Upstream where
  chunks : List UpstreamChunk
  ending : Except BaseExn Unit

namespace UpstreamChunk

variable (chunk : UpstreamChunk)

/-- `delta.content or ""`, of the first choice. -/
def text : String :=
  (chunk.choices.head?.bind UpstreamChoice.content).getD ""

def reason : Option String :=
  chunk.choices.head?.bind UpstreamChoice.finishReason

/-- The loop reads no chunk after this one. -/
def ends : Bool :=
  chunk.choices = [] || (nonempty chunk.reason).isSome

end UpstreamChunk

/-! ## GroqProvider.stream_chat -/

/-- What `except Exception` makes of an exception. The mapped one has the same text. -/
def streamingError : BaseExn → BaseExn
  | .exception exc => .exception (.other "ProviderStreamingError" exc.text)
  | raised => raised

/-- The loop over the stream, of a request for the model `requested`. -/
def streamLoop (requested : String) (index : Int) :
    List UpstreamChunk → Except BaseExn Unit → ChunkStream
  | [], ending => { chunks := [], ending := ending.mapError streamingError }
  | chunk :: rest, ending =>
      match chunk.choices with
      | [] =>
          { chunks := [{ token := "", index := index, finishReason := some "stop",
                         usage := chunk.usage, model := requested }]
            ending := .ok () }
      | choice :: _ =>
          let finishReason := choice.finishReason
          let usage := if (nonempty finishReason).isSome then chunk.usage else none
          let yielded : StreamChunk :=
            { token := choice.content.getD "", index := index, finishReason := finishReason,
              usage := usage, model := (nonempty chunk.model).getD requested }
          if (nonempty finishReason).isSome then { chunks := [yielded], ending := .ok () }
          else
            let later := streamLoop requested (index + 1) rest ending
            { later with chunks := yielded :: later.chunks }

/-- The stream of a request, which `create` opens. -/
def groqStreamChat (create : ChatRequest → Except BaseExn Upstream) (request : ChatRequest) :
    ChunkStream :=
  match create { request with stream := true } with
  | .ok stream => streamLoop request.model 0 stream.chunks stream.ending
  | .error raised => { chunks := [], ending := .error (streamingError raised) }

/-! ## What the loop yields -/

/-- The chunk that is yielded for one of the API. -/
def yieldOf (requested : String) (index : Int) (chunk : UpstreamChunk) : StreamChunk where
  token := chunk.text
  index := index
  finishReason := if chunk.choices = [] then some "stop" else chunk.reason
  usage := if chunk.ends then chunk.usage else none
  model := if chunk.choices = [] then requested else (nonempty chunk.model).getD requested

theorem streamLoop_of_ends {chunk : UpstreamChunk} (h : chunk.ends = true) (requested : String)
    (index : Int) (rest : List UpstreamChunk) (ending : Except BaseExn Unit) :
    (streamLoop requested index (chunk :: rest) ending).chunks =
      [yieldOf requested index chunk] := by
  obtain ⟨choices, usage, model⟩ := chunk
  cases choices with
  | nil => rfl
  | cons choice others =>
      have hreason : (nonempty choice.finishReason).isSome := by
        simpa [UpstreamChunk.ends, UpstreamChunk.reason] using h
      simp [streamLoop, yieldOf, UpstreamChunk.ends, UpstreamChunk.reason, UpstreamChunk.text,
        hreason]

theorem streamLoop_of_not_ends {chunk : UpstreamChunk} (h : chunk.ends = false)
    (requested : String) (index : Int) (rest : List UpstreamChunk) (ending : Except BaseExn Unit) :
    (streamLoop requested index (chunk :: rest) ending).chunks =
      yieldOf requested index chunk ::
        (streamLoop requested (index + 1) rest ending).chunks := by
  obtain ⟨choices, usage, model⟩ := chunk
  cases choices with
  | nil => cases h
  | cons choice others =>
      have hreason : (nonempty choice.finishReason).isSome = false := by
        simpa [UpstreamChunk.ends, UpstreamChunk.reason] using h
      simp [streamLoop, yieldOf, UpstreamChunk.ends, UpstreamChunk.reason, UpstreamChunk.text,
        hreason]

/-- The chunks that are yielded for some of the API, with indices from `index` on. -/
def yieldsFrom (requested : String) (index : Int) : List UpstreamChunk → List StreamChunk
  | [] => []
  | chunk :: rest => yieldOf requested index chunk :: yieldsFrom requested (index + 1) rest

theorem yieldsFrom_append (requested : String) (index : Int) (chunks rest : List UpstreamChunk) :
    yieldsFrom requested index (chunks ++ rest) =
      yieldsFrom requested index chunks ++
        yieldsFrom requested (index + chunks.length) rest := by
  induction chunks generalizing index with
  | nil => simp [yieldsFrom]
  | cons chunk chunks ih =>
      have hindex : index + 1 + (chunks.length : Int) =
          index + ((chunk :: chunks).length : Int) := by
        rw [List.length_cons]
        omega
      rw [List.cons_append, yieldsFrom, ih, hindex]
      rfl

/-- The loop goes through the chunks that do not end it. -/
theorem streamLoop_append {before : List UpstreamChunk} (h : ∀ chunk ∈ before, chunk.ends = false)
    (requested : String) (index : Int) (rest : List UpstreamChunk) (ending : Except BaseExn Unit) :
    (streamLoop requested index (before ++ rest) ending).chunks =
      yieldsFrom requested index before ++
        (streamLoop requested (index + before.length) rest ending).chunks := by
  induction before generalizing index with
  | nil => simp [yieldsFrom]
  | cons chunk before ih =>
      obtain ⟨hchunk, hbefore⟩ := List.forall_mem_cons.mp h
      have hindex : index + 1 + (before.length : Int) =
          index + ((chunk :: before).length : Int) := by
        rw [List.length_cons]
        omega
      rw [List.cons_append, streamLoop_of_not_ends hchunk, ih hbefore, hindex]
      rfl

theorem map_token_yieldsFrom (requested : String) (index : Int) (chunks : List UpstreamChunk) :
    (yieldsFrom requested index chunks).map StreamChunk.token =
      chunks.map UpstreamChunk.text := by
  induction chunks generalizing index with
  | nil => rfl
  | cons chunk chunks ih => rw [yieldsFrom, List.map_cons, ih, List.map_cons]; rfl

theorem map_index_yieldsFrom (requested : String) (index : Int) (chunks : List UpstreamChunk) :
    (yieldsFrom requested index chunks).map StreamChunk.index =
      (List.range chunks.length).map fun i : Nat => index + (i : Int) := by
  induction chunks generalizing index with
  | nil => rfl
  | cons chunk chunks ih =>
      rw [yieldsFrom, List.map_cons, ih, List.length_cons, List.range_succ_eq_map, List.map_cons,
        List.map_map]
      congr 1
      · simp [yieldOf]
      · refine List.map_congr_left fun i _ => ?_
        simp only [Function.comp_apply, Nat.succ_eq_add_one]
        omega

/-- Before the last chunk that is read, finish reasons are those of the API. -/
theorem filterMap_finishReason_yieldsFrom {chunks : List UpstreamChunk}
    (h : ∀ chunk ∈ chunks, chunk.ends = false) (requested : String) (index : Int) :
    (yieldsFrom requested index chunks).filterMap StreamChunk.finishReason =
      chunks.filterMap UpstreamChunk.reason := by
  induction chunks generalizing index with
  | nil => rfl
  | cons chunk chunks ih =>
      obtain ⟨hchunk, hrest⟩ := List.forall_mem_cons.mp h
      have hchoices : chunk.choices ≠ [] := by
        intro hnone
        simp [UpstreamChunk.ends, hnone] at hchunk
      have hreason : (yieldOf requested index chunk).finishReason = chunk.reason := by
        simp [yieldOf, hchoices]
      rw [yieldsFrom, List.filterMap_cons, List.filterMap_cons, hreason, ih hrest]

theorem usage_of_mem_yieldsFrom {chunks : List UpstreamChunk}
    (h : ∀ chunk ∈ chunks, chunk.ends = false) {requested : String} {index : Int}
    {yielded : StreamChunk} (hin : yielded ∈ yieldsFrom requested index chunks) :
    yielded.usage = none := by
  induction chunks generalizing index with
  | nil => cases hin
  | cons chunk chunks ih =>
      obtain ⟨hchunk, hrest⟩ := List.forall_mem_cons.mp h
      rcases List.mem_cons.mp hin with rfl | hin
      · simp [yieldOf, hchunk]
      · exact ih hrest hin

/-! ## What is kept of the upstream -/

/-- The stream has the text, the finish reasons and the usage of the upstream, with indices
    from 0 on. -/
structure Normalised (upstream : List UpstreamChunk) (yielded : List StreamChunk) : Prop where
  tokens : String.join (yielded.map StreamChunk.token) =
    String.join (upstream.map UpstreamChunk.text)
  indices : yielded.map StreamChunk.index = (List.range yielded.length).map fun i : Nat => (i : Int)
  reasons : yielded.filterMap StreamChunk.finishReason =
    upstream.filterMap UpstreamChunk.reason
  usage : ∀ chunk ∈ upstream, ∀ usage, chunk.usage = some usage →
    ∃ chunk' ∈ yielded, chunk'.usage = some usage

/-- Nothing is lost after the last chunk that is read, and no usage before it. -/
def KeepsAll (upstream : List UpstreamChunk) : Prop :=
  match upstream.dropWhile (fun chunk => !chunk.ends) with
  | [] => ∀ chunk ∈ upstream, chunk.usage = none
  | last :: after =>
      (∀ chunk ∈ after, chunk.text = "") ∧
      after.filterMap UpstreamChunk.reason = (if last.choices = [] then ["stop"] else []) ∧
      ∀ chunk ∈ upstream, chunk.usage = none ∨ chunk.usage = last.usage

theorem join_eq_empty {texts : List String} :
    String.join texts = "" ↔ ∀ text ∈ texts, text = "" := by
  induction texts with
  | nil => simp
  | cons text texts ih =>
      rw [String.join_cons, List.forall_mem_cons, ← ih, String.append_eq_empty_iff]

/-- The chunks that are yielded have indices from 0 on. -/
theorem indices_yieldsFrom (requested : String) (chunks : List UpstreamChunk) :
    (yieldsFrom requested 0 chunks).map StreamChunk.index =
      (List.range (yieldsFrom requested 0 chunks).length).map fun i : Nat => (i : Int) := by
  have hlength : (yieldsFrom requested 0 chunks).length = chunks.length := by
    have h := congrArg List.length (map_token_yieldsFrom requested 0 chunks)
    simpa using h
  rw [map_index_yieldsFrom, hlength]
  simp

/-- A stream that is read to its end keeps all but a usage. -/
theorem normalised_exhausted {chunks : List UpstreamChunk}
    (h : ∀ chunk ∈ chunks, chunk.ends = false) (requested : String) :
    Normalised chunks (yieldsFrom requested 0 chunks) ↔
      ∀ chunk ∈ chunks, chunk.usage = none := by
  constructor
  · intro hnormal chunk hchunk
    cases husage : chunk.usage with
    | none => rfl
    | some usage =>
        obtain ⟨yielded, hin, hyielded⟩ := hnormal.usage chunk hchunk usage husage
        rw [usage_of_mem_yieldsFrom h hin] at hyielded
        cases hyielded
  · intro hnone
    refine ⟨by rw [map_token_yieldsFrom], indices_yieldsFrom requested chunks,
      filterMap_finishReason_yieldsFrom h requested 0, fun chunk hchunk usage husage => ?_⟩
    rw [hnone chunk hchunk] at husage
    cases husage

/-- What the chunk that ends the loop yields as its finish reason. -/
theorem filterMap_finishReason_last {last : UpstreamChunk} (h : last.ends = true)
    (requested : String) (index : Int) (after : List UpstreamChunk) :
    [yieldOf requested index last].filterMap StreamChunk.finishReason =
        (last :: after).filterMap UpstreamChunk.reason ↔
      after.filterMap UpstreamChunk.reason = if last.choices = [] then ["stop"] else [] := by
  by_cases hchoices : last.choices = []
  · have hreason : last.reason = none := by simp [UpstreamChunk.reason, hchoices]
    rw [List.filterMap_cons_none hreason, if_pos hchoices]
    have hyield : (yieldOf requested index last).finishReason = some "stop" := by
      simp [yieldOf, hchoices]
    rw [List.filterMap_cons_some hyield]
    exact eq_comm
  · have hsome : ∃ reason, last.reason = some reason := by
      cases hreason : last.reason with
      | none => simp [UpstreamChunk.ends, hchoices, hreason, nonempty] at h
      | some reason => exact ⟨reason, rfl⟩
    obtain ⟨reason, hreason⟩ := hsome
    rw [List.filterMap_cons_some hreason, if_neg hchoices]
    have hyield : (yieldOf requested index last).finishReason = some reason := by
      simp [yieldOf, hchoices, hreason]
    rw [List.filterMap_cons_some hyield, List.cons.injEq, eq_self, true_and]
    exact eq_comm

/-- A stream that ends at a chunk keeps all exactly if nothing is left behind. -/
theorem normalised_ended {before : List UpstreamChunk} (after : List UpstreamChunk)
    {last : UpstreamChunk} (h : ∀ chunk ∈ before, chunk.ends = false) (hlast : last.ends = true)
    (requested : String) :
    Normalised (before ++ last :: after) (yieldsFrom requested 0 (before ++ [last])) ↔
      (∀ chunk ∈ after, chunk.text = "") ∧
      after.filterMap UpstreamChunk.reason = (if last.choices = [] then ["stop"] else []) ∧
      ∀ chunk ∈ before ++ last :: after, chunk.usage = none ∨ chunk.usage = last.usage := by
  have hyields : yieldsFrom requested 0 (before ++ [last]) =
      yieldsFrom requested 0 before ++ [yieldOf requested (0 + before.length) last] :=
    yieldsFrom_append requested 0 before [last]
  have htokens : String.join ((yieldsFrom requested 0 (before ++ [last])).map StreamChunk.token) =
      String.join ((before ++ last :: after).map UpstreamChunk.text) ↔
        ∀ chunk ∈ after, chunk.text = "" := by
    have hsplit : before ++ last :: after = (before ++ [last]) ++ after := by simp
    have htexts : (before ++ [last] ++ after).map UpstreamChunk.text =
        (before ++ [last]).map UpstreamChunk.text ++ after.map UpstreamChunk.text :=
      List.map_append
    rw [map_token_yieldsFrom, hsplit, htexts, String.join_append]
    constructor
    · intro hjoin
      have hempty : String.join (after.map UpstreamChunk.text) = "" := by
        rw [← String.append_right_inj (String.join ((before ++ [last]).map UpstreamChunk.text)),
          ← hjoin, String.append_empty]
      exact fun chunk hchunk => join_eq_empty.mp hempty _ (List.mem_map_of_mem hchunk)
    · intro hempty
      have hjoin : String.join (after.map UpstreamChunk.text) = "" := by
        refine join_eq_empty.mpr fun text htext => ?_
        obtain ⟨chunk, hchunk, rfl⟩ := List.mem_map.mp htext
        exact hempty chunk hchunk
      rw [hjoin, String.append_empty]
  have hreasons : (yieldsFrom requested 0 (before ++ [last])).filterMap StreamChunk.finishReason =
      (before ++ last :: after).filterMap UpstreamChunk.reason ↔
        after.filterMap UpstreamChunk.reason = if last.choices = [] then ["stop"] else [] := by
    rw [hyields, List.filterMap_append, List.filterMap_append,
      filterMap_finishReason_yieldsFrom h, List.append_cancel_left_eq]
    exact filterMap_finishReason_last hlast requested _ after
  constructor
  · intro hnormal
    refine ⟨htokens.mp hnormal.tokens, hreasons.mp hnormal.reasons, fun chunk hchunk => ?_⟩
    cases husage : chunk.usage with
    | none => exact .inl rfl
    | some usage =>
        obtain ⟨yielded, hin, hyielded⟩ := hnormal.usage chunk hchunk usage husage
        rw [hyields] at hin
        rcases List.mem_append.mp hin with hbefore | hend
        · rw [usage_of_mem_yieldsFrom h hbefore] at hyielded
          cases hyielded
        · rw [List.mem_singleton.mp hend] at hyielded
          simp only [yieldOf, hlast, if_true] at hyielded
          exact .inr hyielded.symm
  · intro ⟨hempty, hafter, husages⟩
    refine ⟨htokens.mpr hempty, indices_yieldsFrom requested _, hreasons.mpr hafter,
      fun chunk hchunk usage husage => ?_⟩
    refine ⟨yieldOf requested (0 + before.length) last, ?_, ?_⟩
    · rw [hyields]
      exact List.mem_append_right _ (List.mem_singleton_self _)
    · rcases husages chunk hchunk with hnone | hsame
      · rw [hnone] at husage
        cases husage
      · simp only [yieldOf, hlast, if_true]
        exact hsame.symm.trans husage

/-- Any stream, normalised or not. -/
theorem normalised_iff (requested : String) (upstream : List UpstreamChunk)
    (ending : Except BaseExn Unit) :
    Normalised upstream (streamLoop requested 0 upstream ending).chunks ↔ KeepsAll upstream := by
  have hsplit : upstream = upstream.takeWhile (fun chunk => !chunk.ends) ++
      upstream.dropWhile (fun chunk => !chunk.ends) := List.takeWhile_append_dropWhile.symm
  have hbefore : ∀ chunk ∈ upstream.takeWhile (fun chunk => !chunk.ends), chunk.ends = false := by
    intro chunk hchunk
    simpa using List.mem_takeWhile_imp hchunk
  unfold KeepsAll
  cases hrest : upstream.dropWhile (fun chunk => !chunk.ends) with
  | nil =>
      rw [hrest, List.append_nil] at hsplit
      rw [← hsplit] at hbefore
      have hchunks : (streamLoop requested 0 upstream ending).chunks =
          yieldsFrom requested 0 upstream := by
        have h := streamLoop_append hbefore requested 0 [] ending
        simpa [streamLoop] using h
      rw [hchunks]
      exact normalised_exhausted hbefore requested
  | cons last after =>
      have hlast : last.ends = true := by
        have h := List.head_dropWhile_not (fun chunk : UpstreamChunk => !chunk.ends) (l := upstream)
          (by rw [hrest]; exact List.cons_ne_nil _ _)
        simpa [hrest] using h
      rw [hrest] at hsplit
      have hchunks : (streamLoop requested 0 upstream ending).chunks = yieldsFrom requested 0
          (upstream.takeWhile (fun chunk => !chunk.ends) ++ [last]) := by
        conv_lhs => rw [hsplit]
        rw [streamLoop_append hbefore, streamLoop_of_ends hlast, yieldsFrom_append]
        rfl
      have h := normalised_ended after hbefore hlast requested
      rw [← hsplit] at h
      rw [hchunks]
      exact h

/-! ## The streams of the API -/

/-- Deltas, a chunk with the finish reason, and with `include_usage` one more for the usage. -/
structure ApiStream (deltas : List UpstreamChunk) (finish : UpstreamChunk)
    (tail : List UpstreamChunk) : Prop where
  deltas : ∀ chunk ∈ deltas, chunk.choices ≠ [] ∧ chunk.reason = none
  finish : ∃ reason, finish.reason = some reason ∧ reason ≠ ""
  tail : tail = [] ∨ ∃ last, last.choices = [] ∧ tail = [last]

theorem ApiStream.keepsAll_iff {deltas : List UpstreamChunk} {finish : UpstreamChunk}
    {tail : List UpstreamChunk} (h : ApiStream deltas finish tail) :
    KeepsAll (deltas ++ finish :: tail) ↔
      ∀ chunk ∈ deltas ++ tail, chunk.usage = none ∨ chunk.usage = finish.usage := by
  have hdeltas : ∀ chunk ∈ deltas, (!chunk.ends) = true := by
    intro chunk hchunk
    obtain ⟨hchoices, hreason⟩ := h.deltas chunk hchunk
    simp [UpstreamChunk.ends, hchoices, hreason, nonempty]
  obtain ⟨reason, hreason, hne⟩ := h.finish
  have hfinish : finish.ends = true := by
    simp [UpstreamChunk.ends, hreason, nonempty, hne]
  have hchoices : finish.choices ≠ [] := by
    intro hnone
    simp [UpstreamChunk.reason, hnone] at hreason
  have hdrop : (deltas ++ finish :: tail).dropWhile (fun chunk => !chunk.ends) =
      finish :: tail := by
    rw [List.dropWhile_append_of_pos hdeltas, List.dropWhile_cons_of_neg (by simp [hfinish])]
  have htail : ∀ chunk ∈ tail, chunk.text = "" ∧ chunk.reason = none := by
    rcases h.tail with rfl | ⟨last, hlast, rfl⟩
    · simp
    · simp [UpstreamChunk.text, UpstreamChunk.reason, hlast]
  have hreasons : tail.filterMap UpstreamChunk.reason = [] :=
    List.filterMap_eq_nil_iff.mpr fun chunk hchunk => (htail chunk hchunk).2
  unfold KeepsAll
  rw [hdrop]
  simp only [if_neg hchoices]
  constructor
  · intro ⟨_, _, husages⟩ chunk hchunk
    refine husages chunk ?_
    rcases List.mem_append.mp hchunk with hleft | hright
    · exact List.mem_append_left _ hleft
    · exact List.mem_append_right _ (List.mem_cons_of_mem _ hright)
  · intro husages
    refine ⟨fun chunk hchunk => (htail chunk hchunk).1, hreasons, fun chunk hchunk => ?_⟩
    rcases List.mem_append.mp hchunk with hleft | hright
    · exact husages chunk (List.mem_append_left _ hleft)
    · rcases List.mem_cons.mp hright with rfl | hright
      · exact .inr rfl
      · exact husages chunk (List.mem_append_right _ hright)

section Example

def helloDelta : UpstreamChunk where
  choices := [{ content := some "Hello" }]

def helloFinish : UpstreamChunk where
  choices := [{ finishReason := some "stop" }]

def helloUsage : UpstreamChunk where
  usage := some { promptTokens := 9, completionTokens := 1, totalTokens := 10 }

def sayHello : ChatRequest where
  messages := [{ role := .user, content := "hi" }]

end Example

/-- The usage that `include_usage` asks for is not read. -/
theorem helloUsage_lost :
    ApiStream [helloDelta] helloFinish [helloUsage] ∧
      ¬ Normalised [helloDelta, helloFinish, helloUsage] (groqStreamChat
        (fun _ => .ok ⟨[helloDelta, helloFinish, helloUsage], .ok ()⟩) sayHello).chunks := by
  refine ⟨⟨by decide, ⟨"stop", rfl, by decide⟩, .inr ⟨helloUsage, rfl, rfl⟩⟩, fun h => ?_⟩
  obtain ⟨chunk, hin, husage⟩ := h.usage helloUsage (by decide) _ rfl
  have hnone : ∀ chunk ∈ (groqStreamChat
      (fun _ => .ok ⟨[helloDelta, helloFinish, helloUsage], .ok ()⟩) sayHello).chunks,
      chunk.usage = none := by decide
  rw [hnone chunk hin] at husage
  cases husage

/-- **Groq streams.** Text, indices, finish reason and usage arrive exactly if nothing is left
    behind the chunk at which the loop ends. For a stream of the API that is the chunk with the
    finish reason, and it must carry whatever usage there is. -/
theorem groqStreamChat_normalised_iff (request : ChatRequest) (ending : Except BaseExn Unit) :
    (∀ upstream : List UpstreamChunk,
      Normalised upstream (groqStreamChat (fun _ => .ok ⟨upstream, ending⟩) request).chunks ↔
        KeepsAll upstream) ∧
    ∀ (deltas : List UpstreamChunk) (finish : UpstreamChunk) (tail : List UpstreamChunk),
      ApiStream deltas finish tail →
        (Normalised (deltas ++ finish :: tail)
            (groqStreamChat (fun _ => .ok ⟨deltas ++ finish :: tail, ending⟩) request).chunks ↔
          ∀ chunk ∈ deltas ++ tail, chunk.usage = none ∨ chunk.usage = finish.usage) := by
  have hall : ∀ upstream : List UpstreamChunk,
      Normalised upstream (groqStreamChat (fun _ => .ok ⟨upstream, ending⟩) request).chunks ↔
        KeepsAll upstream := fun upstream => normalised_iff request.model upstream ending
  refine ⟨hall, fun deltas finish tail h => ?_⟩
  rw [hall, h.keepsAll_iff]

end AgentCorp.Providers
