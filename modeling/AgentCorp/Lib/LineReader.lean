/-
  Incremental line reading: a text arrives in reads, and every read hands on the lines that it
  completes.

  `lines sep text` are the lines of `text` that end in `sep`, and `remainder sep text` is what
  follows the last of them. A reader keeps the remainder from read to read, but starts each
  read with a fresh line state.

  * `lines_append`: how lines complete over a cut.
  * `length_lines`: there are as many lines as separators.
  * `feed_eq`: a reader handles the lines of the whole text in order, with the line state reset
    at the cuts (`handleReset`, `cutAt`), whatever the reads are.
-/
import Mathlib.Data.List.Basic
import Mathlib.Data.List.Infix

namespace LineReader

variable {α σ β : Type}

/-! ## Lines -/

section Lines

variable [BEq α] (sep : α)

/-- The completed lines. -/
def lines (text : List α) : List (List α) :=
  (text.splitOn sep).dropLast

/-- The beginning of the next line. -/
def remainder (text : List α) : List α :=
  (text.splitOn sep).getLast?.getD []

variable {sep} [LawfulBEq α]

theorem lines_of_not_mem {text : List α} (h : sep ∉ text) : lines sep text = [] := by
  rw [lines, List.splitOn_eq_singleton h]
  rfl

theorem remainder_of_not_mem {text : List α} (h : sep ∉ text) : remainder sep text = text := by
  rw [remainder, List.splitOn_eq_singleton h]
  rfl

theorem lines_cons {line : List α} (h : sep ∉ line) (rest : List α) :
    lines sep (line ++ sep :: rest) = line :: lines sep rest := by
  unfold lines
  rw [List.splitOn_append_cons_self_of_not_mem h,
    List.dropLast_cons_of_ne_nil (List.splitOn_ne_nil sep rest)]

theorem remainder_cons {line : List α} (h : sep ∉ line) (rest : List α) :
    remainder sep (line ++ sep :: rest) = remainder sep rest := by
  unfold remainder
  rw [List.splitOn_append_cons_self_of_not_mem h]
  obtain ⟨first, others, hsplit⟩ := List.exists_cons_of_ne_nil (List.splitOn_ne_nil sep rest)
  rw [hsplit, List.getLast?_cons_cons]

/-- Induction over the lines of a text. -/
theorem line_induction (sep : α) {P : List α → Prop} (hlast : ∀ text, sep ∉ text → P text)
    (hline : ∀ line rest, sep ∉ line → P rest → P (line ++ sep :: rest)) :
    ∀ text, P text := by
  intro text
  induction hlen : text.length using Nat.strong_induction_on generalizing text with
  | _ n ih =>
    by_cases hmem : sep ∈ text
    · obtain ⟨line, rest, rfl, hnot⟩ := List.eq_append_cons_of_mem hmem
      refine hline line rest hnot (ih rest.length ?_ rest rfl)
      rw [← hlen, List.length_append, List.length_cons]
      omega
    · exact hlast text hmem

theorem sep_not_mem_remainder (text : List α) : sep ∉ remainder sep text := by
  induction text using line_induction sep with
  | hlast text h => rwa [remainder_of_not_mem h]
  | hline line rest h ih => rwa [remainder_cons h]

theorem lines_append (a b : List α) :
    lines sep (a ++ b) = lines sep a ++ lines sep (remainder sep a ++ b) := by
  induction a using line_induction sep with
  | hlast a h => rw [lines_of_not_mem h, remainder_of_not_mem h, List.nil_append]
  | hline line rest h ih =>
      rw [List.append_assoc, List.cons_append, lines_cons h, ih, lines_cons h, remainder_cons h,
        List.cons_append]

theorem length_lines (text : List α) : (lines sep text).length = text.count sep := by
  induction text using line_induction sep with
  | hlast text h => rw [lines_of_not_mem h, List.count_eq_zero_of_not_mem h, List.length_nil]
  | hline line rest h ih =>
      rw [lines_cons h, List.length_cons, ih, List.count_append, List.count_cons_self,
        List.count_eq_zero_of_not_mem h, Nat.zero_add]

end Lines

/-! ## Line handlers -/

section Handlers

variable (handle : σ → List α → σ × List β) (init : σ)

/-- Handle lines in order. -/
def handleAll : σ → List (List α) → List β
  | _, [] => []
  | s, line :: rest => (handle s line).2 ++ handleAll (handle s line).1 rest

/-- Handle lines in order, counted from `i`, with the line state reset before some of them. -/
def handleReset (reset : ℕ → Bool) : ℕ → σ → List (List α) → List β
  | _, _, [] => []
  | i, s, line :: rest =>
      let next := handle (if reset i then init else s) line
      next.2 ++ handleReset reset (i + 1) next.1 rest

variable {handle} {init}

/-- Only the resets from the first line on matter. -/
theorem handleReset_congr {reset reset' : ℕ → Bool} {i : ℕ} (s : σ) (l : List (List α))
    (h : ∀ j, i ≤ j → reset j = reset' j) :
    handleReset handle init reset i s l = handleReset handle init reset' i s l := by
  induction l generalizing i s with
  | nil => rfl
  | cons line rest ih =>
      unfold handleReset
      rw [h i le_rfl]
      dsimp only
      rw [ih _ fun j hj => h j (by omega)]

/-- At a reset the state before does not matter. -/
theorem handleReset_init {reset : ℕ → Bool} {i : ℕ} (h : reset i) (s : σ) (l : List (List α)) :
    handleReset handle init reset i s l = handleReset handle init reset i init l := by
  cases l with
  | nil => rfl
  | cons line rest => simp only [handleReset, h, if_true]

/-- Up to the next reset, lines are handled in a row. -/
theorem handleReset_append {reset : ℕ → Bool} {i : ℕ} (s : σ) (a b : List (List α))
    (hno : ∀ j, i ≤ j → j < i + a.length → ¬ reset j) (h : reset (i + a.length)) :
    handleReset handle init reset i s (a ++ b) =
      handleAll handle s a ++ handleReset handle init reset (i + a.length) init b := by
  induction a generalizing i s with
  | nil => exact handleReset_init h s b
  | cons line rest ih =>
      have hi : reset i = false := by simpa using hno i le_rfl (by simp)
      have hlen : i + (line :: rest).length = i + 1 + rest.length := by
        rw [List.length_cons]
        omega
      rw [hlen] at h hno ⊢
      simp only [List.cons_append, handleReset, handleAll, hi, Bool.false_eq_true, if_false,
        List.append_assoc]
      rw [ih _ (fun j hj hlt => hno j (by omega) hlt) h]

theorem handleReset_append_init {reset : ℕ → Bool} {i : ℕ} (a b : List (List α))
    (hno : ∀ j, i < j → j < i + a.length → ¬ reset j) (h : reset (i + a.length)) :
    handleReset handle init reset i init (a ++ b) =
      handleAll handle init a ++ handleReset handle init reset (i + a.length) init b := by
  cases a with
  | nil => rfl
  | cons line rest =>
      have hlen : i + (line :: rest).length = i + 1 + rest.length := by
        rw [List.length_cons]
        omega
      rw [hlen] at h hno ⊢
      simp only [List.cons_append, handleReset, handleAll, ite_self, List.append_assoc]
      rw [handleReset_append _ rest b (fun j hj hlt => hno j (by omega) hlt) h]

end Handlers

/-! ## Readers -/

section Readers

variable [BEq α] (sep : α) (handle : σ → List α → σ × List β) (init : σ)

/-- Read by read: the buffered remainder is carried over, the line state is not. -/
def feed : List α → List (List α) → List β
  | _, [] => []
  | buffer, read :: reads =>
      handleAll handle init (lines sep (buffer ++ read)) ++
        feed (remainder sep (buffer ++ read)) reads

/-- After `n` lines a reader has yet to begin: one of its reads begins, or the last one ends,
    after exactly `i` lines. -/
def cutAt (n : ℕ) (reads : List (List α)) (i : ℕ) : Bool :=
  reads.inits.any fun earlier => n + earlier.flatten.count sep = i

variable {sep}

theorem cutAt_iff {n : ℕ} {reads : List (List α)} {i : ℕ} :
    cutAt sep n reads i ↔ ∃ earlier, earlier <+: reads ∧ n + earlier.flatten.count sep = i := by
  simp [cutAt, List.mem_inits]

theorem cutAt_self (n : ℕ) (reads : List (List α)) : cutAt sep n reads n :=
  cutAt_iff.mpr ⟨[], List.nil_prefix, rfl⟩

theorem cutAt_cons {n : ℕ} {read : List α} {reads : List (List α)} {i : ℕ} :
    cutAt sep n (read :: reads) i ↔ n = i ∨ cutAt sep (n + read.count sep) reads i := by
  rw [cutAt_iff, cutAt_iff]
  constructor
  · rintro ⟨earlier, hbefore, hcount⟩
    rcases List.prefix_cons_iff.mp hbefore with rfl | ⟨rest, rfl, hrest⟩
    · exact .inl (by simpa using hcount)
    · refine .inr ⟨rest, hrest, ?_⟩
      rw [List.flatten_cons, List.count_append] at hcount
      omega
  · rintro (rfl | ⟨earlier, hbefore, hcount⟩)
    · exact ⟨[], List.nil_prefix, rfl⟩
    · refine ⟨read :: earlier, List.prefix_cons_iff.mpr (.inr ⟨earlier, rfl, hbefore⟩), ?_⟩
      rw [List.flatten_cons, List.count_append]
      omega

/-- No cut comes before the lines that the reader begins with. -/
theorem le_of_cutAt {n : ℕ} {reads : List (List α)} {i : ℕ} (h : cutAt sep n reads i) : n ≤ i := by
  obtain ⟨earlier, -, hcount⟩ := cutAt_iff.mp h
  omega

variable {handle} {init} [LawfulBEq α]

/-- **Incremental reading.** Whatever the reads are, the lines of the whole text are handled in
    order, with the line state reset exactly at the cuts. -/
theorem feed_eq : ∀ {buffer : List α} (n : ℕ) (reads : List (List α)), sep ∉ buffer →
    feed sep handle init buffer reads =
      handleReset handle init (cutAt sep n reads) n init (lines sep (buffer ++ reads.flatten))
  | buffer, n, [], h => by
      rw [List.flatten_nil, List.append_nil, lines_of_not_mem h]
      rfl
  | buffer, n, read :: reads, h => by
      have hlen : (lines sep (buffer ++ read)).length = read.count sep := by
        rw [length_lines, List.count_append, List.count_eq_zero_of_not_mem h, Nat.zero_add]
      -- Between the two cuts around this read there is no other one.
      have hno : ∀ j, n < j → j < n + (lines sep (buffer ++ read)).length →
          ¬ cutAt sep n (read :: reads) j := by
        intro j hlt hlt' hcut
        rcases cutAt_cons.mp hcut with rfl | hcut
        · omega
        · have := le_of_cutAt hcut
          omega
      have hcut : cutAt sep n (read :: reads) (n + (lines sep (buffer ++ read)).length) := by
        rw [hlen]
        exact cutAt_cons.mpr (.inr (cutAt_self _ _))
      have hlater : ∀ j, n + read.count sep ≤ j →
          cutAt sep n (read :: reads) j = cutAt sep (n + read.count sep) reads j := by
        intro j hj
        rw [Bool.eq_iff_iff, cutAt_cons]
        refine ⟨fun hor => hor.elim ?_ id, .inr⟩
        rintro rfl
        have hzero : n + read.count sep = n := by omega
        rw [hzero]
        exact cutAt_self _ _
      rw [List.flatten_cons, ← List.append_assoc, lines_append,
        handleReset_append_init _ _ hno hcut, hlen, handleReset_congr _ _ hlater]
      unfold feed
      rw [feed_eq (n + read.count sep) reads (sep_not_mem_remainder _)]

end Readers

end LineReader
