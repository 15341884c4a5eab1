/-
  The chunks of a text as lists of paragraphs: what they cover, and how long they get.

  The size that `chunk_text` adds up leaves the separators out, and a paragraph that follows a
  closed chunk joins the paragraph that is kept of it unconditionally.

  * `chunkText_eq`: the chunks are linked runs of the paragraphs.
  * `chunkText_losesNothing`: the runs cover the text.
  * `sizeBounds_iff`: the texts whose chunks stay within the two bounds.
-/
import AgentCorp.Knowledge.Chunker
import AgentCorp.Lib.LinkedRuns
import Mathlib.Data.List.TakeDrop

namespace AgentCorp.Knowledge

open LinkedRuns

/-! ## Paragraphs -/

theorem splitParagraphs_ne_nil (text : List Char) : splitParagraphs text ≠ [] := by
  unfold splitParagraphs
  split
  · simp
  · simp
  · split <;> simp

theorem intercalate_splitParagraphs (text : List Char) :
    ['\n', '\n'].intercalate (splitParagraphs text) = text := by
  fun_induction splitParagraphs text with
  | case1 => rfl
  | case2 rest ih =>
      have hne := splitParagraphs_ne_nil rest
      cases hsplit : splitParagraphs rest with
      | nil => exact absurd hsplit hne
      | cons para paras =>
          rw [hsplit] at ih
          rw [List.intercalate_cons_cons, ih]
          rfl
  | case3 c rest _ hnil => exact absurd hnil (splitParagraphs_ne_nil rest)
  | case4 c rest _ para paras hsplit ih =>
      rw [hsplit] at ih
      match paras with
      | [] => simpa using ih
      | next :: paras =>
          rw [List.intercalate_cons_cons] at ih ⊢
          rw [← ih]
          rfl

theorem paragraphs_ne_nil (text : String) : paragraphs text ≠ [] := by
  unfold paragraphs
  simp [splitParagraphs_ne_nil]

/-- `"\n\n".join` is the inverse of `split("\n\n")`. -/
theorem intercalate_paragraphs (text : String) : "\n\n".intercalate (paragraphs text) = text := by
  apply String.toList_inj.mp
  have hmap : ((splitParagraphs text.toList).map String.ofList).map String.toList =
      splitParagraphs text.toList := by
    rw [List.map_map]
    exact List.map_id'' (fun _ => String.toList_ofList) _
  rw [String.toList_intercalate, paragraphs, hmap]
  exact intercalate_splitParagraphs text.toList

/-! ## The runs of `chunk_text` -/

/-- `sum(len(p) for p in current_chunk)`. -/
def totalLength (current : List String) : Nat :=
  (current.map String.length).sum

/-- The chunk is closed before this paragraph. -/
def Full (chunkSize : Int) (current : List String) (para : String) : Prop :=
  (totalLength current + para.length : Int) > chunkSize

instance (chunkSize : Int) (current : List String) (para : String) :
    Decidable (Full chunkSize current para) :=
  inferInstanceAs (Decidable (_ > _))

/-- The paragraphs of each chunk. -/
def pieces (chunkSize : Int) : List String → List (List String)
  | [] => []
  | para :: rest => cut (Full chunkSize) [para] rest

theorem overlap_eq (current : List String) : overlap current = current.getLast?.toList := by
  unfold overlap
  match current with
  | [] => rfl
  | [para] => rfl
  | first :: second :: rest =>
      have hlong : (first :: second :: rest).length > 1 := by simp
      have hne : first :: second :: rest ≠ [] := by simp
      rw [if_pos hlong, List.getLast?_eq_some_getLast hne]
      exact List.drop_length_sub_one hne

theorem chunkStep_closed {chunkSize : Int} {s : ChunkerState} {para : String}
    (hsize : s.size = totalLength s.current) (hcurrent : s.current ≠ [])
    (h : Full chunkSize s.current para) :
    chunkStep chunkSize s para =
      { chunks := s.chunks ++ [chunkInfo s.current]
        current := s.current.getLast?.toList ++ [para]
        size := totalLength (s.current.getLast?.toList ++ [para]) } := by
  have hcond : (s.size + para.length : Int) > chunkSize ∧ s.current ≠ [] := by
    rw [hsize]
    exact ⟨h, hcurrent⟩
  unfold chunkStep
  rw [if_pos hcond, overlap_eq]
  simp [totalLength]

theorem chunkStep_open {chunkSize : Int} {s : ChunkerState} {para : String}
    (hsize : s.size = totalLength s.current) (h : ¬ Full chunkSize s.current para) :
    chunkStep chunkSize s para =
      { chunks := s.chunks
        current := s.current ++ [para]
        size := totalLength (s.current ++ [para]) } := by
  have hcond : ¬ ((s.size + para.length : Int) > chunkSize ∧ s.current ≠ []) := by
    rw [hsize]
    exact fun hboth => h hboth.1
  unfold chunkStep
  rw [if_neg hcond]
  simp [totalLength, hsize]

/-- The loop, from a chunk that has been begun. -/
theorem foldl_chunkStep {chunkSize : Int} {s : ChunkerState} (hsize : s.size = totalLength s.current)
    (hcurrent : s.current ≠ []) (rest : List String) :
    (rest.foldl (chunkStep chunkSize) s).current ≠ [] ∧
      (rest.foldl (chunkStep chunkSize) s).chunks ++
          [chunkInfo (rest.foldl (chunkStep chunkSize) s).current] =
        s.chunks ++ (cut (Full chunkSize) s.current rest).map chunkInfo := by
  induction rest generalizing s with
  | nil => exact ⟨hcurrent, rfl⟩
  | cons para rest ih =>
      rw [List.foldl_cons]
      unfold cut
      by_cases hfull : Full chunkSize s.current para
      · rw [chunkStep_closed hsize hcurrent hfull, if_pos hfull]
        have hrest := ih (s := { chunks := s.chunks ++ [chunkInfo s.current]
                                 current := s.current.getLast?.toList ++ [para]
                                 size := totalLength (s.current.getLast?.toList ++ [para]) })
          rfl (by simp)
        refine ⟨hrest.1, hrest.2.trans ?_⟩
        simp
      · rw [chunkStep_open hsize hfull, if_neg hfull]
        exact ih (s := { chunks := s.chunks
                         current := s.current ++ [para]
                         size := totalLength (s.current ++ [para]) }) rfl (by simp)

/-- **The chunks** are those of the runs. -/
theorem chunkText_eq (text : String) (chunkSize : Int) :
    chunkText text chunkSize = (pieces chunkSize (paragraphs text)).map chunkInfo := by
  unfold chunkText
  match hparas : paragraphs text with
  | [] => exact absurd hparas (paragraphs_ne_nil text)
  | para :: rest =>
      have hfirst : chunkStep chunkSize {} para =
          { chunks := [], current := [para], size := totalLength [para] } := by
        simp [chunkStep, totalLength]
      rw [List.foldl_cons, hfirst]
      obtain ⟨hne, hchunks⟩ := @foldl_chunkStep chunkSize
        { chunks := [], current := [para], size := totalLength [para] } rfl (by simp) rest
      dsimp only
      rw [if_pos hne, hchunks]
      rfl

theorem isChain_pieces (chunkSize : Int) (paras : List String) :
    (pieces chunkSize paras).IsChain (Closed (Full chunkSize)) := by
  match paras with
  | [] => exact List.isChain_nil
  | para :: rest => exact isChain_cut (Full chunkSize) (by simp) rest

theorem merge_pieces (chunkSize : Int) (paras : List String) :
    merge (pieces chunkSize paras) = paras := by
  match paras with
  | [] => rfl
  | para :: rest => exact merge_cut (Full chunkSize) (by simp) rest

/-- **Nothing is lost**: consecutive chunks share one paragraph, each goes on from there, and
    together they are the text. -/
theorem chunkText_losesNothing (text : String) (chunkSize : Int) :
    chunkText text chunkSize = (pieces chunkSize (paragraphs text)).map chunkInfo ∧
      (pieces chunkSize (paragraphs text)).IsChain Linked ∧
      merge (pieces chunkSize (paragraphs text)) = paragraphs text ∧
      "\n\n".intercalate (merge (pieces chunkSize (paragraphs text))) = text := by
  have hmerge := merge_pieces chunkSize (paragraphs text)
  refine ⟨chunkText_eq text chunkSize, ?_, hmerge, ?_⟩
  · exact (isChain_pieces chunkSize _).imp fun _ _ => Closed.linked _
  · rw [hmerge]
    exact intercalate_paragraphs text

theorem splitParagraphs_single {text : List Char} (h : '\n' ∉ text) :
    splitParagraphs text = [text] := by
  induction text with
  | nil => rfl
  | cons c rest ih =>
      obtain ⟨hc, hrest⟩ := List.ne_and_not_mem_of_not_mem_cons h
      unfold splitParagraphs
      split
      · next heq => cases heq
      · next heq => exact absurd (List.cons.inj heq).1.symm hc
      · next heq =>
          obtain ⟨rfl, rfl⟩ := List.cons.inj heq
          rw [ih hrest]

/-- A text of one line is one chunk, however long it is. -/
theorem chunkText_single {text : String} (h : '\n' ∉ text.toList) (chunkSize : Int) :
    chunkText text chunkSize = [chunkInfo [text]] := by
  have hparas : paragraphs text = [text] := by
    unfold paragraphs
    rw [splitParagraphs_single h, List.map_singleton, String.ofList_toList]
  rw [chunkText_eq, hparas]
  rfl

/-! ## Bounds -/

/-- The length of the longest paragraph. -/
def longest (paras : List String) : Nat :=
  (paras.map String.length).foldr max 0

/-- What the two parameters of `chunk_text` are for. The text that a chunk repeats is its first
    paragraph, unless it is the first chunk. -/
structure SizeBounds (text : String) (chunkSize chunkOverlap : Int) : Prop where
  size : ∀ chunk ∈ chunkText text chunkSize,
    (chunk.characterCount : Int) ≤ max chunkSize (longest (paragraphs text))
  count : ∀ chunk ∈ chunkText text chunkSize, chunk.characterCount = chunk.text.length
  repeated : ∀ next ∈ (pieces chunkSize (paragraphs text)).tail, ∀ para ∈ next.head?,
    (para.length : Int) ≤ chunkOverlap

/-- The chunk is closed before the next one goes on, and what it passes on is short. -/
def ClosedShort (chunkSize chunkOverlap : Int) (run next : List String) : Prop :=
  ∃ para following rest, run.getLast? = some para ∧ next = para :: following :: rest ∧
    (para.length : Int) ≤ chunkOverlap ∧ Full chunkSize run following

/-- The paragraphs can be cut so that separators make no difference: a run has room for its
    separators, and none for the next paragraph even without them. -/
def EvenlyCut (paras : List String) (chunkSize chunkOverlap : Int) : Prop :=
  ∃ runs, merge runs = paras ∧ runs.IsChain (ClosedShort chunkSize chunkOverlap) ∧
    ∀ run ∈ runs, (("\n\n".intercalate run).length : Int) ≤ chunkSize

theorem ClosedShort.closed {chunkSize chunkOverlap : Int} {run next : List String}
    (h : ClosedShort chunkSize chunkOverlap run next) : Closed (Full chunkSize) run next := by
  obtain ⟨para, following, rest, hlast, hnext, -, hfull⟩ := h
  exact ⟨para, following, rest, hlast, hnext, hfull⟩

theorem length_intercalate {run : List String} (h : run ≠ []) :
    ("\n\n".intercalate run).length + 2 = totalLength run + 2 * run.length := by
  induction run with
  | nil => exact absurd rfl h
  | cons para rest ih =>
      match rest with
      | [] => simp [totalLength]
      | next :: rest =>
          have hrest := ih (by simp)
          have htotal : totalLength (para :: next :: rest) =
              para.length + totalLength (next :: rest) := by
            simp [totalLength]
          have hsep : ("\n\n" : String).length = 2 := by decide
          rw [String.intercalate_cons_cons, String.length_append, String.length_append, htotal,
            hsep]
          simp only [List.length_cons] at hrest ⊢
          omega

theorem length_le_totalLength {run : List String} {para : String} (h : para ∈ run) :
    para.length ≤ totalLength run := by
  obtain ⟨before, after, rfl⟩ := List.append_of_mem h
  simp only [totalLength, List.map_append, List.map_cons, List.sum_append, List.sum_cons]
  omega

theorem exists_longest {paras : List String} (h : paras ≠ []) :
    ∃ para ∈ paras, para.length = longest paras := by
  induction paras with
  | nil => exact absurd rfl h
  | cons para rest ih =>
      have hmax : longest (para :: rest) = max para.length (longest rest) := rfl
      by_cases hle : longest rest ≤ para.length
      · exact ⟨para, List.mem_cons_self, by omega⟩
      · have hne : rest ≠ [] := by
          rintro rfl
          exact hle (Nat.zero_le _)
        obtain ⟨other, hother, hlength⟩ := ih hne
        exact ⟨other, List.mem_cons_of_mem _ hother, by omega⟩

theorem mem_chunkText {text : String} {chunkSize : Int} {chunk : ChunkInfo} :
    chunk ∈ chunkText text chunkSize ↔
      ∃ run ∈ pieces chunkSize (paragraphs text), chunkInfo run = chunk := by
  rw [chunkText_eq, List.mem_map]

/-- A chunk with the longest paragraph, where that is longer than a chunk should be, is that
    paragraph. -/
theorem eq_singleton_of_longest {text : String} {chunkSize chunkOverlap : Int}
    (h : SizeBounds text chunkSize chunkOverlap) (hlong : chunkSize < longest (paragraphs text))
    {run : List String} (hrun : run ∈ pieces chunkSize (paragraphs text)) {para : String}
    (hpara : para ∈ run) (hlength : para.length = longest (paragraphs text)) : run = [para] := by
  have hsize := h.size _ (mem_chunkText.mpr ⟨run, hrun, rfl⟩)
  have hjoined := length_intercalate (List.ne_nil_of_mem hpara)
  have htotal := length_le_totalLength hpara
  have hcount : (chunkInfo run).characterCount = ("\n\n".intercalate run).length := rfl
  have hshort : run.length = 1 := by
    have hpos := List.length_pos_of_mem hpara
    omega
  obtain ⟨only, rfl⟩ := List.length_eq_one_iff.mp hshort
  rw [List.mem_singleton.mp hpara]

/-- A paragraph that is too long for a chunk is on its own. -/
theorem longest_le {text : String} {chunkSize chunkOverlap : Int}
    (hoverlap : chunkOverlap < chunkSize) (h : SizeBounds text chunkSize chunkOverlap)
    (hmany : (paragraphs text).length ≠ 1) : (longest (paragraphs text) : Int) ≤ chunkSize := by
  by_contra hlong
  have hmerge := merge_pieces chunkSize (paragraphs text)
  have hchain := (isChain_pieces chunkSize (paragraphs text)).imp fun _ _ => Closed.linked _
  obtain ⟨para, hpara, hlength⟩ := exists_longest (paragraphs_ne_nil text)
  obtain ⟨run, hrun, hmem⟩ := mem_merge (hmerge.symm ▸ hpara)
  have hsingle := eq_singleton_of_longest h (by omega) hrun hmem hlength
  have hrepeated := h.repeated
  match hpieces : pieces chunkSize (paragraphs text) with
  | [] => simp [hpieces] at hrun
  | [only] =>
      -- There is one chunk, so the text has one paragraph.
      have honly : run = only := by simpa [hpieces] using hrun
      rw [hpieces, ← honly, hsingle] at hmerge
      have hone : (paragraphs text).length = 1 := by
        rw [← hmerge]
        rfl
      exact hmany hone
  | first :: next :: rest =>
      rw [hpieces] at hchain hrun hrepeated
      rcases List.mem_cons.mp hrun with rfl | hlater
      · -- The chunk after it repeats the paragraph.
        obtain ⟨a, b, tail, hlast, rfl⟩ := (List.isChain_cons_cons.mp hchain).1
        have ha : a = para := by simpa [hsingle] using hlast.symm
        have hshort := hrepeated _ List.mem_cons_self a rfl
        rw [ha] at hshort
        omega
      · have htwo := two_le_length hchain run hlater
        rw [hsingle] at htwo
        simp at htwo

theorem open_of_le {chunkSize : Int} {run : List String} (h : (totalLength run : Int) ≤ chunkSize) :
    Open (Full chunkSize) run := by
  intro current para more hrun _ hfull
  rw [hrun] at h
  unfold Full at hfull
  simp only [totalLength, List.map_append, List.map_cons, List.sum_append, List.sum_cons] at h hfull
  omega

/-- Where separators make no difference, the chunks are the runs of the cut. -/
theorem pieces_of_evenlyCut {paras : List String} {chunkSize : Int} {runs : List (List String)}
    (hne : paras ≠ []) (hmerge : merge runs = paras) (hchain : runs.IsChain (Closed (Full chunkSize)))
    (hsize : ∀ run ∈ runs, (("\n\n".intercalate run).length : Int) ≤ chunkSize) :
    pieces chunkSize paras = runs := by
  have hopen : ∀ run ∈ runs, Open (Full chunkSize) run := by
    intro run hrun
    by_cases hempty : run = []
    · subst hempty
      intro current para more hrun
      simp at hrun
    · have hjoined := length_intercalate hempty
      have hle := hsize run hrun
      have hpos := List.length_pos_iff.mpr hempty
      exact open_of_le (by omega)
  match runs with
  | [] => exact absurd hmerge.symm hne
  | [] :: others =>
      match others with
      | [] => exact absurd hmerge.symm hne
      | next :: others =>
          obtain ⟨a, b, rest, hlast, -⟩ := (List.isChain_cons_cons.mp hchain).1
          simp at hlast
  | (para :: more) :: others =>
      rw [← hmerge]
      exact cut_eq (Full chunkSize) (List.cons_ne_nil para []) rfl hchain hopen

theorem evenlyCut_of_sizeBounds {text : String} {chunkSize chunkOverlap : Int}
    (hoverlap : chunkOverlap < chunkSize) (h : SizeBounds text chunkSize chunkOverlap)
    (hmany : (paragraphs text).length ≠ 1) :
    EvenlyCut (paragraphs text) chunkSize chunkOverlap := by
  have hlongest := longest_le hoverlap h hmany
  refine ⟨_, merge_pieces chunkSize _, ?_, fun run hrun => ?_⟩
  · refine (isChain_pieces chunkSize _).imp_of_mem_tail_imp fun run next _ hnext hclosed => ?_
    obtain ⟨para, following, rest, hlast, rfl, hfull⟩ := hclosed
    exact ⟨para, following, rest, hlast, rfl, h.repeated _ hnext para rfl, hfull⟩
  · have hle := h.size _ (mem_chunkText.mpr ⟨run, hrun, rfl⟩)
    have hcount : (chunkInfo run).characterCount = ("\n\n".intercalate run).length := rfl
    omega

theorem count_chunkText {text : String} {chunkSize : Int} :
    ∀ chunk ∈ chunkText text chunkSize, chunk.characterCount = chunk.text.length := by
  intro chunk hchunk
  obtain ⟨run, -, rfl⟩ := mem_chunkText.mp hchunk
  rfl

/-- A text of one paragraph is one chunk. -/
theorem sizeBounds_of_single {text : String} (chunkSize chunkOverlap : Int)
    (hone : (paragraphs text).length = 1) : SizeBounds text chunkSize chunkOverlap := by
  obtain ⟨para, hpara⟩ := List.length_eq_one_iff.mp hone
  have hpieces : pieces chunkSize (paragraphs text) = [[para]] := by
    rw [hpara]
    rfl
  refine ⟨fun chunk hchunk => ?_, count_chunkText, by simp [hpieces]⟩
  obtain ⟨run, hrun, rfl⟩ := mem_chunkText.mp hchunk
  rw [hpieces, List.mem_singleton] at hrun
  have hlength : (chunkInfo run).characterCount = para.length := by simp [hrun, chunkInfo]
  have hlongest : longest (paragraphs text) = para.length := by simp [hpara, longest]
  omega

/-- What the runs of a cut pass on is short. -/
theorem short_of_isChain {chunkSize chunkOverlap : Int} {runs : List (List String)}
    (h : runs.IsChain (ClosedShort chunkSize chunkOverlap)) :
    ∀ next ∈ runs.tail, ∀ para ∈ next.head?, (para.length : Int) ≤ chunkOverlap := by
  induction runs with
  | nil => simp
  | cons run runs ih =>
      match runs with
      | [] => simp
      | next :: runs =>
          obtain ⟨hfirst, hrest⟩ := List.isChain_cons_cons.mp h
          obtain ⟨para, following, rest, -, rfl, hshort, -⟩ := hfirst
          refine List.forall_mem_cons.mpr ⟨?_, ih hrest⟩
          intro first hhead
          rw [← Option.some.inj hhead]
          exact hshort

theorem sizeBounds_of_evenlyCut {text : String} {chunkSize chunkOverlap : Int}
    (h : EvenlyCut (paragraphs text) chunkSize chunkOverlap) :
    SizeBounds text chunkSize chunkOverlap := by
  obtain ⟨runs, hruns, hchain, hsize⟩ := h
  have hpieces := pieces_of_evenlyCut (paragraphs_ne_nil text) hruns
    (hchain.imp fun _ _ => ClosedShort.closed) hsize
  refine ⟨fun chunk hchunk => ?_, count_chunkText, ?_⟩
  · obtain ⟨run, hrun, rfl⟩ := mem_chunkText.mp hchunk
    have hle := hsize run (hpieces ▸ hrun)
    have hjoined : (chunkInfo run).characterCount = ("\n\n".intercalate run).length := rfl
    omega
  · rw [hpieces]
    exact short_of_isChain hchain

/-- **The bounds hold** for one paragraph, and where the separators make no difference. -/
theorem sizeBounds_iff (text : String) {chunkSize chunkOverlap : Int}
    (hoverlap : chunkOverlap < chunkSize) :
    SizeBounds text chunkSize chunkOverlap ↔
      (paragraphs text).length = 1 ∨ EvenlyCut (paragraphs text) chunkSize chunkOverlap := by
  constructor
  · intro h
    by_cases hone : (paragraphs text).length = 1
    · exact .inl hone
    · exact .inr (evenlyCut_of_sizeBounds hoverlap h hone)
  · intro h
    rcases h with hone | heven
    · exact sizeBounds_of_single chunkSize chunkOverlap hone
    · exact sizeBounds_of_evenlyCut heven

theorem sizeBounds_three : SizeBounds "one\n\ntwo\n\nthree" 10 3 := by
  refine (sizeBounds_iff _ (by decide)).mpr (.inr ⟨[["one", "two"], ["two", "three"]], ?_, ?_, ?_⟩)
  · decide +kernel
  · refine List.isChain_pair.mpr ⟨"two", "three", [], rfl, rfl, ?_, ?_⟩ <;> decide +kernel
  · decide +kernel

/-- Two paragraphs that are short enough, and the chunk of both that is not. -/
theorem not_sizeBounds_pair :
    ¬ ∀ (text : String) (chunkSize chunkOverlap : Int), 0 < chunkSize → 0 ≤ chunkOverlap →
      chunkOverlap < chunkSize → SizeBounds text chunkSize chunkOverlap := by
  intro hall
  have h := hall "12345678\n\n12345678" 10 2 (by decide) (by decide) (by decide)
  have hlong : ¬ ∀ chunk ∈ chunkText "12345678\n\n12345678" 10,
      (chunk.characterCount : Int) ≤ max 10 (longest (paragraphs "12345678\n\n12345678")) := by
    decide +kernel
  exact hlong h.size

end AgentCorp.Knowledge
