/-
  What the sanitizer leaves of its phrases, `DROP TABLE` and `DELETE FROM`.

  Each phrase is removed once, and what stood on its two sides comes together. So a phrase is left
  exactly if the text had it with other phrases between its words (`Hidden`). The keys of
  dictionaries are not looked at.

  * `dangerous_sanitizeText_iff`: the texts that stay dangerous.
  * `sanitized_iff`: the payloads without a dangerous string afterwards.
-/
import AgentCorp.Security.PhraseWords

namespace AgentCorp.Security.Sanitizer

open AgentCorp.Python AgentCorp.Python.Re
open Regex PairDeletion

variable (U : CharClasses)

/-! ## Escaping -/

section Escaping

variable {U}

/-- Escaping puts the name of the character between `&` and `;`, or leaves it. -/
theorem htmlEscapeChar_cases (c : Char) :
    htmlEscapeChar c = [c] ∨ U.isWord c = false ∧ isSpace c = false ∧
      ∃ mark name, (mark = [] ∨ mark = ['#']) ∧ IsWord U name ∧
        htmlEscapeChar c = '&' :: (mark ++ (name.toList ++ [';'])) := by
  unfold htmlEscapeChar
  split_ifs with hamp hlt hgt hquot happos
  · exact .inr ⟨hamp ▸ U.isWord_ascii '&' (by decide), hamp ▸ by decide, [], "amp", .inl rfl,
      isWord_of_ascii U (by decide) (by decide), by decide⟩
  · exact .inr ⟨hlt ▸ U.isWord_ascii '<' (by decide), hlt ▸ by decide, [], "lt", .inl rfl,
      isWord_of_ascii U (by decide) (by decide), by decide⟩
  · exact .inr ⟨hgt ▸ U.isWord_ascii '>' (by decide), hgt ▸ by decide, [], "gt", .inl rfl,
      isWord_of_ascii U (by decide) (by decide), by decide⟩
  · exact .inr ⟨hquot ▸ U.isWord_ascii '"' (by decide), hquot ▸ by decide, [], "quot", .inl rfl,
      isWord_of_ascii U (by decide) (by decide), by decide⟩
  · exact .inr ⟨happos ▸ U.isWord_ascii '\'' (by decide), happos ▸ by decide, ['#'], "x27",
      .inr rfl, isWord_of_ascii U (by decide) (by decide), by decide⟩
  · exact .inl rfl

/-- What the escaping does to the words: the name of a character stands between two others. -/
inductive Named : List Item → List Item → Prop
  | done : Named [] []
  | same (i : Item) {l l' : List Item} (h : Named l l') : Named (i :: l) (i :: l')
  | mark {l l' : List Item} (h : Named (none :: l) l') : Named (none :: l) (none :: l')
  | name (w : List Char) {l l' : List Item} (h : Named l l') :
      Named (none :: l) (none :: some w :: none :: l')

theorem htmlEscape_cons (c : Char) (text : List Char) :
    htmlEscape (c :: text) = htmlEscapeChar c ++ htmlEscape text :=
  rfl

theorem startsWord_htmlEscape (text : List Char) :
    startsWord U (htmlEscape text) = startsWord U text := by
  match text with
  | [] => rfl
  | c :: text =>
    rw [htmlEscape_cons]
    rcases htmlEscapeChar_cases (U := U) c with h | ⟨hword, _, mark, name, _, _, h⟩
    · rw [h]
      rfl
    · rw [h]
      have hamp : U.isWord '&' = false := U.isWord_ascii '&' (by decide)
      exact hamp.trans hword.symm

theorem items_mark {c : Char} (hascii : c.toNat < 128) (hc : (c.isAlphanum || c == '_') = false)
    (hspace : isSpace c = false) (text : List Char) :
    items U (c :: text) = none :: items U text :=
  items_other ((U.isWord_ascii c hascii).trans hc) hspace

/-- The items of a name between its marks. -/
theorem items_name {name : String} (hname : IsWord U name) (text : List Char) :
    items U (name.toList ++ ';' :: text) = wordOf name :: none :: items U text := by
  have hsemi : items U (';' :: text) = none :: items U text :=
    items_mark (by decide) (by decide) (by decide) text
  have hend : startsWord U (';' :: text) = false := U.isWord_ascii ';' (by decide)
  rw [items_run hname.ne_nil hname.isWord hend, hsemi]
  rfl

theorem named_htmlEscape (text : List Char) : Named (items U text) (items U (htmlEscape text)) := by
  induction text with
  | nil => exact .done
  | cons c text ih =>
    rw [htmlEscape_cons]
    rcases htmlEscapeChar_cases (U := U) c with h | ⟨hword, hspace, mark, name, hmark, hname, h⟩
    · -- The character stays.
      rw [h, List.singleton_append]
      have hstarts := startsWord_htmlEscape (U := U) text
      by_cases hword : U.isWord c = true
      · by_cases hnext : startsWord U text = true
        · obtain ⟨w, l, hitems⟩ := exists_items_of_startsWord hnext
          obtain ⟨w', l', hitems'⟩ := exists_items_of_startsWord (hstarts.trans hnext)
          rw [hitems, hitems'] at ih
          rw [items_word_more hword hnext hitems,
            items_word_more hword (hstarts.trans hnext) hitems']
          match ih with
          | .same _ ih => exact .same _ ih
        · have hnext := Bool.eq_false_of_not_eq_true hnext
          rw [items_word_end hword hnext, items_word_end hword (hstarts.trans hnext)]
          exact .same _ ih
      · have hword := Bool.eq_false_of_not_eq_true hword
        by_cases hspace : isSpace c = true
        · rw [items_space hspace, items_space hspace]
          exact ih
        · have hspace := Bool.eq_false_of_not_eq_true hspace
          rw [items_other hword hspace, items_other hword hspace]
          exact .same _ ih
    · have hamp (text : List Char) : items U ('&' :: text) = none :: items U text :=
        items_mark (by decide) (by decide) (by decide) text
      have hhash (text : List Char) : items U ('#' :: text) = none :: items U text :=
        items_mark (by decide) (by decide) (by decide) text
      have hnamed : Named (none :: items U text)
          (none :: wordOf name :: none :: items U (htmlEscape text)) := .name _ ih
      rw [items_other hword hspace, h]
      rcases hmark with rfl | rfl
      · simp only [List.nil_append, List.cons_append, List.append_assoc, hamp, items_name hname]
        exact hnamed
      · simp only [List.nil_append, List.cons_append, List.append_assoc, hamp, hhash,
          items_name hname]
        exact .mark hnamed

theorem Named.prefix_iff {l l' : List Item} (h : Named l l') (ws : List (List Char)) :
    ws.map some <+: l' ↔ ws.map some <+: l := by
  induction h generalizing ws with
  | done => exact Iff.rfl
  | same i h ih =>
    match ws with
    | [] => simp
    | w :: ws =>
      rw [List.map_cons, List.cons_prefix_cons, List.cons_prefix_cons, ih]
  | mark h ih =>
    match ws with
    | [] => simp
    | w :: ws => simp [List.cons_prefix_cons]
  | name w h ih =>
    match ws with
    | [] => simp
    | w :: ws => simp [List.cons_prefix_cons]

/-- A run of two words or more is in both or in neither. -/
theorem Named.infix_iff {l l' : List Item} (h : Named l l') {ws : List (List Char)}
    (hlength : 2 ≤ ws.length) : ws.map some <:+: l' ↔ ws.map some <:+: l := by
  have hnone (l : List Item) : ¬ ws.map some <+: none :: l := by
    match ws with
    | w :: ws => simp [List.cons_prefix_cons]
  have hname (w : List Char) (l : List Item) : ¬ ws.map some <+: some w :: none :: l := by
    match ws with
    | v :: u :: ws => simp [List.cons_prefix_cons]
  clear hlength
  induction h with
  | done => exact Iff.rfl
  | same i h ih =>
    rw [List.infix_cons_iff, List.infix_cons_iff, (h.same i).prefix_iff]
    exact or_congr_right ih
  | mark h ih =>
    rw [List.infix_cons_iff, or_iff_right (hnone _)]
    exact ih
  | name w h ih =>
    rw [List.infix_cons_iff, or_iff_right (hnone _), List.infix_cons_iff,
      or_iff_right (hname w _), List.infix_cons_iff, or_iff_right (hnone _),
      List.infix_cons_iff, or_iff_right (hnone _)]
    exact ih

end Escaping

/-! ## The result -/

/-- The string matches a dangerous pattern or has an angle bracket. -/
def Dangerous (text : List Char) : Prop :=
  (∃ r ∈ dangerousPatterns U, r.search text = true) ∨ '<' ∈ text ∨ '>' ∈ text

/-- The runs of words in which one phrase is left when `DELETE FROM` has been removed. -/
inductive Wrapped : List Item → Prop
  | drop (n : Nat) :
      Wrapped (wordOf "DROP" :: (pairs (wordOf "DELETE") (wordOf "FROM") n ++ [wordOf "TABLE"]))
  | delete (n : Nat) :
      Wrapped (wordOf "DELETE" ::
        (pairs (wordOf "DELETE") (wordOf "FROM") (n + 1) ++ [wordOf "FROM"]))

/-- Such a run stands in the text with any number of `DROP TABLE` between its words, and with at
    least one where `DROP` and `TABLE` are neighbours in it. -/
def Hidden (text : List Char) : Prop :=
  ∃ ws, Wrapped ws ∧ ∃ run, Padded (wordOf "DROP") (wordOf "TABLE") ws run ∧ run <:+: items U text

theorem wrapped_iff {ws : List Item} :
    Wrapped ws ↔
      Padded (wordOf "DELETE") (wordOf "FROM") [wordOf "DROP", wordOf "TABLE"] ws ∨
        Padded (wordOf "DELETE") (wordOf "FROM") [wordOf "DELETE", wordOf "FROM"] ws := by
  rw [padded_pair_iff, padded_pair_iff]
  constructor
  · intro h
    match h with
    | .drop n =>
      refine .inl ⟨n, fun hdrop => ?_, rfl⟩
      exact absurd hdrop (by decide)
    | .delete n => exact .inr ⟨n + 1, fun _ _ => Nat.succ_pos n, rfl⟩
  · intro h
    rcases h with ⟨n, _, rfl⟩ | ⟨n, hpos, rfl⟩
    · exact .drop n
    · obtain ⟨n, rfl⟩ := Nat.exists_eq_add_one_of_ne_zero (Nat.ne_of_gt (hpos rfl rfl))
      exact .delete n

theorem Wrapped.ends {ws : List Item} (h : Wrapped ws) :
    ws ≠ [] ∧ ws.head? ≠ some (wordOf "TABLE") ∧ ws.getLast? ≠ some (wordOf "DROP") := by
  match h with
  | .drop n =>
    refine ⟨List.cons_ne_nil _ _, fun h => absurd (Option.some.inj h) (by decide), ?_⟩
    rw [← List.cons_append, List.getLast?_append]
    exact fun h => absurd (Option.some.inj h) (by decide)
  | .delete n =>
    refine ⟨List.cons_ne_nil _ _, fun h => absurd (Option.some.inj h) (by decide), ?_⟩
    rw [← List.cons_append, List.getLast?_append]
    exact fun h => absurd (Option.some.inj h) (by decide)

/-- A hidden run consists of words, at least two of them. -/
theorem exists_words {ws run : List Item} (h : Wrapped ws)
    (hrun : Padded (wordOf "DROP") (wordOf "TABLE") ws run) :
    ∃ vs : List (List Char), run = vs.map some ∧ 2 ≤ vs.length := by
  have hword (x : String) : (wordOf x).isSome = true := rfl
  have hpair (x y : String) : ∀ a ∈ [wordOf x, wordOf y], a.isSome = true := by
    simp [wordOf]
  have hws : (∀ a ∈ ws, a.isSome = true) ∧ 2 ≤ ws.length := by
    rcases wrapped_iff.mp h with hws | hws
    · exact ⟨hws.forall_mem (hword _) (hword _) (hpair _ _), hws.length_le⟩
    · exact ⟨hws.forall_mem (hword _) (hword _) (hpair _ _), hws.length_le⟩
  have hsome : ∀ a ∈ run, a.isSome = true := hrun.forall_mem (hword _) (hword _) hws.1
  refine ⟨run.map (·.getD []), ?_, ?_⟩
  · rw [List.map_map]
    refine ((List.map_congr_left fun a ha => ?_).trans (List.map_id run)).symm
    obtain ⟨w, rfl⟩ := Option.isSome_iff_exists.mp (hsome a ha)
    rfl
  · rw [List.length_map]
    exact Nat.le_trans hws.2 hrun.length_le

variable {U} in
theorem search_dropTable_iff (text : List Char) :
    (dropTable U).search text = true ↔ [wordOf "DROP", wordOf "TABLE"] <:+: items U text :=
  search_iff rfl (isWord_of_ascii U (by decide) (by decide))
    (isWord_of_ascii U (by decide) (by decide)) text

variable {U} in
theorem search_deleteFrom_iff (text : List Char) :
    (deleteFrom U).search text = true ↔ [wordOf "DELETE", wordOf "FROM"] <:+: items U text :=
  search_iff rfl (isWord_of_ascii U (by decide) (by decide))
    (isWord_of_ascii U (by decide) (by decide)) text

theorem items_sanitizeText (text : List Char) :
    items U (sanitizeText U text) = unpair (wordOf "DELETE") (wordOf "FROM")
      (unpair (wordOf "DROP") (wordOf "TABLE") (items U (htmlEscape text))) := by
  have hdelete : IsWord U "DELETE" := isWord_of_ascii U (by decide) (by decide)
  have hfrom : IsWord U "FROM" := isWord_of_ascii U (by decide) (by decide)
  have hdrop : IsWord U "DROP" := isWord_of_ascii U (by decide) (by decide)
  have htable : IsWord U "TABLE" := isWord_of_ascii U (by decide) (by decide)
  rw [sanitizeText_eq, items_sub rfl hdelete hfrom, items_sub rfl hdrop htable]

/-- **A sanitized text is dangerous exactly if a phrase was hidden in it.** -/
theorem dangerous_sanitizeText_iff (text : List Char) :
    Dangerous U (sanitizeText U text) ↔ Hidden U text := by
  obtain ⟨hlt, hgt⟩ := angle_not_mem_sanitizeText U text
  have hscript := search_scriptTag hlt
  have hphrases : Dangerous U (sanitizeText U text) ↔
      [wordOf "DROP", wordOf "TABLE"] <:+: items U (sanitizeText U text) ∨
        [wordOf "DELETE", wordOf "FROM"] <:+: items U (sanitizeText U text) := by
    rw [← search_dropTable_iff, ← search_deleteFrom_iff]
    simp [Dangerous, dangerousPatterns, hlt, hgt, hscript]
  have hdelete (ws : List Item) (hne : ws ≠ []) (hhead : ws.head? ≠ some (wordOf "FROM"))
      (hlast : ws.getLast? ≠ some (wordOf "DELETE")) (l : List Item) :=
    infix_unpair_iff (x := wordOf "DELETE") (y := wordOf "FROM") (l := l) (by decide) hne hhead
      hlast
  rw [hphrases, items_sanitizeText, hdelete _ (by decide) (by decide) (by decide),
    hdelete _ (by decide) (by decide) (by decide), ← exists_or]
  unfold Hidden
  refine exists_congr fun ws => ?_
  rw [← or_and_right, ← wrapped_iff]
  refine and_congr_right fun hws => ?_
  obtain ⟨hne, hhead, hlast⟩ := hws.ends
  rw [infix_unpair_iff (by decide) hne hhead hlast]
  refine exists_congr fun run => and_congr_right fun hrun => ?_
  obtain ⟨vs, rfl, hlength⟩ := exists_words hws hrun
  exact (named_htmlEscape text).infix_iff hlength

/-- What must hold of a string of the payload. -/
def Occurrence.Harmless : Occurrence → Prop
  | .key k => ¬ Dangerous U k.toList
  | .value s => ¬ Hidden U s.toList

def Occurrence.text : Occurrence → String
  | .key k => k
  | .value s => s

structure Sanitized (payload : Json) : Prop where
  safe : ∀ o ∈ occurrences (sanitizePayload U payload), ¬ Dangerous U o.text.toList
  shape : skeleton (sanitizePayload U payload) = skeleton payload

/-- **A sanitized payload has no dangerous string exactly if no key was dangerous and no phrase was
    hidden in a value.** -/
theorem sanitized_iff (payload : Json) :
    Sanitized U payload ↔ ∀ o ∈ occurrences payload, o.Harmless U := by
  have hsafe : (∀ o ∈ occurrences (sanitizePayload U payload), ¬ Dangerous U o.text.toList) ↔
      ∀ o ∈ occurrences payload, o.Harmless U := by
    rw [occurrences_sanitizePayload, List.forall_mem_map]
    refine forall_congr' fun o => forall_congr' fun _ => ?_
    match o with
    | .key k => exact Iff.rfl
    | .value s =>
      have htext : ((Occurrence.value s).sanitize U).text.toList = sanitizeText U s.toList :=
        String.toList_ofList
      rw [htext, dangerous_sanitizeText_iff]
      exact Iff.rfl
  constructor
  · intro h
    exact hsafe.mp h.safe
  · intro h
    exact ⟨hsafe.mpr h, skeleton_sanitizePayload U payload⟩

/-- `DROP  TABLE` is left of this text. -/
theorem not_sanitized_drop_drop_table_table :
    ¬ Sanitized .ofAscii (.str "DROP DROP TABLE TABLE") := by
  intro h
  have hleft : (dropTable .ofAscii).search
      (sanitizeText .ofAscii "DROP DROP TABLE TABLE".toList) = true := by
    decide
  refine h.safe _ List.mem_cons_self (.inl ⟨dropTable .ofAscii, by simp [dangerousPatterns], ?_⟩)
  exact String.toList_ofList ▸ hleft

end AgentCorp.Security.Sanitizer
