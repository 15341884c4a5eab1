/-
  Reading a growing list page by page.

  A request counts the list and then reads one page of it; the list may grow before it, and
  between the two. The reader goes on until its pages cover the last count.

  * `page_append_drop`: a page is what the rest after it lacks.
  * `page_eq_of_prefix`: a full page stays as it is.
  * `readPages_spec`: what is read starts with all that was there at the first request, and is
    the start of what is there in the end.
  * `readPages_isSome`: the reader ends, if the list does not outgrow its requests.
-/
import Mathlib.Data.List.Basic
import Mathlib.Data.List.Infix

namespace Paging

variable {α : Type}

/-- The list as one request finds it: when it counts, and when it reads. -/
structure Snapshot (α : Type) where
  counted : List α
  read : List α

/-- The page `k`, the first of which is 0. -/
def page (size k : Nat) (l : List α) : List α :=
  (l.drop (k * size)).take size

/-- The pages from `k` on, one for each request, until they cover the count. -/
def readPages (size : Nat) : List (Snapshot α) → Nat → Option (List α)
  | [], _ => none
  | request :: requests, k =>
      if request.counted.length ≤ (k + 1) * size then some (page size k request.read)
      else (readPages size requests (k + 1)).map (page size k request.read ++ ·)

/-- The list only grows. -/
def Growing : List (Snapshot α) → Prop
  | [] => True
  | request :: requests =>
      request.counted <+: request.read ∧
        (∀ next ∈ requests.head?, request.read <+: next.counted) ∧ Growing requests

theorem page_append_drop (size k : Nat) (l : List α) :
    page size k l ++ l.drop ((k + 1) * size) = l.drop (k * size) := by
  have hdrop : l.drop ((k + 1) * size) = (l.drop (k * size)).drop size := by
    rw [List.drop_drop, Nat.add_mul, Nat.one_mul]
  rw [page, hdrop, List.take_append_drop]

theorem page_eq_of_prefix {size k : Nat} {l l' : List α} (h : l <+: l')
    (hfull : (k + 1) * size ≤ l.length) : page size k l' = page size k l := by
  obtain ⟨more, rfl⟩ := h
  rw [Nat.add_mul, Nat.one_mul] at hfull
  have hrest : size ≤ (l.drop (k * size)).length := by
    rw [List.length_drop]
    omega
  rw [page, page, List.drop_append_of_le_length (by omega), List.take_append_of_le_length hrest]

/-- The page that covers the count has all the rest of what was counted. -/
theorem page_of_covered {size k : Nat} {counted read : List α} (h : counted <+: read)
    (hcovered : counted.length ≤ (k + 1) * size) :
    counted.drop (k * size) <+: page size k read ∧
      page size k read <+: read.drop (k * size) := by
  rw [Nat.add_mul, Nat.one_mul] at hcovered
  refine ⟨?_, List.take_prefix size _⟩
  rw [page, List.prefix_take_iff, List.length_drop]
  exact ⟨h.drop _, by omega⟩

/-- A full page in front of what is read after it. -/
theorem page_append_iff {size k : Nat} {l l' : List α} (h : l <+: l')
    (hfull : (k + 1) * size ≤ l.length) {out : List α} :
    (page size k l ++ out <+: l'.drop (k * size) ↔ out <+: l'.drop ((k + 1) * size)) ∧
      (l'.drop (k * size) <+: page size k l ++ out ↔ l'.drop ((k + 1) * size) <+: out) := by
  rw [← page_append_drop size k l', page_eq_of_prefix h hfull]
  exact ⟨List.prefix_append_right_inj _, List.prefix_append_right_inj _⟩

/-- **Paging.** The induction is on the requests, for the rest of the list from page `k` on. -/
theorem readPages_spec {size : Nat} {request : Snapshot α} {requests : List (Snapshot α)} {k : Nat}
    {out : List α} (hgrow : Growing (request :: requests))
    (h : readPages size (request :: requests) k = some out) :
    ∃ last ∈ request :: requests, request.read <+: last.read ∧
      request.counted.drop (k * size) <+: out ∧ out <+: last.read.drop (k * size) := by
  induction requests generalizing request k out with
  | nil =>
      rw [readPages] at h
      split_ifs at h with hcovered
      · obtain rfl := Option.some.inj h
        exact ⟨request, List.mem_cons_self, List.prefix_rfl, page_of_covered hgrow.1 hcovered⟩
      · simp [readPages] at h
  | cons next requests ih =>
      obtain ⟨hread, hnext, hrest⟩ := hgrow
      rw [readPages] at h
      split_ifs at h with hcovered
      · obtain rfl := Option.some.inj h
        exact ⟨request, List.mem_cons_self, List.prefix_rfl, page_of_covered hread hcovered⟩
      · obtain ⟨out', hout', rfl⟩ := Option.map_eq_some_iff.mp h
        obtain ⟨last, hlast, hgrown, hfirst, hend⟩ := ih hrest hout'
        have hstep : request.read <+: next.counted := hnext next rfl
        have hlater : request.read <+: last.read := (hstep.trans hrest.1).trans hgrown
        have hfull : (k + 1) * size ≤ request.read.length := by
          have hlength := hread.length_le
          omega
        refine ⟨last, List.mem_cons_of_mem _ hlast, hlater, ?_, ?_⟩
        · have hcounted := (hread.trans hstep).drop (k * size)
          exact hcounted.trans ((page_append_iff hstep hfull).2.mpr hfirst)
        · exact (page_append_iff hlater hfull).1.mpr hend

/-- The reader ends if as many requests as the list has pages are left. -/
theorem readPages_isSome {size bound : Nat} {requests : List (Snapshot α)} {k : Nat}
    (hne : requests ≠ []) (hcount : ∀ request ∈ requests, request.counted.length ≤ bound)
    (henough : bound ≤ (k + requests.length) * size) :
    (readPages size requests k).isSome := by
  induction requests generalizing k with
  | nil => exact absurd rfl hne
  | cons request requests ih =>
      rw [readPages]
      split_ifs with hcovered
      · rfl
      · have hbound := hcount request List.mem_cons_self
        have hlater : requests ≠ [] := by
          intro hnil
          rw [hnil, List.length_singleton] at henough
          omega
        rw [Option.isSome_map]
        refine ih hlater (fun other hother => hcount other (List.mem_cons_of_mem _ hother)) ?_
        rwa [List.length_cons, Nat.add_comm requests.length, ← Nat.add_assoc] at henough

end Paging
