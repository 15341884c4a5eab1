/-
  `Chunker.chunk_text`: the paragraphs of a text, gathered into chunks.

  A chunk is closed when the next paragraph would make it too long, and the next chunk starts
  with the last paragraph of the one before. `chunk_overlap` is not looked at.
-/
import Mathlib.Algebra.GroupWithZero.Nat
import Mathlib.Data.List.Basic

namespace AgentCorp.Knowledge

/-- `text.split("\n\n")`, on the characters of the text. -/
def splitParagraphs : List Char → List (List Char)
  | [] => [[]]
  | '\n' :: '\n' :: rest => [] :: splitParagraphs rest
  | c :: rest =>
      match splitParagraphs rest with
      | [] => [[c]]
      | para :: paras => (c :: para) :: paras

def paragraphs (text : String) : List String :=
  (splitParagraphs text.toList).map String.ofList

structure ChunkInfo where
  text : String
  characterCount : Nat
  tokenCount : Nat
  deriving DecidableEq, Repr

/-- The chunk of these paragraphs. -/
def chunkInfo (current : List String) : ChunkInfo :=
  let text := "\n\n".intercalate current
  { text, characterCount := text.length, tokenCount := text.length / 4 }

/-- `chunks`, `current_chunk` and `current_size`. -/
structure ChunkerState where
  chunks : List ChunkInfo := []
  current : List String := []
  size : Nat := 0

/-- `current_chunk[-1:] if len(current_chunk) > 1 else current_chunk`. -/
def overlap (current : List String) : List String :=
  if current.length > 1 then current.drop (current.length - 1) else current

/-- One pass of the loop over the paragraphs. -/
def chunkStep (chunkSize : Int) (s : ChunkerState) (para : String) : ChunkerState :=
  let s :=
    if (s.size + para.length : Int) > chunkSize ∧ s.current ≠ [] then
      { chunks := s.chunks ++ [chunkInfo s.current]
        current := overlap s.current
        size := ((overlap s.current).map String.length).sum }
    else s
  { s with current := s.current ++ [para], size := s.size + para.length }

def chunkText (text : String) (chunkSize : Int := 1000) : List ChunkInfo :=
  let s := (paragraphs text).foldl (chunkStep chunkSize) {}
  if s.current ≠ [] then s.chunks ++ [chunkInfo s.current] else s.chunks

example : (chunkText "one\n\ntwo\n\nthree" 6).map (·.text) = ["one\n\ntwo", "two\n\nthree"] := by
  decide +kernel

end AgentCorp.Knowledge
