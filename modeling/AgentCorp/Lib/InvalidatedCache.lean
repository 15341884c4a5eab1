/-
  A cache of a store that others write, and invalidate afterwards.

  The store has versions, one for each write. A cache is empty or holds a version, and `floor` is
  the version at the last invalidation. A read of an empty cache, or of one that is too old, fills
  it with the version that is there.

  * `State`: what the cache holds is not below the floor, by construction.
  * `Steps.floor_le`: the floor does not go back.
  * `Steps.le_cached`: so what a cache holds after an invalidation is not older than that.
-/
import Mathlib.Logic.Relation

namespace InvalidatedCache

structure State where
  version : Nat
  cached : Option Nat
  floor : Nat
  floor_le : floor ≤ version
  fresh : ∀ c, cached = some c → floor ≤ c ∧ c ≤ version

namespace State

/-- Nothing cached yet. -/
def initial : State where
  version := 0
  cached := none
  floor := 0
  floor_le := Nat.le_refl 0
  fresh := by simp

def write (s : State) : State where
  version := s.version + 1
  cached := s.cached
  floor := s.floor
  floor_le := by
    have h := s.floor_le
    omega
  fresh := by
    intro c hc
    have h := s.fresh c hc
    omega

def invalidate (s : State) : State where
  version := s.version
  cached := none
  floor := s.version
  floor_le := Nat.le_refl s.version
  fresh := by simp

def fill (s : State) : State where
  version := s.version
  cached := some s.version
  floor := s.floor
  floor_le := s.floor_le
  fresh := by
    intro c hc
    have h := s.floor_le
    obtain rfl := Option.some.inj hc
    omega

end State

inductive Step : State → State → Prop
  | write (s : State) : Step s s.write
  | invalidate (s : State) : Step s s.invalidate
  | fill (s : State) : Step s s.fill

abbrev Steps : State → State → Prop :=
  Relation.ReflTransGen Step

variable {s t : State}

theorem Step.floor_le (h : Step s t) : s.floor ≤ t.floor := by
  cases h with
  | write => exact Nat.le_refl s.floor
  | invalidate => exact s.floor_le
  | fill => exact Nat.le_refl s.floor

theorem Steps.floor_le (h : Steps s t) : s.floor ≤ t.floor := by
  induction h with
  | refl => exact Nat.le_refl s.floor
  | tail _ hstep ih =>
    have hle := hstep.floor_le
    omega

/-- **After an invalidation** the cache holds nothing older than what was there then. -/
theorem Steps.le_cached (h : Steps s.invalidate t) {c : Nat} (hc : t.cached = some c) :
    s.version ≤ c := by
  have hfloor : s.version ≤ t.floor := h.floor_le
  have hfresh := (t.fresh c hc).1
  omega

end InvalidatedCache
