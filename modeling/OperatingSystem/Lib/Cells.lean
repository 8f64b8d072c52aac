import Mathlib.Data.List.Basic
import Mathlib.Data.List.TakeWhile
import Mathlib.Tactic.Common

/-! # Memory that is allocated and grows

A block of memory is a list of cells, as many as were allocated, each of which holds what was last
written to it or nothing yet. `realloc` keeps what is in the cells that are left. A write past the
end of the block has no behaviour (`none`).

`Holds m xs`: the block begins with the values `xs`. A block that has room for one more value still holds
the others after it is written (`Holds.write`), and so does a block that grew (`Holds.realloc`). -/

namespace OperatingSystem.Lib.Cells

variable {α : Type*}

/-- A block of memory; `none` is a cell that was not written yet. -/
abbrev Block (α : Type*) := List (Option α)

/-- A new block of `n` cells. -/
def malloc (n : ℕ) : Block α := List.replicate n none

/-- A block of `n` cells with what fits of another one. -/
def realloc (m : Block α) (n : ℕ) : Block α := m.take n ++ List.replicate (n - m.length) none

/-- Write one cell. -/
def write (m : Block α) (i : ℕ) (x : α) : Option (Block α) :=
  if i < m.length then some (m.set i (some x)) else none

/-- What was written to the first cells of a block. -/
def written (m : Block α) : List α := (m.takeWhile Option.isSome).filterMap id

/-- The block begins with these values. -/
def Holds (m : Block α) (xs : List α) : Prop := xs.map some <+: m

variable {m : Block α} {xs : List α} {n : ℕ}

@[simp] theorem length_malloc (n : ℕ) : (malloc n : Block α).length = n := List.length_replicate

@[simp] theorem length_realloc (m : Block α) (n : ℕ) : (realloc m n).length = n := by
  rw [realloc, List.length_append, List.length_take, List.length_replicate]
  omega

theorem holds_nil (m : Block α) : Holds m [] := List.nil_prefix

/-- A block that grew holds what it held. -/
theorem Holds.realloc (h : Holds m xs) (hn : m.length ≤ n) : Holds (realloc m n) xs := by
  unfold Holds Cells.realloc at *
  rw [List.take_of_length_le hn]
  exact h.trans (List.prefix_append _ _)

/-- **The next cell.** A block with room for one more value holds that too once it is written. -/
theorem Holds.write (h : Holds m xs) (hlt : xs.length < m.length) (x : α) :
    ∃ m', write m xs.length x = some m' ∧ m'.length = m.length ∧ Holds m' (xs ++ [x]) := by
  refine ⟨m.set xs.length (some x), if_pos hlt, List.length_set, ?_⟩
  obtain ⟨resto, rfl⟩ := h
  cases resto with
  | nil => simp at hlt
  | cons y resto =>
    refine ⟨resto, ?_⟩
    rw [List.set_append_right _ _ (by simp)]
    simp

/-- Who reads a block finds the values that it holds. -/
theorem Holds.written (h : Holds m xs) : xs <+: written m := by
  obtain ⟨resto, rfl⟩ := h
  unfold Cells.written
  have hsome : ∀ y ∈ xs.map some, y.isSome = true := by simp
  rw [List.takeWhile_append_of_pos hsome, List.filterMap_append]
  refine ⟨_, congrArg (· ++ _) ?_⟩
  simp

end OperatingSystem.Lib.Cells
