import Mathlib.Data.List.Basic

/-! # Queues

A queue to whose end elements are pushed, which is popped at its front and from which elements may be
removed. `served` is what the pops of a run gave.

* `served_append_run`: what was served and what is still there came in this order, and it is all that
  came if nothing was removed (`served_append_run_of_forall`).
* `bounded_wait`: an element is served after some of those that were in front of it, or is still there
  after as many pops as some of those; the later ones do not count. -/

namespace OperatingSystem.Lib.Queues

inductive Event (α : Type*) where
  | push (a : α)
  | pop
  | remove (a : α)
  deriving DecidableEq

variable {α : Type*} [DecidableEq α]

def step (q : List α) : Event α → List α
  | .push a => q ++ [a]
  | .pop => q.tail
  | .remove a => q.filter (· ≠ a)

def run (q : List α) (es : List (Event α)) : List α := es.foldl step q

/-- What the pops give. -/
def served : List α → List (Event α) → List α
  | _, [] => []
  | q, e :: es => (if e = .pop then q.head?.toList else []) ++ served (step q e) es

def pushed (es : List (Event α)) : List α :=
  es.filterMap fun
    | .push a => some a
    | _ => none

def pops (es : List (Event α)) : ℕ := es.count .pop

theorem run_append (q : List α) (es fs : List (Event α)) : run q (es ++ fs) = run (run q es) fs :=
  List.foldl_append

theorem served_append : ∀ (es : List (Event α)) (q : List α) (fs : List (Event α)),
    served q (es ++ fs) = served q es ++ served (run q es) fs
  | [], _, _ => rfl
  | e :: es, q, fs => by
    have ih := served_append es (step q e) fs
    simp only [List.cons_append, served, ih, List.append_assoc]
    rfl

theorem pops_append (es fs : List (Event α)) : pops (es ++ fs) = pops es + pops fs :=
  List.count_append

/-- **First come, first served.** -/
theorem served_append_run : ∀ (es : List (Event α)) (q : List α),
    (served q es ++ run q es).Sublist (q ++ pushed es)
  | [], q => by simp [served, run, pushed]
  | .push a :: es, q => by
    have ih := served_append_run es (q ++ [a])
    rwa [List.append_assoc] at ih
  | .remove a :: es, q =>
    (served_append_run es (q.filter (· ≠ a))).trans (List.filter_sublist.append_right _)
  | .pop :: es, [] => served_append_run es []
  | .pop :: es, a :: q => (served_append_run es q).cons_cons a

/-- All of it, if nothing is removed. -/
theorem served_append_run_of_forall : ∀ (es : List (Event α)) (q : List α),
    (∀ a, .remove a ∉ es) → served q es ++ run q es = q ++ pushed es
  | [], q, _ => by simp [served, run, pushed]
  | .push a :: es, q, h => by
    have ih := served_append_run_of_forall es (q ++ [a]) fun b hb => h b (List.mem_cons_of_mem _ hb)
    rwa [List.append_assoc] at ih
  | .remove a :: es, q, h => absurd (List.mem_cons_self ..) (h a)
  | .pop :: es, [], h => served_append_run_of_forall es [] fun b hb => h b (List.mem_cons_of_mem _ hb)
  | .pop :: es, a :: q, h =>
    congrArg (a :: ·) (served_append_run_of_forall es q fun b hb => h b (List.mem_cons_of_mem _ hb))

/-- **Bounded waiting.** -/
theorem bounded_wait {x : α} : ∀ {es : List (Event α)} (l₁ l₂ : List α), .remove x ∉ es →
    (∃ d₁ d₂, served (l₁ ++ x :: l₂) es = d₁ ++ x :: d₂ ∧ d₁.Sublist l₁) ∨
      ∃ m₁ m₂, run (l₁ ++ x :: l₂) es = m₁ ++ x :: m₂ ∧
        (served (l₁ ++ x :: l₂) es ++ m₁).Sublist l₁ ∧
          (served (l₁ ++ x :: l₂) es).length = pops es
  | [], l₁, l₂, _ => Or.inr ⟨l₁, l₂, rfl, List.Sublist.refl _, rfl⟩
  | .push a :: es, l₁, l₂, h => by
    have hq : step (l₁ ++ x :: l₂) (.push a) = l₁ ++ x :: (l₂ ++ [a]) := by simp [step]
    have ih := bounded_wait l₁ (l₂ ++ [a]) fun hm => h (List.mem_cons_of_mem _ hm)
    rw [← hq] at ih
    exact ih
  | .remove a :: es, l₁, l₂, h => by
    have hax : x ≠ a := fun he => h (he ▸ List.mem_cons_self ..)
    have hq : step (l₁ ++ x :: l₂) (.remove a) =
        l₁.filter (· ≠ a) ++ x :: l₂.filter (· ≠ a) := by simp [step, hax]
    have ih := bounded_wait (l₁.filter (· ≠ a)) (l₂.filter (· ≠ a))
      fun hm => h (List.mem_cons_of_mem _ hm)
    rw [← hq] at ih
    exact ih.imp (fun ⟨d₁, d₂, hd, hs⟩ => ⟨d₁, d₂, hd, hs.trans List.filter_sublist⟩)
      fun ⟨m₁, m₂, hm, hs, hl⟩ => ⟨m₁, m₂, hm, hs.trans List.filter_sublist, hl⟩
  | .pop :: es, [], l₂, h => Or.inl ⟨[], served l₂ es, rfl, List.Sublist.refl _⟩
  | .pop :: es, a :: l₁, l₂, h => by
    have ih := bounded_wait l₁ l₂ fun hm => h (List.mem_cons_of_mem _ hm)
    refine ih.imp (fun ⟨d₁, d₂, hd, hs⟩ => ⟨a :: d₁, d₂, congrArg (a :: ·) hd, hs.cons_cons a⟩)
      fun ⟨m₁, m₂, hm, hs, hl⟩ => ⟨m₁, m₂, hm, hs.cons_cons a, ?_⟩
    rw [pops, List.count_cons_self]
    exact congrArg (· + 1) hl

end OperatingSystem.Lib.Queues
