import OperatingSystem.Lib.Run

/-! # Runs that stutter

A system is looked at through `view`. Each of its actions is either one step of a machine `next` on
what is seen, and then `move` says so, or leaves what is seen as it was: `Stutters`, with an invariant
`I` of the system and a condition `C` on its actions.

* `Stutters.exec`: what is seen after a run is what the machine reaches in `moves` steps.
* `Stutters.forall_iter`: a property that the condition asks for at every move holds in the states that
  the machine goes through.
* `Stutters.along`: if it holds wherever the machine comes, the condition holds along every run.
* `iter_unique`: a machine that stops in two states stops in one. -/

namespace OperatingSystem.Lib.Stutter

open OperatingSystem.Lib.Run

variable {σ τ α : Type*}

/-- `n` steps of a machine. -/
def iter (next : τ → Option τ) : ℕ → τ → Option τ
  | 0, t => some t
  | n + 1, t => (next t).bind (iter next n)

/-- How many actions of a run move the machine, the one that gets stuck included. -/
def moves (step : σ → α → Option σ) (move : σ → α → Prop) [∀ s a, Decidable (move s a)] :
    σ → List α → ℕ
  | _, [] => 0
  | s, a :: as =>
    (if move s a then 1 else 0) + (step s a).elim 0 fun s' => moves step move s' as

section iter

variable {next : τ → Option τ} {t u v : τ} {m n : ℕ}

theorem iter_succ (n : ℕ) (t : τ) : iter next (n + 1) t = (next t).bind (iter next n) := rfl

theorem iter_add (m n : ℕ) (t : τ) :
    iter next (m + n) t = (iter next m t).bind (iter next n) := by
  induction m generalizing t with
  | zero => rw [Nat.zero_add]; rfl
  | succ m ih =>
    rw [Nat.succ_add, iter_succ, iter_succ, Option.bind_assoc]
    exact congrArg _ (funext ih)

theorem iter_of_halted (h : next t = some t) (n : ℕ) : iter next n t = some t := by
  induction n with
  | zero => rfl
  | succ n ih => rw [iter_succ, h]; exact ih

/-- Where the machine has stopped it is ever after. -/
theorem iter_of_le (ht : iter next m t = some u) (hu : next u = some u) (h : m ≤ n) :
    iter next n t = some u := by
  obtain ⟨k, rfl⟩ := Nat.exists_eq_add_of_le h
  rw [iter_add, ht]
  exact iter_of_halted hu k

theorem iter_unique (hu : iter next m t = some u) (hu' : next u = some u)
    (hv : iter next n t = some v) (hv' : next v = some v) : u = v := by
  rcases Nat.le_total m n with h | h
  · exact Option.some.inj ((iter_of_le hu hu' h).symm.trans hv)
  · exact Option.some.inj (hu.symm.trans (iter_of_le hv hv' h))

end iter

/-- An allowed action keeps the invariant, and is one step of the machine or none. -/
structure Stutters (step : σ → α → Option σ) (next : τ → Option τ) (view : σ → τ)
    (move : σ → α → Prop) (I : σ → Prop) (C : σ → α → Prop) : Prop where
  keeps : ∀ s a s', I s → C s a → step s a = some s' → I s'
  moves : ∀ s a, I s → C s a → move s a → (step s a).map view = next (view s)
  stays : ∀ s a, I s → C s a → ¬move s a → (step s a).map view = some (view s)

namespace Stutters

variable {step : σ → α → Option σ} {next : τ → Option τ} {view : σ → τ} {move : σ → α → Prop}
  {I : σ → Prop} {C : σ → α → Prop} {D : τ → Prop} {s s' : σ} {a : α} {as : List α}

theorem view_of_move (h : Stutters step next view move I C) (hI : I s) (hC : C s a) (hm : move s a)
    (hs : step s a = some s') : next (view s) = some (view s') := by
  rw [← h.moves s a hI hC hm, hs]
  rfl

theorem view_of_not_move (h : Stutters step next view move I C) (hI : I s) (hC : C s a)
    (hm : ¬move s a) (hs : step s a = some s') : view s' = view s := by
  have := h.stays s a hI hC hm
  rw [hs] at this
  exact Option.some.inj this

variable [∀ s a, Decidable (move s a)]

/-- **Simulation.** What is seen after an allowed run is what the machine has reached, and the run is
stuck only where the machine is. -/
theorem exec (h : Stutters step next view move I C) : ∀ {as : List α} {s : σ}, I s →
    Along step C s as →
    (Run.exec step s as).map view = iter next (Stutter.moves step move s as) (view s)
  | [], _, _, _ => rfl
  | a :: as, s, hI, ⟨hC, hA⟩ => by
    rw [exec_cons, Stutter.moves]
    by_cases hm : move s a
    · rw [if_pos hm, iter_add, iter_succ, ← h.moves s a hI hC hm]
      cases hs : step s a with
      | none => rfl
      | some s' => exact h.exec (h.keeps s a s' hI hC hs) (hA s' hs)
    · rw [if_neg hm, Nat.zero_add]
      cases hs : step s a with
      | none =>
        have := h.stays s a hI hC hm
        rw [hs] at this
        cases this
      | some s' =>
        rw [← h.view_of_not_move hI hC hm hs]
        exact h.exec (h.keeps s a s' hI hC hs) (hA s' hs)

/-- What the condition asks for at a move holds in the states that the machine goes through. -/
theorem forall_iter (h : Stutters step next view move I C)
    (hD : ∀ s a, C s a → move s a → D (view s)) : ∀ {as : List α} {s : σ}, I s →
    Along step C s as → ∀ k < Stutter.moves step move s as, ∀ t, iter next k (view s) = some t → D t
  | [], _, _, _ => fun k hk => absurd hk (Nat.not_lt_zero k)
  | a :: as, s, hI, ⟨hC, hA⟩ => fun k hk t ht => by
    rw [Stutter.moves] at hk
    by_cases hm : move s a
    · rw [if_pos hm] at hk
      cases k with
      | zero => exact Option.some.inj ht ▸ hD s a hC hm
      | succ k =>
        rw [iter_succ, ← h.moves s a hI hC hm] at ht
        cases hs : step s a with
        | none => rw [hs] at ht; cases ht
        | some s' =>
          rw [hs] at hk ht
          refine h.forall_iter hD (h.keeps s a s' hI hC hs) (hA s' hs) k ?_ t ht
          simp only [Option.elim_some] at hk
          omega
    · rw [if_neg hm, Nat.zero_add] at hk
      cases hs : step s a with
      | none => rw [hs] at hk; exact absurd hk (Nat.not_lt_zero k)
      | some s' =>
        rw [hs] at hk
        rw [← h.view_of_not_move hI hC hm hs] at ht
        exact h.forall_iter hD (h.keeps s a s' hI hC hs) (hA s' hs) k hk t ht

omit [∀ s a, Decidable (move s a)] in
/-- If it holds wherever the machine comes, every run that meets the rest of the condition is allowed. -/
theorem along_of {E : σ → α → Prop} (h : Stutters step next view move I C)
    (hC : ∀ s a, I s → E s a → (move s a → D (view s)) → C s a) : ∀ {as : List α} {s : σ}, I s →
    Along step E s as → (∀ k t, iter next k (view s) = some t → D t) → Along step C s as
  | [], _, _, _, _ => trivial
  | a :: as, s, hI, ⟨hE, hA⟩, hall => by
    have hCa : C s a := hC s a hI hE fun _ => hall 0 (view s) rfl
    refine ⟨hCa, fun s' hs => h.along_of hC (h.keeps s a s' hI hCa hs) (hA s' hs) fun k t ht => ?_⟩
    by_cases hm : move s a
    · refine hall (k + 1) t ?_
      rw [iter_succ, h.view_of_move hI hCa hm hs]
      exact ht
    · rw [h.view_of_not_move hI hCa hm hs] at ht
      exact hall k t ht

omit [∀ s a, Decidable (move s a)] in
/-- If it holds wherever the machine comes, the condition holds along every run. -/
theorem along (h : Stutters step next view move I C)
    (hC : ∀ s a, I s → (move s a → D (view s)) → C s a) (as : List α) {s : σ} (hI : I s)
    (hall : ∀ k t, iter next k (view s) = some t → D t) : Along step C s as :=
  h.along_of (fun s a hI _ => hC s a hI) hI (along_of_forall (C := fun _ _ => True)
    (fun _ _ => trivial) as s) hall

end Stutters

end OperatingSystem.Lib.Stutter
