import OperatingSystem.Lib.Stutter

/-! # Triples of a machine

`Triple next D P Q`: from every state of `P` the machine comes to a state of `Q`, and it is in `D` in all
the states it goes through before. So a triple is total: it says that the machine gets there.

* the rules: `Triple.skip`, `Triple.of_next`, `Triple.seq`, `Triple.conseq`;
* loops: `Triple.descend` for a body that takes one from a counter, `Recurs` for the ones that never end;
* a system that stutters over the machine does what they say: `Triple.adequate`, `Recurs.forever`.
-/

namespace OperatingSystem.Lib.Triples

open OperatingSystem.Lib.Run OperatingSystem.Lib.Stutter

variable {σ τ α : Type*}

/-- The machine comes to a state of `Q`, and is in `D` before. -/
inductive Reaches (next : τ → Option τ) (D Q : τ → Prop) : τ → Prop
  | here {t : τ} (h : Q t) : Reaches next D Q t
  | next {t u : τ} (hD : D t) (hu : next t = some u) (h : Reaches next D Q u) : Reaches next D Q t

def Triple (next : τ → Option τ) (D P Q : τ → Prop) : Prop := ∀ t, P t → Reaches next D Q t

variable {next : τ → Option τ} {D P P' Q Q' R : τ → Prop} {t u : τ}

theorem Reaches.trans (h : Reaches next D Q t) (hQ : ∀ u, Q u → Reaches next D R u) :
    Reaches next D R t := by
  induction h with
  | here h => exact hQ _ h
  | next hD hu _ ih => exact .next hD hu ih

/-- The number of steps, and the states in between. -/
theorem Reaches.exists_iter (h : Reaches next D Q t) : ∃ n u, iter next n t = some u ∧ Q u ∧
    ∀ k < n, ∀ v, iter next k t = some v → D v := by
  induction h with
  | here h => exact ⟨0, _, rfl, h, fun k hk => absurd hk (Nat.not_lt_zero k)⟩
  | next hD hu _ ih =>
    obtain ⟨n, u', hn, hQ, hall⟩ := ih
    refine ⟨n + 1, u', by rw [iter_succ, hu]; exact hn, hQ, fun k hk v hv => ?_⟩
    cases k with
    | zero => exact Option.some.inj hv ▸ hD
    | succ k =>
      rw [iter_succ, hu] at hv
      exact hall k (Nat.lt_of_succ_lt_succ hk) v hv

/-- The goal of a triple is where the machine stops. -/
theorem Reaches.iter_of_halted (h : Reaches next D Q t) (hQ : ∀ u, Q u → next u = some u ∧ D u) :
    ∃ n u, Q u ∧ (∀ k, n ≤ k → iter next k t = some u) ∧
      ∀ k v, iter next k t = some v → D v := by
  obtain ⟨n, u, hn, hu, hall⟩ := h.exists_iter
  have hle : ∀ k, n ≤ k → iter next k t = some u := fun k hk => iter_of_le hn (hQ u hu).1 hk
  refine ⟨n, u, hu, hle, fun k v hv => ?_⟩
  rcases Nat.lt_or_ge k n with hk | hk
  · exact hall k hk v hv
  · obtain rfl := Option.some.inj ((hle k hk).symm.trans hv)
    exact (hQ u hu).2

/-- What a step keeps and the goal excludes keeps the machine from the goal. -/
theorem not_reaches_of_invariant {I : τ → Prop} (hstep : ∀ t u, I t → next t = some u → I u)
    (hQ : ∀ t, I t → ¬Q t) (hI : I t) : ¬Reaches next D Q t := by
  intro h
  induction h with
  | here h => exact hQ _ hI h
  | next _ hu _ ih => exact ih (hstep _ _ hI hu)

/-- The machine comes back to `P`, over and over. -/
def Recurs (next : τ → Option τ) (D P : τ → Prop) : Prop :=
  ∀ t, P t → ∃ u, D t ∧ next t = some u ∧ Reaches next D P u

/-- On its way to a `P` that recurs the machine is never stuck, and stays on its way. -/
theorem Recurs.advance (h : Recurs next D P) (ht : Reaches next D P t) :
    D t ∧ ∃ u, next t = some u ∧ Reaches next D P u := by
  cases ht with
  | here hP =>
    obtain ⟨u, hD, hu, hr⟩ := h t hP
    exact ⟨hD, u, hu, hr⟩
  | next hD hu hr => exact ⟨hD, _, hu, hr⟩

namespace Triple

/-! ### The rules -/

theorem skip (h : ∀ t, P t → Q t) : Triple next D P Q := fun t ht => .here (h t ht)

/-- One step. -/
theorem of_next (h : ∀ t, P t → D t ∧ ∃ u, next t = some u ∧ Q u) : Triple next D P Q := by
  intro t ht
  obtain ⟨hD, u, hu, hQ⟩ := h t ht
  exact .next hD hu (.here hQ)

theorem seq (h : Triple next D P Q) (h' : Triple next D Q R) : Triple next D P R :=
  fun t ht => (h t ht).trans h'

theorem conseq (h : Triple next D P Q) (hP : ∀ t, P' t → P t) (hQ : ∀ t, Q t → Q' t) :
    Triple next D P' Q' :=
  fun t ht => (h t (hP t ht)).trans fun u hu => .here (hQ u hu)

/-! ### Loops -/

/-- A body that takes one from a counter is gone through as often as the counter says. -/
theorem descend {I : ℕ → τ → Prop} (h : ∀ n, Triple next D (I (n + 1)) (I n)) (n : ℕ) :
    Triple next D (I n) (I 0) := by
  induction n with
  | zero => exact skip fun _ ht => ht
  | succ n ih => exact (h n).seq ih

end Triple

/-! ### Systems over the machine -/

section

variable {step : σ → α → Option σ} {view : σ → τ} {move : σ → α → Prop} {I : σ → Prop}
  {C : σ → α → Prop} {s : σ}

/-- **Adequacy.** A triple whose goal is where the machine stops holds of every run of a system that
stutters over it: with the condition `E`, which does not mention `D`, the run is allowed and never stuck,
and from wherever it has come the machine gets to the goal. -/
theorem Triple.adequate {E : σ → α → Prop} (h : Triple next D P Q)
    (hst : Stutters step next view move I C)
    (hC : ∀ s a, I s → E s a → (move s a → D (view s)) → C s a)
    (hQ : ∀ u, Q u → next u = some u ∧ D u) (hI : I s) (hP : P (view s)) :
    ∃ n u, Q u ∧ ∀ as, Along step E s as → Along step C s as ∧
      ∃ s', exec step s as = some s' ∧ I s' ∧
      iter next n (view s') = some u ∧ ∀ k v, iter next k (view s') = some v → D v := by
  classical
  obtain ⟨n, u, hu, hle, hall⟩ := (h _ hP).iter_of_halted hQ
  refine ⟨n, u, hu, fun as hE => ?_⟩
  have hA := hst.along_of (D := D) hC hI hE hall
  have hexec := hst.exec hI hA
  -- the machine is not stuck on its way to the goal, so that the run is not
  have hsome : ∃ v, iter next (moves step move s as) (view s) = some v := by
    have := hle (moves step move s as + n) (Nat.le_add_left n _)
    rw [iter_add] at this
    obtain ⟨v, hv, -⟩ := Option.bind_eq_some_iff.mp this
    exact ⟨v, hv⟩
  obtain ⟨v, hv⟩ := hsome
  rw [hv] at hexec
  obtain ⟨s', hs', rfl⟩ := Option.map_eq_some_iff.mp hexec
  have hadd : ∀ k, iter next k (view s') = iter next (moves step move s as + k) (view s) := by
    intro k
    rw [iter_add, hv]
    rfl
  refine ⟨hA, s', hs', exec_invariant hst.keeps hI hA hs', ?_, fun k w hw => ?_⟩
  · rw [hadd n]
    exact hle _ (Nat.le_add_left n _)
  · exact hall _ w ((hadd k).symm.trans hw)

/-- **Adequacy for the loops that never end.** No run of a system that stutters over a machine on its way
to a `P` that recurs is ever stuck, or takes it off its way. -/
theorem Recurs.forever (h : Recurs next D P) (hst : Stutters step next view move I C)
    (hC : ∀ s a, I s → (move s a → D (view s)) → C s a) (hI : I s)
    (hP : Reaches next D P (view s)) (as : List α) :
    ∃ s', exec step s as = some s' ∧ I s' ∧ Reaches next D P (view s') := by
  induction as generalizing s with
  | nil => exact ⟨s, rfl, hI, hP⟩
  | cons a as ih =>
    obtain ⟨hD, u, hu, hr⟩ := h.advance hP
    have hCa : C s a := hC s a hI fun _ => hD
    have hsome : ∃ s', step s a = some s' ∧ Reaches next D P (view s') := by
      by_cases hm : move s a
      · have := hst.moves s a hI hCa hm
        rw [hu] at this
        obtain ⟨s', hs', rfl⟩ := Option.map_eq_some_iff.mp this
        exact ⟨s', hs', hr⟩
      · obtain ⟨s', hs', hv⟩ := Option.map_eq_some_iff.mp (hst.stays s a hI hCa hm)
        exact ⟨s', hs', by rw [hv]; exact hP⟩
    obtain ⟨s', hs', hP'⟩ := hsome
    obtain ⟨s'', hs'', h''⟩ := ih (hst.keeps s a s' hI hCa hs') hP'
    exact ⟨s'', by rw [exec_cons, hs']; exact hs'', h''⟩

end

end OperatingSystem.Lib.Triples
