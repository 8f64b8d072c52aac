import Mathlib.Data.List.Basic

/-! # Runs of a partial step function

A system is given by a step function `step : σ → α → Option σ`: the state after serving the action
`a`, or `none` where the program has no behaviour (an access out of bounds, a null pointer, a loop
that never ends). `exec step s as` serves the actions of `as` in order.

* `Along step C s as`: every action of the run is taken in a state in which `C` allows it.
* `along_congr`: conditions that agree where an invariant holds allow the same runs.
* `exec_invariant`: a property that one allowed step preserves holds after every allowed run.
* `exec_total`: if allowed steps never get stuck, allowed runs never do.
* `exec_simulation`: the same for a relation with a second system that answers every action.
* `emitted`: what the steps of a run give out, in order. -/

namespace OperatingSystem.Lib.Run

variable {σ τ α : Type*}

/-- Serve the actions in order; `none` as soon as one of them has no behaviour. -/
def exec (step : σ → α → Option σ) : σ → List α → Option σ
  | s, [] => some s
  | s, a :: as => (step s a).bind fun s' => exec step s' as

/-- Every action of the run is taken in a state in which `C` allows it. -/
def Along (step : σ → α → Option σ) (C : σ → α → Prop) : σ → List α → Prop
  | _, [] => True
  | s, a :: as => C s a ∧ ∀ s', step s a = some s' → Along step C s' as

variable {step : σ → α → Option σ} {C : σ → α → Prop}

@[simp] theorem exec_nil (s : σ) : exec step s [] = some s := rfl

@[simp] theorem exec_cons (s : σ) (a : α) (as : List α) :
    exec step s (a :: as) = (step s a).bind fun s' => exec step s' as := rfl

theorem exec_append (s : σ) (as bs : List α) :
    exec step s (as ++ bs) = (exec step s as).bind fun s' => exec step s' bs := by
  induction as generalizing s with
  | nil => rfl
  | cons a as ih =>
    rw [List.cons_append, exec_cons, exec_cons, Option.bind_assoc]
    exact congrArg _ (funext ih)

@[simp] theorem along_nil (s : σ) : Along step C s [] := trivial

theorem along_cons {s : σ} {a : α} {as : List α} :
    Along step C s (a :: as) ↔ C s a ∧ ∀ s', step s a = some s' → Along step C s' as := Iff.rfl

/-- An allowed action, and an allowed run from the state it leads to. -/
theorem Along.of_step {s s' : σ} {a : α} {as : List α} (hc : C s a) (hs : step s a = some s')
    (h : Along step C s' as) : Along step C s (a :: as) :=
  ⟨hc, fun s'' hs'' => by obtain rfl := Option.some.inj (hs.symm.trans hs''); exact h⟩

theorem along_append {s : σ} {as bs : List α} :
    Along step C s (as ++ bs) ↔
      Along step C s as ∧ ∀ s', exec step s as = some s' → Along step C s' bs := by
  induction as generalizing s with
  | nil => simp
  | cons a as ih =>
    simp only [List.cons_append, along_cons, exec_cons, Option.bind_eq_some_iff]
    constructor
    · rintro ⟨hc, h⟩
      refine ⟨⟨hc, fun s' hs' => (ih.mp (h s' hs')).1⟩, ?_⟩
      rintro s'' ⟨s', hs', hs''⟩
      exact (ih.mp (h s' hs')).2 s'' hs''
    · rintro ⟨⟨hc, h⟩, h'⟩
      exact ⟨hc, fun s' hs' => ih.mpr ⟨h s' hs', fun s'' hs'' => h' s'' ⟨s', hs', hs''⟩⟩⟩

/-- Whether the actions of a run are allowed can be computed. -/
instance decidableAlong [∀ s a, Decidable (C s a)] : ∀ s as, Decidable (Along step C s as)
  | _, [] => isTrue trivial
  | s, a :: as =>
    match hs : step s a with
    | none => decidable_of_iff (C s a) (by simp [along_cons, hs])
    | some s' =>
      have := decidableAlong s' as
      decidable_of_iff (C s a ∧ Along step C s' as) (by simp [along_cons, hs])

theorem Along.mono {D : σ → α → Prop} (hCD : ∀ s a, C s a → D s a) :
    ∀ {as : List α} {s : σ}, Along step C s as → Along step D s as
  | [], _, _ => trivial
  | _ :: _, _, ⟨h, h'⟩ => ⟨hCD _ _ h, fun s' hs' => (h' s' hs').mono hCD⟩

theorem Along.and {D : σ → α → Prop} : ∀ {as : List α} {s : σ}, Along step C s as →
    Along step D s as → Along step (fun s a => C s a ∧ D s a) s as
  | [], _, _, _ => trivial
  | _ :: _, _, ⟨h, h'⟩, ⟨k, k'⟩ => ⟨⟨h, k⟩, fun s' hs' => (h' s' hs').and (k' s' hs')⟩

theorem along_of_forall (h : ∀ s a, C s a) : ∀ (as : List α) (s : σ), Along step C s as
  | [], _ => trivial
  | a :: as, s => ⟨h s a, fun s' _ => along_of_forall h as s'⟩

/-- What holds of an allowed step in a state of the invariant holds all along an allowed run. -/
theorem Along.of_invariant {I : σ → Prop} {D : σ → α → Prop}
    (hstep : ∀ s a, I s → C s a → D s a ∧ ∀ s', step s a = some s' → I s') :
    ∀ {as : List α} {s : σ}, I s → Along step C s as → Along step D s as
  | [], _, _, _ => trivial
  | a :: _, s, hI, ⟨h, h'⟩ =>
    ⟨(hstep s a hI h).1, fun s' hs' => (h' s' hs').of_invariant hstep ((hstep s a hI h).2 s' hs')⟩

/-- Two conditions that agree in the states of an invariant, which the second one keeps, allow the
same runs. -/
theorem along_congr {I : σ → Prop} {D E : σ → α → Prop}
    (hstep : ∀ s a, I s → C s a → (D s a ↔ E s a))
    (hinv : ∀ s a s', I s → C s a → E s a → step s a = some s' → I s') :
    ∀ {as : List α} {s : σ}, I s → Along step C s as → (Along step D s as ↔ Along step E s as)
  | [], _, _, _ => Iff.rfl
  | a :: as, s, hI, ⟨h, h'⟩ => by
    rw [along_cons, along_cons, hstep s a hI h]
    refine and_congr_right fun he => forall_congr' fun s' => ?_
    exact imp_congr_right fun hs' => along_congr hstep hinv (hinv s a s' hI h he hs') (h' s' hs')

/-- **Invariants.** What an allowed step preserves holds after every allowed run. -/
theorem exec_invariant {I : σ → Prop}
    (hstep : ∀ s a s', I s → C s a → step s a = some s' → I s') :
    ∀ {as : List α} {s s' : σ}, I s → Along step C s as → exec step s as = some s' → I s'
  | [], s, s', hI, _, h => by
    obtain rfl : s = s' := by simpa using h
    exact hI
  | a :: as, s, s', hI, hA, h => by
    obtain ⟨s₁, h₁, h₂⟩ := Option.bind_eq_some_iff.mp h
    exact exec_invariant hstep (hstep s a s₁ hI hA.1 h₁) (hA.2 s₁ h₁) h₂

/-- What the actions of a run emit, each in the state it is taken in. -/
def emitted {β : Type*} (step : σ → α → Option σ) (out : σ → α → List β) : σ → List α → List β
  | _, [] => []
  | s, a :: as => out s a ++ (step s a).elim [] fun s' => emitted step out s' as

theorem emitted_cons {β : Type*} {out : σ → α → List β} {s s' : σ} {a : α} (h : step s a = some s')
    (as : List α) : emitted step out s (a :: as) = out s a ++ emitted step out s' as := by
  rw [emitted, h]
  rfl

/-- **What the states of a run tell about its steps.** If a step is allowed wherever the property `P`
holds after it, and allowed steps keep an invariant that gives `P`, then `P` holds in all the states of
a run exactly when all its steps are allowed. -/
theorem along_iff_states {I P : σ → Prop} (hP : ∀ s, I s → P s)
    (hinv : ∀ s a s', I s → C s a → step s a = some s' → I s')
    (hC : ∀ s a s', I s → step s a = some s' → P s' → C s a) :
    ∀ {as : List α} {s s' : σ}, I s → exec step s as = some s' →
      ((∀ bs t, bs <+: as → exec step s bs = some t → P t) ↔ Along step C s as)
  | [], s, s', hI, _ => by
    refine iff_of_true (fun bs t hbs ht => ?_) trivial
    obtain rfl := List.prefix_nil.mp hbs
    obtain rfl : s = t := by simpa using ht
    exact hP s hI
  | a :: as, s, s', hI, h => by
    obtain ⟨s₁, h₁, h₂⟩ := Option.bind_eq_some_iff.mp h
    constructor
    · intro hall
      have hc : C s a := hC s a s₁ hI h₁
        (hall [a] s₁ ⟨as, rfl⟩ (by rw [exec_cons, h₁]; rfl))
      refine .of_step hc h₁ ((along_iff_states hP hinv hC (hinv s a s₁ hI hc h₁) h₂).mp ?_)
      intro bs t hbs ht
      exact hall (a :: bs) t ((List.prefix_cons_inj a).mpr hbs) (by rw [exec_cons, h₁]; exact ht)
    · rintro hA bs t ⟨cs, hcs⟩ ht
      rw [← hcs, along_append] at hA
      exact hP t (exec_invariant hinv hI hA.1 ht)

/-- **Progress.** If an allowed step is never stuck in a state of the invariant, no allowed run
is, and the invariant holds where it ends. -/
theorem exec_total {I : σ → Prop}
    (hstep : ∀ s a, I s → C s a → ∃ s', step s a = some s' ∧ I s') :
    ∀ {as : List α} {s : σ}, I s → Along step C s as → ∃ s', exec step s as = some s' ∧ I s'
  | [], s, hI, _ => ⟨s, rfl, hI⟩
  | a :: as, s, hI, hA => by
    obtain ⟨s₁, h₁, hI₁⟩ := hstep s a hI hA.1
    obtain ⟨s₂, h₂, hI₂⟩ := exec_total hstep hI₁ (hA.2 s₁ h₁)
    exact ⟨s₂, by rw [exec_cons, h₁]; exact h₂, hI₂⟩

/-- **Simulation.** `spec` answers every action; if each allowed step of the system goes through
and keeps the relation `R`, the system and `spec` stay related over every allowed run. -/
theorem exec_simulation {spec : τ → α → τ} {R : σ → τ → Prop}
    (hstep : ∀ s t a, R s t → C s a → ∃ s', step s a = some s' ∧ R s' (spec t a)) :
    ∀ {as : List α} {s : σ} {t : τ}, R s t → Along step C s as →
      ∃ s', exec step s as = some s' ∧ R s' (as.foldl spec t)
  | [], s, _, hR, _ => ⟨s, rfl, hR⟩
  | a :: as, s, t, hR, hA => by
    obtain ⟨s₁, h₁, hR₁⟩ := hstep s t a hR hA.1
    obtain ⟨s₂, h₂, hR₂⟩ := exec_simulation hstep hR₁ (hA.2 s₁ h₁)
    exact ⟨s₂, by rw [exec_cons, h₁]; exact h₂, hR₂⟩

end OperatingSystem.Lib.Run
