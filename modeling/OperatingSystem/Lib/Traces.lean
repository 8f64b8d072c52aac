import OperatingSystem.Lib.Run

/-! # Runs with answers

A server `step : σ → α → Option (σ × ρ)` answers each action; `serve step s as` is the state after the
actions of `as` and the answers to them. What the answers should be is said by a relation: `spec t a r t'`
if the action `a` may be answered with `r` in the state `t`, and lead to `t'`. `Trace spec` are its runs.

* `serve_trace`: if every allowed step of the server is a step of the specification, then every allowed
  run is served, and there is a trace with the same actions and the same answers.
* `Trace.invariant`: what the steps of a trace preserve holds at its end.
* `trace_append`, `trace_concat`: a trace can be cut anywhere. -/

namespace OperatingSystem.Lib.Traces

open OperatingSystem.Lib.Run

variable {σ τ α ρ : Type*}

/-- Serve the actions in order, and collect the answers. -/
def serve (step : σ → α → Option (σ × ρ)) : σ → List α → Option (σ × List ρ)
  | s, [] => some (s, [])
  | s, a :: as => do
    let (s, r) ← step s a
    let (s, rs) ← serve step s as
    return (s, r :: rs)

/-- The state after an action. -/
def next (step : σ → α → Option (σ × ρ)) (s : σ) (a : α) : Option σ := (step s a).map Prod.fst

/-- **The runs of a specification**, with their answers. -/
inductive Trace (spec : τ → α → ρ → τ → Prop) : τ → List α → List ρ → τ → Prop
  | nil (t : τ) : Trace spec t [] [] t
  | cons {t u v : τ} {a : α} {r : ρ} {as : List α} {rs : List ρ} (h : spec t a r u)
      (h' : Trace spec u as rs v) : Trace spec t (a :: as) (r :: rs) v

variable {step : σ → α → Option (σ × ρ)} {spec : τ → α → ρ → τ → Prop} {C : σ → α → Prop}
  {s s' : σ} {t u v : τ} {a : α} {r : ρ} {as bs : List α} {rs : List ρ}

theorem serve_cons (h : step s a = some (s', r)) :
    serve step s (a :: as) = (serve step s' as).map fun x => (x.1, r :: x.2) := by
  rw [serve, h]
  simp only [Option.bind_eq_bind, Option.bind_some]
  cases serve step s' as <;> rfl

theorem next_of_step (h : step s a = some (s', r)) : next step s a = some s' := by
  rw [next, h]
  rfl

/-- **Simulation.** An allowed run is served as the specification says. -/
theorem serve_trace {R : σ → τ → Prop} (hstep : ∀ s t a, R s t → C s a →
      ∃ s' r t', step s a = some (s', r) ∧ spec t a r t' ∧ R s' t') :
    ∀ {as : List α} {s : σ} {t : τ}, R s t → Along (next step) C s as →
      ∃ s' rs t', serve step s as = some (s', rs) ∧ Trace spec t as rs t' ∧ R s' t'
  | [], s, t, hR, _ => ⟨s, [], t, rfl, .nil t, hR⟩
  | a :: as, s, t, hR, ⟨hC, hA⟩ => by
    obtain ⟨s₁, r, t₁, hs, ht, hR₁⟩ := hstep s t a hR hC
    obtain ⟨s₂, rs, t₂, hs₂, ht₂, hR₂⟩ := serve_trace hstep hR₁ (hA s₁ (next_of_step hs))
    refine ⟨s₂, r :: rs, t₂, ?_, .cons ht ht₂, hR₂⟩
    rw [serve_cons hs, hs₂]
    rfl

theorem trace_cons_iff : Trace spec t (a :: as) rs v ↔
    ∃ r rs' u, rs = r :: rs' ∧ spec t a r u ∧ Trace spec u as rs' v := by
  constructor
  · intro h
    cases h with
    | cons h h' => exact ⟨_, _, _, rfl, h, h'⟩
  · rintro ⟨r, rs', u, rfl, h, h'⟩
    exact .cons h h'

theorem trace_nil_iff : Trace spec t ([] : List α) rs v ↔ rs = [] ∧ t = v := by
  constructor
  · intro h
    cases h
    exact ⟨rfl, rfl⟩
  · rintro ⟨rfl, rfl⟩
    exact .nil t

/-- Every action has one answer. -/
theorem Trace.length_eq (h : Trace spec t as rs v) : rs.length = as.length := by
  induction h with
  | nil => rfl
  | cons _ _ ih => rw [List.length_cons, List.length_cons, ih]

/-- A trace of two runs is a trace of each. -/
theorem trace_append : Trace spec t (as ++ bs) rs v ↔
    ∃ rs₁ rs₂ u, rs = rs₁ ++ rs₂ ∧ Trace spec t as rs₁ u ∧ Trace spec u bs rs₂ v := by
  induction as generalizing t rs with
  | nil =>
    constructor
    · exact fun h => ⟨[], rs, t, rfl, .nil t, h⟩
    · rintro ⟨rs₁, rs₂, u, rfl, h, h'⟩
      obtain ⟨rfl, rfl⟩ := trace_nil_iff.mp h
      exact h'
  | cons a as ih =>
    rw [List.cons_append, trace_cons_iff]
    constructor
    · rintro ⟨r, rs', u, rfl, h, h'⟩
      obtain ⟨rs₁, rs₂, w, rfl, h₁, h₂⟩ := ih.mp h'
      exact ⟨r :: rs₁, rs₂, w, rfl, .cons h h₁, h₂⟩
    · rintro ⟨rs₁, rs₂, w, rfl, h₁, h₂⟩
      obtain ⟨r, rs', u, rfl, h, h'⟩ := trace_cons_iff.mp h₁
      exact ⟨r, rs' ++ rs₂, u, rfl, h, ih.mpr ⟨rs', rs₂, w, rfl, h', h₂⟩⟩

/-- The last step of a trace. -/
theorem trace_concat : Trace spec t (as ++ [a]) rs v ↔
    ∃ rs' r u, rs = rs' ++ [r] ∧ Trace spec t as rs' u ∧ spec u a r v := by
  rw [trace_append]
  constructor
  · rintro ⟨rs₁, rs₂, u, rfl, h₁, h₂⟩
    obtain ⟨r, rs', w, rfl, h, h'⟩ := trace_cons_iff.mp h₂
    obtain ⟨rfl, rfl⟩ := trace_nil_iff.mp h'
    exact ⟨rs₁, r, u, rfl, h₁, h⟩
  · rintro ⟨rs', r, u, rfl, h₁, h⟩
    exact ⟨rs', [r], u, rfl, h₁, .cons h (.nil v)⟩

/-- **Invariants.** What the steps for some of the actions preserve, a trace of these preserves. -/
theorem Trace.invariant {I : τ → Prop} {D : α → Prop}
    (hstep : ∀ t a r t', I t → D a → spec t a r t' → I t') (h : Trace spec t as rs v)
    (hD : ∀ a ∈ as, D a) (ht : I t) : I v := by
  induction h with
  | nil t => exact ht
  | cons h _ ih =>
    exact ih (fun a ha => hD a (List.mem_cons_of_mem _ ha)) (hstep _ _ _ _ ht (hD _ List.mem_cons_self) h)

end OperatingSystem.Lib.Traces
