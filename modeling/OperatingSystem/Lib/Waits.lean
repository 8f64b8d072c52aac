import Mathlib.Data.Set.Finite.Basic
import Mathlib.Logic.Relation
import Mathlib.Order.Preorder.Finite
import Mathlib.Order.WithBot

/-! # Processes that wait for each other

Who holds which resources and who waits for which one, at one moment (`WaitGraph`). A process waits for
another one (`WaitsFor`) if that one holds what it waits for; a resource may have any number of holders.

* `Ordered.not_circular`: where everyone waits for a resource that ranks above all it holds, no circle of
  processes wait for each other.
* `Ordered.exists_free`: then whoever waits does so, in the end, for a process that waits for nothing, as
  long as every resource that somebody waits for has a holder.
* `Stuck D`: the processes of `D` all wait for resources that only they hold. A circle lies in such a set
  if resources have one holder (`stuck_of_circular`). -/

namespace OperatingSystem.Lib.Waits

variable {π ρ α : Type*}

/-- Who holds what, and what each one waits for. -/
structure WaitGraph (π ρ : Type*) where
  holds : π → ρ → Prop
  waits : π → Option ρ

namespace WaitGraph

/-- `q` holds what `p` waits for. -/
def WaitsFor (g : WaitGraph π ρ) (p q : π) : Prop := ∃ r, g.waits p = some r ∧ g.holds q r

/-- **A circular wait.** -/
def Circular (g : WaitGraph π ρ) (p : π) : Prop := Relation.TransGen g.WaitsFor p p

/-- What a process waits for ranks above all it holds. -/
def Ordered [LT α] (rank : ρ → α) (g : WaitGraph π ρ) : Prop :=
  ∀ p r t, g.waits p = some r → g.holds p t → rank t < rank r

/-- Each of these processes waits for a resource that only they hold. -/
def Stuck (g : WaitGraph π ρ) (D : Set π) : Prop :=
  ∀ p ∈ D, ∃ r, g.waits p = some r ∧ (∃ q, g.holds q r) ∧ ∀ q, g.holds q r → q ∈ D

variable {g : WaitGraph π ρ} {p q : π} {r t : ρ}

section

variable [Preorder α] {rank : ρ → α}

/-- Along a chain of waits the ranks go up. -/
theorem Ordered.lt_of_chain (h : Ordered rank g) (hpq : Relation.TransGen g.WaitsFor p q)
    (hp : g.waits p = some r) (hq : g.waits q = some t) : rank r < rank t := by
  induction hpq using Relation.TransGen.head_induction_on generalizing r with
  | single hpq =>
    obtain ⟨r', hr', hholds⟩ := hpq
    obtain rfl := Option.some.inj (hp.symm.trans hr')
    exact h _ t r hq hholds
  | @head p p' hpp' hp'q ih =>
    obtain ⟨r', hr', hholds⟩ := hpp'
    obtain rfl := Option.some.inj (hp.symm.trans hr')
    obtain ⟨-, ⟨r'', hr'', -⟩, -⟩ := Relation.TransGen.head'_iff.mp hp'q
    exact (h p' r'' r hr'' hholds).trans (ih hr'')

/-- **Waits in order make no circle.** -/
theorem Ordered.not_circular (h : Ordered rank g) (p : π) : ¬ g.Circular p := by
  intro hp
  obtain ⟨-, ⟨r, hr, -⟩, -⟩ := Relation.TransGen.head'_iff.mp hp
  exact lt_irrefl _ (h.lt_of_chain hp hr hr)

/-- Among finitely many that wait there is one for which nobody higher waits. -/
theorem exists_highest (rank : ρ → α) {S : Set π} (hfin : {p ∈ S | (g.waits p).isSome}.Finite)
    (hp : p ∈ S) (hr : g.waits p = some r) : ∃ q ∈ S, ∃ t, g.waits q = some t ∧
      ∀ q' ∈ S, ∀ t', g.waits q' = some t' → ¬ rank t < rank t' := by
  let height (q : π) : WithBot α := (g.waits q).elim ⊥ fun r => rank r
  obtain ⟨q, ⟨hq, hw⟩, hmax⟩ := hfin.exists_maximalFor height _ ⟨p, hp, by rw [hr]; rfl⟩
  obtain ⟨t, ht⟩ := Option.isSome_iff_exists.mp hw
  refine ⟨q, hq, t, ht, fun q' hq' t' ht' hlt => ?_⟩
  have hup : height q < height q' := by
    simp only [height, ht, ht', Option.elim_some, WithBot.coe_lt_coe, hlt]
  exact hup.not_ge (hmax ⟨hq', by rw [ht']; rfl⟩ hup.le)

/-- **Somebody can go on.** Who waits does so, in the end, for a process that waits for nothing. -/
theorem Ordered.exists_free (h : Ordered rank g) (hfin : {p | (g.waits p).isSome}.Finite)
    (hheld : ∀ p r, g.waits p = some r → ∃ q, g.holds q r) (hp : g.waits p = some r) :
    ∃ q, Relation.TransGen g.WaitsFor p q ∧ g.waits q = none := by
  obtain ⟨q, hpq, t, ht, hmax⟩ := exists_highest rank
    (S := {q | Relation.ReflTransGen g.WaitsFor p q}) (hfin.subset fun q hq => hq.2) .refl hp
  obtain ⟨q', hq'⟩ := hheld q t ht
  have hpq' : Relation.TransGen g.WaitsFor p q' := .tail' hpq ⟨t, ht, hq'⟩
  refine ⟨q', hpq', ?_⟩
  cases hw : g.waits q' with
  | none => rfl
  | some t' => exact absurd (h q' t' t hw hq') (hmax q' hpq'.to_reflTransGen t' hw)

end

/-- **A circle is stuck** if each resource has one holder. -/
theorem stuck_of_circular (hone : ∀ r q q', g.holds q r → g.holds q' r → q = q')
    (hp : g.Circular p) :
    g.Stuck {q | Relation.TransGen g.WaitsFor p q ∧ Relation.TransGen g.WaitsFor q p} := by
  rintro q ⟨hpq, hqp⟩
  obtain ⟨q', ⟨r, hr, hq'⟩, hq'p⟩ := Relation.TransGen.head'_iff.mp hqp
  refine ⟨r, hr, ⟨q', hq'⟩, fun q'' hq'' => ?_⟩
  obtain rfl := hone r q' q'' hq' hq''
  refine ⟨hpq.tail ⟨r, hr, hq'⟩, ?_⟩
  rcases hq'p.cases_head with rfl | ⟨x, hx, hxp⟩
  · exact hp
  · exact .head' hx hxp

end WaitGraph

end OperatingSystem.Lib.Waits
