import Mathlib.Data.List.Basic
import Mathlib.Data.List.Nodup
import Mathlib.Data.List.Range
import Mathlib.Logic.Function.Basic

/-! # Lists as arrays

Facts about lists read by index: how often a value occurs in an array, and lists one of which begins
with the other; and loops over a list that note something on the way (`foldlM_spec`). -/

namespace OperatingSystem.Lib.Lists

universe u

variable {α : Type*} {l l' : List α}

/-- The indices that hold a value are as many as its occurrences. -/
theorem countP_range_getElem? [DecidableEq α] (v : α) (l : List α) :
    (List.range l.length).countP (fun i => l[i]? = some v) = l.count v := by
  induction l with
  | nil => rfl
  | cons w l ih =>
    rw [List.length_cons, List.range_succ_eq_map, List.countP_cons, List.countP_map,
      List.count_cons]
    simp only [Function.comp_def, Nat.succ_eq_add_one, List.getElem?_cons_succ, ih]
    simp

/-- Lists one of which begins with the other agree where both have an entry. -/
theorem get_of_begins (h : l' <+: l ∨ l <+: l') {k : ℕ} {x : α} (hk : k < l.length)
    (hx : l'[k]? = some x) : l[k]? = some x := by
  rcases h with h | h
  · obtain ⟨m, rfl⟩ := h
    rwa [List.getElem?_append_left (List.getElem?_eq_some_iff.mp hx).1]
  · obtain ⟨m, rfl⟩ := h
    rwa [List.getElem?_append_left hk] at hx

theorem take_min_of_begins (h : l' <+: l ∨ l <+: l') :
    l'.take (min l.length l'.length) = l.take (min l.length l'.length) := by
  rcases h with ⟨m, rfl⟩ | ⟨m, rfl⟩ <;> simp

/-- Erasing the first entry that satisfies a test erases what the search for it finds. -/
theorem eraseP_of_find? [DecidableEq α] {p : α → Bool} {x : α} (h : l.find? p = some x) :
    l.eraseP p = l.erase x := by
  induction l with
  | nil => simp at h
  | cons y l ih =>
    by_cases hy : p y
    · obtain rfl : y = x := by simpa [List.find?_cons, hy] using h
      simp [hy]
    · have hl : l.find? p = some x := by simpa [List.find?_cons, hy] using h
      have hyx : y ≠ x := by
        rintro rfl
        exact hy (List.find?_some hl)
      rw [List.eraseP_cons_of_neg hy, List.erase_cons_tail (by simpa using hyx), ih hl]

/-- **A loop that keeps a state** computes what the loop without it does, if each of its turns does under
an invariant of both. -/
theorem foldlM_spec {β : Type*} {γ σ : Type u} {f : γ → β → StateM σ γ} {g : γ → β → γ}
    {I : γ × σ → Prop} {l : List β}
    (h : ∀ x ∈ l, ∀ r, I r → (f r.1 x r.2).1 = g r.1 x ∧ I (f r.1 x r.2)) : ∀ r, I r →
      ((l.foldlM f r.1 : StateM σ γ) r.2).1 = l.foldl g r.1 ∧
        I ((l.foldlM f r.1 : StateM σ γ) r.2) := by
  induction l with
  | nil => exact fun r hr => ⟨rfl, hr⟩
  | cons x l ih =>
    intro r hr
    obtain ⟨h1, h2⟩ := h x (by simp) r hr
    obtain ⟨h3, h4⟩ := ih (fun y hy => h y (List.mem_cons_of_mem _ hy)) (f r.1 x r.2) h2
    rw [List.foldlM_cons, List.foldl_cons, ← h1]
    exact ⟨h3, h4⟩

/-- A function changed at one entry of a list without repetitions changes that entry of its image. -/
theorem map_update {α β : Type*} [DecidableEq α] {l : List α} {k : ℕ} {a : α} (hnd : l.Nodup)
    (hk : l[k]? = some a) (f : α → β) (b : β) :
    l.map (Function.update f a b) = (l.map f).set k b := by
  obtain ⟨hlt, hget⟩ := List.getElem?_eq_some_iff.mp hk
  refine List.ext_getElem (by simp) fun i hi _ => ?_
  have hi' : i < l.length := by simpa using hi
  rw [List.getElem_map, List.getElem_set, List.getElem_map]
  by_cases hik : k = i
  · subst hik
    rw [if_pos rfl, hget, Function.update_self]
  · rw [if_neg hik, Function.update_of_ne]
    exact fun heq => hik (hnd.getElem_inj_iff.mp (hget.trans heq.symm))

end OperatingSystem.Lib.Lists
