import Mathlib.Algebra.BigOperators.Group.List.Basic
import Mathlib.Algebra.Order.BigOperators.Group.List
import Mathlib.Data.List.Nodup
import Mathlib.Tactic.Ring

/-! # Dictionaries

A dictionary is a finite map together with the list of its keys, in the order in which they were
first put. Its two fields `nodup` and `mem_keys` keep them in step, so a key is listed exactly when
it has a value. `put` updates the value of a key it already has, as `dictionary_put` does.

`Dict.sum d f` adds `f` up over the values. What one `put` or `remove` does to it is `sum_put_of_none`,
`sum_put_of_some` and `sum_remove`; the sum of an indicator counts the keys it holds for
(`sum_indicator`). -/

namespace OperatingSystem.Lib.Dictionary

universe u v

/-- A finite map with the list of its keys. -/
@[ext] structure Dict (κ : Type u) (ν : Type v) [DecidableEq κ] where
  keys : List κ
  get : κ → Option ν
  nodup : keys.Nodup
  mem_keys : ∀ k, k ∈ keys ↔ (get k).isSome

namespace Dict

variable {κ : Type u} {ν : Type v} [DecidableEq κ]

/-- The dictionary without keys. -/
def empty : Dict κ ν := ⟨[], fun _ => none, List.nodup_nil, by simp⟩

/-- Insert a pair, or update the value of a key that is there. -/
def put (d : Dict κ ν) (k : κ) (v : ν) : Dict κ ν where
  keys := if k ∈ d.keys then d.keys else d.keys ++ [k]
  get k' := if k' = k then some v else d.get k'
  nodup := by
    split_ifs with h
    · exact d.nodup
    · exact List.nodup_append.mpr
        ⟨d.nodup, by simp, by simpa using fun x hx (he : x = k) => h (he ▸ hx)⟩
  mem_keys k' := by
    by_cases hk : k' = k
    · subst hk
      simp only [if_true, Option.isSome_some, iff_true]
      split_ifs with h <;> simp [h]
    · split_ifs with h <;> simp [hk, d.mem_keys]

/-- Remove a key with its value. -/
def remove (d : Dict κ ν) (k : κ) : Dict κ ν where
  keys := d.keys.filter (· ≠ k)
  get k' := if k' = k then none else d.get k'
  nodup := d.nodup.filter _
  mem_keys k' := by by_cases hk : k' = k <;> simp [hk, d.mem_keys]

/-- The same keys, with a function of the values. -/
def map {μ : Type*} (d : Dict κ ν) (f : ν → μ) : Dict κ μ where
  keys := d.keys
  get k := (d.get k).map f
  nodup := d.nodup
  mem_keys k := by rw [d.mem_keys, Option.isSome_map]

/-- The values, in the order of the keys. -/
def elements (d : Dict κ ν) : List ν := d.keys.filterMap d.get

@[simp] theorem get_empty (k : κ) : (empty : Dict κ ν).get k = none := rfl

theorem get_put (d : Dict κ ν) (k k' : κ) (v : ν) :
    (d.put k v).get k' = if k' = k then some v else d.get k' := rfl

@[simp] theorem get_put_self (d : Dict κ ν) (k : κ) (v : ν) : (d.put k v).get k = some v := by
  simp [get_put]

@[simp] theorem get_put_of_ne (d : Dict κ ν) {k k' : κ} (h : k' ≠ k) (v : ν) :
    (d.put k v).get k' = d.get k' := by simp [get_put, h]

/-- An entry that is there stays, or another one takes its place. -/
theorem isSome_get_put {d : Dict κ ν} {k' : κ} (h : (d.get k').isSome) (k : κ) (v : ν) :
    ((d.put k v).get k').isSome := by
  rw [get_put]
  split_ifs
  · rfl
  · exact h

/-- An entry after `put` is the one that was put, or it was there and is another one. -/
theorem get_put_eq_some {d : Dict κ ν} {k k' : κ} {v w : ν} :
    (d.put k v).get k' = some w ↔ (k' = k ∧ v = w) ∨ (k' ≠ k ∧ d.get k' = some w) := by
  by_cases h : k' = k
  · simp [h]
  · simp [h]

theorem get_remove (d : Dict κ ν) (k k' : κ) :
    (d.remove k).get k' = if k' = k then none else d.get k' := rfl

@[simp] theorem get_remove_self (d : Dict κ ν) (k : κ) : (d.remove k).get k = none := by
  simp [get_remove]

@[simp] theorem get_remove_of_ne (d : Dict κ ν) {k k' : κ} (h : k' ≠ k) :
    (d.remove k).get k' = d.get k' := by simp [get_remove, h]

@[simp] theorem put_put (d : Dict κ ν) (k : κ) (v w : ν) : (d.put k v).put k w = d.put k w := by
  ext1
  · have hk : k ∈ (d.put k v).keys := ((d.put k v).mem_keys k).mpr (by simp)
    exact if_pos hk
  · funext k'
    by_cases h : k' = k <;> simp [h]

/-- Putting the value that is there changes nothing. -/
theorem put_of_get {d : Dict κ ν} {k : κ} {v : ν} (h : d.get k = some v) : d.put k v = d := by
  ext1
  · exact if_pos ((d.mem_keys k).mpr (by simp [h]))
  · funext k'
    by_cases hk : k' = k
    · rw [hk, get_put_self, h]
    · rw [get_put_of_ne _ hk]

@[simp] theorem get_map {μ : Type*} (d : Dict κ ν) (f : ν → μ) (k : κ) :
    (d.map f).get k = (d.get k).map f := rfl

theorem map_put {μ : Type*} (d : Dict κ ν) (f : ν → μ) (k : κ) (v : ν) :
    (d.put k v).map f = (d.map f).put k (f v) := by
  refine Dict.ext rfl (funext fun k' => ?_)
  rw [get_map, get_put, get_put, apply_ite (Option.map f)]
  rfl

theorem map_remove {μ : Type*} (d : Dict κ ν) (f : ν → μ) (k : κ) :
    (d.remove k).map f = (d.map f).remove k := by
  refine Dict.ext rfl (funext fun k' => ?_)
  rw [get_map, get_remove, get_remove, apply_ite (Option.map f)]
  rfl

theorem mem_elements {d : Dict κ ν} {v : ν} : v ∈ d.elements ↔ ∃ k, d.get k = some v := by
  simp only [elements, List.mem_filterMap]
  constructor
  · rintro ⟨k, -, h⟩; exact ⟨k, h⟩
  · rintro ⟨k, h⟩; exact ⟨k, (d.mem_keys k).mpr (by simp [h]), h⟩

/-! ### Sums over the values -/

/-- The contribution of a key. -/
def term (d : Dict κ ν) (f : ν → ℤ) (k : κ) : ℤ := ((d.get k).map f).getD 0

/-- The sum of `f` over the values. -/
def sum (d : Dict κ ν) (f : ν → ℤ) : ℤ := (d.keys.map (d.term f)).sum

theorem term_of_some {d : Dict κ ν} {k : κ} {v : ν} (h : d.get k = some v) (f : ν → ℤ) :
    d.term f k = f v := by simp [term, h]

/-- Changing one summand. -/
theorem sum_map_change {l : List κ} {g g' : κ → ℤ} {k : κ} (hnd : l.Nodup) (hk : k ∈ l)
    (h : ∀ j ∈ l, j ≠ k → g' j = g j) : (l.map g').sum = (l.map g).sum - g k + g' k := by
  induction l with
  | nil => simp at hk
  | cons j l ih =>
    obtain ⟨hj, hnd⟩ := List.nodup_cons.mp hnd
    simp only [List.map_cons, List.sum_cons]
    by_cases hjk : j = k
    · subst hjk
      have hl : l.map g' = l.map g := List.map_congr_left fun i hi =>
        h i (by simp [hi]) (by rintro rfl; exact hj hi)
      rw [hl]
      ring
    · have hkl : k ∈ l := (List.mem_cons.mp hk).resolve_left (Ne.symm hjk)
      rw [ih hnd hkl fun i hi => h i (by simp [hi]), h j (by simp) hjk]
      ring

/-- Leaving one summand out. -/
theorem sum_map_filter_ne {l : List κ} (g : κ → ℤ) {k : κ} (hnd : l.Nodup) (hk : k ∈ l) :
    ((l.filter (· ≠ k)).map g).sum = (l.map g).sum - g k := by
  induction l with
  | nil => simp at hk
  | cons j l ih =>
    obtain ⟨hj, hnd⟩ := List.nodup_cons.mp hnd
    by_cases hjk : j = k
    · subst hjk
      have hl : l.filter (· ≠ j) = l := List.filter_eq_self.mpr fun i hi => by
        simpa using fun he : i = j => hj (he ▸ hi)
      rw [List.filter_cons_of_neg (by simp), hl, List.map_cons, List.sum_cons]
      ring
    · have hkl : k ∈ l := (List.mem_cons.mp hk).resolve_left (Ne.symm hjk)
      rw [List.filter_cons_of_pos (by simpa using hjk), List.map_cons, List.sum_cons, ih hnd hkl,
        List.map_cons, List.sum_cons]
      ring

theorem mem_keys_of_get {d : Dict κ ν} {k : κ} {v : ν} (h : d.get k = some v) : k ∈ d.keys :=
  (d.mem_keys k).mpr (by simp [h])

theorem sum_put_of_none {d : Dict κ ν} {k : κ} (h : d.get k = none) (v : ν) (f : ν → ℤ) :
    (d.put k v).sum f = d.sum f + f v := by
  have hk : k ∉ d.keys := fun hk => by simpa [h] using (d.mem_keys k).mp hk
  have hl : d.keys.map ((d.put k v).term f) = d.keys.map (d.term f) :=
    List.map_congr_left fun j hj => by
      have hjk : j ≠ k := by rintro rfl; exact hk hj
      simp [term, hjk]
  have hkeys : (d.put k v).keys = d.keys ++ [k] := if_neg hk
  rw [sum, hkeys, List.map_append, hl, List.sum_append, List.map_singleton, List.sum_singleton,
    term_of_some (get_put_self d k v), sum]

theorem sum_put_of_some {d : Dict κ ν} {k : κ} {w : ν} (h : d.get k = some w) (v : ν)
    (f : ν → ℤ) : (d.put k v).sum f = d.sum f - f w + f v := by
  have hk := mem_keys_of_get h
  have hkeys : (d.put k v).keys = d.keys := if_pos hk
  have hterm : ∀ j ∈ d.keys, j ≠ k → (d.put k v).term f j = d.term f j := fun j _ hj => by
    simp [term, hj]
  rw [sum, hkeys, sum_map_change d.nodup hk hterm, term_of_some h,
    term_of_some (get_put_self d k v), sum]

theorem sum_remove {d : Dict κ ν} {k : κ} {w : ν} (h : d.get k = some w) (f : ν → ℤ) :
    (d.remove k).sum f = d.sum f - f w := by
  have hl : (d.remove k).keys.map ((d.remove k).term f) = (d.remove k).keys.map (d.term f) :=
    List.map_congr_left fun j hj => by
      have hjk : j ≠ k := by simpa using (List.mem_filter.mp hj).2
      simp [term, hjk]
  rw [sum, hl, remove, sum_map_filter_ne _ d.nodup (mem_keys_of_get h), term_of_some h, sum]

theorem sum_nonneg {d : Dict κ ν} {f : ν → ℤ} (hf : ∀ v, 0 ≤ f v) : 0 ≤ d.sum f := by
  refine List.sum_nonneg fun x hx => ?_
  obtain ⟨k, -, rfl⟩ := List.mem_map.mp hx
  unfold term
  cases d.get k with
  | none => rfl
  | some v => exact hf v

theorem sum_eq_zero {d : Dict κ ν} {f : ν → ℤ} (h : ∀ k v, d.get k = some v → f v = 0) :
    d.sum f = 0 := by
  refine List.sum_eq_zero fun x hx => ?_
  obtain ⟨k, -, rfl⟩ := List.mem_map.mp hx
  unfold term
  cases hk : d.get k with
  | none => rfl
  | some v => exact h k v hk

/-- A sum above zero has a summand above zero. -/
theorem exists_of_sum_pos {d : Dict κ ν} {f : ν → ℤ} (h : 0 < d.sum f) :
    ∃ k v, d.get k = some v ∧ 0 < f v := by
  have hlt : (d.keys.map fun _ => (0 : ℤ)).sum < (d.keys.map (d.term f)).sum := by simpa [sum] using h
  obtain ⟨k, -, hk⟩ := List.exists_lt_of_sum_lt _ _ hlt
  unfold term at hk
  cases hv : d.get k with
  | none => simp [hv] at hk
  | some v => exact ⟨k, v, hv, by simpa [hv] using hk⟩

/-- One summand is at most the sum. -/
theorem le_sum {d : Dict κ ν} {f : ν → ℤ} (hf : ∀ v, 0 ≤ f v) {k : κ} {v : ν}
    (h : d.get k = some v) : f v ≤ d.sum f := by
  have := sum_remove h f
  have := (d.remove k).sum_nonneg hf
  omega

/-- The sum of an indicator is the number of keys it holds for. -/
theorem sum_indicator {d : Dict κ ν} {P : ν → Prop} [DecidablePred P] {l : List κ} (hl : l.Nodup)
    (h : ∀ k, k ∈ l ↔ ∃ v, d.get k = some v ∧ P v) :
    d.sum (fun v => if P v then 1 else 0) = l.length := by
  induction l generalizing d with
  | nil => exact sum_eq_zero fun k v hk => if_neg fun hv => by simpa using (h k).mpr ⟨v, hk, hv⟩
  | cons j l ih =>
    obtain ⟨hj, hnd⟩ := List.nodup_cons.mp hl
    obtain ⟨v, hv, hP⟩ := (h j).mp (by simp)
    have hrest : ∀ k, k ∈ l ↔ ∃ v, (d.remove j).get k = some v ∧ P v := fun k => by
      by_cases hkj : k = j
      · subst hkj
        simp [hj]
      · rw [get_remove_of_ne _ hkj, ← h k]
        simp [hkj]
    have hsum := sum_remove hv fun v => if P v then (1 : ℤ) else 0
    rw [ih hnd hrest, if_pos hP] at hsum
    rw [List.length_cons]
    push_cast
    omega

end Dict

end OperatingSystem.Lib.Dictionary
