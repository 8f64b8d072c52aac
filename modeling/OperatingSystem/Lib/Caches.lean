import Mathlib.Data.List.Basic
import Mathlib.Logic.Function.Basic
import Mathlib.Order.Lattice

/-! # Caches

A cache of `n` keys is the list of the keys that it has, the last one to go first. A key that is not there
comes in, for the last of the list if there is no room; a key that is there moves to the front (`lru`) or
stays where it is (`fifo`). The keys belong to owners, which may leave with all of theirs.

* `lru_inclusion`: by `lru`, a larger cache has at every moment what a smaller one has, and so never more
  faults (`lru_faults`). This is a property of `lru`: what a smaller cache has is the beginning of the
  list of the larger one.
* `Aged`: a cache may keep its keys in any order, with the time when each of them came in or was last
  used. `Aged.touch`, `Aged.evict` and `Aged.leave` are what the operations do to the times. -/

namespace OperatingSystem.Lib.Caches

inductive Policy where
  | fifo | lru
  deriving DecidableEq

/-- A key of an owner is used, or an owner leaves. -/
inductive Event (α β : Type*) where
  | access (a : α) (b : β)
  | leave (a : α)
  deriving DecidableEq

variable {α β κ τ : Type*}

section

variable [DecidableEq κ]

/-- A key of the cache is used. -/
def touch : Policy → List κ → κ → List κ
  | .fifo, c, _ => c
  | .lru, c, k => k :: c.filter (· ≠ k)

/-- A key is used, in a cache of `n` keys. -/
def access (pol : Policy) (n : ℕ) (c : List κ) (k : κ) : List κ :=
  if k ∈ c then touch pol c k else k :: c.take (n - 1)

end

section

variable [DecidableEq α] [DecidableEq β]

def step (pol : Policy) (n : ℕ) (c : List (α × β)) : Event α β → List (α × β)
  | .access a b => access pol n c (a, b)
  | .leave a => c.filter (·.1 ≠ a)

/-- What a cache of `n` keys has after the events. -/
def cache (pol : Policy) (n : ℕ) (es : List (Event α β)) : List (α × β) := es.foldl (step pol n) []

/-- The key used is not there. -/
def IsFault (c : List (α × β)) : Event α β → Prop
  | .access a b => (a, b) ∉ c
  | .leave _ => False

instance (c : List (α × β)) : DecidablePred (IsFault c)
  | .access a b => inferInstanceAs (Decidable ((a, b) ∉ c))
  | .leave _ => inferInstanceAs (Decidable False)

def faultsFrom (pol : Policy) (n : ℕ) : List (α × β) → List (Event α β) → ℕ
  | _, [] => 0
  | c, e :: es => (if IsFault c e then 1 else 0) + faultsFrom pol n (step pol n c e) es

def faults (pol : Policy) (n : ℕ) (es : List (Event α β)) : ℕ := faultsFrom pol n [] es

end

/-! ### The inclusion -/

section

variable [DecidableEq κ] {n m : ℕ} {c d : List κ} {k : κ}

/-- **One use keeps the smaller cache at the beginning of the larger one.** -/
theorem access_prefix (hcd : c <+: d) (hnm : n ≤ m) :
    access .lru n c k <+: access .lru m d k := by
  unfold access
  by_cases hc : k ∈ c
  · rw [if_pos hc, if_pos (hcd.subset hc)]
    exact List.cons_prefix_cons.mpr ⟨rfl, hcd.filter _⟩
  · rw [if_neg hc]
    have htake : c.take (n - 1) <+: c := List.take_prefix _ c
    by_cases hd : k ∈ d
    · have hself : c.filter (· ≠ k) = c :=
        List.filter_eq_self.mpr fun x hx => decide_eq_true fun he => hc (he ▸ hx)
      rw [if_pos hd]
      refine List.cons_prefix_cons.mpr ⟨rfl, htake.trans ?_⟩
      have hfilter := hcd.filter (· ≠ k)
      rwa [hself] at hfilter
    · rw [if_neg hd]
      refine List.cons_prefix_cons.mpr ⟨rfl, ?_⟩
      refine List.prefix_of_prefix_length_le (htake.trans hcd) (List.take_prefix _ d) ?_
      have := hcd.length_le
      simp only [List.length_take]
      omega

end

section

variable [DecidableEq α] [DecidableEq β] {n m : ℕ} {c d : List (α × β)}

theorem prefix_step (hcd : c <+: d) (hnm : n ≤ m) (e : Event α β) :
    step .lru n c e <+: step .lru m d e := by
  cases e with
  | access a b => exact access_prefix hcd hnm
  | leave a => exact hcd.filter _

theorem prefix_foldl (hnm : n ≤ m) : ∀ (es : List (Event α β)) {c d : List (α × β)}, c <+: d →
    es.foldl (step .lru n) c <+: es.foldl (step .lru m) d
  | [], _, _, hcd => hcd
  | e :: es, _, _, hcd => prefix_foldl hnm es (prefix_step hcd hnm e)

/-- **More room, more keys.** -/
theorem lru_inclusion (hnm : n ≤ m) (es : List (Event α β)) : cache .lru n es <+: cache .lru m es :=
  prefix_foldl hnm es (List.prefix_refl [])

theorem faultsFrom_le (hnm : n ≤ m) : ∀ (es : List (Event α β)) {c d : List (α × β)}, c <+: d →
    faultsFrom .lru m d es ≤ faultsFrom .lru n c es
  | [], _, _, _ => Nat.le_refl 0
  | e :: es, c, d, hcd => by
    have hes := faultsFrom_le hnm es (prefix_step hcd hnm e)
    have he : IsFault d e → IsFault c e := by
      cases e with
      | access a b => exact fun hd hc => hd (hcd.subset hc)
      | leave a => exact id
    unfold faultsFrom
    split_ifs with hd hc
    · omega
    · exact absurd (he hd) hc
    · omega
    · omega

/-- **More room, no more faults.** -/
theorem lru_faults (hnm : n ≤ m) (es : List (Event α β)) : faults .lru m es ≤ faults .lru n es :=
  faultsFrom_le hnm es (List.prefix_refl [])

/-- Not so by `fifo`. -/
example : faults .fifo 3 ([1, 2, 3, 4, 1, 2, 5, 1, 2, 3, 4, 5].map (Event.access ())) = 9 ∧
    faults .fifo 4 ([1, 2, 3, 4, 1, 2, 5, 1, 2, 3, 4, 5].map (Event.access ())) = 10 := by decide

end

/-! ### Times -/

section

variable [LinearOrder τ]

/-- **The cache as a table of times**: the keys with a time are those of the list, where the times go
down. -/
structure Aged (e : κ → Option τ) (c : List κ) : Prop where
  mem : ∀ k, k ∈ c ↔ (e k).isSome
  sorted : c.Pairwise fun a b => ∀ s ∈ e a, ∀ t ∈ e b, t < s

variable {e e' : κ → Option τ} {c : List κ} {k v : κ} {t : τ}

theorem Aged.congr (h : Aged e c) (he : ∀ k, e' k = e k) : Aged e' c := by
  rwa [funext he]

theorem aged_nil : Aged (fun _ => none : κ → Option τ) [] :=
  ⟨fun _ => by simp, List.Pairwise.nil⟩

/-- No key is in the list twice. -/
theorem Aged.nodup (h : Aged e c) : c.Nodup := by
  refine h.sorted.imp_of_mem fun {a b} ha _ hab he => ?_
  obtain ⟨s, hs⟩ := Option.isSome_iff_exists.mp ((h.mem a).mp ha)
  exact lt_irrefl s (hab s hs s (he ▸ hs))

/-- The keys that some predicate holds for stay. -/
theorem Aged.filter (h : Aged e c) (p : κ → Bool) :
    Aged (fun k => if p k then e k else none) (c.filter p) := by
  refine ⟨fun k => ?_, ?_⟩
  · rw [List.mem_filter, h.mem]
    by_cases hp : p k <;> simp [hp]
  · refine (h.sorted.filter p).imp_of_mem fun {a b} ha hb hab s hs t ht => ?_
    rw [if_pos (List.mem_filter.mp ha).2] at hs
    rw [if_pos (List.mem_filter.mp hb).2] at ht
    exact hab s hs t ht

variable [DecidableEq κ]

/-- **A key gets the last time of all.** -/
theorem Aged.touch (h : Aged e c) (ht : ∀ x s, x ≠ k → e x = some s → s < t) :
    Aged (Function.update e k (some t)) (k :: c.filter (· ≠ k)) := by
  have hf := h.filter (· ≠ k)
  refine ⟨fun x => ?_, List.pairwise_cons.mpr ⟨fun b hb s hs u hu => ?_, ?_⟩⟩
  · rw [List.mem_cons, hf.mem]
    by_cases hx : x = k
    · simp [hx]
    · simp [hx]
  · rw [Function.update_self] at hs
    obtain rfl := Option.some.inj hs
    have hbk : b ≠ k := of_decide_eq_true (List.mem_filter.mp hb).2
    rw [Function.update_of_ne hbk] at hu
    exact ht b u hbk hu
  · refine (h.sorted.filter _).imp_of_mem fun {a b} ha hb hab => ?_
    rwa [Function.update_of_ne (of_decide_eq_true (List.mem_filter.mp ha).2),
      Function.update_of_ne (of_decide_eq_true (List.mem_filter.mp hb).2)]

theorem Aged.insert (h : Aged e c) (hk : k ∉ c) (ht : ∀ x s, e x = some s → s < t) :
    Aged (Function.update e k (some t)) (k :: c) := by
  have hself : c.filter (· ≠ k) = c :=
    List.filter_eq_self.mpr fun x hx => decide_eq_true fun he => hk (he ▸ hx)
  have hins := h.touch (k := k) fun x s _ hs => ht x s hs
  rwa [hself] at hins

/-- **The key with the first time of all is the last of the list.** -/
theorem Aged.evict (h : Aged e c) (hv : (e v).isSome)
    (hmin : ∀ s ∈ e v, ∀ x, ∀ t ∈ e x, s ≤ t) : Aged (Function.update e v none) c.dropLast := by
  obtain ⟨s, hs⟩ := Option.isSome_iff_exists.mp hv
  have hmem := (h.mem v).mpr hv
  have hne : c ≠ [] := List.ne_nil_of_mem hmem
  have hc := List.dropLast_append_getLast hne
  have hsorted := h.sorted
  rw [← hc, List.pairwise_append] at hsorted
  have hlast : c.getLast hne = v := by
    by_contra hlast
    have hv' : v ∈ c.dropLast := by
      rw [← hc, List.mem_append, List.mem_singleton] at hmem
      exact hmem.resolve_right (Ne.symm hlast)
    obtain ⟨t, ht⟩ := Option.isSome_iff_exists.mp ((h.mem _).mp (List.getLast_mem hne))
    have hlt := hsorted.2.2 v hv' _ (List.mem_singleton_self _) s hs t ht
    exact absurd (hmin s hs _ t ht) (not_le.mpr hlt)
  have hnot : v ∉ c.dropLast := by
    intro hv'
    exact lt_irrefl s (hsorted.2.2 v hv' v (by rw [hlast]; simp) s hs s hs)
  refine ⟨fun x => ?_, hsorted.1.imp_of_mem fun {a b} ha hb hab => ?_⟩
  · by_cases hx : x = v
    · subst hx
      simp [hnot]
    · have hx' : x ∈ c ↔ x ∈ c.dropLast := by
        conv_lhs => rw [← hc, List.mem_append, hlast, List.mem_singleton, or_iff_left hx]
      rw [Function.update_of_ne hx, ← h.mem, hx']
  · have hav : a ≠ v := fun he => hnot (he ▸ ha)
    have hbv : b ≠ v := fun he => hnot (he ▸ hb)
    rwa [Function.update_of_ne hav, Function.update_of_ne hbv]

end

end OperatingSystem.Lib.Caches
