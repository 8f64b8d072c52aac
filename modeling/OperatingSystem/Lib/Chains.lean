import Mathlib.Data.List.Nodup
import Mathlib.Logic.Function.Iterate

/-! # Linked chains

A chain is threaded through a table by a successor function `nx`. `Path nx b l e` says that
following `nx` from `b` visits exactly the list `l` and then arrives at `e`.

* `Path.congr`: a path only reads the successors of the nodes it visits.
* `Path.relink`: redirecting the last node redirects the end of the path.
* `Path.unique`: two paths from one node that never pass through each other's ends are equal.
* `Path.nodup`: a path that does not pass through its own end visits no node twice.
* `Path.agree`: two functions with one path agree on its nodes. -/

namespace OperatingSystem.Lib.Chains

variable {ι : Type*} {nx nx' : ι → ι} {b e e' x : ι} {l m : List ι}

/-- Following `nx` from `b` visits the list and then arrives at `e`. -/
def Path (nx : ι → ι) : ι → List ι → ι → Prop
  | b, [], e => b = e
  | b, x :: l, e => x = b ∧ Path nx (nx b) l e

@[simp] theorem path_nil : Path nx b [] e ↔ b = e := Iff.rfl

theorem path_cons : Path nx b (x :: l) e ↔ x = b ∧ Path nx (nx b) l e := Iff.rfl

theorem path_append : ∀ {l : List ι} {b : ι},
    Path nx b (l ++ m) e ↔ ∃ c, Path nx b l c ∧ Path nx c m e
  | [], b => by simp
  | y :: l, b => by
    simp only [List.cons_append, path_cons, path_append (l := l)]
    constructor
    · rintro ⟨rfl, c, h1, h2⟩; exact ⟨c, ⟨rfl, h1⟩, h2⟩
    · rintro ⟨c, ⟨rfl, h1⟩, h2⟩; exact ⟨rfl, c, h1, h2⟩

/-- A path that ends with the node `x`: it reaches `x`, and `x` leads to the end. -/
theorem path_concat : Path nx b (l ++ [x]) e ↔ Path nx b l x ∧ nx x = e := by
  rw [path_append]
  constructor
  · rintro ⟨c, h1, h2, h3⟩
    subst h2
    exact ⟨h1, h3⟩
  · rintro ⟨h1, h2⟩
    exact ⟨x, h1, rfl, h2⟩

/-- **Frame.** A path only reads the successors of the nodes it visits. -/
theorem Path.congr (h : Path nx b l e) (hx : ∀ y ∈ l, nx' y = nx y) : Path nx' b l e := by
  induction l generalizing b with
  | nil => exact h
  | cons y l ih =>
    obtain ⟨rfl, h⟩ := h
    refine ⟨rfl, ?_⟩
    rw [hx y (by simp)]
    exact ih h fun z hz => hx z (by simp [hz])

/-- Redirecting the last node of a path redirects its end. -/
theorem Path.relink (h : Path nx b (l ++ [x]) e) (hl : ∀ y ∈ l, nx' y = nx y) (hx : nx' x = e') :
    Path nx' b (l ++ [x]) e' :=
  path_concat.mpr ⟨(path_concat.mp h).1.congr hl, hx⟩

/-- The first node of a nonempty path is where it starts. -/
theorem Path.head (h : Path nx b (x :: l) e) : x = b := h.1

theorem Path.mem_of_ne (h : Path nx b l e) (hb : b ≠ e) : b ∈ l := by
  cases l with
  | nil => exact absurd h hb
  | cons y l => rw [h.1]; simp

/-- A node of a path leads to a node of the path, or to its end. -/
theorem Path.next_mem : ∀ {l : List ι} {b : ι}, Path nx b l e → x ∈ l → nx x ∈ l ∨ nx x = e
  | y :: l, b, h, hx => by
    obtain ⟨rfl, h⟩ := h
    rcases List.mem_cons.mp hx with rfl | hx
    · by_cases he : nx x = e
      · exact Or.inr he
      · exact Or.inl (List.mem_cons_of_mem _ (h.mem_of_ne he))
    · rcases h.next_mem hx with h' | h'
      · exact Or.inl (List.mem_cons_of_mem _ h')
      · exact Or.inr h'

/-- **The path says where its nodes lead.** Two functions that visit the same nodes on the way to
the same end agree on them. -/
theorem Path.agree : ∀ {l : List ι} {b b' : ι}, Path nx b l e → Path nx' b' l e →
    b = b' ∧ ∀ y ∈ l, nx y = nx' y
  | [], _, _, h, h' => ⟨Eq.trans h (Eq.symm h'), by simp⟩
  | y :: l, _, _, h, h' => by
    obtain ⟨rfl, h⟩ := h
    obtain ⟨rfl, h'⟩ := h'
    obtain ⟨hy, hl⟩ := h.agree h'
    refine ⟨rfl, fun z hz => ?_⟩
    rcases List.mem_cons.mp hz with rfl | hz
    · exact hy
    · exact hl z hz

/-- **Determinism.** Two paths from one node, neither of which passes through the end of the
other, are the same path. -/
theorem Path.unique : ∀ {l m : List ι} {b : ι}, Path nx b l e → Path nx b m e' →
    e ∉ m → e' ∉ l → l = m ∧ e = e'
  | [], [], b, h, h', _, _ => ⟨rfl, h.symm.trans h'⟩
  | [], z :: m, b, h, h', he, _ => by
    obtain rfl : z = b := h'.1
    exact absurd (by rw [← show z = e from h]; simp) he
  | y :: l, [], b, h, h', _, he' => by
    obtain rfl : y = b := h.1
    exact absurd (by rw [← show y = e' from h']; simp) he'
  | y :: l, z :: m, b, h, h', he, he' => by
    obtain ⟨rfl, h⟩ := h
    obtain ⟨rfl, h'⟩ := h'
    obtain ⟨rfl, hee⟩ := Path.unique h h' (fun hm => he (by simp [hm])) fun hl => he' (by simp [hl])
    exact ⟨rfl, hee⟩

/-- **Termination is acyclicity.** A path that does not pass through its own end visits no node
twice: from a repeated node on it would be two different paths to that end. -/
theorem Path.nodup : ∀ {l : List ι} {b : ι}, Path nx b l e → e ∉ l → l.Nodup
  | [], _, _, _ => List.nodup_nil
  | y :: l, b, h, he => by
    obtain ⟨rfl, h'⟩ := h
    refine List.nodup_cons.mpr ⟨fun hy => ?_, h'.nodup fun hl => he (by simp [hl])⟩
    obtain ⟨l₁, l₂, rfl⟩ := List.append_of_mem hy
    obtain ⟨c, -, h₂⟩ := path_append.mp h'
    obtain rfl : y = c := h₂.1
    have hyl : Path nx y (y :: (l₁ ++ y :: l₂)) e := ⟨rfl, h'⟩
    have heq := (hyl.unique h₂ (fun hm => he (by simp at hm ⊢; tauto)) fun hm => he hm).1
    have := congrArg List.length heq
    simp at this
    omega

end OperatingSystem.Lib.Chains
