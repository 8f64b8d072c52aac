import Mathlib.Data.List.Basic
import Mathlib.Tactic.Common

/-! # Messages on a stream

A sender writes messages one after the other on a stream; a receiver takes them out with a decoder
that is called as many times as there are messages. A call depends on two things that neither side
chooses: how much of the stream it finds (`κ`) and what is in the memory that it reads into (`γ`).

If the decoder gives back a message and the rest of the stream whenever the first is good for the
message, then the calls give back all the messages (`decodeAll_encode`). If otherwise some memory
makes it give something else, that is the only case in which they do for every memory
(`decodeAll_encode_iff`). -/

namespace OperatingSystem.Lib.Frames

variable {α β κ γ : Type*}

/-- `n` calls of the decoder, with what each of them finds: the messages and the rest of the stream. -/
def decodeAll (dec : κ → γ → List β → Option (α × List β)) :
    ℕ → (ℕ → κ) → (ℕ → γ) → List β → Option (List α × List β)
  | 0, _, _, s => some ([], s)
  | n + 1, ks, gs, s => (dec (ks 0) (gs 0) s).bind fun r =>
    (decodeAll dec n (fun i => ks (i + 1)) (fun i => gs (i + 1)) r.2).map fun rs =>
      (r.1 :: rs.1, rs.2)

variable {dec : κ → γ → List β → Option (α × List β)} {enc : α → List β} {ok : α → κ → Prop}

theorem decodeAll_cons {n : ℕ} {ks : ℕ → κ} {gs : ℕ → γ} {s t : List β} {a : α} {as : List α}
    (h : decodeAll dec (n + 1) ks gs s = some (a :: as, t)) : ∃ s', dec (ks 0) (gs 0) s = some (a, s') ∧
      decodeAll dec n (fun i => ks (i + 1)) (fun i => gs (i + 1)) s' = some (as, t) := by
  unfold decodeAll at h
  obtain ⟨⟨a', s'⟩, h1, h2⟩ := Option.bind_eq_some_iff.mp h
  obtain ⟨⟨as', t'⟩, h3, h4⟩ := Option.map_eq_some_iff.mp h2
  obtain ⟨h5, rfl⟩ := Prod.mk.inj h4
  obtain ⟨rfl, rfl⟩ := List.cons.inj h5
  exact ⟨s', h1, h3⟩

theorem decodeAll_encode (hok : ∀ a k g s, ok a k → dec k g (enc a ++ s) = some (a, s))
    (gs : ℕ → γ) (t : List β) (as : List α) : ∀ ks : ℕ → κ,
      (∀ i a, as[i]? = some a → ok a (ks i)) →
      decodeAll dec as.length ks gs (as.flatMap enc ++ t) = some (as, t) := by
  induction as generalizing gs with
  | nil => intro ks _; rfl
  | cons a as ih =>
    intro ks h
    have h0 := h 0 a rfl
    have h1 := ih (fun i => gs (i + 1)) (fun i => ks (i + 1)) fun i a' ha => h (i + 1) a' ha
    rw [List.flatMap_cons, List.append_assoc, List.length_cons, decodeAll, hok _ _ _ _ h0,
      Option.bind_some, h1, Option.map_some]

variable (dec enc ok)

/-- **The messages arrive whatever is in memory** exactly when each call finds what is good for its
message. -/
theorem decodeAll_encode_iff [Nonempty γ]
    (hok : ∀ a k g s, ok a k → dec k g (enc a ++ s) = some (a, s))
    (hno : ∀ a k s, ¬ ok a k → ∃ g, ∀ t, dec k g (enc a ++ s) ≠ some (a, t))
    (t : List β) (as : List α) : ∀ ks : ℕ → κ,
      (∀ gs : ℕ → γ, decodeAll dec as.length ks gs (as.flatMap enc ++ t) = some (as, t)) ↔
        ∀ i a, as[i]? = some a → ok a (ks i) := by
  intro ks
  refine ⟨fun h => ?_, fun h gs => decodeAll_encode hok gs t as ks h⟩
  induction as generalizing ks with
  | nil => intro i a ha; simp at ha
  | cons a as ih =>
    have h0 : ok a (ks 0) := by
      by_contra hn
      obtain ⟨g, hg⟩ := hno a (ks 0) (as.flatMap enc ++ t) hn
      have h1 := h fun _ => g
      rw [List.flatMap_cons, List.append_assoc] at h1
      obtain ⟨s', h2, -⟩ := decodeAll_cons h1
      exact hg s' h2
    intro i a' ha
    cases i with
    | zero => exact Option.some.inj ha ▸ h0
    | succ i =>
      refine ih (fun i => ks (i + 1)) (fun gs => ?_) i a' ha
      obtain ⟨g⟩ := ‹Nonempty γ›
      have h1 := h fun i => i.casesOn g gs
      rw [List.flatMap_cons, List.append_assoc] at h1
      obtain ⟨s', h2, h3⟩ := decodeAll_cons h1
      have h4 := (hok a (ks 0) g (as.flatMap enc ++ t) h0).symm.trans h2
      rw [(Prod.mk.inj (Option.some.inj h4)).2]
      exact h3

end OperatingSystem.Lib.Frames
