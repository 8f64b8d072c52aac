import Mathlib.Data.List.TakeWhile
import Mathlib.Data.Nat.Digits.Lemmas
import OperatingSystem.Lib.CInt

/-! # Decimal numbers in strings

`atoi` is the one of C: white space, a sign, and digits up to the first character that is none; a `long`
that is too large is the largest one, and an `int` is its low half. `escribir` writes a number, and
`atoi_escribir` reads it back. -/

namespace OperatingSystem.Lib.Decimal

open OperatingSystem.Lib.CInt

/-! ### Reading -/

def isspace (c : UInt8) : Bool := c = 32 || (9 ≤ c && c ≤ 13)

def isdigit (c : UInt8) : Bool := 48 ≤ c && c ≤ 57

/-- The number that the digits make. -/
def valor (ds : List UInt8) : ℕ := ds.foldl (fun n c => 10 * n + (c.toNat - 48)) 0

/-- The nearest `long`. -/
def saturar (x : ℤ) : ℤ := max (-9223372036854775808) (min x 9223372036854775807)

/-- `strtol`, in base 10 -/
def strtol (s : List UInt8) : ℤ :=
  let s := s.dropWhile isspace
  if s.head? = some 45 then saturar (-(valor (s.tail.takeWhile isdigit)))
  else if s.head? = some 43 then saturar (valor (s.tail.takeWhile isdigit))
  else saturar (valor (s.takeWhile isdigit))

def atoi (s : List UInt8) : ℤ := wrap32 (strtol s)

/-! ### Writing -/

def digito (d : ℕ) : UInt8 := UInt8.ofNat (48 + d)

def escribirNat (n : ℕ) : List UInt8 :=
  if n = 0 then [digito 0] else (Nat.digits 10 n).reverse.map digito

/-- `%d` -/
def escribir (x : ℤ) : List UInt8 :=
  if x < 0 then 45 :: escribirNat x.natAbs else escribirNat x.natAbs

theorem toNat_digito {d : ℕ} (hd : d < 10) : (digito d).toNat = 48 + d := by
  rw [digito, UInt8.toNat_ofNat']
  omega

theorem isdigit_iff {c : UInt8} : isdigit c = true ↔ 48 ≤ c.toNat ∧ c.toNat ≤ 57 := by
  simp [isdigit, UInt8.le_iff_toNat_le]

theorem mem_escribirNat {n : ℕ} {c : UInt8} (h : c ∈ escribirNat n) : isdigit c = true := by
  have key : ∀ {d : ℕ}, d < 10 → isdigit (digito d) = true := fun hd => by
    rw [isdigit_iff, toNat_digito hd]
    omega
  unfold escribirNat at h
  split_ifs at h
  · obtain rfl := List.mem_singleton.mp h
    exact key (by decide)
  · obtain ⟨d, hd, rfl⟩ := List.mem_map.mp h
    exact key (Nat.digits_lt_base (by decide) (List.mem_reverse.mp hd))

theorem escribirNat_ne_nil (n : ℕ) : escribirNat n ≠ [] := by
  unfold escribirNat
  split_ifs with h
  · exact List.cons_ne_nil _ _
  · rw [Ne, List.map_eq_nil_iff, List.reverse_eq_nil_iff, Nat.digits_eq_nil_iff_eq_zero]
    exact h

theorem valor_digits (ds : List ℕ) (h : ∀ d ∈ ds, d < 10) :
    valor (ds.reverse.map digito) = Nat.ofDigits 10 ds := by
  unfold valor
  rw [List.foldl_map, List.foldl_reverse]
  induction ds with
  | nil => rfl
  | cons d ds ih =>
    rw [List.foldr_cons, ih fun d hd => h d (List.mem_cons_of_mem _ hd),
      toNat_digito (h d List.mem_cons_self), Nat.add_sub_cancel_left, Nat.ofDigits_cons]
    exact Nat.add_comm _ _

theorem valor_escribirNat (n : ℕ) : valor (escribirNat n) = n := by
  unfold escribirNat
  split_ifs with h
  · rw [h]
    rfl
  · rw [valor_digits _ fun d hd => Nat.digits_lt_base (by decide) hd, Nat.ofDigits_digits]

/-- The characters of a number. -/
theorem mem_escribir {x : ℤ} {c : UInt8} (h : c ∈ escribir x) : c = 45 ∨ isdigit c = true := by
  unfold escribir at h
  split_ifs at h
  · rcases List.mem_cons.mp h with h | h
    · exact .inl h
    · exact .inr (mem_escribirNat h)
  · exact .inr (mem_escribirNat h)

theorem escribir_ne_nil (x : ℤ) : escribir x ≠ [] := by
  unfold escribir
  split_ifs
  · exact List.cons_ne_nil _ _
  · exact escribirNat_ne_nil _

/-! ### The round trip -/

theorem dropWhile_isspace {s : List UInt8} (h : ∀ c ∈ s, c = 45 ∨ isdigit c = true) :
    s.dropWhile isspace = s := by
  cases s with
  | nil => rfl
  | cons c s =>
    rw [List.dropWhile_cons_of_neg]
    rcases h c List.mem_cons_self with rfl | hc
    · decide
    · rw [isdigit_iff] at hc
      simp only [isspace, UInt8.le_iff_toNat_le, ← UInt8.toNat_inj, UInt8.reduceToNat,
        Bool.or_eq_true, Bool.and_eq_true, decide_eq_true_eq]
      omega

theorem takeWhile_isdigit (n : ℕ) : (escribirNat n).takeWhile isdigit = escribirNat n :=
  List.takeWhile_eq_self_iff.mpr fun _ h => mem_escribirNat h

theorem head?_escribirNat (n : ℕ) : (escribirNat n).head? ≠ some 45 ∧
    (escribirNat n).head? ≠ some 43 :=
  ⟨fun h => absurd (mem_escribirNat (List.mem_of_mem_head? h)) (by decide),
    fun h => absurd (mem_escribirNat (List.mem_of_mem_head? h)) (by decide)⟩

theorem saturar_of_fits {x : ℤ} (h : FitsInt x) : saturar x = x := by
  unfold FitsInt INT_MAX at h
  unfold saturar
  omega

/-- **What is written is read.** -/
theorem atoi_escribir {x : ℤ} (h : FitsInt x) : atoi (escribir x) = x := by
  have hstrtol : strtol (escribir x) = x := by
    unfold strtol
    simp only [dropWhile_isspace fun c hc => mem_escribir hc]
    unfold escribir
    split_ifs with hx h45 h43 h45 h43
    · rw [List.tail_cons, takeWhile_isdigit, valor_escribirNat]
      rw [show (-(x.natAbs : ℤ)) = x by omega, saturar_of_fits h]
    · exact absurd rfl h45
    · exact absurd rfl h45
    · exact absurd h45 (head?_escribirNat _).1
    · exact absurd h43 (head?_escribirNat _).2
    · rw [takeWhile_isdigit, valor_escribirNat, show ((x.natAbs : ℤ)) = x by omega,
        saturar_of_fits h]
  rw [atoi, hstrtol, wrap32_of_fits h]

end OperatingSystem.Lib.Decimal
