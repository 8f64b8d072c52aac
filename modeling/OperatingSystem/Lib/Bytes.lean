import Mathlib.Algebra.Group.Nat.Defs
import Mathlib.Data.List.GetD
import Mathlib.Tactic.Common

/-! # Words in a memory of bytes

A word of 32 bits is stored in four bytes, the lowest first. `leer` and `escribir` copy one word out of
and into a memory; `leerPalabras` and `escribirPalabras` do so with consecutive words.

What is read at `a` depends on the bytes `a`, …, `a + 3` only (`leer_congr`), and a write changes only
those (`escribir_byte`); copying words out of one memory into another copies their bytes
(`escribirPalabras_leerPalabras`). `copiar` puts any bytes in a memory and `leerBytes` takes them out
(`leerBytes_copiar`); the bytes of a word give the word back (`leer_copiar_bytes`). -/

namespace OperatingSystem.Lib.Bytes

/-- The bytes by their addresses. -/
abbrev Mem := ℕ → UInt8

/-- The `i`-th byte of a word. -/
def byte (v : UInt32) (i : ℕ) : UInt8 := UInt8.ofNat (v.toNat / 256 ^ i)

/-- The word at an address. -/
def leer (m : Mem) (a : ℕ) : UInt32 :=
  UInt32.ofNat ((m a).toNat + 256 * (m (a + 1)).toNat + 65536 * (m (a + 2)).toNat +
    16777216 * (m (a + 3)).toNat)

/-- Store a word. -/
def escribir (m : Mem) (a : ℕ) (v : UInt32) : Mem := fun b =>
  if a ≤ b ∧ b < a + 4 then byte v (b - a) else m b

/-- `n` consecutive words. -/
def leerPalabras (m : Mem) (a n : ℕ) : List UInt32 := (List.range n).map fun i => leer m (a + 4 * i)

/-- Store consecutive words. -/
def escribirPalabras (m : Mem) (a : ℕ) : List UInt32 → Mem
  | [] => m
  | v :: vs => escribirPalabras (escribir m a v) (a + 4) vs

variable {m m' : Mem} {a a' b : ℕ} {v : UInt32}

theorem toNat_leer (m : Mem) (a : ℕ) : (leer m a).toNat =
    (m a).toNat + 256 * (m (a + 1)).toNat + 65536 * (m (a + 2)).toNat +
      16777216 * (m (a + 3)).toNat := by
  have h0 := (m a).toNat_lt
  have h1 := (m (a + 1)).toNat_lt
  have h2 := (m (a + 2)).toNat_lt
  have h3 := (m (a + 3)).toNat_lt
  refine UInt32.toNat_ofNat_of_lt' ?_
  rw [UInt32.size]
  omega

theorem leer_congr (h : ∀ i < 4, m (a + i) = m' (a' + i)) : leer m a = leer m' a' := by
  have h0 : m a = m' a' := h 0 (by omega)
  rw [leer, leer, h0, h 1 (by omega), h 2 (by omega), h 3 (by omega)]

theorem escribir_byte {i : ℕ} (hi : i < 4) : escribir m a v (a + i) = byte v i := by
  rw [escribir, if_pos ⟨by omega, by omega⟩, Nat.add_sub_cancel_left]

theorem escribir_of_lt (h : b < a) : escribir m a v b = m b := if_neg (by omega)

theorem escribir_of_le (h : a + 4 ≤ b) : escribir m a v b = m b := if_neg (by omega)

/-- What was stored is read back. -/
@[simp] theorem leer_escribir (m : Mem) (a : ℕ) (v : UInt32) : leer (escribir m a v) a = v := by
  apply UInt32.toNat_inj.mp
  have hv := v.toNat_lt
  have h0 : escribir m a v a = byte v 0 := escribir_byte (i := 0) (by omega)
  rw [toNat_leer, h0, escribir_byte (by omega), escribir_byte (by omega), escribir_byte (by omega)]
  simp only [byte, UInt8.toNat_ofNat']
  omega

/-- A word that shares no byte with the one stored stays. -/
theorem leer_escribir_of_disjoint (h : b + 4 ≤ a ∨ a + 4 ≤ b) :
    leer (escribir m a v) b = leer m b :=
  leer_congr fun i hi => by
    rcases h with h | h
    · exact escribir_of_lt (by omega)
    · exact escribir_of_le (by omega)

theorem byte_leer (m : Mem) (a : ℕ) {i : ℕ} (hi : i < 4) : byte (leer m a) i = m (a + i) := by
  have h0 := (m a).toNat_lt
  have h1 := (m (a + 1)).toNat_lt
  have h2 := (m (a + 2)).toNat_lt
  have h3 := (m (a + 3)).toNat_lt
  apply UInt8.toNat_inj.mp
  rw [byte, UInt8.toNat_ofNat', toNat_leer]
  obtain rfl | rfl | rfl | rfl : i = 0 ∨ i = 1 ∨ i = 2 ∨ i = 3 := by omega
  · change _ = (m a).toNat
    rw [Nat.pow_zero, Nat.div_one]
    omega
  all_goals omega

@[simp] theorem length_leerPalabras (m : Mem) (a n : ℕ) : (leerPalabras m a n).length = n := by
  simp [leerPalabras]

theorem leerPalabras_zero (m : Mem) (a : ℕ) : leerPalabras m a 0 = [] := rfl

theorem leerPalabras_succ (m : Mem) (a n : ℕ) :
    leerPalabras m a (n + 1) = leer m a :: leerPalabras m (a + 4) n := by
  rw [leerPalabras, List.range_succ_eq_map, List.map_cons, List.map_map, leerPalabras]
  congr 1
  exact List.map_congr_left fun i _ => by
    simp only [Function.comp_apply]
    congr 1
    omega

/-- **A copy** of words is a copy of their bytes. -/
theorem escribirPalabras_leerPalabras (m' : Mem) (n : ℕ) : ∀ (m : Mem) (a a' b : ℕ),
    escribirPalabras m a (leerPalabras m' a' n) b =
      if a ≤ b ∧ b < a + 4 * n then m' (a' + (b - a)) else m b := by
  induction n with
  | zero => intro m a a' b; rw [leerPalabras_zero, escribirPalabras, if_neg (by omega)]
  | succ n ih =>
    intro m a a' b
    rw [leerPalabras_succ, escribirPalabras, ih]
    by_cases h1 : a + 4 ≤ b ∧ b < a + 4 + 4 * n
    · rw [if_pos h1, if_pos (by omega)]
      congr 1
      omega
    · rw [if_neg h1]
      by_cases h2 : a ≤ b ∧ b < a + 4
      · rw [if_pos (by omega), escribir, if_pos h2, byte_leer _ _ (by omega)]
      · rw [if_neg (by omega), escribir, if_neg h2]

/-- A word that shares no byte with those stored stays. -/
theorem leer_escribirPalabras_of_disjoint : ∀ {vs : List UInt32} {m : Mem} {a : ℕ},
    b + 4 ≤ a ∨ a + 4 * vs.length ≤ b → leer (escribirPalabras m a vs) b = leer m b
  | [], _, _, _ => rfl
  | v :: vs, m, a, h => by
    rw [List.length_cons] at h
    rw [escribirPalabras, leer_escribirPalabras_of_disjoint (by omega),
      leer_escribir_of_disjoint (by omega)]

/-- A word of the copy. -/
theorem leer_copia (m m' : Mem) (a a' : ℕ) {n i : ℕ} (h : i + 4 ≤ 4 * n) :
    leer (escribirPalabras m a (leerPalabras m' a' n)) (a + i) = leer m' (a' + i) :=
  leer_congr fun j hj => by
    rw [escribirPalabras_leerPalabras, if_pos (by omega)]
    congr 1
    omega

/-- A word that the copy does not touch. -/
theorem leer_copia_of_disjoint (m m' : Mem) (a' : ℕ) {n : ℕ} (h : b + 4 ≤ a ∨ a + 4 * n ≤ b) :
    leer (escribirPalabras m a (leerPalabras m' a' n)) b = leer m b :=
  leer_escribirPalabras_of_disjoint (by rwa [length_leerPalabras])

/-! ### Bytes -/

/-- The four bytes of a word. -/
def bytes (v : UInt32) : List UInt8 := [byte v 0, byte v 1, byte v 2, byte v 3]

/-- Store bytes. -/
def copiar (m : Mem) (a : ℕ) (bs : List UInt8) : Mem := fun b =>
  if a ≤ b ∧ b < a + bs.length then bs.getD (b - a) 0 else m b

/-- `n` consecutive bytes. -/
def leerBytes (m : Mem) (a n : ℕ) : List UInt8 := (List.range n).map fun i => m (a + i)

variable {bs : List UInt8}

@[simp] theorem length_bytes (v : UInt32) : (bytes v).length = 4 := rfl

theorem getD_bytes (v : UInt32) {i : ℕ} (hi : i < 4) : (bytes v).getD i 0 = byte v i := by
  obtain rfl | rfl | rfl | rfl : i = 0 ∨ i = 1 ∨ i = 2 ∨ i = 3 := by omega
  all_goals rfl

@[simp] theorem length_leerBytes (m : Mem) (a n : ℕ) : (leerBytes m a n).length = n := by
  simp [leerBytes]

theorem getD_leerBytes (m : Mem) (a : ℕ) {n i : ℕ} (hi : i < n) :
    (leerBytes m a n).getD i 0 = m (a + i) := by
  simp [leerBytes, hi]

theorem leerBytes_add (m : Mem) (a k n : ℕ) :
    leerBytes m a (k + n) = leerBytes m a k ++ leerBytes m (a + k) n := by
  simp only [leerBytes, List.range_add, List.map_append, List.map_map]
  congr 1
  exact List.map_congr_left fun i _ => by rw [Function.comp_apply, Nat.add_assoc]

/-- The bytes of words of a memory are its bytes. -/
theorem flatMap_bytes_leerPalabras (m : Mem) (n : ℕ) : ∀ a : ℕ,
    (leerPalabras m a n).flatMap bytes = leerBytes m a (4 * n) := by
  induction n with
  | zero => intro a; rfl
  | succ n ih =>
    intro a
    have hbytes : bytes (leer m a) = leerBytes m a 4 := by
      rw [bytes, byte_leer _ _ (by omega), byte_leer _ _ (by omega), byte_leer _ _ (by omega),
        byte_leer _ _ (by omega)]
      rfl
    rw [leerPalabras_succ, List.flatMap_cons, ih, hbytes, Nat.mul_succ, Nat.add_comm (4 * n),
      leerBytes_add]

theorem copiar_add (m : Mem) (a : ℕ) {i : ℕ} (hi : i < bs.length) :
    copiar m a bs (a + i) = bs.getD i 0 := by
  rw [copiar, if_pos ⟨by omega, by omega⟩, Nat.add_sub_cancel_left]

theorem copiar_of_le (h : a + bs.length ≤ b) : copiar m a bs b = m b := if_neg (by omega)

/-- The bytes that were stored are read back. -/
theorem leerBytes_copiar (m : Mem) (a : ℕ) (bs : List UInt8) :
    leerBytes (copiar m a bs) a bs.length = bs := by
  apply List.ext_getElem (length_leerBytes _ _ _)
  intro i h1 h2
  rw [← List.getD_eq_getElem _ 0 h1, ← List.getD_eq_getElem _ 0 h2, getD_leerBytes _ _ h2,
    copiar_add _ _ h2]

/-- A word whose bytes are in memory. -/
theorem leer_of_byte (h : ∀ i < 4, m (a + i) = byte v i) : leer m a = v := by
  rw [← leer_escribir m a v]
  exact leer_congr fun i hi => by rw [h i hi, escribir_byte hi]

theorem leer_copiar_bytes (m : Mem) (a : ℕ) (v : UInt32) : leer (copiar m a (bytes v)) a = v :=
  leer_of_byte fun i hi => by rw [copiar_add _ _ (by rw [length_bytes]; omega), getD_bytes _ hi]

end OperatingSystem.Lib.Bytes
