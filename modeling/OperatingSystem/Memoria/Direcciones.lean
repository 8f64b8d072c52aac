import Mathlib.Tactic.Ring
import OperatingSystem.Memoria.Pedidos
import OperatingSystem.Lib.Bytes

/-! # Physical addresses (`cpu/src/mmu.c`, `memoria/src/paginacion/espacio_usuario.c`)

The CPU makes a physical address of a frame and of what the truncating division by the size of a page
leaves of the logical address; the memory reads or writes four bytes from there on, and finds the frame
of the address again by a division of its own, by the size of the memory over the number of frames.

`enSuMarco_iff` is which logical addresses keep the four bytes in the frame, `marcos_coinciden_iff` for
which of them both sides mean the same frame, and with which sizes they always do. -/

namespace OperatingSystem.Memoria.Direcciones

open OperatingSystem.Lib.Bytes
open OperatingSystem.Memoria.Paginas OperatingSystem.Memoria.Pedidos

/-! ### The offset -/

/-- The offset is the remainder of the truncating division, which has the sign of the address. -/
theorem obtenerDesplazamiento_eq (t : ℕ) (a : ℤ) : obtenerDesplazamiento t a = a.tmod t := by
  unfold obtenerDesplazamiento obtenerNumeroPagina
  have h := Int.tmod_add_tdiv_mul a t
  omega

theorem traduccion_eq_tmod (t : ℕ) (a m : ℤ) :
    traduccionLogicaAFisica t a m = m * t + a.tmod t := by
  unfold traduccionLogicaAFisica
  rw [obtenerDesplazamiento_eq]

/-! ### The four bytes -/

/-- **The bytes that `MOV_IN` reads and `MOV_OUT` writes are of the frame.** -/
def EnSuMarco (tamanioPagina : ℕ) (dirLogica : ℤ) (marco : ℕ) : Prop :=
  ∀ i : ℕ, i < 4 →
    (marco : ℤ) * tamanioPagina ≤ traduccionLogicaAFisica tamanioPagina dirLogica marco + i ∧
    traduccionLogicaAFisica tamanioPagina dirLogica marco + i < ((marco : ℤ) + 1) * tamanioPagina

/-- What is outside of the frame can neither be read nor changed. -/
structure Aislado (tamanioPagina : ℕ) (dirLogica : ℤ) (marco : ℕ) : Prop where
  escribir : ∀ (espacio : Mem) (valor : UInt32) (b : ℕ),
    ¬ (marco * tamanioPagina ≤ b ∧ b < (marco + 1) * tamanioPagina) →
    escribir espacio (traduccionLogicaAFisica tamanioPagina dirLogica marco).toNat valor b = espacio b
  leer : ∀ espacio espacio' : Mem,
    (∀ b, marco * tamanioPagina ≤ b → b < (marco + 1) * tamanioPagina → espacio b = espacio' b) →
    leer espacio (traduccionLogicaAFisica tamanioPagina dirLogica marco).toNat =
      leer espacio' (traduccionLogicaAFisica tamanioPagina dirLogica marco).toNat

variable {t m : ℕ} {a : ℤ}

theorem EnSuMarco.aislado (h : EnSuMarco t a m) : Aislado t a m := by
  obtain ⟨d, hd⟩ : ∃ d : ℕ, traduccionLogicaAFisica t a m = d := by
    have h0 := (h 0 (by omega)).1
    have hm := Int.mul_nonneg (Int.natCast_nonneg m) (Int.natCast_nonneg t)
    exact ⟨_, (Int.toNat_of_nonneg (by omega)).symm⟩
  -- the bounds of the first and of the last byte, as natural numbers
  have h0 : m * t ≤ d := by
    have := (h 0 (by omega)).1
    rw [hd] at this
    exact_mod_cast this
  have h3 : d + 3 < (m + 1) * t := by
    have := (h 3 (by omega)).2
    rw [hd] at this
    exact_mod_cast this
  refine ⟨fun espacio valor b hb => ?_, fun espacio espacio' hig => ?_⟩
  · rw [hd, Int.toNat_natCast]
    by_cases hlt : b < d
    · exact escribir_of_lt hlt
    · exact escribir_of_le (by omega)
  · rw [hd, Int.toNat_natCast]
    exact leer_congr fun i hi => hig _ (by omega) (by omega)

/-- **Which accesses stay in their frame**: those of the addresses whose offset is not negative and
leaves room for four bytes; and they reach nothing else. -/
theorem enSuMarco_iff (t : ℕ) (a : ℤ) (m : ℕ) :
    (EnSuMarco t a m ↔ 0 ≤ a.tmod t ∧ a.tmod t + 4 ≤ t) ∧ (EnSuMarco t a m → Aislado t a m) := by
  refine ⟨⟨fun h => ?_, fun h i hi => ?_⟩, EnSuMarco.aislado⟩
  · have h0 := (h 0 (by omega)).1
    have h3 := (h 3 (by omega)).2
    rw [traduccion_eq_tmod] at h0 h3
    have hm : ((m : ℤ) + 1) * t = m * t + t := by ring
    omega
  · obtain ⟨h0, h4⟩ := h
    rw [traduccion_eq_tmod]
    have hm : ((m : ℤ) + 1) * t = m * t + t := by ring
    omega

/-- Half of the word at address `14` of a page of `16` bytes is in the next frame, and the word at `-4`
is in the frame before. -/
theorem fuera_de_su_marco : ¬ EnSuMarco 16 14 0 ∧ ¬ EnSuMarco 16 (-4) 1 := by
  refine ⟨fun h => ?_, fun h => ?_⟩
  · exact absurd (h 2 (by omega)).2 (by decide)
  · exact absurd (h 0 (by omega)).1 (by decide)

/-! ### The frame of an address -/

/-- **Both sides mean the same frame**, and the address is of the memory. -/
def Coinciden (tamanioMemoria tamanioPagina : ℕ) (espacio : Mem) (marco dirLogica : ℕ) : Prop :=
  ∃ e, createEspacioUsuario tamanioMemoria tamanioPagina espacio = some e ∧
    espacioObtenerFrame e (traduccionLogicaAFisica tamanioPagina dirLogica marco).toNat = marco ∧
    0 ≤ traduccionLogicaAFisica tamanioPagina dirLogica marco ∧
    traduccionLogicaAFisica tamanioPagina dirLogica marco < tamanioMemoria

variable {M P : ℕ}

/-- The frame size that `espacio_obtener_frame` computes is never smaller than a page. -/
theorem tamanioPagina_le (hP : 0 < P) (hM : P ≤ M) : P ≤ M / (M / P) :=
  (Nat.le_div_iff_mul_le (Nat.div_pos hM hP)).mpr (by
    have := Nat.div_mul_le_self M P
    rw [Nat.mul_comm]
    exact this)

theorem direccion_lt {m a : ℕ} (hP : 0 < P) (hm : m < M / P) : m * P + a % P < M := by
  have hr := Nat.mod_lt a hP
  have hn : (m + 1) * P ≤ M / P * P := Nat.mul_le_mul_right P hm
  have hM := Nat.div_mul_le_self M P
  have hs : (m + 1) * P = m * P + P := by ring
  omega

/-- The quotient by a larger size is the same while the frames before have not moved too far. -/
theorem div_eq_iff_of_le {F m r : ℕ} (hP : 0 < P) (hF : P ≤ F) (hr : r < P) :
    (m * P + r) / F = m ↔ m * (F - P) ≤ r := by
  obtain ⟨d, rfl⟩ := Nat.exists_eq_add_of_le hF
  rw [Nat.add_sub_cancel_left, Nat.div_eq_iff (by omega)]
  have h1 : m * (P + d) = m * P + m * d := by ring
  constructor
  · intro h
    omega
  · intro h
    omega

/-- With frames that are larger for the memory than for the CPU, only the offsets that make up for it
are in the frame that the CPU means. -/
theorem coinciden_iff (hP : 0 < P) (hM : P ≤ M) {m : ℕ} (hm : m < M / P) (espacio : Mem) (a : ℕ) :
    Coinciden M P espacio m a ↔ M / P ≤ CANT_MARCOS ∧ m * (M / (M / P) - P) ≤ a % P := by
  have hlt := direccion_lt (a := a) hP hm
  have hdiv := div_eq_iff_of_le (m := m) hP (tamanioPagina_le hP hM) (Nat.mod_lt a hP)
  unfold Coinciden createEspacioUsuario espacioObtenerFrame
  rw [traduccionLogicaAFisica_eq, Int.toNat_natCast]
  constructor
  · rintro ⟨e, he, hframe, -, -⟩
    obtain ⟨hc, he⟩ := Option.ite_none_right_eq_some.mp he
    obtain rfl := Option.some.inj he
    exact ⟨hc.2, hdiv.mp hframe⟩
  · rintro ⟨hc, h⟩
    exact ⟨_, if_pos ⟨by omega, hc⟩, hdiv.mpr h, Int.natCast_nonneg _, by exact_mod_cast hlt⟩

/-- The frames are of the size of a page when less memory is left over than there are frames. -/
theorem tamanio_marco_eq_iff (hn : 0 < M / P) : M / (M / P) = P ↔ M % P < M / P := by
  have hdm := Nat.div_add_mod' M P
  have hcomm : P * (M / P) = M / P * P := Nat.mul_comm ..
  rw [Nat.div_eq_iff hn]
  constructor
  · intro h
    omega
  · intro h
    omega

/-- With a single frame, or frames of the size of a page, all addresses are in the frame that the CPU
means. -/
theorem coinciden_todos_iff (hP : 0 < P) (hM : P ≤ M) :
    (∀ m < M / P, ∀ a, m * (M / (M / P) - P) ≤ a % P) ↔ M / P = 1 ∨ M % P < M / P := by
  have hn : 0 < M / P := Nat.div_pos hM hP
  have hF := tamanioPagina_le hP hM
  rw [← tamanio_marco_eq_iff hn]
  constructor
  · intro h
    by_contra hno
    -- with two frames or more, the first byte of frame `1`
    have h1 := h 1 (by omega) 0
    rw [Nat.zero_mod] at h1
    omega
  · rintro (h | h) m hm a
    · obtain rfl : m = 0 := by omega
      simp
    · simp [h]

/-- **Where both sides agree**: at the addresses whose offset makes up for what the frames of the memory
are larger than the pages; at all of them if there is a single frame, or less memory is left over than
there are frames. -/
theorem marcos_coinciden_iff (hP : 0 < P) (hM : P ≤ M) (espacio : Mem) :
    (∀ m < M / P, ∀ a, Coinciden M P espacio m a ↔
      M / P ≤ CANT_MARCOS ∧ m * (M / (M / P) - P) ≤ a % P) ∧
    ((∀ m < M / P, ∀ a, Coinciden M P espacio m a) ↔
      M / P ≤ CANT_MARCOS ∧ (M / P = 1 ∨ M % P < M / P)) := by
  have hn : 0 < M / P := Nat.div_pos hM hP
  have hiff : ∀ m < M / P, ∀ a, Coinciden M P espacio m a ↔
      M / P ≤ CANT_MARCOS ∧ m * (M / (M / P) - P) ≤ a % P :=
    fun m hm a => coinciden_iff hP hM hm espacio a
  refine ⟨hiff, ?_⟩
  rw [← coinciden_todos_iff hP hM]
  constructor
  · intro h
    exact ⟨((hiff 0 hn 0).mp (h 0 hn 0)).1, fun m hm a => ((hiff m hm a).mp (h m hm a)).2⟩
  · intro h m hm a
    exact (hiff m hm a).mpr ⟨h.1, h.2 m hm a⟩

theorem marcos_coinciden_iff_once :
    (∀ m < 11 / 4, ∀ a, Coinciden 11 4 (fun _ => 0) m a ↔
      11 / 4 ≤ CANT_MARCOS ∧ m * (11 / (11 / 4) - 4) ≤ a % 4) ∧
    ((∀ m < 11 / 4, ∀ a, Coinciden 11 4 (fun _ => 0) m a) ↔
      11 / 4 ≤ CANT_MARCOS ∧ (11 / 4 = 1 ∨ 11 % 4 < 11 / 4)) :=
  marcos_coinciden_iff (by decide) (by decide) fun _ => 0

/-- A memory of `11` bytes has two frames of `4`, which `espacio_obtener_frame` takes to be of `5`: the
first byte of frame `1` is in frame `0` for it. -/
theorem marcos_distintos : ¬ Coinciden 11 4 (fun _ => 0) 1 0 := by
  rw [coinciden_iff (by omega) (by omega) (by omega)]
  decide

end OperatingSystem.Memoria.Direcciones
