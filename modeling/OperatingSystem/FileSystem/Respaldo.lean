import OperatingSystem.FileSystem.Invariante

/-! # Recorded sizes and the blocks behind them

`truncar_archivo` records the new size whatever the allocation did. Whenever it returns, the table
still represents chains, and the chain of the file has at most the blocks it had and the free ones
(`truncar_cabe`); so the recorded size is backed by blocks exactly when it is not negative and
those blocks can hold it (`truncarArchivo_respaldado_iff`). -/

namespace OperatingSystem.FileSystem.Respaldo

open OperatingSystem.Lib.CInt OperatingSystem.Lib.Dictionary
open OperatingSystem.FileSystem.Fat OperatingSystem.FileSystem.Bloques
open OperatingSystem.FileSystem.Archivo OperatingSystem.FileSystem.Cadenas
open OperatingSystem.FileSystem.Invariante

variable {cfg : FilesystemConfig} {cad : String → List ℕ} {fs fs' : Filesystem cfg} {n : String}
  {fcb : Fcb} {tamanio : ℤ}

/-- What a truncation of the file is to leave: it indexed the table inside its bounds, the table
represents chains, and the blocks of the file hold the recorded size. -/
def Respaldado (n : String) (r : Option (Filesystem cfg)) : Prop :=
  ∃ fs' cad' fcb, r = some fs' ∧ Rep cfg fs'.fat fs'.fcbs cad' ∧ fs'.fcbs.get n = some fcb ∧
    0 ≤ fcb.tamanio ∧ fcb.tamanio ≤ (cad' n).length * cfg.tamBloque

/-! ### Blocks and bytes -/

theorem le_bloquesPara_mul (cfg : FilesystemConfig) (t : ℕ) :
    t ≤ bloquesPara cfg t * cfg.tamBloque := by
  have hpos := cfg.tam_pos
  have hmod := Nat.div_add_mod (t + cfg.tamBloque - 1) cfg.tamBloque
  have hlt := Nat.mod_lt (t + cfg.tamBloque - 1) hpos
  unfold bloquesPara
  rw [Int.toNat_natCast, Nat.mul_comm]
  omega

theorem bloquesPara_le {t k : ℕ} (h : t ≤ k * cfg.tamBloque) : bloquesPara cfg t ≤ k := by
  have hpos := cfg.tam_pos
  unfold bloquesPara
  rw [Int.toNat_natCast]
  apply Nat.le_of_lt_succ
  rw [Nat.div_lt_iff_lt_mul hpos, Nat.succ_mul]
  omega

/-- The blocks of a file and the free ones leave at least the reserved entry out. -/
theorem libres_lt (h : Rep cfg fs.fat fs.fcbs cad) (hn : fs.fcbs.get n = some fcb) :
    (cad n).length + fs.fat.count 0 < fs.fat.length := by
  have hpos : 0 < fs.fat.length := by
    rw [h.largo]
    exact cantBloques_pos cfg
  rcases Nat.eq_zero_or_pos (fs.fat.count 0) with h0 | h0
  · rw [h0]
    exact (h.cadena n fcb hn).length_lt h.length_le hpos
  · -- the chain that takes up the free blocks is a chain of a table of the same length
    obtain ⟨b, c, e, -, hl, -, hrep⟩ := h.crecer hn h0 le_rfl
    have hc := (hrep 0).cadena n ⟨0, b⟩ (by simp)
    rw [Function.update_self] at hc
    have hle : e.length = fs.fat.length := by rw [(hrep 0).largo, h.largo]
    rw [← hl, ← hle]
    exact hc.length_lt (hrep 0).length_le (by omega)

/-- What the blocks of a file and the free ones hold is an `int`, and so is its rounding. -/
theorem fitsInt_of_cabe (h : Rep cfg fs.fat fs.fcbs cad) (hn : fs.fcbs.get n = some fcb)
    (h0 : 0 ≤ tamanio)
    (hle : tamanio ≤ ((cad n).length + fs.fat.count 0 : ℕ) * cfg.tamBloque) :
    FitsInt (tamanio + (cfg.tamBloque - 1)) := by
  have hlt : (cad n).length + fs.fat.count 0 + 1 ≤ cfg.cantBloquesTotal := by
    have hlen := libres_lt h hn
    rw [h.largo, FilesystemConfig.cantBloques] at hlen
    omega
  have hmul := Nat.mul_le_mul_right cfg.tamBloque hlt
  rw [Nat.succ_mul] at hmul
  have hint := cfg.tamanio_int
  have hpos := cfg.tam_pos
  unfold FitsInt
  unfold INT_MAX at hint ⊢
  push_cast at hint hmul hle
  have hmul' : ((cad n).length + fs.fat.count 0 : ℤ) * cfg.tamBloque + cfg.tamBloque ≤
      cfg.cantBloquesTotal * cfg.tamBloque := by exact_mod_cast hmul
  omega

/-! ### Truncating -/

/-- **Whatever size is asked for**, a truncation that returns records it, keeps the table
well-formed, and gives the file no more than the blocks it had and the free ones. -/
theorem truncar_cabe (h : Rep cfg fs.fat fs.fcbs cad) (hn : fs.fcbs.get n = some fcb)
    (hr : truncarArchivo fs n tamanio = some fs') :
    ∃ b c, fs'.fcbs.get n = some ⟨tamanio, b⟩ ∧
      Rep cfg fs'.fat fs'.fcbs (Function.update cad n c) ∧
        c.length ≤ (cad n).length + fs.fat.count 0 := by
  rw [truncarArchivo, hn] at hr
  simp only [Option.bind_eq_bind, Option.bind_some, h.obtenerCant hn] at hr
  generalize cantBloquesNuevos cfg tamanio (cad n).length = nuevos at hr
  have hcad : Function.update cad n (cad n) = cad := Function.update_eq_self n cad
  by_cases h0 : nuevos = 0
  · rw [if_pos h0] at hr
    obtain rfl := Option.some.inj hr
    refine ⟨fcb.bloqueInicial, cad n, by simp, ?_, by omega⟩
    rw [hcad]
    exact h.anotar hn tamanio
  rw [if_neg h0] at hr
  by_cases hneg : nuevos < 0
  · rw [if_pos hneg] at hr
    by_cases hk : (-nuevos).toNat ≤ (cad n).length
    · obtain ⟨b, c, e, he, hl, -, hrep⟩ := h.encoger hn hk
      rw [he] at hr
      obtain rfl := Option.some.inj hr
      exact ⟨b, c, by simp, hrep tamanio, by omega⟩
    · -- the release is refused
      have he : liberarBloquesAsignados fcb fs.fat (-nuevos).toNat = some (fcb, fs.fat) := by
        rw [liberarBloquesAsignados, (h.cadena n fcb hn).obtener h.length_le rfl]
        simp only [Option.bind_eq_bind, Option.bind_some]
        rw [if_pos (by omega)]
        rfl
      rw [he] at hr
      obtain rfl := Option.some.inj hr
      refine ⟨fcb.bloqueInicial, cad n, by simp, ?_, by omega⟩
      rw [hcad]
      exact h.anotar hn tamanio
  · rw [if_neg hneg] at hr
    rcases Nat.eq_zero_or_pos (fs.fat.count 0) with hc | hc
    · rw [asignarBloquesNuevos_sin_libres fcb _ hc] at hr
      exact absurd hr (by simp)
    · -- as many blocks are assigned as are free, at most
      obtain ⟨k, hk, hkc, hek⟩ : ∃ k, 0 < k ∧ k ≤ fs.fat.count 0 ∧
          asignarBloquesNuevos fcb fs.fat nuevos.toNat = asignarBloquesNuevos fcb fs.fat k := by
        rcases le_total nuevos.toNat (fs.fat.count 0) with hle | hle
        · exact ⟨nuevos.toNat, by omega, hle, rfl⟩
        · exact ⟨fs.fat.count 0, hc, le_rfl, asignarBloquesNuevos_de_mas fcb hle⟩
      obtain ⟨b, c, e, he, hl, -, hrep⟩ := h.crecer hn hk hkc
      rw [hek, he] at hr
      obtain rfl := Option.some.inj hr
      exact ⟨b, c, by simp, hrep tamanio, by omega⟩

/-- A backed size is not negative, and the blocks of the file with the free ones hold it. -/
theorem cabe_of_respaldado (h : Rep cfg fs.fat fs.fcbs cad) (hn : fs.fcbs.get n = some fcb)
    (hr : Respaldado n (truncarArchivo fs n tamanio)) :
    0 ≤ tamanio ∧ tamanio ≤ ((cad n).length + fs.fat.count 0 : ℕ) * cfg.tamBloque := by
  obtain ⟨fs', cad', fcb', he, hrep', hn', h0, hle⟩ := hr
  obtain ⟨b, c, hb, hrep, hc⟩ := truncar_cabe h hn he
  obtain rfl : fcb' = ⟨tamanio, b⟩ := Option.some.inj (hn'.symm.trans hb)
  refine ⟨h0, le_trans hle ?_⟩
  -- the chain of the file is the one the truncation built
  have hcad := hrep.cadena n _ hb
  rw [Function.update_self] at hcad
  rw [(hrep'.cadena n _ hb).unica hcad hrep.length_le]
  exact_mod_cast Nat.mul_le_mul_right cfg.tamBloque hc

/-- **The recorded size is backed by blocks** exactly when it is not negative and the blocks of the
file together with the free ones hold it. -/
theorem truncarArchivo_respaldado_iff (h : Rep cfg fs.fat fs.fcbs cad)
    (hn : fs.fcbs.get n = some fcb) (tamanio : ℤ) :
    Respaldado n (truncarArchivo fs n tamanio) ↔
      0 ≤ tamanio ∧ tamanio ≤ ((cad n).length + fs.fat.count 0 : ℕ) * cfg.tamBloque := by
  constructor
  · exact fun hr => cabe_of_respaldado h hn hr
  · rintro ⟨h0, hle⟩
    have hf := fitsInt_of_cabe h hn h0 hle
    obtain ⟨t, rfl⟩ := Int.eq_ofNat_of_zero_le h0
    have hpara : bloquesPara cfg t ≤ (cad n).length + fs.fat.count 0 :=
      bloquesPara_le (by exact_mod_cast hle)
    obtain ⟨fat', b, c, he, hc, -, hrep⟩ := h.truncar hn h0 hf hpara
    refine ⟨_, _, ⟨t, b⟩, he, hrep, by simp, h0, ?_⟩
    rw [Function.update_self, hc]
    change (t : ℤ) ≤ _
    exact_mod_cast le_bloquesPara_mul cfg t

/-- The file system with one empty file: seven blocks of sixteen bytes are free. -/
def unVacio : Filesystem cfgChica :=
  crearArchivo (inicial cfgChica fun _ _ => 0) "a"

theorem rep_unVacio : Rep cfgChica unVacio.fat unVacio.fcbs fun _ => [] :=
  (rep_limpiarFat cfgChica).crear rfl

theorem truncarArchivo_respaldado_iff_unVacio :
    Respaldado "a" (truncarArchivo unVacio "a" 112) ↔
      (0 : ℤ) ≤ 112 ∧ (112 : ℤ) ≤ (0 + unVacio.fat.count 0 : ℕ) * cfgChica.tamBloque :=
  truncarArchivo_respaldado_iff rep_unVacio (show unVacio.fcbs.get "a" = some ⟨0, 0⟩ from rfl) 112

/-- Eight blocks are asked for: the seven that are free are assigned and 128 bytes recorded. -/
theorem truncarArchivo_sin_respaldo :
    Rep cfgChica unVacio.fat unVacio.fcbs (fun _ => []) ∧
    unVacio.fcbs.get "a" = some ⟨0, 0⟩ ∧
    (truncarArchivo unVacio "a" 128).map (fun fs => (fs.fcbs.get "a", fs.fat)) =
      some (some ⟨128, 1⟩, [UINT32_MAX, 2, 3, 4, 5, 6, 7, UINT32_MAX]) ∧
    ¬ Respaldado "a" (truncarArchivo unVacio "a" 128) := by
  refine ⟨rep_unVacio, rfl, by decide, fun h => ?_⟩
  exact absurd (cabe_of_respaldado rep_unVacio rfl h).2 (by decide)

end OperatingSystem.FileSystem.Respaldo
