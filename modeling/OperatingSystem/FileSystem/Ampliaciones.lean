import Mathlib.Data.List.GetD
import OperatingSystem.FileSystem.Respaldo

/-! # Growing a file and shrinking it back

A growing file takes free entries of the table wherever they are and links them after the end of its
chain; a shrinking one cuts the end of its chain off and frees it. The chain of a file determines
`BLOQUE_INICIAL` and the entries of its blocks (`EsCadena.agree`), so freeing as many blocks as were
assigned puts every entry back (`liberar_tras_asignar`), and a file that grows and shrinks back leaves
the file system as it was (`truncar_ida_y_vuelta`). -/

namespace OperatingSystem.FileSystem.Ampliaciones

open OperatingSystem.Lib.CInt OperatingSystem.Lib.Dictionary
open OperatingSystem.FileSystem.Fat OperatingSystem.FileSystem.Archivo
open OperatingSystem.FileSystem.Cadenas OperatingSystem.FileSystem.Invariante
open OperatingSystem.FileSystem.Respaldo (unVacio rep_unVacio bloquesPara_le le_bloquesPara_mul)

/-! ### The table -/

section Tabla

variable {entradas entradas' : List ℕ} {b b' : ℕ} {l : List ℕ} {fcb : Fcb}

/-- Tables with one chain agree on its blocks, and on where it begins. -/
theorem EsCadena.agree (h : EsCadena entradas b l) (h' : EsCadena entradas' b' l) :
    b = b' ∧ ∀ i ∈ l, siguiente entradas i = siguiente entradas' i := by
  by_cases hl : l = []
  · rw [h.vacia hl, h'.vacia hl, hl]
    simp
  · exact (h.path hl).agree (h'.path hl)

theorem eq_of_siguiente (hl : entradas.length = entradas'.length)
    (h : ∀ i, siguiente entradas i = siguiente entradas' i) : entradas = entradas' := by
  refine List.ext_getElem hl fun i h1 h2 => ?_
  have hi := h i
  unfold siguiente at hi
  rwa [List.getD_eq_getElem _ 0 h1, List.getD_eq_getElem _ 0 h2] at hi

/-- **The loops are inverse**: the blocks that were assigned are the end of the new chain, and freeing
that many gives the table and the first block back. -/
theorem liberar_tras_asignar (h : EsCadena entradas b l) (hn : (entradas.length : ℤ) ≤ INT_MAX)
    (h0 : siguiente entradas 0 ≠ 0) (hb : fcb.bloqueInicial = b) {k : ℕ} (hk : 0 < k)
    (hlibres : k ≤ entradas.count 0) (t : ℤ) :
    ∃ b' nuevas e, asignarBloquesNuevos fcb entradas k = some (⟨fcb.tamanio, b'⟩, e) ∧
      nuevas.length = k ∧ e.length = entradas.length ∧ EsCadena e b' (l ++ nuevas) ∧
      liberarBloquesAsignados ⟨t, b'⟩ e k = some (⟨t, fcb.bloqueInicial⟩, entradas) := by
  obtain ⟨b', nuevas, e, ha, rfl, hlibre, hle, hc, hfuera⟩ :=
    asignarBloquesNuevos_spec h hn h0 hb hk hlibres
  have hn' : (e.length : ℤ) ≤ INT_MAX := by rw [hle]; exact hn
  obtain ⟨b'', e', hr, hle', hc', hcero, hfuera'⟩ :=
    liberarBloquesAsignados_spec hc hn' (show (Fcb.mk t b').bloqueInicial = b' from rfl)
  obtain ⟨rfl, hs⟩ := EsCadena.agree hc' h
  refine ⟨b', nuevas, e, ha, rfl, hle, hc, ?_⟩
  have he : e' = entradas := by
    refine eq_of_siguiente (hle'.trans hle) fun i => ?_
    by_cases hi : i ∈ l
    · exact hs i hi
    · by_cases hin : i ∈ nuevas
      · rw [hcero i hin, hlibre i hin]
      · rw [hfuera' i hi hin, hfuera i hi hin]
  rw [hr, he, hb]

/-- The blocks of a file and the free ones leave the reserved entry out. -/
theorem length_add_lt (h : EsCadena entradas b l) (hn : (entradas.length : ℤ) ≤ INT_MAX)
    (h0 : siguiente entradas 0 ≠ 0) {k : ℕ} (hlibres : k ≤ entradas.count 0) :
    l.length + k < entradas.length := by
  have hpos : 0 < entradas.length := by
    by_contra hn0
    exact h0 (List.getD_eq_default _ _ (by omega))
  rcases Nat.eq_zero_or_pos k with rfl | hk
  · exact h.length_lt hn hpos
  · obtain ⟨b', nuevas, e, -, hnl, hle, hc, -⟩ :=
      liberar_tras_asignar h hn h0 (show (Fcb.mk 0 b).bloqueInicial = b from rfl) hk hlibres 0
    have hlt := hc.length_lt (by rw [hle]; exact hn) (by rw [hle]; exact hpos)
    rw [List.length_append, hnl, hle] at hlt
    exact hlt

end Tabla

/-! ### The number of blocks -/

/-- `⌈tamanio / TAM_BLOQUE⌉`. -/
def bloquesNecesarios (cfg : FilesystemConfig) (tamanio : ℤ) : ℤ := -(-tamanio / cfg.tamBloque)

section Bloques

variable {cfg : FilesystemConfig} {tamanio : ℤ}

theorem tamBloque_pos (cfg : FilesystemConfig) : (0 : ℤ) < cfg.tamBloque := by
  have := cfg.tam_pos
  omega

theorem bloquesNecesarios_le_iff {k : ℤ} :
    bloquesNecesarios cfg tamanio ≤ k ↔ tamanio ≤ k * cfg.tamBloque := by
  have h := Int.le_ediv_iff_mul_le (a := -k) (b := -tamanio) (tamBloque_pos cfg)
  rw [Int.neg_mul] at h
  unfold bloquesNecesarios
  omega

theorem bloquesNecesarios_mono {tamanio' : ℤ} (h : tamanio ≤ tamanio') :
    bloquesNecesarios cfg tamanio ≤ bloquesNecesarios cfg tamanio' :=
  bloquesNecesarios_le_iff.mpr (le_trans h (bloquesNecesarios_le_iff.mp le_rfl))

/-- What needs a block, or none, is more than minus a block. -/
theorem neg_lt_of_necesarios (h : 0 ≤ bloquesNecesarios cfg tamanio) :
    -(cfg.tamBloque : ℤ) < tamanio := by
  by_contra hn
  have h1 : bloquesNecesarios cfg tamanio ≤ -1 := bloquesNecesarios_le_iff.mpr (by omega)
  omega

/-- The blocks of a file inside the table hold an `int`, and so does its rounding. -/
theorem le_int_max (h : bloquesNecesarios cfg tamanio < cfg.cantBloques) :
    tamanio + (cfg.tamBloque - 1) ≤ INT_MAX := by
  have hle := bloquesNecesarios_le_iff.mp (le_refl (bloquesNecesarios cfg tamanio))
  have htotal : bloquesNecesarios cfg tamanio + 1 ≤ cfg.cantBloquesTotal := by
    unfold FilesystemConfig.cantBloques at h
    omega
  have hmul := Int.mul_le_mul_of_nonneg_right htotal (tamBloque_pos cfg).le
  rw [Int.add_mul, Int.one_mul] at hmul
  have hint := cfg.tamanio_int
  push_cast at hint
  omega

/-- For the size of a file it is the number of `Invariante`. -/
theorem bloquesNecesarios_eq (h0 : 0 ≤ tamanio) :
    bloquesNecesarios cfg tamanio = (bloquesPara cfg tamanio : ℤ) := by
  obtain ⟨t, rfl⟩ := Int.eq_ofNat_of_zero_le h0
  have hmul := bloquesNecesarios_le_iff.mp (le_refl (bloquesNecesarios cfg (t : ℤ)))
  have hnn : 0 ≤ bloquesNecesarios cfg (t : ℤ) := by
    by_contra hneg
    have hle : bloquesNecesarios cfg (t : ℤ) ≤ -1 := by omega
    have := bloquesNecesarios_le_iff.mp hle
    have := tamBloque_pos cfg
    omega
  obtain ⟨k, hk⟩ := Int.eq_ofNat_of_zero_le hnn
  rw [hk] at hmul ⊢
  refine le_antisymm ?_ (by exact_mod_cast bloquesPara_le (by exact_mod_cast hmul))
  rw [← hk]
  exact bloquesNecesarios_le_iff.mpr (by exact_mod_cast le_bloquesPara_mul cfg t)

/-- The rounded-up quotient of `truncar_archivo` is the number of blocks, while the sum is an `int`. -/
theorem cantBloquesNuevos_necesarios (hneg : -(cfg.tamBloque : ℤ) < tamanio)
    (hf : tamanio + (cfg.tamBloque - 1) ≤ INT_MAX) (cant : ℕ) :
    cantBloquesNuevos cfg tamanio cant = bloquesNecesarios cfg tamanio - cant := by
  have hpos := tamBloque_pos cfg
  rcases le_or_gt 0 tamanio with h0 | h0
  · rw [cantBloquesNuevos_eq h0 ⟨by omega, hf⟩, bloquesNecesarios_eq h0]
  · -- less than a block before zero, which C rounds to none
    have hcero : bloquesNecesarios cfg tamanio = 0 := by
      refine le_antisymm (bloquesNecesarios_le_iff.mpr (by omega)) ?_
      by_contra h
      have hle : bloquesNecesarios cfg tamanio ≤ -1 := by omega
      have := bloquesNecesarios_le_iff.mp hle
      omega
    rw [cantBloquesNuevos, wrap32_of_fits ⟨by omega, hf⟩, hcero,
      Int.tdiv_eq_zero_of_lt (by omega) (by omega)]

end Bloques

/-! ### Truncating -/

section Truncar

variable {cfg : FilesystemConfig} {fs : Filesystem cfg} {n : String} {fcb fcb' : Fcb} {fat : List ℕ}
  {cant k : ℕ} {tamanio : ℤ}

theorem truncarArchivo_igual (hn : fs.fcbs.get n = some fcb)
    (hc : obtenerCantBloquesAsignados fcb fs.fat = some cant)
    (hk : cantBloquesNuevos cfg tamanio cant = 0) :
    truncarArchivo fs n tamanio =
      some { fs with fcbs := fs.fcbs.put n ⟨tamanio, fcb.bloqueInicial⟩ } := by
  rw [truncarArchivo, hn]
  simp only [Option.bind_eq_bind, Option.bind_some, hc, hk, if_true]
  rfl

theorem truncarArchivo_mas (hn : fs.fcbs.get n = some fcb)
    (hc : obtenerCantBloquesAsignados fcb fs.fat = some cant) (hpos : 0 < k)
    (hk : cantBloquesNuevos cfg tamanio cant = k)
    (ha : asignarBloquesNuevos fcb fs.fat k = some (fcb', fat)) :
    truncarArchivo fs n tamanio =
      some { fs with fat := fat, fcbs := fs.fcbs.put n ⟨tamanio, fcb'.bloqueInicial⟩ } := by
  rw [truncarArchivo, hn]
  simp only [Option.bind_eq_bind, Option.bind_some, hc, hk]
  rw [if_neg (by omega), if_neg (by omega), Int.toNat_natCast, ha]
  rfl

theorem truncarArchivo_menos (hn : fs.fcbs.get n = some fcb)
    (hc : obtenerCantBloquesAsignados fcb fs.fat = some cant) (hpos : 0 < k)
    (hk : cantBloquesNuevos cfg tamanio cant = -k)
    (hr : liberarBloquesAsignados fcb fs.fat k = some (fcb', fat)) :
    truncarArchivo fs n tamanio =
      some { fs with fat := fat, fcbs := fs.fcbs.put n ⟨tamanio, fcb'.bloqueInicial⟩ } := by
  rw [truncarArchivo, hn]
  simp only [Option.bind_eq_bind, Option.bind_some, hc, hk]
  rw [if_neg (by omega), if_pos (by omega), Int.neg_neg, Int.toNat_natCast, hr]
  rfl

end Truncar

/-- **A file that grows and shrinks back** leaves the file system as it was: every entry of the table,
`BLOQUE_INICIAL` and `TAMANIO_ARCHIVO`. -/
theorem truncar_ida_y_vuelta {cfg : FilesystemConfig} {fs : Filesystem cfg} {cad : String → List ℕ}
    {n : String} {fcb : Fcb} {tamanio : ℤ} (h : BienFormada cfg fs.fat fs.fcbs cad)
    (hn : fs.fcbs.get n = some fcb)
    (hcad : ((cad n).length : ℤ) = bloquesNecesarios cfg fcb.tamanio) (hmas : fcb.tamanio < tamanio)
    (hlibres : bloquesNecesarios cfg tamanio ≤ (cad n).length + fs.fat.count 0) :
    ∃ fs', truncarArchivo fs n tamanio = some fs' ∧ truncarArchivo fs' n fcb.tamanio = some fs := by
  have hc := h.cadena n fcb hn
  have hcant : obtenerCantBloquesAsignados fcb fs.fat = some (cad n).length := by
    rw [obtenerCantBloquesAsignados, hc.obtener h.length_le rfl]
    rfl
  have hneg : -(cfg.tamBloque : ℤ) < fcb.tamanio := neg_lt_of_necesarios (by omega)
  have hmono : bloquesNecesarios cfg fcb.tamanio ≤ bloquesNecesarios cfg tamanio :=
    bloquesNecesarios_mono hmas.le
  have hres : siguiente fs.fat 0 ≠ 0 := by rw [h.reservada]; decide
  -- the blocks that are missing
  obtain ⟨k, hk⟩ : ∃ k : ℕ, bloquesNecesarios cfg tamanio = (cad n).length + k :=
    ⟨(bloquesNecesarios cfg tamanio - (cad n).length).toNat, by omega⟩
  have hlibres' : k ≤ fs.fat.count 0 := by omega
  have hcabe := length_add_lt hc h.length_le hres hlibres'
  rw [h.largo] at hcabe
  have hmax := le_int_max (show bloquesNecesarios cfg tamanio < cfg.cantBloques by omega)
  have hida := cantBloquesNuevos_necesarios (hneg.trans hmas) hmax (cad n).length
  have hvuelta := fun cant => cantBloquesNuevos_necesarios hneg (le_trans (by omega) hmax) cant
  have hfcb : fs.fcbs.put n ⟨fcb.tamanio, fcb.bloqueInicial⟩ = fs.fcbs := Dict.put_of_get hn
  rcases Nat.eq_zero_or_pos k with rfl | hpos
  · -- the number of blocks stays the same
    refine ⟨_, truncarArchivo_igual hn hcant (by omega), ?_⟩
    have hcant' : obtenerCantBloquesAsignados ⟨tamanio, fcb.bloqueInicial⟩ fs.fat =
        some (cad n).length := hcant
    refine Eq.trans (truncarArchivo_igual (Dict.get_put_self ..) hcant' (by rw [hvuelta]; omega)) ?_
    rw [Dict.put_put, hfcb]
  · obtain ⟨b', nuevas, e, ha, hnl, hle, hc', hr⟩ :=
      liberar_tras_asignar hc h.length_le hres rfl hpos hlibres' tamanio
    refine ⟨_, truncarArchivo_mas hn hcant hpos (by omega) ha, ?_⟩
    have hcant' : obtenerCantBloquesAsignados ⟨tamanio, b'⟩ e = some ((cad n).length + k) := by
      rw [obtenerCantBloquesAsignados, hc'.obtener (by rw [hle]; exact h.length_le) rfl, ← hnl,
        ← List.length_append]
      rfl
    have hmenos : cantBloquesNuevos cfg fcb.tamanio ((cad n).length + k) = -k := by
      rw [hvuelta]
      push_cast
      omega
    refine Eq.trans (truncarArchivo_menos (Dict.get_put_self ..) hcant' hpos hmenos hr) ?_
    rw [Dict.put_put, hfcb]

/-- A file of two blocks in a table with holes: the blocks `1` and `2` were freed by another file. -/
def conHuecos : Filesystem cfgChica :=
  { unVacio with
    fat := [UINT32_MAX, 0, 0, 4, UINT32_MAX, 0, 0, 0]
    fcbs := unVacio.fcbs.put "a" ⟨20, 3⟩ }

def cadenasConHuecos (n : String) : List ℕ := if n = "a" then [3, 4] else []

theorem cadenasConHuecos_a : cadenasConHuecos "a" = [3, 4] := if_pos rfl

theorem bienFormada_conHuecos :
    BienFormada cfgChica conHuecos.fat conHuecos.fcbs cadenasConHuecos := by
  refine ⟨rfl, rfl, fun n fcb hn => ?_, fun n hn => ?_, fun n m hnm i hi => ?_⟩
  · rcases Dict.get_put_eq_some.mp hn with ⟨rfl, rfl⟩ | ⟨hne, hn⟩
    · rw [cadenasConHuecos_a]
      exact ⟨by decide, by decide, by decide, fun _ => ⟨rfl, rfl, rfl⟩⟩
    · rcases Dict.get_put_eq_some.mp hn with ⟨rfl, -⟩ | ⟨-, hn⟩
      · exact absurd rfl hne
      · cases hn
  · refine if_neg ?_
    rintro rfl
    cases hn
  · have hna : n = "a" := by
      by_contra hne
      rw [cadenasConHuecos, if_neg hne] at hi
      cases hi
    rw [cadenasConHuecos, if_neg fun hm => hnm (hna.trans hm.symm)]
    simp

/-- The file gets the blocks `1`, `2` and `5` after its own, and gives them back. -/
theorem truncar_ida_y_vuelta_conHuecos : ∃ fs', truncarArchivo conHuecos "a" 80 = some fs' ∧
    truncarArchivo fs' "a" 20 = some conHuecos := by
  have hn : conHuecos.fcbs.get "a" = some ⟨20, 3⟩ := rfl
  have hcad : ((cadenasConHuecos "a").length : ℤ) = bloquesNecesarios cfgChica 20 := by
    rw [cadenasConHuecos_a]
    decide
  have hmas : (20 : ℤ) < 80 := by decide
  have hlibres : bloquesNecesarios cfgChica 80 ≤
      (cadenasConHuecos "a").length + conHuecos.fat.count 0 := by
    rw [cadenasConHuecos_a]
    decide
  have h := truncar_ida_y_vuelta bienFormada_conHuecos hn hcad hmas hlibres
  exact h

example : (truncarArchivo conHuecos "a" 80).map (fun fs => fs.fat) =
    some [UINT32_MAX, 2, 5, 4, 1, UINT32_MAX, 0, 0] := by decide

end OperatingSystem.FileSystem.Ampliaciones
