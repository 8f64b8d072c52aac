import OperatingSystem.FileSystem.Archivo
import OperatingSystem.FileSystem.Cadenas

/-! # The representation invariant of the allocation table

`Rep cfg fat fcbs cad`: the table `fat` represents the chains `cad n` of the files `n`: they are
chains of the table, no two of them meet, and a block that lies on none of them is free. `crear_archivo`
and `truncar_archivo` are described by what they do to the chains (`Rep.crear`, `Rep.truncar`): a
truncation changes one chain only, and the old and the new chain have their common length in
common. -/

namespace OperatingSystem.FileSystem.Invariante

open OperatingSystem.Lib.CInt OperatingSystem.Lib.Chains OperatingSystem.Lib.Dictionary
open OperatingSystem.FileSystem.Fat OperatingSystem.FileSystem.Bloques
open OperatingSystem.FileSystem.Archivo OperatingSystem.FileSystem.Cadenas

variable {cfg : FilesystemConfig} {fat : List ℕ} {fcbs : Dict String Fcb} {cad : String → List ℕ}

/-- A well-formed table: chains that do not meet, and the reserved entry. -/
structure BienFormada (cfg : FilesystemConfig) (fat : List ℕ) (fcbs : Dict String Fcb)
    (cad : String → List ℕ) : Prop where
  largo : fat.length = cfg.cantBloques
  reservada : siguiente fat 0 = UINT32_MAX
  cadena : ∀ n fcb, fcbs.get n = some fcb → EsCadena fat fcb.bloqueInicial (cad n)
  sinArchivo : ∀ n, fcbs.get n = none → cad n = []
  disjuntas : ∀ n m, n ≠ m → ∀ i ∈ cad n, i ∉ cad m

/-- **The representation invariant**: besides, no block is lost. -/
structure Rep (cfg : FilesystemConfig) (fat : List ℕ) (fcbs : Dict String Fcb)
    (cad : String → List ℕ) : Prop extends BienFormada cfg fat fcbs cad where
  sinFugas : ∀ i, 0 < i → siguiente fat i ≠ 0 → ∃ n, i ∈ cad n

/-- `ceil (tamanio / TAM_BLOQUE)`. -/
def bloquesPara (cfg : FilesystemConfig) (tamanio : ℤ) : ℕ :=
  (tamanio.toNat + cfg.tamBloque - 1) / cfg.tamBloque

/-! ### The configuration -/

theorem cantBloques_pos (cfg : FilesystemConfig) : 0 < cfg.cantBloques := by
  have := cfg.swap_lt
  unfold FilesystemConfig.cantBloques
  omega

/-- The blocks of `bloques.dat` are numbered by an `int`. -/
theorem cantBloquesTotal_le (cfg : FilesystemConfig) : (cfg.cantBloquesTotal : ℤ) ≤ INT_MAX := by
  have h := cfg.tamanio_int
  have : cfg.cantBloquesTotal ≤ cfg.cantBloquesTotal * cfg.tamBloque :=
    Nat.le_mul_of_pos_right _ cfg.tam_pos
  omega

theorem BienFormada.length_le (h : BienFormada cfg fat fcbs cad) : (fat.length : ℤ) ≤ INT_MAX := by
  have := cantBloquesTotal_le cfg
  rw [h.largo, FilesystemConfig.cantBloques]
  omega

/-- The subtraction of `truncar_archivo` is between the blocks needed and the blocks there are. -/
theorem cantBloquesNuevos_eq {tamanio : ℤ} (h0 : 0 ≤ tamanio)
    (hf : FitsInt (tamanio + (cfg.tamBloque - 1))) (cant : ℕ) :
    cantBloquesNuevos cfg tamanio cant = (bloquesPara cfg tamanio : ℤ) - cant := by
  obtain ⟨t, rfl⟩ := Int.eq_ofNat_of_zero_le h0
  rw [cantBloquesNuevos, wrap32_of_fits hf, tdiv_round_up cfg.tam_pos]
  rfl

/-! ### Changes of one chain -/

theorem Rep.pos (h : Rep cfg fat fcbs cad) {n : String} {i : ℕ} (hi : i ∈ cad n) : 0 < i := by
  cases hg : fcbs.get n with
  | none => rw [h.sinArchivo n hg] at hi; simp at hi
  | some fcb => exact (h.cadena n fcb hg).pos i hi

theorem Rep.ocupado (h : Rep cfg fat fcbs cad) {n : String} {i : ℕ} (hi : i ∈ cad n) :
    siguiente fat i ≠ 0 := by
  cases hg : fcbs.get n with
  | none => rw [h.sinArchivo n hg] at hi; simp at hi
  | some fcb => exact (h.cadena n fcb hg).ocupado hi

/-- The chain of one file may be replaced, as long as the blocks it gains were free, the blocks it
loses become free, and no entry outside the two chains changes. -/
theorem Rep.cambiar (h : Rep cfg fat fcbs cad) {fat' : List ℕ} {n : String} {fcb : Fcb} {c : List ℕ}
    (hlen : fat'.length = fat.length) (hc : EsCadena fat' fcb.bloqueInicial c)
    (hgana : ∀ i ∈ c, i ∉ cad n → siguiente fat i = 0)
    (hpierde : ∀ i ∈ cad n, i ∉ c → siguiente fat' i = 0)
    (hfuera : ∀ i, i ∉ cad n → i ∉ c → siguiente fat' i = siguiente fat i) :
    Rep cfg fat' (fcbs.put n fcb) (Function.update cad n c) := by
  -- the blocks of the other chains are neither gained nor lost
  have hajeno : ∀ m, m ≠ n → ∀ i ∈ cad m, i ∉ cad n ∧ i ∉ c := fun m hm i hi => by
    have hin : i ∉ cad n := fun hin => h.disjuntas m n hm i hi hin
    exact ⟨hin, fun hic => h.ocupado hi (hgana i hic hin)⟩
  refine ⟨⟨by rw [hlen, h.largo], ?_, ?_, ?_, ?_⟩, ?_⟩
  · rw [hfuera 0 (fun h0 => (h.pos h0).ne rfl) fun h0 => (hc.pos 0 h0).ne rfl, h.reservada]
  · intro m fcb' hm
    by_cases hmn : m = n
    · subst hmn
      obtain rfl : fcb = fcb' := by simpa using hm
      rwa [Function.update_self]
    · rw [Dict.get_put_of_ne _ hmn] at hm
      rw [Function.update_of_ne hmn]
      exact (h.cadena m fcb' hm).congr hlen fun i hi =>
        hfuera i (hajeno m hmn i hi).1 (hajeno m hmn i hi).2
  · intro m hm
    have hmn : m ≠ n := by rintro rfl; simp at hm
    rw [Function.update_of_ne hmn]
    exact h.sinArchivo m (by rwa [Dict.get_put_of_ne _ hmn] at hm)
  · intro m m' hmm i hi hi'
    by_cases hmn : m = n
    · subst hmn
      rw [Function.update_self] at hi
      rw [Function.update_of_ne hmm.symm] at hi'
      exact (hajeno m' hmm.symm i hi').2 hi
    · rw [Function.update_of_ne hmn] at hi
      by_cases hmn' : m' = n
      · subst hmn'
        rw [Function.update_self] at hi'
        exact (hajeno m hmm i hi).2 hi'
      · rw [Function.update_of_ne hmn'] at hi'
        exact h.disjuntas m m' hmm i hi hi'
  · intro i h0 hi
    by_cases hic : i ∈ c
    · exact ⟨n, by rwa [Function.update_self]⟩
    · have hin : i ∉ cad n := fun hin => hi (hpierde i hin hic)
      rw [hfuera i hin hic] at hi
      obtain ⟨m, hm⟩ := h.sinFugas i h0 hi
      have hmn : m ≠ n := by rintro rfl; exact hin hm
      exact ⟨m, by rwa [Function.update_of_ne hmn]⟩

/-! ### The requests -/

theorem rep_limpiarFat (cfg : FilesystemConfig) :
    Rep cfg (limpiarFat cfg) Dict.empty fun _ => [] := by
  have hpos := cantBloques_pos cfg
  refine ⟨⟨by simp [limpiarFat], ?_, by simp, by simp, by simp⟩, ?_⟩
  · exact siguiente_set_self (by simpa using hpos) _
  · intro i h0 hi
    rw [limpiarFat, siguiente_set_of_ne h0.ne'] at hi
    simp [siguiente, List.getD_eq_getElem?_getD, List.getElem?_replicate] at hi
    split_ifs at hi <;> simp at hi

/-- `crear_archivo` of a new name changes no chain. -/
theorem Rep.crear (h : Rep cfg fat fcbs cad) {n : String} (hn : fcbs.get n = none) :
    Rep cfg fat (fcbs.put n ⟨0, 0⟩) cad := by
  have hcad := h.sinArchivo n hn
  have h' : Rep cfg fat (fcbs.put n ⟨0, 0⟩) (Function.update cad n []) :=
    h.cambiar rfl (esCadena_nil fat) (by simp) (by simp [hcad]) fun _ _ _ => rfl
  rwa [← hcad, Function.update_eq_self] at h'

/-- Freeing blocks of a file leaves the beginning of its chain. -/
theorem Rep.encoger (h : Rep cfg fat fcbs cad) {n : String} {fcb : Fcb}
    (hn : fcbs.get n = some fcb) {k : ℕ} (hk : k ≤ (cad n).length) :
    ∃ b c e, liberarBloquesAsignados fcb fat k = some ({ fcb with bloqueInicial := b }, e) ∧
      c.length = (cad n).length - k ∧ c <+: cad n ∧
      ∀ t, Rep cfg e (fcbs.put n ⟨t, b⟩) (Function.update cad n c) := by
  have hcad := h.cadena n fcb hn
  obtain ⟨quedan, cortados, hqc, rfl⟩ : ∃ quedan cortados, cad n = quedan ++ cortados ∧
      cortados.length = k :=
    ⟨(cad n).take ((cad n).length - k), (cad n).drop _, (List.take_append_drop _ _).symm,
      by rw [List.length_drop]; omega⟩
  rw [hqc] at hcad
  obtain ⟨b, e, he, hl, hc, hcero, hfuera⟩ := liberarBloquesAsignados_spec hcad h.length_le rfl
  refine ⟨b, quedan, e, he, by rw [hqc, List.length_append]; omega, ⟨cortados, hqc.symm⟩,
    fun t => h.cambiar hl hc ?_ ?_ ?_⟩
  · intro i hi hin
    exact absurd (by rw [hqc]; exact List.mem_append_left _ hi) hin
  · intro i hi hin
    rw [hqc] at hi
    exact hcero i ((List.mem_append.mp hi).resolve_left hin)
  · intro i hin hi
    rw [hqc] at hin
    exact hfuera i hi fun hic => hin (List.mem_append_right _ hic)

/-- A file grows by free blocks, after the end of its chain. -/
theorem Rep.crecer (h : Rep cfg fat fcbs cad) {n : String} {fcb : Fcb}
    (hn : fcbs.get n = some fcb) {k : ℕ} (hk : 0 < k) (hlibres : k ≤ fat.count 0) :
    ∃ b c e, asignarBloquesNuevos fcb fat k = some ({ fcb with bloqueInicial := b }, e) ∧
      c.length = (cad n).length + k ∧ cad n <+: c ∧
      ∀ t, Rep cfg e (fcbs.put n ⟨t, b⟩) (Function.update cad n c) := by
  have hcad := h.cadena n fcb hn
  have hres : siguiente fat 0 ≠ 0 := by rw [h.reservada]; decide
  obtain ⟨b, nuevas, e, he, hnl, hlibre, hl, hc, hfuera⟩ :=
    asignarBloquesNuevos_spec hcad h.length_le hres rfl hk hlibres
  refine ⟨b, cad n ++ nuevas, e, he, by rw [List.length_append, hnl], ⟨nuevas, rfl⟩,
    fun t => h.cambiar hl hc ?_ ?_ ?_⟩
  · intro i hi hin
    exact hlibre i ((List.mem_append.mp hi).resolve_left hin)
  · intro i hi hin
    exact absurd (List.mem_append_left _ hi) hin
  · intro i hin hi
    exact hfuera i hin fun hic => hi (List.mem_append_right _ hic)

/-- Recording a size changes no chain. -/
theorem Rep.anotar (h : Rep cfg fat fcbs cad) {n : String} {fcb : Fcb}
    (hn : fcbs.get n = some fcb) (t : ℤ) :
    Rep cfg fat (fcbs.put n ⟨t, fcb.bloqueInicial⟩) cad := by
  have h' : Rep cfg fat (fcbs.put n ⟨t, fcb.bloqueInicial⟩) (Function.update cad n (cad n)) :=
    h.cambiar rfl (h.cadena n fcb hn) (fun i hi hin => absurd hi hin)
      (fun i hi hin => absurd hi hin) fun _ _ _ => rfl
  rwa [Function.update_eq_self] at h'

theorem Rep.obtenerCant (h : Rep cfg fat fcbs cad) {n : String} {fcb : Fcb}
    (hn : fcbs.get n = some fcb) :
    obtenerCantBloquesAsignados fcb fat = some (cad n).length := by
  rw [obtenerCantBloquesAsignados, (h.cadena n fcb hn).obtener h.length_le rfl]
  rfl

/-- **`truncar_archivo` changes the chain of its file only**: the chain becomes as long as the new
size needs, and one of the two chains, the old and the new, begins with the other. -/
theorem Rep.truncar {fs : Filesystem cfg} (h : Rep cfg fs.fat fs.fcbs cad) {n : String} {fcb : Fcb}
    (hn : fs.fcbs.get n = some fcb) {tamanio : ℤ} (h0 : 0 ≤ tamanio)
    (hf : FitsInt (tamanio + (cfg.tamBloque - 1)))
    (hlibres : bloquesPara cfg tamanio ≤ (cad n).length + fs.fat.count 0) :
    ∃ fat' b c, truncarArchivo fs n tamanio =
        some { fs with fat := fat', fcbs := fs.fcbs.put n ⟨tamanio, b⟩ } ∧
      c.length = bloquesPara cfg tamanio ∧ (c <+: cad n ∨ cad n <+: c) ∧
      Rep cfg fat' (fs.fcbs.put n ⟨tamanio, b⟩) (Function.update cad n c) := by
  rw [truncarArchivo, hn]
  simp only [Option.bind_eq_bind, Option.bind_some, h.obtenerCant hn, cantBloquesNuevos_eq h0 hf]
  rcases lt_trichotomy (bloquesPara cfg tamanio) (cad n).length with hlt | heq | hgt
  · -- the file shrinks: the end of its chain is cut off
    obtain ⟨b, c, e, he, hl, hpre, hrep⟩ :=
      h.encoger hn (k := (-((bloquesPara cfg tamanio : ℤ) - (cad n).length)).toNat) (by omega)
    refine ⟨e, b, c, ?_, by omega, Or.inl hpre, hrep tamanio⟩
    rw [if_neg (by omega), if_pos (by omega), he]
    rfl
  · -- the number of blocks stays the same
    refine ⟨fs.fat, fcb.bloqueInicial, cad n, ?_, heq.symm, Or.inl (List.prefix_refl _), ?_⟩
    · rw [if_pos (by omega)]
      rfl
    · rw [Function.update_eq_self]
      exact h.anotar hn tamanio
  · -- the file grows by free blocks
    obtain ⟨b, c, e, he, hl, hpre, hrep⟩ :=
      h.crecer hn (k := ((bloquesPara cfg tamanio : ℤ) - (cad n).length).toNat) (by omega)
        (by omega)
    refine ⟨e, b, c, ?_, by omega, Or.inr hpre, hrep tamanio⟩
    rw [if_neg (by omega), if_neg (by omega), he]
    rfl

end OperatingSystem.FileSystem.Invariante
