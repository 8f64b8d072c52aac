import OperatingSystem.FileSystem.Invariante

/-! # Reads and writes of a file

`escribir_archivo` and `leer_archivo` go to the block `puntero / TAM_BLOQUE` of the file, which they
look up with the counted walk. Where the chain has that block, the walk finds it
(`nroBloqueDe_dentro`); elsewhere, it finds no block of the file, if it comes back at all
(`nroBloqueDe_fuera`): nothing compares the pointer with the size of the file.

The main result `dentroDelArchivo_iff` is that an access stays inside the file exactly when the
chain has the block that is looked up. -/

namespace OperatingSystem.FileSystem.Acceso

open OperatingSystem.Lib.CInt OperatingSystem.Lib.Dictionary
open OperatingSystem.FileSystem.Fat OperatingSystem.FileSystem.Bloques
open OperatingSystem.FileSystem.Archivo OperatingSystem.FileSystem.Cadenas
open OperatingSystem.FileSystem.Invariante

variable {cfg : FilesystemConfig} {fat : List ℕ} {fcbs : Dict String Fcb} {cad : String → List ℕ}
  {n : String} {fcb : Fcb}

/-! ### The block an access goes to -/

/-- A block of a chain, counted from the end of the swap space, is inside `bloques.dat`. -/
theorem enBloques_cadena (h : BienFormada cfg fat fcbs cad) (hn : fcbs.get n = some fcb)
    {i : ℕ} (hi : i ∈ cad n) : EnBloques cfg ((cfg.cantBloquesSwap + i : ℕ) : ℤ) := by
  have hlt := (h.cadena n fcb hn).lt i hi
  have hswap := cfg.swap_lt
  rw [h.largo, FilesystemConfig.cantBloques] at hlt
  unfold EnBloques
  omega

/-- **Inside the chain** the access goes to the block of the chain at `puntero / TAM_BLOQUE`. -/
theorem nroBloqueDe_dentro (h : BienFormada cfg fat fcbs cad) (hn : fcbs.get n = some fcb)
    {puntero : ℤ} (h0 : 0 ≤ puntero.tdiv cfg.tamBloque) {i : ℕ}
    (hi : (cad n)[(puntero.tdiv cfg.tamBloque).toNat]? = some i) :
    nroBloqueDe cfg fcb fat puntero = some ((cfg.cantBloquesSwap + i : ℕ) : ℤ) := by
  have hcad := h.cadena n fcb hn
  have hlen := hcad.length_le h.length_le
  have hk := (List.getElem?_eq_some_iff.mp hi).1
  have hmem : i ∈ cad n := List.mem_of_getElem? hi
  have hfat := h.length_le
  have hsize : sizeT (puntero.tdiv cfg.tamBloque) = (puntero.tdiv cfg.tamBloque).toNat := by
    have := sizeT_of_fits h0 (by omega)
    omega
  have hlt := hcad.lt i hmem
  have htotal := cantBloquesTotal_le cfg
  have hin := (enBloques_cadena h hn hmem).2
  rw [nroBloqueDe, obtenerBloqueFatDeArchivo, hsize, hcad.avanzar h.length_le hk, hi]
  simp only [Option.bind_eq_bind, Option.bind_some, Option.pure_def, Option.some.injEq]
  rw [wrap32_nat (by omega), wrap32_of_fits ⟨by omega, by omega⟩]
  omega

/-- **Outside the chain** the access goes to no block of the file: it goes to the last swap block
from the terminator, to block `0` of the file area for an empty file, or off the table. -/
theorem nroBloqueDe_fuera (h : BienFormada cfg fat fcbs cad)
    (hn : fcbs.get n = some fcb) {puntero : ℤ} (hp : FitsInt puntero)
    (hk : ¬ (0 ≤ puntero.tdiv cfg.tamBloque ∧ puntero.tdiv cfg.tamBloque < (cad n).length)) {v : ℤ}
    (hv : nroBloqueDe cfg fcb fat puntero = some v) :
    v = (cfg.cantBloquesSwap : ℤ) - 1 ∨ v = cfg.cantBloquesSwap := by
  have hcad := h.cadena n fcb hn
  have hlen := hcad.length_le h.length_le
  have hfat := h.length_le
  have htotal := cantBloquesTotal_le cfg
  have hswap := cfg.swap_lt
  have hfin : wrap32 (wrap32 UINT32_MAX + cfg.cantBloquesSwap) = (cfg.cantBloquesSwap : ℤ) - 1 := by
    rw [wrap32_UINT32_MAX, wrap32_of_fits ⟨by omega, by omega⟩]
    omega
  -- a walk that leaves the chain holds the terminator, and goes on from there to `entradas[-1]`
  obtain ⟨m, hm⟩ : ∃ m, sizeT (puntero.tdiv cfg.tamBloque) = (cad n).length + m := by
    refine ⟨sizeT (puntero.tdiv cfg.tamBloque) - (cad n).length, ?_⟩
    have hq := fitsInt_tdiv hp cfg.tamBloque
    rcases lt_or_ge (puntero.tdiv cfg.tamBloque) 0 with hneg | hpos
    · have := sizeT_of_neg hneg hq
      omega
    · have := sizeT_of_fits hpos hq.2
      omega
  rw [nroBloqueDe, obtenerBloqueFatDeArchivo, hm, avanzarBloques_add] at hv
  by_cases hl : cad n = []
  · -- an empty file: block 0, its entry `UINT32_MAX`, and then `entradas[-1]`
    have hcero : ∀ k, avanzarBloques fat (k + 1) 0 = avanzarBloques fat k UINT32_MAX := fun k => by
      rw [avanzarBloques, wrap32_nat (show ((0 : ℕ) : ℤ) ≤ INT_MAX by decide),
        accesoFatGet_of_lt (by rw [h.largo]; exact cantBloques_pos cfg), h.reservada]
      rfl
    rw [hl, hcad.vacia hl] at hv
    rcases m with _ | _ | m
    · simp only [List.length_nil, avanzarBloques, Option.bind_some, Option.bind_eq_bind,
        Option.pure_def, Option.some.injEq] at hv
      right
      rw [← hv, wrap32_nat (show ((0 : ℕ) : ℤ) ≤ INT_MAX by decide),
        wrap32_of_fits ⟨by omega, by omega⟩]
      omega
    · left
      rw [List.length_nil, avanzarBloques, Option.bind_some, hcero] at hv
      rw [← hfin]
      simpa [avanzarBloques] using hv.symm
    · rw [List.length_nil, avanzarBloques, Option.bind_some, hcero] at hv
      simp [avanzarBloques_max] at hv
  · rw [hcad.avanzar_end h.length_le hl] at hv
    cases m with
    | zero =>
      left
      rw [← hfin]
      simpa [avanzarBloques] using hv.symm
    | succ m =>
      rw [Option.bind_some, avanzarBloques_max] at hv
      simp at hv

/-! ### Accesses that stay inside the file -/

/-- The block `nro` of `bloques.dat` is on the chain of the file. -/
def EsPropio (cfg : FilesystemConfig) (fat : List ℕ) (fcb : Fcb) (nro : ℕ) : Prop :=
  ∃ l, obtenerBloquesFatAsignados fcb fat = some l ∧ ∃ i ∈ l, nro = cfg.cantBloquesSwap + i

/-- The same files on a disk that holds something else. -/
def conDisco (fs : Filesystem cfg) (bloques : BloquesDat cfg.tamBloque) : Filesystem cfg :=
  { fs with bloques := bloques }

/-- **The accesses at `puntero` stay inside the file**: whatever `bloques.dat` holds, a write goes
through and modifies no block but those of the file, and a read returns one of them. -/
structure DentroDelArchivo (fs : Filesystem cfg) (nombre : String) (fcb : Fcb) (puntero : ℤ) :
    Prop where
  escribir : ∀ bloques data, ∃ fs',
    escribirArchivo (conDisco fs bloques) nombre puntero data = some fs' ∧
      ∀ nro, ¬ EsPropio cfg fs.fat fcb nro → fs'.bloques nro = bloques nro
  leer : ∃ nro, EsPropio cfg fs.fat fcb nro ∧ ∀ bloques,
    leerArchivo (conDisco fs bloques) nombre puntero = some (bloques nro)

/-- A block of the chain belongs to the file. -/
theorem esPropio_cadena (h : BienFormada cfg fat fcbs cad) (hn : fcbs.get n = some fcb) {i : ℕ}
    (hi : i ∈ cad n) : EsPropio cfg fat fcb (cfg.cantBloquesSwap + i) :=
  ⟨cad n, (h.cadena n fcb hn).obtener h.length_le rfl, i, hi, rfl⟩

theorem escribirArchivo_dentro {fs : Filesystem cfg} (h : BienFormada cfg fs.fat fs.fcbs cad)
    (hn : fs.fcbs.get n = some fcb) {puntero : ℤ} (h0 : 0 ≤ puntero.tdiv cfg.tamBloque) {i : ℕ}
    (hi : (cad n)[(puntero.tdiv cfg.tamBloque).toNat]? = some i) (data : Bloque cfg.tamBloque) :
    escribirArchivo fs n puntero data =
      some { fs with bloques := Function.update fs.bloques (cfg.cantBloquesSwap + i) data } := by
  have hmem : i ∈ cad n := List.mem_of_getElem? hi
  rw [escribirArchivo, hn]
  simp only [Option.bind_eq_bind, Option.bind_some, nroBloqueDe_dentro h hn h0 hi, escribirBloque,
    if_pos (enBloques_cadena h hn hmem), Int.toNat_natCast]
  rfl

theorem leerArchivo_dentro {fs : Filesystem cfg} (h : BienFormada cfg fs.fat fs.fcbs cad)
    (hn : fs.fcbs.get n = some fcb) {puntero : ℤ} (h0 : 0 ≤ puntero.tdiv cfg.tamBloque) {i : ℕ}
    (hi : (cad n)[(puntero.tdiv cfg.tamBloque).toNat]? = some i) :
    leerArchivo fs n puntero = some (fs.bloques (cfg.cantBloquesSwap + i)) := by
  have hmem : i ∈ cad n := List.mem_of_getElem? hi
  rw [leerArchivo, hn]
  simp only [Option.bind_eq_bind, Option.bind_some, nroBloqueDe_dentro h hn h0 hi, leerBloque,
    if_pos (enBloques_cadena h hn hmem), Int.toNat_natCast]

/-- **File accesses.** With a well-formed table, the accesses at `puntero` stay inside the file
exactly when its chain has the block `puntero / TAM_BLOQUE`. -/
theorem dentroDelArchivo_iff {fs : Filesystem cfg} (h : BienFormada cfg fs.fat fs.fcbs cad)
    (hn : fs.fcbs.get n = some fcb) {puntero : ℤ} (hp : FitsInt puntero) :
    DentroDelArchivo fs n fcb puntero ↔
      0 ≤ puntero.tdiv cfg.tamBloque ∧ puntero.tdiv cfg.tamBloque < (cad n).length := by
  constructor
  · rintro ⟨-, nro, ⟨l, hl, i, hi, rfl⟩, hleer⟩
    by_contra hk
    obtain rfl : cad n = l := by
      rw [(h.cadena n fcb hn).obtener h.length_le rfl] at hl
      exact Option.some.inj hl
    have hpos := (h.cadena n fcb hn).pos i hi
    -- a disk on which the block of the file differs from every other one
    have hr := hleer fun k _ => if k = cfg.cantBloquesSwap + i then 1 else 0
    simp only [leerArchivo, conDisco, hn, Option.bind_eq_bind, Option.bind_some,
      Option.bind_eq_some_iff] at hr
    obtain ⟨v, hv, hr⟩ := hr
    have hne : v.toNat ≠ cfg.cantBloquesSwap + i := by
      rcases nroBloqueDe_fuera h hn hp hk hv with rfl | rfl <;> omega
    by_cases hin : EnBloques cfg v
    · rw [leerBloque, if_pos hin, if_neg hne, if_pos trivial] at hr
      exact absurd (congrFun (Option.some.inj hr) ⟨0, cfg.tam_pos⟩) (by decide)
    · rw [leerBloque, if_neg hin] at hr
      simp at hr
  · rintro ⟨h0, hlt⟩
    have hk : (puntero.tdiv cfg.tamBloque).toNat < (cad n).length := by omega
    have hi := List.getElem?_eq_getElem hk
    have hprop := esPropio_cadena h hn (List.getElem_mem hk)
    have hd : ∀ bloques, BienFormada cfg (conDisco fs bloques).fat (conDisco fs bloques).fcbs cad :=
      fun _ => h
    refine ⟨fun bloques data => ?_, _, hprop, fun bloques => leerArchivo_dentro (hd bloques) hn h0 hi⟩
    refine ⟨_, escribirArchivo_dentro (hd bloques) hn h0 hi data, fun nro hnro => ?_⟩
    exact Function.update_of_ne (fun he => hnro (by rw [he]; exact hprop)) _ _

/-! ### One position past the end -/

/-- A file of one block, the block `1` of the table, on a disk of zeros. -/
def unArchivo : Filesystem cfgChica where
  fat := [UINT32_MAX, UINT32_MAX, 0, 0, 0, 0, 0, 0]
  fcbs := Dict.empty.put "a" ⟨16, 1⟩
  bloques := fun _ _ => 0
  bitarray := inicializarSwap cfgChica

theorem bienFormada_unArchivo :
    BienFormada cfgChica unArchivo.fat unArchivo.fcbs fun n => if n = "a" then [1] else [] := by
  refine ⟨by decide, by decide, fun n fcb hn => ?_, fun n hn => ?_, fun n m hnm i hi hi' => ?_⟩
  · by_cases ha : n = "a"
    · subst ha
      obtain rfl : ⟨16, 1⟩ = fcb := by simpa [unArchivo] using hn
      exact ⟨by decide, by decide, by decide, fun _ => ⟨rfl, rfl⟩⟩
    · simp [unArchivo, ha] at hn
  · by_cases ha : n = "a"
    · simp [unArchivo, ha] at hn
    · simp [ha]
  · by_cases ha : n = "a" <;> by_cases hb : m = "a" <;> simp_all

/-- The block `1` is the only one of the file. -/
theorem esPropio_unArchivo {nro : ℕ} (h : EsPropio cfgChica unArchivo.fat ⟨16, 1⟩ nro) : nro = 9 := by
  obtain ⟨l, hl, i, hi, rfl⟩ := h
  obtain rfl : [1] = l := Option.some.inj ((show _ = some [1] by decide).symm.trans hl)
  obtain rfl : i = 1 := by simpa using hi
  rfl

/-- The accesses inside the file, at its only block. -/
theorem dentroDelArchivo_unArchivo : DentroDelArchivo unArchivo "a" ⟨16, 1⟩ 15 :=
  (dentroDelArchivo_iff bienFormada_unArchivo rfl (by decide)).mpr (by decide)

/-- **The accesses leave the file.** `F_WRITE` at the size of the file, one position past its last,
overwrites the last block of swap space. -/
theorem escribirArchivo_pisa_swap :
    BienFormada cfgChica unArchivo.fat unArchivo.fcbs (fun n => if n = "a" then [1] else []) ∧
      ¬ DentroDelArchivo unArchivo "a" ⟨16, 1⟩ 16 ∧
      ∃ fs', escribirArchivo unArchivo "a" 16 (fun _ => 255) = some fs' ∧
        ∀ j, fs'.bloques 7 j = 255 ∧ unArchivo.bloques 7 j = 0 := by
  refine ⟨bienFormada_unArchivo, fun h => ?_, _, rfl, fun j => ⟨rfl, rfl⟩⟩
  obtain ⟨fs', hfs, hfuera⟩ := h.escribir (fun _ _ => 0) fun _ => 255
  obtain rfl := Option.some.inj hfs
  have h7 := hfuera 7 fun hp => absurd (esPropio_unArchivo hp) (by decide)
  exact absurd (congrFun h7 ⟨0, by decide⟩) (by decide)

end OperatingSystem.FileSystem.Acceso
