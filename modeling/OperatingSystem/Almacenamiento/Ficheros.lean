import OperatingSystem.Almacenamiento.Modulos

/-! # The files of the processes on the chains of the table

`Guardados fs archivos`: the files are the blocks of the chains. Each function of `archivo.c` keeps it,
with the files changed as `Hace` says: `guardados_crear`, `guardados_truncar`, `guardados_escribir` and
`guardados_leer`. None of them touches a swap block. -/

namespace OperatingSystem.Almacenamiento.Ficheros

open OperatingSystem.Lib.Dictionary OperatingSystem.Lib.Lists
open OperatingSystem.FileSystem.Fat OperatingSystem.FileSystem.Bloques
open OperatingSystem.FileSystem.Archivo (Filesystem abrirArchivo crearArchivo truncarArchivo
  escribirArchivo leerArchivo servir)
open OperatingSystem.FileSystem.Invariante OperatingSystem.FileSystem.Corridas
open OperatingSystem.Almacenamiento.Vista
open OperatingSystem.Almacenamiento.Modulos (Guardados Archivo)

variable {cfg : FilesystemConfig} {fs : Filesystem cfg}
  {archivos : String → Option (Archivo cfg.tamBloque)} {n : String} {puntero : ℤ}

/-- The swap blocks and their bitmap are as they were. -/
structure SoloArchivos (fs fs' : Filesystem cfg) : Prop where
  bitarray : fs'.bitarray = fs.bitarray
  bloques : ∀ b < cfg.cantBloquesSwap, fs'.bloques b = fs.bloques b

theorem guardados_of_soloPaginas {fs' : Filesystem cfg} (hg : Guardados fs archivos)
    (hs : SoloPaginas fs fs') : Guardados fs' archivos := by
  obtain ⟨cad, hrep, has⟩ := hg
  refine ⟨cad, by rw [hs.fat, hs.fcbs]; exact hrep, fun m => ?_⟩
  rw [has, hs.fcbs]
  simp only [hs.bloques]

theorem guardados_abrir (hg : Guardados fs archivos) :
    abrirArchivo fs n = (archivos n).elim (-1) Archivo.tamanio := by
  obtain ⟨cad, -, has⟩ := hg
  rw [has, abrirArchivo]
  cases fs.fcbs.get n <;> rfl

theorem guardados_crear (hg : Guardados fs archivos) (hn : fs.fcbs.get n = none) :
    archivos n = none ∧
      Guardados (crearArchivo fs n) (Function.update archivos n (some ⟨0, []⟩)) := by
  obtain ⟨cad, hrep, has⟩ := hg
  refine ⟨by rw [has, hn]; rfl, cad, hrep.crear hn, fun m => ?_⟩
  by_cases hm : m = n
  · subst hm
    have hget : (crearArchivo fs m).fcbs.get m = some ⟨0, 0⟩ := Dict.get_put_self ..
    rw [Function.update_self, hget, hrep.sinArchivo m hn]
    rfl
  · have hget : (crearArchivo fs n).fcbs.get m = fs.fcbs.get m := Dict.get_put_of_ne _ hm _
    rw [Function.update_of_ne hm, hget, has]
    rfl

/-- **A truncation** keeps the blocks that the new size needs. -/
theorem guardados_truncar {k : ℤ} (hg : Guardados fs archivos) (hp : Admisible fs (.truncar n k)) :
    ∃ fs' f bs, truncarArchivo fs n k = some fs' ∧ archivos n = some f ∧
      (f.bloques.take (bloquesPara cfg k) ++ bs).length = bloquesPara cfg k ∧
      Guardados fs' (Function.update archivos n
        (some ⟨k, f.bloques.take (bloquesPara cfg k) ++ bs⟩)) ∧ SoloArchivos fs fs' := by
  obtain ⟨cad, hrep, has⟩ := hg
  obtain ⟨fcb, hn⟩ : ∃ fcb, fs.fcbs.get n = some fcb := ⟨_, hp.choose_spec.choose_spec.1⟩
  obtain ⟨fs₁, r, cad', hserv, hrep', -, fat', b, c, rfl, hlen, hpre, rfl⟩ := servir_efecto hrep hp
  obtain ⟨fs₂, htr, hfs⟩ := Option.map_eq_some_iff.mp hserv
  obtain rfl := (Prod.mk.inj hfs).1
  set bloque : ℕ → Bloque cfg.tamBloque := fun i => fs.bloques (cfg.cantBloquesSwap + i)
  -- the new chain is the beginning of the old one, or goes on after it
  obtain ⟨e, he⟩ : ∃ e, c = (cad n).take (bloquesPara cfg k) ++ e := by
    rcases hpre with ⟨e, he⟩ | ⟨e, he⟩
    · exact ⟨[], by rw [← he, ← hlen, List.take_left, List.append_nil]⟩
    · refine ⟨e, ?_⟩
      rw [List.take_of_length_le (by rw [← hlen, ← he]; simp), he]
  have hbloques : ((cad n).map bloque).take (bloquesPara cfg k) ++ e.map bloque = c.map bloque := by
    rw [← List.map_take, ← List.map_append, ← he]
  refine ⟨_, _, e.map bloque, htr, by rw [has, hn]; rfl, ?_, ⟨_, hrep', fun m => ?_⟩, rfl,
    fun _ _ => rfl⟩
  · rw [hbloques, List.length_map, hlen]
  · by_cases hm : m = n
    · subst hm
      rw [Function.update_self, Function.update_self, Dict.get_put_self, hbloques]
      rfl
    · rw [Function.update_of_ne hm, Function.update_of_ne hm, Dict.get_put_of_ne _ hm, has]

/-- **A write** changes one block of its file. -/
theorem guardados_escribir (hg : Guardados fs archivos) (hp : EnArchivo fs n puntero)
    (data : Bloque cfg.tamBloque) : ∃ fs' f, escribirArchivo fs n puntero data = some fs' ∧
      archivos n = some f ∧ puntero.toNat / cfg.tamBloque < f.bloques.length ∧
      Guardados fs' (Function.update archivos n
        (some ⟨f.tamanio, f.bloques.set (puntero.toNat / cfg.tamBloque) data⟩)) ∧
      SoloArchivos fs fs' := by
  obtain ⟨cad, hrep, has⟩ := hg
  have hp' : Admisible fs (.escribir n puntero data) := hp
  obtain ⟨fcb, i, hn, -, -, hi⟩ := enArchivo_cadena hrep hp
  obtain ⟨fs₁, r, cad', hserv, hrep', -, rfl, j, hj, rfl⟩ := servir_efecto hrep hp'
  obtain rfl := Option.some.inj (hj.symm.trans hi)
  obtain ⟨fs₂, hes, hfs⟩ := Option.map_eq_some_iff.mp hserv
  obtain rfl := (Prod.mk.inj hfs).1
  obtain ⟨hlt, hget⟩ := List.getElem?_eq_some_iff.mp hi
  have hin : j ∈ cad' n := List.mem_of_getElem? hi
  -- the blocks by their entries in the table
  have hact : (fun l => Function.update fs.bloques (cfg.cantBloquesSwap + j) data
      (cfg.cantBloquesSwap + l)) =
        Function.update (fun l => fs.bloques (cfg.cantBloquesSwap + l)) j data := by
    funext l
    by_cases hlj : l = j
    · rw [hlj, Function.update_self, Function.update_self]
    · rw [Function.update_of_ne hlj, Function.update_of_ne (by omega)]
  refine ⟨_, _, hes, by rw [has, hn]; rfl, by rw [List.length_map]; exact hlt,
    ⟨cad', hrep', fun m => ?_⟩, rfl, fun b hb => Function.update_of_ne (by omega) _ _⟩
  by_cases hm : m = n
  · subst hm
    have hnd := (hrep.cadena m fcb hn).nodup hrep.length_le
    simp only [Function.update_self, hn, Option.map_some, hact, map_update hnd hi]
  · rw [Function.update_of_ne hm, has]
    have hcad : ∀ l ∈ cad' m, Function.update (fun l => fs.bloques (cfg.cantBloquesSwap + l)) j data l =
        fs.bloques (cfg.cantBloquesSwap + l) := fun l hl => by
      have hlj : l ≠ j := fun h => hrep.disjuntas m n hm l hl (h ▸ hin)
      exact Function.update_of_ne hlj _ _
    simp only [hact, List.map_congr_left hcad]

/-- **A read** finds the block. -/
theorem guardados_leer (hg : Guardados fs archivos) (hp : EnArchivo fs n puntero) :
    ∃ f b, leerArchivo fs n puntero = some b ∧ archivos n = some f ∧
      f.bloques[puntero.toNat / cfg.tamBloque]? = some b := by
  obtain ⟨cad, hrep, has⟩ := hg
  have hp' : Admisible fs (.leer n puntero) := hp
  obtain ⟨fcb, i, hn, -, -, hi⟩ := enArchivo_cadena hrep hp
  obtain ⟨fs₁, r, cad', hserv, -, rfl, rfl, j, hj, rfl⟩ := servir_efecto hrep hp'
  obtain ⟨b, hle, hfs⟩ := Option.map_eq_some_iff.mp hserv
  obtain rfl := Option.some.inj (Prod.mk.inj hfs).2
  refine ⟨_, _, hle, by rw [has, hn]; rfl, ?_⟩
  rw [List.getElem?_map, hj, Option.map_some]

theorem guardados_inicial (bloques : BloquesDat cfg.tamBloque) :
    Guardados (FileSystem.Archivo.inicial cfg bloques) fun _ => none :=
  ⟨_, rep_limpiarFat cfg, fun _ => rfl⟩

end OperatingSystem.Almacenamiento.Ficheros
