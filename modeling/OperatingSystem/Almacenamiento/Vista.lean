import OperatingSystem.Almacenamiento.Intercambio

/-! # The handler on the pages that are on disk

The functions of the handler (`HandlerPaginacion`), with what the blocks hold for their swap space, are
the ones that send packets to the file system: `removerPaginaMemoria_eq`, `alojar_eq` and
`cargarEnMemoria_eq`. These change swap blocks only (`SoloPaginas`), and no page changes its position
(`MismasPosiciones`). `swapNewProcess_spec` and `swapEndProcess_spec` are what the file system does for a
new process and for one that ends. -/

namespace OperatingSystem.Almacenamiento.Vista

open OperatingSystem.Lib.Bytes OperatingSystem.Lib.Dictionary
open OperatingSystem.FileSystem.Fat OperatingSystem.FileSystem.Bloques
open OperatingSystem.FileSystem.Archivo OperatingSystem.FileSystem.Swap
open OperatingSystem.Memoria OperatingSystem.Memoria.Paginas
open OperatingSystem.Memoria.HandlerPaginacion (Handler TipoOperacion Puntero setTabla setEspacio
  paginaAReemplazar leerValorPagina escribirValorPagina deref)
open OperatingSystem.Memoria.Lugares OperatingSystem.Almacenamiento.Intercambio

variable {cfg : FilesystemConfig}

/-- Only swap blocks changed. -/
structure SoloPaginas (fs fs' : Filesystem cfg) : Prop where
  fat : fs'.fat = fs.fat
  fcbs : fs'.fcbs = fs.fcbs
  bitarray : fs'.bitarray = fs.bitarray
  bloques : ∀ i, fs'.bloques (cfg.cantBloquesSwap + i) = fs.bloques (cfg.cantBloquesSwap + i)

/-- The pages kept their size and their positions. -/
structure MismasPosiciones (h h' : Handler) : Prop where
  tamanioPagina : h'.tamanioPagina = h.tamanioPagina
  posiciones : posiciones h' = posiciones h

variable {h h' : Handler} {fs fs' : Filesystem cfg} {p : ℤ} {nro : ℕ} {tabla : TablaPaginas}
  {pag pag' : Pagina}

theorem SoloPaginas.refl (fs : Filesystem cfg) : SoloPaginas fs fs := ⟨rfl, rfl, rfl, fun _ => rfl⟩

theorem MismasPosiciones.refl (h : Handler) : MismasPosiciones h h := ⟨rfl, rfl⟩

theorem MismasPosiciones.trans {h'' : Handler} (hm : MismasPosiciones h h')
    (hm' : MismasPosiciones h' h'') : MismasPosiciones h h'' :=
  ⟨hm'.tamanioPagina.trans hm.tamanioPagina, hm'.posiciones.trans hm.posiciones⟩

theorem MismasPosiciones.medidas (hp : MismasPosiciones h h') (hm : Medidas cfg h) : Medidas cfg h' :=
  ⟨hp.tamanioPagina.trans hm.pagina, hm.palabras⟩

theorem MismasPosiciones.enSwap (hp : MismasPosiciones h h') (hs : EnSwap cfg h) : EnSwap cfg h' := by
  rw [EnSwap, hp.posiciones]
  exact hs

/-- An assignment to a page that keeps its position. -/
theorem mismasPosiciones_setTabla (ht : h.pidTablas.get p = some tabla)
    (hi : tabla.paginas[nro]? = some pag) (hpos : pag'.posSwap = pag.posSwap) :
    MismasPosiciones h (setTabla h p { tabla with paginas := tabla.paginas.set nro pag' }) := by
  refine ⟨rfl, (Dict.map_put ..).trans (Dict.put_of_get ?_)⟩
  obtain ⟨hlt, hget⟩ := List.getElem?_eq_some_iff.mp hi
  have hset : (tabla.paginas.map (·.posSwap)).set nro pag'.posSwap =
      tabla.paginas.map (·.posSwap) := by
    rw [hpos, ← hget]
    exact List.ext_getElem (by simp) fun k _ _ => by grind
  rw [Dict.get_map, ht, Option.map_some, List.map_set, hset]

theorem posicion_de_pagina (ht : h.pidTablas.get p = some tabla) (hi : tabla.paginas[nro]? = some pag)
    (hs : EnSwap cfg h) : EsPosicion cfg pag.posSwap :=
  hs p _ (by rw [posiciones, Dict.get_map, ht, Option.map_some]) _
    (List.mem_map_of_mem (List.mem_of_getElem? hi))

/-! ### The same functions on the view -/

theorem servirSwapOut_eq {b : ℕ} (hb : b < cfg.cantBloquesSwap) (m : Mem) (a : ℕ) :
    servirSwapOut fs (b * cfg.tamBloque : ℤ) (leerBytes m a cfg.tamBloque) = some { fs with
      bloques := Function.update fs.bloques b (bloqueEn cfg.tamBloque m a) } := by
  have hin : EnBloques cfg (b : ℤ) := by
    have := cfg.swap_lt
    unfold EnBloques
    omega
  rw [servirSwapOut, bloqueDe_leerBytes, posicion_tdiv]
  simp only [Option.bind_eq_bind, Option.bind_some, escribirBloque, if_pos hin, Option.pure_def,
    Int.toNat_natCast]

theorem servirSwapIn_eq {b : ℕ} (hb : b < cfg.cantBloquesSwap) :
    servirSwapIn fs (b * cfg.tamBloque : ℤ) = some (List.ofFn (fs.bloques b)) := by
  have hin : EnBloques cfg (b : ℤ) := by
    have := cfg.swap_lt
    unfold EnBloques
    omega
  rw [servirSwapIn, posicion_tdiv, leerBloque, if_pos hin]
  rfl

theorem conSwap_swap (h : Handler) (swap : ℤ → Mem) : (conSwap h swap).swap = swap := rfl

theorem conSwap_pidTablas (h : Handler) (swap : ℤ → Mem) :
    (conSwap h swap).pidTablas = h.pidTablas := rfl

theorem conSwap_tamanioPagina (h : Handler) (swap : ℤ → Mem) :
    (conSwap h swap).tamanioPagina = h.tamanioPagina := rfl

/-- A page that goes out is on disk. -/
theorem swapOut_eq (hm : Medidas cfg h) (ht : h.pidTablas.get p = some tabla) (hs : EnSwap cfg h) :
    HandlerPaginacion.swapOut (conSwap h (enDisco cfg fs.bloques)) tabla nro =
      (swapOut h fs tabla nro).map fun fs' => conSwap h (enDisco cfg fs'.bloques) := by
  cases hi : tabla.paginas[nro]? with
  | none => rw [HandlerPaginacion.swapOut, swapOut, hi]; rfl
  | some pag =>
    obtain ⟨b, hb, hpos⟩ := posicion_de_pagina ht hi hs
    have h4 : cfg.tamBloque % 4 = 0 := Nat.mod_eq_zero_of_dvd hm.palabras
    rw [HandlerPaginacion.swapOut, swapOut, hi]
    simp only [conSwap, leerValorPagina, hm.pagina, h4, hpos, if_true, Option.bind_eq_bind,
      Option.bind_some, empaquetar_leerPalabras hm.palabras, servirSwapOut_eq hb, Option.map_some,
      Option.pure_def, enDisco_update hb, enDisco_posicion hb, escribirPalabras_memDe hm.palabras]

/-- A page that comes in was on disk. -/
theorem swapIn_eq {frame : ℕ} {ahora : ℤ} (hm : Medidas cfg h) (hs : EnSwap cfg h) :
    HandlerPaginacion.swapIn (conSwap h (enDisco cfg fs.bloques)) p nro frame ahora =
      (swapIn h fs p nro frame ahora).map fun h' => conSwap h' (enDisco cfg fs.bloques) := by
  cases ht : h.pidTablas.get p with
  | none =>
    rw [HandlerPaginacion.swapIn, swapIn, conSwap_pidTablas, ht]
    rfl
  | some tabla =>
    rw [HandlerPaginacion.swapIn, swapIn, conSwap_pidTablas, ht]
    cases hi : tabla.paginas[nro]? with
    | none => simp [hi]
    | some pag =>
      obtain ⟨b, hb, hpos⟩ := posicion_de_pagina ht hi hs
      simp only [hi, hpos, hm.pagina, Option.bind_eq_bind, Option.bind_some, servirSwapIn_eq hb,
        desempaquetar_ofFn, conSwap_swap, conSwap_tamanioPagina, enDisco_posicion hb]
      cases cargarPaginaEnMemoria tabla nro frame ahora <;> rfl

/-- The page that has to go. -/
theorem removerPaginaMemoria_eq {orden : List ℤ} (hm : Medidas cfg h) (hs : EnSwap cfg h) :
    HandlerPaginacion.removerPaginaMemoria (conSwap h (enDisco cfg fs.bloques)) orden =
      (removerPaginaMemoria h fs orden).map fun r =>
        (r.1, conSwap r.2.1 (enDisco cfg r.2.2.bloques)) := by
  have hv : paginaAReemplazar (conSwap h (enDisco cfg fs.bloques)) orden =
      paginaAReemplazar h orden := rfl
  rw [HandlerPaginacion.removerPaginaMemoria, removerPaginaMemoria, hv]
  rcases paginaAReemplazar h orden with _ | _ | pag
  · rfl
  · rfl
  simp only [Option.bind_eq_bind, Option.bind_some, conSwap_pidTablas]
  by_cases hmod : pag.bitModificado = 1
  swap
  · rw [if_neg hmod, if_neg hmod]
    rfl
  rw [if_pos hmod, if_pos hmod]
  cases ht : h.pidTablas.get pag.pid with
  | none => rfl
  | some tabla =>
    simp only [Option.bind_some]
    cases ht' : tablaRemoverPaginaDeMemoria tabla pag.nroPagina with
    | none => rfl
    | some tabla' =>
      obtain ⟨pag₁, hi, rfl⟩ := modificar_eq_some.mp ht'
      set tabla' : TablaPaginas :=
        { tabla with paginas := tabla.paginas.set pag.nroPagina pag₁.removida }
      have hp : MismasPosiciones h (setTabla h pag.pid tabla') := mismasPosiciones_setTabla ht hi rfl
      have ht' : (setTabla h pag.pid tabla').pidTablas.get pag.pid = some tabla' :=
        Dict.get_put_self ..
      simp only [Option.bind_some]
      change (HandlerPaginacion.swapOut (conSwap (setTabla h pag.pid tabla') (enDisco cfg fs.bloques))
        tabla' pag.nroPagina).bind _ = _
      rw [swapOut_eq (hp.medidas hm) ht' (hp.enSwap hs)]
      cases swapOut (setTabla h pag.pid tabla') fs tabla' pag.nroPagina <;> rfl

/-- A page that comes in. -/
theorem alojar_eq {frame : ℕ} {ahora : ℤ} (hm : Medidas cfg h) (hs : EnSwap cfg h) :
    HandlerPaginacion.alojar (conSwap h (enDisco cfg fs.bloques)) p nro frame ahora =
      (alojar h fs p nro frame ahora).map fun r => (r.1, conSwap r.2 (enDisco cfg fs.bloques)) := by
  set h₁ := setEspacio h (marcarFrameOcupado h.espacioUsuario frame) with hh₁
  have hm₁ : Medidas cfg h₁ := ⟨hm.pagina, hm.palabras⟩
  have hs₁ : EnSwap cfg h₁ := hs
  change (HandlerPaginacion.swapIn (conSwap h₁ (enDisco cfg fs.bloques)) p nro frame ahora).bind _ = _
  rw [swapIn_eq hm₁ hs₁, alojar, ← hh₁]
  cases swapIn h₁ fs p nro frame ahora <;> rfl

/-! ### What the requests change -/

theorem swapOut_resto (ht : h.pidTablas.get p = some tabla) (hs : EnSwap cfg h)
    (hr : swapOut h fs tabla nro = some fs') : SoloPaginas fs fs' := by
  obtain ⟨pag, hi, hr⟩ := Option.bind_eq_some_iff.mp hr
  obtain ⟨payload, -, hr⟩ := Option.bind_eq_some_iff.mp hr
  obtain ⟨data, -, hr⟩ := Option.bind_eq_some_iff.mp hr
  obtain ⟨bloques, hb, hr⟩ := Option.bind_eq_some_iff.mp hr
  obtain rfl := Option.some.inj hr
  obtain ⟨b, hlt, hpos⟩ := posicion_de_pagina ht hi hs
  rw [hpos, posicion_tdiv, escribirBloque] at hb
  split_ifs at hb
  obtain rfl := Option.some.inj hb
  refine ⟨rfl, rfl, rfl, fun i => Function.update_of_ne ?_ _ _⟩
  rw [Int.toNat_natCast]
  omega

theorem removerPaginaMemoria_resto {orden : List ℤ} {v : Option Pagina} (hs : EnSwap cfg h)
    (hr : removerPaginaMemoria h fs orden = some (v, h', fs')) :
    MismasPosiciones h h' ∧ SoloPaginas fs fs' := by
  obtain ⟨v₁, -, hr⟩ := Option.bind_eq_some_iff.mp hr
  cases v₁ with
  | none =>
    cases hr
    exact ⟨.refl h, .refl fs⟩
  | some pag =>
    simp only at hr
    split_ifs at hr
    · obtain ⟨tabla, ht, hr⟩ := Option.bind_eq_some_iff.mp hr
      obtain ⟨tabla', ht', hr⟩ := Option.bind_eq_some_iff.mp hr
      obtain ⟨fs₁, hout, hr⟩ := Option.bind_eq_some_iff.mp hr
      obtain ⟨pag₁, hi, rfl⟩ := modificar_eq_some.mp ht'
      cases hr
      have hp : MismasPosiciones h (setTabla h pag.pid { tabla with
          paginas := tabla.paginas.set pag.nroPagina pag₁.removida }) :=
        mismasPosiciones_setTabla ht hi rfl
      exact ⟨hp, swapOut_resto (Dict.get_put_self ..) (hp.enSwap hs) hout⟩
    · cases hr
      exact ⟨.refl h, .refl fs⟩

theorem alojar_resto {frame : ℕ} {ahora : ℤ} {v : Option ℕ}
    (hr : alojar h fs p nro frame ahora = some (v, h')) : MismasPosiciones h h' := by
  obtain ⟨h₁, hin, hr⟩ := Option.bind_eq_some_iff.mp hr
  obtain ⟨tabla, ht, hin⟩ := Option.bind_eq_some_iff.mp hin
  obtain ⟨pag, hi, hin⟩ := Option.bind_eq_some_iff.mp hin
  obtain ⟨payload, -, hin⟩ := Option.bind_eq_some_iff.mp hin
  obtain ⟨data, -, hin⟩ := Option.bind_eq_some_iff.mp hin
  obtain ⟨tabla', ht', hin⟩ := Option.bind_eq_some_iff.mp hin
  obtain ⟨pag₁, hi₁, rfl⟩ := modificar_eq_some.mp ht'
  cases hin
  cases hr
  have hp : MismasPosiciones (setEspacio h (marcarFrameOcupado h.espacioUsuario frame))
      (setTabla (setEspacio h (marcarFrameOcupado h.espacioUsuario frame)) p { tabla with
        paginas := tabla.paginas.set nro (pag₁.cargada frame ahora) }) :=
    mismasPosiciones_setTabla ht hi₁ rfl
  exact ⟨hp.tamanioPagina, hp.posiciones⟩

/-- **A load** on the view. -/
theorem cargarEnMemoria_eq {ahora : ℤ} {orden : List ℤ} (hm : Medidas cfg h) (hs : EnSwap cfg h) :
    HandlerPaginacion.cargarEnMemoria (conSwap h (enDisco cfg fs.bloques)) p nro ahora orden =
      (cargarEnMemoria h fs p nro ahora orden).map fun r =>
        (r.1, conSwap r.2.1 (enDisco cfg r.2.2.bloques)) := by
  have hbloq : (conSwap h (enDisco cfg fs.bloques)).operacionesBloqueantes =
      h.operacionesBloqueantes := rfl
  have hesp : (conSwap h (enDisco cfg fs.bloques)).espacioUsuario = h.espacioUsuario := rfl
  rw [HandlerPaginacion.cargarEnMemoria, cargarEnMemoria, conSwap_pidTablas, hbloq, hesp]
  cases h.pidTablas.get p with
  | none => rfl
  | some tabla =>
    simp only
    split_ifs
    · rfl
    cases obtenerFrameLibre h.espacioUsuario with
    | some frame =>
      simp only
      rw [alojar_eq hm hs, Option.map_map]
      rfl
    | none =>
      simp only
      rw [removerPaginaMemoria_eq hm hs]
      rcases hr : removerPaginaMemoria h fs orden with _ | ⟨_ | pag, h₁, fs₁⟩
      · rfl
      · rfl
      · have hp := (removerPaginaMemoria_resto hs hr).1
        simp only [Option.bind_eq_bind, Option.map_some, Option.bind_some]
        rw [alojar_eq (hp.medidas hm) (hp.enSwap hs), Option.map_map]
        rfl

theorem cargarEnMemoria_resto {ahora : ℤ} {orden : List ℤ} {v : Option ℕ} (hs : EnSwap cfg h)
    (hr : cargarEnMemoria h fs p nro ahora orden = some (v, h', fs')) :
    MismasPosiciones h h' ∧ SoloPaginas fs fs' := by
  unfold cargarEnMemoria at hr
  split at hr
  · cases hr
    exact ⟨.refl h, .refl fs⟩
  · split_ifs at hr
    split at hr
    · obtain ⟨⟨v₁, h₁⟩, ha, hr⟩ := Option.map_eq_some_iff.mp hr
      cases hr
      exact ⟨alojar_resto ha, .refl fs⟩
    · obtain ⟨⟨v₁, h₁, fs₁⟩, hrem, hr⟩ := Option.bind_eq_some_iff.mp hr
      obtain ⟨hp, hf⟩ := removerPaginaMemoria_resto hs hrem
      cases v₁ with
      | none =>
        cases hr
        exact ⟨⟨hp.tamanioPagina, hp.posiciones⟩, hf⟩
      | some pag =>
        obtain ⟨⟨v₂, h₂⟩, ha, hr⟩ := Option.map_eq_some_iff.mp hr
        cases hr
        exact ⟨hp.trans (alojar_resto ha), hf⟩

/-! ### New processes and processes that end -/

/-- The blocks that the allocator hands out are zeroed, in whole words, and no other block changes. -/
theorem asignarLoop_bloques (resto : ℕ → Bloque cfg.tamBloque) (h4 : 4 ∣ cfg.tamBloque) :
    ∀ {is : List ℕ} {faltan : ℕ} {bitarray bitarray' : List Bool} {nuevos : List ℕ}
      {bloques bloques' : BloquesDat cfg.tamBloque},
      asignarLoop cfg resto is faltan bitarray bloques = some (nuevos, bitarray', bloques') →
      ∀ b, bloques' b = if b ∈ nuevos then fun _ => 0 else bloques b
  | [], _, _, _, _, _, _, hr => by
    cases hr
    simp
  | i :: is, faltan, bitarray, bitarray', nuevos, bloques, bloques', hr => by
    rw [asignarLoop] at hr
    split_ifs at hr
    · cases hr
      simp
    obtain ⟨bit, -, hr⟩ := Option.bind_eq_some_iff.mp hr
    cases bit with
    | true => exact asignarLoop_bloques resto h4 hr
    | false =>
      obtain ⟨bloques₁, hl, hr⟩ := Option.bind_eq_some_iff.mp hr
      obtain ⟨⟨nuevos', bit', bloques₂⟩, hrec, hr⟩ := Option.bind_eq_some_iff.mp hr
      cases hr
      rw [limpiarBloque, escribirBloque] at hl
      split_ifs at hl
      obtain rfl := Option.some.inj hl
      have hcero : (fun k : Fin cfg.tamBloque =>
          if (k : ℕ) < cfg.tamBloque / 4 * 4 then (0 : UInt8) else resto i k) = fun _ => 0 := by
        funext k
        rw [if_pos (by rw [Nat.div_mul_cancel h4]; exact k.isLt)]
      intro b
      rw [asignarLoop_bloques resto h4 hrec b, hcero, Int.toNat_natCast]
      by_cases hbi : b = i
      · subst hbi
        simp
      · simp [hbi]

/-- **`SWAP_NEW_PROCESS`, when it fits**: positions of free blocks, with zeroes. -/
theorem swapNewProcess_spec {n : ℕ} (resto : ℕ → Bloque cfg.tamBloque) {vivos : Dict ℤ (List ℤ)}
    (hI : Invariante ⟨fs, vivos⟩) (h4 : 4 ∣ cfg.tamBloque) (hp : vivos.get p = none)
    (hn : n ≤ fs.bitarray.count false) : ∃ fs' ps, swapNewProcess fs n resto = some (fs', .SWAP_OK ps) ∧
      ps.length = n ∧ Invariante ⟨fs', vivos.put p ps⟩ ∧ fs'.fat = fs.fat ∧ fs'.fcbs = fs.fcbs ∧
      (∀ i, fs'.bloques (cfg.cantBloquesSwap + i) = fs.bloques (cfg.cantBloquesSwap + i)) ∧
      enDisco cfg fs'.bloques =
        fun pos => if pos ∈ ps then fun _ => 0 else enDisco cfg fs.bloques pos := by
  obtain ⟨s', resp, hserv, hI'⟩ : ∃ s' resp, servirSwap ⟨fs, vivos⟩ (.nuevo p n resto) =
      some (s', resp) ∧ Invariante s' := invariante_nuevo hI hp hn
  obtain ⟨⟨fs', resp'⟩, hnew, hr⟩ := Option.bind_eq_some_iff.mp hserv
  obtain ⟨⟨nuevos, bit', bloques'⟩, hloop, hnew'⟩ := Option.bind_eq_some_iff.mp hnew
  cases hnew'
  cases hr
  have hlen : fs.bitarray.length = cfg.cantBloquesSwap := hI.1
  have htot : ∀ i ∈ List.range cfg.cantBloquesSwap, i < cfg.cantBloquesTotal := fun i hi =>
    (List.mem_range.mp hi).trans cfg.swap_lt
  obtain ⟨nuevos₁, bit₁, bloques₁, he, -, hlib, hcant, -⟩ := asignarLoop_spec resto n fs.bitarray
    fs.bloques List.nodup_range (fun i hi => by rw [hlen]; exact List.mem_range.mp hi) htot
  obtain ⟨rfl, -⟩ := Prod.mk.inj (Option.some.inj (he.symm.trans hloop))
  rw [← hlen, Lib.Lists.countP_range_getElem?] at hcant
  obtain rfl : nuevos₁.length = n := by omega
  have hlt : ∀ b ∈ nuevos₁, b < cfg.cantBloquesSwap := fun b hb => List.mem_range.mp (hlib b hb).1
  have hbl : ∀ b, bloques' b = if b ∈ nuevos₁ then fun _ => 0 else fs.bloques b :=
    asignarLoop_bloques resto h4 hloop
  refine ⟨_, _, hnew, by simp, hI', rfl, rfl, fun i => ?_, funext fun pos => ?_⟩
  · exact (hbl _).trans (if_neg fun hm => by have := hlt _ hm; omega)
  · rw [posiciones_eq hlt]
    by_cases hpos : EsPosicion cfg pos
    · obtain ⟨b, hb, rfl⟩ := hpos
      simp only [enDisco_posicion hb, hbl b, mem_posiciones]
      split_ifs
      · funext i
        simp [memDe]
      · rfl
    · rw [if_neg fun hm => ?_, enDisco, enDisco, if_neg hpos, if_neg hpos]
      obtain ⟨b, hb, rfl⟩ := List.mem_map.mp hm
      exact hpos ⟨b, hlt b hb, rfl⟩

/-- **`SWAP_END_PROCESS`** gives the blocks back. -/
theorem swapEndProcess_spec {ps : List ℤ} {vivos : Dict ℤ (List ℤ)} (hI : Invariante ⟨fs, vivos⟩)
    (hp : vivos.get p = some ps) : ∃ bitarray resp,
      swapEndProcess fs ps = some ({ fs with bitarray := bitarray }, resp) ∧
        Invariante ⟨{ fs with bitarray := bitarray }, vivos.remove p⟩ := by
  obtain ⟨s', resp, hserv, hI'⟩ : ∃ s' resp, servirSwap ⟨fs, vivos⟩ (.fin p) =
      some (s', resp) ∧ Invariante s' := invariante_fin hI (by simp [hp])
  obtain ⟨ps', hps, hserv⟩ := Option.bind_eq_some_iff.mp hserv
  obtain rfl := Option.some.inj (hp.symm.trans hps)
  obtain ⟨⟨fs', resp'⟩, hend, hr⟩ := Option.bind_eq_some_iff.mp hserv
  obtain ⟨bitarray, hlib, hend'⟩ := Option.bind_eq_some_iff.mp hend
  cases hend'
  cases hr
  exact ⟨bitarray, _, hend, hI'⟩

/-- A table for a new process. -/
theorem generar_conSwap {size : ℕ} {ps : List ℤ} (swap : ℤ → Mem) (hlen : ps.length = size / h.tamanioPagina)
    (hc : size / h.tamanioPagina ≤ CANT_PAGINAS) :
    ∃ h', HandlerPaginacion.generarTablaPaginas h p size ps = some h' ∧
      HandlerPaginacion.generarTablaPaginas (conSwap h swap) p size ps =
        some (conSwap h' fun pos => if pos ∈ ps then fun _ => 0 else swap pos) ∧
      h'.tamanioPagina = h.tamanioPagina ∧ posiciones h' = (posiciones h).put p ps := by
  have hps : ∀ serie, (createTablaPaginas p serie ps).paginas.map (·.posSwap) = ps := fun serie =>
    List.ext_getElem (by simp [createTablaPaginas]) fun i _ _ => by simp [createTablaPaginas]
  exact ⟨_, if_pos ⟨hlen, hc⟩, if_pos ⟨hlen, hc⟩, rfl,
    (Dict.map_put ..).trans (congrArg (Dict.put _ p) (hps _))⟩

theorem removerProceso_conSwap (swap : ℤ → Mem) (ht : h.pidTablas.get p = some tabla) :
    ∃ h', HandlerPaginacion.removerProceso h p = some h' ∧
      HandlerPaginacion.removerProceso (conSwap h swap) p = some (conSwap h' swap) ∧
      h'.tamanioPagina = h.tamanioPagina ∧ posiciones h' = (posiciones h).remove p := by
  have hbind : ∀ f : TablaPaginas → Option Handler, (h.pidTablas.get p).bind f = f tabla := fun f => by
    rw [ht, Option.bind_some]
  exact ⟨_, hbind _, hbind _, rfl, Dict.map_remove ..⟩

/-! ### Requests of the CPU -/

theorem obtenerMarco_conSwap (swap : ℤ → Mem) (op : TipoOperacion) (ahora : ℤ) :
    HandlerPaginacion.obtenerMarco (conSwap h swap) p nro op ahora =
      (HandlerPaginacion.obtenerMarco h p nro op ahora).map fun r => (r.1, conSwap r.2 swap) := by
  rw [HandlerPaginacion.obtenerMarco, HandlerPaginacion.obtenerMarco, conSwap_pidTablas]
  cases h.pidTablas.get p with
  | none => rfl
  | some tabla =>
    cases hi : tabla.paginas[nro]? with
    | none => simp [hi]
    | some pag =>
      simp only [hi, Option.bind_eq_bind, Option.bind_some]
      split_ifs
      all_goals first
        | rfl
        | cases leerPagina tabla nro ahora <;> rfl

theorem obtenerMarco_resto {op : TipoOperacion} {ahora : ℤ} {v : Option ℕ}
    (hr : HandlerPaginacion.obtenerMarco h p nro op ahora = some (v, h')) : MismasPosiciones h h' := by
  unfold HandlerPaginacion.obtenerMarco at hr
  split at hr
  · cases hr
    exact .refl h
  · rename_i tabla ht
    obtain ⟨pag, hi, hr⟩ := Option.bind_eq_some_iff.mp hr
    by_cases hmem : paginaEstaEnMemoria pag
    · rw [if_pos hmem] at hr
      obtain ⟨tabla', ht', hr⟩ := Option.bind_eq_some_iff.mp hr
      obtain ⟨pag₁, hi₁, rfl⟩ := modificar_eq_some.mp ht'
      have hp : MismasPosiciones h (setTabla h p { tabla with
          paginas := tabla.paginas.set nro { pag₁ with ultimaLectura := some ahora } }) :=
        mismasPosiciones_setTabla ht hi₁ rfl
      obtain ⟨-, rfl⟩ := Prod.mk.inj (Option.some.inj hr)
      split_ifs
      · exact ⟨hp.tamanioPagina, hp.posiciones⟩
      · exact hp
    · rw [if_neg hmem] at hr
      cases hr
      exact .refl h

/-- The search looks at the tables only. -/
theorem encontrarPaginaAModificar_conSwap (swap : ℤ → Mem) (f : ℕ) : ∀ ps : List Puntero,
    HandlerPaginacion.encontrarPaginaAModificar (conSwap h swap) f ps =
      HandlerPaginacion.encontrarPaginaAModificar h f ps
  | [] => rfl
  | ptr :: ps => by
    have hd : deref (conSwap h swap) ptr = deref h ptr := rfl
    rw [HandlerPaginacion.encontrarPaginaAModificar, HandlerPaginacion.encontrarPaginaAModificar,
      encontrarPaginaAModificar_conSwap swap f ps, hd]

theorem escribirValor_conSwap (swap : ℤ → Mem) (dir : ℕ) (v : UInt32) :
    HandlerPaginacion.escribirValor (conSwap h swap) dir v =
      (HandlerPaginacion.escribirValor h dir v).map (conSwap · swap) := by
  set h₁ := setEspacio h (espacioEscribirValor h.espacioUsuario dir v) with hh₁
  change (HandlerPaginacion.encontrarPaginaAModificar (conSwap h₁ swap)
    (espacioObtenerFrame h₁.espacioUsuario dir) h.paginasPendientesModificacion).bind _ =
      ((HandlerPaginacion.encontrarPaginaAModificar h₁
        (espacioObtenerFrame h₁.espacioUsuario dir) h.paginasPendientesModificacion).bind _).map _
  rw [encontrarPaginaAModificar_conSwap]
  rcases HandlerPaginacion.encontrarPaginaAModificar h₁ (espacioObtenerFrame h₁.espacioUsuario dir)
    h.paginasPendientesModificacion with _ | ⟨_ | ptr, ps⟩
  · rfl
  · rfl
  · simp only [Option.bind_some, HandlerPaginacion.marcarModificada, Option.bind_eq_bind]
    change (h.pidTablas.get ptr.pid).bind _ = ((h.pidTablas.get ptr.pid).bind _).map _
    cases h.pidTablas.get ptr.pid with
    | none => rfl
    | some tabla =>
      simp only [Option.bind_some]
      cases marcarDatoModificado tabla ptr.nroPagina <;> rfl

theorem escribirValor_resto {dir : ℕ} {v : UInt32}
    (hr : HandlerPaginacion.escribirValor h dir v = some h') : MismasPosiciones h h' := by
  obtain ⟨⟨r, ps⟩, -, hr⟩ := Option.bind_eq_some_iff.mp hr
  cases r with
  | none =>
    cases hr
    exact ⟨rfl, rfl⟩
  | some ptr =>
    obtain ⟨tabla, ht, hr⟩ := Option.bind_eq_some_iff.mp hr
    obtain ⟨tabla', ht', hr⟩ := Option.bind_eq_some_iff.mp hr
    obtain ⟨pag, hi, rfl⟩ := modificar_eq_some.mp ht'
    have hp : MismasPosiciones h (setTabla h ptr.pid { tabla with
        paginas := tabla.paginas.set ptr.nroPagina { pag with bitModificado := 1 } }) :=
      mismasPosiciones_setTabla ht hi rfl
    cases hr
    exact ⟨hp.tamanioPagina, hp.posiciones⟩

end OperatingSystem.Almacenamiento.Vista
