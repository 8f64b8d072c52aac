import OperatingSystem.Almacenamiento.Ficheros

/-! # The modules do what the processes see

`servir_hace`: an allowed request is served as `Hace` says, and the relation `Cumple` holds after it.
`almacen_refinado` is the same of every run: the memory that swaps its pages into the blocks of the file
system, and the file system that takes its data out of frames, are to the processes a flat memory and
files of blocks. -/

namespace OperatingSystem.Almacenamiento.Refinamiento

open OperatingSystem.Lib.Bytes OperatingSystem.Lib.Dictionary
open OperatingSystem.Lib.Run OperatingSystem.Lib.Traces
open OperatingSystem.FileSystem.Fat OperatingSystem.FileSystem.Bloques
open OperatingSystem.FileSystem.Archivo (Filesystem crearArchivo cfgChica)
open OperatingSystem.FileSystem.Swap OperatingSystem.FileSystem.Corridas
open OperatingSystem.Memoria OperatingSystem.Memoria.Paginas OperatingSystem.Memoria.HandlerPaginacion
open OperatingSystem.Memoria.Lugares OperatingSystem.Memoria.Marcos OperatingSystem.Memoria.Contenido
open OperatingSystem.Memoria.Pedidos (Sistema atender)
open OperatingSystem.Memoria.Lectura
open OperatingSystem.Almacenamiento.Intercambio OperatingSystem.Almacenamiento.Vista
open OperatingSystem.Almacenamiento.Ficheros OperatingSystem.Almacenamiento.Modulos

variable {cfg : FilesystemConfig}

/-! ### A page as a block -/

section Pagina
variable {h : Handler} {m : Plana} {p : ℤ} {a f t : ℕ}

/-- The address of a word of a page. -/
theorem dir_de_pagina {i : ℕ} (ha : a % t = 0) (hi : i < t) :
    (a + i) / t = a / t ∧ (a + i) % t = i := by
  obtain ⟨k, rfl⟩ := Nat.dvd_of_mod_eq_zero ha
  have hpos : 0 < t := by omega
  rw [Nat.mul_add_div hpos, Nat.mul_add_mod, Nat.div_eq_of_lt hi, Nat.mod_eq_of_lt hi, Nat.add_zero,
    Nat.mul_div_cancel_left _ hpos]
  exact ⟨rfl, rfl⟩

/-- **What `MEMORY_READ` takes** out of a frame is the page of the process. -/
theorem bloqueEn_eq (hG : Guarda h m) (ht : h.tamanioPagina = t) (h4 : 4 ∣ t) (ha : a % t = 0)
    (hf : EnMarco h p (a / t) f) :
    bloqueEn t h.espacioUsuario.espacio (f * t) = paginaDe t m p a := by
  subst ht
  funext i
  have hi := i.isLt
  have hlt : 4 * ((i : ℕ) / 4) < h.tamanioPagina := by omega
  obtain ⟨hdiv, hmod⟩ := dir_de_pagina ha hlt
  have ha4 : 4 ∣ a := h4.trans (Nat.dvd_of_mod_eq_zero ha)
  have hpal : EnPalabras h.tamanioPagina (a + 4 * ((i : ℕ) / 4)) :=
    enPalabras_of_dvd h4 (by omega) (by omega)
  have hleer := hG.leerValor_eq hpal (by rw [hdiv]; exact hf)
  rw [hmod] at hleer
  rw [bloqueEn, paginaDe, ← hleer]
  change _ = byte (leer h.espacioUsuario.espacio _) _
  rw [byte_leer _ _ (Nat.mod_lt _ (by omega))]
  congr 1
  omega

/-- **What `MEMORY_WRITE` puts** into a frame is the page of the process after it. -/
theorem guarda_escribirPagina (hG : Guarda h m) (hB : Base h) (ht : h.tamanioPagina = t)
    (hf : EnMarco h p (a / t) f) (b : Bloque t) :
    Guarda (escribirValorPagina h (f * t) (leerPalabras (memDe b) 0 (t / 4)))
      (escribirPagina m p a b) := by
  subst ht
  refine ⟨hG.distintas, fun q l x hl hx => ?_⟩
  change lugar h q (x / h.tamanioPagina) = some l at hl
  change EnPalabras h.tamanioPagina x at hx
  change palabra _ l (x % h.tamanioPagina) = _
  have hvieja := hG.palabras q l x hl hx
  have hlt := hx.2
  by_cases hpres : l.bitPresencia = 1
  · rw [palabra, if_pos hpres] at hvieja ⊢
    change leer (escribirPalabras h.espacioUsuario.espacio (f * h.tamanioPagina)
      (leerPalabras (memDe b) 0 (h.tamanioPagina / 4)))
        (l.nroFrame * h.tamanioPagina + x % h.tamanioPagina) = _
    by_cases hqx : q = p ∧ x / h.tamanioPagina = a / h.tamanioPagina
    · obtain ⟨rfl, hxa⟩ := hqx
      obtain ⟨l', hl', -, rfl⟩ := hf
      obtain rfl := Option.some.inj ((hxa ▸ hl).symm.trans hl')
      rw [leer_copia _ _ _ _ hlt, Nat.zero_add, Modulos.escribirPagina, if_pos ⟨rfl, hxa⟩]
    · -- another page, in another frame
      have hne : f ≠ l.nroFrame := by
        rintro rfl
        exact hqx (hB.unico _ _ _ _ _ ⟨l, hl, hpres, rfl⟩ hf)
      have hdis : l.nroFrame * h.tamanioPagina + x % h.tamanioPagina + 4 ≤ f * h.tamanioPagina ∨
          f * h.tamanioPagina + 4 * (h.tamanioPagina / 4) ≤
            l.nroFrame * h.tamanioPagina + x % h.tamanioPagina := by
        have := marcos_disjuntos (i := 0) (n := 4 * (h.tamanioPagina / 4)) hne
          (by rw [Nat.zero_add]; exact Nat.mul_div_le _ _) hx.lt
        omega
      rw [leer_copia_of_disjoint _ _ _ hdis, hvieja, Modulos.escribirPagina, if_neg hqx]
  · have hqx : ¬(q = p ∧ x / h.tamanioPagina = a / h.tamanioPagina) := by
      rintro ⟨rfl, hxa⟩
      obtain ⟨l', hl', hpres', -⟩ := hf
      obtain rfl := Option.some.inj ((hxa ▸ hl).symm.trans hl')
      exact hpres hpres'
    rw [palabra, if_neg hpres] at hvieja ⊢
    rw [Modulos.escribirPagina, if_neg hqx]
    exact hvieja

end Pagina

/-! ### One request -/

section Paso
variable {c c' : Conjunto cfg} {t : Almacen cfg.tamBloque} {h : Handler} {fs : Filesystem cfg}
  {p : ℤ} {a : ℕ}

/-- The invariant of the swap space is about the bitmap only. -/
theorem invariante_congr {fs' : Filesystem cfg} {vivos : Dict ℤ (List ℤ)}
    (hI : Invariante ⟨fs, vivos⟩) (hb : fs'.bitarray = fs.bitarray) : Invariante ⟨fs', vivos⟩ := by
  obtain ⟨hlen, hs⟩ := hI
  exact ⟨by rw [← hlen, ← hb], hs.distintas, hs.disjuntas, hs.enSwap, by rw [hb]; exact hs.bitmap⟩

theorem enSwap_de_cumple (hR : Cumple c t) : EnSwap cfg c.memoria.handler := hR.swap.2.enSwap

/-- The position of a page. -/
theorem posicion_de_lugar {j : ℕ} {l : Lugar} (hl : lugar h p j = some l) :
    ∃ ps, (posiciones h).get p = some ps ∧ l.posSwap ∈ ps := by
  obtain ⟨pag, hp, rfl⟩ := lugar_eq_some.mp hl
  obtain ⟨tabla, ht, hj⟩ := pagina_eq_some.mp hp
  exact ⟨tabla.paginas.map (·.posSwap), by rw [posiciones, Dict.get_map, ht, Option.map_some],
    List.mem_map_of_mem (f := Pagina.posSwap) (List.mem_of_getElem? hj)⟩

/-- A request after which the pages are where they were, and so are the files. -/
theorem cumple_of_mismas {h' : Handler} {fs' : Filesystem cfg} {s' : Sistema} {m : Plana}
    (hR : Cumple c t) (hp : MismasPosiciones c.memoria.handler h') (hf : SoloPaginas c.fs fs')
    (hs : s'.handler = h') (hpids : s'.pids = c.memoria.pids)
    (hm : Refleja (Conjunto.vista ⟨s', fs'⟩) m) :
    Cumple ⟨s', fs'⟩ { t with memoria := m } where
  medidas := hs ▸ hp.medidas hR.medidas
  swap := by
    rw [hs, hp.posiciones]
    exact invariante_congr hR.swap hf.bitarray
  creados := by
    rw [hs, hp.posiciones, hpids]
    exact hR.creados
  memoria := hm
  archivos := guardados_of_soloPaginas hR.archivos hf

/-- A request after which the memory and the swap space are as they were. -/
theorem cumple_of_archivos {fs' : Filesystem cfg} {archivos : String → Option (Archivo cfg.tamBloque)}
    (hR : Cumple c t) (hf : SoloArchivos c.fs fs') (hg : Guardados fs' archivos) :
    Cumple { c with fs := fs' } { t with archivos := archivos } where
  medidas := hR.medidas
  swap := invariante_congr hR.swap hf.bitarray
  creados := hR.creados
  memoria := by
    have hdisco : enDisco cfg fs'.bloques = enDisco cfg c.fs.bloques := enDisco_congr hf.bloques
    have hvista : Conjunto.vista { c with fs := fs' } = c.vista := by
      rw [Conjunto.vista, Conjunto.vista, hdisco]
    rw [hvista]
    exact hR.memoria
  archivos := hg

theorem newProcess_hace {size : ℕ} {resto : ℕ → Bloque cfg.tamBloque} (hR : Cumple c t)
    (hp : Permitida c (.newProcess p size resto)) :
    ∃ c', servir c (.newProcess p size resto) = some (c', .ok) ∧ Cumple c' t := by
  obtain ⟨hnuevo, hcant, hcabe⟩ := hp
  have hget : (posiciones c.memoria.handler).get p = none :=
    Option.eq_none_iff_forall_ne_some.mpr fun ps hps => hnuevo (hR.creados p ps hps)
  obtain ⟨fs', ps, hnew, hlen, hI', hfat, hfcbs, hbl, hdisco⟩ :=
    swapNewProcess_spec resto hR.swap hR.medidas.palabras hget hcabe
  obtain ⟨h', hgen, hgenv, htam, hpos⟩ :=
    generar_conSwap (p := p) (enDisco cfg c.fs.bloques) hlen hcant
  have habierto : c.memoria.handler.operacionesBloqueantes = false := hR.memoria.abierto
  -- the positions of the reply are new
  have hprot : Lectura.Protocolo c.vista (.newProcess p size ps) := by
    refine ⟨hnuevo, hlen, hI'.2.distintas p ps (Dict.get_put_self ..), fun q j l hl hm => ?_⟩
    obtain ⟨ps', hps', hl'⟩ := posicion_de_lugar (h := c.memoria.handler) hl
    have hqp : q ≠ p := by
      rintro rfl
      rw [hget] at hps'
      cases hps'
    exact hI'.2.disjuntas q p ps' ps hqp ((Dict.get_put_of_ne _ hqp _).trans hps')
      (Dict.get_put_self ..) _ hl' hm
  obtain ⟨s', hs', hR'⟩ := refleja_newProcess hR.memoria hprot hcant
  have hvista : atender c.vista (.newProcess p size ps) = some (Conjunto.vista
      ⟨{ c.memoria with handler := h', pids := p :: c.memoria.pids }, fs'⟩) := by
    rw [atender, Pedidos.allocateNewProcess, hR.memoria.abierto]
    change (HandlerPaginacion.generarTablaPaginas (conSwap _ _) p size ps).bind _ = _
    rw [hgenv, ← hdisco]
    rfl
  obtain rfl := Option.some.inj (hs'.symm.trans hvista)
  refine ⟨⟨{ c.memoria with handler := h', pids := p :: c.memoria.pids }, fs'⟩, ?_, ?_⟩
  · rw [servir, if_neg (by rw [habierto]; exact Bool.false_ne_true), Intercambio.generarTablaPaginas,
      hnew]
    simp only [Option.bind_eq_bind, Option.bind_some, hgen, Option.pure_def]
  · refine ⟨⟨htam.trans hR.medidas.pagina, hR.medidas.palabras⟩, hpos ▸ hI', fun q ps' hq => ?_, hR', ?_⟩
    · rw [hpos] at hq
      rcases Dict.get_put_eq_some.mp hq with ⟨rfl, -⟩ | ⟨-, hq⟩
      · exact List.mem_cons_self
      · exact List.mem_cons_of_mem _ (hR.creados q ps' hq)
    · obtain ⟨cad, hrep, has⟩ := hR.archivos
      exact ⟨cad, by rw [hfat, hfcbs]; exact hrep, fun n => by simp only [has, hfcbs, hbl]⟩

theorem exitProcess_hace (hR : Cumple c t) (hp : Permitida c (.exitProcess p)) :
    ∃ c', servir c (.exitProcess p) = some (c', .ok) ∧ Cumple c' t := by
  obtain ⟨tabla, ht⟩ := Option.isSome_iff_exists.mp hp
  have hget : (posiciones c.memoria.handler).get p = some (tabla.paginas.map (·.posSwap)) := by
    rw [posiciones, Dict.get_map, ht, Option.map_some]
  obtain ⟨bitarray, resp, hend, hI'⟩ := swapEndProcess_spec hR.swap hget
  obtain ⟨h', hrem, hremv, htam, hpos⟩ :=
    removerProceso_conSwap (enDisco cfg c.fs.bloques) ht
  obtain ⟨s', hs', hR'⟩ := refleja_exitProcess hR.memoria (p := p) hp
  have hvista : atender c.vista (.exitProcess p) = some (Conjunto.vista
      ⟨{ c.memoria with handler := h' }, { c.fs with bitarray := bitarray }⟩) := by
    rw [atender]
    change (HandlerPaginacion.removerProceso (conSwap _ _) p).bind _ = _
    rw [hremv]
    rfl
  obtain rfl := Option.some.inj (hs'.symm.trans hvista)
  refine ⟨⟨{ c.memoria with handler := h' }, { c.fs with bitarray := bitarray }⟩, ?_, ?_⟩
  · rw [servir, Intercambio.removerProceso, ht]
    simp only [Option.bind_eq_bind, Option.bind_some, hend, hrem, Option.pure_def]
  · refine ⟨⟨htam.trans hR.medidas.pagina, hR.medidas.palabras⟩, hpos ▸ hI', fun q ps' hq => ?_, hR',
      hR.archivos⟩
    rw [hpos] at hq
    have hqp : q ≠ p := by
      rintro rfl
      simp at hq
    exact hR.creados q ps' ((Dict.get_remove_of_ne _ hqp).symm.trans hq)

/-! Requests of the CPU: on the view they do what they do on the memory. -/

theorem atender_vista_frameRequest (c : Conjunto cfg) (p : ℤ) (nro : ℕ) (op : TipoOperacion)
    (ahora : ℤ) : atender c.vista (.frameRequest p nro op ahora) =
      (atender c.memoria (.frameRequest p nro op ahora)).map fun s =>
        Conjunto.vista { c with memoria := s } := by
  have hb : c.vista.handler.operacionesBloqueantes = c.memoria.handler.operacionesBloqueantes := rfl
  rw [atender, atender, Pedidos.frameRequest, Pedidos.frameRequest, hb]
  split_ifs
  · rfl
  rw [show c.vista.handler = conSwap c.memoria.handler (enDisco cfg c.fs.bloques) from rfl,
    obtenerMarco_conSwap]
  rcases obtenerMarco c.memoria.handler p nro op ahora with _ | ⟨_ | f, h⟩ <;> rfl

theorem atender_vista_movOut (c : Conjunto cfg) (p : ℤ) (a : ℕ) (v : UInt32) :
    atender c.vista (.movOut p a v) = (atender c.memoria (.movOut p a v)).map fun s =>
      Conjunto.vista { c with memoria := s } := by
  have hd : c.vista.dirFisica p a = c.memoria.dirFisica p a := rfl
  rw [atender, atender, hd]
  cases c.memoria.dirFisica p a with
  | none => rfl
  | some dir =>
    simp only [Option.bind_eq_bind, Option.bind_some]
    rw [show c.vista.handler = conSwap c.memoria.handler (enDisco cfg c.fs.bloques) from rfl,
      escribirValor_conSwap]
    cases escribirValor c.memoria.handler dir v <;> rfl

theorem frameRequest_hace {nro : ℕ} {op : TipoOperacion} {ahora : ℤ} (hR : Cumple c t)
    (hp : Permitida c (.frameRequest p nro op ahora)) :
    ∃ c', servir c (.frameRequest p nro op ahora) = some (c', .ok) ∧ Cumple c' t := by
  obtain ⟨s', hs', hR'⟩ : ∃ s', atender c.vista (.frameRequest p nro op ahora) = some s' ∧
      Refleja s' t.memoria := refleja_frameRequest hR.memoria hp
  rw [atender_vista_frameRequest] at hs'
  obtain ⟨s, hs, rfl⟩ := Option.map_eq_some_iff.mp hs'
  refine ⟨{ c with memoria := s }, by rw [servir, hs]; rfl, ?_⟩
  obtain ⟨⟨r, h⟩, hreq, hs⟩ := Option.bind_eq_some_iff.mp hs
  unfold Pedidos.frameRequest at hreq
  split_ifs at hreq
  have hm := obtenerMarco_resto hreq
  cases r <;>
  · cases hs
    exact cumple_of_mismas hR hm (.refl c.fs) rfl rfl hR'

theorem loadFrame_hace {nro : ℕ} {ahora : ℤ} {orden : List ℤ} (hR : Cumple c t)
    (hp : Permitida c (.loadFrame p nro ahora orden)) :
    ∃ c', servir c (.loadFrame p nro ahora orden) = some (c', .ok) ∧ Cumple c' t := by
  obtain ⟨s', hs', hR'⟩ : ∃ s', atender c.vista (.loadFrame p nro ahora orden) = some s' ∧
      Refleja s' t.memoria := refleja_loadFrame hR.memoria hp.1 hp.2
  have hS := enSwap_de_cumple hR
  obtain ⟨⟨f, h⟩, hcarga, hs⟩ := Option.bind_eq_some_iff.mp hs'
  have hcarga' : HandlerPaginacion.cargarEnMemoria
      (conSwap c.memoria.handler (enDisco cfg c.fs.bloques)) p nro ahora orden = some (f, h) := hcarga
  rw [cargarEnMemoria_eq hR.medidas hS] at hcarga'
  obtain ⟨⟨f', h', fs'⟩, hreal, heq⟩ := Option.map_eq_some_iff.mp hcarga'
  cases heq
  cases hs
  obtain ⟨hm, hf⟩ := cargarEnMemoria_resto hS hreal
  refine ⟨⟨{ c.memoria with
    handler := h'
    faltas := Function.update c.memoria.faltas (p, nro) false }, fs'⟩, ?_, ?_⟩
  · rw [servir, hreal]
    rfl
  · exact cumple_of_mismas hR hm hf rfl rfl hR'

theorem movOut_hace {v : UInt32} (hR : Cumple c t) (hp : Permitida c (.movOut p a v)) :
    ∃ c', servir c (.movOut p a v) = some (c', .ok) ∧
      Cumple c' { t with memoria := t.memoria.escribir p a v } := by
  have hc : Lectura.Condicion c.vista (.movOut p a v) := by
    refine ⟨hp.2.1, fun dir hdir => ?_⟩
    change (HandlerPaginacion.encontrarPaginaAModificar (conSwap c.memoria.handler _) _ _).isSome
    rw [encontrarPaginaAModificar_conSwap]
    exact hp.2.2 dir hdir
  obtain ⟨s', hs', hR'⟩ := refleja_movOut hR.memoria hp.1 hc
  rw [atender_vista_movOut] at hs'
  obtain ⟨s, hs, rfl⟩ := Option.map_eq_some_iff.mp hs'
  refine ⟨{ c with memoria := s }, by rw [servir, hs]; rfl, ?_⟩
  obtain ⟨dir, -, hs⟩ := Option.bind_eq_some_iff.mp hs
  obtain ⟨h, hw, hs⟩ := Option.bind_eq_some_iff.mp hs
  cases hs
  exact cumple_of_mismas hR (escribirValor_resto hw) (.refl c.fs) rfl rfl hR'

theorem movIn_hace (hR : Cumple c t) (hp : Permitida c (.movIn p a)) :
    servir c (.movIn p a) = some (c, .palabra (t.memoria p a)) := by
  have hm : c.memoria.movIn p a = some (t.memoria p a) := hR.memoria.movIn hp.1 hp.2
  rw [servir, hm]
  rfl

/-- A page that the file system may move is in the frame that the CPU was told. -/
theorem paginaPedida_marco {op : TipoOperacion} (hR : Cumple c t)
    (hp : PaginaPedida c.memoria p a op) :
    ∃ f, c.memoria.dirFisica p a = some (f * cfg.tamBloque) ∧ a % cfg.tamBloque = 0 ∧
      EnMarco c.vista.handler p (a / cfg.tamBloque) f := by
  obtain ⟨ha, hmov, hvig⟩ := hp
  obtain ⟨f, hdir, hf, -⟩ := mov_vigente hmov hvig
  have htam := hR.medidas.pagina
  rw [ha, Nat.add_zero, htam] at hdir
  rw [htam] at ha hf
  exact ⟨f, hdir, ha, hf⟩

theorem escribir_hace {n : String} {puntero : ℤ} (hR : Cumple c t)
    (hp : Permitida c (.escribir n puntero p a)) : ∃ c' f,
      servir c (.escribir n puntero p a) = some (c', .ok) ∧ t.archivos n = some f ∧
      puntero.toNat / cfg.tamBloque < f.bloques.length ∧
      Cumple c' (t.poner n ⟨f.tamanio, f.bloques.set (puntero.toNat / cfg.tamBloque)
        (paginaDe cfg.tamBloque t.memoria p a)⟩) := by
  obtain ⟨harch, hpag⟩ := hp
  obtain ⟨f, hdir, ha, hf⟩ := paginaPedida_marco hR hpag
  have htam := hR.medidas.pagina
  have hread : memoryRead c.memoria.handler (f * cfg.tamBloque) =
      some (leerBytes c.memoria.handler.espacioUsuario.espacio (f * cfg.tamBloque) cfg.tamBloque) := by
    rw [memoryRead, htam]
    exact empaquetar_leerPalabras hR.medidas.palabras _ _
  have hbloque : bloqueEn cfg.tamBloque c.memoria.handler.espacioUsuario.espacio (f * cfg.tamBloque) =
      paginaDe cfg.tamBloque t.memoria p a :=
    bloqueEn_eq (h := c.vista.handler) hR.memoria.guarda htam hR.medidas.palabras ha hf
  obtain ⟨fs', g, hes, hn, hlt, hg, hsolo⟩ := guardados_escribir hR.archivos harch
    (paginaDe cfg.tamBloque t.memoria p a)
  refine ⟨{ c with fs := fs' }, g, ?_, hn, hlt, cumple_of_archivos hR hsolo hg⟩
  rw [servir, hdir]
  simp only [Option.bind_eq_bind, Option.bind_some, hread, bloqueDe_leerBytes, hbloque, hes,
    Option.pure_def]

theorem leer_hace {n : String} {puntero : ℤ} (hR : Cumple c t)
    (hp : Permitida c (.leer n puntero p a)) : ∃ c' f b,
      servir c (.leer n puntero p a) = some (c', .ok) ∧ t.archivos n = some f ∧
      f.bloques[puntero.toNat / cfg.tamBloque]? = some b ∧
      Cumple c' { t with memoria := escribirPagina t.memoria p a b } := by
  obtain ⟨harch, hpag⟩ := hp
  obtain ⟨f, hdir, ha, hf⟩ := paginaPedida_marco hR hpag
  have htam := hR.medidas.pagina
  obtain ⟨g, b, hle, hn, hb⟩ := guardados_leer hR.archivos harch
  set data := leerPalabras (memDe b) 0 (cfg.tamBloque / 4) with hdata
  have hwrite : memoryWrite c.memoria.handler (f * cfg.tamBloque) (List.ofFn b) =
      some (escribirValorPagina c.memoria.handler (f * cfg.tamBloque) data) := by
    rw [memoryWrite, htam, desempaquetar_ofFn]
    rfl
  refine ⟨{ c with memoria := { c.memoria with
    handler := escribirValorPagina c.memoria.handler (f * cfg.tamBloque) data } }, g, b, ?_, hn, hb, ?_⟩
  · rw [servir, hdir]
    simp only [Option.bind_eq_bind, Option.bind_some, hle, hwrite, Option.pure_def]
  · have hpids : p ∈ c.memoria.pids := by
      obtain ⟨l, hl, -⟩ := hf
      exact hR.memoria.vivos p _ l hl
    have hmismas : MismasPosiciones c.memoria.handler
        (escribirValorPagina c.memoria.handler (f * cfg.tamBloque) data) := ⟨rfl, rfl⟩
    refine cumple_of_mismas hR hmismas (.refl c.fs) rfl rfl ⟨hR.memoria.propios.of_espacio _,
      guarda_escribirPagina hR.memoria.guarda hR.memoria.propios.toBase htam hf b, hR.memoria.abierto,
      hR.memoria.marcos, hR.memoria.faltas, hR.memoria.vivos, fun q hq x => ?_⟩
    rw [escribirPagina, if_neg fun h : q = p ∧ _ => hq (h.1 ▸ hpids)]
    exact hR.memoria.nuevos q hq x

/-- **One request** is served as the processes see it. -/
theorem servir_hace {ped : Pedido cfg} (hR : Cumple c t) (hp : Permitida c ped) :
    ∃ c' r t', servir c ped = some (c', r) ∧ Hace t ped r t' ∧ Cumple c' t' := by
  cases ped with
  | newProcess p size resto =>
    obtain ⟨c', hs, hR'⟩ := newProcess_hace hR hp
    exact ⟨c', _, t, hs, ⟨rfl, rfl⟩, hR'⟩
  | exitProcess p =>
    obtain ⟨c', hs, hR'⟩ := exitProcess_hace hR hp
    exact ⟨c', _, t, hs, ⟨rfl, rfl⟩, hR'⟩
  | frameRequest p nro op ahora =>
    obtain ⟨c', hs, hR'⟩ := frameRequest_hace hR hp
    exact ⟨c', _, t, hs, ⟨rfl, rfl⟩, hR'⟩
  | loadFrame p nro ahora orden =>
    obtain ⟨c', hs, hR'⟩ := loadFrame_hace hR hp
    exact ⟨c', _, t, hs, ⟨rfl, rfl⟩, hR'⟩
  | movOut p a v =>
    obtain ⟨c', hs, hR'⟩ := movOut_hace hR hp
    exact ⟨c', _, _, hs, ⟨rfl, rfl⟩, hR'⟩
  | movIn p a => exact ⟨c, _, t, movIn_hace hR hp, ⟨rfl, rfl⟩, hR⟩
  | abrir n =>
    exact ⟨c, _, t, rfl, ⟨congrArg Respuesta.tamanio (guardados_abrir hR.archivos), rfl⟩, hR⟩
  | crear n =>
    obtain ⟨hnada, hg⟩ := guardados_crear hR.archivos hp
    exact ⟨_, _, _, rfl, ⟨rfl, hnada, rfl⟩, cumple_of_archivos hR ⟨rfl, fun _ _ => rfl⟩ hg⟩
  | truncar n k =>
    obtain ⟨fs', f, bs, htr, hn, hlen, hg, hsolo⟩ := guardados_truncar hR.archivos hp
    exact ⟨{ c with fs := fs' }, _, _, by rw [servir, htr]; rfl, ⟨rfl, f, bs, hn, hlen, rfl⟩,
      cumple_of_archivos hR hsolo hg⟩
  | escribir n puntero p a =>
    obtain ⟨c', f, hs, hn, hlt, hR'⟩ := escribir_hace hR hp
    exact ⟨c', _, _, hs, ⟨rfl, f, hn, hlt, rfl⟩, hR'⟩
  | leer n puntero p a =>
    obtain ⟨c', f, b, hs, hn, hb, hR'⟩ := leer_hace hR hp
    exact ⟨c', _, _, hs, ⟨rfl, f, b, hn, hb, rfl⟩, hR'⟩

end Paso

/-! ### Runs -/

theorem cumple_inicial {tamanioMemoria tamanioPagina : ℕ} {algoritmo : Reemplazo} {espacio : Mem}
    {h : Handler} (bloques : BloquesDat cfg.tamBloque)
    (hcrear : createHandlerPaginacion tamanioMemoria tamanioPagina algoritmo espacio = some h)
    (hmarcos : 0 < h.espacioUsuario.cantidadMarcos) (htam : tamanioPagina = cfg.tamBloque)
    (h4 : 4 ∣ cfg.tamBloque) (h8 : 8 ∣ cfg.cantBloquesSwap) :
    Cumple (inicial h bloques) (vacio cfg.tamBloque) := by
  obtain ⟨e, he, hr⟩ := Option.bind_eq_some_iff.mp hcrear
  have hpos : posiciones h = Dict.empty := by
    obtain rfl := Option.some.inj hr
    rfl
  have hR := refleja_inicial hcrear hmarcos
  have hsin : ∀ p i l, lugar h p i ≠ some l := fun p i l hl => by
    obtain ⟨ps, hps, -⟩ := posicion_de_lugar hl
    rw [hpos] at hps
    cases hps
  have hprop : Propios (inicial h bloques).vista.handler :=
    { largo := hR.propios.largo, bits := hR.propios.bits, identidad := hR.propios.identidad,
      unico := hR.propios.unico, ocupado := hR.propios.ocupado }
  refine ⟨⟨?_, h4⟩, ?_, fun p ps hps => ?_, ⟨hprop, ⟨fun p i q j l l' hl => ?_,
    fun p l a hl => ?_⟩, hR.abierto, hR.marcos, hR.faltas, hR.vivos, hR.nuevos⟩, guardados_inicial bloques⟩
  · obtain rfl := Option.some.inj hr
    exact htam
  · change Invariante ⟨_, posiciones h⟩
    rw [hpos]
    exact invariante_congr (invariante_inicial h8 (FileSystem.Archivo.inicial cfg bloques)) rfl
  · change (posiciones h).get p = some ps at hps
    rw [hpos] at hps
    cases hps
  · exact absurd hl (hsin p i l)
  · exact absurd hl (hsin p _ l)

section Corrida
variable {tamanioMemoria tamanioPagina : ℕ} {algoritmo : Reemplazo} {espacio : Mem} {h : Handler}
  {bloques : BloquesDat cfg.tamBloque} {as : List (Pedido cfg)}

/-- An allowed run is served, and the relation holds where it ends. -/
theorem corrida_hace
    (hcrear : createHandlerPaginacion tamanioMemoria tamanioPagina algoritmo espacio = some h)
    (hmarcos : 0 < h.espacioUsuario.cantidadMarcos) (htam : tamanioPagina = cfg.tamBloque)
    (h4 : 4 ∣ cfg.tamBloque) (h8 : 8 ∣ cfg.cantBloquesSwap)
    (hrun : Along (next servir) Permitida (inicial h bloques) as) :
    ∃ c rs t, serve servir (inicial h bloques) as = some (c, rs) ∧
      Trace Hace (vacio cfg.tamBloque) as rs t ∧ Cumple c t := by
  have hstep : ∀ (c : Conjunto cfg) (t : Almacen cfg.tamBloque) ped, Cumple c t → Permitida c ped →
      ∃ c' r t', servir c ped = some (c', r) ∧ Hace t ped r t' ∧ Cumple c' t' :=
    fun _ _ _ hR hp => servir_hace hR hp
  exact serve_trace hstep (cumple_inicial bloques hcrear hmarcos htam h4 h8) hrun

end Corrida

/-- One frame of sixteen bytes. -/
def unMarcoChico : Handler := ⟨Dict.empty, ⟨16, 1, [0], fun _ => 0⟩, [], .LRU, 16, false, 0, fun _ _ => 0⟩

/-- A process of two pages writes a word in the first one and puts the page in a file; the page goes out
for the second one, which the file is read into. -/
def porArchivo : List (Pedido cfgChica) :=
  [.newProcess 1 32 fun _ _ => 0, .frameRequest 1 0 .ESCRIBIR 1, .loadFrame 1 0 2 [1],
    .frameRequest 1 0 .ESCRIBIR 3, .movOut 1 4 7, .crear "a", .truncar "a" 16,
    .frameRequest 1 0 .ESCRIBIR 4, .escribir "a" 0 1 0, .frameRequest 1 1 .LEER 5,
    .loadFrame 1 1 6 [1], .frameRequest 1 1 .LEER 7, .leer "a" 0 1 16, .movIn 1 20]

end OperatingSystem.Almacenamiento.Refinamiento
