import OperatingSystem.Memoria.Contenido
import OperatingSystem.Memoria.Pedidos

/-! # What a process wrote it reads

`Refleja s m`: the memory behaves as the flat memory `m`. Every request keeps the relation, with `m`
changed by a `MOV_OUT` (`atender_spec`), and `lee_lo_escrito` is that every `MOV_IN` answers the last
word written.

`Protocolo` is what the kernel, the CPU and the file system promise. `Condicion` is where the code
keeps its own promise: only modified pages are replaced, the page is still in the frame that the CPU was
told, and the search for the page to mark as modified meets no page of a process that ended. -/

namespace OperatingSystem.Memoria.Lectura

open OperatingSystem.Lib.Dictionary OperatingSystem.Lib.Run
open OperatingSystem.Memoria.Paginas OperatingSystem.Memoria.HandlerPaginacion
open OperatingSystem.Memoria.Lugares OperatingSystem.Memoria.Marcos OperatingSystem.Memoria.Contenido
open OperatingSystem.Memoria.Pedidos

/-- What the processes wrote. -/
def servirPlana (m : Plana) : Pedido → Plana
  | .movOut pid dirLogica valor => m.escribir pid dirLogica valor
  | _ => m

/-- The last word that was written to every address, or `0`. -/
def memoriaPlana (as : List Pedido) : Plana := as.foldl servirPlana fun _ _ => 0

/-- A page of a process that has a table is in the table. -/
def EnTabla (h : Handler) (pid : ℤ) (nro : ℕ) : Prop :=
  (h.pidTablas.get pid).isSome → ∃ l, lugar h pid nro = some l

/-- A `MOV` at an aligned address of the table, in the last frame told for this operation. -/
def MovPedido (s : Sistema) (pid : ℤ) (dirLogica : ℕ) (op : TipoOperacion) : Prop :=
  dirLogica % 4 = 0 ∧ (∃ l, lugar s.handler pid (s.nroPagina dirLogica) = some l) ∧
    ∃ marco, s.traducciones (pid, s.nroPagina dirLogica) = some (marco, op)

/-- The file system gives every page a swap position that no other page has; a page is loaded after a
page fault only; `orden` is the order in which `dictionary_elements` lists the tables. -/
def Protocolo (s : Sistema) : Pedido → Prop
  | .newProcess pid size posiciones => pid ∉ s.pids ∧
      posiciones.length = size / s.handler.tamanioPagina ∧ posiciones.Nodup ∧
      ∀ q j l, lugar s.handler q j = some l → l.posSwap ∉ posiciones
  | .frameRequest pid pagina _ _ => EnTabla s.handler pid pagina
  | .loadFrame pid pagina _ orden => s.faltas (pid, pagina) = true ∧ EnTabla s.handler pid pagina ∧
      orden.Perm s.handler.pidTablas.keys
  | .movOut pid dirLogica _ => MovPedido s pid dirLogica .ESCRIBIR
  | .movIn pid dirLogica => MovPedido s pid dirLogica .LEER
  | .exitProcess pid => (s.handler.pidTablas.get pid).isSome

/-- The page is still in the frame told, and the word does not leave the whole words of the page. -/
def Vigente (s : Sistema) (pid : ℤ) (dirLogica : ℕ) : Prop :=
  (∀ marco op, s.traducciones (pid, s.nroPagina dirLogica) = some (marco, op) →
    EnMarco s.handler pid (s.nroPagina dirLogica) marco) ∧
  dirLogica % s.handler.tamanioPagina + 4 ≤ 4 * (s.handler.tamanioPagina / 4)

def Condicion (s : Sistema) : Pedido → Prop
  | .newProcess _ size _ => size / s.handler.tamanioPagina ≤ CANT_PAGINAS
  | .loadFrame pid _ _ orden => ReemplazaModificada s.handler pid orden ∧
      ((s.handler.pidTablas.get pid).isSome → obtenerFrameLibre s.handler.espacioUsuario = none →
        s.handler.tamanioPagina % 4 = 0)
  | .movOut pid dirLogica _ => Vigente s pid dirLogica ∧ ∀ dirFisica ∈ s.dirFisica pid dirLogica,
      (encontrarPaginaAModificar s.handler (espacioObtenerFrame s.handler.espacioUsuario dirFisica)
        s.handler.paginasPendientesModificacion).isSome
  | .movIn pid dirLogica => Vigente s pid dirLogica
  | _ => True

instance (h : Handler) (pid : ℤ) (nro : ℕ) : Decidable (EnTabla h pid nro) :=
  decidable_of_iff ((h.pidTablas.get pid).isSome → (lugar h pid nro).isSome) <| by
    simp [EnTabla, Option.isSome_iff_exists]

instance (s : Sistema) (pid : ℤ) (dirLogica : ℕ) (op : TipoOperacion) :
    Decidable (MovPedido s pid dirLogica op) :=
  decidable_of_iff (dirLogica % 4 = 0 ∧ (lugar s.handler pid (s.nroPagina dirLogica)).isSome ∧
      (s.traducciones (pid, s.nroPagina dirLogica)).map Prod.snd = some op) <| by
    simp [MovPedido, Option.isSome_iff_exists]

instance (s : Sistema) (pid : ℤ) (dirLogica : ℕ) : Decidable (Vigente s pid dirLogica) :=
  decidable_of_iff ((∀ t ∈ s.traducciones (pid, s.nroPagina dirLogica),
      EnMarco s.handler pid (s.nroPagina dirLogica) t.1) ∧
      dirLogica % s.handler.tamanioPagina + 4 ≤ 4 * (s.handler.tamanioPagina / 4)) <| by
    simp [Vigente, Option.mem_def]

theorem posSwap_libres_iff {h : Handler} {posiciones : List ℤ} :
    (∀ tabla ∈ h.pidTablas.elements, ∀ pag ∈ tabla.paginas, pag.posSwap ∉ posiciones) ↔
      ∀ q j l, lugar h q j = some l → l.posSwap ∉ posiciones := by
  constructor
  · intro hp q j l hl
    obtain ⟨pag, hpag, rfl⟩ := lugar_eq_some.mp hl
    obtain ⟨tabla, ht, hj⟩ := pagina_eq_some.mp hpag
    exact hp tabla (Dict.mem_elements.mpr ⟨q, ht⟩) pag (List.mem_of_getElem? hj)
  · intro hp tabla ht pag hpag
    obtain ⟨q, ht⟩ := Dict.mem_elements.mp ht
    obtain ⟨j, hj⟩ := List.mem_iff_getElem?.mp hpag
    exact hp q j (lugarDe pag) (lugar_eq_some.mpr ⟨pag, pagina_eq_some.mpr ⟨tabla, ht, hj⟩, rfl⟩)

instance (s : Sistema) : ∀ ped, Decidable (Protocolo s ped)
  | .newProcess pid size posiciones =>
    decidable_of_iff (pid ∉ s.pids ∧ posiciones.length = size / s.handler.tamanioPagina ∧
      posiciones.Nodup ∧ ∀ tabla ∈ s.handler.pidTablas.elements, ∀ pag ∈ tabla.paginas,
        pag.posSwap ∉ posiciones) <| by
      rw [posSwap_libres_iff]
      rfl
  | .frameRequest pid pagina _ _ => inferInstanceAs (Decidable (EnTabla s.handler pid pagina))
  | .loadFrame pid pagina _ orden =>
    inferInstanceAs (Decidable (s.faltas (pid, pagina) = true ∧ EnTabla s.handler pid pagina ∧
      orden.Perm s.handler.pidTablas.keys))
  | .movOut pid dirLogica _ => inferInstanceAs (Decidable (MovPedido s pid dirLogica .ESCRIBIR))
  | .movIn pid dirLogica => inferInstanceAs (Decidable (MovPedido s pid dirLogica .LEER))
  | .exitProcess pid => inferInstanceAs (Decidable ((s.handler.pidTablas.get pid).isSome = true))

instance (s : Sistema) : ∀ ped, Decidable (Condicion s ped)
  | .newProcess _ size _ => inferInstanceAs (Decidable (size / s.handler.tamanioPagina ≤ CANT_PAGINAS))
  | .loadFrame pid _ _ orden =>
    inferInstanceAs (Decidable (ReemplazaModificada s.handler pid orden ∧
      ((s.handler.pidTablas.get pid).isSome → obtenerFrameLibre s.handler.espacioUsuario = none →
        s.handler.tamanioPagina % 4 = 0)))
  | .movOut pid dirLogica _ =>
    inferInstanceAs (Decidable (Vigente s pid dirLogica ∧ ∀ dirFisica ∈ s.dirFisica pid dirLogica,
      (encontrarPaginaAModificar s.handler (espacioObtenerFrame s.handler.espacioUsuario dirFisica)
        s.handler.paginasPendientesModificacion).isSome))
  | .movIn pid dirLogica => inferInstanceAs (Decidable (Vigente s pid dirLogica))
  | .frameRequest .. | .exitProcess _ => isTrue trivial

/-- **The memory behaves as the flat memory.** -/
structure Refleja (s : Sistema) (m : Plana) : Prop where
  propios : Propios s.handler
  guarda : Guarda s.handler m
  abierto : s.handler.operacionesBloqueantes = false
  marcos : 0 < s.handler.espacioUsuario.cantidadMarcos
  faltas : ∀ p i, s.faltas (p, i) = true → ∀ l, lugar s.handler p i = some l → l.bitPresencia ≠ 1
  vivos : ∀ p i l, lugar s.handler p i = some l → p ∈ s.pids
  nuevos : ∀ p, p ∉ s.pids → ∀ a, m p a = 0

variable {s s' : Sistema} {m : Plana} {p : ℤ} {a : ℕ} {v : UInt32}

theorem nroPagina_eq (s : Sistema) (a : ℕ) : s.nroPagina a = a / s.handler.tamanioPagina := rfl

/-- A `MOV` of the protocol, where the translation holds: the word of the page in its frame. -/
theorem mov_vigente {op : TipoOperacion} (hp : MovPedido s p a op) (hc : Vigente s p a) :
    ∃ f, s.dirFisica p a = some (f * s.handler.tamanioPagina + a % s.handler.tamanioPagina) ∧
      EnMarco s.handler p (a / s.handler.tamanioPagina) f ∧
      EnPalabras s.handler.tamanioPagina a := by
  obtain ⟨ha, -, f, hf⟩ := hp
  refine ⟨f, ?_, hc.1 f op hf, ha, hc.2⟩
  rw [Sistema.dirFisica, hf, Option.map_some, traduccionLogicaAFisica_eq, Int.toNat_natCast]

/-- The answer to a `MOV_IN`. -/
theorem Refleja.movIn (hR : Refleja s m) (hp : Protocolo s (.movIn p a))
    (hc : Condicion s (.movIn p a)) : s.movIn p a = some (m p a) := by
  obtain ⟨f, hdir, hf, ha⟩ := mov_vigente hp hc
  rw [Sistema.movIn, hdir, Option.map_some, hR.guarda.leerValor_eq ha hf]

/-- A `MOV` right after its `FRAME_REQUEST`, with pages of whole words: the translation holds. -/
theorem vigente_frameRequest {op : TipoOperacion} {ahora : ℤ} {f : ℕ} {h : Handler}
    (htam : 4 ∣ s.handler.tamanioPagina) (hpos : 0 < s.handler.tamanioPagina) (ha : a % 4 = 0)
    (hr : frameRequest s.handler p (s.nroPagina a) op ahora = some (some f, h)) :
    Vigente { s with
      handler := h
      traducciones := Function.update s.traducciones (p, s.nroPagina a) (some (f, op)) } p a := by
  have hr' : obtenerMarco s.handler p (s.nroPagina a) op ahora = some (some f, h) := by
    unfold frameRequest at hr
    split_ifs at hr
    exact hr
  obtain ⟨hig, hf, -⟩ := obtenerMarco_spec hr'
  have hnro : a / h.tamanioPagina = s.nroPagina a := by rw [nroPagina_eq, hig.tamanioPagina]
  refine ⟨fun f' op' ht => ?_, ?_⟩
  · change Function.update s.traducciones (p, s.nroPagina a) (some (f, op))
      (p, a / h.tamanioPagina) = some (f', op') at ht
    change EnMarco h p (a / h.tamanioPagina) f'
    rw [hnro, Function.update_self] at ht
    obtain ⟨rfl, -⟩ := Prod.mk.inj (Option.some.inj ht)
    rw [hnro]
    exact (enMarco_congr (hig.lugar _ _)).mpr (hf f rfl)
  · change a % h.tamanioPagina + 4 ≤ 4 * (h.tamanioPagina / 4)
    rw [hig.tamanioPagina]
    exact (enPalabras_of_dvd htam hpos ha).2

/-! ### One request -/

/-- What only moves no page keeps the relation. -/
theorem Refleja.of_igual (hR : Refleja s m) (hig : Igual s.handler s'.handler)
    (hpids : s'.pids = s.pids) (hfaltas : ∀ p i, s'.faltas (p, i) = true → s.faltas (p, i) = true ∨
      ∀ l, lugar s.handler p i = some l → l.bitPresencia ≠ 1) : Refleja s' m where
  propios := hR.propios.of_igual hig
  guarda := hR.guarda.of_igual hig
  abierto := hig.operacionesBloqueantes.trans hR.abierto
  marcos := by rw [hig.espacioUsuario]; exact hR.marcos
  faltas p i hf l hl := by
    rw [hig.lugar] at hl
    exact (hfaltas p i hf).elim (fun hf => hR.faltas p i hf l hl) fun hf => hf l hl
  vivos p i l hl := by
    rw [hig.lugar] at hl
    exact hpids ▸ hR.vivos p i l hl
  nuevos := by rw [hpids]; exact hR.nuevos

theorem refleja_newProcess {size : ℕ} {posiciones : List ℤ} (hR : Refleja s m)
    (hp : Protocolo s (.newProcess p size posiciones))
    (hc : Condicion s (.newProcess p size posiciones)) :
    ∃ s', atender s (.newProcess p size posiciones) = some s' ∧ Refleja s' m := by
  obtain ⟨hnuevo, hlargo, hnd, hlibres⟩ := hp
  obtain ⟨h', hg⟩ : ∃ h', generarTablaPaginas s.handler p size posiciones = some h' :=
    ⟨_, if_pos ⟨hlargo, hc⟩⟩
  have halloc : allocateNewProcess s.handler p size posiciones = some h' := by
    rw [allocateNewProcess, hR.abierto]
    exact hg
  have hsin : ∀ i, lugar s.handler p i = none := fun i =>
    Option.eq_none_iff_forall_ne_some.mpr fun l hl => hnuevo (hR.vivos p i l hl)
  obtain ⟨hl', he, -, -, hmut⟩ := generarTablaPaginas_spec hg
  have hs : atender s (.newProcess p size posiciones) = some { s with
      handler := h'
      pids := p :: s.pids } := by
    rw [atender, halloc]
    rfl
  refine ⟨_, hs, propios_generar hR.propios hsin hg,
    hR.guarda.generar (hR.nuevos p hnuevo) hnd hlibres hg, hmut.trans hR.abierto,
    by rw [he]; exact hR.marcos, fun q i hf l hl => ?_, fun q i l hl => ?_, fun q hq a => ?_⟩
  · rw [hl'] at hl
    split_ifs at hl
    · obtain ⟨pos, -, rfl⟩ := Option.map_eq_some_iff.mp hl
      exact Nat.zero_ne_one
    · exact hR.faltas q i hf l hl
  · rw [hl'] at hl
    split_ifs at hl with hq
    · exact hq ▸ List.mem_cons_self
    · exact List.mem_cons_of_mem _ (hR.vivos q i l hl)
  · exact hR.nuevos q (fun hq' => hq (List.mem_cons_of_mem _ hq')) a

theorem refleja_frameRequest {nro : ℕ} {op : TipoOperacion} {ahora : ℤ} (hR : Refleja s m)
    (hp : EnTabla s.handler p nro) :
    ∃ s', atender s (.frameRequest p nro op ahora) = some s' ∧ Refleja s' m := by
  obtain ⟨⟨r, h'⟩, hr⟩ : ∃ r, obtenerMarco s.handler p nro op ahora = some r := by
    cases ht : s.handler.pidTablas.get p with
    | none => exact ⟨_, by rw [obtenerMarco, ht]⟩
    | some tabla =>
      obtain ⟨l, hl⟩ := hp (by simp [ht])
      obtain ⟨pag, hpag, -⟩ := lugar_eq_some.mp hl
      exact obtenerMarco_total hpag op ahora
  obtain ⟨hig, -, hfalta⟩ := obtenerMarco_spec hr
  have hreq : frameRequest s.handler p nro op ahora = some (r, h') := by
    rw [frameRequest, hR.abierto]
    exact hr
  cases r with
  | some f =>
    have hs : atender s (.frameRequest p nro op ahora) = some { s with
        handler := h'
        traducciones := Function.update s.traducciones (p, nro) (some (f, op)) } := by
      rw [atender, hreq]
      rfl
    exact ⟨_, hs, hR.of_igual hig rfl fun q i hf => Or.inl hf⟩
  | none =>
    have hs : atender s (.frameRequest p nro op ahora) = some { s with
        handler := h'
        faltas := Function.update s.faltas (p, nro) true } := by
      rw [atender, hreq]
      rfl
    refine ⟨_, hs, hR.of_igual hig rfl fun q i hf => ?_⟩
    by_cases hqi : (q, i) = (p, nro)
    · obtain ⟨rfl, rfl⟩ := Prod.mk.inj hqi
      exact Or.inr (hfalta rfl)
    · exact Or.inl (by simpa [Function.update_of_ne hqi] using hf)

theorem refleja_loadFrame {nro : ℕ} {ahora : ℤ} {orden : List ℤ} (hR : Refleja s m)
    (hp : Protocolo s (.loadFrame p nro ahora orden))
    (hc : Condicion s (.loadFrame p nro ahora orden)) :
    ∃ s', atender s (.loadFrame p nro ahora orden) = some s' ∧ Refleja s' m := by
  obtain ⟨hfalta, htabla, horden⟩ := hp
  have habs := hR.faltas p nro hfalta
  obtain ⟨r, hr⟩ := cargarEnMemoria_total hR.propios hR.marcos hR.abierto ahora horden htabla hc.1 hc.2
  obtain ⟨hmut, hcant, hlug⟩ := cargarEnMemoria_resto hR.propios hR.marcos hc.1 hr
  have hs : atender s (.loadFrame p nro ahora orden) = some { s with
      handler := r.2
      faltas := Function.update s.faltas (p, nro) false } := by
    rw [atender, hr]
    rfl
  refine ⟨_, hs, propios_cargar hR.propios habs hc.1 hr,
    hR.guarda.cargar hR.propios habs hc.1 hr, hmut.trans hR.abierto, by rw [hcant]; exact hR.marcos,
    fun q i hf l hl hpres => ?_, fun q i l hl => ?_, hR.nuevos⟩
  · obtain ⟨l₀, hl₀, -, himp⟩ := hlug q i l hl
    change Function.update s.faltas (p, nro) false (q, i) = true at hf
    by_cases hqi : (q, i) = (p, nro)
    · rw [hqi, Function.update_self] at hf
      exact absurd hf Bool.false_ne_true
    · rw [Function.update_of_ne hqi] at hf
      exact hR.faltas q i hf l₀ hl₀ (himp (fun h => hqi (by rw [h.1, h.2])) hpres)
  · obtain ⟨l₀, hl₀, -, -⟩ := hlug q i l hl
    exact hR.vivos q i l₀ hl₀

theorem refleja_movOut (hR : Refleja s m) (hp : Protocolo s (.movOut p a v))
    (hc : Condicion s (.movOut p a v)) :
    ∃ s', atender s (.movOut p a v) = some s' ∧ Refleja s' (m.escribir p a v) := by
  obtain ⟨f, hdir, hf, ha⟩ := mov_vigente hp hc.1
  obtain ⟨h', hw⟩ := escribirValor_total v (hc.2 _ hdir)
  have hpids : p ∈ s.pids := by
    obtain ⟨l, hl, -⟩ := hf
    exact hR.vivos p _ l hl
  have hR' : Refleja { s with handler := setEspacio s.handler (espacioEscribirValor
      s.handler.espacioUsuario (f * s.handler.tamanioPagina + a % s.handler.tamanioPagina) v) }
      (m.escribir p a v) :=
    ⟨hR.propios.of_espacio _, hR.guarda.escribir hR.propios.toBase ha hf v, hR.abierto, hR.marcos,
      hR.faltas, hR.vivos, fun q hq b => by
        rw [Plana.escribir, if_neg fun hqb : q = p ∧ b = a => hq (hqb.1 ▸ hpids)]
        exact hR.nuevos q hq b⟩
  have hs : atender s (.movOut p a v) = some { s with handler := h' } := by
    rw [atender, hdir]
    simp only [Option.bind_eq_bind, Option.bind_some, hw]
    rfl
  exact ⟨_, hs, hR'.of_igual (escribirValor_spec hw) rfl fun _ _ => Or.inl⟩

theorem refleja_exitProcess (hR : Refleja s m) (hp : Protocolo s (.exitProcess p)) :
    ∃ s', atender s (.exitProcess p) = some s' ∧ Refleja s' m := by
  obtain ⟨tabla, ht⟩ := Option.isSome_iff_exists.mp hp
  obtain ⟨h', hr⟩ : ∃ h', removerProceso s.handler p = some h' :=
    ⟨_, Option.bind_eq_some_iff.mpr ⟨tabla, ht, rfl⟩⟩
  obtain ⟨hl', -, hcant, -, -, -, -, -, hmut⟩ := removerProceso_spec hr
  have hvivo : ∀ q j l, lugar h' q j = some l → lugar s.handler q j = some l := by
    intro q j l hl
    rw [hl'] at hl
    split_ifs at hl
    exact hl
  have hs : atender s (.exitProcess p) = some { s with handler := h' } := by
    rw [atender, hr]
    rfl
  exact ⟨_, hs, propios_removerProceso hR.propios hr,
    hR.guarda.removerProceso hr, hmut.trans hR.abierto, by rw [hcant]; exact hR.marcos,
    fun q i hf l hl => hR.faltas q i hf l (hvivo q i l hl),
    fun q i l hl => hR.vivos q i l (hvivo q i l hl), hR.nuevos⟩

/-- **One request.** It is served, and the memory behaves as the flat memory after it. -/
theorem atender_spec {ped : Pedido} (hR : Refleja s m) (hp : Protocolo s ped)
    (hc : Condicion s ped) : ∃ s', atender s ped = some s' ∧ Refleja s' (servirPlana m ped) := by
  cases ped with
  | newProcess pid size posiciones => exact refleja_newProcess hR hp hc
  | frameRequest pid pagina operacion ahora => exact refleja_frameRequest hR hp
  | loadFrame pid pagina ahora orden => exact refleja_loadFrame hR hp hc
  | movOut pid dirLogica valor => exact refleja_movOut hR hp hc
  | movIn pid dirLogica => exact ⟨s, by rw [atender, hR.movIn hp hc]; rfl, hR⟩
  | exitProcess pid => exact refleja_exitProcess hR hp

/-! ### Runs -/

theorem refleja_inicial {tamanioMemoria tamanioPagina : ℕ} {algoritmo : Reemplazo}
    {espacio : Lib.Bytes.Mem} {h : Handler}
    (hcrear : createHandlerPaginacion tamanioMemoria tamanioPagina algoritmo espacio = some h)
    (hmarcos : 0 < h.espacioUsuario.cantidadMarcos) : Refleja (inicial h) fun _ _ => 0 := by
  have hsin : ∀ p i l, lugar h p i ≠ some l := by
    obtain ⟨e, -, hr⟩ := Option.bind_eq_some_iff.mp hcrear
    obtain rfl := Option.some.inj hr
    intro p i l hl
    simp [lugar, pagina] at hl
  have habierto : h.operacionesBloqueantes = false := by
    obtain ⟨e, -, hr⟩ := Option.bind_eq_some_iff.mp hcrear
    obtain rfl := Option.some.inj hr
    rfl
  exact ⟨propios_inicial hcrear, ⟨fun p i q j l l' hl => absurd hl (hsin p i l),
    fun p l a hl => absurd hl (hsin p _ l)⟩, habierto, hmarcos, fun _ _ hf => by simp [inicial] at hf,
    fun p i l hl => absurd hl (hsin p i l), fun _ _ _ => rfl⟩

/-- **Read your writes.** In every run in which the code keeps its promise, with any number of frames
and either algorithm, a `MOV_IN` answers the last word that the process wrote there. -/
theorem lee_lo_escrito {tamanioMemoria tamanioPagina : ℕ} {algoritmo : Reemplazo}
    {espacio : Lib.Bytes.Mem} {h : Handler} {as : List Pedido}
    (hcrear : createHandlerPaginacion tamanioMemoria tamanioPagina algoritmo espacio = some h)
    (hmarcos : 0 < h.espacioUsuario.cantidadMarcos)
    (hrun : Along atender (fun s ped => Protocolo s ped ∧ Condicion s ped) (inicial h)
      (as ++ [.movIn p a])) :
    ∃ s, exec atender (inicial h) as = some s ∧ s.movIn p a = some (memoriaPlana as p a) := by
  obtain ⟨has, hmov⟩ := along_append.mp hrun
  have hstep : ∀ s m ped, Refleja s m → Protocolo s ped ∧ Condicion s ped →
      ∃ s', atender s ped = some s' ∧ Refleja s' (servirPlana m ped) :=
    fun s m ped hR hC => atender_spec hR hC.1 hC.2
  obtain ⟨s, hs, hR⟩ := exec_simulation hstep (refleja_inicial hcrear hmarcos) has
  have hC := (hmov s hs).1
  exact ⟨s, hs, hR.movIn hC.1 hC.2⟩

/-- Two pages take turns in one frame, both written to. -/
def turnos : List Pedido :=
  [.newProcess 1 8 [0, 4], .frameRequest 1 0 .ESCRIBIR 1, .loadFrame 1 0 2 [1],
    .frameRequest 1 0 .ESCRIBIR 3, .movOut 1 0 7, .frameRequest 1 1 .ESCRIBIR 4, .loadFrame 1 1 5 [1],
    .frameRequest 1 1 .ESCRIBIR 6, .movOut 1 4 9, .frameRequest 1 0 .LEER 7, .loadFrame 1 0 8 [1],
    .frameRequest 1 0 .LEER 9]

theorem lee_lo_escrito_turnos : ∃ s, exec atender (inicial (unMarco .LRU)) turnos = some s ∧
    s.movIn 1 0 = some (memoriaPlana turnos 1 0) := by
  have hcrear : createHandlerPaginacion 4 4 .LRU (fun _ => 0) = some (unMarco .LRU) := rfl
  have hrun : Along atender (fun s ped => Protocolo s ped ∧ Condicion s ped) (inicial (unMarco .LRU))
      (turnos ++ [.movIn 1 0]) := by decide +kernel
  exact lee_lo_escrito hcrear (by decide) hrun

/-- `MOV_IN 0`, `MOV_OUT 4` and `MOV_IN 0` again, up to the answer to the last one: the second page
replaces the first, which was only read. -/
def pisada : List Pedido :=
  [.newProcess 1 8 [0, 4], .frameRequest 1 0 .LEER 1, .loadFrame 1 0 2 [1],
    .frameRequest 1 0 .LEER 3, .movIn 1 0, .frameRequest 1 1 .ESCRIBIR 4, .loadFrame 1 1 5 [1],
    .frameRequest 1 1 .ESCRIBIR 6, .movOut 1 4 7, .frameRequest 1 0 .LEER 7]

/-- **Another page's word.** A `MOV_IN` in a page that was never written to answers what was written
to the page that now has its frame. -/
theorem movIn_de_otra_pagina :
    createHandlerPaginacion 4 4 .FIFO (fun _ => 0) = some (unMarco .FIFO) ∧
    Along atender Protocolo (inicial (unMarco .FIFO)) (pisada ++ [.movIn 1 0]) ∧
    (exec atender (inicial (unMarco .FIFO)) pisada).bind (·.movIn 1 0) = some 7 ∧
    memoriaPlana pisada 1 0 = 0 := by
  refine ⟨rfl, ?_, ?_, rfl⟩
  · decide +kernel
  · decide +kernel

end OperatingSystem.Memoria.Lectura
