import OperatingSystem.Memoria.Contenido

/-! # The end of a process and the pages of the others

`remover_proceso` gives back the frames that the entries of the process name and its swap positions, and
frees its table. It trusts the entries: a page that was replaced without having been modified still says
that it is in its frame, which is another page's by now. And it leaves the pending pages as they are.

`remociones_iff`: in a run, every removal affects its process only (`SoloAfecta`) exactly when no page
of another process is in a frame that an entry of the process names, and no pending page is of the
process. -/

namespace OperatingSystem.Memoria.Remociones

open OperatingSystem.Lib.Dictionary OperatingSystem.Lib.Run
open OperatingSystem.Memoria.Paginas OperatingSystem.Memoria.HandlerPaginacion
open OperatingSystem.Memoria.Lugares OperatingSystem.Memoria.Marcos OperatingSystem.Memoria.Contenido

/-! ### Runs -/

/-- The handler, and the swap positions that the file system gave and did not get back. -/
structure Sistema where
  handler : Handler
  tomadas : List ℤ

def inicial (h : Handler) : Sistema := ⟨h, []⟩

/-- The positions that `liberar_posiciones_swap` puts in the packet `SWAP_END_PROCESS`. -/
def posicionesALiberar (h : Handler) (pid : ℤ) : List ℤ :=
  match h.pidTablas.get pid with
  | some tabla => tabla.paginas.map Pagina.posSwap
  | none => []

def atender (s : Sistema) (a : Accion) : Option Sistema := do
  let h ← ejecutar s.handler a
  match a with
  | .generar _ _ posiciones => return ⟨h, s.tomadas ++ posiciones⟩
  | .remover pid => return ⟨h, s.tomadas.filter (· ∉ posicionesALiberar s.handler pid)⟩
  | _ => return { s with handler := h }

/-- A table is created for a process without one, with swap positions that are free; only a page that is
not there is loaded; a process that ends has a table. -/
def Protocolo (s : Sistema) : Accion → Prop
  | .generar pid _ posiciones => s.handler.pidTablas.get pid = none ∧ posiciones.Nodup ∧
      ∀ pos ∈ posiciones, pos ∉ s.tomadas
  | .remover pid => (s.handler.pidTablas.get pid).isSome
  | a => Marcos.Protocolo s.handler a

/-- **What is expected of a removal** of the process `p`. -/
structure SoloAfecta (s : Sistema) (p : ℤ) (s' : Sistema) : Prop where
  paginas : ∀ q j, q ≠ p → pagina s'.handler q j = pagina s.handler q j
  contenidos : ∀ q j pag, q ≠ p → pagina s.handler q j = some pag →
    ∀ k < s.handler.tamanioPagina,
      s'.handler.espacioUsuario.espacio (pag.nroFrame * s.handler.tamanioPagina + k) =
        s.handler.espacioUsuario.espacio (pag.nroFrame * s.handler.tamanioPagina + k) ∧
      s'.handler.swap pag.posSwap k = s.handler.swap pag.posSwap k
  ocupados : ∀ q j f, q ≠ p → EnMarco s.handler q j f →
    s'.handler.espacioUsuario.marcosOcupados[f]? = some 1
  libres : ∀ i f, EnMarco s.handler p i f → s.handler.espacioUsuario.marcosOcupados[f]? = some 1 ∧
    s'.handler.espacioUsuario.marcosOcupados[f]? = some 0
  intactos : ∀ f : ℕ, (∀ i, ¬EnMarco s.handler p i f) →
    s'.handler.espacioUsuario.marcosOcupados[f]? = s.handler.espacioUsuario.marcosOcupados[f]?
  posiciones : ∀ pos, (pos ∈ s.tomadas ∧ pos ∉ s'.tomadas) ↔
    ∃ i pag, pagina s.handler p i = some pag ∧ pag.posSwap = pos
  pendientes : ∀ ptr ∈ s'.handler.paginasPendientesModificacion, ptr.pid ≠ p

def Remocion (s : Sistema) : Accion → Prop
  | .remover pid => ∃ s', atender s (.remover pid) = some s' ∧ SoloAfecta s pid s'
  | _ => True

/-- No page of another process is in a frame of a page of the process, and no pending page is of the
process. -/
def Condicion (s : Sistema) : Accion → Prop
  | .remover pid => (∀ i q j f, EnMarco s.handler pid i f → EnMarco s.handler q j f → q = pid) ∧
      ∀ ptr ∈ s.handler.paginasPendientesModificacion, ptr.pid ≠ pid
  | _ => True

variable {h h' : Handler} {s s' : Sistema} {p q : ℤ} {i j f g : ℕ} {pag : Pagina} {orden : List ℤ}

theorem condicion_remover_iff :
    ((∀ p' i pag, pagina s.handler p' i = some pag → p' = p ∧ pag.bitPresencia = 1 →
        ∀ q j pag', pagina s.handler q j = some pag' →
          pag'.bitPresencia = 1 ∧ pag'.nroFrame = pag.nroFrame → q = p) ∧
      ∀ ptr ∈ s.handler.paginasPendientesModificacion, ptr.pid ≠ p) ↔ Condicion s (.remover p) := by
  refine and_congr_left fun _ => ?_
  constructor
  · intro hc i q j f hi hj
    obtain ⟨pag, hp, hpres, rfl⟩ := enMarco_iff.mp hi
    obtain ⟨pag', hq, hpres', hf⟩ := enMarco_iff.mp hj
    exact hc p i pag hp ⟨rfl, hpres⟩ q j pag' hq ⟨hpres', hf⟩
  · rintro hc _ i pag hp ⟨rfl, hpres⟩ q j pag' hq ⟨hpres', hf⟩
    exact hc i q j pag.nroFrame (enMarco_iff.mpr ⟨pag, hp, hpres, rfl⟩)
      (enMarco_iff.mpr ⟨pag', hq, hpres', hf⟩)

instance (h : Handler) (P : ℤ → ℕ → Pagina → Prop) [∀ p i pag, Decidable (P p i pag)] :
    Decidable (∀ p i pag, pagina h p i = some pag → P p i pag) :=
  decidable_of_iff _ forall_pagina_iff

instance (s : Sistema) : ∀ a, Decidable (Condicion s a)
  | .remover _ => decidable_of_iff _ condicion_remover_iff
  | .generar .. | .obtenerMarco .. | .cargar .. | .escribir .. => isTrue trivial

/-! ### The invariant -/

/-- What holds also where pages share frames: a page knows who it is, its frame is marked, and its swap
position is its own. -/
structure Inv (s : Sistema) : Prop where
  identidad : ∀ p i l, lugar s.handler p i = some l → l.pid = p ∧ l.nroPagina = i
  ocupado : ∀ p i f, EnMarco s.handler p i f → s.handler.espacioUsuario.marcosOcupados[f]? = some 1
  distintas : Distintas s.handler
  tomada : ∀ p i l, lugar s.handler p i = some l → l.posSwap ∈ s.tomadas

theorem mem_posicionesALiberar {pos : ℤ} : pos ∈ posicionesALiberar h p ↔
    ∃ i pag, pagina h p i = some pag ∧ pag.posSwap = pos := by
  cases ht : h.pidTablas.get p with
  | none => simp [posicionesALiberar, pagina, ht]
  | some tabla =>
    rw [posicionesALiberar, ht]
    simp only [List.mem_map, pagina_of_get ht]
    constructor
    · rintro ⟨pag, hm, rfl⟩
      obtain ⟨i, hi⟩ := List.mem_iff_getElem?.mp hm
      exact ⟨i, pag, hi, rfl⟩
    · rintro ⟨i, pag, hi, rfl⟩
      exact ⟨pag, List.mem_of_getElem? hi, rfl⟩

/-- A removal that goes through. -/
theorem remover_spec (hp : (s.handler.pidTablas.get p).isSome) :
    ∃ h', removerProceso s.handler p = some h' ∧ atender s (.remover p) =
      some ⟨h', s.tomadas.filter (· ∉ posicionesALiberar s.handler p)⟩ := by
  obtain ⟨tabla, ht⟩ := Option.isSome_iff_exists.mp hp
  have hr : removerProceso s.handler p = some { setEspacio s.handler (liberarMarcos tabla.paginas
      s.handler.espacioUsuario) with pidTablas := s.handler.pidTablas.remove p } := by
    rw [removerProceso, ht]
    rfl
  refine ⟨_, hr, ?_⟩
  change (removerProceso s.handler p).bind _ = _
  rw [hr]
  rfl

theorem pagina_removerProceso (hr : removerProceso h p = some h') (hq : q ≠ p) :
    pagina h' q j = pagina h q j := by
  obtain ⟨tabla, -, hr⟩ := Option.bind_eq_some_iff.mp hr
  obtain rfl := Option.some.inj hr
  rw [pagina, pagina, setEspacio, Dict.get_remove_of_ne _ hq]

theorem pendientes_removerProceso (hr : removerProceso h p = some h') :
    h'.paginasPendientesModificacion = h.paginasPendientesModificacion := by
  obtain ⟨tabla, -, hr⟩ := Option.bind_eq_some_iff.mp hr
  obtain rfl := Option.some.inj hr
  rfl

/-- **When a removal affects its process only.** -/
theorem remocion_iff (hI : Inv s) (hp : (s.handler.pidTablas.get p).isSome) :
    Remocion s (.remover p) ↔ Condicion s (.remover p) := by
  obtain ⟨h', hr, hs⟩ := remover_spec hp
  obtain ⟨hl, hesp, -, -, hlibre, hotro, hswap, -⟩ := removerProceso_spec hr
  have hpend := pendientes_removerProceso hr
  constructor
  · rintro ⟨s', hs', hsolo⟩
    obtain rfl := Option.some.inj (hs.symm.trans hs')
    refine ⟨fun i q j f hi hj => ?_, fun ptr hptr =>
      hsolo.pendientes ptr (by rw [← hpend] at hptr; exact hptr)⟩
    by_contra hq
    have h1 := hsolo.ocupados q j f hq hj
    rw [(hsolo.libres i f hi).2] at h1
    exact absurd h1 (by simp)
  · rintro ⟨hmarcos, hpendientes⟩
    refine ⟨_, hs, ?_, ?_, ?_, ?_, ?_, ?_, ?_⟩
    · exact fun q j hq => pagina_removerProceso hr hq
    · intro q j pag _ _ k _
      rw [hesp, hswap]
      exact ⟨rfl, rfl⟩
    · intro q j f hq hj
      rw [hotro f fun ⟨i, hi⟩ => hq (hmarcos i q j f hi hj)]
      exact hI.ocupado q j f hj
    · intro i f hi
      have huno := hI.ocupado p i f hi
      refine ⟨huno, ?_⟩
      rw [hlibre f ⟨i, hi⟩, huno]
      rfl
    · intro f hf
      exact hotro f fun ⟨i, hi⟩ => hf i hi
    · intro pos
      rw [← mem_posicionesALiberar]
      simp only [List.mem_filter, decide_eq_true_eq, not_and, not_not]
      constructor
      · exact fun h => h.2 h.1
      · intro hpos
        obtain ⟨i, pag, hpag, rfl⟩ := mem_posicionesALiberar.mp hpos
        exact ⟨hI.tomada p i _ (lugar_eq_some.mpr ⟨pag, hpag, rfl⟩), fun _ => hpos⟩
    · intro ptr hptr
      rw [hpend] at hptr
      exact hpendientes ptr hptr

/-! ### What the steps keep -/

/-- A step that moves no page and marks no frame. -/
theorem Inv.of_lugar {tomadas : List ℤ} (hI : Inv ⟨h, tomadas⟩)
    (hl : ∀ q j, lugar h' q j = lugar h q j)
    (hm : h'.espacioUsuario.marcosOcupados = h.espacioUsuario.marcosOcupados) :
    Inv ⟨h', tomadas⟩ where
  identidad p i l hp := hI.identidad p i l ((hl p i).symm.trans hp)
  ocupado p i f hp := by
    change h'.espacioUsuario.marcosOcupados[f]? = some 1
    rw [hm]
    exact hI.ocupado p i f ((enMarco_congr (hl p i)).mp hp)
  distintas := hI.distintas.of_posSwap fun q j l hq => ⟨l, (hl q j).symm.trans hq, rfl⟩
  tomada p i l hp := hI.tomada p i l ((hl p i).symm.trans hp)

/-- **A page comes in**, into a frame that is free or that it shares. -/
theorem inv_alojar {tomadas : List ℤ} (hI : Inv ⟨h, tomadas⟩) {ahora : ℤ}
    {r : Option ℕ × Handler} (hf : f < h.espacioUsuario.marcosOcupados.length)
    (hr : alojar h p i f ahora = some r) : Inv ⟨r.2, tomadas⟩ := by
  obtain ⟨l₀, h', rfl, hl₀, hl', he, -⟩ := alojar_inv hr
  have hpos : ∀ q j l, lugar h' q j = some l →
      ∃ l₁, lugar h q j = some l₁ ∧ l₁.posSwap = l.posSwap := by
    intro q j l hl
    rw [hl'] at hl
    split_ifs at hl with hqj
    · obtain ⟨rfl, rfl⟩ := hqj
      obtain rfl := Option.some.inj hl
      exact ⟨l₀, hl₀, rfl⟩
    · exact ⟨l, hl, rfl⟩
  refine ⟨fun q j l hl => ?_, fun q j g hq => ?_, hI.distintas.of_posSwap hpos, fun q j l hl => ?_⟩
  · change lugar h' q j = some l at hl
    rw [hl'] at hl
    split_ifs at hl with hqj
    · obtain ⟨rfl, rfl⟩ := hqj
      obtain rfl := Option.some.inj hl
      exact hI.identidad _ _ l₀ hl₀
    · exact hI.identidad q j l hl
  · change h'.espacioUsuario.marcosOcupados[g]? = some 1
    rw [he]
    change (h.espacioUsuario.marcosOcupados.set f 1)[g]? = some 1
    by_cases hg : f = g
    · subst hg
      exact List.getElem?_set_self hf
    · rw [List.getElem?_set_ne hg]
      obtain ⟨l, hl, hpres, hlg⟩ := hq
      change lugar h' q j = some l at hl
      rw [hl'] at hl
      split_ifs at hl with hqj
      · obtain rfl := Option.some.inj hl
        exact absurd hlg hg
      · exact hI.ocupado q j g ⟨l, hl, hpres, hlg⟩
  · obtain ⟨l₁, hl₁, heq⟩ := hpos q j l hl
    rw [← heq]
    exact hI.tomada q j l₁ hl₁

/-- **A modified page goes out**; its frame stays marked. -/
theorem inv_removida {tomadas : List ℤ} (hI : Inv ⟨h, tomadas⟩) {r : Option Pagina × Handler}
    (hv : paginaAReemplazar h orden = some (some pag)) (hm : pag.bitModificado = 1)
    (hr : removerPaginaMemoria h orden = some r) : Inv ⟨r.2, tomadas⟩ ∧
      r.2.espacioUsuario = h.espacioUsuario := by
  obtain ⟨hp, -⟩ := victima_of_identidad hI.identidad hv
  obtain ⟨-, hl', he, -⟩ := removerPaginaMemoria_spec hr hv hm hp
  have hlug : ∀ q j l, lugar r.2 q j = some l → ∃ l₁, lugar h q j = some l₁ ∧
      l₁.pid = l.pid ∧ l₁.nroPagina = l.nroPagina ∧ l₁.posSwap = l.posSwap ∧
      (l.bitPresencia = 1 → l = l₁) := by
    intro q j l hl
    rw [hl'] at hl
    split_ifs at hl with hqj
    · obtain ⟨rfl, rfl⟩ := hqj
      obtain rfl := Option.some.inj hl
      exact ⟨_, lugar_eq_some.mpr ⟨pag, hp, rfl⟩, rfl, rfl, rfl, fun h0 => absurd h0 Nat.zero_ne_one⟩
    · exact ⟨l, hl, rfl, rfl, rfl, fun _ => rfl⟩
  refine ⟨⟨fun q j l hl => ?_, fun q j g hq => ?_, hI.distintas.of_posSwap fun q j l hl => ?_,
    fun q j l hl => ?_⟩, he⟩
  · obtain ⟨l₁, hl₁, h1, h2, -⟩ := hlug q j l hl
    rw [← h1, ← h2]
    exact hI.identidad q j l₁ hl₁
  · change r.2.espacioUsuario.marcosOcupados[g]? = some 1
    rw [he]
    obtain ⟨l, hl, hpres, hlg⟩ := hq
    obtain ⟨l₁, hl₁, -, -, -, heq⟩ := hlug q j l hl
    obtain rfl := heq hpres
    exact hI.ocupado q j g ⟨l, hl₁, hpres, hlg⟩
  · obtain ⟨l₁, hl₁, -, -, h3, -⟩ := hlug q j l hl
    exact ⟨l₁, hl₁, h3⟩
  · obtain ⟨l₁, hl₁, -, -, h3, -⟩ := hlug q j l hl
    rw [← h3]
    exact hI.tomada q j l₁ hl₁

theorem inv_cargar {tomadas : List ℤ} (hI : Inv ⟨h, tomadas⟩) {nro : ℕ} {ahora : ℤ}
    {r : Option ℕ × Handler} (hr : cargarEnMemoria h p nro ahora orden = some r) :
    Inv ⟨r.2, tomadas⟩ := by
  rcases cargarEnMemoria_ramas hr with
    he | ⟨he, -⟩ | ⟨f, hf, ha⟩ | ⟨pag, h₁, -, -, hv, hrem, hm, ha⟩
  · rw [he]
    exact hI
  · rw [he]
    exact hI.of_lugar (fun _ _ => rfl) rfl
  · obtain ⟨hlt, -⟩ := List.findIdx?_eq_some_iff_getElem.mp hf
    exact inv_alojar hI hlt ha
  · -- the frame of the victim is marked
    obtain ⟨hp, hpres⟩ := victima_of_identidad hI.identidad hv
    have huno := hI.ocupado _ _ _ (enMarco_iff.mpr ⟨pag, hp, hpres, rfl⟩)
    have hlt := (List.getElem?_eq_some_iff.mp huno).1
    rcases hm with hm | rfl
    · obtain ⟨hI₁, he⟩ := inv_removida hI hv hm hrem
      exact inv_alojar hI₁ (by rw [he]; exact hlt) ha
    · exact inv_alojar hI hlt ha

theorem inv_generar {tamanio : ℕ} {posiciones : List ℤ} (hI : Inv s)
    (hp : Protocolo s (.generar p tamanio posiciones))
    (hr : generarTablaPaginas s.handler p tamanio posiciones = some h') :
    Inv ⟨h', s.tomadas ++ posiciones⟩ := by
  obtain ⟨-, hnd, hlibres⟩ := hp
  obtain ⟨hl', he, -⟩ := generarTablaPaginas_spec hr
  refine ⟨fun q j l hl => ?_, fun q j g hq => ?_, hI.distintas.generar hnd (fun q j l hl hm =>
    hlibres _ hm (hI.tomada q j l hl)) hr, fun q j l hl => ?_⟩
  · rw [hl'] at hl
    split_ifs at hl with hq
    · obtain ⟨pos, -, rfl⟩ := Option.map_eq_some_iff.mp hl
      exact ⟨hq.symm, rfl⟩
    · exact hI.identidad q j l hl
  · obtain ⟨l, hl, hpres, hlg⟩ := hq
    rw [hl'] at hl
    change h'.espacioUsuario.marcosOcupados[g]? = some 1
    rw [he]
    split_ifs at hl with hq
    · obtain ⟨pos, -, rfl⟩ := Option.map_eq_some_iff.mp hl
      exact absurd hpres Nat.zero_ne_one
    · exact hI.ocupado q j g ⟨l, hl, hpres, hlg⟩
  · rw [hl'] at hl
    split_ifs at hl with hq
    · obtain ⟨pos, hpos, rfl⟩ := Option.map_eq_some_iff.mp hl
      exact List.mem_append_right _ (List.mem_of_getElem? hpos)
    · exact List.mem_append_left _ (hI.tomada q j l hl)

/-- **A process ends** that shares no frame. -/
theorem inv_remover (hI : Inv s) (hc : Condicion s (.remover p))
    (hr : removerProceso s.handler p = some h') :
    Inv ⟨h', s.tomadas.filter (· ∉ posicionesALiberar s.handler p)⟩ := by
  obtain ⟨hl', -, -, -, -, hotro, -⟩ := removerProceso_spec hr
  have hlug : ∀ q j l, lugar h' q j = some l → q ≠ p ∧ lugar s.handler q j = some l := by
    intro q j l hl
    rw [hl'] at hl
    split_ifs at hl with hq
    exact ⟨hq, hl⟩
  refine ⟨fun q j l hl => hI.identidad q j l (hlug q j l hl).2, fun q j g hq => ?_,
    hI.distintas.of_posSwap fun q j l hl => ⟨l, (hlug q j l hl).2, rfl⟩, fun q j l hl => ?_⟩
  · obtain ⟨l, hl, hpres, hlg⟩ := hq
    obtain ⟨hq, hl⟩ := hlug q j l hl
    have hen : EnMarco s.handler q j g := ⟨l, hl, hpres, hlg⟩
    refine (hotro g ?_).trans (hI.ocupado q j g hen)
    rintro ⟨i, hi⟩
    exact hq (hc.1 i q j g hi hen)
  · obtain ⟨hq, hl⟩ := hlug q j l hl
    simp only [List.mem_filter, decide_eq_true_eq]
    refine ⟨hI.tomada q j l hl, fun hm => ?_⟩
    obtain ⟨i, pag, hpag, hpos⟩ := mem_posicionesALiberar.mp hm
    exact hq (hI.distintas q j p i l _ hl (lugar_eq_some.mpr ⟨pag, hpag, rfl⟩) hpos.symm).1

/-- **One step** of a run whose removals share no frame. -/
theorem inv_atender {a : Accion} (hI : Inv s) (hp : Protocolo s a) (hc : Condicion s a)
    (hs : atender s a = some s') : Inv s' := by
  obtain ⟨h', hr, hs⟩ := Option.bind_eq_some_iff.mp hs
  cases a with
  | generar pid tamanio posiciones =>
    obtain rfl := Option.some.inj hs
    exact inv_generar hI hp hr
  | obtenerMarco pid nro op ahora =>
    obtain rfl := Option.some.inj hs
    obtain ⟨r, hm, rfl⟩ := Option.map_eq_some_iff.mp hr
    have hig := (obtenerMarco_spec hm).1
    exact Inv.of_lugar hI hig.lugar (by rw [hig.espacioUsuario])
  | cargar pid nro ahora orden =>
    obtain rfl := Option.some.inj hs
    obtain ⟨r, hm, rfl⟩ := Option.map_eq_some_iff.mp hr
    exact inv_cargar hI hm
  | escribir dir valor =>
    obtain rfl := Option.some.inj hs
    have hig := escribirValor_spec hr
    exact Inv.of_lugar hI hig.lugar (by rw [hig.espacioUsuario]; rfl)
  | remover pid =>
    obtain rfl := Option.some.inj hs
    exact inv_remover hI hc hr

theorem inv_inicial {tamanioMemoria tamanioPagina : ℕ} {algoritmo : Reemplazo}
    {espacio : Lib.Bytes.Mem}
    (hcrear : createHandlerPaginacion tamanioMemoria tamanioPagina algoritmo espacio = some h) :
    Inv (inicial h) := by
  obtain ⟨e, he, hr⟩ := Option.bind_eq_some_iff.mp hcrear
  obtain rfl := Option.some.inj hr
  have hnada : ∀ p i, lugar ⟨Dict.empty, e, [], algoritmo, tamanioPagina, false, 0, fun _ _ => 0⟩ p i =
      none := fun p i => rfl
  refine ⟨fun p i l hl => ?_, fun p i f hp => ?_, fun p i q j l l' hl => ?_, fun p i l hl => ?_⟩
  · exact absurd (hl.symm.trans (hnada p i)) (by simp)
  · obtain ⟨l, hl, -⟩ := hp
    exact absurd (hl.symm.trans (hnada p i)) (by simp)
  · exact absurd (hl.symm.trans (hnada p i)) (by simp)
  · exact absurd (hl.symm.trans (hnada p i)) (by simp)

/-- **Removing a process affects only that process**, all along a run, exactly when no page of another
process is in a frame that an entry of the process names, and no pending page is of the process. -/
theorem remociones_iff {tamanioMemoria tamanioPagina : ℕ} {algoritmo : Reemplazo}
    {espacio : Lib.Bytes.Mem} {as : List Accion}
    (hcrear : createHandlerPaginacion tamanioMemoria tamanioPagina algoritmo espacio = some h)
    (hrun : Along atender Protocolo (inicial h) as) :
    Along atender Remocion (inicial h) as ↔ Along atender Condicion (inicial h) as := by
  refine along_congr (I := Inv) (fun s a hI hp => ?_)
    (fun _ _ _ hI hp hc hs => inv_atender hI hp hc hs) (inv_inicial hcrear) hrun
  cases a with
  | remover pid => exact remocion_iff hI hp
  | _ => exact Iff.rfl

/-- Two processes with a page each in memory; the first one ends. -/
def seVa : List Accion :=
  [.generar 1 8 [0, 4], .generar 2 4 [8], .cargar 1 0 10 [1, 2], .obtenerMarco 1 0 .ESCRIBIR 11,
    .escribir 0 7, .cargar 2 0 12 [2, 1], .remover 1]

theorem remociones_iff_seVa : Along atender Remocion (inicial dosMarcos) seVa := by
  have hcrear : createHandlerPaginacion 8 4 .FIFO (fun _ => 0) = some dosMarcos := rfl
  have hrun : Along atender Protocolo (inicial dosMarcos) seVa :=
    .of_step ⟨rfl, by decide, by decide⟩ rfl <| .of_step ⟨rfl, by decide, by decide⟩ rfl <|
    .of_step (ausente_of_eq rfl rfl) rfl <| .of_step trivial rfl <| .of_step trivial rfl <|
    .of_step (ausente_of_eq rfl rfl) rfl <| .of_step rfl rfl trivial
  exact (remociones_iff hcrear hrun).mpr (by decide +kernel)

/-- The page of the second process replaces that of the first, which nobody wrote to. -/
def comparten : List Accion :=
  [.generar 1 4 [0], .generar 2 4 [4], .cargar 1 0 10 [1, 2], .cargar 2 0 12 [1, 2]]

/-- **The slip.** The end of the first process frees the frame that the page of the second is in. -/
theorem remocion_ajena :
    createHandlerPaginacion 4 4 .FIFO (fun _ => 0) = some (unMarco .FIFO) ∧
    Along atender Protocolo (inicial (unMarco .FIFO)) (comparten ++ [.remover 1]) ∧
    ¬Along atender Remocion (inicial (unMarco .FIFO)) (comparten ++ [.remover 1]) := by
  refine ⟨rfl, ?_, fun hrem => ?_⟩
  · exact .of_step ⟨rfl, by decide, by decide⟩ rfl <| .of_step ⟨rfl, by decide, by decide⟩ rfl <|
      .of_step (ausente_of_eq rfl rfl) rfl <| .of_step (ausente_of_eq rfl rfl) rfl <|
      .of_step rfl rfl trivial
  · have hmal : (exec atender (inicial (unMarco .FIFO)) comparten).map (fun s =>
        (decide (EnMarco s.handler 2 0 0), (atender s (.remover 1)).map fun s' =>
          s'.handler.espacioUsuario.marcosOcupados)) = some (true, some [0]) := by decide +kernel
    obtain ⟨s, hs, hmal⟩ := Option.map_eq_some_iff.mp hmal
    obtain ⟨hen, hlibre⟩ := Prod.mk.inj hmal
    obtain ⟨s', hs', hsolo⟩ := ((along_append.mp hrem).2 s hs).1
    rw [hs', Option.map_some, Option.some.injEq] at hlibre
    have huno := hsolo.ocupados 2 0 0 (by decide) (of_decide_eq_true hen)
    rw [hlibre] at huno
    exact absurd huno (by decide)

end OperatingSystem.Memoria.Remociones
