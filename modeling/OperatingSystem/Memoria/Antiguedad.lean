import OperatingSystem.Lib.Caches
import OperatingSystem.Memoria.Marcos
import OperatingSystem.Memoria.Pedidos
import OperatingSystem.Memoria.Reemplazo

/-! # The memory is a cache

The handler keeps no list of the pages in memory: each entry has its times, and who has to go is found by
looking at all of them. `edad` is the time that the replacement looks at. The pages in memory with these
times are a cache of as many pages as there are frames, by the policy of the algorithm
(`memoria_cache`); so with `LRU` a larger memory has at every moment the pages that a smaller one has, and
no more page faults (`mas_memoria`).

An access is served to its end before the next one: the `FRAME_REQUEST`, and after a page fault the load
and the `FRAME_REQUEST` again (`usar`). -/

namespace OperatingSystem.Memoria.Antiguedad

open OperatingSystem.Lib.Caches OperatingSystem.Lib.Dictionary OperatingSystem.Lib.Run
open OperatingSystem.Memoria.Paginas OperatingSystem.Memoria.HandlerPaginacion
open OperatingSystem.Memoria.Lugares OperatingSystem.Memoria.Marcos OperatingSystem.Memoria.Pedidos
open OperatingSystem.Memoria.Reemplazo (EnMemoria encontrarPagina_minima mem_paginasEnMemoria)

def politica : Reemplazo → Policy
  | .FIFO => .fifo
  | .LRU => .lru

/-- The time that the replacement compares. -/
def fecha : Reemplazo → Pagina → Option ℤ
  | .FIFO => Pagina.creacion
  | .LRU => Pagina.ultimaLectura

/-- The same of a page in memory. -/
def edadDe (algoritmo : Reemplazo) (pag : Pagina) : Option ℤ :=
  if paginaEstaEnMemoria pag then some ((fecha algoritmo pag).getD 0) else none

/-- **The times of the pages in memory.** -/
def edad (h : Handler) (k : ℤ × ℕ) : Option ℤ :=
  (pagina h k.1 k.2).bind (edadDe h.algoritmoReemplazo)

section

variable {h h' : Handler} {p q : ℤ} {i j f : ℕ} {pag pag' : Pagina} {tabla : TablaPaginas} {t : ℤ}

/-- The tables and the algorithm are all that counts. -/
theorem edad_congr (htablas : h'.pidTablas = h.pidTablas)
    (halg : h'.algoritmoReemplazo = h.algoritmoReemplazo) : edad h' = edad h := by
  funext k
  rw [edad, edad, pagina, pagina, htablas, halg]

/-- An assignment to a page. -/
theorem edad_setTabla (ht : h.pidTablas.get p = some tabla) (hi : tabla.paginas[i]? = some pag)
    (pag' : Pagina) : edad (setTabla h p { tabla with paginas := tabla.paginas.set i pag' }) =
      Function.update (edad h) (p, i) (edadDe h.algoritmoReemplazo pag') := by
  funext ⟨q, j⟩
  rw [edad, pagina_setTabla ht hi]
  by_cases hqj : q = p ∧ j = i
  · obtain ⟨rfl, rfl⟩ := hqj
    rw [if_pos ⟨rfl, rfl⟩, Function.update_self]
    rfl
  · rw [if_neg hqj, Function.update_of_ne fun he => hqj (Prod.mk.inj he)]
    rfl

/-- An assignment that leaves its time alone. -/
theorem edad_setTabla_igual (ht : h.pidTablas.get p = some tabla) (hi : tabla.paginas[i]? = some pag)
    (hpag : edadDe h.algoritmoReemplazo pag' = edadDe h.algoritmoReemplazo pag) :
    edad (setTabla h p { tabla with paginas := tabla.paginas.set i pag' }) = edad h := by
  rw [edad_setTabla ht hi, hpag]
  refine Function.update_eq_self_iff.mpr ?_
  rw [edad, pagina_of_get ht, hi]
  rfl

theorem isSome_edad : (edad h (p, i)).isSome ↔ ∃ f, EnMarco h p i f := by
  unfold edad
  cases hp : pagina h p i with
  | none => simp [EnMarco, lugar, hp]
  | some pag => simp [EnMarco, lugar, hp, edadDe, paginaEstaEnMemoria]

/-! ### What the functions do -/

/-- The answer to a request for a frame, and the time that it leaves. -/
theorem obtenerMarco_edad {op : TipoOperacion} {r : Option ℕ × Handler}
    (hr : obtenerMarco h p i op t = some r) :
    r.2.algoritmoReemplazo = h.algoritmoReemplazo ∧ (r.1.isSome ↔ (edad h (p, i)).isSome) ∧
      (r.1 = none → r.2 = h) ∧ (r.1.isSome → edad r.2 = match h.algoritmoReemplazo with
        | .FIFO => edad h
        | .LRU => Function.update (edad h) (p, i) (some t)) := by
  obtain ⟨-, hsome, hnone⟩ := obtenerMarco_spec hr
  have hiff : r.1.isSome ↔ (edad h (p, i)).isSome := by
    rw [isSome_edad]
    constructor
    · intro hs
      obtain ⟨f, hf⟩ := Option.isSome_iff_exists.mp hs
      obtain ⟨l, hl, hpres, hm⟩ := hsome f hf
      exact ⟨f, l, hl, hpres, hm⟩
    · rintro ⟨f, l, hl, hpres, -⟩
      by_contra hs
      exact hnone (Option.not_isSome_iff_eq_none.mp hs) l hl hpres
  cases ht : h.pidTablas.get p with
  | none =>
    rw [obtenerMarco, ht] at hr
    obtain rfl := Option.some.inj hr
    exact ⟨rfl, hiff, fun _ => rfl, fun hs => by cases hs⟩
  | some tabla =>
    rw [obtenerMarco, ht] at hr
    obtain ⟨pag, hi, hr⟩ := Option.bind_eq_some_iff.mp hr
    by_cases hpres : paginaEstaEnMemoria pag
    · rw [if_pos hpres] at hr
      obtain ⟨tabla', ht', hr⟩ := Option.bind_eq_some_iff.mp hr
      obtain ⟨pag₁, hi₁, rfl⟩ := modificar_eq_some.mp ht'
      obtain rfl := Option.some.inj (hi.symm.trans hi₁)
      obtain rfl := Option.some.inj hr
      refine ⟨by dsimp only; split_ifs <;> rfl, hiff, fun hs => (by cases hs), fun _ => ?_⟩
      have hed := edad_setTabla ht hi { pag with ultimaLectura := some t }
      have hig : edad (if op = .ESCRIBIR then
          { setTabla h p { tabla with
              paginas := tabla.paginas.set i { pag with ultimaLectura := some t } } with
            paginasPendientesModificacion := h.paginasPendientesModificacion ++
              [⟨p, tabla.serie, i⟩] }
          else setTabla h p { tabla with
            paginas := tabla.paginas.set i { pag with ultimaLectura := some t } }) =
          edad (setTabla h p { tabla with
            paginas := tabla.paginas.set i { pag with ultimaLectura := some t } }) := by
        split_ifs <;> exact edad_congr rfl rfl
      refine Eq.trans hig (hed.trans ?_)
      have hpres' : paginaEstaEnMemoria { pag with ultimaLectura := some t } = true := hpres
      cases halg : h.algoritmoReemplazo with
      | FIFO =>
        refine Function.update_eq_self_iff.mpr ?_
        rw [edad, pagina_of_get ht, hi, halg]
        rfl
      | LRU => rw [edadDe, if_pos hpres']; rfl
    · rw [if_neg hpres] at hr
      obtain rfl := Option.some.inj hr
      exact ⟨rfl, hiff, fun _ => rfl, fun hs => by cases hs⟩

/-- A page that comes in has the time of the load. -/
theorem alojar_edad {r : Option ℕ × Handler} (hr : alojar h p i f t = some r) :
    r.2.algoritmoReemplazo = h.algoritmoReemplazo ∧
      edad r.2 = Function.update (edad h) (p, i) (some t) := by
  obtain ⟨tabla, pag, ht, hi, rfl⟩ := alojar_eq_some hr
  refine ⟨rfl, ?_⟩
  have ht₀ : (setEspacio h (marcarFrameOcupado h.espacioUsuario f)).pidTablas.get p = some tabla := ht
  have hed := edad_setTabla ht₀ hi (pag.cargada f t)
  have hcarga : edadDe h.algoritmoReemplazo (pag.cargada f t) = some t := by
    cases h.algoritmoReemplazo <;> rfl
  exact (edad_congr rfl rfl).trans (hed.trans (congrArg _ hcarga))

/-- A modified page that goes out has none. -/
theorem removerPaginaMemoria_edad {orden : List ℤ} {r : Option Pagina × Handler}
    (hr : removerPaginaMemoria h orden = some r) (hv : paginaAReemplazar h orden = some (some pag))
    (hm : pag.bitModificado = 1) : r.2.algoritmoReemplazo = h.algoritmoReemplazo ∧
      edad r.2 = Function.update (edad h) (pag.pid, pag.nroPagina) none := by
  rw [removerPaginaMemoria, hv] at hr
  simp only [Option.bind_eq_bind, Option.bind_some, if_pos hm] at hr
  obtain ⟨tabla, ht, hr⟩ := Option.bind_eq_some_iff.mp hr
  obtain ⟨tabla', ht', hr⟩ := Option.bind_eq_some_iff.mp hr
  obtain ⟨h₁, hs, hr⟩ := Option.bind_eq_some_iff.mp hr
  obtain rfl := Option.some.inj hr
  obtain ⟨pag₁, hi₁, rfl⟩ := modificar_eq_some.mp ht'
  obtain ⟨pag₂, -, hs⟩ := Option.bind_eq_some_iff.mp hs
  simp only at hs
  split_ifs at hs
  obtain rfl := Option.some.inj hs
  exact ⟨rfl, (edad_congr rfl rfl).trans (edad_setTabla ht hi₁ pag₁.removida)⟩

theorem escribirValor_edad {dir : ℕ} {v : UInt32} (hr : escribirValor h dir v = some h') :
    h'.algoritmoReemplazo = h.algoritmoReemplazo ∧ edad h' = edad h := by
  obtain ⟨⟨r, ps⟩, -, hr⟩ := Option.bind_eq_some_iff.mp hr
  cases r with
  | none =>
    obtain rfl := Option.some.inj hr
    exact ⟨rfl, edad_congr rfl rfl⟩
  | some ptr =>
    obtain ⟨tabla, ht, hr⟩ := Option.bind_eq_some_iff.mp hr
    obtain ⟨tabla', ht', hr⟩ := Option.bind_eq_some_iff.mp hr
    obtain ⟨pag, hi, rfl⟩ := modificar_eq_some.mp ht'
    obtain rfl := Option.some.inj hr
    have hpag : edadDe h.algoritmoReemplazo { pag with bitModificado := 1 } =
        edadDe h.algoritmoReemplazo pag := by
      cases h.algoritmoReemplazo <;> rfl
    exact ⟨rfl, (edad_setTabla_igual ht hi hpag).trans (edad_congr rfl rfl)⟩

/-- The pages of a new process are not in memory. -/
theorem generarTablaPaginas_edad {tamanio : ℕ} {posiciones : List ℤ}
    (hnueva : h.pidTablas.get p = none)
    (hr : generarTablaPaginas h p tamanio posiciones = some h') :
    h'.algoritmoReemplazo = h.algoritmoReemplazo ∧ edad h' = edad h := by
  simp only [generarTablaPaginas] at hr
  split_ifs at hr
  obtain rfl := Option.some.inj hr
  refine ⟨rfl, funext fun k => ?_⟩
  obtain ⟨q, j⟩ := k
  by_cases hqp : q = p
  · subst hqp
    have hantes : edad h (q, j) = none := by rw [edad, pagina, hnueva]; rfl
    rw [hantes, edad, pagina_of_get (Dict.get_put_self ..), createTablaPaginas, List.getElem?_mapIdx]
    cases posiciones[j]? <;> rfl
  · rw [edad, edad, pagina, pagina, setTabla, Dict.get_put_of_ne _ hqp]

/-- The pages of a process that ends are gone. -/
theorem removerProceso_edad (hr : removerProceso h p = some h') :
    h'.algoritmoReemplazo = h.algoritmoReemplazo ∧
      ∀ k, edad h' k = if k.1 ≠ p then edad h k else none := by
  obtain ⟨tabla, -, hr⟩ := Option.bind_eq_some_iff.mp hr
  obtain rfl := Option.some.inj hr
  refine ⟨rfl, fun ⟨q, j⟩ => ?_⟩
  by_cases hqp : q = p
  · subst hqp
    rw [if_neg (not_not_intro rfl), edad, pagina, setEspacio, Dict.get_remove_self]
    rfl
  · rw [if_pos hqp, edad, edad, pagina, pagina, setEspacio, Dict.get_remove_of_ne _ hqp]

/-- **The victim has the first time of all.** -/
theorem victima_edad {orden : List ℤ} (hB : Base h)
    (hv : paginaAReemplazar h orden = some (some pag)) :
    (edad h (pag.pid, pag.nroPagina)).isSome ∧
      ∀ s ∈ edad h (pag.pid, pag.nroPagina), ∀ k, ∀ t ∈ edad h k, s ≤ t := by
  obtain ⟨hp, hpres⟩ := hB.victima hv
  have hpres' : paginaEstaEnMemoria pag = true := by simpa [paginaEstaEnMemoria] using hpres
  have hed : edad h (pag.pid, pag.nroPagina) = some ((fecha h.algoritmoReemplazo pag).getD 0) := by
    rw [edad, hp, Option.bind_some, edadDe, if_pos hpres']
  rw [hed]
  refine ⟨rfl, fun s hs k t ht => ?_⟩
  obtain rfl := Option.some.inj hs
  obtain ⟨pag', hp', ht⟩ := Option.bind_eq_some_iff.mp ht
  unfold edadDe at ht
  split_ifs at ht with hpres₁
  obtain rfl := Option.some.inj ht
  obtain ⟨tablas, htablas, hv⟩ := Option.bind_eq_some_iff.mp hv
  obtain ⟨tabla, htabla, hi⟩ := pagina_eq_some.mp hp'
  have hmem : pag' ∈ Reemplazo.paginasEnMemoria tablas := (mem_paginasEnMemoria htablas).mpr
    ⟨k.1, tabla, htabla, List.mem_of_getElem? hi, hpres₁⟩
  have hmin := (encontrarPagina_minima (fecha h.algoritmoReemplazo) tablas).2 pag
  cases halg : h.algoritmoReemplazo with
  | FIFO =>
    rw [halg] at hv hmin
    exact hmin (Option.some.inj hv) pag' hmem
  | LRU =>
    rw [halg] at hv hmin
    exact hmin (Option.some.inj hv) pag' hmem

/-! ### The frames -/

/-- The frame of a page. -/
def marcoDe (h : Handler) (k : ℤ × ℕ) : ℕ := ((lugar h k.1 k.2).map Lugar.nroFrame).getD 0

theorem EnMarco.marcoDe (hf : EnMarco h p i f) : marcoDe h (p, i) = f := by
  obtain ⟨l, hl, -, rfl⟩ := hf
  rw [Antiguedad.marcoDe, hl]
  rfl

/-- The frames of the pages in memory. -/
theorem marcos_de_cache {c : List (ℤ × ℕ)} (hI : Propios h) (hc : Aged (edad h) c) :
    (c.map (marcoDe h)).Nodup ∧
      ∀ f, f ∈ c.map (marcoDe h) ↔ h.espacioUsuario.marcosOcupados[f]? = some 1 := by
  have hen : ∀ k ∈ c, EnMarco h k.1 k.2 (marcoDe h k) := by
    rintro ⟨p, i⟩ hk
    obtain ⟨f, hf⟩ := isSome_edad.mp ((hc.mem _).mp hk)
    rwa [EnMarco.marcoDe hf]
  refine ⟨List.Nodup.map_on (fun k hk k' hk' he => ?_) hc.nodup, fun f => ?_⟩
  · obtain ⟨h1, h2⟩ := hI.unico _ _ _ _ _ (hen k hk) (he ▸ hen k' hk')
    exact Prod.ext h1 h2
  · rw [hI.ocupado, List.mem_map]
    constructor
    · rintro ⟨k, hk, rfl⟩
      exact ⟨k.1, k.2, hen k hk⟩
    · rintro ⟨p, i, hf⟩
      exact ⟨(p, i), (hc.mem _).mpr (isSome_edad.mpr ⟨f, hf⟩), EnMarco.marcoDe hf⟩

/-- **Where a frame is free there is room in the cache.** -/
theorem length_lt_of_libre {c : List (ℤ × ℕ)} (hI : Propios h) (hc : Aged (edad h) c)
    (hf : obtenerFrameLibre h.espacioUsuario = some f) :
    c.length < h.espacioUsuario.cantidadMarcos := by
  obtain ⟨hnd, hmem⟩ := marcos_de_cache hI hc
  obtain ⟨hlt, hcero, -⟩ := List.findIdx?_eq_some_iff_getElem.mp hf
  have hget : h.espacioUsuario.marcosOcupados[f]? = some 0 := by
    rw [List.getElem?_eq_getElem hlt, of_decide_eq_true hcero]
  have hsub : f :: c.map (marcoDe h) ⊆ List.range h.espacioUsuario.cantidadMarcos := by
    intro g hg
    rw [List.mem_range, ← hI.largo]
    rcases List.mem_cons.mp hg with rfl | hg
    · exact hlt
    · exact (List.getElem?_eq_some_iff.mp ((hmem g).mp hg)).1
  have hnd' : (f :: c.map (marcoDe h)).Nodup := by
    refine List.nodup_cons.mpr ⟨fun hm => ?_, hnd⟩
    rw [hmem, hget] at hm
    exact absurd (Option.some.inj hm) Nat.zero_ne_one
  have hle := (List.subperm_of_subset hnd' hsub).length_le
  rwa [List.length_cons, List.length_map, List.length_range] at hle

/-- Where no frame is free there is none. -/
theorem length_eq_of_llena {c : List (ℤ × ℕ)} (hI : Propios h) (hc : Aged (edad h) c)
    (hf : obtenerFrameLibre h.espacioUsuario = none) :
    c.length = h.espacioUsuario.cantidadMarcos := by
  obtain ⟨hnd, hmem⟩ := marcos_de_cache hI hc
  have huno : ∀ g, g < h.espacioUsuario.cantidadMarcos ↔
      h.espacioUsuario.marcosOcupados[g]? = some 1 := by
    intro g
    rw [← hI.largo]
    refine ⟨fun hlt => ?_, fun hg => (List.getElem?_eq_some_iff.mp hg).1⟩
    have hget := List.getElem?_eq_getElem hlt
    have hne := List.findIdx?_eq_none_iff.mp hf _ (List.getElem_mem hlt)
    rcases hI.bits g _ hget with h0 | h1
    · simp [h0] at hne
    · rw [hget, h1]
  have hperm : (c.map (marcoDe h)).Perm (List.range h.espacioUsuario.cantidadMarcos) := by
    refine (List.perm_ext_iff_of_nodup hnd List.nodup_range).mpr fun g => ?_
    rw [hmem, List.mem_range, huno]
  rw [← List.length_map (marcoDe h), hperm.length_eq, List.length_range]

/-- **A load brings the page in**, for the last of the cache if there is no frame. -/
theorem cargarEnMemoria_edad {orden : List ℤ} {c : List (ℤ × ℕ)} {r : Option ℕ × Handler}
    (hI : Propios h) (hmarcos : 0 < h.espacioUsuario.cantidadMarcos) (hc : Aged (edad h) c)
    (hexiste : (lugar h p i).isSome) (hfuera : edad h (p, i) = none)
    (ht : ∀ k s, edad h k = some s → s < t) (hmod : ReemplazaModificada h p orden)
    (hr : cargarEnMemoria h p i t orden = some r) :
    r.2.algoritmoReemplazo = h.algoritmoReemplazo ∧ edad r.2 (p, i) = some t ∧
      (∀ k s, k ≠ (p, i) → edad r.2 k = some s → edad h k = some s) ∧
      Aged (edad r.2) ((p, i) :: c.take (h.espacioUsuario.cantidadMarcos - 1)) := by
  have hno : (p, i) ∉ c := fun hm => by
    rw [hc.mem, hfuera] at hm
    cases hm
  obtain ⟨l, hl⟩ := Option.isSome_iff_exists.mp hexiste
  obtain ⟨pag₀, hpag₀, -⟩ := lugar_eq_some.mp hl
  obtain ⟨tabla, htabla, -⟩ := pagina_eq_some.mp hpag₀
  rw [cargarEnMemoria, htabla] at hr
  simp only at hr
  split_ifs at hr
  cases hf : obtenerFrameLibre h.espacioUsuario with
  | some f =>
    rw [hf] at hr
    obtain ⟨halg, hed⟩ := alojar_edad hr
    have hlt := length_lt_of_libre hI hc hf
    rw [hed, List.take_of_length_le (by omega)]
    refine ⟨halg, Function.update_self .., fun k s hk hs => ?_, hc.insert hno ht⟩
    rwa [Function.update_of_ne hk] at hs
  | none =>
    rw [hf] at hr
    obtain ⟨⟨v, h₁⟩, hrem, hr⟩ := Option.bind_eq_some_iff.mp hr
    rcases removerPaginaMemoria_ramas hrem with ⟨-, hv⟩ | ⟨pag, hv, rfl, -⟩
    · exact absurd hv (paginaAReemplazar_ne_none hI hmarcos hf)
    · have hm : pag.bitModificado = 1 := hmod (by rw [htabla]; rfl) hf pag hv
      obtain ⟨halg₁, hed₁⟩ := removerPaginaMemoria_edad hrem hv hm
      obtain ⟨halg, hed⟩ := alojar_edad hr
      obtain ⟨hviva, hmin⟩ := victima_edad hI.toBase hv
      -- the last of the cache goes
      have hc₁ : Aged (edad h₁) c.dropLast := by
        rw [hed₁]
        exact hc.evict hviva hmin
      have hresto : ∀ k s, edad h₁ k = some s → edad h k = some s := by
        intro k s hk
        rw [hed₁] at hk
        by_cases hkv : k = (pag.pid, pag.nroPagina)
        · rw [hkv, Function.update_self] at hk
          cases hk
        · rwa [Function.update_of_ne hkv] at hk
      have hdrop : c.take (h.espacioUsuario.cantidadMarcos - 1) = c.dropLast := by
        rw [List.dropLast_eq_take, length_eq_of_llena hI hc hf]
      rw [hed, hdrop]
      refine ⟨halg.trans halg₁, Function.update_self .., fun k s hk hs => ?_,
        hc₁.insert (fun hm => hno (List.dropLast_subset c hm)) fun k s hk => ht k s (hresto k s hk)⟩
      rw [Function.update_of_ne hk] at hs
      exact hresto k s hs

end

/-! ### Accesses -/

inductive Acceso where
  | nuevo (pid : ℤ) (tamanioProceso : ℕ) (posiciones : List ℤ)
  | usar (pid : ℤ) (nroPagina : ℕ) (tipoOperacion : TipoOperacion) (ahora luego : ℤ) (orden : List ℤ)
  | escribir (dirFisica : ℕ) (valor : UInt32)
  | fin (pid : ℤ)

/-- `FRAME_REQUEST`; after a `-1` the page is loaded and the instruction asks again. -/
def usar (h : Handler) (pid : ℤ) (nroPagina : ℕ) (tipoOperacion : TipoOperacion) (ahora luego : ℤ)
    (orden : List ℤ) : Option Handler := do
  match ← frameRequest h pid nroPagina tipoOperacion ahora with
  | (some _, h) => return h
  | (none, h) =>
    let (_, h) ← cargarEnMemoria h pid nroPagina ahora orden
    let (_, h) ← frameRequest h pid nroPagina tipoOperacion luego
    return h

def servir (h : Handler) : Acceso → Option Handler
  | .nuevo pid tamanioProceso posiciones => allocateNewProcess h pid tamanioProceso posiciones
  | .usar pid nroPagina op ahora luego orden => usar h pid nroPagina op ahora luego orden
  | .escribir dirFisica valor => escribirValor h dirFisica valor
  | .fin pid => removerProceso h pid

/-- A table is created for a process without one, the pages used exist, and the pages replaced were
modified. -/
def Permitido (h : Handler) : Acceso → Prop
  | .nuevo pid _ _ => h.pidTablas.get pid = none
  | .usar pid nroPagina _ _ _ orden => (lugar h pid nroPagina).isSome ∧
      (edad h (pid, nroPagina) = none → ReemplazaModificada h pid orden)
  | _ => True

/-- The first `FRAME_REQUEST` is answered with a `-1`. -/
def Falta (h : Handler) : Acceso → Prop
  | .usar pid nroPagina op ahora _ _ =>
      (frameRequest h pid nroPagina op ahora).map Prod.fst = some none
  | _ => False

instance (h : Handler) : DecidablePred (Falta h)
  | .usar pid nroPagina op ahora _ _ =>
      inferInstanceAs (Decidable ((frameRequest h pid nroPagina op ahora).map Prod.fst = some none))
  | .nuevo .. | .escribir .. | .fin .. => inferInstanceAs (Decidable False)

/-- The page faults of a run. -/
def faltas : Handler → List Acceso → ℕ
  | _, [] => 0
  | h, a :: as => (if Falta h a then 1 else 0) + ((servir h a).elim 0 fun h' => faltas h' as)

/-- When a page is asked for, and when again. -/
def tiempos : Acceso → Option (ℤ × ℤ)
  | .usar _ _ _ ahora luego _ => some (ahora, luego)
  | _ => none

/-- The clock goes on from each access to the next. -/
def Sucesivos (as : List Acceso) : Prop :=
  (∀ x ∈ as.filterMap tiempos, x.1 ≤ x.2) ∧ (as.filterMap tiempos).Pairwise fun x y => x.2 < y.1

/-- What the policy sees of an access. -/
def logica : Acceso → Option (Event ℤ ℕ)
  | .usar pid nroPagina .. => some (.access pid nroPagina)
  | .fin pid => some (.leave pid)
  | _ => none

/-- The page `i` of `p` is in memory. -/
def Presente (h : Handler) (p : ℤ) (i : ℕ) : Prop :=
  ∃ pag, pagina h p i = some pag ∧ pag.bitPresencia = 1

/-- All the times are before `t`. -/
def Posterior (h : Handler) (t : ℤ) : Prop := ∀ k s, edad h k = some s → s < t

/-- **The handler is the cache `c` of `n` pages.** -/
structure Cacheada (algoritmo : Reemplazo) (n : ℕ) (h : Handler) (c : List (ℤ × ℕ)) : Prop
    extends Propios h where
  marcos : h.espacioUsuario.cantidadMarcos = n
  algoritmo : h.algoritmoReemplazo = algoritmo
  edades : Aged (edad h) c

def pasar (algoritmo : Reemplazo) (n : ℕ) (c : List (ℤ × ℕ)) (a : Acceso) : List (ℤ × ℕ) :=
  (logica a).elim c (step (politica algoritmo) n c)

section

variable {h h' : Handler} {p : ℤ} {i n : ℕ} {t u : ℤ} {algoritmo : Reemplazo} {c : List (ℤ × ℕ)}
  {a : Acceso} {as : List Acceso} {op : TipoOperacion} {orden : List ℤ}

theorem presente_iff : Presente h p i ↔ (edad h (p, i)).isSome := by
  rw [isSome_edad]
  simp only [Presente, enMarco_iff]
  exact ⟨fun ⟨pag, hp, hpres⟩ => ⟨_, pag, hp, hpres, rfl⟩, fun ⟨_, pag, hp, hpres, _⟩ => ⟨pag, hp, hpres⟩⟩

theorem frameRequest_eq_some {r : Option ℕ × Handler} (hr : frameRequest h p i op t = some r) :
    obtenerMarco h p i op t = some r := by
  unfold frameRequest at hr
  split_ifs at hr
  exact hr

/-- The page asked for is in memory. -/
theorem Cacheada.tocada {r : Option ℕ × Handler} (hC : Cacheada algoritmo n h c)
    (hk : (p, i) ∈ c) (ht : ∀ k s, k ≠ (p, i) → edad h k = some s → s < t)
    (hr : frameRequest h p i op t = some r) :
    Cacheada algoritmo n r.2 (touch (politica algoritmo) c (p, i)) ∧
      ∀ k s, edad r.2 k = some s → edad h k = some s ∨ s = t := by
  have hr := frameRequest_eq_some hr
  have hig := (obtenerMarco_spec hr).1
  obtain ⟨halg, hiff, -, hed⟩ := obtenerMarco_edad hr
  replace hed := hed (hiff.mpr ((hC.edades.mem _).mp hk))
  have hprop := hC.toPropios.of_igual hig
  have hmarcos : r.2.espacioUsuario.cantidadMarcos = n := by rw [hig.espacioUsuario, hC.marcos]
  rw [hC.algoritmo] at hed halg
  cases algoritmo with
  | FIFO =>
    have hed : edad r.2 = edad h := hed
    exact ⟨⟨hprop, hmarcos, halg, hed ▸ hC.edades⟩, fun k s hs => Or.inl (hed ▸ hs)⟩
  | LRU =>
    have hed : edad r.2 = Function.update (edad h) (p, i) (some t) := hed
    refine ⟨⟨hprop, hmarcos, halg, hed ▸ hC.edades.touch ht⟩, fun k s hs => ?_⟩
    rw [hed] at hs
    by_cases hki : k = (p, i)
    · rw [hki, Function.update_self] at hs
      exact Or.inr (Option.some.inj hs).symm
    · rw [Function.update_of_ne hki] at hs
      exact Or.inl hs

/-- The page asked for comes in. -/
theorem Cacheada.cargada {r : Option ℕ × Handler} (hC : Cacheada algoritmo n h c) (hn : 0 < n)
    (hexiste : (lugar h p i).isSome) (hfuera : edad h (p, i) = none) (ht : Posterior h t)
    (hmod : ReemplazaModificada h p orden) (hr : cargarEnMemoria h p i t orden = some r) :
    Cacheada algoritmo n r.2 ((p, i) :: c.take (n - 1)) ∧ edad r.2 (p, i) = some t ∧
      ∀ k s, k ≠ (p, i) → edad r.2 k = some s → edad h k = some s := by
  have hmarcos : 0 < h.espacioUsuario.cantidadMarcos := hC.marcos.symm ▸ hn
  have habs : ∀ l, lugar h p i = some l → l.bitPresencia ≠ 1 := by
    intro l hl hpres
    have hsome := isSome_edad.mpr ⟨_, l, hl, hpres, rfl⟩
    rw [hfuera] at hsome
    cases hsome
  obtain ⟨halg, hed, hresto, hedades⟩ :=
    cargarEnMemoria_edad hC.toPropios hmarcos hC.edades hexiste hfuera ht hmod hr
  rw [hC.marcos] at hedades
  refine ⟨⟨propios_cargar hC.toPropios habs hmod hr, ?_, halg.trans hC.algoritmo, hedades⟩, hed, hresto⟩
  exact (cargarEnMemoria_resto hC.toPropios hmarcos hmod hr).2.1.trans hC.marcos

/-- **A page is used** as a key of the cache is. -/
theorem Cacheada.usada (hC : Cacheada algoritmo n h c) (hn : 0 < n) (hexiste : (lugar h p i).isSome)
    (hmod : edad h (p, i) = none → ReemplazaModificada h p orden) (htu : t ≤ u) (ht : Posterior h t)
    (hr : usar h p i op t u orden = some h') :
    Cacheada algoritmo n h' (access (politica algoritmo) n c (p, i)) ∧
      (∀ k s, edad h' k = some s → edad h k = some s ∨ s = t ∨ s = u) ∧
      ((obtenerMarco h p i op t).map Prod.fst = some none ↔ (p, i) ∉ c) := by
  replace hr := Option.bind_eq_some_iff.mp hr
  obtain ⟨⟨r₁, h₁⟩, hr₁, hr⟩ := hr
  have hm := frameRequest_eq_some hr₁
  obtain ⟨-, hiff, hnada, -⟩ := obtenerMarco_edad hm
  have hfalta : (obtenerMarco h p i op t).map Prod.fst = some none ↔ (p, i) ∉ c := by
    rw [hm, hC.edades.mem, ← hiff]
    cases r₁ <;> simp
  cases r₁ with
  | some f =>
    obtain rfl := Option.some.inj hr
    have hk : (p, i) ∈ c := (hC.edades.mem _).mpr (hiff.mp rfl)
    obtain ⟨hC₁, hs⟩ := hC.tocada hk (fun k s _ => ht k s) hr₁
    rw [access, if_pos hk]
    exact ⟨hC₁, fun k s hks => (hs k s hks).imp_right Or.inl, hfalta⟩
  | none =>
    have hk : (p, i) ∉ c := fun hk => by cases hiff.mpr ((hC.edades.mem _).mp hk)
    have hfuera : edad h (p, i) = none := by
      rw [← Option.not_isSome_iff_eq_none, ← hC.edades.mem]
      exact hk
    obtain rfl : h₁ = h := hnada rfl
    obtain ⟨⟨r₂, h₂⟩, hr₂, hr⟩ := Option.bind_eq_some_iff.mp hr
    obtain ⟨⟨r₃, h₃⟩, hr₃, hr⟩ := Option.bind_eq_some_iff.mp hr
    obtain rfl := Option.some.inj hr
    obtain ⟨hC₂, hed, hresto⟩ := hC.cargada hn hexiste hfuera ht (hmod hfuera) hr₂
    obtain ⟨hC₃, hs⟩ := hC₂.tocada (List.mem_cons_self ..)
      (fun k s hne hks => (ht k s (hresto k s hne hks)).trans_le htu) hr₃
    have hfin : touch (politica algoritmo) ((p, i) :: c.take (n - 1)) (p, i) =
        (p, i) :: c.take (n - 1) := by
      cases algoritmo with
      | FIFO => rfl
      | LRU =>
        -- the page is at the front already
        have hself : (c.take (n - 1)).filter (· ≠ (p, i)) = c.take (n - 1) :=
          List.filter_eq_self.mpr fun x hx =>
            decide_eq_true fun he => hk (he ▸ List.mem_of_mem_take hx)
        rw [politica, touch, List.filter_cons_of_neg (by simp), hself]
    rw [hfin] at hC₃
    rw [access, if_neg hk]
    refine ⟨hC₃, fun k s hks => ?_, hfalta⟩
    rcases hs k s hks with hks | rfl
    · by_cases hki : k = (p, i)
      · rw [hki, hed] at hks
        exact Or.inr (Or.inl (Option.some.inj hks).symm)
      · exact Or.inl (hresto k s hki hks)
    · exact Or.inr (Or.inr rfl)

theorem posterior_congr (hed : ∀ k s, edad h' k = some s → edad h k = some s) (ht : Posterior h t) :
    Posterior h' t := fun k s hs => ht k s (hed k s hs)

/-- **One access.** -/
theorem Cacheada.servida (hC : Cacheada algoritmo n h c) (hn : 0 < n) (hp : Permitido h a)
    (ht : ∀ x ∈ tiempos a, x.1 ≤ x.2 ∧ Posterior h x.1) (hs : servir h a = some h') :
    Cacheada algoritmo n h' (pasar algoritmo n c a) ∧
      (∀ u, (∀ x ∈ tiempos a, x.2 < u) → Posterior h u → Posterior h' u) ∧
      (Falta h a ↔ ∃ e ∈ logica a, IsFault c e) := by
  cases a with
  | nuevo pid tamanio posiciones =>
    have hg : generarTablaPaginas h pid tamanio posiciones = some h' := by
      unfold servir allocateNewProcess at hs
      split_ifs at hs
      exact hs
    obtain ⟨halg, hed⟩ := generarTablaPaginas_edad hp hg
    obtain ⟨-, he, -⟩ := generarTablaPaginas_spec hg
    refine ⟨⟨propios_generar hC.toPropios (fun i => lugar_eq_none hp) hg, ?_, halg.trans hC.algoritmo,
      hed ▸ hC.edades⟩, fun u _ => posterior_congr fun k s hk => hed ▸ hk, by simp [Falta, logica]⟩
    rw [he, hC.marcos]
  | usar pid nro op t u orden =>
    obtain ⟨htu, hpost⟩ := ht (t, u) rfl
    obtain ⟨hC', hed, hfalta⟩ := hC.usada hn hp.1 hp.2 htu hpost hs
    refine ⟨hC', fun w hw hpw k s hk => ?_, ?_⟩
    · have huw : u < w := hw (t, u) rfl
      rcases hed k s hk with hk | rfl | rfl
      · exact hpw k s hk
      · exact htu.trans_lt huw
      · exact huw
    · have hserv : frameRequest h pid nro op t = obtenerMarco h pid nro op t := by
        obtain ⟨r₁, hr₁, -⟩ := Option.bind_eq_some_iff.mp hs
        rw [hr₁, frameRequest_eq_some hr₁]
      rw [Falta, hserv, hfalta]
      simp [logica, IsFault]
  | escribir dir v =>
    obtain ⟨halg, hed⟩ := escribirValor_edad hs
    have hig := escribirValor_spec hs
    refine ⟨⟨(hC.toPropios.of_espacio _).of_igual hig, ?_, halg.trans hC.algoritmo, hed ▸ hC.edades⟩,
      fun u _ => posterior_congr fun k s hk => hed ▸ hk, by simp [Falta, logica]⟩
    rw [hig.espacioUsuario]
    exact hC.marcos
  | fin pid =>
    obtain ⟨halg, hed⟩ := removerProceso_edad hs
    have hle : ∀ k s, edad h' k = some s → edad h k = some s := by
      intro k s hk
      rw [hed] at hk
      split_ifs at hk
      exact hk
    refine ⟨⟨propios_removerProceso hC.toPropios hs, ?_, halg.trans hC.algoritmo, ?_⟩,
      fun u _ => posterior_congr hle, by simp [Falta, logica, IsFault]⟩
    · rw [(removerProceso_spec hs).2.2.1, hC.marcos]
    · refine (hC.edades.filter (·.1 ≠ pid)).congr fun k => ?_
      rw [hed]
      simp

/-- **A run.** -/
theorem Cacheada.corrida (hn : 0 < n) : ∀ {as : List Acceso} {h : Handler} {c : List (ℤ × ℕ)},
    Cacheada algoritmo n h c → Along servir Permitido h as → Sucesivos as →
    (∀ x ∈ as.filterMap tiempos, Posterior h x.1) → exec servir h as = some h' →
    Cacheada algoritmo n h' ((as.filterMap logica).foldl (step (politica algoritmo) n) c) ∧
      faltas h as = faultsFrom (politica algoritmo) n c (as.filterMap logica)
  | [], h, c, hC, _, _, _, hexec => by
    obtain rfl := Option.some.inj hexec
    exact ⟨hC, rfl⟩
  | a :: as, h, c, hC, ⟨hp, hrun⟩, hsuc, hpost, hexec => by
    obtain ⟨h₁, hs, hexec⟩ := Option.bind_eq_some_iff.mp hexec
    have ha : ∀ x ∈ tiempos a, x ∈ (a :: as).filterMap tiempos := fun x hx =>
      List.mem_filterMap.mpr ⟨a, List.mem_cons_self .., hx⟩
    have has : ∀ x ∈ as.filterMap tiempos, x ∈ (a :: as).filterMap tiempos := fun x hx => by
      obtain ⟨b, hb, hx⟩ := List.mem_filterMap.mp hx
      exact List.mem_filterMap.mpr ⟨b, List.mem_cons_of_mem _ hb, hx⟩
    obtain ⟨hC₁, hpost₁, hfalta⟩ := hC.servida hn hp
      (fun x hx => ⟨hsuc.1 x (ha x hx), hpost x (ha x hx)⟩) hs
    have hantes : ∀ y ∈ as.filterMap tiempos, ∀ x ∈ tiempos a, x.2 < y.1 := by
      intro y hy x hx
      have hpw := hsuc.2
      rw [List.filterMap_cons_some hx] at hpw
      exact (List.pairwise_cons.mp hpw).1 y hy
    have hsuc₁ : Sucesivos as := by
      refine ⟨fun x hx => hsuc.1 x (has x hx), hsuc.2.sublist ?_⟩
      exact (List.sublist_cons_self a as).filterMap tiempos
    obtain ⟨hC', hfaltas⟩ := Cacheada.corrida hn hC₁ (hrun h₁ hs) hsuc₁
      (fun y hy => hpost₁ y.1 (hantes y hy) (hpost y (has y hy))) hexec
    rw [faltas, hs, Option.elim_some, hfaltas]
    cases hl : logica a with
    | none =>
      rw [List.filterMap_cons_none hl]
      rw [pasar, hl] at hC' ⊢
      rw [if_neg fun hf => ?_, Nat.zero_add]
      · exact ⟨hC', rfl⟩
      · obtain ⟨e, he, -⟩ := hfalta.mp hf
        rw [hl] at he
        cases he
    | some e =>
      rw [List.filterMap_cons_some hl, faultsFrom]
      rw [pasar, hl] at hC' ⊢
      have hiff : Falta h a ↔ IsFault c e := by rw [hfalta, hl]; simp
      exact ⟨hC', by simp only [hiff]; rfl⟩

end

section

variable {tamanioMemoria tamanioPagina : ℕ} {algoritmo : Reemplazo} {espacio : Lib.Bytes.Mem}
  {h₀ h : Handler} {as : List Acceso}

theorem cacheada_inicial
    (hcrear : createHandlerPaginacion tamanioMemoria tamanioPagina algoritmo espacio = some h₀) :
    Cacheada algoritmo (tamanioMemoria / tamanioPagina) h₀ [] := by
  have hprop := propios_inicial hcrear
  obtain ⟨e, he, hr⟩ := Option.bind_eq_some_iff.mp hcrear
  obtain rfl := Option.some.inj hr
  unfold createEspacioUsuario at he
  split_ifs at he
  obtain rfl := Option.some.inj he
  exact ⟨hprop, rfl, rfl, aged_nil.congr fun k => rfl⟩

/-- After a run of accesses. -/
theorem cacheada_final
    (hcrear : createHandlerPaginacion tamanioMemoria tamanioPagina algoritmo espacio = some h₀)
    (hmarcos : 0 < tamanioMemoria / tamanioPagina) (hrun : Along servir Permitido h₀ as)
    (hsuc : Sucesivos as) (hexec : exec servir h₀ as = some h) :
    Cacheada algoritmo (tamanioMemoria / tamanioPagina) h
        (cache (politica algoritmo) (tamanioMemoria / tamanioPagina) (as.filterMap logica)) ∧
      faltas h₀ as =
        faults (politica algoritmo) (tamanioMemoria / tamanioPagina) (as.filterMap logica) := by
  have hini := cacheada_inicial hcrear
  refine hini.corrida hmarcos hrun hsuc (fun x _ k s hk => ?_) hexec
  have hnada := (hini.edades.mem k).mpr (Option.isSome_of_mem hk)
  cases hnada

theorem Cacheada.presente {n : ℕ} {c : List (ℤ × ℕ)} (hC : Cacheada algoritmo n h c) (p : ℤ) (i : ℕ) :
    Presente h p i ↔ (p, i) ∈ c := presente_iff.trans (hC.edades.mem _).symm

/-- **The memory is a cache.** After every run of accesses, the pages in memory are those of the cache
of as many pages as there are frames, by the policy of the algorithm, and the page faults were its
faults. -/
theorem memoria_cache
    (hcrear : createHandlerPaginacion tamanioMemoria tamanioPagina algoritmo espacio = some h₀)
    (hmarcos : 0 < tamanioMemoria / tamanioPagina) (hrun : Along servir Permitido h₀ as)
    (hsuc : Sucesivos as) (hexec : exec servir h₀ as = some h) :
    (∀ p i, Presente h p i ↔ (p, i) ∈ cache (politica algoritmo) (tamanioMemoria / tamanioPagina)
      (as.filterMap logica)) ∧
      faltas h₀ as =
        faults (politica algoritmo) (tamanioMemoria / tamanioPagina) (as.filterMap logica) := by
  obtain ⟨hC, hfaltas⟩ := cacheada_final hcrear hmarcos hrun hsuc hexec
  exact ⟨hC.presente, hfaltas⟩

/-- A memory of `n` frames. -/
def conMarcos (algoritmo : Reemplazo) (n : ℕ) : Handler :=
  ⟨Dict.empty, ⟨4 * n, n, List.replicate n 0, fun _ => 0⟩, [], algoritmo, 4, false, 0, fun _ _ => 0⟩

/-- A process of three pages; with two frames the last two accesses are page faults. -/
def tresPaginas (dirFisica : ℕ) : List Acceso :=
  [.nuevo 1 12 [0, 4, 8], .usar 1 0 .ESCRIBIR 10 11 [1], .escribir 0 7, .usar 1 1 .ESCRIBIR 20 21 [1],
    .escribir 4 8, .usar 1 0 .LEER 25 26 [1], .usar 1 2 .ESCRIBIR 30 31 [1], .escribir dirFisica 9,
    .usar 1 1 .LEER 40 41 [1]]

theorem sucesivos_tresPaginas (d : ℕ) : Sucesivos (tresPaginas d) := by
  have ht : (tresPaginas d).filterMap tiempos =
      [(10, 11), (20, 21), (25, 26), (30, 31), (40, 41)] := rfl
  rw [Sucesivos, ht]
  decide

theorem permitidos_dosMarcos : Along servir Permitido (conMarcos .LRU 2) (tresPaginas 4) :=
  .of_step rfl rfl <| .of_step ⟨rfl, fun _ _ hf => absurd hf (by decide)⟩ rfl <|
  .of_step trivial rfl <| .of_step ⟨rfl, fun _ _ hf => absurd hf (by decide)⟩ rfl <|
  .of_step trivial rfl <| .of_step ⟨rfl, fun hf => absurd hf (by decide)⟩ rfl <|
  .of_step ⟨rfl, fun _ => reemplazaModificada_of_eq rfl rfl⟩ rfl <| .of_step trivial rfl <|
  .of_step ⟨rfl, fun _ => reemplazaModificada_of_eq rfl rfl⟩ rfl trivial

/-- The page used last stays, the other one goes. -/
theorem memoria_cache_dosMarcos : ∃ h, exec servir (conMarcos .LRU 2) (tresPaginas 4) = some h ∧
    Presente h 1 2 ∧ ¬Presente h 1 0 ∧ faltas (conMarcos .LRU 2) (tresPaginas 4) = 4 := by
  have hcrear : createHandlerPaginacion 8 4 .LRU (fun _ => 0) = some (conMarcos .LRU 2) := rfl
  obtain ⟨h, hexec⟩ : ∃ h, exec servir (conMarcos .LRU 2) (tresPaginas 4) = some h := ⟨_, rfl⟩
  obtain ⟨hpres, hfaltas⟩ :=
    memoria_cache hcrear (by decide) permitidos_dosMarcos (sucesivos_tresPaginas 4) hexec
  refine ⟨h, hexec, (hpres 1 2).mpr (by decide), fun h0 => ?_, hfaltas.trans (by decide)⟩
  exact absurd ((hpres 1 0).mp h0) (by decide)

/-- **More memory, no more page faults**, with `LRU`. The two memories serve the same accesses, each in
its own time and with its own victims. -/
theorem mas_memoria {tamanioMemoria' tamanioPagina' : ℕ} {espacio' : Lib.Bytes.Mem} {k₀ k : Handler}
    {bs : List Acceso}
    (hcrear : createHandlerPaginacion tamanioMemoria tamanioPagina .LRU espacio = some h₀)
    (hcrear' : createHandlerPaginacion tamanioMemoria' tamanioPagina' .LRU espacio' = some k₀)
    (hmarcos : 0 < tamanioMemoria / tamanioPagina)
    (hmas : tamanioMemoria / tamanioPagina ≤ tamanioMemoria' / tamanioPagina')
    (hmismos : bs.filterMap logica = as.filterMap logica)
    (hrun : Along servir Permitido h₀ as) (hsuc : Sucesivos as) (hexec : exec servir h₀ as = some h)
    (hrun' : Along servir Permitido k₀ bs) (hsuc' : Sucesivos bs)
    (hexec' : exec servir k₀ bs = some k) :
    (∀ p i, Presente h p i → Presente k p i) ∧ faltas k₀ bs ≤ faltas h₀ as := by
  obtain ⟨hC, hfaltas⟩ := cacheada_final hcrear hmarcos hrun hsuc hexec
  obtain ⟨hC', hfaltas'⟩ := cacheada_final hcrear' (hmarcos.trans_le hmas) hrun' hsuc' hexec'
  rw [hmismos] at hC' hfaltas'
  refine ⟨fun p i hpi => ?_, ?_⟩
  · rw [hC'.presente]
    exact (lru_inclusion hmas _).subset ((hC.presente p i).mp hpi)
  · rw [hfaltas, hfaltas']
    exact lru_faults hmas _

/-- With a third frame no page goes. -/
theorem mas_memoria_tresMarcos : ∃ h k, exec servir (conMarcos .LRU 2) (tresPaginas 4) = some h ∧
    exec servir (conMarcos .LRU 3) (tresPaginas 8) = some k ∧
    (∀ p i, Presente h p i → Presente k p i) ∧ faltas (conMarcos .LRU 3) (tresPaginas 8) ≤
      faltas (conMarcos .LRU 2) (tresPaginas 4) := by
  have hcrear : createHandlerPaginacion 8 4 .LRU (fun _ => 0) = some (conMarcos .LRU 2) := rfl
  have hcrear' : createHandlerPaginacion 12 4 .LRU (fun _ => 0) = some (conMarcos .LRU 3) := rfl
  have hrun' : Along servir Permitido (conMarcos .LRU 3) (tresPaginas 8) :=
    .of_step rfl rfl <| .of_step ⟨rfl, fun _ _ hf => absurd hf (by decide)⟩ rfl <|
    .of_step trivial rfl <| .of_step ⟨rfl, fun _ _ hf => absurd hf (by decide)⟩ rfl <|
    .of_step trivial rfl <| .of_step ⟨rfl, fun hf => absurd hf (by decide)⟩ rfl <|
    .of_step ⟨rfl, fun _ _ hf => absurd hf (by decide)⟩ rfl <| .of_step trivial rfl <|
    .of_step ⟨rfl, fun hf => absurd hf (by decide)⟩ rfl trivial
  obtain ⟨h, hexec⟩ : ∃ h, exec servir (conMarcos .LRU 2) (tresPaginas 4) = some h := ⟨_, rfl⟩
  obtain ⟨k, hexec'⟩ : ∃ k, exec servir (conMarcos .LRU 3) (tresPaginas 8) = some k := ⟨_, rfl⟩
  exact ⟨h, k, hexec, hexec', mas_memoria hcrear hcrear' (by decide) (by decide) rfl
    permitidos_dosMarcos (sucesivos_tresPaginas 4) hexec hrun' (sucesivos_tresPaginas 8) hexec'⟩

end

end OperatingSystem.Memoria.Antiguedad
