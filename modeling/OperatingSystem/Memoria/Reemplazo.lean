import Mathlib.Data.List.MinMax
import OperatingSystem.Lib.Lists
import OperatingSystem.Memoria.HandlerPaginacion

/-! # The page to replace (`memoria/src/paginacion/handler_paginacion.c`)

`encontrar_pagina_FIFO` and `encontrar_pagina_LRU` go over the tables of all processes, in the order of
the dictionary, and keep the page in memory whose time is the oldest so far. `encontrarPaginaLeyendo` is
the same loop with a list of the pages whose time it looks at.

The loop is the minimum of the times over the pages in memory (`encontrarPagina_minima`), so whatever
the order of the tables no page in memory is older than the one found, and the times of the others are
never looked at (`reemplazo_exacto`). -/

namespace OperatingSystem.Memoria.Reemplazo

open OperatingSystem.Lib.Dictionary OperatingSystem.Lib.Lists
open OperatingSystem.Memoria.Paginas OperatingSystem.Memoria.HandlerPaginacion

/-! ### The times that the loop looks at -/

variable {fecha : Pagina → Option ℤ} {d : Dict ℤ TablaPaginas} {orden : List ℤ}
  {tablas : List TablaPaginas} {pag : Pagina}

/-- A time of a page, and the page among those looked at. -/
def leerFecha (fecha : Pagina → Option ℤ) (pagina : Pagina) : StateM (List Pagina) (Option ℤ) :=
  fun leidas => (fecha pagina, leidas ++ [pagina])

/-- The body of the loop. -/
def masViejaLeyendo (fecha : Pagina → Option ℤ) (vieja : Option Pagina) (pagina : Pagina) :
    StateM (List Pagina) (Option Pagina) :=
  if paginaEstaEnMemoria pagina then
    match vieja with
    | none => return some pagina
    | some v => do
      let actual ← leerFecha fecha pagina
      let masAntigua ← leerFecha fecha v
      if temporalDiff masAntigua actual < 0 then return some pagina else return some v
  else return vieja

/-- `encontrar_pagina_FIFO` and `encontrar_pagina_LRU`. -/
def encontrarPaginaLeyendo (fecha : Pagina → Option ℤ) (tablas : List TablaPaginas) :
    StateM (List Pagina) (Option Pagina) :=
  tablas.foldlM (fun vieja tabla => tabla.paginas.foldlM (masViejaLeyendo fecha) vieja) none

/-- A page of some process that is in memory. -/
def EnMemoria (d : Dict ℤ TablaPaginas) (pag : Pagina) : Prop :=
  ∃ pid tabla, d.get pid = some tabla ∧ pag ∈ tabla.paginas ∧ paginaEstaEnMemoria pag

/-- **The right page**: none if no page is in memory, else one of those, and none of those is older. Only
their times were looked at. -/
structure LaMasVieja (d : Dict ℤ TablaPaginas) (fecha : Pagina → Option ℤ)
    (r : Option Pagina × List Pagina) : Prop where
  ninguna : r.1 = none ↔ ∀ pag, ¬ EnMemoria d pag
  alguna : ∀ pag ∈ r.1, EnMemoria d pag ∧
    ∃ t ∈ fecha pag, ∀ pag', EnMemoria d pag' → ∃ t' ∈ fecha pag', t ≤ t'
  leidas : ∀ pag ∈ r.2, EnMemoria d pag

/-! ### The minimum -/

/-- The pages in memory, in the order of the loop. -/
def paginasEnMemoria (tablas : List TablaPaginas) : List Pagina :=
  (tablas.flatMap TablaPaginas.paginas).filter paginaEstaEnMemoria

/-- **The loop finds a minimum.** -/
theorem encontrarPagina_minima (fecha : Pagina → Option ℤ) (tablas : List TablaPaginas) :
    (encontrarPagina fecha tablas = none ↔ paginasEnMemoria tablas = []) ∧
      ∀ pag ∈ encontrarPagina fecha tablas, ∀ pag' ∈ paginasEnMemoria tablas,
        (fecha pag).getD 0 ≤ (fecha pag').getD 0 := by
  have hpaso : ∀ vieja pagina, masVieja fecha vieja pagina =
      if paginaEstaEnMemoria pagina then
        List.argAux (fun b c => (fecha b).getD 0 < (fecha c).getD 0) vieja pagina
      else vieja := by
    intro vieja pagina
    unfold masVieja
    split_ifs with hm
    · cases vieja with
      | none => rfl
      | some v =>
        have hlt : temporalDiff (fecha v) (fecha pagina) < 0 ↔
            (fecha pagina).getD 0 < (fecha v).getD 0 := by
          unfold temporalDiff
          omega
        simp only [List.argAux, hlt]
    · rfl
  have hargmin : encontrarPagina fecha tablas =
      (paginasEnMemoria tablas).argmin fun pag => (fecha pag).getD 0 := by
    unfold encontrarPagina paginasEnMemoria List.argmin
    rw [List.foldl_filter, List.foldl_flatMap]
    simp only [← hpaso]
  rw [hargmin]
  exact ⟨List.argmin_eq_none, fun pag hpag pag' hpag' => List.le_of_mem_argmin hpag' hpag⟩

theorem mem_paginasEnMemoria (ht : diccionarioElements d orden = some tablas) :
    pag ∈ paginasEnMemoria tablas ↔ EnMemoria d pag := by
  unfold diccionarioElements at ht
  split_ifs at ht with hperm
  obtain rfl := Option.some.inj ht
  unfold paginasEnMemoria EnMemoria
  simp only [List.mem_filter, List.mem_flatMap, List.mem_filterMap]
  constructor
  · rintro ⟨⟨tabla, ⟨pid, -, hpid⟩, hpag⟩, hm⟩
    exact ⟨pid, tabla, hpid, hpag, hm⟩
  · rintro ⟨pid, tabla, hpid, hpag, hm⟩
    exact ⟨⟨tabla, ⟨pid, hperm.mem_iff.mpr (Dict.mem_keys_of_get hpid), hpid⟩, hpag⟩, hm⟩

/-! ### What is looked at -/

/-- The page found so far and those looked at satisfy `P`. -/
def SoloLee (P : Pagina → Prop) (r : Option Pagina × List Pagina) : Prop :=
  (∀ v ∈ r.1, P v) ∧ ∀ pag ∈ r.2, P pag

/-- One turn looks at the page and at the one found so far, and only if the page is in memory. -/
theorem soloLee_masVieja {P : Pagina → Prop} {r : Option Pagina × List Pagina} (hr : SoloLee P r)
    (hpag : paginaEstaEnMemoria pag → P pag) :
    (masViejaLeyendo fecha r.1 pag r.2).1 = masVieja fecha r.1 pag ∧
      SoloLee P (masViejaLeyendo fecha r.1 pag r.2) := by
  obtain ⟨vieja, leidas⟩ := r
  unfold masViejaLeyendo masVieja
  by_cases hm : paginaEstaEnMemoria pag
  · rw [if_pos hm, if_pos hm]
    cases vieja with
    | none => exact ⟨rfl, by rintro v ⟨⟩; exact hpag hm, hr.2⟩
    | some v =>
      have hv : P v := hr.1 v rfl
      have hleidas : ∀ p ∈ leidas ++ [pag] ++ [v], P p := by
        intro p hp
        simp only [List.mem_append, List.mem_singleton] at hp
        rcases hp with (hp | rfl) | rfl
        · exact hr.2 p hp
        · exact hpag hm
        · exact hv
      by_cases hlt : temporalDiff (fecha v) (fecha pag) < 0
      · simp only [leerFecha, bind, StateT.bind, pure, if_pos hlt]
        exact ⟨rfl, by rintro w ⟨⟩; exact hpag hm, hleidas⟩
      · simp only [leerFecha, bind, StateT.bind, pure, if_neg hlt]
        exact ⟨rfl, by rintro w ⟨⟩; exact hv, hleidas⟩
  · rw [if_neg hm, if_neg hm]
    exact ⟨rfl, hr⟩

/-- The loop with the list is the loop without it, and looks at pages in memory only. -/
theorem soloLee_encontrarPagina (fecha : Pagina → Option ℤ)
    (ht : diccionarioElements d orden = some tablas) :
    (encontrarPaginaLeyendo fecha tablas []).1 = encontrarPagina fecha tablas ∧
      SoloLee (EnMemoria d) (encontrarPaginaLeyendo fecha tablas []) := by
  refine foldlM_spec (fun tabla htabla r hr => ?_) (none, []) ⟨by simp, by simp⟩
  refine foldlM_spec (fun pag hpag r hr => soloLee_masVieja hr fun hm => ?_) r hr
  refine (mem_paginasEnMemoria ht).mp ?_
  exact List.mem_filter.mpr ⟨List.mem_flatMap.mpr ⟨tabla, htabla, hpag⟩, hm⟩

/-! ### The page found -/

/-- The page found is the right one for any time that all pages in memory have. -/
theorem laMasVieja (ht : diccionarioElements d orden = some tablas)
    (hf : ∀ pag, EnMemoria d pag → (fecha pag).isSome) :
    LaMasVieja d fecha (encontrarPaginaLeyendo fecha tablas []) := by
  obtain ⟨h1, h2⟩ := soloLee_encontrarPagina fecha ht
  obtain ⟨hnone, hmin⟩ := encontrarPagina_minima fecha tablas
  refine ⟨?_, fun pag hpag => ?_, h2.2⟩
  · rw [h1, hnone, List.eq_nil_iff_forall_not_mem]
    exact forall_congr' fun pag => not_congr (mem_paginasEnMemoria ht)
  · have hmem := h2.1 pag hpag
    rw [h1] at hpag
    obtain ⟨t, hft⟩ := Option.isSome_iff_exists.mp (hf pag hmem)
    refine ⟨hmem, t, hft, fun pag' hpag' => ?_⟩
    obtain ⟨t', hft'⟩ := Option.isSome_iff_exists.mp (hf pag' hpag')
    have hle := hmin pag hpag pag' ((mem_paginasEnMemoria ht).mpr hpag')
    rw [hft, hft'] at hle
    exact ⟨t', hft', hle⟩

/-- **Replacement chooses a true minimum**, of the times of loading or of the last uses. -/
theorem reemplazo_exacto (ht : diccionarioElements d orden = some tablas)
    (hf : ∀ pag, EnMemoria d pag → pag.creacion.isSome ∧ pag.ultimaLectura.isSome) :
    (encontrarPaginaFIFO tablas = (encontrarPaginaLeyendo Pagina.creacion tablas []).1 ∧
      LaMasVieja d Pagina.creacion (encontrarPaginaLeyendo Pagina.creacion tablas [])) ∧
    (encontrarPaginaLRU tablas = (encontrarPaginaLeyendo Pagina.ultimaLectura tablas []).1 ∧
      LaMasVieja d Pagina.ultimaLectura (encontrarPaginaLeyendo Pagina.ultimaLectura tablas [])) :=
  ⟨⟨(soloLee_encontrarPagina _ ht).1.symm, laMasVieja ht fun pag h => (hf pag h).1⟩,
    ⟨(soloLee_encontrarPagina _ ht).1.symm, laMasVieja ht fun pag h => (hf pag h).2⟩⟩

/-- A page in memory and one that is not. -/
def tablaUno : TablaPaginas :=
  ⟨1, 0, [⟨1, 0, 0, 1, 0, 0, some 5, some 9⟩, ⟨1, 1, 0, 0, 0, 1, none, none⟩]⟩

/-- A page loaded later and used earlier. -/
def tablaDos : TablaPaginas := ⟨2, 1, [⟨2, 0, 1, 1, 0, 2, some 7, some 8⟩]⟩

def dosTablas : Dict ℤ TablaPaginas := (Dict.empty.put 1 tablaUno).put 2 tablaDos

theorem enMemoria_dosTablas (h : EnMemoria dosTablas pag) :
    pag.creacion.isSome ∧ pag.ultimaLectura.isSome := by
  have ht : diccionarioElements dosTablas [2, 1] = some [tablaDos, tablaUno] := by decide
  have hpag := (mem_paginasEnMemoria ht).mpr h
  have htodas : ∀ pag ∈ paginasEnMemoria [tablaDos, tablaUno],
      pag.creacion.isSome ∧ pag.ultimaLectura.isSome := by decide
  exact htodas pag hpag

theorem reemplazo_exacto_dosTablas :
    (encontrarPaginaFIFO [tablaDos, tablaUno] =
        (encontrarPaginaLeyendo Pagina.creacion [tablaDos, tablaUno] []).1 ∧
      LaMasVieja dosTablas Pagina.creacion
        (encontrarPaginaLeyendo Pagina.creacion [tablaDos, tablaUno] [])) ∧
    (encontrarPaginaLRU [tablaDos, tablaUno] =
        (encontrarPaginaLeyendo Pagina.ultimaLectura [tablaDos, tablaUno] []).1 ∧
      LaMasVieja dosTablas Pagina.ultimaLectura
        (encontrarPaginaLeyendo Pagina.ultimaLectura [tablaDos, tablaUno] [])) := by
  have ht : diccionarioElements dosTablas [2, 1] = some [tablaDos, tablaUno] := by decide
  exact reemplazo_exacto ht fun _ h => enMemoria_dosTablas h

example : (encontrarPaginaFIFO [tablaDos, tablaUno]).map Pagina.pid = some 1 ∧
    (encontrarPaginaLRU [tablaDos, tablaUno]).map Pagina.pid = some 2 := by decide

end OperatingSystem.Memoria.Reemplazo
