import OperatingSystem.Memoria.Paginas
import OperatingSystem.Lib.Dictionary
import Mathlib.Data.List.Perm.Basic
import Mathlib.Logic.Function.Basic

/-! # Paging (`memoria/src/paginacion/handler_paginacion.c`)

The handler keeps the page tables by pid, the user space and the pages that a write was announced for
(`paginas_pendientes_modificacion`), which are pointers into the tables. The order in which
`dictionary_elements` lists the tables is an argument where it is used.

The swap space belongs to the file system: it gives every page of a new process a position of its own
with a page of zeroes, and keeps there the last page that was sent. Its replies are `SWAP_OK`. -/

namespace OperatingSystem.Memoria.HandlerPaginacion

open OperatingSystem.Lib.Bytes OperatingSystem.Lib.Dictionary
open OperatingSystem.Memoria.Paginas

/-- `t_reemplazo` -/
inductive Reemplazo where
  | FIFO | LRU
  deriving DecidableEq

/-- `tipo_operacion_t` -/
inductive TipoOperacion where
  | LEER | ESCRIBIR
  deriving DecidableEq

/-- A `t_pagina*`: the page of a table, which may have been freed. -/
structure Puntero where
  pid : ℤ
  serie : ℕ
  nroPagina : ℕ
  deriving DecidableEq

/-- `t_handler_paginacion`, with `operaciones_bloqueantes_mutex`, the tables created so far and what the
file system keeps at each swap position. -/
structure Handler where
  pidTablas : Dict ℤ TablaPaginas
  espacioUsuario : EspacioUsuario
  paginasPendientesModificacion : List Puntero
  algoritmoReemplazo : Reemplazo
  tamanioPagina : ℕ
  operacionesBloqueantes : Bool
  serie : ℕ
  swap : ℤ → Mem

def createHandlerPaginacion (tamanioMemoria tamanioPagina : ℕ) (algoritmo : Reemplazo)
    (espacio : Mem) : Option Handler := do
  let e ← createEspacioUsuario tamanioMemoria tamanioPagina espacio
  return ⟨Dict.empty, e, [], algoritmo, tamanioPagina, false, 0, fun _ _ => 0⟩

def setTabla (h : Handler) (pid : ℤ) (tabla : TablaPaginas) : Handler :=
  { h with pidTablas := h.pidTablas.put pid tabla }

def setEspacio (h : Handler) (e : EspacioUsuario) : Handler := { h with espacioUsuario := e }

/-- `generar_tabla_paginas`; `posiciones` is the reply of the file system to `SWAP_NEW_PROCESS`. -/
def generarTablaPaginas (h : Handler) (pid : ℤ) (tamanioProceso : ℕ) (posiciones : List ℤ) :
    Option Handler :=
  let cantidadPaginas := tamanioProceso / h.tamanioPagina
  if posiciones.length = cantidadPaginas ∧ cantidadPaginas ≤ CANT_PAGINAS then
    let h := { h with
      serie := h.serie + 1
      swap := fun posSwap => if posSwap ∈ posiciones then fun _ => 0 else h.swap posSwap }
    some (setTabla h pid (createTablaPaginas pid (h.serie - 1) posiciones))
  else none

/-- The frame of a page in memory; `none` is the `-1`. -/
def obtenerMarco (h : Handler) (pid : ℤ) (nroPagina : ℕ) (tipoOperacion : TipoOperacion) (ahora : ℤ) :
    Option (Option ℕ × Handler) :=
  match h.pidTablas.get pid with
  | none => some (none, h)
  | some tabla => do
    let pagina ← tabla.paginas[nroPagina]?
    if paginaEstaEnMemoria pagina then
      let tabla' ← leerPagina tabla nroPagina ahora
      let h := setTabla h pid tabla'
      let h := if tipoOperacion = .ESCRIBIR then
          { h with paginasPendientesModificacion :=
              h.paginasPendientesModificacion ++ [⟨pid, tabla.serie, nroPagina⟩] }
        else h
      return (some pagina.nroFrame, h)
    else return (none, h)

/-! ### Values -/

def leerValor (h : Handler) (dirFisica : ℕ) : UInt32 := espacioLeerValor h.espacioUsuario dirFisica

def leerValorPagina (h : Handler) (dirFisica cantElementos : ℕ) : List UInt32 :=
  leerPalabras h.espacioUsuario.espacio dirFisica cantElementos

def escribirValorPagina (h : Handler) (dirFisica : ℕ) (valores : List UInt32) : Handler :=
  setEspacio h { h.espacioUsuario with
    espacio := escribirPalabras h.espacioUsuario.espacio dirFisica valores }

/-- What a pointer points to, unless its table was freed. -/
def deref (h : Handler) (p : Puntero) : Option Pagina := do
  let tabla ← h.pidTablas.get p.pid
  if tabla.serie = p.serie then tabla.paginas[p.nroPagina]? else none

/-- The first page of the list in the frame leaves the list. -/
def encontrarPaginaAModificar (h : Handler) (nroFrame : ℕ) :
    List Puntero → Option (Option Puntero × List Puntero)
  | [] => some (none, [])
  | p :: ps => do
    let pagina ← deref h p
    if pagina.nroFrame = nroFrame then return (some p, ps)
    else
      let (r, ps) ← encontrarPaginaAModificar h nroFrame ps
      return (r, p :: ps)

/-- The page found, if any, is marked as modified. -/
def marcarModificada (h : Handler) : Option Puntero → Option Handler
  | none => some h
  | some p => do
    let tabla ← h.pidTablas.get p.pid
    let tabla ← marcarDatoModificado tabla p.nroPagina
    return setTabla h p.pid tabla

def escribirValor (h : Handler) (dirFisica : ℕ) (valor : UInt32) : Option Handler := do
  let h := setEspacio h (espacioEscribirValor h.espacioUsuario dirFisica valor)
  let marco := espacioObtenerFrame h.espacioUsuario dirFisica
  let (pagina, pendientes) ← encontrarPaginaAModificar h marco h.paginasPendientesModificacion
  marcarModificada { h with paginasPendientesModificacion := pendientes } pagina

/-! ### Replacement -/

/-- One page of the loop: an older page in memory takes the place of the one found so far. -/
def masVieja (fecha : Pagina → Option ℤ) (vieja : Option Pagina) (pagina : Pagina) : Option Pagina :=
  if paginaEstaEnMemoria pagina then
    match vieja with
    | none => some pagina
    | some v => if temporalDiff (fecha v) (fecha pagina) < 0 then some pagina else some v
  else vieja

/-- The loop over the pages of all tables. -/
def encontrarPagina (fecha : Pagina → Option ℤ) (tablas : List TablaPaginas) : Option Pagina :=
  tablas.foldl (fun vieja tabla => tabla.paginas.foldl (masVieja fecha) vieja) none

def encontrarPaginaFIFO (tablas : List TablaPaginas) : Option Pagina :=
  encontrarPagina Pagina.creacion tablas

def encontrarPaginaLRU (tablas : List TablaPaginas) : Option Pagina :=
  encontrarPagina Pagina.ultimaLectura tablas

/-- `diccionario_elements`, in the order of its keys given. -/
def diccionarioElements (d : Dict ℤ TablaPaginas) (orden : List ℤ) : Option (List TablaPaginas) :=
  if orden.Perm d.keys then some (orden.filterMap d.get) else none

/-- The page that has to go. -/
def paginaAReemplazar (h : Handler) (orden : List ℤ) : Option (Option Pagina) := do
  let tablas ← diccionarioElements h.pidTablas orden
  match h.algoritmoReemplazo with
  | .FIFO => return encontrarPaginaFIFO tablas
  | .LRU => return encontrarPaginaLRU tablas

/-- The packet takes `TAM_PAGINA` bytes of `data`, which has room for whole words only. -/
def swapOut (h : Handler) (tabla : TablaPaginas) (nroPagina : ℕ) : Option Handler := do
  let pagina ← tabla.paginas[nroPagina]?
  let data := leerValorPagina h (pagina.nroFrame * h.tamanioPagina) (h.tamanioPagina / 4)
  if h.tamanioPagina % 4 = 0 then
    return { h with swap :=
      Function.update h.swap pagina.posSwap (escribirPalabras (h.swap pagina.posSwap) 0 data) }
  else none

def swapIn (h : Handler) (pid : ℤ) (nroPagina nuevoFrame : ℕ) (ahora : ℤ) : Option Handler := do
  let tabla ← h.pidTablas.get pid
  let pagina ← tabla.paginas[nroPagina]?
  let data := leerPalabras (h.swap pagina.posSwap) 0 (h.tamanioPagina / 4)
  let tabla ← cargarPaginaEnMemoria tabla nroPagina nuevoFrame ahora
  return escribirValorPagina (setTabla h pid tabla) (nuevoFrame * h.tamanioPagina) data

/-- A page that was not modified keeps its entry as it is. -/
def removerPaginaMemoria (h : Handler) (orden : List ℤ) : Option (Option Pagina × Handler) := do
  match ← paginaAReemplazar h orden with
  | none => return (none, h)
  | some pagina =>
    if pagina.bitModificado = 1 then
      let tabla ← h.pidTablas.get pagina.pid
      let tabla ← tablaRemoverPaginaDeMemoria tabla pagina.nroPagina
      let h ← swapOut (setTabla h pagina.pid tabla) tabla pagina.nroPagina
      return (some pagina, h)
    else return (some pagina, h)

/-- The page comes into the frame. -/
def alojar (h : Handler) (pid : ℤ) (nroPagina frame : ℕ) (ahora : ℤ) :
    Option (Option ℕ × Handler) := do
  let h := setEspacio h (marcarFrameOcupado h.espacioUsuario frame)
  let h ← swapIn h pid nroPagina frame ahora
  return (some frame, h)

/-- `none` is the `-1`; without a page to replace the mutex is not given back. -/
def cargarEnMemoria (h : Handler) (pid : ℤ) (nroPagina : ℕ) (ahora : ℤ) (orden : List ℤ) :
    Option (Option ℕ × Handler) :=
  match h.pidTablas.get pid with
  | none => some (none, h)
  | some _ =>
    if h.operacionesBloqueantes then none
    else match obtenerFrameLibre h.espacioUsuario with
      | some frame => alojar h pid nroPagina frame ahora
      | none => do
        match ← removerPaginaMemoria h orden with
        | (none, h) => return (none, { h with operacionesBloqueantes := true })
        | (some pagina, h) => alojar h pid nroPagina pagina.nroFrame ahora

/-! ### The end of a process -/

/-- The frames of the pages in memory are free. -/
def liberarMarcos (paginas : List Pagina) (e : EspacioUsuario) : EspacioUsuario :=
  paginas.foldl (fun e pagina =>
    if paginaEstaEnMemoria pagina then liberarFrame e pagina.nroFrame else e) e

def removerProceso (h : Handler) (pid : ℤ) : Option Handler := do
  let tabla ← h.pidTablas.get pid
  let h := setEspacio h (liberarMarcos tabla.paginas h.espacioUsuario)
  return { h with pidTablas := h.pidTablas.remove pid }

end OperatingSystem.Memoria.HandlerPaginacion
