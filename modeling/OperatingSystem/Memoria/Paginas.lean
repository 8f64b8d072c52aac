import OperatingSystem.Lib.Bytes
import Mathlib.Data.Int.Notation

/-! # Page tables and the user space (`memoria/src/paginacion/tabla_paginas.c`, `espacio_usuario.c`)

A page table is the list of the pages of a process; an access to a page that is not there has no
behaviour. The user space is an array of bytes, with an array that says which frames are taken; as in
the source, an address is not compared with its size.

`temporal_create` reads the clock; the time it reads is an argument here. -/

namespace OperatingSystem.Memoria.Paginas

open OperatingSystem.Lib.Bytes

/-! ### `tabla_paginas.c` -/

def CANT_PAGINAS : ℕ := 1000

/-- `t_pagina` -/
structure Pagina where
  pid : ℤ
  nroPagina : ℕ
  nroFrame : ℕ
  bitPresencia : ℕ
  bitModificado : ℕ
  posSwap : ℤ
  creacion : Option ℤ
  ultimaLectura : Option ℤ
  deriving DecidableEq

/-- `t_tabla_paginas`; `cant_paginas` is the length of the list, and `serie` tells the tables that
`malloc` ever returned apart. -/
structure TablaPaginas where
  pid : ℤ
  serie : ℕ
  paginas : List Pagina
  deriving DecidableEq

/-- `create_tabla_paginas`, with a swap position for each page. -/
def createTablaPaginas (pid : ℤ) (serie : ℕ) (posicionesSwap : List ℤ) : TablaPaginas :=
  ⟨pid, serie, posicionesSwap.mapIdx fun i posSwap => ⟨pid, i, 0, 0, 0, posSwap, none, none⟩⟩

/-- An assignment to fields of a page. -/
def TablaPaginas.modificar (tabla : TablaPaginas) (nro : ℕ) (f : Pagina → Pagina) :
    Option TablaPaginas := do
  let pagina ← tabla.paginas[nro]?
  return { tabla with paginas := tabla.paginas.set nro (f pagina) }

def paginaEstaEnMemoria (pagina : Pagina) : Bool := pagina.bitPresencia = 1

def leerPagina (tabla : TablaPaginas) (nro : ℕ) (ahora : ℤ) : Option TablaPaginas :=
  tabla.modificar nro fun pagina => { pagina with ultimaLectura := some ahora }

def Pagina.cargada (frame : ℕ) (ahora : ℤ) (pagina : Pagina) : Pagina :=
  { pagina with
    bitPresencia := 1
    nroFrame := frame
    bitModificado := 0
    creacion := some ahora
    ultimaLectura := some ahora }

def cargarPaginaEnMemoria (tabla : TablaPaginas) (nro frame : ℕ) (ahora : ℤ) : Option TablaPaginas :=
  tabla.modificar nro (Pagina.cargada frame ahora)

def Pagina.removida (pagina : Pagina) : Pagina :=
  { pagina with bitPresencia := 0, creacion := none, ultimaLectura := none }

def tablaRemoverPaginaDeMemoria (tabla : TablaPaginas) (nro : ℕ) : Option TablaPaginas :=
  tabla.modificar nro Pagina.removida

def marcarDatoModificado (tabla : TablaPaginas) (nro : ℕ) : Option TablaPaginas :=
  tabla.modificar nro fun pagina => { pagina with bitModificado := 1 }

/-- `temporal_diff`, of how long ago the two times are; a page in memory has both of its times. -/
def temporalDiff (fecha fecha' : Option ℤ) : ℤ := fecha'.getD 0 - fecha.getD 0

/-! ### `espacio_usuario.c` -/

/-- The length of `marcos_ocupados`. -/
def CANT_MARCOS : ℕ := 10000

/-- `t_espacio_usuario` -/
structure EspacioUsuario where
  tamanioMemoria : ℕ
  cantidadMarcos : ℕ
  marcosOcupados : List ℕ
  espacio : Mem

/-- `create_espacio_usuario`; `espacio` is what `malloc` leaves in the memory. -/
def createEspacioUsuario (tamanioMemoria tamanioMarco : ℕ) (espacio : Mem) :
    Option EspacioUsuario :=
  if tamanioMarco ≠ 0 ∧ tamanioMemoria / tamanioMarco ≤ CANT_MARCOS then
    some ⟨tamanioMemoria, tamanioMemoria / tamanioMarco,
      List.replicate (tamanioMemoria / tamanioMarco) 0, espacio⟩
  else none

def espacioLeerValor (e : EspacioUsuario) (dirFisica : ℕ) : UInt32 := leer e.espacio dirFisica

def espacioEscribirValor (e : EspacioUsuario) (dirFisica : ℕ) (valor : UInt32) : EspacioUsuario :=
  { e with espacio := escribir e.espacio dirFisica valor }

/-- The first free frame; `none` is the `-1`. -/
def obtenerFrameLibre (e : EspacioUsuario) : Option ℕ := e.marcosOcupados.findIdx? (· = 0)

def marcarFrameOcupado (e : EspacioUsuario) (marco : ℕ) : EspacioUsuario :=
  { e with marcosOcupados := e.marcosOcupados.set marco 1 }

def liberarFrame (e : EspacioUsuario) (marco : ℕ) : EspacioUsuario :=
  { e with marcosOcupados := e.marcosOcupados.set marco 0 }

def espacioObtenerFrame (e : EspacioUsuario) (dirFisica : ℕ) : ℕ :=
  dirFisica / (e.tamanioMemoria / e.cantidadMarcos)

end OperatingSystem.Memoria.Paginas
