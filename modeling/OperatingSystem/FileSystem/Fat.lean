import OperatingSystem.Lib.CInt
import OperatingSystem.Lib.Dictionary
import Mathlib.Data.List.Range

/-! # The file allocation table (`filesystem/src/fat.c`)

The table `fat.dat` has one `uint32_t` entry per block of the file area. Entry `0` is reserved
(`UINT32_MAX`), an entry `0` marks a free block, and the entry of a block of a file holds the next
block of that file, or `UINT32_MAX` in its last block. A file without blocks has
`BLOQUE_INICIAL = 0`.

Each function below is the function of that name of `fat.c`, on the array `entradas` that it reads
from the file and writes back. An access outside the array has no behaviour (`none`), and so has a
walk that never ends. -/

namespace OperatingSystem.FileSystem.Fat

open OperatingSystem.Lib.CInt

/-- The values of `filesystem.config` the modelled functions use. `bloques.dat` has
`cantBloquesTotal` blocks, the first `cantBloquesSwap` of them for swap, and its size in bytes is an
`int` (`TAMANIO`). -/
structure FilesystemConfig where
  cantBloquesTotal : ℕ
  cantBloquesSwap : ℕ
  tamBloque : ℕ
  swap_lt : cantBloquesSwap < cantBloquesTotal
  tam_pos : 0 < tamBloque
  tamanio_int : (cantBloquesTotal * tamBloque : ℕ) ≤ INT_MAX

/-- `cant_bloques`: the number of entries of the table. -/
def FilesystemConfig.cantBloques (cfg : FilesystemConfig) : ℕ :=
  cfg.cantBloquesTotal - cfg.cantBloquesSwap

/-- `t_fcb`, without the name it is stored under. -/
structure Fcb where
  tamanio : ℤ
  bloqueInicial : ℕ
  deriving DecidableEq

def limpiarFat (cfg : FilesystemConfig) : List ℕ :=
  (List.replicate cfg.cantBloques 0).set 0 UINT32_MAX

def accesoFatGet (entradas : List ℕ) (nroEntrada : ℤ) : Option ℕ :=
  if 0 ≤ nroEntrada then entradas[nroEntrada.toNat]? else none

def accesoFatSet (entradas : List ℕ) (nroEntrada : ℤ) (valor : ℕ) : Option (List ℕ) :=
  if 0 ≤ nroEntrada ∧ nroEntrada.toNat < entradas.length then
    some (entradas.set nroEntrada.toNat valor)
  else none

/-- The loop of `obtener_bloques_fat_asignados`, for at most `k` turns. -/
def recorrerCadena (entradas : List ℕ) : ℕ → ℕ → Option (List ℕ)
  | 0, _ => none
  | k + 1, bloque =>
    if bloque = 0 ∨ bloque = UINT32_MAX then some []
    else do
      let siguiente ← accesoFatGet entradas (wrap32 bloque)
      let bloques ← recorrerCadena entradas k siguiente
      return bloque :: bloques

/-- The list of the blocks of a file. A walk of more turns than there are entries, plus the one
that meets the terminator, has come back to a block and never ends (`recorrerCadena_fuel`). -/
def obtenerBloquesFatAsignados (fcb : Fcb) (entradas : List ℕ) : Option (List ℕ) :=
  recorrerCadena entradas (entradas.length + 1) fcb.bloqueInicial

def obtenerCantBloquesAsignados (fcb : Fcb) (entradas : List ℕ) : Option ℕ := do
  let bloques ← obtenerBloquesFatAsignados fcb entradas
  return bloques.length

/-- The first loop of `asignar_bloques_nuevos`: the first free entries among the indices given, as
many as are still missing. -/
def entradasLibres (entradas : List ℕ) : List ℕ → ℕ → List ℕ
  | [], _ => []
  | i :: is, faltan =>
    if faltan = 0 then []
    else if accesoFatGet entradas i = some 0 then i :: entradasLibres entradas is (faltan - 1)
    else entradasLibres entradas is faltan

/-- The second loop of `asignar_bloques_nuevos`: every new entry but the last points to the next. -/
def enlazarNuevas : List ℕ → List ℕ → Option (List ℕ)
  | x :: y :: nuevas, entradas => do
    let entradas ← accesoFatSet entradas (wrap32 x) y
    enlazarNuevas (y :: nuevas) entradas
  | _, entradas => some entradas

def asignarBloquesNuevos (fcb : Fcb) (entradas : List ℕ) (cantBloquesNuevos : ℕ) :
    Option (Fcb × List ℕ) := do
  let previos ← obtenerBloquesFatAsignados fcb entradas
  let nuevas := entradasLibres entradas (List.range entradas.length) cantBloquesNuevos
  let entradas ← enlazarNuevas nuevas entradas
  -- `entradas_nuevas[cant_bloques_asignados - 1]` is read at `-1` when no entry was free
  let ultima ← nuevas.getLast?
  let primera ← nuevas.head?
  let entradas ← accesoFatSet entradas (wrap32 ultima) UINT32_MAX
  if fcb.bloqueInicial = 0 then
    return ({ fcb with bloqueInicial := primera }, entradas)
  else
    let entradas ← accesoFatSet entradas (wrap32 (previos.getLastD 0)) primera
    return (fcb, entradas)

/-- The loop of `liberar_bloques_asignados`: take blocks off the end of the list and free them. -/
def liberarUltimos : ℕ → List ℕ → List ℕ → Option (List ℕ × List ℕ)
  | 0, previos, entradas => some (previos, entradas)
  | k + 1, previos, entradas => do
    let entradas ← accesoFatSet entradas (wrap32 (previos.getLastD 0)) 0
    liberarUltimos k previos.dropLast entradas

def liberarBloquesAsignados (fcb : Fcb) (entradas : List ℕ) (cantBloquesALiberar : ℕ) :
    Option (Fcb × List ℕ) := do
  let previos ← obtenerBloquesFatAsignados fcb entradas
  if previos.length < cantBloquesALiberar then
    return (fcb, entradas)
  else
    let (previos, entradas) ← liberarUltimos cantBloquesALiberar previos entradas
    if previos = [] then
      return ({ fcb with bloqueInicial := 0 }, entradas)
    else
      let entradas ← accesoFatSet entradas (wrap32 (previos.getLastD 0)) UINT32_MAX
      return (fcb, entradas)

/-- The loop of `obtener_bloque_fat_de_archivo`: `k` steps along the chain, whatever they meet. -/
def avanzarBloques (entradas : List ℕ) : ℕ → ℕ → Option ℕ
  | 0, bloque => some bloque
  | k + 1, bloque => do
    let siguiente ← accesoFatGet entradas (wrap32 bloque)
    avanzarBloques entradas k siguiente

/-- The loop counter is a `size_t`, so a negative `nro_bloque` counts as a huge one. -/
def obtenerBloqueFatDeArchivo (fcb : Fcb) (entradas : List ℕ) (nroBloque : ℤ) : Option ℕ :=
  avanzarBloques entradas (sizeT nroBloque) fcb.bloqueInicial

end OperatingSystem.FileSystem.Fat
