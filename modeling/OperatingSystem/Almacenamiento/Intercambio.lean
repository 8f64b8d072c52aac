import OperatingSystem.FileSystem.Swap
import OperatingSystem.Memoria.Lugares

/-! # The memory on top of the file system

Memoria keeps the pages that are not in memory in the swap blocks of the file system, and the file
system takes what it writes to a file out of a page and puts what it reads from a file into one. Here
the two modules serve requests together: the packets `SWAP_OUT`, `SWAP_IN`, `SWAP_NEW_PROCESS`,
`SWAP_END_PROCESS`, `MEMORY_READ` and `MEMORY_WRITE` carry bytes, and the pages are where the blocks of
`bloques.dat` are. No function below reads the field `swap` of the handler.

`enDisco` is what the blocks hold at the swap positions. A page goes into a packet as its bytes
(`empaquetar_leerPalabras`), into a block as the words there were (`escribirPalabras_memDe`), and out of
it again (`desempaquetar_ofFn`), if it has the size of a block, in whole words (`Medidas`). -/

namespace OperatingSystem.Almacenamiento.Intercambio

open OperatingSystem.Lib.Bytes OperatingSystem.Lib.Dictionary
open OperatingSystem.FileSystem.Fat OperatingSystem.FileSystem.Bloques
open OperatingSystem.FileSystem.Archivo OperatingSystem.FileSystem.Swap
open OperatingSystem.Memoria OperatingSystem.Memoria.Paginas OperatingSystem.Memoria.HandlerPaginacion

variable {cfg : FilesystemConfig}

/-! ### Packets with a page -/

/-- `TAM_PAGINA` bytes of an array of words are added to a packet. -/
def empaquetar (tamPagina : ℕ) (data : List UInt32) : Option (List UInt8) :=
  if tamPagina ≤ 4 * data.length then some ((data.flatMap bytes).take tamPagina) else none

/-- `TAM_PAGINA` bytes of a packet are copied into an array, which is read word by word. -/
def desempaquetar (tamPagina : ℕ) (payload : List UInt8) : Option (List UInt32) :=
  if tamPagina ≤ payload.length then
    some (leerPalabras (copiar (fun _ => 0) 0 payload) 0 (tamPagina / 4))
  else none

/-- `TAM_BLOQUE` bytes of a packet are copied into a block. -/
def bloqueDe (tamBloque : ℕ) (payload : List UInt8) : Option (Bloque tamBloque) :=
  if tamBloque ≤ payload.length then some fun i => payload.getD i 0 else none

/-! ### The swap requests (`on_connection` of `filesystem/src/filesystem.c`) -/

/-- `SWAP_OUT` -/
def servirSwapOut (fs : Filesystem cfg) (posSwap : ℤ) (payload : List UInt8) :
    Option (Filesystem cfg) := do
  let data ← bloqueDe cfg.tamBloque payload
  let bloques ← escribirBloque cfg fs.bloques (posSwap.tdiv cfg.tamBloque) data
  return { fs with bloques := bloques }

/-- `SWAP_IN` -/
def servirSwapIn (fs : Filesystem cfg) (posSwap : ℤ) : Option (List UInt8) :=
  (leerBloque cfg fs.bloques (posSwap.tdiv cfg.tamBloque)).map List.ofFn

/-! ### The handler (`handler_paginacion.c`) -/

/-- `generar_tabla_paginas`, with the positions of the reply to `SWAP_NEW_PROCESS`. -/
def generarTablaPaginas (h : Handler) (fs : Filesystem cfg) (pid : ℤ) (tamanioProceso : ℕ)
    (resto : ℕ → Bloque cfg.tamBloque) : Option (Handler × Filesystem cfg) := do
  let (fs, resp) ← swapNewProcess fs (tamanioProceso / h.tamanioPagina) resto
  match resp with
  | .SWAP_OK posiciones =>
    let h ← HandlerPaginacion.generarTablaPaginas h pid tamanioProceso posiciones
    return (h, fs)
  -- the positions are what `malloc` leaves
  | .SWAP_ERROR => none

def swapOut (h : Handler) (fs : Filesystem cfg) (tabla : TablaPaginas) (nroPagina : ℕ) :
    Option (Filesystem cfg) := do
  let pagina ← tabla.paginas[nroPagina]?
  let data := leerValorPagina h (pagina.nroFrame * h.tamanioPagina) (h.tamanioPagina / 4)
  let payload ← empaquetar h.tamanioPagina data
  servirSwapOut fs pagina.posSwap payload

def swapIn (h : Handler) (fs : Filesystem cfg) (pid : ℤ) (nroPagina nuevoFrame : ℕ) (ahora : ℤ) :
    Option Handler := do
  let tabla ← h.pidTablas.get pid
  let pagina ← tabla.paginas[nroPagina]?
  let payload ← servirSwapIn fs pagina.posSwap
  let data ← desempaquetar h.tamanioPagina payload
  let tabla ← cargarPaginaEnMemoria tabla nroPagina nuevoFrame ahora
  return escribirValorPagina (setTabla h pid tabla) (nuevoFrame * h.tamanioPagina) data

def removerPaginaMemoria (h : Handler) (fs : Filesystem cfg) (orden : List ℤ) :
    Option (Option Pagina × Handler × Filesystem cfg) := do
  match ← paginaAReemplazar h orden with
  | none => return (none, h, fs)
  | some pagina =>
    if pagina.bitModificado = 1 then
      let tabla ← h.pidTablas.get pagina.pid
      let tabla ← tablaRemoverPaginaDeMemoria tabla pagina.nroPagina
      let h := setTabla h pagina.pid tabla
      let fs ← swapOut h fs tabla pagina.nroPagina
      return (some pagina, h, fs)
    else return (some pagina, h, fs)

/-- The page comes into the frame. -/
def alojar (h : Handler) (fs : Filesystem cfg) (pid : ℤ) (nroPagina frame : ℕ) (ahora : ℤ) :
    Option (Option ℕ × Handler) := do
  let h := setEspacio h (marcarFrameOcupado h.espacioUsuario frame)
  let h ← swapIn h fs pid nroPagina frame ahora
  return (some frame, h)

def cargarEnMemoria (h : Handler) (fs : Filesystem cfg) (pid : ℤ) (nroPagina : ℕ) (ahora : ℤ)
    (orden : List ℤ) : Option (Option ℕ × Handler × Filesystem cfg) :=
  match h.pidTablas.get pid with
  | none => some (none, h, fs)
  | some _ =>
    if h.operacionesBloqueantes then none
    else match obtenerFrameLibre h.espacioUsuario with
      | some frame => (alojar h fs pid nroPagina frame ahora).map fun r => (r.1, r.2, fs)
      | none => do
        match ← removerPaginaMemoria h fs orden with
        | (none, h, fs) => return (none, { h with operacionesBloqueantes := true }, fs)
        | (some pagina, h, fs) =>
          (alojar h fs pid nroPagina pagina.nroFrame ahora).map fun r => (r.1, r.2, fs)

/-- `remover_proceso`, which sends the positions of the process first (`liberar_posiciones_swap`). -/
def removerProceso (h : Handler) (fs : Filesystem cfg) (pid : ℤ) :
    Option (Handler × Filesystem cfg) := do
  let tabla ← h.pidTablas.get pid
  let (fs, _) ← swapEndProcess fs (tabla.paginas.map (·.posSwap))
  let h ← HandlerPaginacion.removerProceso h pid
  return (h, fs)

/-! ### The requests of the file system (`atender_filesystem` of `memoria/src/memoria.c`) -/

/-- `MEMORY_READ` -/
def memoryRead (h : Handler) (dirFisica : ℕ) : Option (List UInt8) :=
  empaquetar h.tamanioPagina (leerValorPagina h dirFisica (h.tamanioPagina / 4))

/-- `MEMORY_WRITE`; no page is marked as modified. -/
def memoryWrite (h : Handler) (dirFisica : ℕ) (payload : List UInt8) : Option Handler :=
  (desempaquetar h.tamanioPagina payload).map (escribirValorPagina h dirFisica)

/-! ### What the blocks hold -/

/-- The position of a swap block. -/
def EsPosicion (cfg : FilesystemConfig) (pos : ℤ) : Prop :=
  ∃ b < cfg.cantBloquesSwap, pos = (b * cfg.tamBloque : ℤ)

instance (cfg : FilesystemConfig) (pos : ℤ) : Decidable (EsPosicion cfg pos) := by
  unfold EsPosicion; infer_instance

/-- The bytes of a block. -/
def memDe {n : ℕ} (b : Bloque n) : Mem := fun i => if hi : i < n then b ⟨i, hi⟩ else 0

/-- A block with the bytes at an address. -/
def bloqueEn (n : ℕ) (m : Mem) (a : ℕ) : Bloque n := fun i => m (a + i)

/-- **The pages on disk**, by their swap positions. -/
def enDisco (cfg : FilesystemConfig) (bloques : BloquesDat cfg.tamBloque) : ℤ → Mem := fun pos =>
  if EsPosicion cfg pos then memDe (bloques (pos.tdiv cfg.tamBloque).toNat) else fun _ => 0

/-- The handler with other pages in its swap space. -/
def conSwap (h : Handler) (swap : ℤ → Mem) : Handler := { h with swap := swap }

/-- The positions of the pages of each process. -/
def posiciones (h : Handler) : Dict ℤ (List ℤ) :=
  h.pidTablas.map fun tabla => tabla.paginas.map (·.posSwap)

/-- The pages of the memory are on swap blocks. -/
def EnSwap (cfg : FilesystemConfig) (h : Handler) : Prop :=
  ∀ q ps, (posiciones h).get q = some ps → ∀ pos ∈ ps, EsPosicion cfg pos

/-- The pages have the size of the blocks, in whole words. -/
structure Medidas (cfg : FilesystemConfig) (h : Handler) : Prop where
  pagina : h.tamanioPagina = cfg.tamBloque
  palabras : 4 ∣ cfg.tamBloque

variable {bloques bloques' : BloquesDat cfg.tamBloque}

theorem enDisco_posicion {b : ℕ} (hb : b < cfg.cantBloquesSwap) :
    enDisco cfg bloques (b * cfg.tamBloque : ℤ) = memDe (bloques b) := by
  rw [enDisco, if_pos ⟨b, hb, rfl⟩, posicion_tdiv]
  rfl

/-- Only the swap blocks matter. -/
theorem enDisco_congr (hb : ∀ b < cfg.cantBloquesSwap, bloques' b = bloques b) :
    enDisco cfg bloques' = enDisco cfg bloques := by
  funext pos
  by_cases hpos : EsPosicion cfg pos
  · obtain ⟨b, hlt, rfl⟩ := hpos
    rw [enDisco_posicion hlt, enDisco_posicion hlt, hb b hlt]
  · rw [enDisco, enDisco, if_neg hpos, if_neg hpos]

theorem enDisco_update {b : ℕ} (hb : b < cfg.cantBloquesSwap) (data : Bloque cfg.tamBloque) :
    enDisco cfg (Function.update bloques b data) =
      Function.update (enDisco cfg bloques) (b * cfg.tamBloque : ℤ) (memDe data) := by
  funext pos
  by_cases hpos : EsPosicion cfg pos
  · obtain ⟨c, hc, rfl⟩ := hpos
    rw [enDisco_posicion hc]
    by_cases hcb : c = b
    · rw [hcb, Function.update_self, Function.update_self]
    · rw [Function.update_of_ne hcb, Function.update_of_ne (fun he => hcb (posicion_inj.mp he)),
        enDisco_posicion hc]
  · rw [Function.update_of_ne (fun he => hpos ⟨b, hb, he⟩), enDisco, enDisco, if_neg hpos, if_neg hpos]

/-! ### A page in a packet -/

theorem four_mul_div {t : ℕ} (ht : 4 ∣ t) : 4 * (t / 4) = t := Nat.mul_div_cancel' ht

theorem empaquetar_leerPalabras {t : ℕ} (ht : 4 ∣ t) (m : Mem) (a : ℕ) :
    empaquetar t (leerPalabras m a (t / 4)) = some (leerBytes m a t) := by
  have hle : t ≤ 4 * (leerPalabras m a (t / 4)).length := by
    rw [length_leerPalabras, four_mul_div ht]
  rw [empaquetar, if_pos hle, flatMap_bytes_leerPalabras, four_mul_div ht,
    List.take_of_length_le (length_leerBytes m a t).le]

theorem bloqueDe_leerBytes (t : ℕ) (m : Mem) (a : ℕ) :
    bloqueDe t (leerBytes m a t) = some (bloqueEn t m a) := by
  rw [bloqueDe, if_pos (length_leerBytes m a t).ge]
  exact congrArg some (funext fun i => getD_leerBytes m a i.isLt)

/-- The words of a page copied over a block are the bytes of the page. -/
theorem escribirPalabras_memDe {t : ℕ} (ht : 4 ∣ t) (b : Bloque t) (m : Mem) (a : ℕ) :
    escribirPalabras (memDe b) 0 (leerPalabras m a (t / 4)) = memDe (bloqueEn t m a) := by
  funext i
  rw [escribirPalabras_leerPalabras, four_mul_div ht, memDe, memDe]
  by_cases hi : i < t
  · rw [if_pos (by omega), dif_pos hi, Nat.sub_zero, bloqueEn]
  · rw [if_neg (by omega), dif_neg hi, dif_neg hi]

theorem copiar_ofFn {t : ℕ} (b : Bloque t) : copiar (fun _ => 0) 0 (List.ofFn b) = memDe b := by
  funext i
  rw [copiar, memDe, List.length_ofFn]
  by_cases hi : i < t
  · rw [if_pos (by omega), dif_pos hi, Nat.sub_zero, List.getD_eq_getElem _ _ (by simpa using hi),
      List.getElem_ofFn]
  · rw [if_neg (by omega), dif_neg hi]

theorem desempaquetar_ofFn {t : ℕ} (b : Bloque t) :
    desempaquetar t (List.ofFn b) = some (leerPalabras (memDe b) 0 (t / 4)) := by
  rw [desempaquetar, if_pos List.length_ofFn.ge, copiar_ofFn]

end OperatingSystem.Almacenamiento.Intercambio
