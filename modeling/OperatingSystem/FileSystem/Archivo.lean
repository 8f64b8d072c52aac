import OperatingSystem.FileSystem.Bloques

/-! # Files (`filesystem/src/archivo.c`)

A file is an FCB stored under its name, a chain of the allocation table, and the blocks of
`bloques.dat` that the chain names, counted from the end of the swap space. `escribir_archivo` gets the
block it writes from Memoria (`MEMORY_READ`) and `leer_archivo` sends the block it read there
(`MEMORY_WRITE`): these two blocks are an argument and a result below.

`servir` serves one request of `on_connection` (`filesystem/src/filesystem.c`) on the state
`Filesystem`. -/

namespace OperatingSystem.FileSystem.Archivo

open OperatingSystem.Lib.CInt OperatingSystem.Lib.Dictionary
open OperatingSystem.FileSystem.Fat OperatingSystem.FileSystem.Bloques

/-- What the module keeps on disk, and the bitmap of the swap blocks. -/
structure Filesystem (cfg : FilesystemConfig) where
  fat : List ℕ
  fcbs : Dict String Fcb
  bloques : BloquesDat cfg.tamBloque
  bitarray : List Bool

variable {cfg : FilesystemConfig}

/-! ## `archivo.c` -/

/-- The recorded size, or `-1` if there is no FCB of that name. -/
def abrirArchivo (fs : Filesystem cfg) (nombreArchivo : String) : ℤ :=
  match fs.fcbs.get nombreArchivo with
  | some fcb => fcb.tamanio
  | none => -1

def crearArchivo (fs : Filesystem cfg) (nombreArchivo : String) : Filesystem cfg :=
  { fs with fcbs := fs.fcbs.put nombreArchivo ⟨0, 0⟩ }

/-- `((tamanio_nuevo + (tam_bloque - 1)) / tam_bloque) - cant_bloques_asignados`, in `int`. -/
def cantBloquesNuevos (cfg : FilesystemConfig) (tamanioNuevo : ℤ) (cantBloquesAsignados : ℕ) : ℤ :=
  (wrap32 (tamanioNuevo + (cfg.tamBloque - 1))).tdiv cfg.tamBloque - cantBloquesAsignados

/-- Without an FCB of that name `config_create` returns a null pointer. -/
def truncarArchivo (fs : Filesystem cfg) (nombreArchivo : String) (tamanioNuevo : ℤ) :
    Option (Filesystem cfg) := do
  let fcbActual ← fs.fcbs.get nombreArchivo
  let cantBloquesAsignados ← obtenerCantBloquesAsignados fcbActual fs.fat
  let nuevos := cantBloquesNuevos cfg tamanioNuevo cantBloquesAsignados
  let (fcbActual, fat) ←
    if nuevos = 0 then some (fcbActual, fs.fat)
    else if nuevos < 0 then liberarBloquesAsignados fcbActual fs.fat (-nuevos).toNat
    else asignarBloquesNuevos fcbActual fs.fat nuevos.toNat
  return { fs with
    fat := fat
    fcbs := fs.fcbs.put nombreArchivo { fcbActual with tamanio := tamanioNuevo } }

/-- A truncation records the size it was given. -/
theorem truncarArchivo_fcbs {fs fs' : Filesystem cfg} {nombreArchivo : String} {tamanioNuevo : ℤ}
    (h : truncarArchivo fs nombreArchivo tamanioNuevo = some fs') :
    ∃ b, fs'.fcbs = fs.fcbs.put nombreArchivo ⟨tamanioNuevo, b⟩ := by
  unfold truncarArchivo at h
  simp only [Option.bind_eq_bind, Option.bind_eq_some_iff] at h
  obtain ⟨fcb, -, cant, -, h⟩ := h
  split_ifs at h
  · obtain rfl := Option.some.inj h
    exact ⟨_, rfl⟩
  · obtain ⟨r, -, h⟩ := Option.bind_eq_some_iff.mp h
    obtain rfl := Option.some.inj h
    exact ⟨_, rfl⟩
  · obtain ⟨r, -, h⟩ := Option.bind_eq_some_iff.mp h
    obtain rfl := Option.some.inj h
    exact ⟨_, rfl⟩

/-- The block of `bloques.dat` that `escribir_archivo` and `leer_archivo` go to:
`nro_bloque + configs->cant_bloques_swap`. -/
def nroBloqueDe (cfg : FilesystemConfig) (fcb : Fcb) (fat : List ℕ) (puntero : ℤ) : Option ℤ := do
  let nroBloque ← obtenerBloqueFatDeArchivo fcb fat (puntero.tdiv cfg.tamBloque)
  return wrap32 (wrap32 nroBloque + cfg.cantBloquesSwap)

def escribirArchivo (fs : Filesystem cfg) (nombreArchivo : String) (puntero : ℤ)
    (dataMemoria : Bloque cfg.tamBloque) : Option (Filesystem cfg) := do
  let fcb ← fs.fcbs.get nombreArchivo
  let nroBloque ← nroBloqueDe cfg fcb fs.fat puntero
  let bloques ← escribirBloque cfg fs.bloques nroBloque dataMemoria
  return { fs with bloques := bloques }

theorem escribirArchivo_fcbs {fs fs' : Filesystem cfg} {nombreArchivo : String} {puntero : ℤ}
    {data : Bloque cfg.tamBloque} (h : escribirArchivo fs nombreArchivo puntero data = some fs') :
    fs'.fcbs = fs.fcbs := by
  unfold escribirArchivo at h
  simp only [Option.bind_eq_bind, Option.bind_eq_some_iff, Option.pure_def,
    Option.some.injEq] at h
  obtain ⟨fcb, -, nro, -, bloques, -, rfl⟩ := h
  rfl

def leerArchivo (fs : Filesystem cfg) (nombreArchivo : String) (puntero : ℤ) :
    Option (Bloque cfg.tamBloque) := do
  let fcb ← fs.fcbs.get nombreArchivo
  let nroBloque ← nroBloqueDe cfg fcb fs.fat puntero
  leerBloque cfg fs.bloques nroBloque

/-! ## Requests -/

/-- The requests on files, but for `ABRIR_ARCHIVO`, which changes nothing. -/
inductive Pedido (cfg : FilesystemConfig) where
  | crear (nombre : String)
  | truncar (nombre : String) (tamanio : ℤ)
  | escribir (nombre : String) (puntero : ℤ) (data : Bloque cfg.tamBloque)
  | leer (nombre : String) (puntero : ℤ)

/-- The file a request is about. -/
def Pedido.nombre : Pedido cfg → String
  | .crear nombre => nombre
  | .truncar nombre _ => nombre
  | .escribir nombre _ _ => nombre
  | .leer nombre _ => nombre

/-- Serve a request. The reply is the block sent to Memoria by a read, and nothing otherwise. -/
def servir (fs : Filesystem cfg) :
    Pedido cfg → Option (Filesystem cfg × Option (Bloque cfg.tamBloque))
  | .crear nombre => some (crearArchivo fs nombre, none)
  | .truncar nombre tamanio => (truncarArchivo fs nombre tamanio).map (·, none)
  | .escribir nombre puntero data => (escribirArchivo fs nombre puntero data).map (·, none)
  | .leer nombre puntero => (leerArchivo fs nombre puntero).map fun data => (fs, some data)

/-- The state after `limpiar_fat`, with no files; `bloques.dat` may hold anything. -/
def inicial (cfg : FilesystemConfig) (bloques : BloquesDat cfg.tamBloque) : Filesystem cfg where
  fat := limpiarFat cfg
  fcbs := Dict.empty
  bloques := bloques
  bitarray := inicializarSwap cfg

/-- A small configuration: eight swap blocks of sixteen bytes, and eight blocks of files. -/
def cfgChica : FilesystemConfig := ⟨16, 8, 16, by decide, by decide, by decide⟩

end OperatingSystem.FileSystem.Archivo
