import OperatingSystem.Almacenamiento.Vista
import OperatingSystem.FileSystem.Corridas
import OperatingSystem.Lib.Traces
import OperatingSystem.Memoria.Lectura

/-! # What the processes see

`Conjunto` is the memory and the file system, and `servir` serves a request of the kernel or of the CPU
with the packets that the two modules send each other. To the processes there are no frames, no swap
space and no blocks of `bloques.dat`: `Almacen` has a word at every address and files that are lists of
blocks, and `Hace` says what each request does to it and how it is answered.

`Cumple` relates the two. `Permitida` is when a request is allowed: what the kernel and the CPU promise,
room on disk for what is asked, and the condition under which the code keeps the pages
(`Lectura.Condicion`). -/

namespace OperatingSystem.Almacenamiento.Modulos

open OperatingSystem.Lib.Bytes OperatingSystem.Lib.Dictionary
open OperatingSystem.FileSystem.Fat OperatingSystem.FileSystem.Bloques
open OperatingSystem.FileSystem.Archivo (Filesystem abrirArchivo crearArchivo truncarArchivo
  escribirArchivo leerArchivo)
open OperatingSystem.FileSystem.Invariante OperatingSystem.FileSystem.Corridas
open OperatingSystem.Memoria.Paginas OperatingSystem.Memoria.HandlerPaginacion
open OperatingSystem.Memoria.Contenido OperatingSystem.Memoria.Pedidos
open OperatingSystem.Memoria.Lectura (MovPedido Vigente EnTabla Refleja)
open OperatingSystem.Almacenamiento.Intercambio

/-- The two modules. What the pages on disk hold is in `fs`. -/
structure Conjunto (cfg : FilesystemConfig) where
  memoria : Sistema
  fs : Filesystem cfg

/-- The requests of the kernel and of the CPU. -/
inductive Pedido (cfg : FilesystemConfig) where
  | newProcess (pid : ℤ) (size : ℕ) (resto : ℕ → Bloque cfg.tamBloque)
  | exitProcess (pid : ℤ)
  | frameRequest (pid : ℤ) (pagina : ℕ) (operacion : TipoOperacion) (ahora : ℤ)
  | loadFrame (pid : ℤ) (pagina : ℕ) (ahora : ℤ) (orden : List ℤ)
  | movOut (pid : ℤ) (dirLogica : ℕ) (valor : UInt32)
  | movIn (pid : ℤ) (dirLogica : ℕ)
  | abrir (nombre : String)
  | crear (nombre : String)
  | truncar (nombre : String) (tamanio : ℤ)
  | escribir (nombre : String) (puntero pid : ℤ) (dirLogica : ℕ)
  | leer (nombre : String) (puntero pid : ℤ) (dirLogica : ℕ)

/-- The answers that reach the processes; the frames told are kept in `traducciones`. -/
inductive Respuesta where
  | ok
  | palabra (valor : UInt32)
  | tamanio (n : ℤ)
  deriving DecidableEq

variable {cfg : FilesystemConfig}

/-- Serve a request. -/
def servir (c : Conjunto cfg) : Pedido cfg → Option (Conjunto cfg × Respuesta)
  | .newProcess pid size resto =>
    if c.memoria.handler.operacionesBloqueantes then none
    else do
      let (h, fs) ← Intercambio.generarTablaPaginas c.memoria.handler c.fs pid size resto
      return (⟨{ c.memoria with handler := h, pids := pid :: c.memoria.pids }, fs⟩, .ok)
  | .exitProcess pid => do
    let (h, fs) ← Intercambio.removerProceso c.memoria.handler c.fs pid
    return (⟨{ c.memoria with handler := h }, fs⟩, .ok)
  | .frameRequest pid pagina operacion ahora => do
    let s ← atender c.memoria (.frameRequest pid pagina operacion ahora)
    return ({ c with memoria := s }, .ok)
  | .loadFrame pid pagina ahora orden => do
    let (_, h, fs) ← Intercambio.cargarEnMemoria c.memoria.handler c.fs pid pagina ahora orden
    return (⟨{ c.memoria with
      handler := h
      faltas := Function.update c.memoria.faltas (pid, pagina) false }, fs⟩, .ok)
  | .movOut pid dirLogica valor => do
    let s ← atender c.memoria (.movOut pid dirLogica valor)
    return ({ c with memoria := s }, .ok)
  | .movIn pid dirLogica => (c.memoria.movIn pid dirLogica).map fun valor => (c, .palabra valor)
  | .abrir nombre => some (c, .tamanio (abrirArchivo c.fs nombre))
  | .crear nombre => some ({ c with fs := crearArchivo c.fs nombre }, .ok)
  | .truncar nombre tamanio => do
    let fs ← truncarArchivo c.fs nombre tamanio
    return ({ c with fs := fs }, .tamanio tamanio)
  | .escribir nombre puntero pid dirLogica => do
    let dirFisica ← c.memoria.dirFisica pid dirLogica
    let payload ← memoryRead c.memoria.handler dirFisica
    let dataMemoria ← bloqueDe cfg.tamBloque payload
    let fs ← escribirArchivo c.fs nombre puntero dataMemoria
    return ({ c with fs := fs }, .ok)
  | .leer nombre puntero pid dirLogica => do
    let dirFisica ← c.memoria.dirFisica pid dirLogica
    let dataBloque ← leerArchivo c.fs nombre puntero
    let h ← memoryWrite c.memoria.handler dirFisica (List.ofFn dataBloque)
    return ({ c with memoria := { c.memoria with handler := h } }, .ok)

/-- Both modules have just started, and there is no file yet. -/
def inicial (h : Handler) (bloques : BloquesDat cfg.tamBloque) : Conjunto cfg :=
  ⟨Memoria.Pedidos.inicial h, FileSystem.Archivo.inicial cfg bloques⟩

/-! ### The flat memory and the files -/

/-- A file, with blocks of `n` bytes. -/
structure Archivo (n : ℕ) where
  tamanio : ℤ
  bloques : List (Bloque n)

/-- **What the processes see**: words and files. -/
structure Almacen (n : ℕ) where
  memoria : Plana
  archivos : String → Option (Archivo n)

/-- The page at an address, as bytes. -/
def paginaDe (n : ℕ) (m : Plana) (p : ℤ) (a : ℕ) : Bloque n := fun i =>
  byte (m p (a + 4 * (i / 4))) (i % 4)

/-- The flat memory after a page was filled. -/
def escribirPagina {n : ℕ} (m : Plana) (p : ℤ) (a : ℕ) (b : Bloque n) : Plana := fun q x =>
  if q = p ∧ x / n = a / n then leer (memDe b) (x % n) else m q x

/-- The files after a change of one. -/
def Almacen.poner {n : ℕ} (t : Almacen n) (nombre : String) (f : Archivo n) : Almacen n :=
  { t with archivos := Function.update t.archivos nombre (some f) }

/-- **What a request does.** The blocks that a file gains may hold anything. -/
def Hace (t : Almacen cfg.tamBloque) : Pedido cfg → Respuesta → Almacen cfg.tamBloque → Prop
  | .newProcess .., r, t' | .exitProcess _, r, t' | .frameRequest .., r, t' | .loadFrame .., r, t' =>
    r = .ok ∧ t' = t
  | .movOut p a v, r, t' => r = .ok ∧ t' = { t with memoria := t.memoria.escribir p a v }
  | .movIn p a, r, t' => r = .palabra (t.memoria p a) ∧ t' = t
  | .abrir n, r, t' => r = .tamanio ((t.archivos n).elim (-1) Archivo.tamanio) ∧ t' = t
  | .crear n, r, t' => r = .ok ∧ t.archivos n = none ∧ t' = t.poner n ⟨0, []⟩
  | .truncar n k, r, t' => r = .tamanio k ∧ ∃ f bs, t.archivos n = some f ∧
      (f.bloques.take (bloquesPara cfg k) ++ bs).length = bloquesPara cfg k ∧
      t' = t.poner n ⟨k, f.bloques.take (bloquesPara cfg k) ++ bs⟩
  | .escribir n puntero p a, r, t' => r = .ok ∧ ∃ f, t.archivos n = some f ∧
      puntero.toNat / cfg.tamBloque < f.bloques.length ∧
      t' = t.poner n ⟨f.tamanio, f.bloques.set (puntero.toNat / cfg.tamBloque)
        (paginaDe cfg.tamBloque t.memoria p a)⟩
  | .leer n puntero p a, r, t' => r = .ok ∧ ∃ f b, t.archivos n = some f ∧
      f.bloques[puntero.toNat / cfg.tamBloque]? = some b ∧
      t' = { t with memoria := escribirPagina t.memoria p a b }

/-- No process has written, and there are no files. -/
def vacio (n : ℕ) : Almacen n := ⟨fun _ _ => 0, fun _ => none⟩

/-! ### The relation between the two -/

/-- The memory with what is on disk for its swap space. -/
def Conjunto.vista (c : Conjunto cfg) : Sistema :=
  { c.memoria with handler := conSwap c.memoria.handler (enDisco cfg c.fs.bloques) }

/-- The files are on the chains of the table. -/
def Guardados (fs : Filesystem cfg) (archivos : String → Option (Archivo cfg.tamBloque)) : Prop :=
  ∃ cad, Rep cfg fs.fat fs.fcbs cad ∧ ∀ n, archivos n = (fs.fcbs.get n).map fun fcb =>
    ⟨fcb.tamanio, (cad n).map fun i => fs.bloques (cfg.cantBloquesSwap + i)⟩

/-- **The modules keep what the processes see.** -/
structure Cumple (c : Conjunto cfg) (t : Almacen cfg.tamBloque) : Prop where
  medidas : Medidas cfg c.memoria.handler
  swap : FileSystem.Swap.Invariante ⟨c.fs, posiciones c.memoria.handler⟩
  creados : ∀ p ps, (posiciones c.memoria.handler).get p = some ps → p ∈ c.memoria.pids
  memoria : Refleja c.vista t.memoria
  archivos : Guardados c.fs t.archivos

/-! ### The requests that are allowed -/

/-- A page was translated for this operation, and it is still in the frame told. -/
def PaginaPedida (s : Sistema) (pid : ℤ) (dirLogica : ℕ) (op : TipoOperacion) : Prop :=
  dirLogica % s.handler.tamanioPagina = 0 ∧ MovPedido s pid dirLogica op ∧ Vigente s pid dirLogica

instance (s : Sistema) (pid : ℤ) (dirLogica : ℕ) (op : TipoOperacion) :
    Decidable (PaginaPedida s pid dirLogica op) := by
  unfold PaginaPedida; infer_instance

/-- **Allowed requests.** -/
def Permitida (c : Conjunto cfg) : Pedido cfg → Prop
  | .newProcess pid size _ => pid ∉ c.memoria.pids ∧
      size / c.memoria.handler.tamanioPagina ≤ CANT_PAGINAS ∧
      size / c.memoria.handler.tamanioPagina ≤ c.fs.bitarray.count false
  | .exitProcess pid => (c.memoria.handler.pidTablas.get pid).isSome
  | .frameRequest pid pagina _ _ => EnTabla c.memoria.handler pid pagina
  | .loadFrame pid pagina ahora orden =>
    Memoria.Lectura.Protocolo c.memoria (.loadFrame pid pagina ahora orden) ∧
      Memoria.Lectura.Condicion c.memoria (.loadFrame pid pagina ahora orden)
  | .movOut pid dirLogica valor => Memoria.Lectura.Protocolo c.memoria (.movOut pid dirLogica valor) ∧
      Memoria.Lectura.Condicion c.memoria (.movOut pid dirLogica valor)
  | .movIn pid dirLogica => Memoria.Lectura.Protocolo c.memoria (.movIn pid dirLogica) ∧
      Memoria.Lectura.Condicion c.memoria (.movIn pid dirLogica)
  | .abrir _ => True
  | .crear nombre => c.fs.fcbs.get nombre = none
  | .truncar nombre tamanio => Admisible c.fs (.truncar nombre tamanio)
  | .escribir nombre puntero pid dirLogica =>
    EnArchivo c.fs nombre puntero ∧ PaginaPedida c.memoria pid dirLogica .ESCRIBIR
  | .leer nombre puntero pid dirLogica =>
    EnArchivo c.fs nombre puntero ∧ PaginaPedida c.memoria pid dirLogica .LEER

instance (fs : Filesystem cfg) (nombre : String) (puntero : ℤ) :
    Decidable (EnArchivo fs nombre puntero) :=
  decidable_of_iff (∃ fcb ∈ fs.fcbs.get nombre, ∃ cant ∈ obtenerCantBloquesAsignados fcb fs.fat,
      0 ≤ puntero ∧ puntero < cant * cfg.tamBloque) <| by
    simp only [EnArchivo, Option.mem_def, exists_and_left]

instance (fs : Filesystem cfg) (nombre : String) (tamanio : ℤ) :
    Decidable (Admisible fs (.truncar nombre tamanio)) :=
  decidable_of_iff (∃ fcb ∈ fs.fcbs.get nombre, ∃ cant ∈ obtenerCantBloquesAsignados fcb fs.fat,
      0 ≤ tamanio ∧ Lib.CInt.FitsInt (tamanio + (cfg.tamBloque - 1)) ∧
        bloquesPara cfg tamanio ≤ cant + fs.fat.count 0) <| by
    simp only [Admisible, Option.mem_def, exists_and_left]

instance (c : Conjunto cfg) : ∀ ped, Decidable (Permitida c ped)
  | .newProcess .. | .exitProcess _ | .frameRequest .. | .loadFrame .. | .movOut .. | .movIn ..
  | .crear _ | .truncar .. | .escribir .. | .leer .. => by
    unfold Permitida; infer_instance
  | .abrir _ => isTrue trivial

end OperatingSystem.Almacenamiento.Modulos
