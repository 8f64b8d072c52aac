import OperatingSystem.Kernel.Proceso

/-! # Open files (`kernel/src/core/filesystem/file.c`, `filesystem.c`, `process_handler.c`)

The kernel keeps, for every file some process has open, a write lock, a number of readers and the
queue of the requests that have to wait. A close hands the file to the requests at the head of the
queue and wakes up their processes.

What the file system module answers to `ABRIR_ARCHIVO` and `CREAR_ARCHIVO` is part of the request
(`Respuestas`): the code of another process decides it. -/

namespace OperatingSystem.Kernel.Archivos

open OperatingSystem.Lib.Dictionary
open OperatingSystem.Kernel.Proceso

/-- `t_mode` -/
inductive Mode where
  | FILE_MODE_READ | FILE_MODE_WRITE
  deriving DecidableEq

structure FileLockRequest where
  mode : Mode
  pid : ℤ
  deriving DecidableEq

/-- `t_kernel_file` -/
structure KernelFile where
  nombreArchivo : String
  readWriteQueue : List FileLockRequest
  activeWriteLock : Bool
  activeReadLock : ℤ
  deriving DecidableEq

/-- The planners' state and the global table of open files. -/
structure Estado where
  plan : Planificador
  openFiles : Dict String KernelFile

def setPlan (s : Estado) (plan : Planificador) : Estado := { s with plan := plan }

def setFile (s : Estado) (file : KernelFile) : Estado :=
  { s with openFiles := s.openFiles.put file.nombreArchivo file }

/-! ### `file.c` -/

def kernelFileCreate (fileName : String) : KernelFile := ⟨fileName, [], false, 0⟩

def isWriteLockActive (file : KernelFile) : Bool := file.activeWriteLock

def queueLock (file : KernelFile) (pid : ℤ) (mode : Mode) : KernelFile :=
  { file with readWriteQueue := file.readWriteQueue ++ [⟨mode, pid⟩] }

def lockFileForWriting (file : KernelFile) : KernelFile := { file with activeWriteLock := true }

def unlockFileForWriting (file : KernelFile) : KernelFile := { file with activeWriteLock := false }

def isReadLockActive (file : KernelFile) : Bool := 0 < file.activeReadLock

def lockFileForReading (file : KernelFile) : KernelFile :=
  { file with activeReadLock := file.activeReadLock + 1 }

def addParticipantToReadingLock (file : KernelFile) : KernelFile :=
  { file with activeReadLock := file.activeReadLock + 1 }

def removeParticipantFromReadLock (file : KernelFile) : KernelFile :=
  { file with activeReadLock := file.activeReadLock - 1 }

def fileOpenInReadMode (file : KernelFile) (pid : ℤ) : Bool × KernelFile :=
  if isWriteLockActive file then (false, queueLock file pid .FILE_MODE_READ)
  else if isReadLockActive file then (true, addParticipantToReadingLock file)
  else (true, lockFileForReading file)

def fileOpenInWriteMode (file : KernelFile) (pid : ℤ) : Bool × KernelFile :=
  if isWriteLockActive file then (false, queueLock file pid .FILE_MODE_WRITE)
  else (true, lockFileForWriting file)

/-- The loop of `desencolar_y_dar_lugar_al_siguiente_lock` over the queue of `file`: it ends with
what is left of the queue and the processes that get the file. -/
def darLugar : List FileLockRequest → KernelFile → List ℤ → KernelFile × List ℤ
  | [], file, proxProcesos => ({ file with readWriteQueue := [] }, proxProcesos)
  | next :: rest, file, proxProcesos =>
    match next.mode with
    | .FILE_MODE_READ => darLugar rest (lockFileForReading file) (proxProcesos ++ [next.pid])
    | .FILE_MODE_WRITE =>
      if proxProcesos.length = 0 then
        ({ lockFileForWriting file with readWriteQueue := rest }, proxProcesos ++ [next.pid])
      else ({ file with readWriteQueue := next :: rest }, proxProcesos)

def desencolarYDarLugarAlSiguienteLock (file : KernelFile) : KernelFile × List ℤ :=
  darLugar file.readWriteQueue file []

def fileCloseWriteMode (file : KernelFile) : KernelFile × List ℤ :=
  let file := unlockFileForWriting file
  if !isWriteLockActive file then desencolarYDarLugarAlSiguienteLock file else (file, [])

def fileCloseReadMode (file : KernelFile) : KernelFile × List ℤ :=
  let file := removeParticipantFromReadLock file
  if !isReadLockActive file then desencolarYDarLugarAlSiguienteLock file else (file, [])

/-! ### `filesystem.c` -/

def ARCHIVO_OK : ℤ := 42

/-- What the file system answers to `ABRIR_ARCHIVO`, to `CREAR_ARCHIVO` and to the second
`ABRIR_ARCHIVO`. -/
structure Respuestas where
  abrir : ℤ
  crear : ℤ
  reabrir : ℤ
  deriving DecidableEq

def addToOpenFiles (s : Estado) (fileName : String) : KernelFile × Estado :=
  (kernelFileCreate fileName, setFile s (kernelFileCreate fileName))

def removeFromOpenFiles (s : Estado) (fileName : String) : Estado :=
  { s with openFiles := s.openFiles.remove fileName }

/-- Without a file the table stays as it is. -/
def getFileFromFilesystem (s : Estado) (fileName : String) (r : Respuestas) :
    Option (KernelFile × Estado) :=
  match s.openFiles.get fileName with
  | some file => some (file, s)
  | none =>
    if 0 ≤ r.abrir then some (addToOpenFiles s fileName)
    else if r.crear = ARCHIVO_OK then
      if 0 ≤ r.reabrir then some (addToOpenFiles s fileName) else none
    else none

/-! ### `process_handler.c` -/

def openFile (file : KernelFile) (pid : ℤ) : ModoApertura → Bool × KernelFile
  | .R => fileOpenInReadMode file pid
  | .W => fileOpenInWriteMode file pid

def onFileOpen (s : Estado) (pid : ℤ) (fileName : String) (mode : ModoApertura) (r : Respuestas) :
    Option Estado := do
  let pcb ← findProcess s.plan pid
  match getFileFromFilesystem s fileName r with
  | none => return s
  | some (file, s) =>
    let (abierto, file) := openFile file pid mode
    let s := setFile s file
    if abierto then
      return setPlan s (setProcess s.plan pid (processAssignOpenFile pcb fileName mode))
    else
      return setPlan s (setProcess s.plan pid
        { processAssignPendingFile pcb fileName mode with currentStatus := .BLOCK })

/-- The last loop of `onFileClose`; a process that is not found is dereferenced all the same. -/
def despertar : List ℤ → Estado → Option Estado
  | [], s => some s
  | nextPid :: rest, s => do
    let process ← findProcess s.plan nextPid
    match process.pendingFile with
    | none => despertar rest s
    | some pendingFile => despertar rest (setPlan s (readyProcess s.plan nextPid
        (processAssignOpenFile process pendingFile.nombreArchivo pendingFile.modoApertura)))

def onFileClose (s : Estado) (pid : ℤ) (fileName : String) (r : Respuestas) : Option Estado := do
  let pcb ← findProcess s.plan pid
  match getFileFromFilesystem s fileName r with
  | none => return s
  | some (file, s) =>
    match processHasOpenFile pcb fileName with
    | none => return s
    | some mode =>
      let pcb ← processRemoveOpenFile pcb fileName
      let s := setPlan s (setProcess s.plan pid pcb)
      let (file, proximosProcesos) := match mode with
        | .W => fileCloseWriteMode file
        | .R => fileCloseReadMode file
      let s := setFile s file
      let s := if proximosProcesos.length = 0 ∧ file.readWriteQueue.length = 0
        then removeFromOpenFiles s file.nombreArchivo else s
      despertar proximosProcesos s

/-! ### Requests -/

/-- What the planners do, and what the processes ask for on one file. -/
inductive Accion where
  | admitir
  | despachar (pid : ℤ)
  | desalojar (pid : ℤ)
  | abrir (pid : ℤ) (mode : ModoApertura) (r : Respuestas)
  | cerrar (pid : ℤ) (r : Respuestas)
  deriving DecidableEq

/-- Serve a request about the file `archivo`; only the process in the CPU opens and closes. -/
def atender (archivo : String) (s : Estado) : Accion → Option Estado
  | .admitir => some (setPlan s (admitir s.plan))
  | .despachar pid => (despachar s.plan pid).map (setPlan s)
  | .desalojar pid => (onEvicted s.plan pid).map (setPlan s)
  | .abrir pid mode r => do
    let _ ← enEjecucion s.plan pid
    onFileOpen s pid archivo mode r
  | .cerrar pid r => do
    let _ ← enEjecucion s.plan pid
    onFileClose s pid archivo r

def estadoInicial : Estado := ⟨planificadorInicial, Dict.empty⟩

end OperatingSystem.Kernel.Archivos
