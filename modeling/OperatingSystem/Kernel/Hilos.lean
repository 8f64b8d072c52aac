import OperatingSystem.Kernel.Proceso
import Mathlib.Logic.Function.Basic

/-! # The threads of the kernel (`kernel/src/core/process/process_handler.c`, `process.c`)

The status of a process is written by the short-term planner, the long-term planner, the console and
one detached thread for each sleep and each page load. A thread is the list of what it has still to do
(`Instr`), one access to the shared state at a time, and a run takes the threads in any order. Those
who hold a pointer to a PCB name it by its pid, also after it ended.

What the CPU, the memory and the other modules answer is chosen by the run: why the CPU gives a
process back (`Motivo`), whether a page could be loaded, and which of the queued processes a release
or a close wakes up. The planner's queue is a list of which any process may be next. -/

namespace OperatingSystem.Kernel.Hilos

open OperatingSystem.Kernel.Proceso

/-- What a release does: it wakes up the head of the queue or nobody, or the counter of the resource is
wrong. -/
inductive Liberacion where
  | despierta (pid : ℤ)
  | nadie
  | error
  deriving DecidableEq

/-- What a thread does next. -/
inductive Instr where
  /-- `planner->process_on_ready` -/
  | processOnReady (pid : ℤ)
  /-- `planner->remove_process` -/
  | removeProcess (pid : ℤ)
  /-- `_process_change_status` -/
  | changeStatus (pid : ℤ) (nextStatus : Status)
  /-- `exit_process`, which leaves `running_process_contexts` before it releases the process. -/
  | exitProcess (pid : ℤ)
  /-- `sem_post(&ready_process_event)` -/
  | postReady
  /-- `find_process` and `ready_process`, for the head of the queue of a resource. -/
  | assignResource (pid : ℤ)
  /-- `find_process` and `ready_process`, for a process with a pending file. -/
  | assignOpenFile (pid : ℤ)
  /-- `onEvicted` -/
  | onEvicted (pid : ℤ)
  /-- `handle_planner_evict_process` -/
  | plannerEvict (pid : ℤ) (reason : OpCode)
  /-- The test of the loop of `short_term_planner`. -/
  | whileExec (pid : ℤ)
  /-- `cpu_execute` -/
  | cpuExecute (pid : ℤ)
  /-- `sem_wait(&sem_page_fault)` -/
  | waitPageFault
  /-- `sem_post(&sem_page_fault)` -/
  | postPageFault
  /-- The thread of `_simulate_process_block` starts. -/
  | simulateProcessBlock (pid : ℤ)
  /-- The thread of `request_memory_to_load_page` starts; `result` is whether memory finds a frame. What the
  thread has left to do is what it does with the answer, which is taken to come. -/
  | requestMemoryToLoadPage (pid : ℤ) (result : Bool)
  /-- `find_process` of the console. -/
  | findForced (pid : ℤ) (libera : List Liberacion)
  /-- The test of `handle_force_process_exit`. -/
  | forceExit (pid : ℤ) (libera : List Liberacion)
  deriving DecidableEq

/-- The shared state. The threads are numbered: `0` is the short-term planner, `1` the console, `2` the
long-term planner. -/
structure Estado where
  currentStatus : ℤ → Status
  running : List ℤ
  ready : List ℤ
  interruptions : List (ℤ × OpCode)
  lastPid : ℤ
  readyProcessEvent : ℕ
  semPageFault : ℕ
  hilos : ℕ → List Instr
  cantHilos : ℕ

def STP : ℕ := 0

def CONSOLA : ℕ := 1

def LTP : ℕ := 2

def estadoInicial : Estado :=
  { currentStatus := fun _ => .NEW, running := [], ready := [], interruptions := [], lastPid := 0,
    readyProcessEvent := 0, semPageFault := 1, hilos := fun _ => [], cantHilos := 3 }

/-- The thread has `prog` left to do. -/
def continuar (s : Estado) (hilo : ℕ) (prog : List Instr) : Estado :=
  { s with hilos := Function.update s.hilos hilo prog }

/-- `run_in_detached_thread` -/
def runInDetachedThread (s : Estado) (prog : List Instr) : Estado :=
  { continuar s s.cantHilos prog with cantHilos := s.cantHilos + 1 }

/-! ### What the functions have to do -/

/-- `ready_process` -/
def readyProcess (pid : ℤ) : List Instr :=
  [.processOnReady pid, .changeStatus pid .READY, .postReady]

/-- The end of a process, in the planners and in the kernel. -/
def salir (pid : ℤ) : List Instr := [.removeProcess pid, .exitProcess pid]

/-- `release_resource`, of a resource of the process `pid`. -/
def releaseResource (pid : ℤ) : Liberacion → List Instr
  | .despierta nextPid => [.assignResource nextPid]
  | .nadie => []
  | .error => salir pid

/-- `force_exit_process` -/
def forceExitProcess (pid : ℤ) (libera : List Liberacion) : List Instr :=
  libera.flatMap (releaseResource pid)

/-- Why the CPU gives a process back, and what the handler finds: whether the resource or the file is
there, and which processes wake up. -/
inductive Motivo where
  | waitAsignado | waitOcupado | waitNoDefinido
  | signal (libera : Liberacion)
  | sleep (blockTime : ℤ)
  | evicted
  | pageFault (result : Bool)
  | fOpen (abierto : Bool)
  | fClose (wakes : List ℤ)
  | fSeek (hallado : Bool)
  | fTruncate (hallado : Bool)
  | fRead (hallado : Bool)
  | fWrite (hallado modoW : Bool)
  | exit (libera : List Liberacion)
  deriving DecidableEq

/-- A handler that goes to the file system and comes back. -/
def blockAndReady (pid : ℤ) : List Instr := .changeStatus pid .BLOCK :: readyProcess pid

/-- `handle_cpu_eviction` -/
def handleCpuEviction (pid : ℤ) : Motivo → List Instr
  | .waitAsignado => readyProcess pid
  | .waitOcupado => [.changeStatus pid .BLOCK]
  | .waitNoDefinido => salir pid
  | .signal libera => releaseResource pid libera
  | .sleep blockTime =>
    .changeStatus pid .BLOCK :: if 0 < blockTime then [.simulateProcessBlock pid] else []
  | .evicted => [.onEvicted pid]
  | .pageFault result =>
    [.waitPageFault, .changeStatus pid .BLOCK, .requestMemoryToLoadPage pid result]
  | .fOpen abierto => if abierto then [] else [.changeStatus pid .BLOCK]
  | .fClose wakes => wakes.map .assignOpenFile
  | .fSeek hallado => if hallado then readyProcess pid else []
  | .fTruncate hallado => if hallado then blockAndReady pid else []
  | .fRead hallado => if hallado then blockAndReady pid else []
  | .fWrite hallado modoW =>
    if hallado then
      if modoW then blockAndReady pid else [.plannerEvict pid .PROC_EXIT_INVALID_WRITE]
    else []
  | .exit libera => forceExitProcess pid libera ++ salir pid

/-! ### Steps -/

/-- Do one instruction: the state it leaves, and what the thread does next because of it. -/
def ejecutar (s : Estado) : Instr → Option (Estado × List Instr)
  | .processOnReady pid => some ({ s with ready := s.ready ++ [pid] }, [])
  | .removeProcess pid => some ({ s with ready := s.ready.erase pid }, [])
  | .changeStatus pid nextStatus =>
    some ({ s with currentStatus := Function.update s.currentStatus pid nextStatus }, [])
  | .exitProcess pid =>
    some ({ s with running := s.running.erase pid }, [.changeStatus pid .EXIT])
  | .postReady => some ({ s with readyProcessEvent := s.readyProcessEvent + 1 }, [])
  | .assignResource pid => some (s, if pid ∈ s.running then readyProcess pid else [])
  | .assignOpenFile pid => if pid ∈ s.running then some (s, readyProcess pid) else none
  | .onEvicted pid => some (s, if s.currentStatus pid ≠ .EXIT then readyProcess pid else [])
  | .plannerEvict pid reason =>
    if s.currentStatus pid = .EXEC then
      some ({ s with interruptions := s.interruptions ++ [(pid, reason)] }, [])
    else some (s, [])
  | .whileExec pid => some (s, if s.currentStatus pid = .EXEC then [.cpuExecute pid] else [])
  | .cpuExecute _ => none
  | .waitPageFault =>
    if 0 < s.semPageFault then some ({ s with semPageFault := s.semPageFault - 1 }, []) else none
  | .postPageFault => some ({ s with semPageFault := s.semPageFault + 1 }, [])
  | .simulateProcessBlock pid => some (runInDetachedThread s (readyProcess pid), [])
  | .requestMemoryToLoadPage pid result =>
    some (runInDetachedThread s
      ((if result then readyProcess pid else []) ++ [.postPageFault]), [])
  | .findForced pid libera => some (s, if pid ∈ s.running then [.forceExit pid libera] else [])
  | .forceExit pid libera =>
    if s.currentStatus pid = .EXEC then
      some ({ s with interruptions := s.interruptions ++ [(pid, .PROC_EXIT_FORCE)] }, [])
    else some (s, forceExitProcess pid libera ++ salir pid)

/-- What happens next. -/
inductive Accion where
  /-- A thread goes on. -/
  | paso (hilo : ℕ)
  /-- The CPU gives the process back to the short-term planner. -/
  | cpu (motivo : Motivo)
  /-- The short-term planner takes a process of its queue; an empty queue has none. -/
  | planificar (pid : Option ℤ)
  /-- The long-term planner admits the next new process. -/
  | admitir
  /-- `FINALIZAR_PROCESO`, with what the releases of its resources do. -/
  | finalizar (pid : ℤ) (libera : List Liberacion)
  /-- A quantum ends, or a process of a higher priority is ready. -/
  | desalojar (pid : ℤ) (reason : OpCode)
  deriving DecidableEq

def atender (s : Estado) : Accion → Option Estado
  | .paso hilo =>
    match s.hilos hilo with
    | [] => none
    | instr :: resto =>
      (ejecutar (continuar s hilo resto) instr).map fun r => continuar r.1 hilo (r.2 ++ resto)
  | .cpu motivo =>
    match s.hilos STP with
    | .cpuExecute pid :: resto =>
      some (continuar s STP (handleCpuEviction pid motivo ++ .whileExec pid :: resto))
    | _ => none
  | .planificar pid =>
    if s.hilos STP = [] ∧ 0 < s.readyProcessEvent then
      let s := { s with readyProcessEvent := s.readyProcessEvent - 1 }
      match pid with
      | none => if s.ready = [] then some s else none
      | some pid =>
        if pid ∈ s.ready then
          some (continuar { s with ready := s.ready.erase pid } STP
            [.changeStatus pid .EXEC, .whileExec pid])
        else none
    else none
  | .admitir =>
    if s.hilos LTP = [] then
      some (continuar { s with lastPid := s.lastPid + 1, running := s.running ++ [s.lastPid + 1] }
        LTP (readyProcess (s.lastPid + 1)))
    else none
  | .finalizar pid libera =>
    if s.hilos CONSOLA = [] then some (continuar s CONSOLA [.findForced pid libera]) else none
  | .desalojar pid reason => (ejecutar s (.plannerEvict pid reason)).map Prod.fst

end OperatingSystem.Kernel.Hilos
