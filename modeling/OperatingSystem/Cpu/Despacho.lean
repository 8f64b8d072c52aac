import OperatingSystem.Cpu.Ciclo

/-! # The dispatch of a process (`kernel/src/core/process/process_handler.c`,
`utils/src/model/contexto-ejecucion.c`, `cpu/src/cpu.c`)

The kernel makes a context of the PCB and sends it to the CPU. What comes back is saved in the PCB, and
the code says what becomes of the process: ready after an eviction, blocked until its page is in, ended,
or, with a code that means nothing to the kernel, dispatched again at once. Between two dispatches the
CPU runs other processes, and interruptions arrive at any time. -/

namespace OperatingSystem.Cpu.Despacho

open OperatingSystem.Kernel.Proceso (Status ModoApertura)
open OperatingSystem.Cpu.Ciclo

/-! ### Contexts and PCBs -/

/-- `t_pcb`: what a context is made of, and the status. -/
structure Pcb where
  pid : ℤ
  programCounter : ℤ
  cpuRegistries : Registros
  currentStatus : Status
  pageFaultNro : ℤ
  resourceName : Option String
  nombreArchivo : Option String
  modoApertura : Option ModoApertura
  punteroArchivo : ℤ
  dirFisica : ℤ
  tamanioArchivo : ℤ

def createNewPcb (pid : ℤ) : Pcb where
  pid := pid
  programCounter := 0
  cpuRegistries := fun _ => 0
  currentStatus := .NEW
  pageFaultNro := 0
  resourceName := none
  nombreArchivo := none
  modoApertura := none
  punteroArchivo := -1
  dirFisica := -1
  tamanioArchivo := -1

/-- Two fields of the context are left as `malloc` gave them. -/
def contextFromPcb (pcb : Pcb) (blockTime : ℤ) (interruptMotive : Option OpCode) : ExecContext where
  pid := pcb.pid
  programCounter := pcb.programCounter
  cpuRegistries := pcb.cpuRegistries
  blockTime := blockTime
  resourceName := pcb.resourceName
  pageFaultNro := pcb.pageFaultNro
  interruptMotive := interruptMotive
  nombreArchivo := pcb.nombreArchivo
  modoApertura := pcb.modoApertura
  punteroArchivo := pcb.punteroArchivo
  dirFisica := pcb.dirFisica
  tamanioArchivo := pcb.tamanioArchivo

def updatePcbFromContext (ctx : ExecContext) (pcb : Pcb) : Pcb :=
  { pcb with
    programCounter := ctx.programCounter
    cpuRegistries := ctx.cpuRegistries
    pageFaultNro := ctx.pageFaultNro }

/-! ### The kernel -/

def isExitOpCode (opc : OpCode) : Bool :=
  opc = .PROC_EXIT_SEG_FAULT ∨ opc = .PROC_EXIT_OUT_OF_MEMORY ∨ opc = .PROC_EXIT_FORCE ∨
    opc = .PROC_EXIT_SUCCESS ∨ opc = .PROC_EXIT_INVALID_WRITE ∨ opc = .PROC_EXIT_RESOURCE_NOT_FOUND

/-- A process that ends keeps the PCB it ended with. The requests for resources, files and time, which
have handlers of their own, are not answered here. -/
def handleCpuEviction (pcb : Pcb) : Option OpCode → Option Pcb
  | none => some pcb
  | some evictionReason =>
    if isPlannerEviction evictionReason then some { pcb with currentStatus := .READY }
    else if evictionReason = .PAGE_FAULT then some { pcb with currentStatus := .BLOCK }
    else if isExitOpCode evictionReason then some { pcb with currentStatus := .EXIT }
    else none

/-! ### Runs -/

/-- The process, the CPU with the context of the process while it runs it, and the memory. -/
structure Sistema where
  pcb : Pcb
  cpu : Globales
  ctx : Option ExecContext
  memoria : MemoriaPlana

/-- A new process is ready; nothing is known of the CPU but that no interruption is pending. -/
def inicial (pid : ℤ) (cpu : Globales) (bytes : ℤ → UInt8) : Sistema :=
  ⟨{ createNewPcb pid with currentStatus := .READY }, reiniciarFlagInterrupcion cpu, none, ⟨bytes, []⟩⟩

/-- The reasons of the planner for an eviction. `FINALIZAR_PROCESO` of the process that executes has a third
one, `PROC_EXIT_FORCE`, which ends it: the runs are those without it. -/
inductive Desalojo where
  | QUANTUM | PRIORITY

def Desalojo.opCode : Desalojo → OpCode
  | QUANTUM => .PROC_EXIT_QUANTUM
  | PRIORITY => .PROC_EXIT_PRIORITY

/-- `ciclo marco` is one turn of the cycle, `marco` being what the memory answers to a
`FRAME_REQUEST`; `enviarContexto` ends the cycle and takes the context to the kernel. The interruption
of `interrupcion` is for any process. `paginaCargada` is the thread that `onPageFault` starts, when the
memory has loaded the page; `otroProceso` is a dispatch of another process, which leaves the CPU as it
may. -/
inductive Accion where
  | cpuExecute (blockTime : ℤ) (interruptMotive : Option OpCode)
  | ciclo (marco : ℤ)
  | enviarContexto
  | interrupcion (pid : ℤ) (motivo : Desalojo)
  | paginaCargada
  | otroProceso (cpu : Globales)

/-- The CPU that runs the process. -/
def Sistema.estado (s : Sistema) (ctx : ExecContext) : Estado := ⟨s.cpu, ctx, s.memoria⟩

/-- An action that is not possible changes nothing. -/
def atender (tamanioPagina : ℕ) (programa : List Instruccion) (s : Sistema) :
    Accion → Option Sistema
  | .cpuExecute blockTime interruptMotive =>
    if s.ctx.isNone ∧ (s.pcb.currentStatus = .READY ∨ s.pcb.currentStatus = .EXEC) then
      let ctx := contextFromPcb s.pcb blockTime interruptMotive
      some { s with
        pcb := { s.pcb with currentStatus := .EXEC }
        cpu := iniciarCiclo s.cpu ctx
        ctx := some ctx }
    else some s
  | .ciclo marco =>
    match s.ctx with
    | some ctx =>
      if s.cpu.flagExit then some s
      else (Ciclo.ciclo tamanioPagina programa marco (s.estado ctx)).map fun e =>
        { s with cpu := e.cpu, ctx := some e.ctx, memoria := e.memoria }
    | none => some s
  | .enviarContexto =>
    match s.ctx with
    | some ctx =>
      if s.cpu.flagExit then
        (handleCpuEviction (updatePcbFromContext ctx s.pcb) s.cpu.exitCode).map fun pcb =>
          { s with pcb := pcb, cpu := reiniciarFlagInterrupcion s.cpu, ctx := none }
      else some s
    | none => some s
  | .interrupcion pid motivo =>
    some { s with cpu := { s.cpu with interrupcion := ⟨pid, some motivo.opCode⟩ } }
  | .paginaCargada =>
    if s.ctx.isNone ∧ s.pcb.currentStatus = .BLOCK then
      some { s with pcb := { s.pcb with currentStatus := .READY } }
    else some s
  | .otroProceso cpu =>
    if s.ctx.isNone then some { s with cpu := reiniciarFlagInterrupcion cpu } else some s

end OperatingSystem.Cpu.Despacho
