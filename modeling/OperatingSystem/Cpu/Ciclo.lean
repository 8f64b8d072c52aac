import OperatingSystem.Kernel.Proceso
import OperatingSystem.Memoria.Pedidos

/-! # The instruction cycle (`cpu/src/ciclo.c`, `cpu/src/registros.c`)

The CPU keeps the registers of the process it runs in its own globals and copies them to the context
only where `actualizar_contexto_de_ejecucion` is called. The program is in the memory module, which
sends the instruction that the program counter names.

Towards the CPU the memory is a flat store of bytes: it answers a `FRAME_REQUEST` with the frame that
the page is in, or with `-1`, and what is in the frame is what the process has at the addresses of the
page. It never refuses an access to a frame it has named, and remembers the writes in their order. -/

namespace OperatingSystem.Cpu.Ciclo

open OperatingSystem.Kernel.Proceso (ModoApertura)
open OperatingSystem.Memoria.Pedidos (obtenerNumeroPagina obtenerDesplazamiento
  traduccionLogicaAFisica)

/-! ### The data -/

/-- `op_code`: the codes that a context is sent with. The `-1` is `none`. -/
inductive OpCode where
  | PROC_EXIT_SEG_FAULT | PROC_EXIT_OUT_OF_MEMORY | PROC_EXIT_SUCCESS | PROC_EXIT_RESOURCE_NOT_FOUND
  | PROC_EXIT_FORCE | PROC_EXIT_QUANTUM | PROC_EXIT_PRIORITY | PROC_EXIT_INVALID_WRITE
  | SLEEP | WAIT | SIGNAL | F_OPEN | F_CLOSE | F_SEEK | F_READ | F_WRITE | F_TRUNCATE | PAGE_FAULT
  deriving DecidableEq

/-- `t_registros`: `AX`, `BX`, `CX` and `DX`. -/
abbrev Registros := Fin 4 → UInt32

/-- `t_exec_context` -/
structure ExecContext where
  pid : ℤ
  programCounter : ℤ
  cpuRegistries : Registros
  blockTime : ℤ
  resourceName : Option String
  pageFaultNro : ℤ
  interruptMotive : Option OpCode
  nombreArchivo : Option String
  modoApertura : Option ModoApertura
  punteroArchivo : ℤ
  dirFisica : ℤ
  tamanioArchivo : ℤ

/-- `t_interrupcion` -/
structure Interrupcion where
  pid : ℤ
  motivo : Option OpCode

/-- The globals of the CPU. -/
structure Globales where
  registros : Registros
  flagExit : Bool
  exitCode : Option OpCode
  interrupcion : Interrupcion

/-- What the process has in memory, and what was written to it so far. -/
structure MemoriaPlana where
  bytes : ℤ → UInt8
  escrituras : List (ℤ × UInt32)

/-- A register operand is its first letter, a number operand what `atoi` makes of it. -/
inductive Instruccion where
  | SET (registro : Char) (nuevoValor : ℤ)
  | SUM (registroDestino registroOrigen : Char)
  | SUB (registroDestino registroOrigen : Char)
  | JNZ (registro : Char) (nuevoPc : ℤ)
  | SLEEP (segundos : ℤ)
  | WAIT (recurso : String)
  | SIGNAL (recurso : String)
  | MOV_IN (registro : Char) (dirLogica : ℤ)
  | MOV_OUT (dirLogica : ℤ) (registro : Char)
  | F_OPEN (nombreArchivo modoApertura : String)
  | F_CLOSE (nombreArchivo : String)
  | F_SEEK (nombreArchivo : String) (posicion : ℤ)
  | F_READ (nombreArchivo : String) (dirLogica : ℤ)
  | F_WRITE (nombreArchivo : String) (dirLogica : ℤ)
  | F_TRUNCATE (nombreArchivo : String) (tamanio : ℤ)
  | EXIT
  deriving DecidableEq

/-- The instructions that ask the memory for a frame. -/
def pideMarco : Instruccion → Bool
  | .MOV_IN .. | .MOV_OUT .. | .F_READ .. | .F_WRITE .. => true
  | _ => false

/-- The CPU in a turn of its cycle: its globals, the context it was given, and the memory. -/
structure Estado where
  cpu : Globales
  ctx : ExecContext
  memoria : MemoriaPlana

/-! ### The memory -/

namespace MemoriaPlana

/-- The word at a logical address. -/
def leer (m : MemoriaPlana) (dirLogica : ℤ) : UInt32 :=
  Lib.Bytes.leer (fun i => m.bytes (dirLogica + i)) 0

def escribir (m : MemoriaPlana) (dirLogica : ℤ) (valor : UInt32) : MemoriaPlana where
  bytes := fun b =>
    if dirLogica ≤ b ∧ b < dirLogica + 4 then Lib.Bytes.byte valor (b - dirLogica).toNat else m.bytes b
  escrituras := m.escrituras ++ [(dirLogica, valor)]

end MemoriaPlana

/-- What the process knows as the address `dirFisica` of the frame that its page is in. -/
def dirEnPagina (tamanioPagina : ℕ) (pagina marco dirFisica : ℤ) : ℤ :=
  pagina * tamanioPagina + (dirFisica - marco * tamanioPagina)

/-- The answer to a `MOV_IN`. -/
def leerValorMemoria (m : MemoriaPlana) (tamanioPagina : ℕ) (pagina marco dirFisica : ℤ) : UInt32 :=
  m.leer (dirEnPagina tamanioPagina pagina marco dirFisica)

/-- The answer to a `MOV_OUT`, which is always `1`. -/
def escribirValorMemoria (m : MemoriaPlana) (tamanioPagina : ℕ) (pagina marco dirFisica : ℤ)
    (valor : UInt32) : ℤ × MemoriaPlana :=
  (1, m.escribir (dirEnPagina tamanioPagina pagina marco dirFisica) valor)

/-- The CPU and the memory mean the same byte. -/
@[simp] theorem dirEnPagina_traduccionLogicaAFisica (tamanioPagina : ℕ) (dirLogica marco : ℤ) :
    dirEnPagina tamanioPagina (obtenerNumeroPagina tamanioPagina dirLogica) marco
      (traduccionLogicaAFisica tamanioPagina dirLogica marco) = dirLogica := by
  unfold dirEnPagina traduccionLogicaAFisica obtenerDesplazamiento
  omega

/-! ### `registros.c` -/

def obtenerRegistro (indiceChar : Char) : Option (Fin 4) :=
  if indiceChar = 'A' then some 0
  else if indiceChar = 'B' then some 1
  else if indiceChar = 'C' then some 2
  else if indiceChar = 'D' then some 3
  else none

def actualizarRegistrosCtx (s : Estado) : Estado :=
  { s with ctx := { s.ctx with cpuRegistries := s.cpu.registros } }

def actualizarRegistrosCpu (cpu : Globales) (ctx : ExecContext) : Globales :=
  { cpu with registros := ctx.cpuRegistries }

/-! ### `ciclo.c` -/

def actualizarContextoDeEjecucion (s : Estado) : Estado := actualizarRegistrosCtx s

/-- Assign to a register. -/
def Estado.cargar (s : Estado) (registro : Fin 4) (valor : UInt32) : Estado :=
  { s with cpu := { s.cpu with registros := Function.update s.cpu.registros registro valor } }

/-- The cycle ends, and the context is sent with that code. -/
def Estado.salir (s : Estado) (exitCode : OpCode) : Estado :=
  { s with cpu := { s.cpu with exitCode := some exitCode, flagExit := true } }

/-- The memory sends the instruction; outside of the program it has a null pointer. -/
def fetch (programa : List Instruccion) (programCounter : ℤ) : Option Instruccion :=
  if 0 ≤ programCounter then programa[programCounter.toNat]? else none

def executeSet (s : Estado) (registro : Char) (nuevoValor : ℤ) : Estado :=
  match obtenerRegistro registro with
  | some registroCpu => s.cargar registroCpu (UInt32.ofInt nuevoValor)
  | none => s

def executeSum (s : Estado) (registroDestino registroOrigen : Char) : Estado :=
  match obtenerRegistro registroDestino, obtenerRegistro registroOrigen with
  | some destino, some origen =>
    s.cargar destino (s.cpu.registros origen + s.cpu.registros destino)
  | _, _ => s

def executeSub (s : Estado) (registroDestino registroOrigen : Char) : Estado :=
  match obtenerRegistro registroDestino, obtenerRegistro registroOrigen with
  | some destino, some origen =>
    s.cargar destino (s.cpu.registros destino - s.cpu.registros origen)
  | _, _ => s

/-- A register that does not exist is a null pointer, which is read. -/
def executeJnz (s : Estado) (registro : Char) (nuevoPc : ℤ) : Option Estado := do
  let registroCpu ← obtenerRegistro registro
  return if s.cpu.registros registroCpu ≠ 0 then
    { s with ctx := { s.ctx with programCounter := nuevoPc - 1 } }
  else s

def executeSleep (s : Estado) (segundos : ℤ) : Estado :=
  (actualizarContextoDeEjecucion { s with ctx := { s.ctx with blockTime := segundos } }).salir .SLEEP

def executeWait (s : Estado) (recurso : String) : Estado :=
  (actualizarContextoDeEjecucion
    { s with ctx := { s.ctx with resourceName := some recurso } }).salir .WAIT

def executeSignal (s : Estado) (recurso : String) : Estado :=
  (actualizarContextoDeEjecucion
    { s with ctx := { s.ctx with resourceName := some recurso } }).salir .SIGNAL

/-- What `MOV_IN`, `MOV_OUT`, `F_READ` and `F_WRITE` do without a frame. -/
def pageFault (s : Estado) (pagina : ℤ) : Estado :=
  let s := actualizarContextoDeEjecucion s
  ({ s with ctx := { s.ctx with pageFaultNro := pagina } }).salir .PAGE_FAULT

/-- The word `-1` is taken for an error of the memory: the cycle ends, without a code and without
bringing the context up to date. -/
def executeMovIn (tamanioPagina : ℕ) (s : Estado) (registro : Char) (dirLogica marco : ℤ) :
    ℤ × Estado :=
  let pagina := obtenerNumeroPagina tamanioPagina dirLogica
  if marco = -1 then (-1, pageFault s pagina)
  else
    let dirFisica := traduccionLogicaAFisica tamanioPagina dirLogica marco
    let valorMemoria := leerValorMemoria s.memoria tamanioPagina pagina marco dirFisica
    if valorMemoria = -1 then (1, { s with cpu := { s.cpu with flagExit := true } })
    else match obtenerRegistro registro with
      | some registroDestinoCpu => (1, s.cargar registroDestinoCpu valorMemoria)
      | none => (1, s)

def executeMovOut (tamanioPagina : ℕ) (s : Estado) (dirLogica : ℤ) (registro : Char) (marco : ℤ) :
    Option (ℤ × Estado) :=
  let pagina := obtenerNumeroPagina tamanioPagina dirLogica
  if marco = -1 then some (-1, pageFault s pagina)
  else do
    let dirFisica := traduccionLogicaAFisica tamanioPagina dirLogica marco
    let registroDestinoCpu ← obtenerRegistro registro
    let (result, memoria) := escribirValorMemoria s.memoria tamanioPagina pagina marco dirFisica
      (s.cpu.registros registroDestinoCpu)
    let s := { s with memoria := memoria }
    return (1, if result = -1 then { s with cpu := { s.cpu with flagExit := true } } else s)

def executeFOpen (s : Estado) (nombreArchivo modoApertura : String) : Estado :=
  let modo := if 'W' ∈ modoApertura.toList then ModoApertura.W else .R
  (actualizarContextoDeEjecucion { s with
    ctx := { s.ctx with nombreArchivo := some nombreArchivo, modoApertura := some modo } }).salir .F_OPEN

def executeFClose (s : Estado) (nombreArchivo : String) : Estado :=
  (actualizarContextoDeEjecucion { s with
    ctx := { s.ctx with nombreArchivo := some nombreArchivo } }).salir .F_CLOSE

def executeFSeek (s : Estado) (nombreArchivo : String) (posicion : ℤ) : Estado :=
  (actualizarContextoDeEjecucion { s with
    ctx := { s.ctx with nombreArchivo := some nombreArchivo, punteroArchivo := posicion } }).salir .F_SEEK

/-- `execute_F_READ` and `execute_F_WRITE`, up to the code. -/
def executeFAcceso (tamanioPagina : ℕ) (exitCode : OpCode) (s : Estado) (nombreArchivo : String)
    (dirLogica marco : ℤ) : ℤ × Estado :=
  let pagina := obtenerNumeroPagina tamanioPagina dirLogica
  if marco = -1 then (-1, pageFault s pagina)
  else
    let dirFisica := traduccionLogicaAFisica tamanioPagina dirLogica marco
    (1, (actualizarContextoDeEjecucion { s with
      ctx := { s.ctx with nombreArchivo := some nombreArchivo, dirFisica := dirFisica } }).salir exitCode)

def executeFRead (tamanioPagina : ℕ) (s : Estado) (nombreArchivo : String) (dirLogica marco : ℤ) :
    ℤ × Estado :=
  executeFAcceso tamanioPagina .F_READ s nombreArchivo dirLogica marco

def executeFWrite (tamanioPagina : ℕ) (s : Estado) (nombreArchivo : String) (dirLogica marco : ℤ) :
    ℤ × Estado :=
  executeFAcceso tamanioPagina .F_WRITE s nombreArchivo dirLogica marco

def executeFTruncate (s : Estado) (nombreArchivo : String) (tamanio : ℤ) : Estado :=
  (actualizarContextoDeEjecucion { s with
    ctx := { s.ctx with nombreArchivo := some nombreArchivo, tamanioArchivo := tamanio } }).salir
      .F_TRUNCATE

def executeExit (s : Estado) : Estado := (actualizarContextoDeEjecucion s).salir .PROC_EXIT_SUCCESS

/-- The first component is `should_increment_pc`; `marco` is what a `FRAME_REQUEST` answers now. -/
def decode (tamanioPagina : ℕ) (marco : ℤ) (s : Estado) : Instruccion → Option (ℤ × Estado)
  | .SET registro nuevoValor => some (1, executeSet s registro nuevoValor)
  | .SUM registroDestino registroOrigen => some (1, executeSum s registroDestino registroOrigen)
  | .SUB registroDestino registroOrigen => some (1, executeSub s registroDestino registroOrigen)
  | .JNZ registro nuevoPc => (executeJnz s registro nuevoPc).map fun s => (1, s)
  | .SLEEP segundos => some (1, executeSleep s segundos)
  | .WAIT recurso => some (1, executeWait s recurso)
  | .SIGNAL recurso => some (1, executeSignal s recurso)
  | .MOV_IN registro dirLogica => some (executeMovIn tamanioPagina s registro dirLogica marco)
  | .MOV_OUT dirLogica registro => executeMovOut tamanioPagina s dirLogica registro marco
  | .F_OPEN nombreArchivo modoApertura => some (1, executeFOpen s nombreArchivo modoApertura)
  | .F_CLOSE nombreArchivo => some (1, executeFClose s nombreArchivo)
  | .F_SEEK nombreArchivo posicion => some (1, executeFSeek s nombreArchivo posicion)
  | .F_READ nombreArchivo dirLogica => some (executeFRead tamanioPagina s nombreArchivo dirLogica marco)
  | .F_WRITE nombreArchivo dirLogica =>
    some (executeFWrite tamanioPagina s nombreArchivo dirLogica marco)
  | .F_TRUNCATE nombreArchivo tamanio => some (1, executeFTruncate s nombreArchivo tamanio)
  | .EXIT => some (-1, executeExit s)

/-- `is_planner_eviction` -/
def isPlannerEviction (opc : OpCode) : Bool := opc = .PROC_EXIT_QUANTUM ∨ opc = .PROC_EXIT_PRIORITY

/-- An interruption of the planner does not take the place of what the instruction asks for. -/
def checkInterrupt (s : Estado) : Estado :=
  if s.cpu.interrupcion.pid = s.ctx.pid then
    if s.cpu.flagExit ∧ s.cpu.exitCode ≠ none ∧ s.cpu.interrupcion.motivo.any isPlannerEviction then
      { s with ctx := { s.ctx with interruptMotive := s.cpu.interrupcion.motivo } }
    else
      actualizarContextoDeEjecucion { s with
        cpu := { s.cpu with exitCode := s.cpu.interrupcion.motivo, flagExit := true }
        ctx := { s.ctx with interruptMotive := none } }
  else { s with ctx := { s.ctx with interruptMotive := none } }

/-- `on_connection_dispatch`, up to the loop of `iniciar_ciclo_instruccion`. -/
def iniciarCiclo (cpu : Globales) (ctx : ExecContext) : Globales :=
  { actualizarRegistrosCpu cpu ctx with flagExit := false, exitCode := none }

/-- One turn of the loop of `iniciar_ciclo_instruccion`. -/
def ciclo (tamanioPagina : ℕ) (programa : List Instruccion) (marco : ℤ) (s : Estado) :
    Option Estado := do
  let instruccion ← fetch programa s.ctx.programCounter
  let (shouldIncrementPc, s) ← decode tamanioPagina marco s instruccion
  let s := if shouldIncrementPc ≠ -1 then
    { s with ctx := { s.ctx with programCounter := s.ctx.programCounter + 1 } } else s
  return checkInterrupt s

/-- The globals once the context has been sent. -/
def reiniciarFlagInterrupcion (cpu : Globales) : Globales := { cpu with interrupcion := ⟨-1, none⟩ }

end OperatingSystem.Cpu.Ciclo
