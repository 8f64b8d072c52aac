import OperatingSystem.Cpu.Ciclo
import OperatingSystem.Lib.Decimal
import OperatingSystem.Memoria.Programas

/-! # From the text of a program to its execution (`cpu/src/ciclo.c`,
`memoria/src/instruccion_proceso.c`)

The CPU asks the memory for the instruction that the program counter names, and gets strings: an
operation, which is compared with sixteen names without regard to case, and parameters, of which it reads
the first letter (a register), what `atoi` makes of it (a number), or all of it (a name). A parameter that
is missing is a null pointer, and an operation that is none of the sixteen does nothing.

`decode_eq` says that this is the execution of the instruction that the strings say (`Dice`), `ciclo_eq`
the same of a turn of the cycle, with the memory's list of programs and the wire in between, `ciclo_texto`
that a text on that list and sent to the CPU does what its lines say, and `programa_escrito` the same from
the kernel's request to load the program on. The terminator of the path is written one byte past the bytes
that `allocate_new_process` asks for: that the block has one more is an assumption there (`Servible`). -/

namespace OperatingSystem.Cpu.Decodificacion

open OperatingSystem.Lib.Dictionary (Dict)
open OperatingSystem.Lib.Decimal (atoi escribir atoi_escribir mem_escribir escribir_ne_nil)
open OperatingSystem.Lib.CInt (INT_MAX FitsInt wrap32)
open OperatingSystem.Utils
open OperatingSystem.Utils.Protocolo
open OperatingSystem.Utils.Instrucciones
open OperatingSystem.Cpu.Ciclo (Estado checkInterrupt pageFault)
open OperatingSystem.Memoria.Paginas (CANT_PAGINAS)
open OperatingSystem.Memoria.HandlerPaginacion (Handler createHandlerPaginacion generarTablaPaginas)
open OperatingSystem.Memoria.Pedidos (obtenerNumeroPagina)
open OperatingSystem.Memoria.Programas

/-! ### The names of the operations -/

def bytesDe (nombre : List Char) : List UInt8 := nombre.map fun c => UInt8.ofNat c.toNat

def INSTRUCTION_SET : List UInt8 := bytesDe ['S', 'E', 'T']
def INSTRUCTION_SUM : List UInt8 := bytesDe ['S', 'U', 'M']
def INSTRUCTION_SUB : List UInt8 := bytesDe ['S', 'U', 'B']
def INSTRUCTION_JNZ : List UInt8 := bytesDe ['J', 'N', 'Z']
def INSTRUCTION_SLEEP : List UInt8 := bytesDe ['S', 'L', 'E', 'E', 'P']
def INSTRUCTION_WAIT : List UInt8 := bytesDe ['W', 'A', 'I', 'T']
def INSTRUCTION_SIGNAL : List UInt8 := bytesDe ['S', 'I', 'G', 'N', 'A', 'L']
def INSTRUCTION_MOV_IN : List UInt8 := bytesDe ['M', 'O', 'V', '_', 'I', 'N']
def INSTRUCTION_MOV_OUT : List UInt8 := bytesDe ['M', 'O', 'V', '_', 'O', 'U', 'T']
def INSTRUCTION_F_OPEN : List UInt8 := bytesDe ['F', '_', 'O', 'P', 'E', 'N']
def INSTRUCTION_F_CLOSE : List UInt8 := bytesDe ['F', '_', 'C', 'L', 'O', 'S', 'E']
def INSTRUCTION_F_SEEK : List UInt8 := bytesDe ['F', '_', 'S', 'E', 'E', 'K']
def INSTRUCTION_F_READ : List UInt8 := bytesDe ['F', '_', 'R', 'E', 'A', 'D']
def INSTRUCTION_F_WRITE : List UInt8 := bytesDe ['F', '_', 'W', 'R', 'I', 'T', 'E']
def INSTRUCTION_F_TRUNCATE : List UInt8 := bytesDe ['F', '_', 'T', 'R', 'U', 'N', 'C', 'A', 'T', 'E']
def INSTRUCTION_EXIT : List UInt8 := bytesDe ['E', 'X', 'I', 'T']

def tolower (c : UInt8) : UInt8 := if 65 ≤ c ∧ c ≤ 90 then c + 32 else c

/-- `string_equals_ignore_case` -/
def compararOperacion (instruccion : Instruccion) (nombre : List UInt8) : Bool :=
  instruccion.operacion.1.map tolower = nombre.map tolower

/-! ### The parameters -/

/-- `registro[0]`, the terminator included. -/
def letra (str : Cadena) : Char := Char.ofNat (str.1.headD 0).toNat

def texto (str : Cadena) : String := String.ofList (str.1.map fun c => Char.ofNat c.toNat)

section

variable (s : Estado)

/-! The functions of `ciclo.c` with the pointers to the parameters: a null pointer that is read has no
value. -/

def executeSET (registro nuevoValor : Option Cadena) : Option Estado := do
  let registro ← registro
  match Ciclo.obtenerRegistro (letra registro) with
  | some _ => return Ciclo.executeSet s (letra registro) (atoi (← nuevoValor).1)
  | none => return s

def executeSUM (registroDestino registroOrigen : Option Cadena) : Option Estado :=
  return Ciclo.executeSum s (letra (← registroDestino)) (letra (← registroOrigen))

def executeSUB (registroDestino registroOrigen : Option Cadena) : Option Estado :=
  return Ciclo.executeSub s (letra (← registroDestino)) (letra (← registroOrigen))

/-- The new program counter is read if the register is not zero. -/
def executeJNZ (registro nuevoPc : Option Cadena) : Option Estado := do
  let registro ← registro
  let registroCpu ← Ciclo.obtenerRegistro (letra registro)
  if s.cpu.registros registroCpu ≠ 0 then Ciclo.executeJnz s (letra registro) (atoi (← nuevoPc).1)
  else return s

def executeSLEEP (segundos : Option Cadena) : Option Estado :=
  return Ciclo.executeSleep s (atoi (← segundos).1)

def executeWAIT (recurso : Option Cadena) : Option Estado :=
  return Ciclo.executeWait s (texto (← recurso))

def executeSIGNAL (recurso : Option Cadena) : Option Estado :=
  return Ciclo.executeSignal s (texto (← recurso))

/-- The register is read when there is a word for it; the letter of no register takes no word. -/
def executeMOV_IN (tamanioPagina : ℕ) (registro dirLogica : Option Cadena) (marco : ℤ) :
    Option (ℤ × Estado) := do
  let dirLogicaNro := atoi (← dirLogica).1
  match registro with
  | some registro => return Ciclo.executeMovIn tamanioPagina s (letra registro) dirLogicaNro marco
  | none =>
    if marco = -1 ∨ s.memoria.leer dirLogicaNro = -1 then
      return Ciclo.executeMovIn tamanioPagina s (Char.ofNat 0) dirLogicaNro marco
    else none

/-- The register is read when there is a frame. -/
def executeMOV_OUT (tamanioPagina : ℕ) (dirLogica registro : Option Cadena) (marco : ℤ) :
    Option (ℤ × Estado) := do
  let dirLogicaNro := atoi (← dirLogica).1
  if marco = -1 then return (-1, pageFault s (obtenerNumeroPagina tamanioPagina dirLogicaNro))
  else Ciclo.executeMovOut tamanioPagina s dirLogicaNro (letra (← registro)) marco

def executeF_OPEN (nombreArchivo modoApertura : Option Cadena) : Option Estado :=
  return Ciclo.executeFOpen s (texto (← nombreArchivo)) (texto (← modoApertura))

def executeF_CLOSE (nombreArchivo : Option Cadena) : Option Estado :=
  return Ciclo.executeFClose s (texto (← nombreArchivo))

def executeF_SEEK (nombreArchivo posicion : Option Cadena) : Option Estado :=
  return Ciclo.executeFSeek s (texto (← nombreArchivo)) (atoi (← posicion).1)

/-- `execute_F_READ` and `execute_F_WRITE`, up to the code: the name is read when there is a frame. -/
def executeFAcceso (tamanioPagina : ℕ) (exitCode : Ciclo.OpCode)
    (nombreArchivo dirLogica : Option Cadena) (marco : ℤ) : Option (ℤ × Estado) := do
  let dirLogicaNro := atoi (← dirLogica).1
  if marco = -1 then return (-1, pageFault s (obtenerNumeroPagina tamanioPagina dirLogicaNro))
  else return Ciclo.executeFAcceso tamanioPagina exitCode s (texto (← nombreArchivo)) dirLogicaNro marco

def executeF_READ (tamanioPagina : ℕ) (nombreArchivo dirLogica : Option Cadena) (marco : ℤ) :
    Option (ℤ × Estado) :=
  executeFAcceso s tamanioPagina .F_READ nombreArchivo dirLogica marco

def executeF_WRITE (tamanioPagina : ℕ) (nombreArchivo dirLogica : Option Cadena) (marco : ℤ) :
    Option (ℤ × Estado) :=
  executeFAcceso s tamanioPagina .F_WRITE nombreArchivo dirLogica marco

def executeF_TRUNCATE (nombreArchivo tamanio : Option Cadena) : Option Estado :=
  return Ciclo.executeFTruncate s (texto (← nombreArchivo)) (atoi (← tamanio).1)

end

/-- The first component is `should_increment_pc`. The names are different, so that one of the comparisons
at most succeeds. -/
def decode (tamanioPagina : ℕ) (marco : ℤ) (s : Estado) (instruccion : Instruccion) :
    Option (ℤ × Estado) :=
  let primerParametro := instruccion.parametros[0]?
  let segundoParametro := instruccion.parametros[1]?
  if compararOperacion instruccion INSTRUCTION_SET then
    (executeSET s primerParametro segundoParametro).map (1, ·)
  else if compararOperacion instruccion INSTRUCTION_SUM then
    (executeSUM s primerParametro segundoParametro).map (1, ·)
  else if compararOperacion instruccion INSTRUCTION_SUB then
    (executeSUB s primerParametro segundoParametro).map (1, ·)
  else if compararOperacion instruccion INSTRUCTION_JNZ then
    (executeJNZ s primerParametro segundoParametro).map (1, ·)
  else if compararOperacion instruccion INSTRUCTION_SLEEP then
    (executeSLEEP s primerParametro).map (1, ·)
  else if compararOperacion instruccion INSTRUCTION_WAIT then
    (executeWAIT s primerParametro).map (1, ·)
  else if compararOperacion instruccion INSTRUCTION_SIGNAL then
    (executeSIGNAL s primerParametro).map (1, ·)
  else if compararOperacion instruccion INSTRUCTION_MOV_IN then
    executeMOV_IN s tamanioPagina primerParametro segundoParametro marco
  else if compararOperacion instruccion INSTRUCTION_MOV_OUT then
    executeMOV_OUT s tamanioPagina primerParametro segundoParametro marco
  else if compararOperacion instruccion INSTRUCTION_F_OPEN then
    (executeF_OPEN s primerParametro segundoParametro).map (1, ·)
  else if compararOperacion instruccion INSTRUCTION_F_CLOSE then
    (executeF_CLOSE s primerParametro).map (1, ·)
  else if compararOperacion instruccion INSTRUCTION_F_SEEK then
    (executeF_SEEK s primerParametro segundoParametro).map (1, ·)
  else if compararOperacion instruccion INSTRUCTION_F_READ then
    executeF_READ s tamanioPagina primerParametro segundoParametro marco
  else if compararOperacion instruccion INSTRUCTION_F_WRITE then
    executeF_WRITE s tamanioPagina primerParametro segundoParametro marco
  else if compararOperacion instruccion INSTRUCTION_F_TRUNCATE then
    (executeF_TRUNCATE s primerParametro segundoParametro).map (1, ·)
  else if compararOperacion instruccion INSTRUCTION_EXIT then
    some (-1, Ciclo.executeExit s)
  else some (1, s)

/-! ### What the strings say -/

/-- What an instruction reads in a parameter. -/
inductive Operando where
  | registro (letra : Char)
  | numero (valor : ℤ)
  | nombre (texto : String)

/-- The instruction reads that in the string. -/
def Operando.Es (str : Cadena) : Operando → Prop
  | registro c => letra str = c
  | numero x => atoi str.1 = x
  | nombre t => texto str = t

instance (str : Cadena) : ∀ o : Operando, Decidable (o.Es str)
  | .registro c => inferInstanceAs (Decidable (letra str = c))
  | .numero x => inferInstanceAs (Decidable (atoi str.1 = x))
  | .nombre t => inferInstanceAs (Decidable (texto str = t))

def nombreDe : Ciclo.Instruccion → List UInt8
  | .SET .. => INSTRUCTION_SET
  | .SUM .. => INSTRUCTION_SUM
  | .SUB .. => INSTRUCTION_SUB
  | .JNZ .. => INSTRUCTION_JNZ
  | .SLEEP .. => INSTRUCTION_SLEEP
  | .WAIT .. => INSTRUCTION_WAIT
  | .SIGNAL .. => INSTRUCTION_SIGNAL
  | .MOV_IN .. => INSTRUCTION_MOV_IN
  | .MOV_OUT .. => INSTRUCTION_MOV_OUT
  | .F_OPEN .. => INSTRUCTION_F_OPEN
  | .F_CLOSE .. => INSTRUCTION_F_CLOSE
  | .F_SEEK .. => INSTRUCTION_F_SEEK
  | .F_READ .. => INSTRUCTION_F_READ
  | .F_WRITE .. => INSTRUCTION_F_WRITE
  | .F_TRUNCATE .. => INSTRUCTION_F_TRUNCATE
  | .EXIT => INSTRUCTION_EXIT

/-- The operands, in the order of the parameters. -/
def operandos : Ciclo.Instruccion → List Operando
  | .SET r x => [.registro r, .numero x]
  | .SUM d o => [.registro d, .registro o]
  | .SUB d o => [.registro d, .registro o]
  | .JNZ r pc => [.registro r, .numero pc]
  | .SLEEP t => [.numero t]
  | .WAIT n => [.nombre n]
  | .SIGNAL n => [.nombre n]
  | .MOV_IN r dir => [.registro r, .numero dir]
  | .MOV_OUT dir r => [.numero dir, .registro r]
  | .F_OPEN n modo => [.nombre n, .nombre modo]
  | .F_CLOSE n => [.nombre n]
  | .F_SEEK n x => [.nombre n, .numero x]
  | .F_READ n dir => [.nombre n, .numero dir]
  | .F_WRITE n dir => [.nombre n, .numero dir]
  | .F_TRUNCATE n x => [.nombre n, .numero x]
  | .EXIT => []

/-- The strings say the instruction: its name, in any case, and at least its operands. -/
def Dice (instruccion : Instruccion) (i : Ciclo.Instruccion) : Prop :=
  compararOperacion instruccion (nombreDe i) = true ∧
    List.Forall₂ (fun str o => Operando.Es str o)
      (instruccion.parametros.take (operandos i).length) (operandos i)

/-! ### Decoding -/

section

variable {tamanioPagina : ℕ} {marco : ℤ} {s : Estado} {instruccion : Instruccion}
  {i : Ciclo.Instruccion}

/-- A name that is the operation's decides every comparison. -/
theorem compararOperacion_eq {nombre : List UInt8} (h : compararOperacion instruccion nombre = true)
    (otro : List UInt8) :
    compararOperacion instruccion otro = decide (nombre.map tolower = otro.map tolower) := by
  unfold compararOperacion at *
  rw [of_decide_eq_true h]

/-- The parameters of two operands. -/
theorem parametros_dos {o o' : Operando}
    (h : List.Forall₂ (fun str o => Operando.Es str o) (instruccion.parametros.take 2) [o, o']) :
    ∃ p q, instruccion.parametros[0]? = some p ∧ instruccion.parametros[1]? = some q ∧
      o.Es p ∧ o'.Es q := by
  generalize instruccion.parametros = params at h ⊢
  match params, h with
  | p :: q :: _, h =>
    obtain ⟨hp, h⟩ := List.forall₂_cons.mp h
    exact ⟨p, q, rfl, rfl, hp, (List.forall₂_cons.mp h).1⟩
  | [p], h => exact absurd h.length_eq (by simp)
  | [], h => exact absurd h.length_eq (by simp)

theorem parametros_uno {o : Operando}
    (h : List.Forall₂ (fun str o => Operando.Es str o) (instruccion.parametros.take 1) [o]) :
    ∃ p, instruccion.parametros[0]? = some p ∧ o.Es p := by
  generalize instruccion.parametros = params at h ⊢
  match params, h with
  | p :: _, h => exact ⟨p, rfl, (List.forall₂_cons.mp h).1⟩
  | [], h => exact absurd h.length_eq (by simp)

/-- With its parameters, the instruction is the one of letters and numbers. -/
theorem executeSET_some (p q : Cadena) :
    executeSET s (some p) (some q) = some (Ciclo.executeSet s (letra p) (atoi q.1)) := by
  change (match Ciclo.obtenerRegistro (letra p) with | some _ => _ | none => _) = _
  cases h : Ciclo.obtenerRegistro (letra p) with
  | none => rw [Ciclo.executeSet, h]; rfl
  | some r => rfl

theorem executeJNZ_some (p q : Cadena) :
    executeJNZ s (some p) (some q) = Ciclo.executeJnz s (letra p) (atoi q.1) := by
  unfold executeJNZ Ciclo.executeJnz
  simp only [Option.bind_eq_bind, Option.bind_some]
  cases h : Ciclo.obtenerRegistro (letra p) with
  | none => rfl
  | some r =>
    simp only [Option.bind_some]
    split_ifs <;> rfl

theorem executeMOV_OUT_some (p q : Cadena) :
    executeMOV_OUT s tamanioPagina (some p) (some q) marco =
      Ciclo.executeMovOut tamanioPagina s (atoi p.1) (letra q) marco := by
  unfold executeMOV_OUT
  simp only [Option.bind_eq_bind, Option.bind_some]
  split_ifs with h
  · rw [Ciclo.executeMovOut, if_pos h]; rfl
  · rfl

theorem executeFAcceso_some (exitCode : Ciclo.OpCode) (p q : Cadena) :
    executeFAcceso s tamanioPagina exitCode (some p) (some q) marco =
      some (Ciclo.executeFAcceso tamanioPagina exitCode s (texto p) (atoi q.1) marco) := by
  unfold executeFAcceso
  simp only [Option.bind_eq_bind, Option.bind_some]
  split_ifs with h
  · rw [Ciclo.executeFAcceso, if_pos h]; rfl
  · rfl

/-- **The strings are executed as what they say.** -/
theorem decode_eq (h : Dice instruccion i) :
    decode tamanioPagina marco s instruccion = Ciclo.decode tamanioPagina marco s i := by
  obtain ⟨hop, hpar⟩ := h
  have hcmp := compararOperacion_eq hop
  cases i with
  | SET registro nuevoValor =>
    obtain ⟨p, q, hp, hq, rfl, rfl⟩ := parametros_dos hpar
    simp +decide only [decode, hcmp, hp, hq, executeSET_some]
    rfl
  | SUM registroDestino registroOrigen =>
    obtain ⟨p, q, hp, hq, rfl, rfl⟩ := parametros_dos hpar
    simp +decide only [decode, hcmp, hp, hq]
    rfl
  | SUB registroDestino registroOrigen =>
    obtain ⟨p, q, hp, hq, rfl, rfl⟩ := parametros_dos hpar
    simp +decide only [decode, hcmp, hp, hq]
    rfl
  | JNZ registro nuevoPc =>
    obtain ⟨p, q, hp, hq, rfl, rfl⟩ := parametros_dos hpar
    simp +decide only [decode, hcmp, hp, hq, executeJNZ_some]
    rfl
  | SLEEP segundos =>
    obtain ⟨p, hp, rfl⟩ := parametros_uno hpar
    simp +decide only [decode, hcmp, hp]
    rfl
  | WAIT recurso =>
    obtain ⟨p, hp, rfl⟩ := parametros_uno hpar
    simp +decide only [decode, hcmp, hp]
    rfl
  | SIGNAL recurso =>
    obtain ⟨p, hp, rfl⟩ := parametros_uno hpar
    simp +decide only [decode, hcmp, hp]
    rfl
  | MOV_IN registro dirLogica =>
    obtain ⟨p, q, hp, hq, rfl, rfl⟩ := parametros_dos hpar
    simp +decide only [decode, hcmp, hp, hq]
    rfl
  | MOV_OUT dirLogica registro =>
    obtain ⟨p, q, hp, hq, rfl, rfl⟩ := parametros_dos hpar
    simp +decide only [decode, hcmp, hp, hq, executeMOV_OUT_some]
    rfl
  | F_OPEN nombreArchivo modoApertura =>
    obtain ⟨p, q, hp, hq, rfl, rfl⟩ := parametros_dos hpar
    simp +decide only [decode, hcmp, hp, hq]
    rfl
  | F_CLOSE nombreArchivo =>
    obtain ⟨p, hp, rfl⟩ := parametros_uno hpar
    simp +decide only [decode, hcmp, hp]
    rfl
  | F_SEEK nombreArchivo posicion =>
    obtain ⟨p, q, hp, hq, rfl, rfl⟩ := parametros_dos hpar
    simp +decide only [decode, hcmp, hp, hq]
    rfl
  | F_READ nombreArchivo dirLogica =>
    obtain ⟨p, q, hp, hq, rfl, rfl⟩ := parametros_dos hpar
    simp +decide only [decode, hcmp, hp, hq, executeF_READ, executeFAcceso_some]
    rfl
  | F_WRITE nombreArchivo dirLogica =>
    obtain ⟨p, q, hp, hq, rfl, rfl⟩ := parametros_dos hpar
    simp +decide only [decode, hcmp, hp, hq, executeF_WRITE, executeFAcceso_some]
    rfl
  | F_TRUNCATE nombreArchivo tamanio =>
    obtain ⟨p, q, hp, hq, rfl, rfl⟩ := parametros_dos hpar
    simp +decide only [decode, hcmp, hp, hq]
    rfl
  | EXIT =>
    simp +decide only [decode, hcmp]
    rfl

end

/-! ### The memory's list of programs -/

/-- `t_proceso_memoria` -/
structure ProcesoMemoria where
  pid : ℤ
  instrucciones : List Instruccion
  size : ℤ

def obtenerProceso (procesosEnMemoria : List ProcesoMemoria) (pid : ℤ) : Option ProcesoMemoria :=
  procesosEnMemoria.find? (·.pid = pid)

/-- The package for a `NEXT_INSTRUCTION`; the null pointers of `list_find` and of `list_get` are read. -/
def enviarInstruccionSerializada (procesosEnMemoria : List ProcesoMemoria) (pid programCounter : ℤ) :
    Option Paquete := do
  let proceso ← obtenerProceso procesosEnMemoria pid
  let siguienteInstruccion ← if 0 ≤ programCounter then proceso.instrucciones[programCounter.toNat]?
    else none
  serializarInstruccion (crearPaquete .INSTRUCCIONES) siguienteInstruccion

/-- The part of `allocate_new_process` that is about the list; a process that ends is not taken off it. -/
def agregarProceso (stringSplit : Cadena → List Cadena) (procesosEnMemoria : List ProcesoMemoria)
    (pid : ℤ) (texto : List UInt8) (size : ℤ) : Option (List ProcesoMemoria) := do
  let instrucciones ← obtenerInstruccionesDeArchivo stringSplit texto
  return procesosEnMemoria ++ [⟨pid, instrucciones, size⟩]

/-- The `int` of four bytes. -/
def entero (v : UInt32) : ℤ := wrap32 v.toNat

def BARRA : UInt8 := 47

/-- The path that `obtener_instrucciones_proceso` opens. -/
def rutaDe (pathInstrucciones path : Cadena) : List UInt8 := pathInstrucciones.1 ++ BARRA :: path.1

/-- The whole of `allocate_new_process`: the request is read (`Protocolo.leerNewProcess`, with blocks of
`bloque n` bytes), the program goes to the list, and the process gets its table
(`Pedidos.allocateNewProcess`). A file that is not there ends the memory; a negative size, of which the
table would have a negative number of pages, is left out. -/
def allocateNewProcess (stringSplit : Cadena → List Cadena) (archivos : List UInt8 → Option (List UInt8))
    (pathInstrucciones : Cadena) (bloque : ℕ → ℕ) (procesosEnMemoria : List ProcesoMemoria) (h : Handler)
    (payload : List UInt8) (posiciones : List ℤ) : Option (List ProcesoMemoria × Handler) := do
  let (pid, path, size) ← leerNewProcess bloque payload
  let texto ← archivos (rutaDe pathInstrucciones path)
  let procesos ← agregarProceso stringSplit procesosEnMemoria (entero pid) texto (entero size)
  guard (0 ≤ entero size)
  let h ← Memoria.Pedidos.allocateNewProcess h (entero pid) (entero size).toNat posiciones
  return (procesos, h)

def obtenerSiguienteInstruccionDeMemoria (procesosEnMemoria : List ProcesoMemoria) (s : Estado) :
    Option Instruccion := do
  let paquete ← enviarInstruccionSerializada procesosEnMemoria s.ctx.pid s.ctx.programCounter
  let (instruccion, _) ← deserializarInstruccion paquete.buffer.payload
  return instruccion

/-- One turn of the loop of `iniciar_ciclo_instruccion`. -/
def ciclo (tamanioPagina : ℕ) (procesosEnMemoria : List ProcesoMemoria) (marco : ℤ) (s : Estado) :
    Option Estado := do
  let instruccion ← obtenerSiguienteInstruccionDeMemoria procesosEnMemoria s
  let (shouldIncrementPc, s) ← decode tamanioPagina marco s instruccion
  let s := if shouldIncrementPc ≠ -1 then
    { s with ctx := { s.ctx with programCounter := s.ctx.programCounter + 1 } } else s
  return checkInterrupt s

/-- The bytes of the instruction are counted by an `int`. -/
def Instruccion.CabeEnInt (instruccion : Instruccion) : Prop :=
  (largoInstruccion instruccion.operacion instruccion.parametros : ℤ) ≤ INT_MAX

instance (instruccion : Instruccion) : Decidable (Instruccion.CabeEnInt instruccion) := by
  unfold Instruccion.CabeEnInt
  infer_instance

/-- The instructions of a list that the memory has are those of the program. -/
structure Cargado (instrucciones : List Instruccion) (programa : List Ciclo.Instruccion) : Prop where
  dicen : List.Forall₂ Dice instrucciones programa
  creadas : ∀ w ∈ instrucciones, w = crearInstruccion w.operacion w.parametros
  caben : ∀ w ∈ instrucciones, Instruccion.CabeEnInt w

section

variable {stringSplit : Cadena → List Cadena} {procesosEnMemoria : List ProcesoMemoria}
  {proceso : ProcesoMemoria} {programa : List Ciclo.Instruccion} {tamanioPagina : ℕ} {marco : ℤ}
  {s : Estado} {w : Instruccion}

/-- An instruction on the wire. -/
theorem idaYVuelta_of_cabe (hw : w = crearInstruccion w.operacion w.parametros)
    (h : Instruccion.CabeEnInt w) : IdaYVuelta .INSTRUCCIONES w := by
  obtain ⟨ps, hps, hf⟩ := partes_eq h
  rw [← hw] at hps
  have hlen : ps.flatten.length = largoInstruccion w.operacion w.parametros := by
    rw [hf, length_payloadDe]
  rcases armar_cases .INSTRUCCIONES ps with ⟨p, hp, -, hb, -⟩ | ⟨-, hno⟩
  · refine ⟨p, by rw [serializarInstruccion, hps, Option.bind_some]; exact hp, ?_⟩
    rw [hb, hlen, hf]
    conv_rhs => rw [hw]
    exact deserializarInstruccion_eq h
  · rw [hlen] at hno
    exact absurd h hno

/-- What the CPU gets is what is in the list. -/
theorem obtenerSiguiente_eq (hproceso : obtenerProceso procesosEnMemoria s.ctx.pid = some proceso)
    (h : Cargado proceso.instrucciones programa) :
    obtenerSiguienteInstruccionDeMemoria procesosEnMemoria s =
      if 0 ≤ s.ctx.programCounter then proceso.instrucciones[s.ctx.programCounter.toNat]?
      else none := by
  unfold obtenerSiguienteInstruccionDeMemoria enviarInstruccionSerializada
  simp only [hproceso, Option.bind_eq_bind, Option.bind_some]
  split_ifs
  · cases hw : proceso.instrucciones[s.ctx.programCounter.toNat]? with
    | none => rfl
    | some w =>
      have hmem := List.mem_of_getElem? hw
      obtain ⟨p, hp, hd⟩ := idaYVuelta_of_cabe (h.creadas w hmem) (h.caben w hmem)
      simp only [Option.bind_some, hp, hd]
      rfl
  · rfl

/-- **A turn of the cycle**: what the memory sends is executed as the instruction of the program, and past
the end of the program there is none. -/
theorem ciclo_eq (hproceso : obtenerProceso procesosEnMemoria s.ctx.pid = some proceso)
    (h : Cargado proceso.instrucciones programa) :
    ciclo tamanioPagina procesosEnMemoria marco s = Ciclo.ciclo tamanioPagina programa marco s := by
  unfold ciclo Ciclo.ciclo Ciclo.fetch
  rw [obtenerSiguiente_eq hproceso h]
  split_ifs
  · obtain ⟨hlen, hn⟩ := List.forall₂_iff_get.mp h.dicen
    rcases Nat.lt_or_ge s.ctx.programCounter.toNat proceso.instrucciones.length with hlt | hge
    · have hlt' := hlt
      rw [hlen] at hlt'
      have hd : decode tamanioPagina marco s _ = Ciclo.decode tamanioPagina marco s _ :=
        decode_eq (hn _ hlt hlt')
      rw [List.get_eq_getElem, List.get_eq_getElem] at hd
      rw [List.getElem?_eq_getElem hlt, List.getElem?_eq_getElem hlt']
      simp only [Option.bind_eq_bind, Option.bind_some, hd]
    · rw [List.getElem?_eq_none hge, List.getElem?_eq_none (hlen ▸ hge)]
      rfl
  · rfl

end

/-! ### Programs as texts -/

/-- A character of one byte that neither ends the string nor parts it. -/
def Legible (c : Char) : Prop := c.toNat < 256 ∧ c.toNat ≠ 0 ∧ c.toNat ≠ 10 ∧ c.toNat ≠ 32

instance (c : Char) : Decidable (Legible c) := by unfold Legible; infer_instance

namespace Operando

/-- The parameter of an operand; a register is named with two letters. -/
def escrito : Operando → List UInt8
  | registro c => bytesDe [c, 'X']
  | numero x => escribir x
  | nombre t => bytesDe t.toList

/-- The operand can be a word of a line. -/
def Escribible : Operando → Prop
  | registro c => Legible c
  | numero x => FitsInt x
  | nombre t => t.toList ≠ [] ∧ ∀ c ∈ t.toList, Legible c

instance : ∀ o : Operando, Decidable o.Escribible
  | registro c => inferInstanceAs (Decidable (Legible c))
  | numero x => inferInstanceAs (Decidable (FitsInt x))
  | nombre t => @instDecidableAnd (t.toList ≠ []) (∀ c ∈ t.toList, Legible c) inferInstance
    (List.decidableBAll Legible t.toList)

end Operando

/-- The words of an instruction. -/
def palabrasDe (i : Ciclo.Instruccion) : List (List UInt8) :=
  nombreDe i :: (operandos i).map Operando.escrito

/-- The lines of a program, with single spaces between their words. -/
def textoDe (programa : List Ciclo.Instruccion) : List UInt8 :=
  [OperatingSystem.Memoria.InstruccionProceso.NUEVA_LINEA].intercalate
    (programa.map fun i => [BLANCO].intercalate (palabrasDe i))

/-- The bytes of the instruction on the wire. -/
def largoDe (i : Ciclo.Instruccion) : ℕ :=
  9 + (nombreDe i).length + ((operandos i).map fun o => 5 + o.escrito.length).sum

/-- The instruction can be written. -/
structure Escribible (i : Ciclo.Instruccion) : Prop where
  legibles : ∀ o ∈ operandos i, o.Escribible
  cabe : (largoDe i : ℤ) ≤ INT_MAX

section

variable {i : Ciclo.Instruccion} {o : Operando} {programa : List Ciclo.Instruccion}

/-- What a word has to be. -/
abbrev EsPalabra (s : List UInt8) : Prop :=
  s ≠ [] ∧ 0 ∉ s ∧ OperatingSystem.Memoria.InstruccionProceso.NUEVA_LINEA ∉ s ∧ BLANCO ∉ s

theorem toNat_byte {c : Char} (h : c.toNat < 256) : (UInt8.ofNat c.toNat).toNat = c.toNat := by
  rw [UInt8.toNat_ofNat']
  omega

theorem char_byte {c : Char} (h : c.toNat < 256) : Char.ofNat (UInt8.ofNat c.toNat).toNat = c := by
  rw [toNat_byte h, Char.ofNat_toNat]

theorem esPalabra_bytesDe {cs : List Char} (hne : cs ≠ []) (h : ∀ c ∈ cs, Legible c) :
    EsPalabra (bytesDe cs) := by
  have hb : ∀ b ∈ bytesDe cs, b.toNat ≠ 0 ∧ b.toNat ≠ 10 ∧ b.toNat ≠ 32 := by
    intro b hb
    obtain ⟨c, hc, rfl⟩ := List.mem_map.mp hb
    rw [toNat_byte (h c hc).1]
    exact (h c hc).2
  refine ⟨mt List.map_eq_nil_iff.mp hne, fun h0 => ?_, fun h10 => ?_, fun h32 => ?_⟩
  · exact (hb _ h0).1 rfl
  · exact (hb _ h10).2.1 rfl
  · exact (hb _ h32).2.2 rfl

theorem Operando.Escribible.esPalabra (h : o.Escribible) : EsPalabra o.escrito := by
  cases o with
  | registro c =>
    refine esPalabra_bytesDe (List.cons_ne_nil _ _) fun c' hc' => ?_
    rcases List.mem_cons.mp hc' with rfl | hc'
    · exact h
    · obtain rfl := List.mem_singleton.mp hc'
      decide
  | numero x =>
    refine ⟨escribir_ne_nil x, fun h0 => ?_, fun h10 => ?_, fun h32 => ?_⟩
    · exact absurd (mem_escribir h0) (by decide)
    · exact absurd (mem_escribir h10) (by decide)
    · exact absurd (mem_escribir h32) (by decide)
  | nombre t => exact esPalabra_bytesDe h.1 h.2

/-- **What is written is read**: the parameter is the operand. -/
theorem Operando.Escribible.es (h : o.Escribible) {str : Cadena} (hstr : str.1 = o.escrito) :
    o.Es str := by
  cases o with
  | registro c =>
    change letra str = c
    rw [letra, hstr]
    exact char_byte h.1
  | numero x =>
    change atoi str.1 = x
    rw [hstr]
    exact atoi_escribir h
  | nombre t =>
    change texto str = t
    have hmap : (bytesDe t.toList).map (fun c => Char.ofNat c.toNat) = t.toList := by
      rw [bytesDe, List.map_map]
      exact (List.map_congr_left fun c hc => char_byte (h.2 c hc).1).trans (List.map_id _)
    rw [texto, hstr, Operando.escrito, hmap, String.ofList_toList]

theorem esPalabra_nombreDe (i : Ciclo.Instruccion) : EsPalabra (nombreDe i) := by
  cases i <;> dsimp only [nombreDe] <;> decide

theorem Escribible.esPalabra (h : Escribible i) : ∀ s ∈ palabrasDe i, EsPalabra s := by
  intro s hs
  rcases List.mem_cons.mp hs with rfl | hs
  · exact esPalabra_nombreDe i
  · obtain ⟨o, ho, rfl⟩ := List.mem_map.mp hs
    exact (h.legibles o ho).esPalabra

/-- The parameters that were written are the operands. -/
theorem forall₂_es : ∀ {os : List Operando} {params : List Palabra},
    params.map Subtype.val = os.map Operando.escrito → (∀ o ∈ os, o.Escribible) →
    List.Forall₂ (fun str o => Operando.Es str o) (params.map Palabra.cadena) os
  | [], [], _, _ => .nil
  | o :: os, p :: params, h, hos => by
    obtain ⟨hp, hps⟩ := List.cons.inj h
    exact .cons ((hos o List.mem_cons_self).es hp)
      (forall₂_es hps fun o' ho' => hos o' (List.mem_cons_of_mem o ho'))
  | [], _ :: _, h, _ => by cases h
  | _ :: _, [], h, _ => by cases h

theorem largoParametros_cadenas (params : List Palabra) :
    largoParametros (params.map Palabra.cadena) =
      ((params.map Subtype.val).map fun s => 5 + s.length).sum := by
  rw [largoParametros, List.map_map, List.map_map]
  rfl

/-- A line that was written asks for the instruction. -/
theorem Escribible.linea (h : Escribible i) : ∃ linea : List Palabra,
    linea.map Subtype.val = palabrasDe i ∧ ∃ w, pedida linea = some w ∧ Dice w i ∧
      w = crearInstruccion w.operacion w.parametros ∧ Instruccion.CabeEnInt w := by
  obtain ⟨linea, hlinea⟩ : ∃ linea : List Palabra, linea.map Subtype.val = palabrasDe i := by
    have hpal := h.esPalabra
    lift palabrasDe i to List Palabra using hpal with linea
    exact ⟨linea, rfl⟩
  refine ⟨linea, hlinea, ?_⟩
  match linea, hlinea with
  | operacion :: params, hlinea =>
    obtain ⟨hop, hparams⟩ := List.cons.inj hlinea
    have hlen : params.length = (operandos i).length := by
      simpa using congrArg List.length hparams
    refine ⟨_, rfl, ⟨?_, ?_⟩, rfl, ?_⟩
    · exact decide_eq_true (congrArg (List.map tolower) hop)
    · change List.Forall₂ _ ((params.map Palabra.cadena).take _) _
      rw [List.take_of_length_le (by rw [List.length_map, hlen])]
      exact forall₂_es hparams h.legibles
    · change (largoInstruccion operacion.cadena (params.map Palabra.cadena) : ℤ) ≤ INT_MAX
      have hcabe := h.cabe
      rw [largoInstruccion, largoParametros_cadenas, hparams, List.map_map]
      rw [largoDe, ← hop] at hcabe
      exact hcabe

theorem texto_palabras (lineas : List (List Palabra)) (programa : List Ciclo.Instruccion)
    (h : lineas.map (fun linea => linea.map Subtype.val) = programa.map palabrasDe) :
    Memoria.Programas.texto lineas = textoDe programa := by
  have hlineas : lineas.map unir = programa.map fun i => [BLANCO].intercalate (palabrasDe i) := by
    have := congrArg (List.map ([BLANCO].intercalate)) h
    rwa [List.map_map, List.map_map] at this
  rw [Memoria.Programas.texto, hlineas, textoDe]

/-- The lines of a program that was written, as the loader reads them. -/
theorem lineas_escritas (h : ∀ i ∈ programa, Escribible i) : ∃ lineas : List (List Palabra),
    lineas.map (fun linea => linea.map Subtype.val) = programa.map palabrasDe ∧
      Cargado (cargadas lineas) programa := by
  induction programa with
  | nil => exact ⟨[], rfl, .nil, List.forall_mem_nil _, List.forall_mem_nil _⟩
  | cons i programa ih =>
    obtain ⟨lineas, hlineas, hdicen, hcreadas, hcaben⟩ :=
      ih fun j hj => h j (List.mem_cons_of_mem i hj)
    obtain ⟨linea, hlinea, w, hw, hdice, hcreada, hcabe⟩ := (h i List.mem_cons_self).linea
    refine ⟨linea :: lineas, by rw [List.map_cons, List.map_cons, hlinea, hlineas], ?_⟩
    rw [cargadas_cons hw]
    exact ⟨.cons hdice hdicen, List.forall_mem_cons.mpr ⟨hcreada, hcreadas⟩,
      List.forall_mem_cons.mpr ⟨hcabe, hcaben⟩⟩

end

section

variable {stringSplit : Cadena → List Cadena} {procesosEnMemoria : List ProcesoMemoria} {pid : ℤ}
  {programa : List Ciclo.Instruccion}

/-- The process that was added is the one that is found. -/
theorem obtenerProceso_append {procesos : List ProcesoMemoria} {proceso : ProcesoMemoria}
    (hnuevo : ∀ p ∈ procesos, p.pid ≠ proceso.pid) :
    obtenerProceso (procesos ++ [proceso]) proceso.pid = some proceso := by
  have hno : procesos.find? (fun p => decide (p.pid = proceso.pid)) = none :=
    List.find?_eq_none.mpr fun p hp => by simpa using hnuevo p hp
  rw [obtenerProceso, List.find?_append, hno]
  simp

/-- A text whose lines say a program is loaded as the process of that program. -/
theorem agregarProceso_cargado (hsplit : SeparaPalabras stringSplit) {lineas : List (List Palabra)}
    (h : Cargado (cargadas lineas) programa) (hnuevo : ∀ p ∈ procesosEnMemoria, p.pid ≠ pid) (size : ℤ) :
    ∃ procesos, agregarProceso stringSplit procesosEnMemoria pid (Memoria.Programas.texto lineas)
        size = some procesos ∧
      ∃ proceso, obtenerProceso procesos pid = some proceso ∧ Cargado proceso.instrucciones programa := by
  refine ⟨_, by rw [agregarProceso, obtenerInstruccionesDeArchivo_eq hsplit]; rfl, ?_⟩
  exact ⟨⟨pid, cargadas lineas, size⟩, obtenerProceso_append hnuevo, h⟩

/-- **A text is executed as its lines say**, whatever the case of the operations, the further parameters
and the way the numbers are written. -/
theorem ciclo_texto (hsplit : SeparaPalabras stringSplit) {lineas : List (List Palabra)}
    (h : Cargado (cargadas lineas) programa) (hnuevo : ∀ p ∈ procesosEnMemoria, p.pid ≠ pid) (size : ℤ) :
    ∃ procesos, agregarProceso stringSplit procesosEnMemoria pid (Memoria.Programas.texto lineas)
        size = some procesos ∧
      ∀ tamanioPagina marco s, s.ctx.pid = pid →
        ciclo tamanioPagina procesos marco s = Ciclo.ciclo tamanioPagina programa marco s := by
  obtain ⟨procesos, hprocesos, proceso, hproceso, hc⟩ :=
    agregarProceso_cargado hsplit h hnuevo size
  refine ⟨procesos, hprocesos, ?_⟩
  rintro tamanioPagina marco s rfl
  exact ciclo_eq hproceso hc

/-- `set AX 007 8` and `Exit` -/
def enMinusculas : List (List Palabra) :=
  [[⟨bytesDe ['s', 'e', 't'], by decide⟩, ⟨bytesDe ['A', 'X'], by decide⟩,
      ⟨bytesDe ['0', '0', '7'], by decide⟩, ⟨bytesDe ['8'], by decide⟩],
    [⟨bytesDe ['E', 'x', 'i', 't'], by decide⟩]]

theorem ciclo_texto_enMinusculas : ∃ procesos, agregarProceso separar [] 1
      (Memoria.Programas.texto enMinusculas) 16 = some procesos ∧
    ∀ tamanioPagina marco s, s.ctx.pid = 1 →
      ciclo tamanioPagina procesos marco s = Ciclo.ciclo tamanioPagina [.SET 'A' 7, .EXIT] marco s := by
  have hcargado : Cargado (cargadas enMinusculas) [.SET 'A' 7, .EXIT] :=
    ⟨.cons ⟨by decide, .cons (by decide) (.cons (by decide) .nil)⟩ (.cons ⟨by decide, .nil⟩ .nil),
      by decide, by decide⟩
  exact ciclo_texto separar_palabras hcargado (List.forall_mem_nil _) 16

/-- What `allocate_new_process` needs to serve a request: a payload that an `int` measures, a place for the
terminator of the path, the file, the mutex free, and a table that has the pages. -/
structure Servible (archivos : List UInt8 → Option (List UInt8)) (pathInstrucciones : Cadena)
    (bloque : ℕ → ℕ) (h : Handler) (path : Cadena) (size : UInt32) (posiciones : List ℤ)
    (texto : List UInt8) : Prop where
  cabe : 12 + path.1.length ≤ INT_MAX
  terminador : path.1.length < bloque path.1.length
  archivo : archivos (rutaDe pathInstrucciones path) = some texto
  libre : h.operacionesBloqueantes = false
  tamanio : 0 ≤ entero size
  posiciones : posiciones.length = (entero size).toNat / h.tamanioPagina
  paginas : (entero size).toNat / h.tamanioPagina ≤ CANT_PAGINAS

section

variable {archivos : List UInt8 → Option (List UInt8)} {pathInstrucciones path : Cadena} {bloque : ℕ → ℕ}
  {handler : Handler} {nro size : UInt32} {posiciones : List ℤ} {texto : List UInt8}

/-- The process gets its table. -/
theorem Servible.tabla
    (hs : Servible archivos pathInstrucciones bloque handler path size posiciones texto) (pid : ℤ) :
    ∃ h' tabla, Memoria.Pedidos.allocateNewProcess handler pid (entero size).toNat posiciones = some h' ∧
      h'.pidTablas.get pid = some tabla ∧
      tabla.paginas.length = (entero size).toNat / handler.tamanioPagina := by
  have hlibre : Memoria.Pedidos.allocateNewProcess handler pid (entero size).toNat posiciones =
      generarTablaPaginas handler pid (entero size).toNat posiciones := by
    rw [Memoria.Pedidos.allocateNewProcess, hs.libre]
    exact if_neg Bool.false_ne_true
  exact ⟨_, _, hlibre.trans (if_pos ⟨hs.posiciones, hs.paginas⟩), Dict.get_put_self ..,
    List.length_mapIdx.trans hs.posiciones⟩

/-- **A request is served**: the program whose text is in the file is on the list. -/
theorem allocateNewProcess_servido (hsplit : SeparaPalabras stringSplit) {lineas : List (List Palabra)}
    (h : Cargado (cargadas lineas) programa) (hnuevo : ∀ p ∈ procesosEnMemoria, p.pid ≠ entero nro)
    (hs : Servible archivos pathInstrucciones bloque handler path size posiciones
      (Memoria.Programas.texto lineas)) :
    ∃ paquete procesos h' tabla, memoryAllocateNewProcess nro path size = some paquete ∧
      allocateNewProcess stringSplit archivos pathInstrucciones bloque procesosEnMemoria handler
        paquete.buffer.payload posiciones = some (procesos, h') ∧
      h'.pidTablas.get (entero nro) = some tabla ∧
      tabla.paginas.length = (entero size).toNat / handler.tamanioPagina ∧
      ∃ proceso, obtenerProceso procesos (entero nro) = some proceso ∧
        Cargado proceso.instrucciones programa := by
  obtain ⟨paquete, hp, hleido⟩ := leerNewProcess_enviado nro size hs.terminador hs.cabe
  obtain ⟨procesos, hprocesos, hproceso⟩ := agregarProceso_cargado hsplit h hnuevo (entero size)
  obtain ⟨h', tabla, hh', htabla, hlen⟩ := hs.tabla (entero nro)
  refine ⟨paquete, procesos, h', tabla, hp, ?_, htabla, hlen, hproceso⟩
  unfold allocateNewProcess
  simp only [hleido, hs.archivo, hprocesos, hh', guard, hs.tamanio, if_true, Option.bind_eq_bind,
    Option.bind_some, Option.pure_def]

/-- The same of a program that was written. -/
theorem allocateNewProcess_escrito (hsplit : SeparaPalabras stringSplit)
    (h : ∀ i ∈ programa, Escribible i) (hnuevo : ∀ p ∈ procesosEnMemoria, p.pid ≠ entero nro)
    (hs : Servible archivos pathInstrucciones bloque handler path size posiciones (textoDe programa)) :
    ∃ paquete procesos h' tabla, memoryAllocateNewProcess nro path size = some paquete ∧
      allocateNewProcess stringSplit archivos pathInstrucciones bloque procesosEnMemoria handler
        paquete.buffer.payload posiciones = some (procesos, h') ∧
      h'.pidTablas.get (entero nro) = some tabla ∧
      tabla.paginas.length = (entero size).toNat / handler.tamanioPagina ∧
      ∃ proceso, obtenerProceso procesos (entero nro) = some proceso ∧
        Cargado proceso.instrucciones programa := by
  obtain ⟨lineas, hlineas, hcargado⟩ := lineas_escritas h
  rw [← texto_palabras lineas programa hlineas] at hs
  exact allocateNewProcess_servido hsplit hcargado hnuevo hs

/-- **The round trip of a program**: what is written as a text, asked for, loaded, sent and decoded is
executed as what was written. -/
theorem programa_escrito (hsplit : SeparaPalabras stringSplit) (h : ∀ i ∈ programa, Escribible i)
    (hnuevo : ∀ p ∈ procesosEnMemoria, p.pid ≠ entero nro)
    (hs : Servible archivos pathInstrucciones bloque handler path size posiciones (textoDe programa)) :
    ∃ paquete procesos h' tabla, memoryAllocateNewProcess nro path size = some paquete ∧
      allocateNewProcess stringSplit archivos pathInstrucciones bloque procesosEnMemoria handler
        paquete.buffer.payload posiciones = some (procesos, h') ∧
      h'.pidTablas.get (entero nro) = some tabla ∧
      tabla.paginas.length = (entero size).toNat / handler.tamanioPagina ∧
      ∀ tamanioPagina marco s, s.ctx.pid = entero nro →
        ciclo tamanioPagina procesos marco s = Ciclo.ciclo tamanioPagina programa marco s := by
  obtain ⟨paquete, procesos, h', tabla, hp, hcarga, htabla, hlen, proceso, hproceso, hc⟩ :=
    allocateNewProcess_escrito hsplit h hnuevo hs
  refine ⟨paquete, procesos, h', tabla, hp, hcarga, htabla, hlen, fun tamanioPagina marco s hpid => ?_⟩
  exact ciclo_eq (hpid ▸ hproceso) hc

end

/-- A directory `c` with a file `p`. -/
def enCarpeta (texto ruta : List UInt8) : Option (List UInt8) :=
  if ruta = [99, 47, 112] then some texto else none

/-- The file of the directory is loaded; the block of a short path has 24 bytes. -/
theorem servible_enCarpeta {handler : Handler} {size : UInt32} {posiciones : List ℤ} (texto : List UInt8)
    (hlibre : handler.operacionesBloqueantes = false) (htam : 0 ≤ entero size)
    (hpos : posiciones.length = (entero size).toNat / handler.tamanioPagina)
    (hpag : (entero size).toNat / handler.tamanioPagina ≤ CANT_PAGINAS) :
    Servible (enCarpeta texto) ⟨[99], by decide⟩ (max · 24) handler ⟨[112], by decide⟩ size posiciones
      texto :=
  ⟨by decide, by decide, if_pos rfl, hlibre, htam, hpos, hpag⟩

/-- A program with an operand of every kind. -/
theorem programa_escrito_fSeek : ∃ handler paquete procesos h' tabla,
    createHandlerPaginacion 16 8 .FIFO (fun _ => 0) = some handler ∧
    memoryAllocateNewProcess 1 ⟨[112], by decide⟩ 16 = some paquete ∧
    allocateNewProcess separar
        (enCarpeta (textoDe [.SET 'A' (-2147483648), .F_SEEK "notas" 12, .EXIT])) ⟨[99], by decide⟩
        (max · 24) [⟨2, [], 0⟩] handler paquete.buffer.payload [0, 8] = some (procesos, h') ∧
    h'.pidTablas.get (entero 1) = some tabla ∧
    tabla.paginas.length = (entero 16).toNat / handler.tamanioPagina ∧
    ∀ tamanioPagina marco s, s.ctx.pid = entero 1 → ciclo tamanioPagina procesos marco s =
      Ciclo.ciclo tamanioPagina [.SET 'A' (-2147483648), .F_SEEK "notas" 12, .EXIT] marco s := by
  have hmin : FitsInt (-2147483648) := ⟨le_refl _, by unfold INT_MAX; omega⟩
  have hset : ∀ o ∈ operandos (.SET 'A' (-2147483648)), o.Escribible := by
    intro o ho
    simp only [operandos, List.mem_cons, List.not_mem_nil, or_false] at ho
    rcases ho with rfl | rfl
    · decide
    · exact hmin
  have hesc : ∀ i ∈ [Ciclo.Instruccion.SET 'A' (-2147483648), .F_SEEK "notas" 12, .EXIT],
      Escribible i := by
    intro i hi
    simp only [List.mem_cons, List.not_mem_nil, or_false] at hi
    rcases hi with rfl | rfl | rfl
    · exact ⟨hset, by decide +kernel⟩
    · exact ⟨by decide, by decide +kernel⟩
    · exact ⟨by decide, by decide +kernel⟩
  obtain ⟨handler, hcrear, hlibre, htam⟩ : ∃ handler,
      createHandlerPaginacion 16 8 .FIFO (fun _ => 0) = some handler ∧
      handler.operacionesBloqueantes = false ∧ handler.tamanioPagina = 8 := ⟨_, rfl, rfl, rfl⟩
  have hserv : Servible (enCarpeta (textoDe [.SET 'A' (-2147483648), .F_SEEK "notas" 12, .EXIT]))
      ⟨[99], by decide⟩ (max · 24) handler ⟨[112], by decide⟩ 16 [0, 8]
      (textoDe [.SET 'A' (-2147483648), .F_SEEK "notas" 12, .EXIT]) :=
    servible_enCarpeta _ hlibre (by decide) (htam ▸ by decide) (htam ▸ by decide)
  have hnuevo : ∀ p ∈ [(⟨2, [], 0⟩ : ProcesoMemoria)], p.pid ≠ entero 1 := by decide
  obtain ⟨paquete, procesos, h', tabla, hp, hcarga, htabla, hlen, hciclo⟩ :=
    programa_escrito separar_palabras hesc hnuevo hserv
  exact ⟨handler, paquete, procesos, h', tabla, hcrear, hp, hcarga, htabla, hlen, hciclo⟩

end

end OperatingSystem.Cpu.Decodificacion
