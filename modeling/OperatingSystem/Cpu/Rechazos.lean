import OperatingSystem.Cpu.Desalojos

/-! # Refused writes (`kernel/src/core/process/process_handler.c`, `cpu/src/ciclo.c`)

A process writes to files that it has open in `W`. `onFileWrite` refuses any other write and means to
end the process, but all it does is to ask for an interruption with `PROC_EXIT_INVALID_WRITE`, which
another thread takes to the CPU over another connection. Meanwhile the process is still in `EXEC`, and
`short_term_planner` dispatches it again. (A `WAIT` on a resource that does not exist calls
`exit_process` at once.)

So a process that ends because of a refused write has been in the instruction cycle again, whatever the
order in which the two connections are served; and what it fetches there is not executed exactly if it
page-faults: `detenidos_iff`. -/

namespace OperatingSystem.Cpu.Rechazos

open OperatingSystem.Lib.Run OperatingSystem.Cpu.Ciclo
open OperatingSystem.Kernel.Proceso (Status File ModoApertura fileCreate)
open OperatingSystem.Cpu.Despacho (isExitOpCode)
open OperatingSystem.Cpu.Desalojos (Lugar Punto.enCpu)
open OperatingSystem.Cpu.Interrupciones (Punto contexto cpuLibre)

/-- A write that was refused: the turns of the instruction cycle of its process since then, how many of
them executed their instruction, and the code that the process ended with. -/
structure Rechazo where
  pid : ℤ
  turnos : ℕ
  instrucciones : ℕ
  fin : Option OpCode
  deriving DecidableEq

/-- The kernel and the CPU, the context that came back last, and what the processes have open. -/
structure Sistema where
  base : Desalojos.Sistema
  ctx : Option ExecContext
  openFiles : ℤ → List File
  rechazos : List Rechazo

def inicial (estado : ℤ → Status) (cpu : Globales) (openFiles : ℤ → List File) : Sistema :=
  ⟨Desalojos.inicial estado cpu, none, openFiles, []⟩

/-- `atender` is `handle_cpu_eviction`; a handler of other requests leaves the process in the state
`status`, and the open files as `openFiles`. `terminar` is `handle_force_process_exit` with a process
that is not in `EXEC`. -/
inductive Accion where
  | ejecutar (marco : ℤ) (memoria : MemoriaPlana)
  | enviar
  | atender (status : Status) (openFiles : ℤ → List File)
  | terminar (pid : ℤ)
  | otra (a : Desalojos.Accion)

/-- What is left to `Desalojos.paso`. -/
def esOtra : Desalojos.Accion → Bool
  | .ejecutar .. | .enviar | .atender _ => false
  | .cambiarEstado _ status => status ≠ .EXIT
  | .pedir _ motivo => motivo = .PROC_EXIT_PRIORITY ∨ motivo = .PROC_EXIT_FORCE
  | _ => true

/-- The instructions that `decode` does not increment the program counter after are `EXIT`, and those
that were not executed since their page was not there. -/
def ejecuta (tamanioPagina : ℕ) (programas : ℤ → List Instruccion) (s : Sistema) (marco : ℤ)
    (memoria : MemoriaPlana) (ctx : ExecContext) : Bool :=
  (fetch (programas ctx.pid) ctx.programCounter).any fun instruccion =>
    instruccion = .EXIT ∨ (decode tamanioPagina marco ⟨s.base.cpu.cpu, ctx, memoria⟩ instruccion).any
      fun r => r.1 ≠ -1

def Rechazo.contar (pid : ℤ) (ejecutada : Bool) (r : Rechazo) : Rechazo :=
  if r.pid = pid ∧ r.fin = none then
    { r with turnos := r.turnos + 1, instrucciones := r.instrucciones + if ejecutada then 1 else 0 }
  else r

def Rechazo.terminar (pid : ℤ) (exitCode : OpCode) (r : Rechazo) : Rechazo :=
  if r.pid = pid ∧ r.fin = none then { r with fin := some exitCode } else r

@[simp] theorem contar_pid (pid : ℤ) (e : Bool) (r : Rechazo) : (r.contar pid e).pid = r.pid := by
  unfold Rechazo.contar
  by_cases h : r.pid = pid ∧ r.fin = none
  · rw [if_pos h]
  · rw [if_neg h]

@[simp] theorem contar_fin (pid : ℤ) (e : Bool) (r : Rechazo) : (r.contar pid e).fin = r.fin := by
  unfold Rechazo.contar
  by_cases h : r.pid = pid ∧ r.fin = none
  · rw [if_pos h]
  · rw [if_neg h]

theorem contar_turnos (pid : ℤ) (e : Bool) (r : Rechazo) : (r.contar pid e).turnos =
    r.turnos + if r.pid = pid ∧ r.fin = none then 1 else 0 := by
  unfold Rechazo.contar
  by_cases h : r.pid = pid ∧ r.fin = none
  · rw [if_pos h, if_pos h]
  · rw [if_neg h, if_neg h, add_zero]

theorem contar_instrucciones (pid : ℤ) (e : Bool) (r : Rechazo) : (r.contar pid e).instrucciones =
    r.instrucciones + if (r.pid = pid ∧ r.fin = none) ∧ e = true then 1 else 0 := by
  unfold Rechazo.contar
  by_cases h : r.pid = pid ∧ r.fin = none
  · simp [h]
  · rw [if_neg h, if_neg fun h' => h h'.1, add_zero]

theorem terminar_fin (pid : ℤ) (exitCode : OpCode) (r : Rechazo) : (r.terminar pid exitCode).fin =
    if r.pid = pid ∧ r.fin = none then some exitCode else r.fin := by
  unfold Rechazo.terminar
  by_cases h : r.pid = pid ∧ r.fin = none
  · rw [if_pos h, if_pos h]
  · rw [if_neg h, if_neg h]

/-- The end of a process changes nothing else. -/
theorem terminar_resto (pid : ℤ) (exitCode : OpCode) (r : Rechazo) :
    (r.terminar pid exitCode).pid = r.pid ∧ (r.terminar pid exitCode).turnos = r.turnos ∧
      (r.terminar pid exitCode).instrucciones = r.instrucciones := by
  unfold Rechazo.terminar
  by_cases h : r.pid = pid ∧ r.fin = none
  · rw [if_pos h]
    exact ⟨rfl, rfl, rfl⟩
  · rw [if_neg h]
    exact ⟨rfl, rfl, rfl⟩

section

variable (rr : Bool) (tamanioPagina : ℕ) (programas : ℤ → List Instruccion)

/-- A handler leaves the process in the state `status`. -/
def dejar (s : Sistema) (status : Status) : Option Sistema :=
  (Desalojos.paso rr tamanioPagina programas s.base (.atender status)).map fun base =>
    { s with base := base }

/-- `_process_find_open_file` -/
def processFindOpenFile (openFiles : List File) (fileName : Option String) : Option File :=
  openFiles.find? fun file => some file.nombreArchivo = fileName

/-- A write leaves the process blocked and then ready; without a file nothing happens. -/
def onFileWrite (s : Sistema) (pid : ℤ) : Option Sistema :=
  match processFindOpenFile (s.openFiles pid) (s.ctx.bind ExecContext.nombreArchivo) with
  | none => dejar rr tamanioPagina programas s (s.base.estado pid)
  | some archivo =>
    if archivo.modoApertura = .W then dejar rr tamanioPagina programas s .READY
    else
      let base := Desalojos.handlePlannerEvictProcess s.base pid .PROC_EXIT_INVALID_WRITE
        (s.base.rafaga pid)
      dejar rr tamanioPagina programas
        { s with base := base, rechazos := s.rechazos ++ [⟨pid, 0, 0, none⟩] } (base.estado pid)

/-- `exit_process`, with the code of the process. -/
def exitProcess (s : Sistema) (pid : ℤ) (exitCode : OpCode) : Sistema :=
  { s with rechazos := s.rechazos.map (Rechazo.terminar pid exitCode) }

/-- Of the other handlers `onWait` and `onSignal` may end the process, with
`PROC_EXIT_RESOURCE_NOT_FOUND`. -/
def handleCpuEviction (s : Sistema) (pid : ℤ) (evictionReason : Option OpCode) (status : Status)
    (openFiles : ℤ → List File) : Option Sistema :=
  match evictionReason with
  | none => dejar rr tamanioPagina programas s (s.base.estado pid)
  | some evictionReason =>
    if evictionReason = .F_WRITE then onFileWrite rr tamanioPagina programas s pid
    else if isExitOpCode evictionReason then
      dejar rr tamanioPagina programas (exitProcess s pid evictionReason) .EXIT
    else if status = .EXIT then
      dejar rr tamanioPagina programas (exitProcess s pid .PROC_EXIT_RESOURCE_NOT_FOUND) .EXIT
    else dejar rr tamanioPagina programas { s with openFiles := openFiles } status

def paso (s : Sistema) : Accion → Option Sistema
  | .ejecutar marco memoria =>
    match s.base.cpu.punto with
    | .enCiclo ctx =>
      (Desalojos.paso rr tamanioPagina programas s.base (.ejecutar marco memoria)).map fun base =>
        { s with
          base := base
          rechazos := s.rechazos.map
            (Rechazo.contar ctx.pid (ejecuta tamanioPagina programas s marco memoria ctx)) }
    | _ => none
  | .enviar =>
    match s.base.cpu.punto with
    | .porEnviar ctx => (Desalojos.paso rr tamanioPagina programas s.base .enviar).map fun base =>
        { s with base := base, ctx := some ctx }
    | _ => none
  | .atender status openFiles =>
    match s.base.lugar, s.base.proceso with
    | .vuelta exitCode, some pid =>
      handleCpuEviction rr tamanioPagina programas s pid exitCode status openFiles
    | _, _ => none
  | .terminar pid =>
    if s.base.estado pid = .EXEC then none
    else (Desalojos.paso rr tamanioPagina programas s.base (.cambiarEstado pid .EXIT)).map fun base =>
      exitProcess { s with base := base } pid .PROC_EXIT_FORCE
  | .otra a =>
    if esOtra a then (Desalojos.paso rr tamanioPagina programas s.base a).map fun base =>
      { s with base := base }
    else none

end

/-- **No process has executed an instruction after a refused write of its own.** -/
def Detenidos (s : Sistema) : Prop := ∀ r ∈ s.rechazos, r.instrucciones = 0

instance (s : Sistema) : Decidable (Detenidos s) := by unfold Detenidos; infer_instance

/-- The instruction that is fetched for a process with a refused write page-faults. -/
def SinPagina (programas : ℤ → List Instruccion) (s : Sistema) : Accion → Prop
  | .ejecutar marco _ =>
    match s.base.cpu.punto with
    | .enCiclo ctx => (∃ r ∈ s.rechazos, r.pid = ctx.pid ∧ r.fin = none) →
        marco = -1 ∧ (fetch (programas ctx.pid) ctx.programCounter).any pideMarco = true
    | _ => True
  | _ => True

instance (programas : ℤ → List Instruccion) (s : Sistema) (a : Accion) :
    Decidable (SinPagina programas s a) := by
  unfold SinPagina
  split <;> (try split) <;> infer_instance

/-! ### Where the process is -/

/-- The process is to be dispatched, or is in the CPU with its next instruction to come. -/
def PorEjecutar (b : Desalojos.Sistema) : Prop :=
  b.lugar = .kernel ∨ (∃ ctx, b.lugar = .ida ctx) ∨ ∃ ctx, b.cpu.punto = .enCiclo ctx

/-- The context is in one place. -/
structure Lugares (b : Desalojos.Sistema) : Prop where
  enCpu : ∀ pid, Punto.enCpu b.cpu.punto = some pid → b.lugar = .cpu ∧ b.proceso = some pid
  ida : ∀ ctx, b.lugar = .ida ctx → b.proceso = some ctx.pid
  libre : b.proceso = none → b.lugar = .kernel

/-- What a step does with the process, its context and the cycle. -/
inductive Mueve (b b' : Desalojos.Sistema) : Desalojos.Accion → Prop where
  | quieta {a} (hp : b'.proceso = b.proceso) (hl : b'.lugar = b.lugar)
      (hpt : b'.cpu.punto = b.cpu.punto) : Mueve b b' a
  | planificar {pid} (hp : b.proceso = none) (hl : b'.lugar = b.lugar)
      (hpt : b'.cpu.punto = b.cpu.punto) : b'.proceso = some pid → Mueve b b' (.planificar pid)
  | despachar {ctx} (hp : b.proceso = some ctx.pid) (hp' : b'.proceso = b.proceso)
      (hl : b.lugar = .kernel) (hl' : b'.lugar = .ida ctx) (hpt : b'.cpu.punto = b.cpu.punto) :
      Mueve b b' (.despachar ctx)
  | recibir {ctx} (hp : b'.proceso = b.proceso) (hl : b.lugar = .ida ctx) (hl' : b'.lugar = .cpu)
      (hpt : b'.cpu.punto = .enCiclo ctx) : Mueve b b' .recibir
  | ejecutar {ctx ctx' marco memoria memoria'} (hp : b'.proceso = b.proceso)
      (hl : b'.lugar = b.lugar) (hpt : b.cpu.punto = .enCiclo ctx)
      (hpt' : b'.cpu.punto = .ejecutado ctx' memoria') (hpid : ctx'.pid = ctx.pid) :
      Mueve b b' (.ejecutar marco memoria)
  | verificar {ctx ctx' memoria} (hp : b'.proceso = b.proceso) (hl : b'.lugar = b.lugar)
      (hpt : b.cpu.punto = .ejecutado ctx memoria) (hpid : ctx'.pid = ctx.pid)
      (hpt' : b'.cpu.punto = .porEnviar ctx' ∨ b'.cpu.punto = .enCiclo ctx') : Mueve b b' .verificar
  | enviar {ctx exitCode} (hp : b'.proceso = b.proceso) (hpt : b.cpu.punto = .porEnviar ctx)
      (hl' : b'.lugar = .vuelta exitCode) (hpt' : Punto.enCpu b'.cpu.punto = none) : Mueve b b' .enviar
  | reiniciar (hp : b'.proceso = b.proceso) (hl : b'.lugar = b.lugar)
      (hpt : Punto.enCpu b.cpu.punto = none) (hpt' : Punto.enCpu b'.cpu.punto = none) :
      Mueve b b' .reiniciar
  | atender {status exitCode} (hp : b'.proceso = b.proceso) (hl : b.lugar = .vuelta exitCode)
      (hl' : b'.lugar = .kernel) (hpt : b'.cpu.punto = b.cpu.punto) : Mueve b b' (.atender status)
  | salir (hp' : b'.proceso = none) (hl : b.lugar = .kernel) (hl' : b'.lugar = .kernel)
      (hpt : b'.cpu.punto = b.cpu.punto) : Mueve b b' .salir

variable {rr : Bool} {tamanioPagina : ℕ} {programas : ℤ → List Instruccion} {b b' : Desalojos.Sistema}
  {s s' : Sistema} {pid : ℤ}

theorem mueve_evict (b : Desalojos.Sistema) (pid : ℤ) (motivo : OpCode) (origen : Option ℕ)
    (a : Desalojos.Accion) : Mueve b (Desalojos.handlePlannerEvictProcess b pid motivo origen) a := by
  unfold Desalojos.handlePlannerEvictProcess
  split_ifs
  · exact .quieta rfl rfl rfl
  · exact .quieta rfl rfl rfl

theorem mueve_paso {a : Desalojos.Accion}
    (h : Desalojos.paso rr tamanioPagina programas b a = some b') : Mueve b b' a := by
  cases a with
  | planificar pid =>
    obtain ⟨hp, h⟩ := Option.ite_none_right_eq_some.mp h
    obtain rfl := Option.some.inj h
    exact .planificar hp rfl rfl rfl
  | despachar ctx =>
    obtain ⟨⟨hp, hl, -⟩, h⟩ := Option.ite_none_right_eq_some.mp h
    obtain rfl := Option.some.inj h
    refine .despachar hp rfl ?_ rfl rfl
    cases hlugar : b.lugar with
    | kernel => rfl
    | _ =>
      rw [hlugar] at hl
      exact absurd hl Bool.false_ne_true
  | recibir =>
    obtain ⟨ctx, cpu, hl, hcpu, rfl⟩ := Desalojos.paso_recibir h
    obtain ⟨-, rfl⟩ := Interrupciones.paso_recibir hcpu
    exact .recibir rfl hl rfl rfl
  | ejecutar marco memoria =>
    obtain ⟨cpu, hcpu, rfl⟩ := Option.map_eq_some_iff.mp h
    obtain ⟨ctx, ctx', memoria', hpt, hpt', hpid, -⟩ := Interrupciones.paso_ejecutar hcpu
    exact .ejecutar rfl rfl hpt hpt' hpid
  | verificar =>
    obtain ⟨cpu, hcpu, rfl⟩ := Option.map_eq_some_iff.mp h
    obtain ⟨ctx, memoria, ctx', hpt, hpid, -, -, hcod⟩ := Interrupciones.paso_verificar hcpu
    refine .verificar rfl rfl hpt hpid ?_
    rcases hcod with ⟨hpt', -⟩ | ⟨hpt', -⟩
    · exact Or.inl hpt'
    · exact hpt'
  | enviar =>
    obtain ⟨ctx, cpu, hpt, hcpu, rfl⟩ := Desalojos.paso_enviar h
    obtain ⟨ctx', -, rfl⟩ := Interrupciones.paso_enviar hcpu
    exact .enviar rfl hpt rfl rfl
  | reiniciar =>
    obtain ⟨cpu, hcpu, rfl⟩ := Option.map_eq_some_iff.mp h
    obtain ⟨_, _, hpt, rfl⟩ := Interrupciones.paso_reiniciar hcpu
    exact .reiniciar rfl rfl (by rw [hpt]; rfl) rfl
  | atender status =>
    obtain ⟨exitCode, pid, hl, hp, rfl⟩ := Desalojos.paso_atender h
    exact .atender rfl hl rfl rfl
  | salir =>
    obtain ⟨hl, rfl⟩ := Desalojos.paso_salir h
    exact .salir rfl hl hl rfl
  | cambiarEstado pid status =>
    unfold Desalojos.paso at h
    dsimp only at h
    split_ifs at h
    obtain rfl := Option.some.inj h
    exact .quieta rfl rfl rfl
  | vencer i =>
    obtain ⟨t, -, rfl⟩ := Desalojos.paso_vencer h
    unfold Desalojos.watchQuantumRr Desalojos.handlePlannerEvictProcess
    split_ifs
    · exact .quieta rfl rfl rfl
    · exact .quieta rfl rfl rfl
    · exact .quieta rfl rfl rfl
  | pedir pid motivo =>
    obtain rfl := Option.some.inj h
    exact mueve_evict ..
  | mandar =>
    obtain ⟨m, ms, -, rfl⟩ := Desalojos.paso_mandar h
    exact .quieta rfl rfl rfl
  | llegada =>
    obtain ⟨m, ms, cpu, -, hcpu, rfl⟩ := Desalojos.paso_llegada h
    obtain rfl := Option.some.inj hcpu
    exact .quieta rfl rfl rfl

/-- Out of the CPU. -/
theorem lugares_of_fuera (hpt : Punto.enCpu b.cpu.punto = none)
    (hida : ∀ ctx, b.lugar = .ida ctx → b.proceso = some ctx.pid)
    (hlibre : b.proceso = none → b.lugar = .kernel) : Lugares b :=
  ⟨fun _ h => absurd (h.symm.trans hpt) (Option.some_ne_none _), hida, hlibre⟩

theorem Lugares.fuera (hL : Lugares b) (h : b.lugar ≠ .cpu) : Punto.enCpu b.cpu.punto = none := by
  cases he : Punto.enCpu b.cpu.punto with
  | none => rfl
  | some pid => exact absurd (hL.enCpu pid he).1 h

/-- A context in the CPU is of the process that was dispatched. -/
theorem lugares_of_enCpu {ctx : ExecContext} (hpt : Punto.enCpu b.cpu.punto = some ctx.pid)
    (hl : b.lugar = .cpu) (hp : b.proceso = some ctx.pid) : Lugares b where
  enCpu := fun q hq => by
    rw [hpt] at hq
    rw [← Option.some.inj hq]
    exact ⟨hl, hp⟩
  ida := fun ctx' h => by
    rw [hl] at h
    cases h
  libre := fun h => by
    rw [hp] at h
    cases h

theorem lugares_paso {a : Desalojos.Accion} (hL : Lugares b) (h : Mueve b b' a) : Lugares b' := by
  cases h with
  | quieta hp hl hpt =>
    refine ⟨?_, ?_, ?_⟩
    · rw [hp, hl, hpt]
      exact hL.enCpu
    · rw [hp, hl]
      exact hL.ida
    · rw [hp, hl]
      exact hL.libre
  | planificar hp hl hpt hp' =>
    have hk := hL.libre hp
    have hf := hL.fuera fun h => by rw [hk] at h; cases h
    refine lugares_of_fuera (by rw [hpt]; exact hf) (fun ctx h => ?_) fun _ => hl.trans hk
    rw [hl, hk] at h
    cases h
  | despachar hp hp' hl hl' hpt =>
    have hf := hL.fuera fun h => by rw [hl] at h; cases h
    refine lugares_of_fuera (by rw [hpt]; exact hf) (fun ctx h => ?_) fun h => ?_
    · rw [hl'] at h
      obtain rfl := Lugar.ida.inj h
      exact hp'.trans hp
    · rw [hp', hp] at h
      cases h
  | recibir hp hl hl' hpt =>
    exact lugares_of_enCpu (by rw [hpt]; rfl) hl' (hp.trans (hL.ida _ hl))
  | ejecutar hp hl hpt hpt' hpid =>
    obtain ⟨hlugar, hproceso⟩ := hL.enCpu _ (by rw [hpt]; rfl)
    exact lugares_of_enCpu (by rw [hpt']; rfl) (hl.trans hlugar) (by rw [hp, hpid]; exact hproceso)
  | verificar hp hl hpt hpid hpt' =>
    obtain ⟨hlugar, hproceso⟩ := hL.enCpu _ (by rw [hpt]; rfl)
    refine lugares_of_enCpu ?_ (hl.trans hlugar) (by rw [hp, hpid]; exact hproceso)
    rcases hpt' with hpt' | hpt'
    · rw [hpt']
      rfl
    · rw [hpt']
      rfl
  | enviar hp hpt hl' hpt' =>
    obtain ⟨-, hproceso⟩ := hL.enCpu _ (by rw [hpt]; rfl)
    refine lugares_of_fuera hpt' (fun ctx h => ?_) fun h => ?_
    · rw [hl'] at h
      cases h
    · rw [hp, hproceso] at h
      cases h
  | reiniciar hp hl hpt hpt' =>
    refine lugares_of_fuera hpt' ?_ ?_
    · rw [hp, hl]
      exact hL.ida
    · rw [hp, hl]
      exact hL.libre
  | atender hp hl hl' hpt =>
    have hf := hL.fuera fun h => by rw [hl] at h; cases h
    refine lugares_of_fuera (by rw [hpt]; exact hf) (fun ctx h => ?_) fun _ => hl'
    rw [hl'] at h
    cases h
  | salir hp' hl hl' hpt =>
    have hf := hL.fuera fun h => by rw [hl] at h; cases h
    refine lugares_of_fuera (by rw [hpt]; exact hf) (fun ctx h => ?_) fun _ => hl'
    rw [hl'] at h
    cases h

/-- A context that has had its turn. -/
theorem not_porEjecutar_of_enCpu (hL : Lugares b) (hcpu : Punto.enCpu b.cpu.punto = some pid)
    (hpt : ∀ ctx, b.cpu.punto ≠ .enCiclo ctx) : ¬ PorEjecutar b := by
  obtain ⟨hlugar, -⟩ := hL.enCpu pid hcpu
  rintro (h | ⟨ctx, h⟩ | ⟨ctx, h⟩)
  · rw [hlugar] at h
    cases h
  · rw [hlugar] at h
    cases h
  · exact hpt ctx h

/-- **Only a turn of the cycle** takes a process that is to be dispatched, or has its next instruction to
come, further. -/
theorem porEjecutar_paso {a : Desalojos.Accion} (hL : Lugares b) (h : Mueve b b' a)
    (hno : ∀ marco memoria, a ≠ .ejecutar marco memoria) (hp' : b'.proceso = some pid)
    (hpor : b.proceso = some pid → PorEjecutar b) : PorEjecutar b' := by
  cases h with
  | quieta hp hl hpt =>
    unfold PorEjecutar at *
    rw [hl, hpt]
    exact hpor (hp.symm.trans hp')
  | planificar hp hl hpt => exact Or.inl (hl.trans (hL.libre hp))
  | despachar hp hp' hl hl' hpt => exact Or.inr (Or.inl ⟨_, hl'⟩)
  | recibir hp hl hl' hpt => exact Or.inr (Or.inr ⟨_, hpt⟩)
  | ejecutar => exact absurd rfl (hno _ _)
  | verificar hp hl hpt hpid hpt' =>
    refine absurd (hpor (hp.symm.trans hp')) (not_porEjecutar_of_enCpu hL (by rw [hpt]; rfl) ?_)
    intro ctx h
    rw [hpt] at h
    cases h
  | enviar hp hpt hl' hpt' =>
    refine absurd (hpor (hp.symm.trans hp')) (not_porEjecutar_of_enCpu hL (by rw [hpt]; rfl) ?_)
    intro ctx h
    rw [hpt] at h
    cases h
  | reiniciar hp hl hpt hpt' =>
    rcases hpor (hp.symm.trans hp') with h | ⟨ctx, h⟩ | ⟨ctx, h⟩
    · exact Or.inl (hl.trans h)
    · exact Or.inr (Or.inl ⟨ctx, hl.trans h⟩)
    · rw [h] at hpt
      cases hpt
  | atender hp hl hl' hpt => exact Or.inl hl'
  | salir hp'' hl hl' hpt => exact Or.inl hl'

/-! ### The invariant -/

/-- **The invariant.** A process with a refused write that has not been in the cycle since then has its
next instruction to come, and one that ended because of it has been in the cycle. -/
structure Inv (s : Sistema) : Prop where
  lugares : Lugares s.base
  porEjecutar : ∀ r ∈ s.rechazos, r.fin = none → r.turnos = 0 → s.base.proceso = some r.pid →
    PorEjecutar s.base
  termina : ∀ r ∈ s.rechazos, r.fin = some .PROC_EXIT_INVALID_WRITE → 0 < r.turnos

theorem inv_inicial (estado : ℤ → Status) (cpu : Globales) (openFiles : ℤ → List File) :
    Inv (inicial estado cpu openFiles) :=
  ⟨lugares_of_fuera rfl (fun _ h => by cases h) fun _ => rfl, fun _ h => absurd h List.not_mem_nil,
    fun _ h => absurd h List.not_mem_nil⟩

/-- A step of the rest. -/
theorem inv_otra {a : Desalojos.Accion} (hI : Inv s) (h : Mueve s.base b a)
    (hno : ∀ marco memoria, a ≠ .ejecutar marco memoria) (hbase : s'.base = b)
    (hrec : s'.rechazos = s.rechazos) : Inv s' := by
  refine ⟨?_, fun r hr hfin hcero hp => ?_, ?_⟩
  · rw [hbase]
    exact lugares_paso hI.lugares h
  · rw [hbase] at hp ⊢
    rw [hrec] at hr
    exact porEjecutar_paso hI.lugares h hno hp (hI.porEjecutar r hr hfin hcero)
  · rw [hrec]
    exact hI.termina

/-- **A turn of the cycle** is one of the process that the CPU runs. -/
theorem inv_ejecutar {marco : ℤ} {memoria : MemoriaPlana} {ctx : ExecContext} {ejecutada : Bool}
    (hI : Inv s) (hpt : s.base.cpu.punto = .enCiclo ctx)
    (h : Mueve s.base b (.ejecutar marco memoria)) : Inv { s with
      base := b, rechazos := s.rechazos.map (Rechazo.contar ctx.pid ejecutada) } := by
  obtain ⟨hlugar, hproceso⟩ := hI.lugares.enCpu ctx.pid (by rw [hpt]; rfl)
  have hp : b.proceso = s.base.proceso := by
    cases h with
    | quieta hp => exact hp
    | ejecutar hp => exact hp
  refine ⟨lugares_paso hI.lugares h, fun r' hr' hfin hcero hp' => ?_, fun r' hr' hfin => ?_⟩
  · obtain ⟨r, hr, rfl⟩ := List.mem_map.mp hr'
    dsimp only at hp'
    rw [hp, hproceso, contar_pid] at hp'
    rw [contar_fin] at hfin
    rw [contar_turnos, if_pos ⟨(Option.some.inj hp').symm, hfin⟩] at hcero
    omega
  · obtain ⟨r, hr, rfl⟩ := List.mem_map.mp hr'
    rw [contar_fin] at hfin
    rw [contar_turnos]
    exact (hI.termina r hr hfin).trans_le (Nat.le_add_right _ _)

/-- A process ends. With the code of a refused write it has been in the cycle. -/
theorem inv_exitProcess {exitCode : OpCode} (hI : Inv s)
    (h : exitCode = .PROC_EXIT_INVALID_WRITE → s.base.proceso = some pid ∧ ¬ PorEjecutar s.base) :
    Inv (exitProcess s pid exitCode) := by
  refine ⟨hI.lugares, fun r' hr' hfin hcero hp => ?_, fun r' hr' hfin => ?_⟩
  · obtain ⟨r, hr, rfl⟩ := List.mem_map.mp hr'
    obtain ⟨hpid, hturnos, -⟩ := terminar_resto pid exitCode r
    rw [terminar_fin] at hfin
    split_ifs at hfin
    exact hI.porEjecutar r hr hfin (hturnos.symm.trans hcero) (by rw [← hpid]; exact hp)
  · obtain ⟨r, hr, rfl⟩ := List.mem_map.mp hr'
    obtain ⟨-, hturnos, -⟩ := terminar_resto pid exitCode r
    rw [terminar_fin] at hfin
    rw [hturnos]
    split_ifs at hfin with hpid
    · obtain ⟨hp, hno⟩ := h (Option.some.inj hfin)
      by_contra hcero
      exact hno (hI.porEjecutar r hr hpid.2 (by omega) (by rw [hp, hpid.1]))
    · exact hI.termina r hr hfin

/-- A handler hands the process back to the loop. -/
theorem inv_dejar {status : Status} (hI : Inv s)
    (h : dejar rr tamanioPagina programas s status = some s') : Inv s' := by
  obtain ⟨base, hbase, rfl⟩ := Option.map_eq_some_iff.mp h
  exact inv_otra hI (mueve_paso hbase) (fun _ _ h => by cases h) rfl rfl

/-- A context that came back is in no other place. -/
theorem not_porEjecutar {exitCode : Option OpCode} (hL : Lugares b)
    (hl : b.lugar = .vuelta exitCode) : ¬ PorEjecutar b := by
  rintro (h | ⟨ctx, h⟩ | ⟨ctx, h⟩)
  · rw [hl] at h
    cases h
  · rw [hl] at h
    cases h
  · have hcpu := (hL.enCpu ctx.pid (by rw [h]; rfl)).1
    rw [hl] at hcpu
    cases hcpu

/-- The refused write is new, and its process is in the loop again. -/
theorem inv_rechazo {status : Status} (hI : Inv s) (hm : Mueve s.base b (.atender status))
    (h : dejar rr tamanioPagina programas
      { s with base := b, rechazos := s.rechazos ++ [⟨pid, 0, 0, none⟩] } status = some s') :
    Inv s' := by
  obtain ⟨base, hbase, rfl⟩ := Option.map_eq_some_iff.mp h
  have hkernel : base.lugar = .kernel := by
    obtain ⟨exitCode, q, -, -, rfl⟩ := Desalojos.paso_atender hbase
    rfl
  refine ⟨lugares_paso (lugares_paso hI.lugares hm) (mueve_paso hbase),
    fun _ _ _ _ _ => Or.inl hkernel, fun r hr hfin => ?_⟩
  rcases List.mem_append.mp hr with hr | hr
  · exact hI.termina r hr hfin
  · obtain rfl := List.mem_singleton.mp hr
    cases hfin

theorem inv_onFileWrite (hI : Inv s) (h : onFileWrite rr tamanioPagina programas s pid = some s') :
    Inv s' := by
  unfold onFileWrite at h
  cases hf : processFindOpenFile (s.openFiles pid) (s.ctx.bind ExecContext.nombreArchivo) with
  | none =>
    simp only [hf] at h
    exact inv_dejar hI h
  | some archivo =>
    simp only [hf] at h
    by_cases hw : archivo.modoApertura = .W
    · rw [if_pos hw] at h
      exact inv_dejar hI h
    · rw [if_neg hw] at h
      exact inv_rechazo hI (mueve_evict ..) h

theorem inv_handleCpuEviction {exitCode : Option OpCode} {status : Status} {openFiles : ℤ → List File}
    (hI : Inv s) (hl : s.base.lugar = .vuelta exitCode) (hp : s.base.proceso = some pid)
    (h : handleCpuEviction rr tamanioPagina programas s pid exitCode status openFiles = some s') :
    Inv s' := by
  have hno := not_porEjecutar hI.lugares hl
  unfold handleCpuEviction at h
  cases exitCode with
  | none => exact inv_dejar hI h
  | some evictionReason =>
    dsimp only at h
    split_ifs at h
    · exact inv_onFileWrite hI h
    · exact inv_dejar (inv_exitProcess hI fun _ => ⟨hp, hno⟩) h
    · exact inv_dejar (inv_exitProcess hI fun h' => by cases h') h
    · exact inv_dejar (s := { s with openFiles := openFiles })
        ⟨hI.lugares, hI.porEjecutar, hI.termina⟩ h

/-- **One step.** -/
theorem inv_paso {a : Accion} (hI : Inv s) (h : paso rr tamanioPagina programas s a = some s') :
    Inv s' := by
  unfold paso at h
  cases a with
  | ejecutar marco memoria =>
    cases hpt : s.base.cpu.punto with
    | enCiclo ctx =>
      simp only [hpt] at h
      obtain ⟨base, hbase, rfl⟩ := Option.map_eq_some_iff.mp h
      exact inv_ejecutar hI hpt (mueve_paso hbase)
    | _ => simp [hpt] at h
  | enviar =>
    cases hpt : s.base.cpu.punto with
    | porEnviar ctx =>
      simp only [hpt] at h
      obtain ⟨base, hbase, rfl⟩ := Option.map_eq_some_iff.mp h
      exact inv_otra hI (mueve_paso hbase) (fun _ _ h => by cases h) rfl rfl
    | _ => simp [hpt] at h
  | atender status openFiles =>
    cases hl : s.base.lugar with
    | vuelta exitCode =>
      cases hp : s.base.proceso with
      | none => simp [hl, hp] at h
      | some pid =>
        simp only [hl, hp] at h
        exact inv_handleCpuEviction hI hl hp h
    | _ => simp [hl] at h
  | terminar pid =>
    dsimp only at h
    split_ifs at h
    obtain ⟨base, hbase, rfl⟩ := Option.map_eq_some_iff.mp h
    have hI' : Inv { s with base := base } :=
      inv_otra hI (mueve_paso hbase) (fun _ _ h => by cases h) rfl rfl
    exact inv_exitProcess hI' fun h' => by cases h'
  | otra a =>
    obtain ⟨hes, h⟩ := Option.ite_none_right_eq_some.mp h
    obtain ⟨base, hbase, rfl⟩ := Option.map_eq_some_iff.mp h
    refine inv_otra hI (mueve_paso hbase) (fun marco memoria ha => ?_) rfl rfl
    rw [ha] at hes
    exact absurd hes Bool.false_ne_true

/-! ### What is executed -/

/-- `decode` says that the program counter stays if the instruction is `EXIT`, or has no page. -/
theorem decode_eq_neg_one {marco : ℤ} {e : Estado} {i : Instruccion} {r : ℤ × Estado}
    (h : decode tamanioPagina marco e i = some r) :
    r.1 = -1 ↔ i = .EXIT ∨ marco = -1 ∧ pideMarco i = true := by
  cases i with
  | JNZ registro nuevoPc =>
    obtain ⟨e', -, rfl⟩ := Option.map_eq_some_iff.mp h
    simp [pideMarco]
  | MOV_IN registro dirLogica =>
    obtain rfl := Option.some.inj h
    unfold executeMovIn
    dsimp only
    split_ifs with hm hv
    · simp [pideMarco, hm]
    · simp [pideMarco, hm]
    · split <;> simp [pideMarco, hm]
  | MOV_OUT dirLogica registro =>
    unfold decode executeMovOut at h
    dsimp only at h
    split_ifs at h with hm
    · obtain rfl := Option.some.inj h
      simp [pideMarco, hm]
    · obtain ⟨registroCpu, -, he⟩ := Option.bind_eq_some_iff.mp h
      obtain rfl := Option.some.inj he
      simp [pideMarco, hm]
  | F_READ nombreArchivo dirLogica | F_WRITE nombreArchivo dirLogica =>
    obtain rfl := Option.some.inj h
    simp only [executeFRead, executeFWrite, executeFAcceso]
    split_ifs with hm
    · simp [pideMarco, hm]
    · simp [pideMarco, hm]
  | _ =>
    obtain rfl := Option.some.inj h
    simp [pideMarco]

/-- In a turn of the cycle the instruction is executed, unless it page-faults. -/
theorem ejecuta_eq_false {marco : ℤ} {memoria : MemoriaPlana} {ctx : ExecContext}
    (hpt : s.base.cpu.punto = .enCiclo ctx) (h : Desalojos.paso rr tamanioPagina programas s.base
      (.ejecutar marco memoria) = some b) :
    ejecuta tamanioPagina programas s marco memoria ctx = false ↔
      marco = -1 ∧ (fetch (programas ctx.pid) ctx.programCounter).any pideMarco = true := by
  obtain ⟨cpu, hcpu, -⟩ := Option.map_eq_some_iff.mp h
  unfold Interrupciones.paso at hcpu
  simp only [hpt] at hcpu
  obtain ⟨i, hi, hcpu⟩ := Option.bind_eq_some_iff.mp hcpu
  obtain ⟨r, hr, -⟩ := Option.map_eq_some_iff.mp hcpu
  have hcuenta := decode_eq_neg_one hr
  unfold ejecuta
  rw [hi]
  simp only [Option.any_some, hr]
  constructor
  · intro hno
    by_cases hexit : i = .EXIT
    · simp [hexit] at hno
    · exact (hcuenta.mp (by simpa [hexit] using hno)).resolve_left hexit
  · rintro ⟨hm, hac⟩
    have hexit : i ≠ .EXIT := by
      rintro rfl
      cases hac
    have huno := hcuenta.mpr (Or.inr ⟨hm, hac⟩)
    simp [hexit, huno]

/-- A turn of the cycle of the process `ctx.pid`. -/
theorem detenidos_ejecutar {ctx : ExecContext} {ejecutada : Bool} (hD : Detenidos s) :
    Detenidos { s with base := b, rechazos := s.rechazos.map (Rechazo.contar ctx.pid ejecutada) } ↔
      ((∃ r ∈ s.rechazos, r.pid = ctx.pid ∧ r.fin = none) → ejecutada = false) := by
  unfold Detenidos at *
  constructor
  · rintro h ⟨r, hr, hpid⟩
    have hcero := h _ (List.mem_map_of_mem hr)
    rw [contar_instrucciones] at hcero
    cases ejecutada with
    | false => rfl
    | true =>
      rw [if_pos ⟨hpid, rfl⟩] at hcero
      omega
  · intro h r' hr'
    obtain ⟨r, hr, rfl⟩ := List.mem_map.mp hr'
    rw [contar_instrucciones, hD r hr, if_neg]
    rintro ⟨hpid, he⟩
    rw [h ⟨r, hr, hpid⟩] at he
    cases he

/-- The handlers execute nothing. -/
theorem detenidos_dejar {status : Status} (hD : Detenidos s)
    (h : dejar rr tamanioPagina programas s status = some s') : Detenidos s' := by
  obtain ⟨base, -, rfl⟩ := Option.map_eq_some_iff.mp h
  exact hD

theorem detenidos_exitProcess (hD : Detenidos s) (pid : ℤ) (exitCode : OpCode) :
    Detenidos (exitProcess s pid exitCode) := by
  intro r' hr'
  obtain ⟨r, hr, rfl⟩ := List.mem_map.mp hr'
  rw [(terminar_resto pid exitCode r).2.2]
  exact hD r hr

theorem detenidos_handleCpuEviction {exitCode : Option OpCode} {status : Status}
    {openFiles : ℤ → List File} (hD : Detenidos s)
    (h : handleCpuEviction rr tamanioPagina programas s pid exitCode status openFiles = some s') :
    Detenidos s' := by
  unfold handleCpuEviction at h
  cases exitCode with
  | none => exact detenidos_dejar hD h
  | some evictionReason =>
    dsimp only at h
    split_ifs at h
    · unfold onFileWrite at h
      cases hf : processFindOpenFile (s.openFiles pid) (s.ctx.bind ExecContext.nombreArchivo) with
      | none =>
        simp only [hf] at h
        exact detenidos_dejar hD h
      | some archivo =>
        simp only [hf] at h
        split_ifs at h
        · exact detenidos_dejar hD h
        · refine detenidos_dejar (fun r hr => ?_) h
          rcases List.mem_append.mp hr with hr | hr
          · exact hD r hr
          · obtain rfl := List.mem_singleton.mp hr
            rfl
    · exact detenidos_dejar (detenidos_exitProcess hD _ _) h
    · exact detenidos_dejar (detenidos_exitProcess hD _ _) h
    · exact detenidos_dejar (s := { s with openFiles := openFiles }) hD h

/-- **One step**: only a turn of the cycle may execute something. -/
theorem detenidos_paso {a : Accion} (hD : Detenidos s)
    (h : paso rr tamanioPagina programas s a = some s') : Detenidos s' ↔ SinPagina programas s a := by
  unfold paso at h
  cases a with
  | ejecutar marco memoria =>
    cases hpt : s.base.cpu.punto with
    | enCiclo ctx =>
      simp only [hpt] at h
      obtain ⟨base, hbase, rfl⟩ := Option.map_eq_some_iff.mp h
      unfold SinPagina
      simp only [hpt]
      rw [detenidos_ejecutar hD, ejecuta_eq_false hpt hbase]
    | _ => simp [hpt] at h
  | enviar =>
    refine iff_of_true ?_ trivial
    cases hpt : s.base.cpu.punto with
    | porEnviar ctx =>
      simp only [hpt] at h
      obtain ⟨base, -, rfl⟩ := Option.map_eq_some_iff.mp h
      exact hD
    | _ => simp [hpt] at h
  | atender status openFiles =>
    refine iff_of_true ?_ trivial
    cases hl : s.base.lugar with
    | vuelta exitCode =>
      cases hp : s.base.proceso with
      | none => simp [hl, hp] at h
      | some pid =>
        simp only [hl, hp] at h
        exact detenidos_handleCpuEviction hD h
    | _ => simp [hl] at h
  | terminar pid =>
    refine iff_of_true ?_ trivial
    dsimp only at h
    split_ifs at h
    obtain ⟨base, -, rfl⟩ := Option.map_eq_some_iff.mp h
    exact detenidos_exitProcess (s := { s with base := base }) hD pid _
  | otra a =>
    refine iff_of_true ?_ trivial
    obtain ⟨-, h⟩ := Option.ite_none_right_eq_some.mp h
    obtain ⟨base, -, rfl⟩ := Option.map_eq_some_iff.mp h
    exact hD

/-- **Refused writes.** In all states of a run no process has executed an instruction after a refused
write if and only if every instruction that the CPU fetches for such a process page-faults; and a process
that ended because of its write has been in the instruction cycle in between. -/
theorem detenidos_iff {estado : ℤ → Status} {cpu : Globales} {openFiles : ℤ → List File}
    {as : List Accion}
    (h : exec (paso rr tamanioPagina programas) (inicial estado cpu openFiles) as = some s) :
    ((∀ bs t, bs <+: as → exec (paso rr tamanioPagina programas) (inicial estado cpu openFiles) bs =
        some t → Detenidos t) ↔
      Along (paso rr tamanioPagina programas) (SinPagina programas) (inicial estado cpu openFiles) as) ∧
      ∀ r ∈ s.rechazos, r.fin = some .PROC_EXIT_INVALID_WRITE → 0 < r.turnos := by
  have hinicial : Detenidos (inicial estado cpu openFiles) := fun _ h => absurd h List.not_mem_nil
  refine ⟨along_iff_states (fun _ hD => hD) (fun s a s' hD hC hs => (detenidos_paso hD hs).mpr hC)
    (fun s a s' hD hs hD' => (detenidos_paso hD hs).mp hD') hinicial h, ?_⟩
  have hI : Inv s := exec_invariant (C := fun _ _ => True) (fun _ _ _ hI _ hs => inv_paso hI hs)
    (inv_inicial estado cpu openFiles) (along_of_forall (fun _ _ => trivial) as _) h
  exact hI.termina

/-- The process writes to the file, and then to its memory. -/
def escribir (_ : ℤ) : List Instruccion := [.F_WRITE "a" 0, .MOV_OUT 0 'A', .EXIT]

/-- The write of process 1 is refused; the interruption is there before it is dispatched again, and the
memory answers `marco` then. -/
def rechazar (marco : ℤ) : List Accion :=
  [.otra (.planificar 1), .otra (.despachar contexto), .otra .recibir, .ejecutar 0 ⟨fun _ => 0, []⟩,
    .otra .verificar, .enviar, .otra .reiniciar, .atender .EXEC fun _ => [], .otra .mandar,
    .otra .llegada, .otra (.despachar { contexto with programCounter := 1 }), .otra .recibir,
    .ejecutar marco ⟨fun _ => 0, []⟩, .otra .verificar, .enviar, .otra .reiniciar,
    .atender .EXIT fun _ => []]

/-- The page of the `MOV_OUT` is not there. -/
theorem detenidos_iff_rechazar : ∃ s, exec (paso true 16 escribir)
    (inicial (fun _ => .READY) cpuLibre fun _ => [fileCreate "a" .R]) (rechazar (-1)) = some s ∧
      Detenidos s ∧ ∀ r ∈ s.rechazos, r.fin = some .PROC_EXIT_INVALID_WRITE → 0 < r.turnos := by
  obtain ⟨s, hs⟩ := Option.isSome_iff_exists.mp (by decide +kernel : (exec (paso true 16 escribir)
    (inicial (fun _ => .READY) cpuLibre fun _ => [fileCreate "a" .R]) (rechazar (-1))).isSome = true)
  obtain ⟨hiff, hturnos⟩ := detenidos_iff hs
  exact ⟨s, hs, hiff.mpr (by decide +kernel) _ s List.prefix_rfl hs, hturnos⟩

/-- **A write after the refused one.** The page is there, and the process writes to it before it ends
with `PROC_EXIT_INVALID_WRITE`. -/
theorem escritura_posterior :
    (∃ s ctx memoria, exec (paso true 16 escribir)
      (inicial (fun _ => .READY) cpuLibre fun _ => [fileCreate "a" .R]) ((rechazar 0).take 13) =
        some s ∧ s.base.cpu.punto = .ejecutado ctx memoria ∧ memoria.escrituras = [(0, 0)]) ∧
      ∃ s, exec (paso true 16 escribir)
        (inicial (fun _ => .READY) cpuLibre fun _ => [fileCreate "a" .R]) (rechazar 0) = some s ∧
          s.rechazos = [⟨1, 1, 1, some .PROC_EXIT_INVALID_WRITE⟩] ∧ ¬ Detenidos s :=
  ⟨⟨_, _, _, rfl, rfl, rfl⟩, _, rfl, rfl, by decide +kernel⟩

end OperatingSystem.Cpu.Rechazos
