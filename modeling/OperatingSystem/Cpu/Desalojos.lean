import OperatingSystem.Cpu.Interrupciones

/-! # The evictions of the planner (`kernel/src/core/planners/planners.c`,
`kernel/src/core/process/process_handler.c`)

The kernel dispatches a process with `cpu_execute`, as many times as the process comes back without
leaving `EXEC`, and with the planner `RR` each dispatch starts a thread that sleeps for the quantum.
`handle_quantum` means to cancel the thread of the dispatch before, but nobody saves its id, so all of
them run to their end. When one does, or when a process with more priority is ready,
`handle_planner_evict_process` puts a request in `interruptions`; another thread takes it from there
to the interrupt connection, and the CPU to its slot. From the thread on, a request has only the
number of the process.

Here the timers and the requests also have the dispatch that they were made for, and so has what the
CPU gives back (`Devolucion`). An eviction ends the dispatch that it was made for (`Justa`) in every
run in which a timer that expires while the CPU runs its process is of that dispatch, and no request
for another dispatch is left when the CPU takes a context (`Propia`): `justa_of_propia`. -/

namespace OperatingSystem.Cpu.Desalojos

open OperatingSystem.Lib.Run OperatingSystem.Cpu.Ciclo
open OperatingSystem.Kernel.Proceso (Status)
open OperatingSystem.Cpu.Interrupciones (Punto contexto cpuLibre)

/-- `t_interruption`, and the dispatch that it was made for. -/
structure Peticion where
  pid : ℤ
  motivo : OpCode
  origen : Option ℕ

/-- Where the context of the process is. -/
inductive Lugar where
  | kernel
  | ida (ctx : ExecContext)
  | cpu
  | vuelta (exitCode : Option OpCode)

/-- A context that the CPU gave back: the number of its dispatch, and the dispatch that the interruption
found by its last `check_interrupt` was made for. -/
structure Devolucion where
  pid : ℤ
  exitCode : Option OpCode
  despacho : ℕ
  causa : Option ℕ

/-- `proceso` is the process of `short_term_planner`, `despacho` the number of dispatches so far;
`temporizadores` are the threads of `handle_quantum`, `enCamino` what was sent to the interrupt
connection, and `origen` is the dispatch that the interruption in the slot was made for. -/
structure Sistema where
  estado : ℤ → Status
  proceso : Option ℤ
  lugar : Lugar
  despacho : ℕ
  temporizadores : List (ℤ × ℕ)
  interruptions : List Peticion
  enCamino : List Peticion
  cpu : Interrupciones.Sistema
  origen : Option ℕ
  causa : Option ℕ
  devueltos : List Devolucion

/-- `planificar` is `next_process` with `process_execute`, and `atender` what `handle_cpu_eviction`
makes of the context that comes back: it leaves the process in the state `status`. `salir` is the end
of the inner loop. `cambiarEstado` is another thread that changes the state of a process. `pedir` is a
call of `handle_planner_evict_process`, or `handle_force_process_exit`. -/
inductive Accion where
  | planificar (pid : ℤ)
  | despachar (ctx : ExecContext)
  | recibir
  | ejecutar (marco : ℤ) (memoria : MemoriaPlana)
  | verificar
  | enviar
  | reiniciar
  | atender (status : Status)
  | salir
  | cambiarEstado (pid : ℤ) (status : Status)
  | vencer (i : ℕ)
  | pedir (pid : ℤ) (motivo : OpCode)
  | mandar
  | llegada

def inicial (estado : ℤ → Status) (cpu : Globales) : Sistema where
  estado := estado
  proceso := none
  lugar := .kernel
  despacho := 0
  temporizadores := []
  interruptions := []
  enCamino := []
  cpu := Interrupciones.inicial (reiniciarFlagInterrupcion cpu)
  origen := none
  causa := none
  devueltos := []

def Lugar.enKernel : Lugar → Bool
  | .kernel => true
  | _ => false

/-- The dispatch of the process that is under way. -/
def Sistema.rafaga (s : Sistema) (pid : ℤ) : Option ℕ :=
  if s.proceso = some pid ∧ s.lugar.enKernel = false then some s.despacho else none

/-- `handle_planner_evict_process` -/
def handlePlannerEvictProcess (s : Sistema) (pid : ℤ) (motivo : OpCode) (origen : Option ℕ) : Sistema :=
  if s.estado pid = .EXEC then
    { s with interruptions := s.interruptions ++ [⟨pid, motivo, origen⟩] }
  else s

/-- The end of `watch_quantum_rr`. -/
def watchQuantumRr (s : Sistema) (pid : ℤ) (despacho : ℕ) : Sistema :=
  if s.estado pid ≠ .EXIT ∧ s.estado pid ≠ .BLOCK then
    handlePlannerEvictProcess s pid .PROC_EXIT_QUANTUM (some despacho)
  else s

/-- `rr` says that the planner is `RR`. -/
def paso (rr : Bool) (tamanioPagina : ℕ) (programas : ℤ → List Instruccion) (s : Sistema) :
    Accion → Option Sistema
  | .planificar pid =>
    if s.proceso = none then
      some { s with proceso := some pid, estado := Function.update s.estado pid .EXEC }
    else none
  | .despachar ctx =>
    if s.proceso = some ctx.pid ∧ s.lugar.enKernel ∧ s.estado ctx.pid = .EXEC then
      some { s with
        despacho := s.despacho + 1
        temporizadores := if rr then s.temporizadores ++ [(ctx.pid, s.despacho + 1)]
          else s.temporizadores
        lugar := .ida ctx }
    else none
  | .recibir =>
    match s.lugar with
    | .ida ctx => (Interrupciones.paso tamanioPagina programas s.cpu (.recibir ctx)).map fun cpu =>
        { s with cpu := cpu, lugar := .cpu }
    | _ => none
  | .ejecutar marco memoria =>
    (Interrupciones.paso tamanioPagina programas s.cpu (.ejecutar marco memoria)).map fun cpu =>
      { s with cpu := cpu }
  | .verificar => (Interrupciones.paso tamanioPagina programas s.cpu .verificar).map fun cpu =>
      { s with cpu := cpu, causa := s.origen }
  | .enviar =>
    match s.cpu.punto with
    | .porEnviar ctx => (Interrupciones.paso tamanioPagina programas s.cpu .enviar).map fun cpu =>
        { s with
          cpu := cpu
          lugar := .vuelta s.cpu.cpu.exitCode
          devueltos := s.devueltos ++ [⟨ctx.pid, s.cpu.cpu.exitCode, s.despacho, s.causa⟩] }
    | _ => none
  | .reiniciar => (Interrupciones.paso tamanioPagina programas s.cpu .reiniciar).map fun cpu =>
      { s with cpu := cpu, origen := none }
  | .atender status =>
    match s.lugar, s.proceso with
    | .vuelta _, some pid =>
      some { s with lugar := .kernel, estado := Function.update s.estado pid status }
    | _, _ => none
  | .salir =>
    match s.lugar, s.proceso with
    | .kernel, some pid => if s.estado pid = .EXEC then none else some { s with proceso := none }
    | _, _ => none
  | .cambiarEstado pid status =>
    if status = .EXEC then none else some { s with estado := Function.update s.estado pid status }
  | .vencer i =>
    match s.temporizadores[i]? with
    | some t =>
      some (watchQuantumRr { s with temporizadores := s.temporizadores.eraseIdx i } t.1 t.2)
    | none => none
  | .pedir pid motivo => some (handlePlannerEvictProcess s pid motivo (s.rafaga pid))
  | .mandar =>
    match s.interruptions with
    | m :: ms => some { s with interruptions := ms, enCamino := s.enCamino ++ [m] }
    | [] => none
  | .llegada =>
    match s.enCamino with
    | m :: ms => (Interrupciones.paso tamanioPagina programas s.cpu (.llegada m.pid m.motivo)).map
        fun cpu => { s with enCamino := ms, cpu := cpu, origen := m.origen }
    | [] => none

/-- The evictions of the planner that the CPU gave back were made for the dispatch that they ended. -/
def Justa (s : Sistema) : Prop := ∀ d ∈ s.devueltos,
  d.exitCode.any isPlannerEviction = true → d.causa = some d.despacho

instance (s : Sistema) : Decidable (Justa s) := by unfold Justa; infer_instance

/-- The CPU runs the process, and has a `check_interrupt` to come. -/
def Punto.Corre (pid : ℤ) : Punto → Prop
  | .enCiclo ctx => ctx.pid = pid
  | .ejecutado ctx _ => ctx.pid = pid
  | _ => False

instance (pid : ℤ) : ∀ p : Punto, Decidable (Punto.Corre pid p)
  | .enCiclo ctx => inferInstanceAs (Decidable (ctx.pid = pid))
  | .ejecutado ctx _ => inferInstanceAs (Decidable (ctx.pid = pid))
  | .libre | .porEnviar _ | .enviado .. => instDecidableFalse

/-- The requests of the planner for the process are for the last dispatch. -/
structure Sistema.Propias (s : Sistema) (pid : ℤ) : Prop where
  cola : ∀ m ∈ s.interruptions, m.pid = pid → isPlannerEviction m.motivo = true →
    m.origen = some s.despacho
  enCamino : ∀ m ∈ s.enCamino, m.pid = pid → isPlannerEviction m.motivo = true →
    m.origen = some s.despacho
  ranura : s.cpu.cpu.interrupcion.pid = pid →
    s.cpu.cpu.interrupcion.motivo.any isPlannerEviction = true → s.origen = some s.despacho

instance (s : Sistema) (pid : ℤ) : Decidable (s.Propias pid) :=
  decidable_of_iff ((∀ m ∈ s.interruptions, m.pid = pid → isPlannerEviction m.motivo = true →
      m.origen = some s.despacho) ∧ (∀ m ∈ s.enCamino, m.pid = pid →
      isPlannerEviction m.motivo = true → m.origen = some s.despacho) ∧
      (s.cpu.cpu.interrupcion.pid = pid →
        s.cpu.cpu.interrupcion.motivo.any isPlannerEviction = true → s.origen = some s.despacho))
    ⟨fun h => ⟨h.1, h.2.1, h.2.2⟩, fun h => ⟨h.cola, h.enCamino, h.ranura⟩⟩

/-- A timer that expires while the CPU runs its process is of this dispatch, and so are the requests
that are there when the CPU takes a context. -/
def Propia (s : Sistema) : Accion → Prop
  | .recibir =>
    match s.lugar with
    | .ida ctx => s.Propias ctx.pid
    | _ => True
  | .vencer i =>
    match s.temporizadores[i]? with
    | some t => s.estado t.1 = .EXEC → Punto.Corre t.1 s.cpu.punto → t.2 = s.despacho
    | none => True
  | _ => True

instance (s : Sistema) (a : Accion) : Decidable (Propia s a) := by
  unfold Propia
  split <;> (try split) <;> infer_instance

/-! ### The invariant -/

/-- The process whose context is in the CPU, until it is sent. -/
def Punto.enCpu : Punto → Option ℤ
  | .enCiclo ctx => some ctx.pid
  | .ejecutado ctx _ => some ctx.pid
  | .porEnviar ctx => some ctx.pid
  | _ => none

/-- The requests for the process that the CPU runs are for its dispatch, and so was the one that ends
it. -/
structure Inv (s : Sistema) : Prop where
  enCpu : ∀ pid, Punto.enCpu s.cpu.punto = some pid → s.lugar = .cpu ∧ s.proceso = some pid
  ida : ∀ ctx, s.lugar = .ida ctx → s.proceso = some ctx.pid
  propias : ∀ pid, Punto.Corre pid s.cpu.punto → s.Propias pid
  sinCodigo : ∀ pid, Punto.Corre pid s.cpu.punto → s.cpu.cpu.exitCode.any isPlannerEviction = false
  porEnviar : ∀ ctx, s.cpu.punto = .porEnviar ctx →
    s.cpu.cpu.exitCode.any isPlannerEviction = true → s.causa = some s.despacho
  justa : Justa s

variable {rr : Bool} {tamanioPagina : ℕ} {programas : ℤ → List Instruccion} {s s' : Sistema}
  {pid : ℤ}

/-! ### What a step does -/

theorem paso_recibir (h : paso rr tamanioPagina programas s .recibir = some s') : ∃ ctx cpu,
    s.lugar = .ida ctx ∧ Interrupciones.paso tamanioPagina programas s.cpu (.recibir ctx) = some cpu ∧
      s' = { s with cpu := cpu, lugar := .cpu } := by
  unfold paso at h
  cases hl : s.lugar with
  | ida ctx =>
    simp only [hl] at h
    obtain ⟨cpu, hcpu, rfl⟩ := Option.map_eq_some_iff.mp h
    exact ⟨ctx, cpu, rfl, hcpu, rfl⟩
  | _ => simp [hl] at h

theorem paso_enviar (h : paso rr tamanioPagina programas s .enviar = some s') : ∃ ctx cpu,
    s.cpu.punto = .porEnviar ctx ∧
      Interrupciones.paso tamanioPagina programas s.cpu .enviar = some cpu ∧ s' = { s with
        cpu := cpu
        lugar := .vuelta s.cpu.cpu.exitCode
        devueltos := s.devueltos ++ [⟨ctx.pid, s.cpu.cpu.exitCode, s.despacho, s.causa⟩] } := by
  unfold paso at h
  cases hpt : s.cpu.punto with
  | porEnviar ctx =>
    simp only [hpt] at h
    obtain ⟨cpu, hcpu, rfl⟩ := Option.map_eq_some_iff.mp h
    exact ⟨ctx, cpu, rfl, hcpu, rfl⟩
  | _ => simp [hpt] at h

theorem paso_atender {status : Status}
    (h : paso rr tamanioPagina programas s (.atender status) = some s') : ∃ exitCode pid,
    s.lugar = .vuelta exitCode ∧ s.proceso = some pid ∧
      s' = { s with lugar := .kernel, estado := Function.update s.estado pid status } := by
  unfold paso at h
  cases hl : s.lugar with
  | vuelta exitCode =>
    cases hp : s.proceso with
    | none => simp [hl, hp] at h
    | some pid =>
      simp only [hl, hp] at h
      exact ⟨exitCode, pid, rfl, rfl, (Option.some.inj h).symm⟩
  | _ => simp [hl] at h

theorem paso_salir (h : paso rr tamanioPagina programas s .salir = some s') :
    s.lugar = .kernel ∧ s' = { s with proceso := none } := by
  unfold paso at h
  cases hl : s.lugar with
  | kernel =>
    cases hp : s.proceso with
    | none => simp [hl, hp] at h
    | some pid =>
      simp only [hl, hp] at h
      split_ifs at h
      exact ⟨rfl, (Option.some.inj h).symm⟩
  | _ => simp [hl] at h

theorem paso_vencer {i : ℕ} (h : paso rr tamanioPagina programas s (.vencer i) = some s') :
    ∃ t, s.temporizadores[i]? = some t ∧
      s' = watchQuantumRr { s with temporizadores := s.temporizadores.eraseIdx i } t.1 t.2 := by
  unfold paso at h
  cases ht : s.temporizadores[i]? with
  | none => simp [ht] at h
  | some t =>
    simp only [ht] at h
    exact ⟨t, rfl, (Option.some.inj h).symm⟩

theorem paso_mandar (h : paso rr tamanioPagina programas s .mandar = some s') : ∃ m ms,
    s.interruptions = m :: ms ∧
      s' = { s with interruptions := ms, enCamino := s.enCamino ++ [m] } := by
  unfold paso at h
  cases hi : s.interruptions with
  | nil => simp [hi] at h
  | cons m ms =>
    simp only [hi] at h
    exact ⟨m, ms, rfl, (Option.some.inj h).symm⟩

theorem paso_llegada (h : paso rr tamanioPagina programas s .llegada = some s') : ∃ m ms cpu,
    s.enCamino = m :: ms ∧
      Interrupciones.paso tamanioPagina programas s.cpu (.llegada m.pid m.motivo) = some cpu ∧
      s' = { s with enCamino := ms, cpu := cpu, origen := m.origen } := by
  unfold paso at h
  cases hi : s.enCamino with
  | nil => simp [hi] at h
  | cons m ms =>
    simp only [hi] at h
    obtain ⟨cpu, hcpu, rfl⟩ := Option.map_eq_some_iff.mp h
    exact ⟨m, ms, cpu, rfl, hcpu, rfl⟩

/-! ### Every step keeps the invariant -/

theorem enCpu_of_corre {p : Punto} (h : Punto.Corre pid p) : Punto.enCpu p = some pid := by
  cases p with
  | enCiclo ctx => exact congrArg some h
  | ejecutado ctx memoria => exact congrArg some h
  | _ => exact absurd h id

theorem not_corre {p : Punto} (h : Punto.enCpu p = none) : ¬ Punto.Corre pid p := fun hc =>
  Option.some_ne_none pid ((enCpu_of_corre hc).symm.trans h)

/-- With no context in the CPU there is little to keep. -/
theorem inv_of_libre (hcpu : Punto.enCpu s.cpu.punto = none)
    (hida : ∀ ctx, s.lugar = .ida ctx → s.proceso = some ctx.pid) (hj : Justa s) : Inv s where
  enCpu := fun pid h => absurd (h.symm.trans hcpu) (Option.some_ne_none pid)
  ida := hida
  propias := fun _ h => absurd h (not_corre hcpu)
  sinCodigo := fun _ h => absurd h (not_corre hcpu)
  porEnviar := fun ctx h => by rw [h] at hcpu; exact absurd hcpu (Option.some_ne_none ctx.pid)
  justa := hj

/-- A context that is about to be sent is run no more. -/
theorem inv_of_porEnviar {ctx : ExecContext} (hpt : s.cpu.punto = .porEnviar ctx)
    (hl : s.lugar = .cpu) (hp : s.proceso = some ctx.pid)
    (hev : s.cpu.cpu.exitCode.any isPlannerEviction = true → s.causa = some s.despacho)
    (hj : Justa s) : Inv s where
  enCpu := fun q hq => by
    rw [hpt] at hq
    obtain rfl : ctx.pid = q := Option.some.inj hq
    exact ⟨hl, hp⟩
  ida := fun ctx' h => by
    rw [hl] at h
    cases h
  propias := fun q hq => by
    rw [hpt] at hq
    exact absurd hq id
  sinCodigo := fun q hq => by
    rw [hpt] at hq
    exact absurd hq id
  porEnviar := fun _ _ => hev
  justa := hj

/-- A step of the other threads of the kernel: only the requests change. -/
theorem inv_of_peticiones (hI : Inv s) (hl : s'.lugar = s.lugar) (hp : s'.proceso = s.proceso)
    (hc : s'.cpu = s.cpu) (hd : s'.despacho = s.despacho) (hca : s'.causa = s.causa)
    (hdev : s'.devueltos = s.devueltos)
    (hprop : ∀ pid, Punto.Corre pid s.cpu.punto → s.Propias pid → s'.Propias pid) : Inv s' where
  enCpu := by rw [hc, hl, hp]; exact hI.enCpu
  ida := by rw [hl, hp]; exact hI.ida
  propias := fun pid h => by
    rw [hc] at h
    exact hprop pid h (hI.propias pid h)
  sinCodigo := by rw [hc]; exact hI.sinCodigo
  porEnviar := by rw [hc, hca, hd]; exact hI.porEnviar
  justa := by
    unfold Justa
    rw [hdev]
    exact hI.justa

/-- A request that is made for the dispatch that the CPU runs. -/
theorem inv_evict (hI : Inv s) {motivo : OpCode} {origen : Option ℕ}
    (h : s.estado pid = .EXEC → Punto.Corre pid s.cpu.punto → origen = some s.despacho) :
    Inv (handlePlannerEvictProcess s pid motivo origen) := by
  unfold handlePlannerEvictProcess
  split_ifs with he
  · refine inv_of_peticiones hI rfl rfl rfl rfl rfl rfl fun q hq hP => ⟨fun m hm hpid hmot => ?_,
      hP.enCamino, hP.ranura⟩
    rcases List.mem_append.mp hm with hm | hm
    · exact hP.cola m hm hpid hmot
    · obtain rfl := List.mem_singleton.mp hm
      obtain rfl : pid = q := hpid
      exact h he hq
  · exact hI

theorem inv_vencer {i : ℕ} (hI : Inv s) (hC : Propia s (.vencer i))
    (h : paso rr tamanioPagina programas s (.vencer i) = some s') : Inv s' := by
  obtain ⟨t, ht, rfl⟩ := paso_vencer h
  unfold Propia at hC
  simp only [ht] at hC
  have hI' : Inv { s with temporizadores := s.temporizadores.eraseIdx i } :=
    inv_of_peticiones hI rfl rfl rfl rfl rfl rfl fun _ _ hP => ⟨hP.cola, hP.enCamino, hP.ranura⟩
  unfold watchQuantumRr
  split_ifs
  · exact inv_evict hI' fun he hc => congrArg some (hC he hc)
  · exact hI'

theorem inv_pedir {motivo : OpCode} (hI : Inv s)
    (h : paso rr tamanioPagina programas s (.pedir pid motivo) = some s') : Inv s' := by
  obtain rfl := Option.some.inj h
  refine inv_evict hI fun _ hc => ?_
  obtain ⟨hl, hp⟩ := hI.enCpu pid (enCpu_of_corre hc)
  exact if_pos ⟨hp, by rw [hl]; rfl⟩

theorem inv_mandar (hI : Inv s) (h : paso rr tamanioPagina programas s .mandar = some s') :
    Inv s' := by
  obtain ⟨m, ms, hi, rfl⟩ := paso_mandar h
  refine inv_of_peticiones hI rfl rfl rfl rfl rfl rfl fun q hq hP =>
    ⟨fun m' hm' => hP.cola m' (hi ▸ List.mem_cons_of_mem m hm'), fun m' hm' => ?_, hP.ranura⟩
  rcases List.mem_append.mp hm' with hm' | hm'
  · exact hP.enCamino m' hm'
  · obtain rfl := List.mem_singleton.mp hm'
    exact hP.cola m' (hi ▸ List.mem_cons_self)

theorem inv_llegada (hI : Inv s) (h : paso rr tamanioPagina programas s .llegada = some s') :
    Inv s' := by
  obtain ⟨m, ms, cpu, hi, hcpu, rfl⟩ := paso_llegada h
  obtain rfl := Option.some.inj hcpu
  refine ⟨hI.enCpu, hI.ida, fun q hq => ?_, hI.sinCodigo, hI.porEnviar, hI.justa⟩
  have hP := hI.propias q hq
  exact ⟨hP.cola, fun m' hm' => hP.enCamino m' (hi ▸ List.mem_cons_of_mem m hm'),
    fun hpid hmot => hP.enCamino m (hi ▸ List.mem_cons_self) hpid hmot⟩

theorem inv_recibir (hI : Inv s) (hC : Propia s .recibir)
    (h : paso rr tamanioPagina programas s .recibir = some s') : Inv s' := by
  obtain ⟨ctx, cpu, hl, hcpu, rfl⟩ := paso_recibir h
  obtain ⟨-, rfl⟩ := Interrupciones.paso_recibir hcpu
  unfold Propia at hC
  simp only [hl] at hC
  have hP : s.Propias ctx.pid := hC
  refine ⟨fun q hq => ⟨rfl, ?_⟩, fun ctx' h' => ?_, fun q hq => ?_, fun _ _ => rfl,
    fun ctx' h' => ?_, hI.justa⟩
  · obtain rfl : ctx.pid = q := Option.some.inj hq
    exact hI.ida ctx hl
  · cases h'
  · obtain rfl : ctx.pid = q := hq
    exact ⟨hP.cola, hP.enCamino, hP.ranura⟩
  · cases h'

theorem inv_ejecutar {marco : ℤ} {memoria : MemoriaPlana} (hI : Inv s)
    (h : paso rr tamanioPagina programas s (.ejecutar marco memoria) = some s') : Inv s' := by
  obtain ⟨cpu, hcpu, rfl⟩ := Option.map_eq_some_iff.mp h
  obtain ⟨ctx, ctx', memoria', hpt, hpt', hpid, -, hint, hcod⟩ := Interrupciones.paso_ejecutar hcpu
  have hcorre : Punto.Corre ctx.pid s.cpu.punto := by rw [hpt]; rfl
  have hP := hI.propias ctx.pid hcorre
  have hsin := hI.sinCodigo ctx.pid hcorre
  refine ⟨fun q hq => ?_, hI.ida, fun q hq => ?_, fun q hq => ?_, fun c hc => ?_, hI.justa⟩
  all_goals dsimp only at *
  · rw [hpt', Punto.enCpu, hpid] at hq
    exact hI.enCpu q (by rw [hpt]; exact hq)
  · rw [hpt'] at hq
    obtain rfl : ctx.pid = q := hpid.symm.trans hq
    exact ⟨hP.cola, hP.enCamino, by rw [hint]; exact hP.ranura⟩
  · rcases hcod with hcod | hcod
    · rw [hcod]
      exact hsin
    · exact hcod
  · rw [hpt'] at hc
    cases hc

/-- **An eviction comes from the slot**, and the slot has a request for this dispatch. -/
theorem inv_verificar (hI : Inv s)
    (h : paso rr tamanioPagina programas s .verificar = some s') : Inv s' := by
  obtain ⟨cpu, hcpu, rfl⟩ := Option.map_eq_some_iff.mp h
  obtain ⟨ctx, memoria, ctx', hpt, hpid, -, hint, hcod⟩ := Interrupciones.paso_verificar hcpu
  have hcorre : Punto.Corre ctx.pid s.cpu.punto := by rw [hpt]; rfl
  have hP := hI.propias ctx.pid hcorre
  have hsin := hI.sinCodigo ctx.pid hcorre
  have hen : Punto.enCpu s.cpu.punto = some ctx.pid := by rw [hpt]; rfl
  have hP' : ∀ q, ctx'.pid = q → Sistema.Propias { s with cpu := cpu, causa := s.origen } q := by
    rintro q rfl
    rw [hpid]
    exact ⟨hP.cola, hP.enCamino, by dsimp only; rw [hint]; exact hP.ranura⟩
  have hen' : ∀ q, ctx'.pid = q → s.lugar = .cpu ∧ s.proceso = some q := by
    rintro q rfl
    rw [hpid]
    exact hI.enCpu ctx.pid hen
  obtain ⟨hlugar, hproceso⟩ := hen' ctx'.pid rfl
  rcases hcod with ⟨hpt', hslot, hmot⟩ | ⟨hpt' | hpt', hsame, -⟩
  · refine inv_of_porEnviar hpt' hlugar hproceso (fun hev => ?_) hI.justa
    dsimp only at hev
    rw [hmot] at hev
    exact hP.ranura hslot hev
  · refine inv_of_porEnviar hpt' hlugar hproceso (fun hev => ?_) hI.justa
    dsimp only at hev
    rw [hsame, hsin] at hev
    exact absurd hev Bool.false_ne_true
  · refine ⟨fun q hq => ?_, hI.ida, fun q hq => ?_, fun q _ => ?_, fun c hc => ?_, hI.justa⟩
    all_goals dsimp only at *
    · rw [hpt'] at hq
      exact hen' q (Option.some.inj hq)
    · rw [hpt'] at hq
      exact hP' q hq
    · rw [hsame]
      exact hsin
    · rw [hpt'] at hc
      cases hc

theorem inv_enviar (hI : Inv s) (h : paso rr tamanioPagina programas s .enviar = some s') :
    Inv s' := by
  obtain ⟨ctx, cpu, hpt, hcpu, rfl⟩ := paso_enviar h
  obtain ⟨ctx', -, rfl⟩ := Interrupciones.paso_enviar hcpu
  refine inv_of_libre rfl (fun _ h' => by cases h') fun d hd hev => ?_
  rcases List.mem_append.mp hd with hd | hd
  · exact hI.justa d hd hev
  · obtain rfl := List.mem_singleton.mp hd
    exact hI.porEnviar ctx hpt hev

/-- The context is not in the CPU while the kernel has it. -/
theorem enCpu_none (hI : Inv s) (h : s.lugar ≠ .cpu) : Punto.enCpu s.cpu.punto = none := by
  cases he : Punto.enCpu s.cpu.punto with
  | none => rfl
  | some pid => exact absurd (hI.enCpu pid he).1 h

theorem inv_despachar {ctx : ExecContext} (hI : Inv s)
    (h : paso rr tamanioPagina programas s (.despachar ctx) = some s') : Inv s' := by
  obtain ⟨⟨hp, hl, -⟩, h⟩ := Option.ite_none_right_eq_some.mp h
  obtain rfl := Option.some.inj h
  have hlibre : Punto.enCpu s.cpu.punto = none := enCpu_none hI fun h' => by
    rw [h'] at hl
    exact absurd hl Bool.false_ne_true
  refine inv_of_libre hlibre (fun ctx' h' => ?_) hI.justa
  obtain rfl : ctx = ctx' := Lugar.ida.inj h'
  exact hp

theorem inv_planificar (hI : Inv s)
    (h : paso rr tamanioPagina programas s (.planificar pid) = some s') : Inv s' := by
  obtain ⟨hp, h⟩ := Option.ite_none_right_eq_some.mp h
  obtain rfl := Option.some.inj h
  refine inv_of_libre ?_ (fun ctx h' => ?_) hI.justa
  · cases he : Punto.enCpu s.cpu.punto with
    | none => rfl
    | some q => exact absurd ((hI.enCpu q he).2.symm.trans hp) (Option.some_ne_none q)
  · exact absurd ((hI.ida ctx h').symm.trans hp) (Option.some_ne_none ctx.pid)

theorem inv_atender {status : Status} (hI : Inv s)
    (h : paso rr tamanioPagina programas s (.atender status) = some s') : Inv s' := by
  obtain ⟨exitCode, pid, hl, -, rfl⟩ := paso_atender h
  have hlibre : Punto.enCpu s.cpu.punto = none := enCpu_none hI fun h' => by
    rw [hl] at h'
    cases h'
  exact inv_of_libre hlibre (fun _ h' => by cases h') hI.justa

theorem inv_salir (hI : Inv s) (h : paso rr tamanioPagina programas s .salir = some s') :
    Inv s' := by
  obtain ⟨hl, rfl⟩ := paso_salir h
  have hlibre : Punto.enCpu s.cpu.punto = none := enCpu_none hI fun h' => by
    rw [hl] at h'
    cases h'
  refine inv_of_libre hlibre (fun _ h' => ?_) hI.justa
  dsimp only at h'
  rw [hl] at h'
  cases h'

theorem inv_paso (s : Sistema) (a : Accion) (s' : Sistema) (hI : Inv s) (hC : Propia s a)
    (h : paso rr tamanioPagina programas s a = some s') : Inv s' := by
  cases a with
  | planificar pid => exact inv_planificar hI h
  | despachar ctx => exact inv_despachar hI h
  | recibir => exact inv_recibir hI hC h
  | ejecutar marco memoria => exact inv_ejecutar hI h
  | verificar => exact inv_verificar hI h
  | enviar => exact inv_enviar hI h
  | reiniciar =>
    obtain ⟨cpu, hcpu, rfl⟩ := Option.map_eq_some_iff.mp h
    obtain ⟨_, _, hpt, rfl⟩ := Interrupciones.paso_reiniciar hcpu
    exact inv_of_libre rfl hI.ida hI.justa
  | atender status => exact inv_atender hI h
  | salir => exact inv_salir hI h
  | cambiarEstado pid status =>
    unfold paso at h
    dsimp only at h
    split_ifs at h
    obtain rfl := Option.some.inj h
    exact inv_of_peticiones hI rfl rfl rfl rfl rfl rfl fun _ _ hP => ⟨hP.cola, hP.enCamino, hP.ranura⟩
  | vencer i => exact inv_vencer hI hC h
  | pedir pid motivo => exact inv_pedir hI h
  | mandar => exact inv_mandar hI h
  | llegada => exact inv_llegada hI h

theorem inv_inicial (estado : ℤ → Status) (cpu : Globales) : Inv (inicial estado cpu) :=
  inv_of_libre rfl (fun _ h => by cases h) fun _ hd => absurd hd List.not_mem_nil

/-- **An eviction ends the dispatch that it was made for**, in a run in which no request outlives its
own. -/
theorem justa_of_propia {estado : ℤ → Status} {cpu : Globales} {as : List Accion}
    (hA : Along (paso rr tamanioPagina programas) Propia (inicial estado cpu) as)
    (h : exec (paso rr tamanioPagina programas) (inicial estado cpu) as = some s) : Justa s :=
  (exec_invariant inv_paso (inv_inicial estado cpu) hA h).justa

/-- The process 1 sends a signal, and goes on. -/
def senalar (_ : ℤ) : List Instruccion := [.SIGNAL "R", .SET 'A' 1]

/-- Its quantum ends in its first dispatch. -/
def enSuRafaga : List Accion :=
  [.planificar 1, .despachar contexto, .recibir, .vencer 0, .mandar, .llegada,
    .ejecutar 0 ⟨fun _ => 0, []⟩, .verificar, .enviar]

theorem justa_of_propia_enSuRafaga : ∃ s, exec (paso true 16 fun _ => [.SET 'A' 1])
    (inicial (fun _ => .READY) cpuLibre) enSuRafaga = some s ∧ Justa s := by
  obtain ⟨s, hs⟩ := Option.isSome_iff_exists.mp (by decide +kernel : (exec
    (paso true 16 fun _ => [.SET 'A' 1]) (inicial (fun _ => .READY) cpuLibre) enSuRafaga).isSome = true)
  exact ⟨s, hs, justa_of_propia (by decide +kernel) hs⟩

/-- The process comes back for a `SIGNAL` and is dispatched again; then the timer of its first dispatch
expires, and ends the second. -/
def enLaSiguiente : List Accion :=
  [.planificar 1, .despachar contexto, .recibir, .ejecutar 0 ⟨fun _ => 0, []⟩, .verificar, .enviar,
    .reiniciar, .atender .EXEC, .despachar { contexto with programCounter := 1 }, .recibir, .vencer 0,
    .mandar, .llegada, .ejecutar 0 ⟨fun _ => 0, []⟩, .verificar, .enviar]

theorem justa_enLaSiguiente : ∃ s, exec (paso true 16 senalar) (inicial (fun _ => .READY) cpuLibre)
    enLaSiguiente = some s ∧ ¬ Justa s :=
  ⟨_, rfl, by decide +kernel⟩

end OperatingSystem.Cpu.Desalojos
