import OperatingSystem.Kernel.Terminal
import Mathlib.Data.List.Count
import Mathlib.Data.List.Perm.Subperm

/-! # Who is in the ready queue

The threads of `Kernel.Hilos` without the console, with the queues that decide whom a handler may wake
up: `bloqueados` are the pids in the `blocked_pids` of the resources, `pendientes` those of the
processes with a `pending_file`. Only the short-term planner uses these queues. It puts a process into
one of them when it blocks it for a resource or a file (`WAIT`, `F_OPEN`), and `SIGNAL`, `F_CLOSE` and
the end of a process make ready only processes that they take out of one.

A process has status `READY` exactly when it is in the queue, once (`EnCola`), whenever no thread is
in `process_ready` or between the pop and `process_execute` (`Quieto`): this is proved in
`Kernel.Adelantos` for every run in which `process_execute` does not overtake a `process_ready`
(`EnOrden`). What is shown here is what a step does to a single process: what its status, its places
in the queue and the tasks of the threads with it (`vista`) become. -/

namespace OperatingSystem.Kernel.ColaReady

open OperatingSystem.Lib.Run
open OperatingSystem.Kernel.Proceso (Status OpCode)
open OperatingSystem.Kernel.Hilos hiding atender
open OperatingSystem.Kernel.Terminal (cpu_eq)

structure Sistema extends Estado where
  bloqueados : List ℤ
  pendientes : List ℤ

def inicial : Sistema := { estadoInicial with bloqueados := [], pendientes := [] }

/-- The process that a release takes out of `blocked_pids`. -/
def despertados : Liberacion → List ℤ
  | .despierta pid => [pid]
  | .nadie | .error => []

/-- Whom the handler takes out of `blocked_pids`. -/
def salenBloqueados : Motivo → List ℤ
  | .signal libera => despertados libera
  | .exit libera => libera.flatMap despertados
  | _ => []

/-- Whose `pending_file` the handler opens. -/
def salenPendientes : Motivo → List ℤ
  | .fClose wakes => wakes
  | _ => []

/-- Whom the handler puts into `blocked_pids`. -/
def entranBloqueados (pid : ℤ) : Motivo → List ℤ
  | .waitOcupado => [pid]
  | _ => []

/-- Who gets a `pending_file`. -/
def entranPendientes (pid : ℤ) : Motivo → List ℤ
  | .fOpen false => [pid]
  | _ => []

/-- A step of a thread; the console does nothing. -/
def atender (s : Sistema) : Accion → Option Sistema
  | .cpu motivo =>
    match s.hilos STP with
    | .cpuExecute pid :: _ =>
      if (salenBloqueados motivo).Subperm s.bloqueados ∧
          (salenPendientes motivo).Subperm s.pendientes then
        (Hilos.atender s.toEstado (.cpu motivo)).map fun e =>
          { toEstado := e
            bloqueados := s.bloqueados.diff (salenBloqueados motivo) ++ entranBloqueados pid motivo
            pendientes := s.pendientes.diff (salenPendientes motivo) ++ entranPendientes pid motivo }
      else none
    | _ => none
  | .finalizar _ _ => none
  | a => (Hilos.atender s.toEstado a).map fun e => { s with toEstado := e }

/-- No thread is inside `process_ready`, and the short-term planner not between the pop and
`process_execute`. -/
def Quieto (s : Estado) : Prop :=
  ∀ hilo pid, (s.hilos hilo).head? ≠ some (.changeStatus pid .READY) ∧
    (s.hilos hilo).head? ≠ some (.changeStatus pid .EXEC)

/-- The live processes that are `READY` are those of the queue, and each is there once. -/
def EnCola (s : Estado) : Prop :=
  ∀ p ∈ s.running, (s.currentStatus p = .READY ↔ p ∈ s.ready) ∧ s.ready.count p ≤ 1

/-- `process_execute` does not write `EXEC` while a thread is inside `process_ready` of the process. -/
def EnOrden (s : Sistema) : Accion → Prop
  | .paso hilo => ∀ p, (s.hilos hilo).head? = some (.changeStatus p .EXEC) →
      ∀ j, (s.hilos j).head? ≠ some (.changeStatus p .READY)
  | _ => True

/-! ### One process -/

/-- The process that the instruction is about, if it does anything to it. -/
def deQuien : Instr → Option ℤ
  | .processOnReady pid | .removeProcess pid | .changeStatus pid _ | .exitProcess pid
  | .assignResource pid | .assignOpenFile pid | .onEvicted pid | .cpuExecute pid
  | .simulateProcessBlock pid | .requestMemoryToLoadPage pid _ | .findForced pid _
  | .forceExit pid _ => some pid
  | .postReady | .plannerEvict _ _ | .whileExec _ | .waitPageFault | .postPageFault => none

/-- What the program has to do with the process. -/
def tareas (p : ℤ) (prog : List Instr) : List Instr := prog.filter (deQuien · = some p)

/-- What the state is for one process. -/
@[ext] structure Vista where
  status : Status
  cola : ℕ
  hilos : ℕ → List Instr

def vista (s : Estado) (p : ℤ) : Vista where
  status := s.currentStatus p
  cola := s.ready.count p
  hilos := fun hilo => tareas p (s.hilos hilo)

def Sistema.espera (s : Sistema) (p : ℤ) : ℕ := s.bloqueados.count p + s.pendientes.count p

/-- The thread has `prog` left to do with the process. -/
def Vista.sigue (v : Vista) (hilo : ℕ) (prog : List Instr) : Vista :=
  { v with hilos := Function.update v.hilos hilo prog }

/-- `process_ready` -/
def entrar (p : ℤ) : List Instr := [.processOnReady p, .changeStatus p .READY]

/-- The instruction makes the process ready, or does nothing. -/
def Despierta (p : ℤ) : Instr → Prop
  | .assignResource pid | .assignOpenFile pid | .onEvicted pid => pid = p
  | _ => False

/-- The instruction detaches a thread, which may make the process ready. -/
def Lanza (p : ℤ) : Instr → Prop
  | .simulateProcessBlock pid | .requestMemoryToLoadPage pid _ => pid = p
  | _ => False

/-- What an instruction about the process does to it, when the thread has `resto` left. -/
inductive Hace (p : ℤ) (v : Vista) (hilo : ℕ) (resto : List Instr) : Instr → Vista → Prop
  | processOnReady :
      Hace p v hilo resto (.processOnReady p) { v.sigue hilo resto with cola := v.cola + 1 }
  | removeProcess :
      Hace p v hilo resto (.removeProcess p) { v.sigue hilo resto with cola := v.cola - 1 }
  | changeStatus (st : Status) :
      Hace p v hilo resto (.changeStatus p st) { v.sigue hilo resto with status := st }
  | exitProcess :
      Hace p v hilo resto (.exitProcess p) (v.sigue hilo (.changeStatus p .EXIT :: resto))
  | despierta {instr : Instr} : Despierta p instr →
      Hace p v hilo resto instr (v.sigue hilo (entrar p ++ resto))
  | sinEfecto {instr : Instr} : Despierta p instr → Hace p v hilo resto instr (v.sigue hilo resto)
  | lanza {instr : Instr} {nuevo : ℕ} {prog : List Instr} : Lanza p instr → nuevo ≠ hilo →
      nuevo ≠ STP → v.hilos nuevo = [] → prog = entrar p ∨ prog = [] →
      Hace p v hilo resto instr ((v.sigue hilo resto).sigue nuevo prog)

section

variable {s s' : Estado} {instr : Instr} {prog resto : List Instr} {p q : ℤ} {hilo : ℕ}

@[simp] theorem tareas_nil (p : ℤ) : tareas p [] = [] := rfl

theorem tareas_cons_of_eq (h : deQuien instr = some p) :
    tareas p (instr :: prog) = instr :: tareas p prog := by
  unfold tareas
  rw [List.filter_cons_of_pos (by simpa using h)]

theorem tareas_cons_of_ne (h : deQuien instr ≠ some p) :
    tareas p (instr :: prog) = tareas p prog := by
  unfold tareas
  rw [List.filter_cons_of_neg (by simpa using h)]

@[simp] theorem tareas_append (p : ℤ) (l₁ l₂ : List Instr) :
    tareas p (l₁ ++ l₂) = tareas p l₁ ++ tareas p l₂ := by
  unfold tareas
  exact List.filter_append ..

theorem mem_tareas : instr ∈ tareas p prog ↔ instr ∈ prog ∧ deQuien instr = some p := by
  unfold tareas
  simp

theorem tareas_eq_nil (h : ∀ ins ∈ prog, deQuien ins ≠ some p) : tareas p prog = [] := by
  rw [List.eq_nil_iff_forall_not_mem]
  intro ins hin
  exact h ins (mem_tareas.mp hin).1 (mem_tareas.mp hin).2

@[simp] theorem tareas_readyProcess (p : ℤ) : tareas p (readyProcess p) = entrar p := by
  simp [tareas, readyProcess, entrar, deQuien]

theorem tareas_readyProcess_of_ne (h : q ≠ p) : tareas p (readyProcess q) = [] := by
  simp [tareas, readyProcess, deQuien, h]

@[simp] theorem sigue_sigue (v : Vista) (hilo : ℕ) (l₁ l₂ : List Instr) :
    (v.sigue hilo l₁).sigue hilo l₂ = v.sigue hilo l₂ := by
  unfold Vista.sigue
  rw [Function.update_idem]

theorem sigue_self (v : Vista) (hilo : ℕ) : v.sigue hilo (v.hilos hilo) = v := by
  unfold Vista.sigue
  rw [Function.update_eq_self]

theorem sigue_comm (v : Vista) {j k : ℕ} (h : j ≠ k) (l₁ l₂ : List Instr) :
    (v.sigue j l₁).sigue k l₂ = (v.sigue k l₂).sigue j l₁ := by
  unfold Vista.sigue
  rw [Function.update_comm h]

theorem vista_continuar (s : Estado) (hilo : ℕ) (prog : List Instr) (p : ℤ) :
    vista (continuar s hilo prog) p = (vista s p).sigue hilo (tareas p prog) := by
  unfold vista Vista.sigue continuar
  exact congrArg _ (Function.comp_update (tareas p) s.hilos hilo prog)

theorem vista_runInDetachedThread (s : Estado) (prog : List Instr) (p : ℤ) :
    vista (runInDetachedThread s prog) p = (vista s p).sigue s.cantHilos (tareas p prog) :=
  vista_continuar s s.cantHilos prog p

/-- A thread gets a new program. -/
theorem vista_programa {l : List Instr} {cola : ℕ}
    (hhilos : s'.hilos = Function.update s.hilos hilo prog)
    (hst : s'.currentStatus p = s.currentStatus p) (hcola : s'.ready.count p = cola)
    (hl : tareas p prog = l) : vista s' p = { (vista s p).sigue hilo l with cola := cola } := by
  refine Vista.ext hst hcola ?_
  rw [← hl]
  change (fun j => tareas p (s'.hilos j)) = _
  rw [hhilos]
  exact Function.comp_update (tareas p) s.hilos hilo prog

/-- The thread neither had nor has anything to do with the process. -/
theorem vista_programa_otro (hhilos : s'.hilos = Function.update s.hilos hilo prog)
    (hst : s'.currentStatus p = s.currentStatus p) (hcola : s'.ready.count p = s.ready.count p)
    (h : tareas p (s.hilos hilo) = []) (hl : tareas p prog = []) : vista s' p = vista s p := by
  have h' : (vista s p).hilos hilo = [] := h
  rw [vista_programa hhilos hst hcola (hl.trans h'.symm), sigue_self]
  rfl

/-- The tasks of a process that the first instruction is not about. -/
theorem vista_hilos_of_ne (hh : s.hilos hilo = instr :: resto) (hp : deQuien instr ≠ some p) :
    (vista s p).sigue hilo (tareas p resto) = vista s p := by
  have h : tareas p resto = (vista s p).hilos hilo := by
    change _ = tareas p (s.hilos hilo)
    rw [hh, tareas_cons_of_ne hp]
  rw [h, sigue_self]

/-- The short-term planner goes to its queue when it is done with the process that it had. -/
theorem planificar_libre {pid : Option ℤ} (hs : Hilos.atender s (.planificar pid) = some s') :
    s.hilos STP = [] := by
  by_contra h
  simp only [Hilos.atender, h, false_and, if_false] at hs
  cases hs

/-- What a handler does to the queues. -/
theorem cpu_colas {s s' : Sistema} {motivo : Motivo} (hs : atender s (.cpu motivo) = some s') :
    ∃ pid resto, s.hilos STP = .cpuExecute pid :: resto ∧
      (salenBloqueados motivo).Subperm s.bloqueados ∧
      (salenPendientes motivo).Subperm s.pendientes ∧
      s' = { toEstado := continuar s.toEstado STP
               (handleCpuEviction pid motivo ++ .whileExec pid :: resto)
             bloqueados := s.bloqueados.diff (salenBloqueados motivo) ++ entranBloqueados pid motivo
             pendientes := s.pendientes.diff (salenPendientes motivo) ++
               entranPendientes pid motivo } := by
  simp only [atender] at hs
  split at hs
  case h_1 pid resto hh =>
    obtain ⟨⟨hB, hP⟩, hs⟩ := Option.ite_none_right_eq_some.mp hs
    obtain ⟨e, he, rfl⟩ := Option.map_eq_some_iff.mp hs
    obtain ⟨pid', resto', hh', rfl⟩ := cpu_eq he
    obtain ⟨hpid, rfl⟩ := List.cons.inj (hh.symm.trans hh')
    obtain rfl := Instr.cpuExecute.inj hpid
    exact ⟨pid, resto, hh, hB, hP, rfl⟩
  case h_2 => cases hs

/-- A process is woken up as often as it was taken out of a queue. -/
theorem espera_colas {s : Sistema} {pid : ℤ} {motivo : Motivo} {e : Estado} {b c : List ℤ}
    (hb : b = s.bloqueados.diff (salenBloqueados motivo) ++ entranBloqueados pid motivo)
    (hc : c = s.pendientes.diff (salenPendientes motivo) ++ entranPendientes pid motivo) (p : ℤ) :
    Sistema.espera { toEstado := e, bloqueados := b, pendientes := c } p =
      (s.bloqueados.count p - (salenBloqueados motivo).count p) +
          (entranBloqueados pid motivo).count p +
        ((s.pendientes.count p - (salenPendientes motivo).count p) +
          (entranPendientes pid motivo).count p) := by
  rw [hb, hc]
  unfold Sistema.espera
  rw [List.count_append, List.count_append, List.count_diff, List.count_diff]

/-! ### One instruction -/

/-- What the thread does next because of an instruction. -/
inductive Sigue : Instr → List Instr → Prop
  | nada {instr : Instr} : Sigue instr []
  | despierta {instr : Instr} {pid : ℤ} : Despierta pid instr → Sigue instr (readyProcess pid)
  | exitProcess {pid : ℤ} : Sigue (.exitProcess pid) [.changeStatus pid .EXIT]
  | whileExec {pid : ℤ} : Sigue (.whileExec pid) [.cpuExecute pid]

/-- The console is not at work. -/
def SinConsola (instr : Instr) : Prop :=
  ∀ pid libera, instr ≠ .findForced pid libera ∧ instr ≠ .forceExit pid libera

/-- The program of a detached thread. -/
inductive Lanzado (pid : ℤ) : List Instr → Prop
  | simulateProcessBlock : Lanzado pid (readyProcess pid)
  | requestMemoryToLoadPage (result : Bool) :
      Lanzado pid ((if result then readyProcess pid else []) ++ [.postPageFault])

theorem ejecutar_sigue {r : Estado × List Instr} (hc : SinConsola instr)
    (hr : ejecutar s instr = some r) : Sigue instr r.2 := by
  cases instr with
  | cpuExecute pid => cases hr
  | findForced pid libera => exact absurd rfl (hc pid libera).1
  | forceExit pid libera => exact absurd rfl (hc pid libera).2
  | assignResource pid =>
    obtain rfl := Option.some.inj hr
    dsimp only
    split_ifs
    · exact .despierta rfl
    · exact .nada
  | onEvicted pid =>
    obtain rfl := Option.some.inj hr
    dsimp only
    split_ifs
    · exact .despierta rfl
    · exact .nada
  | assignOpenFile pid =>
    obtain ⟨-, hr⟩ := Option.ite_none_right_eq_some.mp hr
    obtain rfl := Option.some.inj hr
    exact .despierta rfl
  | whileExec pid =>
    obtain rfl := Option.some.inj hr
    dsimp only
    split_ifs
    · exact .whileExec
    · exact .nada
  | exitProcess pid =>
    obtain rfl := Option.some.inj hr
    exact .exitProcess
  | waitPageFault =>
    obtain ⟨-, hr⟩ := Option.ite_none_right_eq_some.mp hr
    obtain rfl := Option.some.inj hr
    exact .nada
  | plannerEvict pid reason =>
    simp only [ejecutar] at hr
    split_ifs at hr
    all_goals
      obtain rfl := Option.some.inj hr
      exact .nada
  | _ =>
    obtain rfl := Option.some.inj hr
    exact .nada

/-- The threads after an instruction. -/
theorem ejecutar_hilos {r : Estado × List Instr} (hr : ejecutar s instr = some r) :
    r.1.lastPid = s.lastPid ∧
      (r.1.hilos = s.hilos ∧ r.1.cantHilos = s.cantHilos ∨
        ∃ pid prog, Lanza pid instr ∧ Lanzado pid prog ∧ r = (runInDetachedThread s prog, [])) := by
  cases instr with
  | cpuExecute pid => cases hr
  | simulateProcessBlock pid =>
    obtain rfl := Option.some.inj hr
    exact ⟨rfl, Or.inr ⟨pid, _, rfl, .simulateProcessBlock, rfl⟩⟩
  | requestMemoryToLoadPage pid result =>
    obtain rfl := Option.some.inj hr
    exact ⟨rfl, Or.inr ⟨pid, _, rfl, .requestMemoryToLoadPage result, rfl⟩⟩
  | assignOpenFile | waitPageFault =>
    obtain ⟨-, hr⟩ := Option.ite_none_right_eq_some.mp hr
    obtain rfl := Option.some.inj hr
    exact ⟨rfl, Or.inl ⟨rfl, rfl⟩⟩
  | plannerEvict | forceExit =>
    simp only [ejecutar] at hr
    split_ifs at hr
    all_goals
      obtain rfl := Option.some.inj hr
      exact ⟨rfl, Or.inl ⟨rfl, rfl⟩⟩
  | _ =>
    obtain rfl := Option.some.inj hr
    exact ⟨rfl, Or.inl ⟨rfl, rfl⟩⟩

/-- The other threads go on with what they had, and there may be a new one. -/
theorem paso_hilos {r : Estado × List Instr}
    (hr : ejecutar (continuar s hilo resto) instr = some r) :
    r.1.lastPid = s.lastPid ∧ s.cantHilos ≤ r.1.cantHilos ∧ ∀ j ≠ hilo, r.1.hilos j = s.hilos j ∨
      j < r.1.cantHilos ∧ ∃ pid, Lanzado pid (r.1.hilos j) := by
  obtain ⟨hlast, ⟨hhilos, hcant⟩ | ⟨pid, prog, -, hprog, rfl⟩⟩ := ejecutar_hilos hr
  · refine ⟨hlast, hcant.ge, fun j hj => Or.inl ?_⟩
    rw [hhilos]
    exact Function.update_of_ne hj ..
  · refine ⟨hlast, Nat.le_succ _, fun j hj => ?_⟩
    by_cases hcant : j = s.cantHilos
    · refine Or.inr ⟨hcant ▸ Nat.lt_succ_self _, pid, ?_⟩
      have h : (runInDetachedThread (continuar s hilo resto) prog).hilos j = prog := by
        rw [hcant]
        exact Function.update_self ..
      rw [h]
      exact hprog
    · exact Or.inl ((Function.update_of_ne hcant ..).trans (Function.update_of_ne hj ..))

theorem Despierta.deQuien (h : Despierta p instr) : deQuien instr = some p := by
  cases instr <;> simp_all [Despierta, ColaReady.deQuien]

theorem Lanza.deQuien (h : Lanza p instr) : deQuien instr = some p := by
  cases instr <;> simp_all [Lanza, ColaReady.deQuien]

theorem Sigue.tareas_eq_nil (h : Sigue instr prog) (hp : deQuien instr ≠ some p)
    (hw : instr ≠ .whileExec p) : tareas p prog = [] := by
  cases h with
  | nada => rfl
  | @despierta _ pid hd => exact tareas_readyProcess_of_ne fun h => hp (h ▸ hd.deQuien)
  | @exitProcess pid =>
    have hne : deQuien (.changeStatus pid .EXIT) ≠ some p := hp
    rw [tareas_cons_of_ne hne, tareas_nil]
  | @whileExec pid =>
    have hne : deQuien (.cpuExecute pid) ≠ some p := fun h => hw (congrArg _ (Option.some.inj h))
    rw [tareas_cons_of_ne hne, tareas_nil]

theorem Lanzado.tareas_eq_nil {pid : ℤ} (h : Lanzado pid prog) (hp : pid ≠ p) :
    tareas p prog = [] := by
  cases h with
  | simulateProcessBlock => exact tareas_readyProcess_of_ne hp
  | requestMemoryToLoadPage result =>
    cases result
    · rfl
    · rw [tareas_append, if_pos rfl, tareas_readyProcess_of_ne hp]
      rfl

theorem Lanzado.tareas_self (h : Lanzado p prog) : tareas p prog = entrar p ∨ tareas p prog = [] := by
  cases h with
  | simulateProcessBlock => exact Or.inl (tareas_readyProcess p)
  | requestMemoryToLoadPage result =>
    cases result
    · exact Or.inr rfl
    · left
      rw [tareas_append, if_pos rfl, tareas_readyProcess]
      rfl

/-- An instruction about another process changes neither the status nor the places in the queue. -/
theorem ejecutar_otro {r : Estado × List Instr} (hr : ejecutar s instr = some r)
    (hp : deQuien instr ≠ some p) :
    r.1.currentStatus p = s.currentStatus p ∧ r.1.ready.count p = s.ready.count p := by
  cases instr with
  | cpuExecute pid => cases hr
  | processOnReady pid =>
    obtain rfl := Option.some.inj hr
    have hne : pid ≠ p := fun h => hp (congrArg some h)
    exact ⟨rfl, by simp [List.count_append, hne]⟩
  | removeProcess pid =>
    obtain rfl := Option.some.inj hr
    exact ⟨rfl, List.count_erase_of_ne fun h => hp (congrArg some h.symm)⟩
  | changeStatus pid st =>
    obtain rfl := Option.some.inj hr
    exact ⟨Function.update_of_ne (fun h => hp (congrArg some h.symm)) .., rfl⟩
  | assignOpenFile | waitPageFault =>
    obtain ⟨-, hr⟩ := Option.ite_none_right_eq_some.mp hr
    obtain rfl := Option.some.inj hr
    exact ⟨rfl, rfl⟩
  | plannerEvict | forceExit =>
    simp only [ejecutar] at hr
    split_ifs at hr
    all_goals
      obtain rfl := Option.some.inj hr
      exact ⟨rfl, rfl⟩
  | _ =>
    obtain rfl := Option.some.inj hr
    exact ⟨rfl, rfl⟩

/-- The next detached thread has nothing to do yet. -/
theorem vista_cantHilos (p : ℤ) (resto : List Instr) (hlibre : s.hilos s.cantHilos = [])
    (hne : s.cantHilos ≠ hilo) : (vista (continuar s hilo resto) p).hilos s.cantHilos = [] := by
  rw [vista_continuar]
  refine (Function.update_of_ne hne ..).trans ?_
  change tareas p (s.hilos s.cantHilos) = []
  rw [hlibre, tareas_nil]

/-- The other process sees nothing of the step, unless it is about to go to the CPU. -/
theorem vista_paso_otro {r : Estado × List Instr} (hlibre : s.hilos s.cantHilos = [])
    (hh : s.hilos hilo = instr :: resto) (hr : ejecutar (continuar s hilo resto) instr = some r)
    (hp : deQuien instr ≠ some p) (hw : tareas p r.2 = []) :
    vista (continuar r.1 hilo (r.2 ++ resto)) p = vista s p := by
  have hne : s.cantHilos ≠ hilo := by
    rintro rfl
    rw [hlibre] at hh
    cases hh
  obtain ⟨hst, hcola⟩ := ejecutar_otro hr hp
  have hv : vista r.1 p = (vista s p).sigue hilo (tareas p resto) := by
    rw [← vista_continuar]
    obtain ⟨-, ⟨hhilos, -⟩ | ⟨pid, prog, hl, hprog, rfl⟩⟩ := ejecutar_hilos hr
    · ext1
      · exact hst
      · exact hcola
      · unfold vista
        rw [hhilos]
    · have hpid : pid ≠ p := fun h => hp (h ▸ hl.deQuien)
      rw [vista_runInDetachedThread, hprog.tareas_eq_nil hpid]
      have h := vista_cantHilos p resto hlibre hne
      exact h ▸ sigue_self ..
  rw [vista_continuar, hv, sigue_sigue, tareas_append, hw, List.nil_append, vista_hilos_of_ne hh hp]

/-- A step that detaches no thread. -/
theorem Hace.vista_mismos {e : Estado} {l : List Instr} {st : Status} {cola : ℕ}
    (h : Hace p (vista s p) hilo (tareas p resto) instr
      { (vista s p).sigue hilo l with status := st, cola := cola })
    (he : e.hilos = (continuar s hilo resto).hilos) (hst : e.currentStatus p = st)
    (hcola : e.ready.count p = cola) (hl : tareas p prog = l) :
    Hace p (vista s p) hilo (tareas p resto) instr (vista (continuar e hilo prog) p) := by
  have hv : vista e p = { (vista s p).sigue hilo (tareas p resto) with
      status := st, cola := cola } := by
    rw [← vista_continuar, ← hst, ← hcola]
    unfold vista
    rw [he]
  have hv' : vista (continuar e hilo prog) p =
      { (vista s p).sigue hilo l with status := st, cola := cola } := by
    rw [vista_continuar, hv, hl]
    exact Vista.ext rfl rfl (Function.update_idem ..)
  rw [hv']
  exact h

/-- A thread is detached. -/
theorem Hace.vista_lanza (hlibre : s.hilos s.cantHilos = []) (hstp : s.cantHilos ≠ STP)
    (hne : s.cantHilos ≠ hilo) (hl : Lanza p instr) (hprog : Lanzado p prog) :
    Hace p (vista s p) hilo (tareas p resto) instr
      (vista (continuar (runInDetachedThread (continuar s hilo resto) prog) hilo resto) p) := by
  have hcomm := sigue_comm ((vista s p).sigue hilo (tareas p resto)) hne (tareas p prog)
    (tareas p resto)
  rw [vista_continuar, vista_runInDetachedThread, vista_continuar]
  refine hcomm ▸ ?_
  rw [sigue_sigue]
  refine .lanza hl hne hstp ?_ hprog.tareas_self
  change tareas p (s.hilos s.cantHilos) = []
  rw [hlibre, tareas_nil]

/-- A process is made ready, or not. -/
theorem Hace.vista_despierta (hd : Despierta p instr) (hprog : prog = readyProcess p ∨ prog = []) :
    Hace p (vista s p) hilo (tareas p resto) instr
      (vista (continuar (continuar s hilo resto) hilo (prog ++ resto)) p) := by
  rw [vista_continuar, vista_continuar, sigue_sigue, tareas_append]
  rcases hprog with rfl | rfl
  · rw [tareas_readyProcess]
    exact .despierta hd
  · exact .sinEfecto hd

/-- The process that an instruction is about. -/
theorem vista_paso_hace {r : Estado × List Instr} (hlibre : s.hilos s.cantHilos = [])
    (hstp : s.cantHilos ≠ STP) (hh : s.hilos hilo = instr :: resto)
    (hr : ejecutar (continuar s hilo resto) instr = some r) (hc : SinConsola instr)
    (hp : deQuien instr = some p) :
    Hace p (vista s p) hilo (tareas p resto) instr
      (vista (continuar r.1 hilo (r.2 ++ resto)) p) := by
  have hne : s.cantHilos ≠ hilo := by
    rintro rfl
    rw [hlibre] at hh
    cases hh
  cases instr with
  | postReady | plannerEvict | whileExec | waitPageFault | postPageFault => cases hp
  | cpuExecute => cases hr
  | findForced pid libera => exact absurd rfl (hc pid libera).1
  | forceExit pid libera => exact absurd rfl (hc pid libera).2
  | processOnReady pid =>
    obtain rfl := Option.some.inj hp
    obtain rfl := Option.some.inj hr
    have hcola : (s.ready ++ [pid]).count pid = (vista s pid).cola + 1 := by simp [vista]
    exact Hace.vista_mismos .processOnReady rfl rfl hcola rfl
  | removeProcess pid =>
    obtain rfl := Option.some.inj hp
    obtain rfl := Option.some.inj hr
    exact Hace.vista_mismos .removeProcess rfl rfl List.count_erase_self rfl
  | changeStatus pid st =>
    obtain rfl := Option.some.inj hp
    obtain rfl := Option.some.inj hr
    exact Hace.vista_mismos (.changeStatus st) rfl (Function.update_self ..) rfl rfl
  | exitProcess pid =>
    obtain rfl := Option.some.inj hp
    obtain rfl := Option.some.inj hr
    exact Hace.vista_mismos .exitProcess rfl rfl rfl (tareas_cons_of_eq rfl)
  | assignResource pid =>
    obtain rfl := Option.some.inj hp
    obtain rfl := Option.some.inj hr
    exact .vista_despierta rfl (ite_eq_or_eq ..)
  | assignOpenFile pid =>
    obtain rfl := Option.some.inj hp
    obtain ⟨-, hr⟩ := Option.ite_none_right_eq_some.mp hr
    obtain rfl := Option.some.inj hr
    exact .vista_despierta rfl (Or.inl rfl)
  | onEvicted pid =>
    obtain rfl := Option.some.inj hp
    obtain rfl := Option.some.inj hr
    exact .vista_despierta rfl (ite_eq_or_eq ..)
  | simulateProcessBlock pid =>
    obtain rfl := Option.some.inj hp
    obtain rfl := Option.some.inj hr
    exact .vista_lanza hlibre hstp hne rfl .simulateProcessBlock
  | requestMemoryToLoadPage pid result =>
    obtain rfl := Option.some.inj hp
    obtain rfl := Option.some.inj hr
    exact .vista_lanza hlibre hstp hne rfl (.requestMemoryToLoadPage result)

/-! ### What an instruction did -/

variable {v v' : Vista} {st : Status}

theorem Hace.changeStatus_eq (h : Hace p v hilo resto (.changeStatus p st) v') :
    v' = { v.sigue hilo resto with status := st } := by
  cases h with
  | changeStatus => rfl
  | despierta hd | sinEfecto hd => exact hd.elim
  | lanza hl => exact hl.elim

theorem Hace.processOnReady_eq (h : Hace p v hilo resto (.processOnReady p) v') :
    v' = { v.sigue hilo resto with cola := v.cola + 1 } := by
  cases h with
  | processOnReady => rfl
  | despierta hd | sinEfecto hd => exact hd.elim
  | lanza hl => exact hl.elim

theorem Hace.despierta_eq (h : Hace p v hilo resto instr v') (hd : Despierta p instr) :
    v' = v.sigue hilo (entrar p ++ resto) ∨ v' = v.sigue hilo resto := by
  cases h with
  | despierta => exact Or.inl rfl
  | sinEfecto => exact Or.inr rfl
  | lanza hl =>
    cases instr <;> first | exact hd.elim | exact hl.elim
  | _ => exact hd.elim

theorem Hace.lanza_eq (h : Hace p v hilo resto instr v') (hl : Lanza p instr) :
    ∃ nuevo prog, nuevo ≠ hilo ∧ nuevo ≠ STP ∧ v.hilos nuevo = [] ∧ (prog = entrar p ∨ prog = []) ∧
      v' = (v.sigue hilo resto).sigue nuevo prog := by
  cases h with
  | lanza _ hne hstp hnil hprog => exact ⟨_, _, hne, hstp, hnil, hprog, rfl⟩
  | despierta hd | sinEfecto hd =>
    cases instr <;> first | exact hd.elim | exact hl.elim
  | _ => exact hl.elim

end

end OperatingSystem.Kernel.ColaReady
