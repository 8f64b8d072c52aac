import OperatingSystem.Kernel.Fases
import OperatingSystem.Memoria.Lugares
import OperatingSystem.Memoria.Pedidos

/-! # Page loads that fail (`request_memory_to_load_page`, `cargar_en_memoria`)

After a page fault a detached thread asks the memory for the page with `LOAD_FRAME`. Without a table of
the process, or without a frame and a page to replace, the answer is `-1`: then the thread does nothing
about the process. It posts `sem_page_fault` in any case.

Nothing changes in the memory, but without a page to replace it keeps `operaciones_bloqueantes_mutex`,
and then serves no more requests that take it (`atascada_siempre`). And the process that waits for the
page (`EnEspera`) stays blocked, for ever (`bloqueado_siempre`), unless the console ends it: every step of
the kernel keeps the wait, and only `FINALIZAR_PROCESO` puts an end to it (`enEspera_atender`).
`continua_iff` is when neither happens. -/

namespace OperatingSystem.Kernel.Cargas

open OperatingSystem.Lib.Dictionary OperatingSystem.Lib.Run
open OperatingSystem.Kernel.Proceso (Status)
open OperatingSystem.Kernel.Hilos
open OperatingSystem.Kernel.Terminal (paso_eq cpu_eq planificar_eq desalojar_eq)
open OperatingSystem.Kernel.ColaReady hiding Sistema atender inicial
open OperatingSystem.Kernel.Fases
open OperatingSystem.Memoria.Paginas (obtenerFrameLibre)
open OperatingSystem.Memoria.HandlerPaginacion (Handler cargarEnMemoria
  createHandlerPaginacion)
open OperatingSystem.Memoria.Lugares (alojar_inv removerPaginaMemoria_ramas removerProceso_spec
  escribirValor_spec)
open OperatingSystem.Memoria
open OperatingSystem.Memoria.Pedidos (Pedido allocateNewProcess frameRequest)

/-! ### The thread -/

/-- The kernel and the memory. -/
structure Sistema where
  kernel : Estado
  memoria : Handler

/-- `request_memory_to_load_page`, in the thread `hilo`: the answer of the memory, and what it has left
to do. -/
def requestMemoryToLoadPage (s : Sistema) (hilo : ℕ) (pid : ℤ) (pagina : ℕ) (ahora : ℤ)
    (orden : List ℤ) : Option (Option ℕ × Sistema) :=
  (cargarEnMemoria s.memoria pid pagina ahora orden).map fun r =>
    (r.1,
      { kernel := continuar s.kernel hilo
          ((if r.1.isSome then readyProcess pid else []) ++ [.postPageFault])
        memoria := r.2 })

/-- The releases of the console. -/
def liberaciones : Instr → List Liberacion
  | .findForced _ libera | .forceExit _ libera => libera
  | _ => []

/-- The instruction may do something to the process. -/
def Nombra (p : ℤ) (instr : Instr) : Prop :=
  deQuien instr = some p ∨ p ∈ (liberaciones instr).flatMap despertados

/-- No thread has anything to do with the process, and it is not in the ready queue. -/
def SinEventos (k : Estado) (p : ℤ) : Prop :=
  p ∉ k.ready ∧ ∀ hilo, ∀ instr ∈ k.hilos hilo, ¬ Nombra p instr

/-- **The system can go on** after the load of a page of `pid`: the memory is as before and can be used,
the process is not left blocked, and the next page fault can be handled. -/
structure Continua (s s' : Sistema) (pid : ℤ) : Prop where
  libre : s'.memoria.operacionesBloqueantes = false
  espacioUsuario : s'.memoria.espacioUsuario = s.memoria.espacioUsuario
  pidTablas : s'.memoria.pidTablas = s.memoria.pidTablas
  swap : s'.memoria.swap = s.memoria.swap
  sigue : ¬ (s'.kernel.currentStatus pid = .BLOCK ∧ SinEventos s'.kernel pid)
  semaforo : 0 < s'.kernel.semPageFault

section Falla

variable {s s' : Sistema} {h h' : Handler} {k k' : Estado} {hilo pagina : ℕ} {pid ahora : ℤ}
  {orden : List ℤ}

/-- What a load that fails does to the memory. -/
theorem cargarEnMemoria_falla (hr : cargarEnMemoria h pid pagina ahora orden = some (none, h')) :
    (h.pidTablas.get pid = none ∧ h' = h) ∨
      (h.pidTablas.get pid ≠ none ∧ h' = { h with operacionesBloqueantes := true }) := by
  cases ht : h.pidTablas.get pid with
  | none =>
    rw [cargarEnMemoria, ht] at hr
    obtain ⟨-, rfl⟩ := Prod.mk.inj (Option.some.inj hr)
    exact Or.inl ⟨rfl, rfl⟩
  | some tabla =>
    refine Or.inr ⟨by simp, ?_⟩
    rw [cargarEnMemoria, ht] at hr
    dsimp only at hr
    split_ifs at hr
    cases hf : obtenerFrameLibre h.espacioUsuario with
    | some frame =>
      rw [hf] at hr
      obtain ⟨_, _, hmarco, -⟩ := alojar_inv hr
      cases hmarco
    | none =>
      rw [hf] at hr
      obtain ⟨⟨v, h₁⟩, hrem, hr'⟩ := Option.bind_eq_some_iff.mp hr
      rcases removerPaginaMemoria_ramas hrem with ⟨heq, -⟩ | ⟨pag, -, rfl, -⟩
      · obtain ⟨rfl, rfl⟩ := Prod.mk.inj heq
        exact (Prod.mk.inj (Option.some.inj hr')).2.symm
      · obtain ⟨_, _, hmarco, -⟩ := alojar_inv hr'
        cases hmarco

/-- The end of the thread. -/
theorem paso_postPageFault (hk : k.hilos hilo = [.postPageFault]) : atender k (.paso hilo) =
    some { continuar k hilo [] with semPageFault := k.semPageFault + 1 } := by
  simp [atender, hk, ejecutar, continuar]

end Falla

/-! ### The mutex that is kept -/

/-- The request waits for `operaciones_bloqueantes_mutex`. -/
def TomaMutex (s : Pedidos.Sistema) : Pedido → Prop
  | .newProcess .. | .frameRequest .. => True
  | .loadFrame pid .. => (s.handler.pidTablas.get pid).isSome
  | _ => False

section Mutex

variable {s s' : Pedidos.Sistema} {ped : Pedido}

/-- A request that takes the mutex gets no answer, and no other one gives it back. -/
theorem atascada_atender (hm : s.handler.operacionesBloqueantes = true)
    (hs : Pedidos.atender s ped = some s') :
    ¬ TomaMutex s ped ∧ s'.handler.operacionesBloqueantes = true := by
  cases ped with
  | newProcess pid size posiciones =>
    obtain ⟨h, hn, -⟩ := Option.bind_eq_some_iff.mp hs
    rw [allocateNewProcess, hm] at hn
    cases hn
  | frameRequest pid pagina operacion ahora =>
    obtain ⟨r, hf, -⟩ := Option.bind_eq_some_iff.mp hs
    rw [frameRequest, hm] at hf
    cases hf
  | loadFrame pid pagina ahora orden =>
    obtain ⟨r, hl, hs⟩ := Option.bind_eq_some_iff.mp hs
    obtain rfl := Option.some.inj hs
    cases ht : s.handler.pidTablas.get pid with
    | none =>
      rw [cargarEnMemoria, ht] at hl
      obtain rfl := Option.some.inj hl
      exact ⟨by simp [TomaMutex, ht], hm⟩
    | some tabla =>
      rw [cargarEnMemoria, ht] at hl
      dsimp only at hl
      rw [if_pos hm] at hl
      cases hl
  | movOut pid dirLogica valor =>
    obtain ⟨dir, -, hs⟩ := Option.bind_eq_some_iff.mp hs
    obtain ⟨h, hw, hs⟩ := Option.bind_eq_some_iff.mp hs
    obtain rfl := Option.some.inj hs
    exact ⟨id, (escribirValor_spec hw).operacionesBloqueantes.trans hm⟩
  | movIn pid dirLogica =>
    obtain ⟨v, -, rfl⟩ := Option.map_eq_some_iff.mp hs
    exact ⟨id, hm⟩
  | exitProcess pid =>
    obtain ⟨h, hx, hs⟩ := Option.bind_eq_some_iff.mp hs
    obtain rfl := Option.some.inj hs
    obtain ⟨-, -, -, -, -, -, -, -, hmut⟩ := removerProceso_spec hx
    exact ⟨id, hmut.trans hm⟩

/-- **The memory is stuck**: after any run with the mutex taken, no request that takes it is served. -/
theorem atascada_siempre {as : List Pedido} (hm : s.handler.operacionesBloqueantes = true)
    (hrun : exec Pedidos.atender s as = some s') (hped : TomaMutex s' ped) :
    Pedidos.atender s' ped = none := by
  have hm' : s'.handler.operacionesBloqueantes = true :=
    exec_invariant (fun _ _ _ hI (_ : True) hs => (atascada_atender hI hs).2) hm
      (along_of_forall (fun _ _ => trivial) as s) hrun
  rw [Option.eq_none_iff_forall_ne_some]
  exact fun s'' hs => (atascada_atender hm' hs).1 hped

end Mutex

/-! ### The wait for a page -/

/-- A release or a close wakes the process up. -/
def LoDespierta (p : ℤ) : Accion → Prop
  | .cpu motivo => p ∈ salenBloqueados motivo ∨ p ∈ salenPendientes motivo
  | .finalizar _ libera => p ∈ libera.flatMap despertados
  | _ => False

section Ajeno

variable {k k' : Estado} {p pid : ℤ} {instr : Instr} {prog : List Instr}

/-- What is no task of the process and is not of the console does not name it. -/
theorem no_nombra (ht : tareas p prog = []) (hc : ∀ instr ∈ prog, liberaciones instr = []) :
    ∀ instr ∈ prog, ¬ Nombra p instr := by
  intro instr hin hn
  rcases hn with hq | hl
  · have hmem : instr ∈ tareas p prog := mem_tareas.mpr ⟨hin, hq⟩
    rw [ht] at hmem
    cases hmem
  · rw [hc instr hin] at hl
    cases hl

theorem no_nombra_readyProcess (hne : pid ≠ p) : ∀ instr ∈ readyProcess pid, ¬ Nombra p instr :=
  no_nombra (tareas_readyProcess_of_ne hne) (by simp [readyProcess, liberaciones])

theorem liberaciones_salir : ∀ instr ∈ salir pid, liberaciones instr = [] := by
  simp [salir, liberaciones]

theorem liberaciones_forceExitProcess (libera : List Liberacion) :
    ∀ instr ∈ forceExitProcess pid libera ++ salir pid, liberaciones instr = [] := by
  intro instr hin
  rcases List.mem_append.mp hin with hin | hin
  · obtain ⟨l, -, hin⟩ := List.mem_flatMap.mp hin
    cases l with
    | despierta nextPid =>
      obtain rfl := List.mem_singleton.mp hin
      rfl
    | nadie => cases hin
    | error => exact liberaciones_salir instr hin
  · exact liberaciones_salir instr hin

theorem liberaciones_handleCpuEviction (motivo : Motivo) :
    ∀ instr ∈ handleCpuEviction pid motivo, liberaciones instr = [] := by
  cases motivo with
  | signal libera =>
    cases libera <;> simp [handleCpuEviction, releaseResource, salir, liberaciones]
  | exit libera => exact liberaciones_forceExitProcess libera
  | sleep blockTime =>
    by_cases hb : 0 < blockTime
    · simp [handleCpuEviction, liberaciones, hb]
    · simp [handleCpuEviction, liberaciones, hb]
  | fOpen hallado | fSeek hallado | fTruncate hallado | fRead hallado =>
    cases hallado <;> simp [handleCpuEviction, blockAndReady, readyProcess, liberaciones]
  | fWrite hallado modoW =>
    cases hallado <;> cases modoW <;>
      simp [handleCpuEviction, blockAndReady, readyProcess, liberaciones]
  | _ => simp [handleCpuEviction, readyProcess, salir, liberaciones]

/-- The kernel ends a process, and wakes up others. -/
theorem no_nombra_forceExit {libera : List Liberacion} (hne : pid ≠ p)
    (hl : p ∉ libera.flatMap despertados) :
    ∀ instr ∈ forceExitProcess pid libera ++ salir pid, ¬ Nombra p instr := by
  refine no_nombra ?_ (liberaciones_forceExitProcess libera)
  rw [tareas_append, tareas_forceExitProcess_of_ne hne, tareas_salir_of_ne hne,
    List.count_eq_zero_of_not_mem hl]
  rfl

/-- The handler of another process. -/
theorem no_nombra_handleCpuEviction {motivo : Motivo} (hne : pid ≠ p)
    (hd : ¬ LoDespierta p (.cpu motivo)) :
    ∀ instr ∈ handleCpuEviction pid motivo, ¬ Nombra p instr := by
  refine no_nombra ?_ (liberaciones_handleCpuEviction motivo)
  obtain ⟨hbloqueados, hpendientes⟩ := not_or.mp hd
  rw [tareas_handleCpuEviction_of_ne hne, List.count_eq_zero_of_not_mem hbloqueados,
    List.count_eq_zero_of_not_mem hpendientes]
  rfl

/-- What an instruction of others makes its thread do next. -/
theorem ejecutar_no_nombra {r : Estado × List Instr} (hr : ejecutar k instr = some r)
    (hno : ¬ Nombra p instr) (hst : k.currentStatus p ≠ .EXEC) : ∀ ins ∈ r.2, ¬ Nombra p ins := by
  have hde : deQuien instr ≠ some p := fun h => hno (Or.inl h)
  cases instr with
  | cpuExecute pid => cases hr
  | exitProcess pid =>
    obtain rfl := Option.some.inj hr
    have hne : deQuien (.changeStatus pid .EXIT) ≠ some p := hde
    exact no_nombra (tareas_cons_of_ne hne) (by simp [liberaciones])
  | assignResource pid =>
    obtain rfl := Option.some.inj hr
    have hne : pid ≠ p := fun h => hde (congrArg some h)
    dsimp only
    split_ifs
    · exact no_nombra_readyProcess hne
    · simp
  | assignOpenFile pid =>
    obtain ⟨-, hr⟩ := Option.ite_none_right_eq_some.mp hr
    obtain rfl := Option.some.inj hr
    exact no_nombra_readyProcess fun h => hde (congrArg some h)
  | onEvicted pid =>
    obtain rfl := Option.some.inj hr
    have hne : pid ≠ p := fun h => hde (congrArg some h)
    dsimp only
    split_ifs
    · exact no_nombra_readyProcess hne
    · simp
  | whileExec pid =>
    obtain rfl := Option.some.inj hr
    dsimp only
    split_ifs with hexec
    · have hne : deQuien (.cpuExecute pid) ≠ some p := by
        rintro h
        obtain rfl := Option.some.inj h
        exact hst hexec
      exact no_nombra (tareas_cons_of_ne hne) (by simp [liberaciones])
    · simp
  | findForced pid libera =>
    obtain rfl := Option.some.inj hr
    dsimp only
    split_ifs
    · intro ins hin
      obtain rfl := List.mem_singleton.mp hin
      exact hno
    · simp
  | forceExit pid libera =>
    have hne : pid ≠ p := fun h => hde (congrArg some h)
    have hl : p ∉ libera.flatMap despertados := fun h => hno (Or.inr h)
    simp only [ejecutar] at hr
    split_ifs at hr
    · obtain rfl := Option.some.inj hr
      simp
    · obtain rfl := Option.some.inj hr
      exact no_nombra_forceExit hne hl
  | plannerEvict pid reason =>
    simp only [ejecutar] at hr
    split_ifs at hr
    all_goals
      obtain rfl := Option.some.inj hr
      simp
  | waitPageFault =>
    obtain ⟨-, hr⟩ := Option.ite_none_right_eq_some.mp hr
    obtain rfl := Option.some.inj hr
    simp
  | _ =>
    obtain rfl := Option.some.inj hr
    simp

/-- A detached thread of others. -/
theorem no_nombra_lanzado (h : Lanzado pid prog) (hne : pid ≠ p) :
    ∀ instr ∈ prog, ¬ Nombra p instr := by
  refine no_nombra (h.tareas_eq_nil hne) ?_
  cases h with
  | simulateProcessBlock => simp [readyProcess, liberaciones]
  | requestMemoryToLoadPage result => cases result <;> simp [readyProcess, liberaciones]

end Ajeno

/-- What the console may have to do with the process: to find it, to look at its status, to end it. -/
def DeConsola (p : ℤ) (instr : Instr) : Prop :=
  Sale p instr ∨ ∃ libera, p ∉ libera.flatMap despertados ∧
    (instr = .findForced p libera ∨ instr = .forceExit p libera)

/-- The instruction leads to the end of the process. -/
def Acaba (k : Estado) (p : ℤ) : Instr → Prop
  | .findForced pid _ => pid = p ∧ p ∈ k.running
  | .forceExit pid _ | .exitProcess pid => pid = p
  | .changeStatus pid nextStatus => pid = p ∧ nextStatus = .EXIT
  | _ => False

/-- A `FINALIZAR_PROCESO` has ended the process, or is going to. -/
def FinEnCurso (k : Estado) (p : ℤ) : Prop :=
  k.currentStatus p = .EXIT ∨ ∃ instr ∈ k.hilos CONSOLA, Acaba k p instr

/-- **The process waits for its page**, as `onPageFault` leaves it: it is blocked, and nobody has anything
to do with it but the console, which may be ending it. -/
structure EnEspera (k : Estado) (p : ℤ) : Prop where
  estado : k.currentStatus p = .BLOCK ∨ k.currentStatus p = .EXIT
  vivo : ¬ FinEnCurso k p → p ∈ k.running ∧ ∀ instr ∈ k.hilos CONSOLA, ¬ Nombra p instr
  cola : p ∉ k.ready
  otros : ∀ hilo, hilo ≠ CONSOLA → ∀ instr ∈ k.hilos hilo, ¬ Nombra p instr
  consola : ∀ instr ∈ k.hilos CONSOLA, Nombra p instr → DeConsola p instr
  viejo : p ≤ k.lastPid
  cantHilos : CONSOLA < k.cantHilos

section Espera

variable {k k' : Estado} {p pid : ℤ} {hilo : ℕ} {instr : Instr} {resto : List Instr} {a : Accion}

theorem continuar_self (k : Estado) (hilo : ℕ) (prog : List Instr) :
    (continuar k hilo prog).hilos hilo = prog :=
  Function.update_self ..

theorem continuar_of_ne (k : Estado) {j : ℕ} (hj : j ≠ hilo) (prog : List Instr) :
    (continuar k hilo prog).hilos j = k.hilos j :=
  Function.update_of_ne hj ..

theorem Acaba.nombra (h : Acaba k p instr) : Nombra p instr := by
  cases instr with
  | findForced pid libera => exact Or.inl (congrArg some h.1)
  | forceExit pid libera => exact Or.inl (congrArg some h)
  | exitProcess pid => exact Or.inl (congrArg some h)
  | changeStatus pid nextStatus => exact Or.inl (congrArg some h.1)
  | _ => exact h.elim

theorem Acaba.congr (h : p ∈ k.running ↔ p ∈ k'.running) : Acaba k p instr ↔ Acaba k' p instr := by
  cases instr with
  | findForced pid libera => exact and_congr_right fun _ => h
  | _ => exact Iff.rfl

/-- **A process that waits is lost** unless a `FINALIZAR_PROCESO` takes care of it. -/
theorem EnEspera.bloqueado_iff (hE : EnEspera k p) :
    k.currentStatus p = .BLOCK ∧ SinEventos k p ↔ ¬ FinEnCurso k p := by
  constructor
  · rintro ⟨hst, hsin⟩ (hexit | ⟨instr, hin, hacaba⟩)
    · cases hst.symm.trans hexit
    · exact hsin.2 CONSOLA instr hin hacaba.nombra
  · intro hno
    refine ⟨hE.estado.resolve_right fun h => hno (Or.inl h), hE.cola, fun j => ?_⟩
    by_cases hj : j = CONSOLA
    · rw [hj]
      exact (hE.vivo hno).2
    · exact hE.otros j hj

/-- An instruction about another process leaves this one among the live ones. -/
theorem ejecutar_running {r : Estado × List Instr} (hr : ejecutar k instr = some r)
    (hp : deQuien instr ≠ some p) : p ∈ k.running ↔ p ∈ r.1.running := by
  cases instr with
  | cpuExecute pid => cases hr
  | exitProcess pid =>
    obtain rfl := Option.some.inj hr
    exact (List.mem_erase_of_ne fun h => hp (congrArg some h.symm)).symm
  | assignOpenFile | waitPageFault =>
    obtain ⟨-, hr⟩ := Option.ite_none_right_eq_some.mp hr
    obtain rfl := Option.some.inj hr
    rfl
  | plannerEvict pid reason | forceExit pid libera =>
    simp only [ejecutar] at hr
    split_ifs at hr
    all_goals
      obtain rfl := Option.some.inj hr
      rfl
  | _ =>
    obtain rfl := Option.some.inj hr
    rfl

/-- The wait goes on where the process and the console are left alone. -/
theorem EnEspera.sigue (hE : EnEspera k p) (hst : k'.currentStatus p = k.currentStatus p)
    (hrun : p ∈ k.running ↔ p ∈ k'.running) (hcola : p ∉ k'.ready)
    (hotros : ∀ hilo, hilo ≠ CONSOLA → ∀ instr ∈ k'.hilos hilo, ¬ Nombra p instr)
    (hconsola : ∀ instr, Nombra p instr → (instr ∈ k'.hilos CONSOLA ↔ instr ∈ k.hilos CONSOLA))
    (hviejo : k.lastPid ≤ k'.lastPid) (hcant : k.cantHilos ≤ k'.cantHilos) :
    EnEspera k' p ∧ (FinEnCurso k' p ↔ FinEnCurso k p) := by
  have hfin : FinEnCurso k' p ↔ FinEnCurso k p := by
    unfold FinEnCurso
    rw [hst]
    refine or_congr_right ⟨?_, ?_⟩
    · rintro ⟨instr, hin, ha⟩
      exact ⟨instr, (hconsola instr ha.nombra).mp hin, (Acaba.congr hrun).mpr ha⟩
    · rintro ⟨instr, hin, ha⟩
      exact ⟨instr, (hconsola instr ha.nombra).mpr hin, (Acaba.congr hrun).mp ha⟩
  refine ⟨⟨by rw [hst]; exact hE.estado, fun hno => ?_, hcola, hotros, fun instr hin hn => ?_,
    hE.viejo.trans hviejo, hE.cantHilos.trans_le hcant⟩, hfin⟩
  · obtain ⟨hvivo, hnada⟩ := hE.vivo fun h => hno (hfin.mpr h)
    exact ⟨hrun.mp hvivo, fun instr hin hn => hnada instr ((hconsola instr hn).mp hin) hn⟩
  · exact hE.consola instr ((hconsola instr hn).mp hin) hn

/-- The threads after a step: the one that took it, a detached one, and the others. -/
theorem hilos_de_paso {r : Estado × List Instr} (hr : ejecutar (continuar k hilo resto) instr = some r)
    {j : ℕ} (hj : j ≠ hilo) (prog : List Instr) :
    (continuar r.1 hilo prog).hilos j = k.hilos j ∨ (j = k.cantHilos ∧ ∃ pid,
      Lanza pid instr ∧ Lanzado pid ((continuar r.1 hilo prog).hilos j)) := by
  rw [continuar_of_ne _ hj]
  obtain ⟨-, ⟨hhilos, -⟩ | ⟨pid, prog', hlanza, hprog', rfl⟩⟩ := ejecutar_hilos hr
  · left
    rw [hhilos, continuar_of_ne _ hj]
  · by_cases hnuevo : j = k.cantHilos
    · have hnuevo' : (runInDetachedThread (continuar k hilo resto) prog').hilos j = prog' := by
        rw [hnuevo]
        exact continuar_self ..
      refine Or.inr ⟨hnuevo, pid, hlanza, ?_⟩
      rw [hnuevo']
      exact hprog'
    · left
      exact (continuar_of_ne _ hnuevo _).trans (continuar_of_ne _ hj _)

/-- A thread does something that is not about the process. -/
theorem EnEspera.paso_ajeno {r : Estado × List Instr} (hE : EnEspera k p)
    (hh : k.hilos hilo = instr :: resto) (hr : ejecutar (continuar k hilo resto) instr = some r)
    (hno : ¬ Nombra p instr) :
    EnEspera (continuar r.1 hilo (r.2 ++ resto)) p ∧
      (FinEnCurso (continuar r.1 hilo (r.2 ++ resto)) p ↔ FinEnCurso k p) := by
  have hde : deQuien instr ≠ some p := fun h => hno (Or.inl h)
  obtain ⟨hst, hcola⟩ := ejecutar_otro hr hde
  have hexec : (continuar k hilo resto).currentStatus p ≠ .EXEC := by
    change k.currentStatus p ≠ .EXEC
    rcases hE.estado with h | h <;> rw [h] <;> decide
  have hsig := ejecutar_no_nombra hr hno hexec
  have hpropio : (continuar r.1 hilo (r.2 ++ resto)).hilos hilo = r.2 ++ resto := continuar_self ..
  have hlanzado : ∀ {pid : ℤ} {prog : List Instr}, Lanza pid instr → Lanzado pid prog →
      ∀ ins ∈ prog, ¬ Nombra p ins := fun hl hp =>
    no_nombra_lanzado hp fun h => hde (h ▸ hl.deQuien)
  obtain ⟨hlast, hcant⟩ : r.1.lastPid = k.lastPid ∧ k.cantHilos ≤ r.1.cantHilos := by
    obtain ⟨hlast, ⟨-, hc⟩ | ⟨pid, prog, -, -, rfl⟩⟩ := ejecutar_hilos hr
    · exact ⟨hlast, hc.ge⟩
    · exact ⟨hlast, Nat.le_succ _⟩
  refine hE.sigue hst (ejecutar_running (k := continuar k hilo resto) hr hde) ?_
    (fun j hj ins hin => ?_) (fun ins hn => ?_) hlast.ge hcant
  · have hready : r.1.ready.count p = k.ready.count p := hcola
    rw [← List.count_eq_zero]
    exact hready.trans (List.count_eq_zero.mpr hE.cola)
  · by_cases hjh : j = hilo
    · subst hjh
      rw [hpropio] at hin
      rcases List.mem_append.mp hin with hin | hin
      · exact hsig ins hin
      · exact hE.otros j hj ins (by rw [hh]; exact List.mem_cons_of_mem _ hin)
    · rcases hilos_de_paso hr hjh (r.2 ++ resto) with heq | ⟨-, pid, hl, hp⟩
      · exact hE.otros j hj ins (heq ▸ hin)
      · exact hlanzado hl hp ins hin
  · by_cases hc : CONSOLA = hilo
    · subst hc
      rw [hpropio, hh, List.mem_append, List.mem_cons]
      refine ⟨fun h => Or.inr (h.resolve_left fun hin => hsig ins hin hn), fun h => Or.inr ?_⟩
      exact h.resolve_left fun he => hno (he ▸ hn)
    · rcases hilos_de_paso hr hc (r.2 ++ resto) with heq | ⟨hnuevo, -⟩
      · rw [heq]
      · exact absurd hnuevo hE.cantHilos.ne

/-- What ends the process belongs to the console. -/
theorem deConsola_salir : ∀ ins ∈ salir p, DeConsola p ins := by
  intro ins hin
  refine Or.inl ?_
  simp only [salir, List.mem_cons, List.not_mem_nil, or_false] at hin
  rcases hin with rfl | rfl <;> rfl

theorem deConsola_forceExit {libera : List Liberacion} (hl : p ∉ libera.flatMap despertados) :
    ∀ ins ∈ forceExitProcess p libera ++ salir p, Nombra p ins → DeConsola p ins := by
  intro ins hin hn
  rcases List.mem_append.mp hin with hin | hin
  · obtain ⟨l, hlib, hin⟩ := List.mem_flatMap.mp hin
    cases l with
    | despierta nextPid =>
      obtain rfl := List.mem_singleton.mp hin
      -- the process that wakes up is another one
      have hne : nextPid ≠ p := fun h => hl (List.mem_flatMap.mpr ⟨_, hlib, by simp [despertados, h]⟩)
      simp [Nombra, deQuien, liberaciones, hne] at hn
    | nadie => cases hin
    | error => exact deConsola_salir ins hin
  · exact deConsola_salir ins hin

/-- What an instruction of the console about the process leaves. -/
theorem ejecutar_deConsola {r : Estado × List Instr} (hr : ejecutar k instr = some r)
    (hc : DeConsola p instr) (hst : k.currentStatus p ≠ .EXEC) (hcola : p ∉ k.ready) :
    (r.1.currentStatus p = k.currentStatus p ∨ r.1.currentStatus p = .EXIT) ∧ p ∉ r.1.ready ∧
      (∀ ins ∈ r.2, Nombra p ins → DeConsola p ins) ∧ (∀ pid, ¬ Lanza pid instr) ∧
      (Acaba k p instr → r.1.currentStatus p = .EXIT ∨ ∃ ins ∈ r.2, Acaba r.1 p ins) ∧
      (r.1.running = k.running ∨ ∃ ins ∈ r.2, Acaba r.1 p ins) := by
  rcases hc with hs | ⟨libera, hl, rfl | rfl⟩
  · cases instr with
    | removeProcess pid =>
      obtain rfl : pid = p := hs
      obtain rfl := Option.some.inj hr
      exact ⟨Or.inl rfl, fun h => hcola (List.mem_of_mem_erase h), by simp, fun _ h => h.elim,
        fun h => h.elim, Or.inl rfl⟩
    | exitProcess pid =>
      obtain rfl : pid = p := hs
      obtain rfl := Option.some.inj hr
      have hsale : ∃ ins ∈ [Instr.changeStatus pid .EXIT],
          Acaba { k with running := k.running.erase pid } pid ins := ⟨_, List.mem_singleton_self _, rfl, rfl⟩
      refine ⟨Or.inl rfl, hcola, fun ins hin _ => ?_, fun _ h => h.elim, fun _ => Or.inr hsale,
        Or.inr hsale⟩
      obtain rfl := List.mem_singleton.mp hin
      exact Or.inl ⟨rfl, rfl⟩
    | changeStatus pid nextStatus =>
      obtain ⟨rfl, rfl⟩ := hs
      obtain rfl := Option.some.inj hr
      have hexit : Function.update k.currentStatus pid .EXIT pid = .EXIT := Function.update_self ..
      exact ⟨Or.inr hexit, hcola, by simp, fun _ h => h.elim, fun _ => Or.inl hexit, Or.inl rfl⟩
    | _ => exact hs.elim
  · obtain rfl := Option.some.inj hr
    refine ⟨Or.inl rfl, hcola, fun ins hin _ => ?_, fun _ h => h.elim, fun h => Or.inr ?_, Or.inl rfl⟩
    · dsimp only at hin
      split_ifs at hin
      · obtain rfl := List.mem_singleton.mp hin
        exact Or.inr ⟨libera, hl, Or.inr rfl⟩
      · cases hin
    · exact ⟨.forceExit p libera, by rw [if_pos h.2]; exact List.mem_singleton_self _, rfl⟩
  · simp only [ejecutar, if_neg hst] at hr
    obtain rfl := Option.some.inj hr
    refine ⟨Or.inl rfl, hcola, deConsola_forceExit hl, fun _ h => h.elim, fun _ => Or.inr ?_, Or.inl rfl⟩
    exact ⟨.exitProcess p, List.mem_append_right _ (by simp [salir]), rfl⟩

/-- The console goes on with the process. -/
theorem EnEspera.paso_consola {r : Estado × List Instr} (hE : EnEspera k p)
    (hh : k.hilos CONSOLA = instr :: resto)
    (hr : ejecutar (continuar k CONSOLA resto) instr = some r) (hn : Nombra p instr) :
    EnEspera (continuar r.1 CONSOLA (r.2 ++ resto)) p ∧
      FinEnCurso (continuar r.1 CONSOLA (r.2 ++ resto)) p ∧ FinEnCurso k p := by
  have hin : instr ∈ k.hilos CONSOLA := by rw [hh]; exact List.mem_cons_self
  have hfin : FinEnCurso k p := by
    by_contra hno
    exact (hE.vivo hno).2 instr hin hn
  have hst : (continuar k CONSOLA resto).currentStatus p ≠ .EXEC := by
    change k.currentStatus p ≠ .EXEC
    rcases hE.estado with h | h <;> rw [h] <;> decide
  obtain ⟨hst', hcola, hsig, hlanza, hacaba, hrun⟩ :=
    ejecutar_deConsola hr (hE.consola instr hin hn) hst hE.cola
  have hpropio : (continuar r.1 CONSOLA (r.2 ++ resto)).hilos CONSOLA = r.2 ++ resto :=
    continuar_self ..
  have hsigue : ∀ {ins : Instr}, ins ∈ r.2 → Acaba r.1 p ins →
      FinEnCurso (continuar r.1 CONSOLA (r.2 ++ resto)) p := fun hins ha =>
    Or.inr ⟨_, by rw [hpropio]; exact List.mem_append_left _ hins, ha⟩
  have hfin' : FinEnCurso (continuar r.1 CONSOLA (r.2 ++ resto)) p := by
    rcases hrun with hrun | ⟨ins, hins, ha⟩
    · rcases hfin with hexit | ⟨ins, hins, ha⟩
      · exact Or.inl (hst'.elim (fun h => h.trans hexit) id)
      · rw [hh] at hins
        rcases List.mem_cons.mp hins with rfl | hins
        · rcases hacaba ha with hexit | ⟨ins', hins', ha'⟩
          · exact Or.inl hexit
          · exact hsigue hins' ha'
        · have hiff : p ∈ k.running ↔ p ∈ (continuar r.1 CONSOLA (r.2 ++ resto)).running := by
            change _ ↔ p ∈ r.1.running
            rw [hrun]
            rfl
          exact Or.inr ⟨ins, by rw [hpropio]; exact List.mem_append_right _ hins,
            (Acaba.congr hiff).mp ha⟩
    · exact hsigue hins ha
  obtain ⟨hlast, hcant⟩ : r.1.lastPid = k.lastPid ∧ r.1.cantHilos = k.cantHilos := by
    obtain ⟨hlast, ⟨-, hc⟩ | ⟨pid, -, hl, -⟩⟩ := ejecutar_hilos hr
    · exact ⟨hlast, hc⟩
    · exact absurd hl (hlanza pid)
  refine ⟨⟨?_, fun hno => absurd hfin' hno, hcola, fun j hj ins hins => ?_, fun ins hins hno => ?_,
    hE.viejo.trans hlast.ge, hE.cantHilos.trans_le hcant.ge⟩, hfin', hfin⟩
  · exact hst'.elim (fun h => hE.estado.imp (fun h' => h.trans h') fun h' => h.trans h') Or.inr
  · rcases hilos_de_paso hr hj (r.2 ++ resto) with heq | ⟨-, pid, hl, -⟩
    · exact hE.otros j hj ins (heq ▸ hins)
    · exact absurd hl (hlanza pid)
  · rw [hpropio] at hins
    rcases List.mem_append.mp hins with hins | hins
    · exact hsig ins hins hno
    · exact hE.consola ins (by rw [hh]; exact List.mem_cons_of_mem _ hins) hno

/-- **One step** keeps the wait, and its end is under way after it if it was before, or if the step is the
`FINALIZAR_PROCESO`. -/
theorem enEspera_atender (hE : EnEspera k p) (hd : ¬ LoDespierta p a)
    (hs : atender k a = some k') :
    EnEspera k' p ∧ (FinEnCurso k' p ↔ FinEnCurso k p ∨ ∃ libera, a = .finalizar p libera) := by
  cases a with
  | paso hilo =>
    simp only [reduceCtorEq, exists_const, or_false]
    obtain ⟨instr, resto, r, hh, hr, rfl⟩ := paso_eq hs
    by_cases hn : Nombra p instr
    · obtain rfl : hilo = CONSOLA := by
        by_contra hne
        exact hE.otros hilo hne instr (by rw [hh]; exact List.mem_cons_self) hn
      obtain ⟨hE', hfin', hfin⟩ := hE.paso_consola hh hr hn
      exact ⟨hE', iff_of_true hfin' hfin⟩
    · exact hE.paso_ajeno hh hr hn
  | cpu motivo =>
    simp only [reduceCtorEq, exists_const, or_false]
    obtain ⟨pid, resto, hh, rfl⟩ := cpu_eq hs
    have hne : pid ≠ p := by
      rintro rfl
      exact hE.otros STP (by decide) (.cpuExecute pid) (by rw [hh]; exact List.mem_cons_self)
        (Or.inl rfl)
    refine hE.sigue rfl Iff.rfl hE.cola (fun j hj ins hin => ?_) (fun ins _ => Iff.rfl) le_rfl le_rfl
    by_cases hstp : j = STP
    · rw [hstp, continuar_self] at hin
      rcases List.mem_append.mp hin with hin | hin
      · exact no_nombra_handleCpuEviction hne hd ins hin
      · rcases List.mem_cons.mp hin with rfl | hin
        · simp [Nombra, deQuien, liberaciones]
        · exact hE.otros STP (by decide) ins (by rw [hh]; exact List.mem_cons_of_mem _ hin)
    · rw [continuar_of_ne _ hstp] at hin
      exact hE.otros j hj ins hin
  | planificar pid =>
    simp only [reduceCtorEq, exists_const, or_false]
    obtain rfl | ⟨q, hq, rfl⟩ := planificar_eq hs
    · exact hE.sigue rfl Iff.rfl hE.cola hE.otros (fun _ _ => Iff.rfl) le_rfl le_rfl
    · have hne : q ≠ p := fun h => hE.cola (h ▸ hq)
      refine hE.sigue rfl Iff.rfl (fun h => hE.cola (List.mem_of_mem_erase h)) (fun j hj ins hin => ?_)
        (fun ins _ => Iff.rfl) le_rfl le_rfl
      by_cases hstp : j = STP
      · rw [hstp, continuar_self] at hin
        simp only [List.mem_cons, List.not_mem_nil, or_false] at hin
        rcases hin with rfl | rfl <;> simp [Nombra, deQuien, liberaciones, hne]
      · rw [continuar_of_ne _ hstp] at hin
        exact hE.otros j hj ins hin
  | admitir =>
    simp only [reduceCtorEq, exists_const, or_false]
    obtain ⟨-, hs⟩ := Option.ite_none_right_eq_some.mp hs
    obtain rfl := Option.some.inj hs
    have hviejo := hE.viejo
    have hne : k.lastPid + 1 ≠ p := by omega
    refine hE.sigue rfl ?_ hE.cola (fun j hj ins hin => ?_) (fun ins _ => Iff.rfl)
      (show k.lastPid ≤ k.lastPid + 1 by omega) le_rfl
    · change p ∈ k.running ↔ p ∈ k.running ++ [k.lastPid + 1]
      rw [List.mem_append, List.mem_singleton]
      exact ⟨Or.inl, fun h => h.resolve_right hne.symm⟩
    · by_cases hltp : j = LTP
      · rw [hltp, continuar_self] at hin
        exact no_nombra_readyProcess hne ins hin
      · rw [continuar_of_ne _ hltp] at hin
        exact hE.otros j hj ins hin
  | finalizar pid libera =>
    obtain ⟨hlibre, hs⟩ := Option.ite_none_right_eq_some.mp hs
    obtain rfl := Option.some.inj hs
    have hconsola := continuar_self k CONSOLA [.findForced pid libera]
    have hotros : ∀ hilo, hilo ≠ CONSOLA →
        ∀ ins ∈ (continuar k CONSOLA [.findForced pid libera]).hilos hilo, ¬ Nombra p ins :=
      fun j hj ins hin => by
        rw [continuar_of_ne _ hj] at hin
        exact hE.otros j hj ins hin
    by_cases hp : pid = p
    · subst hp
      have hfin : FinEnCurso (continuar k CONSOLA [.findForced pid libera]) pid := by
        by_cases hfin : FinEnCurso k pid
        · refine hfin.imp id fun hconsola => ?_
          obtain ⟨ins, hin, -⟩ := hconsola
          rw [hlibre] at hin
          cases hin
        · exact Or.inr ⟨.findForced pid libera, by rw [hconsola]; exact List.mem_singleton_self _, rfl,
            (hE.vivo hfin).1⟩
      refine ⟨⟨hE.estado, fun hno => absurd hfin hno, hE.cola, hotros, fun ins hin _ => ?_, hE.viejo,
        hE.cantHilos⟩, iff_of_true hfin (Or.inr ⟨libera, rfl⟩)⟩
      rw [hconsola] at hin
      obtain rfl := List.mem_singleton.mp hin
      exact Or.inr ⟨libera, hd, Or.inl rfl⟩
    · have hajeno : ¬ Nombra p (.findForced pid libera) := by
        rintro (h | h)
        · exact hp (Option.some.inj h)
        · exact hd h
      have hsin : ¬ ∃ libera', Accion.finalizar pid libera = .finalizar p libera' := by
        rintro ⟨_, h⟩
        exact hp (Accion.finalizar.inj h).1
      rw [or_iff_left hsin]
      refine hE.sigue rfl Iff.rfl hE.cola hotros (fun ins hn => ?_) le_rfl le_rfl
      rw [hconsola, hlibre, List.mem_singleton]
      exact ⟨fun h => absurd (h ▸ hn) hajeno, fun h => by cases h⟩
  | desalojar pid reason =>
    simp only [reduceCtorEq, exists_const, or_false]
    rcases desalojar_eq hs with rfl | rfl
    · exact ⟨hE, Iff.rfl⟩
    · exact hE.sigue rfl Iff.rfl hE.cola hE.otros (fun _ _ => Iff.rfl) le_rfl le_rfl

/-- **A run** in which nobody wakes the process up: its end is under way if it was at the beginning, or
if a `FINALIZAR_PROCESO` came. -/
theorem enEspera_exec : ∀ {as : List Accion} {k : Estado}, EnEspera k p →
    (∀ a ∈ as, ¬ LoDespierta p a) → exec atender k as = some k' →
    EnEspera k' p ∧ (FinEnCurso k' p ↔ FinEnCurso k p ∨ ∃ libera, .finalizar p libera ∈ as)
  | [], k, hE, _, hrun => by
    obtain rfl : k = k' := by simpa using hrun
    exact ⟨hE, by simp⟩
  | a :: as, k, hE, hd, hrun => by
    obtain ⟨k₁, hs, hrun⟩ := Option.bind_eq_some_iff.mp hrun
    obtain ⟨hE₁, hfin₁⟩ := enEspera_atender hE (hd a List.mem_cons_self) hs
    obtain ⟨hE', hfin'⟩ := enEspera_exec hE₁ (fun a ha => hd a (List.mem_cons_of_mem _ ha)) hrun
    refine ⟨hE', ?_⟩
    rw [hfin', hfin₁, or_assoc, ← exists_or]
    simp only [List.mem_cons, eq_comm]

/-- **The process is lost**: without a `FINALIZAR_PROCESO` it stays blocked. -/
theorem bloqueado_siempre {as : List Accion} (hE : EnEspera k p) (hno : ¬ FinEnCurso k p)
    (hd : ∀ a ∈ as, ¬ LoDespierta p a) (hf : ∀ libera, .finalizar p libera ∉ as)
    (hrun : exec atender k as = some k') : k'.currentStatus p = .BLOCK := by
  obtain ⟨hE', hfin⟩ := enEspera_exec hE hd hrun
  refine (hE'.bloqueado_iff.mpr fun h => ?_).1
  exact (hfin.mp h).elim hno fun ⟨libera, hm⟩ => hf libera hm

/-- **When the system can go on** after a load that failed, whatever the threads do before and after the
memory answers: the process has no table, the mutex was free, and the process is ended by a
`FINALIZAR_PROCESO` that is under way when the memory is asked or comes before the thread ends. The
releases and closes of the run wake up processes that wait for a resource or a file, as this one does
not. -/
theorem continua_iff {k₀ : Estado} {s s' : Sistema} {antes luego : List Accion} {pagina : ℕ} {ahora : ℤ}
    {orden : List ℤ} (hhilo : hilo ≠ CONSOLA) (h₀ : EnEspera k₀ pid)
    (hcolas : ∀ a ∈ antes ++ luego, ¬ LoDespierta pid a)
    (hantes : exec atender k₀ antes = some s.kernel)
    (hreq : requestMemoryToLoadPage s hilo pid pagina ahora orden = some (none, s'))
    (hluego : exec atender s'.kernel luego = some k) (hk : k.hilos hilo = s'.kernel.hilos hilo)
    (hfin : atender k (.paso hilo) = some k') :
    Continua s ⟨k', s'.memoria⟩ pid ↔
      s.memoria.pidTablas.get pid = none ∧ s.memoria.operacionesBloqueantes = false ∧
        (FinEnCurso k₀ pid ∨ ∃ libera, .finalizar pid libera ∈ antes ++ luego) := by
  obtain ⟨⟨result, h'⟩, hr, heq⟩ := Option.map_eq_some_iff.mp hreq
  obtain ⟨rfl, rfl⟩ := Prod.mk.inj heq
  have hpost : k.hilos hilo = [.postPageFault] := hk.trans (continuar_self ..)
  obtain ⟨hE₁, hfin₁⟩ := enEspera_exec h₀ (fun a ha => hcolas a (List.mem_append_left _ ha)) hantes
  -- the answer of the memory is no news for the process
  obtain ⟨hE₂, hfin₂⟩ : EnEspera (continuar s.kernel hilo [.postPageFault]) pid ∧
      (FinEnCurso (continuar s.kernel hilo [.postPageFault]) pid ↔ FinEnCurso s.kernel pid) := by
    refine hE₁.sigue rfl Iff.rfl hE₁.cola (fun j hj ins hin => ?_) (fun ins _ => ?_) le_rfl le_rfl
    · by_cases hjh : j = hilo
      · rw [hjh, continuar_self] at hin
        obtain rfl := List.mem_singleton.mp hin
        simp [Nombra, deQuien, liberaciones]
      · rw [continuar_of_ne _ hjh] at hin
        exact hE₁.otros j hj ins hin
    · rw [continuar_of_ne _ hhilo.symm]
  obtain ⟨hE₃, hfin₃⟩ := enEspera_exec hE₂ (fun a ha => hcolas a (List.mem_append_right _ ha)) hluego
  obtain ⟨hE₄, hfin₄⟩ := enEspera_atender hE₃ (a := .paso hilo) id hfin
  have hsigue : ¬ (k'.currentStatus pid = .BLOCK ∧ SinEventos k' pid) ↔
      FinEnCurso k₀ pid ∨ ∃ libera, .finalizar pid libera ∈ antes ++ luego := by
    rw [hE₄.bloqueado_iff, not_not, hfin₄, hfin₃, hfin₂, hfin₁]
    simp only [reduceCtorEq, exists_const, or_false, List.mem_append, exists_or, or_assoc]
  have hsem : 0 < k'.semPageFault := by
    rw [paso_postPageFault hpost] at hfin
    obtain rfl := Option.some.inj hfin
    exact Nat.succ_pos _
  rcases cargarEnMemoria_falla hr with ⟨ht, rfl⟩ | ⟨ht, rfl⟩
  · constructor
    · intro hC
      exact ⟨ht, hC.libre, hsigue.mp hC.sigue⟩
    · rintro ⟨-, hlibre, h⟩
      exact ⟨hlibre, rfl, rfl, rfl, hsigue.mpr h, hsem⟩
  · refine iff_of_false (fun hC => ?_) fun h => ht h.1
    cases hC.libre

/-- A process with a page fault, and the thread that asks for its page. -/
def conPageFault : List Accion :=
  [.admitir, .paso LTP, .paso LTP, .paso LTP, .planificar (some 1), .paso STP, .paso STP,
    .cpu (.pageFault false), .paso STP, .paso STP, .paso STP]

/-- The process ends before the memory answers. -/
def terminadoEnEspera : List Accion :=
  [.finalizar 1 [], .paso CONSOLA, .paso CONSOLA, .paso CONSOLA, .paso CONSOLA, .paso CONSOLA]

theorem enEspera_conPageFault {k : Estado} (hk : exec atender estadoInicial conPageFault = some k) :
    EnEspera k 1 := by
  have hcampos : (exec atender estadoInicial conPageFault).map (fun k => (k.currentStatus 1, k.running,
      k.ready, k.lastPid, k.cantHilos)) = some (.BLOCK, [1], [], 1, 4) := rfl
  have hhilos : (exec atender estadoInicial conPageFault).map (fun k => (k.hilos 0, k.hilos 1,
      k.hilos 2, k.hilos 3)) = some ([.whileExec 1], [], [], [.postPageFault]) := rfl
  have hlibres : ∀ j, (exec atender estadoInicial conPageFault).map (fun k => k.hilos (j + 4)) =
      some [] := fun _ => rfl
  rw [hk] at hcampos hhilos
  obtain ⟨hst, hrun, hready, hlast, hcant⟩ := by simpa using hcampos
  obtain ⟨h0, h1, h2, h3⟩ := by simpa using hhilos
  have hconsola : k.hilos CONSOLA = [] := h1
  refine ⟨Or.inl hst, fun _ => ⟨by simp [hrun], by simp [hconsola]⟩, by simp [hready],
    fun j hj ins hin => ?_, by simp [hconsola], hlast.ge, by rw [hcant]; decide⟩
  match j with
  | 0 =>
    rw [h0] at hin
    obtain rfl := List.mem_singleton.mp hin
    simp [Nombra, deQuien, liberaciones]
  | 1 => exact absurd rfl hj
  | 2 =>
    rw [h2] at hin
    cases hin
  | 3 =>
    rw [h3] at hin
    obtain rfl := List.mem_singleton.mp hin
    simp [Nombra, deQuien, liberaciones]
  | j + 4 =>
    have hlibre : k.hilos (j + 4) = [] := by simpa [hk] using hlibres j
    rw [hlibre] at hin
    cases hin

/-- Then the load fails and everything goes on. -/
theorem continua_iff_terminado : ∃ m k₀ k s' k',
    exec Pedidos.atender (Pedidos.inicial ⟨Dict.empty, ⟨8, 1, [0], fun _ => 0⟩, [], .FIFO, 8, false, 0,
      fun _ _ => 0⟩) [.newProcess 1 8 [0], .frameRequest 1 0 .LEER 10, .exitProcess 1] = some m ∧
    exec atender estadoInicial conPageFault = some k₀ ∧
    exec atender k₀ terminadoEnEspera = some k ∧
    requestMemoryToLoadPage ⟨k, m.handler⟩ 3 1 0 20 [] = some (none, s') ∧
    atender s'.kernel (.paso 3) = some k' ∧ Continua ⟨k, m.handler⟩ ⟨k', s'.memoria⟩ 1 := by
  obtain ⟨m, hm, ht, hlibre⟩ : ∃ m,
      exec Pedidos.atender (Pedidos.inicial ⟨Dict.empty, ⟨8, 1, [0], fun _ => 0⟩, [], .FIFO, 8, false,
        0, fun _ _ => 0⟩) [.newProcess 1 8 [0], .frameRequest 1 0 .LEER 10, .exitProcess 1] = some m ∧
      m.handler.pidTablas.get 1 = none ∧ m.handler.operacionesBloqueantes = false :=
    ⟨_, rfl, rfl, rfl⟩
  obtain ⟨k₀, k, hk₀, hk⟩ : ∃ k₀ k, exec atender estadoInicial conPageFault = some k₀ ∧
      exec atender k₀ terminadoEnEspera = some k := ⟨_, _, rfl, rfl⟩
  have hreq : requestMemoryToLoadPage ⟨k, m.handler⟩ 3 1 0 20 [] =
      some (none, ⟨continuar k 3 [.postPageFault], m.handler⟩) := by
    rw [requestMemoryToLoadPage, cargarEnMemoria, ht]
    rfl
  have hhilo : (continuar k 3 [.postPageFault]).hilos 3 = [.postPageFault] := rfl
  have hfin := paso_postPageFault hhilo
  have hcolas : ∀ a ∈ terminadoEnEspera ++ [], ¬ LoDespierta 1 a := by
    simp [terminadoEnEspera, LoDespierta]
  refine ⟨m, k₀, k, _, _, hm, hk₀, hk, hreq, hfin, ?_⟩
  exact (continua_iff (by decide) (enEspera_conPageFault hk₀) hcolas hk hreq rfl rfl hfin).mpr
    ⟨ht, hlibre, Or.inr ⟨[], by simp [terminadoEnEspera]⟩⟩

/-- **A memory without frames**: after the load of a page fails the mutex is taken, and the process
stays blocked. -/
theorem carga_sin_marco : ∃ h m k s' k',
    createHandlerPaginacion 4 8 .FIFO (fun _ => 0) = some h ∧
    exec Pedidos.atender (Pedidos.inicial h)
      [.newProcess 1 8 [0], .frameRequest 1 0 .LEER 10] = some m ∧
    exec atender estadoInicial conPageFault = some k ∧
    requestMemoryToLoadPage ⟨k, m.handler⟩ 3 1 0 20 [1] = some (none, s') ∧
    atender s'.kernel (.paso 3) = some k' ∧ k'.currentStatus 1 = .BLOCK ∧
    ¬ Continua ⟨k, m.handler⟩ ⟨k', s'.memoria⟩ 1 := by
  refine ⟨_, _, _, _, _, rfl, rfl, rfl, rfl, rfl, rfl, fun hC => ?_⟩
  cases hC.libre

end Espera

end OperatingSystem.Kernel.Cargas
