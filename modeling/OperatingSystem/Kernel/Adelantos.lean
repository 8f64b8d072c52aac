import OperatingSystem.Kernel.Fases
import Mathlib.Data.List.Chain

/-! # No process is lost

`process_ready` puts the process in the queue before it writes `READY`. The token that wakes up the
short-term planner is posted later, but the planner may come with the token of another process, take the
process that was just put in the queue and write `EXEC` before `READY` is written: the process ends up
`READY` outside the queue.

In a run in which `process_execute` never writes `EXEC` to a process while a thread is inside
`process_ready` of it, every process stays in one place, and the queue has what it should:
`enCola_of_enOrden`. -/

namespace OperatingSystem.Kernel.Adelantos

open OperatingSystem.Lib.Run
open OperatingSystem.Kernel.Proceso (Status OpCode)
open OperatingSystem.Kernel.Hilos hiding atender
open OperatingSystem.Kernel.Terminal (paso_eq planificar_eq desalojar_eq)
open OperatingSystem.Kernel.ColaReady
open OperatingSystem.Kernel.Fases

/-! ### The order of the instructions of a thread -/

/-- Nothing comes after the loop of `short_term_planner`. -/
def Final : Instr → Prop
  | .whileExec _ | .cpuExecute _ => True
  | _ => False

/-- The instruction is neither the `READY` of a `process_ready` nor `process_execute`. -/
def Arranca : Instr → Prop
  | .changeStatus _ .READY | .changeStatus _ .EXEC => False
  | _ => True

/-- `READY` is written right after the process was put in the queue, and `EXEC` first. -/
def Siguiente (a b : Instr) : Prop :=
  ¬ Final a ∧ (Arranca b ∨ ∃ pid, a = .processOnReady pid ∧ b = .changeStatus pid .READY)

def Cadena (prog : List Instr) : Prop := prog.IsChain Siguiente

section

variable {instr : Instr} {prog resto : List Instr} {p q pid : ℤ}

theorem Cadena.append {l₁ l₂ : List Instr} (h₁ : Cadena l₁) (h₂ : Cadena l₂)
    (hfin : ∀ a ∈ l₁.getLast?, ¬ Final a) (harr : ∀ b ∈ l₂.head?, Arranca b) : Cadena (l₁ ++ l₂) :=
  List.isChain_append.mpr ⟨h₁, h₂, fun a ha b hb => ⟨hfin a ha, Or.inl (harr b hb)⟩⟩

theorem Cadena.tail (h : Cadena (instr :: resto)) : Cadena resto := List.IsChain.tail h

theorem Cadena.final (h : Cadena (instr :: resto)) (hfin : Final instr) : resto = [] := by
  cases resto with
  | nil => rfl
  | cons b l => exact absurd hfin (List.isChain_cons_cons.mp h).1.1

theorem Cadena.arranca (h : Cadena (instr :: resto)) (hno : ∀ pid, instr ≠ .processOnReady pid) :
    ∀ b ∈ resto.head?, Arranca b := by
  intro b hb
  cases resto with
  | nil => cases hb
  | cons c l =>
    obtain rfl := Option.some.inj hb
    rcases (List.isChain_cons_cons.mp h).1.2 with harr | ⟨pid, he, -⟩
    · exact harr
    · exact absurd he (hno pid)

/-- A program of instructions that may stand anywhere. -/
theorem cadena_of_forall (h : ∀ a ∈ prog, ¬ Final a ∧ Arranca a) : Cadena prog := by
  induction prog with
  | nil => exact .nil
  | cons a l ih =>
    rw [← List.singleton_append]
    refine Cadena.append (.singleton a) (ih fun b hb => h b (List.mem_cons_of_mem a hb)) ?_ ?_
    · intro b hb
      obtain rfl := Option.some.inj hb
      exact (h a List.mem_cons_self).1
    · intro b hb
      exact (h b (List.mem_cons_of_mem a (List.mem_of_mem_head? hb))).2

theorem cadena_readyProcess (pid : ℤ) : Cadena (readyProcess pid) := by
  unfold Cadena readyProcess
  simp [Siguiente, Final, Arranca]

theorem cadena_lanzado (h : Lanzado pid prog) : Cadena prog := by
  cases h with
  | simulateProcessBlock => exact cadena_readyProcess pid
  | requestMemoryToLoadPage result =>
    cases result
    · exact .singleton _
    · refine (cadena_readyProcess pid).append (.singleton _) ?_ ?_
      · simp [readyProcess, Final]
      · simp [Arranca]

/-- What comes next of an instruction can stand before the rest. -/
theorem cadena_sigue {sig : List Instr} (h : Sigue instr sig) (hc : Cadena (instr :: resto)) :
    Cadena (sig ++ resto) := by
  cases h with
  | nada => exact hc.tail
  | @despierta _ pid hd =>
    have hno : ∀ pid, instr ≠ .processOnReady pid := by
      rintro pid rfl
      exact hd
    exact (cadena_readyProcess pid).append hc.tail (by simp [readyProcess, Final]) (hc.arranca hno)
  | @exitProcess pid =>
    exact Cadena.append (.singleton _) hc.tail (by simp [Final]) (hc.arranca (by simp))
  | @whileExec pid =>
    rw [hc.final trivial]
    exact .singleton _

/-- The loop is not in what a thread does next, nor in a new thread. -/
theorem whileExec_notMem_sigue {sig : List Instr} (h : Sigue instr sig) : .whileExec q ∉ sig := by
  cases h <;> simp [readyProcess]

theorem whileExec_notMem_lanzado (h : Lanzado pid prog) : .whileExec q ∉ prog := by
  cases h with
  | simulateProcessBlock => simp [readyProcess]
  | requestMemoryToLoadPage result => cases result <;> simp [readyProcess]

/-- The `READY` of a `process_ready` that has put the process in the queue comes first. -/
theorem Cadena.head_ready (h : Cadena prog) (hmem : .changeStatus p .READY ∈ prog)
    (hno : .processOnReady p ∉ prog) : prog.head? = some (.changeStatus p .READY) := by
  induction prog with
  | nil => cases hmem
  | cons a l ih =>
    rcases List.mem_cons.mp hmem with rfl | hmem
    · rfl
    · have hl := ih h.tail hmem fun hm => hno (List.mem_cons_of_mem a hm)
      cases l with
      | nil => cases hmem
      | cons b k =>
        obtain rfl := Option.some.inj hl
        rcases (List.isChain_cons_cons.mp h).1.2 with harr | ⟨pid, rfl, hb⟩
        · exact harr.elim
        · obtain rfl : p = pid := (Instr.changeStatus.inj hb).1
          exact absurd List.mem_cons_self hno

/-- `process_execute` comes first. -/
theorem Cadena.head_exec (h : Cadena prog) (hmem : .changeStatus p .EXEC ∈ prog) :
    prog.head? = some (.changeStatus p .EXEC) := by
  induction prog with
  | nil => cases hmem
  | cons a l ih =>
    rcases List.mem_cons.mp hmem with rfl | hmem
    · rfl
    · have hl := ih h.tail hmem
      cases l with
      | nil => cases hmem
      | cons b k =>
        obtain rfl := Option.some.inj hl
        rcases (List.isChain_cons_cons.mp h).1.2 with harr | ⟨pid, rfl, hb⟩
        · exact harr.elim
        · cases hb

theorem libre_salir (pid : ℤ) : ∀ a ∈ salir pid, ¬ Final a ∧ Arranca a := by
  simp [salir, Final, Arranca]

theorem libre_releaseResource (pid : ℤ) (libera : Liberacion) :
    ∀ a ∈ releaseResource pid libera, ¬ Final a ∧ Arranca a := by
  cases libera with
  | despierta nextPid => simp [releaseResource, Final, Arranca]
  | nadie => simp [releaseResource]
  | error => exact libre_salir pid

theorem libre_forceExitProcess (pid : ℤ) (libera : List Liberacion) :
    ∀ a ∈ forceExitProcess pid libera ++ salir pid, ¬ Final a ∧ Arranca a := by
  intro a ha
  rcases List.mem_append.mp ha with ha | ha
  · obtain ⟨l, -, ha⟩ := List.mem_flatMap.mp ha
    exact libre_releaseResource pid l a ha
  · exact libre_salir pid a ha

/-- The handler, and the test of the loop after it. -/
theorem cadena_handleCpuEviction (pid : ℤ) (motivo : Motivo) :
    Cadena (handleCpuEviction pid motivo ++ [.whileExec pid]) := by
  have hlibre : ∀ {prog : List Instr}, (∀ a ∈ prog, ¬ Final a ∧ Arranca a) →
      Cadena (prog ++ [.whileExec pid]) := fun h =>
    (cadena_of_forall h).append (.singleton _) (fun a ha => (h a (List.mem_of_mem_getLast? ha)).1)
      (by simp [Arranca])
  have hready : Cadena (readyProcess pid ++ [.whileExec pid]) :=
    (cadena_readyProcess pid).append (.singleton _) (by simp [readyProcess, Final]) (by simp [Arranca])
  have hblock : Cadena (blockAndReady pid ++ [.whileExec pid]) := by
    have huno : Cadena [.changeStatus pid .BLOCK] := .singleton _
    exact huno.append hready (by simp [Final]) (by simp [Arranca])
  cases motivo with
  | waitAsignado => exact hready
  | waitNoDefinido => exact hlibre (libre_salir pid)
  | signal libera => exact hlibre (libre_releaseResource pid libera)
  | exit libera => exact hlibre (libre_forceExitProcess pid libera)
  | waitOcupado | evicted | pageFault result =>
    exact hlibre (by simp [handleCpuEviction, Final, Arranca])
  | sleep blockTime =>
    refine hlibre fun a ha => ?_
    rcases List.mem_cons.mp ha with rfl | ha
    · simp [Final, Arranca]
    · obtain ⟨-, rfl⟩ : 0 < blockTime ∧ a = .simulateProcessBlock pid := by simpa using ha
      simp [Final, Arranca]
  | fClose wakes => exact hlibre (by simp [handleCpuEviction, Final, Arranca])
  | fOpen hallado =>
    cases hallado
    · exact hlibre (by simp [handleCpuEviction, Final, Arranca])
    · exact .singleton _
  | fSeek hallado =>
    cases hallado
    · exact .singleton _
    · exact hready
  | fTruncate hallado | fRead hallado =>
    cases hallado
    · exact .singleton _
    · exact hblock
  | fWrite hallado modoW =>
    cases hallado
    · exact .singleton _
    · cases modoW
      · exact hlibre (by simp [handleCpuEviction, Final, Arranca])
      · exact hblock

end

/-! ### The invariant -/

/-- **The invariant.** The threads are in order, only the short-term planner has its loop, and each
process is in one place; the pids that were not given out yet are nowhere. -/
structure Inv (s : Sistema) : Prop where
  cadena : ∀ hilo, Cadena (s.hilos hilo)
  bucle : ∀ hilo pid, .whileExec pid ∈ s.hilos hilo → hilo = STP
  tres : 3 ≤ s.cantHilos
  libres : ∀ hilo, s.cantHilos ≤ hilo → s.hilos hilo = []
  fase : ∀ p, Fase p (vista s.toEstado p) (s.espera p)
  nuevos : ∀ p, s.lastPid < p → vista s.toEstado p = ⟨.NEW, 0, nadie⟩

theorem inv_inicial : Inv inicial where
  cadena := fun _ => .nil
  bucle := fun _ _ h => by cases h
  tres := le_rfl
  libres := fun _ _ => rfl
  fase := fun p => by
    have h : vista inicial.toEstado p = ⟨.NEW, 0, nadie⟩ := rfl
    rw [h]
    exact fase_nadie (by simp)
  nuevos := fun _ _ => rfl

section

variable {s s' : Sistema} {a : Accion} {hilo : ℕ} {motivo : Motivo} {p : ℤ}

/-- A thread whose only task with the process is the `READY` is inside `process_ready`. -/
theorem head_of_tareas_ready {prog : List Instr} (hc : Cadena prog)
    (h : tareas p prog = [.changeStatus p .READY]) :
    prog.head? = some (.changeStatus p .READY) := by
  have hmem : .changeStatus p .READY ∈ tareas p prog := by rw [h]; exact List.mem_cons_self
  refine hc.head_ready (mem_tareas.mp hmem).1 fun hon => ?_
  have hon' : .processOnReady p ∈ tareas p prog := mem_tareas.mpr ⟨hon, rfl⟩
  rw [h] at hon'
  simp at hon'

theorem head_of_tareas_exec {prog : List Instr} (hc : Cadena prog)
    (h : tareas p prog = [.changeStatus p .EXEC]) : prog.head? = some (.changeStatus p .EXEC) := by
  have hmem : .changeStatus p .EXEC ∈ tareas p prog := by rw [h]; exact List.mem_cons_self
  exact hc.head_exec (mem_tareas.mp hmem).1

theorem vista_hilos {instr : Instr} {resto : List Instr} (hh : s.hilos hilo = instr :: resto)
    (hp : deQuien instr = some p) :
    (vista s.toEstado p).hilos hilo = instr :: tareas p resto := by
  change tareas p (s.hilos hilo) = _
  rw [hh, tareas_cons_of_eq hp]

/-- One process, when a thread goes on. -/
theorem fase_paso {instr : Instr} {resto : List Instr} {r : Estado × List Instr} (hI : Inv s)
    (hC : EnOrden s (.paso hilo)) (hh : s.hilos hilo = instr :: resto) (hc : SinConsola instr)
    (hr : ejecutar (continuar s.toEstado hilo resto) instr = some r) (p : ℤ) :
    Fase p (vista (continuar r.1 hilo (r.2 ++ resto)) p) (s.espera p) ∧
      (deQuien instr = some p ∨ s.currentStatus p = .EXEC ∨
        vista (continuar r.1 hilo (r.2 ++ resto)) p = vista s.toEstado p) := by
  have hlibre : s.hilos s.cantHilos = [] := hI.libres _ le_rfl
  by_cases hp : deQuien instr = some p
  · have hstp : s.cantHilos ≠ STP := by
      have := hI.tres
      unfold STP
      omega
    refine ⟨(hI.fase p).hace (vista_hilos hh hp) (vista_paso_hace hlibre hstp hh hr hc hp) ?_,
      Or.inl hp⟩
    rintro rfl j hj
    exact hC p (by rw [hh]; rfl) j (head_of_tareas_ready (hI.cadena j) hj)
  · have hotro : tareas p r.2 = [] → Fase p (vista (continuar r.1 hilo (r.2 ++ resto)) p) (s.espera p) ∧
        (deQuien instr = some p ∨ s.currentStatus p = .EXEC ∨
          vista (continuar r.1 hilo (r.2 ++ resto)) p = vista s.toEstado p) := fun hnil => by
      have hv := vista_paso_otro hlibre hh hr hp hnil
      rw [hv]
      exact ⟨hI.fase p, Or.inr (Or.inr rfl)⟩
    by_cases hw : instr = .whileExec p
    · subst hw
      obtain rfl := hI.bucle hilo p (by rw [hh]; exact List.mem_cons_self)
      obtain rfl := (hh ▸ hI.cadena STP : Cadena (.whileExec p :: resto)).final trivial
      by_cases hst : s.currentStatus p = .EXEC
      · obtain rfl := Option.some.inj hr
        refine ⟨?_, Or.inr (Or.inl hst)⟩
        have hnil : (vista s.toEstado p).hilos STP = [] := by
          change tareas p (s.hilos STP) = []
          rw [hh]
          rfl
        have hif : (if (continuar s.toEstado STP []).currentStatus p = .EXEC then [.cpuExecute p]
            else []) = [Instr.cpuExecute p] := if_pos hst
        rw [vista_continuar, vista_continuar, sigue_sigue, hif, List.append_nil,
          tareas_cons_of_eq rfl]
        exact (hI.fase p).cpuExecute hnil hst
      · refine hotro ?_
        rw [← Option.some.inj hr]
        exact congrArg (tareas p) (if_neg hst)
    · exact hotro ((ejecutar_sigue hc hr).tareas_eq_nil hp hw)

/-- The console is not at work: what it does is about a process, and in no place of it. -/
theorem sinConsola_of_inv {instr : Instr} {resto : List Instr} (hI : Inv s)
    (hh : s.hilos hilo = instr :: resto) : SinConsola instr := by
  cases hp : deQuien instr with
  | none =>
    intro pid libera
    constructor
    all_goals
      rintro rfl
      cases hp
  | some p => exact (hI.fase p).sinConsola (vista_hilos hh hp)

theorem inv_paso (hI : Inv s) (hC : EnOrden s (.paso hilo))
    (hs : ColaReady.atender s (.paso hilo) = some s') : Inv s' := by
  obtain ⟨e, he, rfl⟩ := Option.map_eq_some_iff.mp hs
  obtain ⟨instr, resto, r, hh, hr, rfl⟩ := paso_eq he
  have hc := sinConsola_of_inv hI hh
  have hsigue := ejecutar_sigue hc hr
  obtain ⟨hlast, hcant, hotros⟩ := paso_hilos hr
  have hself : ∀ prog, (continuar r.1 hilo prog).hilos hilo = prog := fun prog =>
    Function.update_self ..
  have hne : ∀ {j}, j ≠ hilo → (continuar r.1 hilo (r.2 ++ resto)).hilos j = r.1.hilos j := fun hj =>
    Function.update_of_ne hj ..
  refine ⟨fun j => ?_, fun j pid hin => ?_, hI.tres.trans hcant, fun j hj => ?_, fun p => ?_,
    fun p hp => ?_⟩
  · by_cases hj : j = hilo
    · rw [hj, hself]
      exact cadena_sigue hsigue (hh ▸ hI.cadena hilo)
    · rw [hne hj]
      rcases hotros j hj with hsame | ⟨-, pid, hprog⟩
      · rw [hsame]
        exact hI.cadena j
      · exact cadena_lanzado hprog
  · by_cases hj : j = hilo
    · rw [hj, hself] at hin
      rcases List.mem_append.mp hin with hin | hin
      · exact absurd hin (whileExec_notMem_sigue hsigue)
      · rw [hj]
        exact hI.bucle hilo pid (by rw [hh]; exact List.mem_cons_of_mem _ hin)
    · rw [hne hj] at hin
      rcases hotros j hj with hsame | ⟨-, pid, hprog⟩
      · exact hI.bucle j _ (hsame ▸ hin)
      · exact absurd hin (whileExec_notMem_lanzado hprog)
  · have hj' : s.cantHilos ≤ j := hcant.trans hj
    have hjne : j ≠ hilo := by
      rintro rfl
      rw [hI.libres j hj'] at hh
      cases hh
    rw [hne hjne]
    rcases hotros j hjne with hsame | ⟨hlt, -⟩
    · rw [hsame]
      exact hI.libres j hj'
    · exact absurd hj (by simpa [continuar] using hlt)
  · exact (fase_paso hI hC hh hc hr p).1
  · have hp' : s.lastPid < p := by
      rw [← hlast]
      exact hp
    have hnueva := hI.nuevos p hp'
    rcases (fase_paso hI hC hh hc hr p).2 with hde | hst | hv
    · have := vista_hilos hh hde
      rw [hnueva] at this
      cases this
    · have hst' : (vista s.toEstado p).status = .EXEC := hst
      rw [hnueva] at hst'
      cases hst'
    · exact hv.trans hnueva

/-- One of the first threads gets a new program. -/
theorem Inv.continuar {prog : List Instr} (hI : Inv s) (hlt : hilo < 3) (hc : Cadena prog)
    (hb : ∀ pid, .whileExec pid ∈ prog → hilo = STP)
    (hhilos : s'.hilos = Function.update s.hilos hilo prog) (hcant : s'.cantHilos = s.cantHilos)
    (hfase : ∀ p, Fase p (vista s'.toEstado p) (s'.espera p))
    (hnuevos : ∀ p, s'.lastPid < p → vista s'.toEstado p = ⟨.NEW, 0, nadie⟩) : Inv s' := by
  have hself : s'.hilos hilo = prog := by rw [hhilos, Function.update_self]
  have hne : ∀ {j}, j ≠ hilo → s'.hilos j = s.hilos j := fun hj => by
    rw [hhilos, Function.update_of_ne hj]
  refine ⟨fun j => ?_, fun j pid hin => ?_, hcant ▸ hI.tres, fun j hj => ?_, hfase, hnuevos⟩
  · by_cases hj : j = hilo
    · rw [hj, hself]
      exact hc
    · rw [hne hj]
      exact hI.cadena j
  · by_cases hj : j = hilo
    · rw [hj, hself] at hin
      rw [hj]
      exact hb pid hin
    · rw [hne hj] at hin
      exact hI.bucle j pid hin
  · have hj' : s.cantHilos ≤ j := hcant ▸ hj
    have htres := hI.tres
    rw [hne (by omega)]
    exact hI.libres j hj'

/-- A process after a thread got a new program. -/
theorem fase_programa {e e' : Estado} {prog l : List Instr} {cola n : ℕ}
    (hf : Fase p { (vista e p).sigue hilo l with cola := cola } n)
    (hhilos : e'.hilos = Function.update e.hilos hilo prog)
    (hst : e'.currentStatus p = e.currentStatus p) (hcola : e'.ready.count p = cola)
    (hl : tareas p prog = l) : Fase p (vista e' p) n := by
  rw [vista_programa hhilos hst hcola hl]
  exact hf

theorem inv_planificar (hI : Inv s) {pid : Option ℤ}
    (hs : ColaReady.atender s (.planificar pid) = some s') : Inv s' := by
  obtain ⟨e, he, rfl⟩ := Option.map_eq_some_iff.mp hs
  have hlibre := planificar_libre he
  obtain rfl | ⟨q, hq, rfl⟩ := planificar_eq he
  · exact ⟨hI.cadena, hI.bucle, hI.tres, hI.libres, hI.fase, hI.nuevos⟩
  · have htareas : ∀ p, tareas p (s.hilos STP) = [] := fun p => by rw [hlibre, tareas_nil]
    -- only the process that is taken sees anything
    have hotro : ∀ p ≠ q, vista (continuar { s.toEstado with
        readyProcessEvent := s.readyProcessEvent - 1
        ready := s.ready.erase q } STP [.changeStatus q .EXEC, .whileExec q]) p =
          vista s.toEstado p := fun p hp => by
      have hno : tareas p [.changeStatus q .EXEC, .whileExec q] = [] := by
        simp [tareas, deQuien, hp.symm]
      exact vista_programa_otro rfl rfl (List.count_erase_of_ne hp) (htareas p) hno
    refine hI.continuar (by decide) ?_ (fun _ _ => rfl) rfl rfl (fun p => ?_) fun p hlt => ?_
    · simp [Cadena, Siguiente, Final, Arranca]
    · by_cases hp : p = q
      · subst hp
        have hcola : 0 < (vista s.toEstado p).cola := List.count_pos_iff.mpr hq
        exact fase_programa ((hI.fase p).planificar (htareas p) hcola) rfl rfl List.count_erase_self
          (tareas_cons_of_eq rfl)
      · exact (hotro p hp).symm ▸ hI.fase p
    · have hp : p ≠ q := by
        rintro rfl
        have hcola : s.ready.count p = 0 := congrArg Vista.cola (hI.nuevos p hlt)
        exact List.count_eq_zero.mp hcola hq
      exact (hotro p hp).trans (hI.nuevos p hlt)

theorem inv_admitir (hI : Inv s) (hs : ColaReady.atender s .admitir = some s') : Inv s' := by
  obtain ⟨e, he, rfl⟩ := Option.map_eq_some_iff.mp hs
  obtain ⟨hlibre, he⟩ := Option.ite_none_right_eq_some.mp he
  obtain rfl := Option.some.inj he
  have htareas : ∀ p, tareas p (s.hilos LTP) = [] := fun p => by rw [hlibre, tareas_nil]
  have hotro : ∀ p ≠ s.lastPid + 1, vista (continuar { s.toEstado with
      lastPid := s.lastPid + 1
      running := s.running ++ [s.lastPid + 1] } LTP (readyProcess (s.lastPid + 1))) p =
        vista s.toEstado p := fun p hp =>
    vista_programa_otro rfl rfl rfl (htareas p) (tareas_readyProcess_of_ne hp.symm)
  refine hI.continuar (by decide) (cadena_readyProcess _) ?_ rfl rfl (fun p => ?_) fun p hlt => ?_
  · intro pid hin
    simp [readyProcess] at hin
  · by_cases hp : p = s.lastPid + 1
    · subst hp
      have hv := hI.nuevos (s.lastPid + 1) (by omega)
      have hn := (hI.fase (s.lastPid + 1)).nuevo hv
      have hentra : Fase (s.lastPid + 1) ((vista s.toEstado (s.lastPid + 1)).sigue LTP
          (entrar (s.lastPid + 1))) (s.espera (s.lastPid + 1)) := by
        rw [hn, hv]
        exact .entra (by simp) (Or.inr (by simp))
      exact fase_programa hentra rfl rfl rfl (tareas_readyProcess _)
    · exact (hotro p hp).symm ▸ hI.fase p
  · have hlt' : s.lastPid + 1 < p := hlt
    exact (hotro p (by omega)).trans (hI.nuevos p (by omega))

/-- The handler, seen by another process: it is woken up, or nothing happens to it. -/
theorem fase_cpu_otro {pid : ℤ} (hI : Inv s) (hlibre : tareas p (s.hilos STP) = [])
    (hB : (salenBloqueados motivo).Subperm s.bloqueados)
    (hP : (salenPendientes motivo).Subperm s.pendientes) (hp : pid ≠ p) :
    Fase p ((vista s.toEstado p).sigue STP (tareas p (handleCpuEviction pid motivo)))
      ((s.bloqueados.count p - (salenBloqueados motivo).count p) +
        (s.pendientes.count p - (salenPendientes motivo).count p)) := by
  have hf := hI.fase p
  have hb := hB.count_le p
  have hc := hP.count_le p
  rw [tareas_handleCpuEviction_of_ne hp]
  by_cases hcero : (salenBloqueados motivo).count p = 0 ∧ (salenPendientes motivo).count p = 0
  · rw [hcero.1, hcero.2]
    have hnil : (vista s.toEstado p).hilos STP = [] := hlibre
    change Fase p ((vista s.toEstado p).sigue STP []) (s.espera p)
    rw [← hnil, sigue_self]
    exact hf
  · -- it is in one queue, and taken out of it
    have hpos : 0 < s.espera p := by
      unfold Sistema.espera
      omega
    have hrecurso : Despierta p (.assignResource p) := rfl
    have harchivo : Despierta p (.assignOpenFile p) := rfl
    obtain ⟨huno, hfrecurso⟩ := hf.despierta hlibre hpos hrecurso
    have hfarchivo := (hf.despierta hlibre hpos harchivo).2
    unfold Sistema.espera at huno
    rcases Nat.eq_zero_or_pos ((salenBloqueados motivo).count p) with hk | hk
    · have hk' : (salenPendientes motivo).count p = 1 := by omega
      have hcero' : s.bloqueados.count p - 0 + (s.pendientes.count p - 1) = 0 := by omega
      rw [hk, hk', List.replicate_zero, List.nil_append, List.replicate_one, hcero']
      exact hfarchivo
    · have hk' : (salenBloqueados motivo).count p = 1 := by omega
      have hk'' : (salenPendientes motivo).count p = 0 := by omega
      have hcero' : s.bloqueados.count p - 1 + (s.pendientes.count p - 0) = 0 := by omega
      rw [hk', hk'', List.replicate_zero, List.append_nil, List.replicate_one, hcero']
      exact hfrecurso

/-- Who is not the process does not get into a queue. -/
theorem count_entran {pid : ℤ} (hp : pid ≠ p) (motivo : Motivo) :
    (entranBloqueados pid motivo).count p = 0 ∧ (entranPendientes pid motivo).count p = 0 := by
  constructor
  · unfold entranBloqueados
    split
    · simp [hp]
    · simp
  · unfold entranPendientes
    split
    · simp [hp]
    · simp

/-- The process comes back from the CPU. -/
theorem inv_cpu (hI : Inv s) (hs : ColaReady.atender s (.cpu motivo) = some s') : Inv s' := by
  obtain ⟨pid, resto, hh, hB, hP, rfl⟩ := cpu_colas hs
  obtain rfl := (hh ▸ hI.cadena STP : Cadena (.cpuExecute pid :: resto)).final trivial
  have htareas : ∀ p, tareas p (handleCpuEviction pid motivo ++ [.whileExec pid]) =
      tareas p (handleCpuEviction pid motivo) := fun p => by
    rw [tareas_append, tareas_cons_of_ne (by simp [deQuien]), tareas_nil, List.append_nil]
  have hotro : ∀ p, pid ≠ p → tareas p (s.hilos STP) = [] := fun p hp => by
    have hne : deQuien (.cpuExecute pid) ≠ some p := fun h => hp (Option.some.inj h)
    rw [hh, tareas_cons_of_ne hne, tareas_nil]
  refine hI.continuar (by decide) (cadena_handleCpuEviction pid motivo) (fun _ _ => rfl) rfl rfl
    (fun p => ?_) fun p hlt => ?_
  · rw [espera_colas rfl rfl]
    by_cases hp : pid = p
    · subst hp
      obtain ⟨hn, st, hst, hv⟩ := (hI.fase pid).enCpu (vista_hilos hh rfl)
      unfold Sistema.espera at hn
      have hb : s.bloqueados.count pid = 0 := by omega
      have hc : s.pendientes.count pid = 0 := by omega
      have hB' : pid ∉ salenBloqueados motivo := fun hin => List.count_eq_zero.mp hb (hB.subset hin)
      have hP' : pid ∉ salenPendientes motivo := fun hin => List.count_eq_zero.mp hc (hP.subset hin)
      have hf := fase_handleCpuEviction hst hB' hP'
      have hf' : Fase pid ((vista s.toEstado pid).sigue STP (tareas pid (handleCpuEviction pid motivo)))
          ((entranBloqueados pid motivo).count pid + (entranPendientes pid motivo).count pid) := by
        rw [hv]
        exact fase_sigue hf
      rw [hb, hc, Nat.zero_sub, Nat.zero_sub, Nat.zero_add, Nat.zero_add]
      exact fase_programa hf' rfl rfl rfl (htareas pid)
    · obtain ⟨hb, hc⟩ := count_entran hp motivo
      rw [hb, hc]
      exact fase_programa (fase_cpu_otro hI (hotro p hp) hB hP hp) rfl rfl rfl (htareas p)
  · have hv := hI.nuevos p hlt
    have hp : pid ≠ p := by
      rintro rfl
      have h := vista_hilos hh (p := pid) rfl
      rw [hv] at h
      cases h
    have hn := (hI.fase p).nuevo hv
    unfold Sistema.espera at hn
    have hb := hB.count_le p
    have hc := hP.count_le p
    have hb' : (salenBloqueados motivo).count p = 0 := by omega
    have hc' : (salenPendientes motivo).count p = 0 := by omega
    have hnil : tareas p (handleCpuEviction pid motivo) = [] := by
      rw [tareas_handleCpuEviction_of_ne hp, hb', hc']
      rfl
    rw [← hv]
    exact vista_programa_otro rfl rfl rfl (hotro p hp) ((htareas p).trans hnil)

theorem inv_atender (s : Sistema) (a : Accion) (s' : Sistema) (hI : Inv s) (hC : EnOrden s a)
    (hs : ColaReady.atender s a = some s') : Inv s' := by
  cases a with
  | paso hilo => exact inv_paso hI hC hs
  | cpu motivo => exact inv_cpu hI hs
  | planificar pid => exact inv_planificar hI hs
  | admitir => exact inv_admitir hI hs
  | finalizar => cases hs
  | desalojar pid reason =>
    obtain ⟨e, he, rfl⟩ := Option.map_eq_some_iff.mp hs
    obtain rfl | rfl := desalojar_eq he
    · exact hI
    · exact ⟨hI.cadena, hI.bucle, hI.tres, hI.libres, hI.fase, hI.nuevos⟩

/-- In a state of the invariant in which nobody is at work the queue has what it should. -/
theorem enCola_of_inv (hI : Inv s) (hq : Quieto s.toEstado) : EnCola s.toEstado := by
  intro p _
  have hready : ∀ j, (vista s.toEstado p).hilos j ≠ [.changeStatus p .READY] := fun j hj =>
    (hq j p).1 (head_of_tareas_ready (hI.cadena j) hj)
  have hexec : ∀ j, (vista s.toEstado p).hilos j ≠ [.changeStatus p .EXEC] := fun j hj =>
    (hq j p).2 (head_of_tareas_exec (hI.cadena j) hj)
  have hf := hI.fase p
  have hst : (vista s.toEstado p).status = s.currentStatus p := rfl
  have hcola : (vista s.toEstado p).cola = s.ready.count p := rfl
  rw [← List.count_pos_iff, ← hst, ← hcola]
  generalize vista s.toEstado p = v at hf hready hexec
  generalize s.espera p = n at hf
  cases hf with
  | propia hne | entra hne | bloquea hne => simp [hne]
  | @anunciada st hilo => exact absurd (solo_self ..) (hready hilo)
  | elegida | adelantada => exact absurd (by simp) (hexec STP)
  | lista | espera => simp

end

/-- **No process is lost** in a run in which `process_execute` overtakes no `process_ready`. -/
theorem enCola_of_enOrden {as : List Accion} {s : Sistema}
    (hA : Along ColaReady.atender EnOrden inicial as)
    (h : exec ColaReady.atender inicial as = some s) (hq : Quieto s.toEstado) : EnCola s.toEstado :=
  enCola_of_inv (exec_invariant inv_atender inv_inicial hA h) hq

/-- A process sleeps and is put back in the queue. -/
def conSiesta : List Accion :=
  [.admitir, .paso LTP, .paso LTP, .paso LTP, .planificar (some 1), .paso STP, .paso STP,
    .cpu (.sleep 5), .paso STP, .paso STP, .paso STP, .paso 3, .paso 3]

theorem enCola_of_enOrden_conSiesta : ∃ s, exec ColaReady.atender inicial conSiesta = some s ∧
    s.ready = [1] ∧ EnCola s.toEstado := by
  have hpaso : ∀ {s : Sistema} {hilo : ℕ} (instr : Instr), (s.hilos hilo).head? = some instr →
      (∀ p, instr = .changeStatus p .EXEC → ∀ j, (s.hilos j).head? ≠ some (.changeStatus p .READY)) →
      EnOrden s (.paso hilo) := fun instr hh h p hp => h p (Option.some.inj (hh.symm.trans hp))
  refine ⟨_, rfl, rfl, enCola_of_enOrden (?_ : Along ColaReady.atender EnOrden inicial conSiesta)
    rfl ?_⟩
  · refine .of_step trivial rfl <|
      .of_step (hpaso _ rfl fun p hp => by cases hp) rfl <|
      .of_step (hpaso _ rfl fun p hp => by cases hp) rfl <|
      .of_step (hpaso _ rfl fun p hp => by cases hp) rfl <|
      .of_step trivial rfl <|
      .of_step (hpaso _ rfl fun p hp j => ?_) rfl <|
      .of_step (hpaso _ rfl fun p hp => by cases hp) rfl <|
      .of_step trivial rfl <|
      .of_step (hpaso _ rfl fun p hp => by cases hp) rfl <|
      .of_step (hpaso _ rfl fun p hp => by cases hp) rfl <|
      .of_step (hpaso _ rfl fun p hp => by cases hp) rfl <|
      .of_step (hpaso _ rfl fun p hp => by cases hp) rfl <|
      .of_step (hpaso _ rfl fun p hp => by cases hp) rfl trivial
    match j with
    | 0 | 1 | 2 | n + 3 => exact fun h => by cases h
  · intro hilo pid
    match hilo with
    | 0 | 1 | 2 | 3 | n + 4 => exact ⟨fun h => (by cases h), fun h => (by cases h)⟩

/-- The second process is put in the queue, the first comes back with its token before the `READY` of
the second is written, and the short-term planner takes the second. -/
def adelantada : List Accion :=
  [.admitir, .paso LTP, .paso LTP, .paso LTP, .planificar (some 1), .paso STP, .paso STP,
    .admitir, .paso LTP, .cpu .waitAsignado, .paso STP, .paso STP, .paso STP, .paso STP,
    .planificar (some 2), .paso STP, .paso LTP]

theorem enCola_adelantada : ∃ s, exec ColaReady.atender inicial adelantada = some s ∧
    Quieto s.toEstado ∧ 2 ∈ s.running ∧ s.currentStatus 2 = .READY ∧ s.ready = [1] ∧
    ¬ EnCola s.toEstado := by
  refine ⟨_, rfl, fun hilo pid => ?_, by decide, by decide, rfl, fun h => ?_⟩
  · match hilo with
    | 0 | 1 | 2 | n + 3 => exact ⟨fun h => (by cases h), fun h => (by cases h)⟩
  · have hready := (h 2 (by decide)).1.mp (by decide)
    revert hready
    decide

end OperatingSystem.Kernel.Adelantos
