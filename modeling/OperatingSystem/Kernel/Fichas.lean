import OperatingSystem.Kernel.Prioridades
import Mathlib.Algebra.BigOperators.Group.List.Basic

/-! # The tokens of the ready queue (`process_handler.c`, `planners.c`)

`ready_process` and the thread of a sleep push a process to the queue of the planner and post
`ready_process_event` afterwards; the short-term planner waits for the semaphore and pops afterwards.
Any number of threads does so, one access to the shared state at a time, and the end of a process takes
it out of the queue without a token.

The tokens always cover the queue, counting those that are still to be posted and the one that the
planner has taken (`fichas_cubren`); so the planner never sleeps with a process in the queue that nobody
is going to announce. This holds of the three planners, since it only depends on how long their queues
are. -/

namespace OperatingSystem.Kernel.Fichas

open OperatingSystem.Lib.Run
open OperatingSystem.Kernel.Proceso (Status)
open OperatingSystem.Kernel.Prioridades hiding Accion atender

/-! ### `cola_monitor.c` and `planners.c` -/

def queuePushMutex {α : Type*} (cola : List α) (elemento : α) : List α := cola ++ [elemento]

def queuePopMutex {α : Type*} (cola : List α) : Option α × List α := (cola.head?, cola.tail)

def queueRemoveElementMutex {α : Type*} [DecidableEq α] (cola : List α) (elemento : α) : List α :=
  cola.filter (· ≠ elemento)

/-- `t_planner`, by the functions that `planner_set_fifo`, `planner_set_rr` or
`planner_set_planner_prioridades` give it. -/
inductive Planner where
  | fifo (cola : List Proceso)
  | rr (cola : List Proceso)
  | prioridades (k : PlannerPrioridades)

/-- The planners, before there is any process. -/
def Planner.Nuevo (planner : Planner) : Prop :=
  planner = .fifo [] ∨ planner = .rr [] ∨ planner = .prioridades plannerSetPlannerPrioridades

/-- The ready queue. -/
def Planner.procesos : Planner → List Proceso
  | .fifo cola => cola
  | .rr cola => cola
  | .prioridades k => k.procesos

def nextProcess : Planner → Option Proceso × Planner
  | .fifo cola => ((queuePopMutex cola).1, .fifo (queuePopMutex cola).2)
  | .rr cola => ((queuePopMutex cola).1, .rr (queuePopMutex cola).2)
  | .prioridades k =>
    ((plannerPrioridadesNextProcess k).1, .prioridades (plannerPrioridadesNextProcess k).2)

/-- The planner by priorities looks at the status of the process dispatched last. -/
def processOnReady (planner : Planner) (proceso : Proceso) (currentStatus : ℤ → Status) : Planner :=
  match planner with
  | .fifo cola => .fifo (queuePushMutex cola proceso)
  | .rr cola => .rr (queuePushMutex cola proceso)
  | .prioridades k =>
    .prioridades (plannerPrioridadesAddProcessOnReady k proceso
      ((k.procesoActual.map fun actual => currentStatus actual.pid).getD .EXIT))

def removeProcess (planner : Planner) (proceso : Proceso) : Planner :=
  match planner with
  | .fifo cola => .fifo (queueRemoveElementMutex cola proceso)
  | .rr cola => .rr (queueRemoveElementMutex cola proceso)
  | .prioridades k => .prioridades (plannerPrioridadesRemoveProcess k proceso)

/-! ### The threads -/

/-- What a thread does next: nothing with the queue, one of the three accesses of `ready_process`, or
`remove_process`. -/
inductive Punto where
  | libre
  | processOnReady (proceso : Proceso)
  | changeStatus (proceso : Proceso)
  | postReady
  | removeProcess (proceso : Proceso)
  deriving DecidableEq

/-- The short-term planner waits for a token, has one and calls `next_process`, or is in its loop with a
process, whose handlers make calls too. -/
inductive Stp where
  | semWait
  | nextProcess
  | rafaga (punto : Punto)
  deriving DecidableEq

/-- A call of a thread. -/
inductive Llamada where
  | readyProcess (proceso : Proceso)
  | removeProcess (proceso : Proceso)

def Llamada.entrada : Llamada → Punto
  | .readyProcess proceso => .processOnReady proceso
  | .removeProcess proceso => .removeProcess proceso

structure Sistema where
  planner : Planner
  currentStatus : ℤ → Status
  readyProcessEvent : ℕ
  stp : Stp
  hilos : List Punto

def inicial (planner : Planner) : Sistema := ⟨planner, fun _ => .NEW, 0, .semWait, []⟩

/-- One access of a thread, and where it is afterwards. -/
def avanzar (s : Sistema) : Punto → Option (Sistema × Punto)
  | .libre => none
  | .processOnReady proceso =>
    some ({ s with planner := processOnReady s.planner proceso s.currentStatus },
      .changeStatus proceso)
  | .changeStatus proceso =>
    some ({ s with currentStatus := Function.update s.currentStatus proceso.pid .READY }, .postReady)
  | .postReady => some ({ s with readyProcessEvent := s.readyProcessEvent + 1 }, .libre)
  | .removeProcess proceso =>
    some ({ s with planner := removeProcess s.planner proceso }, .libre)

inductive Accion where
  /-- There is another thread. -/
  | crear
  /-- A thread that is not in a call begins one. -/
  | llamar (hilo : ℕ) (llamada : Llamada)
  | paso (hilo : ℕ)
  /-- The short-term planner does the same in a handler. -/
  | stpLlamar (llamada : Llamada)
  | stpPaso
  /-- `sem_wait(&ready_process_event)` -/
  | semWait
  | nextProcess
  /-- The loop with the process ends. -/
  | fin
  /-- Some other function writes a status. -/
  | changeStatus (pid : ℤ) (nextStatus : Status)

def atender (s : Sistema) : Accion → Option Sistema
  | .crear => some { s with hilos := s.hilos ++ [.libre] }
  | .llamar hilo llamada =>
    if s.hilos[hilo]? = some .libre then
      some { s with hilos := s.hilos.set hilo llamada.entrada }
    else none
  | .paso hilo => do
    let punto ← s.hilos[hilo]?
    let (s, punto) ← avanzar s punto
    return { s with hilos := s.hilos.set hilo punto }
  | .stpLlamar llamada =>
    if s.stp = .rafaga .libre then some { s with stp := .rafaga llamada.entrada } else none
  | .stpPaso =>
    match s.stp with
    | .rafaga punto => (avanzar s punto).map fun r => { r.1 with stp := .rafaga r.2 }
    | _ => none
  | .semWait =>
    if s.stp = .semWait ∧ 0 < s.readyProcessEvent then
      some { s with readyProcessEvent := s.readyProcessEvent - 1, stp := .nextProcess }
    else none
  | .nextProcess =>
    if s.stp = .nextProcess then
      some { s with
        planner := (nextProcess s.planner).2
        stp := if (nextProcess s.planner).1 = none then .semWait else .rafaga .libre }
    else none
  | .fin => if s.stp = .rafaga .libre then some { s with stp := .semWait } else none
  | .changeStatus pid nextStatus =>
    some { s with currentStatus := Function.update s.currentStatus pid nextStatus }

/-! ### The tokens -/

/-- A push whose `sem_post` is still to come. -/
def Punto.porPostear : Punto → ℕ
  | .changeStatus _ | .postReady => 1
  | _ => 0

/-- The token taken, or a push of a handler. -/
def Stp.fichas : Stp → ℕ
  | .semWait => 0
  | .nextProcess => 1
  | .rafaga punto => punto.porPostear

/-- **The tokens cover the queue.** -/
def Cubierta (s : Sistema) : Prop :=
  s.planner.procesos.length ≤
    s.readyProcessEvent + (s.hilos.map Punto.porPostear).sum + s.stp.fichas

variable {s s' : Sistema} {planner : Planner} {proceso : Proceso} {punto : Punto}

theorem length_nextProcess (planner : Planner) :
    (nextProcess planner).2.procesos.length = planner.procesos.length - 1 := by
  cases planner with
  | fifo cola => exact List.length_tail
  | rr cola => exact List.length_tail
  | prioridades k => exact List.length_tail

theorem length_removeProcess (planner : Planner) (proceso : Proceso) :
    (removeProcess planner proceso).procesos.length ≤ planner.procesos.length := by
  cases planner with
  | fifo cola => exact List.length_filter_le ..
  | rr cola => exact List.length_filter_le ..
  | prioridades k => exact List.length_erase_le

theorem length_listAddSorted (l : List Proceso) (proceso : Proceso) :
    (listAddSorted comparadorPrioridades l proceso).length = l.length + 1 := by
  rw [listAddSorted_eq, List.orderedInsert_length]

theorem length_processOnReady (planner : Planner) (proceso : Proceso) (st : ℤ → Status) :
    (processOnReady planner proceso st).procesos.length = planner.procesos.length + 1 := by
  cases planner with
  | fifo cola => exact List.length_append
  | rr cola => exact List.length_append
  | prioridades k =>
    cases hactual : k.procesoActual with
    | none =>
      simp only [processOnReady, plannerPrioridadesAddProcessOnReady, hactual]
      exact length_listAddSorted _ _
    | some actual =>
      simp only [processOnReady, plannerPrioridadesAddProcessOnReady, hactual]
      split_ifs
      · unfold handlePlannerEvictProcess
        split_ifs <;> rfl
      · exact length_listAddSorted _ _

/-- **One access**: the queue grows by what is still to be posted, and a post is a token. -/
theorem avanzar_spec {r : Sistema × Punto} (h : avanzar s punto = some r) :
    r.1.hilos = s.hilos ∧ r.1.stp = s.stp ∧
      r.1.planner.procesos.length + s.readyProcessEvent + punto.porPostear ≤
        s.planner.procesos.length + r.1.readyProcessEvent + r.2.porPostear := by
  cases punto with
  | libre => cases h
  | processOnReady proceso =>
    obtain rfl := Option.some.inj h
    refine ⟨rfl, rfl, ?_⟩
    change (processOnReady s.planner proceso s.currentStatus).procesos.length +
      s.readyProcessEvent + 0 ≤ s.planner.procesos.length + s.readyProcessEvent + 1
    rw [length_processOnReady]
    omega
  | changeStatus proceso =>
    obtain rfl := Option.some.inj h
    exact ⟨rfl, rfl, le_rfl⟩
  | postReady =>
    obtain rfl := Option.some.inj h
    refine ⟨rfl, rfl, ?_⟩
    change s.planner.procesos.length + s.readyProcessEvent + 1 ≤
      s.planner.procesos.length + (s.readyProcessEvent + 1) + 0
    omega
  | removeProcess proceso =>
    obtain rfl := Option.some.inj h
    refine ⟨rfl, rfl, ?_⟩
    have hlen := length_removeProcess s.planner proceso
    change (removeProcess s.planner proceso).procesos.length + s.readyProcessEvent + 0 ≤
      s.planner.procesos.length + s.readyProcessEvent + 0
    omega

/-- A thread goes on. -/
theorem sum_set {l : List Punto} {i : ℕ} (h : l[i]? = some punto) (punto' : Punto) :
    ((l.set i punto').map Punto.porPostear).sum + punto.porPostear =
      (l.map Punto.porPostear).sum + punto'.porPostear := by
  induction l generalizing i with
  | nil => cases h
  | cons x l ih =>
    cases i with
    | zero =>
      obtain rfl := Option.some.inj h
      simp only [List.set_cons_zero, List.map_cons, List.sum_cons]
      omega
    | succ i =>
      have := ih h
      simp only [List.set_cons_succ, List.map_cons, List.sum_cons]
      omega

theorem porPostear_entrada (llamada : Llamada) : llamada.entrada.porPostear = 0 := by
  cases llamada <;> rfl

theorem cubierta_atender {a : Accion} (h : Cubierta s) (hs : atender s a = some s') :
    Cubierta s' := by
  unfold Cubierta at h ⊢
  cases a with
  | crear =>
    obtain rfl := Option.some.inj hs
    simpa [Punto.porPostear] using h
  | llamar hilo llamada =>
    obtain ⟨hh, hs⟩ := Option.ite_none_right_eq_some.mp hs
    obtain rfl := Option.some.inj hs
    have hsum := sum_set hh llamada.entrada
    rw [porPostear_entrada] at hsum
    have hlibre : Punto.libre.porPostear = 0 := rfl
    dsimp only
    omega
  | paso hilo =>
    obtain ⟨punto, hh, hs⟩ := Option.bind_eq_some_iff.mp hs
    obtain ⟨⟨s₁, punto'⟩, hav, hs⟩ := Option.bind_eq_some_iff.mp hs
    obtain rfl := Option.some.inj hs
    obtain ⟨hhilos, hstp, hlen⟩ := avanzar_spec hav
    have hsum := sum_set hh punto'
    dsimp only at hhilos hstp hlen ⊢
    rw [hhilos, hstp]
    omega
  | stpLlamar llamada =>
    obtain ⟨hstp, hs⟩ := Option.ite_none_right_eq_some.mp hs
    obtain rfl := Option.some.inj hs
    rw [hstp] at h
    change _ ≤ _ + _ + llamada.entrada.porPostear
    rw [porPostear_entrada]
    exact h
  | stpPaso =>
    cases hstp : s.stp with
    | semWait | nextProcess =>
      simp only [atender, hstp] at hs
      cases hs
    | rafaga punto =>
      simp only [atender, hstp] at hs
      obtain ⟨⟨s₁, punto'⟩, hav, rfl⟩ := Option.map_eq_some_iff.mp hs
      obtain ⟨hhilos, -, hlen⟩ := avanzar_spec hav
      rw [hstp] at h
      unfold Stp.fichas at h ⊢
      dsimp only at hhilos hlen h ⊢
      rw [hhilos]
      omega
  | semWait =>
    obtain ⟨⟨hstp, hpos⟩, hs⟩ := Option.ite_none_right_eq_some.mp hs
    obtain rfl := Option.some.inj hs
    rw [hstp] at h
    unfold Stp.fichas at h ⊢
    dsimp only at h ⊢
    omega
  | nextProcess =>
    obtain ⟨hstp, hs⟩ := Option.ite_none_right_eq_some.mp hs
    obtain rfl := Option.some.inj hs
    have hlen := length_nextProcess s.planner
    have huno : s.stp.fichas = 1 := by rw [hstp]; rfl
    dsimp only
    omega
  | fin =>
    obtain ⟨hstp, hs⟩ := Option.ite_none_right_eq_some.mp hs
    obtain rfl := Option.some.inj hs
    rw [hstp] at h
    exact h
  | changeStatus pid nextStatus =>
    obtain rfl := Option.some.inj hs
    exact h

/-- **The tokens of the ready queue**, with any of the planners, after any run: they cover the queue, and
while the short-term planner sleeps with a process in the queue some thread has a post pending. -/
theorem fichas_cubren {as : List Accion} (hp : planner.Nuevo)
    (hs : exec atender (inicial planner) as = some s) : Cubierta s ∧
      (s.stp = .semWait → s.readyProcessEvent = 0 → s.planner.procesos ≠ [] →
        ∃ punto ∈ s.hilos, punto.porPostear = 1) := by
  have h0 : Cubierta (inicial planner) := by
    rcases hp with rfl | rfl | rfl <;> exact le_rfl
  have h : Cubierta s := exec_invariant (fun _ _ _ h (_ : True) hs => cubierta_atender h hs) h0
    (along_of_forall (fun _ _ => trivial) as _) hs
  refine ⟨h, fun hstp hcero hcola => ?_⟩
  unfold Cubierta at h
  rw [hstp, hcero] at h
  have hlen := List.length_pos_iff.mpr hcola
  have hfichas : Stp.semWait.fichas = 0 := rfl
  have hsum : (s.hilos.map Punto.porPostear).sum ≠ 0 := by omega
  rw [Ne, List.sum_eq_zero_iff] at hsum
  push Not at hsum
  obtain ⟨n, hn, hne⟩ := hsum
  obtain ⟨punto, hpunto, rfl⟩ := List.mem_map.mp hn
  refine ⟨punto, hpunto, ?_⟩
  cases punto with
  | changeStatus proceso | postReady => rfl
  | libre | processOnReady proceso | removeProcess proceso => exact absurd rfl hne

/-- Process 1 is dispatched with the token of process 2, which is left in the queue; the post of process
1 is still to come. -/
theorem fichas_cubren_pendiente : ∃ s, exec atender
    (inicial (.prioridades plannerSetPlannerPrioridades))
      [.crear, .llamar 0 (.readyProcess ⟨2, 5⟩), .paso 0, .paso 0, .paso 0, .crear, .semWait,
        .llamar 1 (.readyProcess ⟨1, 3⟩), .paso 1, .nextProcess, .fin] = some s ∧
          s.planner.procesos ≠ [] ∧ Cubierta s ∧ ∃ punto ∈ s.hilos, punto.porPostear = 1 := by
  obtain ⟨s, hs, hstp, hcero, hcola⟩ : ∃ s, exec atender
      (inicial (.prioridades plannerSetPlannerPrioridades))
        [.crear, .llamar 0 (.readyProcess ⟨2, 5⟩), .paso 0, .paso 0, .paso 0, .crear, .semWait,
          .llamar 1 (.readyProcess ⟨1, 3⟩), .paso 1, .nextProcess, .fin] = some s ∧
        s.stp = .semWait ∧ s.readyProcessEvent = 0 ∧ s.planner.procesos ≠ [] :=
    ⟨_, rfl, rfl, rfl, by decide⟩
  obtain ⟨hcubierta, hpendiente⟩ := fichas_cubren (.inr (.inr rfl)) hs
  exact ⟨s, hs, hcola, hcubierta, hpendiente hstp hcero hcola⟩

end OperatingSystem.Kernel.Fichas
