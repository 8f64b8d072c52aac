import OperatingSystem.Kernel.Proceso
import OperatingSystem.Lib.Run
import Mathlib.Data.List.Sort

/-! # The planner by priorities (`kernel/src/core/planners/planners.c`)

The planner keeps its ready processes in a list that is to be in the order of their priority numbers, so
that the first one is the best. A process goes to its place (`listAddSorted`), unless it is better than
the process dispatched last: then it goes to the front, and that one is to leave the CPU.

The front is its place if no process of the list is better still, which the comparison with the process
dispatched last does not tell. `prioridades_iff`: the list is in order in every state of a run, and every
process dispatched is a best one, exactly if every process that goes to the front is as good as the first
of the list. -/

namespace OperatingSystem.Kernel.Prioridades

open OperatingSystem.Lib.Run
open OperatingSystem.Kernel.Proceso

/-! ### `planners.c` -/

/-- What the planner reads of a PCB that does not change. -/
structure Proceso where
  pid : ℤ
  priority : ℤ
  deriving DecidableEq

/-- `t_planner_prioridades`, with the pids that were to leave the CPU with `PROC_EXIT_PRIORITY`. -/
structure PlannerPrioridades where
  procesos : List Proceso
  procesoActual : Option Proceso
  interruptions : List ℤ

def comparadorPrioridades (nuevoProceso procesoActual : Proceso) : Bool :=
  nuevoProceso.priority < procesoActual.priority

/-- `list_add_sorted`: after the first elements that come before the new one. -/
def listAddSorted {α : Type*} (comparador : α → α → Bool) (lista : List α) (elemento : α) : List α :=
  lista.takeWhile (comparador · elemento) ++ elemento :: lista.dropWhile (comparador · elemento)

def plannerSetPlannerPrioridades : PlannerPrioridades := ⟨[], none, []⟩

def plannerPrioridadesNextProcess (k : PlannerPrioridades) : Option Proceso × PlannerPrioridades :=
  (k.procesos.head?, { k with procesos := k.procesos.tail, procesoActual := k.procesos.head? })

/-- `handle_planner_evict_process`, for a process in the status given. -/
def handlePlannerEvictProcess (k : PlannerPrioridades) (proceso : Proceso) (currentStatus : Status) :
    PlannerPrioridades :=
  if currentStatus = .EXEC then { k with interruptions := k.interruptions ++ [proceso.pid] } else k

/-- `estadoActual` is the status of the process dispatched last. -/
def plannerPrioridadesAddProcessOnReady (k : PlannerPrioridades) (nuevoProceso : Proceso)
    (estadoActual : Status) : PlannerPrioridades :=
  match k.procesoActual with
  | none => { k with procesos := listAddSorted comparadorPrioridades k.procesos nuevoProceso }
  | some procesoActual =>
    if nuevoProceso.priority < procesoActual.priority then
      handlePlannerEvictProcess { k with procesos := nuevoProceso :: k.procesos } procesoActual
        estadoActual
    else { k with procesos := listAddSorted comparadorPrioridades k.procesos nuevoProceso }

def plannerPrioridadesRemoveProcess (k : PlannerPrioridades) (proceso : Proceso) :
    PlannerPrioridades := { k with procesos := k.procesos.erase proceso }

/-! ### Calls -/

inductive Accion where
  | add (nuevoProceso : Proceso) (estadoActual : Status)
  | next
  | remove (proceso : Proceso)

def atender (k : PlannerPrioridades) : Accion → Option PlannerPrioridades
  | .add nuevoProceso estadoActual =>
    some (plannerPrioridadesAddProcessOnReady k nuevoProceso estadoActual)
  | .next => some (plannerPrioridadesNextProcess k).2
  | .remove proceso => some (plannerPrioridadesRemoveProcess k proceso)

/-- The first of the two is at least as good. -/
def NoPeor (p q : Proceso) : Prop := p.priority ≤ q.priority

instance : DecidableRel NoPeor := fun p q => inferInstanceAs (Decidable (p.priority ≤ q.priority))

instance : Std.Total NoPeor := ⟨fun p q => le_total p.priority q.priority⟩

instance : IsTrans Proceso NoPeor := ⟨fun _ _ _ h h' => Int.le_trans h h'⟩

/-- **The list is in the order of the priorities.** -/
def Ordenada (k : PlannerPrioridades) : Prop := k.procesos.Pairwise NoPeor

instance (k : PlannerPrioridades) : Decidable (Ordenada k) :=
  inferInstanceAs (Decidable (k.procesos.Pairwise NoPeor))

/-- A process is dispatched if there is one, and no process of the list is better. -/
def EligeMejor (k : PlannerPrioridades) : Accion → Prop
  | .next => ∀ q ∈ k.procesos, ∃ p, (plannerPrioridadesNextProcess k).1 = some p ∧ p ∈ k.procesos ∧
      NoPeor p q
  | _ => True

/-- What is promised of a call. -/
def Correcta (k : PlannerPrioridades) (a : Accion) : Prop :=
  Ordenada k ∧ EligeMejor k a ∧ ∀ k', atender k a = some k' → Ordenada k'

/-- A process that is better than the one dispatched last is as good as the first of the list. -/
def Condicion (k : PlannerPrioridades) : Accion → Prop
  | .add nuevoProceso _ => ∀ procesoActual ∈ k.procesoActual,
      nuevoProceso.priority < procesoActual.priority →
        ∀ primero ∈ k.procesos.head?, NoPeor nuevoProceso primero
  | _ => True

variable {k : PlannerPrioridades} {p : Proceso}

theorem listAddSorted_eq (l : List Proceso) (p : Proceso) :
    listAddSorted comparadorPrioridades l p = l.orderedInsert NoPeor p := by
  unfold listAddSorted comparadorPrioridades
  rw [List.orderedInsert_eq_take_drop]
  simp [NoPeor]

theorem Ordenada.listAddSorted (h : Ordenada k) (p : Proceso) :
    (Prioridades.listAddSorted comparadorPrioridades k.procesos p).Pairwise NoPeor := by
  rw [listAddSorted_eq]
  exact h.orderedInsert p _

/-- The front of a list in order is the place of a process that is as good as the first. -/
theorem Ordenada.cons_iff (h : Ordenada k) :
    (p :: k.procesos).Pairwise NoPeor ↔ ∀ primero ∈ k.procesos.head?, NoPeor p primero := by
  unfold Ordenada at h
  rw [List.pairwise_cons]
  constructor
  · intro hp primero hprimero
    exact hp.1 primero (List.mem_of_mem_head? hprimero)
  · intro hp
    refine ⟨fun q hq => ?_, h⟩
    cases hl : k.procesos with
    | nil =>
      rw [hl] at hq
      simp at hq
    | cons primero resto =>
      rw [hl] at h hq
      have hprimero : NoPeor p primero := hp primero (by rw [hl]; rfl)
      rcases List.mem_cons.mp hq with rfl | hq
      · exact hprimero
      · exact Int.le_trans hprimero ((List.pairwise_cons.mp h).1 q hq)

theorem procesos_handlePlannerEvictProcess (k : PlannerPrioridades) (p : Proceso) (st : Status) :
    (handlePlannerEvictProcess k p st).procesos = k.procesos := by
  unfold handlePlannerEvictProcess
  split_ifs <;> rfl

/-- A process that becomes ready leaves the list in order exactly under the condition. -/
theorem ordenada_add_iff (h : Ordenada k) (st : Status) :
    Ordenada (plannerPrioridadesAddProcessOnReady k p st) ↔ Condicion k (.add p st) := by
  unfold plannerPrioridadesAddProcessOnReady Condicion
  cases hact : k.procesoActual with
  | none =>
    constructor
    · intro _ procesoActual hmem
      exact absurd hmem (by simp)
    · intro _
      exact h.listAddSorted p
  | some actual =>
    simp only [Option.mem_some_iff, forall_eq']
    split_ifs with hlt
    · unfold Ordenada
      rw [procesos_handlePlannerEvictProcess]
      exact h.cons_iff.trans ⟨fun hp _ => hp, fun hp => hp hlt⟩
    · exact ⟨fun _ hlt' => absurd hlt' hlt, fun _ => h.listAddSorted p⟩

/-- The first of a list in order is a best one. -/
theorem Ordenada.eligeMejor (h : Ordenada k) : EligeMejor k .next := by
  intro q hq
  unfold Ordenada at h
  cases hl : k.procesos with
  | nil =>
    rw [hl] at hq
    simp at hq
  | cons primero resto =>
    rw [hl] at h hq
    refine ⟨primero, by unfold plannerPrioridadesNextProcess; rw [hl]; rfl, by simp, ?_⟩
    rcases List.mem_cons.mp hq with rfl | hq
    · exact le_refl q.priority
    · exact (List.pairwise_cons.mp h).1 q hq

/-- **One call.** -/
theorem correcta_iff (h : Ordenada k) (a : Accion) : Correcta k a ↔ Condicion k a := by
  cases a with
  | add p st =>
    rw [← ordenada_add_iff h st]
    constructor
    · intro hc
      exact hc.2.2 _ rfl
    · intro hadd
      refine ⟨h, trivial, fun k' hk' => ?_⟩
      obtain rfl := Option.some.inj hk'
      exact hadd
  | next =>
    refine ⟨fun _ => trivial, fun _ => ⟨h, h.eligeMejor, fun k' hk' => ?_⟩⟩
    obtain rfl := Option.some.inj hk'
    exact List.Pairwise.sublist (List.tail_sublist _) h
  | remove p =>
    refine ⟨fun _ => trivial, fun _ => ⟨h, trivial, fun k' hk' => ?_⟩⟩
    obtain rfl := Option.some.inj hk'
    exact List.Pairwise.sublist List.erase_sublist h

/-- **Priorities.** In a run the list is always in order and every process dispatched is a best one,
exactly if every process that is better than the one dispatched last is as good as the first of the
list. -/
theorem prioridades_iff (as : List Accion) :
    Along atender Correcta plannerSetPlannerPrioridades as ↔
      Along atender Condicion plannerSetPlannerPrioridades as := by
  have hini : Ordenada plannerSetPlannerPrioridades := List.Pairwise.nil
  exact along_congr (I := Ordenada) (fun _ a hI _ => correcta_iff hI a)
    (fun _ a _ hI _ hE hk => ((correcta_iff hI a).mpr hE).2.2 _ hk) hini
    (along_of_forall (fun _ _ => trivial) as _)

/-- **A worse process is dispatched first.** While a process of priority 5 runs, one of priority 1 and
one of priority 3 become ready. -/
theorem next_peor : ∃ k k' : PlannerPrioridades,
    exec atender plannerSetPlannerPrioridades [.add ⟨1, 5⟩ .NEW, .next, .add ⟨2, 1⟩ .EXEC,
      .add ⟨3, 3⟩ .EXEC] = some k ∧
      k.procesos = [⟨3, 3⟩, ⟨2, 1⟩] ∧ plannerPrioridadesNextProcess k = (some ⟨3, 3⟩, k') ∧
      ¬Ordenada k ∧ ¬EligeMejor k .next := by
  refine ⟨_, _, rfl, rfl, rfl, by decide, fun h => ?_⟩
  obtain ⟨p, hp, -, hle⟩ := h ⟨2, 1⟩ (by decide)
  obtain rfl : ⟨3, 3⟩ = p := Option.some.inj hp
  exact absurd hle (by decide)

end OperatingSystem.Kernel.Prioridades
