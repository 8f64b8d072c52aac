import OperatingSystem.Kernel.Conservacion
import Mathlib.Logic.Relation

/-! # Deadlock detection (`kernel/src/deadlock/deadlock.c`)

When a process blocks in a `WAIT` the kernel looks for a deadlock. What is to be found is a circular
wait: `EsperaCircular k p` is a cycle through `p` of the relation "is blocked on a resource that the
other one holds", of any length and between any other waits. Names of resources are compared as
`deadlock.c` compares them, upper and lower case being the same.

The code looks two waits away. `checkForDeadlock_iff` is what it finds there: a blocked holder of the
resource that waits for something `p` does **not** have. So it is right where no holder of the resource
waits, misses the cycles of two processes, and takes every longer chain for a cycle
(`checkForDeadlock_correcta`). -/

namespace OperatingSystem.Kernel.Interbloqueo

open OperatingSystem.Lib.Dictionary OperatingSystem.Lib.Run
open OperatingSystem.Kernel.Proceso OperatingSystem.Kernel.Recursos
open OperatingSystem.Kernel.Conservacion (Espera bloquear asignar onWait_eq onWait_none)

/-! ### `deadlock.c` -/

/-- The processes of `running_process_contexts`, with their pids. -/
def procesos (k : Planificador) : List (ℤ × Pcb) :=
  k.running.keys.filterMap fun q => (findProcess k q).map (Prod.mk q)

/-- `_filter_resource` holds of one of the resources of the process. -/
def tieneAsignado (pcb : Pcb) (requiredResourceName : String) : Bool :=
  pcb.asignedResources.any (stringEqualsIgnoreCase requiredResourceName)

def getRunningProcessesByAsignedResource (k : Planificador) (requiredResourceName : String)
    (blockedProcessesOnly : Bool) : List (ℤ × Pcb) :=
  (procesos k).filter fun q => tieneAsignado q.2 requiredResourceName &&
    (!blockedProcessesOnly || q.2.currentStatus = .BLOCK)

/-- `_contains_original_process` -/
def containsOriginalProcess (pid : ℤ) (blockingProcesses : List (ℤ × Pcb)) : Bool :=
  if blockingProcesses.isEmpty then false else blockingProcesses.any fun q => pid = q.1

def checkForDeadlock (k : Planificador) (pid : ℤ) (requiredResourceName : String) : Bool :=
  -- the blocked processes that have the resource
  let bloqueados := getRunningProcessesByAsignedResource k requiredResourceName true
  -- what they wait for, without the nulls
  let recursos := bloqueados.filterMap fun q => q.2.blockedByResourceName
  -- the processes that have those resources
  let debenTerminar := recursos.map fun r => getRunningProcessesByAsignedResource k r false
  !debenTerminar.all (containsOriginalProcess pid)

/-! ### Circular waits -/

/-- `p` is blocked on a resource that `q` holds. -/
def EsperaA (k : Planificador) (p q : ℤ) : Prop :=
  ∃ pcb pcb' r, findProcess k p = some pcb ∧ Espera pcb r ∧ findProcess k q = some pcb' ∧
    tieneAsignado pcb' r = true

/-- **A circular wait through `p`.** -/
def EsperaCircular (k : Planificador) (p : ℤ) : Prop := Relation.TransGen (EsperaA k) p p

/-- A process that has `r` waits for a resource that `p` does not have. -/
def EsperaAjena (k : Planificador) (p : ℤ) (r : String) : Prop :=
  ∃ q pcb r', findProcess k q = some pcb ∧ tieneAsignado pcb r = true ∧ Espera pcb r' ∧
    ∀ pcb', findProcess k p = some pcb' → tieneAsignado pcb' r' = false

/-- No process that has `r` is waiting for a resource. -/
def SinEsperas (k : Planificador) (r : String) : Prop :=
  ∀ q pcb, findProcess k q = some pcb → tieneAsignado pcb r = true → ∀ r', ¬Espera pcb r'

variable {k : Planificador} {p q : ℤ} {pcb : Pcb} {r : String}

theorem mem_procesos : (q, pcb) ∈ procesos k ↔ findProcess k q = some pcb := by
  unfold procesos
  rw [List.mem_filterMap]
  constructor
  · rintro ⟨q', -, hq⟩
    obtain ⟨pcb', hpcb, he⟩ := Option.map_eq_some_iff.mp hq
    obtain ⟨rfl, rfl⟩ := Prod.mk.inj he
    exact hpcb
  · intro hq
    exact ⟨q, Dict.mem_keys_of_get hq, by rw [hq]; rfl⟩

theorem mem_getRunning {blockedProcessesOnly : Bool} :
    (q, pcb) ∈ getRunningProcessesByAsignedResource k r blockedProcessesOnly ↔
      findProcess k q = some pcb ∧ tieneAsignado pcb r = true ∧
        (blockedProcessesOnly = true → pcb.currentStatus = .BLOCK) := by
  unfold getRunningProcessesByAsignedResource
  rw [List.mem_filter, mem_procesos]
  cases blockedProcessesOnly <;> simp

/-- `p` is among the processes that have `r`. -/
theorem containsOriginalProcess_iff :
    containsOriginalProcess p (getRunningProcessesByAsignedResource k r false) = true ↔
      ∃ pcb, findProcess k p = some pcb ∧ tieneAsignado pcb r = true := by
  have hany : containsOriginalProcess p (getRunningProcessesByAsignedResource k r false) = true ↔
      ∃ x ∈ getRunningProcessesByAsignedResource k r false, p = x.1 := by
    unfold containsOriginalProcess
    split_ifs with he
    · rw [List.isEmpty_iff.mp he]
      simp
    · simp
  rw [hany]
  constructor
  · rintro ⟨⟨q, pcb⟩, hq, rfl⟩
    obtain ⟨hpcb, hr, -⟩ := mem_getRunning.mp hq
    exact ⟨pcb, hpcb, hr⟩
  · rintro ⟨pcb, hpcb, hr⟩
    exact ⟨(p, pcb), mem_getRunning.mpr ⟨hpcb, hr, by simp⟩, rfl⟩

/-- **What the detection finds.** -/
theorem checkForDeadlock_iff : checkForDeadlock k p r = true ↔ EsperaAjena k p r := by
  unfold checkForDeadlock EsperaAjena
  simp only [Bool.not_eq_true', List.all_eq_false, List.mem_map, List.mem_filterMap]
  constructor
  · rintro ⟨_, ⟨r', ⟨⟨q, pcb⟩, hq, hr'⟩, rfl⟩, hp⟩
    obtain ⟨hpcb, hr, hst⟩ := mem_getRunning.mp hq
    rw [containsOriginalProcess_iff] at hp
    refine ⟨q, pcb, r', hpcb, hr, ⟨hst rfl, hr'⟩, ?_⟩
    intro pcb' hpcb'
    by_contra hne
    exact hp ⟨pcb', hpcb', by simpa using hne⟩
  · rintro ⟨q, pcb, r', hpcb, hr, hesp, hp⟩
    refine ⟨_, ⟨r', ⟨(q, pcb), mem_getRunning.mpr ⟨hpcb, hr, fun _ => hesp.1⟩, hesp.2⟩, rfl⟩, ?_⟩
    rw [containsOriginalProcess_iff]
    rintro ⟨pcb', hpcb', hr'⟩
    rw [hp pcb' hpcb'] at hr'
    exact absurd hr' (by decide)

/-- In a circular wait some process that has what `p` waits for is waiting itself. -/
theorem espera_of_circular (hp : findProcess k p = some pcb) (hesp : Espera pcb r)
    (h : EsperaCircular k p) : ∃ q pcb' r', findProcess k q = some pcb' ∧
      tieneAsignado pcb' r = true ∧ Espera pcb' r' := by
  obtain ⟨q, ⟨pcb₀, pcb', r₀, hp₀, hesp₀, hq, hr₀⟩, hqp⟩ := Relation.TransGen.head'_iff.mp h
  obtain rfl := Option.some.inj (hp.symm.trans hp₀)
  obtain rfl : r = r₀ := Option.some.inj (hesp.2.symm.trans hesp₀.2)
  rcases hqp.cases_head with rfl | ⟨q', ⟨pcb₁, -, r₁, hq₁, hesp₁, -⟩, -⟩
  · -- `p` holds what it waits for
    obtain rfl := Option.some.inj (hp.symm.trans hq)
    exact ⟨q, pcb, r, hp, hr₀, hesp⟩
  · exact ⟨q, pcb₁, r₁, hq₁, by rwa [Option.some.inj (hq₁.symm.trans hq)], hesp₁⟩

/-- A wait for a resource of `p` closes a cycle. -/
theorem circular_of_espera (hp : findProcess k p = some pcb) (hesp : Espera pcb r) {pcb' : Pcb}
    {r' : String} (hq : findProcess k q = some pcb') (hr : tieneAsignado pcb' r = true)
    (hesp' : Espera pcb' r') (hp' : tieneAsignado pcb r' = true) : EsperaCircular k p :=
  .tail (.single ⟨pcb, pcb', r, hp, hesp, hq, hr⟩) ⟨pcb', pcb, r', hq, hesp', hp, hp'⟩

/-- Where no holder waits there is nothing to find, and nothing is found. -/
theorem correcta_of_sinEsperas (hp : findProcess k p = some pcb) (hesp : Espera pcb r)
    (h : SinEsperas k r) : checkForDeadlock k p r = true ↔ EsperaCircular k p := by
  rw [checkForDeadlock_iff]
  constructor
  · rintro ⟨q, pcb', r', hq, hr, hesp', -⟩
    exact absurd hesp' (h q pcb' hq hr r')
  · intro hcirc
    obtain ⟨q, pcb', r', hq, hr, hesp'⟩ := espera_of_circular hp hesp hcirc
    exact absurd hesp' (h q pcb' hq hr r')

/-- Where some holder waits, nothing is found only if all of them wait for resources of `p`. -/
theorem circular_of_no (hp : findProcess k p = some pcb) (hesp : Espera pcb r) (h : ¬SinEsperas k r)
    (hno : checkForDeadlock k p r = false) : EsperaCircular k p := by
  have hajena : ¬EsperaAjena k p r := by
    rw [← checkForDeadlock_iff, hno]
    exact Bool.false_ne_true
  by_contra hcirc
  refine h fun q pcb' hq hr r' hesp' => ?_
  by_cases hp' : tieneAsignado pcb r' = true
  · exact hcirc (circular_of_espera hp hesp hq hr hesp' hp')
  · refine hajena ⟨q, pcb', r', hq, hr, hesp', fun pcb₁ hp₁ => ?_⟩
    obtain rfl := Option.some.inj (hp.symm.trans hp₁)
    simpa using hp'

/-! ### The detection after a `WAIT` -/

/-- A process that a `WAIT` leaves blocked waits for the resource it asked for. -/
theorem espera_of_onWait {s s' : Estado} (hw : onWait s p r = some s')
    (hp : findProcess s'.plan p = some pcb) (hst : pcb.currentStatus = .BLOCK) : Espera pcb r := by
  cases hp₀ : s.plan.running.get p with
  | none =>
    rw [onWait, findProcess, hp₀] at hw
    simp at hw
  | some pcb₀ =>
    cases hr : s.resources.get r with
    | none =>
      rw [onWait_none hp₀ hr] at hw
      obtain rfl := Option.some.inj hw
      have hnone : findProcess (exitResourceNotFound s p).plan p = none := Dict.get_remove_self ..
      rw [hnone] at hp
      exact absurd hp (by simp)
    | some res =>
      rw [onWait_eq hp₀ hr] at hw
      obtain rfl := Option.some.inj hw
      split_ifs at hp with hqty
      · -- the process got the resource
        have hready : findProcess (asignar s p pcb₀ r res).plan p =
            some { processAssignResource pcb₀ r with currentStatus := .READY } :=
          Dict.get_put_self ..
        obtain rfl := Option.some.inj (hready.symm.trans hp)
        exact absurd hst (by simp)
      · have hblock : findProcess (bloquear s p pcb₀ r res).plan p =
            some { pcb₀ with currentStatus := .BLOCK, blockedByResourceName := some r } :=
          Dict.get_put_self ..
        obtain rfl := Option.some.inj (hblock.symm.trans hp)
        exact ⟨rfl, rfl⟩

/-- **Deadlock detection.** For a process that a `WAIT` has just blocked: if no process that has the
resource is waiting, the answer is whether there is a circular wait. If one is, then every negative answer
is a missed deadlock. -/
theorem checkForDeadlock_correcta {s s' : Estado} (hw : onWait s p r = some s')
    (hp : findProcess s'.plan p = some pcb) (hst : pcb.currentStatus = .BLOCK) :
    (SinEsperas s'.plan r → (checkForDeadlock s'.plan p r = true ↔ EsperaCircular s'.plan p)) ∧
      (¬SinEsperas s'.plan r → checkForDeadlock s'.plan p r = false → EsperaCircular s'.plan p) :=
  ⟨correcta_of_sinEsperas hp (espera_of_onWait hw hp hst),
    circular_of_no hp (espera_of_onWait hw hp hst)⟩

/-- A process holds what another one asks for, and does not wait. -/
def unoEspera : List Accion :=
  [.admitir, .admitir, .despachar 1, .wait 1 "REC1", .despachar 2]

theorem checkForDeadlock_correcta_unoEspera : ∃ s s' : Estado,
    exec atender (estadoInicial [("REC1", 1)]) unoEspera = some s ∧ onWait s 2 "REC1" = some s' ∧
      (checkForDeadlock s'.plan 2 "REC1" = true ↔ EsperaCircular s'.plan 2) := by
  obtain ⟨s, s', hs, hw, h2, hsin⟩ : ∃ s s' : Estado,
      exec atender (estadoInicial [("REC1", 1)]) unoEspera = some s ∧ onWait s 2 "REC1" = some s' ∧
      findProcess s'.plan 2 = some ⟨.BLOCK, [], some "REC1", [], none⟩ ∧
      ∀ q ∈ s'.plan.running.keys, ∀ pcb ∈ s'.plan.running.get q,
        tieneAsignado pcb "REC1" = true → pcb.currentStatus ≠ .BLOCK :=
    ⟨_, _, rfl, rfl, rfl, by decide +kernel⟩
  exact ⟨s, s', hs, hw, (checkForDeadlock_correcta hw h2 rfl).1 fun q pcb hq hr r' hesp =>
    hsin q (Dict.mem_keys_of_get hq) pcb hq hr hesp.1⟩

/-- Two processes take a resource each, and the first one asks for that of the second. -/
def cruzados : List Accion :=
  [.admitir, .admitir, .despachar 1, .wait 1 "REC1", .despachar 2, .wait 2 "REC2", .despachar 1,
    .wait 1 "REC2", .despachar 2]

/-- The second one asks for that of the first: both are blocked, and the detection finds nothing. -/
theorem cruzados_bloqueados : ∃ s s' : Estado,
    exec atender (estadoInicial [("REC1", 1), ("REC2", 1)]) cruzados = some s ∧
      onWait s 2 "REC1" = some s' ∧
      findProcess s'.plan 1 = some ⟨.BLOCK, ["REC1"], some "REC2", [], none⟩ ∧
      findProcess s'.plan 2 = some ⟨.BLOCK, ["REC2"], some "REC1", [], none⟩ ∧
      checkForDeadlock s'.plan 2 "REC1" = false := by
  have hrun : ((exec atender (estadoInicial [("REC1", 1), ("REC2", 1)]) cruzados).bind fun s =>
      (onWait s 2 "REC1").map fun s' => (findProcess s'.plan 1, findProcess s'.plan 2,
        checkForDeadlock s'.plan 2 "REC1")) =
      some (some ⟨.BLOCK, ["REC1"], some "REC2", [], none⟩,
        some ⟨.BLOCK, ["REC2"], some "REC1", [], none⟩, false) := by decide +kernel
  obtain ⟨s, hs, hrun⟩ := Option.bind_eq_some_iff.mp hrun
  obtain ⟨s', hw, hrun⟩ := Option.map_eq_some_iff.mp hrun
  obtain ⟨h1, hrun⟩ := Prod.mk.inj hrun
  obtain ⟨h2, hcheck⟩ := Prod.mk.inj hrun
  exact ⟨s, s', hs, hw, h1, h2, hcheck⟩

/-- **A missed deadlock.** Two processes wait for each other. -/
theorem checkForDeadlock_dosProcesos : ∃ s s' : Estado,
    exec atender (estadoInicial [("REC1", 1), ("REC2", 1)]) cruzados = some s ∧
      onWait s 2 "REC1" = some s' ∧
      (findProcess s'.plan 2).map Pcb.currentStatus = some .BLOCK ∧
      EsperaCircular s'.plan 2 ∧ checkForDeadlock s'.plan 2 "REC1" = false := by
  obtain ⟨s, s', hs, hw, h1, h2, hcheck⟩ := cruzados_bloqueados
  exact ⟨s, s', hs, hw, by rw [h2]; rfl,
    circular_of_espera h2 ⟨rfl, rfl⟩ h1 (by decide) ⟨rfl, rfl⟩ (by decide), hcheck⟩

end OperatingSystem.Kernel.Interbloqueo
