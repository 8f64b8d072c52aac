import OperatingSystem.Lib.Dictionary

/-! # Processes (`kernel/src/core/process/process.c`, `kernel/src/model/pcb.h`)

The processes the planners know are those of `running_process_contexts`, by their pid. The planner's
queue is kept as a list; which of its processes is next is left to the planner, so that what follows
holds for FIFO, RR and PRIORIDADES alike. A process that ends leaves both, and its PCB is freed: a
later access to it has no behaviour. -/

namespace OperatingSystem.Kernel.Proceso

open OperatingSystem.Lib.Dictionary

inductive Status where
  | NEW | READY | EXEC | BLOCK | EXIT
  deriving DecidableEq

inductive ModoApertura where
  | R | W
  deriving DecidableEq

/-- Why a process leaves the CPU for good. -/
inductive OpCode where
  | PROC_EXIT_SUCCESS | PROC_EXIT_FORCE | PROC_EXIT_RESOURCE_NOT_FOUND | PROC_EXIT_OUT_OF_MEMORY
  | PROC_EXIT_SEG_FAULT | PROC_EXIT_INVALID_WRITE
  deriving DecidableEq

/-- `t_file`, an entry of the open files of a process. -/
structure File where
  nombreArchivo : String
  punteroArchivo : ℤ
  modoApertura : ModoApertura
  deriving DecidableEq

/-- `t_pcb`: what the modelled functions use. The pid is the key it is stored under. -/
structure Pcb where
  currentStatus : Status
  asignedResources : List String
  blockedByResourceName : Option String
  openFiles : List File
  pendingFile : Option File
  deriving DecidableEq

/-- The PCB of `create_new_pcb`. -/
def createNewPcb : Pcb := ⟨.NEW, [], none, [], none⟩

/-- `string_equals_ignore_case` -/
def stringEqualsIgnoreCase (a b : String) : Bool :=
  a.toList.map Char.toLower = b.toList.map Char.toLower

theorem stringEqualsIgnoreCase_self (a : String) : stringEqualsIgnoreCase a a = true := by
  simp [stringEqualsIgnoreCase]

def processAssignResource (pcb : Pcb) (resourceName : String) : Pcb :=
  { pcb with
    blockedByResourceName := none
    asignedResources := pcb.asignedResources ++ [resourceName] }

/-- The first entry of that name goes, upper and lower case being the same. -/
def processRemoveResource (pcb : Pcb) (resourceName : String) : Pcb :=
  { pcb with
    asignedResources := pcb.asignedResources.eraseP (stringEqualsIgnoreCase · resourceName) }

def processFindOpenFile (pcb : Pcb) (fileName : String) : Option File :=
  pcb.openFiles.find? (·.nombreArchivo = fileName)

/-- Without an open file of that name `file_destroy` gets a null pointer. -/
def processRemoveOpenFile (pcb : Pcb) (fileName : String) : Option Pcb := do
  let openFile ← processFindOpenFile pcb fileName
  return { pcb with openFiles := pcb.openFiles.erase openFile }

/-- The mode in which the process has the file open, if it has. -/
def processHasOpenFile (pcb : Pcb) (fileName : String) : Option ModoApertura :=
  (processFindOpenFile pcb fileName).map File.modoApertura

def fileCreate (fileName : String) (mode : ModoApertura) : File := ⟨fileName, 0, mode⟩

def processAssignOpenFile (pcb : Pcb) (fileName : String) (mode : ModoApertura) : Pcb :=
  { pcb with openFiles := pcb.openFiles ++ [fileCreate fileName mode], pendingFile := none }

def processAssignPendingFile (pcb : Pcb) (fileName : String) (mode : ModoApertura) : Pcb :=
  { pcb with pendingFile := some (fileCreate fileName mode) }

/-! ### The planners' state -/

/-- `running_process_contexts`, the queue of the short-term planner, the interruptions for the CPU,
the last pid given, and the processes that ended with their exit codes. -/
structure Planificador where
  running : Dict ℤ Pcb
  ready : List ℤ
  interruptions : List (ℤ × OpCode)
  lastPid : ℤ
  exited : List (ℤ × OpCode)

def planificadorInicial : Planificador := ⟨Dict.empty, [], [], 0, []⟩

def findProcess (k : Planificador) (pid : ℤ) : Option Pcb := k.running.get pid

def setProcess (k : Planificador) (pid : ℤ) (pcb : Pcb) : Planificador :=
  { k with running := k.running.put pid pcb }

/-- `process_ready`, through `ready_process`. -/
def readyProcess (k : Planificador) (pid : ℤ) (pcb : Pcb) : Planificador :=
  { k with
    ready := k.ready ++ [pid]
    running := k.running.put pid { pcb with currentStatus := .READY } }

/-- `remove_process` of the planners. -/
def removeProcess (k : Planificador) (pid : ℤ) : Planificador :=
  { k with ready := k.ready.erase pid }

/-- A process the CPU runs is to leave it. -/
def interrumpir (k : Planificador) (pid : ℤ) (reason : OpCode) : Planificador :=
  { k with interruptions := k.interruptions ++ [(pid, reason)] }

/-- `exit_process`, with the `process_release` that ends it. -/
def exitProcess (k : Planificador) (pid : ℤ) (exitCode : OpCode) : Planificador :=
  { k with running := k.running.remove pid, exited := k.exited ++ [(pid, exitCode)] }

/-- `long_term_planner` admits the next new process. -/
def admitir (k : Planificador) : Planificador :=
  readyProcess { k with lastPid := k.lastPid + 1 } (k.lastPid + 1) createNewPcb

/-- `short_term_planner` takes a process of the queue and runs it (`process_execute`). -/
def despachar (k : Planificador) (pid : ℤ) : Option Planificador :=
  if pid ∈ k.ready then do
    let pcb ← findProcess k pid
    return setProcess (removeProcess k pid) pid { pcb with currentStatus := .EXEC }
  else none

/-- The PCB of a process the CPU runs. -/
def enEjecucion (k : Planificador) (pid : ℤ) : Option Pcb := do
  let pcb ← findProcess k pid
  if pcb.currentStatus = .EXEC then some pcb else none

/-- `onEvicted` -/
def onEvicted (k : Planificador) (pid : ℤ) : Option Planificador := do
  let pcb ← enEjecucion k pid
  return readyProcess k pid pcb

/-! ### The planners' invariant -/

/-- The queue of the planner has processes that are ready, each once, and pids are given upwards
from `1`. -/
structure PlanInv (k : Planificador) : Prop where
  listos : ∀ q ∈ k.ready, ∃ pcb, k.running.get q = some pcb ∧ pcb.currentStatus = .READY
  nodup : k.ready.Nodup
  pids : ∀ q pcb, k.running.get q = some pcb → 0 < q ∧ q ≤ k.lastPid
  lastPid : 0 ≤ k.lastPid

section

variable {k : Planificador} {p : ℤ} {pcb pcb' : Pcb}

theorem planInv_inicial : PlanInv planificadorInicial :=
  ⟨by simp [planificadorInicial], List.nodup_nil, by simp [planificadorInicial], le_rfl⟩

/-- One process changes, and with it its place in the queue. -/
theorem PlanInv.put {ready : List ℤ} (h : PlanInv k) (hp : k.running.get p = some pcb)
    (hready : ∀ q ∈ ready, (q = p ∧ pcb'.currentStatus = .READY) ∨ (q ≠ p ∧ q ∈ k.ready))
    (hnd : ready.Nodup) : PlanInv { k with running := k.running.put p pcb', ready := ready } := by
  refine ⟨fun q hq => ?_, hnd, fun q pcb₁ hq => ?_, h.lastPid⟩
  · rcases hready q hq with ⟨rfl, hst⟩ | ⟨hqp, hq⟩
    · exact ⟨pcb', Dict.get_put_self .., hst⟩
    · obtain ⟨pcb₁, hpcb, hst⟩ := h.listos q hq
      exact ⟨pcb₁, (Dict.get_put_of_ne _ hqp _).trans hpcb, hst⟩
  · by_cases hqp : q = p
    · exact hqp ▸ h.pids p pcb hp
    · exact h.pids q pcb₁ ((Dict.get_put_of_ne _ hqp _).symm.trans hq)

/-- A process that is not ready is not in the queue. -/
theorem PlanInv.not_mem_ready (h : PlanInv k) (hp : k.running.get p = some pcb)
    (hst : pcb.currentStatus ≠ .READY) : p ∉ k.ready := fun hm => by
  obtain ⟨pcb₁, h1, h2⟩ := h.listos p hm
  obtain rfl := Option.some.inj (hp.symm.trans h1)
  exact hst h2

/-- A process that stays out of the queue. -/
theorem PlanInv.put_fuera (h : PlanInv k) (hp : k.running.get p = some pcb)
    (hst : pcb.currentStatus ≠ .READY) (pcb' : Pcb) : PlanInv (setProcess k p pcb') :=
  h.put hp (fun _ hq => Or.inr ⟨fun he => h.not_mem_ready hp hst (he ▸ hq), hq⟩) h.nodup

/-- A process that changes, but not its status. -/
theorem PlanInv.mismoEstado (h : PlanInv k) (hp : k.running.get p = some pcb)
    (hst : pcb'.currentStatus = pcb.currentStatus) : PlanInv (setProcess k p pcb') := by
  refine h.put hp (fun q hq => ?_) h.nodup
  by_cases hqp : q = p
  · subst hqp
    obtain ⟨pcb₁, h1, h2⟩ := h.listos q hq
    obtain rfl := Option.some.inj (hp.symm.trans h1)
    exact Or.inl ⟨rfl, hst.trans h2⟩
  · exact Or.inr ⟨hqp, hq⟩

/-- A process becomes ready. -/
theorem PlanInv.ready (h : PlanInv k) (hp : k.running.get p = some pcb)
    (hst : pcb.currentStatus ≠ .READY) (pcb' : Pcb) : PlanInv (readyProcess k p pcb') := by
  have hnot := h.not_mem_ready hp hst
  refine h.put hp (fun q hq => ?_) (List.nodup_append.mpr ⟨h.nodup, by simp, by
    simpa using fun x hx (he : x = p) => hnot (he ▸ hx)⟩)
  rcases List.mem_append.mp hq with hq | hq
  · exact Or.inr ⟨fun he => hnot (he ▸ hq), hq⟩
  · exact Or.inl ⟨by simpa using hq, rfl⟩

/-- The process that is next runs. -/
theorem PlanInv.despachar (h : PlanInv k) (hready : p ∈ k.ready) :
    ∃ pcb, k.running.get p = some pcb ∧ pcb.currentStatus = .READY ∧
      Proceso.despachar k p =
        some (setProcess (removeProcess k p) p { pcb with currentStatus := .EXEC }) ∧
      PlanInv (setProcess (removeProcess k p) p { pcb with currentStatus := .EXEC }) := by
  obtain ⟨pcb, hp, hst⟩ := h.listos p hready
  refine ⟨pcb, hp, hst, ?_, h.put hp (fun q hq => Or.inr ((h.nodup.mem_erase_iff).mp hq))
    (h.nodup.erase p)⟩
  rw [Proceso.despachar, if_pos hready, findProcess, hp]
  rfl

theorem PlanInv.interrumpir (h : PlanInv k) (p : ℤ) (reason : OpCode) :
    PlanInv (interrumpir k p reason) := ⟨h.listos, h.nodup, h.pids, h.lastPid⟩

theorem PlanInv.salir (h : PlanInv k) (p : ℤ) (exitCode : OpCode) :
    PlanInv (exitProcess (removeProcess k p) p exitCode) := by
  refine ⟨fun q hq => ?_, h.nodup.erase p, fun q pcb₁ hq => ?_, h.lastPid⟩
  · obtain ⟨hqp, hq⟩ := (h.nodup.mem_erase_iff).mp hq
    obtain ⟨pcb₁, hpcb, hst⟩ := h.listos q hq
    exact ⟨pcb₁, (Dict.get_remove_of_ne _ hqp).trans hpcb, hst⟩
  · have hqp : q ≠ p := by
      rintro rfl
      simp [exitProcess, removeProcess] at hq
    exact h.pids q pcb₁ ((Dict.get_remove_of_ne _ hqp).symm.trans hq)

theorem PlanInv.fresh (h : PlanInv k) : k.running.get (k.lastPid + 1) = none := by
  by_contra hne
  obtain ⟨pcb, hpcb⟩ := Option.ne_none_iff_exists'.mp hne
  have := (h.pids _ pcb hpcb).2
  omega

theorem PlanInv.admitir (h : PlanInv k) : PlanInv (Proceso.admitir k) := by
  have hfresh := h.fresh
  have hlast := h.lastPid
  have hnot : k.lastPid + 1 ∉ k.ready := fun hm => by
    obtain ⟨pcb, h1, -⟩ := h.listos _ hm
    rw [hfresh] at h1
    simp at h1
  refine ⟨fun q hq => ?_, ?_, fun q pcb₁ hq => ?_, ?_⟩
  · rcases List.mem_append.mp hq with hq | hq
    · obtain ⟨pcb, h1, h2⟩ := h.listos q hq
      have hqp : q ≠ k.lastPid + 1 := fun he => hnot (he ▸ hq)
      exact ⟨pcb, (Dict.get_put_of_ne _ hqp _).trans h1, h2⟩
    · obtain rfl : q = k.lastPid + 1 := by simpa using hq
      exact ⟨_, Dict.get_put_self .., rfl⟩
  · exact List.nodup_append.mpr ⟨h.nodup, by simp, by
      simpa using fun x hx (he : x = k.lastPid + 1) => hnot (he ▸ hx)⟩
  · by_cases hqp : q = k.lastPid + 1
    · subst hqp
      simp only [Proceso.admitir, readyProcess]
      omega
    · have := h.pids q pcb₁ ((Dict.get_put_of_ne _ hqp _).symm.trans hq)
      simp only [Proceso.admitir, readyProcess]
      omega
  · simp only [Proceso.admitir, readyProcess]
    omega

theorem enEjecucion_eq_some :
    enEjecucion k p = some pcb ↔ k.running.get p = some pcb ∧ pcb.currentStatus = .EXEC := by
  simp only [enEjecucion, findProcess, Option.bind_eq_bind, Option.bind_eq_some_iff]
  constructor
  · rintro ⟨pcb₁, h1, h2⟩
    split_ifs at h2 with hst
    obtain rfl := Option.some.inj h2
    exact ⟨h1, hst⟩
  · rintro ⟨h1, h2⟩
    exact ⟨pcb, h1, if_pos h2⟩

end

end OperatingSystem.Kernel.Proceso
