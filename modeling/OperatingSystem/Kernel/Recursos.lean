import OperatingSystem.Kernel.Proceso

/-! # Resources (`kernel/src/core/resources/resources.c`, `process_handler.c`)

A resource counts its free instances in `available_qty`, which goes below zero by the number of
processes queued in `blocked_pids`, and once more, for the logs, in `available_instances`. The PCBs
list the instances that the processes hold.

Every function below is the function of that name of the source; `atender` serves what the CPU, the
console and the planners ask for. -/

namespace OperatingSystem.Kernel.Recursos

open OperatingSystem.Lib.Dictionary
open OperatingSystem.Kernel.Proceso

structure Resource where
  maxQty : ℤ
  availableQty : ℤ
  availableInstances : ℤ
  blockedPids : List ℤ

/-- The planners' state and the resources. -/
structure Estado where
  plan : Planificador
  resources : Dict String Resource

def setResource (s : Estado) (resourceName : String) (resource : Resource) : Estado :=
  { s with resources := s.resources.put resourceName resource }

def setPlan (s : Estado) (plan : Planificador) : Estado := { s with plan := plan }

/-! ### `resources.c` -/

def RESOURCE_NOT_DEFINED : ℤ := -2

def ERROR_ON_ATOMIC_ASSIGNMENT : ℤ := -3

def INEXISTENT_NEXT_PID : ℤ := -4

def resourceCreate (resourceQty : ℤ) : Resource := ⟨resourceQty, resourceQty, resourceQty, []⟩

def resourcesInitialize (recursos : List (String × ℤ)) : Dict String Resource :=
  recursos.foldl (fun d r => d.put r.1 (resourceCreate r.2)) Dict.empty

def resourcesRequest (s : Estado) (resourceName : String) (pid : ℤ) : ℤ × Estado :=
  match s.resources.get resourceName with
  | none => (RESOURCE_NOT_DEFINED, s)
  | some resource =>
    let availableQty := resource.availableQty - 1
    if 0 ≤ availableQty then
      (0, setResource s resourceName { resource with availableQty := availableQty })
    else
      let blockedPids := resource.blockedPids ++ [pid]
      (-availableQty, setResource s resourceName
        { resource with availableQty := availableQty, blockedPids := blockedPids })

def resourcesRelease (s : Estado) (resourceName : String) : ℤ × Estado :=
  match s.resources.get resourceName with
  | none => (RESOURCE_NOT_DEFINED, s)
  | some resource =>
    let availableQty := resource.availableQty + 1
    let s := setResource s resourceName { resource with availableQty := availableQty }
    if resource.maxQty < availableQty then (ERROR_ON_ATOMIC_ASSIGNMENT, s)
    else if 0 < availableQty then (0, s)
    else (-availableQty, s)

/-- The first pid of the queue, which it leaves. -/
def resourcesNextPid (s : Estado) (resourceName : String) : ℤ × Estado :=
  match s.resources.get resourceName with
  | none => (RESOURCE_NOT_DEFINED, s)
  | some resource =>
    match resource.blockedPids with
    | [] => (INEXISTENT_NEXT_PID, s)
    | next :: rest => (next, setResource s resourceName { resource with blockedPids := rest })

/-- `add_resource_instances_available`, and with `-1` `sub_resource_instances_available`. -/
def addResourceInstances (s : Estado) (resourceName : String) (n : ℤ) : Estado :=
  match s.resources.get resourceName with
  | none => s
  | some resource => setResource s resourceName
      { resource with availableInstances := resource.availableInstances + n }

/-! ### `process_handler.c` -/

def assignResourceToQueuedProcess (s : Estado) (resourceName : String) : Estado :=
  let (pid, s) := resourcesNextPid s resourceName
  if 0 < pid then
    match findProcess s.plan pid with
    | none => s
    | some pcbToReady =>
      let s := addResourceInstances s resourceName (-1)
      setPlan s (readyProcess s.plan pid (processAssignResource pcbToReady resourceName))
  else s

/-- The end of a process that asks for a resource that does not exist. -/
def exitResourceNotFound (s : Estado) (pid : ℤ) : Estado :=
  setPlan s (exitProcess (removeProcess s.plan pid) pid .PROC_EXIT_RESOURCE_NOT_FOUND)

def releaseResource (s : Estado) (pid : ℤ) (resourceName : String) : Option Estado := do
  let pcb ← findProcess s.plan pid
  let (resourceAvailable, s) := resourcesRelease s resourceName
  if 0 ≤ resourceAvailable then
    let s := addResourceInstances s resourceName 1
    let s := setPlan s (setProcess s.plan pid (processRemoveResource pcb resourceName))
    if resourceAvailable = 0 then return assignResourceToQueuedProcess s resourceName
    else return s
  else return exitResourceNotFound s pid

def onSignal (s : Estado) (pid : ℤ) (resourceName : String) : Option Estado :=
  releaseResource s pid resourceName

def onWait (s : Estado) (pid : ℤ) (resourceName : String) : Option Estado := do
  let pcb ← findProcess s.plan pid
  let (availableResource, s) := resourcesRequest s resourceName pid
  if 0 ≤ availableResource then
    if availableResource = 0 then
      let s := addResourceInstances s resourceName (-1)
      return setPlan s (readyProcess s.plan pid (processAssignResource pcb resourceName))
    else
      return setPlan s (setProcess s.plan pid
        { pcb with currentStatus := .BLOCK, blockedByResourceName := some resourceName })
  else return exitResourceNotFound s pid

/-- The loop of `force_exit_process` over a copy of the list of resources. -/
def releaseResources (pid : ℤ) : List String → Estado → Option Estado
  | [], s => some s
  | resourceName :: rs, s => do
    let s ← releaseResource s pid resourceName
    releaseResources pid rs s

def forceExitProcess (s : Estado) (pid : ℤ) : Option Estado := do
  let pcb ← findProcess s.plan pid
  releaseResources pid pcb.asignedResources s

def onExit (s : Estado) (pid : ℤ) (exitCode : OpCode) : Option Estado := do
  let s ← forceExitProcess s pid
  return setPlan s (exitProcess (removeProcess s.plan pid) pid exitCode)

/-- `FINALIZAR_PROCESO`: a process in the CPU is interrupted, and ends when it comes back. -/
def handleForceProcessExit (s : Estado) (pid : ℤ) : Option Estado :=
  match findProcess s.plan pid with
  | none => some s
  | some pcb =>
    if pcb.currentStatus = .EXEC then
      some (setPlan s (interrumpir s.plan pid .PROC_EXIT_FORCE))
    else onExit s pid .PROC_EXIT_FORCE

/-! ### Requests -/

/-- What the planners, the CPU (for the process it runs) and the console ask for. -/
inductive Accion where
  | admitir
  | despachar (pid : ℤ)
  | desalojar (pid : ℤ)
  | wait (pid : ℤ) (resourceName : String)
  | signal (pid : ℤ) (resourceName : String)
  | exit (pid : ℤ) (exitCode : OpCode)
  | finalizar (pid : ℤ)

/-- Serve a request; only the process in the CPU waits, signals or exits. -/
def atender (s : Estado) : Accion → Option Estado
  | .admitir => some (setPlan s (admitir s.plan))
  | .despachar pid => (despachar s.plan pid).map (setPlan s)
  | .desalojar pid => (onEvicted s.plan pid).map (setPlan s)
  | .wait pid resourceName => do
    let _ ← enEjecucion s.plan pid
    onWait s pid resourceName
  | .signal pid resourceName => do
    let _ ← enEjecucion s.plan pid
    onSignal s pid resourceName
  | .exit pid exitCode => do
    let _ ← enEjecucion s.plan pid
    onExit s pid exitCode
  | .finalizar pid => handleForceProcessExit s pid

section

variable {s : Estado} {p : ℤ} {pcb : Pcb}

theorem atender_wait (hex : enEjecucion s.plan p = some pcb) (r : String) :
    atender s (.wait p r) = onWait s p r := by
  rw [atender, hex]
  rfl

theorem atender_signal (hex : enEjecucion s.plan p = some pcb) (r : String) :
    atender s (.signal p r) = releaseResource s p r := by
  rw [atender, hex]
  rfl

theorem atender_exit (hex : enEjecucion s.plan p = some pcb) (exitCode : OpCode) :
    atender s (.exit p exitCode) = onExit s p exitCode := by
  rw [atender, hex]
  rfl

end

def estadoInicial (recursos : List (String × ℤ)) : Estado :=
  ⟨planificadorInicial, resourcesInitialize recursos⟩

end OperatingSystem.Kernel.Recursos
