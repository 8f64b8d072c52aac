import OperatingSystem.Kernel.Exclusion

/-! # Opens and their locks

The locks and the queue of a file are in its `t_kernel_file`, and a process finds this object again by
the name of the file. So each object is numbered when it is made, and every use of a file, an open or
a wait for it, remembers the object of its open.

`Base` and `Llaves` are what every open and close keeps, also where the table of open files goes wrong:
who is queued is blocked and waits for that file, who waits is queued, and nobody waits for a file that
nobody has. This module has the uses and the opens, `Kernel.Cierres` the closes and whole requests. -/

namespace OperatingSystem.Kernel.Aperturas

open OperatingSystem.Lib.Dictionary
open OperatingSystem.Kernel.Proceso OperatingSystem.Kernel.Archivos
open OperatingSystem.Kernel.Exclusion

/-! ### Opens, closes and terminations -/

/-- The kernel, how many objects were made for each file, and for each process and file the objects of
its opens and of the open that it waits for. -/
structure Sistema where
  kernel : Archivos.Estado
  creados : String → ℕ
  objetos : ℤ × String → List ℕ

def inicial : Sistema := ⟨Archivos.estadoInicial, fun _ => 0, fun _ => []⟩

inductive Accion where
  | admitir
  | despachar (pid : ℤ)
  | desalojar (pid : ℤ)
  | abrir (pid : ℤ) (fileName : String) (mode : ModoApertura) (r : Respuestas)
  | cerrar (pid : ℤ) (fileName : String) (r : Respuestas)
  | terminar (pid : ℤ) (exitCode : OpCode)

/-- `get_file_from_filesystem` makes an object for a file that is not in the table. -/
def numerar (s : Sistema) (fileName : String) (r : Respuestas) : String → ℕ :=
  if s.kernel.openFiles.get fileName = none ∧ (getFileFromFilesystem s.kernel fileName r).isSome then
    Function.update s.creados fileName (s.creados fileName + 1)
  else s.creados

def atender (s : Sistema) : Accion → Option Sistema
  | .admitir => some { s with kernel := setPlan s.kernel (Proceso.admitir s.kernel.plan) }
  | .despachar pid => do
    let plan ← Proceso.despachar s.kernel.plan pid
    return { s with kernel := setPlan s.kernel plan }
  | .desalojar pid => do
    let plan ← onEvicted s.kernel.plan pid
    return { s with kernel := setPlan s.kernel plan }
  | .abrir pid fileName mode r => do
    let _ ← enEjecucion s.kernel.plan pid
    let kernel ← onFileOpen s.kernel pid fileName mode r
    let creados := numerar s fileName r
    let objetos := if (getFileFromFilesystem s.kernel fileName r).isSome then
        Function.update s.objetos (pid, fileName) (s.objetos (pid, fileName) ++ [creados fileName])
      else s.objetos
    return ⟨kernel, creados, objetos⟩
  | .cerrar pid fileName r => do
    let pcb ← enEjecucion s.kernel.plan pid
    let kernel ← onFileClose s.kernel pid fileName r
    let objetos := if (getFileFromFilesystem s.kernel fileName r).isSome ∧
          (processHasOpenFile pcb fileName).isSome then
        Function.update s.objetos (pid, fileName) (s.objetos (pid, fileName)).tail
      else s.objetos
    return ⟨kernel, numerar s fileName r, objetos⟩
  | .terminar pid exitCode => do
    let _ ← findProcess s.kernel.plan pid
    let plan := exitProcess (removeProcess s.kernel.plan pid) pid exitCode
    return { s with kernel := setPlan s.kernel plan }

/-- Only what the CPU runs opens and closes, and only a process ends. -/
def Protocolo (s : Sistema) : Accion → Prop
  | .admitir => True
  | .despachar pid => pid ∈ s.kernel.plan.ready
  | .desalojar pid | .abrir pid _ _ _ | .cerrar pid _ _ => (enEjecucion s.kernel.plan pid).isSome
  | .terminar pid _ => (findProcess s.kernel.plan pid).isSome

/-! ### Uses -/

/-- The process has the file open, or waits for it. -/
def Usa (s : Sistema) (fileName : String) (p : ℤ) : Prop :=
  ∃ pcb, s.kernel.plan.running.get p = some pcb ∧
    ((∃ f ∈ pcb.openFiles, f.nombreArchivo = fileName) ∨
      ∃ f ∈ pcb.pendingFile, f.nombreArchivo = fileName)

def abiertas (fileName : String) (pcb : Pcb) : ℕ :=
  pcb.openFiles.countP fun f => f.nombreArchivo = fileName

/-- Once if the process waits for the file. -/
def pendientes (fileName : String) (pcb : Pcb) : ℕ :=
  if ∃ f ∈ pcb.pendingFile, f.nombreArchivo = fileName then 1 else 0

def usos (fileName : String) (pcb : Pcb) : ℕ := abiertas fileName pcb + pendientes fileName pcb

/-- The uses of a file by a process, if there is one with that pid. -/
def usosDe (k : Archivos.Estado) (fileName : String) (p : ℤ) : ℕ :=
  ((k.plan.running.get p).map (usos fileName)).getD 0

variable {s s' : Sistema} {k k' : Archivos.Estado} {p q : ℤ} {fileName : String} {pcb pcb' : Pcb}
  {mode : ModoApertura} {r : Respuestas}

theorem usosDe_of_get (hp : k.plan.running.get p = some pcb) (fileName : String) :
    usosDe k fileName p = usos fileName pcb := by
  rw [usosDe, hp]
  rfl

theorem usosDe_of_none (hp : k.plan.running.get p = none) (fileName : String) :
    usosDe k fileName p = 0 := by
  rw [usosDe, hp]
  rfl

theorem abiertas_pos : 0 < abiertas fileName pcb ↔
    ∃ f ∈ pcb.openFiles, f.nombreArchivo = fileName := by
  simp [abiertas, List.countP_pos_iff]

theorem usos_pos : 0 < usos fileName pcb ↔ (∃ f ∈ pcb.openFiles, f.nombreArchivo = fileName) ∨
    ∃ f ∈ pcb.pendingFile, f.nombreArchivo = fileName := by
  rw [← abiertas_pos, usos, pendientes]
  split_ifs with h
  · exact ⟨fun _ => Or.inr h, fun _ => by omega⟩
  · exact ⟨fun hpos => Or.inl (by omega), fun h' => by
      have := h'.resolve_right h
      omega⟩

theorem usa_iff : Usa s fileName p ↔ 0 < usosDe s.kernel fileName p := by
  unfold Usa
  cases hp : s.kernel.plan.running.get p with
  | none => simp [usosDe, hp]
  | some pcb =>
    rw [usosDe_of_get hp, usos_pos]
    simp

/-- A granted open was waited for before. -/
theorem usos_assign (hpend : pcb.pendingFile = none) (fileName' : String) :
    usos fileName' (processAssignOpenFile pcb fileName mode) =
      usos fileName' pcb + if fileName' = fileName then 1 else 0 := by
  unfold usos abiertas pendientes processAssignOpenFile
  rw [List.countP_append, hpend]
  by_cases hn : fileName = fileName'
  · simp [fileCreate, hn]
  · simp [fileCreate, hn, Ne.symm hn]

theorem usos_pending (hpend : pcb.pendingFile = none) (fileName' : String) (st : Status) :
    usos fileName' { processAssignPendingFile pcb fileName mode with currentStatus := st } =
      usos fileName' pcb + if fileName' = fileName then 1 else 0 := by
  unfold usos abiertas pendientes processAssignPendingFile
  rw [hpend]
  by_cases hn : fileName = fileName'
  · simp [fileCreate, hn]
  · simp [fileCreate, hn, Ne.symm hn]

/-- What `onFileClose` makes of a process that gets the file it waits for. -/
def despertado (pcb : Pcb) : Pcb :=
  match pcb.pendingFile with
  | none => pcb
  | some f => { processAssignOpenFile pcb f.nombreArchivo f.modoApertura with currentStatus := .READY }

theorem usos_despertado (fileName : String) (pcb : Pcb) :
    usos fileName (despertado pcb) = usos fileName pcb := by
  unfold despertado
  cases hpend : pcb.pendingFile with
  | none => rfl
  | some f =>
    unfold usos abiertas pendientes processAssignOpenFile
    rw [List.countP_append, hpend]
    by_cases hn : f.nombreArchivo = fileName
    · simp [fileCreate, hn]
    · simp [fileCreate, hn]

/-! ### Who waits is queued -/

/-- **What every open and close keeps.** -/
structure Base (k : Archivos.Estado) : Prop where
  planInv : PlanInv k.plan
  nombre : ∀ fileName, (candado fileName k).nombreArchivo = fileName
  cola : ∀ fileName, ∀ req ∈ (candado fileName k).readWriteQueue, ∃ pcb,
    k.plan.running.get req.pid = some pcb ∧ pcb.currentStatus = .BLOCK ∧
      pcb.pendingFile = some (fileCreate fileName (modo req.mode))
  espera : ∀ p pcb f, k.plan.running.get p = some pcb → pcb.pendingFile = some f →
    pcb.currentStatus = .BLOCK ∧
      p ∈ (candado f.nombreArchivo k).readWriteQueue.map FileLockRequest.pid
  distintos : ∀ fileName, ((candado fileName k).readWriteQueue.map FileLockRequest.pid).Nodup

theorem Base.pendingFile_none (hB : Base k) (hp : k.plan.running.get p = some pcb)
    (hst : pcb.currentStatus ≠ .BLOCK) : pcb.pendingFile = none := by
  cases hpend : pcb.pendingFile with
  | none => rfl
  | some f => exact absurd (hB.espera p pcb f hp hpend).1 hst

theorem Base.not_mem_cola (hB : Base k)
    (hp : ∀ pcb, k.plan.running.get p = some pcb → pcb.currentStatus ≠ .BLOCK) (fileName : String) :
    p ∉ (candado fileName k).readWriteQueue.map FileLockRequest.pid := by
  intro hmem
  obtain ⟨req, hreq, rfl⟩ := List.mem_map.mp hmem
  obtain ⟨pcb, hpcb, hst, -⟩ := hB.cola fileName req hreq
  exact hp pcb hpcb hst

/-- A process that waits for nothing comes, or changes. -/
theorem Base.libre (hB : Base k)
    (hp : ∀ pcb, k.plan.running.get p = some pcb → pcb.currentStatus ≠ .BLOCK)
    (hpend : pcb'.pendingFile = none) (hplan : PlanInv k'.plan)
    (hrun : ∀ q, k'.plan.running.get q = if q = p then some pcb' else k.plan.running.get q)
    (hcand : ∀ fileName, (candado fileName k').nombreArchivo = fileName ∧
      (candado fileName k').readWriteQueue = (candado fileName k).readWriteQueue) : Base k' := by
  refine ⟨hplan, fun n => (hcand n).1, fun n req hreq => ?_, fun q pcb₁ f hq hf => ?_, fun n => ?_⟩
  · rw [(hcand n).2] at hreq
    obtain ⟨pcb, hpcb, hst, hf⟩ := hB.cola n req hreq
    refine ⟨pcb, ?_, hst, hf⟩
    rw [hrun, if_neg fun he : req.pid = p => hp pcb (he ▸ hpcb) hst]
    exact hpcb
  · rw [hrun] at hq
    split_ifs at hq with hqp
    · obtain rfl := Option.some.inj hq
      rw [hpend] at hf
      exact absurd hf (by simp)
    · rw [(hcand _).2]
      exact hB.espera q pcb₁ f hq hf
  · rw [(hcand n).2]
    exact hB.distintos n

/-- The process joins the queue. -/
theorem Base.encolar (hB : Base k) (hp : k.plan.running.get p = some pcb)
    (hst : pcb.currentStatus ≠ .BLOCK) (hst' : pcb'.currentStatus = .BLOCK)
    (hpend : pcb'.pendingFile = some (fileCreate fileName mode)) (hplan : PlanInv k'.plan)
    (hrun : ∀ q, k'.plan.running.get q = if q = p then some pcb' else k.plan.running.get q)
    (hcand : ∀ n, candado n k' = if n = fileName then queueLock (candado n k) p (pedido mode)
      else candado n k) : Base k' := by
  have hno := hB.not_mem_cola fun pcb₁ h1 => by
    obtain rfl := Option.some.inj (hp.symm.trans h1)
    exact hst
  have hcola : ∀ n, (candado n k').nombreArchivo = n ∧ (candado n k').readWriteQueue =
      (candado n k).readWriteQueue ++ if n = fileName then [⟨pedido mode, p⟩] else [] := by
    intro n
    rw [hcand]
    split_ifs
    · exact ⟨hB.nombre n, rfl⟩
    · exact ⟨hB.nombre n, (List.append_nil _).symm⟩
  refine ⟨hplan, fun n => (hcola n).1, fun n req hreq => ?_, fun q pcb₁ f hq hf => ?_, fun n => ?_⟩
  · rw [(hcola n).2] at hreq
    rcases List.mem_append.mp hreq with hreq | hreq
    · obtain ⟨pcb₁, hpcb, h1⟩ := hB.cola n req hreq
      refine ⟨pcb₁, ?_, h1⟩
      rw [hrun, if_neg fun he : req.pid = p => hno n (he ▸ List.mem_map_of_mem hreq)]
      exact hpcb
    · split_ifs at hreq with hn
      · obtain rfl := List.mem_singleton.mp hreq
        exact ⟨pcb', by rw [hrun, if_pos rfl], hst', by rw [hn, modo_pedido]; exact hpend⟩
      · exact absurd hreq (by simp)
  · rw [(hcola _).2, List.map_append, List.mem_append]
    rw [hrun] at hq
    split_ifs at hq with hqp
    · obtain rfl := Option.some.inj hq
      rw [hpend] at hf
      obtain rfl := Option.some.inj hf
      refine ⟨hst', Or.inr ?_⟩
      rw [if_pos (show (fileCreate fileName mode).nombreArchivo = fileName from rfl), hqp]
      exact List.mem_singleton.mpr rfl
    · obtain ⟨h1, h2⟩ := hB.espera q pcb₁ f hq hf
      exact ⟨h1, Or.inl h2⟩
  · rw [(hcola n).2, List.map_append]
    refine List.nodup_append.mpr ⟨hB.distintos n, ?_, fun a ha b hb => ?_⟩
    · split_ifs <;> simp
    · split_ifs at hb
      · obtain rfl : b = p := by simpa using hb
        rintro rfl
        exact hno n ha
      · exact absurd hb (by simp)

/-- The requests at the head of a queue are granted. -/
theorem Base.conceder (hB : Base k) {g rest : List FileLockRequest}
    (hcola : (candado fileName k).readWriteQueue = g ++ rest) (hplan : PlanInv k'.plan)
    (hrun : ∀ q, k'.plan.running.get q = if q ∈ g.map FileLockRequest.pid
      then (k.plan.running.get q).map despertado else k.plan.running.get q)
    (hnombre : ∀ n, (candado n k').nombreArchivo = n)
    (hcand : ∀ n, (candado n k').readWriteQueue = if n = fileName then rest
      else (candado n k).readWriteQueue) : Base k' := by
  have hnd := hB.distintos fileName
  rw [hcola, List.map_append] at hnd
  obtain ⟨-, hnd, hdis⟩ := List.nodup_append.mp hnd
  have hg : ∀ q ∈ g.map FileLockRequest.pid, ∃ pcb mode, k.plan.running.get q = some pcb ∧
      pcb.currentStatus = .BLOCK ∧ pcb.pendingFile = some (fileCreate fileName mode) := by
    intro q hq
    obtain ⟨req, hreq, rfl⟩ := List.mem_map.mp hq
    obtain ⟨pcb, h1, h2, h3⟩ := hB.cola fileName req (by rw [hcola]; exact List.mem_append_left _ hreq)
    exact ⟨pcb, _, h1, h2, h3⟩
  -- who waits for another file is not granted this one
  have hotro : ∀ n req, req ∈ (candado n k').readWriteQueue → req ∈ (candado n k).readWriteQueue ∧
      req.pid ∉ g.map FileLockRequest.pid := by
    intro n req hreq
    rw [hcand] at hreq
    split_ifs at hreq with hn
    · subst hn
      refine ⟨by rw [hcola]; exact List.mem_append_right _ hreq, fun hmem => ?_⟩
      exact hdis _ hmem _ (List.mem_map_of_mem hreq) rfl
    · refine ⟨hreq, fun hmem => ?_⟩
      obtain ⟨pcb, mode, h1, -, h3⟩ := hg _ hmem
      obtain ⟨pcb₁, h1', -, h3'⟩ := hB.cola n req hreq
      obtain rfl := Option.some.inj (h1.symm.trans h1')
      exact hn (congrArg File.nombreArchivo (Option.some.inj (h3'.symm.trans h3)))
  refine ⟨hplan, hnombre, fun n req hreq => ?_, fun q pcb₁ f hq hf => ?_, fun n => ?_⟩
  · obtain ⟨hreq, hno⟩ := hotro n req hreq
    obtain ⟨pcb, hpcb, h1⟩ := hB.cola n req hreq
    exact ⟨pcb, by rw [hrun, if_neg hno]; exact hpcb, h1⟩
  · rw [hrun] at hq
    split_ifs at hq with hmem
    · obtain ⟨pcb, mode, h1, -, h3⟩ := hg q hmem
      rw [h1] at hq
      obtain rfl := Option.some.inj hq
      rw [despertado, h3] at hf
      exact absurd hf (by simp [processAssignOpenFile])
    · obtain ⟨h1, h2⟩ := hB.espera q pcb₁ f hq hf
      refine ⟨h1, ?_⟩
      rw [hcand]
      split_ifs with hn
      · rw [hn, hcola, List.map_append] at h2
        exact (List.mem_append.mp h2).resolve_left hmem
      · exact h2
  · rw [hcand]
    split_ifs
    · exact hnd
    · exact hB.distintos n

/-- A process that uses no file ends. -/
theorem Base.terminar (hB : Base k) {exitCode : OpCode}
    (hpend : ∀ pcb, k.plan.running.get p = some pcb → pcb.pendingFile = none) :
    Base (setPlan k (exitProcess (removeProcess k.plan p) p exitCode)) := by
  refine ⟨hB.planInv.salir p exitCode, hB.nombre, fun n req hreq => ?_, fun q pcb f hq hf => ?_,
    hB.distintos⟩
  · obtain ⟨pcb, hpcb, hst, hf⟩ := hB.cola n req hreq
    have hne : req.pid ≠ p := fun he => by
      rw [hpend pcb (he ▸ hpcb)] at hf
      exact absurd hf (by simp)
    exact ⟨pcb, (Dict.get_remove_of_ne _ hne).trans hpcb, hst, hf⟩
  · have hne : q ≠ p := by
      rintro rfl
      simp [setPlan, exitProcess] at hq
    exact hB.espera q pcb f ((Dict.get_remove_of_ne _ hne).symm.trans hq) hf

/-! ### The entry of a file -/

theorem candado_of_get {file : KernelFile} (hf : k.openFiles.get fileName = some file) :
    candado fileName k = file := by
  rw [candado, hf]
  rfl

theorem candado_of_none (hf : k.openFiles.get fileName = none) :
    candado fileName k = kernelFileCreate fileName := by
  rw [candado, hf]
  rfl

theorem candado_congr {n : String} (hf : k'.openFiles.get n = k.openFiles.get n) :
    candado n k' = candado n k := by rw [candado, candado, hf]

/-- The answers of the file system that open the file, or make it. -/
def Exitosa (r : Respuestas) : Prop := 0 ≤ r.abrir ∨ r.crear = ARCHIVO_OK ∧ 0 ≤ r.reabrir

/-- The file is in the table then, as it was, or new. -/
theorem getFile_spec (k : Archivos.Estado) (fileName : String) (r : Respuestas) :
    (getFileFromFilesystem k fileName r = none ∧ ¬Exitosa r) ∨
      ∃ k₁, getFileFromFilesystem k fileName r = some (candado fileName k, k₁) ∧ k₁.plan = k.plan ∧
        ∀ n, k₁.openFiles.get n =
          if n = fileName then some (candado fileName k) else k.openFiles.get n := by
  cases hf : k.openFiles.get fileName with
  | some file =>
    rw [getFile_eq hf, candado_of_get hf]
    refine Or.inr ⟨k, rfl, rfl, fun n => ?_⟩
    split_ifs with hn
    · rw [hn, hf]
    · rfl
  | none =>
    have hnuevo : ∀ n, (setFile k (kernelFileCreate fileName)).openFiles.get n =
        if n = fileName then some (kernelFileCreate fileName) else k.openFiles.get n :=
      fun n => Dict.get_put _ _ _ _
    rw [getFileFromFilesystem, hf, candado_of_none hf]
    unfold Exitosa
    simp only [addToOpenFiles]
    split_ifs with h1 h2 h3
    · exact Or.inr ⟨_, rfl, rfl, hnuevo⟩
    · exact Or.inr ⟨_, rfl, rfl, hnuevo⟩
    · exact Or.inl ⟨rfl, fun h => h.elim h1 fun h => h3 h.2⟩
    · exact Or.inl ⟨rfl, fun h => h.elim h1 fun h => h2 h.1⟩

theorem aperturas_asignado (pcb : Pcb) (fileName : String) (mode : ModoApertura) (n : String)
    (m : ModoApertura) :
    aperturas n m (processAssignOpenFile pcb fileName mode) =
      aperturas n m pcb + if n = fileName ∧ m = mode then 1 else 0 := by
  unfold aperturas processAssignOpenFile
  rw [List.countP_append]
  by_cases hn : fileName = n
  · by_cases hm : mode = m
    · simp [fileCreate, hn, hm]
    · simp [fileCreate, hm, Ne.symm hm]
  · simp [fileCreate, hn, Ne.symm hn]

/-! ### One operation -/

/-- **The locks of a file that somebody waits for are of processes that have it.** -/
structure Llaves (k : Archivos.Estado) : Prop where
  escritura : ∀ n, (candado n k).activeWriteLock = true → 0 < abiertos n .W k
  lectura : ∀ n, (candado n k).activeReadLock ≤ abiertos n .R k
  cola : ∀ n, (candado n k).readWriteQueue ≠ [] → 0 < abiertos n .W k + abiertos n .R k

/-- One process changes, and the entry of one file. -/
structure Cambio (k k' : Archivos.Estado) (p : ℤ) (pcb' : Pcb) (fileName : String)
    (file : KernelFile) : Prop where
  planInv : PlanInv k'.plan
  running : k'.plan.running = k.plan.running.put p pcb'
  openFiles : ∀ n, k'.openFiles.get n = if n = fileName then some file else k.openFiles.get n

section

variable {file : KernelFile}

theorem Cambio.get (hC : Cambio k k' p pcb' fileName file) (q : ℤ) :
    k'.plan.running.get q = if q = p then some pcb' else k.plan.running.get q := by
  rw [hC.running]
  exact Dict.get_put _ _ _ _

theorem Cambio.candado (hC : Cambio k k' p pcb' fileName file) (n : String) :
    candado n k' = if n = fileName then file else candado n k := by
  rw [Exclusion.candado, hC.openFiles]
  split_ifs <;> rfl

theorem Cambio.claves (hC : Cambio k k' p pcb' fileName file) (n : String) :
    (k'.openFiles.get n).isSome ↔ n = fileName ∨ (k.openFiles.get n).isSome := by
  rw [hC.openFiles]
  split_ifs with hn <;> simp [hn]

theorem Cambio.usosDe (hC : Cambio k k' p pcb' fileName file)
    (hp : k.plan.running.get p = some pcb) {d : ℕ}
    (husos : ∀ n, usos n pcb' = usos n pcb + if n = fileName then d else 0) (n : String) (q : ℤ) :
    usosDe k' n q = usosDe k n q + if n = fileName ∧ q = p then d else 0 := by
  rw [Aperturas.usosDe, hC.get]
  by_cases hq : q = p
  · subst hq
    rw [usosDe_of_get hp]
    simp [husos]
  · simp [hq, Aperturas.usosDe]

/-- **The process gets the file.** -/
theorem Base.abrir (hB : Base k) (hp : k.plan.running.get p = some pcb)
    (hst : pcb.currentStatus ≠ .BLOCK)
    (hC : Cambio k k' p (processAssignOpenFile pcb fileName mode) fileName
      (otorgar mode (candado fileName k))) : Base k' := by
  refine hB.libre (p := p) (fun pcb₁ h1 => ?_) rfl hC.planInv hC.get fun n => ?_
  · obtain rfl := Option.some.inj (hp.symm.trans h1)
    exact hst
  · rw [hC.candado]
    split_ifs with hn
    · rw [hn]
      cases mode <;> exact ⟨hB.nombre _, rfl⟩
    · exact ⟨hB.nombre n, rfl⟩

theorem Llaves.abrir (hL : Llaves k) (hp : k.plan.running.get p = some pcb)
    (hlock : (candado fileName k).activeWriteLock = false)
    (hC : Cambio k k' p (processAssignOpenFile pcb fileName mode) fileName
      (otorgar mode (candado fileName k))) : Llaves k' := by
  have hab : ∀ n m, abiertos n m k' = abiertos n m k + if n = fileName ∧ m = mode then 1 else 0 := by
    intro n m
    have hasig := aperturas_asignado pcb fileName mode n m
    have hcambio := abiertos_cambio n hp hC.running m
    omega
  have hcand : ∀ n, n ≠ fileName → candado n k' = candado n k := fun n hn => by
    rw [hC.candado, if_neg hn]
  have hfile : candado fileName k' = otorgar mode (candado fileName k) := by
    rw [hC.candado, if_pos rfl]
  refine ⟨fun n hesc => ?_, fun n => ?_, fun n hcola => ?_⟩
  · by_cases hn : n = fileName
    · subst hn
      rw [hfile] at hesc
      cases mode with
      | R =>
        rw [show (otorgar .R (candado n k)).activeWriteLock = (candado n k).activeWriteLock from rfl,
          hlock] at hesc
        exact absurd hesc Bool.false_ne_true
      | W =>
        have hpos : 0 ≤ abiertos n .W k := Dict.sum_nonneg (aperturas_nonneg n .W)
        rw [hab, if_pos ⟨rfl, rfl⟩]
        omega
    · rw [hcand n hn] at hesc
      rw [hab, if_neg fun h => hn h.1, add_zero]
      exact hL.escritura n hesc
  · have hle := hL.lectura n
    by_cases hn : n = fileName
    · subst hn
      rw [hfile, hab]
      cases mode with
      | R =>
        rw [if_pos ⟨rfl, rfl⟩]
        change (candado n k).activeReadLock + 1 ≤ _
        omega
      | W =>
        rw [if_neg (by simp), add_zero]
        exact hle
    · rw [hcand n hn, hab, if_neg fun h => hn h.1, add_zero]
      exact hle
  · have hW : 0 ≤ abiertos n .W k := Dict.sum_nonneg (aperturas_nonneg n .W)
    have hR : 0 ≤ abiertos n .R k := Dict.sum_nonneg (aperturas_nonneg n .R)
    rw [hab, hab]
    by_cases hn : n = fileName
    · cases mode <;> simp [hn] <;> rw [← hn] <;> omega
    · rw [hcand n hn] at hcola
      have := hL.cola n hcola
      simp [hn]
      omega

/-- **The process waits** behind a writer. -/
theorem Llaves.encolar (hL : Llaves k) (hp : k.plan.running.get p = some pcb)
    (hlock : (candado fileName k).activeWriteLock = true)
    (hC : Cambio k k' p pcb' fileName (queueLock (candado fileName k) p (pedido mode)))
    (hopen : pcb'.openFiles = pcb.openFiles) : Llaves k' := by
  have hab : ∀ n m, abiertos n m k' = abiertos n m k := by
    intro n m
    rw [abiertos_cambio _ hp hC.running m, aperturas, aperturas, hopen]
    omega
  have hcand : ∀ n, (candado n k').activeWriteLock = (candado n k).activeWriteLock ∧
      (candado n k').activeReadLock = (candado n k).activeReadLock := fun n => by
    rw [hC.candado]
    split_ifs with hn
    · rw [hn]
      exact ⟨rfl, rfl⟩
    · exact ⟨rfl, rfl⟩
  refine ⟨fun n hesc => ?_, fun n => ?_, fun n hcola => ?_⟩
  · rw [(hcand n).1] at hesc
    rw [hab]
    exact hL.escritura n hesc
  · rw [(hcand n).2, hab]
    exact hL.lectura n
  · rw [hab, hab]
    by_cases hn : n = fileName
    · have hR : 0 ≤ abiertos n .R k := Dict.sum_nonneg (aperturas_nonneg n .R)
      have hW := hL.escritura n (by rw [hn]; exact hlock)
      omega
    · rw [hC.candado, if_neg hn] at hcola
      exact hL.cola n hcola

end

/-- **An open.** The process uses the file once more. -/
theorem onFileOpen_spec (hB : Base k) (hp : k.plan.running.get p = some pcb)
    (hst : pcb.currentStatus = .EXEC) (mode : ModoApertura) {k₁ : Archivos.Estado}
    (hget : getFileFromFilesystem k fileName r = some (candado fileName k, k₁))
    (hplan₁ : k₁.plan = k.plan) (hfiles₁ : ∀ n, k₁.openFiles.get n =
      if n = fileName then some (candado fileName k) else k.openFiles.get n) :
    ∃ k', onFileOpen k p fileName mode r = some k' ∧ Base k' ∧ (Llaves k → Llaves k') ∧
      (∀ n, (k'.openFiles.get n).isSome ↔ n = fileName ∨ (k.openFiles.get n).isSome) ∧
      ∀ n q, usosDe k' n q = usosDe k n q + if n = fileName ∧ q = p then 1 else 0 := by
  have hno : pcb.currentStatus ≠ .BLOCK := by rw [hst]; simp
  have hready : pcb.currentStatus ≠ .READY := by rw [hst]; simp
  have hpend := hB.pendingFile_none hp hno
  have hcambio : ∀ (file : KernelFile) (pcb' : Pcb), file.nombreArchivo = fileName →
      Cambio k (setPlan (setFile k₁ file) (setProcess (setFile k₁ file).plan p pcb')) p pcb' fileName
        file := by
    rintro file pcb' rfl
    have hplan : (setFile k₁ file).plan = k.plan := hplan₁
    refine ⟨?_, ?_, fun n => (Dict.get_put _ _ _ _).trans ?_⟩
    · rw [hplan]
      exact hB.planInv.put_fuera hp hready pcb'
    · rw [hplan]
      rfl
    · split_ifs with hn
      · rfl
      · rw [hfiles₁, if_neg hn]
  rw [onFileOpen, findProcess, hp, Option.bind_eq_bind, Option.bind_some, hget]
  cases hlock : (candado fileName k).activeWriteLock with
  | true =>
    simp only [openFile_eq, hlock, if_true]
    have hC := hcambio (queueLock (candado fileName k) p (pedido mode))
      { processAssignPendingFile pcb fileName mode with currentStatus := .BLOCK } (hB.nombre fileName)
    refine ⟨_, rfl, hB.encolar hp hno rfl (show _ = some (fileCreate fileName mode) from rfl)
      hC.planInv hC.get fun n => ?_,
      fun hL => hL.encolar hp hlock hC rfl, hC.claves, hC.usosDe hp fun n => usos_pending hpend n _⟩
    refine (hC.candado n).trans ?_
    split_ifs with hn
    · rw [hn]
    · rfl
  | false =>
    simp only [openFile_eq, hlock, Bool.false_eq_true, if_false]
    have hname : (otorgar mode (candado fileName k)).nombreArchivo = fileName := by
      cases mode <;> exact hB.nombre fileName
    have hC := hcambio (otorgar mode (candado fileName k)) (processAssignOpenFile pcb fileName mode)
      hname
    exact ⟨_, rfl, hB.abrir hp hno hC, fun hL => hL.abrir hp hlock hC, hC.claves,
      hC.usosDe hp fun n => usos_assign hpend n⟩

end OperatingSystem.Kernel.Aperturas
