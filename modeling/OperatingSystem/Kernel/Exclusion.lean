import OperatingSystem.Kernel.Archivos
import OperatingSystem.Lib.Run

/-! # Readers and writers

`Inv` ties the two locks of the file to the opens not yet closed, and its queue to the processes
blocked on it. In the middle of a close some requests have been granted whose processes are not woken
up yet: they are the list `prox` of `Inv archivo prox s`, and between requests `prox` is empty.

A write lock is granted without a look at the readers, and a close of a reader drops the file, or
hands it on, without a look at who else has it. The main result `exclusion` is that the locks are right
after every run in which no process opens the file for writing while another one reads it, and every
reader that closes it is the last to have it, or leaves readers and a queue behind. -/

namespace OperatingSystem.Kernel.Exclusion

open OperatingSystem.Lib.Dictionary OperatingSystem.Lib.Run
open OperatingSystem.Kernel.Proceso OperatingSystem.Kernel.Archivos

/-! ### The locks and the opens -/

/-- The entry of the file; a file that is in no entry has no locks. -/
def candado (archivo : String) (s : Estado) : KernelFile :=
  (s.openFiles.get archivo).getD (kernelFileCreate archivo)

/-- The times the process has the file open in a mode. -/
def aperturas (archivo : String) (mode : ModoApertura) (pcb : Pcb) : ℤ :=
  pcb.openFiles.countP fun f => f.nombreArchivo = archivo ∧ f.modoApertura = mode

/-- The opens of the file in a mode not yet closed. -/
def abiertos (archivo : String) (mode : ModoApertura) (s : Estado) : ℤ :=
  s.plan.running.sum (aperturas archivo mode)

/-- The mode in which a request opens the file. -/
def modo : Mode → ModoApertura
  | .FILE_MODE_READ => .R
  | .FILE_MODE_WRITE => .W

/-- The requests for a mode. -/
def pedidos (mode : ModoApertura) (prox : List FileLockRequest) : ℤ :=
  prox.countP fun req => modo req.mode = mode

theorem aperturas_nonneg (archivo : String) (mode : ModoApertura) (pcb : Pcb) :
    0 ≤ aperturas archivo mode pcb := by simp [aperturas]

theorem aperturas_pos {archivo : String} {mode : ModoApertura} {pcb : Pcb} :
    0 < aperturas archivo mode pcb ↔
      ∃ f ∈ pcb.openFiles, f.nombreArchivo = archivo ∧ f.modoApertura = mode := by
  simp [aperturas, List.countP_pos_iff]

/-- **The invariant of an open file.** -/
structure Inv (archivo : String) (prox : List FileLockRequest) (s : Estado) : Prop where
  planInv : PlanInv s.plan
  nombre : (candado archivo s).nombreArchivo = archivo
  nombres : ∀ q pcb, s.plan.running.get q = some pcb →
    ∀ f ∈ pcb.openFiles, f.nombreArchivo = archivo
  escritura : abiertos archivo .W s + pedidos .W prox =
    if (candado archivo s).activeWriteLock then 1 else 0
  lectura : abiertos archivo .R s + pedidos .R prox = (candado archivo s).activeReadLock
  propietario : (candado archivo s).activeWriteLock = true → ∃ p, (∀ req ∈ prox, req.pid = p) ∧
    ∀ q pcb, q ≠ p → s.plan.running.get q = some pcb → pcb.openFiles = []
  ultimo : ∀ q pcb, s.plan.running.get q = some pcb →
    ∀ f ∈ pcb.openFiles.dropLast, f.modoApertura = .R
  pendientes : ∀ req ∈ prox ++ (candado archivo s).readWriteQueue, ∃ pcb,
    s.plan.running.get req.pid = some pcb ∧ pcb.currentStatus = .BLOCK ∧
      pcb.pendingFile = some (fileCreate archivo (modo req.mode))
  distintos : ((prox ++ (candado archivo s).readWriteQueue).map FileLockRequest.pid).Nodup
  vacios : ∀ req ∈ prox, ∀ pcb, s.plan.running.get req.pid = some pcb → pcb.openFiles = []

section

variable {archivo : String} {prox prox' : List FileLockRequest} {s s' : Estado} {p : ℤ}
  {pcb pcb' : Pcb}

theorem abiertos_cambio (archivo : String) (hp : s.plan.running.get p = some pcb)
    (hrun : s'.plan.running = s.plan.running.put p pcb') (mode : ModoApertura) :
    abiertos archivo mode s' =
      abiertos archivo mode s - aperturas archivo mode pcb + aperturas archivo mode pcb' := by
  rw [abiertos, hrun]
  exact Dict.sum_put_of_some hp pcb' _

/-- A process that has the file open is counted. -/
theorem aperturas_le (archivo : String) (hp : s.plan.running.get p = some pcb) (mode : ModoApertura) :
    aperturas archivo mode pcb ≤ abiertos archivo mode s :=
  Dict.le_sum (aperturas_nonneg archivo mode) hp

/-- **A change of one process and of the locks** keeps the invariant if the locks follow the opens of
the process and the requests granted. -/
theorem Inv.cambiar (h : Inv archivo prox s) (hp : s.plan.running.get p = some pcb)
    (hrun : s'.plan.running = s.plan.running.put p pcb') (hplan : PlanInv s'.plan)
    (hnombre : (candado archivo s').nombreArchivo = archivo)
    (hnombres : ∀ f ∈ pcb'.openFiles, f.nombreArchivo = archivo)
    (hW : aperturas archivo .W pcb' + pedidos .W prox' +
        (if (candado archivo s).activeWriteLock then 1 else 0) =
      aperturas archivo .W pcb + pedidos .W prox +
        if (candado archivo s').activeWriteLock then 1 else 0)
    (hR : aperturas archivo .R pcb' + pedidos .R prox' + (candado archivo s).activeReadLock =
      aperturas archivo .R pcb + pedidos .R prox + (candado archivo s').activeReadLock)
    (hprop : (candado archivo s').activeWriteLock = true → ∃ p₁, (∀ req ∈ prox', req.pid = p₁) ∧
      (p ≠ p₁ → pcb'.openFiles = []) ∧
        ∀ q pcb₁, q ≠ p₁ → q ≠ p → s.plan.running.get q = some pcb₁ → pcb₁.openFiles = [])
    (hultimo : ∀ f ∈ pcb'.openFiles.dropLast, f.modoApertura = .R)
    (hpend : ∀ req ∈ prox' ++ (candado archivo s').readWriteQueue,
      (req.pid = p ∧ pcb'.currentStatus = .BLOCK ∧
        pcb'.pendingFile = some (fileCreate archivo (modo req.mode))) ∨
      req.pid ≠ p ∧ req ∈ prox ++ (candado archivo s).readWriteQueue)
    (hdist : ((prox' ++ (candado archivo s').readWriteQueue).map FileLockRequest.pid).Nodup)
    (hvac : ∀ req ∈ prox', req ∈ prox ∧ req.pid ≠ p) : Inv archivo prox' s' := by
  have hget : ∀ {q : ℤ} {pcb₁ : Pcb}, s'.plan.running.get q = some pcb₁ →
      (q = p ∧ pcb₁ = pcb') ∨ q ≠ p ∧ s.plan.running.get q = some pcb₁ := fun {q pcb₁} hq => by
    rw [hrun] at hq
    rcases Dict.get_put_eq_some.mp hq with ⟨hqp, heq⟩ | hq
    · exact Or.inl ⟨hqp, heq.symm⟩
    · exact Or.inr hq
  refine ⟨hplan, hnombre, fun q pcb₁ hq => ?_, ?_, ?_, fun hlock => ?_, fun q pcb₁ hq => ?_,
    fun req hreq => ?_, hdist, fun req hreq pcb₁ hq => ?_⟩
  · obtain ⟨-, rfl⟩ | ⟨-, hq⟩ := hget hq
    · exact hnombres
    · exact h.nombres q pcb₁ hq
  · have := h.escritura
    rw [abiertos_cambio _ hp hrun]
    omega
  · have := h.lectura
    rw [abiertos_cambio _ hp hrun]
    omega
  · obtain ⟨p₁, h1, h2, h3⟩ := hprop hlock
    refine ⟨p₁, h1, fun q pcb₁ hq₁ hq => ?_⟩
    obtain ⟨rfl, rfl⟩ | ⟨hqp, hq⟩ := hget hq
    · exact h2 hq₁
    · exact h3 q pcb₁ hq₁ hqp hq
  · obtain ⟨-, rfl⟩ | ⟨-, hq⟩ := hget hq
    · exact hultimo
    · exact h.ultimo q pcb₁ hq
  · obtain ⟨hqp, hst, hfile⟩ | ⟨hqp, hmem⟩ := hpend req hreq
    · exact ⟨pcb', by rw [hrun, hqp]; exact Dict.get_put_self .., hst, hfile⟩
    · obtain ⟨pcb₁, h1, h2⟩ := h.pendientes req hmem
      exact ⟨pcb₁, by rw [hrun]; exact (Dict.get_put_of_ne _ hqp _).trans h1, h2⟩
  · obtain ⟨hmem, hne⟩ := hvac req hreq
    obtain ⟨hqp, -⟩ | ⟨-, hq⟩ := hget hq
    · exact absurd hqp hne
    · exact h.vacios req hmem pcb₁ hq

/-- A process that is not blocked is in no queue. -/
theorem Inv.not_pendiente (h : Inv archivo prox s) (hp : s.plan.running.get p = some pcb)
    (hst : pcb.currentStatus ≠ .BLOCK) {req : FileLockRequest}
    (hreq : req ∈ prox ++ (candado archivo s).readWriteQueue) : req.pid ≠ p := fun he => by
  obtain ⟨pcb₁, h1, h2, -⟩ := h.pendientes req hreq
  obtain rfl := Option.some.inj (hp.symm.trans (he ▸ h1))
  exact hst h2

/-- Without a write lock nobody has the file open for writing. -/
theorem Inv.lectores (h : Inv archivo prox s) (hlock : (candado archivo s).activeWriteLock = false)
    (hp : s.plan.running.get p = some pcb) : ∀ f ∈ pcb.openFiles, f.modoApertura = .R := by
  intro f hf
  have hcero : ¬ 0 < aperturas archivo .W pcb := by
    have := h.escritura
    have := aperturas_le archivo hp .W
    have : 0 ≤ pedidos .W prox := by simp [pedidos]
    rw [hlock] at *
    simp at *
    omega
  cases hm : f.modoApertura with
  | R => rfl
  | W => exact absurd (aperturas_pos.mpr ⟨f, hf, h.nombres p pcb hp f hf, hm⟩) hcero

/-- A process that has the file open for writing holds the write lock. -/
theorem Inv.escritor (h : Inv archivo [] s) (hp : s.plan.running.get p = some pcb) {f : File}
    (hf : f ∈ pcb.openFiles) (hm : f.modoApertura = .W) :
    (candado archivo s).activeWriteLock = true := by
  by_contra hlock
  have := h.lectores (by simpa using hlock) hp f hf
  rw [hm] at this
  simp at this

/-- A process that has the file in no mode has no file. -/
theorem Inv.sin_aperturas (h : Inv archivo prox s) (hp : s.plan.running.get p = some pcb)
    (hcero : ∀ mode, aperturas archivo mode pcb = 0) : pcb.openFiles = [] := by
  refine List.eq_nil_iff_forall_not_mem.mpr fun f hf => ?_
  have := aperturas_pos.mpr ⟨f, hf, h.nombres p pcb hp f hf, rfl⟩
  rw [hcero] at this
  omega

/-- The invariant is about the processes and the locks. -/
theorem Inv.congr (h : Inv archivo prox s) (hplan : s'.plan = s.plan)
    (hcand : candado archivo s' = candado archivo s) : Inv archivo prox s' := by
  obtain ⟨h1, h2, h3, h4, h5, h6, h7, h8, h9, h10⟩ := h
  refine ⟨by rwa [hplan], by rwa [hcand], by rwa [hplan], ?_, ?_, ?_, by rwa [hplan], ?_, ?_, ?_⟩
  · rwa [hcand, abiertos, hplan]
  · rwa [hcand, abiertos, hplan]
  · rwa [hcand, hplan]
  · rwa [hcand, hplan]
  · rwa [hcand]
  · rwa [hplan]

theorem candado_setFile {file : KernelFile} (hn : file.nombreArchivo = archivo) :
    candado archivo (setFile s file) = file := by
  rw [candado, setFile, hn]
  simp

/-! ### What the processes do -/

theorem Inv.admitir (h : Inv archivo [] s) : Inv archivo [] (setPlan s (Proceso.admitir s.plan)) := by
  have hfresh := h.planInv.fresh
  have hget : ∀ {q pcb₁}, (Proceso.admitir s.plan).running.get q = some pcb₁ →
      s.plan.running.get q = some pcb₁ ∨ pcb₁.openFiles = [] := fun {q pcb₁} hq => by
    rcases Dict.get_put_eq_some.mp hq with ⟨rfl, rfl⟩ | ⟨-, hq⟩
    · exact Or.inr rfl
    · exact Or.inl hq
  have hab : ∀ mode, abiertos archivo mode (setPlan s (Proceso.admitir s.plan)) =
      abiertos archivo mode s := fun mode => by
    refine (Dict.sum_put_of_none hfresh _ _).trans ?_
    simp [abiertos, aperturas, createNewPcb]
  refine ⟨h.planInv.admitir, h.nombre, fun q pcb₁ hq => ?_, ?_, ?_, fun hlock => ?_,
    fun q pcb₁ hq => ?_, fun req hreq => ?_, h.distintos, by simp⟩
  · rcases hget hq with hq | hq
    · exact h.nombres q pcb₁ hq
    · simp [hq]
  · rw [hab]
    exact h.escritura
  · rw [hab]
    exact h.lectura
  · obtain ⟨p₁, h1, h2⟩ := h.propietario hlock
    exact ⟨p₁, h1, fun q pcb₁ hq₁ hq => (hget hq).elim (h2 q pcb₁ hq₁) id⟩
  · rcases hget hq with hq | hq
    · exact h.ultimo q pcb₁ hq
    · simp [hq]
  · obtain ⟨pcb₁, h1, h2⟩ := h.pendientes req hreq
    have hne : req.pid ≠ s.plan.lastPid + 1 := fun he => by
      rw [he, hfresh] at h1
      simp at h1
    exact ⟨pcb₁, (Dict.get_put_of_ne _ hne _).trans h1, h2⟩

/-- A process changes its status only. -/
theorem Inv.cambiarEstado (h : Inv archivo [] s) (hp : s.plan.running.get p = some pcb)
    (hst : pcb.currentStatus ≠ .BLOCK) {st : Status} {plan : Planificador}
    (hrun : plan.running = s.plan.running.put p { pcb with currentStatus := st })
    (hplan : PlanInv plan) : Inv archivo [] (setPlan s plan) := by
  refine h.cambiar hp hrun hplan h.nombre (h.nombres p pcb hp) rfl rfl (fun hlock => ?_)
    (h.ultimo p pcb hp) (fun req hreq => Or.inr ⟨h.not_pendiente hp hst hreq, hreq⟩) h.distintos
    (by simp)
  obtain ⟨p₁, h1, h2⟩ := h.propietario hlock
  exact ⟨p₁, h1, fun hne => h2 p pcb hne hp, fun q pcb₁ hq₁ _ => h2 q pcb₁ hq₁⟩

/-! ### Opening -/

/-- The request for a mode. -/
def pedido : ModoApertura → Mode
  | .R => .FILE_MODE_READ
  | .W => .FILE_MODE_WRITE

theorem modo_pedido (mode : ModoApertura) : modo (pedido mode) = mode := by cases mode <;> rfl

/-- The lock of a mode is taken. -/
def otorgar (mode : ModoApertura) (file : KernelFile) : KernelFile :=
  match mode with
  | .R => lockFileForReading file
  | .W => lockFileForWriting file

/-- **An open** looks at the write lock only. -/
theorem openFile_eq (file : KernelFile) (pid : ℤ) (mode : ModoApertura) :
    openFile file pid mode = if file.activeWriteLock then (false, queueLock file pid (pedido mode))
      else (true, otorgar mode file) := by
  cases mode
  · simp only [openFile, fileOpenInReadMode, isWriteLockActive, addParticipantToReadingLock,
      lockFileForReading, otorgar, pedido, ite_self]
  · rfl

theorem aperturas_assign (pcb : Pcb) (mode m : ModoApertura) :
    aperturas archivo m (processAssignOpenFile pcb archivo mode) =
      aperturas archivo m pcb + if m = mode then 1 else 0 := by
  rw [aperturas, processAssignOpenFile, List.countP_append]
  by_cases hm : m = mode
  · simp [hm, fileCreate, aperturas]
  · simp [hm, Ne.symm hm, fileCreate, aperturas]

/-- The process gets the file at once. -/
theorem Inv.abrir (h : Inv archivo [] s) (hp : s.plan.running.get p = some pcb)
    (hst : pcb.currentStatus = .EXEC) {mode : ModoApertura}
    (hlock : (candado archivo s).activeWriteLock = false)
    (hW : mode = .W → ∀ q pcb₁, q ≠ p → s.plan.running.get q = some pcb₁ → pcb₁.openFiles = [])
    (hplan : s'.plan = setProcess s.plan p (processAssignOpenFile pcb archivo mode))
    (hcand : candado archivo s' = otorgar mode (candado archivo s)) : Inv archivo [] s' := by
  have hnd : (candado archivo s').nombreArchivo = archivo ∧
      (candado archivo s').readWriteQueue = (candado archivo s).readWriteQueue := by
    rw [hcand]
    cases mode <;> exact ⟨h.nombre, rfl⟩
  refine h.cambiar hp (by rw [hplan]; rfl)
    (hplan ▸ h.planInv.put_fuera hp (by rw [hst]; simp) _) hnd.1 (fun f hf => ?_) ?_ ?_
    (fun hlock' => ?_) ?_ (fun req hreq => ?_) (by rw [hnd.2]; exact h.distintos) (by simp)
  · rcases List.mem_append.mp hf with hf | hf
    · exact h.nombres p pcb hp f hf
    · simp_all [fileCreate]
  · rw [aperturas_assign, hcand, hlock]
    cases mode with
    | R => simp [otorgar, lockFileForReading, hlock]
    | W =>
      simp [otorgar, lockFileForWriting]
      omega
  · rw [aperturas_assign, hcand]
    cases mode with
    | R =>
      simp [otorgar, lockFileForReading]
      omega
    | W => simp [otorgar, lockFileForWriting]
  · cases mode with
    | R => simp [hcand, otorgar, lockFileForReading, hlock] at hlock'
    | W => exact ⟨p, by simp, fun hne => absurd rfl hne, fun q pcb₁ hq _ => hW rfl q pcb₁ hq⟩
  · rw [processAssignOpenFile, List.dropLast_concat]
    exact h.lectores hlock hp
  · rw [hnd.2] at hreq
    exact Or.inr ⟨h.not_pendiente hp (by rw [hst]; simp) hreq, hreq⟩

/-- The process joins the queue. -/
theorem Inv.encolar (h : Inv archivo [] s) (hp : s.plan.running.get p = some pcb)
    (hst : pcb.currentStatus = .EXEC) {mode : ModoApertura}
    (hplan : s'.plan = setProcess s.plan p
      { processAssignPendingFile pcb archivo mode with currentStatus := .BLOCK })
    (hcand : candado archivo s' = queueLock (candado archivo s) p (pedido mode)) :
    Inv archivo [] s' := by
  have hno : ∀ req ∈ (candado archivo s).readWriteQueue, req.pid ≠ p := fun req hreq =>
    h.not_pendiente hp (by rw [hst]; simp) (by simpa using hreq)
  have hrun : s'.plan.running = s.plan.running.put p
    { processAssignPendingFile pcb archivo mode with currentStatus := .BLOCK } := by rw [hplan]; rfl
  refine h.cambiar hp hrun
    (hplan ▸ h.planInv.put_fuera hp (by rw [hst]; simp) _) (by rw [hcand]; exact h.nombre)
    (h.nombres p pcb hp) (by rw [hcand]; rfl) (by rw [hcand]; rfl) (fun hlock => ?_)
    (h.ultimo p pcb hp) (fun req hreq => ?_) ?_ (by simp)
  · rw [hcand] at hlock
    obtain ⟨p₁, h1, h2⟩ := h.propietario hlock
    exact ⟨p₁, h1, fun hne => h2 p pcb hne hp, fun q pcb₁ hq₁ _ => h2 q pcb₁ hq₁⟩
  · rw [hcand, queueLock, List.nil_append] at hreq
    rcases List.mem_append.mp hreq with hreq | hreq
    · exact Or.inr ⟨hno req hreq, by simpa using hreq⟩
    · obtain rfl : req = ⟨pedido mode, p⟩ := by simpa using hreq
      exact Or.inl ⟨rfl, rfl, by rw [modo_pedido]; rfl⟩
  · rw [hcand, queueLock, List.nil_append, List.map_append]
    refine List.nodup_append.mpr ⟨h.distintos, by simp, ?_⟩
    simpa using fun q hq (he : q.pid = p) => hno q hq he

/-! ### Closing -/

/-- The lock of a mode is given back. -/
def soltar (mode : ModoApertura) (file : KernelFile) : KernelFile :=
  match mode with
  | .R => removeParticipantFromReadLock file
  | .W => unlockFileForWriting file

theorem aperturas_cons {f : File} {fs : List File} (hf : pcb.openFiles = f :: fs)
    (hn : f.nombreArchivo = archivo) (m : ModoApertura) :
    aperturas archivo m pcb =
      aperturas archivo m { pcb with openFiles := fs } + if m = f.modoApertura then 1 else 0 := by
  rw [aperturas, hf, List.countP_cons]
  by_cases hm : m = f.modoApertura
  · simp [aperturas, hm, hn]
  · simp [aperturas, hm, Ne.symm hm]

/-- The process gives its first open of the file back. -/
theorem Inv.soltar (h : Inv archivo [] s) (hp : s.plan.running.get p = some pcb)
    (hst : pcb.currentStatus = .EXEC) {f : File} {fs : List File} (hf : pcb.openFiles = f :: fs)
    (hplan : s'.plan = setProcess s.plan p { pcb with openFiles := fs })
    (hcand : candado archivo s' = soltar f.modoApertura (candado archivo s)) :
    Inv archivo [] s' := by
  have hrun : s'.plan.running = s.plan.running.put p { pcb with openFiles := fs } := by
    rw [hplan]; rfl
  have hnd : (candado archivo s').nombreArchivo = archivo ∧
      (candado archivo s').readWriteQueue = (candado archivo s).readWriteQueue := by
    rw [hcand]
    cases f.modoApertura <;> exact ⟨h.nombre, rfl⟩
  have hn := h.nombres p pcb hp f (by simp [hf])
  refine h.cambiar hp hrun (hplan ▸ h.planInv.put_fuera hp (by rw [hst]; simp) _) hnd.1
    (fun g hg => h.nombres p pcb hp g (by simp [hf, show g ∈ fs from hg])) ?_ ?_ (fun hlock => ?_)
    (fun g hg => h.ultimo p pcb hp g ?_) (fun req hreq => ?_) (by rw [hnd.2]; exact h.distintos)
    (by simp)
  · rw [aperturas_cons hf hn, hcand]
    cases hm : f.modoApertura with
    | R =>
      rw [if_neg (show ¬ ModoApertura.W = .R by decide), add_zero]
      rfl
    | W =>
      rw [h.escritor hp (f := f) (by simp [hf]) hm]
      simp [Exclusion.soltar, unlockFileForWriting]
      omega
  · rw [aperturas_cons hf hn, hcand]
    cases hm : f.modoApertura with
    | R =>
      simp [Exclusion.soltar, removeParticipantFromReadLock]
      omega
    | W => simp [Exclusion.soltar, unlockFileForWriting]
  · have hlock₀ : (candado archivo s).activeWriteLock = true := by
      rw [hcand] at hlock
      cases hm : f.modoApertura with
      | R => rwa [hm] at hlock
      | W => simp [hm, Exclusion.soltar, unlockFileForWriting] at hlock
    obtain ⟨p₁, h1, h2⟩ := h.propietario hlock₀
    exact ⟨p₁, h1, fun hne => by simpa [hf] using h2 p pcb hne hp,
      fun q pcb₁ hq₁ _ => h2 q pcb₁ hq₁⟩
  · cases fs with
    | nil => simp at hg
    | cons g' fs => rw [hf, List.dropLast_cons_cons]; exact List.mem_cons_of_mem _ hg
  · rw [hnd.2] at hreq
    exact Or.inr ⟨h.not_pendiente hp (by rw [hst]; simp) hreq, hreq⟩

/-- Nobody has the file open. -/
def Vacio (s : Estado) : Prop := ∀ q pcb, s.plan.running.get q = some pcb → pcb.openFiles = []

theorem Vacio.abiertos (h : Vacio s) (mode : ModoApertura) : abiertos archivo mode s = 0 :=
  Dict.sum_eq_zero fun q pcb hq => by simp [aperturas, h q pcb hq]

theorem pedidos_concat (mode : ModoApertura) (prox : List FileLockRequest) (req : FileLockRequest) :
    pedidos mode (prox ++ [req]) = pedidos mode prox + if modo req.mode = mode then 1 else 0 := by
  rw [pedidos, List.countP_append]
  by_cases hm : modo req.mode = mode <;> simp [hm, pedidos]

/-- The request at the head of the queue is granted. -/
theorem Inv.mover {file file' : KernelFile} {next : FileLockRequest} {rest : List FileLockRequest}
    (h : Inv archivo prox (setFile s file)) (hv : Vacio s) (hlock : file.activeWriteLock = false)
    (hn : file.nombreArchivo = archivo) (hq : file.readWriteQueue = next :: rest)
    (hW : modo next.mode = .W → prox = [])
    (hfile' : file' = { otorgar (modo next.mode) file with readWriteQueue := rest }) :
    Inv archivo (prox ++ [next]) (setFile s file') := by
  have hn' : file'.nombreArchivo = archivo := by
    subst hfile'
    cases next.mode <;> exact hn
  have hq' : (prox ++ [next]) ++ file'.readWriteQueue = prox ++ file.readWriteQueue := by
    simp [hfile', hq]
  have hcand := candado_setFile (s := s) hn
  have hcand' := candado_setFile (s := s) hn'
  have hesc := h.escritura
  have hlec := h.lectura
  rw [hcand] at hesc hlec
  refine ⟨h.planInv, by rw [hcand', hn'], h.nombres, ?_, ?_, fun hlock' => ?_, h.ultimo,
    fun req hreq => ?_, ?_, fun req _ => hv req.pid⟩
  · rw [hcand', pedidos_concat, ← add_assoc]
    refine (congrArg (· + _) hesc).trans ?_
    cases hm : modo next.mode <;>
      simp [hfile', hm, hlock, otorgar, lockFileForReading, lockFileForWriting]
  · rw [hcand', pedidos_concat, ← add_assoc]
    refine (congrArg (· + _) hlec).trans ?_
    cases hm : modo next.mode <;>
      simp [hfile', hm, otorgar, lockFileForReading, lockFileForWriting]
  · rw [hcand'] at hlock'
    cases hm : modo next.mode with
    | R => simp [hfile', hm, hlock, otorgar, lockFileForReading] at hlock'
    | W => exact ⟨next.pid, by simp [hW hm], fun q pcb₁ _ => hv q pcb₁⟩
  · rw [hcand', hq'] at hreq
    exact h.pendientes req (by rw [hcand]; exact hreq)
  · rw [hcand', hq', ← hcand]
    exact h.distintos

/-- **What a close grants**: readers from the head of the queue up to the first writer, or one
writer. -/
theorem darLugar_inv : ∀ {queue prox : List FileLockRequest} {file : KernelFile},
    Inv archivo prox (setFile s { file with readWriteQueue := queue }) → Vacio s →
    file.activeWriteLock = false → file.nombreArchivo = archivo →
    ∃ prox', (darLugar queue file (prox.map FileLockRequest.pid)).2 =
        prox'.map FileLockRequest.pid ∧
      (darLugar queue file (prox.map FileLockRequest.pid)).1.nombreArchivo = archivo ∧
      Inv archivo prox' (setFile s (darLugar queue file (prox.map FileLockRequest.pid)).1)
  | [], prox, file, h, _, _, hn => ⟨prox, rfl, hn, h⟩
  | next :: rest, prox, file, h, hv, hlock, hn => by
    have hpid : prox.map FileLockRequest.pid ++ [next.pid] =
        (prox ++ [next]).map FileLockRequest.pid := by simp
    cases hm : next.mode with
    | FILE_MODE_READ =>
      simp only [darLugar, hm, hpid]
      exact darLugar_inv (h.mover hv hlock hn rfl (by simp [hm, modo]) (by rw [hm]; rfl)) hv hlock hn
    | FILE_MODE_WRITE =>
      simp only [darLugar, hm, List.length_map]
      split_ifs with hprox
      · obtain rfl := List.eq_nil_of_length_eq_zero hprox
        exact ⟨[next], rfl, hn, h.mover hv hlock hn rfl (fun _ => rfl) (by rw [hm]; rfl)⟩
      · exact ⟨prox, rfl, hn, h⟩

/-- Once granted, the process opens the file. -/
theorem Inv.despertar {req : FileLockRequest} (h : Inv archivo (req :: prox) s) :
    ∃ pcb, findProcess s.plan req.pid = some pcb ∧
      pcb.pendingFile = some (fileCreate archivo (modo req.mode)) ∧
      Inv archivo prox (setPlan s (readyProcess s.plan req.pid
        (processAssignOpenFile pcb archivo (modo req.mode)))) := by
  obtain ⟨pcb, hp, hst, hpend⟩ := h.pendientes req (by simp)
  have hvac := h.vacios req (by simp) pcb hp
  obtain ⟨hno, hdist⟩ := List.nodup_cons.mp h.distintos
  have hplan : PlanInv (readyProcess s.plan req.pid
      (processAssignOpenFile pcb archivo (modo req.mode))) :=
    h.planInv.ready hp (by rw [hst]; simp) _
  have hap : ∀ m, aperturas archivo m pcb = 0 := fun m => by simp [aperturas, hvac]
  have hap' : ∀ m, aperturas archivo m { processAssignOpenFile pcb archivo (modo req.mode) with
      currentStatus := .READY } = if m = modo req.mode then 1 else 0 := fun m =>
    (aperturas_assign pcb _ m).trans (by rw [hap, zero_add])
  have hped : ∀ m, pedidos m (req :: prox) = pedidos m prox + if m = modo req.mode then 1 else 0 :=
    fun m => by
      rw [pedidos, List.countP_cons]
      by_cases hm : modo req.mode = m
      · simp [hm, pedidos]
      · simp [hm, Ne.symm hm, pedidos]
  have hne : ∀ req' ∈ prox ++ (candado archivo s).readWriteQueue, req'.pid ≠ req.pid :=
    fun req' hreq' he => hno (he ▸ List.mem_map_of_mem hreq')
  refine ⟨pcb, hp, hpend, h.cambiar hp rfl hplan h.nombre (fun f hf => ?_) ?_ ?_
    (fun hlock => ?_) ?_ (fun req' hreq' => Or.inr ⟨hne req' hreq', List.mem_cons_of_mem _ hreq'⟩)
    hdist fun req' hreq' => ⟨List.mem_cons_of_mem _ hreq',
      hne req' (List.mem_append_left _ hreq')⟩⟩
  · simp_all [processAssignOpenFile, fileCreate]
  · rw [hap', hap, hped]
    exact congrArg (· + _) (by omega)
  · rw [hap', hap, hped]
    exact congrArg (· + _) (by omega)
  · obtain ⟨p₁, h1, h2⟩ := h.propietario hlock
    exact ⟨p₁, fun req' hreq' => h1 req' (List.mem_cons_of_mem _ hreq'),
      fun hne => absurd (h1 req (by simp)) hne, fun q pcb₁ hq _ => h2 q pcb₁ hq⟩
  · simp [processAssignOpenFile, hvac]

theorem despertar_spec : ∀ {prox : List FileLockRequest} {s : Estado}, Inv archivo prox s →
    ∃ s', despertar (prox.map FileLockRequest.pid) s = some s' ∧ Inv archivo [] s'
  | [], s, h => ⟨s, rfl, h⟩
  | req :: prox, s, h => by
    obtain ⟨pcb, hp, hpend, h'⟩ := h.despertar
    obtain ⟨s', hs', hinv⟩ := despertar_spec h'
    refine ⟨s', ?_, hinv⟩
    rw [List.map_cons, despertar, hp]
    simp only [Option.bind_eq_bind, Option.bind_some, hpend]
    exact hs'

theorem Inv.vacio (h : Inv archivo [] s) (hcero : abiertos archivo .W s + abiertos archivo .R s = 0) :
    Vacio s := fun q pcb hq => by
  have hW := aperturas_le archivo hq .W
  have hR := aperturas_le archivo hq .R
  have hW₀ := aperturas_nonneg archivo .W pcb
  have hR₀ := aperturas_nonneg archivo .R pcb
  refine h.sin_aperturas hq fun mode => ?_
  cases mode <;> omega

/-- A writer that closes the file was the only one to have it. -/
theorem Inv.vacio_escritor (h : Inv archivo [] s) (hp : s.plan.running.get p = some pcb) {f : File}
    {fs : List File} (hf : pcb.openFiles = f :: fs) (hm : f.modoApertura = .W)
    (hplan : s'.plan = setProcess s.plan p { pcb with openFiles := fs }) : Vacio s' := by
  obtain ⟨p₁, -, h1⟩ := h.propietario (h.escritor hp (by simp [hf]) hm)
  have hpp : p = p₁ := by
    by_contra hne
    simpa [hf] using h1 p pcb hne hp
  have hfs : fs = [] := by
    cases fs with
    | nil => rfl
    | cons g fs =>
      have := h.ultimo p pcb hp f (by simp [hf])
      rw [hm] at this
      simp at this
  intro q pcb₁ hq
  rw [hplan] at hq
  rcases Dict.get_put_eq_some.mp hq with ⟨rfl, rfl⟩ | ⟨hqp, hq⟩
  · exact hfs
  · exact h1 q pcb₁ (hpp ▸ hqp) hq

/-- What closing does with the entry of the file. -/
def cerrarArchivo (mode : ModoApertura) (file : KernelFile) : KernelFile × List ℤ :=
  match mode with
  | .W => fileCloseWriteMode file
  | .R => fileCloseReadMode file

/-- The rest of a close, once the process has given the file back. -/
def seguir (s : Estado) (r : KernelFile × List ℤ) : Option Estado :=
  despertar r.2 <| if r.2.length = 0 ∧ r.1.readWriteQueue.length = 0
    then removeFromOpenFiles (setFile s r.1) r.1.nombreArchivo else setFile s r.1

/-- A file that nobody has and nobody waits for has no locks. -/
theorem Inv.candado_vacio (h : Inv archivo [] s) (hv : Vacio s)
    (hcola : (candado archivo s).readWriteQueue = []) :
    candado archivo s = kernelFileCreate archivo := by
  have hW := h.escritura
  have hR := h.lectura
  have hn := h.nombre
  rw [hv.abiertos] at hW hR
  cases hc : candado archivo s with
  | mk nombre cola escritura lectura =>
    rw [hc] at hW hR hn hcola
    obtain rfl : lectura = 0 := by simpa [pedidos] using hR.symm
    cases escritura with
    | true => simp [pedidos] at hW
    | false => rw [kernelFileCreate, ← hn, ← hcola]

/-- When nobody is left the queue gets the file, or its entry goes. -/
theorem seguir_vacio {file : KernelFile} (h : Inv archivo [] (setFile s file)) (hv : Vacio s)
    (hlock : file.activeWriteLock = false) (hn : file.nombreArchivo = archivo) :
    ∃ s', seguir s (desencolarYDarLugarAlSiguienteLock file) = some s' ∧ Inv archivo [] s' := by
  have h' : Inv archivo [] (setFile s { file with readWriteQueue := file.readWriteQueue }) := h
  obtain ⟨prox, hpids, hn', hinv⟩ := darLugar_inv h' hv hlock hn
  rw [List.map_nil] at hpids hn' hinv
  rw [seguir, desencolarYDarLugarAlSiguienteLock, hpids]
  split_ifs with hfin
  · obtain ⟨hprox, hcola⟩ := hfin
    obtain rfl : prox = [] := by simpa using hprox
    have hcand := hinv.candado_vacio hv
      (by rw [candado_setFile hn']; exact List.eq_nil_of_length_eq_zero hcola)
    refine ⟨_, rfl, hinv.congr rfl (Eq.trans ?_ hcand.symm)⟩
    rw [candado, removeFromOpenFiles, hn', Dict.get_remove_self, Option.getD_none]
  · exact despertar_spec hinv

theorem getFile_eq {file : KernelFile} (hfile : s.openFiles.get archivo = some file)
    (r : Respuestas) : getFileFromFilesystem s archivo r = some (file, s) := by
  rw [getFileFromFilesystem, hfile]

/-- Without an answer of the file system nothing happens; else the file is the one with the locks. -/
theorem getFile_cases (s : Estado) (archivo : String) (r : Respuestas) :
    getFileFromFilesystem s archivo r = none ∨
      ∃ s₁, getFileFromFilesystem s archivo r = some (candado archivo s, s₁) ∧ s₁.plan = s.plan := by
  cases hfile : s.openFiles.get archivo with
  | some file => exact Or.inr ⟨s, by rw [getFile_eq hfile, candado, hfile]; rfl, rfl⟩
  | none =>
    rw [getFileFromFilesystem, candado, hfile]
    simp only [Option.getD_none, addToOpenFiles]
    split_ifs
    · exact Or.inr ⟨_, rfl, rfl⟩
    · exact Or.inr ⟨_, rfl, rfl⟩
    · exact Or.inl rfl
    · exact Or.inl rfl

/-- A close by a process that has the file open. -/
theorem onFileClose_eq (h : Inv archivo [] s) (hp : s.plan.running.get p = some pcb) {f : File}
    {fs : List File} (hf : pcb.openFiles = f :: fs) (r : Respuestas) :
    onFileClose s p archivo r =
      seguir (setPlan s (setProcess s.plan p { pcb with openFiles := fs }))
        (cerrarArchivo f.modoApertura (candado archivo s)) := by
  have hn := h.nombres p pcb hp f (by simp [hf])
  have hfind : processFindOpenFile pcb archivo = some f := by simp [processFindOpenFile, hf, hn]
  have hrem : processRemoveOpenFile pcb archivo = some { pcb with openFiles := fs } := by
    rw [processRemoveOpenFile, hfind]
    simp [hf]
  obtain ⟨file, hfile⟩ : ∃ file, s.openFiles.get archivo = some file := by
    refine Option.ne_none_iff_exists'.mp fun hnone => ?_
    have hcand : candado archivo s = kernelFileCreate archivo := by rw [candado, hnone]; rfl
    have hv : Vacio s := h.vacio <| by
      have hW := h.escritura
      have hR := h.lectura
      rw [hcand] at hW hR
      simp [kernelFileCreate, pedidos] at hW hR
      omega
    simpa [hf] using hv p pcb hp
  have hcand : candado archivo s = file := by rw [candado, hfile]; rfl
  rw [onFileClose, findProcess, hp, Option.bind_eq_bind, Option.bind_some, getFile_eq hfile, hcand]
  simp only [processHasOpenFile, hfind, hrem, Option.map_some]
  rfl

theorem abiertos_soltar (hp : s.plan.running.get p = some pcb) {f : File} {fs : List File}
    (hf : pcb.openFiles = f :: fs) (hn : f.nombreArchivo = archivo) (mode : ModoApertura) :
    abiertos archivo mode (setPlan s (setProcess s.plan p { pcb with openFiles := fs })) =
      abiertos archivo mode s - if mode = f.modoApertura then 1 else 0 := by
  refine (abiertos_cambio _ hp rfl mode).trans ?_
  rw [aperturas_cons hf hn]
  omega

/-- A close whose reader is the last to have the file, or leaves readers and a queue. -/
def CierreLector (archivo : String) (s : Estado) : Prop :=
  abiertos archivo .W s + abiertos archivo .R s = 1 ∨
    2 ≤ abiertos archivo .R s ∧ (candado archivo s).readWriteQueue ≠ []

/-- **A close keeps the invariant.** -/
theorem onFileClose_spec (h : Inv archivo [] s) (hp : s.plan.running.get p = some pcb)
    (hst : pcb.currentStatus = .EXEC) {f : File} {fs : List File} (hf : pcb.openFiles = f :: fs)
    (hlector : f.modoApertura = .R → CierreLector archivo s) (r : Respuestas) :
    ∃ s', onFileClose s p archivo r = some s' ∧ Inv archivo [] s' := by
  rw [onFileClose_eq h hp hf]
  have hn := h.nombres p pcb hp f (by simp [hf])
  have hname : (soltar f.modoApertura (candado archivo s)).nombreArchivo = archivo := by
    cases f.modoApertura <;> exact h.nombre
  have hinv : Inv archivo [] (setFile (setPlan s (setProcess s.plan p { pcb with openFiles := fs }))
      (soltar f.modoApertura (candado archivo s))) :=
    h.soltar hp hst hf rfl (candado_setFile hname)
  have hab := abiertos_soltar hp hf hn
  cases hm : f.modoApertura with
  | W =>
    rw [hm] at hinv hname
    exact seguir_vacio hinv (h.vacio_escritor hp hf hm rfl) rfl hname
  | R =>
    rw [hm] at hinv hname hab
    have hlec : (soltar .R (candado archivo s)).activeReadLock = abiertos archivo .R s - 1 :=
      congrArg (· - 1) (h.lectura.symm.trans (add_zero _))
    have hW : abiertos archivo .W (setPlan s (setProcess s.plan p { pcb with openFiles := fs })) =
      abiertos archivo .W s := (hab .W).trans (sub_zero _)
    have hR : abiertos archivo .R (setPlan s (setProcess s.plan p { pcb with openFiles := fs })) =
      abiertos archivo .R s - 1 := hab .R
    have hcerrar : cerrarArchivo .R (candado archivo s) = if 0 < abiertos archivo .R s - 1
        then (soltar .R (candado archivo s), [])
        else desencolarYDarLugarAlSiguienteLock (soltar .R (candado archivo s)) := by
      rw [← hlec]
      by_cases hpos : 0 < (soltar .R (candado archivo s)).activeReadLock <;>
        simp_all [cerrarArchivo, fileCloseReadMode, isReadLockActive, soltar]
    have hR₁ : 1 ≤ abiertos archivo .R s :=
      (aperturas_pos.mpr ⟨f, by simp [hf], hn, hm⟩).trans_le (aperturas_le archivo hp .R)
    rw [hcerrar]
    rcases hlector hm with huno | ⟨hdos, hcola⟩
    · -- nobody has the file any more
      have hW₀ : 0 ≤ abiertos archivo .W s := Dict.sum_nonneg (aperturas_nonneg archivo .W)
      have hv : Vacio (setFile (setPlan s (setProcess s.plan p { pcb with openFiles := fs }))
          (soltar .R (candado archivo s))) :=
        hinv.vacio ((congrArg₂ (· + ·) hW hR).trans (by omega))
      have hlock : (soltar .R (candado archivo s)).activeWriteLock = false := by
        by_contra hlock
        have hsi : (candado archivo s).activeWriteLock = true := eq_true_of_ne_false hlock
        have hesc := h.escritura
        simp [hsi, pedidos] at hesc
        omega
      rw [if_neg (by omega)]
      exact seguir_vacio hinv hv hlock hname
    · -- the readers keep it, and the queue its entry
      rw [if_pos (by omega), seguir, if_neg fun hfin => hcola (List.eq_nil_of_length_eq_zero hfin.2)]
      exact ⟨_, rfl, hinv⟩

/-! ### Requests -/

/-- The processes do as they say: only what the CPU runs opens and closes, and a process closes what it
was granted. -/
def Protocolo (archivo : String) (s : Estado) : Accion → Prop
  | .admitir => True
  | .despachar pid => pid ∈ s.plan.ready
  | .desalojar pid => (enEjecucion s.plan pid).isSome
  | .abrir pid _ _ => (enEjecucion s.plan pid).isSome
  | .cerrar pid _ => ∃ pcb, enEjecucion s.plan pid = some pcb ∧
      (processHasOpenFile pcb archivo).isSome

/-- **When readers and writers exclude each other**: nobody else reads the file when a process opens it
for writing, and a reader that closes it is the last to have it, or leaves readers and a queue. -/
def Condicion (archivo : String) (s : Estado) : Accion → Prop
  | .abrir pid mode _ => mode = .W → (candado archivo s).activeWriteLock = false →
      ∀ q pcb, q ≠ pid → s.plan.running.get q = some pcb → ∀ m, aperturas archivo m pcb = 0
  | .cerrar pid _ => ∀ pcb, s.plan.running.get pid = some pcb →
      processHasOpenFile pcb archivo = some .R → CierreLector archivo s
  | _ => True

/-- **An open keeps the invariant.** -/
theorem onFileOpen_spec (h : Inv archivo [] s) (hp : s.plan.running.get p = some pcb)
    (hst : pcb.currentStatus = .EXEC) {mode : ModoApertura} {r : Respuestas}
    (hc : Condicion archivo s (.abrir p mode r)) :
    ∃ s', onFileOpen s p archivo mode r = some s' ∧ Inv archivo [] s' := by
  rw [onFileOpen, findProcess, hp, Option.bind_eq_bind, Option.bind_some]
  rcases getFile_cases s archivo r with hget | ⟨s₁, hget, hplan⟩
  · rw [hget]
    exact ⟨s, rfl, h⟩
  · rw [hget]
    simp only [openFile_eq]
    cases hlock : (candado archivo s).activeWriteLock with
    | true => exact ⟨_, rfl, h.encolar hp hst (congrArg (setProcess · p _) hplan)
        (candado_setFile h.nombre)⟩
    | false =>
      have hname : (otorgar mode (candado archivo s)).nombreArchivo = archivo := by
        cases mode <;> exact h.nombre
      exact ⟨_, rfl, h.abrir hp hst hlock
        (fun hm q pcb₁ hne hq => h.sin_aperturas hq (hc hm hlock q pcb₁ hne hq))
        (congrArg (setProcess · p _) hplan) (candado_setFile hname)⟩

/-- **A request keeps the invariant.** -/
theorem atender_spec (h : Inv archivo [] s) {a : Accion} (hprot : Protocolo archivo s a)
    (hc : Condicion archivo s a) : ∃ s', atender archivo s a = some s' ∧ Inv archivo [] s' := by
  cases a with
  | admitir => exact ⟨_, rfl, h.admitir⟩
  | despachar p =>
    obtain ⟨pcb, hp, hst, hdesp, hplan⟩ := h.planInv.despachar hprot
    exact ⟨_, by rw [atender, hdesp]; rfl, h.cambiarEstado hp (by rw [hst]; simp) rfl hplan⟩
  | desalojar p =>
    obtain ⟨pcb, hex⟩ := Option.isSome_iff_exists.mp hprot
    obtain ⟨hp, hst⟩ := enEjecucion_eq_some.mp hex
    exact ⟨_, by rw [atender, onEvicted, hex]; rfl, h.cambiarEstado hp (by rw [hst]; simp) rfl
      (h.planInv.ready hp (by rw [hst]; simp) pcb)⟩
  | abrir p mode r =>
    obtain ⟨pcb, hex⟩ := Option.isSome_iff_exists.mp hprot
    obtain ⟨hp, hst⟩ := enEjecucion_eq_some.mp hex
    rw [atender, hex]
    exact onFileOpen_spec h hp hst hc
  | cerrar p r =>
    obtain ⟨pcb, hex, hopen⟩ := hprot
    obtain ⟨hp, hst⟩ := enEjecucion_eq_some.mp hex
    rw [atender, hex]
    cases hf : pcb.openFiles with
    | nil => simp [processHasOpenFile, processFindOpenFile, hf] at hopen
    | cons f fs =>
      have hn := h.nombres p pcb hp f (by simp [hf])
      refine onFileClose_spec h hp hst hf (fun hm => hc pcb hp ?_) r
      simp [processHasOpenFile, processFindOpenFile, hf, hn, hm]

theorem inv_estadoInicial (archivo : String) : Inv archivo [] estadoInicial := by
  refine ⟨planInv_inicial, rfl, ?_, rfl, rfl, ?_, ?_, ?_, List.nodup_nil, ?_⟩
  all_goals simp [candado, estadoInicial, planificadorInicial, kernelFileCreate]

end

/-! ### Runs -/

/-- The process has the file open in the mode. -/
def TieneAbierto (archivo : String) (mode : ModoApertura) (pcb : Pcb) : Prop :=
  ∃ f ∈ pcb.openFiles, f.nombreArchivo = archivo ∧ f.modoApertura = mode

instance (archivo : String) (mode : ModoApertura) (pcb : Pcb) :
    Decidable (TieneAbierto archivo mode pcb) := by unfold TieneAbierto; infer_instance

/-- **Readers and writers exclude each other**, and the two locks say who has the file. -/
structure Excluyente (archivo : String) (s : Estado) : Prop where
  exclusion : ∀ p pcb, s.plan.running.get p = some pcb → TieneAbierto archivo .W pcb →
    ∀ q pcb₁, q ≠ p → s.plan.running.get q = some pcb₁ → ∀ mode, ¬ TieneAbierto archivo mode pcb₁
  escritura : (candado archivo s).activeWriteLock = true ↔
    ∃! p, ∃ pcb, s.plan.running.get p = some pcb ∧ TieneAbierto archivo .W pcb
  lectura : (candado archivo s).activeReadLock = abiertos archivo .R s

theorem Inv.excluyente {archivo : String} {s : Estado} (h : Inv archivo [] s) :
    Excluyente archivo s := by
  have hexcl : ∀ p pcb, s.plan.running.get p = some pcb → TieneAbierto archivo .W pcb →
      ∀ q pcb₁, q ≠ p → s.plan.running.get q = some pcb₁ → pcb₁.openFiles = [] := by
    rintro p pcb hp ⟨f, hf, -, hm⟩ q pcb₁ hne hq
    obtain ⟨p₁, -, h1⟩ := h.propietario (h.escritor hp hf hm)
    have hpp : p = p₁ := by
      by_contra hne'
      simp [h1 p pcb hne' hp] at hf
    exact h1 q pcb₁ (hpp ▸ hne) hq
  refine ⟨fun p pcb hp hW q pcb₁ hne hq mode ⟨f, hf, _⟩ => ?_, ⟨fun hlock => ?_, ?_⟩,
    h.lectura.symm.trans (add_zero _)⟩
  · simp [hexcl p pcb hp hW q pcb₁ hne hq] at hf
  · have huno : 0 < abiertos archivo .W s := by
      have := h.escritura
      simp [hlock, pedidos] at this
      omega
    obtain ⟨p, pcb, hp, hap⟩ := Dict.exists_of_sum_pos huno
    have hW : TieneAbierto archivo .W pcb := aperturas_pos.mp hap
    refine ⟨p, ⟨pcb, hp, hW⟩, fun q ⟨pcb₁, hq, f, hf, _⟩ => ?_⟩
    by_contra hne
    simp [hexcl p pcb hp hW q pcb₁ hne hq] at hf
  · rintro ⟨p, ⟨pcb, hp, f, hf, -, hm⟩, -⟩
    exact h.escritor hp hf hm

/-- **Exclusion.** The locks are right after every run. -/
theorem exclusion {archivo : String} {as : List Accion}
    (h : Along (atender archivo) (fun s a => Protocolo archivo s a ∧ Condicion archivo s a)
      estadoInicial as) :
    ∃ s, exec (atender archivo) estadoInicial as = some s ∧ Excluyente archivo s := by
  obtain ⟨s, hs, hinv⟩ := exec_total (I := fun s => Inv archivo [] s)
    (fun s a hI hC => atender_spec hI hC.1 hC.2) (inv_estadoInicial archivo) h
  exact ⟨s, hs, hinv.excluyente⟩

/-- A writer, and in the queue a reader and a writer, which get the file one after the other. -/
theorem exclusion_tresProcesos :
    ∃ s, exec (atender "a") estadoInicial [.admitir, .admitir, .admitir, .despachar 1,
        .abrir 1 .W ⟨0, 0, 0⟩, .desalojar 1, .despachar 2, .abrir 2 .R ⟨0, 0, 0⟩, .despachar 3,
        .abrir 3 .W ⟨0, 0, 0⟩, .despachar 1, .cerrar 1 ⟨0, 0, 0⟩, .despachar 2,
        .cerrar 2 ⟨0, 0, 0⟩] = some s ∧ Excluyente "a" s := by
  have hnadie : ∀ {s : Estado} {p : ℤ}, (∀ q ∈ s.plan.running.keys, q ≠ p →
      (s.plan.running.get q).map Pcb.openFiles = some []) → ∀ q pcb, q ≠ p →
      s.plan.running.get q = some pcb → ∀ m, aperturas "a" m pcb = 0 := fun h q pcb hne hq m => by
    have := h q (Dict.mem_keys_of_get hq) hne
    rw [hq] at this
    simp [aperturas, Option.some.inj this]
  have hcierra : ∀ {s : Estado} {p : ℤ} {mode : ModoApertura},
      (s.plan.running.get p).map (processHasOpenFile · "a") = some (some mode) → ∀ pcb,
      s.plan.running.get p = some pcb → processHasOpenFile pcb "a" = some mode := fun h pcb hp => by
    rw [hp] at h
    exact Option.some.inj h
  refine exclusion <|
    .of_step ⟨trivial, trivial⟩ rfl <|
    .of_step ⟨trivial, trivial⟩ rfl <|
    .of_step ⟨trivial, trivial⟩ rfl <|
    .of_step ⟨show _ ∈ _ by decide, trivial⟩ rfl <|
    .of_step ⟨rfl, fun _ _ => hnadie (by decide)⟩ rfl <|
    .of_step ⟨rfl, trivial⟩ rfl <|
    .of_step ⟨show _ ∈ _ by decide, trivial⟩ rfl <|
    .of_step ⟨rfl, fun hm => absurd hm (by decide)⟩ rfl <|
    .of_step ⟨show _ ∈ _ by decide, trivial⟩ rfl <|
    .of_step ⟨rfl, fun _ hlock => absurd hlock (by decide)⟩ rfl <|
    .of_step ⟨show _ ∈ _ by decide, trivial⟩ rfl <|
    .of_step ⟨⟨_, rfl, by decide⟩, fun pcb hp hR => ?_⟩ rfl <|
    .of_step ⟨show _ ∈ _ by decide, trivial⟩ rfl <|
    .of_step ⟨⟨_, rfl, by decide⟩, fun _ _ _ => Or.inl (by decide)⟩ rfl trivial
  have hW : processHasOpenFile pcb "a" = some .W := hcierra (by decide) pcb hp
  rw [hR] at hW
  simp at hW

/-- **A writer among readers.** An open for writing does not look at the readers. -/
theorem escritura_entre_lectores :
    Along (atender "a") (Protocolo "a") estadoInicial [.admitir, .admitir, .despachar 1,
        .abrir 1 .R ⟨0, 0, 0⟩, .desalojar 1, .despachar 2, .abrir 2 .W ⟨0, 0, 0⟩] ∧
      ∃ s, exec (atender "a") estadoInicial [.admitir, .admitir, .despachar 1,
          .abrir 1 .R ⟨0, 0, 0⟩, .desalojar 1, .despachar 2, .abrir 2 .W ⟨0, 0, 0⟩] = some s ∧
        ¬ Excluyente "a" s := by
  refine ⟨?_, _, rfl, fun h => h.exclusion 2 _ rfl (by decide) 1 _ (by decide) rfl .R (by decide)⟩
  exact .of_step trivial rfl <| .of_step trivial rfl <| .of_step (show _ ∈ _ by decide) rfl <|
    .of_step rfl rfl <| .of_step rfl rfl <| .of_step (show _ ∈ _ by decide) rfl <|
    .of_step rfl rfl trivial

end OperatingSystem.Kernel.Exclusion
