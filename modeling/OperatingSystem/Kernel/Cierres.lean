import OperatingSystem.Kernel.Aperturas

/-! # Closes

A close gives the lock back, hands the file to the requests at the head of its queue and wakes up their
processes, or drops the entry. `Inv` is the invariant of the whole system, and `atender_inv` that every
request keeps it, unless a process ends with a file. -/

namespace OperatingSystem.Kernel.Aperturas

open OperatingSystem.Lib.Dictionary
open OperatingSystem.Kernel.Proceso OperatingSystem.Kernel.Archivos
open OperatingSystem.Kernel.Exclusion

variable {s s' : Sistema} {k k' : Archivos.Estado} {p q : ℤ} {fileName : String} {pcb pcb' : Pcb}
  {mode : ModoApertura} {r : Respuestas}

/-! ### The requests that get the file -/

/-- What `despertar` does to the processes of granted requests. -/
theorem despertar_spec (fileName : String) : ∀ (g : List FileLockRequest) (k : Archivos.Estado),
    PlanInv k.plan → (g.map FileLockRequest.pid).Nodup →
    (∀ req ∈ g, ∃ pcb, k.plan.running.get req.pid = some pcb ∧
      pcb.currentStatus = .BLOCK ∧ pcb.pendingFile = some (fileCreate fileName (modo req.mode))) →
    ∃ k', despertar (g.map FileLockRequest.pid) k = some k' ∧ PlanInv k'.plan ∧
      k'.openFiles = k.openFiles ∧
      (∀ q, k'.plan.running.get q = if q ∈ g.map FileLockRequest.pid
        then (k.plan.running.get q).map despertado else k.plan.running.get q) ∧
      ∀ n m, abiertos n m k' = abiertos n m k + if n = fileName then pedidos m g else 0
  | [], k, hplan, _, _ => ⟨k, rfl, hplan, rfl, fun q => by simp, fun n m => by simp [pedidos]⟩
  | req :: g, k, hplan, hnd, hg => by
    obtain ⟨pcb, hp, hst, hpend⟩ := hg req (by simp)
    obtain ⟨hno, hnd⟩ := List.nodup_cons.mp hnd
    have hdesp : despertado pcb = { processAssignOpenFile pcb fileName (modo req.mode) with
        currentStatus := .READY } := by
      rw [despertado, hpend]
      rfl
    obtain ⟨k₁, hk₁⟩ : ∃ k₁, k₁ = setPlan k (readyProcess k.plan req.pid
        (processAssignOpenFile pcb fileName (modo req.mode))) := ⟨_, rfl⟩
    have hplan₁ : PlanInv k₁.plan := by
      rw [hk₁]
      exact hplan.ready hp (by rw [hst]; simp) _
    have hrun₁ : ∀ q, k₁.plan.running.get q =
        if q = req.pid then some (despertado pcb) else k.plan.running.get q := fun q => by
      rw [hdesp, hk₁]
      exact Dict.get_put _ _ _ _
    have hab₁ : ∀ n m, abiertos n m k₁ =
        abiertos n m k + if n = fileName ∧ m = modo req.mode then 1 else 0 := fun n m => by
      have hasig := aperturas_asignado pcb fileName (modo req.mode) n m
      have hcambio := abiertos_cambio n hp (show k₁.plan.running = _ by rw [hk₁]; rfl) m
      change _ = _ - _ + aperturas n m (processAssignOpenFile pcb fileName (modo req.mode)) at hcambio
      omega
    have hg₁ : ∀ req' ∈ g, ∃ pcb', k₁.plan.running.get req'.pid = some pcb' ∧
        pcb'.currentStatus = .BLOCK ∧
        pcb'.pendingFile = some (fileCreate fileName (modo req'.mode)) := fun req' hreq' => by
      obtain ⟨pcb', hp', h1⟩ := hg req' (List.mem_cons_of_mem _ hreq')
      have hne : req'.pid ≠ req.pid := fun he => hno (he ▸ List.mem_map_of_mem hreq')
      exact ⟨pcb', by rw [hrun₁, if_neg hne]; exact hp', h1⟩
    obtain ⟨k', hk, hplan', hfiles, hrun, hab⟩ := despertar_spec fileName g k₁ hplan₁ hnd hg₁
    refine ⟨k', ?_, hplan', by rw [hfiles, hk₁]; rfl, fun q => ?_, fun n m => ?_⟩
    · rw [List.map_cons, despertar, findProcess, hp]
      simp only [Option.bind_eq_bind, Option.bind_some, hpend]
      rw [hk₁] at hk
      exact hk
    · rw [hrun, hrun₁, List.map_cons]
      by_cases hq : q = req.pid
      · subst hq
        rw [if_neg hno, if_pos rfl, if_pos (List.mem_cons_self ..), hp]
        rfl
      · rw [if_neg hq]
        simp only [List.mem_cons, hq, false_or]
    · rw [hab, hab₁]
      unfold pedidos
      rw [List.countP_cons]
      by_cases hn : n = fileName
      · by_cases hm : modo req.mode = m
        · simp [hn, hm]
          omega
        · simp [hn, hm, Ne.symm hm]
      · simp [hn]

theorem darLugar_spec : ∀ (queue : List FileLockRequest) (file : KernelFile) (prox : List ℤ), ∃ g,
    queue = g ++ (darLugar queue file prox).1.readWriteQueue ∧
      (darLugar queue file prox).2 = prox ++ g.map FileLockRequest.pid ∧
      (darLugar queue file prox).1.nombreArchivo = file.nombreArchivo ∧
      ((darLugar queue file prox).1.activeWriteLock = true →
        file.activeWriteLock = true ∨ 0 < pedidos .W g) ∧
      (darLugar queue file prox).1.activeReadLock = file.activeReadLock + pedidos .R g ∧
      (prox = [] → g = [] → queue = [])
  | [], file, prox => ⟨[], rfl, by simp [darLugar], rfl, Or.inl, by simp [darLugar, pedidos],
      fun _ _ => rfl⟩
  | next :: rest, file, prox => by
    cases hm : next.mode with
    | FILE_MODE_READ =>
      obtain ⟨g, h1, h2, h3, h4, h5, -⟩ :=
        darLugar_spec rest (lockFileForReading file) (prox ++ [next.pid])
      simp only [darLugar, hm]
      refine ⟨next :: g, congrArg _ h1, by rw [h2]; simp, h3, fun hlock => ?_, ?_, by simp⟩
      · refine (h4 hlock).imp_right fun hpos => hpos.trans_le ?_
        simp only [pedidos]
        exact_mod_cast List.Sublist.countP_le (List.sublist_cons_self _ _)
      · rw [h5]
        simp [pedidos, hm, modo, lockFileForReading]
        omega
    | FILE_MODE_WRITE =>
      simp only [darLugar, hm]
      split_ifs with hprox
      · exact ⟨[next], rfl, rfl, rfl, fun _ => Or.inr (by simp [pedidos, hm, modo]),
          by simp [pedidos, hm, modo, lockFileForWriting], by simp⟩
      · refine ⟨[], rfl, by simp, rfl, Or.inl, by simp [pedidos], fun h => ?_⟩
        exact absurd (by rw [h]; rfl) hprox

/-- **What a close does with the entry of the file**: the requests `g` at the head of the queue are
granted, all of them, up to the first writer or only that one, unless other readers are counted. -/
structure Cierre (mode : ModoApertura) (file : KernelFile) (g : List FileLockRequest) : Prop where
  cola : file.readWriteQueue = g ++ (cerrarArchivo mode file).1.readWriteQueue
  proximos : (cerrarArchivo mode file).2 = g.map FileLockRequest.pid
  nombre : (cerrarArchivo mode file).1.nombreArchivo = file.nombreArchivo
  escritura : (cerrarArchivo mode file).1.activeWriteLock = true →
    mode = .R ∧ file.activeWriteLock = true ∨ 0 < pedidos .W g
  lectura : (cerrarArchivo mode file).1.activeReadLock =
    file.activeReadLock - (if mode = .R then 1 else 0) + pedidos .R g
  resto : g = [] → file.readWriteQueue = [] ∨ 0 < (cerrarArchivo mode file).1.activeReadLock

/-- A reader closes, and others are left. -/
theorem cerrarArchivo_de_lectores {file : KernelFile} (hpos : 0 < file.activeReadLock - 1) :
    cerrarArchivo .R file = (removeParticipantFromReadLock file, []) := by
  simp [cerrarArchivo, fileCloseReadMode, isReadLockActive, removeParticipantFromReadLock]
  intro hle
  omega

/-- The last reader closes. -/
theorem cerrarArchivo_del_ultimo {file : KernelFile} (hpos : ¬ 0 < file.activeReadLock - 1) :
    cerrarArchivo .R file =
      darLugar file.readWriteQueue (removeParticipantFromReadLock file) [] := by
  simp [cerrarArchivo, fileCloseReadMode, isReadLockActive, removeParticipantFromReadLock,
    desencolarYDarLugarAlSiguienteLock]
  intro hlt
  omega

theorem cerrarArchivo_spec (mode : ModoApertura) (file : KernelFile) : ∃ g, Cierre mode file g := by
  cases mode with
  | W =>
    have heq : cerrarArchivo .W file =
        darLugar file.readWriteQueue (unlockFileForWriting file) [] := rfl
    obtain ⟨g, h1, h2, h3, h4, h5, h6⟩ :=
      darLugar_spec file.readWriteQueue (unlockFileForWriting file) []
    refine ⟨g, by rw [heq]; exact h1, by rw [heq]; exact h2, by rw [heq]; exact h3, fun hlock => ?_,
      ?_, fun hg => Or.inl (h6 rfl hg)⟩
    · rw [heq] at hlock
      exact Or.inr ((h4 hlock).resolve_left (by simp [unlockFileForWriting]))
    · rw [heq, h5]
      simp [unlockFileForWriting]
  | R =>
    obtain ⟨g, h1, h2, h3, h4, h5, h6⟩ :=
      darLugar_spec file.readWriteQueue (removeParticipantFromReadLock file) []
    by_cases hpos : 0 < file.activeReadLock - 1
    · have heq := cerrarArchivo_de_lectores hpos
      refine ⟨[], by rw [heq]; rfl, by rw [heq]; rfl, by rw [heq]; rfl, fun hlock => ?_, ?_,
        fun _ => Or.inr (by rw [heq]; exact hpos)⟩
      · rw [heq] at hlock
        exact Or.inl ⟨rfl, hlock⟩
      · rw [heq]
        simp [removeParticipantFromReadLock, pedidos]
    · have heq := cerrarArchivo_del_ultimo hpos
      refine ⟨g, by rw [heq]; exact h1, by rw [heq]; exact h2, by rw [heq]; exact h3, fun hlock => ?_,
        ?_, fun hg => Or.inl (h6 rfl hg)⟩
      · rw [heq] at hlock
        exact (h4 hlock).imp_left fun h => ⟨rfl, h⟩
      · rw [heq, h5]
        simp [removeParticipantFromReadLock]

/-! ### The close of an open -/

section

variable {f : File}

theorem countP_openFiles_erase (hf : f ∈ pcb.openFiles) (c : File → Bool) :
    pcb.openFiles.countP c = (pcb.openFiles.erase f).countP c + if c f then 1 else 0 := by
  rw [(List.perm_cons_erase hf).countP_eq, List.countP_cons]

theorem usos_erase (hf : f ∈ pcb.openFiles) (hn : f.nombreArchivo = fileName) (n : String) :
    usos n pcb = usos n { pcb with openFiles := pcb.openFiles.erase f } +
      if n = fileName then 1 else 0 := by
  have hcount := countP_openFiles_erase hf fun f => decide (f.nombreArchivo = n)
  unfold usos abiertas pendientes
  rw [hcount, hn]
  by_cases h : n = fileName
  · simp [h]
    omega
  · simp [h, Ne.symm h]

theorem aperturas_erase (hf : f ∈ pcb.openFiles) (hn : f.nombreArchivo = fileName) (n : String)
    (m : ModoApertura) : aperturas n m pcb =
      aperturas n m { pcb with openFiles := pcb.openFiles.erase f } +
        if n = fileName ∧ m = f.modoApertura then 1 else 0 := by
  have hcount := countP_openFiles_erase hf fun f =>
    decide (f.nombreArchivo = n ∧ f.modoApertura = m)
  unfold aperturas
  rw [hcount, hn]
  by_cases h : n = fileName
  · by_cases hm : m = f.modoApertura
    · simp [h, hm]
    · simp [h, hm, Ne.symm hm]
  · simp [h, Ne.symm h]

/-- The open that a close is of. -/
theorem processFindOpenFile_some (hf : processFindOpenFile pcb fileName = some f) :
    f ∈ pcb.openFiles ∧ f.nombreArchivo = fileName :=
  ⟨List.mem_of_find?_eq_some hf, by simpa using List.find?_some hf⟩

/-- Who waits for the file gets it, or its entry goes. -/
theorem onFileClose_eq_seguir (hp : k.plan.running.get p = some pcb) {k₁ : Archivos.Estado}
    (hget : getFileFromFilesystem k fileName r = some (candado fileName k, k₁))
    (hplan₁ : k₁.plan = k.plan) (hf : processFindOpenFile pcb fileName = some f) :
    onFileClose k p fileName r =
      seguir (setPlan k₁ (setProcess k.plan p { pcb with openFiles := pcb.openFiles.erase f }))
        (cerrarArchivo f.modoApertura (candado fileName k)) := by
  have hrem : processRemoveOpenFile pcb fileName =
      some { pcb with openFiles := pcb.openFiles.erase f } := by
    rw [processRemoveOpenFile, hf]
    rfl
  rw [onFileClose, findProcess, hp, Option.bind_eq_bind, Option.bind_some, hget]
  simp only [processHasOpenFile, hf, hrem, Option.map_some, hplan₁]
  rfl

/-- The state in which the processes of the granted requests wake up: the entry of the file is in the
table, or out of it if nobody gets the file and nobody waits for it. -/
theorem seguir_despertar (s : Archivos.Estado) {c : KernelFile × List ℤ}
    (hnombre : c.1.nombreArchivo = fileName) :
    ∃ s₁, seguir s c = despertar c.2 s₁ ∧ s₁.plan = s.plan ∧
      ∀ n, s₁.openFiles.get n = if n = fileName then
          if c.2.length = 0 ∧ c.1.readWriteQueue.length = 0 then none else some c.1
        else s.openFiles.get n := by
  refine ⟨_, rfl, ?_, fun n => ?_⟩
  · split_ifs <;> rfl
  · split_ifs with hvacia hn hn
    · rw [removeFromOpenFiles, hnombre, Dict.get_remove, if_pos hn]
    · rw [removeFromOpenFiles, hnombre, Dict.get_remove, if_neg hn, setFile, hnombre, Dict.get_put,
        if_neg hn]
    · rw [setFile, hnombre, Dict.get_put, if_pos hn]
    · rw [setFile, hnombre, Dict.get_put, if_neg hn]

/-- The state after a close of the open `f`, which granted the requests `g`. -/
structure Cerrado (k k' : Archivos.Estado) (p : ℤ) (pcb : Pcb) (fileName : String) (f : File)
    (g : List FileLockRequest) : Prop where
  planInv : PlanInv k'.plan
  running : ∀ q, k'.plan.running.get q =
    if q = p then some { pcb with openFiles := pcb.openFiles.erase f }
    else if q ∈ g.map FileLockRequest.pid then (k.plan.running.get q).map despertado
    else k.plan.running.get q
  openFiles : ∀ n, k'.openFiles.get n = if n = fileName then
      if (candado fileName k).readWriteQueue = [] then none
      else some (cerrarArchivo f.modoApertura (candado fileName k)).1
    else k.openFiles.get n
  abiertos : ∀ n m, abiertos n m k' + (if n = fileName ∧ m = f.modoApertura then 1 else 0) =
    abiertos n m k + if n = fileName then pedidos m g else 0

theorem cerrado_onFileClose (hB : Base k) (hp : k.plan.running.get p = some pcb)
    (hst : pcb.currentStatus = .EXEC) {k₁ : Archivos.Estado}
    (hget : getFileFromFilesystem k fileName r = some (candado fileName k, k₁))
    (hplan₁ : k₁.plan = k.plan) (hfiles₁ : ∀ n, k₁.openFiles.get n =
      if n = fileName then some (candado fileName k) else k.openFiles.get n)
    (hf : processFindOpenFile pcb fileName = some f) {g : List FileLockRequest}
    (hg : Cierre f.modoApertura (candado fileName k) g) :
    ∃ k', onFileClose k p fileName r = some k' ∧ Cerrado k k' p pcb fileName f g := by
  obtain ⟨hmem, hn⟩ := processFindOpenFile_some hf
  have hnombre : (cerrarArchivo f.modoApertura (candado fileName k)).1.nombreArchivo = fileName :=
    hg.nombre.trans (hB.nombre fileName)
  have hfin : ((cerrarArchivo f.modoApertura (candado fileName k)).2.length = 0 ∧
      (cerrarArchivo f.modoApertura (candado fileName k)).1.readWriteQueue.length = 0) ↔
      (candado fileName k).readWriteQueue = [] := by
    rw [hg.proximos, hg.cola, List.append_eq_nil_iff, List.length_map, List.length_eq_zero_iff,
      List.length_eq_zero_iff]
  obtain ⟨k₂, hk₂, hplan₂, hfiles₂⟩ := seguir_despertar
    (setPlan k₁ (setProcess k.plan p { pcb with openFiles := pcb.openFiles.erase f })) hnombre
  rw [onFileClose_eq_seguir hp hget hplan₁ hf, hk₂, hg.proximos]
  have hrun₂ : ∀ q, k₂.plan.running.get q = if q = p then
      some { pcb with openFiles := pcb.openFiles.erase f } else k.plan.running.get q := fun q => by
    rw [hplan₂]
    exact Dict.get_put _ _ _ _
  have hnd := hB.distintos fileName
  rw [hg.cola, List.map_append] at hnd
  have hno : ∀ req ∈ g, req.pid ≠ p := by
    rintro req hreq rfl
    refine hB.not_mem_cola (fun pcb₁ h1 => ?_) fileName (List.mem_map_of_mem
      (by rw [hg.cola]; exact List.mem_append_left _ hreq))
    obtain rfl := Option.some.inj (hp.symm.trans h1)
    rw [hst]
    simp
  obtain ⟨k', hk', hplan', hfiles', hrun', hab'⟩ := despertar_spec fileName g k₂
    (by rw [hplan₂]; exact hB.planInv.put_fuera hp (by rw [hst]; simp) _)
    (List.nodup_append.mp hnd).1 fun req hreq => by
      obtain ⟨pcb₁, h1, h2⟩ := hB.cola fileName req
        (by rw [hg.cola]; exact List.mem_append_left _ hreq)
      exact ⟨pcb₁, by rw [hrun₂, if_neg (hno req hreq)]; exact h1, h2⟩
  refine ⟨k', hk', hplan', fun q => ?_, fun n => ?_, fun n m => ?_⟩
  · rw [hrun', hrun₂]
    by_cases hq : q = p
    · subst hq
      have hqg : q ∉ g.map FileLockRequest.pid := fun h => by
        obtain ⟨req, hreq, heq⟩ := List.mem_map.mp h
        exact hno req hreq heq
      rw [if_neg hqg, if_pos rfl, if_pos rfl]
    · simp only [if_neg hq]
  · rw [hfiles', hfiles₂]
    simp only [hfin]
    by_cases hn : n = fileName
    · rw [if_pos hn, if_pos hn]
    · rw [if_neg hn, if_neg hn]
      exact (hfiles₁ n).trans (if_neg hn)
  · have hab₂ := abiertos_cambio n hp (show k₂.plan.running = _ by rw [hplan₂]; rfl) m
    have hape := aperturas_erase hmem hn n m
    rw [hab']
    omega

section

variable {g : List FileLockRequest}

theorem Cerrado.candado_of_ne (hC : Cerrado k k' p pcb fileName f g) {n : String}
    (hn : n ≠ fileName) : candado n k' = candado n k :=
  candado_congr ((hC.openFiles n).trans (if_neg hn))

/-- With somebody in the queue the entry stays. -/
theorem Cerrado.candado_cola (hC : Cerrado k k' p pcb fileName f g)
    (hcola : (candado fileName k).readWriteQueue ≠ []) :
    candado fileName k' = (cerrarArchivo f.modoApertura (candado fileName k)).1 :=
  candado_of_get ((hC.openFiles fileName).trans ((if_pos rfl).trans (if_neg hcola)))

/-- With nobody there it goes. -/
theorem Cerrado.candado_vacio (hC : Cerrado k k' p pcb fileName f g)
    (hcola : (candado fileName k).readWriteQueue = []) :
    candado fileName k' = kernelFileCreate fileName :=
  candado_of_none ((hC.openFiles fileName).trans ((if_pos rfl).trans (if_pos hcola)))

theorem Base.cerrar (hB : Base k) (hp : k.plan.running.get p = some pcb)
    (hst : pcb.currentStatus ≠ .BLOCK) (hready : pcb.currentStatus ≠ .READY)
    (hg : Cierre f.modoApertura (candado fileName k) g) (hC : Cerrado k k' p pcb fileName f g) :
    Base k' := by
  -- first the process gives the open back, then the requests are granted
  have hB₁ : Base (setPlan k (setProcess k.plan p { pcb with openFiles := pcb.openFiles.erase f })) := by
    have hpend : ({ pcb with openFiles := pcb.openFiles.erase f } : Pcb).pendingFile = none := by
      have hnada := hB.pendingFile_none hp hst
      exact hnada
    refine hB.libre (p := p) (fun pcb₁ h1 => ?_) hpend (hB.planInv.put_fuera hp hready _)
      (fun q => Dict.get_put _ _ _ _) fun n => ⟨hB.nombre n, rfl⟩
    obtain rfl := Option.some.inj (hp.symm.trans h1)
    exact hst
  have hno : p ∉ g.map FileLockRequest.pid := fun h => by
    obtain ⟨req, hreq, rfl⟩ := List.mem_map.mp h
    obtain ⟨pcb₁, h1, h2, -⟩ := hB.cola fileName req
      (by rw [hg.cola]; exact List.mem_append_left _ hreq)
    obtain rfl := Option.some.inj (hp.symm.trans h1)
    exact hst h2
  refine hB₁.conceder hg.cola hC.planInv (fun q => ?_) (fun n => ?_) fun n => ?_
  · rw [hC.running]
    change _ = if q ∈ g.map FileLockRequest.pid then ((k.plan.running.put p
      { pcb with openFiles := pcb.openFiles.erase f }).get q).map despertado else
      (k.plan.running.put p { pcb with openFiles := pcb.openFiles.erase f }).get q
    rw [Dict.get_put]
    by_cases hq : q = p
    · subst hq
      rw [if_pos rfl, if_neg hno, if_pos rfl]
    · simp only [if_neg hq]
  · by_cases hn : n = fileName
    · subst hn
      by_cases hcola : (candado n k).readWriteQueue = []
      · rw [hC.candado_vacio hcola]
        rfl
      · rw [hC.candado_cola hcola, hg.nombre]
        exact hB.nombre n
    · rw [hC.candado_of_ne hn]
      exact hB.nombre n
  · by_cases hn : n = fileName
    · subst hn
      rw [if_pos rfl]
      by_cases hcola : (candado n k).readWriteQueue = []
      · rw [hC.candado_vacio hcola]
        rw [hg.cola] at hcola
        exact (List.append_eq_nil_iff.mp hcola).2.symm
      · rw [hC.candado_cola hcola]
    · rw [if_neg hn, hC.candado_of_ne hn]
      rfl

theorem pedidos_nonneg (m : ModoApertura) (g : List FileLockRequest) : 0 ≤ pedidos m g := by
  simp [pedidos]

/-- A request is for one of the modes. -/
theorem pedidos_pos (hg : g ≠ []) : 0 < pedidos .W g + pedidos .R g := by
  obtain ⟨req, g, rfl⟩ := List.exists_cons_of_ne_nil hg
  have hW : pedidos .W (req :: g) = pedidos .W g + if modo req.mode = .W then 1 else 0 := by
    simp [pedidos, List.countP_cons]
  have hR : pedidos .R (req :: g) = pedidos .R g + if modo req.mode = .R then 1 else 0 := by
    simp [pedidos, List.countP_cons]
  have := pedidos_nonneg .W g
  have := pedidos_nonneg .R g
  rw [hW, hR]
  cases modo req.mode <;> simp <;> omega

theorem abiertos_cerrado_of_ne (hC : Cerrado k k' p pcb fileName f g) {n : String}
    (hn : n ≠ fileName) (m : ModoApertura) : abiertos n m k' = abiertos n m k := by
  have := hC.abiertos n m
  simpa [hn] using this

/-- The open that is closed goes, those of the granted requests come. -/
theorem abiertos_cerrado (hC : Cerrado k k' p pcb fileName f g) (m : ModoApertura) :
    abiertos fileName m k' + (if f.modoApertura = m then 1 else 0) =
      abiertos fileName m k + pedidos m g := by
  have := hC.abiertos fileName m
  simpa [eq_comm] using this

/-- Who is granted the file has it. -/
theorem pedidos_le_abiertos (hpos : 0 < abiertos fileName f.modoApertura k)
    (hC : Cerrado k k' p pcb fileName f g) (m : ModoApertura) :
    pedidos m g ≤ abiertos fileName m k' := by
  have hab := abiertos_cerrado hC m
  have hno : 0 ≤ abiertos fileName m k := Dict.sum_nonneg (aperturas_nonneg fileName m)
  by_cases hm : f.modoApertura = m
  · rw [if_pos hm] at hab
    rw [hm] at hpos
    omega
  · rw [if_neg hm] at hab
    omega

/-- **A close** leaves nobody waiting for a file that nobody has. -/
theorem Llaves.cerrar (hL : Llaves k) (hpos : 0 < abiertos fileName f.modoApertura k)
    (hg : Cierre f.modoApertura (candado fileName k) g) (hC : Cerrado k k' p pcb fileName f g) :
    Llaves k' := by
  have hno : ∀ n m, 0 ≤ abiertos n m k' := fun n m => Dict.sum_nonneg (aperturas_nonneg n m)
  have hW := abiertos_cerrado hC .W
  have hR := abiertos_cerrado hC .R
  have hpedW := pedidos_le_abiertos hpos hC .W
  have hpedR := pedidos_le_abiertos hpos hC .R
  have hlectura : (cerrarArchivo f.modoApertura (candado fileName k)).1.activeReadLock ≤
      abiertos fileName .R k' := by
    have := hL.lectura fileName
    rw [hg.lectura]
    omega
  refine ⟨fun n hesc => ?_, fun n => ?_, fun n hcola' => ?_⟩
  · by_cases hn : n = fileName
    · subst hn
      by_cases hcola : (candado n k).readWriteQueue = []
      · rw [hC.candado_vacio hcola] at hesc
        exact absurd hesc Bool.false_ne_true
      · rw [hC.candado_cola hcola] at hesc
        rcases hg.escritura hesc with ⟨hm, hlock⟩ | hgW
        · have := hL.escritura n hlock
          have := pedidos_nonneg .W g
          simp [hm] at hW
          omega
        · exact hgW.trans_le hpedW
    · rw [hC.candado_of_ne hn] at hesc
      rw [abiertos_cerrado_of_ne hC hn]
      exact hL.escritura n hesc
  · by_cases hn : n = fileName
    · subst hn
      by_cases hcola : (candado n k).readWriteQueue = []
      · rw [hC.candado_vacio hcola]
        exact hno n .R
      · rw [hC.candado_cola hcola]
        exact hlectura
    · rw [hC.candado_of_ne hn, abiertos_cerrado_of_ne hC hn]
      exact hL.lectura n
  · by_cases hn : n = fileName
    · subst hn
      have hcola : (candado n k).readWriteQueue ≠ [] := fun hcola => by
        rw [hC.candado_vacio hcola] at hcola'
        exact hcola' rfl
      by_cases hvacio : g = []
      · have := (hg.resto hvacio).resolve_left hcola
        have := hno n .W
        omega
      · have := pedidos_pos hvacio
        omega
    · rw [hC.candado_of_ne hn] at hcola'
      rw [abiertos_cerrado_of_ne hC hn, abiertos_cerrado_of_ne hC hn]
      exact hL.cola n hcola'

theorem Cerrado.claves (hC : Cerrado k k' p pcb fileName f g) (n : String) :
    (k'.openFiles.get n).isSome ↔ if n = fileName then (candado fileName k).readWriteQueue ≠ []
      else (k.openFiles.get n).isSome := by
  rw [hC.openFiles]
  split_ifs with hn hcola
  · simp [hcola]
  · simp [hcola]
  · rfl

/-- The process uses the file once less, and the others as often as before. -/
theorem Cerrado.usosDe (hC : Cerrado k k' p pcb fileName f g) (hp : k.plan.running.get p = some pcb)
    (hf : processFindOpenFile pcb fileName = some f) (n : String) (q : ℤ) :
    usosDe k n q = usosDe k' n q + if n = fileName ∧ q = p then 1 else 0 := by
  obtain ⟨hmem, hn⟩ := processFindOpenFile_some hf
  have husos := usos_erase hmem hn n
  unfold Aperturas.usosDe
  rw [hC.running]
  by_cases hq : q = p
  · subst hq
    simp only [hp, if_true, Option.map_some, Option.getD_some, and_true]
    exact husos
  · simp only [hq, if_false, and_false, add_zero]
    split_ifs
    · cases k.plan.running.get q with
      | none => rfl
      | some pcb₁ => exact (usos_despertado n pcb₁).symm
    · rfl

end

end

/-! ### One request -/

/-- **The invariant.** Every use of a file remembers one object. -/
structure Inv (s : Sistema) : Prop where
  base : Base s.kernel
  llaves : Llaves s.kernel
  objetos : ∀ p n, (s.objetos (p, n)).length = usosDe s.kernel n p

theorem Base.congr (hB : Base k) (hplan : k'.plan = k.plan)
    (hcand : ∀ n, candado n k' = candado n k) : Base k' := by
  obtain ⟨h1, h2, h3, h4, h5⟩ := hB
  refine ⟨by rwa [hplan], fun n => by rw [hcand]; exact h2 n, fun n req hreq => ?_,
    fun q pcb f hq hf => ?_, fun n => by rw [hcand]; exact h5 n⟩
  · rw [hcand] at hreq
    rw [hplan]
    exact h3 n req hreq
  · rw [hplan] at hq
    rw [hcand]
    exact h4 q pcb f hq hf

theorem Llaves.congr (hL : Llaves k) (hab : ∀ n m, abiertos n m k' = abiertos n m k)
    (hcand : ∀ n, candado n k' = candado n k) : Llaves k' := by
  refine ⟨fun n => ?_, fun n => ?_, fun n => ?_⟩
  · rw [hcand, hab]
    exact hL.escritura n
  · rw [hcand, hab]
    exact hL.lectura n
  · rw [hcand, hab, hab]
    exact hL.cola n

/-- A process that waits for nothing comes, or changes its status. -/
theorem Inv.libre (hI : Inv s)
    (hp : ∀ pcb, s.kernel.plan.running.get p = some pcb → pcb.currentStatus ≠ .BLOCK)
    (hpend : pcb'.pendingFile = none) {plan : Planificador} (hplan : PlanInv plan)
    (hrun : plan.running = s.kernel.plan.running.put p pcb')
    (hopen : (s.kernel.plan.running.get p = none ∧ pcb'.openFiles = []) ∨
      ∃ pcb, s.kernel.plan.running.get p = some pcb ∧ pcb'.openFiles = pcb.openFiles) :
    Inv { s with kernel := setPlan s.kernel plan } := by
  have hget : ∀ q, plan.running.get q =
      if q = p then some pcb' else s.kernel.plan.running.get q := fun q => by
    rw [hrun]
    exact Dict.get_put _ _ _ _
  have hab : ∀ n m, abiertos n m (setPlan s.kernel plan) = abiertos n m s.kernel := by
    intro n m
    rcases hopen with ⟨hnone, hnil⟩ | ⟨pcb, hpcb, heq⟩
    · rw [abiertos, show (setPlan s.kernel plan).plan.running = _ from hrun,
        Dict.sum_put_of_none hnone, aperturas, hnil]
      simp [abiertos]
    · have hcambio := abiertos_cambio n hpcb (show (setPlan s.kernel plan).plan.running = _ from hrun) m
      rw [hcambio, aperturas, aperturas, heq]
      omega
  refine ⟨hI.base.libre hp hpend hplan hget fun n => ⟨hI.base.nombre n, rfl⟩,
    hI.llaves.congr hab fun _ => rfl, fun q n => ?_⟩
  rw [hI.objetos]
  unfold usosDe
  change _ = ((plan.running.get q).map (usos n)).getD 0
  rw [hget]
  split_ifs with hq
  · subst hq
    rcases hopen with ⟨hnone, hnil⟩ | ⟨pcb, hpcb, heq⟩
    · rw [hnone]
      simp [usos, abiertas, pendientes, hnil, hpend]
    · have hnada := hI.base.pendingFile_none hpcb (hp pcb hpcb)
      rw [hpcb]
      simp [usos, abiertas, pendientes, heq, hpend, hnada]
  · rfl

theorem numerar_of_some (hf : (s.kernel.openFiles.get fileName).isSome) (r : Respuestas) :
    numerar s fileName r = s.creados := by
  rw [numerar, if_neg]
  rintro ⟨hnone, -⟩
  rw [hnone] at hf
  exact absurd hf (by simp)

theorem numerar_of_ne {n : String} (hn : n ≠ fileName) (r : Respuestas) :
    numerar s fileName r n = s.creados n := by
  unfold numerar
  split_ifs
  · rw [Function.update_of_ne hn]
  · rfl

/-- A request for a file that the file system does not open does nothing. -/
theorem atender_abrir_sin_archivo (hp : s.kernel.plan.running.get p = some pcb)
    (hst : pcb.currentStatus = .EXEC) (mode : ModoApertura)
    (hnone : getFileFromFilesystem s.kernel fileName r = none) :
    atender s (.abrir p fileName mode r) = some s := by
  have hex : enEjecucion s.kernel.plan p = some pcb := enEjecucion_eq_some.mpr ⟨hp, hst⟩
  have hopen : onFileOpen s.kernel p fileName mode r = some s.kernel := by
    rw [onFileOpen, findProcess, hp, Option.bind_eq_bind, Option.bind_some, hnone]
    rfl
  have hnum : numerar s fileName r = s.creados := by
    rw [numerar, hnone, if_neg (by simp)]
  simp only [atender, hex, hopen, hnone, hnum, Option.bind_eq_bind, Option.bind_some,
    Option.isSome_none, Bool.false_eq_true, if_false, Option.pure_def]

theorem atender_cerrar_sin_archivo (hp : s.kernel.plan.running.get p = some pcb)
    (hst : pcb.currentStatus = .EXEC) (hnone : getFileFromFilesystem s.kernel fileName r = none) :
    atender s (.cerrar p fileName r) = some s := by
  have hex : enEjecucion s.kernel.plan p = some pcb := enEjecucion_eq_some.mpr ⟨hp, hst⟩
  have hclose : onFileClose s.kernel p fileName r = some s.kernel := by
    rw [onFileClose, findProcess, hp, Option.bind_eq_bind, Option.bind_some, hnone]
    rfl
  have hnum : numerar s fileName r = s.creados := by
    rw [numerar, hnone, if_neg (by simp)]
  simp only [atender, hex, hclose, hnone, hnum, Option.bind_eq_bind, Option.bind_some,
    Option.isSome_none, Bool.false_eq_true, false_and, if_false, Option.pure_def]

/-- What the process asks for on a file that is in the table then. -/
theorem atender_abrir_archivo (hp : s.kernel.plan.running.get p = some pcb)
    (hst : pcb.currentStatus = .EXEC) (mode : ModoApertura) {file : KernelFile × Archivos.Estado}
    (hget : getFileFromFilesystem s.kernel fileName r = some file)
    (hk' : onFileOpen s.kernel p fileName mode r = some k') :
    atender s (.abrir p fileName mode r) = some ⟨k', numerar s fileName r,
      Function.update s.objetos (p, fileName)
        (s.objetos (p, fileName) ++ [numerar s fileName r fileName])⟩ := by
  have hex : enEjecucion s.kernel.plan p = some pcb := enEjecucion_eq_some.mpr ⟨hp, hst⟩
  simp only [atender, hex, hk', hget, Option.bind_eq_bind, Option.bind_some,
    Option.isSome_some, if_true, Option.pure_def]

theorem atender_cerrar_archivo (hp : s.kernel.plan.running.get p = some pcb)
    (hst : pcb.currentStatus = .EXEC) {file : KernelFile × Archivos.Estado}
    (hget : getFileFromFilesystem s.kernel fileName r = some file)
    (hk' : onFileClose s.kernel p fileName r = some k') :
    atender s (.cerrar p fileName r) = some ⟨k', numerar s fileName r,
      if (processHasOpenFile pcb fileName).isSome then
        Function.update s.objetos (p, fileName) (s.objetos (p, fileName)).tail
      else s.objetos⟩ := by
  have hex : enEjecucion s.kernel.plan p = some pcb := enEjecucion_eq_some.mpr ⟨hp, hst⟩
  simp only [atender, hex, hk', hget, Option.bind_eq_bind, Option.bind_some,
    Option.isSome_some, true_and, Option.pure_def]

/-- **An open** is of the object in the table then. -/
theorem atender_abrir (hI : Inv s) (hp : s.kernel.plan.running.get p = some pcb)
    (hst : pcb.currentStatus = .EXEC) (mode : ModoApertura) (r : Respuestas) :
    (¬Exitosa r ∧ atender s (.abrir p fileName mode r) = some s) ∨
      ∃ s', atender s (.abrir p fileName mode r) = some s' ∧ Inv s' ∧
        s'.creados = numerar s fileName r ∧
        s'.objetos = Function.update s.objetos (p, fileName)
          (s.objetos (p, fileName) ++ [s'.creados fileName]) ∧
        (∀ n, (s'.kernel.openFiles.get n).isSome ↔
          n = fileName ∨ (s.kernel.openFiles.get n).isSome) ∧
        ∀ n q, usosDe s'.kernel n q =
          usosDe s.kernel n q + if n = fileName ∧ q = p then 1 else 0 := by
  rcases getFile_spec s.kernel fileName r with ⟨hnone, hr⟩ | ⟨k₁, hget, hplan₁, hfiles₁⟩
  · exact Or.inl ⟨hr, atender_abrir_sin_archivo hp hst mode hnone⟩
  · obtain ⟨k', hk', hB, hL, hclaves, husos⟩ :=
      onFileOpen_spec hI.base hp hst mode hget hplan₁ hfiles₁
    refine Or.inr ⟨_, atender_abrir_archivo hp hst mode hget hk', ⟨hB, hL hI.llaves, fun q n => ?_⟩,
      rfl, rfl, hclaves, husos⟩
    rw [husos, ← hI.objetos]
    change (Function.update s.objetos (p, fileName) _ (q, n)).length = _
    by_cases hqn : (q, n) = (p, fileName)
    · obtain ⟨rfl, rfl⟩ := Prod.mk.inj hqn
      rw [Function.update_self, if_pos ⟨rfl, rfl⟩, List.length_append]
      rfl
    · rw [Function.update_of_ne hqn, if_neg fun h => hqn (by rw [h.1, h.2]), add_zero]

/-- The look-up of a file changes no lock. -/
theorem candado_getFile {k₁ : Archivos.Estado} (hfiles₁ : ∀ n, k₁.openFiles.get n =
    if n = fileName then some (candado fileName k) else k.openFiles.get n) (n : String) :
    candado n k₁ = candado n k := by
  by_cases hn : n = fileName
  · rw [hn, candado_of_get ((hfiles₁ fileName).trans (if_pos rfl))]
  · exact candado_congr ((hfiles₁ n).trans (if_neg hn))

theorem onFileClose_ajeno (hp : k.plan.running.get p = some pcb) {file : KernelFile × Archivos.Estado}
    (hget : getFileFromFilesystem k fileName r = some file)
    (hf : processFindOpenFile pcb fileName = none) :
    onFileClose k p fileName r = some file.2 := by
  have hno : processHasOpenFile pcb fileName = none := by rw [processHasOpenFile, hf]; rfl
  rw [onFileClose, findProcess, hp, Option.bind_eq_bind, Option.bind_some, hget]
  simp only [hno]
  rfl

/-- **A close** by a process that does not have the file does nothing but look it up. -/
theorem atender_cerrar_ajeno (hI : Inv s) (hp : s.kernel.plan.running.get p = some pcb)
    (hst : pcb.currentStatus = .EXEC) (r : Respuestas)
    (hf : processFindOpenFile pcb fileName = none) :
    (¬Exitosa r ∧ atender s (.cerrar p fileName r) = some s) ∨
      ∃ s', atender s (.cerrar p fileName r) = some s' ∧ Inv s' ∧
        s'.creados = numerar s fileName r ∧ s'.objetos = s.objetos ∧
        (∀ n, (s'.kernel.openFiles.get n).isSome ↔
          n = fileName ∨ (s.kernel.openFiles.get n).isSome) ∧
        ∀ n q, usosDe s'.kernel n q = usosDe s.kernel n q := by
  have hno : processHasOpenFile pcb fileName = none := by rw [processHasOpenFile, hf]; rfl
  rcases getFile_spec s.kernel fileName r with ⟨hnone, hr⟩ | ⟨k₁, hget, hplan₁, hfiles₁⟩
  · exact Or.inl ⟨hr, atender_cerrar_sin_archivo hp hst hnone⟩
  · have hab : ∀ n m, abiertos n m k₁ = abiertos n m s.kernel := fun n m => by
      rw [abiertos, hplan₁]
      rfl
    have husos : ∀ n q, usosDe k₁ n q = usosDe s.kernel n q := fun n q => by
      rw [usosDe, hplan₁]
      rfl
    have hs := atender_cerrar_archivo hp hst hget (onFileClose_ajeno hp hget hf)
    rw [hno] at hs
    refine Or.inr ⟨_, hs, ⟨hI.base.congr hplan₁ (candado_getFile hfiles₁),
      hI.llaves.congr hab (candado_getFile hfiles₁), fun q n => ?_⟩, rfl, rfl, fun n => ?_, husos⟩
    · change _ = usosDe k₁ n q
      rw [husos]
      exact hI.objetos q n
    · change (k₁.openFiles.get n).isSome ↔ _
      rw [hfiles₁]
      split_ifs with hn <;> simp [hn]

/-- **A close** of an open. -/
theorem atender_cerrar (hI : Inv s) (hp : s.kernel.plan.running.get p = some pcb)
    (hst : pcb.currentStatus = .EXEC) (r : Respuestas) {f : File}
    (hf : processFindOpenFile pcb fileName = some f) :
    (¬Exitosa r ∧ atender s (.cerrar p fileName r) = some s) ∨
      ∃ s', atender s (.cerrar p fileName r) = some s' ∧ Inv s' ∧
        s'.creados = numerar s fileName r ∧
        s'.objetos = Function.update s.objetos (p, fileName) (s.objetos (p, fileName)).tail ∧
        (∀ n, (s'.kernel.openFiles.get n).isSome ↔
          if n = fileName then (candado fileName s.kernel).readWriteQueue ≠ []
          else (s.kernel.openFiles.get n).isSome) ∧
        ∀ n q, usosDe s.kernel n q =
          usosDe s'.kernel n q + if n = fileName ∧ q = p then 1 else 0 := by
  have hes : (processHasOpenFile pcb fileName).isSome := by rw [processHasOpenFile, hf]; rfl
  rcases getFile_spec s.kernel fileName r with ⟨hnone, hr⟩ | ⟨k₁, hget, hplan₁, hfiles₁⟩
  · exact Or.inl ⟨hr, atender_cerrar_sin_archivo hp hst hnone⟩
  · obtain ⟨hmem, hn⟩ := processFindOpenFile_some hf
    obtain ⟨g, hg⟩ := cerrarArchivo_spec f.modoApertura (candado fileName s.kernel)
    obtain ⟨k', hk', hC⟩ := cerrado_onFileClose hI.base hp hst hget hplan₁ hfiles₁ hf hg
    have hpos : 0 < abiertos fileName f.modoApertura s.kernel :=
      (aperturas_pos.mpr ⟨f, hmem, hn, rfl⟩).trans_le (aperturas_le fileName hp f.modoApertura)
    have husos := hC.usosDe hp hf
    have hs := atender_cerrar_archivo hp hst hget hk'
    rw [if_pos hes] at hs
    refine Or.inr ⟨_, hs, ⟨hI.base.cerrar hp (by rw [hst]; simp) (by rw [hst]; simp) hg hC,
      hI.llaves.cerrar hpos hg hC, fun q n => ?_⟩, rfl, rfl, hC.claves, husos⟩
    change (Function.update s.objetos (p, fileName) _ (q, n)).length = _
    have hlen := hI.objetos q n
    rw [husos] at hlen
    by_cases hqn : (q, n) = (p, fileName)
    · obtain ⟨rfl, rfl⟩ := Prod.mk.inj hqn
      rw [Function.update_self, List.length_tail, hlen, if_pos ⟨rfl, rfl⟩]
      rfl
    · rw [Function.update_of_ne hqn, hlen, if_neg fun h => hqn (by rw [h.1, h.2]), add_zero]

/-- The planners change no file. -/
def DePlanificador : Accion → Prop
  | .admitir | .despachar _ | .desalojar _ => True
  | _ => False

/-- A process that is not blocked comes, or changes its status. -/
theorem planificador_spec (hplan : PlanInv s.kernel.plan) {a : Accion} (ha : DePlanificador a)
    (hprot : Protocolo s a) : ∃ plan p pcb',
      atender s a = some { s with kernel := setPlan s.kernel plan } ∧ PlanInv plan ∧
      plan.running = s.kernel.plan.running.put p pcb' ∧
      (∀ pcb, s.kernel.plan.running.get p = some pcb → pcb.currentStatus ≠ .BLOCK) ∧
      ((s.kernel.plan.running.get p = none ∧ pcb'.openFiles = [] ∧ pcb'.pendingFile = none) ∨
        ∃ pcb, s.kernel.plan.running.get p = some pcb ∧ pcb'.openFiles = pcb.openFiles ∧
          pcb'.pendingFile = pcb.pendingFile) := by
  cases a with
  | admitir =>
    have hfresh := hplan.fresh
    exact ⟨_, _, _, rfl, hplan.admitir, rfl, fun pcb h => by rw [hfresh] at h; simp at h,
      Or.inl ⟨hfresh, rfl, rfl⟩⟩
  | despachar p =>
    obtain ⟨pcb, hp, hst, hdesp, hplan'⟩ := hplan.despachar hprot
    refine ⟨_, p, _, by simp only [atender, hdesp, Option.bind_eq_bind, Option.bind_some]; rfl,
      hplan', rfl, fun pcb' h => ?_, Or.inr ⟨pcb, hp, rfl, rfl⟩⟩
    obtain rfl := Option.some.inj (hp.symm.trans h)
    rw [hst]
    simp
  | desalojar p =>
    obtain ⟨pcb, hex⟩ := Option.isSome_iff_exists.mp hprot
    obtain ⟨hp, hst⟩ := enEjecucion_eq_some.mp hex
    refine ⟨_, p, _,
      by simp only [atender, onEvicted, hex, Option.bind_eq_bind, Option.bind_some]; rfl,
      hplan.ready hp (by rw [hst]; simp) pcb, rfl, fun pcb' h => ?_, Or.inr ⟨pcb, hp, rfl, rfl⟩⟩
    obtain rfl := Option.some.inj (hp.symm.trans h)
    rw [hst]
    simp
  | abrir | cerrar | terminar => exact absurd ha id

/-- A process that comes, or that was not blocked, waits for nothing. -/
theorem Base.nada (hB : Base k)
    (hno : ∀ pcb, k.plan.running.get p = some pcb → pcb.currentStatus ≠ .BLOCK)
    (hpcb' : (k.plan.running.get p = none ∧ pcb'.openFiles = [] ∧ pcb'.pendingFile = none) ∨
      ∃ pcb, k.plan.running.get p = some pcb ∧ pcb'.openFiles = pcb.openFiles ∧
        pcb'.pendingFile = pcb.pendingFile) : pcb'.pendingFile = none := by
  rcases hpcb' with ⟨-, -, h⟩ | ⟨pcb, hp, -, h⟩
  · exact h
  · rw [h]
    exact hB.pendingFile_none hp (hno pcb hp)

theorem atender_planificador (hI : Inv s) {a : Accion} (ha : DePlanificador a)
    (hprot : Protocolo s a) : ∃ s', atender s a = some s' ∧ Inv s' ∧
      s'.kernel.openFiles = s.kernel.openFiles ∧ s'.creados = s.creados ∧
      s'.objetos = s.objetos := by
  obtain ⟨plan, p, pcb', hs, hplan, hrun, hno, hpcb'⟩ :=
    planificador_spec hI.base.planInv ha hprot
  refine ⟨_, hs, hI.libre hno (hI.base.nada hno hpcb') hplan hrun ?_, rfl, rfl, rfl⟩
  exact hpcb'.imp (fun h => ⟨h.1, h.2.1⟩) fun ⟨pcb, hp, h, _⟩ => ⟨pcb, hp, h⟩

/-- The process ends without a file. -/
def SinArchivos (s : Sistema) : Accion → Prop
  | .terminar pid _ => ∀ pcb ∈ s.kernel.plan.running.get pid,
      pcb.openFiles = [] ∧ pcb.pendingFile = none
  | _ => True

theorem atender_terminar (hI : Inv s) {exitCode : OpCode}
    (hprot : Protocolo s (.terminar p exitCode))
    (hsin : SinArchivos s (.terminar p exitCode)) :
    ∃ s', atender s (.terminar p exitCode) = some s' ∧ Inv s' := by
  obtain ⟨pcb, hp⟩ := Option.isSome_iff_exists.mp hprot
  rw [findProcess] at hp
  obtain ⟨hopen, hpend⟩ := hsin pcb hp
  have hget : ∀ q, (exitProcess (removeProcess s.kernel.plan p) p exitCode).running.get q =
      if q = p then none else s.kernel.plan.running.get q := fun q => Dict.get_remove _ _ _
  refine ⟨⟨setPlan s.kernel (exitProcess (removeProcess s.kernel.plan p) p exitCode), s.creados,
      s.objetos⟩,
    by simp only [atender, findProcess, hp, Option.bind_eq_bind, Option.bind_some]; rfl,
    hI.base.terminar fun pcb₁ h1 => ?_, hI.llaves.congr (fun n m => ?_) fun _ => rfl, fun q n => ?_⟩
  · obtain rfl := Option.some.inj (hp.symm.trans h1)
    exact hpend
  · have hrem := Dict.sum_remove hp (aperturas n m)
    have hcero : aperturas n m pcb = 0 := by simp [aperturas, hopen]
    rw [hcero, sub_zero] at hrem
    exact hrem
  · rw [hI.objetos]
    unfold usosDe
    change _ = (((exitProcess (removeProcess s.kernel.plan p) p exitCode).running.get q).map
      (usos n)).getD 0
    rw [hget]
    split_ifs with hq
    · subst hq
      rw [hp]
      simp [usos, abiertas, pendientes, hopen, hpend]
    · rfl

/-- **One request**: the invariant stays, unless a process ends with a file. -/
theorem atender_inv (hI : Inv s) {a : Accion} (hprot : Protocolo s a) (hsin : SinArchivos s a) :
    ∃ s', atender s a = some s' ∧ Inv s' := by
  cases a with
  | admitir | despachar | desalojar =>
    obtain ⟨s', hs', hI', -⟩ := atender_planificador hI (by trivial) hprot
    exact ⟨s', hs', hI'⟩
  | abrir p fileName mode r =>
    obtain ⟨pcb, hex⟩ := Option.isSome_iff_exists.mp hprot
    obtain ⟨hp, hst⟩ := enEjecucion_eq_some.mp hex
    rcases atender_abrir hI hp hst mode r with ⟨-, hs⟩ | ⟨s', hs', hI', -⟩
    · exact ⟨s, hs, hI⟩
    · exact ⟨s', hs', hI'⟩
  | cerrar p fileName r =>
    obtain ⟨pcb, hex⟩ := Option.isSome_iff_exists.mp hprot
    obtain ⟨hp, hst⟩ := enEjecucion_eq_some.mp hex
    cases hf : processFindOpenFile pcb fileName with
    | none =>
      rcases atender_cerrar_ajeno hI hp hst r hf with ⟨-, hs⟩ | ⟨s', hs', hI', -⟩
      · exact ⟨s, hs, hI⟩
      · exact ⟨s', hs', hI'⟩
    | some f =>
      rcases atender_cerrar hI hp hst r hf with ⟨-, hs⟩ | ⟨s', hs', hI', -⟩
      · exact ⟨s, hs, hI⟩
      · exact ⟨s', hs', hI'⟩
  | terminar p exitCode => exact atender_terminar hI hprot hsin

theorem inv_inicial : Inv inicial := by
  refine ⟨⟨planInv_inicial, fun n => rfl, fun n req hreq => ?_, fun q pcb f hq => ?_, fun n => ?_⟩,
    ⟨fun n h => ?_, fun n => ?_, fun n h => ?_⟩, fun q n => rfl⟩
  · exact absurd hreq (by simp [inicial, candado, Archivos.estadoInicial, kernelFileCreate])
  · exact absurd hq (by simp [inicial, Archivos.estadoInicial, planificadorInicial])
  · exact List.nodup_nil
  · exact absurd h Bool.false_ne_true
  · exact le_of_eq rfl
  · exact absurd rfl h

/-- Nobody waits for a file without a queue. -/
theorem Base.sin_cola (hB : Base k) (hcola : (candado fileName k).readWriteQueue = [])
    (hq : k.plan.running.get q = some pcb) : usos fileName pcb = abiertas fileName pcb := by
  rw [usos, pendientes, if_neg, add_zero]
  rintro ⟨f, hf, rfl⟩
  have hmem := (hB.espera q pcb f hq hf).2
  rw [hcola] at hmem
  exact absurd hmem (by simp)

end OperatingSystem.Kernel.Aperturas
