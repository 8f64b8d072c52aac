import OperatingSystem.Kernel.Cierres

/-! # Who waits for a file (`process_handler.c`, `file.c`)

The queue of a file has pids; the request itself, the file and the mode, is in the PCB of the process,
and a close looks the process up by its pid. So the two have to go together: whoever is queued is a live
process that is blocked with this request pending, and a close then finds it.

No termination takes a process out of the queue of a file. So this holds in all of a run if and only if
no process of the run ends while it waits for a file (`esperas_vivas_iff`), e.g. killed from the
console; the close that reaches the pid left in the queue dereferences a null pointer. -/

namespace OperatingSystem.Kernel.Esperas

open OperatingSystem.Lib.Dictionary OperatingSystem.Lib.Run
open OperatingSystem.Kernel.Proceso OperatingSystem.Kernel.Aperturas
open OperatingSystem.Kernel.Archivos hiding Accion atender
open OperatingSystem.Kernel.Exclusion (candado modo cerrarArchivo)

/-- **Who is queued is alive and waits**: it is blocked with that file and mode pending, and it is queued
once, in one queue. -/
structure Vivas (k : Archivos.Estado) : Prop where
  espera : ∀ fileName, ∀ req ∈ (candado fileName k).readWriteQueue, ∃ pcb,
    findProcess k.plan req.pid = some pcb ∧ pcb.currentStatus = .BLOCK ∧
      pcb.pendingFile = some (fileCreate fileName (modo req.mode))
  unaVez : ∀ fileName, ((candado fileName k).readWriteQueue.map FileLockRequest.pid).Nodup
  unaCola : ∀ n m, ∀ req ∈ (candado n k).readWriteQueue, ∀ req' ∈ (candado m k).readWriteQueue,
    req.pid = req'.pid → n = m

/-- The processes that a close of the file gives it to. -/
def proximosProcesos (k : Archivos.Estado) (pid : ℤ) (fileName : String) (r : Respuestas) : List ℤ :=
  ((do
    let pcb ← findProcess k.plan pid
    let (file, _) ← getFileFromFilesystem k fileName r
    let mode ← processHasOpenFile pcb fileName
    return (cerrarArchivo mode file).2 : Option (List ℤ))).getD []

/-- Each of them is found, gets the file that it waits for and is ready. -/
def Despierta (k k' : Archivos.Estado) : Accion → Prop
  | .cerrar pid fileName r => ∀ q ∈ proximosProcesos k pid fileName r, ∃ pcb mode pcb',
      findProcess k.plan q = some pcb ∧ pcb.pendingFile = some (fileCreate fileName mode) ∧
        findProcess k'.plan q = some pcb' ∧ fileCreate fileName mode ∈ pcb'.openFiles ∧
        pcb'.currentStatus = .READY
  | _ => True

/-- What is promised of a request. -/
def Atendida (s : Sistema) (a : Accion) : Prop :=
  ∃ s', atender s a = some s' ∧ Vivas s'.kernel ∧ Despierta s.kernel s'.kernel a

/-- A process that ends does not wait for a file. -/
def SinEspera (s : Sistema) : Accion → Prop
  | .terminar pid _ => ∀ pcb ∈ findProcess s.kernel.plan pid, pcb.pendingFile = none
  | _ => True

variable {s s' : Sistema} {k k' : Archivos.Estado} {p : ℤ} {fileName : String} {pcb : Pcb}
  {mode : ModoApertura} {r : Respuestas}

theorem vivas_of_base (hB : Base k) : Vivas k := by
  refine ⟨hB.cola, hB.distintos, fun n m req hreq req' hreq' hpid => ?_⟩
  obtain ⟨pcb, hp, -, hf⟩ := hB.cola n req hreq
  obtain ⟨pcb', hp', -, hf'⟩ := hB.cola m req' hreq'
  rw [hpid] at hp
  obtain rfl := Option.some.inj (hp.symm.trans hp')
  have hfile := Option.some.inj (hf.symm.trans hf')
  exact congrArg File.nombreArchivo hfile

/-- The close goes through the requests at the head of the queue. -/
theorem proximosProcesos_eq (hp : k.plan.running.get p = some pcb) {k₁ : Archivos.Estado}
    (hget : getFileFromFilesystem k fileName r = some (candado fileName k, k₁)) {f : File}
    (hf : processFindOpenFile pcb fileName = some f) :
    proximosProcesos k p fileName r = (cerrarArchivo f.modoApertura (candado fileName k)).2 := by
  have hmode : processHasOpenFile pcb fileName = some f.modoApertura := by
    rw [processHasOpenFile, hf]
    rfl
  simp only [proximosProcesos, findProcess, hp, hget, hmode, Option.bind_eq_bind, Option.bind_some,
    Option.pure_def, Option.getD_some]

theorem proximosProcesos_sin_archivo (hnone : getFileFromFilesystem k fileName r = none) :
    proximosProcesos k p fileName r = [] := by
  unfold proximosProcesos
  cases findProcess k.plan p with
  | none => rfl
  | some pcb => simp only [hnone, Option.bind_eq_bind, Option.bind_some, Option.bind_none,
      Option.getD_none]

theorem proximosProcesos_ajeno (hp : k.plan.running.get p = some pcb)
    (hf : processFindOpenFile pcb fileName = none) : proximosProcesos k p fileName r = [] := by
  have hmode : processHasOpenFile pcb fileName = none := by
    rw [processHasOpenFile, hf]
    rfl
  unfold proximosProcesos
  rw [findProcess, hp]
  cases getFileFromFilesystem k fileName r with
  | none => rfl
  | some file => simp only [hmode, Option.bind_eq_bind, Option.bind_some, Option.bind_none,
      Option.getD_none]

/-- Who gets the file in a close is found, has it afterwards and is ready. -/
theorem despierta_cerrado {f : File} {g : List FileLockRequest} (hB : Base k)
    (hp : k.plan.running.get p = some pcb) (hst : pcb.currentStatus = .EXEC) {k₁ : Archivos.Estado}
    (hget : getFileFromFilesystem k fileName r = some (candado fileName k, k₁))
    (hf : processFindOpenFile pcb fileName = some f)
    (hg : Cierre f.modoApertura (candado fileName k) g) (hC : Cerrado k k' p pcb fileName f g) :
    Despierta k k' (.cerrar p fileName r) := by
  intro q hq
  rw [proximosProcesos_eq hp hget hf, hg.proximos] at hq
  obtain ⟨req, hreq, rfl⟩ := List.mem_map.mp hq
  obtain ⟨pcb₁, hp₁, hst₁, hpend⟩ :=
    hB.cola fileName req (by rw [hg.cola]; exact List.mem_append_left _ hreq)
  have hne : req.pid ≠ p := by
    intro he
    rw [he, hp] at hp₁
    obtain rfl := Option.some.inj hp₁
    rw [hst] at hst₁
    cases hst₁
  refine ⟨pcb₁, modo req.mode, despertado pcb₁, hp₁, hpend, ?_, ?_, ?_⟩
  · rw [findProcess, hC.running, if_neg hne, if_pos hq, hp₁]
    rfl
  · rw [despertado, hpend]
    exact List.mem_append_right _ (List.mem_singleton.mpr rfl)
  · rw [despertado, hpend]

/-- **One request**: who is queued still waits, unless it ends. -/
theorem atender_base (hB : Base s.kernel) {a : Accion} (hprot : Protocolo s a)
    (hsin : SinEspera s a) :
    ∃ s', atender s a = some s' ∧ Base s'.kernel ∧ Despierta s.kernel s'.kernel a := by
  cases a with
  | admitir | despachar | desalojar =>
    obtain ⟨plan, p, pcb', hs, hplan, hrun, hno, hpcb'⟩ :=
      planificador_spec hB.planInv (by trivial) hprot
    refine ⟨_, hs, hB.libre hno (hB.nada hno hpcb') hplan (fun q => ?_)
      (fun n => ⟨hB.nombre n, rfl⟩), trivial⟩
    change plan.running.get q = _
    rw [hrun, Dict.get_put]
  | abrir p fileName mode r =>
    obtain ⟨pcb, hex⟩ := Option.isSome_iff_exists.mp hprot
    obtain ⟨hp, hst⟩ := enEjecucion_eq_some.mp hex
    rcases getFile_spec s.kernel fileName r with ⟨hnone, -⟩ | ⟨k₁, hget, hplan₁, hfiles₁⟩
    · exact ⟨s, atender_abrir_sin_archivo hp hst mode hnone, hB, trivial⟩
    · obtain ⟨k', hk', hB', -⟩ := onFileOpen_spec hB hp hst mode hget hplan₁ hfiles₁
      exact ⟨_, atender_abrir_archivo hp hst mode hget hk', hB', trivial⟩
  | cerrar p fileName r =>
    obtain ⟨pcb, hex⟩ := Option.isSome_iff_exists.mp hprot
    obtain ⟨hp, hst⟩ := enEjecucion_eq_some.mp hex
    rcases getFile_spec s.kernel fileName r with ⟨hnone, -⟩ | ⟨k₁, hget, hplan₁, hfiles₁⟩
    · refine ⟨s, atender_cerrar_sin_archivo hp hst hnone, hB, fun q hq => ?_⟩
      rw [proximosProcesos_sin_archivo hnone] at hq
      cases hq
    · cases hf : processFindOpenFile pcb fileName with
      | none =>
        refine ⟨_, atender_cerrar_archivo hp hst hget (onFileClose_ajeno hp hget hf),
          hB.congr hplan₁ (candado_getFile hfiles₁), fun q hq => ?_⟩
        rw [proximosProcesos_ajeno hp hf] at hq
        cases hq
      | some f =>
        obtain ⟨g, hg⟩ := cerrarArchivo_spec f.modoApertura (candado fileName s.kernel)
        obtain ⟨k', hk', hC⟩ := cerrado_onFileClose hB hp hst hget hplan₁ hfiles₁ hf hg
        exact ⟨_, atender_cerrar_archivo hp hst hget hk',
          hB.cerrar hp (by rw [hst]; simp) (by rw [hst]; simp) hg hC,
          despierta_cerrado hB hp hst hget hf hg hC⟩
  | terminar p exitCode =>
    obtain ⟨pcb, hp⟩ := Option.isSome_iff_exists.mp hprot
    exact ⟨{ s with
        kernel := setPlan s.kernel (exitProcess (removeProcess s.kernel.plan p) p exitCode) },
      by simp only [atender, hp, Option.bind_eq_bind, Option.bind_some]; rfl,
      hB.terminar hsin, trivial⟩

/-- A process that ends while it waits stays in the queue. -/
theorem atendida_iff (hB : Base s.kernel) {a : Accion} (hprot : Protocolo s a) :
    Atendida s a ↔ SinEspera s a := by
  constructor
  · rintro ⟨s', hs', hviva, -⟩
    cases a with
    | admitir | despachar | desalojar | abrir | cerrar => trivial
    | terminar p exitCode =>
      intro pcb hp
      obtain ⟨-, -, hs'⟩ := Option.bind_eq_some_iff.mp hs'
      obtain rfl := Option.some.inj hs'
      by_contra hpend
      obtain ⟨f, hf⟩ := Option.ne_none_iff_exists'.mp hpend
      obtain ⟨req, hreq, rfl⟩ := List.mem_map.mp (hB.espera p pcb f hp hf).2
      obtain ⟨pcb', hp', -⟩ := hviva.espera f.nombreArchivo req hreq
      have hfuera : (s.kernel.plan.running.remove req.pid).get req.pid = none := Dict.get_remove_self ..
      rw [show (s.kernel.plan.running.remove req.pid).get req.pid = some pcb' from hp'] at hfuera
      cases hfuera
  · intro hsin
    obtain ⟨s', hs', hB', hdesp⟩ := atender_base hB hprot hsin
    exact ⟨s', hs', vivas_of_base hB', hdesp⟩

/-- **Queued requests.** In all of a run whoever is queued is a live process that waits for the file, and
every close wakes up the processes that it gives the file to, if and only if no process of the run ends
while it waits for a file. -/
theorem esperas_vivas_iff {as : List Accion} (h : Along atender Protocolo inicial as) :
    Along atender Atendida inicial as ↔ Along atender SinEspera inicial as := by
  refine along_congr (I := fun s => Base s.kernel) (fun s a hB hprot => atendida_iff hB hprot)
    (fun s a s' hB hprot hsin hs => ?_) inv_inicial.base h
  obtain ⟨s₁, hs₁, hB', -⟩ := atender_base hB hprot hsin
  obtain rfl := Option.some.inj (hs₁.symm.trans hs)
  exact hB'

/-- Process 2 waits for the file of process 1 and gets it; then both end. -/
theorem esperas_vivas_iff_concedida :
    Along atender Atendida inicial [.admitir, .admitir, .despachar 1,
        .abrir 1 "a" .W ⟨0, 0, 0⟩, .desalojar 1, .despachar 2, .abrir 2 "a" .R ⟨0, 0, 0⟩,
        .despachar 1, .cerrar 1 "a" ⟨0, 0, 0⟩, .terminar 1 .PROC_EXIT_SUCCESS,
        .terminar 2 .PROC_EXIT_FORCE] ↔
      Along atender SinEspera inicial [.admitir, .admitir, .despachar 1,
        .abrir 1 "a" .W ⟨0, 0, 0⟩, .desalojar 1, .despachar 2, .abrir 2 "a" .R ⟨0, 0, 0⟩,
        .despachar 1, .cerrar 1 "a" ⟨0, 0, 0⟩, .terminar 1 .PROC_EXIT_SUCCESS,
        .terminar 2 .PROC_EXIT_FORCE] :=
  esperas_vivas_iff <| .of_step trivial rfl <| .of_step trivial rfl <|
    .of_step (show _ ∈ _ by decide) rfl <|
    .of_step (show Option.isSome _ = true by decide) rfl <|
    .of_step (show Option.isSome _ = true by decide) rfl <|
    .of_step (show _ ∈ _ by decide) rfl <|
    .of_step (show Option.isSome _ = true by decide) rfl <|
    .of_step (show _ ∈ _ by decide) rfl <|
    .of_step (show Option.isSome _ = true by decide) rfl <|
    .of_step (show Option.isSome _ = true by decide) rfl <|
    .of_step (show Option.isSome _ = true by decide) rfl trivial

/-- **A pid of nobody in the queue.** Process 2 waits for the file of process 1 and is killed; the close
of process 1 then dereferences what `find_process` does not find. -/
theorem espera_de_nadie :
    Along atender Protocolo inicial [.admitir, .admitir, .despachar 1,
        .abrir 1 "a" .W ⟨0, 0, 0⟩, .desalojar 1, .despachar 2, .abrir 2 "a" .W ⟨0, 0, 0⟩,
        .despachar 1, .terminar 2 .PROC_EXIT_FORCE, .cerrar 1 "a" ⟨0, 0, 0⟩] ∧
      ∃ s, exec atender inicial [.admitir, .admitir, .despachar 1,
          .abrir 1 "a" .W ⟨0, 0, 0⟩, .desalojar 1, .despachar 2, .abrir 2 "a" .W ⟨0, 0, 0⟩,
          .despachar 1, .terminar 2 .PROC_EXIT_FORCE] = some s ∧
        s.kernel.openFiles.get "a" = some ⟨"a", [⟨.FILE_MODE_WRITE, 2⟩], true, 0⟩ ∧
        findProcess s.kernel.plan 2 = none ∧ ¬Vivas s.kernel ∧
        atender s (.cerrar 1 "a" ⟨0, 0, 0⟩) = none := by
  refine ⟨?_, _, rfl, rfl, rfl, fun h => ?_, rfl⟩
  · exact .of_step trivial rfl <| .of_step trivial rfl <| .of_step (show _ ∈ _ by decide) rfl <|
      .of_step (show Option.isSome _ = true by decide) rfl <|
      .of_step (show Option.isSome _ = true by decide) rfl <|
      .of_step (show _ ∈ _ by decide) rfl <|
      .of_step (show Option.isSome _ = true by decide) rfl <|
      .of_step (show _ ∈ _ by decide) rfl <|
      .of_step (show Option.isSome _ = true by decide) rfl
        ⟨show Option.isSome _ = true by decide, fun _ _ => trivial⟩
  · obtain ⟨pcb, hp, -⟩ := h.espera "a" ⟨.FILE_MODE_WRITE, 2⟩ (List.mem_singleton.mpr rfl)
    cases hp

end OperatingSystem.Kernel.Esperas
