import OperatingSystem.Kernel.Cierres

/-! # Files of finished processes

No termination looks at the files of the process: its locks stay counted, and its request stays in the
queue. So nothing is left of a finished process in any run if and only if every process of the run that
ends has closed its files and waits for none. -/

namespace OperatingSystem.Kernel.Terminados

open OperatingSystem.Lib.Dictionary OperatingSystem.Lib.Run
open OperatingSystem.Kernel.Proceso OperatingSystem.Kernel.Aperturas
open OperatingSystem.Kernel.Archivos hiding Accion atender
open OperatingSystem.Kernel.Exclusion (candado abiertos aperturas_pos)

/-- **Nothing is left of finished processes**: the locks are not above the opens of live processes; no
queue has them; and who waits is in the queue of a file that some process has. -/
structure SinTerminados (s : Sistema) : Prop where
  escritura : ∀ n, (candado n s.kernel).activeWriteLock = true → 0 < abiertos n .W s.kernel
  lectura : ∀ n, (candado n s.kernel).activeReadLock ≤ abiertos n .R s.kernel
  colas : ∀ n, ∀ req ∈ (candado n s.kernel).readWriteQueue,
    (s.kernel.plan.running.get req.pid).isSome
  espera : ∀ p pcb f, s.kernel.plan.running.get p = some pcb → pcb.pendingFile = some f →
    p ∈ (candado f.nombreArchivo s.kernel).readWriteQueue.map FileLockRequest.pid ∧
      ∃ q pcb', s.kernel.plan.running.get q = some pcb' ∧ 0 < abiertas f.nombreArchivo pcb'

/-- Finished processes closed what they opened, also where the locks do not count it any more. -/
def Cerradas (s : Sistema) : Prop :=
  ∀ p, s.kernel.plan.running.get p = none → ∀ n, s.objetos (p, n) = []

variable {s s' : Sistema} {p : ℤ} {n : String} {pcb : Pcb}

/-- An open that is counted is of some process. -/
theorem abiertas_of_abiertos {k : Archivos.Estado} {mode : ModoApertura}
    (h : 0 < abiertos n mode k) :
    ∃ q pcb, k.plan.running.get q = some pcb ∧ 0 < abiertas n pcb := by
  obtain ⟨q, pcb, hq, hpos⟩ := Dict.exists_of_sum_pos h
  obtain ⟨f, hf, hn, -⟩ := aperturas_pos.mp hpos
  exact ⟨q, pcb, hq, abiertas_pos.mpr ⟨f, hf, hn⟩⟩

theorem cerradas_of_inv (hI : Inv s) : Cerradas s := fun p hp n => by
  rw [← List.length_eq_zero_iff, hI.objetos, usosDe_of_none hp]

theorem sinTerminados_of_inv (hI : Inv s) : SinTerminados s := by
  refine ⟨hI.llaves.escritura, hI.llaves.lectura, fun n req hreq => ?_, fun p pcb f hp hf => ?_⟩
  · obtain ⟨pcb, hpcb, -⟩ := hI.base.cola n req hreq
    rw [hpcb]
    rfl
  · have hmem := (hI.base.espera p pcb f hp hf).2
    refine ⟨hmem, ?_⟩
    have hcola : (candado f.nombreArchivo s.kernel).readWriteQueue ≠ [] := fun h => by
      rw [h] at hmem
      exact absurd hmem (by simp)
    have hpos := hI.llaves.cola f.nombreArchivo hcola
    by_cases hW : 0 < abiertos f.nombreArchivo .W s.kernel
    · exact abiertas_of_abiertos hW
    · exact abiertas_of_abiertos (show 0 < abiertos f.nombreArchivo .R s.kernel by omega)

/-- A process without uses has no file open and waits for none. -/
theorem sinUsos (h : ∀ n, usos n pcb = 0) : pcb.openFiles = [] ∧ pcb.pendingFile = none := by
  constructor
  · rw [List.eq_nil_iff_forall_not_mem]
    intro f hf
    have hpos : 0 < usos f.nombreArchivo pcb := usos_pos.mpr (Or.inl ⟨f, hf, rfl⟩)
    rw [h] at hpos
    exact absurd hpos (by simp)
  · cases hpend : pcb.pendingFile with
    | none => rfl
    | some f =>
      have hpos : 0 < usos f.nombreArchivo pcb := usos_pos.mpr (Or.inr ⟨f, hpend, rfl⟩)
      rw [h] at hpos
      exact absurd hpos (by simp)

/-- After the request nothing is left of finished processes, and they have closed everything. -/
def Liberada (s : Sistema) (a : Accion) : Prop :=
  ∃ s', atender s a = some s' ∧ SinTerminados s' ∧ Cerradas s'

/-- **One request.** -/
theorem liberada_iff (hI : Inv s) {a : Accion} (hprot : Protocolo s a) :
    Liberada s a ↔ SinArchivos s a := by
  constructor
  · rintro ⟨s', hs', -, h⟩
    cases a with
    | admitir | despachar | desalojar | abrir | cerrar => trivial
    | terminar p exitCode =>
      intro pcb hp
      refine sinUsos fun n => ?_
      obtain ⟨-, -, hs'⟩ := Option.bind_eq_some_iff.mp hs'
      obtain rfl := Option.some.inj hs'
      have hvacio := h p (Dict.get_remove_self ..) n
      rw [← usosDe_of_get hp, ← hI.objetos]
      exact List.length_eq_zero_iff.mpr hvacio
  · intro hsin
    obtain ⟨s', hs', hI'⟩ := atender_inv hI hprot hsin
    exact ⟨s', hs', sinTerminados_of_inv hI', cerradas_of_inv hI'⟩

/-- **Finished processes.** Nothing is left of them after any request of a run if and only if every
process that ends in the run has no file open and waits for none. -/
theorem sin_terminados_iff {as : List Accion} (h : Along atender Protocolo inicial as) :
    Along atender Liberada inicial as ↔ Along atender SinArchivos inicial as := by
  refine along_congr (fun s a hI hprot => liberada_iff hI hprot) (fun s a s' hI hprot hsin hs => ?_)
    inv_inicial h
  obtain ⟨s₁, hs₁, hI'⟩ := atender_inv hI hprot hsin
  obtain rfl := Option.some.inj (hs₁.symm.trans hs)
  exact hI'

/-- A process closes its file, and another one waits for it; both end. -/
theorem sin_terminados_iff_cerrado :
    Along atender Liberada inicial [.admitir, .admitir, .despachar 1,
        .abrir 1 "a" .W ⟨0, 0, 0⟩, .desalojar 1, .despachar 2, .abrir 2 "a" .W ⟨0, 0, 0⟩,
        .despachar 1, .cerrar 1 "a" ⟨0, 0, 0⟩, .terminar 1 .PROC_EXIT_SUCCESS] ↔
      Along atender SinArchivos inicial [.admitir, .admitir, .despachar 1,
        .abrir 1 "a" .W ⟨0, 0, 0⟩, .desalojar 1, .despachar 2, .abrir 2 "a" .W ⟨0, 0, 0⟩,
        .despachar 1, .cerrar 1 "a" ⟨0, 0, 0⟩, .terminar 1 .PROC_EXIT_SUCCESS] :=
  sin_terminados_iff <| .of_step trivial rfl <| .of_step trivial rfl <|
    .of_step (show _ ∈ _ by decide) rfl <|
    .of_step (show Option.isSome _ = true by decide) rfl <|
    .of_step (show Option.isSome _ = true by decide) rfl <|
    .of_step (show _ ∈ _ by decide) rfl <|
    .of_step (show Option.isSome _ = true by decide) rfl <|
    .of_step (show _ ∈ _ by decide) rfl <|
    .of_step (show Option.isSome _ = true by decide) rfl <|
    .of_step (show Option.isSome _ = true by decide) rfl trivial

/-- **A file that nobody gets.** A process ends with a file open for which another one waits. -/
theorem termina_con_archivo :
    Along atender Protocolo inicial [.admitir, .admitir, .despachar 1,
        .abrir 1 "a" .W ⟨0, 0, 0⟩, .desalojar 1, .despachar 2, .abrir 2 "a" .W ⟨0, 0, 0⟩,
        .despachar 1, .terminar 1 .PROC_EXIT_SUCCESS] ∧
      ∃ s, exec atender inicial [.admitir, .admitir, .despachar 1,
          .abrir 1 "a" .W ⟨0, 0, 0⟩, .desalojar 1, .despachar 2, .abrir 2 "a" .W ⟨0, 0, 0⟩,
          .despachar 1, .terminar 1 .PROC_EXIT_SUCCESS] = some s ∧
        s.kernel.plan.running.get 1 = none ∧
        s.kernel.openFiles.get "a" = some ⟨"a", [⟨.FILE_MODE_WRITE, 2⟩], true, 0⟩ ∧
        (s.kernel.plan.running.get 2).map Pcb.currentStatus = some .BLOCK ∧
        ¬SinTerminados s := by
  refine ⟨?_, _, rfl, rfl, rfl, rfl, fun h => ?_⟩
  · exact .of_step trivial rfl <| .of_step trivial rfl <| .of_step (show _ ∈ _ by decide) rfl <|
      .of_step (show Option.isSome _ = true by decide) rfl <|
      .of_step (show Option.isSome _ = true by decide) rfl <|
      .of_step (show _ ∈ _ by decide) rfl <|
      .of_step (show Option.isSome _ = true by decide) rfl <|
      .of_step (show _ ∈ _ by decide) rfl <|
      .of_step (show Option.isSome _ = true by decide) rfl trivial
  · exact absurd (h.escritura "a" rfl) (by decide)

end OperatingSystem.Kernel.Terminados
