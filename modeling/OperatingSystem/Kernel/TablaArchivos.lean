import OperatingSystem.Kernel.Cierres

/-! # The table of open files

`open_files` has the `t_kernel_file` of every file that some process uses. If another object takes the
place of the one that a process opened, its close changes the locks of the wrong one.

`tabla_exacta_iff` is that the table is right after each operation of a run if and only if no close is
of a file that nobody has in the table, or of one that other processes have open while nobody waits for
it. -/

namespace OperatingSystem.Kernel.TablaArchivos

open OperatingSystem.Lib.Dictionary OperatingSystem.Lib.Run
open OperatingSystem.Kernel.Proceso OperatingSystem.Kernel.Aperturas
open OperatingSystem.Kernel.Archivos hiding Accion atender
open OperatingSystem.Kernel.Exclusion (candado)

/-! ### The table and the closes -/

/-- **The table is exact**: it has the files that are used, and every use is of the object in it. -/
structure TablaExacta (s : Sistema) : Prop where
  claves : ∀ fileName, (s.kernel.openFiles.get fileName).isSome ↔ ∃ p, Usa s fileName p
  mismo : ∀ p fileName, ∀ n ∈ s.objetos (p, fileName), n = s.creados fileName

/-- The file system opens the files, and nobody ends. -/
def SoloArchivos : Accion → Prop
  | .abrir _ _ _ r | .cerrar _ _ r => Exitosa r
  | .terminar _ _ => False
  | _ => True

/-- Nobody else has the file, and the process has it once. -/
def UltimaApertura (s : Sistema) (p : ℤ) (fileName : String) : Prop :=
  ∀ q ∈ s.kernel.plan.running.keys, ∀ pcb ∈ s.kernel.plan.running.get q,
    abiertas fileName pcb = if q = p then 1 else 0

/-- **When a close leaves the table right**: of a file that the process has, if somebody waits for it or
it is the last open; of another one, if it is in the table. -/
def CierreLimpio (s : Sistema) (p : ℤ) (fileName : String) (pcb : Pcb) : Prop :=
  if processFindOpenFile pcb fileName = none then s.kernel.openFiles.get fileName ≠ none
  else (candado fileName s.kernel).readWriteQueue ≠ [] ∨ UltimaApertura s p fileName

def Condicion (s : Sistema) : Accion → Prop
  | .cerrar p fileName _ => ∀ pcb ∈ s.kernel.plan.running.get p, CierreLimpio s p fileName pcb
  | _ => True

variable {s s' : Sistema} {p : ℤ} {fileName : String} {pcb : Pcb} {r : Respuestas}

/-! ### One operation -/

/-- Nothing about files changes. -/
theorem TablaExacta.congr (hT : TablaExacta s) (hI : Inv s) (hI' : Inv s')
    (hfiles : s'.kernel.openFiles = s.kernel.openFiles) (hcreados : s'.creados = s.creados)
    (hobjetos : s'.objetos = s.objetos) : TablaExacta s' := by
  have husos : ∀ n q, usosDe s'.kernel n q = usosDe s.kernel n q := fun n q => by
    rw [← hI.objetos, ← hI'.objetos, hobjetos]
  refine ⟨fun n => ?_, fun q n o ho => ?_⟩
  · rw [hfiles, hT.claves]
    simp only [usa_iff, husos]
  · rw [hobjetos] at ho
    rw [hcreados]
    exact hT.mismo q n o ho

/-- Who does not use a file remembers no object of it. -/
theorem objetos_vacio (hI : Inv s) (hT : TablaExacta s)
    (hf : s.kernel.openFiles.get fileName = none) (q : ℤ) : s.objetos (q, fileName) = [] := by
  have hno := mt (hT.claves fileName).mpr (by rw [hf]; simp)
  rw [← List.length_eq_zero_iff, hI.objetos]
  by_contra hne
  exact hno ⟨q, usa_iff.mpr (Nat.pos_of_ne_zero hne)⟩

theorem exacta_abrir (hI : Inv s) (hT : TablaExacta s) (hp : s.kernel.plan.running.get p = some pcb)
    (hst : pcb.currentStatus = .EXEC) (mode : ModoApertura) (r : Respuestas)
    (hs : atender s (.abrir p fileName mode r) = some s') : TablaExacta s' := by
  rcases atender_abrir hI hp hst mode r with ⟨-, h⟩ | ⟨s₁, h, -, hcreados, hobjetos, hclaves, husos⟩
  · obtain rfl := Option.some.inj (h.symm.trans hs)
    exact hT
  · obtain rfl := Option.some.inj (h.symm.trans hs)
    refine ⟨fun n => ?_, fun q n o ho => ?_⟩
    · rw [hclaves, hT.claves]
      simp only [usa_iff, husos]
      by_cases hn : n = fileName
      · simp only [hn, true_and, true_or, true_iff]
        exact ⟨p, by simp⟩
      · simp [hn]
    · rw [hobjetos] at ho
      by_cases hn : n = fileName
      · subst hn
        -- the other opens are of this object too, if the file was in the table
        have hviejo : ∀ q', o ∈ s.objetos (q', n) → o = s₁.creados n := fun q' ho => by
          cases hf : s.kernel.openFiles.get n with
          | none =>
            rw [objetos_vacio hI hT hf] at ho
            exact absurd ho (by simp)
          | some file =>
            rw [hcreados, numerar_of_some (by rw [hf]; rfl)]
            exact hT.mismo q' n o ho
        by_cases hq : q = p
        · subst hq
          rw [Function.update_self] at ho
          rcases List.mem_append.mp ho with ho | ho
          · exact hviejo q ho
          · exact List.mem_singleton.mp ho
        · rw [Function.update_of_ne (by simp [hq])] at ho
          exact hviejo q ho
      · rw [Function.update_of_ne (by simp [hn])] at ho
        rw [hcreados, numerar_of_ne hn]
        exact hT.mismo q n o ho

theorem exacta_cerrar_ajeno (hI : Inv s) (hT : TablaExacta s)
    (hp : s.kernel.plan.running.get p = some pcb) (hst : pcb.currentStatus = .EXEC)
    (hr : Exitosa r) (hf : processFindOpenFile pcb fileName = none)
    (hs : atender s (.cerrar p fileName r) = some s') :
    TablaExacta s' ↔ s.kernel.openFiles.get fileName ≠ none := by
  rcases atender_cerrar_ajeno hI hp hst r hf with
    ⟨hno, -⟩ | ⟨s₁, hs₁, -, hcreados, hobjetos, hclaves, husos⟩
  · exact absurd hr hno
  · obtain rfl := Option.some.inj (hs₁.symm.trans hs)
    constructor
    · intro h
      have hT' := h.claves fileName
      rw [← Option.isSome_iff_ne_none, hT.claves]
      simp only [usa_iff, husos] at hT' ⊢
      exact hT'.mp ((hclaves fileName).mpr (Or.inl rfl))
    · intro hes
      have hes := Option.isSome_iff_ne_none.mpr hes
      refine ⟨fun n => ?_, fun q n o ho => ?_⟩
      · rw [hclaves]
        simp only [usa_iff, husos]
        rw [or_iff_right_of_imp fun hn => by rw [hn]; exact hes, hT.claves]
        simp only [usa_iff]
      · rw [hobjetos] at ho
        rw [hcreados, numerar_of_some hes]
        exact hT.mismo q n o ho

/-- An open is the last one if nothing of the file is in use after its close. -/
theorem ultimaApertura_iff (hI : Inv s) (hcola : (candado fileName s.kernel).readWriteQueue = [])
    (husos : ∀ q, usosDe s.kernel fileName q =
      usosDe s'.kernel fileName q + if fileName = fileName ∧ q = p then 1 else 0) :
    UltimaApertura s p fileName ↔ ∀ q, usosDe s'.kernel fileName q = 0 := by
  constructor
  · intro h q
    have hq := husos q
    cases hget : s.kernel.plan.running.get q with
    | none =>
      rw [usosDe_of_none hget] at hq
      omega
    | some pcb₁ =>
      have := h q (Dict.mem_keys_of_get hget) pcb₁ hget
      rw [usosDe_of_get hget, hI.base.sin_cola hcola hget, this] at hq
      simp only [true_and] at hq
      omega
  · intro h q _ pcb₁ hget
    have hq := husos q
    rw [usosDe_of_get hget, hI.base.sin_cola hcola hget, h q] at hq
    simpa using hq

/-- While somebody waits for the file, another process than one that runs uses it. -/
theorem usa_de_cola (hI : Inv s) (hcola : (candado fileName s.kernel).readWriteQueue ≠ [])
    (hp : s.kernel.plan.running.get p = some pcb) (hst : pcb.currentStatus = .EXEC) :
    ∃ q ≠ p, 0 < usosDe s.kernel fileName q := by
  obtain ⟨req, rest, hreq⟩ := List.exists_cons_of_ne_nil hcola
  obtain ⟨pcb₁, hpcb, hblock, hpend⟩ := hI.base.cola fileName req (by rw [hreq]; simp)
  refine ⟨req.pid, ?_, ?_⟩
  · rintro rfl
    obtain rfl := Option.some.inj (hp.symm.trans hpcb)
    rw [hst] at hblock
    exact absurd hblock (by simp)
  · rw [usosDe_of_get hpcb, usos_pos]
    exact Or.inr ⟨_, hpend, rfl⟩

theorem exacta_cerrar (hI : Inv s) (hT : TablaExacta s)
    (hp : s.kernel.plan.running.get p = some pcb) (hst : pcb.currentStatus = .EXEC)
    (hr : Exitosa r) {f : File} (hf : processFindOpenFile pcb fileName = some f)
    (hs : atender s (.cerrar p fileName r) = some s') :
    TablaExacta s' ↔
      (candado fileName s.kernel).readWriteQueue ≠ [] ∨ UltimaApertura s p fileName := by
  obtain ⟨hmem, hn⟩ := processFindOpenFile_some hf
  have hes : (s.kernel.openFiles.get fileName).isSome :=
    (hT.claves fileName).mpr ⟨p, pcb, hp, Or.inl ⟨f, hmem, hn⟩⟩
  rcases atender_cerrar hI hp hst r hf with
    ⟨hno, -⟩ | ⟨s₁, hs₁, -, hcreados, hobjetos, hclaves, husos⟩
  · exact absurd hr hno
  obtain rfl := Option.some.inj (hs₁.symm.trans hs)
  -- only the entry of this file can be wrong
  have hexacta : TablaExacta s₁ ↔ ((candado fileName s.kernel).readWriteQueue ≠ [] ↔
      ∃ q, 0 < usosDe s₁.kernel fileName q) := by
    constructor
    · intro h
      have h' := h.claves fileName
      rw [hclaves, if_pos rfl] at h'
      simpa only [usa_iff] using h'
    · intro h
      refine ⟨fun n => ?_, fun q n o ho => ?_⟩
      · rw [hclaves]
        simp only [usa_iff]
        split_ifs with hnn
        · rw [hnn]
          exact h
        · rw [hT.claves]
          simp only [usa_iff, husos, hnn, false_and, if_false, add_zero]
      · rw [hobjetos] at ho
        rw [hcreados, numerar_of_some hes]
        refine hT.mismo q n o ?_
        by_cases hqn : (q, n) = (p, fileName)
        · obtain ⟨rfl, rfl⟩ := Prod.mk.inj hqn
          rw [Function.update_self] at ho
          exact List.mem_of_mem_tail ho
        · rwa [Function.update_of_ne hqn] at ho
  rw [hexacta]
  by_cases hcola : (candado fileName s.kernel).readWriteQueue = []
  · rw [ultimaApertura_iff hI hcola (husos fileName)]
    simp [hcola]
  · refine iff_of_true (iff_of_true hcola ?_) (Or.inl hcola)
    obtain ⟨q, hqp, hq⟩ := usa_de_cola hI hcola hp hst
    refine ⟨q, ?_⟩
    rwa [husos, if_neg fun h => hqp h.2, add_zero] at hq

/-- What is closed or opened ends no process. -/
theorem sinArchivos_of_solo {a : Accion} (hsolo : SoloArchivos a) : SinArchivos s a := by
  cases a with
  | terminar => exact absurd hsolo id
  | admitir | despachar | desalojar | abrir | cerrar => trivial

/-- The table after the operation. -/
def Exacta (s : Sistema) (a : Accion) : Prop := ∃ s', atender s a = some s' ∧ TablaExacta s'

/-- **One operation.** The table stays right if and only if the condition holds. -/
theorem exacta_iff (hI : Inv s) (hT : TablaExacta s) {a : Accion} (hprot : Protocolo s a)
    (hsolo : SoloArchivos a) : Exacta s a ↔ Condicion s a := by
  obtain ⟨s', hs', hI'⟩ := atender_inv hI hprot (sinArchivos_of_solo hsolo)
  have hexacta : Exacta s a ↔ TablaExacta s' := by
    simp [Exacta, hs']
  rw [hexacta]
  cases a with
  | admitir | despachar | desalojar =>
    obtain ⟨s₁, hs₁, -, hfiles, hcreados, hobjetos⟩ := atender_planificador hI (by trivial) hprot
    obtain rfl := Option.some.inj (hs₁.symm.trans hs')
    exact iff_of_true (hT.congr hI hI' hfiles hcreados hobjetos) trivial
  | abrir p fileName mode r =>
    obtain ⟨pcb, hex⟩ := Option.isSome_iff_exists.mp hprot
    obtain ⟨hp, hst⟩ := enEjecucion_eq_some.mp hex
    exact iff_of_true (exacta_abrir hI hT hp hst mode r hs') trivial
  | cerrar p fileName r =>
    obtain ⟨pcb, hex⟩ := Option.isSome_iff_exists.mp hprot
    obtain ⟨hp, hst⟩ := enEjecucion_eq_some.mp hex
    have hcond : Condicion s (.cerrar p fileName r) ↔ CierreLimpio s p fileName pcb := by
      simp [Condicion, hp]
    rw [hcond, CierreLimpio]
    split_ifs with hf
    · exact exacta_cerrar_ajeno hI hT hp hst hsolo hf hs'
    · obtain ⟨f, hf⟩ := Option.ne_none_iff_exists'.mp hf
      exact exacta_cerrar hI hT hp hst hsolo hf hs'
  | terminar => exact absurd hsolo id

theorem exacta_inicial : TablaExacta inicial := by
  refine ⟨fun n => ?_, fun q n o ho => ?_⟩
  · simp only [usa_iff]
    simp [inicial, Archivos.estadoInicial, usosDe, planificadorInicial]
  · exact absurd ho (by simp [inicial])

/-- **The table of open files** is right after every operation of a run if and only if every close of
the run meets the condition. -/
theorem tabla_exacta_iff {as : List Accion}
    (h : Along atender (fun s a => Protocolo s a ∧ SoloArchivos a) inicial as) :
    Along atender Exacta inicial as ↔ Along atender Condicion inicial as := by
  refine along_congr (I := fun s => Inv s ∧ TablaExacta s)
    (fun s a hI hC => exacta_iff hI.1 hI.2 hC.1 hC.2) (fun s a s' hI hC hE hs => ?_)
    ⟨inv_inicial, exacta_inicial⟩ h
  obtain ⟨s₁, hs₁, hT⟩ := (exacta_iff hI.1 hI.2 hC.1 hC.2).mpr hE
  obtain ⟨s₂, hs₂, hI'⟩ := atender_inv hI.1 hC.1 (sinArchivos_of_solo hC.2)
  obtain rfl := Option.some.inj (hs₁.symm.trans hs)
  obtain rfl := Option.some.inj (hs₂.symm.trans hs)
  exact ⟨hI', hT⟩

/-- A process opens a file and closes it. -/
theorem tabla_exacta_iff_cerrada :
    Along atender Exacta inicial [.admitir,
        .despachar 1, .abrir 1 "a" .W ⟨0, 0, 0⟩, .cerrar 1 "a" ⟨0, 0, 0⟩] ↔
      Along atender Condicion inicial [.admitir, .despachar 1, .abrir 1 "a" .W ⟨0, 0, 0⟩,
        .cerrar 1 "a" ⟨0, 0, 0⟩] :=
  tabla_exacta_iff <| .of_step ⟨trivial, trivial⟩ rfl <|
    .of_step ⟨show _ ∈ _ by decide, trivial⟩ rfl <|
    .of_step ⟨show Option.isSome _ = true by decide, Or.inl le_rfl⟩ rfl <|
    .of_step ⟨show Option.isSome _ = true by decide, Or.inl le_rfl⟩ rfl trivial

/-- **A file that is open and in no entry.** Two processes read it, and one of them closes it. -/
theorem tabla_sin_archivo_abierto :
    Along atender (fun s a => Protocolo s a ∧ SoloArchivos a) inicial [.admitir, .admitir,
        .despachar 1, .abrir 1 "a" .R ⟨0, 0, 0⟩, .desalojar 1, .despachar 2,
        .abrir 2 "a" .R ⟨0, 0, 0⟩, .cerrar 2 "a" ⟨0, 0, 0⟩] ∧
      ∃ s, exec atender inicial [.admitir, .admitir, .despachar 1, .abrir 1 "a" .R ⟨0, 0, 0⟩,
          .desalojar 1, .despachar 2, .abrir 2 "a" .R ⟨0, 0, 0⟩, .cerrar 2 "a" ⟨0, 0, 0⟩] =
          some s ∧
        s.kernel.openFiles.get "a" = none ∧ Usa s "a" 1 ∧ ¬TablaExacta s := by
  have husa : ∀ s : Sistema, s.kernel.openFiles.get "a" = none → Usa s "a" 1 → ¬TablaExacta s := by
    intro s hnone h hT
    have hes := (hT.claves "a").mpr ⟨1, h⟩
    rw [hnone] at hes
    exact absurd hes (by simp)
  have hlee : ∀ s : Sistema, s.kernel.plan.running.get 1 =
      some ⟨.READY, [], none, [⟨"a", 0, .R⟩], none⟩ → Usa s "a" 1 :=
    fun s h => ⟨_, h, Or.inl ⟨_, List.mem_singleton.mpr rfl, rfl⟩⟩
  refine ⟨?_, _, rfl, rfl, hlee _ rfl, husa _ rfl (hlee _ rfl)⟩
  exact .of_step ⟨trivial, trivial⟩ rfl <| .of_step ⟨trivial, trivial⟩ rfl <|
    .of_step ⟨show _ ∈ _ by decide, trivial⟩ rfl <|
    .of_step ⟨show Option.isSome _ = true by decide, Or.inl le_rfl⟩ rfl <|
    .of_step ⟨show Option.isSome _ = true by decide, trivial⟩ rfl <|
    .of_step ⟨show _ ∈ _ by decide, trivial⟩ rfl <|
    .of_step ⟨show Option.isSome _ = true by decide, Or.inl le_rfl⟩ rfl <|
    .of_step ⟨show Option.isSome _ = true by decide, Or.inl le_rfl⟩ rfl trivial

end OperatingSystem.Kernel.TablaArchivos
