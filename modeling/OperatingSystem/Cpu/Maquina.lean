import OperatingSystem.Cpu.Ciclo

/-! # The machine that a program is written for

`Maquina` runs a program one instruction after the other, with nobody interrupting it. A turn of the
cycle of the CPU is one step of it (`ciclo_ejecuta`), unless the page of the instruction is not in
memory: then the turn changes nothing that the program can tell (`ciclo_falta`). Both leave the CPU
`Listo`: if its cycle is to end, it is with a code and with a context that has the current registers. -/

namespace OperatingSystem.Cpu.Ciclo

/-! ### The machine -/

/-- What a program can tell: its registers, the program counter, the memory with the writes so far, and
whether it is over. -/
structure Maquina where
  registros : Registros
  programCounter : ℤ
  memoria : MemoriaPlana
  termino : Bool

namespace Maquina

def siguiente (v : Maquina) : Maquina := { v with programCounter := v.programCounter + 1 }

/-- With the program counter one behind. -/
def anterior (v : Maquina) : Maquina := { v with programCounter := v.programCounter - 1 }

theorem anterior_siguiente (v : Maquina) : v.siguiente.anterior = v := by
  unfold siguiente anterior
  rw [add_sub_cancel_right]

def cargar (v : Maquina) (registro : Fin 4) (valor : UInt32) : Maquina :=
  { v with registros := Function.update v.registros registro valor }

/-- Assign to a register, if there is one of that letter. -/
def cargarEn (v : Maquina) (registro : Char) (valor : UInt32) : Maquina :=
  match obtenerRegistro registro with
  | some r => v.cargar r valor
  | none => v

def operar (v : Maquina) (registroDestino registroOrigen : Char)
    (f : UInt32 → UInt32 → UInt32) : Maquina :=
  match obtenerRegistro registroDestino, obtenerRegistro registroOrigen with
  | some d, some o => v.cargar d (f (v.registros d) (v.registros o))
  | _, _ => v

/-- The instructions of a program that asks the kernel for nothing. -/
def ejecutar (v : Maquina) : Instruccion → Option Maquina
  | .SET registro nuevoValor => some (v.cargarEn registro (UInt32.ofInt nuevoValor)).siguiente
  | .SUM registroDestino registroOrigen =>
    some (v.operar registroDestino registroOrigen fun x y => y + x).siguiente
  | .SUB registroDestino registroOrigen =>
    some (v.operar registroDestino registroOrigen fun x y => x - y).siguiente
  | .JNZ registro nuevoPc => (obtenerRegistro registro).map fun r =>
    if v.registros r ≠ 0 then { v with programCounter := nuevoPc } else v.siguiente
  | .MOV_IN registro dirLogica => some (v.cargarEn registro (v.memoria.leer dirLogica)).siguiente
  | .MOV_OUT dirLogica registro => (obtenerRegistro registro).map fun r =>
    { v with memoria := v.memoria.escribir dirLogica (v.registros r) }.siguiente
  | .EXIT => some { v with termino := true }
  | .SLEEP .. | .WAIT .. | .SIGNAL .. | .F_OPEN .. | .F_CLOSE .. | .F_SEEK .. | .F_READ .. | .F_WRITE ..
  | .F_TRUNCATE .. => none

@[simp] theorem termino_cargarEn (v : Maquina) (registro : Char) (valor : UInt32) :
    (v.cargarEn registro valor).termino = v.termino := by
  unfold cargarEn
  cases obtenerRegistro registro <;> rfl

@[simp] theorem termino_operar (v : Maquina) (registroDestino registroOrigen : Char)
    (f : UInt32 → UInt32 → UInt32) :
    (v.operar registroDestino registroOrigen f).termino = v.termino := by
  unfold operar
  cases obtenerRegistro registroDestino <;> cases obtenerRegistro registroOrigen <;> rfl

/-- One instruction; a program that is over stays as it is. -/
def paso (programa : List Instruccion) (v : Maquina) : Option Maquina :=
  if v.termino then some v else (fetch programa v.programCounter).bind v.ejecutar

theorem paso_termino {programa : List Instruccion} {v : Maquina} (h : v.termino = true) :
    v.paso programa = some v := by
  unfold paso
  rw [if_pos h]

end Maquina

/-- The seven instructions that ask the kernel for nothing. -/
def deCpu : Instruccion → Bool
  | .SET .. | .SUM .. | .SUB .. | .JNZ .. | .MOV_IN .. | .MOV_OUT .. | .EXIT => true
  | _ => false

/-- The address that an instruction reads a word from. -/
def dirLeida : Instruccion → Option ℤ
  | .MOV_IN _ dirLogica => some dirLogica
  | _ => none

/-- The next instruction reads the word `-1`. -/
def LeeMenosUno (programa : List Instruccion) (v : Maquina) : Prop :=
  ∃ i ∈ fetch programa v.programCounter, ∃ dirLogica ∈ dirLeida i, v.memoria.leer dirLogica = -1

instance (programa : List Instruccion) (v : Maquina) : Decidable (LeeMenosUno programa v) := by
  unfold LeeMenosUno
  infer_instance

/-! ### A turn of the cycle -/

section

variable {tamanioPagina : ℕ} {programa : List Instruccion} {marco : ℤ} {e e' : Estado}
  {i : Instruccion} {v : Maquina}

theorem mem_of_fetch {programCounter : ℤ} (h : fetch programa programCounter = some i) :
    i ∈ programa := by
  unfold fetch at h
  split_ifs at h
  exact List.mem_of_getElem? h

/-- What the process has in a turn of the cycle. -/
def vistaEstado (e : Estado) : Maquina :=
  ⟨e.cpu.registros, e.ctx.programCounter, e.memoria,
    e.cpu.flagExit && e.cpu.exitCode = some .PROC_EXIT_SUCCESS⟩

/-- The memory does not have the page of an instruction that asks for a frame. -/
def Falta (programa : List Instruccion) (e : Estado) (marco : ℤ) : Prop :=
  marco = -1 ∧ (fetch programa e.ctx.programCounter).any pideMarco

instance (programa : List Instruccion) (e : Estado) (marco : ℤ) :
    Decidable (Falta programa e marco) := by unfold Falta; infer_instance

/-- The cycle goes on, or ends with a code that the kernel knows and a context that is up to date. -/
structure Listo (e : Estado) : Prop where
  sinCodigo : e.cpu.flagExit = false → e.cpu.exitCode = none
  conCodigo : e.cpu.flagExit = true → e.ctx.cpuRegistries = e.cpu.registros ∧
    ∃ c, e.cpu.exitCode = some c ∧
      (isPlannerEviction c = true ∨ c = .PAGE_FAULT ∨ c = .PROC_EXIT_SUCCESS)

/-- What a turn leaves. -/
structure Girado (e e' : Estado) : Prop where
  listo : Listo e'
  pid : e'.ctx.pid = e.ctx.pid
  interrupcion : e'.cpu.interrupcion = e.cpu.interrupcion

/-- An interruption that is for this process is one of the planner. -/
def DelPlanificador (e : Estado) : Prop :=
  e.cpu.interrupcion.pid = e.ctx.pid →
    ∃ c, e.cpu.interrupcion.motivo = some c ∧ isPlannerEviction c = true

/-- The state with what the machine has. -/
def Estado.pasa (e : Estado) (v : Maquina) : Estado :=
  ⟨{ e.cpu with registros := v.registros }, { e.ctx with programCounter := v.programCounter },
    v.memoria⟩

theorem girado_checkInterrupt (hp : DelPlanificador e) (h : Listo e) :
    Girado e (checkInterrupt e) ∧ vistaEstado (checkInterrupt e) = vistaEstado e := by
  unfold checkInterrupt
  by_cases hpid : e.cpu.interrupcion.pid = e.ctx.pid
  · obtain ⟨c, hc, hev⟩ := hp hpid
    rw [if_pos hpid, hc]
    by_cases hf : e.cpu.flagExit = true
    · obtain ⟨hr, k, hk, hkc⟩ := h.conCodigo hf
      rw [if_pos ⟨hf, by rw [hk]; exact Option.some_ne_none k, hev⟩]
      exact ⟨⟨⟨h.sinCodigo, h.conCodigo⟩, rfl, rfl⟩, rfl⟩
    · -- the cycle was to go on: it ends with the reason of the planner, which is no end of the program
      rw [if_neg fun h' => hf h'.1]
      refine ⟨⟨⟨fun h' => ?_, fun _ => ⟨rfl, c, rfl, .inl hev⟩⟩, rfl, rfl⟩, ?_⟩
      · cases h'
      · have hne : c ≠ .PROC_EXIT_SUCCESS := by
          rintro rfl
          cases hev
        unfold vistaEstado actualizarContextoDeEjecucion actualizarRegistrosCtx
        simp [hf, hne]
  · rw [if_neg hpid]
    exact ⟨⟨⟨h.sinCodigo, h.conCodigo⟩, rfl, rfl⟩, rfl⟩

/-- What goes on to the next instruction. -/
theorem pasa_siguiente (e : Estado) (v : Maquina) :
    some ((1 : ℤ), e.pasa v) = (some v.siguiente).map fun w => (1, e.pasa w.anterior) := by
  rw [Option.map_some, Maquina.anterior_siguiente]

/-- The turn adds one to the counter. -/
theorem pasa_anterior (e : Estado) (v : Maquina) :
    { e.pasa v.anterior with
      ctx := { (e.pasa v.anterior).ctx with
        programCounter := (e.pasa v.anterior).ctx.programCounter + 1 } } = e.pasa v := by
  unfold Estado.pasa Maquina.anterior
  simp only [sub_add_cancel]

/-- Without a page fault the cycle executes the instruction as the machine does. The counter is left
one behind, since the turn goes on to add one. -/
theorem decode_ejecuta (tamanioPagina : ℕ) (hi : deCpu i = true) (hexit : i ≠ .EXIT)
    (hf : ¬(marco = -1 ∧ pideMarco i = true))
    (hv : ∀ dirLogica ∈ dirLeida i, e.memoria.leer dirLogica ≠ -1) :
    decode tamanioPagina marco e i =
      ((vistaEstado e).ejecutar i).map fun v => (1, e.pasa v.anterior) := by
  cases i with
  | SET registro nuevoValor =>
    rw [decode, executeSet, Maquina.ejecutar, Maquina.cargarEn]
    cases obtenerRegistro registro with
    | none => exact pasa_siguiente e (vistaEstado e)
    | some r => exact pasa_siguiente e ((vistaEstado e).cargar r _)
  | SUM registroDestino registroOrigen =>
    rw [decode, executeSum, Maquina.ejecutar, Maquina.operar]
    cases obtenerRegistro registroDestino with
    | none => exact pasa_siguiente e (vistaEstado e)
    | some d =>
      cases obtenerRegistro registroOrigen with
      | none => exact pasa_siguiente e (vistaEstado e)
      | some o => exact pasa_siguiente e ((vistaEstado e).cargar d _)
  | SUB registroDestino registroOrigen =>
    rw [decode, executeSub, Maquina.ejecutar, Maquina.operar]
    cases obtenerRegistro registroDestino with
    | none => exact pasa_siguiente e (vistaEstado e)
    | some d =>
      cases obtenerRegistro registroOrigen with
      | none => exact pasa_siguiente e (vistaEstado e)
      | some o => exact pasa_siguiente e ((vistaEstado e).cargar d _)
  | JNZ registro nuevoPc =>
    rw [decode, executeJnz, Maquina.ejecutar]
    cases obtenerRegistro registro with
    | none => rfl
    | some r =>
      change some ((1 : ℤ), if e.cpu.registros r ≠ 0 then _ else e) =
        (some (if e.cpu.registros r ≠ 0 then _ else (vistaEstado e).siguiente)).map _
      by_cases hr : e.cpu.registros r ≠ 0
      · rw [if_pos hr, if_pos hr]
        rfl
      · rw [if_neg hr, if_neg hr]
        exact pasa_siguiente e (vistaEstado e)
  | MOV_IN registro dirLogica =>
    have hmarco : marco ≠ -1 := fun h => hf ⟨h, rfl⟩
    rw [decode, executeMovIn, if_neg hmarco, Maquina.ejecutar, Maquina.cargarEn]
    simp only [leerValorMemoria, dirEnPagina_traduccionLogicaAFisica]
    rw [if_neg (hv dirLogica rfl)]
    cases obtenerRegistro registro with
    | none => exact pasa_siguiente e (vistaEstado e)
    | some r => exact pasa_siguiente e ((vistaEstado e).cargar r _)
  | MOV_OUT dirLogica registro =>
    have hmarco : marco ≠ -1 := fun h => hf ⟨h, rfl⟩
    rw [decode, executeMovOut, if_neg hmarco, Maquina.ejecutar]
    cases obtenerRegistro registro with
    | none => rfl
    | some r =>
      simp only [escribirValorMemoria, dirEnPagina_traduccionLogicaAFisica]
      exact pasa_siguiente e
        { vistaEstado e with memoria := e.memoria.escribir dirLogica (e.cpu.registros r) }
  | EXIT => exact absurd rfl hexit
  | _ => cases hi

theorem decode_falta (tamanioPagina : ℕ) (e : Estado) (hi : deCpu i = true)
    (hm : pideMarco i = true) :
    ∃ pagina, decode tamanioPagina (-1) e i = some (-1, pageFault e pagina) := by
  cases i with
  | MOV_IN registro dirLogica => exact ⟨_, by rw [decode, executeMovIn, if_pos rfl]⟩
  | MOV_OUT dirLogica registro => exact ⟨_, by rw [decode, executeMovOut, if_pos rfl]⟩
  | F_READ | F_WRITE => cases hi
  | _ => cases hm

theorem Maquina.ejecutar_termino {w : Maquina} (h : v.ejecutar i = some w) (hexit : i ≠ .EXIT) :
    w.termino = v.termino := by
  cases i with
  | EXIT => exact absurd rfl hexit
  | JNZ registro nuevoPc =>
    obtain ⟨r, -, rfl⟩ := Option.map_eq_some_iff.mp h
    split_ifs <;> rfl
  | MOV_OUT dirLogica registro =>
    obtain ⟨r, -, rfl⟩ := Option.map_eq_some_iff.mp h
    rfl
  | SET | MOV_IN =>
    obtain rfl := Option.some.inj h
    exact Maquina.termino_cargarEn ..
  | SUM | SUB =>
    obtain rfl := Option.some.inj h
    exact Maquina.termino_operar ..
  | _ => cases h

/-- A turn with its instruction. -/
theorem ciclo_eq (h : fetch programa e.ctx.programCounter = some i) :
    ciclo tamanioPagina programa marco e = (decode tamanioPagina marco e i).map fun r =>
      checkInterrupt (if r.1 ≠ -1 then
        { r.2 with ctx := { r.2.ctx with programCounter := r.2.ctx.programCounter + 1 } }
      else r.2) := by
  unfold ciclo
  rw [h]
  cases hd : decode tamanioPagina marco e i <;>
    simp only [Option.bind_eq_bind, Option.bind_some, hd] <;> rfl

/-- A turn that ends the cycle brings the context up to date. -/
theorem listo_salir {exitCode : OpCode} (h : e.ctx.cpuRegistries = e.cpu.registros)
    (hc : isPlannerEviction exitCode = true ∨ exitCode = .PAGE_FAULT ∨
      exitCode = .PROC_EXIT_SUCCESS) : Listo (e.salir exitCode) :=
  ⟨fun h' => (Bool.noConfusion h' : False).elim, fun _ => ⟨h, exitCode, rfl, hc⟩⟩

/-- **A page fault** ends the turn, and shows to the kernel only. -/
theorem ciclo_falta (tamanioPagina : ℕ) (hpr : ∀ i ∈ programa, deCpu i = true)
    (hp : DelPlanificador e) (hflag : e.cpu.flagExit = false) (hf : Falta programa e marco) :
    ∃ e', ciclo tamanioPagina programa marco e = some e' ∧ Girado e e' ∧
      vistaEstado e' = vistaEstado e := by
  obtain ⟨rfl, hany⟩ := hf
  obtain ⟨i, hi, hm⟩ := (Option.any_eq_true ..).mp hany
  obtain ⟨pagina, hd⟩ := decode_falta tamanioPagina e (hpr i (mem_of_fetch hi)) hm
  have hp' : DelPlanificador (pageFault e pagina) := hp
  obtain ⟨⟨hl, hpid, hint⟩, hv⟩ := girado_checkInterrupt hp' (listo_salir rfl (.inr (.inl rfl)))
  refine ⟨checkInterrupt (pageFault e pagina), ?_, ⟨hl, hpid, hint⟩, hv.trans ?_⟩
  · rw [ciclo_eq hi, hd]
    rfl
  · unfold vistaEstado pageFault Estado.salir actualizarContextoDeEjecucion actualizarRegistrosCtx
    simp [hflag]

/-- **A turn without a page fault** is one instruction of the machine. -/
theorem ciclo_ejecuta (tamanioPagina : ℕ) (hpr : ∀ i ∈ programa, deCpu i = true)
    (hp : DelPlanificador e) (hl : Listo e) (hflag : e.cpu.flagExit = false) (hf : ¬Falta programa e marco)
    (hv : ¬LeeMenosUno programa (vistaEstado e)) :
    (ciclo tamanioPagina programa marco e).map vistaEstado = (vistaEstado e).paso programa ∧
      ∀ e', ciclo tamanioPagina programa marco e = some e' → Girado e e' := by
  have htermino : (vistaEstado e).termino = false := by
    unfold vistaEstado
    rw [hflag]
    rfl
  unfold Maquina.paso
  rw [if_neg (by rw [htermino]; exact Bool.false_ne_true)]
  change _ = (fetch programa e.ctx.programCounter).bind _ ∧ _
  cases hi : fetch programa e.ctx.programCounter with
  | none =>
    unfold ciclo
    rw [hi]
    exact ⟨rfl, fun e' h => by cases h⟩
  | some i =>
    rw [Option.bind_some]
    by_cases hexit : i = .EXIT
    · subst hexit
      have hp' : DelPlanificador (executeExit e) := hp
      obtain ⟨hg, hv'⟩ := girado_checkInterrupt hp' (listo_salir rfl (.inr (.inr rfl)))
      rw [show ciclo tamanioPagina programa marco e = some (checkInterrupt (executeExit e)) from
        ciclo_eq hi]
      refine ⟨congrArg some (hv'.trans ?_), fun e' h => ?_⟩
      · unfold vistaEstado executeExit Estado.salir actualizarContextoDeEjecucion
          actualizarRegistrosCtx
        rfl
      · obtain rfl := Option.some.inj h
        exact ⟨hg.listo, hg.pid, hg.interrupcion⟩
    · have hd := decode_ejecuta tamanioPagina (hpr i (mem_of_fetch hi)) hexit
        (fun h => hf ⟨h.1, by rw [hi]; exact h.2⟩)
        fun dirLogica h hr => hv ⟨i, hi, dirLogica, h, hr⟩
      rw [ciclo_eq hi, hd]
      cases he : (vistaEstado e).ejecutar i with
      | none => exact ⟨rfl, fun e' h => by cases h⟩
      | some v =>
        have hvt : v.termino = false := (Maquina.ejecutar_termino he hexit).trans htermino
        have hp' : DelPlanificador (e.pasa v) := hp
        have hl' : Listo (e.pasa v) := ⟨hl.sinCodigo, fun h => by
          rw [show (e.pasa v).cpu.flagExit = false from hflag] at h
          cases h⟩
        obtain ⟨hg, hv'⟩ := girado_checkInterrupt hp' hl'
        have hpasa : vistaEstado (e.pasa v) = v := by
          obtain ⟨registros, programCounter, memoria, termino⟩ := v
          unfold vistaEstado Estado.pasa
          rw [show termino = false from hvt, hflag]
          rfl
        have hciclo := congrArg (fun s => some (checkInterrupt s)) (pasa_anterior e v)
        refine ⟨(congrArg (Option.map vistaEstado) hciclo).trans (congrArg some (hv'.trans hpasa)),
          fun e' h => ?_⟩
        obtain rfl := Option.some.inj (hciclo.symm.trans h)
        exact ⟨hg.listo, hg.pid, hg.interrupcion⟩

end

end OperatingSystem.Cpu.Ciclo
