import OperatingSystem.Lib.Run
import OperatingSystem.Cpu.Despacho

/-! # The interruptions of the CPU (`cpu/src/cpu.c`, `cpu/src/ciclo.c`)

The thread of the dispatch connection runs the contexts it receives, one after the other; the thread of
the interrupt connection stores what arrives in the only slot that there is, `interrupcion`, at any
moment. The slot is read by `check_interrupt`, once for each instruction, and emptied by
`reiniciar_flag_interrupcion` after the context has been sent.

A kill that finds its process in the CPU is pending until a context of the process is sent with
`PROC_EXIT_FORCE` or with the code of its own `EXIT`. It stays in the slot (`Vigente`) in every run in
which no other interruption arrives while it is pending, and it arrives while the context it belongs
to has a `check_interrupt` to come (`Oportuna`): `vigente_of_oportuna`. -/

namespace OperatingSystem.Cpu.Interrupciones

open OperatingSystem.Lib.Run OperatingSystem.Cpu.Ciclo
open OperatingSystem.Cpu.Despacho (contextFromPcb createNewPcb)

/-- Where the thread of the dispatch connection is: at its `recv`, at the head of the loop of
`iniciar_ciclo_instruccion`, before `check_interrupt`, after the loop, and before
`reiniciar_flag_interrupcion`. -/
inductive Punto where
  | libre
  | enCiclo (ctx : ExecContext)
  | ejecutado (ctx : ExecContext) (memoria : MemoriaPlana)
  | porEnviar (ctx : ExecContext)
  | enviado (pid : ℤ) (exitCode : Option OpCode)

/-- The CPU, and the processes that have been killed while they were in it and have not been given back
with a code that ends them. -/
structure Sistema where
  cpu : Globales
  punto : Punto
  pendientes : List ℤ

/-- `llegada` is a message of the interrupt connection. `ejecutar` is `fetch` and `decode`, with what
the memory has then and answers to a `FRAME_REQUEST`. -/
inductive Accion where
  | llegada (pid : ℤ) (motivo : OpCode)
  | recibir (ctx : ExecContext)
  | ejecutar (marco : ℤ) (memoria : MemoriaPlana)
  | verificar
  | enviar
  | reiniciar

def inicial (cpu : Globales) : Sistema := ⟨cpu, .libre, []⟩

/-- The codes of a killed process and of one that ran its `EXIT`. -/
def Final (exitCode : Option OpCode) : Prop :=
  exitCode = some .PROC_EXIT_FORCE ∨ exitCode = some .PROC_EXIT_SUCCESS

instance (exitCode : Option OpCode) : Decidable (Final exitCode) := by unfold Final; infer_instance

/-- The process is in the CPU, and was not given back with a final code. -/
def Punto.Ocupa (pid : ℤ) : Punto → Prop
  | .libre => False
  | .enCiclo ctx => ctx.pid = pid
  | .ejecutado ctx _ => ctx.pid = pid
  | .porEnviar ctx => ctx.pid = pid
  | .enviado q exitCode => q = pid ∧ ¬ Final exitCode

instance (pid : ℤ) : ∀ p : Punto, Decidable (p.Ocupa pid)
  | .libre => instDecidableFalse
  | .enCiclo ctx => inferInstanceAs (Decidable (ctx.pid = pid))
  | .ejecutado ctx _ => inferInstanceAs (Decidable (ctx.pid = pid))
  | .porEnviar ctx => inferInstanceAs (Decidable (ctx.pid = pid))
  | .enviado q exitCode => inferInstanceAs (Decidable (q = pid ∧ ¬ Final exitCode))

/-- `on_connection_interrupt` and the steps of `on_connection_dispatch`. -/
def paso (tamanioPagina : ℕ) (programas : ℤ → List Instruccion) (s : Sistema) :
    Accion → Option Sistema
  | .llegada pid motivo => some { s with
      cpu := { s.cpu with interrupcion := ⟨pid, some motivo⟩ }
      pendientes :=
        if motivo = .PROC_EXIT_FORCE ∧ s.punto.Ocupa pid then pid :: s.pendientes else s.pendientes }
  | .recibir ctx =>
    match s.punto with
    | .libre => some { s with cpu := iniciarCiclo s.cpu ctx, punto := .enCiclo ctx }
    | _ => none
  | .ejecutar marco memoria =>
    match s.punto with
    | .enCiclo ctx =>
      (fetch (programas ctx.pid) ctx.programCounter).bind fun instruccion =>
        (decode tamanioPagina marco ⟨s.cpu, ctx, memoria⟩ instruccion).map fun r =>
          let ctx := if r.1 ≠ -1 then
            { r.2.ctx with programCounter := r.2.ctx.programCounter + 1 } else r.2.ctx
          { s with cpu := r.2.cpu, punto := .ejecutado ctx r.2.memoria }
    | _ => none
  | .verificar =>
    match s.punto with
    | .ejecutado ctx memoria =>
      let e := checkInterrupt ⟨s.cpu, ctx, memoria⟩
      some { s with cpu := e.cpu, punto := if e.cpu.flagExit then .porEnviar e.ctx else .enCiclo e.ctx }
    | _ => none
  | .enviar =>
    match s.punto with
    | .porEnviar ctx => some { s with
        punto := .enviado ctx.pid s.cpu.exitCode
        pendientes := if Final s.cpu.exitCode then s.pendientes.filter (· ≠ ctx.pid) else s.pendientes }
    | _ => none
  | .reiniciar =>
    match s.punto with
    | .enviado _ _ => some { s with cpu := reiniciarFlagInterrupcion s.cpu, punto := .libre }
    | _ => none

/-- A pending kill is in the slot. -/
def Vigente (s : Sistema) : Prop := ∀ p ∈ s.pendientes,
  s.cpu.interrupcion.pid = p ∧ s.cpu.interrupcion.motivo = some .PROC_EXIT_FORCE

instance (s : Sistema) : Decidable (Vigente s) := by unfold Vigente; infer_instance

/-- The context of the process has a `check_interrupt` to come, or is going to be sent with a final
code. -/
def Sistema.PorTerminar (s : Sistema) (pid : ℤ) : Prop :=
  match s.punto with
  | .enCiclo ctx => ctx.pid = pid
  | .ejecutado ctx _ => ctx.pid = pid
  | .porEnviar ctx => ctx.pid = pid ∧ Final s.cpu.exitCode
  | _ => False

instance (s : Sistema) (pid : ℤ) : Decidable (s.PorTerminar pid) := by
  unfold Sistema.PorTerminar
  split <;> infer_instance

/-- No other interruption while a kill is pending, and no kill after the last `check_interrupt`. -/
def Oportuna (s : Sistema) : Accion → Prop
  | .llegada pid motivo =>
    (∀ p ∈ s.pendientes, pid = p ∧ motivo = .PROC_EXIT_FORCE) ∧
    (motivo = .PROC_EXIT_FORCE → s.punto.Ocupa pid → s.PorTerminar pid)
  | _ => True

instance (s : Sistema) : ∀ a, Decidable (Oportuna s a)
  | .llegada pid motivo => inferInstanceAs (Decidable ((∀ p ∈ s.pendientes,
      pid = p ∧ motivo = .PROC_EXIT_FORCE) ∧
      (motivo = .PROC_EXIT_FORCE → s.punto.Ocupa pid → s.PorTerminar pid)))
  | .recibir _ | .ejecutar .. | .verificar | .enviar | .reiniciar => instDecidableTrue

/-! ### What a step does -/

/-- The instructions leave the slot and the process of the context, and ask for no eviction of the
planner. -/
structure Conserva (e e' : Estado) : Prop where
  pid : e'.ctx.pid = e.ctx.pid
  interrupcion : e'.cpu.interrupcion = e.cpu.interrupcion
  exitCode : e'.cpu.exitCode = e.cpu.exitCode ∨ e'.cpu.exitCode.any isPlannerEviction = false

theorem decode_conserva {tamanioPagina : ℕ} {marco : ℤ} {e : Estado} {i : Instruccion} {r : ℤ × Estado}
    (h : decode tamanioPagina marco e i = some r) : Conserva e r.2 := by
  have hpf : ∀ pagina, Conserva e (pageFault e pagina) := fun _ => ⟨rfl, rfl, .inr rfl⟩
  have hacc : ∀ c nombre dir, isPlannerEviction c = false →
      Conserva e (executeFAcceso tamanioPagina c e nombre dir marco).2 := by
    intro c nombre dir hc
    unfold executeFAcceso
    dsimp only
    split_ifs
    · exact hpf _
    · exact ⟨rfl, rfl, .inr hc⟩
  cases i with
  | SET registro nuevoValor =>
    obtain rfl := Option.some.inj h
    dsimp only
    unfold executeSet
    split <;> exact ⟨rfl, rfl, .inl rfl⟩
  | SUM registroDestino registroOrigen =>
    obtain rfl := Option.some.inj h
    dsimp only
    unfold executeSum
    split <;> exact ⟨rfl, rfl, .inl rfl⟩
  | SUB registroDestino registroOrigen =>
    obtain rfl := Option.some.inj h
    dsimp only
    unfold executeSub
    split <;> exact ⟨rfl, rfl, .inl rfl⟩
  | JNZ registro nuevoPc =>
    obtain ⟨e', he, rfl⟩ := Option.map_eq_some_iff.mp h
    obtain ⟨registroCpu, -, he⟩ := Option.bind_eq_some_iff.mp he
    obtain rfl := Option.some.inj he
    dsimp only
    split_ifs <;> exact ⟨rfl, rfl, .inl rfl⟩
  | MOV_IN registro dirLogica =>
    obtain rfl := Option.some.inj h
    unfold executeMovIn
    dsimp only
    split_ifs
    · exact hpf _
    · exact ⟨rfl, rfl, .inl rfl⟩
    · split <;> exact ⟨rfl, rfl, .inl rfl⟩
  | MOV_OUT dirLogica registro =>
    unfold decode executeMovOut at h
    dsimp only at h
    split_ifs at h with hm
    · obtain rfl := Option.some.inj h
      exact hpf _
    · obtain ⟨registroCpu, -, he⟩ := Option.bind_eq_some_iff.mp h
      obtain rfl := Option.some.inj he
      exact ⟨rfl, rfl, .inl rfl⟩
  | F_READ nombreArchivo dirLogica =>
    obtain rfl := Option.some.inj h
    exact hacc _ _ _ rfl
  | F_WRITE nombreArchivo dirLogica =>
    obtain rfl := Option.some.inj h
    exact hacc _ _ _ rfl
  | _ =>
    obtain rfl := Option.some.inj h
    exact ⟨rfl, rfl, .inr rfl⟩

/-- `check_interrupt` takes the code of the slot, or leaves the one that there is: then the slot is for
another process, or of the planner. -/
theorem checkInterrupt_cases (e : Estado) : (checkInterrupt e).ctx.pid = e.ctx.pid ∧
    (checkInterrupt e).cpu.interrupcion = e.cpu.interrupcion ∧
    ((e.cpu.interrupcion.pid = e.ctx.pid ∧ (checkInterrupt e).cpu.flagExit = true ∧
        (checkInterrupt e).cpu.exitCode = e.cpu.interrupcion.motivo) ∨
      ((checkInterrupt e).cpu.exitCode = e.cpu.exitCode ∧ (e.cpu.interrupcion.pid = e.ctx.pid →
        e.cpu.interrupcion.motivo.any isPlannerEviction = true))) := by
  unfold checkInterrupt
  split_ifs with hp hf
  · exact ⟨rfl, rfl, Or.inr ⟨rfl, fun _ => hf.2.2⟩⟩
  · exact ⟨rfl, rfl, Or.inl ⟨hp, rfl, rfl⟩⟩
  · exact ⟨rfl, rfl, Or.inr ⟨rfl, fun h => absurd h hp⟩⟩

variable {tamanioPagina : ℕ} {programas : ℤ → List Instruccion} {s s' : Sistema} {a : Accion}

theorem paso_recibir {ctx : ExecContext}
    (h : paso tamanioPagina programas s (.recibir ctx) = some s') :
    s.punto = .libre ∧ s' = { s with cpu := iniciarCiclo s.cpu ctx, punto := .enCiclo ctx } := by
  unfold paso at h
  cases hpt : s.punto with
  | libre =>
    simp only [hpt] at h
    exact ⟨rfl, (Option.some.inj h).symm⟩
  | _ => simp [hpt] at h

theorem paso_ejecutar {marco : ℤ} {memoria : MemoriaPlana}
    (h : paso tamanioPagina programas s (.ejecutar marco memoria) = some s') :
    ∃ ctx ctx' memoria', s.punto = .enCiclo ctx ∧ s'.punto = .ejecutado ctx' memoria' ∧
      ctx'.pid = ctx.pid ∧ s'.pendientes = s.pendientes ∧
      s'.cpu.interrupcion = s.cpu.interrupcion ∧
      (s'.cpu.exitCode = s.cpu.exitCode ∨ s'.cpu.exitCode.any isPlannerEviction = false) := by
  unfold paso at h
  cases hpt : s.punto with
  | enCiclo ctx =>
    simp only [hpt] at h
    obtain ⟨i, -, h⟩ := Option.bind_eq_some_iff.mp h
    obtain ⟨r, hd, rfl⟩ := Option.map_eq_some_iff.mp h
    have hc := decode_conserva hd
    refine ⟨ctx, _, r.2.memoria, rfl, rfl, ?_, rfl, hc.interrupcion, hc.exitCode⟩
    split_ifs <;> exact hc.pid
  | _ => simp [hpt] at h

theorem paso_verificar (h : paso tamanioPagina programas s .verificar = some s') :
    ∃ ctx memoria ctx', s.punto = .ejecutado ctx memoria ∧ ctx'.pid = ctx.pid ∧
      s'.pendientes = s.pendientes ∧ s'.cpu.interrupcion = s.cpu.interrupcion ∧
      ((s'.punto = .porEnviar ctx' ∧ s.cpu.interrupcion.pid = ctx.pid ∧
          s'.cpu.exitCode = s.cpu.interrupcion.motivo) ∨
        ((s'.punto = .porEnviar ctx' ∨ s'.punto = .enCiclo ctx') ∧ s'.cpu.exitCode = s.cpu.exitCode ∧
          (s.cpu.interrupcion.pid = ctx.pid →
            s.cpu.interrupcion.motivo.any isPlannerEviction = true))) := by
  unfold paso at h
  cases hpt : s.punto with
  | ejecutado ctx memoria =>
    simp only [hpt] at h
    obtain rfl := Option.some.inj h
    obtain ⟨hp, hint, hcod⟩ := checkInterrupt_cases ⟨s.cpu, ctx, memoria⟩
    refine ⟨ctx, memoria, _, rfl, hp, rfl, hint, ?_⟩
    rcases hcod with ⟨hpid, hflag, hmot⟩ | ⟨hsame, hplan⟩
    · exact Or.inl ⟨if_pos hflag, hpid, hmot⟩
    · refine Or.inr ⟨?_, hsame, hplan⟩
      dsimp only
      split_ifs
      · exact Or.inl rfl
      · exact Or.inr rfl
  | _ => simp [hpt] at h

theorem paso_enviar (h : paso tamanioPagina programas s .enviar = some s') :
    ∃ ctx, s.punto = .porEnviar ctx ∧ s' = { s with
      punto := .enviado ctx.pid s.cpu.exitCode
      pendientes := if Final s.cpu.exitCode then s.pendientes.filter (· ≠ ctx.pid)
        else s.pendientes } := by
  unfold paso at h
  cases hpt : s.punto with
  | porEnviar ctx =>
    simp only [hpt] at h
    exact ⟨ctx, rfl, (Option.some.inj h).symm⟩
  | _ => simp [hpt] at h

theorem paso_reiniciar (h : paso tamanioPagina programas s .reiniciar = some s') :
    ∃ pid exitCode, s.punto = .enviado pid exitCode ∧
      s' = { s with cpu := reiniciarFlagInterrupcion s.cpu, punto := .libre } := by
  unfold paso at h
  cases hpt : s.punto with
  | enviado pid exitCode =>
    simp only [hpt] at h
    exact ⟨pid, exitCode, rfl, (Option.some.inj h).symm⟩
  | _ => simp [hpt] at h

/-! ### Runs -/

/-- A pending kill is in the slot, and will be obeyed or is not needed any more. -/
structure Inv (s : Sistema) : Prop where
  vigente : Vigente s
  porTerminar : ∀ p ∈ s.pendientes, s.PorTerminar p

theorem inv_of_sin_pendientes (h : s.pendientes = []) : Inv s := by
  constructor
  all_goals
    intro p hp
    rw [h] at hp
    exact absurd hp List.not_mem_nil

theorem inv_inicial (cpu : Globales) : Inv (inicial cpu) := inv_of_sin_pendientes rfl

theorem inv_llegada {pid : ℤ} {motivo : OpCode} (hI : Inv s) (hC : Oportuna s (.llegada pid motivo))
    (h : paso tamanioPagina programas s (.llegada pid motivo) = some s') : Inv s' := by
  obtain ⟨hC1, hC2⟩ := hC
  obtain rfl := Option.some.inj h
  -- what is pending after the step: what was, or the kill that arrives
  have hmem : ∀ p ∈ (if motivo = .PROC_EXIT_FORCE ∧ s.punto.Ocupa pid then pid :: s.pendientes
      else s.pendientes), pid = p ∧ motivo = .PROC_EXIT_FORCE ∧ s.PorTerminar p := by
    intro p hp
    by_cases hf : motivo = .PROC_EXIT_FORCE ∧ s.punto.Ocupa pid
    · rw [if_pos hf] at hp
      rcases List.mem_cons.mp hp with rfl | hp
      · exact ⟨rfl, hf.1, hC2 hf.1 hf.2⟩
      · exact ⟨(hC1 p hp).1, hf.1, hI.porTerminar p hp⟩
    · rw [if_neg hf] at hp
      exact ⟨(hC1 p hp).1, (hC1 p hp).2, hI.porTerminar p hp⟩
  constructor
  · intro p hp
    obtain ⟨h1, h2, -⟩ := hmem p hp
    exact ⟨h1, congrArg some h2⟩
  · intro p hp
    exact (hmem p hp).2.2

theorem inv_ejecutar {marco : ℤ} {memoria : MemoriaPlana} (hI : Inv s)
    (h : paso tamanioPagina programas s (.ejecutar marco memoria) = some s') : Inv s' := by
  obtain ⟨ctx, ctx', memoria', hpt, hpt', hpid, hpend, hint, -⟩ := paso_ejecutar h
  constructor
  · intro p hp
    rw [hpend] at hp
    rw [hint]
    exact hI.vigente p hp
  · intro p hp
    rw [hpend] at hp
    have h1 := hI.porTerminar p hp
    rw [Sistema.PorTerminar, hpt] at h1
    rw [Sistema.PorTerminar, hpt']
    exact hpid.trans h1

/-- **The kill is obeyed** by the first `check_interrupt` that finds it, whatever the instruction asked
for. -/
theorem inv_verificar (hI : Inv s)
    (h : paso tamanioPagina programas s .verificar = some s') : Inv s' := by
  obtain ⟨ctx, memoria, ctx', hpt, hpid, hpend, hint, hcod⟩ := paso_verificar h
  constructor
  · intro p hp
    rw [hpend] at hp
    rw [hint]
    exact hI.vigente p hp
  · intro p hp
    rw [hpend] at hp
    obtain ⟨hv, hm⟩ := hI.vigente p hp
    have h1 := hI.porTerminar p hp
    rw [Sistema.PorTerminar, hpt] at h1
    rcases hcod with ⟨hpt', -, hmot⟩ | ⟨-, -, hplan⟩
    · rw [Sistema.PorTerminar, hpt']
      exact ⟨hpid.trans h1, Or.inl (hmot.trans hm)⟩
    · have hnot := hplan (hv.trans h1.symm)
      rw [hm] at hnot
      exact absurd hnot (by decide)

/-- A context that is sent while a kill is pending ends its process. -/
theorem inv_enviar (hI : Inv s) (h : paso tamanioPagina programas s .enviar = some s') : Inv s' := by
  obtain ⟨ctx, hpt, rfl⟩ := paso_enviar h
  refine inv_of_sin_pendientes (List.eq_nil_iff_forall_not_mem.mpr fun p hp => ?_)
  dsimp only at hp
  have hend : p ∈ s.pendientes → ctx.pid = p ∧ Final s.cpu.exitCode := fun hp => by
    have h1 := hI.porTerminar p hp
    rwa [Sistema.PorTerminar, hpt] at h1
  split_ifs at hp with hf
  · rw [List.mem_filter, decide_eq_true_iff] at hp
    exact hp.2 (hend hp.1).1.symm
  · exact hf (hend hp).2

theorem sin_pendientes (hI : Inv s) (h : ∀ p, ¬ s.PorTerminar p) : s.pendientes = [] :=
  List.eq_nil_iff_forall_not_mem.mpr fun p hp => h p (hI.porTerminar p hp)

theorem inv_paso (s : Sistema) (a : Accion) (s' : Sistema) (hI : Inv s) (hC : Oportuna s a)
    (h : paso tamanioPagina programas s a = some s') : Inv s' := by
  cases a with
  | llegada pid motivo => exact inv_llegada hI hC h
  | ejecutar marco memoria => exact inv_ejecutar hI h
  | verificar => exact inv_verificar hI h
  | enviar => exact inv_enviar hI h
  | recibir ctx =>
    obtain ⟨hpt, rfl⟩ := paso_recibir h
    have hnil : s.pendientes = [] := sin_pendientes hI fun p hp => by
      rwa [Sistema.PorTerminar, hpt] at hp
    exact inv_of_sin_pendientes hnil
  | reiniciar =>
    obtain ⟨pid, exitCode, hpt, rfl⟩ := paso_reiniciar h
    have hnil : s.pendientes = [] := sin_pendientes hI fun p hp => by
      rwa [Sistema.PorTerminar, hpt] at hp
    exact inv_of_sin_pendientes hnil

/-- A pending kill that no `check_interrupt` will find before the slot is emptied. -/
def Condenado (s : Sistema) (pid : ℤ) : Prop :=
  pid ∈ s.pendientes ∧ s.punto.Ocupa pid ∧ ¬ s.PorTerminar pid

theorem condenado_cases {pid : ℤ} (h : Condenado s pid) :
    (∃ ctx, s.punto = .porEnviar ctx ∧ ctx.pid = pid ∧ ¬ Final s.cpu.exitCode) ∨
      ∃ exitCode, s.punto = .enviado pid exitCode ∧ ¬ Final exitCode := by
  obtain ⟨-, ho, hn⟩ := h
  unfold Sistema.PorTerminar at hn
  cases hpt : s.punto with
  | porEnviar ctx =>
    rw [hpt] at ho hn
    exact Or.inl ⟨ctx, rfl, ho, fun hf => hn ⟨ho, hf⟩⟩
  | enviado q exitCode =>
    rw [hpt] at ho
    obtain ⟨rfl, hf⟩ := ho
    exact Or.inr ⟨exitCode, rfl, hf⟩
  | libre => rw [hpt] at ho; exact absurd ho id
  | enCiclo ctx => rw [hpt] at ho hn; exact absurd ho hn
  | ejecutado ctx memoria => rw [hpt] at ho hn; exact absurd ho hn

theorem condenado_llegada {pid : ℤ} (hc : Condenado s pid) (q : ℤ) (motivo : OpCode) :
    Condenado { s with
      cpu := { s.cpu with interrupcion := ⟨q, some motivo⟩ }
      pendientes :=
        if motivo = .PROC_EXIT_FORCE ∧ s.punto.Ocupa q then q :: s.pendientes else s.pendientes }
      pid := by
  refine ⟨?_, hc.2.1, hc.2.2⟩
  dsimp only
  split_ifs
  · exact List.mem_cons_of_mem q hc.1
  · exact hc.1

/-- It stays so until it is lost. -/
theorem condenado_paso {pid : ℤ} (hc : Condenado s pid)
    (h : paso tamanioPagina programas s a = some s') : Condenado s' pid ∨ ¬ Vigente s' := by
  have hmem := hc.1
  rcases condenado_cases hc with ⟨ctx, hpt, hpid, hf⟩ | ⟨exitCode, hpt, hf⟩
  · cases a with
    | llegada q motivo =>
      obtain rfl := Option.some.inj h
      exact Or.inl (condenado_llegada hc q motivo)
    | enviar =>
      unfold paso at h
      simp only [hpt, if_neg hf] at h
      obtain rfl := Option.some.inj h
      exact Or.inl ⟨hmem, ⟨hpid, hf⟩, id⟩
    | _ => simp [paso, hpt] at h
  · cases a with
    | llegada q motivo =>
      obtain rfl := Option.some.inj h
      exact Or.inl (condenado_llegada hc q motivo)
    | reiniciar =>
      unfold paso at h
      simp only [hpt] at h
      obtain rfl := Option.some.inj h
      exact Or.inr fun hv => Option.some_ne_none _ (hv pid hmem).2.symm
    | _ => simp [paso, hpt] at h

/-- A run that ends with the CPU free has lost it. -/
theorem perdida {pid : ℤ} : ∀ {as : List Accion} {s t : Sistema}, Condenado s pid →
    exec (paso tamanioPagina programas) s as = some t → t.punto = .libre →
    ∃ bs u, bs <+: as ∧ exec (paso tamanioPagina programas) s bs = some u ∧ ¬ Vigente u
  | [], s, t, hc, h, hl => by
    obtain rfl := Option.some.inj h
    rcases condenado_cases hc with ⟨ctx, hpt, -⟩ | ⟨exitCode, hpt, -⟩
    all_goals
      rw [hl] at hpt
      cases hpt
  | a :: as, s, t, hc, h, hl => by
    obtain ⟨s', h1, h2⟩ := Option.bind_eq_some_iff.mp h
    rcases condenado_paso hc h1 with hc' | hv
    · obtain ⟨bs, u, hbs, hu, hv⟩ := perdida hc' h2 hl
      exact ⟨a :: bs, u, (List.prefix_cons_inj a).mpr hbs, by rw [exec_cons, h1]; exact hu, hv⟩
    · exact ⟨[a], s', ⟨as, rfl⟩, by rw [exec_cons, h1]; rfl, hv⟩

/-- A step that leaves the kills in the slot, and none of them condemned, was in time. -/
theorem oportuna_of_vigente (h : paso tamanioPagina programas s a = some s')
    (hv : Vigente s') (hn : ∀ p, ¬ Condenado s' p) : Oportuna s a := by
  cases a with
  | llegada pid motivo =>
    obtain rfl := Option.some.inj h
    constructor
    · intro p hp
      have hp' : p ∈ (if motivo = .PROC_EXIT_FORCE ∧ s.punto.Ocupa pid then pid :: s.pendientes
          else s.pendientes) := by
        split_ifs
        · exact List.mem_cons_of_mem pid hp
        · exact hp
      obtain ⟨h1, h2⟩ := hv p hp'
      exact ⟨h1, Option.some.inj h2⟩
    · intro hm ho
      by_contra hpt
      refine hn pid ⟨?_, ho, hpt⟩
      dsimp only
      rw [if_pos ⟨hm, ho⟩]
      exact List.mem_cons_self
  | _ => trivial

/-- **No kill is lost** in a run in which interruptions arrive in time; and one is lost in any other run
that ends with the CPU free. -/
theorem vigente_iff {cpu : Globales} {as : List Accion}
    (h : exec (paso tamanioPagina programas) (inicial cpu) as = some s) :
    (Along (paso tamanioPagina programas) Oportuna (inicial cpu) as →
      ∀ bs t, bs <+: as → exec (paso tamanioPagina programas) (inicial cpu) bs = some t → Vigente t) ∧
    (s.punto = .libre →
      (∀ bs t, bs <+: as → exec (paso tamanioPagina programas) (inicial cpu) bs = some t → Vigente t) →
      Along (paso tamanioPagina programas) Oportuna (inicial cpu) as) := by
  have hiff := along_iff_states (P := fun s => Vigente s ∧ ∀ p, ¬ Condenado s p)
    (fun s hI => ⟨hI.vigente, fun p hc => hc.2.2 (hI.porTerminar p hc.1)⟩)
    inv_paso (fun s a s' _ hs hP => oportuna_of_vigente hs hP.1 hP.2) (inv_inicial cpu) h
  constructor
  · intro hA bs t hbs ht
    exact (hiff.mpr hA bs t hbs ht).1
  · intro hl hv
    refine hiff.mp fun bs t hbs ht => ⟨hv bs t hbs ht, fun p hc => ?_⟩
    obtain ⟨cs, rfl⟩ := hbs
    rw [exec_append, ht, Option.bind_some] at h
    obtain ⟨ds, u, ⟨es, hes⟩, hu, hn⟩ := perdida hc h hl
    refine hn (hv (bs ++ ds) u ⟨es, by rw [List.append_assoc, hes]⟩ ?_)
    rw [exec_append, ht]
    exact hu

/-- The process 1, with nothing in its registers. -/
def contexto : ExecContext := contextFromPcb (createNewPcb 1) 0 none

def cpuLibre : Globales := ⟨fun _ => 0, false, none, ⟨-1, none⟩⟩

/-- Each program sleeps. -/
def dormir (_ : ℤ) : List Instruccion := [.SLEEP 1]

/-- It is killed before its `check_interrupt`. -/
def aTiempo : List Accion :=
  [.recibir contexto, .llegada 1 .PROC_EXIT_FORCE, .ejecutar 0 ⟨fun _ => 0, []⟩, .verificar, .enviar,
    .reiniciar]

theorem vigente_iff_aTiempo :
    ∃ s, exec (paso 16 dormir) (inicial cpuLibre) aTiempo = some s ∧ Vigente s := by
  obtain ⟨s, hs⟩ := Option.isSome_iff_exists.mp
    (by decide +kernel : (exec (paso 16 dormir) (inicial cpuLibre) aTiempo).isSome = true)
  exact ⟨s, hs, (vigente_iff hs).1 (by decide +kernel) aTiempo s List.prefix_rfl hs⟩

/-- The kill is overwritten by the end of a quantum, or it arrives when the process has gone to sleep
and is forgotten with the slot. -/
theorem vigente_perdida :
    (∃ s, exec (paso 16 dormir) (inicial cpuLibre) [.recibir contexto, .llegada 1 .PROC_EXIT_FORCE,
      .llegada 1 .PROC_EXIT_QUANTUM] = some s ∧ ¬ Vigente s) ∧
    ∃ s, exec (paso 16 dormir) (inicial cpuLibre) [.recibir contexto, .ejecutar 0 ⟨fun _ => 0, []⟩,
      .verificar, .llegada 1 .PROC_EXIT_FORCE, .enviar, .reiniciar] = some s ∧ ¬ Vigente s :=
  ⟨⟨_, rfl, by decide +kernel⟩, ⟨_, rfl, by decide +kernel⟩⟩

end OperatingSystem.Cpu.Interrupciones
