import Mathlib.Data.Fintype.Basic
import OperatingSystem.Cpu.Despacho
import OperatingSystem.Cpu.Maquina
import OperatingSystem.Lib.Stutter

/-! # Preemption and page faults are transparent

What the process has (`vista`) is in the globals of the CPU while it runs and in its PCB while it does
not. Every action of a run either is one step of the machine on it or leaves it as it was (`stutters`):
an interruption, a page fault, a dispatch and the programs of others do not show. `transparente` is what
follows for the runs in which no `MOV_IN` reads the word `-1`, which the CPU takes for an error. -/

namespace OperatingSystem.Cpu.Transparencia

open OperatingSystem.Lib.Run OperatingSystem.Lib.Stutter
open OperatingSystem.Cpu.Ciclo
open OperatingSystem.Cpu.Despacho

/-! ### What the process has -/

def vista (s : Sistema) : Maquina :=
  match s.ctx with
  | some ctx => vistaEstado (s.estado ctx)
  | none => ⟨s.pcb.cpuRegistries, s.pcb.programCounter, s.memoria, s.pcb.currentStatus = .EXIT⟩

/-- The action executes an instruction of the process. -/
def Ejecuta (programa : List Instruccion) (s : Sistema) : Accion → Prop
  | .ciclo marco =>
    ∃ ctx ∈ s.ctx, s.cpu.flagExit = false ∧ ¬Falta programa (s.estado ctx) marco
  | _ => False

instance (programa : List Instruccion) (s : Sistema) (a : Accion) :
    Decidable (Ejecuta programa s a) := by
  cases a with
  | ciclo marco => unfold Ejecuta; infer_instance
  | _ => exact isFalse id

/-! ### What a run of the process has to be like -/

/-- Every context that is sent has the current registers. -/
def ContextoAlDia (s : Sistema) : Accion → Prop
  | .enviarContexto => s.cpu.flagExit = true → ∀ ctx ∈ s.ctx, ctx.cpuRegistries = s.cpu.registros
  | _ => True

instance (s : Sistema) (a : Accion) : Decidable (ContextoAlDia s a) := by
  cases a with
  | enviarContexto => exact inferInstanceAs
      (Decidable (s.cpu.flagExit = true → ∀ ctx ∈ s.ctx, ctx.cpuRegistries = s.cpu.registros))
  | _ => exact isTrue trivial

/-- An instruction whose page is not there changes nothing of the process. -/
def FaltaSinEfecto (tamanioPagina : ℕ) (programa : List Instruccion) (s : Sistema) :
    Accion → Prop
  | .ciclo marco => ∀ ctx ∈ s.ctx, Falta programa (s.estado ctx) marco →
    ∀ s', atender tamanioPagina programa s (.ciclo marco) = some s' → vista s' = vista s
  | _ => True

/-- Neither an interruption nor a page fault. -/
def SinDisturbio : Accion → Prop
  | .ciclo marco => marco ≠ -1
  | .interrupcion .. => False
  | _ => True

/-- A run from `s₀` cannot be told from one in which nothing interrupts the program. -/
structure Transparente (tamanioPagina : ℕ) (programa : List Instruccion) (s₀ : Sistema)
    (as : List Accion) : Prop where
  alDia : Along (atender tamanioPagina programa) ContextoAlDia s₀ as
  falta : Along (atender tamanioPagina programa) (FaltaSinEfecto tamanioPagina programa) s₀ as
  -- wherever the run comes, it comes without interruptions and page faults
  igual : ∃ bs, (∀ b ∈ bs, SinDisturbio b) ∧
    (exec (atender tamanioPagina programa) s₀ as).map vista =
      (exec (atender tamanioPagina programa) s₀ bs).map vista
  -- and they end alike
  alSalir : ∀ bs s u, (∀ b ∈ bs, SinDisturbio b) →
    exec (atender tamanioPagina programa) s₀ as = some s →
    exec (atender tamanioPagina programa) s₀ bs = some u →
    (vista s).termino = true → (vista u).termino = true → vista s = vista u

/-- The condition on a run: a `MOV_IN` that is executed does not read the word `-1`. -/
def SinMenosUno (programa : List Instruccion) (s : Sistema) (a : Accion) : Prop :=
  Ejecuta programa s a → ¬LeeMenosUno programa (vista s)

instance (programa : List Instruccion) (s : Sistema) (a : Accion) :
    Decidable (SinMenosUno programa s a) := by unfold SinMenosUno; infer_instance

/-! ### Every action -/

/-- The process is where the kernel says, and an interruption that is for it is one of the planner. -/
structure Inv (s : Sistema) : Prop where
  pid : s.pcb.pid ≠ -1
  motivo : s.cpu.interrupcion.pid = s.pcb.pid →
    ∃ c, s.cpu.interrupcion.motivo = some c ∧ isPlannerEviction c = true
  afuera : s.ctx = none → s.pcb.currentStatus = .READY ∨ s.pcb.currentStatus = .BLOCK ∨
    s.pcb.currentStatus = .EXIT
  adentro : ∀ ctx, s.ctx = some ctx → ctx.pid = s.pcb.pid ∧ Listo (s.estado ctx)

section

variable {tamanioPagina : ℕ} {programa : List Instruccion} {s s' : Sistema} {a : Accion}
  {ctx : ExecContext}

theorem vista_some (h : s.ctx = some ctx) : vista s = vistaEstado (s.estado ctx) := by
  unfold vista
  rw [h]

theorem vista_none (h : s.ctx = none) :
    vista s = ⟨s.pcb.cpuRegistries, s.pcb.programCounter, s.memoria, s.pcb.currentStatus = .EXIT⟩ := by
  unfold vista
  rw [h]

/-- A program that is over executes nothing. -/
theorem Ejecuta.termino (h : Ejecuta programa s a) : (vista s).termino = false := by
  cases a with
  | ciclo marco =>
    obtain ⟨ctx, hctx, hf, -⟩ := h
    rw [vista_some hctx]
    unfold vistaEstado
    rw [show (s.estado ctx).cpu.flagExit = false from hf]
    rfl
  | _ => cases h

theorem inv_inicial {pid : ℤ} (hpid : pid ≠ -1) (cpu : Globales) (bytes : ℤ → UInt8) :
    Inv (inicial pid cpu bytes) :=
  ⟨hpid, fun h => absurd h.symm hpid, fun _ => .inl rfl, fun ctx h => by cases h⟩

/-- The action goes through, and nothing of it shows. -/
def SinVerse (tamanioPagina : ℕ) (programa : List Instruccion) (s : Sistema) (a : Accion) : Prop :=
  ∃ s', atender tamanioPagina programa s a = some s' ∧ Inv s' ∧ vista s' = vista s

/-- A dispatch gives the CPU what the PCB has. -/
theorem cpuExecute_sigue (tamanioPagina : ℕ) (programa : List Instruccion) (hI : Inv s)
    (blockTime : ℤ) (interruptMotive : Option OpCode) :
    SinVerse tamanioPagina programa s (.cpuExecute blockTime interruptMotive) := by
  rw [SinVerse, atender]
  split_ifs with h
  · obtain ⟨hctx, hst⟩ := h
    rw [Option.isNone_iff_eq_none] at hctx
    refine ⟨_, rfl, ⟨hI.pid, hI.motivo, fun h' => ?_, fun ctx h' => ?_⟩, ?_⟩
    · cases h'
    · obtain rfl := Option.some.inj h'
      exact ⟨rfl, fun _ => rfl, fun h'' => by cases h''⟩
    · rw [vista_none hctx]
      have hne : s.pcb.currentStatus ≠ .EXIT := by
        rcases hst with h | h <;> rw [h] <;> decide
      simp [vista, vistaEstado, Sistema.estado, iniciarCiclo, actualizarRegistrosCpu, contextFromPcb,
        hne]
  · exact ⟨s, rfl, hI, rfl⟩

/-- The codes of the planner and of a page fault leave the process alive. -/
theorem handleCpuEviction_eq (pcb : Pcb) {c : OpCode}
    (hc : isPlannerEviction c = true ∨ c = .PAGE_FAULT ∨ c = .PROC_EXIT_SUCCESS) :
    ∃ st, handleCpuEviction pcb (some c) = some { pcb with currentStatus := st } ∧
      (st = .READY ∨ st = .BLOCK ∨ st = .EXIT) ∧ (st = .EXIT ↔ c = .PROC_EXIT_SUCCESS) := by
  rcases hc with hev | rfl | rfl
  · refine ⟨.READY, if_pos hev, .inl rfl, fun h => ?_, ?_⟩
    · cases h
    · rintro rfl
      cases hev
  · exact ⟨.BLOCK, rfl, .inr (.inl rfl), by decide⟩
  · exact ⟨.EXIT, rfl, .inr (.inr rfl), by decide⟩

/-- The kernel saves what the CPU sends, and the process is over if that was its last context. -/
theorem enviarContexto_sigue (tamanioPagina : ℕ) (programa : List Instruccion) (hI : Inv s) :
    SinVerse tamanioPagina programa s .enviarContexto := by
  rw [SinVerse, atender]
  cases hctx : s.ctx with
  | none => exact ⟨s, rfl, hI, rfl⟩
  | some ctx =>
    obtain ⟨hpid, hl⟩ := hI.adentro ctx hctx
    by_cases hf : s.cpu.flagExit = true
    · obtain ⟨hr, c, hc, hk⟩ := hl.conCodigo hf
      obtain ⟨st, hst, hst', hexit⟩ := handleCpuEviction_eq (updatePcbFromContext ctx s.pcb) hk
      rw [show s.cpu.exitCode = some c from hc]
      simp only [if_pos hf, hst]
      refine ⟨_, rfl, ⟨hI.pid, fun h => absurd h.symm hI.pid, fun _ => hst', fun ctx h => ?_⟩, ?_⟩
      · cases h
      · rw [vista_some hctx]
        have hc' : s.cpu.exitCode = some c := hc
        have hr' : ctx.cpuRegistries = s.cpu.registros := hr
        simp [vista, vistaEstado, Sistema.estado, updatePcbFromContext, hf, hc', hr', hexit]
    · simp only [if_neg hf]
      exact ⟨s, rfl, hI, rfl⟩

theorem interrupcion_sigue (tamanioPagina : ℕ) (programa : List Instruccion) (hI : Inv s)
    (pid : ℤ) (motivo : Desalojo) :
    SinVerse tamanioPagina programa s (.interrupcion pid motivo) := by
  refine ⟨_, rfl, ⟨hI.pid, fun _ => ⟨motivo.opCode, rfl, ?_⟩, hI.afuera, fun ctx h => ?_⟩, ?_⟩
  · cases motivo <;> rfl
  · obtain ⟨hpid, hl⟩ := hI.adentro ctx h
    exact ⟨hpid, hl.sinCodigo, hl.conCodigo⟩
  · unfold vista
    cases s.ctx <;> rfl

theorem paginaCargada_sigue (tamanioPagina : ℕ) (programa : List Instruccion) (hI : Inv s) :
    SinVerse tamanioPagina programa s .paginaCargada := by
  rw [SinVerse, atender]
  split_ifs with h
  · obtain ⟨hctx, hst⟩ := h
    rw [Option.isNone_iff_eq_none] at hctx
    refine ⟨_, rfl, ⟨hI.pid, hI.motivo, fun _ => .inl rfl, fun ctx h => ?_⟩, ?_⟩
    · rw [hctx] at h
      cases h
    · rw [vista_none hctx, vista_none (by exact hctx), hst]
      rfl
  · exact ⟨s, rfl, hI, rfl⟩

theorem otroProceso_sigue (tamanioPagina : ℕ) (programa : List Instruccion) (hI : Inv s)
    (cpu : Globales) :
    SinVerse tamanioPagina programa s (.otroProceso cpu) := by
  rw [SinVerse, atender]
  split_ifs with h
  · rw [Option.isNone_iff_eq_none] at h
    refine ⟨_, rfl, ⟨hI.pid, fun h => absurd h.symm hI.pid, hI.afuera, fun ctx h' => ?_⟩, ?_⟩
    · rw [h] at h'
      cases h'
    · rw [vista_none h, vista_none (by exact h)]
  · exact ⟨s, rfl, hI, rfl⟩

/-- What a turn of the cycle leaves of the invariant. -/
theorem Inv.girado {e' : Estado} (hI : Inv s) (hctx : s.ctx = some ctx)
    (hg : Girado (s.estado ctx) e') :
    Inv { s with cpu := e'.cpu, ctx := some e'.ctx, memoria := e'.memoria } := by
  obtain ⟨hpid, hl⟩ := hI.adentro ctx hctx
  refine ⟨hI.pid, fun h => ?_, fun h => ?_, fun ctx' h => ?_⟩
  · rw [hg.interrupcion] at h ⊢
    exact hI.motivo h
  · cases h
  · obtain rfl := Option.some.inj h
    exact ⟨hg.pid.trans hpid, hg.listo⟩

theorem Inv.delPlanificador (hI : Inv s) (hctx : s.ctx = some ctx) :
    DelPlanificador (s.estado ctx) := fun h => hI.motivo (h.trans (hI.adentro ctx hctx).1)

/-- A turn of the cycle that executes nothing. -/
theorem ciclo_sigue (tamanioPagina : ℕ) (hpr : ∀ i ∈ programa, deCpu i = true) (hI : Inv s)
    {marco : ℤ} (h : ¬Ejecuta programa s (.ciclo marco)) :
    SinVerse tamanioPagina programa s (.ciclo marco) := by
  rw [SinVerse, atender]
  cases hctx : s.ctx with
  | none => exact ⟨s, rfl, hI, rfl⟩
  | some ctx =>
    by_cases hf : s.cpu.flagExit = true
    · simp only [if_pos hf]
      exact ⟨s, rfl, hI, rfl⟩
    · have hf' : s.cpu.flagExit = false := Bool.eq_false_iff.mpr hf
      have hfalta : Falta programa (s.estado ctx) marco := by
        by_contra hn
        exact h ⟨ctx, hctx, hf', hn⟩
      obtain ⟨e', he', hg, hv⟩ := ciclo_falta tamanioPagina hpr
        (hI.delPlanificador hctx) hf' hfalta
      simp only [if_neg hf, he']
      refine ⟨_, rfl, hI.girado hctx hg, ?_⟩
      rw [vista_some hctx]
      exact hv

/-- A turn of the cycle that executes an instruction. -/
theorem ciclo_avanza (tamanioPagina : ℕ) (hpr : ∀ i ∈ programa, deCpu i = true) (hI : Inv s)
    {marco : ℤ} (h : Ejecuta programa s (.ciclo marco)) (hv : ¬LeeMenosUno programa (vista s)) :
    (atender tamanioPagina programa s (.ciclo marco)).map vista = (vista s).paso programa ∧
      ∀ s', atender tamanioPagina programa s (.ciclo marco) = some s' → Inv s' := by
  obtain ⟨ctx, hctx, hf, hfalta⟩ := h
  rw [Option.mem_def] at hctx
  rw [vista_some hctx] at hv ⊢
  obtain ⟨hpaso, hgira⟩ := ciclo_ejecuta tamanioPagina hpr
    (hI.delPlanificador hctx) (hI.adentro ctx hctx).2 hf hfalta hv
  rw [atender, hctx]
  simp only [hf, Bool.false_eq_true, if_false]
  refine ⟨?_, fun s' hs => ?_⟩
  · rw [← hpaso, Option.map_map]
    rfl
  · obtain ⟨e', he', rfl⟩ := Option.map_eq_some_iff.mp hs
    exact hI.girado hctx (hgira e' he')

/-- An action that executes nothing does not show. -/
theorem sigue (tamanioPagina : ℕ) (hpr : ∀ i ∈ programa, deCpu i = true) (hI : Inv s)
    (h : ¬Ejecuta programa s a) :
    SinVerse tamanioPagina programa s a := by
  cases a with
  | cpuExecute blockTime interruptMotive =>
    exact cpuExecute_sigue tamanioPagina programa hI blockTime interruptMotive
  | ciclo marco => exact ciclo_sigue tamanioPagina hpr hI h
  | enviarContexto => exact enviarContexto_sigue tamanioPagina programa hI
  | interrupcion pid motivo => exact interrupcion_sigue tamanioPagina programa hI pid motivo
  | paginaCargada => exact paginaCargada_sigue tamanioPagina programa hI
  | otroProceso cpu => exact otroProceso_sigue tamanioPagina programa hI cpu

theorem Inv.contextoAlDia (hI : Inv s) (a : Accion) : ContextoAlDia s a := by
  cases a with
  | enviarContexto => exact fun hf ctx hctx => ((hI.adentro ctx hctx).2.conCodigo hf).1
  | _ => trivial

theorem Inv.faltaSinEfecto (hpr : ∀ i ∈ programa, deCpu i = true) (hI : Inv s) (a : Accion) :
    FaltaSinEfecto tamanioPagina programa s a := by
  cases a with
  | ciclo marco =>
    intro ctx hctx hfalta s' hs'
    have hno : ¬Ejecuta programa s (.ciclo marco) := by
      rintro ⟨ctx', hctx', -, hno⟩
      obtain rfl := Option.some.inj (hctx.symm.trans hctx')
      exact hno hfalta
    obtain ⟨s'', hs'', -, hv⟩ := ciclo_sigue tamanioPagina hpr hI hno
    obtain rfl := Option.some.inj (hs'.symm.trans hs'')
    exact hv
  | _ => trivial

/-- **The system stutters.** -/
theorem stutters (tamanioPagina : ℕ) (hpr : ∀ i ∈ programa, deCpu i = true) :
    Stutters (atender tamanioPagina programa) (Maquina.paso programa) vista (Ejecuta programa) Inv
      (SinMenosUno programa) where
  keeps s a s' hI hC hs := by
    by_cases h : Ejecuta programa s a
    · cases a with
      | ciclo marco => exact (ciclo_avanza tamanioPagina hpr hI h (hC h)).2 s' hs
      | _ => cases h
    · obtain ⟨s₁, hs₁, hI₁, -⟩ := sigue tamanioPagina hpr hI h
      obtain rfl := Option.some.inj (hs.symm.trans hs₁)
      exact hI₁
  moves s a hI hC h := by
    cases a with
    | ciclo marco => exact (ciclo_avanza tamanioPagina hpr hI h (hC h)).1
    | _ => cases h
  stays s a hI _ h := by
    obtain ⟨s', hs, -, hv⟩ := sigue tamanioPagina hpr hI h
    rw [hs]
    exact congrArg some hv

/-! ### The run without interruptions -/

/-- One instruction more, from wherever the process is. -/
def vuelta : List Accion := [.enviarContexto, .paginaCargada, .cpuExecute 0 none, .ciclo 0]

def vueltas : ℕ → List Accion
  | 0 => []
  | n + 1 => vuelta ++ vueltas n

theorem sinDisturbio_vueltas (n : ℕ) : ∀ b ∈ vueltas n, SinDisturbio b := by
  induction n with
  | zero => exact fun b hb => absurd hb List.not_mem_nil
  | succ n ih =>
    intro b hb
    rcases List.mem_append.mp hb with hb | hb
    · have hvuelta : ∀ b ∈ vuelta, SinDisturbio b := by simp [vuelta, SinDisturbio]
      exact hvuelta b hb
    · exact ih b hb

/-- After it the CPU has the process no more, or is in the middle of its cycle. -/
theorem enviarContexto_libre (h : atender tamanioPagina programa s .enviarContexto = some s') :
    ∀ ctx, s'.ctx = some ctx → s'.cpu.flagExit = false := by
  intro ctx hctx'
  rw [atender] at h
  cases hctx : s.ctx with
  | none =>
    rw [hctx] at h
    obtain rfl := Option.some.inj h
    rw [hctx] at hctx'
    cases hctx'
  | some ctx₀ =>
    rw [hctx] at h
    by_cases hf : s.cpu.flagExit = true
    · simp only [if_pos hf] at h
      obtain ⟨pcb, -, rfl⟩ := Option.map_eq_some_iff.mp h
      cases hctx'
    · simp only [if_neg hf] at h
      obtain rfl := Option.some.inj h
      exact Bool.eq_false_iff.mpr hf

/-- Unless the program is over, the process gets to the CPU. -/
theorem vuelta_prepara (tamanioPagina : ℕ) (programa : List Instruccion) (hI : Inv s) :
    ∃ s₁, exec (atender tamanioPagina programa) s
        [.enviarContexto, .paginaCargada, .cpuExecute 0 none] = some s₁ ∧ Inv s₁ ∧
      vista s₁ = vista s ∧
      ((vista s).termino = true ∨ ∃ ctx, s₁.ctx = some ctx ∧ s₁.cpu.flagExit = false) := by
  obtain ⟨s₁, h₁, hI₁, hv₁⟩ := enviarContexto_sigue tamanioPagina programa hI
  obtain ⟨s₂, h₂, hI₂, hv₂⟩ := paginaCargada_sigue tamanioPagina programa hI₁
  obtain ⟨s₃, h₃, hI₃, hv₃⟩ := cpuExecute_sigue tamanioPagina programa hI₂ 0 none
  refine ⟨s₃, ?_, hI₃, (hv₃.trans hv₂).trans hv₁, ?_⟩
  · rw [exec_cons, h₁, Option.bind_some, exec_cons, h₂, Option.bind_some, exec_cons, h₃]
    rfl
  · cases hctx : s₁.ctx with
    | some ctx =>
      obtain rfl : s₁ = s₂ := by simpa [atender, hctx] using h₂
      obtain rfl : s₁ = s₃ := by simpa [atender, hctx] using h₃
      exact .inr ⟨ctx, hctx, enviarContexto_libre h₁ ctx hctx⟩
    | none =>
      rcases hI₁.afuera hctx with hst | hst | hst
      · obtain rfl : s₁ = s₂ := by simpa [atender, hctx, hst] using h₂
        rw [atender, if_pos ⟨by rw [hctx]; rfl, .inl hst⟩] at h₃
        obtain rfl := Option.some.inj h₃
        exact .inr ⟨_, rfl, rfl⟩
      · rw [atender, if_pos ⟨by rw [hctx]; rfl, hst⟩] at h₂
        obtain rfl := Option.some.inj h₂
        rw [atender, if_pos ⟨by simp only [hctx]; rfl, .inl rfl⟩] at h₃
        obtain rfl := Option.some.inj h₃
        exact .inr ⟨_, rfl, rfl⟩
      · rw [← hv₁, vista_none hctx, hst]
        exact .inl rfl

theorem vuelta_paso (tamanioPagina : ℕ) (hpr : ∀ i ∈ programa, deCpu i = true) (hI : Inv s)
    (hv : (vista s).termino = false → ¬LeeMenosUno programa (vista s)) :
    (exec (atender tamanioPagina programa) s vuelta).map vista = (vista s).paso programa ∧
      ∀ s', exec (atender tamanioPagina programa) s vuelta = some s' → Inv s' := by
  obtain ⟨s₁, h₁, hI₁, hv₁, hcpu⟩ := vuelta_prepara tamanioPagina programa hI
  have hvuelta : exec (atender tamanioPagina programa) s vuelta =
      atender tamanioPagina programa s₁ (.ciclo 0) := by
    rw [show vuelta = [.enviarContexto, .paginaCargada, .cpuExecute 0 none] ++ [.ciclo 0] from rfl,
      exec_append, h₁, Option.bind_some, exec_cons]
    exact Option.bind_fun_some _
  rw [hvuelta, ← hv₁]
  by_cases ht : (vista s).termino = true
  · -- the program is over, and the turn executes nothing
    have hno : ¬Ejecuta programa s₁ (.ciclo 0) := by
      intro h
      rw [← hv₁, h.termino] at ht
      cases ht
    obtain ⟨s', hs', hI', hv'⟩ := ciclo_sigue tamanioPagina hpr hI₁ hno
    rw [hs', Maquina.paso_termino (by rw [hv₁]; exact ht)]
    refine ⟨congrArg some hv', fun s'' h => ?_⟩
    obtain rfl := Option.some.inj h
    exact hI'
  · obtain ⟨ctx, hctx, hf⟩ := hcpu.resolve_left ht
    have hsi : Ejecuta programa s₁ (.ciclo 0) := ⟨ctx, hctx, hf, fun h => absurd h.1 (by decide)⟩
    exact ciclo_avanza tamanioPagina hpr hI₁ hsi (by rw [hv₁]; exact hv (Bool.eq_false_iff.mpr ht))

/-- The machine is over, or does not read the word `-1` now. -/
def LeeBien (programa : List Instruccion) (v : Maquina) : Prop :=
  v.termino = false → ¬LeeMenosUno programa v

/-- Without interruptions the process does what the machine does. -/
theorem vueltas_iter (hpr : ∀ i ∈ programa, deCpu i = true) (n : ℕ) : ∀ {s : Sistema}, Inv s →
    (∀ k < n, ∀ v, iter (Maquina.paso programa) k (vista s) = some v → LeeBien programa v) →
    (exec (atender tamanioPagina programa) s (vueltas n)).map vista =
      iter (Maquina.paso programa) n (vista s) := by
  induction n with
  | zero => exact fun _ _ => rfl
  | succ n ih =>
    intro s hI hv
    obtain ⟨hpaso, hI'⟩ := vuelta_paso tamanioPagina hpr hI
      (hv 0 (Nat.succ_pos n) (vista s) rfl)
    rw [vueltas, exec_append, iter_succ, ← hpaso]
    cases hs : exec (atender tamanioPagina programa) s vuelta with
    | none => rfl
    | some s' =>
      refine ih (hI' s' hs) fun k hk v hkv => hv (k + 1) (Nat.succ_lt_succ hk) v ?_
      rw [iter_succ, ← hpaso, hs]
      exact hkv

/-! ### Transparency -/

/-- **Transparency.** Whatever interrupts a program of the seven instructions that never reads the word
`-1`, it does what it does when nothing interrupts it. -/
theorem transparente {pid : ℤ} (hpid : pid ≠ -1) (hpr : ∀ i ∈ programa, deCpu i = true)
    (cpu : Globales) (bytes : ℤ → UInt8) {as : List Accion}
    (hrun : Along (atender tamanioPagina programa) (SinMenosUno programa) (inicial pid cpu bytes) as) :
    Transparente tamanioPagina programa (inicial pid cpu bytes) as := by
  have hI := inv_inicial hpid cpu bytes
  have hst := stutters tamanioPagina hpr
  have hexec := hst.exec hI hrun
  have hiter := hst.forall_iter (D := LeeBien programa)
    (fun s a hC h _ => hC h) hI hrun
  refine ⟨?_, ?_, ⟨vueltas (moves (atender tamanioPagina programa) (Ejecuta programa)
    (inicial pid cpu bytes) as), sinDisturbio_vueltas _, ?_⟩, ?_⟩
  · exact hrun.of_invariant (I := Inv)
      (fun s a hI hC => ⟨hI.contextoAlDia a, fun s' => hst.keeps s a s' hI hC⟩) hI
  · exact hrun.of_invariant (I := Inv)
      (fun s a hI hC => ⟨hI.faltaSinEfecto hpr a, fun s' => hst.keeps s a s' hI hC⟩) hI
  · rw [hexec, vueltas_iter hpr _ hI hiter]
  · intro bs s u _ hs hu hts htu
    rw [hs] at hexec
    -- where the run is over the machine has stopped, so that it reads no more words
    have hall : ∀ k v, iter (Maquina.paso programa) k (vista (inicial pid cpu bytes)) = some v →
        LeeBien programa v := by
      intro k v hk ht
      rcases Nat.lt_or_ge k (moves (atender tamanioPagina programa) (Ejecuta programa)
        (inicial pid cpu bytes) as) with hlt | hle
      · exact hiter k hlt v hk ht
      · have hv : vista s = v :=
          Option.some.inj ((iter_of_le hexec.symm (Maquina.paso_termino hts) hle).symm.trans hk)
        rw [← hv, hts] at ht
        cases ht
    have hbs := hst.exec hI (hst.along (D := LeeBien programa)
      (fun s a _ h => ?_) bs hI hall)
    · rw [hu] at hbs
      exact iter_unique hexec.symm (Maquina.paso_termino hts) hbs.symm (Maquina.paso_termino htu)
    · exact fun hej => h hej hej.termino

/-- A CPU that has run nothing yet. -/
def cpuNueva : Globales := ⟨fun _ => 0, false, none, -1, none⟩

/-- A word is stored and read back. -/
def guardar : List Instruccion := [.SET 'A' 3, .MOV_OUT 4 'A', .SUB 'A' 'A', .MOV_IN 'B' 4, .EXIT]

/-- The quantum ends at the page fault of the `MOV_OUT`, a process of more priority comes at the
`MOV_IN`, and the registers of others are in the CPU meanwhile. -/
def turnos : List Accion :=
  [.cpuExecute 0 none, .ciclo 2, .interrupcion 1 .QUANTUM, .ciclo (-1), .enviarContexto,
    .otroProceso ⟨fun _ => 9, true, none, 1, none⟩, .paginaCargada, .cpuExecute 7 none, .ciclo 2,
    .ciclo 2, .interrupcion 1 .PRIORITY, .ciclo 2, .enviarContexto, .cpuExecute 0 none, .ciclo 2,
    .enviarContexto]

theorem transparente_turnos : ((exec (atender 16 guardar) (inicial 1 cpuNueva fun _ => 0) turnos).map
      fun s => (vista s).termino) = some true ∧
    Transparente 16 guardar (inicial 1 cpuNueva fun _ => 0) turnos :=
  ⟨by decide +kernel, transparente (by decide) (by decide) cpuNueva (fun _ => 0) (by decide +kernel)⟩

/-- A program that stores the word `-1` and reads it. -/
def menosUno : List Instruccion :=
  [.SET 'A' (-1), .MOV_OUT 0 'A', .SET 'A' 1, .MOV_IN 'B' 0, .EXIT]

/-- Nothing interrupts it. -/
def sola : List Accion :=
  [.cpuExecute 0 none, .ciclo 0, .ciclo 0, .ciclo 0, .ciclo 0, .enviarContexto, .cpuExecute 0 none,
    .ciclo 0, .enviarContexto]

/-- The quantum ends before the `MOV_IN`. -/
def interrumpida : List Accion :=
  [.cpuExecute 0 none, .ciclo 0, .ciclo 0, .interrupcion 1 .QUANTUM, .ciclo 0, .enviarContexto,
    .cpuExecute 0 none, .ciclo 0, .enviarContexto, .cpuExecute 0 none, .ciclo 0, .enviarContexto]

/-- **The word `-1`.** The `MOV_IN` that reads it ends the cycle with registers that are not those of the
CPU, and the program goes on with what it had when it was last interrupted: `AX` is `1` at the `EXIT` if
the quantum ended before, and `0` if it did not. -/
theorem menosUno_no_transparente :
    ¬Transparente 16 menosUno (inicial 1 cpuNueva fun _ => 0) sola ∧
      ¬Transparente 16 menosUno (inicial 1 cpuNueva fun _ => 0) interrumpida := by
  refine ⟨fun h => absurd h.alDia (by decide +kernel), fun h => ?_⟩
  obtain ⟨s, hs, hst, hs1⟩ : ∃ s, exec (atender 16 menosUno) (inicial 1 cpuNueva fun _ => 0)
      interrumpida = some s ∧ (vista s).termino = true ∧ (vista s).registros 0 = 1 :=
    ⟨_, rfl, by decide +kernel, by decide +kernel⟩
  obtain ⟨u, hu, hut, hu0⟩ : ∃ u, exec (atender 16 menosUno) (inicial 1 cpuNueva fun _ => 0)
      sola = some u ∧ (vista u).termino = true ∧ (vista u).registros 0 = 0 :=
    ⟨_, rfl, by decide +kernel, by decide +kernel⟩
  have hsola : ∀ b ∈ sola, SinDisturbio b := by simp [sola, SinDisturbio]
  have heq := h.alSalir sola s u hsola hs hu hst hut
  rw [heq, hu0] at hs1
  exact absurd hs1 (by decide)

end

end OperatingSystem.Cpu.Transparencia
