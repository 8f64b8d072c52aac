import OperatingSystem.Cpu.Ejecucion

/-! # The CPU over the paged memory

`Cpu.Ciclo` takes the memory of the process to be flat. Here the memory is the one of `Memoria.Pedidos`:
the CPU asks for the frame of a page (`pedirMarco`) and then moves a word at the physical address that it
builds, and in between the memory serves the requests of others, which may load and replace pages.

The flat memory stays as a ghost of what the process has written: no step reads it (`exec_plana`). -/

namespace OperatingSystem.Cpu.Computadora

open OperatingSystem.Lib.Run
open OperatingSystem.Memoria.Paginas OperatingSystem.Memoria.HandlerPaginacion
open OperatingSystem.Memoria.Pedidos (Pedido obtenerNumeroPagina traduccionLogicaAFisica frameRequest)
open OperatingSystem.Cpu.Ciclo
open OperatingSystem.Cpu.Despacho

/-! ### The computer -/

/-- The process and the CPU, the memory, and what the memory answered in this turn of the cycle. The
`memoria` of `sistema` is what the process has written so far: a ghost. -/
structure Equipo where
  sistema : Sistema
  memoria : Memoria.Pedidos.Sistema
  marco : Option (Option ℕ)

/-- `pedirMarco` is the `FRAME_REQUEST` of a turn, `ciclo` the rest of the turn; `memoria` is a request of
another client. -/
inductive Accion where
  | despacho (a : Despacho.Accion)
  | pedirMarco (ahora : ℤ)
  | ciclo
  | memoria (ped : Pedido)

/-- The frame request of an instruction. -/
def pedidoDe : Instruccion → Option (TipoOperacion × ℤ)
  | .MOV_IN _ dirLogica => some (.LEER, dirLogica)
  | .MOV_OUT dirLogica _ => some (.ESCRIBIR, dirLogica)
  | .F_READ _ dirLogica => some (.LEER, dirLogica)
  | .F_WRITE _ dirLogica => some (.ESCRIBIR, dirLogica)
  | _ => none

def esInterrupcion : Despacho.Accion → Bool
  | .interrupcion .. => true
  | _ => false

/-- The frame that `Cpu.Ciclo` is given. -/
def Equipo.nroMarco (S : Equipo) : ℤ :=
  match S.marco with
  | some (some marco) => marco
  | _ => -1

/-- The answer to a `MOV_IN` at the physical address that the CPU builds. -/
def Equipo.leerValor (S : Equipo) (tamanioPagina : ℕ) (dirLogica : ℤ) : Option UInt32 :=
  let dirFisica := traduccionLogicaAFisica tamanioPagina dirLogica S.nroMarco
  if dirFisica < 0 then none
  else some (Memoria.HandlerPaginacion.leerValor S.memoria.handler dirFisica.toNat)

/-- The memory after a `MOV_OUT`. -/
def Equipo.escribirValor (S : Equipo) (tamanioPagina : ℕ) (dirLogica : ℤ) (valor : UInt32) :
    Option Memoria.Pedidos.Sistema :=
  let dirFisica := traduccionLogicaAFisica tamanioPagina dirLogica S.nroMarco
  if dirFisica < 0 then none
  else (Memoria.HandlerPaginacion.escribirValor S.memoria.handler dirFisica.toNat valor).map fun h =>
    { S.memoria with handler := h }

/-- `Ciclo.decode` with the words that the memory has. The other instructions move none. -/
def decode (tamanioPagina : ℕ) (S : Equipo) (e : Estado) :
    Instruccion → Option (ℤ × Estado × Memoria.Pedidos.Sistema)
  | .MOV_IN registro dirLogica =>
    if S.nroMarco = -1 then
      some (-1, pageFault e (obtenerNumeroPagina tamanioPagina dirLogica), S.memoria)
    else do
      let valorMemoria ← S.leerValor tamanioPagina dirLogica
      if valorMemoria = -1 then
        return (1, { e with cpu := { e.cpu with flagExit := true } }, S.memoria)
      else match obtenerRegistro registro with
        | some registroDestinoCpu => return (1, e.cargar registroDestinoCpu valorMemoria, S.memoria)
        | none => return (1, e, S.memoria)
  | .MOV_OUT dirLogica registro =>
    if S.nroMarco = -1 then
      some (-1, pageFault e (obtenerNumeroPagina tamanioPagina dirLogica), S.memoria)
    else do
      let registroDestinoCpu ← obtenerRegistro registro
      let valor := e.cpu.registros registroDestinoCpu
      let memoria ← S.escribirValor tamanioPagina dirLogica valor
      return (1, { e with memoria := e.memoria.escribir dirLogica valor }, memoria)
  | i => (Ciclo.decode tamanioPagina S.nroMarco e i).map fun r => (r.1, r.2, S.memoria)

/-- The rest of a turn of the process that is on the CPU. -/
def girar (tamanioPagina : ℕ) (programa : List Instruccion) (S : Equipo) (ctx : ExecContext) :
    Option Equipo := do
  let i ← fetch programa ctx.programCounter
  let (shouldIncrementPc, e, memoria) ← decode tamanioPagina S (S.sistema.estado ctx) i
  let e := if shouldIncrementPc ≠ -1 then
    { e with ctx := { e.ctx with programCounter := e.ctx.programCounter + 1 } } else e
  let e := checkInterrupt e
  return ⟨{ S.sistema with cpu := e.cpu, ctx := some e.ctx, memoria := e.memoria }, memoria, none⟩

/-- The page of a request, and what the memory answers. No table has a page before the first. -/
def pedir (tamanioPagina : ℕ) (S : Equipo) (pid : ℤ) (operacion : TipoOperacion)
    (dirLogica ahora : ℤ) : Option Equipo := do
  let pagina := obtenerNumeroPagina tamanioPagina dirLogica
  guard (0 ≤ pagina)
  let (marco, _) ← frameRequest S.memoria.handler pid pagina.toNat operacion ahora
  let memoria ← Memoria.Pedidos.atender S.memoria (.frameRequest pid pagina.toNat operacion ahora)
  return { S with memoria := memoria, marco := some marco }

/-- The turn has to wait for the answer to its request. -/
def esperaMarco (programa : List Instruccion) (S : Equipo) (ctx : ExecContext) : Bool :=
  S.marco.isNone && ((fetch programa ctx.programCounter).bind pedidoDe).isSome

/-- In the middle of a turn only interruptions come. An action that is not possible changes nothing. -/
def paso (tamanioPagina : ℕ) (programa : List Instruccion) (S : Equipo) :
    Accion → Option Equipo
  | .despacho (.ciclo _) => some S
  | .despacho a =>
    if S.marco.isSome && !esInterrupcion a then some S
    else (Despacho.atender tamanioPagina programa S.sistema a).map fun s => { S with sistema := s }
  | .pedirMarco ahora =>
    match S.sistema.ctx with
    | some ctx =>
      if S.sistema.cpu.flagExit || S.marco.isSome then some S
      else match (fetch programa ctx.programCounter).bind pedidoDe with
        | some (operacion, dirLogica) => pedir tamanioPagina S ctx.pid operacion dirLogica ahora
        | none => some S
    | none => some S
  | .ciclo =>
    match S.sistema.ctx with
    | some ctx =>
      if S.sistema.cpu.flagExit || esperaMarco programa S ctx then some S
      else girar tamanioPagina programa S ctx
    | none => some S
  | .memoria ped => (Memoria.Pedidos.atender S.memoria ped).map fun m => { S with memoria := m }

/-! ### The ghost -/

section

variable {tamanioPagina : ℕ} {programa : List Instruccion} {S T : Equipo} {e : Estado}
  {i : Instruccion} {marco : ℤ} {M N : MemoriaPlana}

def conPlana (M : MemoriaPlana) (S : Equipo) : Equipo :=
  { S with sistema := { S.sistema with memoria := M } }

theorem decode_plana (hin : ∀ registro dirLogica, i ≠ .MOV_IN registro dirLogica)
    (hout : ∀ dirLogica registro, i ≠ .MOV_OUT dirLogica registro) :
    Ciclo.decode tamanioPagina marco { e with memoria := M } i =
      (Ciclo.decode tamanioPagina marco e i).map fun r => (r.1, { r.2 with memoria := M }) := by
  cases i with
  | SET registro nuevoValor =>
    simp only [Ciclo.decode, executeSet]
    cases obtenerRegistro registro <;> rfl
  | SUM registroDestino registroOrigen =>
    simp only [Ciclo.decode, executeSum]
    cases obtenerRegistro registroDestino <;> cases obtenerRegistro registroOrigen <;> rfl
  | SUB registroDestino registroOrigen =>
    simp only [Ciclo.decode, executeSub]
    cases obtenerRegistro registroDestino <;> cases obtenerRegistro registroOrigen <;> rfl
  | JNZ registro nuevoPc =>
    simp only [Ciclo.decode, executeJnz]
    cases obtenerRegistro registro with
    | none => rfl
    | some r =>
      simp only [Option.bind_eq_bind, Option.bind_some, Option.pure_def, Option.map_some]
      split_ifs <;> rfl
  | MOV_IN registro dirLogica => exact absurd rfl (hin registro dirLogica)
  | MOV_OUT dirLogica registro => exact absurd rfl (hout dirLogica registro)
  | F_READ nombreArchivo dirLogica =>
    simp only [Ciclo.decode, executeFRead, executeFAcceso]
    split_ifs <;> rfl
  | F_WRITE nombreArchivo dirLogica =>
    simp only [Ciclo.decode, executeFWrite, executeFAcceso]
    split_ifs <;> rfl
  | _ => rfl

/-- A result without what it has of the flat memory. -/
def sinPlana (r : ℤ × Estado × Memoria.Pedidos.Sistema) : ℤ × Estado × Memoria.Pedidos.Sistema :=
  (r.1, { r.2.1 with memoria := ⟨fun _ => 0, []⟩ }, r.2.2)

theorem decode_conPlana (tamanioPagina : ℕ) (S : Equipo) (e : Estado) (i : Instruccion)
    (M : MemoriaPlana) :
    (decode tamanioPagina (conPlana M S) { e with memoria := M } i).map sinPlana =
      (decode tamanioPagina S e i).map sinPlana := by
  have hresto : (∀ registro dirLogica, i ≠ .MOV_IN registro dirLogica) →
      (∀ dirLogica registro, i ≠ .MOV_OUT dirLogica registro) →
      ((Ciclo.decode tamanioPagina S.nroMarco { e with memoria := M } i).map fun r =>
        (r.1, r.2, S.memoria)).map sinPlana =
      ((Ciclo.decode tamanioPagina S.nroMarco e i).map fun r => (r.1, r.2, S.memoria)).map sinPlana := by
    intro hin hout
    rw [decode_plana hin hout, Option.map_map, Option.map_map, Option.map_map]
    rfl
  cases i with
  | MOV_IN registro dirLogica =>
    change (if S.nroMarco = -1 then _ else _ : Option _).map sinPlana =
      (if S.nroMarco = -1 then _ else _ : Option _).map sinPlana
    split_ifs
    · rfl
    · change ((S.leerValor tamanioPagina dirLogica).bind _).map sinPlana =
        ((S.leerValor tamanioPagina dirLogica).bind _).map sinPlana
      cases S.leerValor tamanioPagina dirLogica with
      | none => rfl
      | some v =>
        rw [Option.bind_some, Option.bind_some]
        split_ifs
        · rfl
        · cases obtenerRegistro registro <;> rfl
  | MOV_OUT dirLogica registro =>
    change (if S.nroMarco = -1 then _ else _ : Option _).map sinPlana =
      (if S.nroMarco = -1 then _ else _ : Option _).map sinPlana
    split_ifs
    · rfl
    · change ((obtenerRegistro registro).bind _).map sinPlana =
        ((obtenerRegistro registro).bind _).map sinPlana
      cases obtenerRegistro registro with
      | none => rfl
      | some r =>
        change ((S.escribirValor tamanioPagina dirLogica (e.cpu.registros r)).bind _).map sinPlana =
          ((S.escribirValor tamanioPagina dirLogica (e.cpu.registros r)).bind _).map sinPlana
        cases S.escribirValor tamanioPagina dirLogica (e.cpu.registros r) <;> rfl
  | _ => exact hresto (by rintro _ _ h; cases h) (by rintro _ _ h; cases h)

/-- The state that a turn ends with. -/
def avanzar (r : ℤ × Estado) : Estado :=
  checkInterrupt (if r.1 ≠ -1 then
    { r.2 with ctx := { r.2.ctx with programCounter := r.2.ctx.programCounter + 1 } } else r.2)

def cerrar (S : Equipo) (r : ℤ × Estado × Memoria.Pedidos.Sistema) : Equipo :=
  ⟨{ S.sistema with
    cpu := (avanzar (r.1, r.2.1)).cpu
    ctx := some (avanzar (r.1, r.2.1)).ctx
    memoria := (avanzar (r.1, r.2.1)).memoria }, r.2.2, none⟩

theorem checkInterrupt_plana :
    checkInterrupt { e with memoria := M } = { checkInterrupt e with memoria := M } := by
  unfold checkInterrupt
  by_cases h : e.cpu.interrupcion.pid = e.ctx.pid
  · rw [if_pos h, if_pos h]
    split_ifs <;> rfl
  · rw [if_neg h, if_neg h]

theorem avanzar_plana (n : ℤ) :
    avanzar (n, { e with memoria := M }) = { avanzar (n, e) with memoria := M } := by
  unfold avanzar
  rw [← checkInterrupt_plana]
  by_cases h : n ≠ -1
  · rw [if_pos h, if_pos h]
  · rw [if_neg h, if_neg h]

theorem girar_eq_cerrar (ctx : ExecContext) : girar tamanioPagina programa S ctx =
    (fetch programa ctx.programCounter).bind fun i =>
      (decode tamanioPagina S (S.sistema.estado ctx) i).map (cerrar S) := by
  rw [girar]
  cases fetch programa ctx.programCounter with
  | none => rfl
  | some i =>
    simp only [Option.bind_eq_bind, Option.bind_some]
    cases decode tamanioPagina S (S.sistema.estado ctx) i <;> rfl

theorem cerrar_conPlana (r : ℤ × Estado × Memoria.Pedidos.Sistema) :
    conPlana N (cerrar (conPlana M S) r) = conPlana N (cerrar S (sinPlana r)) := by
  have h : avanzar ((sinPlana r).1, (sinPlana r).2.1) =
      { avanzar (r.1, r.2.1) with memoria := ⟨fun _ => 0, []⟩ } := avanzar_plana r.1
  unfold cerrar
  rw [h]
  rfl

theorem girar_conPlana (ctx : ExecContext) :
    (girar tamanioPagina programa (conPlana M S) ctx).map (conPlana N) =
      (girar tamanioPagina programa S ctx).map (conPlana N) := by
  rw [girar_eq_cerrar, girar_eq_cerrar]
  cases fetch programa ctx.programCounter with
  | none => rfl
  | some i =>
    have h := congrArg (Option.map fun r => conPlana N (cerrar S r))
      (decode_conPlana tamanioPagina S (S.sistema.estado ctx) i M)
    rw [Option.map_map, Option.map_map] at h
    rw [Option.bind_some, Option.bind_some, Option.map_map, Option.map_map]
    have hM : conPlana N ∘ cerrar (conPlana M S) = (fun r => conPlana N (cerrar S r)) ∘ sinPlana :=
      funext cerrar_conPlana
    have hS : conPlana N ∘ cerrar S = (fun r => conPlana N (cerrar S r)) ∘ sinPlana :=
      funext fun r => cerrar_conPlana (M := S.sistema.memoria) r
    rw [hM, hS]
    exact h

theorem pedir_conPlana {pid dirLogica ahora : ℤ} {operacion : TipoOperacion} :
    (pedir tamanioPagina (conPlana M S) pid operacion dirLogica ahora).map (conPlana N) =
      (pedir tamanioPagina S pid operacion dirLogica ahora).map (conPlana N) := by
  unfold pedir
  simp only [Option.bind_eq_bind, Option.map_bind, Function.comp_def]
  rfl

theorem atender_plana {a : Despacho.Accion} (ha : ∀ marco, a ≠ .ciclo marco) :
    (Despacho.atender tamanioPagina programa { S.sistema with memoria := M } a).map
        (conPlana N ∘ fun s => { conPlana M S with sistema := s }) =
      (Despacho.atender tamanioPagina programa S.sistema a).map
        (conPlana N ∘ fun s => { S with sistema := s }) := by
  obtain ⟨⟨pcb, cpu, ctx, plana⟩, memoria, marco⟩ := S
  cases a with
  | ciclo marco => exact absurd rfl (ha marco)
  | enviarContexto =>
    cases ctx with
    | none => rfl
    | some ctx =>
      simp only [Despacho.atender]
      split_ifs
      · rw [Option.map_map, Option.map_map]
        rfl
      · rfl
  | interrupcion pid motivo => rfl
  | cpuExecute | paginaCargada | otroProceso =>
    simp only [Despacho.atender]
    split_ifs <;> rfl

/-- **The flat memory is a ghost**: no step reads it. -/
theorem paso_plana (a : Accion) : (paso tamanioPagina programa (conPlana M S) a).map (conPlana N) =
    (paso tamanioPagina programa S a).map (conPlana N) := by
  cases a with
  | despacho a =>
    cases a with
    | ciclo marco => rfl
    | _ =>
      change (if (S.marco.isSome && _) = true then _ else _ : Option _).map (conPlana N) =
        (if (S.marco.isSome && _) = true then _ else _ : Option _).map (conPlana N)
      split_ifs
      · rfl
      · rw [Option.map_map, Option.map_map]
        exact atender_plana (by rintro _ h; cases h)
  | pedirMarco ahora =>
    obtain ⟨⟨pcb, cpu, ctx, plana⟩, memoria, marco⟩ := S
    cases ctx with
    | none => rfl
    | some ctx =>
      cases h : cpu.flagExit || marco.isSome with
      | true =>
        simp only [paso, conPlana, h, if_true]
        rfl
      | false =>
        simp only [paso, conPlana, h, Bool.false_eq_true, if_false]
        cases (fetch programa ctx.programCounter).bind pedidoDe with
        | none => rfl
        | some r => exact pedir_conPlana (S := ⟨⟨pcb, cpu, some ctx, plana⟩, memoria, marco⟩)
  | ciclo =>
    obtain ⟨⟨pcb, cpu, ctx, plana⟩, memoria, marco⟩ := S
    cases ctx with
    | none => rfl
    | some ctx =>
      have hespera : esperaMarco programa ⟨⟨pcb, cpu, some ctx, M⟩, memoria, marco⟩ ctx =
        esperaMarco programa ⟨⟨pcb, cpu, some ctx, plana⟩, memoria, marco⟩ ctx := rfl
      cases h : cpu.flagExit ||
          esperaMarco programa ⟨⟨pcb, cpu, some ctx, plana⟩, memoria, marco⟩ ctx with
      | true =>
        simp only [paso, conPlana, hespera, h, if_true]
        rfl
      | false =>
        simp only [paso, conPlana, hespera, h, Bool.false_eq_true, if_false]
        exact girar_conPlana (S := ⟨⟨pcb, cpu, some ctx, plana⟩, memoria, marco⟩) ctx
  | memoria ped =>
    change ((Memoria.Pedidos.atender S.memoria ped).map _).map (conPlana N) =
      ((Memoria.Pedidos.atender S.memoria ped).map _).map (conPlana N)
    rw [Option.map_map, Option.map_map]
    rfl

theorem conPlana_inj (h : conPlana N S = conPlana N T) : S = conPlana S.sistema.memoria T := by
  obtain ⟨⟨pcb, cpu, ctx, plana⟩, memoria, marco⟩ := S
  obtain ⟨⟨pcb', cpu', ctx', plana'⟩, memoria', marco'⟩ := T
  simp only [conPlana, Equipo.mk.injEq, Sistema.mk.injEq] at h ⊢
  simp [h]

/-- Nor does a run. -/
theorem exec_plana (as : List Accion) :
    (exec (paso tamanioPagina programa) (conPlana M S) as).map (conPlana N) =
      (exec (paso tamanioPagina programa) S as).map (conPlana N) := by
  induction as generalizing S M with
  | nil => rfl
  | cons a as ih =>
    have h : (paso tamanioPagina programa (conPlana M S) a).map (conPlana N) =
      (paso tamanioPagina programa S a).map (conPlana N) := paso_plana a
    rw [exec_cons, exec_cons]
    cases hT : paso tamanioPagina programa S a with
    | none =>
      rw [hT, Option.map_none, Option.map_eq_none_iff] at h
      rw [h]
    | some T =>
      rw [hT] at h
      obtain ⟨U, hU, hUT⟩ := Option.map_eq_some_iff.mp h
      rw [hU, Option.bind_some, Option.bind_some, conPlana_inj hUT]
      exact ih

end

end OperatingSystem.Cpu.Computadora
