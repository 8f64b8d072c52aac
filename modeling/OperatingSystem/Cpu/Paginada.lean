import OperatingSystem.Cpu.Computadora
import OperatingSystem.Memoria.Lectura

/-! # The machine in the paged memory

`stutters` says that what the process has is what the machine has, whatever page faults, replacements,
interruptions and processes come in between, as long as the memory keeps to the conditions of
`Memoria.Lectura` and no word read is `-1`. `maquina_en_memoria` is what follows for the runs, and
`acaba_en` says of the whole computer what is derived for the program. -/

namespace OperatingSystem.Cpu.Computadora

open OperatingSystem.Lib.Run OperatingSystem.Lib.Stutter
open OperatingSystem.Memoria.Paginas OperatingSystem.Memoria.HandlerPaginacion
open OperatingSystem.Memoria.Lugares OperatingSystem.Memoria.Marcos OperatingSystem.Memoria.Contenido
open OperatingSystem.Memoria.Pedidos (Pedido obtenerNumeroPagina obtenerNumeroPagina_eq
  traduccionLogicaAFisica traduccionLogicaAFisica_eq frameRequest)
open OperatingSystem.Memoria.Lectura
open OperatingSystem.Cpu.Ciclo
open OperatingSystem.Cpu.Despacho
open OperatingSystem.Cpu.Transparencia

/-! ### What a run has to be like -/

/-- The request is not one of the process that is on the CPU. -/
def DeOtro (pid : ℤ) : Pedido → Prop
  | .movOut p .. => p ≠ pid
  | .frameRequest p .. => p ≠ pid
  | _ => True

instance (pid : ℤ) (ped : Pedido) : Decidable (DeOtro pid ped) := by
  cases ped <;> unfold DeOtro <;> infer_instance

/-- A word of a page of the process, which is still in the frame that the memory named. -/
def MovValido (S : Equipo) (pid dirLogica : ℤ) : Prop :=
  0 ≤ dirLogica ∧ dirLogica.toNat % 4 = 0 ∧
    (∃ l, lugar S.memoria.handler pid (S.memoria.nroPagina dirLogica.toNat) = some l) ∧
    Vigente S.memoria pid dirLogica.toNat

instance (S : Equipo) (pid dirLogica : ℤ) : Decidable (MovValido S pid dirLogica) :=
  decidable_of_iff (0 ≤ dirLogica ∧ dirLogica.toNat % 4 = 0 ∧
    (lugar S.memoria.handler pid (S.memoria.nroPagina dirLogica.toNat)).isSome ∧
    Vigente S.memoria pid dirLogica.toNat) <| by simp [MovValido, Option.isSome_iff_exists]

/-- The word of the instruction is the process's own. -/
def MovCuidado (S : Equipo) (pid : ℤ) : Instruccion → Prop
  | .MOV_IN _ dirLogica => MovValido S pid dirLogica
  | .MOV_OUT dirLogica _ => MovValido S pid dirLogica ∧
    ∀ dirFisica ∈ S.memoria.dirFisica pid dirLogica.toNat,
      (encontrarPaginaAModificar S.memoria.handler
        (espacioObtenerFrame S.memoria.handler.espacioUsuario dirFisica)
        S.memoria.handler.paginasPendientesModificacion).isSome
  | _ => True

instance (S : Equipo) (pid : ℤ) (i : Instruccion) : Decidable (MovCuidado S pid i) := by
  cases i <;> unfold MovCuidado <;> infer_instance

/-- The memory is used as `Memoria.Lectura` asks for. -/
def Cuidado (programa : List Instruccion) (S : Equipo) : Accion → Prop
  | .despacho _ => True
  | .pedirMarco _ => ∀ ctx ∈ S.sistema.ctx, ∀ r ∈ (fetch programa ctx.programCounter).bind pedidoDe,
    0 ≤ r.2 ∧ EnTabla S.memoria.handler ctx.pid (S.memoria.nroPagina r.2.toNat)
  | .ciclo => S.nroMarco ≠ -1 → ∀ ctx ∈ S.sistema.ctx, ∀ i ∈ fetch programa ctx.programCounter,
    MovCuidado S ctx.pid i
  | .memoria ped => Protocolo S.memoria ped ∧ Condicion S.memoria ped ∧ DeOtro S.sistema.pcb.pid ped

instance (programa : List Instruccion) (S : Equipo) (a : Accion) :
    Decidable (Cuidado programa S a) := by
  cases a <;> unfold Cuidado <;> infer_instance

/-- The turn executes an instruction. -/
def Ejecuta (programa : List Instruccion) (S : Equipo) : Accion → Prop
  | .ciclo => Transparencia.Ejecuta programa S.sistema (.ciclo S.nroMarco)
  | _ => False

instance (programa : List Instruccion) (S : Equipo) (a : Accion) :
    Decidable (Ejecuta programa S a) := by
  cases a <;> unfold Ejecuta <;> infer_instance

/-- And a `MOV_IN` that is executed does not read the word `-1`. -/
def Permitida (programa : List Instruccion) (S : Equipo) (a : Accion) : Prop :=
  Cuidado programa S a ∧ (Ejecuta programa S a → ¬LeeMenosUno programa (vista S.sistema))

instance (programa : List Instruccion) (S : Equipo) (a : Accion) :
    Decidable (Permitida programa S a) := by unfold Permitida; infer_instance

/-- The ghost has the words of the process. -/
def Sincronizada (tamanioPagina : ℕ) (M : MemoriaPlana) (palabras : ℕ → UInt32) : Prop :=
  ∀ a, EnPalabras tamanioPagina a → M.leer a = palabras a

/-- The answer of the memory is the one to the instruction of this turn. -/
def EnTurno (programa : List Instruccion) (S : Equipo) (marco : Option ℕ) : Prop :=
  ∃ ctx, S.sistema.ctx = some ctx ∧ S.sistema.cpu.flagExit = false ∧
    ∃ operacion dirLogica, (fetch programa ctx.programCounter).bind pedidoDe = some (operacion, dirLogica) ∧
      ∀ f, marco = some f →
        S.memoria.traducciones (ctx.pid, S.memoria.nroPagina dirLogica.toNat) = some (f, operacion)

structure Inv (tamanioPagina : ℕ) (programa : List Instruccion) (S : Equipo) : Prop where
  sistema : Transparencia.Inv S.sistema
  tamanio : S.memoria.handler.tamanioPagina = tamanioPagina
  refleja : ∃ m, Refleja S.memoria m ∧
    Sincronizada tamanioPagina S.sistema.memoria (m S.sistema.pcb.pid)
  turno : ∀ marco, S.marco = some marco → EnTurno programa S marco

/-! ### The memory -/

section

variable {m : Memoria.Pedidos.Sistema} {m' : Memoria.Pedidos.Sistema} {w : Plana} {ped : Pedido}
  {pid : ℤ} {tamanioPagina : ℕ}

/-- The pages keep their size. -/
theorem tamanio_cargar {h : Handler} {nro : ℕ} {ahora : ℤ} {orden : List ℤ} {r : Option ℕ × Handler}
    (hI : Propios h) (hc : ReemplazaModificada h pid orden)
    (hr : cargarEnMemoria h pid nro ahora orden = some r) : r.2.tamanioPagina = h.tamanioPagina := by
  have halojar : ∀ {h₁ : Handler} {f : ℕ}, alojar h₁ pid nro f ahora = some r →
      r.2.tamanioPagina = h₁.tamanioPagina := fun ha => by
    obtain ⟨l, h', rfl, -, -, -, -, ht, -⟩ := alojar_inv ha
    exact ht
  rcases cargarEnMemoria_cases hc hr with
    he | ⟨he, -⟩ | ⟨f, -, ha⟩ | ⟨pag, h₁, hv, hm, hrem, ha⟩
  · rw [he]
  · rw [he]
  · exact halojar ha
  · obtain ⟨-, -, -, -, ht, -⟩ := removerPaginaMemoria_spec hrem hv hm (hI.victima hv).1
    exact (halojar ha).trans ht

theorem tamanio_atender (hR : Refleja m w) (hc : Condicion m ped)
    (hs : Memoria.Pedidos.atender m ped = some m') :
    m'.handler.tamanioPagina = m.handler.tamanioPagina := by
  cases ped with
  | newProcess pid size posiciones =>
    obtain ⟨h, hh, hs⟩ := Option.bind_eq_some_iff.mp hs
    obtain rfl := Option.some.inj hs
    unfold Memoria.Pedidos.allocateNewProcess at hh
    split_ifs at hh
    exact (generarTablaPaginas_spec hh).2.2.2.1
  | frameRequest pid pagina operacion ahora =>
    obtain ⟨⟨r, h⟩, hh, hs⟩ := Option.bind_eq_some_iff.mp hs
    unfold frameRequest at hh
    split_ifs at hh
    obtain ⟨hig, -⟩ := obtenerMarco_spec hh
    cases r <;> obtain rfl := Option.some.inj hs <;> exact hig.tamanioPagina
  | loadFrame pid pagina ahora orden =>
    obtain ⟨r, hr, hs⟩ := Option.bind_eq_some_iff.mp hs
    obtain rfl := Option.some.inj hs
    exact tamanio_cargar hR.propios hc.1 hr
  | movOut pid dirLogica valor =>
    obtain ⟨dir, -, hs⟩ := Option.bind_eq_some_iff.mp hs
    obtain ⟨h, hw, hs⟩ := Option.bind_eq_some_iff.mp hs
    obtain rfl := Option.some.inj hs
    exact (escribirValor_spec hw).tamanioPagina
  | movIn pid dirLogica =>
    obtain ⟨-, -, rfl⟩ := Option.map_eq_some_iff.mp hs
    rfl
  | exitProcess pid =>
    obtain ⟨h, hh, hs⟩ := Option.bind_eq_some_iff.mp hs
    obtain rfl := Option.some.inj hs
    obtain ⟨-, -, -, -, -, -, -, ht, -⟩ := removerProceso_spec hh
    exact ht

/-- What the memory told the process it still knows. -/
theorem traducciones_atender (ho : DeOtro pid ped) (hs : Memoria.Pedidos.atender m ped = some m')
    (i : ℕ) : m'.traducciones (pid, i) = m.traducciones (pid, i) := by
  cases ped with
  | newProcess p size posiciones =>
    obtain ⟨h, -, hs⟩ := Option.bind_eq_some_iff.mp hs
    obtain rfl := Option.some.inj hs
    rfl
  | frameRequest p pagina operacion ahora =>
    obtain ⟨⟨r, h⟩, -, hs⟩ := Option.bind_eq_some_iff.mp hs
    cases r with
    | none =>
      obtain rfl := Option.some.inj hs
      rfl
    | some f =>
      obtain rfl := Option.some.inj hs
      exact Function.update_of_ne (fun h => ho (congrArg Prod.fst h).symm) _ _
  | loadFrame p pagina ahora orden =>
    obtain ⟨r, -, hs⟩ := Option.bind_eq_some_iff.mp hs
    obtain rfl := Option.some.inj hs
    rfl
  | movOut p dirLogica valor =>
    obtain ⟨dir, -, hs⟩ := Option.bind_eq_some_iff.mp hs
    obtain ⟨h, -, hs⟩ := Option.bind_eq_some_iff.mp hs
    obtain rfl := Option.some.inj hs
    rfl
  | movIn p dirLogica =>
    obtain ⟨-, -, rfl⟩ := Option.map_eq_some_iff.mp hs
    rfl
  | exitProcess p =>
    obtain ⟨h, -, hs⟩ := Option.bind_eq_some_iff.mp hs
    obtain rfl := Option.some.inj hs
    rfl

theorem servirPlana_deOtro (ho : DeOtro pid ped) : servirPlana w ped pid = w pid := by
  cases ped with
  | movOut p dirLogica valor =>
    funext a
    exact if_neg fun h => ho h.1.symm
  | _ => rfl

/-- A write of the process keeps the ghost in time. -/
theorem Sincronizada.escribir {M : MemoriaPlana} {p : ℕ → UInt32} (h : Sincronizada tamanioPagina M p)
    {a : ℕ} (ha : a % 4 = 0) (v : UInt32) :
    Sincronizada tamanioPagina (M.escribir a v) fun b => if b = a then v else p b := by
  intro b hb
  by_cases hba : b = a
  · subst hba
    simp only [if_true]
    exact Logica.leer_escribir
  · simp only [if_neg hba]
    rw [Logica.leer_escribir_of_disjoint (by have := hb.1; omega)]
    exact h b hb

end

/-! ### A turn of the cycle -/

section

variable {tamanioPagina : ℕ} {programa : List Instruccion} {S S' : Equipo} {a : Accion}
  {ctx : ExecContext} {i : Instruccion}

theorem pideMarco_of_pedidoDe (h : pedidoDe i ≠ none) : pideMarco i = true := by
  cases i <;> first | rfl | exact absurd rfl h

theorem nroMarco_none (h : S.marco = none) : S.nroMarco = -1 := by
  unfold Equipo.nroMarco
  rw [h]

/-- The frame is the last one that the memory told for the page. -/
def Contestado (S : Equipo) (pid : ℤ) (operacion : TipoOperacion) (dirLogica : ℤ) : Prop :=
  ∃ f : ℕ, S.nroMarco = f ∧
    S.memoria.traducciones (pid, S.memoria.nroPagina dirLogica.toNat) = some (f, operacion)

/-- With a frame, the answer of this turn is the one for the instruction. -/
theorem Inv.turno_de (hI : Inv tamanioPagina programa S) (hctx : S.sistema.ctx = some ctx)
    (hi : fetch programa ctx.programCounter = some i) {operacion : TipoOperacion} {dirLogica : ℤ}
    (hp : pedidoDe i = some (operacion, dirLogica)) (hmarco : S.nroMarco ≠ -1) :
    Contestado S ctx.pid operacion dirLogica := by
  cases hm : S.marco with
  | none => exact absurd (nroMarco_none hm) hmarco
  | some r =>
    obtain ⟨ctx', hctx', -, op, d, hpd, htr⟩ := hI.turno _ hm
    obtain rfl := Option.some.inj (hctx.symm.trans hctx')
    rw [hi, Option.bind_some, hp] at hpd
    obtain ⟨rfl, rfl⟩ := Prod.mk.inj (Option.some.inj hpd)
    cases r with
    | none => exact absurd (by rw [Equipo.nroMarco, hm]) hmarco
    | some f => exact ⟨f, by rw [Equipo.nroMarco, hm], htr f rfl⟩

section

variable {pid dirLogica : ℤ} {operacion : TipoOperacion}

/-- The physical address of the CPU is the one of the page that the memory named. -/
theorem dirFisica_eq (htam : S.memoria.handler.tamanioPagina = tamanioPagina)
    (h : Contestado S pid operacion dirLogica) (hd : 0 ≤ dirLogica) :
    ∃ n : ℕ, traduccionLogicaAFisica tamanioPagina dirLogica S.nroMarco = n ∧
      S.memoria.dirFisica pid dirLogica.toNat = some n := by
  obtain ⟨f, hf, htr⟩ := h
  obtain ⟨a, rfl⟩ := Int.eq_ofNat_of_zero_le hd
  rw [Int.toNat_natCast] at htr ⊢
  refine ⟨_, by rw [hf, traduccionLogicaAFisica_eq], ?_⟩
  rw [Memoria.Pedidos.Sistema.dirFisica, htr, Option.map_some, traduccionLogicaAFisica_eq, htam,
    Int.toNat_natCast]

theorem leerValor_eq (htam : S.memoria.handler.tamanioPagina = tamanioPagina)
    (h : Contestado S pid operacion dirLogica) (hd : 0 ≤ dirLogica) :
    S.leerValor tamanioPagina dirLogica = S.memoria.movIn pid dirLogica.toNat := by
  obtain ⟨n, hn, hdir⟩ := dirFisica_eq htam h hd
  rw [Equipo.leerValor, Memoria.Pedidos.Sistema.movIn, hdir, hn, if_neg (by omega), Int.toNat_natCast]
  rfl

theorem escribirValor_eq (htam : S.memoria.handler.tamanioPagina = tamanioPagina)
    (h : Contestado S pid operacion dirLogica) (hd : 0 ≤ dirLogica) (v : UInt32) :
    S.escribirValor tamanioPagina dirLogica v =
      Memoria.Pedidos.atender S.memoria (.movOut pid dirLogica.toNat v) := by
  obtain ⟨n, hn, hdir⟩ := dirFisica_eq htam h hd
  rw [Equipo.escribirValor, Memoria.Pedidos.atender, hdir, hn, if_neg (by omega), Int.toNat_natCast]
  exact Option.map_eq_bind

theorem Contestado.movPedido (h : Contestado S pid operacion dirLogica)
    (hv : MovValido S pid dirLogica) : MovPedido S.memoria pid dirLogica.toNat operacion := by
  obtain ⟨f, -, htr⟩ := h
  exact ⟨hv.2.1, hv.2.2.1, f, htr⟩

end

/-- What a turn does to the memory, and what it makes of the flat one. -/
def Turno (tamanioPagina : ℕ) (S : Equipo) (e : Estado) (i : Instruccion) : Prop :=
  ∃ m w, Refleja m w ∧ m.handler.tamanioPagina = S.memoria.handler.tamanioPagina ∧
    decode tamanioPagina S e i =
      (Ciclo.decode tamanioPagina S.nroMarco e i).map (fun r => (r.1, r.2, m)) ∧
    ∀ r, Ciclo.decode tamanioPagina S.nroMarco e i = some r →
      Sincronizada tamanioPagina r.2.memoria (w e.ctx.pid)

theorem turno_movIn {e : Estado} {w : Plana} {registro : Char} {dirLogica : ℤ}
    (htam : S.memoria.handler.tamanioPagina = tamanioPagina) (hR : Refleja S.memoria w)
    (hw : Sincronizada tamanioPagina e.memoria (w e.ctx.pid))
    (hmov : S.nroMarco ≠ -1 → Contestado S e.ctx.pid .LEER dirLogica ∧
      MovValido S e.ctx.pid dirLogica) :
    Turno tamanioPagina S e (.MOV_IN registro dirLogica) := by
  refine ⟨S.memoria, w, hR, rfl, ?_, fun r hr => ?_⟩
  · rw [decode, Ciclo.decode, executeMovIn]
    by_cases hm : S.nroMarco = -1
    · rw [if_pos hm, if_pos hm]
      rfl
    · rw [if_neg hm, if_neg hm]
      obtain ⟨hcon, hv⟩ := hmov hm
      have hped := hcon.movPedido hv
      obtain ⟨f, -, -, ha⟩ := mov_vigente hped hv.2.2.2
      rw [htam] at ha
      have hleer : e.memoria.leer dirLogica = w e.ctx.pid dirLogica.toNat := by
        rw [← hw _ ha, Int.toNat_of_nonneg hv.1]
      simp only [leerValor_eq htam hcon hv.1, hR.movIn hped hv.2.2.2, leerValorMemoria, dirEnPagina_traduccionLogicaAFisica, hleer,
        Option.bind_eq_bind, Option.bind_some]
      split_ifs
      · rfl
      · cases obtenerRegistro registro <;> rfl
  · obtain rfl := Option.some.inj hr
    simp only [executeMovIn]
    split_ifs
    · exact hw
    · exact hw
    · cases obtenerRegistro registro <;> exact hw

theorem turno_movOut {e : Estado} {w : Plana} {registro : Char} {dirLogica : ℤ}
    (htam : S.memoria.handler.tamanioPagina = tamanioPagina) (hR : Refleja S.memoria w)
    (hw : Sincronizada tamanioPagina e.memoria (w e.ctx.pid))
    (hmov : S.nroMarco ≠ -1 → Contestado S e.ctx.pid .ESCRIBIR dirLogica ∧
      MovCuidado S e.ctx.pid (.MOV_OUT dirLogica registro)) :
    Turno tamanioPagina S e (.MOV_OUT dirLogica registro) := by
  by_cases hm : S.nroMarco = -1
  · refine ⟨S.memoria, w, hR, rfl, ?_, fun r hr => ?_⟩
    · rw [decode, Ciclo.decode, executeMovOut, if_pos hm, if_pos hm]
      rfl
    · rw [Ciclo.decode, executeMovOut, if_pos hm] at hr
      obtain rfl := Option.some.inj hr
      exact hw
  · obtain ⟨hcon, hv, hdir⟩ := hmov hm
    have hped := hcon.movPedido hv
    have hc : ∀ v, Condicion S.memoria (.movOut e.ctx.pid dirLogica.toNat v) :=
      fun _ => ⟨hv.2.2.2, hdir⟩
    cases hreg : obtenerRegistro registro with
    | none =>
      refine ⟨S.memoria, w, hR, rfl, ?_, fun r hr => ?_⟩
      · rw [decode, Ciclo.decode, executeMovOut, if_neg hm, if_neg hm, hreg]
        rfl
      · rw [Ciclo.decode, executeMovOut, if_neg hm, hreg] at hr
        cases hr
    | some r =>
      obtain ⟨f, -, -, ha⟩ := mov_vigente hped hv.2.2.2
      obtain ⟨m, hm', hR'⟩ := refleja_movOut hR hped (hc (e.cpu.registros r))
      refine ⟨m, _, hR', tamanio_atender hR (hc (e.cpu.registros r)) hm', ?_, fun s hs => ?_⟩
      · rw [decode, Ciclo.decode, executeMovOut, if_neg hm, if_neg hm, hreg]
        simp only [escribirValor_eq htam hcon hv.1, escribirValorMemoria,
          dirEnPagina_traduccionLogicaAFisica, hm',
          Option.bind_eq_bind, Option.bind_some]
        rfl
      · rw [Ciclo.decode, executeMovOut, if_neg hm, hreg] at hs
        simp only [escribirValorMemoria, dirEnPagina_traduccionLogicaAFisica,
          Option.bind_eq_bind, Option.bind_some] at hs
        obtain rfl := Option.some.inj hs
        have hsinc := hw.escribir ha.1 (e.cpu.registros r)
        rw [Int.toNat_of_nonneg hv.1] at hsinc
        intro b hb
        refine (hsinc b hb).trans ?_
        simp [Plana.escribir]

/-- An instruction that moves no word leaves both memories. -/
theorem memoria_decode {e : Estado} {marco : ℤ} (hi : deCpu i = true)
    (h : ∀ registro dirLogica, i ≠ .MOV_OUT dirLogica registro) {r : ℤ × Estado}
    (hr : Ciclo.decode tamanioPagina marco e i = some r) : r.2.memoria = e.memoria := by
  cases i with
  | SET registro nuevoValor =>
    obtain rfl := Option.some.inj hr
    simp only [executeSet]
    cases obtenerRegistro registro <;> rfl
  | SUM registroDestino registroOrigen =>
    obtain rfl := Option.some.inj hr
    simp only [executeSum]
    cases obtenerRegistro registroDestino <;> cases obtenerRegistro registroOrigen <;> rfl
  | SUB registroDestino registroOrigen =>
    obtain rfl := Option.some.inj hr
    simp only [executeSub]
    cases obtenerRegistro registroDestino <;> cases obtenerRegistro registroOrigen <;> rfl
  | JNZ registro nuevoPc =>
    obtain ⟨s, hs, rfl⟩ := Option.map_eq_some_iff.mp hr
    obtain ⟨r, -, hs⟩ := Option.bind_eq_some_iff.mp hs
    obtain rfl := Option.some.inj hs
    split_ifs <;> rfl
  | MOV_IN registro dirLogica =>
    obtain rfl := Option.some.inj hr
    simp only [executeMovIn]
    split_ifs
    · rfl
    · rfl
    · cases obtenerRegistro registro <;> rfl
  | MOV_OUT dirLogica registro => exact absurd rfl (h registro dirLogica)
  | EXIT =>
    obtain rfl := Option.some.inj hr
    rfl
  | _ => cases hi

/-- **Every instruction**: what the CPU does over the paged memory is what it does over the flat one. -/
theorem Inv.turno_decode (hI : Inv tamanioPagina programa S) (hctx : S.sistema.ctx = some ctx)
    (hfetch : fetch programa ctx.programCounter = some i) (hi : deCpu i = true)
    (hC : Cuidado programa S .ciclo) : Turno tamanioPagina S (S.sistema.estado ctx) i := by
  obtain ⟨w, hR, hw⟩ := hI.refleja
  have hpid : ctx.pid = S.sistema.pcb.pid := (hI.sistema.adentro ctx hctx).1
  have hw' : Sincronizada tamanioPagina (S.sistema.estado ctx).memoria (w ctx.pid) := by
    rw [hpid]
    exact hw
  cases i with
  | MOV_IN registro dirLogica =>
    exact turno_movIn hI.tamanio hR hw' fun hm =>
      ⟨hI.turno_de hctx hfetch rfl hm, hC hm ctx hctx _ hfetch⟩
  | MOV_OUT dirLogica registro =>
    exact turno_movOut hI.tamanio hR hw' fun hm =>
      ⟨hI.turno_de hctx hfetch rfl hm, hC hm ctx hctx _ hfetch⟩
  | SET | SUM | SUB | JNZ | EXIT =>
    refine ⟨S.memoria, w, hR, rfl, rfl, fun r hr => ?_⟩
    rw [memoria_decode hi (by rintro _ _ h; cases h) hr]
    exact hw'
  | _ => cases hi

theorem memoria_avanzar (r : ℤ × Estado) : (avanzar r).memoria = r.2.memoria := by
  unfold avanzar checkInterrupt
  split_ifs <;> rfl

/-- **A turn** over the paged memory is one over the flat memory. -/
theorem Inv.girar_eq (hI : Inv tamanioPagina programa S) (hctx : S.sistema.ctx = some ctx)
    (hpr : ∀ i ∈ programa, deCpu i = true) (hC : Cuidado programa S .ciclo) :
    ∃ m w, Refleja m w ∧ m.handler.tamanioPagina = S.memoria.handler.tamanioPagina ∧
      girar tamanioPagina programa S ctx =
        (Ciclo.ciclo tamanioPagina programa S.nroMarco (S.sistema.estado ctx)).map (fun e =>
          ⟨{ S.sistema with cpu := e.cpu, ctx := some e.ctx, memoria := e.memoria }, m, none⟩) ∧
      ∀ e, Ciclo.ciclo tamanioPagina programa S.nroMarco (S.sistema.estado ctx) = some e →
        Sincronizada tamanioPagina e.memoria (w ctx.pid) := by
  cases hfetch : fetch programa ctx.programCounter with
  | none =>
    have hciclo : Ciclo.ciclo tamanioPagina programa S.nroMarco (S.sistema.estado ctx) = none := by
      unfold Ciclo.ciclo
      rw [show (S.sistema.estado ctx).ctx.programCounter = ctx.programCounter from rfl, hfetch]
      rfl
    obtain ⟨w, hR, -⟩ := hI.refleja
    refine ⟨S.memoria, w, hR, rfl, ?_, fun e he => ?_⟩
    · rw [hciclo, girar, hfetch]
      rfl
    · rw [hciclo] at he
      cases he
  | some i =>
    obtain ⟨m, w, hR, htam, hdec, hsinc⟩ := hI.turno_decode hctx hfetch (hpr i (mem_of_fetch hfetch)) hC
    have hciclo : Ciclo.ciclo tamanioPagina programa S.nroMarco (S.sistema.estado ctx) =
      (Ciclo.decode tamanioPagina S.nroMarco (S.sistema.estado ctx) i).map avanzar := ciclo_eq hfetch
    refine ⟨m, w, hR, htam, ?_, fun e he => ?_⟩
    · rw [hciclo, girar, hfetch]
      simp only [Option.bind_eq_bind, Option.bind_some, hdec]
      cases Ciclo.decode tamanioPagina S.nroMarco (S.sistema.estado ctx) i <;> rfl
    · rw [hciclo] at he
      obtain ⟨r, hr, rfl⟩ := Option.map_eq_some_iff.mp he
      rw [memoria_avanzar]
      exact hsinc r hr

/-- A turn that waits for its frame is one whose page is not there. -/
theorem falta_of_esperaMarco (h : esperaMarco programa S ctx = true) :
    Falta programa (S.sistema.estado ctx) S.nroMarco := by
  rw [esperaMarco, Bool.and_eq_true, Option.isNone_iff_eq_none, Option.isSome_iff_exists] at h
  obtain ⟨hm, r, hr⟩ := h
  obtain ⟨i, hi, hr⟩ := Option.bind_eq_some_iff.mp hr
  refine ⟨nroMarco_none hm, ?_⟩
  change (fetch programa ctx.programCounter).any pideMarco = true
  rw [hi]
  exact pideMarco_of_pedidoDe (by rw [hr]; exact Option.some_ne_none r)

/-- **The rest of a turn** is a turn over the flat memory, or does nothing. -/
theorem Inv.ciclo_eq (hI : Inv tamanioPagina programa S) (hpr : ∀ i ∈ programa, deCpu i = true)
    (hC : Cuidado programa S .ciclo) :
    (paso tamanioPagina programa S .ciclo = some S ∧ ¬Ejecuta programa S .ciclo) ∨
    ∃ m w, Refleja m w ∧ m.handler.tamanioPagina = S.memoria.handler.tamanioPagina ∧
      paso tamanioPagina programa S .ciclo =
        (Despacho.atender tamanioPagina programa S.sistema (.ciclo S.nroMarco)).map (⟨·, m, none⟩) ∧
      ∀ s, Despacho.atender tamanioPagina programa S.sistema (.ciclo S.nroMarco) = some s →
        Sincronizada tamanioPagina s.memoria (w S.sistema.pcb.pid) := by
  cases hctx : S.sistema.ctx with
  | none =>
    refine .inl ⟨by simp only [paso, hctx], ?_⟩
    rintro ⟨ctx, hctx', -⟩
    rw [hctx] at hctx'
    cases hctx'
  | some ctx =>
    by_cases hf : S.sistema.cpu.flagExit = true
    · refine .inl ⟨by simp only [paso, hctx, hf, Bool.true_or, if_true], ?_⟩
      rintro ⟨-, -, hf', -⟩
      exact Bool.false_ne_true (hf'.symm.trans hf)
    · have hf' : S.sistema.cpu.flagExit = false := Bool.eq_false_iff.mpr hf
      by_cases he : esperaMarco programa S ctx = true
      · refine .inl ⟨by simp only [paso, hctx, he, Bool.or_true, if_true], ?_⟩
        rintro ⟨ctx', hctx', -, hfalta⟩
        obtain rfl := Option.some.inj (hctx.symm.trans hctx')
        exact hfalta (falta_of_esperaMarco he)
      · obtain ⟨m, w, hR, htam, hgirar, hsinc⟩ := hI.girar_eq hctx hpr hC
        have hflat : Despacho.atender tamanioPagina programa S.sistema (.ciclo S.nroMarco) =
            (Ciclo.ciclo tamanioPagina programa S.nroMarco (S.sistema.estado ctx)).map fun e =>
              { S.sistema with cpu := e.cpu, ctx := some e.ctx, memoria := e.memoria } := by
          simp only [Despacho.atender, hctx, hf', Bool.false_eq_true, if_false]
        refine .inr ⟨m, w, hR, htam, ?_, fun s hs => ?_⟩
        · simp only [paso, hctx, hf', Bool.eq_false_iff.mpr he, Bool.or_false, Bool.false_eq_true,
            if_false]
          rw [hgirar, hflat, Option.map_map]
          rfl
        · rw [hflat] at hs
          obtain ⟨e, he, rfl⟩ := Option.map_eq_some_iff.mp hs
          rw [← (hI.sistema.adentro ctx hctx).1]
          exact hsinc e he

end

/-! ### Every action -/

section

variable {tamanioPagina : ℕ} {programa : List Instruccion} {S S' : Equipo} {a : Accion}

/-- The memory changes to one that has the same words for the process. -/
theorem Inv.of_memoria {m : Memoria.Pedidos.Sistema} {w w' : Plana} {marco : Option (Option ℕ)}
    (hI : Inv tamanioPagina programa S) (hR' : Refleja m w')
    (hw : Sincronizada tamanioPagina S.sistema.memoria (w S.sistema.pcb.pid))
    (hpid : w' S.sistema.pcb.pid = w S.sistema.pcb.pid)
    (htam : m.handler.tamanioPagina = S.memoria.handler.tamanioPagina)
    (hturno : ∀ f, marco = some f →
      EnTurno programa { S with memoria := m, marco := marco } f) :
    Inv tamanioPagina programa { S with memoria := m, marco := marco } :=
  ⟨hI.sistema, htam.trans hI.tamanio, ⟨w', hR', by rw [hpid]; exact hw⟩, hturno⟩

theorem memoria_atender {a : Despacho.Accion} {s s' : Sistema} (ha : ∀ marco, a ≠ .ciclo marco)
    (h : Despacho.atender tamanioPagina programa s a = some s') : s'.memoria = s.memoria := by
  cases a with
  | ciclo marco => exact absurd rfl (ha marco)
  | enviarContexto =>
    rw [Despacho.atender] at h
    cases hctx : s.ctx with
    | none =>
      rw [hctx] at h
      exact congrArg Sistema.memoria (Option.some.inj h).symm
    | some ctx =>
      simp only [hctx] at h
      split_ifs at h
      · obtain ⟨pcb, -, rfl⟩ := Option.map_eq_some_iff.mp h
        rfl
      · exact congrArg Sistema.memoria (Option.some.inj h).symm
  | interrupcion pid motivo =>
    obtain rfl := Option.some.inj h
    rfl
  | cpuExecute | paginaCargada | otroProceso =>
    rw [Despacho.atender] at h
    split_ifs at h <;> obtain rfl := Option.some.inj h <;> rfl

/-- The action goes through, and nothing of it shows. -/
def SinVerse (tamanioPagina : ℕ) (programa : List Instruccion) (S : Equipo) (a : Accion) : Prop :=
  ∃ S', paso tamanioPagina programa S a = some S' ∧ Inv tamanioPagina programa S' ∧
    vista S'.sistema = vista S.sistema

theorem sinVerse_igual (hI : Inv tamanioPagina programa S)
    (h : paso tamanioPagina programa S a = some S) : SinVerse tamanioPagina programa S a :=
  ⟨S, h, hI, rfl⟩

theorem despacho_sigue (hI : Inv tamanioPagina programa S) (hpr : ∀ i ∈ programa, deCpu i = true)
    (a : Despacho.Accion) : SinVerse tamanioPagina programa S (.despacho a) := by
  by_cases hciclo : ∃ marco, a = .ciclo marco
  · obtain ⟨marco, rfl⟩ := hciclo
    exact sinVerse_igual hI rfl
  have hno : ∀ marco, a ≠ .ciclo marco := fun marco h => hciclo ⟨marco, h⟩
  have hpaso : paso tamanioPagina programa S (.despacho a) =
      if S.marco.isSome && !esInterrupcion a then some S
      else (Despacho.atender tamanioPagina programa S.sistema a).map fun s => { S with sistema := s } := by
    cases a with
    | ciclo marco => exact absurd rfl (hno marco)
    | _ => rfl
  by_cases hm : (S.marco.isSome && !esInterrupcion a) = true
  · exact sinVerse_igual hI (by rw [hpaso, if_pos hm])
  · have hej : ¬Transparencia.Ejecuta programa S.sistema a := by
      cases a with
      | ciclo marco => exact absurd rfl (hno marco)
      | _ => exact id
    obtain ⟨s', hs', hI', hv⟩ := sigue tamanioPagina hpr hI.sistema hej
    obtain ⟨w, hR, hw⟩ := hI.refleja
    refine ⟨{ S with sistema := s' }, by rw [hpaso, if_neg hm, hs']; rfl, ⟨hI', hI.tamanio,
      ⟨w, hR, ?_⟩, fun f hf => ?_⟩, hv⟩
    · change Sincronizada tamanioPagina s'.memoria (w s'.pcb.pid)
      rw [memoria_atender hno hs', Ejecucion.pid_atender hs']
      exact hw
    · -- in the middle of a turn it is an interruption, which leaves the turn as it is
      change S.marco = some f at hf
      rw [hf, Option.isSome_some, Bool.true_and, Bool.not_eq_true, Bool.not_eq_false'] at hm
      cases a with
      | interrupcion pid motivo =>
        obtain rfl := Option.some.inj hs'
        exact hI.turno f hf
      | _ => cases hm

theorem pedirMarco_sigue (hI : Inv tamanioPagina programa S) {ahora : ℤ}
    (hC : Cuidado programa S (.pedirMarco ahora)) :
    SinVerse tamanioPagina programa S (.pedirMarco ahora) := by
  cases hctx : S.sistema.ctx with
  | none => exact sinVerse_igual hI (by simp only [paso, hctx])
  | some ctx =>
    by_cases hf : (S.sistema.cpu.flagExit || S.marco.isSome) = true
    · exact sinVerse_igual hI (by simp only [paso, hctx, hf, if_true])
    cases hp : (fetch programa ctx.programCounter).bind pedidoDe with
    | none =>
      exact sinVerse_igual hI (by simp only [paso, hctx, Bool.eq_false_iff.mpr hf, hp,
        Bool.false_eq_true, if_false])
    | some r =>
      obtain ⟨operacion, dirLogica⟩ := r
      obtain ⟨w, hR, hw⟩ := hI.refleja
      obtain ⟨hd, htabla⟩ := hC ctx hctx _ hp
      obtain ⟨m, hm, hR'⟩ := refleja_frameRequest hR htabla
      have hf' : S.sistema.cpu.flagExit = false := by
        cases h : S.sistema.cpu.flagExit with
        | false => rfl
        | true => rw [h] at hf; exact absurd rfl hf
      have htam := tamanio_atender hR
        (show Condicion S.memoria (.frameRequest _ _ operacion ahora) from trivial) hm
      have hpag : obtenerNumeroPagina tamanioPagina dirLogica =
          (S.memoria.nroPagina dirLogica.toNat : ℕ) := by
        obtain ⟨a, rfl⟩ := Int.eq_ofNat_of_zero_le hd
        rw [Int.toNat_natCast, obtenerNumeroPagina_eq, nroPagina_eq, hI.tamanio]
      obtain ⟨⟨marco, h⟩, hreq, hm'⟩ := Option.bind_eq_some_iff.mp hm
      refine ⟨{ S with memoria := m, marco := some marco }, ?_,
        hI.of_memoria hR' hw rfl htam fun f hmarco => ?_, rfl⟩
      · simp only [paso, hctx, Bool.eq_false_iff.mpr hf, hp, Bool.false_eq_true, if_false]
        unfold pedir
        simp only [hpag, Int.toNat_natCast, Int.natCast_nonneg, guard_true, Option.bind_eq_bind, hreq,
          Option.bind_some, hm, Option.pure_def]
      · refine ⟨ctx, hctx, hf', operacion, dirLogica, hp, fun f' hf' => ?_⟩
        obtain rfl := Option.some.inj hmarco
        subst hf'
        obtain rfl := Option.some.inj hm'
        change Function.update S.memoria.traducciones
          (ctx.pid, S.memoria.nroPagina dirLogica.toNat) (some (f', operacion))
          (ctx.pid, (obtenerNumeroPagina h.tamanioPagina dirLogica.toNat).toNat) = _
        rw [show h.tamanioPagina = S.memoria.handler.tamanioPagina from htam]
        exact Function.update_self ..

theorem memoria_sigue (hI : Inv tamanioPagina programa S) {ped : Pedido}
    (hC : Cuidado programa S (.memoria ped)) : SinVerse tamanioPagina programa S (.memoria ped) := by
  obtain ⟨hp, hc, ho⟩ := hC
  obtain ⟨w, hR, hw⟩ := hI.refleja
  obtain ⟨m, hm, hR'⟩ := atender_spec hR hp hc
  have htam := tamanio_atender hR hc hm
  refine ⟨{ S with memoria := m }, by rw [paso, hm]; rfl, hI.of_memoria hR' hw (servirPlana_deOtro ho)
    htam fun f hf => ?_, rfl⟩
  obtain ⟨ctx, hctx, hfe, operacion, dirLogica, hpd, htr⟩ := hI.turno f hf
  refine ⟨ctx, hctx, hfe, operacion, dirLogica, hpd, fun f' hf' => ?_⟩
  have hpid : ctx.pid = S.sistema.pcb.pid := (hI.sistema.adentro ctx hctx).1
  change m.traducciones (ctx.pid, (obtenerNumeroPagina m.handler.tamanioPagina dirLogica.toNat).toNat)
    = _
  rw [htam, hpid, traducciones_atender ho hm, ← hpid]
  exact htr f' hf'

/-- A turn that executes nothing. -/
theorem ciclo_sigue (hI : Inv tamanioPagina programa S) (hpr : ∀ i ∈ programa, deCpu i = true)
    (hC : Cuidado programa S .ciclo) (h : ¬Ejecuta programa S .ciclo) :
    SinVerse tamanioPagina programa S .ciclo := by
  rcases hI.ciclo_eq hpr hC with ⟨hs, -⟩ | ⟨m, w, hR, htam, hpaso, hsinc⟩
  · exact sinVerse_igual hI hs
  · obtain ⟨s', hs', hI', hv⟩ := Transparencia.ciclo_sigue tamanioPagina hpr hI.sistema h
    refine ⟨⟨s', m, none⟩, by rw [hpaso, hs']; rfl, ⟨hI', htam.trans hI.tamanio,
      ⟨w, hR, ?_⟩, fun f hf => by cases hf⟩, hv⟩
    rw [Ejecucion.pid_atender hs']
    exact hsinc s' hs'

/-- A turn that executes an instruction. -/
theorem ciclo_avanza (hI : Inv tamanioPagina programa S) (hpr : ∀ i ∈ programa, deCpu i = true)
    (hC : Permitida programa S .ciclo) (h : Ejecuta programa S .ciclo) :
    (paso tamanioPagina programa S .ciclo).map (vista ·.sistema) =
        (vista S.sistema).paso programa ∧
      ∀ S', paso tamanioPagina programa S .ciclo = some S' → Inv tamanioPagina programa S' := by
  rcases hI.ciclo_eq hpr hC.1 with ⟨-, hno⟩ | ⟨m, w, hR, htam, hpaso, hsinc⟩
  · exact absurd h hno
  · obtain ⟨hav, hI'⟩ := Transparencia.ciclo_avanza tamanioPagina hpr hI.sistema h (hC.2 h)
    rw [hpaso]
    refine ⟨?_, fun S' hS' => ?_⟩
    · rw [← hav, Option.map_map]
      rfl
    · obtain ⟨s', hs', rfl⟩ := Option.map_eq_some_iff.mp hS'
      refine ⟨hI' s' hs', htam.trans hI.tamanio, ⟨w, hR, ?_⟩, fun f hf => by cases hf⟩
      rw [Ejecucion.pid_atender hs']
      exact hsinc s' hs'

theorem Ejecuta.termino (h : Ejecuta programa S a) : (vista S.sistema).termino = false := by
  cases a with
  | ciclo => exact (show Transparencia.Ejecuta programa S.sistema (.ciclo S.nroMarco) from h).termino
  | _ => cases h

theorem sigue (hI : Inv tamanioPagina programa S) (hpr : ∀ i ∈ programa, deCpu i = true)
    (hC : Cuidado programa S a) (h : ¬Ejecuta programa S a) : SinVerse tamanioPagina programa S a := by
  cases a with
  | despacho a => exact despacho_sigue hI hpr a
  | pedirMarco ahora => exact pedirMarco_sigue hI hC
  | ciclo => exact ciclo_sigue hI hpr hC h
  | memoria ped => exact memoria_sigue hI hC

/-- **The computer stutters.** -/
theorem stutters (tamanioPagina : ℕ) (hpr : ∀ i ∈ programa, deCpu i = true) :
    Stutters (paso tamanioPagina programa) (Maquina.paso programa) (vista ·.sistema)
      (Ejecuta programa) (Inv tamanioPagina programa) (Permitida programa) where
  keeps S a S' hI hC hs := by
    by_cases h : Ejecuta programa S a
    · cases a with
      | ciclo => exact (ciclo_avanza hI hpr hC h).2 S' hs
      | _ => cases h
    · obtain ⟨S₁, hs₁, hI₁, -⟩ := sigue hI hpr hC.1 h
      obtain rfl := Option.some.inj (hs.symm.trans hs₁)
      exact hI₁
  moves S a hI hC h := by
    cases a with
    | ciclo => exact (ciclo_avanza hI hpr hC h).1
    | _ => cases h
  stays S a hI hC h := by
    obtain ⟨S', hs, -, hv⟩ := sigue hI hpr hC.1 h
    rw [hs]
    exact congrArg some hv

end

/-! ### Runs -/

section

variable {tamanioMemoria tamanioPagina : ℕ} {algoritmo : Reemplazo} {espacio : Lib.Bytes.Mem}
  {h : Handler} {programa : List Instruccion} {pid : ℤ} {cpu : Globales} {S S' : Equipo}
  {as : List Accion}

/-- A process that is new, and a memory that has served nothing. -/
def arranque (pid : ℤ) (cpu : Globales) (h : Handler) : Equipo :=
  ⟨Despacho.inicial pid cpu fun _ => 0, Memoria.Pedidos.inicial h, none⟩

theorem leer_ceros (a : ℤ) : (⟨fun _ => 0, []⟩ : MemoriaPlana).leer a = 0 := by
  have h : ∀ i, i < 4 → (fun i : ℕ => (0 : UInt8)) (0 + i) = Lib.Bytes.byte 0 i := by decide
  exact Lib.Bytes.leer_of_byte h

theorem inv_arranque (hcrear : createHandlerPaginacion tamanioMemoria tamanioPagina algoritmo espacio =
      some h) (hmarcos : 0 < h.espacioUsuario.cantidadMarcos) (hpid : pid ≠ -1) (cpu : Globales) :
    Inv tamanioPagina programa (arranque pid cpu h) := by
  refine ⟨inv_inicial hpid cpu _, ?_, ⟨fun _ _ => 0, refleja_inicial hcrear hmarcos,
    fun a _ => leer_ceros a⟩, fun f hf => by cases hf⟩
  obtain ⟨e, -, hr⟩ := Option.bind_eq_some_iff.mp hcrear
  obtain rfl := Option.some.inj hr
  rfl

/-- The words of the pages of the process, in their frames or in swap, are those of the machine. -/
def Palabras (tamanioPagina : ℕ) (S : Equipo) : Prop :=
  ∀ a l, EnPalabras tamanioPagina a →
    lugar S.memoria.handler S.sistema.pcb.pid (a / tamanioPagina) = some l →
    palabra S.memoria.handler l (a % tamanioPagina) = (vista S.sistema).memoria.leer a

theorem Inv.palabras (hI : Inv tamanioPagina programa S) : Palabras tamanioPagina S := by
  intro a l ha hl
  obtain ⟨w, hR, hw⟩ := hI.refleja
  have hvista : (vista S.sistema).memoria = S.sistema.memoria := by
    unfold vista
    cases S.sistema.ctx <;> rfl
  rw [hvista, hw a ha]
  have := hR.guarda.palabras S.sistema.pcb.pid l a
  rw [hI.tamanio] at this
  exact this hl ha

/-- Two pages, which take turns in one frame. -/
def dosPaginas : List Instruccion :=
  [.SET 'A' 7, .MOV_OUT 0 'A', .MOV_OUT 4 'A', .MOV_IN 'B' 0, .EXIT]

/-- The page is asked for, loaded in place of the other, and asked for again. -/
def traer (pagina : ℕ) (ahora : ℤ) : List Accion :=
  [.pedirMarco ahora, .ciclo, .despacho .enviarContexto, .memoria (.loadFrame 1 pagina (ahora + 1) [1]),
    .despacho .paginaCargada, .despacho (.cpuExecute 0 none), .pedirMarco (ahora + 2), .ciclo]

/-- The whole program. The quantum ends and another process runs while the first page is loaded. -/
def enUnMarco : List Accion :=
  [.memoria (.newProcess 1 8 [0, 4]), .despacho (.cpuExecute 0 none), .ciclo, .pedirMarco 1,
    .despacho (.interrupcion 1 .QUANTUM), .ciclo, .despacho .enviarContexto,
    .despacho (.otroProceso cpuNueva), .memoria (.loadFrame 1 0 2 [1]), .despacho .paginaCargada,
    .despacho (.cpuExecute 0 none), .pedirMarco 3, .ciclo] ++ traer 1 4 ++ traer 0 7 ++
  [.ciclo, .despacho .enviarContexto]

theorem dosPaginas_acaba :
    Logica.Acaba dosPaginas 0 (Logica.alEmpezar fun _ => 0) fun R _ => R 0 = 7 ∧ R 1 = 7 := by
  refine Lib.Triples.Triple.seq (Logica.Terna.conseq (Logica.Terna.bloques
    [.SET 'A' 7, .MOV_OUT 0 'A', .MOV_OUT 4 'A', .MOV_IN 'B' 0] (by decide) ⟨_, rfl⟩)
    (fun R M _ => ⟨0, rfl, 0, rfl, ?_⟩) fun _ _ h => h) (Logica.Terna.salir rfl)
  have hleer : ((M.escribir 0 7).escribir 4 7).leer 0 = 7 := by
    rw [Logica.leer_escribir_of_disjoint (by decide), Logica.leer_escribir]
  change ((M.escribir 0 7).escribir 4 7).leer 0 ≠ -1 ∧
    (7 : UInt32) = 7 ∧ ((M.escribir 0 7).escribir 4 7).leer 0 = 7
  rw [hleer]
  decide

end

end OperatingSystem.Cpu.Computadora
