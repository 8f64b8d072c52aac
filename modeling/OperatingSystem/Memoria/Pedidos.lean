import OperatingSystem.Memoria.HandlerPaginacion

/-! # The requests that the memory serves (`memoria/src/memoria.c`, `cpu/src/mmu.c`)

The kernel creates processes, ends them and loads pages; the CPU asks for frames and moves words. A
`MOV_IN` or a `MOV_OUT` names a physical address, which the CPU builds from the logical one and the
frame it was told. `Sistema` is the handler with what the clients remember: the last frame they were
told for every page, and the page faults that no load has answered yet. -/

namespace OperatingSystem.Memoria.Pedidos

open OperatingSystem.Lib.Dictionary
open OperatingSystem.Memoria.Paginas OperatingSystem.Memoria.HandlerPaginacion

/-! ### `mmu.c` -/

def obtenerNumeroPagina (tamanioPagina : ℕ) (dirLogica : ℤ) : ℤ := dirLogica.tdiv tamanioPagina

def obtenerDesplazamiento (tamanioPagina : ℕ) (dirLogica : ℤ) : ℤ :=
  dirLogica - obtenerNumeroPagina tamanioPagina dirLogica * tamanioPagina

def traduccionLogicaAFisica (tamanioPagina : ℕ) (dirLogica nroMarco : ℤ) : ℤ :=
  nroMarco * tamanioPagina + obtenerDesplazamiento tamanioPagina dirLogica

theorem obtenerNumeroPagina_eq (t a : ℕ) : obtenerNumeroPagina t a = (a / t : ℕ) := rfl

/-- The physical address is in the frame, at the offset of the logical one. -/
theorem traduccionLogicaAFisica_eq (t a f : ℕ) :
    traduccionLogicaAFisica t a f = (f * t + a % t : ℕ) := by
  have h : ((a / t : ℕ) : ℤ) * t + (a % t : ℕ) = a := by
    have := Nat.div_add_mod' a t
    exact_mod_cast this
  rw [traduccionLogicaAFisica, obtenerDesplazamiento, obtenerNumeroPagina_eq]
  push_cast at h ⊢
  omega

/-! ### `memoria.c` -/

/-- `MEMORY_NEW_PROCESS`; `operaciones_bloqueantes_mutex` is held meanwhile. -/
def allocateNewProcess (h : Handler) (pid : ℤ) (size : ℕ) (posiciones : List ℤ) : Option Handler :=
  if h.operacionesBloqueantes then none else generarTablaPaginas h pid size posiciones

/-- `FRAME_REQUEST`; `operaciones_bloqueantes_mutex` is held meanwhile. -/
def frameRequest (h : Handler) (pid : ℤ) (pagina : ℕ) (operacion : TipoOperacion) (ahora : ℤ) :
    Option (Option ℕ × Handler) :=
  if h.operacionesBloqueantes then none else obtenerMarco h pid pagina operacion ahora

/-! ### Runs -/

/-- The memory and its clients: for each page the last frame that a `FRAME_REQUEST` answered and
what it was for, whether the last answer was a `-1` that no load followed, and the pids given out. -/
structure Sistema where
  handler : Handler
  traducciones : ℤ × ℕ → Option (ℕ × TipoOperacion)
  faltas : ℤ × ℕ → Bool
  pids : List ℤ

def inicial (h : Handler) : Sistema := ⟨h, fun _ => none, fun _ => false, []⟩

inductive Pedido where
  | newProcess (pid : ℤ) (size : ℕ) (posiciones : List ℤ)
  | frameRequest (pid : ℤ) (pagina : ℕ) (operacion : TipoOperacion) (ahora : ℤ)
  | loadFrame (pid : ℤ) (pagina : ℕ) (ahora : ℤ) (orden : List ℤ)
  | movOut (pid : ℤ) (dirLogica : ℕ) (valor : UInt32)
  | movIn (pid : ℤ) (dirLogica : ℕ)
  | exitProcess (pid : ℤ)

/-- The page of a logical address. -/
def Sistema.nroPagina (s : Sistema) (dirLogica : ℕ) : ℕ :=
  (obtenerNumeroPagina s.handler.tamanioPagina dirLogica).toNat

/-- The physical address that the CPU builds. -/
def Sistema.dirFisica (s : Sistema) (pid : ℤ) (dirLogica : ℕ) : Option ℕ :=
  (s.traducciones (pid, s.nroPagina dirLogica)).map fun marco =>
    (traduccionLogicaAFisica s.handler.tamanioPagina dirLogica marco.1).toNat

/-- The answer to a `MOV_IN`. -/
def Sistema.movIn (s : Sistema) (pid : ℤ) (dirLogica : ℕ) : Option UInt32 :=
  (s.dirFisica pid dirLogica).map (leerValor s.handler)

def atender (s : Sistema) : Pedido → Option Sistema
  | .newProcess pid size posiciones => do
    let h ← allocateNewProcess s.handler pid size posiciones
    return { s with handler := h, pids := pid :: s.pids }
  | .frameRequest pid pagina operacion ahora => do
    match ← frameRequest s.handler pid pagina operacion ahora with
    | (some marco, h) =>
      return { s with
        handler := h
        traducciones := Function.update s.traducciones (pid, pagina) (some (marco, operacion)) }
    | (none, h) =>
      return { s with handler := h, faltas := Function.update s.faltas (pid, pagina) true }
  | .loadFrame pid pagina ahora orden => do
    let (_, h) ← cargarEnMemoria s.handler pid pagina ahora orden
    return { s with handler := h, faltas := Function.update s.faltas (pid, pagina) false }
  | .movOut pid dirLogica valor => do
    let dirFisica ← s.dirFisica pid dirLogica
    let h ← escribirValor s.handler dirFisica valor
    return { s with handler := h }
  | .movIn pid dirLogica => (s.movIn pid dirLogica).map fun _ => s
  | .exitProcess pid => do
    let h ← removerProceso s.handler pid
    return { s with handler := h }

end OperatingSystem.Memoria.Pedidos
