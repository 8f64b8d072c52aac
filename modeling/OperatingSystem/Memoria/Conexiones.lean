import OperatingSystem.Memoria.Marcos
import OperatingSystem.Memoria.Pedidos

/-! # Three connections to the memory (`memoria/src/memoria.c`)

The CPU asks for a frame and then moves a word, or gives the address to the file system, which moves a
page of words; meanwhile the kernel loads pages and ends processes. A step is one section between a lock
and its unlock: the load of a page is one, a word that is moved is one, and a process that ends goes
frame by frame (`exec_liberar`).

`ocupante` is the page that was brought into a frame last. An address told and not used yet is `Vigente`
if the page it was told for is the one in its frame. `vigentes_iff` is when a step keeps the addresses
so, and `accesos_vigentes` that in a run of such steps every access finds its page. -/

namespace OperatingSystem.Memoria.Conexiones

open OperatingSystem.Lib.Bytes OperatingSystem.Lib.Dictionary OperatingSystem.Lib.Run
open OperatingSystem.Memoria.Paginas OperatingSystem.Memoria.HandlerPaginacion
open OperatingSystem.Memoria.Lugares OperatingSystem.Memoria.Marcos OperatingSystem.Memoria.Pedidos

/-! ### The clients -/

/-- An address that the CPU translated. -/
structure Direccion where
  pid : ℤ
  nroPagina : ℕ
  dirFisica : ℕ

/-- What the thread of the CPU is at: between two instructions, before the use of an address, or between
the two sections of a `MOV_OUT`. -/
inductive Cpu where
  | libre
  | traducida (dir : Direccion) (op : TipoOperacion)
  | escrita (dirFisica : ℕ)

/-- A `MEMORY_READ` or `MEMORY_WRITE` that is served, with the words moved so far. -/
structure Transferencia where
  dir : Direccion
  op : TipoOperacion
  palabras : ℕ

/-- The memory, its clients, the page up to which each process that ends has freed its frames, and the
page that was brought into each frame last. -/
structure Estado where
  handler : Handler
  cpu : Cpu
  cedidas : List (Direccion × TipoOperacion)
  filesystem : Option Transferencia
  saliendo : ℤ → Option ℕ
  ocupante : ℕ → Option (ℤ × ℕ)

def inicial (h : Handler) : Estado := ⟨h, .libre, [], none, fun _ => none, fun _ => none⟩

inductive Accion where
  | newProcess (pid : ℤ) (size : ℕ) (posiciones : List ℤ)
  | loadFrame (pid : ℤ) (pagina : ℕ) (ahora : ℤ) (orden : List ℤ)
  | exitProcess (pid : ℤ)
  | liberar (pid : ℤ)
  | frameRequest (pid : ℤ) (dirLogica : ℕ) (operacion : TipoOperacion) (ahora : ℤ)
  | movIn
  | movOut (valor : UInt32)
  | marcar
  | ceder
  | tomar (n : ℕ)
  | memoryRead
  | memoryWrite (valor : UInt32)

/-! ### The sections -/

/-- `espacio_escribir_valor` -/
def escribirPalabra (h : Handler) (dirFisica : ℕ) (valor : UInt32) : Handler :=
  setEspacio h (espacioEscribirValor h.espacioUsuario dirFisica valor)

/-- What `escribir_valor` does after the write. -/
def marcarEscrita (h : Handler) (dirFisica : ℕ) : Option Handler := do
  let marco := espacioObtenerFrame h.espacioUsuario dirFisica
  let (pagina, pendientes) ← encontrarPaginaAModificar h marco h.paginasPendientesModificacion
  marcarModificada { h with paginasPendientesModificacion := pendientes } pagina

theorem escribirValor_eq (h : Handler) (dirFisica : ℕ) (valor : UInt32) :
    escribirValor h dirFisica valor = marcarEscrita (escribirPalabra h dirFisica valor) dirFisica :=
  rfl

/-- The page of a logical address. -/
def nroPaginaDe (h : Handler) (dirLogica : ℕ) : ℕ :=
  (obtenerNumeroPagina h.tamanioPagina dirLogica).toNat

/-- The address that the CPU builds from the frame it was told. -/
def traducir (h : Handler) (pid : ℤ) (dirLogica marco : ℕ) : Direccion :=
  ⟨pid, nroPaginaDe h dirLogica, (traduccionLogicaAFisica h.tamanioPagina dirLogica marco).toNat⟩

/-- A transfer moves the words of one page. -/
def seguir (h : Handler) (t : Transferencia) : Option Transferencia :=
  if t.palabras < h.tamanioPagina / 4 then some t else none

/-- One page of `remover_proceso`, or after the last one the removal of the table. -/
def liberarPagina (h : Handler) (pid : ℤ) (i : ℕ) : Option (Handler × Option ℕ) := do
  let tabla ← h.pidTablas.get pid
  match tabla.paginas[i]? with
  | some pagina =>
    let h := if paginaEstaEnMemoria pagina then
        setEspacio h (liberarFrame h.espacioUsuario pagina.nroFrame)
      else h
    return (h, some (i + 1))
  | none => return ({ h with pidTablas := h.pidTablas.remove pid }, none)

def paso (s : Estado) : Accion → Option Estado
  | .newProcess pid size posiciones => do
    let h ← allocateNewProcess s.handler pid size posiciones
    return { s with handler := h }
  | .loadFrame pid pagina ahora orden => do
    let (marco, h) ← cargarEnMemoria s.handler pid pagina ahora orden
    let ocupante := match marco with
      | some marco => Function.update s.ocupante marco (some (pid, pagina))
      | none => s.ocupante
    return { s with handler := h, ocupante := ocupante }
  | .exitProcess pid =>
    if (s.handler.pidTablas.get pid).isSome ∧ s.saliendo pid = none then
      some { s with saliendo := Function.update s.saliendo pid (some 0) }
    else none
  | .liberar pid => do
    let i ← s.saliendo pid
    let (h, i) ← liberarPagina s.handler pid i
    return { s with handler := h, saliendo := Function.update s.saliendo pid i }
  | .frameRequest pid dirLogica operacion ahora =>
    match s.cpu with
    | .libre => do
      match ← frameRequest s.handler pid (nroPaginaDe s.handler dirLogica) operacion ahora with
      | (some marco, h) =>
        return { s with handler := h, cpu := .traducida (traducir h pid dirLogica marco) operacion }
      | (none, h) => return { s with handler := h }
    | _ => none
  | .movIn =>
    match s.cpu with
    | .traducida _ .LEER => some { s with cpu := .libre }
    | _ => none
  | .movOut valor =>
    match s.cpu with
    | .traducida dir .ESCRIBIR =>
      some { s with
        handler := escribirPalabra s.handler dir.dirFisica valor
        cpu := .escrita dir.dirFisica }
    | _ => none
  | .marcar =>
    match s.cpu with
    | .escrita dirFisica => do
      let h ← marcarEscrita s.handler dirFisica
      return { s with handler := h, cpu := .libre }
    | _ => none
  | .ceder =>
    match s.cpu with
    | .traducida dir op => some { s with cpu := .libre, cedidas := s.cedidas ++ [(dir, op)] }
    | _ => none
  | .tomar n =>
    match s.filesystem with
    | none => do
      let (dir, op) ← s.cedidas[n]?
      return { s with cedidas := s.cedidas.eraseIdx n, filesystem := seguir s.handler ⟨dir, op, 0⟩ }
    | some _ => none
  | .memoryRead =>
    match s.filesystem with
    | some ⟨dir, .ESCRIBIR, n⟩ =>
      some { s with filesystem := seguir s.handler ⟨dir, .ESCRIBIR, n + 1⟩ }
    | _ => none
  | .memoryWrite valor =>
    match s.filesystem with
    | some ⟨dir, .LEER, n⟩ =>
      some { s with
        handler := escribirPalabra s.handler (dir.dirFisica + 4 * n) valor
        filesystem := seguir s.handler ⟨dir, .LEER, n + 1⟩ }
    | _ => none

/-! ### What is promised -/

/-- The addresses told and not used up. -/
def Estado.direcciones (s : Estado) : List Direccion :=
  (match s.cpu with
    | .traducida dir _ => [dir]
    | _ => []) ++ s.cedidas.map Prod.fst ++ (s.filesystem.map Transferencia.dir).toList

/-- The page that the address was told for is the one in its frame. -/
def Vigente (s : Estado) (dir : Direccion) : Prop :=
  s.ocupante (dir.dirFisica / s.handler.tamanioPagina) = some (dir.pid, dir.nroPagina)

/-- The address that a step reads or writes at. -/
def acceso (s : Estado) : Accion → Option Direccion
  | .movIn | .movOut _ =>
    match s.cpu with
    | .traducida dir _ => some dir
    | _ => none
  | .memoryRead | .memoryWrite _ => s.filesystem.map Transferencia.dir
  | _ => none

/-- **A translated address is still valid when it is used.** -/
def Valida (s : Estado) (a : Accion) : Prop := ∀ dir ∈ acceso s a, Vigente s dir

/-- The kernel loads pages of processes, and ends processes, that have no address to use. -/
def Protocolo (s : Estado) : Accion → Prop
  | .loadFrame pid _ _ _ | .exitProcess pid => ∀ dir ∈ s.direcciones, dir.pid ≠ pid
  | .frameRequest pid _ _ _ => s.saliendo pid = none
  | _ => True

/-- The frame that a load takes. -/
def marcoATomar (h : Handler) (orden : List ℤ) : Option ℕ :=
  match obtenerFrameLibre h.espacioUsuario with
  | some marco => some marco
  | none => (paginaAReemplazar h orden).join.map Pagina.nroFrame

/-- No load takes the frame of an address told and not used up, and the pages that a frame is told for
were not replaced since they came in. -/
def Condicion (s : Estado) : Accion → Prop
  | .loadFrame pid _ _ orden => (s.handler.pidTablas.get pid).isSome →
      ∀ marco ∈ marcoATomar s.handler orden, ∀ dir ∈ s.direcciones,
        dir.dirFisica / s.handler.tamanioPagina ≠ marco
  | .frameRequest pid dirLogica _ _ => ∀ pag ∈ pagina s.handler pid (nroPaginaDe s.handler dirLogica),
      pag.bitPresencia = 1 →
        s.ocupante pag.nroFrame = some (pid, nroPaginaDe s.handler dirLogica)
  | _ => True

instance (s : Estado) (dir : Direccion) : Decidable (Vigente s dir) :=
  inferInstanceAs (Decidable (_ = some (dir.pid, dir.nroPagina)))

instance (s : Estado) (a : Accion) : Decidable (Valida s a) :=
  inferInstanceAs (Decidable (∀ dir ∈ acceso s a, Vigente s dir))

instance (s : Estado) : ∀ a, Decidable (Protocolo s a)
  | .loadFrame pid _ _ _ | .exitProcess pid =>
    inferInstanceAs (Decidable (∀ dir ∈ s.direcciones, dir.pid ≠ pid))
  | .frameRequest pid _ _ _ => inferInstanceAs (Decidable (s.saliendo pid = none))
  | .newProcess .. | .liberar _ | .movIn | .movOut _ | .marcar | .ceder | .tomar _ | .memoryRead
  | .memoryWrite _ => isTrue trivial

instance (s : Estado) : ∀ a, Decidable (Condicion s a)
  | .loadFrame pid _ _ orden =>
    inferInstanceAs (Decidable ((s.handler.pidTablas.get pid).isSome →
      ∀ marco ∈ marcoATomar s.handler orden, ∀ dir ∈ s.direcciones,
        dir.dirFisica / s.handler.tamanioPagina ≠ marco))
  | .frameRequest pid dirLogica _ _ =>
    inferInstanceAs (Decidable (∀ pag ∈ pagina s.handler pid (nroPaginaDe s.handler dirLogica),
      pag.bitPresencia = 1 →
        s.ocupante pag.nroFrame = some (pid, nroPaginaDe s.handler dirLogica)))
  | .newProcess .. | .exitProcess _ | .liberar _ | .movIn | .movOut _ | .marcar | .ceder | .tomar _
  | .memoryRead | .memoryWrite _ => isTrue trivial

variable {h h' : Handler} {s s' : Estado} {a : Accion} {p : ℤ} {i : ℕ}

/-! ### Processes that end -/

/-- The sections of the end of a process, with none in between: its frames are free, and it has no
table. -/
theorem exec_liberar {tabla : TablaPaginas} : ∀ (ps : List Pagina) (i : ℕ) (s : Estado),
    s.handler.pidTablas.get p = some tabla → tabla.paginas.drop i = ps → s.saliendo p = some i →
    exec paso s (List.replicate (ps.length + 1) (.liberar p)) = some { s with
      handler := { setEspacio s.handler (liberarMarcos ps s.handler.espacioUsuario) with
        pidTablas := s.handler.pidTablas.remove p }
      saliendo := Function.update s.saliendo p none }
  | [], i, s, ht, hps, hi => by
    have hnone : tabla.paginas[i]? = none := by
      rw [List.getElem?_eq_none_iff]
      exact List.drop_eq_nil_iff.mp hps
    simp only [List.length_nil, Nat.zero_add, List.replicate_one, exec_cons, exec_nil, paso, hi,
      liberarPagina, ht, hnone, Option.bind_eq_bind, Option.bind_some, Option.pure_def]
    rfl
  | pag :: ps, i, s, ht, hps, hi => by
    have hlt : i < tabla.paginas.length := by
      by_contra hge
      rw [List.drop_eq_nil_of_le (not_lt.mp hge)] at hps
      exact absurd hps (by simp)
    rw [List.drop_eq_getElem_cons hlt] at hps
    obtain ⟨hpag, hps⟩ := List.cons.inj hps
    have hget : tabla.paginas[i]? = some pag := by rw [List.getElem?_eq_getElem hlt, hpag]
    rw [List.length_cons, List.replicate_succ, exec_cons]
    have hpaso : paso s (.liberar p) = some { s with
        handler := setEspacio s.handler (if paginaEstaEnMemoria pag then
          liberarFrame s.handler.espacioUsuario pag.nroFrame else s.handler.espacioUsuario)
        saliendo := Function.update s.saliendo p (some (i + 1)) } := by
      simp only [paso, hi, liberarPagina, ht, hget, Option.bind_eq_bind, Option.bind_some,
        Option.pure_def]
      split_ifs <;> rfl
    have ih := exec_liberar ps (i + 1) { s with
        handler := setEspacio s.handler (if paginaEstaEnMemoria pag then
          liberarFrame s.handler.espacioUsuario pag.nroFrame else s.handler.espacioUsuario)
        saliendo := Function.update s.saliendo p (some (i + 1)) } ht hps (Function.update_self ..)
    simp only [Function.update_idem] at ih
    rw [hpaso, Option.bind_some, ih]
    rfl

/-- **`remover_proceso`** is its sections. -/
theorem exec_exitProcess {tabla : TablaPaginas} (ht : s.handler.pidTablas.get p = some tabla)
    (hno : s.saliendo p = none) (hr : removerProceso s.handler p = some h') :
    exec paso s (.exitProcess p :: List.replicate (tabla.paginas.length + 1) (.liberar p)) =
      some { s with handler := h' } := by
  have hexit : paso s (.exitProcess p) =
      some { s with saliendo := Function.update s.saliendo p (some 0) } := by
    rw [paso, if_pos ⟨by rw [ht]; rfl, hno⟩]
  have hlib := exec_liberar tabla.paginas 0
    { s with saliendo := Function.update s.saliendo p (some 0) } ht rfl (Function.update_self ..)
  have hfin : Function.update s.saliendo p none = s.saliendo := by rw [← hno, Function.update_eq_self]
  simp only [Function.update_idem, hfin] at hlib
  rw [exec_cons, hexit, Option.bind_some, hlib]
  rw [removerProceso, ht] at hr
  obtain rfl := Option.some.inj hr
  rfl

/-! ### One section -/

/-- A load answers the frame that it takes. -/
theorem cargarEnMemoria_marco {ahora : ℤ} {orden : List ℤ} {r : Option ℕ × Handler}
    (hr : cargarEnMemoria h p i ahora orden = some r) : r.2.tamanioPagina = h.tamanioPagina ∧
      r.1 = if (h.pidTablas.get p).isSome then marcoATomar h orden else none := by
  have halojar : ∀ {h₁ : Handler} {f : ℕ}, alojar h₁ p i f ahora = some r →
      r.1 = some f ∧ r.2.tamanioPagina = h₁.tamanioPagina := by
    intro h₁ f ha
    obtain ⟨l, h', rfl, -, -, -, -, htam, -⟩ := alojar_inv ha
    exact ⟨rfl, htam⟩
  cases ht : h.pidTablas.get p with
  | none =>
    rw [cargarEnMemoria, ht] at hr
    obtain rfl := Option.some.inj hr
    exact ⟨rfl, rfl⟩
  | some tabla =>
    rw [cargarEnMemoria, ht] at hr
    simp only at hr
    split_ifs at hr
    rw [Option.isSome_some, if_pos rfl, marcoATomar]
    cases hf : obtenerFrameLibre h.espacioUsuario with
    | some f =>
      rw [hf] at hr
      obtain ⟨h1, h2⟩ := halojar hr
      exact ⟨h2, h1⟩
    | none =>
      rw [hf] at hr
      obtain ⟨⟨v, h₁⟩, hrem, hr⟩ := Option.bind_eq_some_iff.mp hr
      obtain ⟨v', hv, hrem⟩ := Option.bind_eq_some_iff.mp hrem
      cases v' with
      | none =>
        obtain ⟨rfl, rfl⟩ := Prod.mk.inj (Option.some.inj hrem)
        obtain rfl := Option.some.inj hr
        exact ⟨rfl, by rw [hv]; rfl⟩
      | some pag =>
        -- the victim is what the code answers, modified or not
        have hvictima : v = some pag ∧ h₁.tamanioPagina = h.tamanioPagina := by
          simp only at hrem
          split_ifs at hrem
          · obtain ⟨tabla', -, hrem⟩ := Option.bind_eq_some_iff.mp hrem
            obtain ⟨tabla'', -, hrem⟩ := Option.bind_eq_some_iff.mp hrem
            obtain ⟨h₂, hs, hrem⟩ := Option.bind_eq_some_iff.mp hrem
            obtain ⟨rfl, rfl⟩ := Prod.mk.inj (Option.some.inj hrem)
            obtain ⟨pag', -, hs⟩ := Option.bind_eq_some_iff.mp hs
            simp only at hs
            split_ifs at hs
            obtain rfl := Option.some.inj hs
            exact ⟨rfl, rfl⟩
          · obtain ⟨rfl, rfl⟩ := Prod.mk.inj (Option.some.inj hrem)
            exact ⟨rfl, rfl⟩
        obtain ⟨rfl, htam⟩ := hvictima
        obtain ⟨h1, h2⟩ := halojar hr
        exact ⟨h2.trans htam, by rw [h1, hv]; rfl⟩

theorem marcarEscrita_tamanioPagina {dirFisica : ℕ} (hr : marcarEscrita h dirFisica = some h') :
    h'.tamanioPagina = h.tamanioPagina := by
  obtain ⟨⟨r, ps⟩, -, hr⟩ := Option.bind_eq_some_iff.mp hr
  cases r with
  | none =>
    obtain rfl := Option.some.inj hr
    rfl
  | some ptr =>
    obtain ⟨tabla, -, hr⟩ := Option.bind_eq_some_iff.mp hr
    obtain ⟨tabla', -, hr⟩ := Option.bind_eq_some_iff.mp hr
    obtain rfl := Option.some.inj hr
    rfl

theorem liberarPagina_tamanioPagina {r : Handler × Option ℕ}
    (hr : liberarPagina h p i = some r) : r.1.tamanioPagina = h.tamanioPagina := by
  obtain ⟨tabla, -, hr⟩ := Option.bind_eq_some_iff.mp hr
  cases hi : tabla.paginas[i]? with
  | none =>
    rw [hi] at hr
    obtain rfl := Option.some.inj hr
    rfl
  | some pag =>
    rw [hi] at hr
    obtain rfl := Option.some.inj hr
    simp only
    split_ifs <;> rfl

theorem mem_direcciones {dir : Direccion} : dir ∈ s.direcciones ↔
    (∃ op, s.cpu = .traducida dir op) ∨ (∃ op, (dir, op) ∈ s.cedidas) ∨
      ∃ t, s.filesystem = some t ∧ t.dir = dir := by
  unfold Estado.direcciones
  rw [List.mem_append, List.mem_append, or_assoc]
  refine or_congr ?_ (or_congr ?_ ?_)
  · cases s.cpu with
    | libre => simp
    | traducida dir' op => simp [eq_comm]
    | escrita d => simp
  · simp
  · simp

/-- A transfer goes on with its address, or ends. -/
theorem seguir_eq_some {t t' : Transferencia} (hs : seguir h t = some t') : t' = t := by
  unfold seguir at hs
  split_ifs at hs
  exact (Option.some.inj hs).symm

/-- Every address told and not used up is valid. -/
def Vigentes (s : Estado) : Prop := ∀ dir ∈ s.direcciones, Vigente s dir

/-- A step after which there are no other addresses, and the pages are in their frames. -/
theorem Vigentes.of_subset (hV : Vigentes s)
    (htam : s'.handler.tamanioPagina = s.handler.tamanioPagina) (hoc : s'.ocupante = s.ocupante)
    (hsub : ∀ dir ∈ s'.direcciones, dir ∈ s.direcciones) : Vigentes s' := by
  intro dir hdir
  unfold Vigente
  rw [htam, hoc]
  exact hV dir (hsub dir hdir)

/-- The frame of an address is the one it was built from. -/
theorem dirFisica_div (hpos : 0 < h.tamanioPagina) (dirLogica marco : ℕ) :
    (traducir h p dirLogica marco).dirFisica / h.tamanioPagina = marco := by
  rw [traducir, traduccionLogicaAFisica_eq, Int.toNat_natCast, Nat.mul_comm,
    Nat.mul_add_div hpos, Nat.div_eq_of_lt (Nat.mod_lt _ hpos), Nat.add_zero]

theorem vigentes_loadFrame {ahora : ℤ} {orden : List ℤ} (hV : Vigentes s)
    (hc : Condicion s (.loadFrame p i ahora orden))
    (hs : paso s (.loadFrame p i ahora orden) = some s') : Vigentes s' := by
  obtain ⟨⟨marco, h⟩, hr, hs⟩ := Option.bind_eq_some_iff.mp hs
  obtain rfl := Option.some.inj hs
  obtain ⟨htam, hmarco⟩ := cargarEnMemoria_marco hr
  change h.tamanioPagina = s.handler.tamanioPagina at htam
  cases marco with
  | none => exact hV.of_subset htam rfl fun _ hdir => hdir
  | some f =>
    intro dir hdir
    have htabla : (s.handler.pidTablas.get p).isSome := by
      by_contra hno
      rw [if_neg hno] at hmarco
      exact absurd hmarco (by simp)
    rw [if_pos htabla] at hmarco
    have hne := hc htabla f hmarco.symm dir hdir
    unfold Vigente
    change Function.update s.ocupante f (some (p, i)) (dir.dirFisica / h.tamanioPagina) = _
    rw [htam, Function.update_of_ne hne]
    exact hV dir hdir

/-- What a load takes was not told to anyone, if the addresses are valid after it. -/
theorem condicion_loadFrame {ahora : ℤ} {orden : List ℤ} (hV : Vigentes s')
    (hp : Protocolo s (.loadFrame p i ahora orden))
    (hs : paso s (.loadFrame p i ahora orden) = some s') :
    Condicion s (.loadFrame p i ahora orden) := by
  obtain ⟨⟨marco, h⟩, hr, hs⟩ := Option.bind_eq_some_iff.mp hs
  obtain rfl := Option.some.inj hs
  obtain ⟨htam, hmarco⟩ := cargarEnMemoria_marco hr
  change h.tamanioPagina = s.handler.tamanioPagina at htam
  intro htabla f hf dir hdir heq
  rw [if_pos htabla, Option.mem_def.mp hf] at hmarco
  obtain rfl : marco = some f := hmarco
  have hdir' : Vigente _ dir := hV dir hdir
  unfold Vigente at hdir'
  change Function.update s.ocupante f (some (p, i)) (dir.dirFisica / h.tamanioPagina) = _ at hdir'
  rw [htam, heq, Function.update_self] at hdir'
  exact hp dir hdir (Prod.mk.inj (Option.some.inj hdir')).1.symm

/-- What a `FRAME_REQUEST` answers is the frame of the entry of the page. -/
theorem paso_frameRequest {dirLogica : ℕ} {op : TipoOperacion} {ahora : ℤ}
    (hs : paso s (.frameRequest p dirLogica op ahora) = some s') :
    s.cpu = .libre ∧ s'.handler.tamanioPagina = s.handler.tamanioPagina ∧
      s'.ocupante = s.ocupante ∧ s'.cedidas = s.cedidas ∧ s'.filesystem = s.filesystem ∧
      ((s'.cpu = .libre ∧ ∀ pag ∈ pagina s.handler p (nroPaginaDe s.handler dirLogica),
          pag.bitPresencia ≠ 1) ∨
        ∃ pag, pagina s.handler p (nroPaginaDe s.handler dirLogica) = some pag ∧
          pag.bitPresencia = 1 ∧
          s'.cpu = .traducida (traducir s.handler p dirLogica pag.nroFrame) op) := by
  unfold paso at hs
  cases hcpu : s.cpu with
  | libre =>
    rw [hcpu] at hs
    obtain ⟨⟨r, h⟩, hreq, hs⟩ := Option.bind_eq_some_iff.mp hs
    unfold frameRequest at hreq
    split_ifs at hreq
    obtain ⟨hig, hsi, hno⟩ := obtenerMarco_spec hreq
    have htam : h.tamanioPagina = s.handler.tamanioPagina := hig.tamanioPagina
    cases r with
    | some f =>
      obtain rfl := Option.some.inj hs
      obtain ⟨l, hl, hpres, rfl⟩ := hsi f rfl
      obtain ⟨pag, hpag, rfl⟩ := lugar_eq_some.mp hl
      refine ⟨rfl, htam, rfl, rfl, rfl, Or.inr ⟨pag, hpag, hpres, ?_⟩⟩
      simp only [traducir, nroPaginaDe, htam]
      rfl
    | none =>
      obtain rfl := Option.some.inj hs
      exact ⟨rfl, htam, rfl, rfl, rfl, Or.inl ⟨rfl, fun pag hpag =>
        hno rfl (lugarDe pag) (lugar_eq_some.mpr ⟨pag, hpag, rfl⟩)⟩⟩
  | traducida dir op' =>
    rw [hcpu] at hs
    simp at hs
  | escrita d =>
    rw [hcpu] at hs
    simp at hs

theorem vigentes_frameRequest {dirLogica : ℕ} {op : TipoOperacion} {ahora : ℤ}
    (hpos : 0 < s.handler.tamanioPagina) (hV : Vigentes s)
    (hc : Condicion s (.frameRequest p dirLogica op ahora))
    (hs : paso s (.frameRequest p dirLogica op ahora) = some s') : Vigentes s' := by
  obtain ⟨hcpu, htam, hoc, hced, hfs, hr⟩ := paso_frameRequest hs
  intro dir hdir
  rw [mem_direcciones, hced, hfs] at hdir
  rcases hdir with ⟨op', hop⟩ | hdir
  · rcases hr with ⟨hlibre, -⟩ | ⟨pag, hpag, hpres, hcpu'⟩
    · rw [hlibre] at hop
      exact absurd hop (by simp)
    · rw [hcpu'] at hop
      obtain ⟨rfl, -⟩ := Cpu.traducida.inj hop
      unfold Vigente
      rw [htam, hoc, dirFisica_div hpos]
      exact hc pag hpag hpres
  · unfold Vigente
    rw [htam, hoc]
    exact hV dir (mem_direcciones.mpr (Or.inr hdir))

/-- The page of an address just told is in its frame, if the addresses are valid. -/
theorem condicion_frameRequest {dirLogica : ℕ} {op : TipoOperacion} {ahora : ℤ}
    (hpos : 0 < s.handler.tamanioPagina) (hV : Vigentes s')
    (hs : paso s (.frameRequest p dirLogica op ahora) = some s') :
    Condicion s (.frameRequest p dirLogica op ahora) := by
  obtain ⟨-, htam, hoc, -, -, hr⟩ := paso_frameRequest hs
  intro pag hpag hpres
  rcases hr with ⟨-, hno⟩ | ⟨pag', hpag', -, hcpu'⟩
  · exact absurd hpres (hno pag hpag)
  · obtain rfl := Option.some.inj ((Option.mem_def.mp hpag).symm.trans hpag')
    have hdir := hV _ (mem_direcciones.mpr (Or.inl ⟨op, hcpu'⟩))
    unfold Vigente at hdir
    rw [htam, hoc, dirFisica_div hpos] at hdir
    exact hdir

/-- The CPU used its address. -/
theorem mem_of_cpu_ne {dir : Direccion} (hced : s'.cedidas = s.cedidas)
    (hfs : s'.filesystem = s.filesystem) (hcpu : ∀ dir op, s'.cpu ≠ .traducida dir op)
    (hdir : dir ∈ s'.direcciones) : dir ∈ s.direcciones := by
  rw [mem_direcciones, hced, hfs] at hdir
  rw [mem_direcciones]
  exact Or.inr (hdir.resolve_left fun ⟨op, hop⟩ => hcpu dir op hop)

/-- The file system moved a word. -/
theorem mem_of_seguir {dir : Direccion} {t : Transferencia} {n : ℕ} (hcpu : s'.cpu = s.cpu)
    (hced : s'.cedidas = s.cedidas) (hfs : s.filesystem = some t)
    (hfs' : s'.filesystem = seguir h { t with palabras := n }) (hdir : dir ∈ s'.direcciones) :
    dir ∈ s.direcciones := by
  rw [mem_direcciones, hcpu, hced] at hdir
  rw [mem_direcciones]
  refine hdir.imp_right (Or.imp_right ?_)
  rintro ⟨t', ht, rfl⟩
  rw [seguir_eq_some (hfs'.symm.trans ht)]
  exact ⟨t, hfs, rfl⟩

/-- The sections that bring in no page and translate no address. -/
def Tranquila : Accion → Prop
  | .loadFrame .. | .frameRequest .. => False
  | _ => True

/-- They tell no address, and change no frame's page. -/
theorem paso_tranquila (ha : Tranquila a) (hs : paso s a = some s') :
    s'.handler.tamanioPagina = s.handler.tamanioPagina ∧ s'.ocupante = s.ocupante ∧
      ∀ dir ∈ s'.direcciones, dir ∈ s.direcciones := by
  cases a with
  | loadFrame pid pagina ahora orden => exact ha.elim
  | frameRequest pid dirLogica op ahora => exact ha.elim
  | newProcess pid size posiciones =>
    obtain ⟨h, hg, hs⟩ := Option.bind_eq_some_iff.mp hs
    obtain rfl := Option.some.inj hs
    unfold allocateNewProcess at hg
    split_ifs at hg
    obtain ⟨-, -, -, htam, -⟩ := generarTablaPaginas_spec hg
    exact ⟨htam, rfl, fun _ hdir => hdir⟩
  | exitProcess pid =>
    rw [paso] at hs
    split_ifs at hs
    obtain rfl := Option.some.inj hs
    exact ⟨rfl, rfl, fun _ hdir => hdir⟩
  | liberar pid =>
    obtain ⟨i, -, hs⟩ := Option.bind_eq_some_iff.mp hs
    obtain ⟨r, hr, hs⟩ := Option.bind_eq_some_iff.mp hs
    obtain rfl := Option.some.inj hs
    exact ⟨liberarPagina_tamanioPagina hr, rfl, fun _ hdir => hdir⟩
  | movIn =>
    rw [paso] at hs
    split at hs
    · obtain rfl := Option.some.inj hs
      exact ⟨rfl, rfl, fun _ => mem_of_cpu_ne rfl rfl (by simp)⟩
    · simp at hs
  | movOut valor =>
    rw [paso] at hs
    split at hs
    · obtain rfl := Option.some.inj hs
      exact ⟨rfl, rfl, fun _ => mem_of_cpu_ne rfl rfl (by simp)⟩
    · simp at hs
  | marcar =>
    rw [paso] at hs
    split at hs
    · obtain ⟨h, hm, hs⟩ := Option.bind_eq_some_iff.mp hs
      obtain rfl := Option.some.inj hs
      exact ⟨marcarEscrita_tamanioPagina hm, rfl, fun _ => mem_of_cpu_ne rfl rfl (by simp)⟩
    · simp at hs
  | ceder =>
    rw [paso] at hs
    split at hs
    · rename_i dir op hcpu
      obtain rfl := Option.some.inj hs
      refine ⟨rfl, rfl, fun dir' hdir => ?_⟩
      rw [mem_direcciones] at hdir ⊢
      rcases hdir with ⟨op', hop⟩ | ⟨op', hop⟩ | hfs
      · exact absurd hop (by simp)
      · -- the address goes from the CPU to the file system
        rcases List.mem_append.mp hop with hop | hop
        · exact Or.inr (Or.inl ⟨op', hop⟩)
        · obtain ⟨rfl, -⟩ := Prod.mk.inj (List.mem_singleton.mp hop)
          exact Or.inl ⟨op, hcpu⟩
      · exact Or.inr (Or.inr hfs)
    · simp at hs
  | tomar n =>
    rw [paso] at hs
    split at hs
    · obtain ⟨⟨dir, op⟩, hn, hs⟩ := Option.bind_eq_some_iff.mp hs
      obtain rfl := Option.some.inj hs
      refine ⟨rfl, rfl, fun dir' hdir => ?_⟩
      rw [mem_direcciones] at hdir ⊢
      rcases hdir with hcpu | ⟨op', hop⟩ | ⟨t, ht, rfl⟩
      · exact Or.inl hcpu
      · exact Or.inr (Or.inl ⟨op', List.mem_of_mem_eraseIdx hop⟩)
      · rw [seguir_eq_some ht]
        exact Or.inr (Or.inl ⟨op, List.mem_of_getElem? hn⟩)
    · simp at hs
  | memoryRead =>
    rw [paso] at hs
    split at hs
    · rename_i dir n hfs
      obtain rfl := Option.some.inj hs
      exact ⟨rfl, rfl, fun _ => mem_of_seguir rfl rfl hfs rfl⟩
    · simp at hs
  | memoryWrite valor =>
    rw [paso] at hs
    split at hs
    · rename_i dir n hfs
      obtain rfl := Option.some.inj hs
      exact ⟨rfl, rfl, fun _ => mem_of_seguir rfl rfl hfs rfl⟩
    · simp at hs

/-- **One section.** -/
theorem vigentes_paso (hpos : 0 < s.handler.tamanioPagina) (hV : Vigentes s) (hc : Condicion s a)
    (hs : paso s a = some s') : 0 < s'.handler.tamanioPagina ∧ Vigentes s' := by
  have htranquila : Tranquila a → 0 < s'.handler.tamanioPagina ∧ Vigentes s' := fun ha => by
    obtain ⟨htam, hoc, hsub⟩ := paso_tranquila ha hs
    exact ⟨by rw [htam]; exact hpos, hV.of_subset htam hoc hsub⟩
  cases a with
  | loadFrame pid pagina ahora orden =>
    refine ⟨?_, vigentes_loadFrame hV hc hs⟩
    obtain ⟨r, hr, hs⟩ := Option.bind_eq_some_iff.mp hs
    obtain rfl := Option.some.inj hs
    change 0 < r.2.tamanioPagina
    rw [(cargarEnMemoria_marco hr).1]
    exact hpos
  | frameRequest pid dirLogica op ahora =>
    exact ⟨by rw [(paso_frameRequest hs).2.1]; exact hpos, vigentes_frameRequest hpos hV hc hs⟩
  | _ => exact htranquila trivial

/-- **When a section keeps the addresses valid.** -/
theorem vigentes_iff (hpos : 0 < s.handler.tamanioPagina) (hV : Vigentes s) (hp : Protocolo s a)
    (hs : paso s a = some s') : Vigentes s' ↔ Condicion s a := by
  refine ⟨fun hV' => ?_, fun hc => (vigentes_paso hpos hV hc hs).2⟩
  cases a with
  | loadFrame pid pagina ahora orden => exact condicion_loadFrame hV' hp hs
  | frameRequest pid dirLogica op ahora => exact condicion_frameRequest hpos hV' hs
  | _ => trivial

theorem acceso_mem {dir : Direccion} (ha : dir ∈ acceso s a) : dir ∈ s.direcciones := by
  rw [mem_direcciones]
  have hcpu : (match s.cpu with
      | .traducida dir _ => some dir
      | _ => none) = some dir → ∃ op, s.cpu = .traducida dir op := by
    intro h
    split at h
    · rename_i dir' op hop
      obtain rfl := Option.some.inj h
      exact ⟨op, hop⟩
    · simp at h
  have hfs : s.filesystem.map Transferencia.dir = some dir → ∃ t, s.filesystem = some t ∧ t.dir = dir :=
    fun h => Option.map_eq_some_iff.mp h
  cases a with
  | movIn => exact Or.inl (hcpu ha)
  | movOut valor => exact Or.inl (hcpu ha)
  | memoryRead => exact Or.inr (Or.inr (hfs ha))
  | memoryWrite valor => exact Or.inr (Or.inr (hfs ha))
  | _ => exact absurd ha (by simp [acceso])

/-! ### Runs -/

/-- **Addresses.** In every interleaving in which no load takes a frame that was told and not used up,
and no frame is told for a page that another one replaced in it, every access finds the page that the
address was told for. -/
theorem accesos_vigentes {tamanioMemoria tamanioPagina : ℕ} {algoritmo : Reemplazo} {espacio : Mem}
    {as : List Accion}
    (hcrear : createHandlerPaginacion tamanioMemoria tamanioPagina algoritmo espacio = some h)
    (hrun : Along paso Condicion (inicial h) as) : Along paso Valida (inicial h) as := by
  have hpos : 0 < h.tamanioPagina := by
    obtain ⟨e, he, hr⟩ := Option.bind_eq_some_iff.mp hcrear
    obtain rfl := Option.some.inj hr
    unfold createEspacioUsuario at he
    split_ifs at he with htam
    exact Nat.pos_of_ne_zero htam.1
  have hV : Vigentes (inicial h) := fun dir hdir => by simp [inicial, Estado.direcciones] at hdir
  exact hrun.of_invariant (I := fun s => 0 < s.handler.tamanioPagina ∧ Vigentes s)
    (fun _ _ hI hc => ⟨fun dir hdir => hI.2 dir (acceso_mem hdir),
      fun _ hs => vigentes_paso hI.1 hI.2 hc hs⟩) ⟨hpos, hV⟩

/-- The file system reads the page of the first process while that of the second one comes in, and then
the first one ends. -/
def turnos : List Accion :=
  [.newProcess 1 4 [0], .newProcess 2 4 [4], .frameRequest 2 0 .LEER 1, .frameRequest 1 0 .ESCRIBIR 2,
    .loadFrame 1 0 3 [1, 2], .frameRequest 1 0 .ESCRIBIR 4, .ceder, .tomar 0, .loadFrame 2 0 5 [1, 2],
    .memoryRead, .exitProcess 1, .frameRequest 2 0 .LEER 6, .liberar 1, .movIn, .liberar 1]

theorem accesos_vigentes_turnos : (exec paso (inicial dosMarcos) turnos).isSome ∧
    Along paso Valida (inicial dosMarcos) turnos := by
  have hcrear : createHandlerPaginacion 8 4 .FIFO (fun _ => 0) = some dosMarcos := rfl
  have hrun : Along paso Condicion (inicial dosMarcos) turnos := by decide +kernel
  exact ⟨by decide +kernel, accesos_vigentes hcrear hrun⟩

/-- The page of the second process, which it waits for since its page fault, comes in between the
`FRAME_REQUEST` and the `MOV_OUT` of the first one. -/
def carrera : List Accion :=
  [.newProcess 1 4 [0], .newProcess 2 4 [4], .frameRequest 2 0 .LEER 1, .frameRequest 1 0 .ESCRIBIR 2,
    .loadFrame 1 0 3 [1, 2], .frameRequest 1 0 .ESCRIBIR 4, .movOut 7, .marcar,
    .frameRequest 1 0 .ESCRIBIR 5, .loadFrame 2 0 6 [1, 2], .movOut 9]

/-- **The race.** The `MOV_OUT` of the first process writes to the page of the second one. -/
theorem movOut_en_otra_pagina :
    createHandlerPaginacion 4 4 .FIFO (fun _ => 0) = some (unMarco .FIFO) ∧
    Along paso Protocolo (inicial (unMarco .FIFO)) carrera ∧
    (exec paso (inicial (unMarco .FIFO)) carrera).isSome ∧
    ¬Along paso Valida (inicial (unMarco .FIFO)) carrera := by
  refine ⟨rfl, ?_, ?_, ?_⟩
  · decide +kernel
  · decide +kernel
  · decide +kernel

end OperatingSystem.Memoria.Conexiones
