import OperatingSystem.Cpu.Rangos
import OperatingSystem.Memoria.Marcos

/-! # What a process stores it loads (`cpu/src/ciclo.c`, `cpu/src/mmu.c`)

Here the instructions of the CPU are served by the memory module itself: `MOV_IN` and `MOV_OUT` ask it
for the frame of the page, build the physical address, and ask it to read or to write a word there. The
replies are four bytes: a frame, a word or a `-1`.

A word that a `MOV_OUT` put in a page in memory stays there through everything that is served meanwhile
and does not write to it, as long as its page stays (`guardada_suceder`). A `MOV_IN` brings it back,
unless it is the word `-1`, which the CPU takes for an error of the memory (`movIn_tras_movOut_iff`). -/

namespace OperatingSystem.Cpu.Palabras

open OperatingSystem.Lib.Bytes OperatingSystem.Lib.Dictionary OperatingSystem.Lib.Run
open OperatingSystem.Memoria.Paginas
open OperatingSystem.Memoria.HandlerPaginacion hiding obtenerMarco
open OperatingSystem.Memoria.Lugares OperatingSystem.Memoria.Marcos
open OperatingSystem.Memoria.Pedidos (obtenerNumeroPagina obtenerNumeroPagina_eq
  traduccionLogicaAFisica traduccionLogicaAFisica_eq frameRequest allocateNewProcess)
open OperatingSystem.Cpu.Ciclo (Globales ExecContext Estado Instruccion obtenerRegistro pageFault
  checkInterrupt)
open OperatingSystem.Cpu.Rangos (pedidoDeMarco)

/-! ### `mmu.c` -/

/-- The reply to a `FRAME_REQUEST`. -/
def obtenerMarco (h : Handler) (pagina pid : ℤ) (operacion : TipoOperacion) (ahora : ℤ) :
    Option (ℤ × Handler) :=
  if 0 ≤ pagina ∨ h.pidTablas.get pid = none then
    (frameRequest h pid pagina.toNat operacion ahora).map fun r =>
      (r.1.elim (-1) fun marco : ℕ => (marco : ℤ), r.2)
  else none

def leerValorMemoria (h : Handler) (dirFisica : ℤ) : Option UInt32 :=
  if 0 ≤ dirFisica then some (leerValor h dirFisica.toNat) else none

/-- The reply is `1`. -/
def escribirValorMemoria (h : Handler) (dirFisica : ℤ) (valor : UInt32) : Option (ℤ × Handler) :=
  if 0 ≤ dirFisica then (escribirValor h dirFisica.toNat valor).map fun h => (1, h) else none

/-! ### `ciclo.c` -/

/-- The CPU, the context it was given, and the memory module. -/
structure Nodo where
  cpu : Globales
  ctx : ExecContext
  memoria : Handler

/-- What does not concern the memory. -/
def Nodo.cambiar (n : Nodo) (f : Estado → Estado) : Nodo :=
  let s := f ⟨n.cpu, n.ctx, ⟨fun _ => 0, []⟩⟩
  { n with cpu := s.cpu, ctx := s.ctx }

def executeMovIn (n : Nodo) (registro : Char) (dirLogica ahora : ℤ) : Option (ℤ × Nodo) := do
  let pagina := obtenerNumeroPagina n.memoria.tamanioPagina dirLogica
  let (marco, memoria) ← obtenerMarco n.memoria pagina n.ctx.pid .LEER ahora
  let n := { n with memoria := memoria }
  if marco = -1 then return (-1, n.cambiar (pageFault · pagina))
  else
    let dirFisica := traduccionLogicaAFisica n.memoria.tamanioPagina dirLogica marco
    let valorMemoria ← leerValorMemoria n.memoria dirFisica
    if valorMemoria = -1 then return (1, { n with cpu := { n.cpu with flagExit := true } })
    else
      match obtenerRegistro registro with
      | some registroDestinoCpu => return (1, n.cambiar (·.cargar registroDestinoCpu valorMemoria))
      | none => return (1, n)

def executeMovOut (n : Nodo) (dirLogica : ℤ) (registro : Char) (ahora : ℤ) : Option (ℤ × Nodo) := do
  let pagina := obtenerNumeroPagina n.memoria.tamanioPagina dirLogica
  let (marco, memoria) ← obtenerMarco n.memoria pagina n.ctx.pid .ESCRIBIR ahora
  let n := { n with memoria := memoria }
  if marco = -1 then return (-1, n.cambiar (pageFault · pagina))
  else
    let dirFisica := traduccionLogicaAFisica n.memoria.tamanioPagina dirLogica marco
    let registroDestinoCpu ← obtenerRegistro registro
    let (result, memoria) ← escribirValorMemoria n.memoria dirFisica
      (n.cpu.registros registroDestinoCpu)
    let n := { n with memoria := memoria }
    return (1, if result = -1 then { n with cpu := { n.cpu with flagExit := true } } else n)

/-- The frame that an instruction asks for, if it asks for one. -/
def pedirMarco (n : Nodo) (i : Instruccion) (ahora : ℤ) : Option (ℤ × Handler) :=
  match pedidoDeMarco n.memoria.tamanioPagina i with
  | some (pagina, operacion) => obtenerMarco n.memoria pagina n.ctx.pid operacion ahora
  | none => some (-1, n.memoria)

/-- The other instructions use the memory at most to ask for a frame. -/
def executeOtra (n : Nodo) (i : Instruccion) (ahora : ℤ) : Option (ℤ × Nodo) := do
  let (marco, memoria) ← pedirMarco n i ahora
  let (shouldIncrementPc, s) ←
    Ciclo.decode n.memoria.tamanioPagina marco ⟨n.cpu, n.ctx, ⟨fun _ => 0, []⟩⟩ i
  return (shouldIncrementPc, ⟨s.cpu, s.ctx, memoria⟩)

def decode (n : Nodo) (ahora : ℤ) : Instruccion → Option (ℤ × Nodo)
  | .MOV_IN registro dirLogica => executeMovIn n registro dirLogica ahora
  | .MOV_OUT dirLogica registro => executeMovOut n dirLogica registro ahora
  | i => executeOtra n i ahora

/-- A turn of the loop of `iniciar_ciclo_instruccion` with the instruction fetched, up to
`check_interrupt`. -/
def turno (n : Nodo) (i : Instruccion) (ahora : ℤ) : Option Nodo :=
  if n.cpu.flagExit then none
  else do
    let (shouldIncrementPc, n) ← decode n ahora i
    return if shouldIncrementPc ≠ -1 then
      { n with ctx := { n.ctx with programCounter := n.ctx.programCounter + 1 } } else n

/-! ### Runs -/

/-- What the memory serves: turns of the CPU, which may change to any other context in between, and the
requests of the kernel and of the file system. -/
inductive Suceso where
  | ciclo (i : Instruccion) (ahora : ℤ)
  | contexto (cpu : Globales) (ctx : ExecContext)
  | newProcess (pid : ℤ) (size : ℕ) (posiciones : List ℤ)
  | loadFrame (pid : ℤ) (pagina : ℕ) (ahora : ℤ) (orden : List ℤ)
  | exitProcess (pid : ℤ)
  | memoryWrite (dirFisica : ℕ) (data : List UInt32)

def suceder (n : Nodo) : Suceso → Option Nodo
  | .ciclo i ahora => (turno n i ahora).map (·.cambiar checkInterrupt)
  | .contexto cpu ctx => some { n with cpu := cpu, ctx := ctx }
  | .newProcess pid size posiciones =>
    (allocateNewProcess n.memoria pid size posiciones).map fun h => { n with memoria := h }
  | .loadFrame pid pagina ahora orden =>
    (cargarEnMemoria n.memoria pid pagina ahora orden).map fun r => { n with memoria := r.2 }
  | .exitProcess pid => (removerProceso n.memoria pid).map fun h => { n with memoria := h }
  | .memoryWrite dirFisica data =>
    some { n with memoria := escribirValorPagina n.memoria dirFisica data }

/-- The frame that a load puts the page in. -/
def marcoDeCarga (h : Handler) (orden : List ℤ) : Option ℕ :=
  match obtenerFrameLibre h.espacioUsuario with
  | some frame => some frame
  | none => ((paginaAReemplazar h orden).bind id).map Pagina.nroFrame

/-- The bytes of the user space that are written to: where they begin and how many they are. -/
def zona (n : Nodo) : Suceso → Option (ℤ × ℕ)
  | .ciclo (.MOV_OUT dirLogica _) _ =>
    (lugar n.memoria n.ctx.pid (obtenerNumeroPagina n.memoria.tamanioPagina dirLogica).toNat).bind
      fun l => if l.bitPresencia = 1 then
        some (traduccionLogicaAFisica n.memoria.tamanioPagina dirLogica l.nroFrame, 4) else none
  | .loadFrame pid _ _ orden =>
    if n.memoria.pidTablas.get pid = none then none
    else (marcoDeCarga n.memoria orden).map fun marco =>
      ((marco * n.memoria.tamanioPagina : ℕ), 4 * (n.memoria.tamanioPagina / 4))
  | .memoryWrite dirFisica data => some (dirFisica, 4 * data.length)
  | _ => none

/-- The zone shares no byte with the word at the address. -/
def Aparte (dirFisica : ℕ) (z : ℤ × ℕ) : Prop := z.1 + z.2 ≤ dirFisica ∨ (dirFisica : ℤ) + 4 ≤ z.1

instance (dirFisica : ℕ) (z : ℤ × ℕ) : Decidable (Aparte dirFisica z) :=
  inferInstanceAs (Decidable (_ ∨ _))

/-- What happens writes no byte of the word at the offset `k` of the frame, and the page stays there. -/
def Respeta (p : ℤ) (i f k : ℕ) (n : Nodo) (s : Suceso) : Prop :=
  (∀ z ∈ zona n s, Aparte (f * n.memoria.tamanioPagina + k) z) ∧
    ∀ n' ∈ suceder n s, EnMarco n'.memoria p i f

instance (p : ℤ) (i f k : ℕ) (n : Nodo) (s : Suceso) : Decidable (Respeta p i f k n s) :=
  inferInstanceAs (Decidable (_ ∧ _))

/-- **The instruction brings the word**: it is loaded to the register, the program counter goes on and
the cycle does not end. -/
def Trae (n : Nodo) (registro : Char) (destino : Fin 4) (dirLogica ahora : ℤ) (v : UInt32) : Prop :=
  ∃ n', turno n (.MOV_IN registro dirLogica) ahora = some n' ∧ n'.cpu.registros destino = v ∧
    n'.ctx.programCounter = n.ctx.programCounter + 1 ∧ n'.cpu.flagExit = false

/-! ### Requests -/

section Pedidos

variable {h h' : Handler} {p : ℤ} {i f dir : ℕ} {operacion : TipoOperacion} {ahora : ℤ}

/-- A frame is told for a page in memory only, and nothing else changes. -/
theorem obtenerMarco_cases {pagina : ℤ} {r : ℤ × Handler}
    (hr : obtenerMarco h pagina p operacion ahora = some r) : Igual h r.2 ∧
      h.operacionesBloqueantes = false ∧
      ((r.1 = -1 ∧ ∀ f, ¬EnMarco h p pagina.toNat f) ∨
        ∃ f : ℕ, r.1 = f ∧ EnMarco h p pagina.toNat f) := by
  unfold obtenerMarco frameRequest at hr
  split_ifs at hr with hp hm
  · cases hr
  · obtain ⟨⟨marco, h'⟩, hr', rfl⟩ := Option.map_eq_some_iff.mp hr
    obtain ⟨hig, hsi, hno⟩ := obtenerMarco_spec hr'
    refine ⟨hig, by simpa using hm, ?_⟩
    cases marco with
    | none =>
      refine Or.inl ⟨rfl, ?_⟩
      rintro f ⟨l, hl, hpres, -⟩
      exact hno rfl l hl hpres
    | some f => exact Or.inr ⟨f, rfl, hsi f rfl⟩

/-- The frame of a page in memory is told. -/
theorem obtenerMarco_enMarco (hf : EnMarco h p i f) (hm : h.operacionesBloqueantes = false) :
    ∃ h', obtenerMarco h i p operacion ahora = some ((f : ℤ), h') ∧ Igual h h' := by
  obtain ⟨l, hl, hpres, rfl⟩ := hf
  obtain ⟨pag, hpag, -⟩ := lugar_eq_some.mp hl
  obtain ⟨r, hr⟩ := obtenerMarco_total hpag operacion ahora
  obtain ⟨hig, hsi, hno⟩ := obtenerMarco_spec hr
  have hr1 : r.1 = some l.nroFrame := by
    cases hr1 : r.1 with
    | none => exact absurd hpres (hno hr1 l hl)
    | some f =>
      obtain ⟨l', hl', -, rfl⟩ := hsi f hr1
      obtain rfl := Option.some.inj (hl.symm.trans hl')
      rfl
  refine ⟨r.2, ?_, hig⟩
  unfold obtenerMarco frameRequest
  rw [if_pos (Or.inl (Int.natCast_nonneg i)), hm, Int.toNat_natCast, if_neg Bool.false_ne_true, hr,
    Option.map_some, hr1]
  rfl

/-- The sizes, the mutex and the word at the address are the same. -/
structure Deja (h h' : Handler) (dir : ℕ) : Prop where
  tamanioPagina : h'.tamanioPagina = h.tamanioPagina
  operacionesBloqueantes : h'.operacionesBloqueantes = h.operacionesBloqueantes
  palabra : leerValor h' dir = leerValor h dir

theorem Deja.trans {h'' : Handler} (h₁ : Deja h h' dir) (h₂ : Deja h' h'' dir) : Deja h h'' dir :=
  ⟨h₂.1.trans h₁.1, h₂.2.trans h₁.2, h₂.3.trans h₁.3⟩

theorem Deja.of_espacio (htam : h'.tamanioPagina = h.tamanioPagina)
    (hm : h'.operacionesBloqueantes = h.operacionesBloqueantes)
    (he : h'.espacioUsuario.espacio = h.espacioUsuario.espacio) : Deja h h' dir :=
  ⟨htam, hm, by unfold leerValor espacioLeerValor; rw [he]⟩

theorem Deja.of_igual (hig : Igual h h') : Deja h h' dir :=
  .of_espacio hig.tamanioPagina hig.operacionesBloqueantes (by rw [hig.espacioUsuario])

/-- A word is written apart from the other. -/
theorem deja_escribirValor {d : ℕ} {v : UInt32} (hw : escribirValor h d v = some h')
    (hd : d + 4 ≤ dir ∨ dir + 4 ≤ d) : Deja h h' dir := by
  have hig := escribirValor_spec hw
  refine ⟨hig.tamanioPagina, hig.operacionesBloqueantes, ?_⟩
  unfold leerValor espacioLeerValor
  rw [hig.espacioUsuario]
  exact leer_escribir_of_disjoint hd.symm

/-- The word written is there. -/
theorem leerValor_escribirValor {d : ℕ} {v : UInt32} (hw : escribirValor h d v = some h') :
    leerValor h' d = v := by
  unfold leerValor espacioLeerValor
  rw [(escribirValor_spec hw).espacioUsuario]
  exact leer_escribir _ _ _

/-- A page comes in to a frame apart from the word. -/
theorem deja_alojar {r : Option ℕ × Handler} (hr : alojar h p i f ahora = some r)
    (hd : Aparte dir ((f * h.tamanioPagina : ℕ), 4 * (h.tamanioPagina / 4))) : Deja h r.2 dir := by
  obtain ⟨l, h', rfl, -, -, he, -, htam, hm⟩ := alojar_inv hr
  refine ⟨htam, hm, ?_⟩
  unfold leerValor espacioLeerValor
  rw [he]
  refine leer_escribirPalabras_of_disjoint ?_
  rw [length_leerPalabras]
  unfold Aparte at hd
  push_cast at hd
  omega

/-- The page that goes is only read. -/
theorem deja_removerPaginaMemoria {orden : List ℤ} {r : Option Pagina × Handler}
    (hr : removerPaginaMemoria h orden = some r) : Deja h r.2 dir := by
  rcases removerPaginaMemoria_tablas hr with heq | ⟨p, i, tabla, pag, swap, -, -, heq⟩
  · rw [heq]
    exact .of_espacio rfl rfl rfl
  · rw [heq]
    exact .of_espacio rfl rfl rfl

/-- A load while some page is in memory, which could go, gives the mutex back. -/
theorem deja_cargarEnMemoria {pid : ℤ} {pagina : ℕ} {orden : List ℤ} {r : Option ℕ × Handler}
    (hf : EnMarco h p i f) (hr : cargarEnMemoria h pid pagina ahora orden = some r)
    (hd : h.pidTablas.get pid ≠ none → ∀ marco ∈ marcoDeCarga h orden,
      Aparte dir ((marco * h.tamanioPagina : ℕ), 4 * (h.tamanioPagina / 4))) : Deja h r.2 dir := by
  obtain ⟨l, hl, hpres, -⟩ := hf
  rcases cargarEnMemoria_ramas hr with he | ⟨-, -, hv⟩ | ⟨g, hg, ha⟩ |
    ⟨pag, h₁, hg, ht, hv, hrem, -, ha⟩
  · rw [he]
    exact .of_espacio rfl rfl rfl
  · exact absurd hpres (paginaAReemplazar_none hv hl)
  · obtain ⟨l', -, -, hl', -⟩ := alojar_inv ha
    have ht : h.pidTablas.get pid ≠ none := by
      intro ht
      rw [lugar_eq_none ht] at hl'
      cases hl'
    exact deja_alojar ha (hd ht g (by rw [marcoDeCarga, hg]; rfl))
  · have hrem : Deja h h₁ dir := deja_removerPaginaMemoria hrem
    have ht : h.pidTablas.get pid ≠ none := Option.isSome_iff_ne_none.mp ht
    refine hrem.trans (deja_alojar ha ?_)
    rw [hrem.tamanioPagina]
    exact hd ht _ (by rw [marcoDeCarga, hg]; simp only [hv]; rfl)

end Pedidos

/-! ### Instructions -/

variable {n n' : Nodo} {registro : Char} {destino : Fin 4} {ahora : ℤ} {p : ℤ} {i f k : ℕ}
  {v : UInt32}

/-- A `MOV_IN` writes nothing. -/
theorem executeMovIn_memoria {dirLogica : ℤ} {r : ℤ × Nodo}
    (hr : executeMovIn n registro dirLogica ahora = some r) : Igual n.memoria r.2.memoria := by
  obtain ⟨⟨marco, memoria⟩, hm, hr⟩ := Option.bind_eq_some_iff.mp hr
  have hig : Igual n.memoria memoria := (obtenerMarco_cases hm).1
  dsimp only at hr
  split_ifs at hr with h1
  · obtain rfl := Option.some.inj hr
    exact hig
  · obtain ⟨valor, -, hr⟩ := Option.bind_eq_some_iff.mp hr
    split_ifs at hr with hv
    · obtain rfl := Option.some.inj hr
      exact hig
    · cases hreg : obtenerRegistro registro with
      | none =>
        rw [hreg] at hr
        obtain rfl := Option.some.inj hr
        exact hig
      | some rd =>
        rw [hreg] at hr
        obtain rfl := Option.some.inj hr
        exact hig

/-- A `MOV_OUT` writes a word in the frame of its page, or nothing if the page is not in memory. -/
theorem executeMovOut_cases {dirLogica : ℤ} {r : ℤ × Nodo}
    (hr : executeMovOut n dirLogica registro ahora = some r) :
    n.memoria.operacionesBloqueantes = false ∧
      ((Igual n.memoria r.2.memoria ∧
        ∀ f, ¬EnMarco n.memoria n.ctx.pid
          (obtenerNumeroPagina n.memoria.tamanioPagina dirLogica).toNat f) ∨
      ∃ (h : Handler) (f : ℕ) (origen : Fin 4), Igual n.memoria h ∧
        EnMarco n.memoria n.ctx.pid (obtenerNumeroPagina n.memoria.tamanioPagina dirLogica).toNat f ∧
        obtenerRegistro registro = some origen ∧
        0 ≤ traduccionLogicaAFisica n.memoria.tamanioPagina dirLogica f ∧
        escribirValor h (traduccionLogicaAFisica n.memoria.tamanioPagina dirLogica f).toNat
          (n.cpu.registros origen) = some r.2.memoria) := by
  obtain ⟨⟨marco, memoria⟩, hm, hr⟩ := Option.bind_eq_some_iff.mp hr
  obtain ⟨hig, habierto, hmarco⟩ := obtenerMarco_cases hm
  refine ⟨habierto, ?_⟩
  dsimp only at hig hr
  rw [hig.tamanioPagina] at hr
  rcases hmarco with ⟨h1, hno⟩ | ⟨f, rfl, hf⟩
  · rw [if_pos h1] at hr
    obtain rfl := Option.some.inj hr
    exact Or.inl ⟨hig, hno⟩
  · rw [if_neg (by omega)] at hr
    obtain ⟨origen, hreg, hr⟩ := Option.bind_eq_some_iff.mp hr
    obtain ⟨⟨result, h'⟩, hw, hr⟩ := Option.bind_eq_some_iff.mp hr
    unfold escribirValorMemoria at hw
    split_ifs at hw with h0
    obtain ⟨h'', hesc, heq⟩ := Option.map_eq_some_iff.mp hw
    obtain ⟨rfl, rfl⟩ := Prod.mk.inj heq
    obtain rfl := Option.some.inj hr
    exact Or.inr ⟨memoria, f, origen, hig, hf, hreg, h0, hesc⟩

theorem executeOtra_memoria {ins : Instruccion} {r : ℤ × Nodo}
    (hr : executeOtra n ins ahora = some r) : Igual n.memoria r.2.memoria := by
  obtain ⟨⟨marco, memoria⟩, hm, hr⟩ := Option.bind_eq_some_iff.mp hr
  obtain ⟨⟨inc, s⟩, -, hr⟩ := Option.bind_eq_some_iff.mp hr
  obtain rfl := Option.some.inj hr
  change Igual n.memoria memoria
  unfold pedirMarco at hm
  cases hped : pedidoDeMarco n.memoria.tamanioPagina ins with
  | none =>
    rw [hped] at hm
    obtain ⟨-, rfl⟩ := Prod.mk.inj (Option.some.inj hm)
    exact .refl _
  | some pedido =>
    rw [hped] at hm
    exact (obtenerMarco_cases hm).1

/-! ### The word -/

/-- **The word is in its frame**, and the memory goes on answering. -/
structure Guardada (t : ℕ) (p : ℤ) (i f k : ℕ) (v : UInt32) (n : Nodo) : Prop where
  tamanioPagina : n.memoria.tamanioPagina = t
  enMarco : EnMarco n.memoria p i f
  abierto : n.memoria.operacionesBloqueantes = false
  palabra : leerValor n.memoria (f * t + k) = v

variable {t : ℕ}

theorem Guardada.of_deja (hG : Guardada t p i f k v n)
    (hd : Deja n.memoria n'.memoria (f * t + k)) (hf : EnMarco n'.memoria p i f) :
    Guardada t p i f k v n' :=
  ⟨hd.tamanioPagina.trans hG.tamanioPagina, hf, hd.operacionesBloqueantes.trans hG.abierto,
    hd.palabra.trans hG.palabra⟩

/-- What an instruction does to a word apart from what it writes. -/
theorem deja_decode {ins : Instruccion} {r : ℤ × Nodo} {dir : ℕ} (hr : decode n ahora ins = some r)
    (hz : ∀ z ∈ zona n (.ciclo ins ahora), Aparte dir z) : Deja n.memoria r.2.memoria dir := by
  by_cases hin : ∃ registro dirLogica, ins = .MOV_IN registro dirLogica
  · obtain ⟨registro, dirLogica, rfl⟩ := hin
    exact .of_igual (executeMovIn_memoria hr)
  · by_cases hout : ∃ dirLogica registro, ins = .MOV_OUT dirLogica registro
    · obtain ⟨dirLogica, registro, rfl⟩ := hout
      rcases (executeMovOut_cases hr).2 with ⟨hig, -⟩ | ⟨h, f, origen, hig, hf, -, h0, hw⟩
      · exact .of_igual hig
      · obtain ⟨l, hl, hpres, rfl⟩ := hf
        have hz : Aparte dir (traduccionLogicaAFisica n.memoria.tamanioPagina dirLogica l.nroFrame, 4) :=
          hz _ (by rw [zona, hl, Option.bind_some, if_pos hpres]; rfl)
        refine (Deja.of_igual hig).trans (deja_escribirValor hw ?_)
        unfold Aparte at hz
        dsimp only at hz
        push_cast at hz
        omega
    · have hotra : executeOtra n ins ahora = some r := by
        cases ins with
        | MOV_IN registro dirLogica => exact absurd ⟨_, _, rfl⟩ hin
        | MOV_OUT dirLogica registro => exact absurd ⟨_, _, rfl⟩ hout
        | _ => exact hr
      exact .of_igual (executeOtra_memoria hotra)

theorem turno_memoria {ins : Instruccion} (hr : turno n ins ahora = some n') :
    ∃ r, decode n ahora ins = some r ∧ n'.memoria = r.2.memoria := by
  unfold turno at hr
  split_ifs at hr
  obtain ⟨⟨inc, n₁⟩, hd, hr⟩ := Option.bind_eq_some_iff.mp hr
  refine ⟨_, hd, ?_⟩
  dsimp only at hr
  split_ifs at hr
  all_goals
    obtain rfl := Option.some.inj hr
    rfl

/-- **What respects the word keeps it.** -/
theorem guardada_suceder {s : Suceso} (hG : Guardada t p i f k v n) (hR : Respeta p i f k n s)
    (hs : suceder n s = some n') : Guardada t p i f k v n' := by
  refine hG.of_deja ?_ (hR.2 n' hs)
  have hz := hR.1
  rw [hG.tamanioPagina] at hz
  cases s with
  | ciclo ins ahora =>
    obtain ⟨n₁, hturno, rfl⟩ := Option.map_eq_some_iff.mp hs
    obtain ⟨r, hd, hm⟩ := turno_memoria hturno
    have := deja_decode hd hz
    rw [← hm] at this
    exact this
  | contexto cpu ctx =>
    obtain rfl := Option.some.inj hs
    exact .of_espacio rfl rfl rfl
  | newProcess pid size posiciones =>
    obtain ⟨h', hn, rfl⟩ := Option.map_eq_some_iff.mp hs
    unfold allocateNewProcess at hn
    split_ifs at hn
    obtain ⟨-, he, -, htam, hm⟩ := generarTablaPaginas_spec hn
    exact .of_espacio htam hm (by rw [he])
  | loadFrame pid pagina ahora orden =>
    obtain ⟨r, hl, rfl⟩ := Option.map_eq_some_iff.mp hs
    refine deja_cargarEnMemoria hG.enMarco hl fun ht marco hmarco => hz _ ?_
    rw [zona, if_neg ht, Option.mem_def.mp hmarco]
    rfl
  | exitProcess pid =>
    obtain ⟨h', hx, rfl⟩ := Option.map_eq_some_iff.mp hs
    obtain ⟨-, he, -, -, -, -, -, htam, hm⟩ := removerProceso_spec hx
    exact .of_espacio htam hm he
  | memoryWrite dirFisica data =>
    obtain rfl := Option.some.inj hs
    refine ⟨rfl, rfl, ?_⟩
    have hz : Aparte (f * t + k) (dirFisica, 4 * data.length) := hz _ rfl
    unfold Aparte at hz
    dsimp only at hz
    exact leer_escribirPalabras_of_disjoint (by omega)

/-- **The word is stored.** -/
theorem guardada_movOut {a : ℕ} {origen : Fin 4}
    (hf : EnMarco n.memoria n.ctx.pid (a / n.memoria.tamanioPagina) f)
    (hreg : obtenerRegistro registro = some origen)
    (hs : suceder n (.ciclo (.MOV_OUT a registro) ahora) = some n') :
    Guardada n.memoria.tamanioPagina n.ctx.pid (a / n.memoria.tamanioPagina) f
      (a % n.memoria.tamanioPagina) (n.cpu.registros origen) n' := by
  obtain ⟨n₁, hturno, rfl⟩ := Option.map_eq_some_iff.mp hs
  obtain ⟨r, hd, hm⟩ := turno_memoria hturno
  obtain ⟨habierto, hcases⟩ := executeMovOut_cases hd
  rcases hcases with ⟨-, hno⟩ | ⟨h, g, origen', hig, hg, hreg', -, hw⟩
  · exact absurd hf (hno f)
  · obtain rfl := Option.some.inj (hreg.symm.trans hreg')
    obtain rfl : f = g := by
      obtain ⟨l, hl, -, rfl⟩ := hf
      obtain ⟨l', hl', -, rfl⟩ := hg
      obtain rfl := Option.some.inj (hl.symm.trans hl')
      rfl
    rw [traduccionLogicaAFisica_eq, Int.toNat_natCast, ← hm] at hw
    have hesc := escribirValor_spec hw
    exact ⟨hesc.tamanioPagina.trans hig.tamanioPagina,
      (enMarco_congr ((hesc.lugar _ _).trans (hig.lugar _ _))).mpr hf,
      hesc.operacionesBloqueantes.trans (hig.operacionesBloqueantes.trans habierto),
      leerValor_escribirValor hw⟩

/-- **When the word is brought.** -/
theorem trae_iff {a : ℕ} (hG : Guardada t n.ctx.pid (a / t) f (a % t) v n)
    (hreg : obtenerRegistro registro = some destino) (hciclo : n.cpu.flagExit = false) :
    Trae n registro destino a ahora v ↔ v ≠ -1 := by
  obtain ⟨memoria, hm, hig⟩ : ∃ memoria,
      obtenerMarco n.memoria (a / t : ℕ) n.ctx.pid .LEER ahora = some ((f : ℤ), memoria) ∧
        Igual n.memoria memoria := obtenerMarco_enMarco hG.enMarco hG.abierto
  have hleer : leerValorMemoria memoria
      (traduccionLogicaAFisica memoria.tamanioPagina a f) = some v := by
    have hpal := hG.palabra
    unfold leerValor espacioLeerValor at hpal
    rw [hig.tamanioPagina, hG.tamanioPagina, traduccionLogicaAFisica_eq, leerValorMemoria,
      if_pos (Int.natCast_nonneg _), Int.toNat_natCast, leerValor, espacioLeerValor,
      hig.espacioUsuario, hpal]
  have hdecode : decode n ahora (.MOV_IN registro a) = some (1, if v = -1
      then { n with memoria := memoria, cpu := { n.cpu with flagExit := true } }
      else ({ n with memoria := memoria } : Nodo).cambiar (·.cargar destino v)) := by
    rw [← hG.tamanioPagina, ← obtenerNumeroPagina_eq] at hm
    change executeMovIn n registro a ahora = _
    unfold executeMovIn
    simp only [hm, Option.bind_eq_bind, Option.bind_some, hleer, hreg, Option.pure_def]
    rw [if_neg (by omega)]
    split_ifs <;> rfl
  have hturno : turno n (.MOV_IN registro a) ahora = some (if v = -1
      then { n with
        memoria := memoria
        cpu := { n.cpu with flagExit := true }
        ctx := { n.ctx with programCounter := n.ctx.programCounter + 1 } }
      else { n with
        memoria := memoria
        cpu := { n.cpu with registros := Function.update n.cpu.registros destino v }
        ctx := { n.ctx with programCounter := n.ctx.programCounter + 1 } }) := by
    unfold turno
    rw [hciclo, if_neg Bool.false_ne_true, hdecode]
    split_ifs <;> rfl
  unfold Trae
  rw [hturno]
  by_cases hv : v = -1
  · rw [if_pos hv]
    refine iff_of_false ?_ (not_not_intro hv)
    rintro ⟨n', hn', -, -, hflag⟩
    obtain rfl := Option.some.inj hn'
    cases hflag
  · rw [if_neg hv]
    exact iff_of_true ⟨_, rfl, Function.update_self .., rfl, hciclo⟩ hv

/-- **The words that a process can store and load**: all but `-1`. -/
theorem movIn_tras_movOut_iff {n₁ n₂ : Nodo} {a : ℕ} {origen : Fin 4} {registro' : Char}
    {ahora' : ℤ} {entre : List Suceso}
    (hf : EnMarco n.memoria n.ctx.pid (a / n.memoria.tamanioPagina) f)
    (hreg : obtenerRegistro registro = some origen)
    (hreg' : obtenerRegistro registro' = some destino)
    (hout : suceder n (.ciclo (.MOV_OUT a registro) ahora) = some n₁)
    (hentre : Along suceder (Respeta n.ctx.pid (a / n.memoria.tamanioPagina) f
      (a % n.memoria.tamanioPagina)) n₁ entre)
    (hrun : exec suceder n₁ entre = some n₂) (hpid : n₂.ctx.pid = n.ctx.pid)
    (hciclo : n₂.cpu.flagExit = false) :
    Trae n₂ registro' destino a ahora' (n.cpu.registros origen) ↔ n.cpu.registros origen ≠ -1 := by
  have hG := exec_invariant (fun _ _ _ hG hR hs => guardada_suceder hG hR hs)
    (guardada_movOut hf hreg hout) hentre hrun
  exact trae_iff (hpid.symm ▸ hG) hreg' hciclo

/-- A memory of one frame of two words, and a process in the CPU with `v` in its registers. -/
def unProceso (v : UInt32) : Nodo where
  cpu := ⟨fun _ => v, false, none, ⟨-1, none⟩⟩
  ctx := ⟨1, 0, fun _ => v, 0, none, 0, none, none, none, 0, 0, 0⟩
  memoria := ⟨Dict.empty, ⟨8, 1, [0], fun _ => 0⟩, [], .LRU, 8, false, 0, fun _ _ => 0⟩

/-- Its page comes in. -/
def cargado : List Suceso := [.newProcess 1 8 [0], .loadFrame 1 0 10 [1]]

/-- The greatest word that is not `-1`, with a `MOV_OUT` of the other word of the page meanwhile. -/
theorem movIn_tras_movOut_maxima : ∃ n n₁ n₂,
    exec suceder (unProceso 4294967294) cargado = some n ∧ n.cpu.registros 0 = 4294967294 ∧
    suceder n (.ciclo (.MOV_OUT 4 'A') 20) = some n₁ ∧
    exec suceder n₁ [.ciclo (.SET 'C' 5) 30, .ciclo (.MOV_OUT 0 'C') 40] = some n₂ ∧
    Trae n₂ 'D' 3 4 50 (n.cpu.registros 0) := by
  refine ⟨_, _, _, rfl, rfl, rfl, rfl, ?_⟩
  refine (@movIn_tras_movOut_iff _ 'A' 3 20 0 ?tras _ 4 0 'D' 50
    [.ciclo (.SET 'C' 5) 30, .ciclo (.MOV_OUT 0 'C') 40] ?marco rfl rfl ?out ?entre ?run ?pid
    ?ciclo).mpr (by decide)
  case out => rfl
  case entre => decide
  case marco => decide
  all_goals rfl

/-- **The word `-1` does not come back**: the cycle ends, without a code. -/
theorem palabra_perdida : ∃ n n₁,
    exec suceder (unProceso 4294967295) cargado = some n ∧ EnMarco n.memoria n.ctx.pid (4 / 8) 0 ∧
    n.cpu.registros 0 = 4294967295 ∧ suceder n (.ciclo (.MOV_OUT 4 'A') 20) = some n₁ ∧
    ¬ Trae n₁ 'D' 3 4 30 (n.cpu.registros 0) := by
  refine ⟨_, _, rfl, by decide, rfl, rfl, ?_⟩
  rintro ⟨n', hn', -, -, hflag⟩
  obtain rfl := Option.some.inj hn'
  exact absurd hflag (by decide)

end OperatingSystem.Cpu.Palabras
