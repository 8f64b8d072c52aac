import OperatingSystem.Cpu.Ciclo

/-! # The rows of a page table (`memoria/src/paginacion/tabla_paginas.c`)

A page table has an array of `CANT_PAGINAS` entries, and a process `cant_paginas` rows of it: as many as
its size has whole pages. `FRAME_REQUEST` and `LOAD_FRAME` take any number for a page: they read and
write `tabla->paginas[nro_pagina]` without comparing it with either. Here the array is as it is in the
source, and every access notes the entry it is to (`filas`); an index out of the array has no behaviour.

`usaSuRango_iff` is which addresses of a process are treated as they should: those of its whole pages.
For the rows in use the array and the list of `Memoria.Paginas` are the same table
(`obtenerMarco_enUso`, `swapIn_enUso`). -/

namespace OperatingSystem.Cpu.Rangos

open OperatingSystem.Lib.Dictionary
open OperatingSystem.Memoria.Paginas (Pagina TablaPaginas CANT_PAGINAS)
open OperatingSystem.Memoria.HandlerPaginacion (TipoOperacion Handler setTabla)
open OperatingSystem.Memoria.Pedidos (obtenerNumeroPagina)
open OperatingSystem.Cpu.Ciclo (Instruccion)

/-! ### The table -/

/-- `t_tabla_paginas` -/
structure Tabla where
  pid : ℤ
  cantPaginas : ℕ
  paginas : List Pagina
  largo : paginas.length = CANT_PAGINAS

/-- A table, the entries that were read or written, and those in `paginas_pendientes_modificacion`. -/
structure Vista where
  tabla : Tabla
  filas : List ℤ
  pendientes : List ℤ

/-- The row `i` of `create_tabla_paginas`. -/
def filaNueva (pid : ℤ) (i : ℕ) (posSwap : ℤ) : Pagina := ⟨pid, i, 0, 0, 0, posSwap, none, none⟩

/-- `create_tabla_paginas`; `memoria` is what `malloc` gives. -/
def createTablaPaginas (pid : ℤ) (posicionesSwap : List ℤ) (memoria : Tabla) : Option Tabla :=
  if h : posicionesSwap.length ≤ CANT_PAGINAS then
    some
      { pid := pid
        cantPaginas := posicionesSwap.length
        paginas := posicionesSwap.mapIdx (filaNueva pid) ++ memoria.paginas.drop posicionesSwap.length
        largo := by
          rw [List.length_append, List.length_mapIdx, List.length_drop, memoria.largo]
          omega }
  else none

/-- `generar_tabla_paginas`; `posiciones` is the reply of the file system, one for each page. -/
def generarTablaPaginas (tamanioPagina : ℕ) (pid : ℤ) (tamanioProceso : ℕ) (posiciones : List ℤ)
    (memoria : Tabla) : Option Tabla :=
  let cantidadPaginas := tamanioProceso / tamanioPagina
  if posiciones.length = cantidadPaginas then createTablaPaginas pid posiciones memoria else none

/-! ### Accesses -/

/-- To read `tabla->paginas[nro]`. -/
def fila (v : Vista) (nro : ℤ) : Option (Pagina × Vista) :=
  if 0 ≤ nro then
    v.tabla.paginas[nro.toNat]?.map fun pagina => (pagina, { v with filas := v.filas ++ [nro] })
  else none

/-- To assign to fields of `tabla->paginas[nro]`. -/
def asignar (v : Vista) (nro : ℤ) (f : Pagina → Pagina) : Option Vista :=
  if 0 ≤ nro ∧ nro.toNat < v.tabla.paginas.length then
    some { v with
      tabla := { v.tabla with
        paginas := v.tabla.paginas.modify nro.toNat f
        largo := by rw [List.length_modify]; exact v.tabla.largo }
      filas := v.filas ++ [nro] }
  else none

def paginaEstaEnMemoria (v : Vista) (nro : ℤ) : Option (Bool × Vista) :=
  (fila v nro).map fun r => (r.1.bitPresencia = 1, r.2)

def leerPagina (v : Vista) (nro ahora : ℤ) : Option (Pagina × Vista) := do
  let v ← asignar v nro fun pagina => { pagina with ultimaLectura := some ahora }
  fila v nro

def cargarPaginaEnMemoria (v : Vista) (nro : ℤ) (frame : ℕ) (ahora : ℤ) : Option Vista :=
  asignar v nro (Pagina.cargada frame ahora)

def paginaObtenerPosSwap (v : Vista) (nro : ℤ) : Option (ℤ × Vista) :=
  (fila v nro).map fun r => (r.1.posSwap, r.2)

/-- `obtener_marco`, for a process with a table. -/
def obtenerMarco (v : Vista) (nro : ℤ) (tipoOperacion : TipoOperacion) (ahora : ℤ) :
    Option (Option ℕ × Vista) := do
  let (presente, v) ← paginaEstaEnMemoria v nro
  if presente then
    let (pagina, v) ← leerPagina v nro ahora
    let v := if tipoOperacion = .ESCRIBIR then { v with pendientes := v.pendientes ++ [nro] } else v
    return (some pagina.nroFrame, v)
  else return (none, v)

/-- What `swap_in` does to the table. -/
def swapIn (v : Vista) (nro : ℤ) (nuevoFrame : ℕ) (ahora : ℤ) : Option Vista := do
  let (_, v) ← paginaObtenerPosSwap v nro
  cargarPaginaEnMemoria v nro nuevoFrame ahora

/-- The page and the operation of the `FRAME_REQUEST` of an instruction. -/
def pedidoDeMarco (tamanioPagina : ℕ) : Instruccion → Option (ℤ × TipoOperacion)
  | .MOV_IN _ dirLogica => some (obtenerNumeroPagina tamanioPagina dirLogica, .LEER)
  | .MOV_OUT dirLogica _ => some (obtenerNumeroPagina tamanioPagina dirLogica, .ESCRIBIR)
  | .F_READ _ dirLogica => some (obtenerNumeroPagina tamanioPagina dirLogica, .LEER)
  | .F_WRITE _ dirLogica => some (obtenerNumeroPagina tamanioPagina dirLogica, .ESCRIBIR)
  | _ => none

/-- The logical address of an instruction. -/
def dirLogica : Instruccion → Option ℤ
  | .MOV_IN _ dir | .MOV_OUT dir _ | .F_READ _ dir | .F_WRITE _ dir => some dir
  | _ => none

/-- What the table goes through on behalf of an access: `FRAME_REQUEST`, and after a `-1` the
`LOAD_FRAME` of the page fault, with the frame that the memory has for it. -/
def acceder (v : Vista) (nro : ℤ) (tipoOperacion : TipoOperacion) (ahora : ℤ) (marco : ℕ) :
    Option Vista := do
  match ← obtenerMarco v nro tipoOperacion ahora with
  | (some _, v) => return v
  | (none, v) => swapIn v nro marco ahora

/-- **The process can use its range and nothing else**: what the access of the instruction has to do
with the table of a process of that size. -/
def UsaSuRango (tamanioPagina tamanioProceso : ℕ) (i : Instruccion) : Prop :=
  ∀ dir ∈ dirLogica i, ∀ pedido ∈ pedidoDeMarco tamanioPagina i,
    if 0 ≤ dir ∧ dir < tamanioProceso then
      ∀ pid posiciones memoria, posiciones.length = tamanioProceso / tamanioPagina →
        ∃ tabla, generarTablaPaginas tamanioPagina pid tamanioProceso posiciones memoria =
            some tabla ∧
          0 ≤ pedido.1 ∧ pedido.1 < tabla.cantPaginas ∧ tabla.cantPaginas ≤ CANT_PAGINAS
    else ∀ v : Vista, v.tabla.cantPaginas = tamanioProceso / tamanioPagina → ∀ ahora marco,
      ∃ v', acceder v pedido.1 pedido.2 ahora marco = some v' ∧ v'.filas = v.filas

variable {v v' : Vista} {n : ℤ}

theorem fila_eq_some {r : Pagina × Vista} (h : fila v n = some r) :
    0 ≤ n ∧ v.tabla.paginas[n.toNat]? = some r.1 ∧ r.2 = { v with filas := v.filas ++ [n] } := by
  obtain ⟨h0, h⟩ := Option.ite_none_right_eq_some.mp h
  obtain ⟨pagina, hp, rfl⟩ := Option.map_eq_some_iff.mp h
  exact ⟨h0, hp, rfl⟩

theorem asignar_eq_some {f : Pagina → Pagina} (h : asignar v n f = some v') :
    0 ≤ n ∧ v'.tabla.paginas = v.tabla.paginas.modify n.toNat f ∧
      v'.tabla.cantPaginas = v.tabla.cantPaginas ∧ v'.tabla.pid = v.tabla.pid ∧
      v'.filas = v.filas ++ [n] := by
  obtain ⟨h0, h⟩ := Option.ite_none_right_eq_some.mp h
  obtain rfl := Option.some.inj h
  exact ⟨h0.1, rfl, rfl, rfl, rfl⟩

/-! ### What an access touches -/

/-- A request for a frame reads the row of the page, whatever it finds there. -/
theorem obtenerMarco_filas {op : TipoOperacion} {ahora : ℤ} {r : Option ℕ × Vista}
    (h : obtenerMarco v n op ahora = some r) : ∃ l, r.2.filas = v.filas ++ n :: l := by
  unfold obtenerMarco paginaEstaEnMemoria at h
  obtain ⟨r₁, h1, h⟩ := Option.bind_eq_some_iff.mp h
  obtain ⟨r₀, h0, rfl⟩ := Option.map_eq_some_iff.mp h1
  obtain ⟨-, -, hr₀⟩ := fila_eq_some h0
  dsimp only at h
  by_cases hpres : r₀.1.bitPresencia = 1
  · rw [if_pos (by simpa using hpres)] at h
    obtain ⟨r₂, h2, h⟩ := Option.bind_eq_some_iff.mp h
    obtain ⟨v₃, h3, h2⟩ := Option.bind_eq_some_iff.mp h2
    obtain ⟨-, -, -, -, hf₃⟩ := asignar_eq_some h3
    obtain ⟨-, -, hr₂⟩ := fila_eq_some h2
    have hf : r₂.2.filas = v.filas ++ n :: [n, n] := by
      rw [hr₂]
      change v₃.filas ++ [n] = _
      rw [hf₃, hr₀]
      simp
    obtain rfl := Option.some.inj h
    refine ⟨[n, n], ?_⟩
    rw [← hf]
    dsimp only
    split_ifs <;> rfl
  · rw [if_neg (by simpa using hpres)] at h
    obtain rfl := Option.some.inj h
    rw [hr₀]
    exact ⟨[], rfl⟩

theorem swapIn_filas {ahora : ℤ} {marco : ℕ} (h : swapIn v n marco ahora = some v') :
    v'.filas = v.filas ++ [n, n] := by
  unfold swapIn paginaObtenerPosSwap at h
  obtain ⟨r₁, h1, h⟩ := Option.bind_eq_some_iff.mp h
  obtain ⟨r₀, h0, rfl⟩ := Option.map_eq_some_iff.mp h1
  obtain ⟨-, -, hr₀⟩ := fila_eq_some h0
  obtain ⟨-, -, -, -, hf⟩ := asignar_eq_some h
  rw [hf, hr₀]
  simp

/-- **Every access is to the row of its page**, and no check comes before it. -/
theorem acceder_filas {op : TipoOperacion} {ahora : ℤ} {marco : ℕ}
    (h : acceder v n op ahora marco = some v') : ∃ l, v'.filas = v.filas ++ n :: l := by
  unfold acceder at h
  obtain ⟨⟨r, v₁⟩, h1, h⟩ := Option.bind_eq_some_iff.mp h
  obtain ⟨l, hl⟩ := obtenerMarco_filas h1
  cases r with
  | some marco' =>
    obtain rfl := Option.some.inj h
    exact ⟨l, hl⟩
  | none =>
    have hl' := swapIn_filas h
    rw [hl] at hl'
    exact ⟨l ++ [n, n], by rw [hl', List.append_assoc, List.cons_append]⟩

/-! ### The rows in use -/

/-- The rows of the process, which are the table of `Memoria.Paginas`. -/
def Tabla.enUso (tabla : Tabla) : List Pagina := tabla.paginas.take tabla.cantPaginas

def Tabla.lista (tabla : Tabla) (serie : ℕ) : TablaPaginas := ⟨tabla.pid, serie, tabla.enUso⟩

section EnUso

variable {k : ℕ} {f : Pagina → Pagina}

theorem fila_enUso (hk : k < v.tabla.cantPaginas) (hcant : v.tabla.cantPaginas ≤ CANT_PAGINAS) :
    ∃ pagina, v.tabla.enUso[k]? = some pagina ∧
      fila v k = some (pagina, { v with filas := v.filas ++ [(k : ℤ)] }) := by
  have hlt : k < v.tabla.paginas.length := by
    rw [v.tabla.largo]
    omega
  have hp : v.tabla.paginas[k]? = some (v.tabla.paginas[k]) := List.getElem?_eq_getElem hlt
  refine ⟨v.tabla.paginas[k], ?_, ?_⟩
  · unfold Tabla.enUso
    rw [List.getElem?_take_of_lt hk, hp]
  · unfold fila
    rw [if_pos (Int.natCast_nonneg k), Int.toNat_natCast, hp]
    rfl

theorem asignar_enUso (hk : k < v.tabla.cantPaginas) (hcant : v.tabla.cantPaginas ≤ CANT_PAGINAS)
    (f : Pagina → Pagina) (serie : ℕ) : ∃ v', asignar v k f = some v' ∧
      (v.tabla.lista serie).modificar k f = some (v'.tabla.lista serie) ∧
      v'.tabla.cantPaginas = v.tabla.cantPaginas := by
  have hlt : k < v.tabla.paginas.length := by
    rw [v.tabla.largo]
    omega
  obtain ⟨pagina, hp, -⟩ := fila_enUso hk hcant
  refine ⟨_, if_pos ⟨Int.natCast_nonneg k, hlt⟩, ?_, rfl⟩
  have hset : (v.tabla.paginas.modify k f).take v.tabla.cantPaginas =
      v.tabla.enUso.set k (f pagina) := by
    rw [List.take_modify]
    apply List.ext_getElem?
    intro j
    unfold Tabla.enUso at hp ⊢
    rw [List.getElem?_modify, List.getElem?_set]
    by_cases hj : k = j
    · subst hj
      rw [List.getElem?_take_of_lt hk, List.getElem?_eq_getElem hlt] at hp
      obtain rfl := Option.some.inj hp
      simp [hk, hlt]
    · simp [hj]
  unfold TablaPaginas.modificar
  rw [show (v.tabla.lista serie).paginas = v.tabla.enUso from rfl, hp]
  exact congrArg some (congrArg (TablaPaginas.mk v.tabla.pid serie) hset.symm)

/-- **A request for a frame** of a row in use is the one of `Memoria.HandlerPaginacion`. -/
theorem obtenerMarco_enUso {h : Handler} {p : ℤ} {serie : ℕ} (hk : k < v.tabla.cantPaginas)
    (hcant : v.tabla.cantPaginas ≤ CANT_PAGINAS)
    (ht : h.pidTablas.get p = some (v.tabla.lista serie)) (op : TipoOperacion) (ahora : ℤ) :
    ∃ r v' h', obtenerMarco v k op ahora = some (r, v') ∧
      Memoria.HandlerPaginacion.obtenerMarco h p k op ahora = some (r, h') ∧
      h'.pidTablas.get p = some (v'.tabla.lista serie) := by
  obtain ⟨pagina, hp, hfila⟩ := fila_enUso hk hcant
  have hp' : (v.tabla.lista serie).paginas[k]? = some pagina := hp
  unfold obtenerMarco paginaEstaEnMemoria Memoria.HandlerPaginacion.obtenerMarco
  rw [hfila, ht]
  simp only [Option.map_some, Option.bind_eq_bind, Option.bind_some, hp']
  by_cases hpres : pagina.bitPresencia = 1
  · obtain ⟨v₁, hv₁, hm₁, hc₁⟩ := asignar_enUso (v := { v with filas := v.filas ++ [(k : ℤ)] }) hk
      hcant (fun pagina => { pagina with ultimaLectura := some ahora }) serie
    obtain ⟨pagina₁, hp₁, hfila₁⟩ := fila_enUso (v := v₁) (hc₁ ▸ hk) (hc₁ ▸ hcant)
    have hleer : Memoria.Paginas.leerPagina (v.tabla.lista serie) k ahora =
        some (v₁.tabla.lista serie) := hm₁
    -- the frame is read after the time was written
    have hframe : pagina₁.nroFrame = pagina.nroFrame := by
      obtain ⟨pag, hpag, heq⟩ := Option.bind_eq_some_iff.mp hm₁
      obtain rfl := Option.some.inj (hp'.symm.trans hpag)
      have henuso := congrArg TablaPaginas.paginas (Option.some.inj heq)
      have hl := (List.getElem?_eq_some_iff.mp hp').1
      change (v.tabla.lista serie).paginas.set k _ = v₁.tabla.enUso at henuso
      rw [← henuso, List.getElem?_set_self hl] at hp₁
      rw [← Option.some.inj hp₁]
    simp only [hpres, decide_true, if_true, leerPagina, hv₁, hfila₁, Option.bind_eq_bind,
      Option.bind_some, hframe, Memoria.Paginas.paginaEstaEnMemoria, hleer]
    refine ⟨_, _, _, rfl, rfl, ?_⟩
    split_ifs <;> exact Dict.get_put_self ..
  · simp only [hpres, decide_false, Bool.false_eq_true, if_false,
      Memoria.Paginas.paginaEstaEnMemoria]
    exact ⟨_, _, _, rfl, rfl, ht⟩

/-- **A load** of a row in use. -/
theorem swapIn_enUso (hk : k < v.tabla.cantPaginas) (hcant : v.tabla.cantPaginas ≤ CANT_PAGINAS)
    (serie marco : ℕ) (ahora : ℤ) : ∃ v', swapIn v k marco ahora = some v' ∧
      Memoria.Paginas.cargarPaginaEnMemoria (v.tabla.lista serie) k marco ahora =
        some (v'.tabla.lista serie) := by
  obtain ⟨pagina, -, hfila⟩ := fila_enUso hk hcant
  obtain ⟨v₁, hv₁, hm₁, -⟩ := asignar_enUso (v := { v with filas := v.filas ++ [(k : ℤ)] }) hk hcant
    (Pagina.cargada marco ahora) serie
  refine ⟨v₁, ?_, hm₁⟩
  unfold swapIn paginaObtenerPosSwap
  rw [hfila]
  exact hv₁

end EnUso

/-! ### The range of a process -/

/-- The page of an instruction is that of its address. -/
theorem pedidoDeMarco_eq {t : ℕ} {i : Instruccion} {dir : ℤ} (hdir : dir ∈ dirLogica i)
    {pedido : ℤ × TipoOperacion} (hp : pedido ∈ pedidoDeMarco t i) :
    pedido.1 = obtenerNumeroPagina t dir := by
  cases i with
  | MOV_IN | MOV_OUT | F_READ | F_WRITE =>
    obtain rfl := Option.some.inj hdir
    obtain rfl := Option.some.inj hp
    rfl
  | _ => cases hdir

theorem exists_pedidoDeMarco (t : ℕ) {i : Instruccion} {dir : ℤ} (hdir : dir ∈ dirLogica i) :
    ∃ pedido, pedido ∈ pedidoDeMarco t i := by
  cases i with
  | MOV_IN | MOV_OUT | F_READ | F_WRITE => exact ⟨_, rfl⟩
  | _ => cases hdir

/-- The page of an address is in use if the address is in one of the whole pages of the process. -/
theorem numeroPagina_lt_iff {t s : ℕ} {dir : ℤ} (h0 : 0 ≤ dir) :
    obtenerNumeroPagina t dir < (s / t : ℕ) ↔ dir < (t * (s / t) : ℕ) := by
  obtain ⟨a, rfl⟩ := Int.eq_ofNat_of_zero_le h0
  have hpag : obtenerNumeroPagina t (a : ℤ) = (a / t : ℕ) := rfl
  rw [hpag, Nat.cast_lt, Nat.cast_lt]
  rcases Nat.eq_zero_or_pos t with rfl | ht
  · simp
  · rw [Nat.div_lt_iff_lt_mul ht, Nat.mul_comm]

theorem generarTablaPaginas_iff {t s : ℕ} (pid : ℤ) {posiciones : List ℤ} (memoria : Tabla)
    (hl : posiciones.length = s / t) {c : ℤ} :
    (∃ tabla, generarTablaPaginas t pid s posiciones memoria = some tabla ∧
      0 ≤ c ∧ c < tabla.cantPaginas ∧ tabla.cantPaginas ≤ CANT_PAGINAS) ↔
      0 ≤ c ∧ c < (s / t : ℕ) ∧ s / t ≤ CANT_PAGINAS := by
  unfold generarTablaPaginas createTablaPaginas
  rw [if_pos hl]
  constructor
  · rintro ⟨tabla, h, hc⟩
    split_ifs at h
    obtain rfl := Option.some.inj h
    rw [← hl]
    exact hc
  · intro hc
    rw [dif_pos (by rw [hl]; exact hc.2.2)]
    refine ⟨_, rfl, ?_⟩
    change 0 ≤ c ∧ c < (posiciones.length : ℕ) ∧ posiciones.length ≤ CANT_PAGINAS
    rw [hl]
    exact hc

/-- **Which addresses a process can use as it should**: those of its whole pages, if the array has room
for them all. Every other one is taken to a row of the table, or out of it. -/
theorem usaSuRango_iff (t s : ℕ) (i : Instruccion) : UsaSuRango t s i ↔
    ∀ dir ∈ dirLogica i, 0 ≤ dir ∧ dir < (t * (s / t) : ℕ) ∧ s / t ≤ CANT_PAGINAS := by
  have hle : t * (s / t) ≤ s := Nat.mul_div_le s t
  constructor
  · intro h dir hdir
    obtain ⟨pedido, hp⟩ := exists_pedidoDeMarco t hdir
    have hpag := pedidoDeMarco_eq hdir hp
    have h := h dir hdir pedido hp
    split_ifs at h with hr
    · have hl : (List.replicate (s / t) (0 : ℤ)).length = s / t := List.length_replicate
      have h := (generarTablaPaginas_iff 0 _ hl).mp
        (h 0 _ ⟨0, 0, List.replicate CANT_PAGINAS ⟨0, 0, 0, 0, 0, 0, none, none⟩,
          List.length_replicate⟩ hl)
      rw [hpag, numeroPagina_lt_iff hr.1] at h
      exact ⟨hr.1, h.2⟩
    · -- some row is read for an address out of the range
      obtain ⟨v', hv', hf⟩ := h ⟨⟨0, s / t, List.replicate CANT_PAGINAS
        ⟨0, 0, 0, 0, 0, 0, none, none⟩, List.length_replicate⟩, [], []⟩ rfl 0 0
      obtain ⟨l, hl⟩ := acceder_filas hv'
      rw [hf] at hl
      cases hl
  · intro h dir hdir pedido hp
    obtain ⟨h0, hlt, hcant⟩ := h dir hdir
    have hpag := pedidoDeMarco_eq hdir hp
    rw [if_pos ⟨h0, by omega⟩]
    intro pid posiciones memoria hl
    refine (generarTablaPaginas_iff pid memoria hl).mpr ?_
    rw [hpag, numeroPagina_lt_iff h0]
    refine ⟨?_, hlt, hcant⟩
    exact Int.tdiv_nonneg h0 (Int.natCast_nonneg t)

/-- A process of `10` bytes, with pages of `4`: its address `9` has no row, and `-1` has the first. -/
theorem fuera_de_su_rango : ¬ UsaSuRango 4 10 (.MOV_IN 'A' 9) ∧ ¬ UsaSuRango 4 10 (.MOV_OUT (-1) 'A') := by
  refine ⟨fun h => ?_, fun h => ?_⟩
  · have h := h 9 rfl _ rfl
    rw [if_pos (by decide)] at h
    obtain ⟨tabla, ht, -, hlt, -⟩ := h 0 [0, 0]
      ⟨0, 0, List.replicate CANT_PAGINAS ⟨0, 0, 0, 0, 0, 0, none, none⟩, List.length_replicate⟩ rfl
    obtain rfl := Option.some.inj ht
    exact absurd hlt (by decide)
  · have h := h (-1) rfl _ rfl
    rw [if_neg (by decide)] at h
    obtain ⟨v', hv', hf⟩ := h ⟨⟨0, 2, List.replicate CANT_PAGINAS
      ⟨0, 0, 0, 0, 0, 0, none, none⟩, List.length_replicate⟩, [], []⟩ rfl 0 0
    obtain ⟨l, hl⟩ := acceder_filas hv'
    rw [hf] at hl
    cases hl

end OperatingSystem.Cpu.Rangos
