import OperatingSystem.Memoria.Lectura

/-! # The modified bits

A page that is `Intacta` holds in its frame what its swap position holds, and may be dropped. `BitsSanos`
says that every other page in memory is marked as modified, so that dropping it saves it first. Besides
the requests of the CPU and the kernel there is `MEMORY_WRITE` here, by which the file system puts the
data of an `F_READ` in the memory: it marks no page, and the CPU asked for the frame with `LEER`.

`bitsSanos_escribir_iff` is when a write keeps the bits right. With it, `bits_sanos` is that they are
right after every run whose writes fall on marked pages, or on the page that `escribir_valor` marks, and
whose loads replace modified pages only. -/

namespace OperatingSystem.Memoria.Modificadas

open OperatingSystem.Lib.Bytes OperatingSystem.Lib.Dictionary OperatingSystem.Lib.Run
open OperatingSystem.Memoria.Paginas OperatingSystem.Memoria.HandlerPaginacion
open OperatingSystem.Memoria.Lugares OperatingSystem.Memoria.Marcos OperatingSystem.Memoria.Contenido
open OperatingSystem.Memoria.Pedidos

/-! ### Requests -/

/-- A request of the CPU or the kernel, or the data of an `F_READ`. -/
inductive Peticion where
  | pedido (ped : Pedido)
  | memoryWrite (pid : ℤ) (dirLogica : ℕ) (data : List UInt32)

def atender (s : Sistema) : Peticion → Option Sistema
  | .pedido ped => Pedidos.atender s ped
  | .memoryWrite pid dirLogica data => do
    let dirFisica ← s.dirFisica pid dirLogica
    return { s with handler := escribirValorPagina s.handler dirFisica data }

/-! ### What is promised -/

/-- The frame of a page in memory holds what its swap position holds. -/
def Intacta (h : Handler) (l : Lugar) : Prop :=
  ∀ k < h.tamanioPagina,
    h.espacioUsuario.espacio (l.nroFrame * h.tamanioPagina + k) = h.swap l.posSwap k

/-- **The modified bits are right.** -/
def BitsSanos (h : Handler) : Prop :=
  ∀ p i pag, pagina h p i = some pag → pag.bitPresencia = 1 → ¬Intacta h (lugarDe pag) →
    pag.bitModificado = 1

/-- The memory `m` is another one in the frame of the page. -/
def Cambia (h : Handler) (m : Mem) (pag : Pagina) : Prop :=
  ∃ k < h.tamanioPagina, m (pag.nroFrame * h.tamanioPagina + k) ≠
    h.espacioUsuario.espacio (pag.nroFrame * h.tamanioPagina + k)

/-- The page is marked, or is the one that will be. -/
def Marcada (marca : Option Puntero) (p : ℤ) (i : ℕ) (pag : Pagina) : Prop :=
  pag.bitModificado = 1 ∨ ∃ ptr ∈ marca, ptr.pid = p ∧ ptr.nroPagina = i

/-- Every page in memory that the memory `m` changes is marked, or will be. -/
def Cubre (h : Handler) (m : Mem) (marca : Option Puntero) : Prop :=
  ∀ p i pag, pagina h p i = some pag → pag.bitPresencia = 1 → Cambia h m pag → Marcada marca p i pag

/-- The last frame told for the page was told for this operation. -/
def Pedida (s : Sistema) (pid : ℤ) (dirLogica : ℕ) (op : TipoOperacion) : Prop :=
  (s.traducciones (pid, s.nroPagina dirLogica)).map Prod.snd = some op

/-- `MOV_OUT`s go to frames that were asked for to write, and the data of the file system, one page of
it, to frames that were asked for to read. -/
def Protocolo (s : Sistema) : Peticion → Prop
  | .pedido (.movOut pid dirLogica _) => Pedida s pid dirLogica .ESCRIBIR
  | .pedido (.movIn _ _) => True
  | .pedido ped => Lectura.Protocolo s ped
  | .memoryWrite pid dirLogica data => Pedida s pid dirLogica .LEER ∧
      data.length = s.handler.tamanioPagina / 4

/-- Loads replace modified pages only, with pages of whole words; writes fall on marked pages, or on the
one that `escribir_valor` finds. -/
def Condicion (s : Sistema) : Peticion → Prop
  | .pedido (.loadFrame pid _ _ orden) => ReemplazaModificada s.handler pid orden ∧
      s.handler.tamanioPagina % 4 = 0
  | .pedido (.movOut pid dirLogica valor) => ∀ dirFisica ∈ s.dirFisica pid dirLogica,
      ∀ r ∈ encontrarPaginaAModificar s.handler
        (espacioObtenerFrame s.handler.espacioUsuario dirFisica)
        s.handler.paginasPendientesModificacion,
      Cubre s.handler (escribir s.handler.espacioUsuario.espacio dirFisica valor) r.1
  | .memoryWrite pid dirLogica data => ∀ dirFisica ∈ s.dirFisica pid dirLogica,
      Cubre s.handler (escribirPalabras s.handler.espacioUsuario.espacio dirFisica data) none
  | _ => True

variable {h h' : Handler} {p q : ℤ} {i j f : ℕ} {pag : Pagina} {tabla : TablaPaginas} {l : Lugar}
  {orden : List ℤ}

/-! ### Decidability -/

instance (h : Handler) (l : Lugar) : Decidable (Intacta h l) :=
  inferInstanceAs (Decidable (∀ k < h.tamanioPagina, _))

instance (h : Handler) (m : Mem) (pag : Pagina) : Decidable (Cambia h m pag) :=
  inferInstanceAs (Decidable (∃ k < h.tamanioPagina, _))

instance (marca : Option Puntero) (p : ℤ) (i : ℕ) (pag : Pagina) : Decidable (Marcada marca p i pag) :=
  inferInstanceAs (Decidable (_ ∨ ∃ ptr ∈ marca, _))

instance (h : Handler) : Decidable (BitsSanos h) := decidable_of_iff _ forall_pagina_iff

instance (h : Handler) (m : Mem) (marca : Option Puntero) : Decidable (Cubre h m marca) :=
  decidable_of_iff _ forall_pagina_iff

instance (s : Sistema) (pid : ℤ) (dirLogica : ℕ) (op : TipoOperacion) :
    Decidable (Pedida s pid dirLogica op) := inferInstanceAs (Decidable (_ = some op))

instance (s : Sistema) : ∀ pet, Decidable (Protocolo s pet)
  | .pedido (.movOut pid dirLogica _) => inferInstanceAs (Decidable (Pedida s pid dirLogica .ESCRIBIR))
  | .memoryWrite pid dirLogica data =>
    inferInstanceAs (Decidable (Pedida s pid dirLogica .LEER ∧
      data.length = s.handler.tamanioPagina / 4))
  | .pedido (.movIn _ _) => isTrue trivial
  | .pedido (.newProcess pid size posiciones) =>
    inferInstanceAs (Decidable (Lectura.Protocolo s (.newProcess pid size posiciones)))
  | .pedido (.frameRequest pid pagina op ahora) =>
    inferInstanceAs (Decidable (Lectura.Protocolo s (.frameRequest pid pagina op ahora)))
  | .pedido (.loadFrame pid pagina ahora orden) =>
    inferInstanceAs (Decidable (Lectura.Protocolo s (.loadFrame pid pagina ahora orden)))
  | .pedido (.exitProcess pid) =>
    inferInstanceAs (Decidable (Lectura.Protocolo s (.exitProcess pid)))

instance (s : Sistema) : ∀ pet, Decidable (Condicion s pet)
  | .pedido (.loadFrame pid _ _ orden) =>
    inferInstanceAs (Decidable (ReemplazaModificada s.handler pid orden ∧
      s.handler.tamanioPagina % 4 = 0))
  | .pedido (.movOut pid dirLogica valor) =>
    inferInstanceAs (Decidable (∀ dirFisica ∈ s.dirFisica pid dirLogica,
      ∀ r ∈ encontrarPaginaAModificar s.handler
        (espacioObtenerFrame s.handler.espacioUsuario dirFisica)
        s.handler.paginasPendientesModificacion,
      Cubre s.handler (escribir s.handler.espacioUsuario.espacio dirFisica valor) r.1))
  | .memoryWrite pid dirLogica data =>
    inferInstanceAs (Decidable (∀ dirFisica ∈ s.dirFisica pid dirLogica,
      Cubre s.handler (escribirPalabras s.handler.espacioUsuario.espacio dirFisica data) none))
  | .pedido (.newProcess ..) | .pedido (.frameRequest ..) | .pedido (.movIn ..)
  | .pedido (.exitProcess _) => isTrue trivial

/-! ### The bits -/

/-- The modified bit of a page. -/
def bit (h : Handler) (p : ℤ) (i : ℕ) : Option ℕ := (pagina h p i).map Pagina.bitModificado

theorem bitsSanos_iff : BitsSanos h ↔ ∀ p i l, lugar h p i = some l → l.bitPresencia = 1 →
    ¬Intacta h l → bit h p i = some 1 := by
  unfold BitsSanos bit
  constructor
  · intro hB p i l hl hpres hint
    obtain ⟨pag, hpag, rfl⟩ := lugar_eq_some.mp hl
    rw [hpag, Option.map_some, hB p i pag hpag hpres hint]
  · intro hB p i pag hpag hpres hint
    have hbit := hB p i (lugarDe pag) (lugar_eq_some.mpr ⟨pag, hpag, rfl⟩) hpres hint
    rw [hpag] at hbit
    exact Option.some.inj hbit

theorem bit_setTabla (ht : h.pidTablas.get p = some tabla) (hi : tabla.paginas[i]? = some pag)
    (pag' : Pagina) (q : ℤ) (j : ℕ) :
    bit (setTabla h p { tabla with paginas := tabla.paginas.set i pag' }) q j =
      if q = p ∧ j = i then some pag'.bitModificado else bit h q j := by
  unfold bit
  rw [pagina_setTabla ht hi]
  split_ifs <;> rfl

/-- An assignment to other fields. -/
theorem bit_setTabla_of_eq (ht : h.pidTablas.get p = some tabla) (hi : tabla.paginas[i]? = some pag)
    (pag' : Pagina) (hbit : pag'.bitModificado = pag.bitModificado) (q : ℤ) (j : ℕ) :
    bit (setTabla h p { tabla with paginas := tabla.paginas.set i pag' }) q j = bit h q j := by
  rw [bit_setTabla ht hi]
  split_ifs with hqj
  · obtain ⟨rfl, rfl⟩ := hqj
    rw [bit, pagina_of_get ht, hi, hbit]
    rfl
  · rfl

/-- A request for a frame marks nothing. -/
theorem bit_obtenerMarco {op : TipoOperacion} {ahora : ℤ} {r : Option ℕ × Handler}
    (hr : obtenerMarco h p i op ahora = some r) (q : ℤ) (j : ℕ) : bit r.2 q j = bit h q j := by
  cases ht : h.pidTablas.get p with
  | none =>
    rw [obtenerMarco, ht] at hr
    obtain rfl := Option.some.inj hr
    rfl
  | some tabla =>
    rw [obtenerMarco, ht] at hr
    obtain ⟨pag, hi, hr⟩ := Option.bind_eq_some_iff.mp hr
    split_ifs at hr
    · obtain ⟨tabla', ht', hr⟩ := Option.bind_eq_some_iff.mp hr
      obtain ⟨pag₁, hi₁, rfl⟩ := modificar_eq_some.mp ht'
      obtain rfl := Option.some.inj hr
      exact bit_setTabla_of_eq ht hi₁ { pag₁ with ultimaLectura := some ahora } rfl q j
    · obtain ⟨tabla', ht', hr⟩ := Option.bind_eq_some_iff.mp hr
      obtain ⟨pag₁, hi₁, rfl⟩ := modificar_eq_some.mp ht'
      obtain rfl := Option.some.inj hr
      exact bit_setTabla_of_eq ht hi₁ { pag₁ with ultimaLectura := some ahora } rfl q j
    · obtain rfl := Option.some.inj hr
      rfl

/-- A page that comes in changes its own bit. -/
theorem bit_alojar {ahora : ℤ} {r : Option ℕ × Handler} (hr : alojar h p i f ahora = some r)
    (hqj : ¬(q = p ∧ j = i)) : bit r.2 q j = bit h q j := by
  obtain ⟨tabla, pag, ht, hi, rfl⟩ := alojar_eq_some hr
  exact (bit_setTabla ht hi _ q j).trans (if_neg hqj)

/-- A page that goes out keeps its bit. -/
theorem bit_removerPaginaMemoria {r : Option Pagina × Handler}
    (hr : removerPaginaMemoria h orden = some r) (q : ℤ) (j : ℕ) : bit r.2 q j = bit h q j := by
  rcases removerPaginaMemoria_tablas hr with heq | ⟨p, i, tabla, pag, swap, ht, hi, heq⟩
  · rw [heq]
  · rw [heq]
    exact bit_setTabla_of_eq ht hi pag.removida rfl q j

/-! ### Writes -/

/-- The handler after a write that makes the memory `m` and marks a page, or none. -/
structure Escrito (h h' : Handler) (m : Mem) (marca : Option Puntero) : Prop where
  lugar : ∀ q j, lugar h' q j = lugar h q j
  espacio : h'.espacioUsuario.espacio = m
  swap : h'.swap = h.swap
  tamanioPagina : h'.tamanioPagina = h.tamanioPagina
  marcada : ∀ ptr ∈ marca, bit h' ptr.pid ptr.nroPagina = some 1
  resto : ∀ q j, (∀ ptr ∈ marca, ¬(ptr.pid = q ∧ ptr.nroPagina = j)) → bit h' q j = bit h q j

theorem escrito_escribirValorPagina (h : Handler) (dir : ℕ) (data : List UInt32) :
    Escrito h (escribirValorPagina h dir data)
      (escribirPalabras h.espacioUsuario.espacio dir data) none :=
  ⟨fun _ _ => rfl, rfl, rfl, rfl, fun _ hp => absurd hp (by simp), fun _ _ _ => rfl⟩

theorem escrito_escribirValor {dir : ℕ} {v : UInt32} {r : Option Puntero × List Puntero}
    (hr : encontrarPaginaAModificar h (espacioObtenerFrame h.espacioUsuario dir)
      h.paginasPendientesModificacion = some r) (hw : escribirValor h dir v = some h') :
    Escrito h h' (escribir h.espacioUsuario.espacio dir v) r.1 := by
  have hig := escribirValor_spec hw
  have hbit : (∀ ptr ∈ r.1, bit h' ptr.pid ptr.nroPagina = some 1) ∧
      ∀ q j, (∀ ptr ∈ r.1, ¬(ptr.pid = q ∧ ptr.nroPagina = j)) → bit h' q j = bit h q j := by
    obtain ⟨r', hr', hw⟩ := Option.bind_eq_some_iff.mp hw
    obtain rfl := Option.some.inj (hr.symm.trans
      ((encontrarPaginaAModificar_setEspacio _ _ _).symm.trans hr'))
    obtain ⟨marca, ps⟩ := r
    cases marca with
    | none =>
      obtain rfl := Option.some.inj hw
      exact ⟨fun _ hp => absurd hp (by simp), fun _ _ _ => rfl⟩
    | some ptr =>
      obtain ⟨tabla, ht, hw⟩ := Option.bind_eq_some_iff.mp hw
      obtain ⟨tabla', ht', hw⟩ := Option.bind_eq_some_iff.mp hw
      obtain ⟨pag, hi, rfl⟩ := modificar_eq_some.mp ht'
      obtain rfl := Option.some.inj hw
      have hset := bit_setTabla ht hi { pag with bitModificado := 1 }
      constructor
      · intro ptr' hp
        obtain rfl := Option.some.inj hp
        exact (hset _ _).trans (if_pos ⟨rfl, rfl⟩)
      · intro q j hqj
        exact (hset q j).trans (if_neg fun h => hqj ptr rfl ⟨h.1.symm, h.2.symm⟩)
  exact ⟨hig.lugar, by rw [hig.espacioUsuario]; rfl, hig.swap, hig.tamanioPagina, hbit.1, hbit.2⟩

/-- **When a write keeps the bits right.** -/
theorem bitsSanos_escribir_iff {m : Mem} {marca : Option Puntero} (hB : BitsSanos h)
    (hE : Escrito h h' m marca) : BitsSanos h' ↔ Cubre h m marca := by
  constructor
  · intro hB' p i pag hp hpres hdif
    by_contra hno
    unfold Marcada at hno
    rw [not_or] at hno
    obtain ⟨k, hk, hne⟩ := hdif
    have hint : Intacta h (lugarDe pag) := by
      by_contra hint
      exact hno.1 (hB p i pag hp hpres hint)
    have hl : lugar h' p i = some (lugarDe pag) :=
      (hE.lugar p i).trans (lugar_eq_some.mpr ⟨pag, hp, rfl⟩)
    have hrota : ¬Intacta h' (lugarDe pag) := by
      intro hint'
      have h1 := hint' k (by rw [hE.tamanioPagina]; exact hk)
      rw [hE.espacio, hE.swap, hE.tamanioPagina, ← hint k hk] at h1
      exact hne h1
    have hbit := bitsSanos_iff.mp hB' p i _ hl hpres hrota
    rw [hE.resto p i fun ptr hptr heq => hno.2 ⟨ptr, hptr, heq⟩, bit, hp] at hbit
    exact hno.1 (Option.some.inj hbit)
  · intro hC
    refine bitsSanos_iff.mpr fun p i l hl hpres hrota => ?_
    rw [hE.lugar] at hl
    obtain ⟨pag, hp, rfl⟩ := lugar_eq_some.mp hl
    by_cases hmarca : ∃ ptr ∈ marca, ptr.pid = p ∧ ptr.nroPagina = i
    · obtain ⟨ptr, hptr, rfl, rfl⟩ := hmarca
      exact hE.marcada ptr hptr
    · rw [hE.resto p i fun ptr hptr heq => hmarca ⟨ptr, hptr, heq⟩]
      by_cases hint : Intacta h (lugarDe pag)
      · -- the write changed the page
        unfold Intacta at hrota
        push Not at hrota
        obtain ⟨k, hk, hne⟩ := hrota
        rw [hE.tamanioPagina] at hk
        rw [hE.espacio, hE.swap, hE.tamanioPagina, ← hint k hk] at hne
        have huno := (hC p i pag hp hpres ⟨k, hk, hne⟩).resolve_right hmarca
        rw [bit, hp, Option.map_some, huno]
      · exact bitsSanos_iff.mp hB p i _ hl hpres hint

/-! ### The other steps -/

/-- A step that damages no page and clears no bit of a damaged one. -/
theorem BitsSanos.of_lugar (hB : BitsSanos h)
    (hpaso : ∀ q j l, lugar h' q j = some l → l.bitPresencia = 1 → ¬Intacta h' l →
      lugar h q j = some l ∧ ¬Intacta h l ∧ bit h' q j = bit h q j) : BitsSanos h' := by
  refine bitsSanos_iff.mpr fun p i l hl hpres hrota => ?_
  obtain ⟨hl₀, hrota₀, hbit⟩ := hpaso p i l hl hpres hrota
  rw [hbit]
  exact bitsSanos_iff.mp hB p i l hl₀ hpres hrota₀

theorem BitsSanos.obtenerMarco (hB : BitsSanos h) {op : TipoOperacion} {ahora : ℤ}
    {r : Option ℕ × Handler} (hr : obtenerMarco h p i op ahora = some r) : BitsSanos r.2 := by
  obtain ⟨hig, -⟩ := obtenerMarco_spec hr
  refine hB.of_lugar fun q j l hl _ hrota => ⟨by rw [← hig.lugar]; exact hl, fun hint => hrota ?_,
    bit_obtenerMarco hr q j⟩
  intro k hk
  rw [hig.tamanioPagina] at hk
  rw [hig.espacioUsuario, hig.swap, hig.tamanioPagina]
  exact hint k hk

/-- **A modified page that goes out** leaves the others as they are. -/
theorem BitsSanos.removida (hB : BitsSanos h) (hI : Base h) (hD : Distintas h)
    (hv : paginaAReemplazar h orden = some (some pag)) (hm : pag.bitModificado = 1)
    {r : Option Pagina × Handler} (hr : removerPaginaMemoria h orden = some r) : BitsSanos r.2 := by
  obtain ⟨hp, -⟩ := hI.victima hv
  obtain ⟨-, hl', he, hs, htam, -⟩ := removerPaginaMemoria_spec hr hv hm hp
  refine hB.of_lugar fun q j l hl hpres hrota => ?_
  rw [hl'] at hl
  split_ifs at hl with hqj
  · obtain rfl := Option.some.inj hl
    exact absurd hpres Nat.zero_ne_one
  · refine ⟨hl, fun hint => hrota fun k hk => ?_, bit_removerPaginaMemoria hr q j⟩
    have hne : l.posSwap ≠ pag.posSwap := fun heq =>
      hqj (hD _ _ _ _ _ _ hl (lugar_eq_some.mpr ⟨pag, hp, rfl⟩) heq)
    rw [htam] at hk ⊢
    rw [he, hs, Function.update_of_ne hne]
    exact hint k hk

/-- **A page that comes in**, of whole words, is intact. -/
theorem BitsSanos.alojar (hB : BitsSanos h) (hS : Salvo h f) (htam : h.tamanioPagina % 4 = 0)
    {ahora : ℤ} {r : Option ℕ × Handler} (hr : alojar h p i f ahora = some r) : BitsSanos r.2 := by
  obtain ⟨l₀, h', rfl, hl₀, hl', he, hs, htam', -⟩ := alojar_inv hr
  have hpalabras : 4 * (h.tamanioPagina / 4) = h.tamanioPagina := by omega
  have hesp : ∀ b, h'.espacioUsuario.espacio b = if f * h.tamanioPagina ≤ b ∧
      b < f * h.tamanioPagina + h.tamanioPagina then h.swap l₀.posSwap (b - f * h.tamanioPagina)
      else h.espacioUsuario.espacio b := by
    intro b
    have hcopia := escribirPalabras_leerPalabras (h.swap l₀.posSwap) (h.tamanioPagina / 4)
      h.espacioUsuario.espacio (f * h.tamanioPagina) 0 b
    rw [hpalabras, Nat.zero_add] at hcopia
    rw [he]
    exact hcopia
  refine hB.of_lugar fun q j l hl hpres hrota => ?_
  change ¬Intacta h' l at hrota
  rw [hl'] at hl
  split_ifs at hl with hqj
  · -- the page itself
    obtain rfl := Option.some.inj hl
    refine absurd (fun k hk => ?_) hrota
    change k < h'.tamanioPagina at hk
    change h'.espacioUsuario.espacio (f * h'.tamanioPagina + k) = h'.swap l₀.posSwap k
    rw [htam'] at hk ⊢
    rw [hesp, hs, if_pos ⟨by omega, by omega⟩, Nat.add_sub_cancel_left]
  · refine ⟨hl, fun hint => hrota fun k hk => ?_, bit_alojar hr hqj⟩
    have hne : f ≠ l.nroFrame := by
      rintro rfl
      exact hS.nadie _ _ ⟨l, hl, hpres, rfl⟩
    rw [htam'] at hk ⊢
    have hfuera : ¬(f * h.tamanioPagina ≤ l.nroFrame * h.tamanioPagina + k ∧
        l.nroFrame * h.tamanioPagina + k < f * h.tamanioPagina + h.tamanioPagina) := by
      rcases Nat.lt_or_gt_of_ne hne with hlt | hlt
      · have hle : (f + 1) * h.tamanioPagina ≤ l.nroFrame * h.tamanioPagina :=
          Nat.mul_le_mul_right _ hlt
        rw [Nat.succ_mul] at hle
        omega
      · have hle : (l.nroFrame + 1) * h.tamanioPagina ≤ f * h.tamanioPagina :=
          Nat.mul_le_mul_right _ hlt
        rw [Nat.succ_mul] at hle
        omega
    rw [hesp, if_neg hfuera, hs]
    exact hint k hk

theorem BitsSanos.cargar (hB : BitsSanos h) (hI : Propios h) (hD : Distintas h) {nro : ℕ}
    {ahora : ℤ} {r : Option ℕ × Handler} (htam : h.tamanioPagina % 4 = 0)
    (hc : ReemplazaModificada h p orden) (hr : cargarEnMemoria h p nro ahora orden = some r) :
    BitsSanos r.2 := by
  rcases cargarEnMemoria_cases hc hr with
    he | ⟨he, -⟩ | ⟨f, hf, ha⟩ | ⟨pag, h₁, hv, hm, hrem, ha⟩
  · exact he ▸ hB
  · rw [he]
    exact hB
  · exact hB.alojar (salvo_of_libre hI hf) htam ha
  · have hB₁ : BitsSanos h₁ := hB.removida hI.toBase hD hv hm hrem
    obtain ⟨-, -, -, -, htam', -⟩ := removerPaginaMemoria_spec hrem hv hm (hI.victima hv).1
    exact hB₁.alojar (salvo_of_removida hI hv hm hrem) (by rw [htam']; exact htam) ha

/-- No page of a new process is in memory. -/
theorem BitsSanos.generar (hB : BitsSanos h) {size : ℕ} {posiciones : List ℤ}
    (hlibres : ∀ q j l, lugar h q j = some l → l.posSwap ∉ posiciones)
    (hr : generarTablaPaginas h p size posiciones = some h') : BitsSanos h' := by
  obtain ⟨hl', he, hs, htam, -⟩ := generarTablaPaginas_spec hr
  refine hB.of_lugar fun q j l hl hpres hrota => ?_
  rw [hl'] at hl
  split_ifs at hl with hq
  · obtain ⟨pos, -, rfl⟩ := Option.map_eq_some_iff.mp hl
    exact absurd hpres Nat.zero_ne_one
  · refine ⟨hl, fun hint => hrota fun k hk => ?_, ?_⟩
    · rw [htam] at hk ⊢
      rw [he, hs]
      simp only [if_neg (hlibres q j l hl)]
      exact hint k hk
    · simp only [generarTablaPaginas] at hr
      split_ifs at hr
      obtain rfl := Option.some.inj hr
      rw [bit, bit, pagina, pagina, setTabla, Dict.get_put_of_ne _ hq]

theorem BitsSanos.removerProceso (hB : BitsSanos h) (hr : removerProceso h p = some h') :
    BitsSanos h' := by
  obtain ⟨hl', he, -, -, -, -, hs, htam, -⟩ := removerProceso_spec hr
  refine hB.of_lugar fun q j l hl _ hrota => ?_
  rw [hl'] at hl
  split_ifs at hl with hq
  refine ⟨hl, fun hint => hrota fun k hk => ?_, ?_⟩
  · rw [htam] at hk ⊢
    rw [he, hs]
    exact hint k hk
  · obtain ⟨tabla, -, hr⟩ := Option.bind_eq_some_iff.mp hr
    obtain rfl := Option.some.inj hr
    rw [bit, bit, pagina, pagina, setEspacio, Dict.get_remove_of_ne _ hq]

/-! ### Runs -/

variable {s s' : Sistema}

/-- What the bits being right rests on. -/
structure Inv (s : Sistema) : Prop where
  propios : Propios s.handler
  distintas : Distintas s.handler
  marcos : 0 < s.handler.espacioUsuario.cantidadMarcos
  faltas : ∀ p i, s.faltas (p, i) = true → ∀ l, lugar s.handler p i = some l → l.bitPresencia ≠ 1
  vivos : ∀ p i l, lugar s.handler p i = some l → p ∈ s.pids
  sanos : BitsSanos s.handler

/-- A step that moves no page. -/
theorem Inv.of_lugar (hI : Inv s) (hlug : ∀ q j, lugar s'.handler q j = lugar s.handler q j)
    (hpropios : Propios s'.handler) (hpids : s'.pids = s.pids)
    (hmarcos : s'.handler.espacioUsuario.cantidadMarcos = s.handler.espacioUsuario.cantidadMarcos)
    (hfaltas : ∀ p i, s'.faltas (p, i) = true → s.faltas (p, i) = true ∨
      ∀ l, lugar s.handler p i = some l → l.bitPresencia ≠ 1)
    (hsanos : BitsSanos s'.handler) : Inv s' where
  propios := hpropios
  distintas := hI.distintas.of_posSwap fun q j l hl => ⟨l, by rw [← hlug]; exact hl, rfl⟩
  marcos := by rw [hmarcos]; exact hI.marcos
  faltas p i hf l hl := by
    rw [hlug] at hl
    exact (hfaltas p i hf).elim (fun hf => hI.faltas p i hf l hl) fun hf => hf l hl
  vivos p i l hl := by
    rw [hlug] at hl
    exact hpids ▸ hI.vivos p i l hl
  sanos := hsanos

theorem inv_newProcess {size : ℕ} {posiciones : List ℤ} (hI : Inv s)
    (hp : Lectura.Protocolo s (.newProcess p size posiciones))
    (hs : Pedidos.atender s (.newProcess p size posiciones) = some s') : Inv s' := by
  obtain ⟨hnuevo, -, hnd, hlibres⟩ := hp
  obtain ⟨h', hg, hs⟩ := Option.bind_eq_some_iff.mp hs
  obtain rfl := Option.some.inj hs
  unfold allocateNewProcess at hg
  split_ifs at hg
  have hsin : ∀ i, lugar s.handler p i = none := fun i =>
    Option.eq_none_iff_forall_ne_some.mpr fun l hl => hnuevo (hI.vivos p i l hl)
  obtain ⟨hl', he, -⟩ := generarTablaPaginas_spec hg
  refine ⟨propios_generar hI.propios hsin hg, hI.distintas.generar hnd hlibres hg,
    by rw [he]; exact hI.marcos, fun q i hf l hl => ?_, fun q i l hl => ?_,
    hI.sanos.generar hlibres hg⟩
  · rw [hl'] at hl
    split_ifs at hl
    · obtain ⟨pos, -, rfl⟩ := Option.map_eq_some_iff.mp hl
      exact Nat.zero_ne_one
    · exact hI.faltas q i hf l hl
  · rw [hl'] at hl
    split_ifs at hl with hq
    · exact hq ▸ List.mem_cons_self
    · exact List.mem_cons_of_mem _ (hI.vivos q i l hl)

theorem inv_frameRequest {nro : ℕ} {op : TipoOperacion} {ahora : ℤ} (hI : Inv s)
    (hs : Pedidos.atender s (.frameRequest p nro op ahora) = some s') : Inv s' := by
  obtain ⟨⟨r, h'⟩, hreq, hs⟩ := Option.bind_eq_some_iff.mp hs
  unfold frameRequest at hreq
  split_ifs at hreq
  obtain ⟨hig, -, hfalta⟩ := obtenerMarco_spec hreq
  have hpropios : Propios h' := hI.propios.of_igual hig
  have hsanos : BitsSanos h' := hI.sanos.obtenerMarco hreq
  have hmarcos : h'.espacioUsuario.cantidadMarcos = s.handler.espacioUsuario.cantidadMarcos :=
    congrArg _ hig.espacioUsuario
  cases r with
  | some f =>
    obtain rfl := Option.some.inj hs
    exact hI.of_lugar hig.lugar hpropios rfl hmarcos (fun _ _ hf => Or.inl hf) hsanos
  | none =>
    obtain rfl := Option.some.inj hs
    refine hI.of_lugar hig.lugar hpropios rfl hmarcos (fun q i hf => ?_) hsanos
    by_cases hqi : (q, i) = (p, nro)
    · obtain ⟨rfl, rfl⟩ := Prod.mk.inj hqi
      exact Or.inr (hfalta rfl)
    · exact Or.inl (by simpa [Function.update_of_ne hqi] using hf)

theorem inv_loadFrame {nro : ℕ} {ahora : ℤ} (hI : Inv s)
    (hp : Lectura.Protocolo s (.loadFrame p nro ahora orden))
    (hc : Condicion s (.pedido (.loadFrame p nro ahora orden)))
    (hs : Pedidos.atender s (.loadFrame p nro ahora orden) = some s') : Inv s' := by
  obtain ⟨r, hr, hs⟩ := Option.bind_eq_some_iff.mp hs
  obtain rfl := Option.some.inj hs
  have habs := hI.faltas p nro hp.1
  obtain ⟨-, hcant, hlug⟩ := cargarEnMemoria_resto hI.propios hI.marcos hc.1 hr
  refine ⟨propios_cargar hI.propios habs hc.1 hr, hI.distintas.of_posSwap fun q j l hl => ?_,
    by rw [hcant]; exact hI.marcos, fun q i hf l hl hpres => ?_, fun q i l hl => ?_,
    hI.sanos.cargar hI.propios hI.distintas hc.2 hc.1 hr⟩
  · obtain ⟨l₀, hl₀, hpos, -⟩ := hlug q j l hl
    exact ⟨l₀, hl₀, hpos⟩
  · obtain ⟨l₀, hl₀, -, himp⟩ := hlug q i l hl
    change Function.update s.faltas (p, nro) false (q, i) = true at hf
    by_cases hqi : (q, i) = (p, nro)
    · rw [hqi, Function.update_self] at hf
      exact absurd hf Bool.false_ne_true
    · rw [Function.update_of_ne hqi] at hf
      exact hI.faltas q i hf l₀ hl₀ (himp (fun h => hqi (by rw [h.1, h.2])) hpres)
  · obtain ⟨l₀, hl₀, -⟩ := hlug q i l hl
    exact hI.vivos q i l₀ hl₀

theorem inv_movOut {dirLogica : ℕ} {valor : UInt32} (hI : Inv s)
    (hc : Condicion s (.pedido (.movOut p dirLogica valor)))
    (hs : Pedidos.atender s (.movOut p dirLogica valor) = some s') : Inv s' := by
  obtain ⟨dir, hdir, hs⟩ := Option.bind_eq_some_iff.mp hs
  obtain ⟨h', hw, hs⟩ := Option.bind_eq_some_iff.mp hs
  obtain rfl := Option.some.inj hs
  obtain ⟨r, hr, -⟩ := Option.bind_eq_some_iff.mp hw
  have hr' := (encontrarPaginaAModificar_setEspacio _ _ _).symm.trans hr
  have hE := escrito_escribirValor hr' hw
  have hig := escribirValor_spec hw
  have hmarcos : h'.espacioUsuario.cantidadMarcos = s.handler.espacioUsuario.cantidadMarcos := by
    rw [hig.espacioUsuario]
    rfl
  exact hI.of_lugar hE.lugar ((hI.propios.of_espacio _).of_igual hig) rfl hmarcos
    (fun _ _ hf => Or.inl hf) ((bitsSanos_escribir_iff hI.sanos hE).mpr (hc dir hdir r hr'))

theorem inv_memoryWrite {dirLogica : ℕ} {data : List UInt32} (hI : Inv s)
    (hc : Condicion s (.memoryWrite p dirLogica data))
    (hs : atender s (.memoryWrite p dirLogica data) = some s') : Inv s' := by
  obtain ⟨dir, hdir, hs⟩ := Option.bind_eq_some_iff.mp hs
  obtain rfl := Option.some.inj hs
  have hE := escrito_escribirValorPagina s.handler dir data
  exact hI.of_lugar hE.lugar (hI.propios.of_espacio _) rfl rfl (fun _ _ hf => Or.inl hf)
    ((bitsSanos_escribir_iff hI.sanos hE).mpr (hc dir hdir))

theorem inv_exitProcess (hI : Inv s)
    (hs : Pedidos.atender s (.exitProcess p) = some s') : Inv s' := by
  obtain ⟨h', hr, hs⟩ := Option.bind_eq_some_iff.mp hs
  obtain rfl := Option.some.inj hs
  obtain ⟨hl', -, hcant, -⟩ := removerProceso_spec hr
  have hvivo : ∀ q j l, lugar h' q j = some l → lugar s.handler q j = some l := by
    intro q j l hl
    rw [hl'] at hl
    split_ifs at hl
    exact hl
  exact ⟨propios_removerProceso hI.propios hr,
    hI.distintas.of_posSwap fun q j l hl => ⟨l, hvivo q j l hl, rfl⟩, by rw [hcant]; exact hI.marcos,
    fun q i hf l hl => hI.faltas q i hf l (hvivo q i l hl),
    fun q i l hl => hI.vivos q i l (hvivo q i l hl), hI.sanos.removerProceso hr⟩

/-- **One request.** -/
theorem inv_atender {pet : Peticion} (hI : Inv s) (hp : Protocolo s pet) (hc : Condicion s pet)
    (hs : atender s pet = some s') : Inv s' := by
  cases pet with
  | memoryWrite pid dirLogica data => exact inv_memoryWrite hI hc hs
  | pedido ped =>
    cases ped with
    | newProcess pid size posiciones => exact inv_newProcess hI hp hs
    | frameRequest pid nro op ahora => exact inv_frameRequest hI hs
    | loadFrame pid nro ahora orden => exact inv_loadFrame hI hp hc hs
    | movOut pid dirLogica valor => exact inv_movOut hI hc hs
    | movIn pid dirLogica =>
      obtain ⟨v, -, rfl⟩ := Option.map_eq_some_iff.mp hs
      exact hI
    | exitProcess pid => exact inv_exitProcess hI hs

theorem inv_inicial {tamanioMemoria tamanioPagina : ℕ} {algoritmo : Reemplazo} {espacio : Mem}
    (hcrear : createHandlerPaginacion tamanioMemoria tamanioPagina algoritmo espacio = some h)
    (hmarcos : 0 < h.espacioUsuario.cantidadMarcos) : Inv (inicial h) := by
  have hR := Lectura.refleja_inicial hcrear hmarcos
  have hsin : ∀ p i, pagina h p i = none := by
    obtain ⟨e, -, hr⟩ := Option.bind_eq_some_iff.mp hcrear
    obtain rfl := Option.some.inj hr
    exact fun p i => rfl
  refine ⟨hR.propios, hR.guarda.distintas, hmarcos, hR.faltas, hR.vivos, fun p i pag hp => ?_⟩
  exact absurd (hp.symm.trans (hsin p i)) (by simp)

/-- **The modified bits.** After every run of requests of the three clients in which loads replace
modified pages only and writes fall on pages that are marked, or get marked, every page in memory that
is not what its swap position holds is marked. -/
theorem bits_sanos {tamanioMemoria tamanioPagina : ℕ} {algoritmo : Reemplazo} {espacio : Mem}
    {as : List Peticion}
    (hcrear : createHandlerPaginacion tamanioMemoria tamanioPagina algoritmo espacio = some h)
    (hmarcos : 0 < h.espacioUsuario.cantidadMarcos)
    (hrun : Along atender (fun s pet => Protocolo s pet ∧ Condicion s pet) (inicial h) as)
    (hexec : exec atender (inicial h) as = some s) : BitsSanos s.handler :=
  (exec_invariant (fun _ _ _ hI hC hs => inv_atender hI hC.1 hC.2 hs)
    (inv_inicial hcrear hmarcos) hrun hexec).sanos

/-- A page that a `MOV_OUT` marked gets the data of an `F_READ`, and goes. -/
def leida : List Peticion :=
  [.pedido (.newProcess 1 8 [0, 4]), .pedido (.frameRequest 1 0 .ESCRIBIR 1),
    .pedido (.loadFrame 1 0 2 [1]), .pedido (.frameRequest 1 0 .ESCRIBIR 3), .pedido (.movOut 1 0 7),
    .pedido (.frameRequest 1 0 .LEER 4), .memoryWrite 1 0 [9], .pedido (.frameRequest 1 1 .LEER 5),
    .pedido (.loadFrame 1 1 6 [1])]

theorem bits_sanos_leida : ∃ s, exec atender (inicial (unMarco .LRU)) leida = some s ∧
    BitsSanos s.handler := by
  have hcrear : createHandlerPaginacion 4 4 .LRU (fun _ => 0) = some (unMarco .LRU) := rfl
  have hrun : Along atender (fun s pet => Protocolo s pet ∧ Condicion s pet) (inicial (unMarco .LRU))
      leida := by decide +kernel
  obtain ⟨s, hs⟩ : ∃ s, exec atender (inicial (unMarco .LRU)) leida = some s :=
    Option.isSome_iff_exists.mp (by decide +kernel)
  exact ⟨s, hs, bits_sanos hcrear (by decide) hrun hs⟩

/-- `F_READ` into a page that nobody wrote to. -/
def sinMarcar : List Peticion :=
  [.pedido (.newProcess 1 4 [0]), .pedido (.frameRequest 1 0 .LEER 1), .pedido (.loadFrame 1 0 2 [1]),
    .pedido (.frameRequest 1 0 .LEER 3), .memoryWrite 1 0 [7]]

/-- **The slip.** The page has the data that was read, and its modified bit is `0`. -/
theorem memoryWrite_sinMarcar :
    createHandlerPaginacion 4 4 .LRU (fun _ => 0) = some (unMarco .LRU) ∧
    Along atender Protocolo (inicial (unMarco .LRU)) sinMarcar ∧
    ∃ s, exec atender (inicial (unMarco .LRU)) sinMarcar = some s ∧ ¬BitsSanos s.handler := by
  refine ⟨rfl, by decide +kernel, ?_⟩
  have hmal : (exec atender (inicial (unMarco .LRU)) sinMarcar).map
      (fun s => decide (BitsSanos s.handler)) = some false := by decide +kernel
  obtain ⟨s, hs, hmal⟩ := Option.map_eq_some_iff.mp hmal
  exact ⟨s, hs, of_decide_eq_false hmal⟩

end OperatingSystem.Memoria.Modificadas
