import OperatingSystem.Memoria.Marcos

/-! # Which page a write marks

`escribir_valor` does not know whose page it writes to. It marks the first of the pages a write was
announced for (`paginas_pendientes_modificacion`) whose entry names the frame: an entry is made by
every request for a frame to write, a `MOV_OUT` takes one away, an `F_WRITE` none, and what becomes of
the page in the meantime does not change the list. `Sistema` remembers the request that the next write
follows.

`marca_iff`: in a run, the writes mark the page they were announced for, and nothing else, exactly when
each finds that page in its frame and ahead of its entry only entries of other frames. It is enough
(`Inv`) that no page with an entry is replaced and no process with an entry ends. -/

namespace OperatingSystem.Memoria.Marcas

open OperatingSystem.Lib.Dictionary OperatingSystem.Lib.Run
open OperatingSystem.Memoria.Paginas OperatingSystem.Memoria.HandlerPaginacion
open OperatingSystem.Memoria.Lugares OperatingSystem.Memoria.Marcos

/-! ### Runs -/

/-- The handler, with the process, the page and the frame of the last `obtener_marco` of the CPU, if it
was for writing and was answered, and nothing was written yet. -/
structure Sistema where
  handler : Handler
  anuncio : Option (ℤ × ℕ × ℕ)

def inicial (h : Handler) : Sistema := ⟨h, none⟩

/-- What the CPU was told, and for what. -/
def anunciar (s : Sistema) : Accion → Option (ℤ × ℕ × ℕ)
  | .obtenerMarco pid nroPagina op ahora =>
    match obtenerMarco s.handler pid nroPagina op ahora with
    | some (some marco, _) => if op = .ESCRIBIR then some (pid, nroPagina, marco) else none
    | _ => none
  | .escribir _ _ => none
  | _ => s.anuncio

def atender (s : Sistema) (a : Accion) : Option Sistema := do
  let h ← ejecutar s.handler a
  return ⟨h, anunciar s a⟩

/-- A write follows the request for its frame. -/
def Protocolo (s : Sistema) : Accion → Prop
  | .escribir dirFisica _ => ∃ pid nroPagina,
      s.anuncio = some (pid, nroPagina, dirFisica / s.handler.tamanioPagina)
  | a => Marcos.Protocolo s.handler a

/-- The write marks the page `n` of `p`, which is in memory in the frame `f`, and changes no other
entry. -/
def MarcaLaPagina (h : Handler) (dirFisica : ℕ) (valor : UInt32) (p : ℤ) (n f : ℕ) : Prop :=
  ∃ h' pag, escribirValor h dirFisica valor = some h' ∧ pagina h p n = some pag ∧
    pag.bitPresencia = 1 ∧ pag.nroFrame = f ∧
    pagina h' p n = some { pag with bitModificado := 1 } ∧
    ∀ q j, ¬(q = p ∧ j = n) → pagina h' q j = pagina h q j

/-- **What is expected of a write.** -/
def Marca (s : Sistema) : Accion → Prop
  | .escribir dirFisica valor => ∀ p n f, s.anuncio = some (p, n, f) →
      MarcaLaPagina s.handler dirFisica valor p n f
  | _ => True

/-! ### The pending pages -/

/-- The entry is of a page that exists and that is in another frame. -/
def FueraDe (h : Handler) (f : ℕ) (ptr : Puntero) : Prop :=
  ∃ pag, deref h ptr = some pag ∧ pag.nroFrame ≠ f

/-- The first entry of the list in the frame, with its page. -/
def Primera (h : Handler) (f : ℕ) (ptr : Puntero) (pag : Pagina) : Prop :=
  ∃ ant post, h.paginasPendientesModificacion = ant ++ ptr :: post ∧ (∀ q ∈ ant, FueraDe h f q) ∧
    deref h ptr = some pag ∧ pag.nroFrame = f

/-- The announced page is in its frame, and either it is the first of the pending pages in the frame
that the address falls into, or it is marked already and so is the first one, if there is one. -/
def Condicion (s : Sistema) : Accion → Prop
  | .escribir dirFisica _ => ∀ p n f, s.anuncio = some (p, n, f) →
      EnMarco s.handler p n f ∧
      ((∃ ptr pag, Primera s.handler (espacioObtenerFrame s.handler.espacioUsuario dirFisica) ptr pag ∧
          ptr.pid = p ∧ ptr.nroPagina = n) ∨
        (∃ pag, pagina s.handler p n = some pag ∧ pag.bitModificado = 1) ∧
          ((∀ ptr ∈ s.handler.paginasPendientesModificacion,
              FueraDe s.handler (espacioObtenerFrame s.handler.espacioUsuario dirFisica) ptr) ∨
            ∃ ptr pag, Primera s.handler (espacioObtenerFrame s.handler.espacioUsuario dirFisica) ptr
              pag ∧ pag.bitModificado = 1))
  | _ => True

variable {h h' : Handler} {p q : ℤ} {i j n f dir : ℕ} {pag : Pagina} {ptr : Puntero}
  {ps ps' : List Puntero} {v : UInt32}

theorem deref_pagina (hd : deref h ptr = some pag) : pagina h ptr.pid ptr.nroPagina = some pag :=
  pagina_eq_some.mpr (deref_eq_some hd)

/-- What the search in the list finds. -/
theorem encontrar_cases : ∀ {ps ps' : List Puntero} {r : Option Puntero},
    encontrarPaginaAModificar h f ps = some (r, ps') → (r = none ∧ ∀ q ∈ ps, FueraDe h f q) ∨
      ∃ ptr ant post pag, r = some ptr ∧ ps = ant ++ ptr :: post ∧ (∀ q ∈ ant, FueraDe h f q) ∧
        deref h ptr = some pag ∧ pag.nroFrame = f
  | [], _, _, hr => by
    obtain ⟨rfl, -⟩ := Prod.mk.inj (Option.some.inj hr)
    exact Or.inl ⟨rfl, by simp⟩
  | q :: ps, _, _, hr => by
    obtain ⟨pag, hd, hr⟩ := Option.bind_eq_some_iff.mp hr
    split_ifs at hr with hf
    · obtain ⟨rfl, -⟩ := Prod.mk.inj (Option.some.inj hr)
      exact Or.inr ⟨q, [], ps, pag, rfl, rfl, by simp, hd, hf⟩
    · obtain ⟨⟨r', ps₁⟩, hr', hr⟩ := Option.bind_eq_some_iff.mp hr
      obtain ⟨rfl, -⟩ := Prod.mk.inj (Option.some.inj hr)
      have hq : FueraDe h f q := ⟨pag, hd, hf⟩
      rcases encontrar_cases hr' with ⟨hnone, hall⟩ | ⟨ptr, ant, post, pag', hs, rfl, hant, hp⟩
      · refine Or.inl ⟨hnone, fun x hx => ?_⟩
        rcases List.mem_cons.mp hx with rfl | hx
        · exact hq
        · exact hall x hx
      · refine Or.inr ⟨ptr, q :: ant, post, pag', hs, rfl, fun x hx => ?_, hp⟩
        rcases List.mem_cons.mp hx with rfl | hx
        · exact hq
        · exact hant x hx

/-- The search leaves entries of the list. -/
theorem encontrar_subset : ∀ {ps ps' : List Puntero} {r : Option Puntero},
    encontrarPaginaAModificar h f ps = some (r, ps') → ps' ⊆ ps
  | [], _, _, hr => by
    obtain ⟨-, rfl⟩ := Prod.mk.inj (Option.some.inj hr)
    exact List.Subset.refl _
  | q :: ps, _, _, hr => by
    obtain ⟨pag, -, hr⟩ := Option.bind_eq_some_iff.mp hr
    split_ifs at hr
    · obtain ⟨-, rfl⟩ := Prod.mk.inj (Option.some.inj hr)
      exact List.subset_cons_self q ps
    · obtain ⟨⟨r', ps₁⟩, hr', hr⟩ := Option.bind_eq_some_iff.mp hr
      obtain ⟨-, rfl⟩ := Prod.mk.inj (Option.some.inj hr)
      exact List.cons_subset_cons q (encontrar_subset hr')

/-- Entries of other frames are passed by. -/
theorem encontrar_append (ps : List Puntero) : ∀ {ant : List Puntero},
    (∀ q ∈ ant, FueraDe h f q) → encontrarPaginaAModificar h f (ant ++ ps) =
      (encontrarPaginaAModificar h f ps).map fun r => (r.1, ant ++ r.2)
  | [], _ => by
    rw [List.nil_append]
    cases encontrarPaginaAModificar h f ps <;> rfl
  | q :: ant, hant => by
    obtain ⟨pag, hd, hf⟩ := hant q (by simp)
    have ih := encontrar_append ps fun x hx => hant x (List.mem_cons_of_mem _ hx)
    rw [List.cons_append, encontrarPaginaAModificar, hd, ih]
    simp only [Option.bind_eq_bind, Option.bind_some, if_neg hf]
    cases encontrarPaginaAModificar h f ps <;> rfl

theorem encontrar_of_primera {ant post : List Puntero} (hant : ∀ q ∈ ant, FueraDe h f q)
    (hd : deref h ptr = some pag) (hf : pag.nroFrame = f) :
    encontrarPaginaAModificar h f (ant ++ ptr :: post) = some (some ptr, ant ++ post) := by
  rw [encontrar_append _ hant, encontrarPaginaAModificar, hd]
  simp only [Option.bind_eq_bind, Option.bind_some, if_pos hf]
  rfl

theorem encontrar_of_fuera (hps : ∀ q ∈ ps, FueraDe h f q) :
    encontrarPaginaAModificar h f ps = some (none, ps) := by
  have happ := encontrar_append [] hps
  rw [List.append_nil] at happ
  rw [happ, encontrarPaginaAModificar, Option.map_some, List.append_nil]

/-! ### One write -/

/-- A write with no pending page in the frame marks nothing. -/
theorem escribirValor_ninguna (hps : ∀ q ∈ h.paginasPendientesModificacion,
      FueraDe h (espacioObtenerFrame h.espacioUsuario dir) q) (v : UInt32) :
    ∃ h', escribirValor h dir v = some h' ∧ ∀ q j, pagina h' q j = pagina h q j := by
  have hr := (encontrarPaginaAModificar_setEspacio (espacioEscribirValor h.espacioUsuario dir v)
    (espacioObtenerFrame h.espacioUsuario dir) h.paginasPendientesModificacion).trans
      (encontrar_of_fuera hps)
  exact ⟨_, Option.bind_eq_some_iff.mpr ⟨_, hr, rfl⟩, fun _ _ => rfl⟩

/-- A write marks the first pending page of the frame. -/
theorem escribirValor_primera (hp : Primera h (espacioObtenerFrame h.espacioUsuario dir) ptr pag)
    (v : UInt32) : ∃ h', escribirValor h dir v = some h' ∧ ∀ q j, pagina h' q j =
      if q = ptr.pid ∧ j = ptr.nroPagina then some { pag with bitModificado := 1 }
      else pagina h q j := by
  obtain ⟨ant, post, hps, hant, hd, hf⟩ := hp
  have hr : encontrarPaginaAModificar h _ (ant ++ ptr :: post) = some (some ptr, ant ++ post) :=
    encontrar_of_primera hant hd hf
  rw [← hps] at hr
  have hr' := (encontrarPaginaAModificar_setEspacio (espacioEscribirValor h.espacioUsuario dir v)
    (espacioObtenerFrame h.espacioUsuario dir) h.paginasPendientesModificacion).trans hr
  obtain ⟨tabla, ht, hi⟩ := deref_eq_some hd
  have hmod := modificar_eq_some (f := fun pag => { pag with bitModificado := 1 }).mpr ⟨pag, hi, rfl⟩
  refine ⟨_, Option.bind_eq_some_iff.mpr ⟨_, hr', Option.bind_eq_some_iff.mpr ⟨tabla, ht,
    Option.bind_eq_some_iff.mpr ⟨_, hmod, rfl⟩⟩⟩, fun q j => ?_⟩
  exact pagina_setTabla ht hi { pag with bitModificado := 1 } q j

/-- **When a write marks the page it was announced for.** -/
theorem marcaLaPagina_iff : MarcaLaPagina h dir v p n f ↔ EnMarco h p n f ∧
    ((∃ ptr pag, Primera h (espacioObtenerFrame h.espacioUsuario dir) ptr pag ∧ ptr.pid = p ∧
        ptr.nroPagina = n) ∨
      (∃ pag, pagina h p n = some pag ∧ pag.bitModificado = 1) ∧
        ((∀ ptr ∈ h.paginasPendientesModificacion,
            FueraDe h (espacioObtenerFrame h.espacioUsuario dir) ptr) ∨
          ∃ ptr pag, Primera h (espacioObtenerFrame h.espacioUsuario dir) ptr pag ∧
            pag.bitModificado = 1)) := by
  constructor
  · rintro ⟨h', pag, hw, hpag, hpres, hf, hmarca, hresto⟩
    refine ⟨enMarco_iff.mpr ⟨pag, hpag, hpres, hf⟩, ?_⟩
    obtain ⟨⟨r, ps⟩, hr, -⟩ := Option.bind_eq_some_iff.mp hw
    have hr' : encontrarPaginaAModificar h (espacioObtenerFrame h.espacioUsuario dir)
        h.paginasPendientesModificacion = some (r, ps) :=
      (encontrarPaginaAModificar_setEspacio _ _ _).symm.trans hr
    rcases encontrar_cases hr' with ⟨-, hall⟩ | ⟨ptr, ant, post, pag', -, hps, hant, hd, hf'⟩
    · obtain ⟨h₁, hw₁, hsin⟩ := escribirValor_ninguna hall v
      obtain rfl := Option.some.inj (hw.symm.trans hw₁)
      rw [hsin, hpag, Option.some.injEq] at hmarca
      exact Or.inr ⟨⟨pag, hpag, by rw [hmarca]⟩, Or.inl hall⟩
    · have hprim : Primera h (espacioObtenerFrame h.espacioUsuario dir) ptr pag' :=
        ⟨ant, post, hps, hant, hd, hf'⟩
      obtain ⟨h₁, hw₁, hsi⟩ := escribirValor_primera hprim v
      obtain rfl := Option.some.inj (hw.symm.trans hw₁)
      by_cases hptr : ptr.pid = p ∧ ptr.nroPagina = n
      · exact Or.inl ⟨ptr, pag', hprim, hptr⟩
      · -- the page marked is another one: neither of the two marks was new
        have hne : ¬(p = ptr.pid ∧ n = ptr.nroPagina) := fun he => hptr ⟨he.1.symm, he.2.symm⟩
        rw [hsi, if_neg hne, hpag, Option.some.injEq] at hmarca
        have hotra := hresto ptr.pid ptr.nroPagina hptr
        rw [hsi, if_pos ⟨rfl, rfl⟩, deref_pagina hd, Option.some.injEq] at hotra
        exact Or.inr ⟨⟨pag, hpag, by rw [hmarca]⟩, Or.inr ⟨ptr, pag', hprim, by rw [← hotra]⟩⟩
  · rintro ⟨hmarco, hcond⟩
    obtain ⟨pag, hpag, hpres, hf⟩ := enMarco_iff.mp hmarco
    rcases hcond with ⟨ptr, pag', hprim, rfl, rfl⟩ | ⟨⟨pag₁, hpag₁, hbit⟩, hcond⟩
    · obtain ⟨h', hw, hsi⟩ := escribirValor_primera hprim v
      obtain ⟨ant, post, -, -, hd, -⟩ := hprim
      obtain rfl := Option.some.inj (hpag.symm.trans (deref_pagina hd))
      exact ⟨h', pag, hw, hpag, hpres, hf, by rw [hsi, if_pos ⟨rfl, rfl⟩],
        fun q j hqj => by rw [hsi, if_neg hqj]⟩
    · obtain rfl := Option.some.inj (hpag.symm.trans hpag₁)
      have hpag' : pagina h p n = some { pag with bitModificado := 1 } := by
        rw [hpag, Option.some.injEq, ← hbit]
      rcases hcond with hall | ⟨ptr, pag', hprim, hbit'⟩
      · obtain ⟨h', hw, hsin⟩ := escribirValor_ninguna hall v
        exact ⟨h', pag, hw, hpag, hpres, hf, by rw [hsin, hpag'], fun q j _ => hsin q j⟩
      · obtain ⟨h', hw, hsi⟩ := escribirValor_primera hprim v
        obtain ⟨ant, post, -, -, hd, -⟩ := hprim
        -- the page found was marked already
        have hsi' : ∀ q j, pagina h' q j = pagina h q j := by
          intro q j
          rw [hsi]
          split_ifs with hqj
          · obtain ⟨rfl, rfl⟩ := hqj
            rw [deref_pagina hd, Option.some.injEq, ← hbit']
          · rfl
        exact ⟨h', pag, hw, hpag, hpres, hf, by rw [hsi', hpag'], fun q j _ => hsi' q j⟩

/-! ### Pending pages that are where they were -/

/-- The number of the table of a process. -/
def serie (h : Handler) (p : ℤ) : Option ℕ := (h.pidTablas.get p).map TablaPaginas.serie

/-- The entry is of a page in memory. -/
def Presente (h : Handler) (ptr : Puntero) : Prop :=
  serie h ptr.pid = some ptr.serie ∧ ∃ f, EnMarco h ptr.pid ptr.nroPagina f

/-- A load replaces a modified page that no entry is of, and a process ends without entries. -/
def Cuidada (s : Sistema) : Accion → Prop
  | .cargar pid _ _ orden => ReemplazaModificada s.handler pid orden ∧
      ∀ pag, paginaAReemplazar s.handler orden = some (some pag) →
        ∀ ptr ∈ s.handler.paginasPendientesModificacion,
          ¬(ptr.pid = pag.pid ∧ ptr.nroPagina = pag.nroPagina)
  | .remover pid => ∀ ptr ∈ s.handler.paginasPendientesModificacion, ptr.pid ≠ pid
  | _ => True

/-! ### What each function does to the tables and the list -/

theorem serie_setTabla {tabla tabla' : TablaPaginas} (ht : h.pidTablas.get p = some tabla)
    (hs : tabla'.serie = tabla.serie) (q : ℤ) : serie (setTabla h p tabla') q = serie h q := by
  by_cases hq : q = p
  · subst hq
    rw [serie, serie, ht, setTabla, Dict.get_put_self, Option.map_some, Option.map_some, hs]
  · rw [serie, serie, setTabla, Dict.get_put_of_ne _ hq]

/-- A request to write to a page in memory makes an entry for it. -/
theorem obtenerMarco_pendientes {op : TipoOperacion} {ahora : ℤ} {r : Option ℕ × Handler}
    (hr : obtenerMarco h p i op ahora = some r) : (∀ q, serie r.2 q = serie h q) ∧
      ((r.2.paginasPendientesModificacion = h.paginasPendientesModificacion ∧
          (op = .ESCRIBIR → r.1 = none)) ∨
        ∃ n f, serie h p = some n ∧ r.1 = some f ∧ r.2.paginasPendientesModificacion =
          h.paginasPendientesModificacion ++ [⟨p, n, i⟩]) := by
  cases ht : h.pidTablas.get p with
  | none =>
    rw [obtenerMarco, ht] at hr
    obtain rfl := Option.some.inj hr
    exact ⟨fun _ => rfl, Or.inl ⟨rfl, fun _ => rfl⟩⟩
  | some tabla =>
    rw [obtenerMarco, ht] at hr
    obtain ⟨pag, hi, hr⟩ := Option.bind_eq_some_iff.mp hr
    split_ifs at hr with hpres hop
    · obtain ⟨tabla', ht', hr⟩ := Option.bind_eq_some_iff.mp hr
      obtain ⟨pag₁, hi₁, rfl⟩ := modificar_eq_some.mp ht'
      obtain rfl := Option.some.inj hr
      refine ⟨serie_setTabla ht rfl, Or.inr ⟨tabla.serie, _, ?_, rfl, rfl⟩⟩
      rw [serie, ht]
      rfl
    · obtain ⟨tabla', ht', hr⟩ := Option.bind_eq_some_iff.mp hr
      obtain ⟨pag₁, hi₁, rfl⟩ := modificar_eq_some.mp ht'
      obtain rfl := Option.some.inj hr
      exact ⟨serie_setTabla ht rfl, Or.inl ⟨rfl, fun he => absurd he hop⟩⟩
    · obtain rfl := Option.some.inj hr
      exact ⟨fun _ => rfl, Or.inl ⟨rfl, fun _ => rfl⟩⟩

theorem alojar_pendientes {ahora : ℤ} {r : Option ℕ × Handler}
    (hr : alojar h p i f ahora = some r) : (∀ q, serie r.2 q = serie h q) ∧
      r.2.paginasPendientesModificacion = h.paginasPendientesModificacion := by
  obtain ⟨tabla, pag, ht, hi, rfl⟩ := alojar_eq_some hr
  exact ⟨serie_setTabla ht rfl, rfl⟩

theorem removerPaginaMemoria_pendientes {orden : List ℤ} {r : Option Pagina × Handler}
    (hr : removerPaginaMemoria h orden = some r) : (∀ q, serie r.2 q = serie h q) ∧
      r.2.paginasPendientesModificacion = h.paginasPendientesModificacion := by
  rcases removerPaginaMemoria_tablas hr with heq | ⟨p, i, tabla, pag, swap, ht, hi, heq⟩
  · rw [heq]
    exact ⟨fun _ => rfl, rfl⟩
  · rw [heq]
    exact ⟨serie_setTabla ht rfl, rfl⟩

/-- A write takes at most an entry away. -/
theorem escribirValor_pendientes (hr : escribirValor h dir v = some h') :
    (∀ q, serie h' q = serie h q) ∧
      h'.paginasPendientesModificacion ⊆ h.paginasPendientesModificacion := by
  obtain ⟨⟨r, ps⟩, hbusca, hr⟩ := Option.bind_eq_some_iff.mp hr
  have hsub : ps ⊆ h.paginasPendientesModificacion := encontrar_subset hbusca
  cases r with
  | none =>
    obtain rfl := Option.some.inj hr
    exact ⟨fun _ => rfl, hsub⟩
  | some ptr =>
    obtain ⟨tabla, ht, hr⟩ := Option.bind_eq_some_iff.mp hr
    obtain ⟨tabla', ht', hr⟩ := Option.bind_eq_some_iff.mp hr
    obtain ⟨pag, hi, rfl⟩ := modificar_eq_some.mp ht'
    obtain rfl := Option.some.inj hr
    exact ⟨serie_setTabla ht rfl, hsub⟩

/-! ### Careful runs -/

/-- **What a careful run keeps**: the pending pages are in memory, and so is the page that was
announced, which is one of them. -/
structure Inv (s : Sistema) : Prop where
  propios : Propios s.handler
  presentes : ∀ ptr ∈ s.handler.paginasPendientesModificacion, Presente s.handler ptr
  anuncio : ∀ p n f, s.anuncio = some (p, n, f) → EnMarco s.handler p n f ∧
    ∃ ptr ∈ s.handler.paginasPendientesModificacion, ptr.pid = p ∧ ptr.nroPagina = n
  tamanio : s.handler.espacioUsuario.tamanioMemoria / s.handler.espacioUsuario.cantidadMarcos =
    s.handler.tamanioPagina

/-- The entry of a page in memory points to it. -/
theorem Presente.deref (hp : Presente h ptr) : ∃ pag, deref h ptr = some pag ∧
    EnMarco h ptr.pid ptr.nroPagina pag.nroFrame := by
  obtain ⟨hs, f, hf⟩ := hp
  obtain ⟨pag, hpag, hpres, rfl⟩ := enMarco_iff.mp hf
  obtain ⟨tabla, ht, hi⟩ := pagina_eq_some.mp hpag
  have hserie : tabla.serie = ptr.serie := by
    rw [serie, ht] at hs
    exact Option.some.inj hs
  exact ⟨pag, Option.bind_eq_some_iff.mpr ⟨tabla, ht, by rw [if_pos hserie]; exact hi⟩, hf⟩

/-- Among pages in memory the search finds the one that is in the frame. -/
theorem encontrar_total (hps : ∀ q ∈ ps, Presente h q) :
    ∃ r, encontrarPaginaAModificar h f ps = some r := by
  induction ps with
  | nil => exact ⟨_, rfl⟩
  | cons q ps ih =>
    obtain ⟨pag, hd, -⟩ := (hps q (by simp)).deref
    obtain ⟨r, hr⟩ := ih fun x hx => hps x (List.mem_cons_of_mem _ hx)
    rw [encontrarPaginaAModificar, hd, hr]
    simp only [Option.bind_eq_bind, Option.bind_some]
    split_ifs <;> exact ⟨_, rfl⟩

theorem Inv.condicion {s : Sistema} (hI : Inv s) (a : Accion) (hp : Protocolo s a) :
    Condicion s a := by
  cases a with
  | escribir dir v =>
    intro p n f ha
    obtain ⟨p', n', ha'⟩ := hp
    obtain ⟨rfl, h2⟩ := Prod.mk.inj (Option.some.inj (ha.symm.trans ha'))
    obtain ⟨rfl, rfl⟩ := Prod.mk.inj h2
    obtain ⟨hmarco, ptr, hptr, rfl, rfl⟩ := hI.anuncio _ _ _ ha
    refine ⟨hmarco, Or.inl ?_⟩
    have hdir : espacioObtenerFrame s.handler.espacioUsuario dir = dir / s.handler.tamanioPagina := by
      rw [espacioObtenerFrame, hI.tamanio]
    rw [hdir]
    obtain ⟨⟨r, ps⟩, hr⟩ := encontrar_total (f := dir / s.handler.tamanioPagina) hI.presentes
    rcases encontrar_cases hr with ⟨-, hall⟩ | ⟨ptr', ant, post, pag, -, hps, hant, hd, hf⟩
    · -- the announced page is in the list
      obtain ⟨pag, hd, hf⟩ := hall ptr hptr
      obtain ⟨pag', hd', hen⟩ := (hI.presentes ptr hptr).deref
      obtain rfl := Option.some.inj (hd.symm.trans hd')
      obtain ⟨l, hl, -, hlf⟩ := hen
      obtain ⟨l', hl', -, hlf'⟩ := hmarco
      obtain rfl := Option.some.inj (hl.symm.trans hl')
      exact absurd (hlf.symm.trans hlf') hf
    · have hmem : ptr' ∈ s.handler.paginasPendientesModificacion := by
        rw [hps]
        simp
      obtain ⟨pag', hd', hen⟩ := (hI.presentes ptr' hmem).deref
      obtain rfl := Option.some.inj (hd.symm.trans hd')
      rw [hf] at hen
      exact ⟨ptr', pag, ⟨ant, post, hps, hant, hd, hf⟩, hI.propios.unico _ _ _ _ _ hen hmarco⟩
  | _ => trivial

theorem tamanioMemoria_liberarMarcos (ps : List Pagina) (e : EspacioUsuario) :
    (liberarMarcos ps e).tamanioMemoria = e.tamanioMemoria := by
  induction ps generalizing e with
  | nil => rfl
  | cons pag ps ih =>
    rw [liberarMarcos, List.foldl_cons]
    refine (ih _).trans ?_
    split_ifs <;> rfl

/-- A step that keeps the pages of the entries in their frames, and makes no entry. -/
theorem Inv.of_presentes {s s' : Sistema} (hI : Inv s) (hpropios : Propios s'.handler)
    (hpend : s'.handler.paginasPendientesModificacion ⊆ s.handler.paginasPendientesModificacion)
    (hen : ∀ ptr ∈ s.handler.paginasPendientesModificacion, ∀ f,
      serie s'.handler ptr.pid = serie s.handler ptr.pid ∧
        (EnMarco s.handler ptr.pid ptr.nroPagina f → EnMarco s'.handler ptr.pid ptr.nroPagina f))
    (hanuncio : s'.anuncio = none ∨ s'.anuncio = s.anuncio ∧
      s'.handler.paginasPendientesModificacion = s.handler.paginasPendientesModificacion)
    (htam : s'.handler.espacioUsuario.tamanioMemoria / s'.handler.espacioUsuario.cantidadMarcos =
      s'.handler.tamanioPagina) : Inv s' := by
  refine ⟨hpropios, fun ptr hptr => ?_, fun p n f ha => ?_, htam⟩
  · obtain ⟨hs, f, hf⟩ := hI.presentes ptr (hpend hptr)
    obtain ⟨h1, h2⟩ := hen ptr (hpend hptr) f
    exact ⟨h1.trans hs, f, h2 hf⟩
  · rcases hanuncio with hno | ⟨heq, hpend'⟩
    · rw [hno] at ha
      exact absurd ha (by simp)
    · rw [heq] at ha
      obtain ⟨hmarco, ptr, hptr, rfl, rfl⟩ := hI.anuncio p n f ha
      exact ⟨(hen ptr hptr f).2 hmarco, ptr, by rw [hpend']; exact hptr, rfl, rfl⟩

/-- The other pages stay in their frames when a page comes in. -/
theorem enMarco_alojar {ahora : ℤ} {r : Option ℕ × Handler} (hr : alojar h p i f ahora = some r)
    (hne : ¬(q = p ∧ j = i)) : EnMarco r.2 q j n ↔ EnMarco h q j n := by
  obtain ⟨l, h₁, rfl, -, hl₁, -⟩ := alojar_inv hr
  exact enMarco_congr ((hl₁ q j).trans (if_neg hne))

theorem tamanio_alojar {ahora : ℤ} {r : Option ℕ × Handler} (hr : alojar h p i f ahora = some r) :
    r.2.espacioUsuario.tamanioMemoria = h.espacioUsuario.tamanioMemoria ∧
      r.2.espacioUsuario.cantidadMarcos = h.espacioUsuario.cantidadMarcos ∧
      r.2.tamanioPagina = h.tamanioPagina := by
  obtain ⟨l, h₁, rfl, -, -, he, -, ht, -⟩ := alojar_inv hr
  exact ⟨by rw [he]; rfl, by rw [he]; rfl, ht⟩

theorem inv_cargar {s : Sistema} {nro : ℕ} {ahora : ℤ} {orden : List ℤ} {r : Option ℕ × Handler}
    (hI : Inv s) (hp : Protocolo s (.cargar p nro ahora orden))
    (hc : Cuidada s (.cargar p nro ahora orden))
    (hr : cargarEnMemoria s.handler p nro ahora orden = some r) : Inv ⟨r.2, s.anuncio⟩ := by
  have hpropios := propios_cargar hI.propios hp hc.1 hr
  -- the page that comes in is not one of the pending ones
  have hfuera : ∀ ptr ∈ s.handler.paginasPendientesModificacion,
      ¬(ptr.pid = p ∧ ptr.nroPagina = nro) := by
    rintro ptr hptr ⟨rfl, rfl⟩
    obtain ⟨-, f, l, hl, hpres, -⟩ := hI.presentes ptr hptr
    exact hp l hl hpres
  rcases cargarEnMemoria_cases hc.1 hr with
    he | ⟨he, -⟩ | ⟨f, -, ha⟩ | ⟨pag, h₁, hv, hm, hrem, ha⟩
  · rw [he]
    exact hI
  · rw [he]
    exact ⟨he ▸ hpropios, hI.presentes, hI.anuncio, hI.tamanio⟩
  · obtain ⟨hs, hpend⟩ := alojar_pendientes ha
    obtain ⟨h1, h2, h3⟩ := tamanio_alojar ha
    refine hI.of_presentes hpropios (by rw [hpend]; exact List.Subset.refl _) (fun ptr hptr f =>
      ⟨hs _, (enMarco_alojar ha (hfuera ptr hptr)).mpr⟩) (Or.inr ⟨rfl, hpend⟩) ?_
    rw [h1, h2, h3]
    exact hI.tamanio
  · obtain ⟨hs, hpend⟩ := alojar_pendientes ha
    obtain ⟨hs₁, hpend₁⟩ := removerPaginaMemoria_pendientes hrem
    obtain ⟨h1, h2, h3⟩ := tamanio_alojar ha
    obtain ⟨-, hl, he, -, ht, -⟩ := removerPaginaMemoria_spec hrem hv hm (hI.propios.victima hv).1
    refine hI.of_presentes hpropios (by rw [hpend, hpend₁]; exact List.Subset.refl _)
      (fun ptr hptr f => ⟨(hs _).trans (hs₁ _), fun hen => ?_⟩)
      (Or.inr ⟨rfl, hpend.trans hpend₁⟩) ?_
    · rw [enMarco_alojar ha (hfuera ptr hptr),
        enMarco_congr ((hl _ _).trans (if_neg (hc.2 pag hv ptr hptr)))]
      exact hen
    · rw [h1, h2, h3, he, ht]
      exact hI.tamanio

theorem inv_obtenerMarco {s : Sistema} {nro : ℕ} {op : TipoOperacion} {ahora : ℤ}
    {r : Option ℕ × Handler} (hI : Inv s) (hr : obtenerMarco s.handler p nro op ahora = some r) :
    Inv ⟨r.2, anunciar s (.obtenerMarco p nro op ahora)⟩ := by
  obtain ⟨hig, hmarco, -⟩ := obtenerMarco_spec hr
  obtain ⟨hs, hpend⟩ := obtenerMarco_pendientes hr
  have hpropios := hI.propios.of_igual hig
  have htam : r.2.espacioUsuario.tamanioMemoria / r.2.espacioUsuario.cantidadMarcos =
      r.2.tamanioPagina := by
    rw [hig.espacioUsuario, hig.tamanioPagina]
    exact hI.tamanio
  have hanuncio : anunciar s (.obtenerMarco p nro op ahora) =
      r.1.bind fun marco => if op = .ESCRIBIR then some (p, nro, marco) else none := by
    obtain ⟨r₁, r₂⟩ := r
    rw [anunciar, hr]
    cases r₁ <;> rfl
  have hen : ∀ q j f, EnMarco s.handler q j f → EnMarco r.2 q j f := fun q j f hq =>
    (enMarco_congr (hig.lugar q j)).mpr hq
  rcases hpend with ⟨hpend, hop⟩ | ⟨k, marco, hk, hr₁, hpend⟩
  · refine hI.of_presentes hpropios (by rw [hpend]; exact List.Subset.refl _)
      (fun ptr _ f => ⟨hs _, hen _ _ f⟩) (Or.inl ?_) htam
    change anunciar s (.obtenerMarco p nro op ahora) = none
    rw [hanuncio]
    cases hr₁ : r.1 with
    | none => rfl
    | some marco =>
      refine if_neg fun he => ?_
      rw [hop he] at hr₁
      exact absurd hr₁ (by simp)
  · -- the new entry is of the page that was asked for, which is in memory
    have hpagina : EnMarco r.2 p nro marco := hen _ _ _ (hmarco marco hr₁)
    refine ⟨hpropios, fun ptr hptr => ?_, fun q n f ha => ?_, htam⟩
    · rw [hpend] at hptr
      rcases List.mem_append.mp hptr with hptr | hptr
      · obtain ⟨hser, f, hf⟩ := hI.presentes ptr hptr
        exact ⟨(hs _).trans hser, f, hen _ _ _ hf⟩
      · obtain rfl := List.mem_singleton.mp hptr
        exact ⟨(hs _).trans hk, marco, hpagina⟩
    · change anunciar s (.obtenerMarco p nro op ahora) = some (q, n, f) at ha
      rw [hanuncio, hr₁, Option.bind_some] at ha
      split_ifs at ha
      obtain ⟨rfl, h2⟩ := Prod.mk.inj (Option.some.inj ha)
      obtain ⟨rfl, rfl⟩ := Prod.mk.inj h2
      refine ⟨hpagina, ⟨p, k, nro⟩, ?_, rfl, rfl⟩
      change _ ∈ r.2.paginasPendientesModificacion
      rw [hpend]
      simp

theorem inv_generar {s : Sistema} {tamanio : ℕ} {posiciones : List ℤ} (hI : Inv s)
    (hp : s.handler.pidTablas.get p = none)
    (hr : generarTablaPaginas s.handler p tamanio posiciones = some h') : Inv ⟨h', s.anuncio⟩ := by
  have hpropios := propios_generar hI.propios (fun i => lugar_eq_none hp) hr
  obtain ⟨hl, he, -, ht, -⟩ := generarTablaPaginas_spec hr
  simp only [generarTablaPaginas] at hr
  split_ifs at hr
  obtain rfl := Option.some.inj hr
  -- the entries are of other processes
  have hfuera : ∀ ptr ∈ s.handler.paginasPendientesModificacion, ptr.pid ≠ p := by
    rintro ptr hptr rfl
    have hser := (hI.presentes ptr hptr).1
    rw [serie, hp] at hser
    exact absurd hser (by simp)
  refine hI.of_presentes hpropios (List.Subset.refl _) (fun ptr hptr f => ⟨?_, fun hen => ?_⟩)
    (Or.inr ⟨rfl, rfl⟩) (by rw [he, ht]; exact hI.tamanio)
  · rw [serie, serie, setTabla, Dict.get_put_of_ne _ (hfuera ptr hptr)]
  · exact (enMarco_congr ((hl _ _).trans (if_neg (hfuera ptr hptr)))).mpr hen

theorem inv_remover {s : Sistema} (hI : Inv s) (hc : Cuidada s (.remover p))
    (hr : removerProceso s.handler p = some h') : Inv ⟨h', s.anuncio⟩ := by
  have hpropios := propios_removerProceso hI.propios hr
  obtain ⟨hl, -, hcant, -, -, -, -, ht, -⟩ := removerProceso_spec hr
  obtain ⟨tabla, htabla, hr⟩ := Option.bind_eq_some_iff.mp hr
  obtain rfl := Option.some.inj hr
  refine hI.of_presentes hpropios (List.Subset.refl _) (fun ptr hptr f => ⟨?_, fun hen => ?_⟩)
    (Or.inr ⟨rfl, rfl⟩) ?_
  · rw [serie, serie, setEspacio, Dict.get_remove_of_ne _ (hc ptr hptr)]
  · exact (enMarco_congr ((hl _ _).trans (if_neg (hc ptr hptr)))).mpr hen
  · change (liberarMarcos tabla.paginas s.handler.espacioUsuario).tamanioMemoria / _ = _
    rw [hcant, ht, tamanioMemoria_liberarMarcos]
    exact hI.tamanio

theorem inv_escribir {s : Sistema} (hI : Inv s) (hr : escribirValor s.handler dir v = some h') :
    Inv ⟨h', none⟩ := by
  have hig := escribirValor_spec hr
  obtain ⟨hs, hpend⟩ := escribirValor_pendientes hr
  refine hI.of_presentes ((hI.propios.of_espacio _).of_igual hig) hpend (fun ptr _ f => ⟨hs _,
    fun hen => (enMarco_congr (hig.lugar _ _)).mpr hen⟩) (Or.inl rfl) ?_
  rw [hig.espacioUsuario, hig.tamanioPagina]
  exact hI.tamanio

/-- **One step of a careful run.** -/
theorem inv_atender {s s' : Sistema} {a : Accion} (hI : Inv s) (hp : Protocolo s a)
    (hc : Cuidada s a) (hs : atender s a = some s') : Inv s' := by
  obtain ⟨h', hr, hs⟩ := Option.bind_eq_some_iff.mp hs
  obtain rfl := Option.some.inj hs
  cases a with
  | generar pid tamanio posiciones => exact inv_generar hI hp hr
  | obtenerMarco pid nro op ahora =>
    obtain ⟨r, hm, rfl⟩ := Option.map_eq_some_iff.mp hr
    exact inv_obtenerMarco hI hm
  | cargar pid nro ahora orden =>
    obtain ⟨r, hm, rfl⟩ := Option.map_eq_some_iff.mp hr
    exact inv_cargar hI hp hc hm
  | escribir dir valor => exact inv_escribir hI hr
  | remover pid => exact inv_remover hI hc hr

theorem inv_inicial {tamanioMemoria tamanioPagina : ℕ} {algoritmo : Reemplazo}
    {espacio : Lib.Bytes.Mem} (hmult : tamanioPagina ∣ tamanioMemoria) (hpos : 0 < tamanioMemoria)
    (hcrear : createHandlerPaginacion tamanioMemoria tamanioPagina algoritmo espacio = some h) :
    Inv (inicial h) := by
  have hpropios : Propios h := propios_inicial hcrear
  obtain ⟨e, he, hr⟩ := Option.bind_eq_some_iff.mp hcrear
  obtain rfl := Option.some.inj hr
  unfold createEspacioUsuario at he
  split_ifs at he
  obtain rfl := Option.some.inj he
  refine ⟨hpropios, by simp [inicial], by simp [inicial], ?_⟩
  exact Nat.div_div_self hmult hpos.ne'

/-- **A write marks the page that was written**, all along a run, exactly when the page is in its frame
and no entry of another page comes first in the frame. So it is in every run whose loads replace only
modified pages without entries and whose processes end without entries, if the frames are pages. -/
theorem marca_iff {tamanioMemoria tamanioPagina : ℕ} {algoritmo : Reemplazo}
    {espacio : Lib.Bytes.Mem} {as : List Accion}
    (hcrear : createHandlerPaginacion tamanioMemoria tamanioPagina algoritmo espacio = some h)
    (hrun : Along atender Protocolo (inicial h) as) :
    (Along atender Marca (inicial h) as ↔ Along atender Condicion (inicial h) as) ∧
      (tamanioPagina ∣ tamanioMemoria → 0 < tamanioMemoria →
        Along atender Cuidada (inicial h) as → Along atender Marca (inicial h) as) := by
  have hiff : ∀ s a, Marca s a ↔ Condicion s a := by
    intro s a
    cases a with
    | escribir dir v =>
      exact forall_congr' fun p => forall_congr' fun n => forall_congr' fun f =>
        imp_congr_right fun _ => marcaLaPagina_iff
    | _ => exact Iff.rfl
  refine ⟨⟨.mono fun s a => (hiff s a).mp, .mono fun s a => (hiff s a).mpr⟩,
    fun hmult hpos hcuidada => ?_⟩
  refine Along.of_invariant (fun s a hI hC => ⟨(hiff s a).mpr (hI.condicion a hC.1), fun _ hs =>
    inv_atender hI hC.1 hC.2 hs⟩) (inv_inicial hmult hpos hcrear) (hrun.and hcuidada)

/-- Both processes write to the one frame, one after the other. -/
def porTurnos : List Accion :=
  [.generar 1 4 [0], .generar 2 4 [4], .cargar 1 0 10 [1, 2], .obtenerMarco 1 0 .ESCRIBIR 11,
    .escribir 0 7, .cargar 2 0 12 [1, 2], .obtenerMarco 2 0 .ESCRIBIR 13, .escribir 0 9]

theorem marca_iff_porTurnos : Along atender Marca (inicial (unMarco .LRU)) porTurnos := by
  have hcrear : createHandlerPaginacion 4 4 .LRU (fun _ => 0) = some (unMarco .LRU) := rfl
  have hrun : Along atender Protocolo (inicial (unMarco .LRU)) porTurnos :=
    .of_step rfl rfl <| .of_step rfl rfl <| .of_step (ausente_of_eq rfl rfl) rfl <|
    .of_step trivial rfl <| .of_step ⟨1, 0, rfl⟩ rfl <| .of_step (ausente_of_eq rfl rfl) rfl <|
    .of_step trivial rfl <| .of_step ⟨2, 0, rfl⟩ rfl trivial
  have hcuidada : Along atender Cuidada (inicial (unMarco .LRU)) porTurnos :=
    .of_step trivial rfl <| .of_step trivial rfl <|
    .of_step ⟨fun _ hf => absurd hf (by decide), fun _ _ _ hptr => absurd hptr List.not_mem_nil⟩ rfl <|
    .of_step trivial rfl <| .of_step trivial rfl <|
    .of_step ⟨reemplazaModificada_of_eq rfl rfl, fun _ _ _ hptr => absurd hptr List.not_mem_nil⟩ rfl <|
    .of_step trivial rfl <| .of_step trivial rfl trivial
  exact (marca_iff hcrear hrun).2 (by decide) (by decide) hcuidada

/-- The first process writes, asks again for the frame, for an `F_WRITE`, and loses it to the second
one. -/
def trasFWrite : List Accion :=
  [.generar 1 4 [0], .generar 2 4 [4], .cargar 1 0 10 [1, 2], .obtenerMarco 1 0 .ESCRIBIR 11,
    .escribir 0 7, .obtenerMarco 1 0 .ESCRIBIR 12, .cargar 2 0 13 [1, 2],
    .obtenerMarco 2 0 .ESCRIBIR 14]

/-- **The slip.** The write of the second process finds the entry that the `F_WRITE` of the first one
left, and its own page is not marked. -/
theorem marca_ajena :
    createHandlerPaginacion 4 4 .LRU (fun _ => 0) = some (unMarco .LRU) ∧
    Along atender Protocolo (inicial (unMarco .LRU)) (trasFWrite ++ [.escribir 0 9]) ∧
    ¬Along atender Marca (inicial (unMarco .LRU)) (trasFWrite ++ [.escribir 0 9]) := by
  refine ⟨rfl, ?_, fun hmarca => ?_⟩
  · exact .of_step rfl rfl <| .of_step rfl rfl <| .of_step (ausente_of_eq rfl rfl) rfl <|
      .of_step trivial rfl <| .of_step ⟨1, 0, rfl⟩ rfl <| .of_step trivial rfl <|
      .of_step (ausente_of_eq rfl rfl) rfl <| .of_step trivial rfl <|
      .of_step ⟨2, 0, rfl⟩ rfl trivial
  · have hmal : (exec atender (inicial (unMarco .LRU)) trasFWrite).map (fun s => (s.anuncio,
        (escribirValor s.handler 0 9).map fun h' => (pagina h' 2 0).map Pagina.bitModificado)) =
        some (some (2, 0, 0), some (some 0)) := by decide +kernel
    obtain ⟨s, hs, hmal⟩ := Option.map_eq_some_iff.mp hmal
    obtain ⟨ha, hw⟩ := Prod.mk.inj hmal
    obtain ⟨h', pag, hw', -, -, -, hpag, -⟩ := ((along_append.mp hmarca).2 s hs).1 2 0 0 ha
    rw [hw', Option.map_some, hpag] at hw
    exact absurd hw (by simp)

end OperatingSystem.Memoria.Marcas
