import OperatingSystem.Memoria.HandlerPaginacion

/-! # Where the pages are

What the paging does to a page is to move it: `lugar h p i` is where page `i` of process `p` is, in
memory or not, in which frame and at which swap position. For each function of the handler one lemma
says which places it changes, and what it does to the user space and to the swap space; times and
modified bits only matter for which page has to go. -/

namespace OperatingSystem.Memoria.Lugares

open OperatingSystem.Lib.Bytes OperatingSystem.Lib.Dictionary
open OperatingSystem.Memoria.Paginas OperatingSystem.Memoria.HandlerPaginacion

/-- Where a page is. -/
structure Lugar where
  pid : ℤ
  nroPagina : ℕ
  nroFrame : ℕ
  bitPresencia : ℕ
  posSwap : ℤ

@[simps] def lugarDe (pagina : Pagina) : Lugar :=
  ⟨pagina.pid, pagina.nroPagina, pagina.nroFrame, pagina.bitPresencia, pagina.posSwap⟩

/-- The page `i` of the process `p`. -/
def pagina (h : Handler) (p : ℤ) (i : ℕ) : Option Pagina := do
  let tabla ← h.pidTablas.get p
  tabla.paginas[i]?

def lugar (h : Handler) (p : ℤ) (i : ℕ) : Option Lugar := (pagina h p i).map lugarDe

variable {h h' : Handler} {p q : ℤ} {i j : ℕ} {pag : Pagina} {tabla : TablaPaginas} {l : Lugar}

theorem pagina_eq_some : pagina h p i = some pag ↔
    ∃ tabla, h.pidTablas.get p = some tabla ∧ tabla.paginas[i]? = some pag :=
  Option.bind_eq_some_iff

theorem pagina_of_get (ht : h.pidTablas.get p = some tabla) : pagina h p i = tabla.paginas[i]? := by
  rw [pagina, ht]
  rfl

theorem lugar_eq_some : lugar h p i = some l ↔ ∃ pag, pagina h p i = some pag ∧ lugarDe pag = l :=
  Option.map_eq_some_iff

/-- What holds of all pages can be checked. -/
theorem forall_pagina_iff {P : ℤ → ℕ → Pagina → Prop} :
    (∀ p ∈ h.pidTablas.keys, ∀ tabla ∈ h.pidTablas.get p, ∀ i < tabla.paginas.length,
      ∀ pag ∈ tabla.paginas[i]?, P p i pag) ↔ ∀ p i pag, pagina h p i = some pag → P p i pag := by
  constructor
  · intro hP p i pag hp
    obtain ⟨tabla, ht, hi⟩ := pagina_eq_some.mp hp
    exact hP p (Dict.mem_keys_of_get ht) tabla ht i (List.getElem?_eq_some_iff.mp hi).1 pag hi
  · intro hP p _ tabla ht i _ pag hi
    exact hP p i pag (pagina_eq_some.mpr ⟨tabla, ht, hi⟩)

/-- The handlers agree but for times, modified bits and pending pages. -/
structure Igual (h h' : Handler) : Prop where
  lugar : ∀ q j, lugar h' q j = lugar h q j
  espacioUsuario : h'.espacioUsuario = h.espacioUsuario
  swap : h'.swap = h.swap
  tamanioPagina : h'.tamanioPagina = h.tamanioPagina
  operacionesBloqueantes : h'.operacionesBloqueantes = h.operacionesBloqueantes

theorem Igual.refl (h : Handler) : Igual h h := ⟨fun _ _ => rfl, rfl, rfl, rfl, rfl⟩

/-! ### Assignments -/

theorem modificar_eq_some {f : Pagina → Pagina} {tabla' : TablaPaginas} :
    tabla.modificar i f = some tabla' ↔ ∃ pag, tabla.paginas[i]? = some pag ∧
      tabla' = { tabla with paginas := tabla.paginas.set i (f pag) } := by
  simp only [TablaPaginas.modificar, Option.bind_eq_bind, Option.bind_eq_some_iff, Option.pure_def,
    Option.some.injEq]
  exact exists_congr fun pag => and_congr_right fun _ => eq_comm

/-- An assignment to a page changes that page. -/
theorem pagina_setTabla (ht : h.pidTablas.get p = some tabla) (hi : tabla.paginas[i]? = some pag)
    (pag' : Pagina) (q : ℤ) (j : ℕ) :
    pagina (setTabla h p { tabla with paginas := tabla.paginas.set i pag' }) q j =
      if q = p ∧ j = i then some pag' else pagina h q j := by
  have hlt := (List.getElem?_eq_some_iff.mp hi).1
  by_cases hqp : q = p
  · subst hqp
    have hget : (setTabla h q { tabla with paginas := tabla.paginas.set i pag' }).pidTablas.get q =
      some { tabla with paginas := tabla.paginas.set i pag' } := Dict.get_put_self ..
    rw [pagina_of_get hget, pagina_of_get ht, List.getElem?_set]
    by_cases hji : j = i
    · subst hji
      simp [hlt]
    · simp [hji, Ne.symm hji]
  · rw [if_neg fun hq => hqp hq.1, pagina, pagina, setTabla, Dict.get_put_of_ne _ hqp]

/-- An assignment moves a page. -/
theorem lugar_setTabla (ht : h.pidTablas.get p = some tabla) (hi : tabla.paginas[i]? = some pag)
    (pag' : Pagina) (q : ℤ) (j : ℕ) :
    lugar (setTabla h p { tabla with paginas := tabla.paginas.set i pag' }) q j =
      if q = p ∧ j = i then some (lugarDe pag') else lugar h q j := by
  rw [lugar, pagina_setTabla ht hi]
  split_ifs <;> rfl

/-- An assignment to times and modified bits moves nothing. -/
theorem igual_setTabla (ht : h.pidTablas.get p = some tabla) (hi : tabla.paginas[i]? = some pag)
    (pag' : Pagina) (hl : lugarDe pag' = lugarDe pag) :
    Igual h (setTabla h p { tabla with paginas := tabla.paginas.set i pag' }) := by
  refine ⟨fun q j => ?_, rfl, rfl, rfl, rfl⟩
  rw [lugar_setTabla ht hi]
  split_ifs with hqj
  · obtain ⟨rfl, rfl⟩ := hqj
    rw [hl, lugar, pagina_of_get ht, hi]
    rfl
  · rfl

/-! ### Requests for a frame -/

/-- `obtener_marco` moves nothing, and answers the frame of a page in memory. -/
theorem obtenerMarco_spec {op : TipoOperacion} {ahora : ℤ} {r : Option ℕ × Handler}
    (hr : obtenerMarco h p i op ahora = some r) : Igual h r.2 ∧
      (∀ f, r.1 = some f → ∃ l, lugar h p i = some l ∧ l.bitPresencia = 1 ∧ l.nroFrame = f) ∧
      (r.1 = none → ∀ l, lugar h p i = some l → l.bitPresencia ≠ 1) := by
  cases ht : h.pidTablas.get p with
  | none =>
    rw [obtenerMarco, ht] at hr
    obtain rfl := Option.some.inj hr
    exact ⟨.refl h, by simp, fun _ l hl => by simp [lugar, pagina, ht] at hl⟩
  | some tabla =>
    rw [obtenerMarco, ht] at hr
    obtain ⟨pag, hi, hr⟩ := Option.bind_eq_some_iff.mp hr
    have hl : lugar h p i = some (lugarDe pag) := by
      rw [lugar, pagina_of_get ht, hi]
      rfl
    split_ifs at hr with hpres hop
    · obtain ⟨tabla', ht', hr⟩ := Option.bind_eq_some_iff.mp hr
      obtain ⟨pag₁, hi₁, rfl⟩ := modificar_eq_some.mp ht'
      obtain rfl := Option.some.inj (hi.symm.trans hi₁)
      obtain rfl := Option.some.inj hr
      have hig : Igual h (setTabla h p { tabla with
        paginas := tabla.paginas.set i { pag with ultimaLectura := some ahora } }) :=
        igual_setTabla ht hi _ rfl
      exact ⟨⟨hig.lugar, hig.espacioUsuario, hig.swap, hig.tamanioPagina,
        hig.operacionesBloqueantes⟩, fun f hf => ⟨_, hl, by simpa [paginaEstaEnMemoria] using hpres,
        Option.some.inj hf⟩, by simp⟩
    · obtain ⟨tabla', ht', hr⟩ := Option.bind_eq_some_iff.mp hr
      obtain ⟨pag₁, hi₁, rfl⟩ := modificar_eq_some.mp ht'
      obtain rfl := Option.some.inj (hi.symm.trans hi₁)
      obtain rfl := Option.some.inj hr
      exact ⟨igual_setTabla ht hi _ rfl, fun f hf => ⟨_, hl,
        by simpa [paginaEstaEnMemoria] using hpres, Option.some.inj hf⟩, by simp⟩
    · obtain rfl := Option.some.inj hr
      refine ⟨.refl h, by simp, fun _ l hl' => ?_⟩
      obtain rfl := Option.some.inj (hl.symm.trans hl')
      simpa [paginaEstaEnMemoria] using hpres

theorem obtenerMarco_total (hp : pagina h p i = some pag) (op : TipoOperacion) (ahora : ℤ) :
    ∃ r, obtenerMarco h p i op ahora = some r := by
  obtain ⟨tabla, ht, hi⟩ := pagina_eq_some.mp hp
  have hmod : leerPagina tabla i ahora = some { tabla with
      paginas := tabla.paginas.set i { pag with ultimaLectura := some ahora } } :=
    modificar_eq_some.mpr ⟨pag, hi, rfl⟩
  rw [obtenerMarco, ht]
  simp only [hi, hmod, Option.bind_eq_bind, Option.bind_some]
  split_ifs <;> exact ⟨_, rfl⟩

/-! ### Writes -/

theorem deref_eq_some {ptr : Puntero} (hp : deref h ptr = some pag) :
    ∃ tabla, h.pidTablas.get ptr.pid = some tabla ∧ tabla.paginas[ptr.nroPagina]? = some pag := by
  obtain ⟨tabla, ht, hp⟩ := Option.bind_eq_some_iff.mp hp
  split_ifs at hp
  exact ⟨tabla, ht, hp⟩

/-- The page found is one of the list. -/
theorem encontrarPaginaAModificar_some {f : ℕ} {ptr : Puntero} : ∀ {ps ps' : List Puntero},
    encontrarPaginaAModificar h f ps = some (some ptr, ps') → ∃ pag, deref h ptr = some pag
  | [], _, hr => by simp [encontrarPaginaAModificar] at hr
  | p :: ps, _, hr => by
    obtain ⟨pag, hp, hr⟩ := Option.bind_eq_some_iff.mp hr
    split_ifs at hr
    · obtain ⟨rfl, -⟩ : p = ptr ∧ _ := by simpa using hr
      exact ⟨pag, hp⟩
    · obtain ⟨r, hr', hr⟩ := Option.bind_eq_some_iff.mp hr
      obtain ⟨h1, -⟩ := Prod.mk.inj (Option.some.inj hr)
      exact encontrarPaginaAModificar_some (hr'.trans (by rw [← h1]))

/-- The search does not look at the user space. -/
theorem encontrarPaginaAModificar_setEspacio (e : EspacioUsuario) (f : ℕ) : ∀ ps : List Puntero,
    encontrarPaginaAModificar (setEspacio h e) f ps = encontrarPaginaAModificar h f ps
  | [] => rfl
  | p :: ps => by
    have hd : deref (setEspacio h e) p = deref h p := rfl
    rw [encontrarPaginaAModificar, encontrarPaginaAModificar,
      encontrarPaginaAModificar_setEspacio e f ps, hd]

/-- `escribir_valor` writes the value, and marks a page. -/
theorem escribirValor_spec {dir : ℕ} {v : UInt32} (hr : escribirValor h dir v = some h') :
    Igual (setEspacio h (espacioEscribirValor h.espacioUsuario dir v)) h' := by
  obtain ⟨⟨r, ps⟩, -, hr⟩ := Option.bind_eq_some_iff.mp hr
  cases r with
  | none =>
    obtain rfl := Option.some.inj hr
    exact ⟨fun _ _ => rfl, rfl, rfl, rfl, rfl⟩
  | some ptr =>
    obtain ⟨tabla, ht, hr⟩ := Option.bind_eq_some_iff.mp hr
    obtain ⟨tabla', ht', hr⟩ := Option.bind_eq_some_iff.mp hr
    obtain ⟨pag, hi, rfl⟩ := modificar_eq_some.mp ht'
    obtain rfl := Option.some.inj hr
    have hig := igual_setTabla ht hi { pag with bitModificado := 1 } rfl
    exact ⟨hig.lugar, rfl, rfl, rfl, rfl⟩

/-- It goes through if the search for the page to mark does. -/
theorem escribirValor_total {dir : ℕ} (v : UInt32)
    (hp : (encontrarPaginaAModificar h (espacioObtenerFrame h.espacioUsuario dir)
      h.paginasPendientesModificacion).isSome) : ∃ h', escribirValor h dir v = some h' := by
  obtain ⟨⟨r, ps⟩, hr⟩ := Option.isSome_iff_exists.mp hp
  have hmarca : ∃ h', marcarModificada
      { setEspacio h (espacioEscribirValor h.espacioUsuario dir v) with
        paginasPendientesModificacion := ps } r = some h' := by
    cases r with
    | none => exact ⟨_, rfl⟩
    | some ptr =>
      obtain ⟨pag, hpag⟩ := encontrarPaginaAModificar_some hr
      obtain ⟨tabla, ht, hi⟩ := deref_eq_some hpag
      have hmod := modificar_eq_some (f := fun pag => { pag with bitModificado := 1 }).mpr
        ⟨pag, hi, rfl⟩
      exact ⟨_, Option.bind_eq_some_iff.mpr ⟨tabla, ht,
        Option.bind_eq_some_iff.mpr ⟨_, hmod, rfl⟩⟩⟩
  obtain ⟨h', hmarca⟩ := hmarca
  exact ⟨h', Option.bind_eq_some_iff.mpr
    ⟨_, (encontrarPaginaAModificar_setEspacio _ _ _).trans hr, hmarca⟩⟩

/-! ### Loads -/

/-- **A page comes in.** -/
theorem alojar_spec (hl : lugar h p i = some l) (f : ℕ) (ahora : ℤ) : ∃ h',
    alojar h p i f ahora = some (some f, h') ∧
      (∀ q j, lugar h' q j = if q = p ∧ j = i
        then some { l with bitPresencia := 1, nroFrame := f } else lugar h q j) ∧
      h'.espacioUsuario = { marcarFrameOcupado h.espacioUsuario f with
        espacio := escribirPalabras h.espacioUsuario.espacio (f * h.tamanioPagina)
          (leerPalabras (h.swap l.posSwap) 0 (h.tamanioPagina / 4)) } ∧
      h'.swap = h.swap ∧ h'.tamanioPagina = h.tamanioPagina ∧
      h'.operacionesBloqueantes = h.operacionesBloqueantes := by
  obtain ⟨pag, hp, rfl⟩ := lugar_eq_some.mp hl
  obtain ⟨tabla, ht, hi⟩ := pagina_eq_some.mp hp
  have hcarga : cargarPaginaEnMemoria tabla i f ahora =
      some { tabla with paginas := tabla.paginas.set i (pag.cargada f ahora) } :=
    modificar_eq_some.mpr ⟨pag, hi, rfl⟩
  have ht₀ : (setEspacio h (marcarFrameOcupado h.espacioUsuario f)).pidTablas.get p = some tabla := ht
  refine ⟨escribirValorPagina (setTabla (setEspacio h (marcarFrameOcupado h.espacioUsuario f)) p
    { tabla with paginas := tabla.paginas.set i (pag.cargada f ahora) }) (f * h.tamanioPagina)
    (leerPalabras (h.swap pag.posSwap) 0 (h.tamanioPagina / 4)), ?_, lugar_setTabla ht₀ hi _, rfl,
    rfl, rfl, rfl⟩
  rw [alojar, swapIn, ht₀]
  simp only [hi, hcarga, Option.bind_eq_bind, Option.bind_some]
  rfl

/-- Without the page there is nothing to bring in. -/
theorem alojar_eq_some {f : ℕ} {ahora : ℤ} {r : Option ℕ × Handler}
    (hr : alojar h p i f ahora = some r) : ∃ tabla pag, h.pidTablas.get p = some tabla ∧
      tabla.paginas[i]? = some pag ∧ r = (some f, escribirValorPagina
        (setTabla (setEspacio h (marcarFrameOcupado h.espacioUsuario f)) p
          { tabla with paginas := tabla.paginas.set i (pag.cargada f ahora) })
        (f * h.tamanioPagina) (leerPalabras (h.swap pag.posSwap) 0 (h.tamanioPagina / 4))) := by
  obtain ⟨h₁, hs, hr⟩ := Option.bind_eq_some_iff.mp hr
  obtain ⟨tabla, ht, hs⟩ := Option.bind_eq_some_iff.mp hs
  obtain ⟨pag, hi, hs⟩ := Option.bind_eq_some_iff.mp hs
  obtain ⟨tabla', ht', hs⟩ := Option.bind_eq_some_iff.mp hs
  obtain ⟨pag₁, hi₁, rfl⟩ := modificar_eq_some.mp ht'
  obtain rfl := Option.some.inj (hi.symm.trans hi₁)
  obtain rfl := Option.some.inj hs
  exact ⟨tabla, pag, ht, hi, (Option.some.inj hr).symm⟩

/-- A load that went through is one of a page of the process. -/
theorem alojar_inv {f : ℕ} {ahora : ℤ} {r : Option ℕ × Handler}
    (hr : alojar h p i f ahora = some r) : ∃ l h', r = (some f, h') ∧ lugar h p i = some l ∧
      (∀ q j, lugar h' q j = if q = p ∧ j = i
        then some { l with bitPresencia := 1, nroFrame := f } else lugar h q j) ∧
      h'.espacioUsuario = { marcarFrameOcupado h.espacioUsuario f with
        espacio := escribirPalabras h.espacioUsuario.espacio (f * h.tamanioPagina)
          (leerPalabras (h.swap l.posSwap) 0 (h.tamanioPagina / 4)) } ∧
      h'.swap = h.swap ∧ h'.tamanioPagina = h.tamanioPagina ∧
      h'.operacionesBloqueantes = h.operacionesBloqueantes := by
  obtain ⟨tabla, pag, ht, hi, -⟩ := alojar_eq_some hr
  have hl : lugar h p i = some (lugarDe pag) :=
    lugar_eq_some.mpr ⟨pag, pagina_eq_some.mpr ⟨tabla, ht, hi⟩, rfl⟩
  obtain ⟨h', hr', hresto⟩ := alojar_spec hl f ahora
  exact ⟨_, h', Option.some.inj (hr.symm.trans hr'), hl, hresto⟩

/-- **A modified page goes out.** -/
theorem removerPaginaMemoria_spec {orden : List ℤ} {r : Option Pagina × Handler}
    (hr : removerPaginaMemoria h orden = some r) (hv : paginaAReemplazar h orden = some (some pag))
    (hm : pag.bitModificado = 1) (hpag : pagina h pag.pid pag.nroPagina = some pag) :
    r.1 = some pag ∧
      (∀ q j, lugar r.2 q j = if q = pag.pid ∧ j = pag.nroPagina
        then some { lugarDe pag with bitPresencia := 0 } else lugar h q j) ∧
      r.2.espacioUsuario = h.espacioUsuario ∧
      r.2.swap = Function.update h.swap pag.posSwap (escribirPalabras (h.swap pag.posSwap) 0
        (leerPalabras h.espacioUsuario.espacio (pag.nroFrame * h.tamanioPagina)
          (h.tamanioPagina / 4))) ∧
      r.2.tamanioPagina = h.tamanioPagina ∧
      r.2.operacionesBloqueantes = h.operacionesBloqueantes := by
  obtain ⟨tabla, ht, hi⟩ := pagina_eq_some.mp hpag
  have hmod : tablaRemoverPaginaDeMemoria tabla pag.nroPagina =
      some { tabla with paginas := tabla.paginas.set pag.nroPagina pag.removida } :=
    modificar_eq_some.mpr ⟨pag, hi, rfl⟩
  have hlt := (List.getElem?_eq_some_iff.mp hi).1
  rw [removerPaginaMemoria, hv] at hr
  simp only [Option.bind_eq_bind, Option.bind_some, if_pos hm, ht, hmod, swapOut,
    List.getElem?_set_self hlt, Option.pure_def] at hr
  split_ifs at hr
  · obtain rfl := Option.some.inj hr
    exact ⟨rfl, lugar_setTabla ht hi _, rfl, rfl, rfl, rfl⟩
  · simp at hr

/-- There is no page to replace, or a page that goes out if it was modified and stays as it is
otherwise. -/
theorem removerPaginaMemoria_ramas {orden : List ℤ} {r : Option Pagina × Handler}
    (hr : removerPaginaMemoria h orden = some r) :
    (r = (none, h) ∧ paginaAReemplazar h orden = some none) ∨
      ∃ pag, paginaAReemplazar h orden = some (some pag) ∧ r.1 = some pag ∧
        (pag.bitModificado = 1 ∨ r.2 = h) := by
  obtain ⟨v, hv, hr⟩ := Option.bind_eq_some_iff.mp hr
  cases v with
  | none =>
    obtain rfl := Option.some.inj hr
    exact Or.inl ⟨rfl, hv⟩
  | some pag =>
    simp only at hr
    split_ifs at hr with hm
    · obtain ⟨tabla, -, hr⟩ := Option.bind_eq_some_iff.mp hr
      obtain ⟨tabla', -, hr⟩ := Option.bind_eq_some_iff.mp hr
      obtain ⟨h₁, -, hr⟩ := Option.bind_eq_some_iff.mp hr
      obtain rfl := Option.some.inj hr
      exact Or.inr ⟨pag, hv, rfl, Or.inl hm⟩
    · obtain rfl := Option.some.inj hr
      exact Or.inr ⟨pag, hv, rfl, Or.inr rfl⟩

/-- What becomes of the tables when a page goes out: nothing, or one entry changes. -/
theorem removerPaginaMemoria_tablas {orden : List ℤ} {r : Option Pagina × Handler}
    (hr : removerPaginaMemoria h orden = some r) : r.2 = h ∨ ∃ q j tabla pag swap,
      h.pidTablas.get q = some tabla ∧ tabla.paginas[j]? = some pag ∧
      r.2 = { setTabla h q { tabla with paginas := tabla.paginas.set j pag.removida } with
        swap := swap } := by
  obtain ⟨v, -, hr⟩ := Option.bind_eq_some_iff.mp hr
  cases v with
  | none =>
    obtain rfl := Option.some.inj hr
    exact Or.inl rfl
  | some pag =>
    simp only at hr
    split_ifs at hr
    · obtain ⟨tabla, ht, hr⟩ := Option.bind_eq_some_iff.mp hr
      obtain ⟨tabla', ht', hr⟩ := Option.bind_eq_some_iff.mp hr
      obtain ⟨h₁, hs, hr⟩ := Option.bind_eq_some_iff.mp hr
      obtain rfl := Option.some.inj hr
      obtain ⟨pag₁, hi₁, rfl⟩ := modificar_eq_some.mp ht'
      obtain ⟨pag₂, -, hs⟩ := Option.bind_eq_some_iff.mp hs
      simp only at hs
      split_ifs at hs
      obtain rfl := Option.some.inj hs
      exact Or.inr ⟨_, _, tabla, pag₁, _, ht, hi₁, rfl⟩
    · obtain rfl := Option.some.inj hr
      exact Or.inl rfl

/-- What a load does: nothing, or the page comes into a free frame or into that of a victim. -/
theorem cargarEnMemoria_ramas {nro : ℕ} {ahora : ℤ} {orden : List ℤ} {r : Option ℕ × Handler}
    (hr : cargarEnMemoria h p nro ahora orden = some r) :
    r.2 = h ∨ (r.2 = { h with operacionesBloqueantes := true } ∧
        obtenerFrameLibre h.espacioUsuario = none ∧ paginaAReemplazar h orden = some none) ∨
      (∃ f, obtenerFrameLibre h.espacioUsuario = some f ∧ alojar h p nro f ahora = some r) ∨
      ∃ pag r₁, obtenerFrameLibre h.espacioUsuario = none ∧ (h.pidTablas.get p).isSome ∧
        paginaAReemplazar h orden = some (some pag) ∧
        removerPaginaMemoria h orden = some (some pag, r₁) ∧ (pag.bitModificado = 1 ∨ r₁ = h) ∧
        alojar r₁ p nro pag.nroFrame ahora = some r := by
  cases ht : h.pidTablas.get p with
  | none =>
    rw [cargarEnMemoria, ht] at hr
    obtain rfl := Option.some.inj hr
    exact Or.inl rfl
  | some tabla =>
    rw [cargarEnMemoria, ht] at hr
    simp only at hr
    split_ifs at hr
    cases hf : obtenerFrameLibre h.espacioUsuario with
    | some f =>
      rw [hf] at hr
      exact Or.inr (Or.inr (Or.inl ⟨f, rfl, hr⟩))
    | none =>
      rw [hf] at hr
      obtain ⟨⟨v, h₁⟩, hrem, hr'⟩ := Option.bind_eq_some_iff.mp hr
      rcases removerPaginaMemoria_ramas hrem with ⟨heq, hv⟩ | ⟨pag, hv, rfl, hm⟩
      · obtain ⟨rfl, rfl⟩ := Prod.mk.inj heq
        obtain rfl := Option.some.inj hr'
        exact Or.inr (Or.inl ⟨rfl, rfl, hv⟩)
      · exact Or.inr (Or.inr (Or.inr ⟨pag, h₁, rfl, rfl, hv, hrem, hm, hr'⟩))

theorem removerPaginaMemoria_total {orden : List ℤ}
    (hv : paginaAReemplazar h orden = some (some pag)) (hm : pag.bitModificado = 1)
    (hpag : pagina h pag.pid pag.nroPagina = some pag) (htam : h.tamanioPagina % 4 = 0) :
    ∃ r, removerPaginaMemoria h orden = some r := by
  obtain ⟨tabla, ht, hi⟩ := pagina_eq_some.mp hpag
  have hmod : tablaRemoverPaginaDeMemoria tabla pag.nroPagina =
      some { tabla with paginas := tabla.paginas.set pag.nroPagina pag.removida } :=
    modificar_eq_some.mpr ⟨pag, hi, rfl⟩
  have hlt := (List.getElem?_eq_some_iff.mp hi).1
  have htam' : (setTabla h pag.pid { tabla with
      paginas := tabla.paginas.set pag.nroPagina pag.removida }).tamanioPagina % 4 = 0 := htam
  rw [removerPaginaMemoria, hv]
  simp only [Option.bind_eq_bind, Option.bind_some, if_pos hm, ht, hmod, swapOut,
    List.getElem?_set_self hlt, Option.pure_def, if_pos htam']
  exact ⟨_, rfl⟩

/-! ### New processes and processes that end -/

theorem generarTablaPaginas_spec {tamanio : ℕ} {posiciones : List ℤ}
    (hr : generarTablaPaginas h p tamanio posiciones = some h') :
    (∀ q j, lugar h' q j = if q = p then (posiciones[j]?).map fun pos => ⟨p, j, 0, 0, pos⟩
      else lugar h q j) ∧
      h'.espacioUsuario = h.espacioUsuario ∧
      h'.swap = (fun pos => if pos ∈ posiciones then fun _ => 0 else h.swap pos) ∧
      h'.tamanioPagina = h.tamanioPagina ∧
      h'.operacionesBloqueantes = h.operacionesBloqueantes := by
  simp only [generarTablaPaginas] at hr
  split_ifs at hr
  obtain rfl := Option.some.inj hr
  refine ⟨fun q j => ?_, rfl, rfl, rfl, rfl⟩
  by_cases hqp : q = p
  · subst hqp
    rw [if_pos rfl, lugar, pagina_of_get (Dict.get_put_self ..), createTablaPaginas,
      List.getElem?_mapIdx, Option.map_map]
    rfl
  · rw [if_neg hqp, lugar, lugar, pagina, pagina, setTabla, Dict.get_put_of_ne _ hqp]

theorem liberarMarcos_spec (f : ℕ) : ∀ (ps : List Pagina) (e : EspacioUsuario),
    (liberarMarcos ps e).espacio = e.espacio ∧
      (liberarMarcos ps e).cantidadMarcos = e.cantidadMarcos ∧
      (liberarMarcos ps e).marcosOcupados.length = e.marcosOcupados.length ∧
      (liberarMarcos ps e).marcosOcupados[f]? =
        if ∃ pag ∈ ps, pag.bitPresencia = 1 ∧ pag.nroFrame = f
        then (e.marcosOcupados[f]?).map fun _ => 0 else e.marcosOcupados[f]?
  | [], e => by simp [liberarMarcos]
  | pag :: ps, e => by
    by_cases hpres : pag.bitPresencia = 1
    · have heq : liberarMarcos (pag :: ps) e = liberarMarcos ps (liberarFrame e pag.nroFrame) := by
        simp [liberarMarcos, paginaEstaEnMemoria, hpres]
      obtain ⟨h1, h2, h3, h4⟩ := liberarMarcos_spec f ps (liberarFrame e pag.nroFrame)
      rw [heq]
      refine ⟨h1, h2, h3.trans List.length_set, h4.trans ?_⟩
      by_cases hf : pag.nroFrame = f
      · subst hf
        have hpag : ∃ pag' ∈ pag :: ps, pag'.bitPresencia = 1 ∧ pag'.nroFrame = pag.nroFrame :=
          ⟨pag, by simp, hpres, rfl⟩
        rw [if_pos hpag, liberarFrame, List.getElem?_set_self']
        split_ifs <;> cases e.marcosOcupados[pag.nroFrame]? <;> rfl
      · simp [liberarFrame, List.getElem?_set_ne hf, hf]
    · have heq : liberarMarcos (pag :: ps) e = liberarMarcos ps e := by
        simp [liberarMarcos, paginaEstaEnMemoria, hpres]
      obtain ⟨h1, h2, h3, h4⟩ := liberarMarcos_spec f ps e
      rw [heq]
      refine ⟨h1, h2, h3, h4.trans ?_⟩
      simp [hpres]

/-- **A process ends**: its pages go, and the frames of those in memory are free. -/
theorem removerProceso_spec (hr : removerProceso h p = some h') :
    (∀ q j, lugar h' q j = if q = p then none else lugar h q j) ∧
      h'.espacioUsuario.espacio = h.espacioUsuario.espacio ∧
      h'.espacioUsuario.cantidadMarcos = h.espacioUsuario.cantidadMarcos ∧
      h'.espacioUsuario.marcosOcupados.length = h.espacioUsuario.marcosOcupados.length ∧
      (∀ f, (∃ j l, lugar h p j = some l ∧ l.bitPresencia = 1 ∧ l.nroFrame = f) →
        h'.espacioUsuario.marcosOcupados[f]? =
          (h.espacioUsuario.marcosOcupados[f]?).map fun _ => 0) ∧
      (∀ f, (¬∃ j l, lugar h p j = some l ∧ l.bitPresencia = 1 ∧ l.nroFrame = f) →
        h'.espacioUsuario.marcosOcupados[f]? = h.espacioUsuario.marcosOcupados[f]?) ∧
      h'.swap = h.swap ∧ h'.tamanioPagina = h.tamanioPagina ∧
      h'.operacionesBloqueantes = h.operacionesBloqueantes := by
  obtain ⟨tabla, ht, hr⟩ := Option.bind_eq_some_iff.mp hr
  obtain rfl := Option.some.inj hr
  have hlib := fun f => liberarMarcos_spec f tabla.paginas h.espacioUsuario
  have hiff : ∀ f, (∃ pag ∈ tabla.paginas, pag.bitPresencia = 1 ∧ pag.nroFrame = f) ↔
      ∃ j l, lugar h p j = some l ∧ l.bitPresencia = 1 ∧ l.nroFrame = f := by
    intro f
    constructor
    · rintro ⟨pag, hm, h1, h2⟩
      obtain ⟨j, hj⟩ := List.mem_iff_getElem?.mp hm
      exact ⟨j, lugarDe pag, by rw [lugar, pagina_of_get ht, hj]; rfl, h1, h2⟩
    · rintro ⟨j, l, hl, h1, h2⟩
      obtain ⟨pag, hp, rfl⟩ := lugar_eq_some.mp hl
      rw [pagina_of_get ht] at hp
      exact ⟨pag, List.mem_of_getElem? hp, h1, h2⟩
  refine ⟨fun q j => ?_, (hlib 0).1, (hlib 0).2.1, (hlib 0).2.2.1, fun f hf => ?_, fun f hf => ?_,
    rfl, rfl, rfl⟩
  · by_cases hqp : q = p
    · subst hqp
      simp [lugar, pagina]
    · rw [if_neg hqp, lugar, lugar, pagina, pagina, setEspacio, Dict.get_remove_of_ne _ hqp]
  · exact (hlib f).2.2.2.trans (if_pos ((hiff f).mpr hf))
  · exact (hlib f).2.2.2.trans (if_neg fun hf' => hf ((hiff f).mp hf'))

/-! ### The page that has to go -/

section

variable {fecha : Pagina → Option ℤ} {vieja : Option Pagina}

/-- What the loop finds is in memory, and is one of the pages. -/
theorem masVieja_foldl_some {ps : List Pagina} (hr : ps.foldl (masVieja fecha) vieja = some pag) :
    vieja = some pag ∨ pag ∈ ps ∧ pag.bitPresencia = 1 := by
  induction ps generalizing vieja with
  | nil => exact Or.inl hr
  | cons pag₁ ps ih =>
    rcases ih hr with h | ⟨h1, h2⟩
    · unfold masVieja at h
      split_ifs at h with hpres
      · have hpres' : pag₁.bitPresencia = 1 := by simpa [paginaEstaEnMemoria] using hpres
        cases vieja with
        | none =>
          obtain rfl := Option.some.inj h
          exact Or.inr ⟨by simp, hpres'⟩
        | some v =>
          simp only at h
          split_ifs at h
          · obtain rfl := Option.some.inj h
            exact Or.inr ⟨by simp, hpres'⟩
          · exact Or.inl h
      · exact Or.inl h
    · exact Or.inr ⟨List.mem_cons_of_mem _ h1, h2⟩

/-- It finds nothing if no page is in memory. -/
theorem masVieja_foldl_none {ps : List Pagina} (hr : ps.foldl (masVieja fecha) vieja = none) :
    vieja = none ∧ ∀ pag ∈ ps, pag.bitPresencia ≠ 1 := by
  induction ps generalizing vieja with
  | nil => exact ⟨hr, by simp⟩
  | cons pag₁ ps ih =>
    obtain ⟨h1, h2⟩ := ih hr
    unfold masVieja at h1
    split_ifs at h1 with hpres
    · cases vieja with
      | none => simp at h1
      | some v =>
        simp only at h1
        split_ifs at h1
    · refine ⟨h1, fun pag hm => ?_⟩
      rcases List.mem_cons.mp hm with rfl | hm
      · simpa [paginaEstaEnMemoria] using hpres
      · exact h2 pag hm

theorem encontrarPagina_some {tablas : List TablaPaginas}
    (hr : encontrarPagina fecha tablas = some pag) :
    ∃ tabla ∈ tablas, pag ∈ tabla.paginas ∧ pag.bitPresencia = 1 := by
  have hgen : ∀ {tablas : List TablaPaginas} {vieja : Option Pagina},
      tablas.foldl (fun vieja tabla => tabla.paginas.foldl (masVieja fecha) vieja) vieja = some pag →
      vieja = some pag ∨ ∃ tabla ∈ tablas, pag ∈ tabla.paginas ∧ pag.bitPresencia = 1 := by
    intro tablas
    induction tablas with
    | nil => exact fun h => Or.inl h
    | cons tabla tablas ih =>
      intro vieja h
      rcases ih h with h | ⟨t, ht, hp⟩
      · rcases masVieja_foldl_some h with h | hp
        · exact Or.inl h
        · exact Or.inr ⟨tabla, by simp, hp⟩
      · exact Or.inr ⟨t, List.mem_cons_of_mem _ ht, hp⟩
  exact (hgen hr).resolve_left (by simp)

theorem encontrarPagina_none {tablas : List TablaPaginas}
    (hr : encontrarPagina fecha tablas = none) :
    ∀ tabla ∈ tablas, ∀ pag ∈ tabla.paginas, pag.bitPresencia ≠ 1 := by
  have hgen : ∀ {tablas : List TablaPaginas} {vieja : Option Pagina},
      tablas.foldl (fun vieja tabla => tabla.paginas.foldl (masVieja fecha) vieja) vieja = none →
      vieja = none ∧ ∀ tabla ∈ tablas, ∀ pag ∈ tabla.paginas, pag.bitPresencia ≠ 1 := by
    intro tablas
    induction tablas with
    | nil => exact fun h => ⟨h, by simp⟩
    | cons tabla tablas ih =>
      intro vieja h
      obtain ⟨h1, h2⟩ := ih h
      obtain ⟨h3, h4⟩ := masVieja_foldl_none h1
      refine ⟨h3, fun t ht => ?_⟩
      rcases List.mem_cons.mp ht with rfl | ht
      · exact h4
      · exact h2 t ht
  exact (hgen hr).2

/-- FIFO and LRU are the same loop over two times of the pages. -/
theorem paginaAReemplazar_eq_some {orden : List ℤ} {r : Option Pagina}
    (hr : paginaAReemplazar h orden = some r) : orden.Perm h.pidTablas.keys ∧
      ∃ fecha, r = encontrarPagina fecha (orden.filterMap h.pidTablas.get) := by
  obtain ⟨tablas, ht, hr⟩ := Option.bind_eq_some_iff.mp hr
  unfold diccionarioElements at ht
  split_ifs at ht with hperm
  obtain rfl := Option.some.inj ht
  refine ⟨hperm, ?_⟩
  cases ha : h.algoritmoReemplazo with
  | FIFO =>
    rw [ha] at hr
    exact ⟨Pagina.creacion, (Option.some.inj hr).symm⟩
  | LRU =>
    rw [ha] at hr
    exact ⟨Pagina.ultimaLectura, (Option.some.inj hr).symm⟩

theorem paginaAReemplazar_total {orden : List ℤ} (horden : orden.Perm h.pidTablas.keys) :
    ∃ r, paginaAReemplazar h orden = some r := by
  rw [paginaAReemplazar, diccionarioElements, if_pos horden]
  cases h.algoritmoReemplazo <;> exact ⟨_, rfl⟩

/-- **The victim** is a page in memory. -/
theorem paginaAReemplazar_some {orden : List ℤ} (hr : paginaAReemplazar h orden = some (some pag)) :
    ∃ p i, pagina h p i = some pag ∧ pag.bitPresencia = 1 := by
  obtain ⟨-, fecha, hr⟩ := paginaAReemplazar_eq_some hr
  obtain ⟨tabla, ht, hm, hpres⟩ := encontrarPagina_some hr.symm
  obtain ⟨p, -, ht⟩ := List.mem_filterMap.mp ht
  obtain ⟨i, hi⟩ := List.mem_iff_getElem?.mp hm
  exact ⟨p, i, pagina_eq_some.mpr ⟨tabla, ht, hi⟩, hpres⟩

/-- There is a victim if a page is in memory. -/
theorem paginaAReemplazar_none {orden : List ℤ} (hr : paginaAReemplazar h orden = some none)
    (hl : lugar h p i = some l) : l.bitPresencia ≠ 1 := by
  obtain ⟨hperm, fecha, hr⟩ := paginaAReemplazar_eq_some hr
  obtain ⟨pag, hp, rfl⟩ := lugar_eq_some.mp hl
  obtain ⟨tabla, ht, hi⟩ := pagina_eq_some.mp hp
  have hmem : p ∈ orden := hperm.mem_iff.mpr (Dict.mem_keys_of_get ht)
  exact encontrarPagina_none hr.symm tabla (List.mem_filterMap.mpr ⟨p, hmem, ht⟩) pag
    (List.mem_of_getElem? hi)

end

end OperatingSystem.Memoria.Lugares
