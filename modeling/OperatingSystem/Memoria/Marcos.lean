import OperatingSystem.Memoria.Lugares
import OperatingSystem.Lib.Run

/-! # Who owns the frames

`Propios` says that the frames in use are the frames of the pages in memory, each of one page. A load
goes through a state in which one frame is `Salvo`: it is nobody's, and taken or not. A free frame is
one (`salvo_of_libre`), the frame of a modified victim is one (`salvo_of_removida`), and the page that
comes in takes it (`propios_of_alojar`).

The frame of a victim that was not modified is not: its entry still says that it is there
(`not_propios_of_intacta`). `marcos_propios` is that the invariant holds after every run in which
only modified pages are replaced. -/

namespace OperatingSystem.Memoria.Marcos

open OperatingSystem.Lib.Dictionary OperatingSystem.Lib.Run
open OperatingSystem.Memoria.Paginas OperatingSystem.Memoria.HandlerPaginacion
open OperatingSystem.Memoria.Lugares

/-- The page `i` of `p` is in memory, in the frame `f`. -/
def EnMarco (h : Handler) (p : ℤ) (i f : ℕ) : Prop :=
  ∃ l, lugar h p i = some l ∧ l.bitPresencia = 1 ∧ l.nroFrame = f

instance (h : Handler) (p : ℤ) (i f : ℕ) : Decidable (EnMarco h p i f) :=
  inferInstanceAs (Decidable (∃ l ∈ lugar h p i, l.bitPresencia = 1 ∧ l.nroFrame = f))

/-- A page knows who it is, and no two pages share a frame. -/
structure Base (h : Handler) : Prop where
  largo : h.espacioUsuario.marcosOcupados.length = h.espacioUsuario.cantidadMarcos
  bits : ∀ (f v : ℕ), h.espacioUsuario.marcosOcupados[f]? = some v → v = 0 ∨ v = 1
  identidad : ∀ p i l, lugar h p i = some l → l.pid = p ∧ l.nroPagina = i
  unico : ∀ p i q j f, EnMarco h p i f → EnMarco h q j f → p = q ∧ i = j

/-- **The frames in use are the frames of the pages in memory.** -/
structure Propios (h : Handler) : Prop extends Base h where
  ocupado : ∀ f : ℕ, h.espacioUsuario.marcosOcupados[f]? = some 1 ↔ ∃ p i, EnMarco h p i f

/-- The same but for the frame `f`, which is nobody's. -/
structure Salvo (h : Handler) (f : ℕ) : Prop extends Base h where
  existe : f < h.espacioUsuario.cantidadMarcos
  nadie : ∀ p i, ¬EnMarco h p i f
  ocupado : ∀ g : ℕ, g ≠ f →
    (h.espacioUsuario.marcosOcupados[g]? = some 1 ↔ ∃ p i, EnMarco h p i g)

variable {h h' : Handler} {p q : ℤ} {i j f : ℕ} {pag : Pagina} {l : Lugar} {orden : List ℤ}

theorem enMarco_congr (hl : lugar h' p i = lugar h q j) : EnMarco h' p i f ↔ EnMarco h q j f := by
  rw [EnMarco, EnMarco, hl]

/-- A step after which no page is in a frame that it was not in before keeps the base. -/
theorem Base.of_enMarco (hB : Base h)
    (hlargo : h'.espacioUsuario.marcosOcupados.length = h'.espacioUsuario.cantidadMarcos)
    (hbits : ∀ (f v : ℕ), h'.espacioUsuario.marcosOcupados[f]? = some v → v = 0 ∨ v = 1)
    (hid : ∀ p i l, lugar h' p i = some l → l.pid = p ∧ l.nroPagina = i)
    (hEn : ∀ p i f, EnMarco h' p i f → EnMarco h p i f) : Base h' :=
  ⟨hlargo, hbits, hid, fun p i q j f h1 h2 => hB.unico p i q j f (hEn p i f h1) (hEn q j f h2)⟩

theorem Propios.of_igual (hI : Propios h) (hig : Igual h h') : Propios h' := by
  have hEn : ∀ p i f, EnMarco h' p i f ↔ EnMarco h p i f := fun p i f => enMarco_congr (hig.lugar p i)
  refine ⟨hI.toBase.of_enMarco (by rw [hig.espacioUsuario]; exact hI.largo)
    (by rw [hig.espacioUsuario]; exact hI.bits)
    (fun p i l hl => hI.identidad p i l ((hig.lugar p i).symm.trans hl))
    fun p i f => (hEn p i f).mp, fun f => ?_⟩
  rw [hig.espacioUsuario, hI.ocupado]
  exact exists_congr fun p => exists_congr fun i => (hEn p i f).symm

/-- The bytes of the user space do not matter. -/
theorem Propios.of_espacio (hI : Propios h) (m : Lib.Bytes.Mem) :
    Propios (setEspacio h { h.espacioUsuario with espacio := m }) :=
  { largo := hI.largo, bits := hI.bits, identidad := hI.identidad, unico := hI.unico,
    ocupado := hI.ocupado }

/-! ### Loads -/

theorem salvo_of_libre (hI : Propios h) (hf : obtenerFrameLibre h.espacioUsuario = some f) :
    Salvo h f := by
  obtain ⟨hlt, hcero, -⟩ := List.findIdx?_eq_some_iff_getElem.mp hf
  have hget : h.espacioUsuario.marcosOcupados[f]? = some 0 := by
    rw [List.getElem?_eq_getElem hlt, of_decide_eq_true hcero]
  refine ⟨hI.toBase, hI.largo ▸ hlt, fun p i hp => ?_, fun g _ => hI.ocupado g⟩
  have huno := (hI.ocupado f).mpr ⟨p, i, hp⟩
  rw [hget] at huno
  simp at huno

/-- The victim is the page that its entry names. -/
theorem victima_of_identidad (hid : ∀ p i l, lugar h p i = some l → l.pid = p ∧ l.nroPagina = i)
    (hv : paginaAReemplazar h orden = some (some pag)) :
    pagina h pag.pid pag.nroPagina = some pag ∧ pag.bitPresencia = 1 := by
  obtain ⟨p, i, hp, hpres⟩ := paginaAReemplazar_some hv
  obtain ⟨rfl, rfl⟩ := hid p i _ (lugar_eq_some.mpr ⟨pag, hp, rfl⟩)
  exact ⟨hp, hpres⟩

theorem Base.victima (hI : Base h) (hv : paginaAReemplazar h orden = some (some pag)) :
    pagina h pag.pid pag.nroPagina = some pag ∧ pag.bitPresencia = 1 :=
  victima_of_identidad hI.identidad hv

theorem enMarco_victima (hI : Base h) (hv : paginaAReemplazar h orden = some (some pag)) :
    EnMarco h pag.pid pag.nroPagina pag.nroFrame := by
  obtain ⟨hp, hpres⟩ := hI.victima hv
  exact ⟨lugarDe pag, lugar_eq_some.mpr ⟨pag, hp, rfl⟩, hpres, rfl⟩

theorem salvo_of_removida (hI : Propios h) (hv : paginaAReemplazar h orden = some (some pag))
    (hm : pag.bitModificado = 1) {r : Option Pagina × Handler}
    (hr : removerPaginaMemoria h orden = some r) : Salvo r.2 pag.nroFrame := by
  obtain ⟨hp, -⟩ := hI.victima hv
  obtain ⟨-, hl, he, -⟩ := removerPaginaMemoria_spec hr hv hm hp
  have hsi := enMarco_victima hI.toBase hv
  -- the other pages are where they were
  have hEn : ∀ q j g, EnMarco r.2 q j g ↔ EnMarco h q j g ∧ ¬(q = pag.pid ∧ j = pag.nroPagina) := by
    intro q j g
    unfold EnMarco
    rw [hl]
    split_ifs with hqj
    · simp [hqj]
    · simp [hqj]
  refine ⟨hI.toBase.of_enMarco (by rw [he]; exact hI.largo) (by rw [he]; exact hI.bits)
    (fun q j l hl' => ?_) fun q j g hq => ((hEn q j g).mp hq).1, ?_, fun q j hq => ?_, fun g hg => ?_⟩
  · rw [hl] at hl'
    split_ifs at hl' with hqj
    · obtain rfl := Option.some.inj hl'
      exact ⟨hqj.1.symm, hqj.2.symm⟩
    · exact hI.identidad q j l hl'
  · have huno := (hI.ocupado pag.nroFrame).mpr ⟨_, _, hsi⟩
    rw [he, ← hI.largo]
    exact (List.getElem?_eq_some_iff.mp huno).1
  · obtain ⟨hq, hne⟩ := (hEn ..).mp hq
    exact hne (hI.unico _ _ _ _ _ hq hsi)
  · rw [he, hI.ocupado]
    refine exists_congr fun q => exists_congr fun j => ⟨fun hq => (hEn ..).mpr ⟨hq, ?_⟩,
      fun hq => ((hEn ..).mp hq).1⟩
    rintro ⟨rfl, rfl⟩
    obtain ⟨l, hl₁, -, h2⟩ := hq
    obtain ⟨l', hl₂, -, h2'⟩ := hsi
    obtain rfl := Option.some.inj (hl₁.symm.trans hl₂)
    exact hg (h2.symm.trans h2')

/-- A page that was not in memory is not there after the victim went. -/
theorem ausente_removida (hI : Propios h) (hv : paginaAReemplazar h orden = some (some pag))
    (hm : pag.bitModificado = 1) {r : Option Pagina × Handler}
    (hr : removerPaginaMemoria h orden = some r)
    (habs : ∀ l, lugar h p i = some l → l.bitPresencia ≠ 1) :
    ∀ l, lugar r.2 p i = some l → l.bitPresencia ≠ 1 := by
  intro l hl
  obtain ⟨-, hl', -⟩ := removerPaginaMemoria_spec hr hv hm (hI.victima hv).1
  rw [hl'] at hl
  split_ifs at hl
  · obtain rfl := Option.some.inj hl
    exact Nat.zero_ne_one
  · exact habs l hl

theorem propios_of_alojar (hS : Salvo h f) {ahora : ℤ} {r : Option ℕ × Handler}
    (habs : ∀ l, lugar h p i = some l → l.bitPresencia ≠ 1)
    (hr : alojar h p i f ahora = some r) : Propios r.2 := by
  obtain ⟨l, h', rfl, hl, hl', he, -⟩ := alojar_inv hr
  have hmarcos : h'.espacioUsuario.marcosOcupados = h.espacioUsuario.marcosOcupados.set f 1 := by
    rw [he]
    rfl
  have hEn : ∀ q j g, EnMarco h' q j g ↔ (q = p ∧ j = i ∧ g = f) ∨ EnMarco h q j g := by
    intro q j g
    unfold EnMarco
    rw [hl']
    split_ifs with hqj
    · obtain ⟨rfl, rfl⟩ := hqj
      simp only [Option.some.injEq, true_and]
      constructor
      · rintro ⟨_, rfl, -, rfl⟩
        exact Or.inl rfl
      · rintro (rfl | ⟨l₁, hl₁, hp, -⟩)
        · exact ⟨_, rfl, rfl, rfl⟩
        · exact absurd hp (habs l₁ hl₁)
    · refine ⟨Or.inr, fun hq => hq.resolve_left fun hq => hqj ⟨hq.1, hq.2.1⟩⟩
  refine ⟨⟨?_, fun g v hv => ?_, fun q j l₁ hl₁ => ?_, fun p₁ i₁ q j g h1 h2 => ?_⟩, fun g => ?_⟩
  · rw [hmarcos, List.length_set, hS.largo, he]
    rfl
  · rw [hmarcos, List.getElem?_set] at hv
    split_ifs at hv
    · exact Or.inr (Option.some.inj hv).symm
    · exact hS.bits g v hv
  · rw [hl'] at hl₁
    split_ifs at hl₁ with hqj
    · obtain ⟨rfl, rfl⟩ := hqj
      obtain rfl := Option.some.inj hl₁
      exact hS.identidad _ _ l hl
    · exact hS.identidad q j l₁ hl₁
  · rcases (hEn ..).mp h1 with ⟨rfl, rfl, rfl⟩ | hp
    · rcases (hEn ..).mp h2 with ⟨rfl, rfl, -⟩ | hq
      · exact ⟨rfl, rfl⟩
      · exact absurd hq (hS.nadie _ _)
    · rcases (hEn ..).mp h2 with ⟨rfl, rfl, rfl⟩ | hq
      · exact absurd hp (hS.nadie _ _)
      · exact hS.unico _ _ _ _ _ hp hq
  · rw [hmarcos]
    by_cases hg : g = f
    · subst hg
      have hlt : g < h.espacioUsuario.marcosOcupados.length := hS.largo ▸ hS.existe
      exact ⟨fun _ => ⟨p, i, (hEn ..).mpr (Or.inl ⟨rfl, rfl, rfl⟩)⟩,
        fun _ => List.getElem?_set_self hlt⟩
    · rw [List.getElem?_set_ne (Ne.symm hg), hS.ocupado g hg]
      refine exists_congr fun q => exists_congr fun j => ⟨fun hq => (hEn ..).mpr (Or.inr hq),
        fun hq => ((hEn ..).mp hq).resolve_left fun hq => hg hq.2.2⟩

/-- A load gives the page a frame of its own, if it replaces modified pages only. -/
def ReemplazaModificada (h : Handler) (pid : ℤ) (orden : List ℤ) : Prop :=
  (h.pidTablas.get pid).isSome → obtenerFrameLibre h.espacioUsuario = none →
    ∀ pag, paginaAReemplazar h orden = some (some pag) → pag.bitModificado = 1

instance (h : Handler) (pid : ℤ) (orden : List ℤ) : Decidable (ReemplazaModificada h pid orden) :=
  decidable_of_iff ((h.pidTablas.get pid).isSome → obtenerFrameLibre h.espacioUsuario = none →
      ∀ v ∈ paginaAReemplazar h orden, ∀ pag ∈ v, pag.bitModificado = 1)
    ⟨fun hc ht hf pag hv => hc ht hf _ hv pag rfl,
      fun hc ht hf v hv pag hp => hc ht hf pag (by rw [← hp]; exact hv)⟩

/-- A load that replaces modified pages only. -/
theorem cargarEnMemoria_cases {nro : ℕ} {ahora : ℤ} {r : Option ℕ × Handler}
    (hc : ReemplazaModificada h p orden) (hr : cargarEnMemoria h p nro ahora orden = some r) :
    r.2 = h ∨ (r.2 = { h with operacionesBloqueantes := true } ∧
        obtenerFrameLibre h.espacioUsuario = none ∧ paginaAReemplazar h orden = some none) ∨
      (∃ f, obtenerFrameLibre h.espacioUsuario = some f ∧ alojar h p nro f ahora = some r) ∨
      ∃ pag r₁, paginaAReemplazar h orden = some (some pag) ∧ pag.bitModificado = 1 ∧
        removerPaginaMemoria h orden = some (some pag, r₁) ∧
        alojar r₁ p nro pag.nroFrame ahora = some r := by
  rcases cargarEnMemoria_ramas hr with he | hb | hl | ⟨pag, h₁, hf, ht, hv, hrem, -, ha⟩
  · exact Or.inl he
  · exact Or.inr (Or.inl hb)
  · exact Or.inr (Or.inr (Or.inl hl))
  · exact Or.inr (Or.inr (Or.inr ⟨pag, h₁, hv, hc ht hf pag hv, hrem, ha⟩))

/-- **Load.** The page that comes in gets a frame of its own. -/
theorem propios_cargar (hI : Propios h) {nro : ℕ} {ahora : ℤ} {r : Option ℕ × Handler}
    (habs : ∀ l, lugar h p nro = some l → l.bitPresencia ≠ 1) (hc : ReemplazaModificada h p orden)
    (hr : cargarEnMemoria h p nro ahora orden = some r) : Propios r.2 := by
  rcases cargarEnMemoria_cases hc hr with
    he | ⟨he, -⟩ | ⟨f, hf, ha⟩ | ⟨pag, h₁, hv, hm, hrem, ha⟩
  · exact he ▸ hI
  · rw [he]
    exact ⟨⟨hI.largo, hI.bits, hI.identidad, hI.unico⟩, hI.ocupado⟩
  · exact propios_of_alojar (salvo_of_libre hI hf) habs ha
  · exact propios_of_alojar (salvo_of_removida hI hv hm hrem)
      (ausente_removida hI hv hm hrem habs) ha

/-- With no frame free there is a page in memory. -/
theorem paginaAReemplazar_ne_none (hI : Propios h) (hmarcos : 0 < h.espacioUsuario.cantidadMarcos)
    (hf : obtenerFrameLibre h.espacioUsuario = none) : paginaAReemplazar h orden ≠ some none := by
  intro hv
  have hlt : 0 < h.espacioUsuario.marcosOcupados.length := hI.largo ▸ hmarcos
  have hne := List.findIdx?_eq_none_iff.mp hf _ (List.getElem_mem hlt)
  have huno : h.espacioUsuario.marcosOcupados[0]? = some 1 := by
    have hget := List.getElem?_eq_getElem hlt
    rw [hget]
    rcases hI.bits 0 _ hget with h0 | h1
    · simp [h0] at hne
    · rw [h1]
  obtain ⟨p, i, l, hl, hpres, -⟩ := (hI.ocupado 0).mp huno
  exact paginaAReemplazar_none hv hl hpres

/-- The frames stay as many, the mutex is given back, and only the page asked for comes in. -/
theorem cargarEnMemoria_resto (hI : Propios h) (hmarcos : 0 < h.espacioUsuario.cantidadMarcos)
    {nro : ℕ} {ahora : ℤ} {r : Option ℕ × Handler} (hc : ReemplazaModificada h p orden)
    (hr : cargarEnMemoria h p nro ahora orden = some r) :
    r.2.operacionesBloqueantes = h.operacionesBloqueantes ∧
      r.2.espacioUsuario.cantidadMarcos = h.espacioUsuario.cantidadMarcos ∧
      ∀ q j l, lugar r.2 q j = some l → ∃ l₀, lugar h q j = some l₀ ∧ l₀.posSwap = l.posSwap ∧
        (¬(q = p ∧ j = nro) → l.bitPresencia = 1 → l₀.bitPresencia = 1) := by
  have halojar : ∀ {h₁ : Handler} {f : ℕ}, alojar h₁ p nro f ahora = some r →
      r.2.operacionesBloqueantes = h₁.operacionesBloqueantes ∧
        r.2.espacioUsuario.cantidadMarcos = h₁.espacioUsuario.cantidadMarcos ∧
        ∀ q j l, lugar r.2 q j = some l → ∃ l₀, lugar h₁ q j = some l₀ ∧ l₀.posSwap = l.posSwap ∧
          (¬(q = p ∧ j = nro) → l.bitPresencia = 1 → l₀.bitPresencia = 1) := by
    intro h₁ f ha
    obtain ⟨l₁, h', rfl, hl₁, hl', he, -, -, hmut⟩ := alojar_inv ha
    refine ⟨hmut, by rw [he]; rfl, fun q j l hl => ?_⟩
    rw [hl'] at hl
    split_ifs at hl with hqj
    · obtain ⟨rfl, rfl⟩ := hqj
      obtain rfl := Option.some.inj hl
      exact ⟨l₁, hl₁, rfl, fun hne => absurd ⟨rfl, rfl⟩ hne⟩
    · exact ⟨l, hl, rfl, fun _ hpres => hpres⟩
  rcases cargarEnMemoria_cases hc hr with
    he | ⟨-, hf, hv⟩ | ⟨f, hf, ha⟩ | ⟨pag, h₁, hv, hm, hrem, ha⟩
  · rw [he]
    exact ⟨rfl, rfl, fun q j l hl => ⟨l, hl, rfl, fun _ hpres => hpres⟩⟩
  · exact absurd hv (paginaAReemplazar_ne_none hI hmarcos hf)
  · exact halojar ha
  · obtain ⟨h1, h2, h3⟩ := halojar ha
    have hp := (hI.victima hv).1
    obtain ⟨-, hl', he, -, -, hmut⟩ := removerPaginaMemoria_spec hrem hv hm hp
    refine ⟨h1.trans hmut, h2.trans (congrArg _ he), fun q j l hl => ?_⟩
    obtain ⟨l₁, hl₁, hpos, himp⟩ := h3 q j l hl
    rw [hl'] at hl₁
    split_ifs at hl₁ with hqj
    · obtain ⟨rfl, rfl⟩ := hqj
      obtain rfl := Option.some.inj hl₁
      exact ⟨_, lugar_eq_some.mpr ⟨pag, hp, rfl⟩, hpos, fun hne hpres =>
        absurd (himp hne hpres) Nat.zero_ne_one⟩
    · exact ⟨l₁, hl₁, hpos, himp⟩

/-- A load of a page of the table goes through, where pages are whole words if one has to go. -/
theorem cargarEnMemoria_total (hI : Propios h) (hmarcos : 0 < h.espacioUsuario.cantidadMarcos)
    (habierto : h.operacionesBloqueantes = false) {nro : ℕ} (ahora : ℤ)
    (horden : orden.Perm h.pidTablas.keys)
    (htabla : (h.pidTablas.get p).isSome → ∃ l, lugar h p nro = some l)
    (hc : ReemplazaModificada h p orden)
    (htam : (h.pidTablas.get p).isSome → obtenerFrameLibre h.espacioUsuario = none →
      h.tamanioPagina % 4 = 0) : ∃ r, cargarEnMemoria h p nro ahora orden = some r := by
  cases ht : h.pidTablas.get p with
  | none => exact ⟨_, by rw [cargarEnMemoria, ht]⟩
  | some tabla =>
    have hsome : (h.pidTablas.get p).isSome := by simp [ht]
    obtain ⟨l, hl⟩ := htabla hsome
    rw [cargarEnMemoria, ht]
    simp only [habierto, Bool.false_eq_true, if_false]
    cases hf : obtenerFrameLibre h.espacioUsuario with
    | some f =>
      obtain ⟨h', ha, -⟩ := alojar_spec hl f ahora
      exact ⟨_, ha⟩
    | none =>
      obtain ⟨v, hv⟩ := paginaAReemplazar_total horden
      cases v with
      | none => exact absurd hv (paginaAReemplazar_ne_none hI hmarcos hf)
      | some pag =>
        have hm := hc hsome hf pag hv
        have hp := (hI.victima hv).1
        obtain ⟨⟨v, h₁⟩, hrem⟩ := removerPaginaMemoria_total hv hm hp (htam hsome hf)
        obtain ⟨hv₁, hl', -⟩ := removerPaginaMemoria_spec hrem hv hm hp
        obtain rfl : v = some pag := hv₁
        obtain ⟨l₁, hl₁⟩ : ∃ l₁, lugar h₁ p nro = some l₁ := by
          rw [hl']
          split_ifs
          · exact ⟨_, rfl⟩
          · exact ⟨l, hl⟩
        obtain ⟨h', ha, -⟩ := alojar_spec hl₁ pag.nroFrame ahora
        exact ⟨_, by simp only [hrem, Option.bind_eq_bind, Option.bind_some]; exact ha⟩

/-- **The slip.** A victim that was not modified is still in its frame after the load. -/
theorem not_propios_of_intacta (hI : Propios h) {nro : ℕ} {ahora : ℤ} {r : Option ℕ × Handler}
    (habs : ∀ l, lugar h p nro = some l → l.bitPresencia ≠ 1) (htabla : (h.pidTablas.get p).isSome)
    (hf : obtenerFrameLibre h.espacioUsuario = none)
    (hv : paginaAReemplazar h orden = some (some pag)) (hm : pag.bitModificado ≠ 1)
    (hr : cargarEnMemoria h p nro ahora orden = some r) : ¬Propios r.2 := by
  intro hI'
  obtain ⟨tabla, ht⟩ := Option.isSome_iff_exists.mp htabla
  have hrem : removerPaginaMemoria h orden = some (some pag, h) := by
    rw [removerPaginaMemoria, hv]
    exact if_neg hm
  rw [cargarEnMemoria, ht] at hr
  simp only [hf, hrem] at hr
  split_ifs at hr
  obtain ⟨l, h', rfl, -, hl', -⟩ := alojar_inv hr
  have hnuevo : EnMarco h' p nro pag.nroFrame :=
    ⟨_, (hl' p nro).trans (if_pos ⟨rfl, rfl⟩), rfl, rfl⟩
  have hvieja := enMarco_victima hI.toBase hv
  have hne : ¬(pag.pid = p ∧ pag.nroPagina = nro) := by
    rintro ⟨rfl, rfl⟩
    obtain ⟨l', hl₁, hpres, -⟩ := hvieja
    exact habs l' hl₁ hpres
  exact hne (hI'.unico _ _ _ _ _
    ((enMarco_congr ((hl' _ _).trans (if_neg hne))).mpr hvieja) hnuevo)

/-! ### New processes and processes that end -/

theorem propios_generar (hI : Propios h) {tamanio : ℕ} {posiciones : List ℤ}
    (hnuevo : ∀ i, lugar h p i = none)
    (hr : generarTablaPaginas h p tamanio posiciones = some h') : Propios h' := by
  obtain ⟨hl, he, -⟩ := generarTablaPaginas_spec hr
  have hEn : ∀ q j g, EnMarco h' q j g ↔ EnMarco h q j g := by
    intro q j g
    unfold EnMarco
    rw [hl]
    split_ifs with hq
    · subst hq
      simp [hnuevo]
    · rfl
  refine ⟨hI.toBase.of_enMarco (by rw [he]; exact hI.largo) (by rw [he]; exact hI.bits)
    (fun q j l hl' => ?_) fun q j g => (hEn q j g).mp, fun g => ?_⟩
  · rw [hl] at hl'
    split_ifs at hl' with hq
    · obtain ⟨pos, -, rfl⟩ := Option.map_eq_some_iff.mp hl'
      exact ⟨hq.symm, rfl⟩
    · exact hI.identidad q j l hl'
  · rw [he, hI.ocupado]
    exact exists_congr fun q => exists_congr fun j => (hEn q j g).symm

theorem lugar_eq_none (ht : h.pidTablas.get p = none) : lugar h p i = none := by
  rw [lugar, pagina, ht]
  rfl

theorem propios_removerProceso (hI : Propios h) (hr : removerProceso h p = some h') :
    Propios h' := by
  obtain ⟨hl, -, hcant, hlargo, hlibre, hotro, -⟩ := removerProceso_spec hr
  have hEn : ∀ q j g, EnMarco h' q j g ↔ q ≠ p ∧ EnMarco h q j g := by
    intro q j g
    unfold EnMarco
    rw [hl]
    split_ifs with hq <;> simp [hq]
  refine ⟨hI.toBase.of_enMarco (by rw [hlargo, hcant]; exact hI.largo) (fun g v hv => ?_)
    (fun q j l hl' => ?_) fun q j g hq => ((hEn q j g).mp hq).2, fun g => ?_⟩
  · by_cases hg : ∃ j, EnMarco h p j g
    · rw [hlibre g hg] at hv
      obtain ⟨-, -, rfl⟩ := Option.map_eq_some_iff.mp hv
      exact Or.inl rfl
    · rw [hotro g hg] at hv
      exact hI.bits g v hv
  · rw [hl] at hl'
    split_ifs at hl'
    exact hI.identidad q j l hl'
  · by_cases hg : ∃ j, EnMarco h p j g
    · -- the frame was of the process that ends, and of nobody else
      obtain ⟨j, hj⟩ := hg
      rw [hlibre g ⟨j, hj⟩]
      refine ⟨fun huno => by simp at huno, ?_⟩
      rintro ⟨q, i, hq⟩
      obtain ⟨hne, hq⟩ := (hEn ..).mp hq
      exact absurd (hI.unico _ _ _ _ _ hq hj).1 hne
    · rw [hotro g hg, hI.ocupado]
      refine exists_congr fun q => exists_congr fun i => ⟨fun hq => (hEn ..).mpr ⟨?_, hq⟩,
        fun hq => ((hEn ..).mp hq).2⟩
      rintro rfl
      exact hg ⟨i, hq⟩

/-! ### Runs -/

inductive Accion where
  | generar (pid : ℤ) (tamanioProceso : ℕ) (posiciones : List ℤ)
  | obtenerMarco (pid : ℤ) (nroPagina : ℕ) (tipoOperacion : TipoOperacion) (ahora : ℤ)
  | cargar (pid : ℤ) (nroPagina : ℕ) (ahora : ℤ) (orden : List ℤ)
  | escribir (dirFisica : ℕ) (valor : UInt32)
  | remover (pid : ℤ)

def ejecutar (h : Handler) : Accion → Option Handler
  | .generar pid tamanioProceso posiciones => generarTablaPaginas h pid tamanioProceso posiciones
  | .obtenerMarco pid nroPagina op ahora => (obtenerMarco h pid nroPagina op ahora).map Prod.snd
  | .cargar pid nroPagina ahora orden => (cargarEnMemoria h pid nroPagina ahora orden).map Prod.snd
  | .escribir dirFisica valor => escribirValor h dirFisica valor
  | .remover pid => removerProceso h pid

/-- A table is created for a process without one, and only a page that is not there is loaded. -/
def Protocolo (h : Handler) : Accion → Prop
  | .generar pid _ _ => h.pidTablas.get pid = none
  | .cargar pid nroPagina _ _ => ∀ l, lugar h pid nroPagina = some l → l.bitPresencia ≠ 1
  | _ => True

/-- The loads replace modified pages only. -/
def Condicion (h : Handler) : Accion → Prop
  | .cargar pid _ _ orden => ReemplazaModificada h pid orden
  | _ => True

theorem propios_ejecutar {a : Accion} (hI : Propios h) (hp : Protocolo h a) (hc : Condicion h a)
    (hr : ejecutar h a = some h') : Propios h' := by
  cases a with
  | generar pid tamanioProceso posiciones =>
    exact propios_generar hI (fun i => lugar_eq_none hp) hr
  | obtenerMarco pid nroPagina op ahora =>
    obtain ⟨r, hm, rfl⟩ := Option.map_eq_some_iff.mp hr
    exact hI.of_igual (obtenerMarco_spec hm).1
  | cargar pid nroPagina ahora orden =>
    obtain ⟨r, hm, rfl⟩ := Option.map_eq_some_iff.mp hr
    exact propios_cargar hI hp hc hm
  | escribir dirFisica valor => exact (hI.of_espacio _).of_igual (escribirValor_spec hr)
  | remover pid => exact propios_removerProceso hI hr

theorem propios_inicial {tamanioMemoria tamanioPagina : ℕ} {algoritmo : Reemplazo}
    {espacio : Lib.Bytes.Mem}
    (hr : createHandlerPaginacion tamanioMemoria tamanioPagina algoritmo espacio = some h) :
    Propios h := by
  obtain ⟨e, he, hr⟩ := Option.bind_eq_some_iff.mp hr
  obtain rfl := Option.some.inj hr
  unfold createEspacioUsuario at he
  split_ifs at he
  obtain rfl := Option.some.inj he
  have hnada : ∀ p i f, ¬EnMarco ⟨Dict.empty, ⟨tamanioMemoria, tamanioMemoria / tamanioPagina,
      List.replicate (tamanioMemoria / tamanioPagina) 0, espacio⟩, [], algoritmo, tamanioPagina, false,
      0, fun _ _ => 0⟩ p i f := by
    rintro p i f ⟨l, hl, -⟩
    simp [lugar, pagina] at hl
  refine ⟨⟨List.length_replicate, fun f v hv => ?_, fun p i l hl => ?_,
    fun p i q j f h1 _ => absurd h1 (hnada _ _ _)⟩, fun f => ⟨fun hf => ?_, ?_⟩⟩
  · exact Or.inl (List.eq_of_mem_replicate (List.mem_of_getElem? hv))
  · simp [lugar, pagina] at hl
  · exact absurd (List.eq_of_mem_replicate (List.mem_of_getElem? hf)) (by decide)
  · rintro ⟨p, i, hp⟩
    exact absurd hp (hnada _ _ _)

/-- Two pages in memory do not have one frame, and `marcos_ocupados` says which frames have a page. -/
def MarcosPropios (h : Handler) : Prop :=
  (∀ p i pag q j pag', pagina h p i = some pag → pagina h q j = some pag' →
    pag.bitPresencia = 1 → pag'.bitPresencia = 1 → pag.nroFrame = pag'.nroFrame → p = q ∧ i = j) ∧
  ∀ f : ℕ, h.espacioUsuario.marcosOcupados[f]? = some 1 ↔
    ∃ p i pag, pagina h p i = some pag ∧ pag.bitPresencia = 1 ∧ pag.nroFrame = f

theorem enMarco_iff : EnMarco h p i f ↔
    ∃ pag, pagina h p i = some pag ∧ pag.bitPresencia = 1 ∧ pag.nroFrame = f := by
  simp only [EnMarco, lugar_eq_some]
  constructor
  · rintro ⟨_, ⟨pag, hp, rfl⟩, h1, h2⟩
    exact ⟨pag, hp, h1, h2⟩
  · rintro ⟨pag, hp, h1, h2⟩
    exact ⟨_, ⟨pag, hp, rfl⟩, h1, h2⟩

theorem Propios.marcosPropios (hI : Propios h) : MarcosPropios h := by
  refine ⟨fun p i pag q j pag' hp hq h1 h2 hf => ?_, fun f => (hI.ocupado f).trans ?_⟩
  · exact hI.unico p i q j pag.nroFrame (enMarco_iff.mpr ⟨pag, hp, h1, rfl⟩)
      (enMarco_iff.mpr ⟨pag', hq, h2, hf.symm⟩)
  · exact exists_congr fun p => exists_congr fun i => enMarco_iff

/-- **Frames.** After every run in which only modified pages are replaced, every frame in use is of
one page in memory. -/
theorem marcos_propios {tamanioMemoria tamanioPagina : ℕ} {algoritmo : Reemplazo}
    {espacio : Lib.Bytes.Mem} {h₀ : Handler} {as : List Accion}
    (hcrear : createHandlerPaginacion tamanioMemoria tamanioPagina algoritmo espacio = some h₀)
    (hrun : Along ejecutar (fun h a => Protocolo h a ∧ Condicion h a) h₀ as)
    (hexec : exec ejecutar h₀ as = some h) : MarcosPropios h :=
  (exec_invariant (fun _ _ _ hI hC hs => propios_ejecutar hI hC.1 hC.2 hs)
    (propios_inicial hcrear) hrun hexec).marcosPropios

theorem ausente_of_eq (hl : lugar h p i = some l) (h0 : l.bitPresencia = 0) :
    ∀ l', lugar h p i = some l' → l'.bitPresencia ≠ 1 := fun l' hl' => by
  obtain rfl := Option.some.inj (hl.symm.trans hl')
  rw [h0]
  exact Nat.zero_ne_one

theorem reemplazaModificada_of_eq (hv : paginaAReemplazar h orden = some (some pag))
    (hm : pag.bitModificado = 1) : ReemplazaModificada h p orden := fun _ _ pag' hv' => by
  obtain rfl := Option.some.inj (Option.some.inj (hv.symm.trans hv'))
  exact hm

/-- A memory of one frame. -/
def unMarco (algoritmo : Reemplazo) : Handler :=
  ⟨Dict.empty, ⟨4, 1, [0], fun _ => 0⟩, [], algoritmo, 4, false, 0, fun _ _ => 0⟩

/-- A memory of two frames. -/
def dosMarcos : Handler :=
  ⟨Dict.empty, ⟨8, 2, [0, 0], fun _ => 0⟩, [], .FIFO, 4, false, 0, fun _ _ => 0⟩

/-- A page of the second process replaces the page that the first one wrote to. -/
theorem marcos_propios_dosProcesos : ∃ h, exec ejecutar (unMarco .LRU) [.generar 1 8 [0, 4],
      .generar 2 4 [8], .cargar 1 0 10 [1, 2], .obtenerMarco 1 0 .ESCRIBIR 11, .escribir 0 7,
      .cargar 2 0 12 [2, 1], .remover 2] = some h ∧ MarcosPropios h := by
  have hcrear : createHandlerPaginacion 4 4 .LRU (fun _ => 0) = some (unMarco .LRU) := rfl
  have hrun : Along ejecutar (fun h a => Protocolo h a ∧ Condicion h a) (unMarco .LRU)
      [.generar 1 8 [0, 4], .generar 2 4 [8], .cargar 1 0 10 [1, 2], .obtenerMarco 1 0 .ESCRIBIR 11,
        .escribir 0 7, .cargar 2 0 12 [2, 1], .remover 2] :=
    .of_step ⟨rfl, trivial⟩ rfl <| .of_step ⟨rfl, trivial⟩ rfl <|
    .of_step ⟨ausente_of_eq rfl rfl, fun _ hf => absurd hf (by decide)⟩ rfl <|
    .of_step ⟨trivial, trivial⟩ rfl <| .of_step ⟨trivial, trivial⟩ rfl <|
    .of_step ⟨ausente_of_eq rfl rfl, reemplazaModificada_of_eq rfl rfl⟩ rfl <|
    .of_step ⟨trivial, trivial⟩ rfl trivial
  exact ⟨_, rfl, marcos_propios hcrear hrun rfl⟩

/-- **Two pages in one frame.** The second page of a process replaces the first, which nobody wrote
to. -/
theorem dos_paginas_en_un_marco :
    createHandlerPaginacion 4 4 .FIFO (fun _ => 0) = some (unMarco .FIFO) ∧
    Along ejecutar Protocolo (unMarco .FIFO) [.generar 1 8 [0, 4], .cargar 1 0 10 [1],
      .cargar 1 1 20 [1]] ∧
    ∃ h, exec ejecutar (unMarco .FIFO) [.generar 1 8 [0, 4], .cargar 1 0 10 [1],
      .cargar 1 1 20 [1]] = some h ∧ ¬MarcosPropios h := by
  refine ⟨rfl, ?_, _, rfl, fun hm => ?_⟩
  · exact .of_step rfl rfl <| .of_step (ausente_of_eq rfl rfl) rfl <|
      .of_step (ausente_of_eq rfl rfl) rfl trivial
  · exact absurd (hm.1 1 0 _ 1 1 _ rfl rfl rfl rfl rfl).2 (by decide)

end OperatingSystem.Memoria.Marcos
