import OperatingSystem.Memoria.Marcos

/-! # What the pages hold

To the processes the memory is flat: `Plana` has a word for every logical address. A word of a page in
memory is in its frame, and a word of a page that is not there is at its swap position (`palabra`).
`Guarda h m` says that this is the word that `m` has, for all words that lie in one page. Every
function of the handler keeps it, with `m` changed at the address written, as long as the frames are
`Propios` and the page that goes was modified. -/

namespace OperatingSystem.Memoria.Contenido

open OperatingSystem.Lib.Bytes
open OperatingSystem.Memoria.Paginas OperatingSystem.Memoria.HandlerPaginacion
open OperatingSystem.Memoria.Lugares OperatingSystem.Memoria.Marcos

/-- A word for every logical address of every process. -/
abbrev Plana := ℤ → ℕ → UInt32

/-- The flat memory after a write. -/
def Plana.escribir (m : Plana) (p : ℤ) (a : ℕ) (v : UInt32) : Plana := fun q b =>
  if q = p ∧ b = a then v else m q b

/-- The aligned word at `a` is one of the whole words of its page. -/
def EnPalabras (tam a : ℕ) : Prop := a % 4 = 0 ∧ a % tam + 4 ≤ 4 * (tam / 4)

/-- The word at the offset `i` of a page. -/
def palabra (h : Handler) (l : Lugar) (i : ℕ) : UInt32 :=
  if l.bitPresencia = 1 then leer h.espacioUsuario.espacio (l.nroFrame * h.tamanioPagina + i)
  else leer (h.swap l.posSwap) i

/-- **The pages hold the flat memory**, each at a swap position of its own. -/
structure Guarda (h : Handler) (m : Plana) : Prop where
  distintas : ∀ p i q j l l', lugar h p i = some l → lugar h q j = some l' →
    l.posSwap = l'.posSwap → p = q ∧ i = j
  palabras : ∀ p l a, lugar h p (a / h.tamanioPagina) = some l → EnPalabras h.tamanioPagina a →
    palabra h l (a % h.tamanioPagina) = m p a

variable {h h' : Handler} {m : Plana} {p q : ℤ} {i j f g : ℕ} {pag : Pagina} {l : Lugar}
  {orden : List ℤ} {a : ℕ}

/-- With pages of whole words every aligned word is in one page. -/
theorem enPalabras_of_dvd {tam : ℕ} (htam : 4 ∣ tam) (hpos : 0 < tam) (ha : a % 4 = 0) :
    EnPalabras tam a := by
  obtain ⟨k, rfl⟩ := htam
  have hlt : a % (4 * k) < 4 * k := Nat.mod_lt _ hpos
  have hmod : a % (4 * k) % 4 = 0 := by rw [Nat.mod_mul_right_mod]; exact ha
  exact ⟨ha, by omega⟩

/-- Two frames share no byte. -/
theorem marcos_disjuntos {t n : ℕ} (hne : f ≠ g) (hi : i + n ≤ t) (hj : j + 4 ≤ t) :
    g * t + j + 4 ≤ f * t + i ∨ f * t + i + n ≤ g * t + j := by
  rcases Nat.lt_or_gt_of_ne hne with hlt | hlt
  · have hle : (f + 1) * t ≤ g * t := Nat.mul_le_mul_right t hlt
    rw [Nat.succ_mul] at hle
    omega
  · have hle : (g + 1) * t ≤ f * t := Nat.mul_le_mul_right t hlt
    rw [Nat.succ_mul] at hle
    omega

theorem EnPalabras.lt {tam : ℕ} (ha : EnPalabras tam a) : a % tam + 4 ≤ tam :=
  ha.2.trans (Nat.mul_div_le tam 4)

theorem Guarda.of_igual (hG : Guarda h m) (hig : Igual h h') : Guarda h' m := by
  refine ⟨fun p i q j l l' hl hl' => ?_, fun p l a hl ha => ?_⟩
  · rw [hig.lugar] at hl hl'
    exact hG.distintas p i q j l l' hl hl'
  · rw [hig.lugar, hig.tamanioPagina] at hl
    rw [hig.tamanioPagina] at ha ⊢
    rw [← hG.palabras p l a hl ha, palabra, palabra, hig.espacioUsuario, hig.swap, hig.tamanioPagina]

/-- No two pages have one swap position. -/
def Distintas (h : Handler) : Prop := ∀ p i q j l l', lugar h p i = some l →
  lugar h q j = some l' → l.posSwap = l'.posSwap → p = q ∧ i = j

/-- Pages that keep their swap positions still have positions of their own. -/
theorem Distintas.of_posSwap (hD : Distintas h) (hpos : ∀ q j l, lugar h' q j = some l →
      ∃ l₀, lugar h q j = some l₀ ∧ l₀.posSwap = l.posSwap) : Distintas h' := by
  intro p i q j l l' hl hl' heq
  obtain ⟨l₀, hl₀, h0⟩ := hpos p i l hl
  obtain ⟨l₁, hl₁, h1⟩ := hpos q j l' hl'
  exact hD p i q j l₀ l₁ hl₀ hl₁ (by rw [h0, h1, heq])

/-- A new process gets swap positions that no page has. -/
theorem Distintas.generar (hD : Distintas h) {size : ℕ} {posiciones : List ℤ}
    (hnd : posiciones.Nodup) (hlibres : ∀ q j l, lugar h q j = some l → l.posSwap ∉ posiciones)
    (hr : generarTablaPaginas h p size posiciones = some h') : Distintas h' := by
  obtain ⟨hl', -⟩ := generarTablaPaginas_spec hr
  have hpag : ∀ j l, lugar h' p j = some l → posiciones[j]? = some l.posSwap := by
    intro j l hl
    rw [hl', if_pos rfl] at hl
    obtain ⟨pos, hpos, rfl⟩ := Option.map_eq_some_iff.mp hl
    exact hpos
  have hotra : ∀ {q}, q ≠ p → ∀ j, lugar h' q j = lugar h q j := fun hq j =>
    (hl' _ j).trans (if_neg hq)
  intro q i q' j l l' hl hl₁ heq
  by_cases hq : q = p
  · subst hq
    have hmem := hpag i l hl
    by_cases hq' : q' = q
    · subst hq'
      obtain ⟨hlt, hget⟩ := List.getElem?_eq_some_iff.mp hmem
      refine ⟨rfl, (List.getElem?_inj hlt hnd).mp ?_⟩
      rw [hmem, hpag j l' hl₁, heq]
    · rw [hotra hq'] at hl₁
      exact absurd (heq ▸ List.mem_of_getElem? hmem) (hlibres _ _ _ hl₁)
  · rw [hotra hq] at hl
    by_cases hq' : q' = p
    · subst hq'
      exact absurd (heq ▸ List.mem_of_getElem? (hpag j l' hl₁)) (hlibres _ _ _ hl)
    · rw [hotra hq'] at hl₁
      exact hD _ _ _ _ _ _ hl hl₁ heq

/-! ### Reads and writes -/

/-- **What is read** in the frame of a page in memory. -/
theorem Guarda.leerValor_eq (hG : Guarda h m) (ha : EnPalabras h.tamanioPagina a)
    (hf : EnMarco h p (a / h.tamanioPagina) f) :
    leerValor h (f * h.tamanioPagina + a % h.tamanioPagina) = m p a := by
  obtain ⟨l, hl, hpres, rfl⟩ := hf
  rw [← hG.palabras p l a hl ha, palabra, if_pos hpres]
  rfl

/-- Two words are apart, in one page or in two. -/
theorem palabras_disjuntas {b : ℕ} (hB : Base h) (ha : EnPalabras h.tamanioPagina a)
    (hb : EnPalabras h.tamanioPagina b) (hf : EnMarco h p (a / h.tamanioPagina) f)
    (hg : EnMarco h q (b / h.tamanioPagina) g) (hqb : ¬(q = p ∧ b = a)) :
    g * h.tamanioPagina + b % h.tamanioPagina + 4 ≤ f * h.tamanioPagina + a % h.tamanioPagina ∨
      f * h.tamanioPagina + a % h.tamanioPagina + 4 ≤
        g * h.tamanioPagina + b % h.tamanioPagina := by
  by_cases hne : f = g
  · subst hne
    obtain ⟨rfl, hab⟩ := hB.unico _ _ _ _ _ hf hg
    have h1 := Nat.div_add_mod a h.tamanioPagina
    have h2 := Nat.div_add_mod b h.tamanioPagina
    rw [← hab] at h2
    have hba : b ≠ a := fun hba => hqb ⟨rfl, hba⟩
    have h3 := ha.1
    have h4 := hb.1
    omega
  · exact marcos_disjuntos hne ha.lt hb.lt

/-- **What is written** in the frame of a page in memory. -/
theorem Guarda.escribir (hG : Guarda h m) (hB : Base h) (ha : EnPalabras h.tamanioPagina a)
    (hf : EnMarco h p (a / h.tamanioPagina) f) (v : UInt32) :
    Guarda (setEspacio h (espacioEscribirValor h.espacioUsuario
      (f * h.tamanioPagina + a % h.tamanioPagina) v)) (m.escribir p a v) := by
  refine ⟨hG.distintas, fun q l b hl hb => ?_⟩
  change lugar h q (b / h.tamanioPagina) = some l at hl
  change EnPalabras h.tamanioPagina b at hb
  change palabra _ l (b % h.tamanioPagina) = _
  have hvieja := hG.palabras q l b hl hb
  by_cases hpres : l.bitPresencia = 1
  · rw [palabra, if_pos hpres] at hvieja ⊢
    change Lib.Bytes.leer (Lib.Bytes.escribir h.espacioUsuario.espacio
        (f * h.tamanioPagina + a % h.tamanioPagina) v)
      (l.nroFrame * h.tamanioPagina + b % h.tamanioPagina) = _
    by_cases hqb : q = p ∧ b = a
    · obtain ⟨rfl, rfl⟩ := hqb
      obtain ⟨l', hl', -, rfl⟩ := hf
      obtain rfl := Option.some.inj (hl.symm.trans hl')
      rw [leer_escribir, Plana.escribir, if_pos ⟨rfl, rfl⟩]
    · have hdis := palabras_disjuntas hB ha hb hf ⟨l, hl, hpres, rfl⟩ hqb
      rw [leer_escribir_of_disjoint hdis, hvieja, Plana.escribir, if_neg hqb]
  · have hqb : ¬(q = p ∧ b = a) := by
      rintro ⟨rfl, rfl⟩
      obtain ⟨l', hl', hpres', -⟩ := hf
      obtain rfl := Option.some.inj (hl.symm.trans hl')
      exact hpres hpres'
    rw [palabra, if_neg hpres] at hvieja ⊢
    rw [Plana.escribir, if_neg hqb]
    exact hvieja

/-! ### Loads -/

/-- **A modified page that goes out** takes its words to its swap position. -/
theorem Guarda.removida (hG : Guarda h m) (hI : Base h)
    (hv : paginaAReemplazar h orden = some (some pag)) (hm : pag.bitModificado = 1)
    {r : Option Pagina × Handler} (hr : removerPaginaMemoria h orden = some r) : Guarda r.2 m := by
  obtain ⟨hp, hpres'⟩ := hI.victima hv
  have hpres : (lugarDe pag).bitPresencia = 1 := hpres'
  have hvieja : lugar h pag.pid pag.nroPagina = some (lugarDe pag) :=
    lugar_eq_some.mpr ⟨pag, hp, rfl⟩
  obtain ⟨-, hl', he, hs, htam, -⟩ := removerPaginaMemoria_spec hr hv hm hp
  -- no page changes its swap position
  have hpos : ∀ q j l, lugar r.2 q j = some l →
      ∃ l₀, lugar h q j = some l₀ ∧ l₀.posSwap = l.posSwap := by
    intro q j l hl
    rw [hl'] at hl
    split_ifs at hl with hqj
    · obtain ⟨rfl, rfl⟩ := hqj
      obtain rfl := Option.some.inj hl
      exact ⟨_, hvieja, rfl⟩
    · exact ⟨l, hl, rfl⟩
  refine ⟨Distintas.of_posSwap hG.distintas hpos, fun q l a hl ha => ?_⟩
  rw [htam] at hl ha ⊢
  rw [hl'] at hl
  split_ifs at hl with hqa
  · -- the victim: its words are the ones sent
    obtain ⟨rfl, hqa⟩ := hqa
    obtain rfl := Option.some.inj hl
    rw [← hG.palabras pag.pid (lugarDe pag) a (by rw [hqa]; exact hvieja) ha, palabra, palabra,
      if_neg Nat.zero_ne_one, if_pos hpres, hs]
    change leer (Function.update h.swap pag.posSwap _ pag.posSwap) _ = _
    have hcopia := leer_copia (h.swap pag.posSwap) h.espacioUsuario.espacio 0
      (pag.nroFrame * h.tamanioPagina) ha.2
    rw [Nat.zero_add] at hcopia
    rw [Function.update_self, hcopia]
    rfl
  · have hne : l.posSwap ≠ pag.posSwap := fun heq =>
      hqa (hG.distintas _ _ _ _ _ _ hl hvieja heq)
    rw [← hG.palabras q l a hl ha, palabra, palabra, he, hs, htam, Function.update_of_ne hne]

/-- **A page that comes in** finds its words at its swap position. -/
theorem Guarda.alojar (hG : Guarda h m) (hS : Salvo h f) {ahora : ℤ} {r : Option ℕ × Handler}
    (habs : ∀ l, lugar h p i = some l → l.bitPresencia ≠ 1)
    (hr : alojar h p i f ahora = some r) : Guarda r.2 m := by
  obtain ⟨l₀, h', rfl, hl₀, hl', he, hs, htam, -⟩ := alojar_inv hr
  change Guarda h' m
  have hesp : h'.espacioUsuario.espacio = escribirPalabras h.espacioUsuario.espacio
      (f * h.tamanioPagina) (leerPalabras (h.swap l₀.posSwap) 0 (h.tamanioPagina / 4)) := by rw [he]
  have hpos : ∀ q j l, lugar h' q j = some l →
      ∃ l₁, lugar h q j = some l₁ ∧ l₁.posSwap = l.posSwap := by
    intro q j l hl
    rw [hl'] at hl
    split_ifs at hl with hqj
    · obtain ⟨rfl, rfl⟩ := hqj
      obtain rfl := Option.some.inj hl
      exact ⟨_, hl₀, rfl⟩
    · exact ⟨l, hl, rfl⟩
  refine ⟨Distintas.of_posSwap hG.distintas hpos, fun q l a hl ha => ?_⟩
  rw [htam] at hl ha ⊢
  rw [hl'] at hl
  split_ifs at hl with hqa
  · obtain ⟨rfl, rfl⟩ := hqa
    obtain rfl := Option.some.inj hl
    rw [← hG.palabras q l₀ a hl₀ ha, palabra, palabra, if_pos rfl, if_neg (habs l₀ hl₀), hesp, htam,
      leer_copia _ _ _ _ ha.2, Nat.zero_add]
  · rw [← hG.palabras q l a hl ha, palabra, palabra, hs, htam]
    by_cases hpres : l.bitPresencia = 1
    · -- a page in another frame
      have hne : f ≠ l.nroFrame := by
        rintro rfl
        exact hS.nadie _ _ ⟨l, hl, hpres, rfl⟩
      have hdis : l.nroFrame * h.tamanioPagina + a % h.tamanioPagina + 4 ≤ f * h.tamanioPagina ∨
          f * h.tamanioPagina + 4 * (h.tamanioPagina / 4) ≤
            l.nroFrame * h.tamanioPagina + a % h.tamanioPagina := by
        have := marcos_disjuntos (i := 0) (n := 4 * (h.tamanioPagina / 4)) hne
          (by rw [Nat.zero_add]; exact Nat.mul_div_le _ _) ha.lt
        omega
      rw [if_pos hpres, if_pos hpres, hesp, leer_copia_of_disjoint _ _ _ hdis]
    · rw [if_neg hpres, if_neg hpres]

/-- A load changes no word. -/
theorem Guarda.cargar (hG : Guarda h m) (hI : Propios h) {nro : ℕ} {ahora : ℤ}
    {r : Option ℕ × Handler} (habs : ∀ l, lugar h p nro = some l → l.bitPresencia ≠ 1)
    (hc : ReemplazaModificada h p orden) (hr : cargarEnMemoria h p nro ahora orden = some r) :
    Guarda r.2 m := by
  rcases cargarEnMemoria_cases hc hr with
    he | ⟨he, -⟩ | ⟨f, hf, ha⟩ | ⟨pag, h₁, hv, hm, hrem, ha⟩
  · exact he ▸ hG
  · rw [he]
    exact ⟨hG.distintas, hG.palabras⟩
  · exact hG.alojar (salvo_of_libre hI hf) habs ha
  · have hG₁ : Guarda h₁ m := hG.removida hI.toBase hv hm hrem
    exact hG₁.alojar (salvo_of_removida hI hv hm hrem) (ausente_removida hI hv hm hrem habs) ha

/-! ### New processes and processes that end -/

/-- The pages of a new process are zero. -/
theorem Guarda.generar (hG : Guarda h m) {size : ℕ} {posiciones : List ℤ}
    (hnuevo : ∀ a, m p a = 0) (hnd : posiciones.Nodup)
    (hlibres : ∀ q j l, lugar h q j = some l → l.posSwap ∉ posiciones)
    (hr : generarTablaPaginas h p size posiciones = some h') : Guarda h' m := by
  obtain ⟨hl', he, hs, htam, -⟩ := generarTablaPaginas_spec hr
  have hpag : ∀ j l, lugar h' p j = some l →
      posiciones[j]? = some l.posSwap ∧ l.bitPresencia = 0 := by
    intro j l hl
    rw [hl', if_pos rfl] at hl
    obtain ⟨pos, hpos, rfl⟩ := Option.map_eq_some_iff.mp hl
    exact ⟨hpos, rfl⟩
  have hotra : ∀ {q}, q ≠ p → ∀ j, lugar h' q j = lugar h q j := fun hq j =>
    (hl' _ j).trans (if_neg hq)
  refine ⟨Distintas.generar hG.distintas hnd hlibres hr, fun q l a hl ha => ?_⟩
  rw [htam] at hl ha ⊢
  by_cases hq : q = p
  · subst hq
    obtain ⟨hpos, hbit⟩ := hpag _ l hl
    have hcero : h'.swap l.posSwap = fun _ => 0 := by
      rw [hs]
      exact if_pos (List.mem_of_getElem? hpos)
    rw [palabra, if_neg (by rw [hbit]; exact Nat.zero_ne_one), hcero, hnuevo]
    rfl
  · rw [hotra hq] at hl
    rw [← hG.palabras q l a hl ha, palabra, palabra, he, htam, hs]
    simp only [if_neg (hlibres _ _ _ hl)]

theorem Guarda.removerProceso (hG : Guarda h m) (hr : removerProceso h p = some h') :
    Guarda h' m := by
  obtain ⟨hl', he, -, -, -, -, hs, htam, -⟩ := removerProceso_spec hr
  have hvivo : ∀ q j l, lugar h' q j = some l → lugar h q j = some l := by
    intro q j l hl
    rw [hl'] at hl
    split_ifs at hl
    exact hl
  refine ⟨Distintas.of_posSwap hG.distintas fun q j l hl => ⟨l, hvivo q j l hl, rfl⟩, fun q l a hl ha => ?_⟩
  rw [htam] at hl ha ⊢
  rw [← hG.palabras q l a (hvivo _ _ _ hl) ha, palabra, palabra, he, hs, htam]

end OperatingSystem.Memoria.Contenido
