import OperatingSystem.FileSystem.Acceso
import OperatingSystem.Lib.Run

/-! # Runs of requests on files

A request is admissible (`Admisible`) when a new file has a new name, the table has the free blocks a
growing file needs, and a read or a write is at a block of the file. An admissible request is served,
and `servir_efecto` says all it can do to the table, the chains and the disk. Two results about every
run of admissible requests follow from it:

* `fat_representa`: the table represents disjoint chains, as long as the files need, that take up
  exactly the blocks in use.
* `capa_de_bloques`: the files are lists of blocks, where a block reads as it was last written. -/

namespace OperatingSystem.FileSystem.Corridas

open OperatingSystem.Lib.CInt OperatingSystem.Lib.Dictionary OperatingSystem.Lib.Lists
open OperatingSystem.Lib.Run
open OperatingSystem.FileSystem.Fat OperatingSystem.FileSystem.Bloques
open OperatingSystem.FileSystem.Archivo OperatingSystem.FileSystem.Cadenas
open OperatingSystem.FileSystem.Invariante OperatingSystem.FileSystem.Acceso

variable {cfg : FilesystemConfig} {cad : String → List ℕ}

/-! ### Admissible requests -/

/-- The file has a block at the pointer. -/
def EnArchivo (fs : Filesystem cfg) (nombre : String) (puntero : ℤ) : Prop :=
  ∃ fcb cant, fs.fcbs.get nombre = some fcb ∧
    obtenerCantBloquesAsignados fcb fs.fat = some cant ∧ 0 ≤ puntero ∧
      puntero < cant * cfg.tamBloque

/-- **Admissible requests.** -/
def Admisible (fs : Filesystem cfg) : Pedido cfg → Prop
  | .crear nombre => fs.fcbs.get nombre = none
  | .truncar nombre tamanio => ∃ fcb cant, fs.fcbs.get nombre = some fcb ∧
      obtenerCantBloquesAsignados fcb fs.fat = some cant ∧ 0 ≤ tamanio ∧
        FitsInt (tamanio + (cfg.tamBloque - 1)) ∧
          bloquesPara cfg tamanio ≤ cant + fs.fat.count 0
  | .escribir nombre puntero _ => EnArchivo fs nombre puntero
  | .leer nombre puntero => EnArchivo fs nombre puntero

/-- The state after a request. -/
def paso (fs : Filesystem cfg) (p : Pedido cfg) : Option (Filesystem cfg) :=
  (servir fs p).map Prod.fst

/-- What a request does to the state, whose chains are `cad` before and `cad'` after. -/
def Efecto (fs : Filesystem cfg) (cad : String → List ℕ) :
    Pedido cfg → Filesystem cfg → Option (Bloque cfg.tamBloque) → (String → List ℕ) → Prop
  | .crear n, fs', r, cad' => fs' = crearArchivo fs n ∧ r = none ∧ cad' = cad
  | .truncar n tamanio, fs', r, cad' => r = none ∧ ∃ fat' b c,
      fs' = { fs with fat := fat', fcbs := fs.fcbs.put n ⟨tamanio, b⟩ } ∧
        c.length = bloquesPara cfg tamanio ∧ (c <+: cad n ∨ cad n <+: c) ∧
          cad' = Function.update cad n c
  | .escribir n puntero data, fs', r, cad' => r = none ∧ cad' = cad ∧
      ∃ i, (cad n)[puntero.toNat / cfg.tamBloque]? = some i ∧ fs' =
        { fs with bloques := Function.update fs.bloques (cfg.cantBloquesSwap + i) data }
  | .leer n puntero, fs', r, cad' => fs' = fs ∧ cad' = cad ∧
      ∃ i, (cad n)[puntero.toNat / cfg.tamBloque]? = some i ∧
        r = some (fs.bloques (cfg.cantBloquesSwap + i))

theorem obtenerCant_cadena {fat : List ℕ} {fcbs : Dict String Fcb} {n : String} {fcb : Fcb}
    {cant : ℕ} (h : Rep cfg fat fcbs cad) (hn : fcbs.get n = some fcb)
    (hc : obtenerCantBloquesAsignados fcb fat = some cant) : cant = (cad n).length := by
  rw [h.obtenerCant hn] at hc
  exact (Option.some.inj hc).symm

/-- A pointer inside the file is at a block of its chain. -/
theorem enArchivo_cadena {fs : Filesystem cfg} (h : Rep cfg fs.fat fs.fcbs cad) {n : String}
    {puntero : ℤ} (hp : EnArchivo fs n puntero) :
    ∃ fcb i, fs.fcbs.get n = some fcb ∧ 0 ≤ puntero.tdiv cfg.tamBloque ∧
      (puntero.tdiv cfg.tamBloque).toNat = puntero.toNat / cfg.tamBloque ∧
        (cad n)[puntero.toNat / cfg.tamBloque]? = some i := by
  obtain ⟨fcb, cant, hn, hc, h0, hlt⟩ := hp
  obtain rfl := obtenerCant_cadena h hn hc
  obtain ⟨p, rfl⟩ := Int.eq_ofNat_of_zero_le h0
  have hk : p / cfg.tamBloque < (cad n).length :=
    Nat.div_lt_of_lt_mul (by rw [Nat.mul_comm]; exact_mod_cast hlt)
  exact ⟨fcb, (cad n)[p / cfg.tamBloque], hn, Int.tdiv_nonneg h0 (Int.natCast_nonneg _), rfl,
    List.getElem?_eq_getElem hk⟩

/-- **An admissible request is served**, and this is all it does. -/
theorem servir_efecto {fs : Filesystem cfg} (h : Rep cfg fs.fat fs.fcbs cad) {p : Pedido cfg}
    (hp : Admisible fs p) : ∃ fs' r cad', servir fs p = some (fs', r) ∧
      Rep cfg fs'.fat fs'.fcbs cad' ∧ Efecto fs cad p fs' r cad' := by
  cases p with
  | crear n => exact ⟨crearArchivo fs n, none, cad, rfl, h.crear hp, rfl, rfl, rfl⟩
  | truncar n tamanio =>
    obtain ⟨fcb, cant, hn, hc, h0, hf, hlibres⟩ := hp
    obtain rfl := obtenerCant_cadena h hn hc
    obtain ⟨fat', b, c, he, hlen, hpre, hrep⟩ := h.truncar hn h0 hf hlibres
    exact ⟨_, none, _, by rw [servir, he]; rfl, hrep, rfl, fat', b, c, rfl, hlen, hpre, rfl⟩
  | escribir n puntero data =>
    obtain ⟨fcb, i, hn, h0, hk, hi⟩ := enArchivo_cadena h hp
    have he := escribirArchivo_dentro h.toBienFormada hn h0 (by rw [hk]; exact hi) data
    refine ⟨_, none, cad, by rw [servir, he]; rfl, ?_, rfl, rfl, i, hi, rfl⟩
    exact h
  | leer n puntero =>
    obtain ⟨fcb, i, hn, h0, hk, hi⟩ := enArchivo_cadena h hp
    have he := leerArchivo_dentro h.toBienFormada hn h0 (by rw [hk]; exact hi)
    exact ⟨_, _, cad, by rw [servir, he]; rfl, h, rfl, rfl, i, hi, rfl⟩

/-! ### The table represents the files -/

/-- **The table read through the code's own walk**: the chains, their disjointness, the absence of
lost blocks, and their lengths. -/
structure Representa (cfg : FilesystemConfig) (fat : List ℕ) (fcbs : Dict String Fcb) : Prop where
  reservada : fat[0]? = some UINT32_MAX
  /-- A chain ends at `UINT32_MAX`, or is empty when there is no first block. -/
  cadena : ∀ n fcb, fcbs.get n = some fcb → ∃ l, obtenerBloquesFatAsignados fcb fat = some l ∧
    l.Nodup ∧ (∀ i ∈ l, 1 ≤ i ∧ i ≤ cfg.cantBloques - 1) ∧ (l = [] ↔ fcb.bloqueInicial = 0) ∧
      (∀ u, l.getLast? = some u → fat[u]? = some UINT32_MAX) ∧
        0 ≤ fcb.tamanio ∧ l.length = bloquesPara cfg fcb.tamanio
  disjuntas : ∀ n m fcb fcb' l l', n ≠ m → fcbs.get n = some fcb → fcbs.get m = some fcb' →
    obtenerBloquesFatAsignados fcb fat = some l → obtenerBloquesFatAsignados fcb' fat = some l' →
      ∀ i ∈ l, i ∉ l'
  sinFugas : ∀ i, 0 < i → i < cfg.cantBloques → ((∃ v, fat[i]? = some v ∧ v ≠ 0) ↔
    ∃ n fcb l, fcbs.get n = some fcb ∧ obtenerBloquesFatAsignados fcb fat = some l ∧ i ∈ l)

/-- Every file has the blocks its size needs. -/
def Tamanios (cfg : FilesystemConfig) (fcbs : Dict String Fcb) (cad : String → List ℕ) : Prop :=
  ∀ n fcb, fcbs.get n = some fcb → 0 ≤ fcb.tamanio ∧ (cad n).length = bloquesPara cfg fcb.tamanio

theorem getElem?_siguiente {fat : List ℕ} {i : ℕ} (hi : i < fat.length) :
    fat[i]? = some (siguiente fat i) := by
  rw [← accesoFatGet_nat, accesoFatGet_of_lt hi]

/-- The invariant is what the walk reads. -/
theorem representa_de_rep {fat : List ℕ} {fcbs : Dict String Fcb} (h : Rep cfg fat fcbs cad)
    (ht : Tamanios cfg fcbs cad) : Representa cfg fat fcbs := by
  have hobt : ∀ {n fcb}, fcbs.get n = some fcb →
      obtenerBloquesFatAsignados fcb fat = some (cad n) := fun hn =>
    (h.cadena _ _ hn).obtener h.length_le rfl
  refine ⟨?_, fun n fcb hn => ?_, ?_, fun i h0 hlt => ?_⟩
  · rw [getElem?_siguiente (by rw [h.largo]; exact cantBloques_pos cfg), h.reservada]
  · have hc := h.cadena n fcb hn
    refine ⟨cad n, hobt hn, hc.nodup h.length_le, fun i hi => ?_, hc.nil_iff, fun u hu => ?_,
      ht n fcb hn⟩
    · have := hc.pos i hi
      have := hc.lt i hi
      rw [h.largo] at this
      omega
    · obtain ⟨l, hl⟩ := List.getLast?_eq_some_iff.mp hu
      have hp := hc.path (by simp [hl])
      rw [hl, Lib.Chains.path_concat] at hp
      rw [getElem?_siguiente (hc.lt u (by simp [hl])), hp.2]
  · intro n m fcb fcb' l l' hnm hn hm hl hl'
    obtain rfl : cad n = l := Option.some.inj ((hobt hn).symm.trans hl)
    obtain rfl : cad m = l' := Option.some.inj ((hobt hm).symm.trans hl')
    exact h.disjuntas n m hnm
  · rw [getElem?_siguiente (by rw [h.largo]; exact hlt)]
    constructor
    · rintro ⟨v, hv, hne⟩
      obtain rfl := Option.some.inj hv
      obtain ⟨n, hin⟩ := h.sinFugas i h0 hne
      cases hn : fcbs.get n with
      | none => rw [h.sinArchivo n hn] at hin; simp at hin
      | some fcb => exact ⟨n, fcb, cad n, hn, hobt hn, hin⟩
    · rintro ⟨n, fcb, l, hn, hl, hil⟩
      obtain rfl : cad n = l := Option.some.inj ((hobt hn).symm.trans hl)
      exact ⟨_, rfl, h.ocupado hil⟩

theorem bloquesPara_cero (cfg : FilesystemConfig) : bloquesPara cfg 0 = 0 := by
  have := cfg.tam_pos
  rw [bloquesPara]
  exact Nat.div_eq_of_lt (by simp; omega)

/-- A request keeps the sizes. -/
theorem Tamanios.efecto {fs fs' : Filesystem cfg} {p : Pedido cfg} {r : Option (Bloque cfg.tamBloque)}
    {cad' : String → List ℕ} (h : Rep cfg fs.fat fs.fcbs cad) (ht : Tamanios cfg fs.fcbs cad)
    (hp : Admisible fs p) (he : Efecto fs cad p fs' r cad') : Tamanios cfg fs'.fcbs cad' := by
  cases p with
  | crear n =>
    obtain ⟨rfl, -, rfl⟩ := he
    intro m fcb hm
    by_cases hmn : m = n
    · subst hmn
      obtain rfl : ⟨0, 0⟩ = fcb := by simpa [crearArchivo] using hm
      exact ⟨le_rfl, by rw [h.sinArchivo m hp, bloquesPara_cero]; rfl⟩
    · exact ht m fcb (by simpa [crearArchivo, hmn] using hm)
  | truncar n tamanio =>
    obtain ⟨-, fat', b, c, rfl, hlen, -, rfl⟩ := he
    obtain ⟨-, -, -, -, h0, -⟩ := hp
    intro m fcb hm
    by_cases hmn : m = n
    · subst hmn
      obtain rfl : ⟨tamanio, b⟩ = fcb := by simpa using hm
      exact ⟨h0, by rw [Function.update_self, hlen]⟩
    · rw [Function.update_of_ne hmn]
      exact ht m fcb (by simpa [hmn] using hm)
  | escribir n puntero data =>
    obtain ⟨-, rfl, i, -, rfl⟩ := he
    exact ht
  | leer n puntero =>
    obtain ⟨rfl, rfl, -⟩ := he
    exact ht

/-- **The allocation table after every run.** -/
theorem fat_representa (bloques : BloquesDat cfg.tamBloque) {ps : List (Pedido cfg)}
    (h : Along paso Admisible (inicial cfg bloques) ps) :
    ∃ fs, exec paso (inicial cfg bloques) ps = some fs ∧ Representa cfg fs.fat fs.fcbs := by
  have hstep : ∀ (fs : Filesystem cfg) p,
      (∃ cad, Rep cfg fs.fat fs.fcbs cad ∧ Tamanios cfg fs.fcbs cad) → Admisible fs p →
        ∃ fs', paso fs p = some fs' ∧
          ∃ cad, Rep cfg fs'.fat fs'.fcbs cad ∧ Tamanios cfg fs'.fcbs cad := by
    rintro fs p ⟨cad, hrep, ht⟩ hp
    obtain ⟨fs', r, cad', hs, hrep', he⟩ := servir_efecto hrep hp
    exact ⟨fs', by rw [paso, hs]; rfl, cad', hrep', ht.efecto hrep hp he⟩
  have hini : Tamanios cfg (inicial cfg bloques).fcbs fun _ => [] := fun n fcb hn => by
    simp [inicial] at hn
  obtain ⟨fs, hfs, cad, hrep, ht⟩ := exec_total hstep ⟨_, rep_limpiarFat cfg, hini⟩ h
  exact ⟨fs, hfs, representa_de_rep hrep ht⟩

/-- Two files that grow in turns, the second of which takes blocks that the first gave back. -/
theorem fat_representa_dosArchivos :
    ∃ fs, exec paso (inicial cfgChica fun _ _ => 0) [.crear "a", .truncar "a" 33, .crear "b",
      .truncar "a" 0, .truncar "b" 17] = some fs ∧ Representa cfgChica fs.fat fs.fcbs :=
  fat_representa _ <|
    .of_step rfl rfl <|
    .of_step ⟨⟨0, 0⟩, 0, rfl, rfl, by decide, by decide, by decide⟩ rfl <|
    .of_step rfl rfl <|
    .of_step ⟨⟨33, 1⟩, 3, rfl, rfl, by decide, by decide, by decide⟩ rfl <|
    .of_step ⟨⟨0, 0⟩, 0, rfl, rfl, by decide, by decide, by decide⟩ rfl trivial

/-! ### Files as lists of blocks -/

/-- The files as lists of blocks; a block is `none` from its allocation to its first write. -/
abbrev Archivos (cfg : FilesystemConfig) := String → List (Option (Bloque cfg.tamBloque))

/-- What a request means for the lists of blocks. -/
def especificar (as : Archivos cfg) : Pedido cfg → Archivos cfg
  | .crear n => Function.update as n []
  | .truncar n tamanio => Function.update as n
      ((as n).take (bloquesPara cfg tamanio) ++
        List.replicate (bloquesPara cfg tamanio - (as n).length) none)
  | .escribir n puntero data =>
    Function.update as n ((as n).set (puntero.toNat / cfg.tamBloque) (some data))
  | .leer _ _ => as

/-- The lists of blocks are as long as the chains, and hold what the chains' blocks hold. -/
structure Contenido (fs : Filesystem cfg) (cad : String → List ℕ) (as : Archivos cfg) : Prop where
  largo : ∀ n, (as n).length = (cad n).length
  bloque : ∀ (n : String) (k i : ℕ) (data : Bloque cfg.tamBloque), (cad n)[k]? = some i →
    (as n)[k]? = some (some data) → fs.bloques (cfg.cantBloquesSwap + i) = data

/-- A request changes the lists of blocks as it means to. -/
theorem Contenido.efecto {fs fs' : Filesystem cfg} {as : Archivos cfg} {p : Pedido cfg}
    {r : Option (Bloque cfg.tamBloque)} {cad' : String → List ℕ} (h : Rep cfg fs.fat fs.fcbs cad)
    (hc : Contenido fs cad as) (hp : Admisible fs p) (he : Efecto fs cad p fs' r cad') :
    Contenido fs' cad' (especificar as p) := by
  cases p with
  | crear n =>
    obtain ⟨rfl, -, rfl⟩ := he
    have hn : as n = [] :=
      List.length_eq_zero_iff.mp (by rw [hc.largo, h.sinArchivo n hp, List.length_nil])
    rw [especificar, ← hn, Function.update_eq_self]
    exact ⟨hc.largo, hc.bloque⟩
  | truncar n tamanio =>
    obtain ⟨-, fat', b, c, rfl, hlen, hpre, rfl⟩ := he
    refine ⟨fun m => ?_, fun m k i data hi hd => ?_⟩
    · by_cases hmn : m = n
      · subst hmn
        rw [especificar, Function.update_self, Function.update_self, hlen, List.length_append,
          List.length_take, List.length_replicate]
        omega
      · rw [especificar, Function.update_of_ne hmn, Function.update_of_ne hmn, hc.largo]
    · by_cases hmn : m = n
      · subst hmn
        rw [Function.update_self] at hi
        rw [especificar, Function.update_self] at hd
        -- a written block was there before: the new ones are unwritten
        have hk : (as m)[k]? = some (some data) := by
          rcases lt_or_ge k ((as m).take (bloquesPara cfg tamanio)).length with hlt | hge
          · rw [List.getElem?_append_left hlt, List.getElem?_take] at hd
            split_ifs at hd
            exact hd
          · rw [List.getElem?_append_right hge, List.getElem?_replicate] at hd
            split_ifs at hd
            simp at hd
        have hlt := (List.getElem?_eq_some_iff.mp hk).1
        exact hc.bloque m k i data (get_of_begins hpre (hc.largo m ▸ hlt) hi) hk
      · rw [Function.update_of_ne hmn] at hi
        rw [especificar, Function.update_of_ne hmn] at hd
        exact hc.bloque m k i data hi hd
  | escribir n puntero data =>
    obtain ⟨-, rfl, i, hi, rfl⟩ := he
    have hin : i ∈ cad' n := List.mem_of_getElem? hi
    refine ⟨fun m => ?_, fun m k j d hj hd => ?_⟩
    · by_cases hmn : m = n
      · subst hmn
        rw [especificar, Function.update_self, List.length_set, hc.largo]
      · rw [especificar, Function.update_of_ne hmn, hc.largo]
    · by_cases hmn : m = n
      · subst hmn
        rw [especificar, Function.update_self, List.getElem?_set] at hd
        have hnd : (cad' m).Nodup := by
          obtain ⟨fcb, -, hn, -⟩ := enArchivo_cadena h hp
          exact (h.cadena m fcb hn).nodup h.length_le
        by_cases hk : puntero.toNat / cfg.tamBloque = k
        · -- the block just written
          rw [if_pos hk] at hd
          split_ifs at hd
          obtain rfl : data = d := by simpa using hd
          obtain rfl : i = j := by rw [hk] at hi; exact Option.some.inj (hi.symm.trans hj)
          exact Function.update_self ..
        · -- another block of the same file
          rw [if_neg hk] at hd
          have hji : j ≠ i := by
            rintro rfl
            exact hk ((List.getElem?_inj (List.getElem?_eq_some_iff.mp hi).1 hnd).mp
              (hi.trans hj.symm))
          exact (Function.update_of_ne (by omega) _ _).trans (hc.bloque m k j d hj hd)
      · -- a block of another file
        rw [especificar, Function.update_of_ne hmn] at hd
        have hji : j ≠ i := fun hji =>
          h.disjuntas m n hmn j (List.mem_of_getElem? hj) (hji ▸ hin)
        exact (Function.update_of_ne (by omega) _ _).trans (hc.bloque m k j d hj hd)
  | leer n puntero =>
    obtain ⟨rfl, rfl, -⟩ := he
    exact hc

/-- **What a request leaves alone**: the other files, and the blocks that a truncated file keeps. -/
structure Marco (fs : Filesystem cfg) (p : Pedido cfg) (fs' : Filesystem cfg) : Prop where
  ajenos : ∀ m fcb l, m ≠ p.nombre → fs.fcbs.get m = some fcb →
    obtenerBloquesFatAsignados fcb fs.fat = some l →
      fs'.fcbs.get m = some fcb ∧ obtenerBloquesFatAsignados fcb fs'.fat = some l ∧
        ∀ i ∈ l, fs'.bloques (cfg.cantBloquesSwap + i) = fs.bloques (cfg.cantBloquesSwap + i)
  truncado : ∀ n tamanio fcb l, p = .truncar n tamanio → fs.fcbs.get n = some fcb →
    obtenerBloquesFatAsignados fcb fs.fat = some l →
      ∃ fcb' l', fs'.fcbs.get n = some fcb' ∧ obtenerBloquesFatAsignados fcb' fs'.fat = some l' ∧
        l'.length = bloquesPara cfg tamanio ∧
          l'.take (min l.length l'.length) = l.take (min l.length l'.length) ∧
            fs'.bloques = fs.bloques

theorem marco_efecto {fs fs' : Filesystem cfg} {p : Pedido cfg} {r : Option (Bloque cfg.tamBloque)}
    {cad' : String → List ℕ} (h : Rep cfg fs.fat fs.fcbs cad) (h' : Rep cfg fs'.fat fs'.fcbs cad')
    (hp : Admisible fs p) (he : Efecto fs cad p fs' r cad') : Marco fs p fs' := by
  have hobt : ∀ {m fcb l}, fs.fcbs.get m = some fcb →
      obtenerBloquesFatAsignados fcb fs.fat = some l → cad m = l := fun hm hl =>
    Option.some.inj (((h.cadena _ _ hm).obtener h.length_le rfl).symm.trans hl)
  have hobt' : ∀ {m fcb}, fs'.fcbs.get m = some fcb →
      obtenerBloquesFatAsignados fcb fs'.fat = some (cad' m) := fun hm =>
    (h'.cadena _ _ hm).obtener h'.length_le rfl
  cases p with
  | crear n =>
    obtain ⟨rfl, -, rfl⟩ := he
    refine ⟨fun m fcb l hmn hm hl => ?_, by simp⟩
    have hm' : (crearArchivo fs n).fcbs.get m = some fcb := (Dict.get_put_of_ne _ hmn _).trans hm
    exact ⟨hm', hobt hm hl ▸ hobt' hm', fun _ _ => rfl⟩
  | truncar n tamanio =>
    obtain ⟨-, fat', b, c, rfl, hlen, hpre, rfl⟩ := he
    refine ⟨fun m fcb l hmn hm hl => ?_, fun n' tamanio' fcb l hpe hn hl => ?_⟩
    · have hm' := (Dict.get_put_of_ne fs.fcbs hmn ⟨tamanio, b⟩).trans hm
      refine ⟨hm', ?_, fun _ _ => rfl⟩
      rw [hobt' hm', Function.update_of_ne (show m ≠ n from hmn), hobt hm hl]
    · obtain ⟨rfl, rfl⟩ : n = n' ∧ tamanio = tamanio' := by simpa using hpe
      obtain rfl := hobt hn hl
      have hn' := Dict.get_put_self fs.fcbs n ⟨tamanio, b⟩
      refine ⟨⟨tamanio, b⟩, c, hn', ?_, hlen, take_min_of_begins hpre, rfl⟩
      rw [hobt' hn', Function.update_self]
  | escribir n puntero data =>
    obtain ⟨-, rfl, i, hi, rfl⟩ := he
    refine ⟨fun m fcb l hmn hm hl => ⟨hm, hl, fun j hj => ?_⟩, by simp⟩
    obtain rfl := hobt hm hl
    have hji : j ≠ i := fun hji => h.disjuntas m n hmn j hj (hji ▸ List.mem_of_getElem? hi)
    exact Function.update_of_ne (by omega) _ _
  | leer n puntero =>
    obtain ⟨rfl, rfl, -⟩ := he
    exact ⟨fun m fcb l _ hm hl => ⟨hm, hl, fun _ _ => rfl⟩, by simp⟩

/-- **The block layer in a state**: blocks read as they were last written, the two walks agree on
where they are, and no request touches another file. -/
structure CapaDeBloques (fs : Filesystem cfg) (as : Archivos cfg) : Prop where
  lee : ∀ n puntero, EnArchivo fs n puntero → ∃ data b, leerArchivo fs n puntero = some data ∧
    (as n)[puntero.toNat / cfg.tamBloque]? = some b ∧ (b = none ∨ b = some data)
  caminos : ∀ n fcb, fs.fcbs.get n = some fcb → ∃ l : List ℕ,
    obtenerBloquesFatAsignados fcb fs.fat = some l ∧ l.length = (as n).length ∧
      ∀ k : ℕ, k < l.length → obtenerBloqueFatDeArchivo fcb fs.fat k = l[k]?
  marco : ∀ p, Admisible fs p → ∃ fs', paso fs p = some fs' ∧ Marco fs p fs'

theorem capaDeBloques_de_rep {fs : Filesystem cfg} {as : Archivos cfg}
    (h : Rep cfg fs.fat fs.fcbs cad) (hc : Contenido fs cad as) : CapaDeBloques fs as := by
  refine ⟨fun n puntero hp => ?_, fun n fcb hn => ?_, fun p hp => ?_⟩
  · obtain ⟨fcb, i, hn, h0, hk, hi⟩ := enArchivo_cadena h hp
    have hlt : puntero.toNat / cfg.tamBloque < (as n).length := by
      rw [hc.largo]; exact (List.getElem?_eq_some_iff.mp hi).1
    refine ⟨_, (as n)[puntero.toNat / cfg.tamBloque],
      leerArchivo_dentro h.toBienFormada hn h0 (by rw [hk]; exact hi), List.getElem?_eq_getElem hlt, ?_⟩
    cases hb : (as n)[puntero.toNat / cfg.tamBloque] with
    | none => exact Or.inl rfl
    | some data =>
      right
      rw [hc.bloque n _ i data hi (by rw [List.getElem?_eq_getElem hlt, hb])]
  · have hcad := h.cadena n fcb hn
    refine ⟨cad n, hcad.obtener h.length_le rfl, (hc.largo n).symm, fun k hk => ?_⟩
    have hlen := hcad.length_le h.length_le
    have hfat := h.length_le
    have hsize : sizeT k = k := by
      have := sizeT_of_fits (Int.natCast_nonneg k) (by omega)
      omega
    rw [obtenerBloqueFatDeArchivo, hsize, hcad.avanzar h.length_le hk]
  · obtain ⟨fs', r, cad', hs, hrep, he⟩ := servir_efecto h hp
    exact ⟨fs', by rw [paso, hs]; rfl, marco_efecto h hrep hp he⟩

/-- **Refinement.** After every run the files are the lists of blocks that the requests mean. -/
theorem capa_de_bloques (bloques : BloquesDat cfg.tamBloque) {ps : List (Pedido cfg)}
    (h : Along paso Admisible (inicial cfg bloques) ps) :
    ∃ fs, exec paso (inicial cfg bloques) ps = some fs ∧
      CapaDeBloques fs (ps.foldl especificar fun _ => []) := by
  have hstep : ∀ (fs : Filesystem cfg) (as : Archivos cfg) p,
      (∃ cad, Rep cfg fs.fat fs.fcbs cad ∧ Contenido fs cad as) → Admisible fs p →
        ∃ fs', paso fs p = some fs' ∧
          ∃ cad, Rep cfg fs'.fat fs'.fcbs cad ∧ Contenido fs' cad (especificar as p) := by
    rintro fs as p ⟨cad, hrep, hc⟩ hp
    obtain ⟨fs', r, cad', hs, hrep', he⟩ := servir_efecto hrep hp
    exact ⟨fs', by rw [paso, hs]; rfl, cad', hrep', hc.efecto hrep hp he⟩
  have hini : Contenido (inicial cfg bloques) (fun _ => []) fun _ => [] :=
    ⟨fun _ => rfl, fun n k i data hi => by simp at hi⟩
  obtain ⟨fs, hfs, cad, hrep, hc⟩ := exec_simulation hstep ⟨_, rep_limpiarFat cfg, hini⟩ h
  exact ⟨fs, hfs, capaDeBloques_de_rep hrep hc⟩

/-- A file that is written, shrinks and grows again. -/
theorem capa_de_bloques_unArchivo :
    ∃ fs, exec paso (inicial cfgChica fun _ _ => 0) [.crear "a", .truncar "a" 32,
      .escribir "a" 16 fun _ => 255, .truncar "a" 20, .leer "a" 17] = some fs ∧
        CapaDeBloques fs (List.foldl especificar (fun _ => []) [.crear "a", .truncar "a" 32,
          .escribir "a" 16 fun _ => 255, .truncar "a" 20, .leer "a" 17]) :=
  capa_de_bloques _ <|
    .of_step rfl rfl <|
    .of_step ⟨⟨0, 0⟩, 0, rfl, rfl, by decide, by decide, by decide⟩ rfl <|
    .of_step ⟨⟨32, 1⟩, 2, rfl, rfl, by decide, by decide⟩ rfl <|
    .of_step ⟨⟨32, 1⟩, 2, rfl, rfl, by decide, by decide, by decide⟩ rfl <|
    .of_step ⟨⟨20, 1⟩, 2, rfl, rfl, by decide, by decide⟩ rfl trivial

end OperatingSystem.FileSystem.Corridas
