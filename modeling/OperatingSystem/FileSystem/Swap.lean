import OperatingSystem.FileSystem.Archivo
import OperatingSystem.Lib.Lists
import OperatingSystem.Lib.Run

/-! # Swap space of the processes

`SWAP_NEW_PROCESS` marks blocks of the bitmap for the pages of a new process and answers their
positions in `bloques.dat`; `SWAP_END_PROCESS` frees the blocks at the positions of a process that
ends. Memoria keeps the positions of every live process (`Estado.vivos`).

The reply to `SWAP_NEW_PROCESS` has as many positions as were asked for, not as many as were found,
and past the end `list_get` returns a null pointer, which counts as block `0`. The main result
`swap_correcta_iff` is that the positions of the live processes are theirs alone as long as no
request asks for more than the free blocks, and that every request that does is answered wrongly. -/

namespace OperatingSystem.FileSystem.Swap

open OperatingSystem.Lib.CInt OperatingSystem.Lib.Dictionary OperatingSystem.Lib.Lists
open OperatingSystem.Lib.Run
open OperatingSystem.FileSystem.Fat OperatingSystem.FileSystem.Bloques
open OperatingSystem.FileSystem.Archivo

variable {cfg : FilesystemConfig}

/-! ## The requests (`on_connection` of `filesystem/src/filesystem.c`) -/

/-- The replies of the protocol. -/
inductive SwapResp where
  | SWAP_OK (posiciones : List ℤ)
  | SWAP_ERROR

/-- `SWAP_NEW_PROCESS`; `resto` is what `malloc` leaves in a block. -/
def swapNewProcess (fs : Filesystem cfg) (cantBloques : ℕ) (resto : ℕ → Bloque cfg.tamBloque) :
    Option (Filesystem cfg × SwapResp) := do
  let (bloquesNuevos, bitarray, bloques) ←
    asignarBloquesSwap cfg resto cantBloques fs.bitarray fs.bloques
  -- `list_get` past the end of the list returns a null pointer
  let posiciones := (List.range cantBloques).map fun i =>
    wrap32 (bloquesNuevos.getD i 0 * cfg.tamBloque)
  return ({ fs with bitarray := bitarray, bloques := bloques }, .SWAP_OK posiciones)

/-- `SWAP_END_PROCESS` -/
def swapEndProcess (fs : Filesystem cfg) (posiciones : List ℤ) :
    Option (Filesystem cfg × SwapResp) := do
  let bitarray ← liberarBloquesSwap (posiciones.map (·.tdiv cfg.tamBloque)) fs.bitarray
  return ({ fs with bitarray := bitarray }, .SWAP_OK [])

/-- The module, and the positions that Memoria holds for each live process. -/
structure Estado (cfg : FilesystemConfig) where
  fs : Filesystem cfg
  vivos : Dict ℤ (List ℤ)

/-- The requests of Memoria: a new process with its number of pages, and the end of a process. -/
inductive Accion (cfg : FilesystemConfig) where
  | nuevo (pid : ℤ) (cantidadPaginas : ℕ) (resto : ℕ → Bloque cfg.tamBloque)
  | fin (pid : ℤ)

/-- Serve a request: a new process gets the positions of the reply (`obtener_posiciones_swap`), and
a process that ends sends its own back (`liberar_posiciones_swap`). -/
def servirSwap (s : Estado cfg) : Accion cfg → Option (Estado cfg × SwapResp)
  | .nuevo pid cantidadPaginas resto => do
    let (fs, resp) ← swapNewProcess s.fs cantidadPaginas resto
    match resp with
    | .SWAP_OK posiciones => return (⟨fs, s.vivos.put pid posiciones⟩, resp)
    | .SWAP_ERROR => return (⟨fs, s.vivos⟩, resp)
  | .fin pid => do
    let posiciones ← s.vivos.get pid
    let (fs, resp) ← swapEndProcess s.fs posiciones
    return (⟨fs, s.vivos.remove pid⟩, resp)

def pasoSwap (s : Estado cfg) (a : Accion cfg) : Option (Estado cfg) :=
  (servirSwap s a).map Prod.fst

/-- No process lives, and the bitmap is the one of `inicializar_swap`. -/
def estadoInicial (fs : Filesystem cfg) : Estado cfg :=
  ⟨{ fs with bitarray := inicializarSwap cfg }, Dict.empty⟩

/-! ## What the requests promise -/

/-- A process is created once, and ends while it lives. -/
def Protocolo (s : Estado cfg) : Accion cfg → Prop
  | .nuevo pid _ _ => s.vivos.get pid = none
  | .fin pid => (s.vivos.get pid).isSome

/-- The free blocks are enough for the request. -/
def Cabe (s : Estado cfg) : Accion cfg → Prop
  | .nuevo _ cantidadPaginas _ => cantidadPaginas ≤ s.fs.bitarray.count false
  | .fin _ => True

/-- **Positions are not shared**, and the bitmap says which blocks are in use. -/
structure SinCompartir (s : Estado cfg) : Prop where
  distintas : ∀ pid ps, s.vivos.get pid = some ps → ps.Nodup
  disjuntas : ∀ pid pid' ps ps', pid ≠ pid' → s.vivos.get pid = some ps →
    s.vivos.get pid' = some ps' → ∀ pos ∈ ps, pos ∉ ps'
  enSwap : ∀ pid ps, s.vivos.get pid = some ps → ∀ pos ∈ ps,
    ∃ bloque : ℕ, bloque < cfg.cantBloquesSwap ∧ pos = bloque * cfg.tamBloque
  bitmap : ∀ bloque : ℕ, bloque < cfg.cantBloquesSwap → (s.fs.bitarray[bloque]? = some true ↔
    ∃ pid ps, s.vivos.get pid = some ps ∧ (bloque * cfg.tamBloque : ℤ) ∈ ps)

/-- **A request is served right**: positions are not shared after it, and a request that does not
fit is refused and leaves the bitmap as it was. -/
def Correcta (s : Estado cfg) (a : Accion cfg) : Prop :=
  ∃ s' resp, servirSwap s a = some (s', resp) ∧ SinCompartir s' ∧
    (¬ Cabe s a → resp = .SWAP_ERROR ∧ s'.fs.bitarray = s.fs.bitarray)

/-! ## The loops over the bitmap -/

/-- **The allocator** marks free blocks, as many as it is asked for or as there are. -/
theorem asignarLoop_spec (resto : ℕ → Bloque cfg.tamBloque) :
    ∀ {is : List ℕ} (faltan : ℕ) (bitarray : List Bool) (bloques : BloquesDat cfg.tamBloque),
      is.Nodup → (∀ i ∈ is, i < bitarray.length) → (∀ i ∈ is, i < cfg.cantBloquesTotal) →
      ∃ nuevos bitarray' bloques',
        asignarLoop cfg resto is faltan bitarray bloques = some (nuevos, bitarray', bloques') ∧
        nuevos.Nodup ∧ (∀ i ∈ nuevos, i ∈ is ∧ bitarray[i]? = some false) ∧
        nuevos.length = min faltan (is.countP fun i => bitarray[i]? = some false) ∧
        bitarray'.length = bitarray.length ∧
        ∀ i : ℕ, bitarray'[i]? = if i ∈ nuevos then some true else bitarray[i]?
  | [], faltan, bitarray, bloques, _, _, _ =>
    ⟨[], bitarray, bloques, rfl, List.nodup_nil, by simp, by simp, rfl, by simp⟩
  | i :: is, faltan, bitarray, bloques, hnd, hlt, htot => by
    obtain ⟨hi, hnd⟩ := List.nodup_cons.mp hnd
    have hi' := hlt i (by simp)
    have hlt' : ∀ j ∈ is, j < bitarray.length := fun j hj => hlt j (by simp [hj])
    have htot' : ∀ j ∈ is, j < cfg.cantBloquesTotal := fun j hj => htot j (by simp [hj])
    obtain ⟨bit, hget⟩ : ∃ bit, bitarray[i]? = some bit := ⟨_, List.getElem?_eq_getElem hi'⟩
    by_cases h0 : faltan = 0
    · exact ⟨[], bitarray, bloques, by rw [asignarLoop, if_pos h0], List.nodup_nil, by simp,
        by simp [h0], rfl, by simp⟩
    · rw [asignarLoop, if_neg h0, hget, List.countP_cons]
      simp only [Option.bind_eq_bind, Option.bind_some]
      cases bit with
      | true =>
        obtain ⟨nuevos, bit', bl', he, hn, hlib, hlen, hl, hf⟩ :=
          asignarLoop_spec resto faltan bitarray bloques hnd hlt' htot'
        refine ⟨nuevos, bit', bl', he, hn, fun j hj => ⟨by simp [(hlib j hj).1], (hlib j hj).2⟩, ?_,
          hl, hf⟩
        simp [hlen, hget]
      | false =>
        -- the rest of the loop sees the same bits: the block just marked does not come again
        have hsame : ∀ j ∈ is, (bitarray.set i true)[j]? = bitarray[j]? := fun j hj =>
          List.getElem?_set_ne (by rintro rfl; exact hi hj)
        have hin : EnBloques cfg (i : ℤ) := by
          have := htot i (by simp)
          unfold EnBloques
          omega
        obtain ⟨bl, hbl⟩ : ∃ bl, limpiarBloque cfg bloques i (resto i) = some bl :=
          ⟨_, if_pos hin⟩
        rw [hbl]
        obtain ⟨nuevos, bit', bl', he, hn, hlib, hlen, hl, hf⟩ :=
          asignarLoop_spec resto (faltan - 1) (bitarray.set i true) bl hnd
            (by simpa using hlt') htot'
        have hni : i ∉ nuevos := fun hm => hi (hlib i hm).1
        refine ⟨i :: nuevos, bit', bl', by simp [he], List.nodup_cons.mpr ⟨hni, hn⟩, ?_, ?_,
          by simpa using hl, ?_⟩
        · intro j hj
          rcases List.mem_cons.mp hj with rfl | hj
          · exact ⟨by simp, hget⟩
          · obtain ⟨hjs, hjf⟩ := hlib j hj
            exact ⟨by simp [hjs], by rwa [hsame j hjs] at hjf⟩
        · have hcount : is.countP (fun j => (bitarray.set i true)[j]? = some false) =
              is.countP fun j => bitarray[j]? = some false :=
            List.countP_congr fun j hj => by simp [hsame j hj]
          rw [List.length_cons, hlen, hcount, hget]
          simp only [decide_true, if_true]
          omega
        · intro j
          rw [hf j]
          by_cases hji : j = i
          · subst hji
            simp [hni, hi']
          · simp [hji, List.getElem?_set_ne (Ne.symm hji)]

/-- **The release loop** clears the bits of the blocks given. -/
theorem liberarBloquesSwap_spec : ∀ {bs : List ℕ} {bitarray : List Bool},
    (∀ b ∈ bs, b < bitarray.length) →
    ∃ bitarray', liberarBloquesSwap (bs.map fun b : ℕ => (b : ℤ)) bitarray = some bitarray' ∧
      bitarray'.length = bitarray.length ∧
      ∀ i : ℕ, bitarray'[i]? = if i ∈ bs then some false else bitarray[i]?
  | [], bitarray, _ => ⟨bitarray, rfl, rfl, by simp⟩
  | b :: bs, bitarray, hlt => by
    have hb := hlt b (by simp)
    have hlt' : ∀ j ∈ bs, j < (bitarray.set b false).length := fun j hj => by
      simpa using hlt j (by simp [hj])
    obtain ⟨bit', he, hl, hf⟩ := liberarBloquesSwap_spec hlt'
    refine ⟨bit', ?_, by simpa using hl, fun i => ?_⟩
    · rw [List.map_cons, liberarBloquesSwap, if_pos ⟨by omega, by simpa using hb⟩]
      exact he
    · rw [hf i]
      by_cases hi : i ∈ bs
      · simp [hi]
      · by_cases hib : i = b
        · subst hib
          simp [hi, hb]
        · simp [hi, hib, List.getElem?_set_ne (Ne.symm hib)]

/-! ## The positions of the live processes -/

/-- The position of a block is an `int`. -/
theorem posicion_fits {b : ℕ} (hb : b < cfg.cantBloquesSwap) :
    wrap32 (b * cfg.tamBloque) = b * cfg.tamBloque := by
  have hmul : b * cfg.tamBloque ≤ cfg.cantBloquesTotal * cfg.tamBloque :=
    Nat.mul_le_mul_right _ (hb.trans cfg.swap_lt).le
  have hmax := cfg.tamanio_int
  have hcast : (b * cfg.tamBloque : ℤ) = ((b * cfg.tamBloque : ℕ) : ℤ) := by push_cast; rfl
  rw [hcast]
  exact wrap32_of_fits ⟨by omega, by omega⟩

theorem posicion_inj {b b' : ℕ} : (b * cfg.tamBloque : ℤ) = b' * cfg.tamBloque ↔ b = b' := by
  have htam := cfg.tam_pos
  refine ⟨fun h => ?_, fun h => by rw [h]⟩
  exact_mod_cast Int.eq_of_mul_eq_mul_right (by omega) h

theorem mem_posiciones {bs : List ℕ} {b : ℕ} :
    (b * cfg.tamBloque : ℤ) ∈ bs.map (fun b : ℕ => (b * cfg.tamBloque : ℤ)) ↔ b ∈ bs := by
  rw [List.mem_map]
  exact ⟨fun ⟨c, hc, he⟩ => posicion_inj.mp he ▸ hc, fun hb => ⟨b, hb, rfl⟩⟩

theorem posicion_tdiv (b : ℕ) : (b * cfg.tamBloque : ℤ).tdiv cfg.tamBloque = b :=
  Int.mul_tdiv_cancel _ (by have := cfg.tam_pos; omega)

/-- The reply, when as many blocks were found as were asked for. -/
theorem posiciones_eq {nuevos : List ℕ} (h : ∀ b ∈ nuevos, b < cfg.cantBloquesSwap) :
    ((List.range nuevos.length).map fun i => wrap32 (nuevos.getD i 0 * cfg.tamBloque)) =
      nuevos.map fun b : ℕ => (b * cfg.tamBloque : ℤ) := by
  refine List.ext_getElem (by simp) fun i hi _ => ?_
  have hi' : i < nuevos.length := by simpa using hi
  simp only [List.getElem_map, List.getElem_range, List.getD_eq_getElem?_getD,
    List.getElem?_eq_getElem hi', Option.getD_some]
  exact posicion_fits (h _ (List.getElem_mem hi'))

/-- The positions in swap space are those of a list of blocks. -/
theorem bloques_de_posiciones {ps : List ℤ} (h : ∀ pos ∈ ps,
    ∃ bloque : ℕ, bloque < cfg.cantBloquesSwap ∧ pos = bloque * cfg.tamBloque) :
    ∃ bs : List ℕ, ps = bs.map (fun b : ℕ => (b * cfg.tamBloque : ℤ)) ∧
      ∀ b ∈ bs, b < cfg.cantBloquesSwap := by
  induction ps with
  | nil => exact ⟨[], rfl, by simp⟩
  | cons pos ps ih =>
    obtain ⟨b, hb, rfl⟩ := h pos (by simp)
    obtain ⟨bs, rfl, hbs⟩ := ih fun p hp => h p (by simp [hp])
    refine ⟨b :: bs, rfl, fun c hc => ?_⟩
    rcases List.mem_cons.mp hc with rfl | hc
    · exact hb
    · exact hbs c hc

/-- The invariant: besides, there is a bit for every block. -/
def Invariante (s : Estado cfg) : Prop :=
  s.fs.bitarray.length = cfg.cantBloquesSwap ∧ SinCompartir s

/-- A request that fits gives the new process free blocks. -/
theorem invariante_nuevo {s : Estado cfg} (h : Invariante s) {pid : ℤ} {n : ℕ}
    {resto : ℕ → Bloque cfg.tamBloque} (hpid : s.vivos.get pid = none)
    (hn : n ≤ s.fs.bitarray.count false) :
    ∃ s' resp, servirSwap s (.nuevo pid n resto) = some (s', resp) ∧ Invariante s' := by
  obtain ⟨hlen, hs⟩ := h
  have htot : ∀ i ∈ List.range cfg.cantBloquesSwap, i < cfg.cantBloquesTotal := fun i hi =>
    (List.mem_range.mp hi).trans cfg.swap_lt
  obtain ⟨nuevos, bit', bl', he, hnd, hlib, hcant, hl, hf⟩ :=
    asignarLoop_spec resto n s.fs.bitarray s.fs.bloques List.nodup_range
      (by simp [hlen]) htot
  rw [← hlen, countP_range_getElem?] at hcant
  obtain rfl : nuevos.length = n := by omega
  have hlt : ∀ b ∈ nuevos, b < cfg.cantBloquesSwap := fun b hb => List.mem_range.mp (hlib b hb).1
  -- no live process has one of the blocks found
  have hnadie : ∀ b ∈ nuevos, ∀ pid' ps, s.vivos.get pid' = some ps →
      (b * cfg.tamBloque : ℤ) ∉ ps := fun b hb pid' ps hps hm => by
    have := (hs.bitmap b (hlt b hb)).mpr ⟨pid', ps, hps, hm⟩
    rw [(hlib b hb).2] at this
    simp at this
  have hserv : servirSwap s (.nuevo pid nuevos.length resto) =
      some (⟨{ s.fs with bitarray := bit', bloques := bl' }, s.vivos.put pid
        (nuevos.map fun b : ℕ => (b * cfg.tamBloque : ℤ))⟩,
        .SWAP_OK (nuevos.map fun b : ℕ => (b * cfg.tamBloque : ℤ))) := by
    rw [servirSwap, swapNewProcess, asignarBloquesSwap, he]
    simp only [Option.bind_eq_bind, Option.bind_some, Option.pure_def, posiciones_eq hlt]
  refine ⟨_, _, hserv, by rw [← hlen, ← hl], ?_⟩
  refine ⟨fun p ps hp => ?_, fun p p' ps ps' hne hp hp' pos hpos => ?_, fun p ps hp pos hpos => ?_,
    fun b hb => ?_⟩
  · rcases Dict.get_put_eq_some.mp hp with ⟨rfl, rfl⟩ | ⟨-, hp⟩
    · exact hnd.map fun b b' => posicion_inj.mp
    · exact hs.distintas p ps hp
  · rcases Dict.get_put_eq_some.mp hp with ⟨rfl, rfl⟩ | ⟨-, hp₀⟩
    · obtain ⟨b, hb, rfl⟩ := List.mem_map.mp hpos
      exact hnadie b hb p' ps' (by simpa [hne.symm] using hp')
    · rcases Dict.get_put_eq_some.mp hp' with ⟨rfl, rfl⟩ | ⟨-, hp'⟩
      · rintro hm
        obtain ⟨b, hb, rfl⟩ := List.mem_map.mp hm
        exact hnadie b hb p ps hp₀ hpos
      · exact hs.disjuntas p p' ps ps' hne hp₀ hp' pos hpos
  · rcases Dict.get_put_eq_some.mp hp with ⟨rfl, rfl⟩ | ⟨-, hp⟩
    · obtain ⟨b, hb, rfl⟩ := List.mem_map.mp hpos
      exact ⟨b, hlt b hb, rfl⟩
    · exact hs.enSwap p ps hp pos hpos
  · rw [show bit'[b]? = _ from hf b]
    constructor
    · intro hbit
      by_cases hbn : b ∈ nuevos
      · exact ⟨pid, _, Dict.get_put_self .., mem_posiciones.mpr hbn⟩
      · rw [if_neg hbn] at hbit
        obtain ⟨p, ps, hp, hm⟩ := (hs.bitmap b hb).mp hbit
        have hpp : p ≠ pid := by rintro rfl; rw [hpid] at hp; simp at hp
        exact ⟨p, ps, (Dict.get_put_of_ne _ hpp _).trans hp, hm⟩
    · rintro ⟨p, ps, hp, hm⟩
      split_ifs with hbn
      · rfl
      · rcases Dict.get_put_eq_some.mp hp with ⟨rfl, rfl⟩ | ⟨-, hp⟩
        · exact absurd (mem_posiciones.mp hm) hbn
        · exact (hs.bitmap b hb).mpr ⟨p, ps, hp, hm⟩

/-- A process that ends gives its blocks back. -/
theorem invariante_fin {s : Estado cfg} (h : Invariante s) {pid : ℤ}
    (hpid : (s.vivos.get pid).isSome) :
    ∃ s' resp, servirSwap s (.fin pid) = some (s', resp) ∧ Invariante s' := by
  obtain ⟨hlen, hs⟩ := h
  obtain ⟨ps, hps⟩ := Option.isSome_iff_exists.mp hpid
  obtain ⟨bs, rfl, hbs⟩ := bloques_de_posiciones (hs.enSwap pid ps hps)
  have hmap : (bs.map fun b : ℕ => (b * cfg.tamBloque : ℤ)).map (·.tdiv cfg.tamBloque) =
      bs.map fun b : ℕ => (b : ℤ) := by simp [Function.comp_def, posicion_tdiv]
  obtain ⟨bit', he, hl, hf⟩ :=
    liberarBloquesSwap_spec fun b hb => show b < s.fs.bitarray.length by rw [hlen]; exact hbs b hb
  refine ⟨⟨{ s.fs with bitarray := bit' }, s.vivos.remove pid⟩, .SWAP_OK [], ?_,
    by rw [← hlen, ← hl], ?_⟩
  · rw [servirSwap, hps, Option.bind_eq_bind, Option.bind_some, swapEndProcess, hmap, he]
    rfl
  · have hvivo : ∀ {p ps'}, (s.vivos.remove pid).get p = some ps' →
        p ≠ pid ∧ s.vivos.get p = some ps' := fun {p ps'} hp => by
      have hpp : p ≠ pid := by rintro rfl; simp at hp
      exact ⟨hpp, by simpa [hpp] using hp⟩
    refine ⟨fun p ps' hp => hs.distintas p ps' (hvivo hp).2,
      fun p p' ps' ps'' hne hp hp' => hs.disjuntas p p' ps' ps'' hne (hvivo hp).2 (hvivo hp').2,
      fun p ps' hp => hs.enSwap p ps' (hvivo hp).2, fun b hb => ?_⟩
    rw [show bit'[b]? = _ from hf b]
    by_cases hbb : b ∈ bs
    · rw [if_pos hbb]
      refine ⟨fun h => by simp at h, ?_⟩
      rintro ⟨p, ps', hp, hm⟩
      exact absurd (mem_posiciones.mpr hbb)
        (hs.disjuntas p pid ps' _ (hvivo hp).1 (hvivo hp).2 hps _ hm)
    · rw [if_neg hbb, hs.bitmap b hb]
      constructor
      · rintro ⟨p, ps', hp, hm⟩
        have hpp : p ≠ pid := by
          rintro rfl
          obtain rfl := Option.some.inj (hps.symm.trans hp)
          exact hbb (mem_posiciones.mp hm)
        exact ⟨p, ps', (Dict.get_remove_of_ne _ hpp).trans hp, hm⟩
      · rintro ⟨p, ps', hp, hm⟩
        exact ⟨p, ps', (hvivo hp).2, hm⟩

/-! ## The requests over a run -/

/-- The reply is never `SWAP_ERROR`. -/
theorem servirSwap_ne_error {s s' : Estado cfg} {a : Accion cfg} {resp : SwapResp}
    (h : servirSwap s a = some (s', resp)) : resp ≠ .SWAP_ERROR := by
  cases a with
  | nuevo pid n resto =>
    simp only [servirSwap, swapNewProcess, Option.bind_eq_bind, Option.bind_eq_some_iff,
      Option.pure_def, Option.some.injEq] at h
    obtain ⟨_, ⟨_, -, rfl⟩, h⟩ := h
    rw [← (Prod.mk.inj (Option.some.inj h)).2]
    simp
  | fin pid =>
    simp only [servirSwap, swapEndProcess, Option.bind_eq_bind, Option.bind_eq_some_iff,
      Option.pure_def, Option.some.injEq] at h
    obtain ⟨_, -, _, ⟨_, -, rfl⟩, h⟩ := h
    rw [← (Prod.mk.inj h).2]
    simp

/-- A request that fits is served right. -/
theorem correcta_de_cabe {s : Estado cfg} {a : Accion cfg} (h : Invariante s) (hp : Protocolo s a)
    (hc : Cabe s a) : Correcta s a ∧ ∀ s', pasoSwap s a = some s' → Invariante s' := by
  obtain ⟨s', resp, hs, hinv⟩ : ∃ s' resp, servirSwap s a = some (s', resp) ∧ Invariante s' := by
    cases a with
    | nuevo pid n resto => exact invariante_nuevo h hp hc
    | fin pid => exact invariante_fin h hp
  refine ⟨⟨s', resp, hs, hinv.2, fun hnc => absurd hc hnc⟩, fun s'' hs'' => ?_⟩
  rw [pasoSwap, hs] at hs''
  obtain rfl := Option.some.inj hs''
  exact hinv

theorem invariante_inicial (hocho : 8 ∣ cfg.cantBloquesSwap) (fs : Filesystem cfg) :
    Invariante (estadoInicial fs) := by
  refine ⟨?_, by simp [estadoInicial], by simp [estadoInicial], by simp [estadoInicial], ?_⟩
  · rw [estadoInicial, inicializarSwap, List.length_replicate, Nat.div_mul_cancel hocho]
  · intro b _
    simp [estadoInicial, inicializarSwap, List.getElem?_replicate]

/-- **Swap positions.** Over every run of the protocol, the requests are served right exactly when
none of them asks for more blocks than are free. -/
theorem swap_correcta_iff (hocho : 8 ∣ cfg.cantBloquesSwap) (fs : Filesystem cfg)
    {as : List (Accion cfg)} (h : Along pasoSwap Protocolo (estadoInicial fs) as) :
    Along pasoSwap Correcta (estadoInicial fs) as ↔ Along pasoSwap Cabe (estadoInicial fs) as := by
  constructor
  · refine fun hc => hc.mono ?_
    rintro s a ⟨s', resp, hs, -, herror⟩
    by_contra hnc
    exact servirSwap_ne_error hs (herror hnc).1
  · intro hc
    refine (h.and hc).of_invariant (I := Invariante) ?_ (invariante_inicial hocho fs)
    exact fun s a hI hpc => correcta_de_cabe hI hpc.1 hpc.2

/-- Two processes that fit, the first of which ends before a third starts. -/
theorem swap_correcta_tresProcesos :
    Along pasoSwap Correcta (estadoInicial (inicial cfgChica fun _ _ => 0))
      [.nuevo 1 5 fun _ _ => 0, .nuevo 2 3 fun _ _ => 0, .fin 1, .nuevo 3 5 fun _ _ => 0] := by
  refine (swap_correcta_iff (by decide) _ ?_).mpr ?_
  · exact .of_step rfl rfl <| .of_step rfl rfl <| .of_step rfl rfl <| .of_step rfl rfl trivial
  · exact .of_step (show 5 ≤ 8 by decide) rfl <| .of_step (show 3 ≤ 3 by decide) rfl <|
      .of_step trivial rfl <| .of_step (show 5 ≤ 5 by decide) rfl trivial

/-- **Positions are shared.** Nine pages do not fit in eight blocks: the reply is `SWAP_OK`, and its
ninth position is again the position of block `0`. -/
theorem swap_comparte :
    Along pasoSwap Protocolo (estadoInicial (inicial cfgChica fun _ _ => 0))
        [.nuevo 1 9 fun _ _ => 0] ∧
      ¬ Along pasoSwap Correcta (estadoInicial (inicial cfgChica fun _ _ => 0))
        [.nuevo 1 9 fun _ _ => 0] ∧
      ∃ s', servirSwap (estadoInicial (inicial cfgChica fun _ _ => 0)) (.nuevo 1 9 fun _ _ => 0) =
        some (s', .SWAP_OK [0, 16, 32, 48, 64, 80, 96, 112, 0]) := by
  refine ⟨⟨rfl, fun _ _ => trivial⟩, fun h => ?_, _, rfl⟩
  obtain ⟨⟨s', resp, hs, -, herror⟩, -⟩ := h
  exact servirSwap_ne_error hs (herror (show ¬ 9 ≤ 8 by decide)).1

end OperatingSystem.FileSystem.Swap
