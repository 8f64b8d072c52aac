import OperatingSystem.Almacenamiento.Refinamiento

/-! # Pages that pass through a file

A process writes a page to a block of a file, and another one reads that block into a page of its own. If
nobody wrote to the block in between (`RespetaBloque`), nor to the word after the read
(`RespetaPalabra`), then the second process finds the word that the first one had: `copia_por_archivo`.
Both pages may have gone out of memory and come back meanwhile, in whatever frames, and so may all
others.

The argument is about traces of `Hace`: `bloque_sigue` and `palabra_sigue` are what a request keeps. -/

namespace OperatingSystem.Almacenamiento.Copias

open OperatingSystem.Lib.Bytes OperatingSystem.Lib.Dictionary
open OperatingSystem.Lib.Run OperatingSystem.Lib.Traces
open OperatingSystem.FileSystem.Fat OperatingSystem.FileSystem.Bloques
open OperatingSystem.FileSystem.Archivo (cfgChica)
open OperatingSystem.FileSystem.Invariante
open OperatingSystem.Memoria.HandlerPaginacion OperatingSystem.Memoria.Contenido
open OperatingSystem.Almacenamiento.Intercambio OperatingSystem.Almacenamiento.Modulos
open OperatingSystem.Almacenamiento.Refinamiento

variable {cfg : FilesystemConfig}

/-- The request leaves the block `k` of the file `n` as it is. -/
def RespetaBloque (n : String) (k : ℕ) : Pedido cfg → Prop
  | .truncar m t => m = n → k < bloquesPara cfg t
  | .escribir m puntero _ _ => m = n → puntero.toNat / cfg.tamBloque ≠ k
  | _ => True

/-- The request does not write the word at `x` of the process `q`. -/
def RespetaPalabra (q : ℤ) (x : ℕ) : Pedido cfg → Prop
  | .movOut p a _ => ¬(p = q ∧ a = x)
  | .leer _ _ p a => ¬(p = q ∧ a / cfg.tamBloque = x / cfg.tamBloque)
  | _ => True

/-- The block `k` of the file `n`. -/
def bloqueDeArchivo {t : ℕ} (s : Almacen t) (n : String) (k : ℕ) : Option (Bloque t) :=
  (s.archivos n).bind fun f => f.bloques[k]?

variable {s s' : Almacen cfg.tamBloque} {ped : Pedido cfg} {r : Respuesta} {n m : String} {k : ℕ}
  {q : ℤ} {x : ℕ} {b : Bloque cfg.tamBloque} {v : UInt32}

theorem bloque_poner (f : Archivo cfg.tamBloque) : bloqueDeArchivo (s.poner m f) n k =
    if n = m then f.bloques[k]? else bloqueDeArchivo s n k := by
  change (Function.update s.archivos m (some f) n).bind (fun f => f.bloques[k]?) = _
  by_cases hn : n = m
  · rw [if_pos hn, hn, Function.update_self, Option.bind_some]
  · rw [if_neg hn, Function.update_of_ne hn]
    rfl

/-- **A block that is not written to stays.** -/
theorem bloque_sigue (hb : bloqueDeArchivo s n k = some b) (hp : RespetaBloque n k ped)
    (hs : Hace s ped r s') : bloqueDeArchivo s' n k = some b := by
  obtain ⟨f, hf, hk⟩ := Option.bind_eq_some_iff.mp hb
  cases ped with
  | crear m =>
    obtain ⟨-, hm, rfl⟩ := hs
    rw [bloque_poner, if_neg, hb]
    rintro rfl
    rw [hm] at hf
    cases hf
  | truncar m t =>
    obtain ⟨-, g, bs, hg, -, rfl⟩ := hs
    rw [bloque_poner]
    split_ifs with hn
    · subst hn
      obtain rfl := Option.some.inj (hf.symm.trans hg)
      have hlt := (List.getElem?_eq_some_iff.mp hk).1
      have hk' := hp rfl
      rw [List.getElem?_append_left (by rw [List.length_take]; omega), List.getElem?_take_of_lt hk', hk]
    · exact hb
  | escribir m puntero p a =>
    obtain ⟨-, g, hg, -, rfl⟩ := hs
    rw [bloque_poner]
    split_ifs with hn
    · subst hn
      obtain rfl := Option.some.inj (hf.symm.trans hg)
      rw [List.getElem?_set_ne (hp rfl), hk]
    · exact hb
  | leer m puntero p a =>
    obtain ⟨-, g, c, -, -, rfl⟩ := hs
    exact hb
  | newProcess | exitProcess | frameRequest | loadFrame | movOut | movIn | abrir =>
    obtain ⟨-, rfl⟩ := hs
    exact hb

/-- **A word that is not written stays.** -/
theorem palabra_sigue (hv : s.memoria q x = v) (hp : RespetaPalabra q x ped) (hs : Hace s ped r s') :
    s'.memoria q x = v := by
  cases ped with
  | movOut p a w =>
    obtain ⟨-, rfl⟩ := hs
    exact (if_neg fun h => hp ⟨h.1.symm, h.2.symm⟩).trans hv
  | leer m puntero p a =>
    obtain ⟨-, g, c, -, -, rfl⟩ := hs
    exact (if_neg fun h => hp ⟨h.1.symm, h.2.symm⟩).trans hv
  | crear m =>
    obtain ⟨-, -, rfl⟩ := hs
    exact hv
  | truncar m t =>
    obtain ⟨-, g, bs, -, -, rfl⟩ := hs
    exact hv
  | escribir m puntero p a =>
    obtain ⟨-, g, -, -, rfl⟩ := hs
    exact hv
  | newProcess | exitProcess | frameRequest | loadFrame | movIn | abrir =>
    obtain ⟨-, rfl⟩ := hs
    exact hv

theorem bloque_corrida {as : List (Pedido cfg)} {rs : List Respuesta} (h : Trace Hace s as rs s')
    (hp : ∀ ped ∈ as, RespetaBloque n k ped) (hb : bloqueDeArchivo s n k = some b) :
    bloqueDeArchivo s' n k = some b :=
  h.invariant (I := fun s => bloqueDeArchivo s n k = some b)
    (fun _ _ _ _ hI hD hs => bloque_sigue hI hD hs) hp hb

theorem palabra_corrida {as : List (Pedido cfg)} {rs : List Respuesta} (h : Trace Hace s as rs s')
    (hp : ∀ ped ∈ as, RespetaPalabra q x ped) (hv : s.memoria q x = v) : s'.memoria q x = v :=
  h.invariant (I := fun s => s.memoria q x = v)
    (fun _ _ _ _ hI hD hs => palabra_sigue hI hD hs) hp hv

/-- The words of a page as a block. -/
theorem leer_paginaDe {t i : ℕ} (m : Plana) (p : ℤ) (a : ℕ) (hi : i % 4 = 0) (hlt : i + 4 ≤ t) :
    leer (memDe (paginaDe t m p a)) i = m p (a + i) := by
  refine leer_of_byte fun j hj => ?_
  have hdiv : 4 * ((i + j) / 4) = i := by omega
  have hmod : (i + j) % 4 = j := by omega
  rw [memDe, dif_pos (by omega), paginaDe, hdiv, hmod]

/-- A page that passes through a file: a process reads a word of its page `j`, writes the page to the
file, which is read into the page `l` of another process, and this one reads the word. -/
def pasaPorArchivo (as ds bs cs : List (Pedido cfg)) (n : String) (puntero puntero' p q : ℤ)
    (j l i : ℕ) : List (Pedido cfg) :=
  as ++ [.movIn p (j * cfg.tamBloque + i)] ++ ds ++ [.escribir n puntero p (j * cfg.tamBloque)] ++ bs ++
    [.leer n puntero' q (l * cfg.tamBloque)] ++ cs ++ [.movIn q (l * cfg.tamBloque + i)]

theorem copia_traza {as ds bs cs : List (Pedido cfg)} {puntero puntero' p q : ℤ} {j l i : ℕ}
    {rs : List Respuesta} (hi : i % 4 = 0) (hlt : i + 4 ≤ cfg.tamBloque)
    (hmismo : puntero.toNat / cfg.tamBloque = puntero'.toNat / cfg.tamBloque)
    (hds : ∀ ped ∈ ds, RespetaPalabra p (j * cfg.tamBloque + i) ped)
    (hbs : ∀ ped ∈ bs, RespetaBloque n (puntero.toNat / cfg.tamBloque) ped)
    (hcs : ∀ ped ∈ cs, RespetaPalabra q (l * cfg.tamBloque + i) ped)
    (h : Trace Hace s (pasaPorArchivo as ds bs cs n puntero puntero' p q j l i) rs s') :
    ∃ rs₁ v rs₂, rs = rs₁ ++ [.palabra v] ++ rs₂ ++ [.palabra v] ∧ rs₁.length = as.length := by
  obtain ⟨rs, r₇, s₇, rfl, h, h₇⟩ := trace_concat.mp h
  obtain ⟨rs, rs₆, s₆, rfl, h, h₆⟩ := trace_append.mp h
  obtain ⟨rs, r₅, s₅, rfl, h, h₅⟩ := trace_concat.mp h
  obtain ⟨rs, rs₄, s₄, rfl, h, h₄⟩ := trace_append.mp h
  obtain ⟨rs, r₃, s₃, rfl, h, h₃⟩ := trace_concat.mp h
  obtain ⟨rs, rs₂, s₂, rfl, h, h₂⟩ := trace_append.mp h
  obtain ⟨rs, r₁, s₁, rfl, h₀, rfl, rfl⟩ := trace_concat.mp h
  obtain ⟨-, f, hf, hk, rfl⟩ := h₃
  have hdir : (l * cfg.tamBloque + i) / cfg.tamBloque = l * cfg.tamBloque / cfg.tamBloque ∧
      (l * cfg.tamBloque + i) % cfg.tamBloque = i :=
    dir_de_pagina (Nat.mul_mod_left _ _) (by omega)
  -- the word until the page is written, the block until it is read, and the word from then on
  set v := s₂.memoria p (j * cfg.tamBloque + i)
  have hv : s₃.memoria p (j * cfg.tamBloque + i) = v := palabra_corrida h₂ hds rfl
  set b := paginaDe cfg.tamBloque s₃.memoria p (j * cfg.tamBloque)
  have hb : bloqueDeArchivo s₅ n (puntero.toNat / cfg.tamBloque) = some b := by
    refine bloque_corrida h₄ hbs ?_
    rw [bloque_poner, if_pos rfl]
    exact List.getElem?_set_self hk
  obtain ⟨-, g, b', hg, hb', rfl⟩ := h₅
  obtain rfl : b = b' := by
    rw [bloqueDeArchivo, hg, Option.bind_some, hmismo, hb'] at hb
    exact (Option.some.inj hb).symm
  have hv' : s₇.memoria q (l * cfg.tamBloque + i) = v := by
    refine palabra_corrida h₆ hcs ((if_pos ⟨rfl, hdir.1⟩).trans ?_)
    rw [hdir.2, leer_paginaDe _ _ _ hi hlt, hv]
  obtain ⟨rfl, -⟩ := h₇
  refine ⟨rs, v, rs₂ ++ [r₃] ++ rs₄ ++ [r₅] ++ rs₆, ?_, h₀.length_eq⟩
  rw [hv']
  simp only [List.append_assoc]

/-- Two processes and one frame, in which each page goes out for the other. -/
def dosProcesos : List (Pedido cfgChica) :=
  pasaPorArchivo
    [.newProcess 1 32 fun _ _ => 0, .newProcess 2 16 fun _ _ => 0, .crear "a", .truncar "a" 16,
      .frameRequest 1 1 .ESCRIBIR 1, .loadFrame 1 1 2 [1, 2], .frameRequest 1 1 .ESCRIBIR 3,
      .movOut 1 20 7, .frameRequest 1 1 .LEER 4]
    [.frameRequest 1 1 .ESCRIBIR 5]
    [.frameRequest 2 0 .LEER 6, .loadFrame 2 0 7 [1, 2], .frameRequest 2 0 .LEER 8] [] "a" 0 0 1 2 1 0 4

end OperatingSystem.Almacenamiento.Copias
