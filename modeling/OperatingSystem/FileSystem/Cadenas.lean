import OperatingSystem.FileSystem.Fat
import OperatingSystem.Lib.Chains
import OperatingSystem.Lib.Lists

/-! # Chains of the allocation table

`EsCadena entradas b l`: the chain of a file whose `BLOQUE_INICIAL` is `b` visits exactly the blocks
`l`, all of them inside the table and none of them the reserved entry `0`, and ends at
`UINT32_MAX`; it is empty when `b = 0`.

Both walks of the code read a chain right: the list of `obtener_bloques_fat_asignados`
(`EsCadena.obtener`) and the counted walk of `obtener_bloque_fat_de_archivo` (`EsCadena.avanzar`).
The loops that change the table are described by what they leave behind: `enlazarNuevas_spec` for a
growing file and `liberarUltimos_spec` for a shrinking one. -/

namespace OperatingSystem.FileSystem.Cadenas

open OperatingSystem.Lib.CInt OperatingSystem.Lib.Chains OperatingSystem.Lib.Lists
open OperatingSystem.FileSystem.Fat

/-- The successor of a block; `0` outside the table. -/
def siguiente (entradas : List ℕ) (i : ℕ) : ℕ := entradas.getD i 0

/-- **The chain of a file.** -/
structure EsCadena (entradas : List ℕ) (b : ℕ) (l : List ℕ) : Prop where
  pos : ∀ i ∈ l, 0 < i
  lt : ∀ i ∈ l, i < entradas.length
  vacia : l = [] → b = 0
  path : l ≠ [] → Path (siguiente entradas) b l UINT32_MAX

variable {entradas : List ℕ} {b i : ℕ} {l : List ℕ}

/-! ### Single accesses -/

theorem wrap32_nat (h : (i : ℤ) ≤ INT_MAX) : wrap32 i = i :=
  wrap32_of_fits ⟨by omega, h⟩

theorem accesoFatGet_nat (i : ℕ) : accesoFatGet entradas i = entradas[i]? := by
  simp [accesoFatGet]

theorem accesoFatGet_of_lt (hi : i < entradas.length) :
    accesoFatGet entradas i = some (siguiente entradas i) := by
  rw [accesoFatGet_nat, siguiente, List.getD_eq_getElem?_getD, List.getElem?_eq_getElem hi]
  rfl

theorem accesoFatSet_of_lt (hi : i < entradas.length) (v : ℕ) :
    accesoFatSet entradas i v = some (entradas.set i v) := by
  simp [accesoFatSet, hi]

theorem siguiente_set_self (hi : i < entradas.length) (v : ℕ) :
    siguiente (entradas.set i v) i = v := by
  simp [siguiente, List.getD_eq_getElem?_getD, hi]

theorem siguiente_set_of_ne {j : ℕ} (h : j ≠ i) (v : ℕ) :
    siguiente (entradas.set i v) j = siguiente entradas j := by
  simp [siguiente, List.getD_eq_getElem?_getD, List.getElem?_set_ne (Ne.symm h)]

/-! ### Reading a chain -/

theorem esCadena_nil (entradas : List ℕ) : EsCadena entradas 0 [] :=
  ⟨by simp, by simp, fun _ => rfl, fun h => absurd rfl h⟩

theorem EsCadena.ne_max (h : EsCadena entradas b l) (hn : (entradas.length : ℤ) ≤ INT_MAX) :
    UINT32_MAX ∉ l := fun hm => by
  have := h.lt _ hm
  unfold UINT32_MAX INT_MAX at *
  omega

/-- A chain visits no block twice. -/
theorem EsCadena.nodup (h : EsCadena entradas b l) (hn : (entradas.length : ℤ) ≤ INT_MAX) :
    l.Nodup := by
  by_cases hl : l = []
  · rw [hl]; exact List.nodup_nil
  · exact (h.path hl).nodup (h.ne_max hn)

theorem EsCadena.length_le (h : EsCadena entradas b l) (hn : (entradas.length : ℤ) ≤ INT_MAX) :
    l.length ≤ entradas.length := by
  have hsub : l ⊆ List.range entradas.length := fun i hi => List.mem_range.mpr (h.lt i hi)
  simpa using (h.nodup hn).length_le_of_subset hsub

/-- A chain is empty exactly when the file has no first block. -/
theorem EsCadena.nil_iff (h : EsCadena entradas b l) : l = [] ↔ b = 0 := by
  refine ⟨h.vacia, fun hb => ?_⟩
  by_contra hl
  obtain ⟨x, l', rfl⟩ := List.exists_cons_of_ne_nil hl
  have := h.pos x (by simp)
  have := (h.path hl).head
  omega

/-- The entry `0` is on no chain. -/
theorem EsCadena.length_lt (h : EsCadena entradas b l) (hn : (entradas.length : ℤ) ≤ INT_MAX)
    (h0 : 0 < entradas.length) : l.length < entradas.length := by
  have hnd : (0 :: l).Nodup :=
    List.nodup_cons.mpr ⟨fun hm => (h.pos 0 hm).ne rfl, h.nodup hn⟩
  have hsub : 0 :: l ⊆ List.range entradas.length := by
    intro i hi
    rcases List.mem_cons.mp hi with rfl | hi
    · exact List.mem_range.mpr h0
    · exact List.mem_range.mpr (h.lt i hi)
  have hle := hnd.length_le_of_subset hsub
  rw [List.length_cons, List.length_range] at hle
  omega

/-- A file has one chain. -/
theorem EsCadena.unica (h : EsCadena entradas b l) {l' : List ℕ} (h' : EsCadena entradas b l')
    (hn : (entradas.length : ℤ) ≤ INT_MAX) : l = l' := by
  by_cases hl : l = []
  · rw [hl, h'.nil_iff.mpr (h.vacia hl)]
  · have hl' : l' ≠ [] := fun he => hl (h.nil_iff.mpr (h'.vacia he))
    exact ((h.path hl).unique (h'.path hl') (h'.ne_max hn) (h.ne_max hn)).1

/-- A block of a chain is not free. -/
theorem EsCadena.ocupado (h : EsCadena entradas b l) (hi : i ∈ l) : siguiente entradas i ≠ 0 := by
  rcases (h.path (List.ne_nil_of_mem hi)).next_mem hi with hm | he
  · exact (h.pos _ hm).ne'
  · rw [he]; decide

/-- A chain survives every change of the table that leaves its own entries alone. -/
theorem EsCadena.congr (h : EsCadena entradas b l) {entradas' : List ℕ}
    (hlen : entradas'.length = entradas.length)
    (hs : ∀ i ∈ l, siguiente entradas' i = siguiente entradas i) : EsCadena entradas' b l :=
  ⟨h.pos, by rw [hlen]; exact h.lt, h.vacia, fun hl => (h.path hl).congr hs⟩

/-- The value stops the walk of `obtener_bloques_fat_asignados`. -/
def Terminador (e : ℕ) : Prop := e = 0 ∨ e = UINT32_MAX

/-- The walk of `obtener_bloques_fat_asignados` along a path inside the table. -/
theorem recorrerCadena_path (hn : (entradas.length : ℤ) ≤ INT_MAX) {e : ℕ} (he : Terminador e) :
    ∀ {l : List ℕ} {b k : ℕ}, (∀ i ∈ l, 0 < i) → (∀ i ∈ l, i < entradas.length) →
      Path (siguiente entradas) b l e → l.length < k → recorrerCadena entradas k b = some l
  | [], b, k + 1, _, _, hp, _ => by
    obtain rfl : b = e := hp
    rw [recorrerCadena, if_pos (show b = 0 ∨ b = UINT32_MAX from he)]
  | x :: l, b, k + 1, hpos, hlt, hp, hk => by
    obtain ⟨rfl, hp⟩ := hp
    have hx := hlt x (by simp)
    have hne : ¬ (x = 0 ∨ x = UINT32_MAX) := by
      have := hpos x (by simp)
      unfold UINT32_MAX INT_MAX at *
      omega
    rw [recorrerCadena, if_neg hne, wrap32_nat (by omega), accesoFatGet_of_lt hx]
    have ih := recorrerCadena_path hn he (fun i hi => hpos i (by simp [hi]))
      (fun i hi => hlt i (by simp [hi])) hp (by simpa using hk)
    simp [ih]

/-- **The list walk reads the chain.** -/
theorem EsCadena.obtener (h : EsCadena entradas b l) (hn : (entradas.length : ℤ) ≤ INT_MAX)
    {fcb : Fcb} (hf : fcb.bloqueInicial = b) :
    obtenerBloquesFatAsignados fcb entradas = some l := by
  unfold obtenerBloquesFatAsignados
  rw [hf]
  by_cases hl : l = []
  · rw [hl, h.vacia hl]
    simp [recorrerCadena]
  · exact recorrerCadena_path hn (Or.inr rfl) h.pos h.lt (h.path hl) (by have := h.length_le hn; omega)

/-- The counted walk follows the successors while they stay inside the table. -/
theorem avanzarBloques_path (hn : (entradas.length : ℤ) ≤ INT_MAX) :
    ∀ {l : List ℕ} {b e k : ℕ}, (∀ i ∈ l, i < entradas.length) →
      Path (siguiente entradas) b l e → k ≤ l.length →
      avanzarBloques entradas k b = (l ++ [e])[k]?
  | [], b, e, k, _, hp, hk => by
    obtain rfl : k = 0 := by simpa using hk
    obtain rfl : b = e := hp
    rfl
  | x :: l, b, e, 0, _, hp, _ => by
    obtain ⟨rfl, -⟩ := hp
    rfl
  | x :: l, b, e, k + 1, hlt, hp, hk => by
    obtain ⟨rfl, hp⟩ := hp
    have hx := hlt x (by simp)
    rw [avanzarBloques, wrap32_nat (by omega), accesoFatGet_of_lt hx]
    simpa using avanzarBloques_path hn (fun i hi => hlt i (by simp [hi])) hp (by simpa using hk)

/-- **The counted walk reads the chain** at every logical block of the file. -/
theorem EsCadena.avanzar (h : EsCadena entradas b l) (hn : (entradas.length : ℤ) ≤ INT_MAX)
    {k : ℕ} (hk : k < l.length) : avanzarBloques entradas k b = l[k]? := by
  have hl : l ≠ [] := by rintro rfl; simp at hk
  rw [avanzarBloques_path hn h.lt (h.path hl) hk.le, List.getElem?_append_left hk]

/-- One step past the end the walk holds the terminator. -/
theorem EsCadena.avanzar_end (h : EsCadena entradas b l) (hn : (entradas.length : ℤ) ≤ INT_MAX)
    (hl : l ≠ []) : avanzarBloques entradas l.length b = some UINT32_MAX := by
  rw [avanzarBloques_path hn h.lt (h.path hl) le_rfl]
  simp

/-- A walk that goes on from the terminator reads `entradas[-1]`. -/
theorem avanzarBloques_max (k : ℕ) : avanzarBloques entradas (k + 1) UINT32_MAX = none := by
  rw [avanzarBloques, wrap32_UINT32_MAX]
  rfl

theorem avanzarBloques_add (j k b : ℕ) :
    avanzarBloques entradas (j + k) b =
      (avanzarBloques entradas j b).bind (avanzarBloques entradas k) := by
  induction j generalizing b with
  | zero => simp [avanzarBloques]
  | succ j ih =>
    rw [Nat.add_right_comm, avanzarBloques, avanzarBloques]
    cases accesoFatGet entradas (wrap32 b) with
    | none => rfl
    | some c => exact ih c

/-- What a walk that ended went through: a path of blocks inside the table to a terminator. -/
theorem recorrerCadena_some (hn : (entradas.length : ℤ) ≤ INT_MAX)
    (hv : ∀ v ∈ entradas, v ≤ UINT32_MAX) :
    ∀ {k b : ℕ} {l : List ℕ}, b ≤ UINT32_MAX → recorrerCadena entradas k b = some l →
      ∃ e, Terminador e ∧ Path (siguiente entradas) b l e ∧
        ∀ i ∈ l, ¬ Terminador i ∧ i < entradas.length
  | k + 1, b, l, hb, h => by
    rw [recorrerCadena] at h
    split_ifs at h with hbt
    · obtain rfl : [] = l := by simpa using h
      exact ⟨b, hbt, rfl, by simp⟩
    · simp only [Option.bind_eq_bind, Option.bind_eq_some_iff, Option.pure_def,
        Option.some.injEq] at h
      obtain ⟨v, hget, l', hl', rfl⟩ := h
      -- the index converted to `int` is not negative, so the conversion changed nothing
      have hbn : wrap32 b = b := by
        unfold accesoFatGet at hget
        split_ifs at hget with h0
        unfold UINT32_MAX at hb
        unfold wrap32 at h0 ⊢
        omega
      rw [hbn, accesoFatGet_nat] at hget
      have hlt := (List.getElem?_eq_some_iff.mp hget).1
      have hvb : siguiente entradas b = v := by
        simp [siguiente, List.getD_eq_getElem?_getD, hget]
      obtain ⟨e, he, hp, hin⟩ :=
        recorrerCadena_some hn hv (hv v (List.mem_of_getElem? hget)) hl'
      refine ⟨e, he, ⟨rfl, by rw [hvb]; exact hp⟩, ?_⟩
      intro i hi
      rcases List.mem_cons.mp hi with rfl | hi
      · exact ⟨hbt, hlt⟩
      · exact hin i hi

/-- **The turns given to the list walk are enough**: a walk of `obtener_bloques_fat_asignados`
that ends after any number of turns ends within them. -/
theorem recorrerCadena_fuel (hn : (entradas.length : ℤ) ≤ INT_MAX)
    (hv : ∀ v ∈ entradas, v ≤ UINT32_MAX) {fcb : Fcb} (hb : fcb.bloqueInicial ≤ UINT32_MAX) {k : ℕ}
    (h : recorrerCadena entradas k fcb.bloqueInicial = some l) :
    obtenerBloquesFatAsignados fcb entradas = some l := by
  obtain ⟨e, he, hp, hin⟩ := recorrerCadena_some hn hv hb h
  have hnd : l.Nodup := hp.nodup fun hel => (hin e hel).1 he
  have hsub : l ⊆ List.range entradas.length := fun i hi => List.mem_range.mpr (hin i hi).2
  have hlen : l.length ≤ entradas.length := by
    simpa using hnd.length_le_of_subset hsub
  refine recorrerCadena_path hn he (fun i hi => ?_) (fun i hi => (hin i hi).2) hp (by omega)
  exact Nat.pos_of_ne_zero fun h0 => (hin i hi).1 (Or.inl h0)

/-! ### Growing -/

/-- The free entries found are free, and among the indices scanned. -/
theorem mem_entradasLibres {is : List ℕ} {n : ℕ} (h : i ∈ entradasLibres entradas is n) :
    i ∈ is ∧ entradas[i]? = some 0 := by
  induction is generalizing n with
  | nil => simp [entradasLibres] at h
  | cons j is ih =>
    rw [entradasLibres] at h
    split_ifs at h with hn hj
    · simp at h
    · rcases List.mem_cons.mp h with rfl | h
      · exact ⟨by simp, by rwa [accesoFatGet_nat] at hj⟩
      · exact ⟨by simp [(ih h).1], (ih h).2⟩
    · exact ⟨by simp [(ih h).1], (ih h).2⟩

theorem nodup_entradasLibres {is : List ℕ} (hnd : is.Nodup) (n : ℕ) :
    (entradasLibres entradas is n).Nodup := by
  induction is generalizing n with
  | nil => exact List.nodup_nil
  | cons j is ih =>
    obtain ⟨hj, hnd⟩ := List.nodup_cons.mp hnd
    rw [entradasLibres]
    split_ifs with hn hg
    · exact List.nodup_nil
    · exact List.nodup_cons.mpr ⟨fun h => hj (mem_entradasLibres h).1, ih hnd _⟩
    · exact ih hnd n

/-- The scan finds as many entries as it looks for, if there are that many. -/
theorem length_entradasLibres (is : List ℕ) (n : ℕ) :
    (entradasLibres entradas is n).length = min n (is.countP fun i => entradas[i]? = some 0) := by
  induction is generalizing n with
  | nil => simp [entradasLibres]
  | cons j is ih =>
    rw [entradasLibres, List.countP_cons, accesoFatGet_nat]
    by_cases hn : n = 0
    · simp [hn]
    · by_cases hj : entradas[j]? = some 0
      · simp only [hn, hj, if_false, if_true, List.length_cons, ih, decide_true]
        omega
      · simp [hn, hj, ih]

/-- Looking for more entries than there are free ones finds the free ones. -/
theorem entradasLibres_de_mas (is : List ℕ) {n : ℕ}
    (h : (is.countP fun i => entradas[i]? = some 0) ≤ n) :
    entradasLibres entradas is n =
      entradasLibres entradas is (is.countP fun i => entradas[i]? = some 0) := by
  induction is generalizing n with
  | nil => rfl
  | cons j is ih =>
    by_cases hj : entradas[j]? = some 0
    · rw [List.countP_cons_of_pos (by simpa using hj)] at h ⊢
      rw [entradasLibres, entradasLibres, accesoFatGet_nat, if_neg (by omega), if_pos hj,
        if_neg (by omega), if_pos hj, ih (n := n - 1) (by omega)]
      rfl
    · rw [List.countP_cons_of_neg (by simpa using hj)] at h ⊢
      rw [entradasLibres, entradasLibres, accesoFatGet_nat]
      by_cases hn : n = 0
      · obtain rfl := hn
        rw [Nat.le_zero.mp h]
      · rw [if_neg hn, if_neg hj, ih h]
        split_ifs with hc
        · rw [hc]
          cases is with
          | nil => rfl
          | cons i is => rw [entradasLibres, if_pos rfl]
        · rfl

/-- **Linking the new entries** threads them into a path to `UINT32_MAX` and touches no other
entry. -/
theorem enlazarNuevas_spec : ∀ {nuevas entradas : List ℕ} {x : ℕ},
    (entradas.length : ℤ) ≤ INT_MAX → (x :: nuevas).Nodup → (∀ i ∈ x :: nuevas, i < entradas.length) →
    ∃ e₁ e₂, enlazarNuevas (x :: nuevas) entradas = some e₁ ∧
      accesoFatSet e₁ (wrap32 ((x :: nuevas).getLast (by simp) : ℕ)) UINT32_MAX = some e₂ ∧
      e₂.length = entradas.length ∧ Path (siguiente e₂) x (x :: nuevas) UINT32_MAX ∧
      ∀ i, i ∉ x :: nuevas → siguiente e₂ i = siguiente entradas i
  | [], entradas, x, hn, _, hlt => by
    have hx := hlt x (by simp)
    refine ⟨entradas, entradas.set x UINT32_MAX, rfl, ?_, by simp, ?_, ?_⟩
    · rw [List.getLast_singleton, wrap32_nat (by omega), accesoFatSet_of_lt hx]
    · exact ⟨rfl, siguiente_set_self hx _⟩
    · intro i hi
      exact siguiente_set_of_ne (by simpa using hi) _
  | y :: nuevas, entradas, x, hn, hnd, hlt => by
    have hx := hlt x (by simp)
    obtain ⟨hxn, hnd⟩ := List.nodup_cons.mp hnd
    have hlen : (entradas.set x y).length = entradas.length := by simp
    have hlt' : ∀ i ∈ y :: nuevas, i < (entradas.set x y).length := fun i hi => by
      rw [hlen]; exact hlt i (by simp [hi])
    obtain ⟨e₁, e₂, h₁, h₂, hl, hp, hf⟩ := enlazarNuevas_spec (by rw [hlen]; exact hn) hnd hlt'
    refine ⟨e₁, e₂, ?_, ?_, by rw [hl, hlen], ⟨rfl, ?_⟩, ?_⟩
    · rw [enlazarNuevas, wrap32_nat (by omega), accesoFatSet_of_lt hx]
      exact h₁
    · rw [List.getLast_cons (by simp)]
      exact h₂
    · rw [hf x hxn, siguiente_set_self hx]
      exact hp
    · intro i hi
      simp only [List.mem_cons, not_or] at hi
      rw [hf i (by simp [hi.2]), siguiente_set_of_ne hi.1]

/-- **A file grows** by free entries, linked after the end of its chain. -/
theorem asignarBloquesNuevos_spec (h : EsCadena entradas b l)
    (hn : (entradas.length : ℤ) ≤ INT_MAX) (h0 : siguiente entradas 0 ≠ 0) {fcb : Fcb}
    (hb : fcb.bloqueInicial = b) {k : ℕ} (hk : 0 < k) (hlibres : k ≤ entradas.count 0) :
    ∃ b' nuevas e, asignarBloquesNuevos fcb entradas k =
        some ({ fcb with bloqueInicial := b' }, e) ∧
      nuevas.length = k ∧ (∀ i ∈ nuevas, siguiente entradas i = 0) ∧
      e.length = entradas.length ∧ EsCadena e b' (l ++ nuevas) ∧
      ∀ i, i ∉ l → i ∉ nuevas → siguiente e i = siguiente entradas i := by
  have hlen : (entradasLibres entradas (List.range entradas.length) k).length = k := by
    rw [length_entradasLibres, countP_range_getElem?]
    omega
  have hlibre : ∀ i ∈ entradasLibres entradas (List.range entradas.length) k,
      i < entradas.length ∧ siguiente entradas i = 0 := fun i hi => by
    obtain ⟨hr, h'⟩ := mem_entradasLibres hi
    exact ⟨List.mem_range.mp hr, by simp [siguiente, List.getD_eq_getElem?_getD, h']⟩
  have hnd : (entradasLibres entradas (List.range entradas.length) k).Nodup :=
    nodup_entradasLibres List.nodup_range k
  rw [asignarBloquesNuevos, h.obtener hn hb]
  generalize entradasLibres entradas (List.range entradas.length) k = nuevas at *
  obtain ⟨x, nuevas, rfl⟩ := List.exists_cons_of_length_pos (hlen ▸ hk)
  obtain ⟨e₁, e₂, h₁, h₂, hl₂, hp, hf⟩ := enlazarNuevas_spec hn hnd fun i hi => (hlibre i hi).1
  have hpos : ∀ i ∈ x :: nuevas, 0 < i := fun i hi =>
    Nat.pos_of_ne_zero fun hi0 => h0 (hi0 ▸ (hlibre i hi).2)
  simp only [Option.bind_eq_bind, Option.bind_some, h₁, List.getLast?_eq_getLast_of_ne_nil
    (List.cons_ne_nil x nuevas), List.head?_cons, h₂]
  by_cases hl : l = []
  · -- the file was empty: the new entries are its chain
    have hb0 : fcb.bloqueInicial = 0 := hb.trans (h.vacia hl)
    refine ⟨x, x :: nuevas, e₂, by rw [if_pos hb0]; rfl, hlen, fun i hi => (hlibre i hi).2, hl₂,
      ?_, fun i _ hi => hf i hi⟩
    rw [hl, List.nil_append]
    exact ⟨hpos, fun i hi => by rw [hl₂]; exact (hlibre i hi).1, by simp, fun _ => hp⟩
  · -- the last block of the file, until now linked to the end, points to the first new entry
    have hb0 : fcb.bloqueInicial ≠ 0 := fun h' => hl (h.nil_iff.mpr (hb.symm.trans h'))
    obtain ⟨l', z, hlz⟩ := (List.eq_nil_or_concat l).resolve_left hl
    rw [List.concat_eq_append] at hlz
    subst hlz
    have hz := h.lt z (by simp)
    have hdis : ∀ i ∈ l' ++ [z], i ∉ x :: nuevas := fun i hi hm => h.ocupado hi (hlibre i hm).2
    refine ⟨fcb.bloqueInicial, x :: nuevas, e₂.set z x, ?_, hlen, fun i hi => (hlibre i hi).2,
      by simp [hl₂], ?_, ?_⟩
    · rw [if_neg hb0, List.getLastD_concat, wrap32_nat (by omega), accesoFatSet_of_lt (by omega)]
      rfl
    · have hz' : ∀ i ∈ x :: nuevas, i ≠ z := fun i hi hiz => hdis z (by simp) (hiz ▸ hi)
      refine ⟨?_, ?_, by simp, fun _ => ?_⟩
      · intro i hi
        rcases List.mem_append.mp hi with hi | hi
        · exact h.pos i hi
        · exact hpos i hi
      · intro i hi
        rw [List.length_set, hl₂]
        rcases List.mem_append.mp hi with hi | hi
        · exact h.lt i hi
        · exact (hlibre i hi).1
      · rw [path_append, hb]
        have hz₂ : siguiente (e₂.set z x) z = x := siguiente_set_self (by omega) x
        have hl' : ∀ y ∈ l', siguiente (e₂.set z x) y = siguiente entradas y := fun y hy => by
          have hyz : y ≠ z := by
            rintro rfl
            exact (List.nodup_append.mp (h.nodup hn)).2.2 y hy y (by simp) rfl
          rw [siguiente_set_of_ne hyz, hf y (hdis y (by simp [hy]))]
        exact ⟨x, (h.path hl).relink hl' hz₂,
          hp.congr fun y hy => siguiente_set_of_ne (hz' y hy) x⟩
    · intro i hi hi'
      rw [siguiente_set_of_ne (by rintro rfl; simp at hi), hf i hi']

/-- A request for more blocks than are free is a request for the free ones. -/
theorem asignarBloquesNuevos_de_mas (fcb : Fcb) {k : ℕ} (hk : entradas.count 0 ≤ k) :
    asignarBloquesNuevos fcb entradas k = asignarBloquesNuevos fcb entradas (entradas.count 0) := by
  rw [← countP_range_getElem?] at hk
  have h := entradasLibres_de_mas (List.range entradas.length) hk
  rw [countP_range_getElem?] at h
  rw [asignarBloquesNuevos, asignarBloquesNuevos, h]

/-- **Without a free entry** the code reads `entradas_nuevas[-1]`. -/
theorem asignarBloquesNuevos_sin_libres (fcb : Fcb) (k : ℕ) (h0 : entradas.count 0 = 0) :
    asignarBloquesNuevos fcb entradas k = none := by
  have hlen : (entradasLibres entradas (List.range entradas.length) k).length = _ :=
    length_entradasLibres _ k
  rw [countP_range_getElem?, h0, Nat.min_zero, List.length_eq_zero_iff] at hlen
  rw [asignarBloquesNuevos, hlen]
  cases obtenerBloquesFatAsignados fcb entradas with
  | none => rfl
  | some previos => rfl

/-! ### Shrinking -/

/-- **Freeing the last blocks** of a list leaves the rest of the list, zeroes the entries of the
blocks freed, and touches no other entry. -/
theorem liberarUltimos_spec (quedan : List ℕ) : ∀ {cortados entradas : List ℕ},
    (entradas.length : ℤ) ≤ INT_MAX → (∀ i ∈ cortados, i < entradas.length) →
    ∃ e, liberarUltimos cortados.length (quedan ++ cortados) entradas = some (quedan, e) ∧
      e.length = entradas.length ∧ (∀ i ∈ cortados, siguiente e i = 0) ∧
      ∀ i, i ∉ cortados → siguiente e i = siguiente entradas i := by
  intro cortados
  induction cortados using List.reverseRecOn with
  | nil => exact fun _ _ => ⟨_, by simp [liberarUltimos], rfl, by simp, by simp⟩
  | append_singleton cortados x ih =>
    intro entradas hn hlt
    have hx := hlt x (by simp)
    have hlen : (entradas.set x 0).length = entradas.length := by simp
    have hlt' : ∀ i ∈ cortados, i < (entradas.set x 0).length := fun i hi => by
      rw [hlen]; exact hlt i (by simp [hi])
    obtain ⟨e, he, hl, h0, hf⟩ := ih (by rw [hlen]; exact hn) hlt'
    refine ⟨e, ?_, by rw [hl, hlen], ?_, ?_⟩
    · rw [List.length_append, List.length_singleton, liberarUltimos, ← List.append_assoc,
        List.getLastD_concat, List.dropLast_concat, wrap32_nat (by omega), accesoFatSet_of_lt hx]
      exact he
    · intro i hi
      by_cases hc : i ∈ cortados
      · exact h0 i hc
      · obtain rfl : i = x := by simpa [hc] using hi
        rw [hf i hc, siguiente_set_self hx]
    · intro i hi
      simp only [List.mem_append, List.mem_singleton, not_or] at hi
      rw [hf i hi.1, siguiente_set_of_ne hi.2]

/-- **A file shrinks** from the end of its chain. -/
theorem liberarBloquesAsignados_spec {quedan cortados : List ℕ}
    (h : EsCadena entradas b (quedan ++ cortados)) (hn : (entradas.length : ℤ) ≤ INT_MAX)
    {fcb : Fcb} (hb : fcb.bloqueInicial = b) :
    ∃ b' e, liberarBloquesAsignados fcb entradas cortados.length =
        some ({ fcb with bloqueInicial := b' }, e) ∧
      e.length = entradas.length ∧ EsCadena e b' quedan ∧ (∀ i ∈ cortados, siguiente e i = 0) ∧
      ∀ i, i ∉ quedan → i ∉ cortados → siguiente e i = siguiente entradas i := by
  have hlt : ∀ i ∈ cortados, i < entradas.length := fun i hi => h.lt i (by simp [hi])
  obtain ⟨e, he, hl, h0, hf⟩ := liberarUltimos_spec quedan hn hlt
  have hcorto : ¬ (quedan ++ cortados).length < cortados.length := by simp
  rw [liberarBloquesAsignados, h.obtener hn hb]
  simp only [Option.bind_eq_bind, Option.bind_some, if_neg hcorto]
  rw [he, Option.bind_some]
  by_cases hq : quedan = []
  · exact ⟨0, e, by rw [if_pos hq]; rfl, hl, hq ▸ esCadena_nil e, h0, fun i _ hi => hf i hi⟩
  · obtain ⟨l, z, hz⟩ := (List.eq_nil_or_concat quedan).resolve_left hq
    rw [List.concat_eq_append] at hz
    subst hz
    have hze : z < e.length := hl ▸ h.lt z (by simp)
    have hnd := List.nodup_append.mp (h.nodup hn)
    have hzl : ∀ y ∈ l, y ≠ z := fun y hy => (List.nodup_append.mp hnd.1).2.2 y hy z (by simp)
    refine ⟨fcb.bloqueInicial, e.set z UINT32_MAX, ?_, by simp [hl], ?_, ?_, ?_⟩
    · rw [if_neg hq, List.getLastD_concat, wrap32_nat (by omega), accesoFatSet_of_lt hze]
      rfl
    · refine ⟨fun i hi => h.pos i (List.mem_append_left _ hi), fun i hi => ?_, by simp,
        fun _ => ?_⟩
      · rw [List.length_set, hl]
        exact h.lt i (List.mem_append_left _ hi)
      · obtain ⟨c, hp, -⟩ := path_append.mp (h.path (by simp))
        rw [hb]
        refine hp.relink (fun y hy => ?_) (siguiente_set_self hze _)
        rw [siguiente_set_of_ne (hzl y hy), hf y fun hc => hnd.2.2 y (by simp [hy]) y hc rfl]
    · intro i hi
      rw [siguiente_set_of_ne (fun hiz => hnd.2.2 z (by simp) i hi hiz.symm), h0 i hi]
    · intro i hi hi'
      rw [siguiente_set_of_ne (by rintro rfl; simp at hi), hf i hi']

end OperatingSystem.FileSystem.Cadenas
