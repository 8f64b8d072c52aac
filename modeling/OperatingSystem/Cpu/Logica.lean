import OperatingSystem.Cpu.Transparencia
import OperatingSystem.Lib.Triples

/-! # A logic for the programs of the CPU

Assertions are about the registers and the memory; a triple `Terna programa pos A pos' B` says that from
the instruction `pos` with `A` the program comes to the instruction `pos'` with `B`. There is a rule for
each instruction, given by what has to hold before it (`antes`), one for blocks of instructions and one
for the loops that count a register down (`Terna.contar`).

`correcta`: what is derived for the program that nothing interrupts holds of every run of the CPU and the
kernel, wherever interruptions, page faults and other processes come in between, and that no `MOV_IN`
reads the word `-1` on the way is part of what is derived. The programs `MEMORIA_2` and `ESTRES_3` of
`memoria/mappa-pruebas` are the two cases: a loop that ends, and one that does not. -/

namespace OperatingSystem.Cpu.Logica

open OperatingSystem.Lib.Run OperatingSystem.Lib.Stutter OperatingSystem.Lib.Triples
open OperatingSystem.Cpu.Ciclo
open OperatingSystem.Cpu.Despacho
open OperatingSystem.Cpu.Transparencia
open OperatingSystem.Lib.Bytes (byte leer_of_byte leer_congr)

/-! ### Assertions -/

abbrev Asercion := Registros → MemoriaPlana → Prop

/-- The process is at the instruction `pos`. -/
def En (pos : ℕ) (A : Asercion) (v : Maquina) : Prop :=
  v.programCounter = pos ∧ v.termino = false ∧ A v.registros v.memoria

/-- The process is over. -/
def Terminada (A : Asercion) (v : Maquina) : Prop := v.termino = true ∧ A v.registros v.memoria

def Terna (programa : List Instruccion) (pos : ℕ) (A : Asercion) (pos' : ℕ) (B : Asercion) : Prop :=
  Triple (Maquina.paso programa) (LeeBien programa) (En pos A) (En pos' B)

/-- The process comes to its `EXIT`. -/
def Acaba (programa : List Instruccion) (pos : ℕ) (A B : Asercion) : Prop :=
  Triple (Maquina.paso programa) (LeeBien programa) (En pos A) (Terminada B)

/-- The instructions that go on to the next one. -/
def esRecta : Instruccion → Bool
  | .SET .. | .SUM .. | .SUB .. | .MOV_IN .. | .MOV_OUT .. => true
  | _ => false

/-- What has to hold for `B` to hold after the instruction. -/
def antes : Instruccion → Asercion → Asercion
  | .SET registro nuevoValor, B => fun R M => match obtenerRegistro registro with
    | some r => B (Function.update R r (UInt32.ofInt nuevoValor)) M
    | none => B R M
  | .SUM registroDestino registroOrigen, B => fun R M =>
    match obtenerRegistro registroDestino, obtenerRegistro registroOrigen with
    | some d, some o => B (Function.update R d (R o + R d)) M
    | _, _ => B R M
  | .SUB registroDestino registroOrigen, B => fun R M =>
    match obtenerRegistro registroDestino, obtenerRegistro registroOrigen with
    | some d, some o => B (Function.update R d (R d - R o)) M
    | _, _ => B R M
  | .MOV_IN registro dirLogica, B => fun R M => M.leer dirLogica ≠ -1 ∧
    match obtenerRegistro registro with
    | some r => B (Function.update R r (M.leer dirLogica)) M
    | none => B R M
  | .MOV_OUT dirLogica registro, B => fun R M =>
    ∃ r, obtenerRegistro registro = some r ∧ B R (M.escribir dirLogica (R r))
  | _, _ => fun _ _ => False

/-- What has to hold for `B` to hold after a block of instructions. -/
def antesDe (bloque : List Instruccion) (B : Asercion) : Asercion := bloque.foldr antes B

/-! ### The rules -/

section

variable {programa bloque cuerpo : List Instruccion} {pos pos' : ℕ} {A A' B B' : Asercion}
  {i : Instruccion} {v : Maquina}

theorem fetch_of_en (hi : programa[pos]? = some i) (hv : En pos A v) :
    fetch programa v.programCounter = some i := by
  rw [hv.1, fetch, if_pos (Int.natCast_nonneg pos), Int.toNat_natCast, hi]

theorem paso_of_en (hi : programa[pos]? = some i) (hv : En pos A v) :
    v.paso programa = v.ejecutar i := by
  rw [Maquina.paso, if_neg (by rw [hv.2.1]; exact Bool.false_ne_true), fetch_of_en hi hv,
    Option.bind_some]

theorem leeBien_of_en (hi : programa[pos]? = some i) (hv : En pos A v)
    (h : ∀ dirLogica ∈ dirLeida i, v.memoria.leer dirLogica ≠ -1) : LeeBien programa v := by
  rintro - ⟨j, hj, dirLogica, hd, hm⟩
  obtain rfl := Option.some.inj ((fetch_of_en hi hv).symm.trans hj)
  exact h dirLogica hd hm

/-- What holds before an instruction gives what holds after it. -/
theorem ejecutar_of_antes (hr : esRecta i = true) (h : antes i B v.registros v.memoria) :
    (∃ w, v.ejecutar i = some w ∧ w.programCounter = v.programCounter + 1 ∧ w.termino = v.termino ∧
      B w.registros w.memoria) ∧ ∀ dirLogica ∈ dirLeida i, v.memoria.leer dirLogica ≠ -1 := by
  cases i with
  | SET registro nuevoValor =>
    refine ⟨⟨_, rfl, ?_⟩, fun d hd => by cases hd⟩
    rw [antes] at h
    unfold Maquina.cargarEn
    cases hreg : obtenerRegistro registro <;> rw [hreg] at h <;> exact ⟨rfl, rfl, h⟩
  | SUM registroDestino registroOrigen =>
    refine ⟨⟨_, rfl, ?_⟩, fun d hd => by cases hd⟩
    rw [antes] at h
    unfold Maquina.operar
    cases hd : obtenerRegistro registroDestino <;> cases ho : obtenerRegistro registroOrigen <;>
      rw [hd, ho] at h <;> exact ⟨rfl, rfl, h⟩
  | SUB registroDestino registroOrigen =>
    refine ⟨⟨_, rfl, ?_⟩, fun d hd => by cases hd⟩
    rw [antes] at h
    unfold Maquina.operar
    cases hd : obtenerRegistro registroDestino <;> cases ho : obtenerRegistro registroOrigen <;>
      rw [hd, ho] at h <;> exact ⟨rfl, rfl, h⟩
  | MOV_IN registro dirLogica =>
    obtain ⟨hm, h⟩ := h
    refine ⟨⟨_, rfl, ?_⟩, fun d hd => Option.some.inj hd ▸ hm⟩
    unfold Maquina.cargarEn
    cases hreg : obtenerRegistro registro <;> rw [hreg] at h <;> exact ⟨rfl, rfl, h⟩
  | MOV_OUT dirLogica registro =>
    obtain ⟨r, hreg, h⟩ := h
    refine ⟨⟨Maquina.siguiente { v with memoria := v.memoria.escribir dirLogica (v.registros r) }, ?_,
      rfl, rfl, h⟩, fun d hd => by cases hd⟩
    rw [Maquina.ejecutar, hreg]
    rfl
  | _ => cases hr

theorem Terna.conseq (h : Terna programa pos A pos' B) (hA : ∀ R M, A' R M → A R M)
    (hB : ∀ R M, B R M → B' R M) : Terna programa pos A' pos' B' :=
  Triple.conseq h (fun _ hv => ⟨hv.1, hv.2.1, hA _ _ hv.2.2⟩)
    fun _ hv => ⟨hv.1, hv.2.1, hB _ _ hv.2.2⟩

theorem Terna.instruccion (hi : programa[pos]? = some i) (hr : esRecta i = true) :
    Terna programa pos (antes i B) (pos + 1) B := by
  refine Triple.of_next fun v hv => ?_
  obtain ⟨⟨w, hw, hpc, ht, hB⟩, hd⟩ := ejecutar_of_antes hr hv.2.2
  refine ⟨leeBien_of_en hi hv hd, w, (paso_of_en hi hv).trans hw, ?_, ht.trans hv.2.1, hB⟩
  rw [hpc, hv.1]
  rfl

/-- A program that has the block `bloque` at `pos`. -/
theorem getElem?_of_prefix {k : ℕ} (h : bloque <+: programa.drop pos) (hk : k < bloque.length) :
    programa[pos + k]? = bloque[k]? := by
  obtain ⟨resto, h⟩ := h
  rw [← List.getElem?_drop, ← h, List.getElem?_append_left hk]

theorem prefix_of_append (bloque : List Instruccion) {bloque' : List Instruccion}
    (h : bloque ++ bloque' <+: programa.drop pos) :
    bloque <+: programa.drop pos ∧ bloque' <+: programa.drop (pos + bloque.length) := by
  obtain ⟨resto, h⟩ := h
  refine ⟨⟨bloque' ++ resto, by rw [← List.append_assoc, h]⟩, resto, ?_⟩
  rw [← List.drop_drop, ← h, List.append_assoc, List.drop_left]

/-- **Blocks.** -/
theorem Terna.bloques (bloque : List Instruccion) (hr : ∀ i ∈ bloque, esRecta i = true) : ∀ {pos : ℕ},
    bloque <+: programa.drop pos → Terna programa pos (antesDe bloque B) (pos + bloque.length) B := by
  induction bloque with
  | nil => exact fun _ => Triple.skip fun _ hv => hv
  | cons i resto ih =>
    intro pos h
    have hi : programa[pos]? = some i := getElem?_of_prefix h (Nat.succ_pos _)
    have hresto := ih (fun j hj => hr j (List.mem_cons_of_mem i hj))
      (prefix_of_append [i] h).2
    rw [List.length_singleton, Nat.add_assoc, Nat.add_comm 1] at hresto
    exact Triple.seq (Terna.instruccion hi (hr i List.mem_cons_self)) hresto

/-- Straight to the `EXIT`. -/
theorem Terna.salir (hi : programa[pos]? = some .EXIT) : Acaba programa pos A A := by
  refine Triple.of_next fun v hv => ⟨leeBien_of_en hi hv ?_, _, paso_of_en hi hv, rfl, hv.2.2⟩
  exact fun d hd => by cases hd

/-! ### Loops that count -/

/-- How often a loop that counts `w` down is gone through: the subtraction comes before the test, so that
a `0` goes through all the words. -/
def vueltasDe (w : UInt32) : ℕ := if w = 0 then 2 ^ 32 else w.toNat

/-- Once, if the counter is `0` after it, and else as often as the new counter says and once more. -/
theorem vueltasDe_eq (w : UInt32) :
    vueltasDe w = (if w - 1 = 0 then 0 else vueltasDe (w - 1)) + 1 := by
  have hw : (w - 1).toNat = (2 ^ 32 - 1 + w.toNat) % 2 ^ 32 := UInt32.toNat_sub w 1
  have hlt := w.toNat_lt
  unfold vueltasDe
  simp only [← UInt32.toNat_inj, hw, UInt32.toNat_zero]
  split_ifs <;> omega

section

variable {registro uno : Char} {c u : Fin 4} {I : ℕ → Asercion}

/-- So many turns are left; after the last one the program goes on at `sale`. -/
def Quedan (pos sale : ℕ) (c u : Fin 4) (I : ℕ → Asercion) : ℕ → Maquina → Prop
  | 0 => En sale fun R M => I 0 R M ∧ R c = 0 ∧ R u = 1
  | n + 1 => En pos fun R M => I (n + 1) R M ∧ R u = 1 ∧ vueltasDe (R c) = n + 1

theorem ejecutar_jnz {nuevoPc : ℤ} (hc : obtenerRegistro registro = some c) :
    v.ejecutar (.JNZ registro nuevoPc) =
      some (if v.registros c ≠ 0 then { v with programCounter := nuevoPc } else v.siguiente) := by
  rw [Maquina.ejecutar, hc]
  rfl

/-- The jump at the end of a turn. -/
theorem jnz_quedan {n : ℕ} (hc : obtenerRegistro registro = some c)
    (hjnz : programa[pos']? = some (.JNZ registro pos)) :
    Triple (Maquina.paso programa) (LeeBien programa)
      (En pos' fun R M => I n R M ∧ R u = 1 ∧ (if R c = 0 then 0 else vueltasDe (R c)) = n)
      (Quedan pos (pos' + 1) c u I n) := by
  refine Triple.of_next fun v hv => ⟨leeBien_of_en hjnz hv (fun d hd => by cases hd), ?_⟩
  rw [paso_of_en hjnz hv, ejecutar_jnz hc]
  refine ⟨_, rfl, ?_⟩
  obtain ⟨hpc, ht, hI, hone, hn⟩ := hv
  by_cases hz : v.registros c = 0
  · rw [if_pos hz] at hn
    subst hn
    rw [if_neg (not_not.mpr hz)]
    refine ⟨?_, ht, hI, hz, hone⟩
    rw [Maquina.siguiente, hpc]
    rfl
  · rw [if_neg hz, vueltasDe_eq] at hn
    subst hn
    rw [if_pos hz]
    exact ⟨rfl, ht, hI, hone, vueltasDe_eq _⟩

/-- **Counted loops.** A `cuerpo` followed by a `SUB` of one from the register `c` and a `JNZ` back is
gone through as often as what is in `c` says. -/
theorem Terna.contar (hc : obtenerRegistro registro = some c) (hu : obtenerRegistro uno = some u)
    (hcu : u ≠ c) (hcod : cuerpo ++ [.SUB registro uno, .JNZ registro pos] <+: programa.drop pos)
    (hcuerpo : ∀ n w, Terna programa pos (fun R M => I (n + 1) R M ∧ R c = w ∧ R u = 1)
      (pos + cuerpo.length)
      fun R M => I n (Function.update R c (w - 1)) M ∧ R c = w ∧ R u = 1) :
    Terna programa pos (fun R M => I (vueltasDe (R c)) R M ∧ R u = 1) (pos + cuerpo.length + 2)
      fun R M => I 0 R M ∧ R c = 0 ∧ R u = 1 := by
  obtain ⟨-, hfin⟩ := prefix_of_append cuerpo hcod
  have hsub : programa[pos + cuerpo.length]? = some (.SUB registro uno) :=
    getElem?_of_prefix (k := 0) hfin (Nat.succ_pos _)
  have hjnz : programa[pos + cuerpo.length + 1]? = some (.JNZ registro pos) :=
    getElem?_of_prefix (k := 1) hfin (Nat.lt_succ_self _)
  have hturno : ∀ n, Triple (Maquina.paso programa) (LeeBien programa)
      (Quedan pos (pos + cuerpo.length + 2) c u I (n + 1))
      (Quedan pos (pos + cuerpo.length + 2) c u I n) := by
    intro n v hv
    obtain ⟨hpc, ht, hI, hone, hn⟩ := hv
    rw [vueltasDe_eq, Nat.add_right_cancel_iff] at hn
    -- the counter before the turn is a logical variable of it
    refine Triple.seq (Triple.seq (hcuerpo n (v.registros c)) (Terna.conseq (Terna.instruccion hsub rfl)
      (fun R M h => ?_) fun _ _ h => h)) (jnz_quedan hc hjnz) v ⟨hpc, ht, hI, rfl, hone⟩
    obtain ⟨hI, hw, hone⟩ := h
    rw [antes, hc, hu]
    simp only [hone, hw, Function.update_self, Function.update_of_ne hcu]
    exact ⟨hI, trivial, hn⟩
  intro v hv
  obtain ⟨hpc, ht, hI, hone⟩ := hv
  refine Triple.descend hturno (vueltasDe (v.registros c)) v ?_
  have hn := vueltasDe_eq (v.registros c)
  rw [hn] at hI ⊢
  exact ⟨hpc, ht, hI, hone, hn⟩

end

/-! ### The runs of the CPU and the kernel -/

/-- What a process starts with. -/
def alEmpezar (bytes : ℤ → UInt8) : Asercion := fun R M => (∀ r, R r = 0) ∧ M = ⟨bytes, []⟩

theorem en_inicial (pid : ℤ) (cpu : Globales) (bytes : ℤ → UInt8) :
    En 0 (alEmpezar bytes) (vista (inicial pid cpu bytes)) := ⟨rfl, rfl, fun _ => rfl, rfl⟩

theorem sinMenosUno_of_leeBien (s : Sistema) (a : Accion)
    (h : Ejecuta programa s a → LeeBien programa (vista s)) : SinMenosUno programa s a :=
  fun hej => h hej hej.termino

theorem Terminada.detenida (h : Terminada B v) :
    v.paso programa = some v ∧ LeeBien programa v := by
  refine ⟨Maquina.paso_termino h.1, fun ht => ?_⟩
  rw [h.1] at ht
  cases ht

/-- **The logic is sound for the CPU that is interrupted.** A program that is derived to end with `B` is
never stuck, in no run; when it is over it has the one result that there is, which is in `B`; and from
wherever the run has come it is over after `n` turns more without interruptions. -/
theorem Acaba.correcta (tamanioPagina : ℕ) {pid : ℤ} {bytes : ℤ → UInt8} (hpid : pid ≠ -1)
    (hpr : ∀ i ∈ programa, deCpu i = true) (h : Acaba programa 0 (alEmpezar bytes) B)
    (cpu : Globales) :
    ∃ n v, Terminada B v ∧ ∀ as,
      Along (atender tamanioPagina programa) (SinMenosUno programa) (inicial pid cpu bytes) as ∧
      ∃ s, exec (atender tamanioPagina programa) (inicial pid cpu bytes) as = some s ∧
        ((vista s).termino = true → vista s = v) ∧
        (exec (atender tamanioPagina programa) s (vueltas n)).map vista = some v := by
  obtain ⟨n, v, hB, hall⟩ := Triple.adequate (E := fun _ _ => True) h (stutters tamanioPagina hpr)
    (fun s a _ _ h => sinMenosUno_of_leeBien s a h) (fun u hu => hu.detenida)
    (inv_inicial hpid cpu bytes) (en_inicial pid cpu bytes)
  refine ⟨n, v, hB, fun as => ?_⟩
  obtain ⟨hA, s, hs, hIs, hn, hD⟩ := hall as (along_of_forall (fun _ _ => trivial) as _)
  refine ⟨hA, s, hs, fun ht => ?_, ?_⟩
  · exact Option.some.inj ((iter_of_halted (Maquina.paso_termino ht) n).symm.trans hn)
  · rw [vueltas_iter hpr n hIs fun k _ => hD k, hn]

/-- **Loops that never end.** A program that comes to a `JNZ` back to `pos` with the register not zero
whenever it goes on from `pos` does so for ever: no run with the interruptions of the planner ends it, or
gets it stuck. -/
theorem Terna.sin_fin {tamanioPagina : ℕ} {pid : ℤ} {bytes : ℤ → UInt8} {registro : Char} {c : Fin 4}
    (hpid : pid ≠ -1) (hpr : ∀ i ∈ programa, deCpu i = true)
    (hentra : Terna programa 0 (alEmpezar bytes) pos A) (hc : obtenerRegistro registro = some c)
    (hlazo : Terna programa pos A pos' fun R M => R c ≠ 0 ∧ A R M)
    (hjnz : programa[pos']? = some (.JNZ registro pos)) (cpu : Globales) (as : List Accion) :
    ∃ s, exec (atender tamanioPagina programa) (inicial pid cpu bytes) as = some s ∧
      (vista s).termino = false ∧
      Reaches (Maquina.paso programa) (LeeBien programa) (En pos A) (vista s) := by
  have hrec : Recurs (Maquina.paso programa) (LeeBien programa) (En pos A) := by
    intro v hv
    -- the jump, after which the program is at `pos` again
    have hsalta : ∀ w, En pos' (fun R M => R c ≠ 0 ∧ A R M) w → LeeBien programa w ∧
        ∃ u, w.paso programa = some u ∧ Reaches (Maquina.paso programa) (LeeBien programa) (En pos A) u := by
      intro w hw
      refine ⟨leeBien_of_en hjnz hw (fun d hd => by cases hd), _,
        (paso_of_en hjnz hw).trans (ejecutar_jnz hc), .here ?_⟩
      rw [if_pos hw.2.2.1]
      exact ⟨rfl, hw.2.1, hw.2.2.2⟩
    cases hlazo v hv with
    | here hw =>
      obtain ⟨hD, u, hu, hr⟩ := hsalta v hw
      exact ⟨u, hD, hu, hr⟩
    | next hD hu hr =>
      refine ⟨_, hD, hu, hr.trans fun w hw => ?_⟩
      obtain ⟨hD', u', hu', hr'⟩ := hsalta w hw
      exact .next hD' hu' hr'
  obtain ⟨s, hs, -, hr⟩ := hrec.forever (stutters tamanioPagina hpr)
    (fun s a _ h => sinMenosUno_of_leeBien s a h) (inv_inicial hpid cpu bytes)
    (hentra _ (en_inicial pid cpu bytes)) as
  refine ⟨s, hs, Bool.eq_false_iff.mpr fun ht => ?_, hr⟩
  refine not_reaches_of_invariant (I := fun v => v.termino = true) (fun t u ht hu => ?_)
    (fun t ht hen => ?_) ht hr
  · obtain rfl := Option.some.inj ((Maquina.paso_termino ht).symm.trans hu)
    exact ht
  · rw [hen.2.1] at ht
    cases ht

end

/-! ### Programs of `mappa-pruebas` -/

section

variable {M : MemoriaPlana} {a b : ℤ} {w : UInt32}

theorem bytes_escribir {i : ℕ} (hi : i < 4) : (M.escribir a w).bytes (a + i) = byte w i := by
  change (if _ then byte w (a + i - a).toNat else _) = _
  rw [if_pos (by omega), add_sub_cancel_left, Int.toNat_natCast]

theorem bytes_escribir_of_disjoint (h : b < a ∨ a + 4 ≤ b) :
    (M.escribir a w).bytes b = M.bytes b := if_neg (by omega)

@[simp] theorem leer_escribir : (M.escribir a w).leer a = w :=
  leer_of_byte fun i hi => by rw [Nat.zero_add, bytes_escribir hi]

theorem leer_escribir_of_disjoint (h : b + 4 ≤ a ∨ a + 4 ≤ b) : (M.escribir a w).leer b = M.leer b :=
  leer_congr fun i hi => bytes_escribir_of_disjoint (by omega)

end

/-- `MEMORIA_2` -/
def memoria2 : List Instruccion :=
  [.SET 'C' 20, .SET 'A' 1, .MOV_OUT 0 'C', .MOV_OUT 16 'C', .MOV_OUT 32 'C', .MOV_OUT 48 'C',
    .SUB 'C' 'A', .JNZ 'C' 2, .EXIT]

/-- The words that it writes are `w`, and all the other bytes are as they were. -/
structure Llenas (bytes : ℤ → UInt8) (w : UInt32) (M : MemoriaPlana) : Prop where
  palabras : ∀ d ∈ [(0 : ℤ), 16, 32, 48], M.leer d = w
  resto : ∀ b, (∀ d ∈ [(0 : ℤ), 16, 32, 48], b < d ∨ d + 4 ≤ b) → M.bytes b = bytes b

/-- The turns that are left are in the register `c`, and what was stored last is one more. -/
def cuentaMemoria2 (c : Fin 4) (bytes : ℤ → UInt8) (n : ℕ) : Asercion := fun R M =>
  R c = UInt32.ofNat n ∧ n ≤ 20 ∧
    if n = 20 then M.bytes = bytes else Llenas bytes (UInt32.ofNat (n + 1)) M

/-- The four stores of a turn. -/
theorem Llenas.guardar {bytes : ℤ → UInt8} {M : MemoriaPlana} {w : UInt32}
    (h : M.bytes = bytes ∨ ∃ w', Llenas bytes w' M) :
    Llenas bytes w ((((M.escribir 0 w).escribir 16 w).escribir 32 w).escribir 48 w) := by
  constructor
  · simp [leer_escribir_of_disjoint]
  · intro b hb
    have hb' := hb
    simp only [List.forall_mem_cons, List.not_mem_nil, false_imp_iff, implies_true] at hb'
    rw [bytes_escribir_of_disjoint (by omega), bytes_escribir_of_disjoint (by omega),
      bytes_escribir_of_disjoint (by omega), bytes_escribir_of_disjoint (by omega)]
    rcases h with rfl | ⟨_, h⟩
    · rfl
    · exact h.resto b hb

/-- **`MEMORIA_2`** leaves `1` in the first word of its four pages, and nothing else in its memory. -/
theorem memoria2_acaba (bytes : ℤ → UInt8) :
    Acaba memoria2 0 (alEmpezar bytes) fun R M => R 0 = 1 ∧ R 2 = 0 ∧ Llenas bytes 1 M := by
  have hempieza : Terna memoria2 0 (alEmpezar bytes) 2 fun R M =>
      cuentaMemoria2 2 bytes (vueltasDe (R 2)) R M ∧ R 0 = 1 := by
    refine Terna.conseq (Terna.bloques [.SET 'C' 20, .SET 'A' 1] (by decide) ⟨_, rfl⟩)
      (fun R M h => ?_) fun _ _ h => h
    obtain ⟨-, rfl⟩ := h
    have h20 : vueltasDe 20 = 20 := by decide
    change cuentaMemoria2 2 bytes (vueltasDe 20) _ _ ∧ _
    rw [h20]
    refine ⟨⟨rfl, le_rfl, ?_⟩, rfl⟩
    rw [if_pos rfl]
  have hC : obtenerRegistro 'C' = some 2 := rfl
  have hA : obtenerRegistro 'A' = some 0 := rfl
  have hcod : [.MOV_OUT 0 'C', .MOV_OUT 16 'C', .MOV_OUT 32 'C', .MOV_OUT 48 'C'] ++
    [.SUB 'C' 'A', .JNZ 'C' (2 : ℕ)] <+: memoria2.drop 2 := ⟨_, rfl⟩
  have hlazo := Terna.contar (I := cuentaMemoria2 2 bytes) hC hA (by decide) hcod fun n w =>
    Terna.conseq (Terna.bloques _ (by decide) ⟨_, rfl⟩) (fun R M h => ?_) fun _ _ h => h
  · refine Triple.seq (Triple.seq hempieza hlazo) ((Terna.salir rfl).conseq (fun _ h => h) ?_)
    rintro v ⟨ht, ⟨-, -, hM⟩, hcero, huno⟩
    exact ⟨ht, huno, hcero, hM⟩
  · obtain ⟨⟨hcuenta, hn, hM⟩, rfl, huno⟩ := h
    refine ⟨2, rfl, 2, rfl, 2, rfl, 2, rfl, ⟨?_, by omega, ?_⟩, rfl, huno⟩
    · rw [Function.update_self, hcuenta, UInt32.ofNat_add]
      exact UInt32.add_sub_cancel _ _
    · rw [if_neg (by omega), ← hcuenta]
      by_cases hprimera : n + 1 = 20
      · rw [if_pos hprimera] at hM
        exact Llenas.guardar (.inl hM)
      · rw [if_neg hprimera] at hM
        exact Llenas.guardar (.inr ⟨_, hM⟩)

/-- `ESTRES_3` -/
def estres3 : List Instruccion := [.SET 'A' 1, .SET 'B' 0, .SUM 'A' 'B', .JNZ 'A' 2, .EXIT]

/-- What the turns of `ESTRES_3` keep in `A` and `B`. -/
def deEstres3 (a b : Fin 4) : Asercion := fun R _ => R a = 1 ∧ R b = 0

/-- The `JNZ` of `ESTRES_3` goes back for ever. -/
theorem sin_fin_estres3 : ∃ s, exec (atender 16 estres3) (inicial 1 cpuNueva fun _ => 0) turnos = some s ∧
    (vista s).termino = false ∧ Reaches (Maquina.paso estres3) (LeeBien estres3)
      (En 2 (deEstres3 0 1)) (vista s) := by
  have hentra : Terna estres3 0 (alEmpezar fun _ => 0) 2 (deEstres3 0 1) :=
    Terna.conseq (B := deEstres3 0 1) (Terna.bloques [.SET 'A' 1, .SET 'B' 0] (by decide) ⟨_, rfl⟩)
      (fun R M _ => ⟨rfl, rfl⟩) fun _ _ h => h
  have hlazo : Terna estres3 2 (deEstres3 0 1) 3 fun R M => R 0 ≠ 0 ∧ deEstres3 0 1 R M := by
    refine Terna.conseq (Terna.bloques [.SUM 'A' 'B'] (by decide) ⟨_, rfl⟩) (fun R M h => ?_)
      fun _ _ h => h
    obtain ⟨hA, hB⟩ := h
    have hsuma : R 1 + R 0 = 1 := by
      rw [hA, hB]
      rfl
    change (R 1 + R 0 ≠ 0 ∧ R 1 + R 0 = 1 ∧ R 1 = 0)
    rw [hsuma]
    exact ⟨by decide, rfl, hB⟩
  have hA : obtenerRegistro 'A' = some 0 := rfl
  have hjnz : estres3[3]? = some (.JNZ 'A' (2 : ℕ)) := rfl
  exact Terna.sin_fin (by decide) (by decide) hentra hA hlazo hjnz cpuNueva turnos

end OperatingSystem.Cpu.Logica
