import OperatingSystem.Lib.Cells
import OperatingSystem.Utils.Instrucciones

/-! # The lines of a program (`memoria/src/instruccion_proceso.c`)

`leer_linea` reads one line of a file, character by character, to a block of memory that doubles when the
next character and the terminator would not fit. `none` is a write outside the block.

After any characters that are not newlines the block begins with them and has room for at least one
more (`Linea.Tiene`). Where the block doubles is decided before the character is written, so the
invariant holds after every character, and what `leer_linea` returns follows from it at the end of
the line. -/

namespace OperatingSystem.Memoria.InstruccionProceso

open OperatingSystem.Lib.Cells

/-- `'\n'` -/
def NUEVA_LINEA : UInt8 := 10

/-- A file that is being read: what is left of it, and whether `fgetc` found its end. -/
structure Archivo where
  resto : List UInt8
  feof : Bool
  fin : feof = true → resto = []

/-- `fopen` -/
def abrir (texto : List UInt8) : Archivo := ⟨texto, false, nofun⟩

/-- The variables of `leer_linea`. -/
structure Linea where
  maxBuffer : ℕ
  bytesLeidos : ℕ
  linea : Block UInt8

/-- Twice the block, if there is no room for a character and the terminator. The size is not
computed modulo `2 ^ 64`: a block whose double is no `size_t` is not allocated. -/
def duplicar (l : Linea) : Linea :=
  if l.bytesLeidos + 1 ≥ l.maxBuffer then
    { l with maxBuffer := l.maxBuffer * 2, linea := realloc l.linea (l.maxBuffer * 2) }
  else l

/-- `linea[bytes_leidos++] = (char)char_actual` -/
def guardar (l : Linea) (charActual : UInt8) : Option Linea :=
  (write l.linea l.bytesLeidos charActual).map fun linea =>
    { l with linea := linea, bytesLeidos := l.bytesLeidos + 1 }

/-- The loop of `leer_linea`, over the characters that are left. -/
def leerCaracteres : List UInt8 → Linea → Option (Linea × Archivo)
  | [], l => some (l, ⟨[], true, fun _ => rfl⟩)
  | charActual :: resto, l =>
    if charActual ≠ NUEVA_LINEA then
      (guardar (duplicar l) charActual).bind (leerCaracteres resto)
    else some (duplicar l, ⟨resto, false, nofun⟩)

/-- What `leer_linea` returns: a null pointer or a block. -/
def devolver (l : Linea) : Option (Option (Block UInt8)) :=
  if l.bytesLeidos = 0 then some none else (write l.linea l.bytesLeidos 0).map some

/-- `leer_linea`, with a first block of `capacidad` bytes. -/
def leerLinea (capacidad : ℕ) (archivo : Archivo) : Option (Option (Block UInt8) × Archivo) := do
  let (l, archivo) ← leerCaracteres archivo.resto ⟨capacidad, 0, malloc capacidad⟩
  let linea ← devolver l
  return (linea, archivo)

/-- The characters before the first newline. -/
def primeraLinea (s : List UInt8) : List UInt8 := s.takeWhile (· ≠ NUEVA_LINEA)

/-- The characters after the first newline. -/
def trasPrimeraLinea (s : List UInt8) : List UInt8 := (s.dropWhile (· ≠ NUEVA_LINEA)).tail

/-- **A line is read exactly**: a null pointer if it is empty, else its characters and the
terminator; and the file goes on after its newline. -/
structure LineaExacta (s : List UInt8) (r : Option (Block UInt8) × Archivo) : Prop where
  nula : r.1 = none ↔ primeraLinea s = []
  contenido : ∀ linea ∈ r.1, Holds linea (primeraLinea s ++ [0])
  resto : r.2.resto = trasPrimeraLinea s
  feof : r.2.feof = true ↔ NUEVA_LINEA ∉ s

/-! ### One character -/

section Caracteres

variable {l : Linea} {xs s : List UInt8}

/-- The characters `xs` were read, and there is room for one more. -/
structure Linea.Tiene (l : Linea) (xs : List UInt8) : Prop where
  tamanio : l.linea.length = l.maxBuffer
  leidos : l.bytesLeidos = xs.length
  lugar : xs.length < l.maxBuffer
  contenido : Holds l.linea xs

/-- What was read stays where it is, and there is room for two more. -/
theorem Linea.Tiene.duplicar (h : l.Tiene xs) :
    (duplicar l).Tiene xs ∧ xs.length + 1 < (duplicar l).maxBuffer := by
  obtain ⟨htam, hleidos, hlugar, hcont⟩ := h
  unfold InstruccionProceso.duplicar
  split_ifs with hlleno
  · refine ⟨⟨length_realloc _ _, hleidos, ?_, hcont.realloc ?_⟩, ?_⟩
    · show xs.length < l.maxBuffer * 2
      omega
    · rw [htam]
      omega
    · show xs.length + 1 < l.maxBuffer * 2
      omega
  · exact ⟨⟨htam, hleidos, hlugar, hcont⟩, by omega⟩

/-- **One character**: with room for two more it is written, and there is room for one. -/
theorem Linea.Tiene.guardar (h : l.Tiene xs) (hlugar : xs.length + 1 < l.maxBuffer) (c : UInt8) :
    ∃ l', guardar l c = some l' ∧ l'.Tiene (xs ++ [c]) := by
  have hlt : xs.length < l.linea.length := by
    rw [h.tamanio]
    omega
  obtain ⟨m, hm, hlen, hholds⟩ := h.contenido.write hlt c
  refine ⟨{ l with linea := m, bytesLeidos := l.bytesLeidos + 1 }, ?_, ?_, ?_, ?_, hholds⟩
  · rw [InstruccionProceso.guardar, h.leidos, hm]
    rfl
  · exact hlen.trans h.tamanio
  · simp [h.leidos]
  · simpa using hlugar

end Caracteres

/-! ### A whole line -/

section Lineas

variable {l : Linea} {xs s : List UInt8} {capacidad : ℕ}

@[simp] theorem primeraLinea_cons_nueva (s : List UInt8) : primeraLinea (NUEVA_LINEA :: s) = [] := by
  simp [primeraLinea]

@[simp] theorem trasPrimeraLinea_cons_nueva (s : List UInt8) :
    trasPrimeraLinea (NUEVA_LINEA :: s) = s := by
  simp [trasPrimeraLinea]

theorem primeraLinea_append (h : NUEVA_LINEA ∉ xs) (s : List UInt8) :
    primeraLinea (xs ++ s) = xs ++ primeraLinea s :=
  List.takeWhile_append_of_pos fun _ hc => by simpa using ne_of_mem_of_not_mem hc h

theorem trasPrimeraLinea_append (h : NUEVA_LINEA ∉ xs) (s : List UInt8) :
    trasPrimeraLinea (xs ++ s) = trasPrimeraLinea s := by
  unfold trasPrimeraLinea
  rw [List.dropWhile_append_of_pos fun _ hc => by simpa using ne_of_mem_of_not_mem hc h]

theorem primeraLinea_cons {c : UInt8} (hc : c ≠ NUEVA_LINEA) (s : List UInt8) :
    primeraLinea (c :: s) = c :: primeraLinea s := by
  simp [primeraLinea, hc]

theorem trasPrimeraLinea_cons {c : UInt8} (hc : c ≠ NUEVA_LINEA) (s : List UInt8) :
    trasPrimeraLinea (c :: s) = trasPrimeraLinea s := by
  simp [trasPrimeraLinea, hc]

/-- **The loop** stops at the first newline or at the end of the file, with the characters before it. -/
theorem leerCaracteres_spec : ∀ (s : List UInt8) {l : Linea} {xs : List UInt8}, l.Tiene xs →
    ∃ l' archivo, leerCaracteres s l = some (l', archivo) ∧ l'.Tiene (xs ++ primeraLinea s) ∧
      archivo.resto = trasPrimeraLinea s ∧ (archivo.feof = true ↔ NUEVA_LINEA ∉ s)
  | [], l, xs, h => ⟨l, _, rfl, by simpa [primeraLinea] using h, rfl, by simp⟩
  | c :: s, l, xs, h => by
    obtain ⟨hdup, hlugar⟩ := h.duplicar
    unfold leerCaracteres
    split_ifs with hc
    · obtain ⟨l₁, h1, ht⟩ := hdup.guardar hlugar c
      obtain ⟨l', archivo, h2, ht', hresto, hfeof⟩ := leerCaracteres_spec s ht
      refine ⟨l', archivo, ?_, ?_, ?_, ?_⟩
      · rw [h1, Option.bind_some, h2]
      · rw [primeraLinea_cons hc]
        simpa using ht'
      · rw [hresto, trasPrimeraLinea_cons hc]
      · rw [hfeof, List.mem_cons, not_or]
        exact ⟨fun hs => ⟨Ne.symm hc, hs⟩, And.right⟩
    · obtain rfl := not_not.mp hc
      refine ⟨_, _, rfl, ?_, ?_, ?_⟩
      · simpa using hdup
      · simp
      · simp

/-- The terminator has room. -/
theorem Linea.Tiene.devolver (h : l.Tiene xs) : ∃ r, devolver l = some r ∧ (r = none ↔ xs = []) ∧
    ∀ linea ∈ r, Holds linea (xs ++ [0]) := by
  unfold InstruccionProceso.devolver
  rw [h.leidos]
  split_ifs with h0
  · exact ⟨none, rfl, by simpa using h0, nofun⟩
  · have hlt : xs.length < l.linea.length := by
      rw [h.tamanio]
      exact h.lugar
    obtain ⟨m, hm, -, hholds⟩ := h.contenido.write hlt 0
    refine ⟨some m, by rw [hm]; rfl, ?_, ?_⟩
    · simp only [reduceCtorEq, false_iff]
      exact fun hnil => h0 (by rw [hnil]; rfl)
    · intro linea hlinea
      obtain rfl := Option.some.inj hlinea
      exact hholds

theorem leerLinea_spec (hcap : 0 < capacidad) (archivo : Archivo) :
    ∃ r, leerLinea capacidad archivo = some r ∧ LineaExacta archivo.resto r := by
  have hinicio : Linea.Tiene ⟨capacidad, 0, malloc capacidad⟩ [] :=
    ⟨length_malloc _, rfl, hcap, holds_nil _⟩
  obtain ⟨l, archivo', h1, ht, hresto, hfeof⟩ := leerCaracteres_spec archivo.resto hinicio
  obtain ⟨linea, h2, hnula, hcont⟩ := ht.devolver
  refine ⟨(linea, archivo'), ?_, hnula, hcont, hresto, hfeof⟩
  unfold leerLinea
  simp only [h1, h2, Option.bind_eq_bind, Option.bind_some, Option.pure_def]

/-- **The buffer is exact.** Whatever the length of the line, no write is outside the block, and the
line is read exactly. -/
theorem leer_linea_exacta (hcap : 2 ≤ capacidad) (archivo : Archivo) :
    ∃ r, leerLinea capacidad archivo = some r ∧ LineaExacta archivo.resto r :=
  leerLinea_spec (by omega) archivo

/-- A line of three characters, to a block of two. -/
theorem leer_linea_exacta_duplicada :
    ∃ r, leerLinea 2 (abrir [83, 69, 84, 10, 87]) = some r ∧
      LineaExacta [83, 69, 84, 10, 87] r :=
  leer_linea_exacta le_rfl (abrir [83, 69, 84, 10, 87])

end Lineas

/-- The block of that line doubles again for the newline, which is not written. -/
example : (leerLinea 2 (abrir [83, 69, 84, 10, 87])).map (fun r => (r.1, r.2.resto)) =
    some (some ([83, 69, 84, 0].map some ++ [none, none, none, none]), [87]) := by
  decide

end OperatingSystem.Memoria.InstruccionProceso
