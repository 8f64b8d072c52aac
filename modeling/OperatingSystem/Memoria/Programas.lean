import OperatingSystem.Memoria.InstruccionProceso

/-! # The instructions of a program (`memoria/src/instruccion_proceso.c`)

`obtener_instrucciones_de_archivo` reads the file line by line until `feof`, and makes an
instruction of the words of each line. It also stops at a null pointer, which `leer_linea` returns
for an empty line as for the end of the file: what comes after the first empty line is not read.

`string_split` is a parameter: of a line of words it gives the words. -/

namespace OperatingSystem.Memoria.Programas

open OperatingSystem.Lib.Cells
open OperatingSystem.Utils.Protocolo (Cadena)
open OperatingSystem.Utils.Instrucciones (Instruccion crearInstruccion cadena cadena_terminada)
open OperatingSystem.Memoria.InstruccionProceso

def BUFFER_SIZE : ℕ := 1024

/-- `' '` -/
def BLANCO : UInt8 := 32

/-! ### The loader -/

/-- The instruction of the words of a line; a null pointer has no copy. -/
def instruccionDe : List Cadena → Option Instruccion
  | [] => none
  | operacion :: parametros => some (crearInstruccion operacion parametros)

section Cargador

variable (stringSplit : Cadena → List Cadena)

/-- The instruction of a line that was read. -/
def instruccionDeLinea (linea : Block UInt8) : Option Instruccion :=
  (cadena (written linea)).bind fun str => instruccionDe (stringSplit str)

/-- The loop over the file, for at most so many turns. -/
def cargarLineas : ℕ → Archivo → List Instruccion → Option (List Instruccion)
  | 0, _, _ => none
  | k + 1, archivo, lista =>
    if archivo.feof then some lista
    else do
      let (lineaActual, archivo) ← leerLinea BUFFER_SIZE archivo
      match lineaActual with
      | none => some lista
      | some linea =>
        let instruccion ← instruccionDeLinea stringSplit linea
        cargarLineas k archivo (lista ++ [instruccion])

/-- `obtener_instrucciones_de_archivo`: every turn but the last one reads a character. -/
def obtenerInstruccionesDeArchivo (texto : List UInt8) : Option (List Instruccion) :=
  cargarLineas stringSplit (texto.length + 1) (abrir texto) []

end Cargador

/-! ### Program texts -/

/-- A word of a line: no terminator, newline or space is in it. -/
abbrev Palabra := {s : List UInt8 // s ≠ [] ∧ 0 ∉ s ∧ NUEVA_LINEA ∉ s ∧ BLANCO ∉ s}

def Palabra.cadena (palabra : Palabra) : Cadena := ⟨palabra.1, palabra.2.2.1⟩

/-- The words of a line with single spaces between them. -/
def unir (linea : List Palabra) : List UInt8 := [BLANCO].intercalate (linea.map Subtype.val)

/-- The lines with newlines between them: an empty list of words is an empty line, and a text that
ends in a newline has an empty last line. -/
def texto (lineas : List (List Palabra)) : List UInt8 := [NUEVA_LINEA].intercalate (lineas.map unir)

/-- What a line asks for: its first word, with the others as parameters. -/
def pedida : List Palabra → Option Instruccion
  | [] => none
  | operacion :: parametros =>
    some (crearInstruccion operacion.cadena (parametros.map Palabra.cadena))

section Textos

variable {linea : List Palabra} {lineas : List (List Palabra)}

theorem unir_cons (palabra otra : Palabra) (linea : List Palabra) :
    unir (palabra :: otra :: linea) = palabra.1 ++ BLANCO :: unir (otra :: linea) := by
  unfold unir
  rw [List.map_cons, List.map_cons, List.intercalate_cons_cons, List.append_assoc]
  rfl

theorem texto_cons (linea otra : List Palabra) (lineas : List (List Palabra)) :
    texto (linea :: otra :: lineas) = unir linea ++ NUEVA_LINEA :: texto (otra :: lineas) := by
  unfold texto
  rw [List.map_cons, List.map_cons, List.intercalate_cons_cons, List.append_assoc]
  rfl

theorem texto_singleton (linea : List Palabra) : texto [linea] = unir linea := by
  simp [texto]

/-- A character of a line is a space or in a word. -/
theorem mem_unir {c : UInt8} : ∀ {linea : List Palabra}, c ∈ unir linea →
    c = BLANCO ∨ ∃ palabra ∈ linea, c ∈ palabra.1
  | [], h => by simp [unir] at h
  | [palabra], h => by
    rw [unir, List.map_singleton, List.intercalate_singleton] at h
    exact Or.inr ⟨palabra, by simp, h⟩
  | palabra :: otra :: linea, h => by
    rw [unir_cons, List.mem_append, List.mem_cons] at h
    rcases h with h | h | h
    · exact Or.inr ⟨palabra, by simp, h⟩
    · exact Or.inl h
    · rcases mem_unir h with h | ⟨p, hp, hc⟩
      · exact Or.inl h
      · exact Or.inr ⟨p, List.mem_cons_of_mem _ hp, hc⟩

theorem cero_not_mem_unir (linea : List Palabra) : 0 ∉ unir linea := fun h => by
  rcases mem_unir h with h | ⟨palabra, -, h⟩
  · exact absurd h (by decide)
  · exact palabra.2.2.1 h

theorem nueva_not_mem_unir (linea : List Palabra) : NUEVA_LINEA ∉ unir linea := fun h => by
  rcases mem_unir h with h | ⟨palabra, -, h⟩
  · exact absurd h (by decide)
  · exact palabra.2.2.2.1 h

/-- The line as a string. -/
def cadenaDe (linea : List Palabra) : Cadena := ⟨unir linea, cero_not_mem_unir linea⟩

/-- Only the line without words is empty. -/
theorem unir_eq_nil : unir linea = [] ↔ linea = [] := by
  refine ⟨fun h => ?_, fun h => by simp [h, unir]⟩
  match linea, h with
  | [], _ => rfl
  | [palabra], h =>
    rw [unir, List.map_singleton, List.intercalate_singleton] at h
    exact absurd h palabra.2.1
  | palabra :: otra :: linea, h =>
    rw [unir_cons] at h
    simp at h

theorem primeraLinea_unir (linea : List Palabra) : primeraLinea (unir linea) = unir linea := by
  have h := primeraLinea_append (nueva_not_mem_unir linea) []
  rwa [List.append_nil, show primeraLinea [] = [] from rfl, List.append_nil] at h

theorem primeraLinea_unir_append (linea : List Palabra) (s : List UInt8) :
    primeraLinea (unir linea ++ NUEVA_LINEA :: s) = unir linea := by
  rw [primeraLinea_append (nueva_not_mem_unir linea), primeraLinea_cons_nueva, List.append_nil]

theorem trasPrimeraLinea_unir_append (linea : List Palabra) (s : List UInt8) :
    trasPrimeraLinea (unir linea ++ NUEVA_LINEA :: s) = s := by
  rw [trasPrimeraLinea_append (nueva_not_mem_unir linea), trasPrimeraLinea_cons_nueva]

end Textos

/-! ### What is loaded -/

/-- `string_split(linea, " ")` gives the words of a line. -/
def SeparaPalabras (stringSplit : Cadena → List Cadena) : Prop :=
  ∀ linea : List Palabra, linea ≠ [] → stringSplit (cadenaDe linea) = linea.map Palabra.cadena

/-- What the loader gives: the instructions of the lines before the first empty one. -/
def cargadas (lineas : List (List Palabra)) : List Instruccion :=
  (lineas.takeWhile (· ≠ [])).filterMap pedida

section Carga

variable {stringSplit : Cadena → List Cadena} {linea : List Palabra} {lineas : List (List Palabra)}
  {archivo : Archivo}

theorem pedida_eq_none : pedida linea = none ↔ linea = [] := by
  cases linea <;> simp [pedida]

theorem ne_nil_of_pedida {i : Instruccion} (hi : pedida linea = some i) : linea ≠ [] := fun hnil => by
  rw [pedida_eq_none.mpr hnil] at hi
  cases hi

@[simp] theorem cargadas_nil_cons (lineas : List (List Palabra)) : cargadas ([] :: lineas) = [] := rfl

theorem cargadas_cons {i : Instruccion} (hi : pedida linea = some i) (lineas : List (List Palabra)) :
    cargadas (linea :: lineas) = i :: cargadas lineas := by
  simp [cargadas, ne_nil_of_pedida hi, hi]

/-- The instruction of a block that begins with the line and its terminator. -/
theorem instruccionDeLinea_eq (hsplit : SeparaPalabras stringSplit) (hne : linea ≠ [])
    {bloque : Block UInt8} (h : Holds bloque (unir linea ++ [0])) :
    instruccionDeLinea stringSplit bloque = pedida linea := by
  obtain ⟨s, hs⟩ := h.written
  have hcad : cadena (written bloque) = some (cadenaDe linea) := by
    rw [← hs, List.append_assoc]
    exact cadena_terminada (cadenaDe linea) s
  rw [instruccionDeLinea, hcad, Option.bind_some, hsplit linea hne]
  cases linea with
  | nil => exact absurd rfl hne
  | cons operacion parametros => rfl

/-- **One turn**: a line with words is loaded, an empty one ends the loop. -/
theorem cargarLineas_turno (hsplit : SeparaPalabras stringSplit) (hfeof : archivo.feof = false)
    (hlinea : primeraLinea archivo.resto = unir linea) : ∃ archivo' : Archivo,
      archivo'.resto = trasPrimeraLinea archivo.resto ∧
      (archivo'.feof = true ↔ NUEVA_LINEA ∉ archivo.resto) ∧
      ∀ k lista, cargarLineas stringSplit (k + 1) archivo lista =
        (pedida linea).elim (some lista) fun i =>
          cargarLineas stringSplit k archivo' (lista ++ [i]) := by
  obtain ⟨⟨leida, archivo'⟩, hleer, hnula, hcont, hresto, hfin⟩ :=
    leerLinea_spec (show 0 < BUFFER_SIZE by decide) archivo
  rw [hlinea, unir_eq_nil] at hnula
  rw [hlinea] at hcont
  refine ⟨archivo', hresto, hfin, fun k lista => ?_⟩
  rw [cargarLineas, hfeof, hleer]
  cases leida with
  | none =>
    obtain rfl := hnula.mp rfl
    rfl
  | some bloque =>
    have hne : linea ≠ [] := fun h => by simpa using hnula.mpr h
    have hi := instruccionDeLinea_eq hsplit hne (hcont bloque rfl)
    obtain ⟨operacion, parametros, rfl⟩ := List.exists_cons_of_ne_nil hne
    simp only [hi, pedida, Option.bind_eq_bind, Option.bind_some, Option.elim_some,
      Bool.false_eq_true, if_false]

/-- The last turn: the file ended. -/
theorem cargarLineas_fin {k : ℕ} (hk : 0 < k) (hfeof : archivo.feof = true) (lista : List Instruccion) :
    cargarLineas stringSplit k archivo lista = some lista := by
  obtain ⟨k, rfl⟩ := Nat.exists_eq_add_of_lt hk
  rw [Nat.zero_add, cargarLineas, if_pos hfeof]

/-- **A whole file**, with a turn for every character and one more. -/
theorem cargarLineas_eq (hsplit : SeparaPalabras stringSplit) :
    ∀ (lineas : List (List Palabra)) {archivo : Archivo} {k : ℕ} {lista : List Instruccion},
      archivo.resto = texto lineas → archivo.feof = false → (texto lineas).length < k →
        cargarLineas stringSplit k archivo lista = some (lista ++ cargadas lineas)
  | [], archivo, k + 1, lista, hresto, hfeof, _ => by
    have hlinea : primeraLinea archivo.resto = unir [] := by rw [hresto]; rfl
    obtain ⟨_, -, -, hturno⟩ := cargarLineas_turno hsplit hfeof hlinea
    rw [hturno, cargadas, List.takeWhile_nil, List.filterMap_nil, List.append_nil]
    rfl
  | [linea], archivo, k + 1, lista, hresto, hfeof, hk => by
    rw [texto_singleton] at hresto hk
    have hlinea : primeraLinea archivo.resto = unir linea := by rw [hresto, primeraLinea_unir]
    obtain ⟨archivo', -, hfin, hturno⟩ := cargarLineas_turno hsplit hfeof hlinea
    rw [hturno]
    cases hi : pedida linea with
    | none =>
      rw [pedida_eq_none.mp hi, cargadas_nil_cons, List.append_nil]
      rfl
    | some i =>
      have hpos : 0 < (unir linea).length :=
        List.length_pos_iff.mpr (mt unir_eq_nil.mp (ne_nil_of_pedida hi))
      have hfeof' : archivo'.feof = true := by
        rw [hfin, hresto]
        exact nueva_not_mem_unir linea
      rw [Option.elim_some, cargarLineas_fin (by omega) hfeof', cargadas_cons hi]
      rfl
  | linea :: otra :: lineas, archivo, k + 1, lista, hresto, hfeof, hk => by
    rw [texto_cons] at hresto hk
    have hlinea : primeraLinea archivo.resto = unir linea := by
      rw [hresto, primeraLinea_unir_append]
    obtain ⟨archivo', hresto', hfin, hturno⟩ := cargarLineas_turno hsplit hfeof hlinea
    rw [hturno]
    cases hi : pedida linea with
    | none =>
      rw [pedida_eq_none.mp hi, cargadas_nil_cons, List.append_nil]
      rfl
    | some i =>
      have hfeof' : archivo'.feof = false := by
        rw [← Bool.not_eq_true, hfin, hresto]
        simp
      rw [hresto, trasPrimeraLinea_unir_append] at hresto'
      rw [List.length_append, List.length_cons] at hk
      rw [Option.elim_some, cargarLineas_eq hsplit (otra :: lineas) hresto' hfeof' (by omega),
        cargadas_cons hi, List.append_assoc]
      rfl

theorem obtenerInstruccionesDeArchivo_eq (hsplit : SeparaPalabras stringSplit)
    (lineas : List (List Palabra)) :
    obtenerInstruccionesDeArchivo stringSplit (texto lineas) = some (cargadas lineas) := by
  have h : cargarLineas stringSplit ((texto lineas).length + 1) (abrir (texto lineas)) [] =
      some ([] ++ cargadas lineas) :=
    cargarLineas_eq hsplit lineas rfl rfl (Nat.lt_succ_self _)
  rwa [List.nil_append] at h

end Carga

/-! ### No instruction is dropped -/

section Completa

variable {stringSplit : Cadena → List Cadena} {lineas : List (List Palabra)}

/-- **The whole program is loaded**: an instruction for every line that is not empty, in their order. -/
def CargaCompleta (stringSplit : Cadena → List Cadena) (lineas : List (List Palabra)) : Prop :=
  obtenerInstruccionesDeArchivo stringSplit (texto lineas) = some (lineas.filterMap pedida)

/-- No empty line is before a line with words. -/
def SinHuecos (lineas : List (List Palabra)) : Prop :=
  lineas.Pairwise fun linea otra => linea = [] → otra = []

instance (lineas : List (List Palabra)) : Decidable (SinHuecos lineas) :=
  inferInstanceAs (Decidable (lineas.Pairwise _))

theorem filterMap_pedida_eq_nil : lineas.filterMap pedida = [] ↔ ∀ linea ∈ lineas, linea = [] := by
  simp only [List.filterMap_eq_nil_iff, pedida_eq_none]

/-- The lines before the first empty one are all lines with words exactly if none comes after it. -/
theorem cargadas_eq_iff : cargadas lineas = lineas.filterMap pedida ↔ SinHuecos lineas := by
  induction lineas with
  | nil => simp [cargadas, SinHuecos]
  | cons linea lineas ih =>
    unfold SinHuecos at ih ⊢
    rw [List.pairwise_cons]
    cases hi : pedida linea with
    | none =>
      obtain rfl := pedida_eq_none.mp hi
      rw [cargadas_nil_cons, List.filterMap_cons_none hi, eq_comm, filterMap_pedida_eq_nil]
      refine ⟨fun h => ⟨fun otra ho _ => h otra ho, ?_⟩, fun h otra ho => h.1 otra ho rfl⟩
      exact List.pairwise_of_forall_mem_list fun _ _ otra ho _ => h otra ho
    | some i =>
      rw [cargadas_cons hi, List.filterMap_cons_some hi, List.cons_inj_right, ih]
      exact ⟨fun h => ⟨fun _ _ hnil => absurd hnil (ne_nil_of_pedida hi), h⟩, And.right⟩

/-- **Which programs are loaded whole**: those without an empty line before a line with words. -/
theorem carga_completa_iff (hsplit : SeparaPalabras stringSplit) (lineas : List (List Palabra)) :
    CargaCompleta stringSplit lineas ↔ SinHuecos lineas := by
  unfold CargaCompleta
  rw [obtenerInstruccionesDeArchivo_eq hsplit, Option.some_inj, cargadas_eq_iff]

/-- The parts of a string between its spaces. -/
def separar (str : Cadena) : List Cadena :=
  (str.1.splitOn BLANCO).filterMap fun parte => if h : 0 ∉ parte then some ⟨parte, h⟩ else none

theorem separar_palabras : SeparaPalabras separar := fun linea hne => by
  have hsin : ∀ parte ∈ linea.map Subtype.val, BLANCO ∉ parte := fun parte hp => by
    obtain ⟨palabra, -, rfl⟩ := List.mem_map.mp hp
    exact palabra.2.2.2.2
  have hpartes : (cadenaDe linea).1.splitOn BLANCO = linea.map Subtype.val :=
    List.splitOn_intercalate BLANCO hsin (mt List.map_eq_nil_iff.mp hne)
  rw [separar, hpartes, List.filterMap_map]
  have hcad : ∀ palabra : Palabra, ((fun parte => if h : 0 ∉ parte then some (⟨parte, h⟩ : Cadena)
      else none) ∘ Subtype.val) palabra = some palabra.cadena := fun palabra =>
    dif_pos palabra.2.2.1
  rw [List.filterMap_congr fun palabra _ => hcad palabra, ← List.filterMap_eq_map]
  rfl

/-- `SET AX` -/
def setAX : List Palabra := [⟨[83, 69, 84], by decide⟩, ⟨[65, 88], by decide⟩]

/-- `EXIT` -/
def exit : List Palabra := [⟨[69, 88, 73, 84], by decide⟩]

/-- A program that ends in empty lines. -/
theorem carga_completa_setAX : CargaCompleta separar [setAX, exit, [], []] :=
  (carga_completa_iff separar_palabras [setAX, exit, [], []]).mpr (by decide)

/-- With an empty line before `EXIT`, only `SET AX` is loaded. -/
theorem exit_no_cargada : SeparaPalabras separar ∧
    obtenerInstruccionesDeArchivo separar (texto [setAX, [], exit]) =
      some [crearInstruccion ⟨[83, 69, 84], by decide⟩ [⟨[65, 88], by decide⟩]] ∧
    ¬ CargaCompleta separar [setAX, [], exit] := by
  have hcarga := obtenerInstruccionesDeArchivo_eq separar_palabras [setAX, [], exit]
  refine ⟨separar_palabras, hcarga, fun h => ?_⟩
  rw [CargaCompleta, hcarga, Option.some_inj, cargadas_eq_iff] at h
  exact absurd h (by decide)

end Completa

end OperatingSystem.Memoria.Programas
