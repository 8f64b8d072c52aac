import OperatingSystem.Utils.Contexto

/-! # Instructions (`utils/src/model/instrucciones.c`)

An instruction is an operation and a list of parameters, with the length of the first, terminator
included, and the number of the others. The memory sends it with `serializar_instruccion`, every string
after its length and with its terminator, and the CPU reads it with `deserializar_instruccion`, which
follows the payload with an offset of its own.

The lengths and the size of the payload are an `int`. An instruction comes back as it was, with all
bytes read, exactly when its payload fits one (`instruccion_entera_iff`); this does not depend on
how many parameters it has or on whether some are empty. -/

namespace OperatingSystem.Utils.Instrucciones

open OperatingSystem.Lib.Bytes
open OperatingSystem.Lib.CInt (INT_MAX)
open OperatingSystem.Utils.Protocolo
open OperatingSystem.Utils.Contexto (Resta nombreDe)

/-- `t_instruccion` -/
structure Instruccion where
  largoOperacion : UInt32
  operacion : Cadena
  cantParametros : UInt32
  parametros : List Cadena
  deriving DecidableEq

/-- `strlen(str) + 1`, as an `int`. -/
def largoConTerminador (str : Cadena) : UInt32 := UInt32.ofNat (str.1.length + 1)

def crearInstruccion (operacion : Cadena) (parametros : List Cadena) : Instruccion where
  largoOperacion := largoConTerminador operacion
  operacion := operacion
  cantParametros := UInt32.ofNat parametros.length
  parametros := parametros

/-- The turns of `for (int j = 0; j < n; j++)`: none if `n` is negative. -/
def vueltas (n : UInt32) : ℕ := if n.toNat ≤ INT_MAX then n.toNat else 0

/-! ### Writing -/

/-- `largo` bytes of a string and its terminator; a negative `largo` is a huge size. -/
def copiarCadena (str : Cadena) (largo : UInt32) : Option (List UInt8) :=
  if largo.toNat ≤ INT_MAX then
    (memcpy (str.1 ++ [0]) 0 largo.toNat largo.toNat).map Subtype.val
  else none

/-- The length and the bytes of a parameter. -/
def partesParametro (param : Cadena) : Option (List (List UInt8)) :=
  (copiarCadena param (largoConTerminador param)).map fun bs => [bytes (largoConTerminador param), bs]

/-- The loop over the parameters; `list_get` past the end of the list is a null pointer. -/
def partesParametros : ℕ → List Cadena → Option (List (List UInt8))
  | 0, _ => some []
  | _ + 1, [] => none
  | k + 1, param :: params => do
    let parte ← partesParametro param
    let partes ← partesParametros k params
    return parte ++ partes

/-- What `serializar_instruccion` adds to the package. -/
def partes (instruccion : Instruccion) : Option (List (List UInt8)) := do
  let operacion ← copiarCadena instruccion.operacion instruccion.largoOperacion
  let parametros ← partesParametros (vueltas instruccion.cantParametros) instruccion.parametros
  return [bytes instruccion.largoOperacion, operacion, bytes instruccion.cantParametros] ++ parametros

def serializarInstruccion (paquete : Paquete) (instruccion : Instruccion) : Option Paquete :=
  (partes instruccion).bind fun partes => partes.foldlM agregarPayload paquete

/-! ### Reading -/

/-- The string at the beginning of a block of memory, if its terminator is in the block. -/
def cadena (bloque : List UInt8) : Option Cadena :=
  if 0 ∈ bloque then
    some ⟨bloque.takeWhile (· ≠ 0), fun h => by simpa using List.mem_takeWhile_imp h⟩
  else none

/-- `malloc` of `largo` bytes, and as many bytes of the payload. -/
def copiarBloque (payload : List UInt8) (offset : ℕ) (largo : UInt32) :
    Option {bs : List UInt8 // bs.length = largo.toNat} :=
  if largo.toNat ≤ INT_MAX then memcpy payload offset largo.toNat largo.toNat else none

/-- A length, as many bytes, and the string in them; and the offset after them. -/
def deserializarCadena (payload : List UInt8) (offset : ℕ) : Option (Cadena × ℕ) := do
  let largo ← leerEntero payload offset
  let bloque ← copiarBloque payload (offset + 4) largo
  let str ← cadena bloque.1
  return (str, offset + 4 + largo.toNat)

/-- The loop over the parameters. -/
def deserializarParametros (payload : List UInt8) : ℕ → ℕ → Option (List Cadena × ℕ)
  | 0, offset => some ([], offset)
  | k + 1, offset => do
    let (param, offset) ← deserializarCadena payload offset
    let (params, offset) ← deserializarParametros payload k offset
    return (param :: params, offset)

/-- `deserializar_instruccion`, with the offset that it ends with. -/
def deserializarInstruccion (payload : List UInt8) : Option (Instruccion × ℕ) := do
  let (operacion, offset) ← deserializarCadena payload 0
  let cantParams ← leerEntero payload offset
  let (params, offset) ← deserializarParametros payload (vueltas cantParams) (offset + 4)
  return (crearInstruccion operacion params, offset)

/-- **The instruction survives the wire**: the payload is built, and what is read from it is the
instruction, up to the last byte. -/
def IdaYVuelta (codigo : OpCode) (instruccion : Instruccion) : Prop :=
  ∃ p, serializarInstruccion (crearPaquete codigo) instruccion = some p ∧
    deserializarInstruccion p.buffer.payload = some (instruccion, p.buffer.payload.length)

/-- The bytes of the strings with their lengths. -/
def largoParametros (params : List Cadena) : ℕ := (params.map fun param => 5 + param.1.length).sum

/-- The bytes of an instruction. -/
def largoInstruccion (operacion : Cadena) (params : List Cadena) : ℕ :=
  9 + operacion.1.length + largoParametros params

theorem largoParametros_cons (param : Cadena) (params : List Cadena) :
    largoParametros (param :: params) = 5 + param.1.length + largoParametros params := by
  simp [largoParametros]

/-! ### What is read -/

section Lectura

variable {payload s : List UInt8} {offset offset' : ℕ} {str operacion : Cadena} {params : List Cadena}

theorem length_lt_of_cadena {bloque : List UInt8} (h : cadena bloque = some str) :
    str.1.length < bloque.length := by
  unfold cadena at h
  split_ifs at h with h0
  obtain rfl := Option.some.inj h
  have hlt : (bloque.takeWhile (· ≠ 0)).length ≠ bloque.length := fun he => by
    have heq := (List.takeWhile_prefix (fun x : UInt8 => decide (x ≠ 0))).eq_of_length he
    rw [← heq] at h0
    simpa using List.mem_takeWhile_imp h0
  exact lt_of_le_of_ne (List.takeWhile_prefix _).length_le hlt

/-- A string is read up to its terminator, whatever follows. -/
theorem cadena_terminada (str : Cadena) (s : List UInt8) : cadena (str.1 ++ 0 :: s) = some str := by
  unfold cadena
  rw [if_pos (by simp)]
  congr 1
  apply Subtype.ext
  change (str.1 ++ 0 :: s).takeWhile (· ≠ 0) = str.1
  have hstr : ∀ x ∈ str.1, decide (x ≠ 0) = true := fun x hx => by
    have hx0 : x ≠ 0 := fun h0 => str.2 (h0 ▸ hx)
    simpa using hx0
  rw [List.takeWhile_append_of_pos hstr]
  simp

/-- What is read of a string has at least its length, its bytes and its terminator. -/
theorem le_of_deserializarCadena (h : deserializarCadena payload offset = some (str, offset')) :
    offset + 5 + str.1.length ≤ offset' := by
  unfold deserializarCadena at h
  obtain ⟨largo, -, h⟩ := Option.bind_eq_some_iff.mp h
  obtain ⟨bloque, -, h⟩ := Option.bind_eq_some_iff.mp h
  obtain ⟨str', hstr, h⟩ := Option.bind_eq_some_iff.mp h
  obtain ⟨rfl, rfl⟩ := Prod.mk.inj (Option.some.inj h)
  have hlt := length_lt_of_cadena hstr
  rw [bloque.2] at hlt
  omega

theorem le_of_deserializarParametros {k : ℕ} : ∀ {offset : ℕ} {params : List Cadena},
    deserializarParametros payload k offset = some (params, offset') →
      offset + largoParametros params ≤ offset' := by
  induction k with
  | zero =>
    intro offset params h
    obtain ⟨rfl, rfl⟩ := Prod.mk.inj (Option.some.inj h)
    rfl
  | succ k ih =>
    intro offset params h
    unfold deserializarParametros at h
    obtain ⟨⟨param, o₁⟩, h1, h⟩ := Option.bind_eq_some_iff.mp h
    obtain ⟨⟨params', o₂⟩, h2, h⟩ := Option.bind_eq_some_iff.mp h
    obtain ⟨rfl, rfl⟩ := Prod.mk.inj (Option.some.inj h)
    have hparam := le_of_deserializarCadena h1
    have hparams := ih h2
    rw [largoParametros_cons]
    omega

/-- **What is read has the bytes of the instruction.** -/
theorem le_of_deserializarInstruccion
    (h : deserializarInstruccion payload = some (crearInstruccion operacion params, offset)) :
    largoInstruccion operacion params ≤ offset := by
  unfold deserializarInstruccion at h
  obtain ⟨⟨operacion', o₁⟩, h1, h⟩ := Option.bind_eq_some_iff.mp h
  obtain ⟨cant, -, h⟩ := Option.bind_eq_some_iff.mp h
  obtain ⟨⟨params', o₂⟩, h2, h⟩ := Option.bind_eq_some_iff.mp h
  obtain ⟨hi, rfl⟩ := Prod.mk.inj (Option.some.inj h)
  obtain rfl : operacion' = operacion := congrArg Instruccion.operacion hi
  obtain rfl : params' = params := congrArg Instruccion.parametros hi
  have hop := le_of_deserializarCadena h1
  have hparams := le_of_deserializarParametros h2
  unfold largoInstruccion
  omega

end Lectura

/-! ### Both ways -/

section IdaYVuelta

variable {payload s : List UInt8} {offset : ℕ} {str operacion : Cadena} {params : List Cadena}

/-- The length with the terminator is an `int`. -/
def Cabe (str : Cadena) : Prop := (str.1.length : ℤ) + 1 ≤ INT_MAX

theorem toNat_largoConTerminador (h : Cabe str) :
    (largoConTerminador str).toNat = str.1.length + 1 :=
  toNat_ofNat_of_le (by push_cast; exact h)

theorem vueltas_of_le {n : ℕ} (h : (n : ℤ) ≤ INT_MAX) : vueltas (UInt32.ofNat n) = n := by
  unfold vueltas
  rw [toNat_ofNat_of_le h, if_pos h]

/-- The bytes of a string with its length. -/
def conLargo (str : Cadena) : List UInt8 := bytes (largoConTerminador str) ++ (str.1 ++ [0])

theorem length_conLargo (str : Cadena) : (conLargo str).length = 5 + str.1.length := by
  simp [conLargo]
  omega

theorem copiarCadena_eq (h : Cabe str) :
    copiarCadena str (largoConTerminador str) = some (str.1 ++ [0]) := by
  unfold copiarCadena
  rw [toNat_largoConTerminador h, if_pos (by push_cast; exact h)]
  have hl : (str.1 ++ [0]).length = str.1.length + 1 := by simp
  have hm := memcpy_append_left (s := []) ⟨str.1 ++ [0], hl⟩ le_rfl
  rw [List.append_nil] at hm
  rw [hm]
  rfl

theorem memcpy_of_resta {xs : List UInt8} {n cap : ℕ} (hl : xs.length = n)
    (h : Resta payload offset (xs ++ s)) (hcap : n ≤ cap) :
    memcpy payload offset n cap = some ⟨xs, hl⟩ := by
  subst hl
  exact h.memcpy hcap

/-- A string is read, and the offset goes on. -/
theorem deserializarCadena_eq (h : Cabe str) (hr : Resta payload offset (conLargo str ++ s)) :
    ∃ offset', deserializarCadena payload offset = some (str, offset') ∧
      Resta payload offset' s := by
  have hr' : Resta payload offset (bytes (largoConTerminador str) ++ (str.1 ++ [0] ++ s)) := by
    simpa [conLargo] using hr
  obtain ⟨h0, h4⟩ := hr'.entero
  have hn := toNat_largoConTerminador h
  have hl : (str.1 ++ [0]).length = (largoConTerminador str).toNat := by
    rw [hn]
    simp
  have hb : copiarBloque payload (offset + 4) (largoConTerminador str) =
      some ⟨str.1 ++ [0], hl⟩ := by
    unfold copiarBloque
    rw [if_pos (by rw [hn]; push_cast; exact h), memcpy_of_resta hl h4 le_rfl]
  refine ⟨offset + 4 + (largoConTerminador str).toNat, ?_, by rw [← hl]; exact h4.avanza⟩
  unfold deserializarCadena
  simp only [h0, hb, cadena_terminada, Option.bind_eq_bind, Option.bind_some, Option.pure_def]

/-- The parameters are read in their order. -/
theorem deserializarParametros_eq (h : ∀ param ∈ params, Cabe param) : ∀ {offset : ℕ},
    Resta payload offset ((params.map conLargo).flatten ++ s) →
      ∃ offset', deserializarParametros payload params.length offset = some (params, offset') ∧
        Resta payload offset' s := by
  induction params with
  | nil => exact fun hr => ⟨_, rfl, hr⟩
  | cons param params ih =>
    intro offset hr
    rw [List.map_cons, List.flatten_cons, List.append_assoc] at hr
    obtain ⟨o₁, h1, hr⟩ := deserializarCadena_eq (h param (by simp)) hr
    obtain ⟨o₂, h2, hr⟩ := ih (fun p hp => h p (List.mem_cons_of_mem _ hp)) hr
    refine ⟨o₂, ?_, hr⟩
    rw [List.length_cons, deserializarParametros]
    simp only [h1, h2, Option.bind_eq_bind, Option.bind_some, Option.pure_def]

theorem partesParametros_eq (h : ∀ param ∈ params, Cabe param) :
    ∃ ps, partesParametros params.length params = some ps ∧
      ps.flatten = (params.map conLargo).flatten := by
  induction params with
  | nil => exact ⟨[], rfl, rfl⟩
  | cons param params ih =>
    obtain ⟨ps, hps, hf⟩ := ih fun p hp => h p (List.mem_cons_of_mem _ hp)
    refine ⟨[bytes (largoConTerminador param), param.1 ++ [0]] ++ ps, ?_, ?_⟩
    · rw [List.length_cons, partesParametros, partesParametro, copiarCadena_eq (h param (by simp))]
      simp only [hps, Option.map_some, Option.bind_eq_bind, Option.bind_some, Option.pure_def]
    · rw [List.flatten_append, hf]
      simp [conLargo]

theorem length_flatten_conLargo (params : List Cadena) :
    (params.map conLargo).flatten.length = largoParametros params := by
  induction params with
  | nil => rfl
  | cons param params ih =>
    rw [List.map_cons, List.flatten_cons, List.length_append, ih, length_conLargo,
      largoParametros_cons]

/-- The list and its strings are no longer than their bytes. -/
theorem le_largoParametros (params : List Cadena) : params.length ≤ largoParametros params ∧
    ∀ param ∈ params, param.1.length + 1 ≤ largoParametros params := by
  induction params with
  | nil => exact ⟨le_rfl, by simp⟩
  | cons param params ih =>
    obtain ⟨hl, hp⟩ := ih
    rw [largoParametros_cons, List.length_cons]
    refine ⟨by omega, fun p hm => ?_⟩
    rcases List.mem_cons.mp hm with rfl | hm
    · omega
    · have := hp p hm
      omega

/-- All counts of an instruction are an `int` if that of its bytes is. -/
theorem cabe_of_largo (h : (largoInstruccion operacion params : ℤ) ≤ INT_MAX) : Cabe operacion ∧
    (∀ param ∈ params, Cabe param) ∧ vueltas (UInt32.ofNat params.length) = params.length := by
  obtain ⟨hl, hp⟩ := le_largoParametros params
  unfold largoInstruccion at h
  refine ⟨?_, fun param hm => ?_, vueltas_of_le (by omega)⟩
  · unfold Cabe
    omega
  · have := hp param hm
    unfold Cabe
    omega

/-- The bytes of an instruction. -/
def payloadDe (operacion : Cadena) (params : List Cadena) : List UInt8 :=
  conLargo operacion ++ (bytes (UInt32.ofNat params.length) ++ (params.map conLargo).flatten)

theorem length_payloadDe (operacion : Cadena) (params : List Cadena) :
    (payloadDe operacion params).length = largoInstruccion operacion params := by
  rw [payloadDe, List.length_append, List.length_append, length_conLargo, length_bytes,
    length_flatten_conLargo, largoInstruccion]
  omega

theorem partes_eq (h : (largoInstruccion operacion params : ℤ) ≤ INT_MAX) :
    ∃ ps, partes (crearInstruccion operacion params) = some ps ∧
      ps.flatten = payloadDe operacion params := by
  obtain ⟨hop, hparams, hv⟩ := cabe_of_largo h
  obtain ⟨ps, hps, hf⟩ := partesParametros_eq hparams
  refine ⟨[bytes (largoConTerminador operacion), operacion.1 ++ [0],
    bytes (UInt32.ofNat params.length)] ++ ps, ?_, ?_⟩
  · unfold partes crearInstruccion
    simp only [copiarCadena_eq hop, hv, hps, Option.bind_eq_bind, Option.bind_some, Option.pure_def]
  · rw [List.flatten_append, hf]
    simp [payloadDe, conLargo]

/-- **What is read from the payload of an instruction.** -/
theorem deserializarInstruccion_eq (h : (largoInstruccion operacion params : ℤ) ≤ INT_MAX) :
    deserializarInstruccion (payloadDe operacion params) =
      some (crearInstruccion operacion params, largoInstruccion operacion params) := by
  obtain ⟨hop, hparams, hv⟩ := cabe_of_largo h
  obtain ⟨payload, hpayload⟩ : ∃ payload, payload = payloadDe operacion params := ⟨_, rfl⟩
  have hr : Resta payload 0 (conLargo operacion ++
      (bytes (UInt32.ofNat params.length) ++ ((params.map conLargo).flatten ++ []))) := by
    rw [List.append_nil, ← payloadDe, ← hpayload]
    exact Resta.inicio payload
  obtain ⟨o₁, h1, hr⟩ := deserializarCadena_eq hop hr
  obtain ⟨h2, hr⟩ := hr.entero
  obtain ⟨o₃, h3, hr⟩ := deserializarParametros_eq hparams hr
  have hfin : payload.length = o₃ := hr.length
  rw [← length_payloadDe, ← hpayload, hfin]
  unfold deserializarInstruccion
  simp only [h1, h2, hv, h3, Option.bind_eq_bind, Option.bind_some, Option.pure_def]

/-- What comes back was counted by an `int`. -/
theorem IdaYVuelta.cabe {codigo : OpCode}
    (h : IdaYVuelta codigo (crearInstruccion operacion params)) :
    (largoInstruccion operacion params : ℤ) ≤ INT_MAX := by
  obtain ⟨p, -, hd⟩ := h
  have hle := le_of_deserializarInstruccion hd
  have hmax := p.buffer.noNegativo
  rw [← p.buffer.largo] at hmax
  omega

/-- **Which instructions survive the wire**: those whose bytes are counted by an `int`, however many
parameters they have. -/
theorem instruccion_entera_iff (codigo : OpCode) (operacion : Cadena) (params : List Cadena) :
    IdaYVuelta codigo (crearInstruccion operacion params) ↔
      (largoInstruccion operacion params : ℤ) ≤ INT_MAX := by
  refine ⟨IdaYVuelta.cabe, fun h => ?_⟩
  obtain ⟨ps, hps, hf⟩ := partes_eq h
  have hlen : ps.flatten.length = largoInstruccion operacion params := by
    rw [hf, length_payloadDe]
  rcases armar_cases codigo ps with ⟨p, hp, -, hb, -⟩ | ⟨-, hno⟩
  · refine ⟨p, ?_, ?_⟩
    · rw [serializarInstruccion, hps, Option.bind_some]
      exact hp
    · rw [hb, hlen, hf]
      exact deserializarInstruccion_eq h
  · rw [hlen] at hno
    exact absurd h hno

/-- An operation of `INT_MAX` letters has no length that is an `int`. -/
theorem operacion_sin_lugar :
    ¬ IdaYVuelta .INSTRUCCIONES (crearInstruccion (nombreDe INT_MAX.toNat) []) := by
  intro h
  have hcabe := h.cabe
  have hl : (nombreDe INT_MAX.toNat).1.length = INT_MAX.toNat := List.length_replicate
  rw [largoInstruccion, hl] at hcabe
  exact absurd hcabe (by decide)

end IdaYVuelta

/-- An instruction with an empty parameter. -/
example : (serializarInstruccion (crearPaquete .INSTRUCCIONES)
    (crearInstruccion ⟨[87], by decide⟩ [⟨[], by decide⟩, ⟨[65, 88], by decide⟩])).bind
      (fun p => deserializarInstruccion p.buffer.payload) =
    some (crearInstruccion ⟨[87], by decide⟩ [⟨[], by decide⟩, ⟨[65, 88], by decide⟩], 22) := by
  decide +kernel

end OperatingSystem.Utils.Instrucciones
