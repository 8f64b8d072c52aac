import OperatingSystem.Utils.Protocolo

/-! # The execution context (`utils/src/model/contexto-ejecucion.c`)

The kernel and the CPU send each other the context of the process with `serialize_execution_context`
and read it with `deserialize_execution_context`, which follows the payload with an offset of its own.
Two of its parts are strings, of any length, that may be absent: then the length is `0` and no byte
follows. So an empty string arrives as an absent one.

A context comes back as it was exactly when none of its strings is empty and the package, whose sizes
are an `int`, has room for both (`idaYVuelta_iff`). -/

namespace OperatingSystem.Utils.Contexto

open OperatingSystem.Lib.Bytes
open OperatingSystem.Lib.CInt (INT_MAX)
open OperatingSystem.Utils.Protocolo

/-! ### The context -/

/-- `t_registros` -/
structure Registros where
  ax : UInt32
  bx : UInt32
  cx : UInt32
  dx : UInt32
  deriving DecidableEq

/-- `t_exec_context`, without the list of instructions, which is not sent. Every integer is the four
bytes of an `int` or of an enumeration; `none` is a null pointer. -/
structure ExecContext where
  pid : UInt32
  programCounter : UInt32
  cpuRegistries : Registros
  blockTime : UInt32
  resourceName : Option Cadena
  pageFaultNro : UInt32
  interruptMotive : UInt32
  nombreArchivo : Option Cadena
  modoApertura : UInt32
  punteroArchivo : UInt32
  dirFisica : UInt32
  tamanioArchivo : UInt32
  deriving DecidableEq

/-! ### Writing -/

/-- The length and the characters of a string, or a `0`. -/
def serializarNombre : Option Cadena → List (List UInt8)
  | some nombre => [bytes (UInt32.ofNat nombre.1.length), nombre.1]
  | none => [bytes 0]

def serializarRegistros (reg : Registros) : List (List UInt8) :=
  [bytes reg.ax, bytes reg.bx, bytes reg.cx, bytes reg.dx]

/-- What `serialize_execution_context` adds to the package. -/
def partes (ctx : ExecContext) : List (List UInt8) :=
  [bytes ctx.pid, bytes ctx.programCounter, bytes ctx.blockTime, bytes ctx.pageFaultNro] ++
    serializarNombre ctx.resourceName ++ serializarRegistros ctx.cpuRegistries ++
    serializarNombre ctx.nombreArchivo ++
    [bytes ctx.modoApertura, bytes ctx.punteroArchivo, bytes ctx.dirFisica, bytes ctx.tamanioArchivo,
      bytes ctx.interruptMotive]

/-- The package with the context, and its bytes. -/
def serializeExecutionContext (packet : Paquete) (ctx : ExecContext) : Option (Paquete × List UInt8) :=
  ((partes ctx).foldlM agregarPayload packet).bind fun packet =>
    (serializarPaquete packet).map fun data => (packet, data)

/-! ### Reading -/

/-- A string and the offset after it. -/
def deserializarNombre (payload : List UInt8) (offset : ℕ) : Option (Option Cadena × ℕ) :=
  (leerEntero payload offset).bind fun len =>
    if 0 < len.toNat ∧ len.toNat ≤ INT_MAX then
      (memcpy payload (offset + 4) len.toNat (len.toNat + 1)).bind fun bloque =>
        (terminar bloque.1 len.toNat (len.toNat + 1)).map fun nombre =>
          (some nombre, offset + 4 + len.toNat)
    else some (none, offset + 4)

def deserializarRegistros (payload : List UInt8) (offset : ℕ) : Option (Registros × ℕ) :=
  (leerEntero payload offset).bind fun ax =>
    (leerEntero payload (offset + 4)).bind fun bx =>
      (leerEntero payload (offset + 8)).bind fun cx =>
        (leerEntero payload (offset + 12)).map fun dx => (⟨ax, bx, cx, dx⟩, offset + 16)

/-- `deserialize_execution_context`, with the offset that it ends with. -/
def deserializeExecutionContext (payload : List UInt8) : Option (ExecContext × ℕ) := do
  let pid ← leerEntero payload 0
  let programCounter ← leerEntero payload 4
  let blockTime ← leerEntero payload 8
  let pageFaultNro ← leerEntero payload 12
  let (resourceName, offset) ← deserializarNombre payload 16
  let (cpuRegistries, offset) ← deserializarRegistros payload offset
  let (nombreArchivo, offset) ← deserializarNombre payload offset
  let modoApertura ← leerEntero payload offset
  let punteroArchivo ← leerEntero payload (offset + 4)
  let dirFisica ← leerEntero payload (offset + 8)
  let tamanioArchivo ← leerEntero payload (offset + 12)
  let interruptMotive ← leerEntero payload (offset + 16)
  return ({ pid, programCounter, cpuRegistries, blockTime, resourceName, pageFaultNro,
            interruptMotive, nombreArchivo, modoApertura, punteroArchivo, dirFisica,
            tamanioArchivo }, offset + 20)

/-- **The context survives the wire**: the payload is built, and what is read from it is the context,
up to the last byte. -/
def IdaYVuelta (codigo : OpCode) (ctx : ExecContext) : Prop :=
  ∃ r, serializeExecutionContext (crearPaquete codigo) ctx = some r ∧
    deserializeExecutionContext r.1.buffer.payload = some (ctx, r.1.buffer.payload.length)

def largoNombre : Option Cadena → ℕ
  | some nombre => nombre.1.length
  | none => 0

/-- An empty string is read as a null pointer. -/
def leido : Option Cadena → Option Cadena
  | some nombre => if nombre.1 = [] then none else some nombre
  | none => none

def ExecContext.leido (ctx : ExecContext) : ExecContext :=
  { ctx with
    resourceName := Contexto.leido ctx.resourceName
    nombreArchivo := Contexto.leido ctx.nombreArchivo }

/-! ### What is left of the payload -/

/-- From the offset on, the payload is `s`. -/
def Resta (payload : List UInt8) (offset : ℕ) (s : List UInt8) : Prop :=
  offset ≤ payload.length ∧ payload.drop offset = s

section Lectura

variable {payload s : List UInt8} {offset : ℕ}

theorem Resta.inicio (payload : List UInt8) : Resta payload 0 payload := ⟨Nat.zero_le _, rfl⟩

theorem Resta.length (h : Resta payload offset s) : payload.length = offset + s.length := by
  rw [← h.2, List.length_drop]
  have := h.1
  omega

theorem Resta.avanza {xs : List UInt8} (h : Resta payload offset (xs ++ s)) :
    Resta payload (offset + xs.length) s := by
  refine ⟨?_, ?_⟩
  · rw [h.length, List.length_append]
    omega
  · rw [← List.drop_drop, h.2, List.drop_left]

theorem Resta.memcpy {xs : List UInt8} (h : Resta payload offset (xs ++ s)) {cap : ℕ}
    (hcap : xs.length ≤ cap) : memcpy payload offset xs.length cap = some ⟨xs, rfl⟩ := by
  have hl := h.length
  rw [List.length_append] at hl
  unfold Protocolo.memcpy
  rw [dif_pos ⟨by omega, hcap⟩]
  congr 1
  apply Subtype.ext
  change (payload.drop offset).take xs.length = xs
  rw [h.2, List.take_left]

/-- An `int` is read, and the offset goes on. -/
theorem Resta.entero {v : UInt32} (h : Resta payload offset (bytes v ++ s)) :
    leerEntero payload offset = some v ∧ Resta payload (offset + 4) s := by
  refine ⟨?_, h.avanza⟩
  have h0 : leerEntero (bytes v ++ s) 0 = some v := leerEntero_bytes v s
  have hm : Protocolo.memcpy payload offset 4 4 = some ⟨bytes v, rfl⟩ :=
    h.memcpy (length_bytes v).le
  unfold leerEntero at h0 ⊢
  rw [hm, ← h0, memcpy_append_left (n := 4) ⟨bytes v, rfl⟩ le_rfl]

/-- A string is read, and the offset goes on. -/
theorem Resta.nombre {nombre : Option Cadena} (hl : largoNombre nombre ≤ INT_MAX)
    (h : Resta payload offset ((serializarNombre nombre).flatten ++ s)) :
    ∃ offset', deserializarNombre payload offset = some (leido nombre, offset') ∧
      Resta payload offset' s := by
  unfold deserializarNombre
  cases nombre with
  | none =>
    obtain ⟨h0, h4⟩ := Resta.entero (v := 0) (s := s) h
    rw [h0, Option.bind_some, if_neg (by decide)]
    exact ⟨_, rfl, h4⟩
  | some nombre =>
    have hn : (UInt32.ofNat nombre.1.length).toNat = nombre.1.length := toNat_ofNat_of_le hl
    have h' : Resta payload offset (bytes (UInt32.ofNat nombre.1.length) ++ (nombre.1 ++ s)) := by
      simpa [serializarNombre] using h
    obtain ⟨h0, h4⟩ := h'.entero
    rw [h0, Option.bind_some, hn]
    by_cases hvacio : nombre.1 = []
    · rw [hvacio] at h4 ⊢
      rw [List.length_nil, if_neg (by omega)]
      refine ⟨_, ?_, h4⟩
      rw [leido, if_pos hvacio]
    · rw [if_pos ⟨List.length_pos_iff.mpr hvacio, hl⟩, h4.memcpy (Nat.le_succ _), Option.bind_some,
        terminar_of_lt nombre (Nat.lt_succ_self _), leido, if_neg hvacio]
      exact ⟨_, rfl, h4.avanza⟩

theorem Resta.registros {reg : Registros}
    (h : Resta payload offset ((serializarRegistros reg).flatten ++ s)) :
    deserializarRegistros payload offset = some (reg, offset + 16) ∧
      Resta payload (offset + 16) s := by
  have h' : Resta payload offset
      (bytes reg.ax ++ (bytes reg.bx ++ (bytes reg.cx ++ (bytes reg.dx ++ s)))) := by
    simpa [serializarRegistros] using h
  obtain ⟨hax, h'⟩ := h'.entero
  obtain ⟨hbx, h'⟩ := h'.entero
  obtain ⟨hcx, h'⟩ := h'.entero
  obtain ⟨hdx, h'⟩ := h'.entero
  refine ⟨?_, h'⟩
  unfold deserializarRegistros
  rw [hax, Option.bind_some, hbx, Option.bind_some, hcx, Option.bind_some, hdx, Option.map_some]

end Lectura

/-! ### Both ways -/

theorem length_serializarNombre (nombre : Option Cadena) :
    (serializarNombre nombre).flatten.length = 4 + largoNombre nombre := by
  cases nombre with
  | none => rfl
  | some nombre => simp [serializarNombre, largoNombre]

/-- Fifteen integers and the strings. -/
theorem length_partes (ctx : ExecContext) : (partes ctx).flatten.length =
    60 + largoNombre ctx.resourceName + largoNombre ctx.nombreArchivo := by
  unfold partes
  simp only [List.flatten_append, List.length_append, length_serializarNombre]
  simp [serializarRegistros]
  omega

/-- **What is read from the payload of a context.** -/
theorem deserialize_partes (ctx : ExecContext)
    (hr : largoNombre ctx.resourceName ≤ INT_MAX) (hn : largoNombre ctx.nombreArchivo ≤ INT_MAX) :
    deserializeExecutionContext (partes ctx).flatten =
      some (ctx.leido, (partes ctx).flatten.length) := by
  obtain ⟨payload, hp⟩ : ∃ payload, payload = (partes ctx).flatten := ⟨_, rfl⟩
  have h : Resta payload 0 (bytes ctx.pid ++ (bytes ctx.programCounter ++ (bytes ctx.blockTime ++
      (bytes ctx.pageFaultNro ++ ((serializarNombre ctx.resourceName).flatten ++
      ((serializarRegistros ctx.cpuRegistries).flatten ++
      ((serializarNombre ctx.nombreArchivo).flatten ++ (bytes ctx.modoApertura ++
      (bytes ctx.punteroArchivo ++ (bytes ctx.dirFisica ++ (bytes ctx.tamanioArchivo ++
      (bytes ctx.interruptMotive ++ [])))))))))))) := by
    refine ⟨Nat.zero_le _, ?_⟩
    rw [hp, List.drop_zero]
    simp [partes]
  rw [← hp]
  obtain ⟨hpid, h⟩ := h.entero
  obtain ⟨hpc, h⟩ := h.entero
  obtain ⟨hblock, h⟩ := h.entero
  obtain ⟨hpage, h⟩ := h.entero
  obtain ⟨o₁, hres, h⟩ := h.nombre hr
  obtain ⟨hreg, h⟩ := h.registros
  obtain ⟨o₂, hnom, h⟩ := h.nombre hn
  obtain ⟨hmodo, h⟩ := h.entero
  obtain ⟨hpunt, h⟩ := h.entero
  obtain ⟨hdir, h⟩ := h.entero
  obtain ⟨htam, h⟩ := h.entero
  obtain ⟨hint, h⟩ := h.entero
  have hfin : payload.length = o₂ + 20 := h.length
  unfold deserializeExecutionContext
  simp only [Nat.zero_add] at hpc hblock hpage hres
  simp only [hpid, hpc, hblock, hpage, hres, hreg, hnom, hmodo, hpunt, hdir, htam, hint,
    Option.bind_eq_bind, Option.bind_some, Option.pure_def]
  rw [hfin]
  rfl

/-- The package of a context, if its size and that of its bytes are an `int`. -/
theorem serialize_cases (codigo : OpCode) (ctx : ExecContext) :
    (∃ r, serializeExecutionContext (crearPaquete codigo) ctx = some r ∧
        r.1.buffer.payload = (partes ctx).flatten ∧
        ((partes ctx).flatten.length : ℤ) + 8 ≤ INT_MAX) ∨
      serializeExecutionContext (crearPaquete codigo) ctx = none ∧
        ¬ ((partes ctx).flatten.length : ℤ) + 8 ≤ INT_MAX := by
  unfold serializeExecutionContext
  change (∃ r, (armar codigo (partes ctx)).bind _ = some r ∧ _) ∨
    (armar codigo (partes ctx)).bind _ = none ∧ _
  rcases armar_cases codigo (partes ctx) with ⟨p, hp, -, hb, hl⟩ | ⟨hp, hl⟩
  · have ht : p.buffer.tamanio.toNat = (partes ctx).flatten.length := by
      rw [← p.buffer.largo, hb]
    rw [hp, Option.bind_some, serializarPaquete, ht]
    split_ifs with h8
    · exact Or.inl ⟨_, rfl, hb, h8⟩
    · exact Or.inr ⟨rfl, h8⟩
  · rw [hp]
    exact Or.inr ⟨rfl, by omega⟩

/-- Without room for the strings there is no package. -/
theorem IdaYVuelta.cabe {codigo : OpCode} {ctx : ExecContext} (h : IdaYVuelta codigo ctx) :
    68 + (largoNombre ctx.resourceName : ℤ) + largoNombre ctx.nombreArchivo ≤ INT_MAX := by
  obtain ⟨r, hr, -⟩ := h
  rcases serialize_cases codigo ctx with ⟨-, -, -, hl⟩ | ⟨hnone, -⟩
  · rw [length_partes] at hl
    push_cast at hl
    omega
  · rw [hnone] at hr
    cases hr

theorem leido_eq_iff {nombre : Option Cadena} :
    leido nombre = nombre ↔ ∀ n ∈ nombre, n.1 ≠ [] := by
  cases nombre with
  | none => simp [leido]
  | some n =>
    simp only [leido]
    split_ifs with h <;> simp [h]

/-- **Which contexts survive the wire**: those whose strings are not empty and leave room for the other
`60` bytes and for the header. -/
theorem idaYVuelta_iff (codigo : OpCode) (ctx : ExecContext) : IdaYVuelta codigo ctx ↔
    (∀ n ∈ ctx.resourceName, n.1 ≠ []) ∧ (∀ n ∈ ctx.nombreArchivo, n.1 ≠ []) ∧
      68 + (largoNombre ctx.resourceName : ℤ) + largoNombre ctx.nombreArchivo ≤ INT_MAX := by
  rw [← leido_eq_iff, ← leido_eq_iff]
  constructor
  · intro h
    have hcabe := h.cabe
    obtain ⟨r, hr, hd⟩ := h
    rcases serialize_cases codigo ctx with ⟨r', hr', hb, -⟩ | ⟨hnone, -⟩
    · obtain rfl := Option.some.inj (hr.symm.trans hr')
      rw [hb, deserialize_partes ctx (by omega) (by omega)] at hd
      have hctx := (Prod.mk.inj (Option.some.inj hd)).1
      exact ⟨congrArg ExecContext.resourceName hctx, congrArg ExecContext.nombreArchivo hctx, hcabe⟩
    · rw [hnone] at hr
      cases hr
  · rintro ⟨hres, hnom, hcabe⟩
    rcases serialize_cases codigo ctx with ⟨r, hr, hb, -⟩ | ⟨-, hl⟩
    · refine ⟨r, hr, ?_⟩
      rw [hb, deserialize_partes ctx (by omega) (by omega), ExecContext.leido, hres, hnom]
    · rw [length_partes] at hl
      push_cast at hl
      omega

/-- A name of `n` letters. -/
def nombreDe (n : ℕ) : Cadena :=
  ⟨List.replicate n 97, fun h => absurd (List.eq_of_mem_replicate h) (by decide)⟩

/-- A name alone has no room if its length is close to the bound. -/
theorem no_idaYVuelta_nombreDe {codigo : OpCode} {ctx : ExecContext} {n : ℕ}
    (hctx : ctx.resourceName = some (nombreDe n)) (hn : INT_MAX < 68 + (n : ℤ)) :
    ¬ IdaYVuelta codigo ctx := by
  intro h
  have hcabe := h.cabe
  have hl : largoNombre ctx.resourceName = n := by
    rw [hctx]
    exact List.length_replicate
  rw [hl] at hcabe
  omega

theorem nombreDe_ne_nil {n : ℕ} (hn : 0 < n) : (nombreDe n).1 ≠ [] := by
  intro h
  have hl : (nombreDe n).1.length = n := List.length_replicate
  rw [h, List.length_nil] at hl
  omega

/-- **No room**: a context with a name of `INT_MAX` characters is not sent. -/
theorem nombre_sin_lugar : ∃ nombre : Cadena,
    (nombre.1.length : ℤ) ≤ INT_MAX ∧ nombre.1 ≠ [] ∧
      ¬ IdaYVuelta .CONTEXTO_EJECUCION
        ⟨1, 0, ⟨0, 0, 0, 0⟩, 0, some nombre, 0, 0, none, 0, 0, 0, 0⟩ := by
  refine ⟨nombreDe INT_MAX.toNat, ?_, nombreDe_ne_nil (by decide), no_idaYVuelta_nombreDe rfl ?_⟩
  · exact (congrArg Nat.cast List.length_replicate).le
  · decide

end OperatingSystem.Utils.Contexto
