import OperatingSystem.Lib.Bytes
import OperatingSystem.Lib.CInt

/-! # The packages and their bytes

A package has an operation code and a buffer, whose `tamanio` is an `int` and counts the bytes of the
payload. `agregar_payload_a_paquete` appends to the payload, `serializar_paquete` writes
`[op_code|tamanio|payload]`, each of the two integers in four bytes, and
`deserealizar_paquete_desde_socket` reads the three parts with one `recv` each into memory that `malloc`
gave. A `recv` without `MSG_WAITALL` returns when some bytes are there, with those: `listos` of the
unread bytes have arrived when it is called, and the rest of the memory keeps what it had.

`none` is a call that does not come back with a package: an `int` overflows, `malloc` gets a negative
size, or `recv` waits for bytes that nobody sends. -/

namespace OperatingSystem.Utils

open OperatingSystem.Lib.Bytes
open OperatingSystem.Lib.CInt (INT_MAX)

/-- `op_code`. -/
inductive OpCode
  | INSTRUCCIONES
  | PROC_EXIT_SEG_FAULT
  | PROC_EXIT_OUT_OF_MEMORY
  | PROC_EXIT_SUCCESS
  | PROC_EXIT_RESOURCE_NOT_FOUND
  | PROC_EXIT_FORCE
  | PROC_EXIT_QUANTUM
  | PROC_EXIT_PRIORITY
  | PROC_EXIT_INVALID_WRITE
  | PROC_EVICTED
  | MEMORY_NEW_PROCESS
  | MEMORY_NEW_PROCESS_OK
  | MEMORY_EXIT_PROCESS
  | MEMORY_WRITE
  | MEMORY_READ
  | MEMORY_OK
  | CONTEXTO_EJECUCION
  | CREATE_SEGMENT
  | DELETE_SEGMENT
  | SLEEP
  | WAIT
  | SIGNAL
  | MOV_IN
  | MOV_OUT
  | F_OPEN
  | F_CLOSE
  | F_SEEK
  | F_READ
  | F_WRITE
  | F_TRUNCATE
  | NEXT_INSTRUCTION
  | HANDSHAKE_CPU
  | HANDSHAKE_FILE_SYSTEM
  | FRAME_REQUEST
  | PAGE_FAULT
  | LOAD_FRAME
  | INTERRUPCION
  | ABRIR_ARCHIVO
  | CREAR_ARCHIVO
  | TRUNCAR_ARCHIVO
  | LEER_ARCHIVO
  | ESCRIBIR_ARCHIVO
  | ARCHIVO_OK
  | SWAP_NEW_PROCESS
  | SWAP_IN
  | SWAP_OUT
  | SWAP_END_PROCESS
  | SWAP_OK
  | SWAP_ERROR
  deriving DecidableEq

/-- The `int` of an `op_code`: its place in the enumeration. -/
def OpCode.codigo (c : OpCode) : UInt32 := UInt32.ofNat c.ctorIdx

theorem OpCode.codigo_inj {c c' : OpCode} : c.codigo = c'.codigo ↔ c = c' := by
  refine ⟨fun h => ?_, congrArg codigo⟩
  have hlt : ∀ d : OpCode, d.ctorIdx < UInt32.size := by intro d; cases d <;> decide
  have h1 : c.ctorIdx = c'.ctorIdx := by
    rw [← UInt32.toNat_ofNat_of_lt' (hlt c), ← UInt32.toNat_ofNat_of_lt' (hlt c')]
    exact congrArg UInt32.toNat h
  rw [← OpCode.ofNat_ctorIdx c, ← OpCode.ofNat_ctorIdx c', h1]

/-- `t_buffer`, with as many bytes as `tamanio` says. -/
structure Buffer where
  tamanio : UInt32
  payload : List UInt8
  largo : payload.length = tamanio.toNat
  noNegativo : tamanio.toNat ≤ INT_MAX
  deriving DecidableEq

/-- `t_paquete`. -/
structure Paquete where
  codigoOperacion : UInt32
  buffer : Buffer
  deriving DecidableEq

/-- `crear_paquete`. -/
def crearPaquete (codigoOperacion : OpCode) : Paquete :=
  { codigoOperacion := codigoOperacion.codigo
    buffer := { tamanio := 0, payload := [], largo := rfl, noNegativo := by decide } }

theorem toNat_ofNat_of_le {n : ℕ} (h : n ≤ INT_MAX) : (UInt32.ofNat n).toNat = n := by
  unfold INT_MAX at h
  exact UInt32.toNat_ofNat_of_lt' (by rw [UInt32.size]; omega)

/-- `agregar_payload_a_paquete`. -/
def agregarPayload (paquete : Paquete) (nuevoPayload : List UInt8) : Option Paquete :=
  if h : ((paquete.buffer.payload ++ nuevoPayload).length : ℤ) ≤ INT_MAX then
    some { paquete with buffer :=
      { tamanio := UInt32.ofNat (paquete.buffer.payload ++ nuevoPayload).length
        payload := paquete.buffer.payload ++ nuevoPayload
        largo := (toNat_ofNat_of_le h).symm
        noNegativo := by rw [toNat_ofNat_of_le h]; exact h } }
  else none

/-- The bytes `[op_code|tamanio|payload]`. -/
def Paquete.trama (paquete : Paquete) : List UInt8 :=
  bytes paquete.codigoOperacion ++ (bytes paquete.buffer.tamanio ++ paquete.buffer.payload)

/-- `serializar_paquete`: `sizeof_paquete` is an `int`. -/
def serializarPaquete (paquete : Paquete) : Option (List UInt8) :=
  if paquete.buffer.tamanio.toNat + 8 ≤ INT_MAX then some paquete.trama else none

/-- `recv` of `pedido` bytes into the memory `m`, with `s` unread and `listos` of it there. A `recv` of no
bytes returns at once, also with nothing unread; on Linux it waits there until something comes, of which it
takes nothing. -/
def recv (pedido listos : ℕ) (m : Mem) (s : List UInt8) : Option (Mem × List UInt8) :=
  if pedido = 0 then some (m, s)
  else if s = [] then none
  else some (copiar m 0 (s.take (min pedido listos)), s.drop (min pedido listos))

/-- How many bytes are there at each `recv` of a call: at least one, or it would wait. -/
structure Corte where
  codigoOperacion : ℕ
  tamanio : ℕ
  payload : ℕ
  codigoOperacion_pos : 0 < codigoOperacion
  tamanio_pos : 0 < tamanio
  payload_pos : 0 < payload

/-- What `malloc` left in the memory of the package, of its buffer and of the payload. -/
structure Basura where
  codigoOperacion : Mem
  tamanio : Mem
  payload : Mem

/-- `malloc` of the payload and its `recv`. -/
def recibirPayload (codigoOperacion tamanio : UInt32) (listos : ℕ) (m : Mem) (s : List UInt8) :
    Option (Paquete × List UInt8) :=
  if h : tamanio.toNat ≤ INT_MAX then (recv tamanio.toNat listos m s).map fun r =>
    ({ codigoOperacion := codigoOperacion
       buffer :=
        { tamanio := tamanio
          payload := leerBytes r.1 0 tamanio.toNat
          largo := length_leerBytes _ _ _
          noNegativo := h } }, r.2)
  else none

/-- `deserealizar_paquete_desde_socket`, with the unread bytes that are left. -/
def deserealizarPaquete (c : Corte) (b : Basura) (s : List UInt8) : Option (Paquete × List UInt8) :=
  (recv 4 c.codigoOperacion b.codigoOperacion s).bind fun op =>
    (recv 4 c.tamanio b.tamanio op.2).bind fun tam =>
      recibirPayload (leer op.1 0) (leer tam.1 0) c.payload b.payload tam.2

/-! ### Lemmas -/

variable {p : Paquete} {m : Mem} {s : List UInt8}

theorem agregarPayload_eq_some {nuevo : List UInt8} {p' : Paquete}
    (h : agregarPayload p nuevo = some p') : p'.codigoOperacion = p.codigoOperacion ∧
      p'.buffer.payload = p.buffer.payload ++ nuevo := by
  unfold agregarPayload at h
  split_ifs at h
  exact Option.some.inj h ▸ ⟨rfl, rfl⟩

/-- A `recv` that finds all it asked for. -/
theorem recv_append (m : Mem) (bs s : List UInt8) {listos : ℕ} (h : bs.length ≤ listos) :
    ∃ m', recv bs.length listos m (bs ++ s) = some (m', s) ∧
      leerBytes m' 0 bs.length = bs ∧ (bs ≠ [] → m' = copiar m 0 bs) := by
  unfold recv
  split_ifs with h0 h1
  · obtain rfl := List.length_eq_zero_iff.mp h0
    exact ⟨m, rfl, rfl, fun hn => absurd rfl hn⟩
  · rw [List.append_eq_nil_iff] at h1
    exact absurd (List.length_eq_zero_iff.mpr h1.1) h0
  · rw [Nat.min_eq_left h, List.take_left, List.drop_left]
    exact ⟨_, rfl, leerBytes_copiar m 0 bs, fun _ => rfl⟩

/-- A `recv` that finds less leaves the last byte as it was. -/
theorem recv_corto {pedido listos : ℕ} {r : Mem × List UInt8} (h : listos < pedido)
    (hr : recv pedido listos m s = some r) : r.1 (pedido - 1) = m (pedido - 1) := by
  unfold recv at hr
  split_ifs at hr with h0 h1
  · omega
  · rw [← Option.some.inj hr]
    exact copiar_of_le (by rw [List.length_take]; omega)

end OperatingSystem.Utils
