import Mathlib.Data.List.TakeWhile
import OperatingSystem.Utils.Serializacion

/-! # The requests between the modules

Each request is written by the sender with some calls of `agregar_payload_a_paquete` and read by the
receiver with `memcpy` at offsets that it counts itself. The senders are below under the names of the
functions that they are part of; `atenderKernel`, `atenderCpu`, `atenderFilesystem` and `onConnection`
are what the receivers read.

`memcpy` is `none` when it reads past the end of the payload or writes past the end of the block that it
copies to, and so is a terminator that is put past the end of its block (`terminar`).

Two requests are not read as they were written: `MEMORY_NEW_PROCESS`, whose path is copied to a block
without a place for the terminator, and `LOAD_FRAME`, of which the receiver reads an operation that the
sender does not send. All others are, while the payload has a length that is an `int`
(`enviar_atender_iff`). -/

namespace OperatingSystem.Utils.Protocolo

open OperatingSystem.Lib.Bytes
open OperatingSystem.Lib.CInt (INT_MAX)

/-- A string of C, without its terminator. -/
abbrev Cadena := {s : List UInt8 // 0 ∉ s}

/-- The contents of a page, or of a block of the file system, of `tam` bytes. -/
abbrev Pagina (tam : ℕ) := {data : List UInt8 // data.length = tam}

/-- The requests, with their arguments. Every integer is the four bytes of an `int`. -/
inductive Pedido (tam : ℕ)
  | memoryNewProcess (pid : UInt32) (path : Cadena) (size : UInt32)
  | memoryExitProcess (pid : UInt32)
  | loadFrame (pid pagina : UInt32)
  | nextInstruction (pid programCounter : UInt32)
  | frameRequest (pid pagina operacion : UInt32)
  | movIn (direccionFisica pid : UInt32)
  | movOut (direccionFisica pid valor : UInt32)
  | memoryRead (pid direccionFisica : UInt32)
  | memoryWrite (pid direccionFisica : UInt32) (data : Pagina tam)
  | swapNewProcess (cantBloques : UInt32)
  | swapEndProcess (posiciones : List UInt32)
  | swapIn (posSwap : UInt32)
  | swapOut (posSwap : UInt32) (data : Pagina tam)
  | abrirArchivo (nombre : Cadena)
  | crearArchivo (nombre : Cadena)
  | truncarArchivo (nombre : Cadena) (tamanio : UInt32)
  | leerArchivo (nombre : Cadena) (puntero dirFisica pid : UInt32)
  | escribirArchivo (nombre : Cadena) (puntero dirFisica pid : UInt32)
  deriving DecidableEq

/-! ### The senders -/

/-- `crear_paquete`, and `agregar_payload_a_paquete` with each part. -/
def armar (codigo : OpCode) (partes : List (List UInt8)) : Option Paquete :=
  partes.foldlM agregarPayload (crearPaquete codigo)

/-- The parts of `serialize_string`. -/
def serializeString (str : Cadena) : List (List UInt8) :=
  [bytes (UInt32.ofNat str.1.length), str.1]

/-- `memory_load_page` -/
def memoryLoadPage (pid pageToLoad : UInt32) : Option Paquete :=
  armar .LOAD_FRAME [bytes pid, bytes pageToLoad]

/-- `memory_terminate_process` -/
def memoryTerminateProcess (pid : UInt32) : Option Paquete :=
  armar .MEMORY_EXIT_PROCESS [bytes pid]

/-- `memory_allocate_new_process` -/
def memoryAllocateNewProcess (pid : UInt32) (path : Cadena) (size : UInt32) : Option Paquete :=
  armar .MEMORY_NEW_PROCESS [bytes pid, bytes (UInt32.ofNat path.1.length), path.1, bytes size]

/-- `obtener_siguiente_instruccion_de_memoria` of the CPU -/
def obtenerSiguienteInstruccionDeMemoria (pid programCounter : UInt32) : Option Paquete :=
  armar .NEXT_INSTRUCTION [bytes pid, bytes programCounter]

/-- `obtener_marco` of the CPU -/
def obtenerMarco (pagina pid operacion : UInt32) : Option Paquete :=
  armar .FRAME_REQUEST [bytes pid, bytes pagina, bytes operacion]

/-- `leer_valor_memoria` -/
def leerValorMemoria (dirFisica pid : UInt32) : Option Paquete :=
  armar .MOV_IN [bytes dirFisica, bytes pid]

/-- `escribir_valor_memoria` -/
def escribirValorMemoria (dirFisica valor pid : UInt32) : Option Paquete :=
  armar .MOV_OUT [bytes dirFisica, bytes pid, bytes valor]

/-- The request of `escribir_archivo` of the file system, which reads the page. -/
def pedirPagina (dirFisica pid : UInt32) : Option Paquete :=
  armar .MEMORY_READ [bytes pid, bytes dirFisica]

/-- The request of `leer_archivo` of the file system, which writes the page. -/
def enviarPagina {tam : ℕ} (dirFisica pid : UInt32) (dataBloque : Pagina tam) : Option Paquete :=
  armar .MEMORY_WRITE [bytes pid, bytes dirFisica, dataBloque.1]

/-- `obtener_posiciones_swap` -/
def obtenerPosicionesSwap (cantidadPaginas : UInt32) : Option Paquete :=
  armar .SWAP_NEW_PROCESS [bytes cantidadPaginas]

/-- `liberar_posiciones_swap`, with the position of each page of the table. -/
def liberarPosicionesSwap (posiciones : List UInt32) : Option Paquete :=
  armar .SWAP_END_PROCESS (bytes (UInt32.ofNat posiciones.length) :: posiciones.map bytes)

/-- `swap_in` of the memory -/
def swapIn (posSwap : UInt32) : Option Paquete :=
  armar .SWAP_IN [bytes posSwap]

/-- `swap_out` of the memory -/
def swapOut {tam : ℕ} (posSwap : UInt32) (data : Pagina tam) : Option Paquete :=
  armar .SWAP_OUT [bytes posSwap, data.1]

/-- `_open_file` -/
def openFile (fileName : Cadena) : Option Paquete :=
  armar .ABRIR_ARCHIVO (serializeString fileName)

/-- `_create_file` -/
def createFile (fileName : Cadena) : Option Paquete :=
  armar .CREAR_ARCHIVO (serializeString fileName)

/-- `_truncate_file` -/
def truncateFile (fileName : Cadena) (newSize : UInt32) : Option Paquete :=
  armar .TRUNCAR_ARCHIVO (serializeString fileName ++ [bytes newSize])

/-- `_write_file` -/
def writeFile (fileName : Cadena) (puntero dirFisica pid : UInt32) : Option Paquete :=
  armar .ESCRIBIR_ARCHIVO (serializeString fileName ++ [bytes puntero, bytes dirFisica, bytes pid])

/-- `_read_file` -/
def readFile (fileName : Cadena) (puntero dirFisica pid : UInt32) : Option Paquete :=
  armar .LEER_ARCHIVO (serializeString fileName ++ [bytes puntero, bytes dirFisica, bytes pid])

/-- The package that the sender makes of a request. -/
def Pedido.enviar {tam : ℕ} : Pedido tam → Option Paquete
  | memoryNewProcess pid path size => memoryAllocateNewProcess pid path size
  | memoryExitProcess pid => memoryTerminateProcess pid
  | loadFrame pid pagina => memoryLoadPage pid pagina
  | nextInstruction pid pc => obtenerSiguienteInstruccionDeMemoria pid pc
  | frameRequest pid pagina operacion => obtenerMarco pagina pid operacion
  | movIn dir pid => leerValorMemoria dir pid
  | movOut dir pid valor => escribirValorMemoria dir valor pid
  | memoryRead pid dir => pedirPagina dir pid
  | memoryWrite pid dir data => enviarPagina dir pid data
  | swapNewProcess cant => obtenerPosicionesSwap cant
  | swapEndProcess posiciones => liberarPosicionesSwap posiciones
  | swapIn pos => Protocolo.swapIn pos
  | swapOut pos data => Protocolo.swapOut pos data
  | abrirArchivo nombre => openFile nombre
  | crearArchivo nombre => createFile nombre
  | truncarArchivo nombre tamanio => truncateFile nombre tamanio
  | leerArchivo nombre puntero dir pid => readFile nombre puntero dir pid
  | escribirArchivo nombre puntero dir pid => writeFile nombre puntero dir pid

/-! ### The receivers -/

/-- `memcpy` of `n` bytes of the payload, from `offset` on, to a block of `cap` bytes. -/
def memcpy (payload : List UInt8) (offset n cap : ℕ) : Option {bs : List UInt8 // bs.length = n} :=
  if h : offset + n ≤ payload.length ∧ n ≤ cap then
    some ⟨(payload.drop offset).take n, by rw [List.length_take, List.length_drop]; omega⟩
  else none

/-- `memcpy` of an `int`. -/
def leerEntero (payload : List UInt8) (offset : ℕ) : Option UInt32 :=
  (memcpy payload offset 4 4).map fun bs => leer (fun i => bs.1.getD i 0) 0

/-- `bloque[i] = '\0'` in a block of `cap` bytes, and the string that is then there. -/
def terminar (bloque : List UInt8) (i cap : ℕ) : Option Cadena :=
  if i < cap then
    some ⟨(bloque.take i).takeWhile (· ≠ 0), fun h => by simpa using List.mem_takeWhile_imp h⟩
  else none

/-- `deserializar_string`: the string and the offset after it. -/
def deserializarString (payload : List UInt8) : Option (Cadena × ℕ) :=
  (leerEntero payload 0).bind fun length =>
    (memcpy payload 4 length.toNat (length.toNat + 1)).bind fun operacion =>
      (terminar operacion.1 length.toNat (length.toNat + 1)).map fun s => (s, 4 + length.toNat)

/-- `n` integers, one after the other. -/
def leerEnteros (payload : List UInt8) (offset : ℕ) : ℕ → Option (List UInt32)
  | 0 => some []
  | n + 1 => (leerEntero payload offset).bind fun v =>
    (leerEnteros payload (offset + 4) n).map (v :: ·)

section Receptores

variable {tam : ℕ}

/-- What `allocate_new_process` reads when `malloc` gives `bloque n` bytes for `n`. -/
def leerNewProcess (bloque : ℕ → ℕ) (payload : List UInt8) : Option (UInt32 × Cadena × UInt32) :=
  (leerEntero payload 0).bind fun pid =>
    (leerEntero payload 4).bind fun lenPath =>
      (memcpy payload 8 lenPath.toNat (bloque lenPath.toNat)).bind fun path =>
        (terminar path.1 lenPath.toNat (bloque lenPath.toNat)).bind fun path =>
          (leerEntero payload (8 + lenPath.toNat)).map fun size => (pid, path, size)

/-- `allocate_new_process`, with the bytes that it asks for and no more. -/
def allocateNewProcess (payload : List UInt8) : Option (Pedido tam) :=
  (leerNewProcess id payload).map fun r => .memoryNewProcess r.1 r.2.1 r.2.2

/-- `atender_kernel` of the memory -/
def atenderKernel (p : Paquete) : Option (Pedido tam) :=
  if p.codigoOperacion = OpCode.MEMORY_NEW_PROCESS.codigo then allocateNewProcess p.buffer.payload
  else if p.codigoOperacion = OpCode.MEMORY_EXIT_PROCESS.codigo then
    (leerEntero p.buffer.payload 0).map .memoryExitProcess
  else if p.codigoOperacion = OpCode.LOAD_FRAME.codigo then
    (leerEntero p.buffer.payload 0).bind fun pid =>
      (leerEntero p.buffer.payload 4).bind fun pagina =>
        -- `operacion` is read and not used
        (leerEntero p.buffer.payload 8).map fun _ => .loadFrame pid pagina
  else none

/-- `atender_cpu`, with `send_next_instruction`, `mov_in_instruction` and `mov_out_instruction` -/
def atenderCpu (p : Paquete) : Option (Pedido tam) :=
  if p.codigoOperacion = OpCode.NEXT_INSTRUCTION.codigo then
    (leerEntero p.buffer.payload 0).bind fun pid =>
      (leerEntero p.buffer.payload 4).map fun programCounter => .nextInstruction pid programCounter
  else if p.codigoOperacion = OpCode.MOV_IN.codigo then
    (leerEntero p.buffer.payload 0).bind fun direccionFisica =>
      (leerEntero p.buffer.payload 4).map fun pid => .movIn direccionFisica pid
  else if p.codigoOperacion = OpCode.MOV_OUT.codigo then
    (leerEntero p.buffer.payload 0).bind fun direccionFisica =>
      (leerEntero p.buffer.payload 4).bind fun pid =>
        (leerEntero p.buffer.payload 8).map fun valor => .movOut direccionFisica pid valor
  else if p.codigoOperacion = OpCode.FRAME_REQUEST.codigo then
    (leerEntero p.buffer.payload 0).bind fun pid =>
      (leerEntero p.buffer.payload 4).bind fun pagina =>
        (leerEntero p.buffer.payload 8).map fun operacion => .frameRequest pid pagina operacion
  else none

/-- `atender_filesystem` of the memory -/
def atenderFilesystem (p : Paquete) : Option (Pedido tam) :=
  if p.codigoOperacion = OpCode.MEMORY_WRITE.codigo then
    (leerEntero p.buffer.payload 0).bind fun pid =>
      (leerEntero p.buffer.payload 4).bind fun direccionFisica =>
        (memcpy p.buffer.payload 8 tam tam).map fun data => .memoryWrite pid direccionFisica data
  else if p.codigoOperacion = OpCode.MEMORY_READ.codigo then
    (leerEntero p.buffer.payload 0).bind fun pid =>
      (leerEntero p.buffer.payload 4).map fun direccionFisica => .memoryRead pid direccionFisica
  else none

/-- The part of `on_connection` that `LEER_ARCHIVO` and `ESCRIBIR_ARCHIVO` write alike. -/
def leerPunteroYDireccion (payload : List UInt8)
    (pedido : Cadena → UInt32 → UInt32 → UInt32 → Pedido tam) : Option (Pedido tam) :=
  (deserializarString payload).bind fun r =>
    (leerEntero payload r.2).bind fun puntero =>
      (leerEntero payload (r.2 + 4)).bind fun dirFisica =>
        (leerEntero payload (r.2 + 8)).map fun pid => pedido r.1 puntero dirFisica pid

/-- `on_connection` of the file system -/
def onConnection (p : Paquete) : Option (Pedido tam) :=
  if p.codigoOperacion = OpCode.ABRIR_ARCHIVO.codigo then
    (deserializarString p.buffer.payload).map fun r => .abrirArchivo r.1
  else if p.codigoOperacion = OpCode.CREAR_ARCHIVO.codigo then
    (deserializarString p.buffer.payload).map fun r => .crearArchivo r.1
  else if p.codigoOperacion = OpCode.TRUNCAR_ARCHIVO.codigo then
    (deserializarString p.buffer.payload).bind fun r =>
      (leerEntero p.buffer.payload r.2).map fun tamanio => .truncarArchivo r.1 tamanio
  else if p.codigoOperacion = OpCode.LEER_ARCHIVO.codigo then
    leerPunteroYDireccion p.buffer.payload .leerArchivo
  else if p.codigoOperacion = OpCode.ESCRIBIR_ARCHIVO.codigo then
    leerPunteroYDireccion p.buffer.payload .escribirArchivo
  else if p.codigoOperacion = OpCode.SWAP_NEW_PROCESS.codigo then
    (leerEntero p.buffer.payload 0).map .swapNewProcess
  else if p.codigoOperacion = OpCode.SWAP_END_PROCESS.codigo then
    (leerEntero p.buffer.payload 0).bind fun cantBloques =>
      (leerEnteros p.buffer.payload 4 cantBloques.toNat).map .swapEndProcess
  else if p.codigoOperacion = OpCode.SWAP_IN.codigo then
    (leerEntero p.buffer.payload 0).map .swapIn
  else if p.codigoOperacion = OpCode.SWAP_OUT.codigo then
    (leerEntero p.buffer.payload 0).bind fun posSwap =>
      (memcpy p.buffer.payload 4 tam tam).map fun data => .swapOut posSwap data
  else none

end Receptores

/-- Who gets a request. -/
def Pedido.atender {tam : ℕ} : Pedido tam → Paquete → Option (Pedido tam)
  | memoryNewProcess .. | memoryExitProcess .. | loadFrame .. => atenderKernel
  | nextInstruction .. | frameRequest .. | movIn .. | movOut .. => atenderCpu
  | memoryRead .. | memoryWrite .. => atenderFilesystem
  | swapNewProcess .. | swapEndProcess .. | swapIn .. | swapOut .. => onConnection
  | abrirArchivo .. | crearArchivo .. | truncarArchivo .. | leerArchivo .. | escribirArchivo .. =>
    onConnection

/-- The requests whose layout is the same on both sides, while the length of their payload is an
`int`. -/
def Pedido.Legible {tam : ℕ} : Pedido tam → Prop
  | memoryNewProcess .. => False
  | loadFrame .. => False
  | memoryExitProcess .. | nextInstruction .. | frameRequest .. | movIn .. | movOut .. => True
  | memoryRead .. | swapNewProcess .. | swapIn .. => True
  | memoryWrite .. => 8 + tam ≤ INT_MAX
  | swapOut .. => 4 + tam ≤ INT_MAX
  | swapEndProcess posiciones => 4 + 4 * posiciones.length ≤ INT_MAX
  | abrirArchivo nombre | crearArchivo nombre => 4 + nombre.1.length ≤ INT_MAX
  | truncarArchivo nombre _ => 8 + nombre.1.length ≤ INT_MAX
  | leerArchivo nombre .. | escribirArchivo nombre .. => 16 + nombre.1.length ≤ INT_MAX

/-! ### What a package has -/

variable {tam : ℕ} {xs s : List UInt8} {offset n cap : ℕ}

theorem foldlM_agregar {partes : List (List UInt8)} {p q : Paquete}
    (h : partes.foldlM agregarPayload p = some q) : q.codigoOperacion = p.codigoOperacion ∧
      q.buffer.payload = p.buffer.payload ++ partes.flatten := by
  induction partes generalizing p with
  | nil =>
    rw [List.foldlM_nil] at h
    obtain rfl := Option.some.inj h
    exact ⟨rfl, (List.append_nil _).symm⟩
  | cons parte partes ih =>
    rw [List.foldlM_cons] at h
    obtain ⟨p1, h1, h2⟩ := Option.bind_eq_some_iff.mp h
    obtain ⟨hc, hp⟩ := agregarPayload_eq_some h1
    obtain ⟨hc', hp'⟩ := ih h2
    rw [hp', hp, List.flatten_cons, List.append_assoc]
    exact ⟨hc'.trans hc, rfl⟩

theorem foldlM_agregar_isSome {partes : List (List UInt8)} {p : Paquete}
    (h : ((p.buffer.payload ++ partes.flatten).length : ℤ) ≤ INT_MAX) :
    ∃ q, partes.foldlM agregarPayload p = some q := by
  induction partes generalizing p with
  | nil => exact ⟨p, rfl⟩
  | cons parte partes ih =>
    rw [List.flatten_cons, ← List.append_assoc] at h
    have h0 : ((p.buffer.payload ++ parte).length : ℤ) ≤ INT_MAX := by
      rw [List.length_append] at h
      omega
    obtain ⟨p1, h1⟩ : ∃ p1, agregarPayload p parte = some p1 := ⟨_, dif_pos h0⟩
    obtain ⟨q, hq⟩ := ih (p := p1) (by rw [(agregarPayload_eq_some h1).2]; exact h)
    exact ⟨q, by rw [List.foldlM_cons, h1]; exact hq⟩

/-- The package of some parts: their bytes, one after the other, or nothing when they are too many. -/
theorem armar_cases (codigo : OpCode) (partes : List (List UInt8)) :
    (∃ p, armar codigo partes = some p ∧ p.codigoOperacion = codigo.codigo ∧
      p.buffer.payload = partes.flatten ∧ (partes.flatten.length : ℤ) ≤ INT_MAX) ∨
    (armar codigo partes = none ∧ ¬ (partes.flatten.length : ℤ) ≤ INT_MAX) := by
  unfold armar
  by_cases h : (partes.flatten.length : ℤ) ≤ INT_MAX
  · obtain ⟨p, hp⟩ := foldlM_agregar_isSome (p := crearPaquete codigo) h
    obtain ⟨hc, hb⟩ := foldlM_agregar hp
    exact Or.inl ⟨p, hp, hc, hb, h⟩
  · cases hp : partes.foldlM agregarPayload (crearPaquete codigo) with
    | none => exact Or.inr ⟨rfl, h⟩
    | some p =>
      have hb : p.buffer.payload = partes.flatten := (foldlM_agregar hp).2
      have h1 := p.buffer.noNegativo
      rw [← p.buffer.largo, hb] at h1
      exact absurd h1 h

/-! ### What is read -/

/-- Copying what comes after `xs`. -/
theorem memcpy_append_right (h : xs.length ≤ offset) :
    memcpy (xs ++ s) offset n cap = memcpy s (offset - xs.length) n cap := by
  obtain ⟨k, rfl⟩ := Nat.exists_eq_add_of_le h
  unfold memcpy
  have h1 : (xs ++ s).drop (xs.length + k) = s.drop k := List.drop_length_add_append k
  simp only [Nat.add_sub_cancel_left, h1, List.length_append]
  by_cases hc : k + n ≤ s.length ∧ n ≤ cap
  · rw [dif_pos hc, dif_pos ⟨by omega, hc.2⟩]
  · rw [dif_neg hc, dif_neg (by omega)]

theorem memcpy_append_left (data : {bs : List UInt8 // bs.length = n}) (h : n ≤ cap) :
    memcpy (data.1 ++ s) 0 n cap = some data := by
  unfold memcpy
  rw [dif_pos ⟨by rw [List.length_append, data.2]; omega, h⟩]
  congr 1
  apply Subtype.ext
  exact List.take_left' data.2

theorem memcpy_cuatro (u : UInt32) (data : {bs : List UInt8 // bs.length = n}) (h : n ≤ cap) :
    memcpy (bytes u ++ (data.1 ++ s)) 4 n cap = some data :=
  (memcpy_append_right le_rfl).trans (memcpy_append_left data h)

theorem memcpy_ocho (u v : UInt32) (data : {bs : List UInt8 // bs.length = n}) (h : n ≤ cap) :
    memcpy (bytes u ++ (bytes v ++ (data.1 ++ s))) 8 n cap = some data := by
  rw [memcpy_append_right (by rw [length_bytes]; omega)]
  exact memcpy_cuatro v data h

theorem leerEntero_append_right (h : xs.length ≤ offset) :
    leerEntero (xs ++ s) offset = leerEntero s (offset - xs.length) := by
  rw [leerEntero, memcpy_append_right h, leerEntero]

theorem leerEntero_bytes (v : UInt32) (s : List UInt8) : leerEntero (bytes v ++ s) 0 = some v := by
  rw [leerEntero, memcpy_append_left (n := 4) ⟨bytes v, rfl⟩ le_rfl, Option.map_some]
  exact congrArg some (leer_of_byte fun i hi => by rw [Nat.zero_add, getD_bytes v hi])

theorem leerEntero_cuatro (u v : UInt32) (s : List UInt8) :
    leerEntero (bytes u ++ (bytes v ++ s)) 4 = some v :=
  (leerEntero_append_right le_rfl).trans (leerEntero_bytes v s)

theorem leerEntero_ocho (u v w : UInt32) (s : List UInt8) :
    leerEntero (bytes u ++ (bytes v ++ (bytes w ++ s))) 8 = some w := by
  rw [leerEntero_append_right (by rw [length_bytes]; omega)]
  exact leerEntero_cuatro v w s

theorem leerEntero_of_length (h : s.length < offset + 4) : leerEntero s offset = none := by
  rw [leerEntero, memcpy, dif_neg (by omega), Option.map_none]

theorem terminar_of_lt (str : Cadena) (h : str.1.length < cap) :
    terminar str.1 str.1.length cap = some str := by
  rw [terminar, if_pos h]
  congr 1
  apply Subtype.ext
  change (str.1.take str.1.length).takeWhile (· ≠ 0) = str.1
  rw [List.take_length, List.takeWhile_eq_self_iff]
  intro x hx
  have hx0 : x ≠ 0 := fun h0 => str.2 (h0 ▸ hx)
  simpa using hx0

/-- `deserializar_string` reads what `serialize_string` wrote. -/
theorem deserializarString_serializeString (str : Cadena) (h : str.1.length ≤ INT_MAX) :
    deserializarString (bytes (UInt32.ofNat str.1.length) ++ (str.1 ++ s)) =
      some (str, 4 + str.1.length) := by
  have hn : (UInt32.ofNat str.1.length).toNat = str.1.length := toNat_ofNat_of_le h
  have hm : memcpy (bytes (UInt32.ofNat str.1.length) ++ (str.1 ++ s)) 4 str.1.length
      (str.1.length + 1) = some ⟨str.1, rfl⟩ :=
    memcpy_cuatro _ ⟨str.1, rfl⟩ (Nat.le_succ _)
  unfold deserializarString
  rw [leerEntero_bytes, Option.bind_some, hn, hm, Option.bind_some,
    terminar_of_lt str (Nat.lt_succ_self _), Option.map_some]

/-- What comes after a string. -/
theorem leerEntero_tras_cadena (v : UInt32) (str : Cadena) (s : List UInt8) (k : ℕ) :
    leerEntero (bytes v ++ (str.1 ++ s)) (4 + str.1.length + k) = leerEntero s k := by
  rw [leerEntero_append_right (by rw [length_bytes]; omega), length_bytes,
    leerEntero_append_right (by omega)]
  congr 1
  omega

theorem leerEnteros_append_right : xs.length ≤ offset →
    leerEnteros (xs ++ s) offset n = leerEnteros s (offset - xs.length) n := by
  intro h
  induction n generalizing offset with
  | zero => rfl
  | succ n ih =>
    rw [leerEnteros, leerEnteros, leerEntero_append_right h, ih (by omega),
      Nat.sub_add_comm h]

/-- The integers of a list are read in their order. -/
theorem leerEnteros_bytes (vs : List UInt32) :
    leerEnteros (vs.map bytes).flatten 0 vs.length = some vs := by
  induction vs with
  | nil => rfl
  | cons v vs ih =>
    rw [List.map_cons, List.flatten_cons, List.length_cons, leerEnteros, leerEntero_bytes,
      Option.bind_some, leerEnteros_append_right (by rw [length_bytes])]
    change (leerEnteros _ 0 vs.length).map _ = _
    rw [ih, Option.map_some]

theorem length_flatten_bytes (vs : List UInt32) : (vs.map bytes).flatten.length = 4 * vs.length := by
  induction vs with
  | nil => rfl
  | cons v vs ih =>
    rw [List.map_cons, List.flatten_cons, List.length_append, ih, length_bytes, List.length_cons]
    omega

theorem length_serializeString (str : Cadena) (vs : List UInt32) :
    (serializeString str ++ vs.map bytes).flatten.length = 4 + 4 * vs.length + str.1.length := by
  rw [List.flatten_append, List.length_append, length_flatten_bytes, serializeString,
    List.flatten_cons, List.flatten_cons, List.flatten_nil, List.append_nil, List.length_append,
    length_bytes]
  omega

/-! ### Both sides -/

section Acuerdo

variable {β : Type*} {codigo : OpCode} {partes : List (List UInt8)} {f : Paquete → Option β} {r : β}

/-- What the receiver makes of a package that it reads well. -/
theorem bind_armar_iff (hf : ∀ p : Paquete, p.codigoOperacion = codigo.codigo →
    p.buffer.payload = partes.flatten → (partes.flatten.length : ℤ) ≤ INT_MAX → f p = some r) :
    (armar codigo partes).bind f = some r ↔ (partes.flatten.length : ℤ) ≤ INT_MAX := by
  rcases armar_cases codigo partes with ⟨p, hp, hc, hb, h⟩ | ⟨hp, h⟩
  · rw [hp, Option.bind_some, hf p hc hb h]
    exact iff_of_true rfl h
  · rw [hp, Option.bind_none]
    exact iff_of_false (Option.some_ne_none r).symm h

theorem bind_armar_none (hf : ∀ p : Paquete, p.codigoOperacion = codigo.codigo →
    p.buffer.payload = partes.flatten → f p = none) : (armar codigo partes).bind f = none := by
  rcases armar_cases codigo partes with ⟨p, hp, hc, hb, -⟩ | ⟨hp, -⟩
  · rw [hp, Option.bind_some, hf p hc hb]
  · rw [hp, Option.bind_none]

/-- A request of three integers at most. -/
theorem bind_armar_enteros (vs : List UInt32) (hlen : vs.length ≤ 3)
    (hf : ∀ p : Paquete, p.codigoOperacion = codigo.codigo →
      p.buffer.payload = (vs.map bytes).flatten → f p = some r) :
    (armar codigo (vs.map bytes)).bind f = some r := by
  refine (bind_armar_iff fun p hc hp _ => hf p hc hp).mpr ?_
  have hmax : (12 : ℤ) ≤ INT_MAX := by decide
  rw [length_flatten_bytes]
  omega

/-- A request that begins with the name of a file. -/
theorem bind_armar_nombre (nombre : Cadena) (vs : List UInt32)
    (hf : ∀ p : Paquete, p.codigoOperacion = codigo.codigo →
      p.buffer.payload = (serializeString nombre ++ vs.map bytes).flatten →
        nombre.1.length ≤ INT_MAX → f p = some r) :
    (armar codigo (serializeString nombre ++ vs.map bytes)).bind f = some r ↔
      4 + 4 * (vs.length : ℤ) + nombre.1.length ≤ INT_MAX := by
  have hl : ((serializeString nombre ++ vs.map bytes).flatten.length : ℤ) =
      4 + 4 * vs.length + nombre.1.length := by
    rw [length_serializeString]
    omega
  refine (bind_armar_iff fun p hc hp h => hf p hc hp ?_).trans (by rw [hl])
  rw [hl] at h
  omega

end Acuerdo

/-- **The terminator of the path** has no place in the block of `allocate_new_process`. -/
theorem allocateNewProcess_none (payload : List UInt8) :
    (allocateNewProcess payload : Option (Pedido tam)) = none := by
  rw [Option.eq_none_iff_forall_ne_some]
  intro r h
  obtain ⟨leido, h, -⟩ := Option.map_eq_some_iff.mp h
  unfold leerNewProcess at h
  obtain ⟨pid, -, h⟩ := Option.bind_eq_some_iff.mp h
  obtain ⟨lenPath, -, h⟩ := Option.bind_eq_some_iff.mp h
  obtain ⟨bloque, -, h⟩ := Option.bind_eq_some_iff.mp h
  obtain ⟨path, ht, -⟩ := Option.bind_eq_some_iff.mp h
  have hlt : ¬ lenPath.toNat < id lenPath.toNat := lt_irrefl _
  rw [terminar, if_neg hlt] at ht
  exact Option.some_ne_none path ht.symm

/-- Where the block has the place, the request is read as it was written. -/
theorem leerNewProcess_enviado {bloque : ℕ → ℕ} {path : Cadena} (pid size : UInt32)
    (hb : path.1.length < bloque path.1.length) (hl : 12 + path.1.length ≤ INT_MAX) :
    ∃ p, memoryAllocateNewProcess pid path size = some p ∧
      leerNewProcess bloque p.buffer.payload = some (pid, path, size) := by
  have hn : (UInt32.ofNat path.1.length).toNat = path.1.length := toNat_ofNat_of_le (by omega)
  have hlargo : ([bytes pid, bytes (UInt32.ofNat path.1.length), path.1, bytes size].flatten.length : ℤ) =
      12 + path.1.length := by
    simp only [List.flatten_cons, List.flatten_nil, List.length_append, length_bytes, List.length_nil]
    omega
  rcases armar_cases .MEMORY_NEW_PROCESS
    [bytes pid, bytes (UInt32.ofNat path.1.length), path.1, bytes size] with
    ⟨p, hp, -, hpay, -⟩ | ⟨-, hno⟩
  · refine ⟨p, hp, ?_⟩
    have hpay : p.buffer.payload = bytes pid ++ (bytes (UInt32.ofNat path.1.length) ++
      (path.1 ++ (bytes size ++ []))) := hpay
    have hcopia := memcpy_ocho (s := bytes size ++ []) pid (UInt32.ofNat path.1.length)
      ⟨path.1, rfl⟩ hb.le
    have hsize : leerEntero (bytes pid ++ (bytes (UInt32.ofNat path.1.length) ++
        (path.1 ++ (bytes size ++ [])))) (8 + path.1.length) = some size := by
      have hoff : 8 + path.1.length - 4 = 4 + path.1.length + 0 := by omega
      rw [leerEntero_append_right (by rw [length_bytes]; omega), length_bytes, hoff,
        leerEntero_tras_cadena, leerEntero_bytes]
    unfold leerNewProcess
    rw [hpay, leerEntero_bytes, Option.bind_some, leerEntero_cuatro, Option.bind_some, hn, hcopia,
      Option.bind_some, terminar_of_lt path hb, Option.bind_some, hsize, Option.map_some]
  · exact absurd (hlargo ▸ hl) hno

theorem atenderKernel_loadFrame {p : Paquete} {pid pagina : UInt32}
    (hc : p.codigoOperacion = OpCode.LOAD_FRAME.codigo)
    (hp : p.buffer.payload = [bytes pid, bytes pagina].flatten) :
    (atenderKernel p : Option (Pedido tam)) = none := by
  have h8 : leerEntero p.buffer.payload 8 = none := leerEntero_of_length (by
    rw [hp]
    exact (by decide : 8 < 12))
  unfold atenderKernel
  rw [h8]
  simp [hc, OpCode.codigo_inj]

theorem leerPunteroYDireccion_serializeString (nombre : Cadena) (puntero dirFisica pid : UInt32)
    (pedido : Cadena → UInt32 → UInt32 → UInt32 → Pedido tam) (h : nombre.1.length ≤ INT_MAX) :
    leerPunteroYDireccion (serializeString nombre ++
        [bytes puntero, bytes dirFisica, bytes pid]).flatten pedido =
      some (pedido nombre puntero dirFisica pid) := by
  have hp : (serializeString nombre ++ [bytes puntero, bytes dirFisica, bytes pid]).flatten =
      bytes (UInt32.ofNat nombre.1.length) ++
        (nombre.1 ++ (bytes puntero ++ (bytes dirFisica ++ (bytes pid ++ [])))) := rfl
  unfold leerPunteroYDireccion
  rw [hp, deserializarString_serializeString nombre h, Option.bind_some]
  have h1 := leerEntero_tras_cadena (UInt32.ofNat nombre.1.length) nombre
    (bytes puntero ++ (bytes dirFisica ++ (bytes pid ++ [])))
  have h2 := (h1 0).trans (leerEntero_bytes _ _)
  rw [Nat.add_zero] at h2
  rw [h2, Option.bind_some, h1 4, leerEntero_cuatro, Option.bind_some, h1 8, leerEntero_ocho,
    Option.map_some]

/-- **The layouts agree**: the receiver gets the arguments of the sender, with no access out of the
payload or of its blocks, exactly when the request is none of the two, and fits. -/
theorem enviar_atender_iff (r : Pedido tam) : r.enviar.bind r.atender = some r ↔ r.Legible := by
  cases r with
  | memoryNewProcess pid path size =>
    refine iff_of_false (fun h => ?_) id
    rw [Pedido.enviar, memoryAllocateNewProcess, bind_armar_none fun p hc _ => ?_] at h
    · exact Option.some_ne_none _ h.symm
    · rw [Pedido.atender, atenderKernel, if_pos hc, allocateNewProcess_none]
  | loadFrame pid pagina =>
    refine iff_of_false (fun h => ?_) id
    rw [Pedido.enviar, memoryLoadPage, bind_armar_none fun p hc hp => ?_] at h
    · exact Option.some_ne_none _ h.symm
    · exact atenderKernel_loadFrame hc hp
  | memoryExitProcess pid =>
    refine iff_of_true (bind_armar_enteros [pid] (by simp) fun p hc
      (hp : p.buffer.payload = bytes pid ++ []) => ?_) trivial
    simp only [Pedido.atender, atenderKernel, hc, OpCode.codigo_inj, reduceCtorEq, if_false, if_true,
      hp, leerEntero_bytes, Option.map_some]
  | nextInstruction pid programCounter =>
    refine iff_of_true (bind_armar_enteros [pid, programCounter] (by simp) fun p hc
      (hp : p.buffer.payload = bytes pid ++ (bytes programCounter ++ [])) => ?_) trivial
    simp only [Pedido.atender, atenderCpu, hc, OpCode.codigo_inj, reduceCtorEq, if_false, if_true, hp,
      leerEntero_bytes, leerEntero_cuatro, Option.bind_some, Option.map_some]
  | frameRequest pid pagina operacion =>
    refine iff_of_true (bind_armar_enteros [pid, pagina, operacion] (by simp) fun p hc
      (hp : p.buffer.payload = bytes pid ++ (bytes pagina ++ (bytes operacion ++ []))) => ?_) trivial
    simp only [Pedido.atender, atenderCpu, hc, OpCode.codigo_inj, reduceCtorEq, if_false, if_true, hp,
      leerEntero_bytes, leerEntero_cuatro, leerEntero_ocho, Option.bind_some, Option.map_some]
  | movIn direccionFisica pid =>
    refine iff_of_true (bind_armar_enteros [direccionFisica, pid] (by simp) fun p hc
      (hp : p.buffer.payload = bytes direccionFisica ++ (bytes pid ++ [])) => ?_) trivial
    simp only [Pedido.atender, atenderCpu, hc, OpCode.codigo_inj, reduceCtorEq, if_false, if_true, hp,
      leerEntero_bytes, leerEntero_cuatro, Option.bind_some, Option.map_some]
  | movOut direccionFisica pid valor =>
    refine iff_of_true (bind_armar_enteros [direccionFisica, pid, valor] (by simp) fun p hc
      (hp : p.buffer.payload = bytes direccionFisica ++ (bytes pid ++ (bytes valor ++ []))) => ?_)
      trivial
    simp only [Pedido.atender, atenderCpu, hc, OpCode.codigo_inj, reduceCtorEq, if_false, if_true, hp,
      leerEntero_bytes, leerEntero_cuatro, leerEntero_ocho, Option.bind_some, Option.map_some]
  | memoryRead pid direccionFisica =>
    refine iff_of_true (bind_armar_enteros [pid, direccionFisica] (by simp) fun p hc
      (hp : p.buffer.payload = bytes pid ++ (bytes direccionFisica ++ [])) => ?_) trivial
    simp only [Pedido.atender, atenderFilesystem, hc, OpCode.codigo_inj, reduceCtorEq, if_false,
      if_true, hp, leerEntero_bytes, leerEntero_cuatro, Option.bind_some, Option.map_some]
  | swapNewProcess cantBloques =>
    refine iff_of_true (bind_armar_enteros [cantBloques] (by simp) fun p hc
      (hp : p.buffer.payload = bytes cantBloques ++ []) => ?_) trivial
    simp only [Pedido.atender, onConnection, hc, OpCode.codigo_inj, reduceCtorEq, if_false, if_true, hp,
      leerEntero_bytes, Option.map_some]
  | swapIn posSwap =>
    refine iff_of_true (bind_armar_enteros [posSwap] (by simp) fun p hc
      (hp : p.buffer.payload = bytes posSwap ++ []) => ?_) trivial
    simp only [Pedido.atender, onConnection, hc, OpCode.codigo_inj, reduceCtorEq, if_false, if_true, hp,
      leerEntero_bytes, Option.map_some]
  | memoryWrite pid direccionFisica data =>
    have hl : [bytes pid, bytes direccionFisica, data.1].flatten.length = 8 + tam := by
      simp only [List.flatten_cons, List.flatten_nil, List.length_append, length_bytes,
        List.length_nil, data.2]
      omega
    refine (bind_armar_iff fun p hc (hp : p.buffer.payload =
      bytes pid ++ (bytes direccionFisica ++ (data.1 ++ []))) _ => ?_).trans
        (by rw [hl, Nat.cast_add]; rfl)
    simp only [Pedido.atender, atenderFilesystem, hc, if_true, hp, leerEntero_bytes,
      leerEntero_cuatro, memcpy_ocho _ _ data le_rfl, Option.bind_some, Option.map_some]
  | swapOut posSwap data =>
    have hl : [bytes posSwap, data.1].flatten.length = 4 + tam := by
      simp only [List.flatten_cons, List.flatten_nil, List.length_append, length_bytes,
        List.length_nil, data.2]
      omega
    refine (bind_armar_iff fun p hc (hp : p.buffer.payload = bytes posSwap ++ (data.1 ++ [])) _ =>
      ?_).trans (by rw [hl, Nat.cast_add]; rfl)
    simp only [Pedido.atender, onConnection, hc, OpCode.codigo_inj, reduceCtorEq, if_false, if_true, hp,
      leerEntero_bytes, memcpy_cuatro _ data le_rfl, Option.bind_some, Option.map_some]
  | swapEndProcess posiciones =>
    have hl : (bytes (UInt32.ofNat posiciones.length) :: posiciones.map bytes).flatten.length =
        4 + 4 * posiciones.length := by
      rw [List.flatten_cons, List.length_append, length_bytes, length_flatten_bytes]
    refine (bind_armar_iff fun p hc hp h => ?_).trans (by rw [hl, Nat.cast_add, Nat.cast_mul]; rfl)
    rw [hl, Nat.cast_add, Nat.cast_mul] at h
    have hn : (UInt32.ofNat posiciones.length).toNat = posiciones.length :=
      toNat_ofNat_of_le (by omega)
    simp only [Pedido.atender, onConnection, hc, OpCode.codigo_inj, reduceCtorEq, if_false, if_true]
    rw [hp, List.flatten_cons, leerEntero_bytes, Option.bind_some, hn,
      leerEnteros_append_right (by rw [length_bytes]), length_bytes, Nat.sub_self, leerEnteros_bytes,
      Option.map_some]
  | abrirArchivo nombre =>
    refine (bind_armar_nombre nombre [] fun p hc (hp : p.buffer.payload =
      bytes (UInt32.ofNat nombre.1.length) ++ (nombre.1 ++ [])) h => ?_).trans Iff.rfl
    simp only [Pedido.atender, onConnection, hc, OpCode.codigo_inj, reduceCtorEq, if_false, if_true]
    rw [hp, deserializarString_serializeString nombre h, Option.map_some]
  | crearArchivo nombre =>
    refine (bind_armar_nombre nombre [] fun p hc (hp : p.buffer.payload =
      bytes (UInt32.ofNat nombre.1.length) ++ (nombre.1 ++ [])) h => ?_).trans Iff.rfl
    simp only [Pedido.atender, onConnection, hc, OpCode.codigo_inj, reduceCtorEq, if_false, if_true]
    rw [hp, deserializarString_serializeString nombre h, Option.map_some]
  | truncarArchivo nombre tamanio =>
    refine (bind_armar_nombre nombre [tamanio] fun p hc (hp : p.buffer.payload =
      bytes (UInt32.ofNat nombre.1.length) ++ (nombre.1 ++ (bytes tamanio ++ []))) h =>
        ?_).trans Iff.rfl
    simp only [Pedido.atender, onConnection, hc, OpCode.codigo_inj, reduceCtorEq, if_false, if_true]
    rw [hp, deserializarString_serializeString nombre h, Option.bind_some,
      ← Nat.add_zero (4 + nombre.1.length), leerEntero_tras_cadena, leerEntero_bytes, Option.map_some]
  | leerArchivo nombre puntero dirFisica pid =>
    refine (bind_armar_nombre nombre [puntero, dirFisica, pid] fun p hc hp h => ?_).trans Iff.rfl
    simp only [Pedido.atender, onConnection, hc, OpCode.codigo_inj, reduceCtorEq, if_false, if_true]
    exact (congrArg (leerPunteroYDireccion · _) hp).trans
      (leerPunteroYDireccion_serializeString nombre _ _ _ _ h)
  | escribirArchivo nombre puntero dirFisica pid =>
    refine (bind_armar_nombre nombre [puntero, dirFisica, pid] fun p hc hp h => ?_).trans Iff.rfl
    simp only [Pedido.atender, onConnection, hc, OpCode.codigo_inj, reduceCtorEq, if_false, if_true]
    exact (congrArg (leerPunteroYDireccion · _) hp).trans
      (leerPunteroYDireccion_serializeString nombre _ _ _ _ h)

/-- The page that the kernel asks for, and the program `a` of a process of 64 bytes: both are read out
of bounds. -/
theorem enviar_atender_fuera :
    (memoryLoadPage 7 0).bind (atenderKernel : Paquete → Option (Pedido 16)) ≠
      some (.loadFrame 7 0) ∧
    (memoryAllocateNewProcess 7 ⟨[97], by decide⟩ 64).bind
        (atenderKernel : Paquete → Option (Pedido 16)) ≠
      some (.memoryNewProcess 7 ⟨[97], by decide⟩ 64) := by
  decide +kernel

end OperatingSystem.Utils.Protocolo
