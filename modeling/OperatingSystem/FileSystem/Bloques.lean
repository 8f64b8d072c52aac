import OperatingSystem.FileSystem.Fat
import Mathlib.Logic.Function.Basic

/-! # Blocks and swap space (`filesystem/src/bloques.c`, `filesystem/src/swap.c`)

`bloques.dat` is an array of `cantBloquesTotal` blocks of `tamBloque` bytes, mapped whole for every
access: an access to a block outside it has no behaviour. Its first `cantBloquesSwap` blocks are
swap space, handed out by the bitmap `bitarray`, which is kept in memory only. -/

namespace OperatingSystem.FileSystem.Bloques

open OperatingSystem.FileSystem.Fat

/-- A block of `n` bytes. -/
abbrev Bloque (n : ℕ) := Fin n → UInt8

/-- The contents of `bloques.dat`, by block. -/
abbrev BloquesDat (n : ℕ) := ℕ → Bloque n

/-! ## `bloques.c` -/

/-- The block `nroBloque` is inside the mapped file. -/
def EnBloques (cfg : FilesystemConfig) (nroBloque : ℤ) : Prop :=
  0 ≤ nroBloque ∧ nroBloque < cfg.cantBloquesTotal

instance (cfg : FilesystemConfig) (nroBloque : ℤ) : Decidable (EnBloques cfg nroBloque) := by
  unfold EnBloques; infer_instance

def escribirBloque (cfg : FilesystemConfig) (bloques : BloquesDat cfg.tamBloque) (nroBloque : ℤ)
    (data : Bloque cfg.tamBloque) : Option (BloquesDat cfg.tamBloque) :=
  if EnBloques cfg nroBloque then some (Function.update bloques nroBloque.toNat data) else none

def leerBloque (cfg : FilesystemConfig) (bloques : BloquesDat cfg.tamBloque) (nroBloque : ℤ) :
    Option (Bloque cfg.tamBloque) :=
  if EnBloques cfg nroBloque then some (bloques nroBloque.toNat) else none

/-- The whole words of the block are zeroed; `resto` is what `malloc` left in the bytes after
them. -/
def limpiarBloque (cfg : FilesystemConfig) (bloques : BloquesDat cfg.tamBloque) (nroBloque : ℤ)
    (resto : Bloque cfg.tamBloque) : Option (BloquesDat cfg.tamBloque) :=
  escribirBloque cfg bloques nroBloque fun i => if i < cfg.tamBloque / 4 * 4 then 0 else resto i

/-! ## `swap.c` -/

/-- The bitmap has `cant_bloques_swap / 8` bytes. -/
def inicializarSwap (cfg : FilesystemConfig) : List Bool :=
  List.replicate (cfg.cantBloquesSwap / 8 * 8) false

/-- The loop of `asignar_bloques_swap` over the blocks given, `faltan` being how many are still
missing: a free block is marked, listed and zeroed. -/
def asignarLoop (cfg : FilesystemConfig) (resto : ℕ → Bloque cfg.tamBloque) :
    List ℕ → ℕ → List Bool → BloquesDat cfg.tamBloque →
      Option (List ℕ × List Bool × BloquesDat cfg.tamBloque)
  | [], _, bitarray, bloques => some ([], bitarray, bloques)
  | i :: is, faltan, bitarray, bloques =>
    if faltan = 0 then some ([], bitarray, bloques)
    else do
      -- a bit outside the bitmap has no value
      let bit ← bitarray[i]?
      if bit then asignarLoop cfg resto is faltan bitarray bloques
      else
        let bloques ← limpiarBloque cfg bloques i (resto i)
        let (nuevos, bitarray, bloques) ←
          asignarLoop cfg resto is (faltan - 1) (bitarray.set i true) bloques
        return (i :: nuevos, bitarray, bloques)

def asignarBloquesSwap (cfg : FilesystemConfig) (resto : ℕ → Bloque cfg.tamBloque)
    (cantBloquesNuevos : ℕ) (bitarray : List Bool) (bloques : BloquesDat cfg.tamBloque) :
    Option (List ℕ × List Bool × BloquesDat cfg.tamBloque) :=
  asignarLoop cfg resto (List.range cfg.cantBloquesSwap) cantBloquesNuevos bitarray bloques

/-- Clear the bits of the blocks given. -/
def liberarBloquesSwap : List ℤ → List Bool → Option (List Bool)
  | [], bitarray => some bitarray
  | b :: bs, bitarray =>
    if 0 ≤ b ∧ b.toNat < bitarray.length then liberarBloquesSwap bs (bitarray.set b.toNat false)
    else none

end OperatingSystem.FileSystem.Bloques
