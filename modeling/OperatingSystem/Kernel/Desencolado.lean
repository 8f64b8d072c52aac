import Mathlib.Data.List.TakeWhile
import OperatingSystem.Kernel.Archivos

/-! # Who gets a file next (`kernel/src/core/filesystem/file.c`)

`desencolar_y_dar_lugar_al_siguiente_lock` is a `while` over the queue of a file: it peeks at the request
at the head, grants and pops it if it may, and leaves the loop otherwise. A writer may get the file only
if nobody got it in the same call.

Whatever is in the queue the loop ends (`mientras_eq`); it grants the readers at the head
of the queue, or the writer there and nobody else (`desencolar_exacto`). -/

namespace OperatingSystem.Kernel.Desencolado

open OperatingSystem.Kernel.Archivos

/-! ### The loop -/

def queueSize (file : KernelFile) : ℕ := file.readWriteQueue.length

/-- A null pointer if the queue is empty. -/
def queuePeek (file : KernelFile) : Option FileLockRequest := file.readWriteQueue.head?

def queuePop (file : KernelFile) : KernelFile :=
  { file with readWriteQueue := file.readWriteQueue.tail }

/-- The `while` of `desencolar_y_dar_lugar_al_siguiente_lock`, with at most so many tests of its
condition. -/
def mientras : ℕ → KernelFile → List ℤ → Option (KernelFile × List ℤ)
  | 0, _, _ => none
  | k + 1, file, proxProcesos =>
    if 0 < queueSize file then
      match queuePeek file with
      | none => mientras k file proxProcesos
      | some next =>
        match next.mode with
        | .FILE_MODE_READ =>
          mientras k (queuePop (lockFileForReading file)) (proxProcesos ++ [next.pid])
        | .FILE_MODE_WRITE =>
          if proxProcesos.length = 0 then
            some (queuePop (lockFileForWriting file), proxProcesos ++ [next.pid])
          else some (file, proxProcesos)
    else some (file, proxProcesos)

/-! ### What it does -/

variable {file : KernelFile} {queue rest : List FileLockRequest} {next : FileLockRequest}
  {prox : List ℤ} {k : ℕ}

/-- The loop does not depend on the queue that the file had before. -/
theorem darLugar_cola (queue q : List FileLockRequest) (file : KernelFile) (prox : List ℤ) :
    darLugar queue { file with readWriteQueue := q } prox = darLugar queue file prox := by
  induction queue generalizing file prox with
  | nil => rfl
  | cons next rest ih =>
    cases hm : next.mode with
    | FILE_MODE_READ =>
      simp only [darLugar, hm]
      exact ih (lockFileForReading file) _
    | FILE_MODE_WRITE =>
      simp only [darLugar, hm]
      rfl

/-- **The loop ends**, after one test for each request of the queue and one more at most. -/
theorem mientras_eq (hk : file.readWriteQueue.length < k) :
    mientras k file prox = some (darLugar file.readWriteQueue file prox) := by
  induction k generalizing file prox with
  | zero => omega
  | succ k ih =>
    cases hq : file.readWriteQueue with
    | nil =>
      have hfile : file = { file with readWriteQueue := [] } := by rw [← hq]
      rw [mientras, queueSize, hq, List.length_nil, if_neg (lt_irrefl 0), darLugar, ← hfile]
    | cons next rest =>
      have hk' : rest.length < k := by
        rw [hq, List.length_cons] at hk
        omega
      rw [mientras, queueSize, queuePeek, hq, List.length_cons, if_pos (Nat.succ_pos _)]
      simp only [List.head?_cons]
      cases hm : next.mode with
      | FILE_MODE_READ =>
        have hpop : (queuePop (lockFileForReading file)).readWriteQueue = rest := congrArg List.tail hq
        simp only [darLugar, hm]
        rw [ih (by rw [hpop]; exact hk'), hpop]
        exact congrArg some (darLugar_cola rest _ (lockFileForReading file) _)
      | FILE_MODE_WRITE =>
        simp only [darLugar, hm]
        split_ifs with hprox
        · rw [queuePop, lockFileForWriting, hq, List.tail_cons]
        · rw [← hq]

/-- A request to read. -/
def esLectura (req : FileLockRequest) : Bool := req.mode = .FILE_MODE_READ

/-- Readers that follow a reader get the file too, up to the first writer. -/
theorem darLugar_lecturas (queue : List FileLockRequest) (file : KernelFile) {prox : List ℤ}
    (hprox : prox ≠ []) : darLugar queue file prox =
      ({ file with
          readWriteQueue := queue.dropWhile esLectura
          activeReadLock := file.activeReadLock + (queue.takeWhile esLectura).length },
        prox ++ (queue.takeWhile esLectura).map FileLockRequest.pid) := by
  induction queue generalizing file prox with
  | nil => simp [darLugar]
  | cons next rest ih =>
    cases hm : next.mode with
    | FILE_MODE_READ =>
      have hl : esLectura next = true := by simp [esLectura, hm]
      simp only [darLugar, hm]
      rw [ih (lockFileForReading file) (by simp), List.dropWhile_cons_of_pos hl,
        List.takeWhile_cons_of_pos hl, List.length_cons, List.map_cons, List.append_assoc]
      simp only [lockFileForReading]
      congr 2
      push_cast
      omega
    | FILE_MODE_WRITE =>
      have hl : ¬ esLectura next = true := by simp [esLectura, hm]
      have hlen : ¬ prox.length = 0 := fun h => hprox (List.length_eq_zero_iff.mp h)
      simp only [darLugar, hm]
      rw [if_neg hlen, List.dropWhile_cons_of_neg hl, List.takeWhile_cons_of_neg hl]
      simp

/-- **The right prefix of the queue**: nothing of an empty queue, the longest run of readers at the head,
or the writer there. -/
structure Prefijo (file : KernelFile) (r : KernelFile × List ℤ) : Prop where
  vacia : file.readWriteQueue = [] → r = (file, [])
  lectura : ∀ next ∈ file.readWriteQueue.head?, next.mode = .FILE_MODE_READ →
    r = ({ file with
            readWriteQueue := file.readWriteQueue.dropWhile esLectura
            activeReadLock :=
              file.activeReadLock + (file.readWriteQueue.takeWhile esLectura).length },
          (file.readWriteQueue.takeWhile esLectura).map FileLockRequest.pid)
  escritura : ∀ next ∈ file.readWriteQueue.head?, next.mode = .FILE_MODE_WRITE →
    r = ({ file with readWriteQueue := file.readWriteQueue.tail, activeWriteLock := true },
          [next.pid])

theorem prefijo_desencolar (file : KernelFile) :
    Prefijo file (desencolarYDarLugarAlSiguienteLock file) := by
  unfold desencolarYDarLugarAlSiguienteLock
  cases hq : file.readWriteQueue with
  | nil =>
    have hfile : file = { file with readWriteQueue := [] } := by rw [← hq]
    rw [darLugar, ← hfile]
    exact ⟨fun _ => rfl, by simp [hq], by simp [hq]⟩
  | cons next rest =>
    refine ⟨by simp [hq], ?_, ?_⟩
    · rw [hq]
      rintro next' ⟨⟩ hm
      have hl : esLectura next = true := by simp [esLectura, hm]
      simp only [darLugar, hm]
      rw [List.nil_append, darLugar_lecturas rest _ (List.cons_ne_nil _ _),
        List.dropWhile_cons_of_pos hl, List.takeWhile_cons_of_pos hl, List.length_cons, List.map_cons]
      simp only [lockFileForReading, List.singleton_append]
      congr 2
      push_cast
      omega
    · rw [hq]
      rintro next' ⟨⟩ hm
      simp only [darLugar, hm]
      rfl

/-- **The loop grants the right prefix**: on every queue it ends, and it does what the queue asks for. -/
theorem desencolar_exacto (file : KernelFile) : ∃ r, Prefijo file r ∧
    (∀ k, file.readWriteQueue.length < k → mientras k file [] = some r) ∧
    desencolarYDarLugarAlSiguienteLock file = r :=
  ⟨_, prefijo_desencolar file, fun _ hk => mientras_eq hk, rfl⟩

/-- Two readers before a writer, and a reader after it. -/
example : mientras 5 ⟨"a", [⟨.FILE_MODE_READ, 1⟩, ⟨.FILE_MODE_READ, 2⟩, ⟨.FILE_MODE_WRITE, 3⟩,
    ⟨.FILE_MODE_READ, 4⟩], false, 0⟩ [] =
    some (⟨"a", [⟨.FILE_MODE_WRITE, 3⟩, ⟨.FILE_MODE_READ, 4⟩], false, 2⟩, [1, 2]) := by decide

end OperatingSystem.Kernel.Desencolado
