import OperatingSystem.Kernel.Cierres

/-! # The queue of a file (`kernel/src/core/filesystem/file.c`)

One `t_kernel_file` on its own: it is opened in both modes, and closed by who has it open. Requests that
find the write lock taken are queued, and a close grants those at the head of the queue, so somebody has
to be left who will close (`varado`). Readers and writers may have the file at the same time, and two
writers may.

`Inv` counts the granted requests that were not closed yet. With it, nobody is stranded in the queue or
overtaken in it, over every run (`cola_en_orden`), and when all those who have the file close it the
queue is served to its end (`todos_pasan`). -/

namespace OperatingSystem.Kernel.ColaArchivo

open OperatingSystem.Lib.Run
open OperatingSystem.Kernel.Proceso (ModoApertura)
open OperatingSystem.Kernel.Archivos hiding Estado Accion atender
open OperatingSystem.Kernel.Exclusion (modo pedidos cerrarArchivo)
open OperatingSystem.Kernel.Aperturas (Cierre cerrarArchivo_spec cerrarArchivo_de_lectores
  cerrarArchivo_del_ultimo)

/-! ### Runs -/

/-- The file, the granted requests that were not closed yet, and what was queued and granted from the
queue so far. -/
structure Sistema where
  file : KernelFile
  abiertos : List FileLockRequest
  encolados : List FileLockRequest
  concedidos : List ℤ

def inicial (fileName : String) : Sistema := ⟨kernelFileCreate fileName, [], [], []⟩

inductive Accion where
  | abrir (req : FileLockRequest)
  | cerrar (req : FileLockRequest)
  deriving DecidableEq

/-- `file_open_in_read_mode` and `file_open_in_write_mode`: the request is granted or queued. -/
def abrir (s : Sistema) (req : FileLockRequest) : Sistema :=
  let (abierto, file) := openFile s.file req.pid (modo req.mode)
  if abierto then { s with file := file, abiertos := s.abiertos ++ [req] }
  else { s with file := file, encolados := s.encolados ++ [req] }

/-- `file_close_read_mode` and `file_close_write_mode`; who gets the file leaves the head of the
queue. -/
def cerrar (s : Sistema) (req : FileLockRequest) : Sistema :=
  let (file, proximosProcesos) := cerrarArchivo (modo req.mode) s.file
  { file := file
    abiertos := s.abiertos.erase req ++ s.file.readWriteQueue.take proximosProcesos.length
    encolados := s.encolados
    concedidos := s.concedidos ++ proximosProcesos }

def atender (s : Sistema) : Accion → Option Sistema
  | .abrir req => some (abrir s req)
  | .cerrar req => some (cerrar s req)

/-- A close matches a granted request. -/
def Protocolo (s : Sistema) : Accion → Prop
  | .abrir _ => True
  | .cerrar req => req ∈ s.abiertos

instance (s : Sistema) : ∀ a, Decidable (Protocolo s a)
  | .abrir _ => isTrue trivial
  | .cerrar req => inferInstanceAs (Decidable (req ∈ s.abiertos))

/-- **Nobody is stranded or overtaken**: while somebody is queued the file is locked by who has it open;
the queue is what is left of the requests queued, in their order, once the granted ones left it. -/
structure EnOrden (s : Sistema) : Prop where
  varado : s.file.readWriteQueue ≠ [] →
    s.file.activeWriteLock = true ∨ 0 < s.file.activeReadLock
  escritor : s.file.activeWriteLock = true → ∃ req ∈ s.abiertos, req.mode = .FILE_MODE_WRITE
  lector : 0 < s.file.activeReadLock → ∃ req ∈ s.abiertos, req.mode = .FILE_MODE_READ
  orden : ∃ pasados, s.encolados = pasados ++ s.file.readWriteQueue ∧
    s.concedidos = pasados.map FileLockRequest.pid

/-! ### The invariant -/

/-- **The invariant.** The readers are counted, the write lock is of some writer, and who waits waits for
some of them. -/
structure Inv (s : Sistema) : Prop where
  lectores : s.file.activeReadLock = pedidos .R s.abiertos
  escritores : s.file.activeWriteLock = true → 0 < pedidos .W s.abiertos
  varado : s.file.readWriteQueue ≠ [] →
    s.file.activeWriteLock = true ∨ 0 < s.file.activeReadLock
  orden : ∃ pasados, s.encolados = pasados ++ s.file.readWriteQueue ∧
    s.concedidos = pasados.map FileLockRequest.pid

section

variable {s s' : Sistema} {req : FileLockRequest} {l g : List FileLockRequest} {mode : ModoApertura}

theorem pedidos_append (mode : ModoApertura) (l g : List FileLockRequest) :
    pedidos mode (l ++ g) = pedidos mode l + pedidos mode g := by
  unfold pedidos
  rw [List.countP_append]
  push_cast
  rfl

theorem pedidos_nonneg (mode : ModoApertura) (l : List FileLockRequest) : 0 ≤ pedidos mode l :=
  Int.natCast_nonneg _

theorem pedidos_singleton (mode : ModoApertura) (req : FileLockRequest) :
    pedidos mode [req] = if modo req.mode = mode then 1 else 0 := by
  unfold pedidos
  rw [List.countP_singleton]
  by_cases h : modo req.mode = mode
  · simp [h]
  · simp [h]

/-- One that is closed is one less. -/
theorem pedidos_erase (h : req ∈ l) (mode : ModoApertura) :
    pedidos mode (l.erase req) = pedidos mode l - if modo req.mode = mode then 1 else 0 := by
  have hp : pedidos mode l = pedidos mode ([req] ++ l.erase req) := by
    unfold pedidos
    rw [(List.perm_cons_erase h).countP_eq]
    rfl
  rw [hp, pedidos_append, pedidos_singleton]
  omega

theorem exists_of_pedidos_pos (h : 0 < pedidos mode l) : ∃ req ∈ l, modo req.mode = mode := by
  unfold pedidos at h
  obtain ⟨req, hreq, hm⟩ := List.countP_pos_iff.mp (by exact_mod_cast h)
  exact ⟨req, hreq, by simpa using hm⟩

theorem Inv.enOrden (hI : Inv s) : EnOrden s := by
  refine ⟨hI.varado, fun h => ?_, fun h => ?_, hI.orden⟩
  · obtain ⟨req, hreq, hm⟩ := exists_of_pedidos_pos (hI.escritores h)
    refine ⟨req, hreq, ?_⟩
    cases hmode : req.mode with
    | FILE_MODE_READ =>
      rw [hmode] at hm
      cases hm
    | FILE_MODE_WRITE => rfl
  · rw [hI.lectores] at h
    obtain ⟨req, hreq, hm⟩ := exists_of_pedidos_pos h
    refine ⟨req, hreq, ?_⟩
    cases hmode : req.mode with
    | FILE_MODE_READ => rfl
    | FILE_MODE_WRITE =>
      rw [hmode] at hm
      cases hm

theorem inv_inicial (fileName : String) : Inv (inicial fileName) :=
  ⟨rfl, fun h => Bool.noConfusion h, fun h => absurd rfl h, [], rfl, rfl⟩

/-- An open with the write lock taken is queued, any other one is granted. -/
theorem abrir_eq (s : Sistema) (req : FileLockRequest) : abrir s req =
    if s.file.activeWriteLock = true then
      { s with
        file := { s.file with readWriteQueue := s.file.readWriteQueue ++ [req] }
        encolados := s.encolados ++ [req] }
    else
      { s with
        file := match req.mode with
          | .FILE_MODE_READ => lockFileForReading s.file
          | .FILE_MODE_WRITE => lockFileForWriting s.file
        abiertos := s.abiertos ++ [req] } := by
  obtain ⟨mode, pid⟩ := req
  cases mode with
  | FILE_MODE_READ =>
    by_cases hw : s.file.activeWriteLock = true
    · simp [abrir, openFile, modo, fileOpenInReadMode, isWriteLockActive, queueLock, hw]
    · by_cases hr : 0 < s.file.activeReadLock
      · simp [abrir, openFile, modo, fileOpenInReadMode, isWriteLockActive, isReadLockActive, hw, hr,
          addParticipantToReadingLock, lockFileForReading]
      · simp [abrir, openFile, modo, fileOpenInReadMode, isWriteLockActive, isReadLockActive, hw, hr]
  | FILE_MODE_WRITE =>
    by_cases hw : s.file.activeWriteLock = true
    · simp [abrir, openFile, modo, fileOpenInWriteMode, isWriteLockActive, queueLock, hw]
    · simp [abrir, openFile, modo, fileOpenInWriteMode, isWriteLockActive, hw]

theorem inv_abrir (hI : Inv s) (req : FileLockRequest) : Inv (abrir s req) := by
  obtain ⟨pasados, henc, hcon⟩ := hI.orden
  have hR := pedidos_singleton .R req
  have hW := pedidos_singleton .W req
  rw [abrir_eq]
  by_cases hw : s.file.activeWriteLock = true
  · rw [if_pos hw]
    refine ⟨hI.lectores, hI.escritores, fun _ => Or.inl hw, pasados, ?_, hcon⟩
    rw [henc, List.append_assoc]
  · rw [if_neg hw]
    cases hm : req.mode with
    | FILE_MODE_READ =>
      rw [hm] at hR hW
      refine ⟨?_, fun h => absurd h hw, fun hcola => ?_, pasados, henc, hcon⟩
      · have hlect := hI.lectores
        change s.file.activeReadLock + 1 = pedidos .R (s.abiertos ++ [req])
        rw [pedidos_append, hR, if_pos (by decide)]
        omega
      · have hpos := (hI.varado hcola).resolve_left hw
        exact Or.inr (show 0 < s.file.activeReadLock + 1 by omega)
    | FILE_MODE_WRITE =>
      rw [hm] at hR hW
      refine ⟨?_, fun _ => ?_, fun _ => Or.inl rfl, pasados, henc, hcon⟩
      · change s.file.activeReadLock = pedidos .R (s.abiertos ++ [req])
        rw [pedidos_append, hR, if_neg (by decide), hI.lectores]
        omega
      · have hnn := pedidos_nonneg .W s.abiertos
        change 0 < pedidos .W (s.abiertos ++ [req])
        rw [pedidos_append, hW, if_pos (by decide)]
        omega

/-- The loop leaves somebody in the queue only after it granted some request, or behind readers. -/
theorem darLugar_varado : ∀ {queue : List FileLockRequest} {file : KernelFile} {prox : List ℤ},
    0 ≤ file.activeReadLock → prox = [] ∨ 0 < file.activeReadLock →
    (darLugar queue file prox).1.readWriteQueue ≠ [] →
    (darLugar queue file prox).1.activeWriteLock = true ∨
      0 < (darLugar queue file prox).1.activeReadLock
  | [], _, _, _, _, hne => absurd rfl hne
  | next :: rest, file, prox, hnn, hprox, hne => by
    cases hm : next.mode with
    | FILE_MODE_READ =>
      simp only [darLugar, hm] at hne ⊢
      have hpos : 0 < (lockFileForReading file).activeReadLock := by
        change 0 < file.activeReadLock + 1
        omega
      exact darLugar_varado hpos.le (Or.inr hpos) hne
    | FILE_MODE_WRITE =>
      simp only [darLugar, hm]
      by_cases hvacia : prox.length = 0
      · rw [if_pos hvacia]
        exact Or.inl rfl
      · rw [if_neg hvacia]
        refine Or.inr (hprox.resolve_left fun h => hvacia ?_)
        rw [h]
        rfl

theorem cerrarArchivo_varado {file : KernelFile}
    (hnn : 0 ≤ file.activeReadLock - if mode = .R then 1 else 0)
    (hne : (cerrarArchivo mode file).1.readWriteQueue ≠ []) :
    (cerrarArchivo mode file).1.activeWriteLock = true ∨
      0 < (cerrarArchivo mode file).1.activeReadLock := by
  cases mode with
  | W =>
    rw [if_neg (by decide)] at hnn
    have hnn' : 0 ≤ (unlockFileForWriting file).activeReadLock := by
      change 0 ≤ file.activeReadLock
      omega
    exact darLugar_varado hnn' (Or.inl rfl) hne
  | R =>
    rw [if_pos rfl] at hnn
    by_cases hr : 0 < file.activeReadLock - 1
    · rw [cerrarArchivo_de_lectores hr]
      exact Or.inr hr
    · rw [cerrarArchivo_del_ultimo hr] at hne ⊢
      exact darLugar_varado hnn (Or.inl rfl) hne

/-- What a close does to the state. -/
theorem cerrar_eq (hg : Cierre (modo req.mode) s.file g) :
    (cerrar s req).abiertos = s.abiertos.erase req ++ g ∧
      (cerrar s req).concedidos = s.concedidos ++ g.map FileLockRequest.pid ∧
      s.file.readWriteQueue = g ++ (cerrar s req).file.readWriteQueue := by
  have hprox : (cerrarArchivo (modo req.mode) s.file).2.length = g.length := by
    rw [hg.proximos, List.length_map]
  refine ⟨?_, ?_, hg.cola⟩
  · change s.abiertos.erase req ++
      s.file.readWriteQueue.take (cerrarArchivo (modo req.mode) s.file).2.length = _
    rw [hprox, hg.cola, List.take_left]
  · change s.concedidos ++ (cerrarArchivo (modo req.mode) s.file).2 = _
    rw [hg.proximos]

theorem inv_cerrar (hI : Inv s) (hreq : req ∈ s.abiertos) : Inv (cerrar s req) := by
  obtain ⟨g, hg⟩ := cerrarArchivo_spec (modo req.mode) s.file
  obtain ⟨hab, hcon, hcola⟩ := cerrar_eq hg
  obtain ⟨pasados, henc, hcon₀⟩ := hI.orden
  have hlect : (cerrar s req).file.activeReadLock = pedidos .R (cerrar s req).abiertos := by
    change (cerrarArchivo (modo req.mode) s.file).1.activeReadLock = _
    rw [hab, pedidos_append, pedidos_erase hreq, hg.lectura, hI.lectores]
  refine ⟨hlect, fun hlock => ?_, fun hne => ?_, pasados ++ g, ?_, ?_⟩
  · have hnn := pedidos_nonneg .W g
    have hnn' := pedidos_nonneg .W (s.abiertos.erase req)
    rw [hab, pedidos_append]
    rcases hg.escritura hlock with ⟨hm, hw⟩ | hpos
    · -- a reader closes, the writer of before is still there
      have hpos := hI.escritores hw
      have herase := pedidos_erase hreq .W
      rw [hm, if_neg (by decide)] at herase
      omega
    · omega
  · refine cerrarArchivo_varado ?_ hne
    rw [hI.lectores]
    have hnn := pedidos_nonneg .R (s.abiertos.erase req)
    rw [pedidos_erase hreq] at hnn
    exact hnn
  · change s.encolados = _
    rw [henc, hcola, List.append_assoc]
  · rw [hcon, hcon₀, List.map_append]

/-! ### Runs -/

theorem inv_atender {a : Accion} (hI : Inv s) (hp : Protocolo s a) (hs : atender s a = some s') :
    Inv s' := by
  cases a with
  | abrir req =>
    obtain rfl := Option.some.inj hs
    exact inv_abrir hI req
  | cerrar req =>
    obtain rfl := Option.some.inj hs
    exact inv_cerrar hI hp

/-- **The queue of a file is in order** after every run of opens and of closes of what was granted. -/
theorem cola_en_orden {fileName : String} {as : List Accion}
    (hp : Along atender Protocolo (inicial fileName) as)
    (hs : exec atender (inicial fileName) as = some s) : EnOrden s :=
  (exec_invariant (fun _ _ _ hI hp hs => inv_atender hI hp hs) (inv_inicial fileName) hp hs).enOrden

/-- A writer has the file, and a reader and two writers wait. -/
def turnos : List Accion :=
  [.abrir ⟨.FILE_MODE_WRITE, 1⟩, .abrir ⟨.FILE_MODE_READ, 2⟩, .abrir ⟨.FILE_MODE_WRITE, 3⟩,
    .abrir ⟨.FILE_MODE_WRITE, 4⟩, .cerrar ⟨.FILE_MODE_WRITE, 1⟩, .cerrar ⟨.FILE_MODE_READ, 2⟩]

theorem cola_en_orden_turnos : ∃ s, exec atender (inicial "a") turnos = some s ∧
    s.concedidos = [2, 3] ∧ s.file.readWriteQueue = [⟨.FILE_MODE_WRITE, 4⟩] ∧ EnOrden s := by
  have hp : Along atender Protocolo (inicial "a") turnos := by decide
  exact ⟨_, rfl, rfl, rfl, cola_en_orden hp rfl⟩

/-! ### Everybody gets the file -/

/-- Those who have the file open and, twice, those who wait. -/
def resta (s : Sistema) : ℕ := s.abiertos.length + 2 * s.file.readWriteQueue.length

/-- A close brings the end of the queue nearer. -/
theorem resta_cerrar (hreq : req ∈ s.abiertos) : resta (cerrar s req) < resta s := by
  obtain ⟨g, hg⟩ := cerrarArchivo_spec (modo req.mode) s.file
  obtain ⟨hab, -, hcola⟩ := cerrar_eq hg
  have hpos := List.length_pos_of_mem hreq
  unfold resta
  rw [hab, hcola, List.length_append, List.length_append, List.length_erase_of_mem hreq]
  omega

/-- Somebody can close while somebody waits. -/
theorem Inv.exists_abierto (hI : Inv s) (hne : s.file.readWriteQueue ≠ []) :
    ∃ req, req ∈ s.abiertos := by
  rcases hI.varado hne with hw | hr
  · obtain ⟨req, hreq, -⟩ := hI.enOrden.escritor hw
    exact ⟨req, hreq⟩
  · obtain ⟨req, hreq, -⟩ := hI.enOrden.lector hr
    exact ⟨req, hreq⟩

/-- **Everybody gets the file**: closes alone take the queue to its end. -/
theorem todos_pasan : ∀ (n : ℕ) {s : Sistema}, Inv s → resta s ≤ n →
    ∃ (cierres : List FileLockRequest) (s' : Sistema), Along atender Protocolo s (cierres.map .cerrar) ∧
      exec atender s (cierres.map .cerrar) = some s' ∧ s'.file.readWriteQueue = []
  | n, s, hI, hn => by
    by_cases hvacia : s.file.readWriteQueue = []
    · exact ⟨[], s, trivial, rfl, hvacia⟩
    · obtain ⟨req, hreq⟩ := hI.exists_abierto hvacia
      have hlt := resta_cerrar hreq
      cases n with
      | zero => omega
      | succ n =>
        obtain ⟨cierres, s', hp, hs, hfin⟩ := todos_pasan n (inv_cerrar hI hreq) (by omega)
        refine ⟨req :: cierres, s', ?_, ?_, hfin⟩
        · exact .of_step hreq rfl hp
        · rw [List.map_cons, exec_cons]
          exact hs

end

end OperatingSystem.Kernel.ColaArchivo
