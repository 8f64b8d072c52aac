import OperatingSystem.Kernel.Archivos
import OperatingSystem.FileSystem.Archivo
import OperatingSystem.Lib.Run

/-! # The kernel and the file system module

The kernel of `Kernel.Archivos` with the module that answers it. `get_file_from_filesystem` takes the
sign of the answer to `ABRIR_ARCHIVO` for the existence of the file, and this answer is the size that
the file's FCB records, which a truncation sets to whatever size the process gave.

An open destroys no file (`AperturaInocua`) all along a run exactly when no process truncates a file it
has open to a negative size (`apertura_inocua_iff`). -/

namespace OperatingSystem.Kernel.Filesystem

open OperatingSystem.Lib.CInt OperatingSystem.Lib.Dictionary OperatingSystem.Lib.Run
open OperatingSystem.FileSystem.Fat OperatingSystem.FileSystem.Bloques
open OperatingSystem.FileSystem.Archivo
open OperatingSystem.Kernel.Proceso
open OperatingSystem.Kernel.Archivos (Respuestas ARCHIVO_OK setPlan)

/-- The two modules. -/
structure Sistema (cfg : FilesystemConfig) where
  kernel : Archivos.Estado
  fs : Filesystem cfg

variable {cfg : FilesystemConfig}

/-! ### `filesystem.c` -/

/-- What the module answers to the requests of `get_file_from_filesystem`. -/
def respuestas (fs : Filesystem cfg) (fileName : String) : Respuestas where
  abrir := abrirArchivo fs fileName
  crear := ARCHIVO_OK
  reabrir := abrirArchivo (crearArchivo fs fileName) fileName

/-- `get_file_from_filesystem` calls `_create_file`. -/
def llamaCrear (s : Sistema cfg) (fileName : String) : Bool :=
  s.kernel.openFiles.get fileName = none ∧ ¬ 0 ≤ abrirArchivo s.fs fileName

/-- The module after the requests of `get_file_from_filesystem`. -/
def fsTrasObtener (s : Sistema cfg) (fileName : String) : Filesystem cfg :=
  if llamaCrear s fileName then crearArchivo s.fs fileName else s.fs

def getFileFromFilesystem (s : Sistema cfg) (fileName : String) :
    Option Archivos.KernelFile × Sistema cfg :=
  match Archivos.getFileFromFilesystem s.kernel fileName (respuestas s.fs fileName) with
  | none => (none, ⟨s.kernel, fsTrasObtener s fileName⟩)
  | some (file, kernel) => (some file, ⟨kernel, fsTrasObtener s fileName⟩)

/-! ### `process_handler.c` -/

def onFileOpen (s : Sistema cfg) (pid : ℤ) (fileName : String) (mode : ModoApertura) :
    Option (Sistema cfg) := do
  let kernel ← Archivos.onFileOpen s.kernel pid fileName mode (respuestas s.fs fileName)
  return ⟨kernel, fsTrasObtener s fileName⟩

def onFileClose (s : Sistema cfg) (pid : ℤ) (fileName : String) : Option (Sistema cfg) := do
  let kernel ← Archivos.onFileClose s.kernel pid fileName (respuestas s.fs fileName)
  return ⟨kernel, fsTrasObtener s fileName⟩

/-- `ready_process` of a process that a file operation blocked or that goes on at once. -/
def listo (s : Sistema cfg) (pid : ℤ) (pcb : Pcb) : Sistema cfg :=
  { s with kernel := setPlan s.kernel (readyProcess s.kernel.plan pid pcb) }

def onFileSeek (s : Sistema cfg) (pid : ℤ) (fileName : String) (puntero : ℤ) :
    Option (Sistema cfg) := do
  let pcb ← findProcess s.kernel.plan pid
  match processFindOpenFile pcb fileName with
  | none => return s
  | some archivo =>
    return listo s pid { pcb with
      openFiles := pcb.openFiles.replace archivo { archivo with punteroArchivo := puntero } }

def onFileTruncate (s : Sistema cfg) (pid : ℤ) (fileName : String) (size : ℤ) :
    Option (Sistema cfg) := do
  let pcb ← findProcess s.kernel.plan pid
  match processFindOpenFile pcb fileName with
  | none => return s
  | some _ =>
    match getFileFromFilesystem s fileName with
    | (none, s) => return listo s pid pcb
    | (some _, s) =>
      let fs ← truncarArchivo s.fs fileName size
      return listo { s with fs := fs } pid pcb

/-- `LEER_ARCHIVO` is always answered with `ARCHIVO_OK`. -/
def onFileRead (s : Sistema cfg) (pid : ℤ) (fileName : String) : Option (Sistema cfg) := do
  let pcb ← findProcess s.kernel.plan pid
  match processFindOpenFile pcb fileName with
  | none => return s
  | some archivo =>
    let _ ← leerArchivo s.fs fileName archivo.punteroArchivo
    return listo (getFileFromFilesystem s fileName).2 pid pcb

/-- `data` is the block that the module gets from Memoria; a file open for reading is not written,
and its process is to leave the CPU. -/
def onFileWrite (s : Sistema cfg) (pid : ℤ) (fileName : String) (data : Bloque cfg.tamBloque) :
    Option (Sistema cfg) := do
  let pcb ← findProcess s.kernel.plan pid
  match processFindOpenFile pcb fileName with
  | none => return s
  | some archivo =>
    match archivo.modoApertura with
    | .R =>
      let plan := interrumpir s.kernel.plan pid .PROC_EXIT_INVALID_WRITE
      return { s with kernel := setPlan s.kernel plan }
    | .W =>
      let fs ← escribirArchivo s.fs fileName archivo.punteroArchivo data
      return listo (getFileFromFilesystem { s with fs := fs } fileName).2 pid pcb

/-! ### Runs -/

/-- What the planners do, and the file operations of the process in the CPU. -/
inductive Accion (cfg : FilesystemConfig) where
  | admitir
  | despachar (pid : ℤ)
  | desalojar (pid : ℤ)
  | terminar (pid : ℤ) (exitCode : OpCode)
  | abrir (pid : ℤ) (fileName : String) (mode : ModoApertura)
  | cerrar (pid : ℤ) (fileName : String)
  | posicionar (pid : ℤ) (fileName : String) (puntero : ℤ)
  | truncar (pid : ℤ) (fileName : String) (size : ℤ)
  | leer (pid : ℤ) (fileName : String)
  | escribir (pid : ℤ) (fileName : String) (data : Bloque cfg.tamBloque)

def atender (s : Sistema cfg) : Accion cfg → Option (Sistema cfg)
  | .admitir => some { s with kernel := setPlan s.kernel (Proceso.admitir s.kernel.plan) }
  | .despachar pid => do
    let plan ← Proceso.despachar s.kernel.plan pid
    return { s with kernel := setPlan s.kernel plan }
  | .desalojar pid => do
    let plan ← onEvicted s.kernel.plan pid
    return { s with kernel := setPlan s.kernel plan }
  | .terminar pid exitCode => do
    let _ ← findProcess s.kernel.plan pid
    let plan := exitProcess (removeProcess s.kernel.plan pid) pid exitCode
    return { s with kernel := setPlan s.kernel plan }
  | .abrir pid fileName mode => do
    let _ ← enEjecucion s.kernel.plan pid
    onFileOpen s pid fileName mode
  | .cerrar pid fileName => do
    let _ ← enEjecucion s.kernel.plan pid
    onFileClose s pid fileName
  | .posicionar pid fileName puntero => do
    let _ ← enEjecucion s.kernel.plan pid
    onFileSeek s pid fileName puntero
  | .truncar pid fileName size => do
    let _ ← enEjecucion s.kernel.plan pid
    onFileTruncate s pid fileName size
  | .leer pid fileName => do
    let _ ← enEjecucion s.kernel.plan pid
    onFileRead s pid fileName
  | .escribir pid fileName data => do
    let _ ← enEjecucion s.kernel.plan pid
    onFileWrite s pid fileName data

/-- The kernel starts on a formatted disk; `bloques.dat` may hold anything. -/
def inicial (bloques : BloquesDat cfg.tamBloque) : Sistema cfg :=
  ⟨Archivos.estadoInicial, FileSystem.Archivo.inicial cfg bloques⟩

/-- What is expected of opens in a state: a file that exists is found, so it is not created again, and
an open by any process leaves its FCB and the table alone. -/
def AperturaInocua (s : Sistema cfg) : Prop :=
  ∀ fileName fcb, s.fs.fcbs.get fileName = some fcb →
    0 ≤ abrirArchivo s.fs fileName ∧ llamaCrear s fileName = false ∧
      ∀ pid mode s', onFileOpen s pid fileName mode = some s' →
        s'.fs.fcbs.get fileName = some fcb ∧ s'.fs.fat = s.fs.fat

/-- No process truncates a file it has open to a negative size. -/
def SinNegativos (s : Sistema cfg) : Accion cfg → Prop
  | .truncar pid fileName size => ∀ pcb, findProcess s.kernel.plan pid = some pcb →
      (processHasOpenFile pcb fileName).isSome → 0 ≤ size
  | _ => True

/-! ### Recorded sizes -/

/-- No FCB records a negative size. -/
def SinTamaniosNegativos (fs : Filesystem cfg) : Prop :=
  ∀ fileName fcb, fs.fcbs.get fileName = some fcb → 0 ≤ fcb.tamanio

section

variable {s s' : Sistema cfg} {fs fs' : Filesystem cfg} {fileName : String} {pid : ℤ}

theorem SinTamaniosNegativos.put (h : SinTamaniosNegativos fs) {fcb : Fcb} (h0 : 0 ≤ fcb.tamanio)
    (hfs : fs'.fcbs = fs.fcbs.put fileName fcb) : SinTamaniosNegativos fs' := by
  intro n fcb' hn
  rw [hfs] at hn
  by_cases hne : n = fileName
  · subst hne
    rw [Dict.get_put_self] at hn
    obtain rfl := Option.some.inj hn
    exact h0
  · rw [Dict.get_put_of_ne _ hne] at hn
    exact h n fcb' hn

theorem SinTamaniosNegativos.obtener (h : SinTamaniosNegativos s.fs) (fileName : String) :
    SinTamaniosNegativos (fsTrasObtener s fileName) := by
  unfold fsTrasObtener
  split_ifs
  · exact h.put (show 0 ≤ (⟨0, 0⟩ : Fcb).tamanio from le_rfl) rfl
  · exact h

theorem getFile_fs (s : Sistema cfg) (fileName : String) :
    (getFileFromFilesystem s fileName).2.fs = fsTrasObtener s fileName := by
  unfold getFileFromFilesystem
  split <;> rfl

/-- The answer to `ABRIR_ARCHIVO` is the recorded size. -/
theorem abrirArchivo_eq {fcb : Fcb} (h : fs.fcbs.get fileName = some fcb) :
    abrirArchivo fs fileName = fcb.tamanio := by
  rw [abrirArchivo, h]

/-- A file is always found: a created one is opened at once. -/
theorem getFile_eq (s : Sistema cfg) (fileName : String) :
    ∃ file kernel,
      getFileFromFilesystem s fileName = (some file, ⟨kernel, fsTrasObtener s fileName⟩) := by
  have hsome : (Archivos.getFileFromFilesystem s.kernel fileName
      (respuestas s.fs fileName)).isSome := by
    have hcreado : (crearArchivo s.fs fileName).fcbs.get fileName = some ⟨0, 0⟩ :=
      Dict.get_put_self ..
    have hreabrir : (respuestas s.fs fileName).reabrir = 0 := abrirArchivo_eq hcreado
    unfold Archivos.getFileFromFilesystem
    split
    · rfl
    · split_ifs with h1 h2 h3
      · rfl
      · rfl
      · rw [hreabrir] at h3
        exact absurd le_rfl h3
      · exact absurd rfl h2
  obtain ⟨⟨file, kernel⟩, h⟩ := Option.isSome_iff_exists.mp hsome
  exact ⟨file, kernel, by rw [getFileFromFilesystem, h]⟩

/-- A truncation by a process that has the file open reaches the module. -/
theorem onFileTruncate_fs {size : ℤ} {pcb : Pcb} (hp : findProcess s.kernel.plan pid = some pcb)
    (hpcb : (processHasOpenFile pcb fileName).isSome)
    (h : onFileTruncate s pid fileName size = some s') :
    truncarArchivo (fsTrasObtener s fileName) fileName size = some s'.fs := by
  obtain ⟨file, kernel, hget⟩ := getFile_eq s fileName
  obtain ⟨archivo, hfind⟩ := Option.isSome_iff_exists.mp
    (show (processFindOpenFile pcb fileName).isSome by simpa [processHasOpenFile] using hpcb)
  rw [onFileTruncate, hp] at h
  simp only [Option.bind_eq_bind, Option.bind_some, hfind, hget] at h
  obtain ⟨fs, hfs, h⟩ := Option.bind_eq_some_iff.mp h
  obtain rfl := Option.some.inj h
  exact hfs

theorem onFileSeek_fs {puntero : ℤ} (hs : onFileSeek s pid fileName puntero = some s') :
    s'.fs = s.fs := by
  obtain ⟨pcb, -, hs⟩ := Option.bind_eq_some_iff.mp hs
  cases hfind : processFindOpenFile pcb fileName with
  | none =>
    rw [hfind] at hs
    obtain rfl := Option.some.inj hs
    rfl
  | some archivo =>
    rw [hfind] at hs
    obtain rfl := Option.some.inj hs
    rfl

theorem SinTamaniosNegativos.truncar {size : ℤ} (h : SinTamaniosNegativos s.fs)
    (ha : SinNegativos s (.truncar pid fileName size))
    (hs : onFileTruncate s pid fileName size = some s') : SinTamaniosNegativos s'.fs := by
  obtain ⟨pcb, hp, -⟩ := Option.bind_eq_some_iff.mp hs
  by_cases hopen : (processHasOpenFile pcb fileName).isSome
  · obtain ⟨b, hb⟩ := truncarArchivo_fcbs (onFileTruncate_fs hp hopen hs)
    exact (h.obtener fileName).put (ha pcb hp hopen) hb
  · have hfind : processFindOpenFile pcb fileName = none := by
      simpa [processHasOpenFile] using hopen
    rw [onFileTruncate, hp] at hs
    simp only [Option.bind_eq_bind, Option.bind_some, hfind] at hs
    obtain rfl := Option.some.inj hs
    exact h

theorem SinTamaniosNegativos.leer (h : SinTamaniosNegativos s.fs)
    (hs : onFileRead s pid fileName = some s') : SinTamaniosNegativos s'.fs := by
  obtain ⟨pcb, -, hs⟩ := Option.bind_eq_some_iff.mp hs
  cases hfind : processFindOpenFile pcb fileName with
  | none =>
    rw [hfind] at hs
    obtain rfl := Option.some.inj hs
    exact h
  | some archivo =>
    rw [hfind] at hs
    obtain ⟨data, -, hs⟩ := Option.bind_eq_some_iff.mp hs
    obtain rfl := Option.some.inj hs
    change SinTamaniosNegativos (getFileFromFilesystem s fileName).2.fs
    rw [getFile_fs]
    exact h.obtener fileName

theorem SinTamaniosNegativos.escribir {data : Bloque cfg.tamBloque} (h : SinTamaniosNegativos s.fs)
    (hs : onFileWrite s pid fileName data = some s') : SinTamaniosNegativos s'.fs := by
  obtain ⟨pcb, -, hs⟩ := Option.bind_eq_some_iff.mp hs
  cases hfind : processFindOpenFile pcb fileName with
  | none =>
    rw [hfind] at hs
    obtain rfl := Option.some.inj hs
    exact h
  | some archivo =>
    rw [hfind] at hs
    cases hmodo : archivo.modoApertura with
    | R =>
      simp only [hmodo] at hs
      obtain rfl := Option.some.inj hs
      exact h
    | W =>
      simp only [hmodo] at hs
      obtain ⟨fs, hfs, hs⟩ := Option.bind_eq_some_iff.mp hs
      obtain rfl := Option.some.inj hs
      change SinTamaniosNegativos (getFileFromFilesystem { s with fs := fs } fileName).2.fs
      rw [getFile_fs]
      refine SinTamaniosNegativos.obtener (s := { s with fs := fs }) (fun n fcb hn => ?_) fileName
      change fs.fcbs.get n = some fcb at hn
      rw [escribirArchivo_fcbs hfs] at hn
      exact h n fcb hn

/-- **Every step without a negative truncation** keeps the recorded sizes from being negative. -/
theorem atender_sinTamaniosNegativos {a : Accion cfg} (h : SinTamaniosNegativos s.fs)
    (ha : SinNegativos s a) (hs : atender s a = some s') : SinTamaniosNegativos s'.fs := by
  cases a with
  | admitir =>
    obtain rfl := Option.some.inj hs
    exact h
  | despachar | desalojar | terminar =>
    obtain ⟨_, -, hs⟩ := Option.bind_eq_some_iff.mp hs
    obtain rfl := Option.some.inj hs
    exact h
  | abrir pid fileName mode =>
    obtain ⟨pcb, -, hs⟩ := Option.bind_eq_some_iff.mp hs
    obtain ⟨kernel, -, hs⟩ := Option.bind_eq_some_iff.mp hs
    obtain rfl := Option.some.inj hs
    exact h.obtener fileName
  | cerrar pid fileName =>
    obtain ⟨pcb, -, hs⟩ := Option.bind_eq_some_iff.mp hs
    obtain ⟨kernel, -, hs⟩ := Option.bind_eq_some_iff.mp hs
    obtain rfl := Option.some.inj hs
    exact h.obtener fileName
  | posicionar pid fileName puntero =>
    obtain ⟨pcb, -, hs⟩ := Option.bind_eq_some_iff.mp hs
    rw [onFileSeek_fs hs]
    exact h
  | truncar pid fileName size =>
    obtain ⟨pcb, -, hs⟩ := Option.bind_eq_some_iff.mp hs
    exact h.truncar ha hs
  | leer pid fileName =>
    obtain ⟨pcb, -, hs⟩ := Option.bind_eq_some_iff.mp hs
    exact h.leer hs
  | escribir pid fileName data =>
    obtain ⟨pcb, -, hs⟩ := Option.bind_eq_some_iff.mp hs
    exact h.escribir hs

/-! ### Opens -/

/-- Where no recorded size is negative, an open finds the files that exist. -/
theorem aperturaInocua (h : SinTamaniosNegativos s.fs) : AperturaInocua s := by
  intro n fcb hn
  have h0 : 0 ≤ abrirArchivo s.fs n := by
    rw [abrirArchivo_eq hn]
    exact h n fcb hn
  have hcrear : llamaCrear s n = false := by
    unfold llamaCrear
    rw [decide_eq_false_iff_not]
    exact fun hc => hc.2 h0
  refine ⟨h0, hcrear, fun pid mode s' hs => ?_⟩
  obtain ⟨kernel, -, hs⟩ := Option.bind_eq_some_iff.mp hs
  obtain rfl := Option.some.inj hs
  simp only [fsTrasObtener, hcrear]
  exact ⟨hn, rfl⟩

/-- A negative truncation leaves a file that exists and is not found. -/
theorem sinNegativos_of_inocua {a : Accion cfg} (hs : atender s a = some s')
    (h : AperturaInocua s') : SinNegativos s a := by
  cases a with
  | truncar pid fileName size =>
    intro pcb hp hopen
    obtain ⟨pcb', -, hs⟩ := Option.bind_eq_some_iff.mp hs
    obtain ⟨b, hb⟩ := truncarArchivo_fcbs (onFileTruncate_fs hp hopen hs)
    have hget : s'.fs.fcbs.get fileName = some ⟨size, b⟩ := by
      rw [hb, Dict.get_put_self]
    have h0 := (h fileName _ hget).1
    rwa [abrirArchivo_eq hget] at h0
  | _ => trivial

theorem sinTamaniosNegativos_inicial (bloques : BloquesDat cfg.tamBloque) :
    SinTamaniosNegativos (inicial bloques).fs := by
  intro n fcb hn
  simp [inicial, FileSystem.Archivo.inicial] at hn

/-- **Opening a file never destroys it**, in any state of a run, exactly when no process of the run
truncates a file it has open to a negative size. -/
theorem apertura_inocua_iff (bloques : BloquesDat cfg.tamBloque) {as : List (Accion cfg)}
    {s : Sistema cfg} (hs : exec atender (inicial bloques) as = some s) :
    (∀ bs t, bs <+: as → exec atender (inicial bloques) bs = some t → AperturaInocua t) ↔
      Along atender SinNegativos (inicial bloques) as :=
  along_iff_states (I := fun s => SinTamaniosNegativos s.fs) (fun _ h => aperturaInocua h)
    (fun _ _ _ h ha hs => atender_sinTamaniosNegativos h ha hs)
    (fun _ _ _ _ hs h => sinNegativos_of_inocua hs h) (sinTamaniosNegativos_inicial bloques) hs

end

/-- One process creates a file, closes it and opens it again. -/
def reabre : List (Accion cfgChica) :=
  [.admitir, .despachar 1, .abrir 1 "a" .W, .truncar 1 "a" 16, .despachar 1, .cerrar 1 "a",
    .abrir 1 "a" .R]

theorem apertura_inocua_iff_reabre :
    ∃ s, exec atender (inicial fun _ _ => 0) reabre = some s ∧ AperturaInocua s := by
  obtain ⟨s, hs⟩ := Option.isSome_iff_exists.mp
    (show (exec atender (inicial fun _ _ => 0) reabre).isSome from by decide +kernel)
  refine ⟨s, hs, (apertura_inocua_iff _ hs).mpr ?_ reabre s (List.prefix_refl _) hs⟩
  exact ⟨trivial, fun _ _ => ⟨trivial, fun _ _ => ⟨trivial, fun _ _ =>
    ⟨fun _ _ _ => by decide, fun _ _ => ⟨trivial, fun _ _ => ⟨trivial, fun _ _ =>
      ⟨trivial, fun _ _ => trivial⟩⟩⟩⟩⟩⟩⟩

/-- The same with a truncation to `-100` before the close. -/
def recrea : List (Accion cfgChica) :=
  [.admitir, .despachar 1, .abrir 1 "a" .W, .truncar 1 "a" 16, .despachar 1,
    .truncar 1 "a" (-100), .despachar 1, .cerrar 1 "a"]

/-- The release of that many blocks is refused and the size recorded; the next open creates the file
again, so that its block is lost. -/
theorem apertura_destruye :
    ∃ s s', exec atender (inicial fun _ _ => 0) recrea = some s ∧
      onFileOpen s 1 "a" .R = some s' ∧
      s.fs.fcbs.get "a" = some ⟨-100, 1⟩ ∧ llamaCrear s "a" = true ∧
      s'.fs.fcbs.get "a" = some ⟨0, 0⟩ ∧ s'.fs.fat.take 3 = [UINT32_MAX, UINT32_MAX, 0] ∧
      ¬ AperturaInocua s := by
  obtain ⟨s, hs⟩ := Option.isSome_iff_exists.mp
    (show (exec atender (inicial fun _ _ => 0) recrea).isSome from by decide +kernel)
  have hfcb : (exec atender (inicial fun _ _ => 0) recrea).map
      (fun s => (s.fs.fcbs.get "a", llamaCrear s "a",
        (onFileOpen s 1 "a" .R).map fun s' => (s'.fs.fcbs.get "a", s'.fs.fat.take 3))) =
      some (some ⟨-100, 1⟩, true, some (some ⟨0, 0⟩, [UINT32_MAX, UINT32_MAX, 0])) := by
    decide +kernel
  rw [hs, Option.map_some, Option.some.injEq, Prod.mk.injEq, Prod.mk.injEq,
    Option.map_eq_some_iff] at hfcb
  obtain ⟨h1, h2, s', hs', h3⟩ := hfcb
  obtain ⟨h3, h4⟩ := Prod.mk.inj h3
  refine ⟨s, s', hs, hs', h1, h2, h3, h4, fun h => ?_⟩
  rw [(h "a" _ h1).2.1] at h2
  exact absurd h2 (by decide)

end OperatingSystem.Kernel.Filesystem
