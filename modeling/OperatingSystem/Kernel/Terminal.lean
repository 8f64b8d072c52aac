import OperatingSystem.Kernel.Hilos
import OperatingSystem.Lib.Run

/-! # EXIT is terminal

A thread that still has to put a process in the queue, to write a status of it or to take it back
from the CPU (`Peligro`) does so whatever the status of the process has become. `Inv` says that no
thread is about to do this to a process that ended, and that such a process is in neither list; it
survives every step but the one that writes `EXIT` while another thread has something left to do
with the process.

The main result `exit_terminal` is that `EXIT` is terminal in every run in which `EXIT` is never
written so. -/

namespace OperatingSystem.Kernel.Terminal

open OperatingSystem.Lib.Run
open OperatingSystem.Kernel.Proceso (Status OpCode)
open OperatingSystem.Kernel.Hilos

/-! ### What is left to do -/

/-- The instruction makes the process ready, gives it another status than `EXIT` or has it in the CPU. -/
def Peligro (p : ℤ) : Instr → Prop
  | .processOnReady pid => pid = p
  | .changeStatus pid nextStatus => pid = p ∧ nextStatus ≠ .EXIT
  | .cpuExecute pid => pid = p
  | .simulateProcessBlock pid => pid = p
  | .requestMemoryToLoadPage pid result => pid = p ∧ result = true
  | _ => False

instance (p : ℤ) (instr : Instr) : Decidable (Peligro p instr) := by
  cases instr <;> unfold Peligro <;> infer_instance

/-- The PCB that the instruction has a pointer to. -/
def apunta : Instr → Option ℤ
  | .processOnReady pid | .removeProcess pid | .changeStatus pid _ | .exitProcess pid
  | .onEvicted pid | .plannerEvict pid _ | .whileExec pid | .cpuExecute pid
  | .simulateProcessBlock pid | .requestMemoryToLoadPage pid _ | .forceExit pid _ => some pid
  | _ => none

theorem Peligro.apunta {p : ℤ} {instr : Instr} (h : Peligro p instr) : apunta instr = some p := by
  cases instr <;> simp_all [Peligro, Terminal.apunta]

/-- The instruction is of a PCB that exists, it is no danger to a process that ended, and a process
about to end has left the list of the running ones. -/
structure Bien (s : Estado) (instr : Instr) : Prop where
  conocido : ∀ q, apunta instr = some q → q ≤ s.lastPid
  inofensivo : ∀ p, s.currentStatus p = .EXIT → ¬ Peligro p instr
  fuera : ∀ p, instr = .changeStatus p .EXIT → p ∉ s.running

/-- **The invariant of the threads.** -/
structure Inv (s : Estado) : Prop where
  hilos : ∀ hilo, ∀ instr ∈ s.hilos hilo, Bien s instr
  nodup : s.running.Nodup
  running : ∀ q ∈ s.running, q ≤ s.lastPid
  ready : ∀ q ∈ s.ready, q ≤ s.lastPid
  terminados : ∀ p, s.currentStatus p = .EXIT → p ≤ s.lastPid ∧ p ∉ s.running ∧ p ∉ s.ready

theorem inv_estadoInicial : Inv estadoInicial := by
  refine ⟨?_, List.nodup_nil, ?_, ?_, ?_⟩ <;> simp [estadoInicial]

section

variable {s s' : Estado} {instr : Instr} {prog resto : List Instr} {pid p : ℤ} {hilo : ℕ}

/-- No process ends, and those that come to be running are new. -/
structure Sigue (s s' : Estado) : Prop where
  lastPid : s.lastPid ≤ s'.lastPid
  running : ∀ q ∈ s'.running, q ∈ s.running ∨ s.lastPid < q
  currentStatus : ∀ p, s'.currentStatus p = .EXIT → s.currentStatus p = .EXIT

theorem Sigue.refl (s : Estado) : Sigue s s := ⟨le_rfl, fun _ hq => Or.inl hq, fun _ hp => hp⟩

theorem Bien.sigue (h : Bien s instr) (hs : Sigue s s') : Bien s' instr := by
  refine ⟨fun q hq => (h.conocido q hq).trans hs.lastPid,
    fun p hp => h.inofensivo p (hs.currentStatus p hp), fun p hp hmem => ?_⟩
  rcases hs.running p hmem with hmem | hlt
  · exact h.fuera p hp hmem
  · have := h.conocido p (by rw [hp]; rfl)
    omega

/-- A step that ends no process keeps the invariant if the instructions it adds are right and no
process that ended gets into the queue. -/
theorem Inv.sigue (h : Inv s) (hs : Sigue s s')
    (hhilos : ∀ hilo, ∀ instr ∈ s'.hilos hilo, Bien s' instr ∨ ∃ j, instr ∈ s.hilos j)
    (hnd : s'.running.Nodup) (hrun : ∀ q ∈ s'.running, q ≤ s'.lastPid)
    (hready : ∀ q ∈ s'.ready, q ≤ s'.lastPid ∧ (q ∈ s.ready ∨ s.currentStatus q ≠ .EXIT)) :
    Inv s' := by
  refine ⟨fun hilo instr hin => ?_, hnd, hrun, fun q hq => (hready q hq).1, fun p hp => ?_⟩
  · rcases hhilos hilo instr hin with hb | ⟨j, hj⟩
    · exact hb
    · exact (h.hilos j instr hj).sigue hs
  · obtain ⟨h1, h2, h3⟩ := h.terminados p (hs.currentStatus p hp)
    refine ⟨h1.trans hs.lastPid, fun hmem => ?_, fun hmem => ?_⟩
    · rcases hs.running p hmem with hmem | hlt
      · exact h2 hmem
      · omega
    · rcases (hready p hmem).2 with hmem | hne
      · exact h3 hmem
      · exact hne (hs.currentStatus p hp)

/-- A thread with other things to do. -/
theorem Inv.continuar (h : Inv s) (hilo : ℕ) (hprog : ∀ instr ∈ prog, Bien s instr) :
    Inv (continuar s hilo prog) := by
  refine h.sigue ⟨le_rfl, fun _ hq => Or.inl hq, fun _ hp => hp⟩ (fun j instr hin => ?_) h.nodup
    h.running fun q hq => ⟨h.ready q hq, Or.inl hq⟩
  by_cases hj : j = hilo
  · subst hj
    have hin' : instr ∈ prog := by simpa [Hilos.continuar] using hin
    exact Or.inl ((hprog instr hin').sigue ⟨le_rfl, fun _ hq => Or.inl hq, fun _ hp => hp⟩)
  · exact Or.inr ⟨j, by simpa [Hilos.continuar, hj] using hin⟩

/-! ### The programs -/

/-- What has to do with one process that has not ended. -/
theorem bien_de (hpid : pid ≤ s.lastPid) (hst : s.currentStatus pid ≠ .EXIT)
    (hap : ∀ q, apunta instr = some q → q = pid) (hno : ∀ p, instr ≠ .changeStatus p .EXIT) :
    Bien s instr :=
  ⟨fun q hq => hap q hq ▸ hpid, fun p hp hpel => hst (hap p hpel.apunta ▸ hp),
    fun p hp => absurd hp (hno p)⟩

/-- What is no danger to any process. -/
theorem bien_inofensivo (hap : ∀ q, apunta instr = some q → q ≤ s.lastPid)
    (hpel : ∀ p, ¬ Peligro p instr) (hno : ∀ p, instr ≠ .changeStatus p .EXIT) : Bien s instr :=
  ⟨hap, fun p _ => hpel p, fun p hp => absurd hp (hno p)⟩

theorem bien_readyProcess (hpid : pid ≤ s.lastPid) (hst : s.currentStatus pid ≠ .EXIT) :
    ∀ instr ∈ readyProcess pid, Bien s instr := fun instr hin => by
  simp only [readyProcess, List.mem_cons, List.not_mem_nil, or_false] at hin
  obtain rfl | rfl | rfl := hin <;> exact bien_de hpid hst (by simp [apunta]) (by simp)

theorem bien_salir (hpid : pid ≤ s.lastPid) : ∀ instr ∈ salir pid, Bien s instr := fun instr hin => by
  simp only [salir, List.mem_cons, List.not_mem_nil, or_false] at hin
  obtain rfl | rfl := hin <;>
    exact bien_inofensivo (by simpa [apunta] using hpid) (by simp [Peligro]) (by simp)

theorem bien_releaseResource (hpid : pid ≤ s.lastPid) (libera : Liberacion) :
    ∀ instr ∈ releaseResource pid libera, Bien s instr := fun instr hin => by
  cases libera with
  | despierta nextPid =>
    obtain rfl : instr = .assignResource nextPid := by simpa [releaseResource] using hin
    exact bien_inofensivo (by simp [apunta]) (by simp [Peligro]) (by simp)
  | nadie => simp [releaseResource] at hin
  | error => exact bien_salir hpid instr hin

theorem bien_forceExit (hpid : pid ≤ s.lastPid) (libera : List Liberacion) :
    ∀ instr ∈ forceExitProcess pid libera ++ salir pid, Bien s instr := fun instr hin => by
  rcases List.mem_append.mp hin with hin | hin
  · obtain ⟨l, -, hin⟩ := List.mem_flatMap.mp hin
    exact bien_releaseResource hpid l instr hin
  · exact bien_salir hpid instr hin

theorem bien_blockAndReady (hpid : pid ≤ s.lastPid) (hst : s.currentStatus pid ≠ .EXIT) :
    ∀ instr ∈ blockAndReady pid, Bien s instr := fun instr hin => by
  rcases List.mem_cons.mp hin with rfl | hin
  · exact bien_de hpid hst (by simp [apunta]) (by simp)
  · exact bien_readyProcess hpid hst instr hin

/-- **The handlers** of a process that comes back from the CPU. -/
theorem bien_handleCpuEviction (hpid : pid ≤ s.lastPid) (hst : s.currentStatus pid ≠ .EXIT)
    (motivo : Motivo) : ∀ instr ∈ handleCpuEviction pid motivo, Bien s instr := by
  have huno : ∀ {instr : Instr}, (∀ q, apunta instr = some q → q = pid) →
      (∀ p, instr ≠ .changeStatus p .EXIT) → Bien s instr := bien_de hpid hst
  cases motivo with
  | waitAsignado => exact bien_readyProcess hpid hst
  | waitOcupado => simpa [handleCpuEviction] using huno (by simp [apunta]) (by simp)
  | waitNoDefinido => exact bien_salir hpid
  | signal libera => exact bien_releaseResource hpid libera
  | sleep blockTime =>
    intro instr hin
    rcases List.mem_cons.mp hin with rfl | hin
    · exact huno (by simp [apunta]) (by simp)
    · split_ifs at hin
      · obtain rfl := List.mem_singleton.mp hin
        exact huno (by simp [apunta]) (by simp)
      · simp at hin
  | evicted => simpa [handleCpuEviction] using huno (by simp [apunta]) (by simp)
  | pageFault result =>
    intro instr hin
    simp only [handleCpuEviction, List.mem_cons, List.not_mem_nil, or_false] at hin
    obtain rfl | rfl | rfl := hin <;> exact huno (by simp [apunta]) (by simp)
  | fOpen abierto =>
    cases abierto
    · simpa [handleCpuEviction] using huno (by simp [apunta]) (by simp)
    · simp [handleCpuEviction]
  | fClose wakes =>
    intro instr hin
    obtain ⟨q, -, rfl⟩ := List.mem_map.mp hin
    exact huno (by simp [apunta]) (by simp)
  | fSeek hallado =>
    cases hallado
    · simp [handleCpuEviction]
    · exact bien_readyProcess hpid hst
  | fTruncate hallado | fRead hallado =>
    cases hallado
    · simp [handleCpuEviction]
    · exact bien_blockAndReady hpid hst
  | fWrite hallado modoW =>
    cases hallado
    · simp [handleCpuEviction]
    · cases modoW
      · simpa [handleCpuEviction] using huno (by simp [apunta]) (by simp)
      · exact bien_blockAndReady hpid hst
  | exit libera => exact bien_forceExit hpid libera

/-! ### Steps -/

/-- When `EXIT` is written, no thread has anything left to do with the process, and it is not in the
queue. -/
def SinPendientes (s : Estado) (p : ℤ) : Prop :=
  p ∉ s.ready ∧ ∀ hilo, ∀ instr ∈ s.hilos hilo, ¬ Peligro p instr

/-- What is known after an instruction: the invariant, and that what the thread has left to do is
right. -/
def Despues (s : Estado) (prog : List Instr) : Prop := Inv s ∧ ∀ instr ∈ prog, Bien s instr

/-- The lists, the statuses and the threads stay as they are. -/
theorem Inv.mismo (h : Inv s) (hst : s'.currentStatus = s.currentStatus)
    (hrun : s'.running = s.running) (hready : s'.ready = s.ready) (hlast : s'.lastPid = s.lastPid)
    (hhilos : s'.hilos = s.hilos) (hprog : ∀ instr ∈ prog, Bien s instr) : Despues s' prog := by
  have hs : Sigue s s' := ⟨by rw [hlast], fun q hq => Or.inl (hrun ▸ hq), fun p hp => hst ▸ hp⟩
  refine ⟨h.sigue hs (fun j instr hin => Or.inr ⟨j, hhilos ▸ hin⟩) (hrun ▸ h.nodup)
    (fun q hq => ?_) fun q hq => ?_, fun instr hin => (hprog instr hin).sigue hs⟩
  · rw [hlast]
    exact h.running q (hrun ▸ hq)
  · rw [hlast]
    exact ⟨h.ready q (hready ▸ hq), Or.inl (hready ▸ hq)⟩

/-- A new thread. -/
theorem Inv.runInDetachedThread (h : Inv s) (hprog : ∀ instr ∈ prog, Bien s instr)
    (hresto : ∀ instr ∈ resto, Bien s instr) : Despues (runInDetachedThread s prog) resto :=
  (h.continuar s.cantHilos hprog).mismo rfl rfl rfl rfl rfl fun instr hin =>
    (hresto instr hin).sigue ⟨le_rfl, fun _ hq => Or.inl hq, fun _ hp => hp⟩

/-- A process that runs has not ended. -/
theorem Inv.vivo (h : Inv s) (hpid : pid ∈ s.running) : s.currentStatus pid ≠ .EXIT := fun hst =>
  (h.terminados pid hst).2.1 hpid

/-- A process that a thread is about to change has not ended. -/
theorem Bien.vivo (hb : Bien s instr) (hpel : Peligro pid instr) : s.currentStatus pid ≠ .EXIT :=
  fun hst => hb.inofensivo pid hst hpel

/-- A process joins the queue. -/
theorem Inv.processOnReady (h : Inv s) (hpid : pid ≤ s.lastPid) (hst : s.currentStatus pid ≠ .EXIT)
    (hresto : ∀ instr ∈ resto, Bien s instr) :
    Despues { s with ready := s.ready ++ [pid] } resto := by
  have hs : Sigue s { s with ready := s.ready ++ [pid] } :=
    ⟨le_rfl, fun _ hq => Or.inl hq, fun _ hp => hp⟩
  refine ⟨h.sigue hs (fun j instr hin => Or.inr ⟨j, hin⟩) h.nodup h.running fun q hq => ?_,
    fun instr hin => (hresto instr hin).sigue hs⟩
  rcases List.mem_append.mp hq with hq | hq
  · exact ⟨h.ready q hq, Or.inl hq⟩
  · obtain rfl := List.mem_singleton.mp hq
    exact ⟨hpid, Or.inr hst⟩

/-- A process leaves the queue. -/
theorem Inv.removeProcess (h : Inv s) (pid : ℤ) (hresto : ∀ instr ∈ resto, Bien s instr) :
    Despues { s with ready := s.ready.erase pid } resto := by
  have hs : Sigue s { s with ready := s.ready.erase pid } :=
    ⟨le_rfl, fun _ hq => Or.inl hq, fun _ hp => hp⟩
  exact ⟨h.sigue hs (fun j instr hin => Or.inr ⟨j, hin⟩) h.nodup h.running fun q hq =>
    ⟨h.ready q (List.mem_of_mem_erase hq), Or.inl (List.mem_of_mem_erase hq)⟩,
    fun instr hin => (hresto instr hin).sigue hs⟩

/-- A process leaves the list of the running ones, and is about to end. -/
theorem Inv.exitProcess (h : Inv s) (hpid : pid ≤ s.lastPid)
    (hresto : ∀ instr ∈ resto, Bien s instr) :
    Despues { s with running := s.running.erase pid } (.changeStatus pid .EXIT :: resto) := by
  have hs : Sigue s { s with running := s.running.erase pid } :=
    ⟨le_rfl, fun _ hq => Or.inl (List.mem_of_mem_erase hq), fun _ hp => hp⟩
  refine ⟨h.sigue hs (fun j instr hin => Or.inr ⟨j, hin⟩) (h.nodup.erase pid)
    (fun q hq => h.running q (List.mem_of_mem_erase hq)) fun q hq => ⟨h.ready q hq, Or.inl hq⟩,
    fun instr hin => ?_⟩
  rcases List.mem_cons.mp hin with rfl | hin
  · refine ⟨fun q hq => ?_, fun p _ hpel => hpel.2 rfl, fun p hp => ?_⟩
    · obtain rfl : pid = q := by simpa [apunta] using hq
      exact hpid
    · obtain rfl : pid = p := by simpa using hp
      exact h.nodup.not_mem_erase
  · exact (hresto instr hin).sigue hs

/-- A process that has not ended gets another status than `EXIT`. -/
theorem Inv.changeStatus (h : Inv s) {st : Status} (hst : st ≠ .EXIT)
    (hresto : ∀ instr ∈ resto, Bien s instr) :
    Despues { s with currentStatus := Function.update s.currentStatus pid st } resto := by
  have hs : Sigue s { s with currentStatus := Function.update s.currentStatus pid st } := by
    refine ⟨le_rfl, fun _ hq => Or.inl hq, fun p hp => ?_⟩
    by_cases hpp : p = pid
    · subst hpp
      exact absurd ((Function.update_self ..).symm.trans hp) hst
    · exact (Function.update_of_ne hpp ..).symm.trans hp
  exact ⟨h.sigue hs (fun j instr hin => Or.inr ⟨j, hin⟩) h.nodup h.running fun q hq =>
    ⟨h.ready q hq, Or.inl hq⟩, fun instr hin => (hresto instr hin).sigue hs⟩

/-- **A process ends** when nobody has anything left to do with it. -/
theorem Inv.exit (h : Inv s) (hb : Bien s (.changeStatus pid .EXIT)) (hsin : SinPendientes s pid)
    (hresto : ∀ instr ∈ resto, Bien s instr) (hpel : ∀ instr ∈ resto, ¬ Peligro pid instr) :
    Despues { s with currentStatus := Function.update s.currentStatus pid .EXIT } resto := by
  have hexit : ∀ {p}, Function.update s.currentStatus pid .EXIT p = .EXIT →
      p = pid ∨ s.currentStatus p = .EXIT := fun {p} hp => by
    by_cases hpp : p = pid
    · exact Or.inl hpp
    · exact Or.inr ((Function.update_of_ne hpp ..).symm.trans hp)
  have hbien : ∀ {instr}, Bien s instr → ¬ Peligro pid instr →
      Bien { s with currentStatus := Function.update s.currentStatus pid .EXIT } instr :=
    fun hi hno => ⟨hi.conocido, fun p hp => by
      rcases hexit hp with rfl | hp
      · exact hno
      · exact hi.inofensivo p hp, hi.fuera⟩
  refine ⟨⟨fun j instr hin => hbien (h.hilos j instr hin) (hsin.2 j instr hin), h.nodup, h.running,
    h.ready, fun p hp => ?_⟩, fun instr hin => hbien (hresto instr hin) (hpel instr hin)⟩
  rcases hexit hp with rfl | hp
  · exact ⟨hb.conocido p rfl, hb.fuera p rfl, hsin.1⟩
  · exact h.terminados p hp

/-- **One instruction.** -/
theorem ejecutar_spec (h : Inv s) (hb : Bien s instr) (hresto : ∀ ins ∈ resto, Bien s ins)
    (hexit : ∀ p, instr = .changeStatus p .EXIT →
      SinPendientes s p ∧ ∀ ins ∈ resto, ¬ Peligro p ins)
    {r : Estado × List Instr} (hr : ejecutar s instr = some r) : Despues r.1 (r.2 ++ resto) := by
  -- a thread that goes on with `prog` in the same state
  have hsigue : ∀ {prog : List Instr}, (∀ ins ∈ prog, Bien s ins) → Despues s (prog ++ resto) :=
    fun hprog => ⟨h, fun ins hin => (List.mem_append.mp hin).elim (hprog ins) (hresto ins)⟩
  have hnada : ∀ ins ∈ ([] : List Instr), Bien s ins := by simp
  cases instr with
  | processOnReady pid =>
    obtain rfl := Option.some.inj hr
    exact h.processOnReady (hb.conocido pid rfl) (hb.vivo rfl) hresto
  | removeProcess pid =>
    obtain rfl := Option.some.inj hr
    exact h.removeProcess pid hresto
  | changeStatus pid st =>
    obtain rfl := Option.some.inj hr
    by_cases hst : st = .EXIT
    · subst hst
      obtain ⟨hsin, hpel⟩ := hexit pid rfl
      exact h.exit hb hsin hresto hpel
    · exact h.changeStatus hst hresto
  | exitProcess pid =>
    obtain rfl := Option.some.inj hr
    exact h.exitProcess (hb.conocido pid rfl) hresto
  | postReady =>
    obtain rfl := Option.some.inj hr
    exact h.mismo rfl rfl rfl rfl rfl hresto
  | assignResource pid =>
    obtain rfl := Option.some.inj hr
    refine hsigue ?_
    split_ifs with hrun
    · exact bien_readyProcess (h.running pid hrun) (h.vivo hrun)
    · exact hnada
  | assignOpenFile pid =>
    simp only [ejecutar] at hr
    split_ifs at hr with hrun
    obtain rfl := Option.some.inj hr
    exact hsigue (bien_readyProcess (h.running pid hrun) (h.vivo hrun))
  | onEvicted pid =>
    obtain rfl := Option.some.inj hr
    refine hsigue ?_
    split_ifs with hst
    · exact bien_readyProcess (hb.conocido pid rfl) hst
    · exact hnada
  | plannerEvict pid reason =>
    simp only [ejecutar] at hr
    split_ifs at hr
    · obtain rfl := Option.some.inj hr
      exact h.mismo rfl rfl rfl rfl rfl hresto
    · obtain rfl := Option.some.inj hr
      exact hsigue hnada
  | whileExec pid =>
    obtain rfl := Option.some.inj hr
    refine hsigue ?_
    split_ifs with hst
    · intro ins hin
      obtain rfl := List.mem_singleton.mp hin
      exact bien_de (hb.conocido pid rfl) (by rw [hst]; simp) (by simp [apunta]) (by simp)
    · exact hnada
  | cpuExecute pid => simp [ejecutar] at hr
  | waitPageFault =>
    simp only [ejecutar] at hr
    split_ifs at hr
    obtain rfl := Option.some.inj hr
    exact h.mismo rfl rfl rfl rfl rfl hresto
  | postPageFault =>
    obtain rfl := Option.some.inj hr
    exact h.mismo rfl rfl rfl rfl rfl hresto
  | simulateProcessBlock pid =>
    obtain rfl := Option.some.inj hr
    exact h.runInDetachedThread (bien_readyProcess (hb.conocido pid rfl) (hb.vivo rfl)) hresto
  | requestMemoryToLoadPage pid result =>
    obtain rfl := Option.some.inj hr
    refine h.runInDetachedThread (fun ins hin => ?_) hresto
    rcases List.mem_append.mp hin with hin | hin
    · cases result with
      | true => exact bien_readyProcess (hb.conocido pid rfl) (hb.vivo ⟨rfl, rfl⟩) ins hin
      | false => simp at hin
    · obtain rfl := List.mem_singleton.mp hin
      exact bien_inofensivo (by simp [apunta]) (by simp [Peligro]) (by simp)
  | findForced pid libera =>
    obtain rfl := Option.some.inj hr
    refine hsigue ?_
    split_ifs with hrun
    · intro ins hin
      obtain rfl := List.mem_singleton.mp hin
      exact bien_inofensivo (by simpa [apunta] using h.running pid hrun) (by simp [Peligro])
        (by simp)
    · exact hnada
  | forceExit pid libera =>
    simp only [ejecutar] at hr
    split_ifs at hr
    · obtain rfl := Option.some.inj hr
      exact h.mismo rfl rfl rfl rfl rfl hresto
    · obtain rfl := Option.some.inj hr
      exact hsigue (bien_forceExit (hb.conocido pid rfl) libera)

/-- Only one instruction writes a status. -/
theorem ejecutar_currentStatus {r : Estado × List Instr} (hr : ejecutar s instr = some r) :
    r.1.currentStatus = s.currentStatus ∨ ∃ pid st, instr = .changeStatus pid st ∧
      r.1.currentStatus = Function.update s.currentStatus pid st := by
  cases instr with
  | changeStatus pid st =>
    obtain rfl := Option.some.inj hr
    exact Or.inr ⟨pid, st, rfl, rfl⟩
  | cpuExecute pid => simp [ejecutar] at hr
  | assignOpenFile | plannerEvict | waitPageFault | forceExit =>
    left
    simp only [ejecutar] at hr
    split_ifs at hr <;> obtain rfl := Option.some.inj hr <;> rfl
  | _ =>
    obtain rfl := Option.some.inj hr
    exact Or.inl rfl

/-- **When `EXIT` is terminal**: a thread that writes `EXIT` to a process is the last that has anything
left to do with it, and the process is not in the queue. -/
def Condicion (s : Estado) : Accion → Prop
  | .paso hilo => ∀ p, (s.hilos hilo).head? = some (.changeStatus p .EXIT) → SinPendientes s p
  | _ => True

/-- A thread does its next instruction. -/
theorem paso_eq (hs : atender s (.paso hilo) = some s') : ∃ instr resto r,
    s.hilos hilo = instr :: resto ∧ ejecutar (continuar s hilo resto) instr = some r ∧
      s' = continuar r.1 hilo (r.2 ++ resto) := by
  cases hh : s.hilos hilo with
  | nil => simp [atender, hh] at hs
  | cons instr resto =>
    simp only [atender, hh, Option.map_eq_some_iff] at hs
    obtain ⟨r, hr, rfl⟩ := hs
    exact ⟨instr, resto, r, rfl, hr, rfl⟩

/-- The process comes back from the CPU. -/
theorem cpu_eq {motivo : Motivo} (hs : atender s (.cpu motivo) = some s') : ∃ pid resto,
    s.hilos STP = .cpuExecute pid :: resto ∧
      s' = continuar s STP (handleCpuEviction pid motivo ++ .whileExec pid :: resto) := by
  simp only [atender] at hs
  split at hs
  case h_1 pid resto hh => exact ⟨pid, resto, hh, (Option.some.inj hs).symm⟩
  case h_2 => cases hs

/-- The planner finds its queue empty, or takes a process of it. -/
theorem planificar_eq {pid : Option ℤ} (hs : atender s (.planificar pid) = some s') :
    s' = { s with readyProcessEvent := s.readyProcessEvent - 1 } ∨ ∃ q ∈ s.ready,
      s' = continuar { s with
          readyProcessEvent := s.readyProcessEvent - 1
          ready := s.ready.erase q } STP [.changeStatus q .EXEC, .whileExec q] := by
  simp only [atender] at hs
  split at hs
  case isFalse => cases hs
  case isTrue =>
    cases pid with
    | none =>
      simp only at hs
      split_ifs at hs
      exact Or.inl (Option.some.inj hs).symm
    | some q =>
      simp only at hs
      split_ifs at hs with hq
      exact Or.inr ⟨q, hq, (Option.some.inj hs).symm⟩

/-- An interruption is asked for, or not. -/
theorem desalojar_eq {reason : OpCode} (hs : atender s (.desalojar pid reason) = some s') :
    s' = s ∨ s' = { s with interruptions := s.interruptions ++ [(pid, reason)] } := by
  simp only [atender, ejecutar] at hs
  split_ifs at hs
  · exact Or.inr (Option.some.inj hs).symm
  · exact Or.inl (Option.some.inj hs).symm

theorem paso_spec (h : Inv s) (hc : Condicion s (.paso hilo))
    (hs : atender s (.paso hilo) = some s') : Inv s' := by
  obtain ⟨instr, resto, r, hh, hr, rfl⟩ := paso_eq hs
  have hin : ∀ ins ∈ instr :: resto, Bien s ins := hh ▸ h.hilos hilo
  have hresto : ∀ ins ∈ resto, Bien s ins := fun ins hm => hin ins (List.mem_cons_of_mem _ hm)
  have hsig : Sigue s (continuar s hilo resto) := ⟨le_rfl, fun _ hq => Or.inl hq, fun _ hp => hp⟩
  have hexit : ∀ p, instr = .changeStatus p .EXIT →
      SinPendientes (continuar s hilo resto) p ∧ ∀ ins ∈ resto, ¬ Peligro p ins := fun p hp => by
    have hsin := hc p (by rw [hh, hp]; rfl)
    have hpel : ∀ ins ∈ resto, ¬ Peligro p ins := fun ins hm =>
      hsin.2 hilo ins (by rw [hh]; exact List.mem_cons_of_mem _ hm)
    refine ⟨⟨hsin.1, fun j ins hm => ?_⟩, hpel⟩
    by_cases hj : j = hilo
    · subst hj
      exact hpel ins (by simpa [continuar] using hm)
    · exact hsin.2 j ins (by simpa [continuar, hj] using hm)
  obtain ⟨hinv, hprog⟩ := ejecutar_spec (h.continuar hilo hresto)
    ((hin instr List.mem_cons_self).sigue hsig) (fun ins hm => (hresto ins hm).sigue hsig) hexit hr
  exact hinv.continuar hilo hprog

theorem cpu_spec (h : Inv s) {motivo : Motivo} (hs : atender s (.cpu motivo) = some s') : Inv s' := by
  obtain ⟨pid, resto, hh, rfl⟩ := cpu_eq hs
  have hb := h.hilos STP (.cpuExecute pid) (by simp [hh])
  have hpid := hb.conocido pid rfl
  have hst : s.currentStatus pid ≠ .EXIT := hb.vivo rfl
  refine h.continuar STP fun ins hm => ?_
  rcases List.mem_append.mp hm with hm | hm
  · exact bien_handleCpuEviction hpid hst motivo ins hm
  · rcases List.mem_cons.mp hm with rfl | hm
    · exact bien_de hpid hst (by simp [apunta]) (by simp)
    · exact h.hilos STP ins (by rw [hh]; exact List.mem_cons_of_mem _ hm)

theorem planificar_spec (h : Inv s) {pid : Option ℤ} (hs : atender s (.planificar pid) = some s') :
    Inv s' := by
  have h₁ : Despues { s with readyProcessEvent := s.readyProcessEvent - 1 } [] :=
    h.mismo rfl rfl rfl rfl rfl (by simp)
  obtain rfl | ⟨q, hready, rfl⟩ := planificar_eq hs
  · exact h₁.1
  · have hst : s.currentStatus q ≠ .EXIT := fun hst => (h.terminados q hst).2.2 hready
    have hprog : ∀ ins ∈ [.changeStatus q .EXEC, .whileExec q],
        Bien { s with readyProcessEvent := s.readyProcessEvent - 1 } ins := fun ins hm => by
      simp only [List.mem_cons, List.not_mem_nil, or_false] at hm
      obtain rfl | rfl := hm <;> exact bien_de (h.ready q hready) hst (by simp [apunta]) (by simp)
    obtain ⟨h₂, hprog₂⟩ := h₁.1.removeProcess q hprog
    exact h₂.continuar STP hprog₂

/-- The new process has not ended, and nobody is about to end it. -/
theorem admitir_spec (h : Inv s) (hs : atender s .admitir = some s') : Inv s' := by
  simp only [atender] at hs
  split_ifs at hs
  obtain rfl := Option.some.inj hs
  have hno : s.lastPid + 1 ∉ s.running := fun hm => by
    have := h.running _ hm
    omega
  have hsig : Sigue s
      { s with lastPid := s.lastPid + 1, running := s.running ++ [s.lastPid + 1] } := by
    refine ⟨by simp, fun q hq => ?_, fun p hp => hp⟩
    rcases List.mem_append.mp hq with hq | hq
    · exact Or.inl hq
    · rw [List.mem_singleton.mp hq]
      exact Or.inr (by omega)
  have hnd : (s.running ++ [s.lastPid + 1]).Nodup := List.nodup_append.mpr ⟨h.nodup, by simp, by
    simpa using fun x hx (he : x = s.lastPid + 1) => hno (he ▸ hx)⟩
  refine Inv.continuar (h.sigue hsig (fun j ins hm => Or.inr ⟨j, hm⟩) hnd (fun q hq => ?_)
    fun q hq => ⟨(h.ready q hq).trans hsig.lastPid, Or.inl hq⟩) LTP
    (bien_readyProcess le_rfl fun hst => ?_)
  · rcases List.mem_append.mp hq with hq | hq
    · exact (h.running q hq).trans hsig.lastPid
    · rw [List.mem_singleton.mp hq]
  · have := (h.terminados _ hst).1
    omega

/-- **A step keeps the invariant.** -/
theorem atender_spec (h : Inv s) {a : Accion} (hc : Condicion s a) (hs : atender s a = some s') :
    Inv s' := by
  cases a with
  | paso hilo => exact paso_spec h hc hs
  | cpu motivo => exact cpu_spec h hs
  | planificar pid => exact planificar_spec h hs
  | admitir => exact admitir_spec h hs
  | finalizar pid libera =>
    simp only [atender] at hs
    split_ifs at hs
    obtain rfl := Option.some.inj hs
    refine h.continuar CONSOLA fun ins hm => ?_
    obtain rfl := List.mem_singleton.mp hm
    exact bien_inofensivo (by simp [apunta]) (by simp [Peligro]) (by simp)
  | desalojar pid reason =>
    obtain rfl | rfl := desalojar_eq hs
    · exact h
    · have h₁ : Despues { s with interruptions := s.interruptions ++ [(pid, reason)] } [] :=
        h.mismo rfl rfl rfl rfl rfl (by simp)
      exact h₁.1

/-- **A step leaves `EXIT` as it is.** -/
theorem atender_exit (h : Inv s) {a : Accion} (hs : atender s a = some s')
    (hp : s.currentStatus p = .EXIT) : s'.currentStatus p = .EXIT := by
  cases a with
  | paso hilo =>
    obtain ⟨instr, resto, r, hh, hr, rfl⟩ := paso_eq hs
    rcases ejecutar_currentStatus hr with heq | ⟨pid, st, rfl, heq⟩
    · exact (congrFun heq p).trans hp
    · refine (congrFun heq p).trans ?_
      by_cases hpp : p = pid
      · subst hpp
        by_contra hst
        rw [Function.update_self] at hst
        have hb := h.hilos hilo (.changeStatus p st) (by rw [hh]; exact List.mem_cons_self)
        exact hb.inofensivo p hp ⟨rfl, hst⟩
      · exact (Function.update_of_ne hpp ..).trans hp
  | cpu motivo =>
    obtain ⟨pid, resto, -, rfl⟩ := cpu_eq hs
    exact hp
  | planificar pid =>
    obtain rfl | ⟨q, -, rfl⟩ := planificar_eq hs
    · exact hp
    · exact hp
  | admitir | finalizar =>
    simp only [atender] at hs
    split_ifs at hs
    obtain rfl := Option.some.inj hs
    exact hp
  | desalojar pid reason =>
    obtain rfl | rfl := desalojar_eq hs
    · exact hp
    · exact hp

end

/-! ### Runs -/

/-- The process ended: it is not in the queue, and no thread has it in the CPU. -/
structure Terminado (s : Estado) (p : ℤ) : Prop where
  currentStatus : s.currentStatus p = .EXIT
  ready : p ∉ s.ready
  cpu : ∀ hilo, .cpuExecute p ∉ s.hilos hilo

/-- **`EXIT` is terminal.** -/
theorem exit_terminal (as bs : List Accion) {s s' : Estado} {p : ℤ}
    (h : Along atender Condicion estadoInicial (as ++ bs))
    (hs : exec atender estadoInicial as = some s) (hexit : s.currentStatus p = .EXIT)
    (hs' : exec atender s bs = some s') : Terminado s' p := by
  obtain ⟨has, hbs⟩ := along_append.mp h
  have hinv : Inv s := exec_invariant (fun _ _ _ hI hC hst => atender_spec hI hC hst)
    inv_estadoInicial has hs
  obtain ⟨hinv', hexit'⟩ := exec_invariant (I := fun s => Inv s ∧ s.currentStatus p = .EXIT)
    (fun _ _ _ hI hC hst => ⟨atender_spec hI.1 hC hst, atender_exit hI.1 hst hI.2⟩)
    ⟨hinv, hexit⟩ (hbs s hs) hs'
  exact ⟨hexit', (hinv'.terminados p hexit').2.2, fun hilo hmem =>
    (hinv'.hilos hilo _ hmem).inofensivo p hexit' rfl⟩

/-- The console ends a process of the queue, and the planner finds the queue empty. -/
theorem exit_terminal_listo : ∃ s s',
    exec atender estadoInicial [.admitir, .paso LTP, .paso LTP, .paso LTP, .finalizar 1 [],
        .paso CONSOLA, .paso CONSOLA, .paso CONSOLA, .paso CONSOLA, .paso CONSOLA] = some s ∧
      exec atender s [.planificar none] = some s' ∧ Terminado s' 1 := by
  have hpaso : ∀ {s : Estado} {hilo : ℕ} (instr : Instr), (s.hilos hilo).head? = some instr →
      (∀ p, instr = .changeStatus p .EXIT → SinPendientes s p) → Condicion s (.paso hilo) :=
    fun instr hh h p hp => h p (Option.some.inj (hh.symm.trans hp))
  have hsale : ∀ {s : Estado} {hilo : ℕ} {p : ℤ}, (s.hilos hilo).head? = some (.changeStatus p .EXIT) →
      SinPendientes s p → Condicion s (.paso hilo) := by
    intro s hilo p hh hs
    refine hpaso _ hh fun q hq => ?_
    obtain ⟨rfl, -⟩ := Instr.changeStatus.inj hq
    exact hs
  refine ⟨_, _, rfl, rfl, exit_terminal [.admitir, .paso LTP, .paso LTP, .paso LTP,
    .finalizar 1 [], .paso CONSOLA, .paso CONSOLA, .paso CONSOLA, .paso CONSOLA, .paso CONSOLA]
    [.planificar none] ?_ rfl (by decide) rfl⟩
  refine .of_step trivial rfl <|
    .of_step (hpaso _ rfl fun p hp => nomatch hp) rfl <|
    .of_step (hpaso _ rfl fun p hp => nomatch hp) rfl <|
    .of_step (hpaso _ rfl fun p hp => nomatch hp) rfl <|
    .of_step trivial rfl <|
    .of_step (hpaso _ rfl fun p hp => nomatch hp) rfl <|
    .of_step (hpaso _ rfl fun p hp => nomatch hp) rfl <|
    .of_step (hpaso _ rfl fun p hp => nomatch hp) rfl <|
    .of_step (hpaso _ rfl fun p hp => nomatch hp) rfl <|
    .of_step (hsale rfl ?_) rfl <|
    .of_step trivial rfl trivial
  refine ⟨by decide, fun hilo => ?_⟩
  match hilo with
  | 0 => decide
  | 1 => decide
  | 2 => decide
  | n + 3 => exact fun instr hin => nomatch hin

/-- **A process wakes up after its end.** The console ends a process that sleeps, and its timer
expires. -/
theorem despierta_terminado : ∃ s s',
    exec atender estadoInicial [.admitir, .paso LTP, .paso LTP, .paso LTP, .planificar (some 1),
        .paso STP, .paso STP, .cpu (.sleep 5), .paso STP, .paso STP, .finalizar 1 [],
        .paso CONSOLA, .paso CONSOLA, .paso CONSOLA, .paso CONSOLA, .paso CONSOLA] = some s ∧
      s.currentStatus 1 = .EXIT ∧
      exec atender s [.paso 3, .paso 3] = some s' ∧ s'.currentStatus 1 = .READY ∧ 1 ∈ s'.ready :=
  ⟨_, _, rfl, by decide, rfl, by decide, by decide⟩

end OperatingSystem.Kernel.Terminal
