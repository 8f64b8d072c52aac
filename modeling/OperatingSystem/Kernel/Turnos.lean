import Mathlib.Algebra.BigOperators.Group.Finset.Piecewise
import Mathlib.Algebra.Order.BigOperators.Group.Finset
import Mathlib.Tactic.Ring
import OperatingSystem.Kernel.Terminal

/-! # One process in the CPU, one page on its way

Any number of threads write statuses and wait for the memory. Only the short-term planner writes `EXEC`,
and it does not take another process while the last one has that status: whatever the other threads do
meanwhile, there is at most one process in `EXEC` (`uno_en_exec`).

`sem_page_fault` is taken by the short-term planner and given back by the thread of
`request_memory_to_load_page`. Every instruction has a weight (`peso`), what it will add to the
semaphore in the end; the semaphore and the weights of all that is left to do are always one
(`Inv.total`). So there is at most one page on its way, and a planner that waits for the semaphore waits
for a thread that goes on by itself, once the memory has answered it (`una_carga`). That the memory answers
is an assumption of these runs: a load that finds no page to replace keeps its mutex, and the next one is
not answered (`Kernel.Cargas`). -/

namespace OperatingSystem.Kernel.Turnos

open OperatingSystem.Lib.Run
open OperatingSystem.Kernel.Proceso (Status OpCode)
open OperatingSystem.Kernel.Hilos
open OperatingSystem.Kernel.Terminal (cpu_eq)

/-! ### Instructions -/

/-- The instruction gives `EXEC` to no process and is not about the one in the CPU. -/
def Ajena : Instr → Prop
  | .changeStatus _ nextStatus => nextStatus ≠ .EXEC
  | .whileExec _ | .cpuExecute _ => False
  | _ => True

/-- The instruction is one of the threads other than the short-term planner. -/
def DeOtro : Instr → Prop
  | .onEvicted _ | .plannerEvict .. | .assignOpenFile _ | .waitPageFault | .simulateProcessBlock _
  | .requestMemoryToLoadPage .. => False
  | instr => Ajena instr

theorem DeOtro.ajena {instr : Instr} (h : DeOtro instr) : Ajena instr := by
  cases instr <;> first | exact h | exact h.elim

/-- What the instruction will add to `sem_page_fault`. -/
def peso : Instr → ℤ
  | .waitPageFault => -1
  | .postPageFault | .requestMemoryToLoadPage .. => 1
  | _ => 0

def pesoDe (prog : List Instr) : ℤ := (prog.map peso).sum

@[simp] theorem pesoDe_nil : pesoDe [] = 0 := rfl

@[simp] theorem pesoDe_cons (instr : Instr) (prog : List Instr) :
    pesoDe (instr :: prog) = peso instr + pesoDe prog := by simp [pesoDe]

@[simp] theorem pesoDe_append (prog resto : List Instr) :
    pesoDe (prog ++ resto) = pesoDe prog + pesoDe resto := by simp [pesoDe]

theorem pesoDe_eq_zero {prog : List Instr} (h : ∀ instr ∈ prog, peso instr = 0) : pesoDe prog = 0 :=
  List.sum_eq_zero fun w hw => by
    obtain ⟨instr, hin, rfl⟩ := List.mem_map.mp hw
    exact h instr hin

/-- What a thread of a sleep or of a page load has left to do. -/
inductive Suelto : List Instr → Prop
  | sueno {prog : List Instr} (pid : ℤ) (h : prog <:+ readyProcess pid) : Suelto prog
  | carga {prog : List Instr} (pid : ℤ) (h : prog <:+ readyProcess pid ++ [.postPageFault]) :
      Suelto prog

theorem Suelto.resto {instr : Instr} {prog : List Instr} (h : Suelto (instr :: prog)) :
    Suelto prog := by
  have hsuf : prog <:+ instr :: prog := List.suffix_cons ..
  cases h with
  | sueno pid h => exact .sueno pid (hsuf.trans h)
  | carga pid h => exact .carga pid (hsuf.trans h)

theorem Suelto.mem {instr : Instr} {prog : List Instr} (h : Suelto prog) (hin : instr ∈ prog) :
    ∃ pid, instr = .processOnReady pid ∨ instr = .changeStatus pid .READY ∨ instr = .postReady ∨
      instr = .postPageFault := by
  cases h with
  | sueno pid h => exact ⟨pid, by simpa [readyProcess, or_assoc] using Or.inl (h.subset hin)⟩
  | carga pid h => exact ⟨pid, by simpa [readyProcess, or_assoc] using h.subset hin⟩

theorem Suelto.deOtro {prog : List Instr} (h : Suelto prog) : ∀ instr ∈ prog, DeOtro instr := by
  intro instr hin
  obtain ⟨pid, rfl | rfl | rfl | rfl⟩ := h.mem hin <;> simp [DeOtro, Ajena]

/-- **What an instruction does** to the statuses, the threads and the semaphore. -/
structure Efecto (s : Estado) (instr : Instr) (s' : Estado) (prog : List Instr) : Prop where
  exec : ∀ p, s'.currentStatus p = .EXEC → instr = .changeStatus p .EXEC ∨
    s.currentStatus p = .EXEC ∧ ∀ st, instr ≠ .changeStatus p st
  hilos : (s'.hilos = s.hilos ∧ s'.cantHilos = s.cantHilos ∧
      s'.semPageFault = s.semPageFault + peso instr) ∨
    ∃ nuevo, Suelto nuevo ∧ s'.hilos = Function.update s.hilos s.cantHilos nuevo ∧
      s'.cantHilos = s.cantHilos + 1 ∧ s'.semPageFault = s.semPageFault ∧ pesoDe nuevo = peso instr
  pesos : ∀ i ∈ prog, peso i = 0
  ajenas : (∀ p, instr ≠ .whileExec p) → ∀ i ∈ prog, Ajena i
  otros : DeOtro instr → ∀ i ∈ prog, DeOtro i

section

variable {s s' : Estado} {instr : Instr} {prog : List Instr} {p : ℤ}

/-- The instruction only makes the thread do something else. -/
theorem efecto_mismo (hst : s'.currentStatus = s.currentStatus)
    (hno : ∀ p st, instr ≠ .changeStatus p st) (hhilos : s'.hilos = s.hilos)
    (hcant : s'.cantHilos = s.cantHilos) (hsem : s'.semPageFault = s.semPageFault + peso instr)
    (hpesos : ∀ i ∈ prog, peso i = 0)
    (hotros : ∀ i ∈ prog, DeOtro i) : Efecto s instr s' prog :=
  ⟨fun p hp => Or.inr ⟨hst ▸ hp, hno p⟩, Or.inl ⟨hhilos, hcant, hsem⟩, hpesos,
    fun _ i hi => (hotros i hi).ajena, fun _ => hotros⟩

theorem deOtro_readyProcess (pid : ℤ) : ∀ i ∈ readyProcess pid, DeOtro i ∧ peso i = 0 := by
  simp [readyProcess, DeOtro, Ajena, peso]

theorem deOtro_salir (pid : ℤ) : ∀ i ∈ salir pid, DeOtro i ∧ peso i = 0 := by
  simp [salir, DeOtro, Ajena, peso]

theorem deOtro_releaseResource (pid : ℤ) (libera : Liberacion) :
    ∀ i ∈ releaseResource pid libera, DeOtro i ∧ peso i = 0 := by
  cases libera with
  | despierta nextPid => simp [releaseResource, DeOtro, Ajena, peso]
  | nadie => simp [releaseResource]
  | error => exact deOtro_salir pid

theorem deOtro_forceExit (pid : ℤ) (libera : List Liberacion) :
    ∀ i ∈ forceExitProcess pid libera ++ salir pid, DeOtro i ∧ peso i = 0 := by
  intro i hi
  rcases List.mem_append.mp hi with hi | hi
  · obtain ⟨l, -, hi⟩ := List.mem_flatMap.mp hi
    exact deOtro_releaseResource pid l i hi
  · exact deOtro_salir pid i hi

theorem suelto_carga (pid : ℤ) (result : Bool) :
    Suelto ((if result then readyProcess pid else []) ++ [.postPageFault]) := by
  cases result with
  | false => exact .carga pid (List.suffix_append ..)
  | true => exact .carga pid (List.suffix_refl _)

/-- A new thread. -/
theorem efecto_nuevo {nuevo : List Instr} (hnuevo : Suelto nuevo) (hpeso : pesoDe nuevo = peso instr)
    (hno : ∀ p st, instr ≠ .changeStatus p st) : Efecto s instr (runInDetachedThread s nuevo) [] :=
  ⟨fun p hp => Or.inr ⟨hp, hno p⟩, Or.inr ⟨nuevo, hnuevo, rfl, rfl, rfl, hpeso⟩, by simp, by simp,
    by simp⟩

theorem ejecutar_efecto {r : Estado × List Instr} (hr : ejecutar s instr = some r) :
    Efecto s instr r.1 r.2 := by
  have hready : ∀ {pid : ℤ}, (∀ i ∈ readyProcess pid, peso i = 0) ∧
      ∀ i ∈ readyProcess pid, DeOtro i := fun {pid} =>
    ⟨fun i hi => (deOtro_readyProcess pid i hi).2, fun i hi => (deOtro_readyProcess pid i hi).1⟩
  -- an instruction of weight 0 with nothing to do after it
  have hnada : ∀ {s' : Estado}, s'.currentStatus = s.currentStatus → s'.hilos = s.hilos →
      s'.cantHilos = s.cantHilos → s'.semPageFault = s.semPageFault + peso instr →
      (∀ p st, instr ≠ .changeStatus p st) → Efecto s instr s' [] :=
    fun hst hh hc hsem hno => efecto_mismo hst hno hh hc hsem (by simp) (by simp)
  -- an instruction after which a process is made ready, or not
  have hsigue : ∀ {s' : Estado} {pid : ℤ} {c : Prop} [Decidable c], s' = s → peso instr = 0 →
      (∀ p st, instr ≠ .changeStatus p st) →
      Efecto s instr s' (if c then readyProcess pid else []) := by
    intro s' pid c _ hs hpeso hno
    subst hs
    split_ifs
    · exact efecto_mismo rfl hno rfl rfl (by simp [hpeso]) hready.1 hready.2
    · exact hnada rfl rfl rfl (by simp [hpeso]) hno
  cases instr with
  | processOnReady pid =>
    obtain rfl := Option.some.inj hr
    exact hnada rfl rfl rfl (by simp [peso]) (by simp)
  | removeProcess pid =>
    obtain rfl := Option.some.inj hr
    exact hnada rfl rfl rfl (by simp [peso]) (by simp)
  | changeStatus pid nextStatus =>
    obtain rfl := Option.some.inj hr
    refine ⟨fun p hp => ?_, Or.inl ⟨rfl, rfl, by simp [peso]⟩, by simp, by simp, by simp⟩
    have hp : Function.update s.currentStatus pid nextStatus p = .EXEC := hp
    by_cases hpp : p = pid
    · subst hpp
      rw [Function.update_self] at hp
      exact Or.inl (by rw [hp])
    · rw [Function.update_of_ne hpp] at hp
      exact Or.inr ⟨hp, fun st he => hpp (Instr.changeStatus.inj he).1.symm⟩
  | exitProcess pid =>
    obtain rfl := Option.some.inj hr
    exact efecto_mismo rfl (by simp) rfl rfl (by simp [peso]) (by simp [peso]) (by simp [DeOtro, Ajena])
  | postReady =>
    obtain rfl := Option.some.inj hr
    exact hnada rfl rfl rfl (by simp [peso]) (by simp)
  | assignResource pid =>
    obtain rfl := Option.some.inj hr
    exact hsigue rfl rfl (by simp)
  | assignOpenFile pid =>
    rw [ejecutar] at hr
    split_ifs at hr
    obtain rfl := Option.some.inj hr
    exact efecto_mismo rfl (by simp) rfl rfl (by simp [peso]) hready.1 hready.2
  | onEvicted pid =>
    obtain rfl := Option.some.inj hr
    exact hsigue rfl rfl (by simp)
  | plannerEvict pid reason =>
    rw [ejecutar] at hr
    split_ifs at hr <;>
    · obtain rfl := Option.some.inj hr
      exact hnada rfl rfl rfl (by simp [peso]) (by simp)
  | whileExec pid =>
    obtain rfl := Option.some.inj hr
    refine ⟨fun p hp => Or.inr ⟨hp, by simp⟩, Or.inl ⟨rfl, rfl, by simp [peso]⟩, ?_, fun h => ?_,
      fun h => h.elim⟩
    · dsimp only
      split_ifs <;> simp [peso]
    · exact absurd rfl (h pid)
  | cpuExecute pid => cases hr
  | waitPageFault =>
    rw [ejecutar] at hr
    split_ifs at hr with hpos
    obtain rfl := Option.some.inj hr
    exact hnada rfl rfl rfl (by simp only [peso]; omega) (by simp)
  | postPageFault =>
    obtain rfl := Option.some.inj hr
    exact hnada rfl rfl rfl (by simp [peso]) (by simp)
  | simulateProcessBlock pid =>
    obtain rfl := Option.some.inj hr
    refine efecto_nuevo (.sueno pid (List.suffix_refl _)) ?_ (by simp)
    exact pesoDe_eq_zero hready.1
  | requestMemoryToLoadPage pid result =>
    obtain rfl := Option.some.inj hr
    refine efecto_nuevo (suelto_carga pid result) ?_ (by simp)
    cases result <;> simp [readyProcess, peso]
  | findForced pid libera =>
    obtain rfl := Option.some.inj hr
    refine efecto_mismo rfl (by simp) rfl rfl (by simp [peso]) ?_ ?_ <;>
    · dsimp only
      split_ifs <;> simp [peso, DeOtro, Ajena]
  | forceExit pid libera =>
    rw [ejecutar] at hr
    split_ifs at hr
    · obtain rfl := Option.some.inj hr
      exact hnada rfl rfl rfl (by simp [peso]) (by simp)
    · obtain rfl := Option.some.inj hr
      exact efecto_mismo rfl (by simp) rfl rfl (by simp [peso])
        (fun i hi => (deOtro_forceExit pid libera i hi).2)
        fun i hi => (deOtro_forceExit pid libera i hi).1

end

/-! ### The invariant -/

/-- The short-term planner is in its loop with `p`. -/
inductive Turno (p : ℤ) : List Instr → Prop
  | cpu : Turno p [.cpuExecute p]
  | bucle {prog : List Instr} (h : ∀ i ∈ prog, Ajena i ∨ i = .changeStatus p .EXEC) :
      Turno p (prog ++ [.whileExec p])

theorem Turno.unico {p q : ℤ} {prog : List Instr} (hp : Turno p prog) (hq : Turno q prog) : p = q := by
  have hultima : ∀ {p : ℤ}, Turno p prog →
      prog.getLast? = some (.cpuExecute p) ∨ prog.getLast? = some (.whileExec p) := by
    intro p hp
    cases hp with
    | cpu => exact Or.inl rfl
    | bucle h => exact Or.inr List.getLast?_concat
  rcases hultima hp with h | h <;> rcases hultima hq with h' | h' <;> simp_all

/-- What a thread may have left to do. -/
def Bien (hilo : ℕ) (prog : List Instr) : Prop :=
  if hilo = STP then
    (prog = [] ∨ ∃ p, Turno p prog) ∧ .postPageFault ∉ prog ∧ .waitPageFault ∉ prog.tail ∧
      (prog.head? = some .waitPageFault → pesoDe prog = 0)
  else (∀ i ∈ prog, DeOtro i) ∧ (hilo < 3 → ∀ i ∈ prog, peso i = 0) ∧ (3 ≤ hilo → Suelto prog)

/-- **The invariant of the threads.** -/
structure Inv (s : Estado) : Prop where
  cant : 3 ≤ s.cantHilos
  vacios : ∀ hilo, s.cantHilos ≤ hilo → s.hilos hilo = []
  bien : ∀ hilo, Bien hilo (s.hilos hilo)
  exec : ∀ p, s.currentStatus p = .EXEC → Turno p (s.hilos STP)
  total : (s.semPageFault : ℤ) + ∑ hilo ∈ Finset.range s.cantHilos, pesoDe (s.hilos hilo) = 1

theorem inv_estadoInicial : Inv estadoInicial := by
  refine ⟨le_rfl, fun _ _ => rfl, fun hilo => ?_, fun p hp => (by cases hp), by simp [estadoInicial]⟩
  unfold Bien
  split_ifs
  · exact ⟨Or.inl rfl, by simp [estadoInicial], by simp [estadoInicial], by simp [estadoInicial]⟩
  · exact ⟨by simp [estadoInicial], by simp [estadoInicial],
      fun _ => .sueno 0 (List.nil_suffix)⟩

section

variable {s s' : Estado} {instr : Instr} {prog resto : List Instr} {p : ℤ} {hilo : ℕ}

theorem bien_stp (hturno : prog = [] ∨ ∃ p, Turno p prog) (hpost : .postPageFault ∉ prog)
    (hwait : .waitPageFault ∉ prog.tail) (hpeso : prog.head? = some .waitPageFault → pesoDe prog = 0) :
    Bien STP prog := by
  rw [Bien, if_pos rfl]
  exact ⟨hturno, hpost, hwait, hpeso⟩

theorem Bien.stp (h : Bien STP prog) : (prog = [] ∨ ∃ p, Turno p prog) ∧ .postPageFault ∉ prog ∧
    .waitPageFault ∉ prog.tail ∧ (prog.head? = some .waitPageFault → pesoDe prog = 0) := by
  rwa [Bien, if_pos rfl] at h

theorem Bien.otro (h : Bien hilo prog) (hne : hilo ≠ STP) : (∀ i ∈ prog, DeOtro i) ∧
    (hilo < 3 → ∀ i ∈ prog, peso i = 0) ∧ (3 ≤ hilo → Suelto prog) := by
  rwa [Bien, if_neg hne] at h

/-- No weight is negative but in a `sem_wait`. -/
theorem peso_nonneg (h : instr ≠ .waitPageFault) : 0 ≤ peso instr := by
  cases instr <;> simp_all [peso]

theorem pesoDe_nonneg (h : .waitPageFault ∉ prog) : 0 ≤ pesoDe prog :=
  List.sum_nonneg fun w hw => by
    obtain ⟨i, hi, rfl⟩ := List.mem_map.mp hw
    exact peso_nonneg fun he => h (he ▸ hi)

theorem Bien.pesoDe_nonneg (h : Bien hilo prog) : 0 ≤ pesoDe prog := by
  by_cases hstp : hilo = STP
  · subst hstp
    obtain ⟨-, -, htail, hhead⟩ := h.stp
    cases prog with
    | nil => exact le_rfl
    | cons i resto =>
      by_cases hi : i = .waitPageFault
      · exact (hhead (congrArg some hi)).ge
      · refine Turnos.pesoDe_nonneg fun hmem => ?_
        rcases List.mem_cons.mp hmem with he | hmem
        · exact hi he.symm
        · exact htail hmem
  · refine Turnos.pesoDe_nonneg fun hmem => ?_
    exact (h.otro hstp).1 _ hmem

/-- The weights, when a thread gets something else to do. -/
theorem suma_update {n : ℕ} (hilos : ℕ → List Instr) (hlt : hilo < n) (prog : List Instr) :
    ∑ j ∈ Finset.range n, pesoDe (Function.update hilos hilo prog j) =
      ∑ j ∈ Finset.range n, pesoDe (hilos j) - pesoDe (hilos hilo) + pesoDe prog := by
  have hmem : hilo ∈ Finset.range n := Finset.mem_range.mpr hlt
  have hcomp : (fun j => pesoDe (Function.update hilos hilo prog j)) =
      Function.update (fun j => pesoDe (hilos j)) hilo (pesoDe prog) := by
    funext j
    by_cases hj : j = hilo
    · subst hj
      simp
    · simp [hj]
  rw [hcomp, Finset.sum_update_of_mem hmem, Finset.sum_eq_add_sum_sdiff_singleton_of_mem hmem]
  ring

/-- One instruction less. -/
theorem Turno.paso (h : Turno p (instr :: resto)) (hE : Efecto s instr s' prog)
    (hno : ∀ q, instr ≠ .whileExec q) (hcpu : ∀ q, instr ≠ .cpuExecute q) :
    Turno p (prog ++ resto) := by
  generalize hl : instr :: resto = l at h
  cases h with
  | cpu => exact absurd (List.cons.inj hl).1 (hcpu p)
  | @bucle pre h =>
    cases pre with
    | nil => exact absurd (List.cons.inj hl).1 (hno p)
    | cons i pre =>
      rw [List.cons_append] at hl
      obtain ⟨rfl, rfl⟩ := List.cons.inj hl
      rw [← List.append_assoc]
      refine .bucle fun j hj => ?_
      rcases List.mem_append.mp hj with hj | hj
      · exact Or.inl (hE.ajenas hno j hj)
      · exact h j (List.mem_cons_of_mem _ hj)

theorem bien_stp_paso (hB : Bien STP (instr :: resto)) (hE : Efecto s instr s' prog)
    (hno : ∀ p, instr ≠ .whileExec p) (hcpu : ∀ p, instr ≠ .cpuExecute p) :
    Bien STP (prog ++ resto) := by
  obtain ⟨hturno, hpost, hwait, -⟩ := hB.stp
  obtain ⟨p, hp⟩ := hturno.resolve_left (List.cons_ne_nil _ _)
  have hpesos : ∀ {w : Instr}, peso w ≠ 0 → w ∉ prog := fun hw hmem => hw (hE.pesos _ hmem)
  have hsin : .waitPageFault ∉ prog ++ resto := by
    rw [List.mem_append]
    exact not_or.mpr ⟨hpesos (by decide), hwait⟩
  refine bien_stp (Or.inr ⟨p, hp.paso hE hno hcpu⟩) ?_ (fun hmem => hsin (List.mem_of_mem_tail hmem))
    fun hhead => absurd (List.mem_of_mem_head? hhead) hsin
  rw [List.mem_append]
  exact not_or.mpr ⟨hpesos (by decide), fun hmem => hpost (List.mem_cons_of_mem _ hmem)⟩

/-- What a thread of a sleep or of a page load does makes no more work. -/
theorem Suelto.ejecutar {r : Estado × List Instr} (h : Suelto (instr :: resto))
    (hr : ejecutar s instr = some r) : r.2 = [] := by
  obtain ⟨pid, rfl | rfl | rfl | rfl⟩ := h.mem (List.mem_cons_self ..) <;>
  · obtain rfl := Option.some.inj hr
    rfl

theorem bien_otro_paso {r : Estado × List Instr} (hne : hilo ≠ STP) (hB : Bien hilo (instr :: resto))
    (hr : Hilos.ejecutar s instr = some r) : Bien hilo (r.2 ++ resto) := by
  obtain ⟨hotros, hfijos, hsuelto⟩ := hB.otro hne
  have hE := ejecutar_efecto hr
  rw [Bien, if_neg hne]
  refine ⟨fun i hi => ?_, fun hlt i hi => ?_, fun hle => ?_⟩
  · rcases List.mem_append.mp hi with hi | hi
    · exact hE.otros (hotros instr (List.mem_cons_self ..)) i hi
    · exact hotros i (List.mem_cons_of_mem _ hi)
  · rcases List.mem_append.mp hi with hi | hi
    · exact hE.pesos i hi
    · exact hfijos hlt i (List.mem_cons_of_mem _ hi)
  · rw [(hsuelto hle).ejecutar hr]
    exact (hsuelto hle).resto

/-- The planner looks at the status of its process. -/
theorem Inv.whileExec (hI : Inv s) (hh : s.hilos STP = .whileExec p :: resto) :
    resto = [] ∧ ∀ q, s.currentStatus q = .EXEC → q = p := by
  have hresto : resto = [] := by
    rcases (hI.bien STP).stp.1 with hnil | ⟨q, hq⟩
    · rw [hh] at hnil
      cases hnil
    · rw [hh] at hq
      generalize hl : Instr.whileExec p :: resto = l at hq
      cases hq with
      | cpu => cases (List.cons.inj hl).1
      | @bucle pre h =>
        cases pre with
        | nil => exact (List.cons.inj hl).2
        | cons i pre =>
          obtain ⟨rfl, -⟩ := List.cons.inj hl
          rcases h _ (List.mem_cons_self ..) with hf | hf
          · exact hf.elim
          · cases hf
  refine ⟨hresto, fun q hq => ?_⟩
  have hturno := hI.exec q hq
  rw [hh, hresto] at hturno
  exact hturno.unico (@Turno.bucle p [] (by simp))

theorem Inv.lt_cant (hI : Inv s) (hh : s.hilos hilo = instr :: resto) : hilo < s.cantHilos := by
  by_contra hle
  rw [hI.vacios hilo (not_lt.mp hle)] at hh
  cases hh

/-- A thread gets something else to do, and there may be a new one. -/
theorem Inv.of_hilos (hI : Inv s) (hlt : hilo < s.cantHilos) (hbien : Bien hilo prog)
    (hexec : ∀ p, s'.currentStatus p = .EXEC → Turno p (Function.update s.hilos hilo prog STP))
    (h : (s'.hilos = Function.update s.hilos hilo prog ∧ s'.cantHilos = s.cantHilos ∧
        (s'.semPageFault : ℤ) + pesoDe prog = s.semPageFault + pesoDe (s.hilos hilo)) ∨
      ∃ nuevo, Suelto nuevo ∧
        s'.hilos = Function.update (Function.update s.hilos s.cantHilos nuevo) hilo prog ∧
        s'.cantHilos = s.cantHilos + 1 ∧
        (s'.semPageFault : ℤ) + pesoDe prog + pesoDe nuevo = s.semPageFault + pesoDe (s.hilos hilo)) :
    Inv s' := by
  have htotal := hI.total
  rcases h with ⟨hh, hc, hsem⟩ | ⟨nuevo, hnuevo, hh, hc, hsem⟩
  · refine ⟨by rw [hc]; exact hI.cant, fun j hj => ?_, fun j => ?_, fun p hp => hh ▸ hexec p hp, ?_⟩
    · rw [hc] at hj
      rw [hh, Function.update_of_ne (by omega), hI.vacios j hj]
    · rw [hh]
      by_cases hj : j = hilo
      · subst hj
        rwa [Function.update_self]
      · rw [Function.update_of_ne hj]
        exact hI.bien j
    · rw [hh, hc, suma_update s.hilos hlt]
      omega
  · have hne : s.cantHilos ≠ hilo := (Nat.ne_of_lt hlt).symm
    have hcant := hI.cant
    refine ⟨by omega, fun j hj => ?_, fun j => ?_, fun p hp => ?_, ?_⟩
    · rw [hc] at hj
      rw [hh, Function.update_of_ne (by omega), Function.update_of_ne (by omega)]
      exact hI.vacios j (by omega)
    · rw [hh]
      by_cases hj : j = hilo
      · subst hj
        rwa [Function.update_self]
      · rw [Function.update_of_ne hj]
        by_cases hj' : j = s.cantHilos
        · subst hj'
          rw [Function.update_self, Bien, if_neg (by unfold STP; omega)]
          exact ⟨hnuevo.deOtro, fun hlt => absurd hlt (not_lt.mpr hcant), fun _ => hnuevo⟩
        · rw [Function.update_of_ne hj']
          exact hI.bien j
    · have hstp := hexec p hp
      have hne' : STP ≠ s.cantHilos := by unfold STP; omega
      rw [hh]
      by_cases hj : STP = hilo
      · subst hj
        rwa [Function.update_self] at hstp ⊢
      · rw [Function.update_of_ne hj] at hstp ⊢
        rwa [Function.update_of_ne hne']
    · have hlt' : hilo < s.cantHilos + 1 := Nat.lt_succ_of_lt hlt
      have hsinuevo : ∑ j ∈ Finset.range s.cantHilos,
          pesoDe (Function.update s.hilos s.cantHilos nuevo j) =
            ∑ j ∈ Finset.range s.cantHilos, pesoDe (s.hilos j) :=
        Finset.sum_congr rfl fun j hj => by
          rw [Function.update_of_ne (Nat.ne_of_lt (Finset.mem_range.mp hj))]
      rw [hh, hc, suma_update _ hlt', Finset.sum_range_succ, hsinuevo, Function.update_self,
        Function.update_of_ne hne.symm]
      omega

/-- **A thread goes on.** -/
theorem Inv.paso (hI : Inv s) (hh : s.hilos hilo = instr :: resto) {r : Estado × List Instr}
    (hr : ejecutar (continuar s hilo resto) instr = some r) :
    Inv (continuar r.1 hilo (r.2 ++ resto)) := by
  have hE := ejecutar_efecto hr
  have hB := hh ▸ hI.bien hilo
  have hcpu : ∀ p, instr ≠ .cpuExecute p := fun p he => by
    rw [he] at hr
    cases hr
  -- who has `EXEC` has it already, or gets it from the planner
  have hantes : ∀ p, r.1.currentStatus p = .EXEC → Turno p (s.hilos STP) := by
    intro p hp
    rcases hE.exec p hp with rfl | ⟨hp, -⟩
    · by_cases hstp : hilo = STP
      · subst hstp
        obtain ⟨q, hq⟩ := hB.stp.1.resolve_left (List.cons_ne_nil _ _)
        have hqp : p = q := by
          generalize hl : Instr.changeStatus p .EXEC :: resto = l at hq
          cases hq with
          | cpu => cases (List.cons.inj hl).1
          | @bucle pre h =>
            cases pre with
            | nil => cases (List.cons.inj hl).1
            | cons i pre =>
              obtain ⟨rfl, -⟩ := List.cons.inj hl
              rcases h _ (List.mem_cons_self ..) with hf | hf
              · exact absurd rfl hf
              · exact (Instr.changeStatus.inj hf).1
        rw [hh, hqp]
        exact hqp ▸ hq
      · exact absurd rfl ((hB.otro hstp).1 _ (List.mem_cons_self ..)).ajena
    · exact hI.exec p hp
  have hfin : Bien hilo (r.2 ++ resto) ∧ ∀ p, r.1.currentStatus p = .EXEC →
      Turno p (Function.update s.hilos hilo (r.2 ++ resto) STP) := by
    by_cases hstp : hilo = STP
    · subst hstp
      simp only [Function.update_self]
      by_cases hw : ∃ q, instr = .whileExec q
      · obtain ⟨q, rfl⟩ := hw
        obtain ⟨rfl, hsolo⟩ := hI.whileExec hh
        obtain rfl := Option.some.inj hr
        dsimp only
        split_ifs with hex
        · exact ⟨bien_stp (Or.inr ⟨q, .cpu⟩) (by simp) (by simp) (by simp),
            fun p hp => hsolo p hp ▸ .cpu⟩
        · exact ⟨bien_stp (Or.inl rfl) (by simp) (by simp) (by simp),
            fun p hp => absurd (hsolo p hp ▸ hp) hex⟩
      · have hno : ∀ q, instr ≠ .whileExec q := fun q he => hw ⟨q, he⟩
        exact ⟨bien_stp_paso hB hE hno hcpu, fun p hp => (hh ▸ hantes p hp).paso hE hno hcpu⟩
    · refine ⟨bien_otro_paso hstp hB hr, fun p hp => ?_⟩
      rw [Function.update_of_ne (Ne.symm hstp)]
      exact hantes p hp
  refine hI.of_hilos (hI.lt_cant hh) hfin.1 hfin.2 ?_
  have hpeso : pesoDe (r.2 ++ resto) = pesoDe resto := by
    rw [pesoDe_append, pesoDe_eq_zero hE.pesos, zero_add]
  rcases hE.hilos with ⟨h1, h2, h3⟩ | ⟨nuevo, hnuevo, h1, h2, h3, h4⟩
  · refine Or.inl ⟨?_, h2, ?_⟩
    · rw [continuar, h1, continuar, Function.update_idem]
    · rw [hpeso, hh, pesoDe_cons]
      have hsem : (continuar r.1 hilo (r.2 ++ resto)).semPageFault = r.1.semPageFault := rfl
      rw [hsem, h3]
      change (s.semPageFault : ℤ) + peso instr + _ = _
      ring
  · refine Or.inr ⟨nuevo, hnuevo, ?_, h2, ?_⟩
    · have hne : s.cantHilos ≠ hilo := (Nat.ne_of_lt (hI.lt_cant hh)).symm
      rw [continuar, h1, continuar, Function.update_comm hne, Function.update_idem,
        Function.update_comm hne]
    · rw [hpeso, hh, pesoDe_cons, h4]
      have hsem : (continuar r.1 hilo (r.2 ++ resto)).semPageFault = s.semPageFault := h3
      rw [hsem]
      ring

/-! ### Steps -/

theorem ajena_handleCpuEviction (pid : ℤ) (motivo : Motivo) :
    ∀ i ∈ handleCpuEviction pid motivo, Ajena i := by
  have hready := fun i hi => (deOtro_readyProcess pid i hi).1.ajena
  have hblock : ∀ i ∈ blockAndReady pid, Ajena i := fun i hi => by
    rcases List.mem_cons.mp hi with rfl | hi
    · simp [Ajena]
    · exact hready i hi
  cases motivo with
  | waitAsignado => exact hready
  | waitNoDefinido => exact fun i hi => (deOtro_salir pid i hi).1.ajena
  | signal libera => exact fun i hi => (deOtro_releaseResource pid libera i hi).1.ajena
  | exit libera => exact fun i hi => (deOtro_forceExit pid libera i hi).1.ajena
  | fClose wakes =>
    intro i hi
    obtain ⟨q, -, rfl⟩ := List.mem_map.mp hi
    trivial
  | waitOcupado | evicted | pageFault => simp [handleCpuEviction, Ajena]
  | sleep blockTime =>
    rw [handleCpuEviction]
    split_ifs <;> simp [Ajena]
  | fOpen abierto => cases abierto <;> simp [handleCpuEviction, Ajena]
  | fSeek hallado =>
    cases hallado
    · simp [handleCpuEviction]
    · exact hready
  | fTruncate hallado | fRead hallado =>
    cases hallado
    · simp [handleCpuEviction]
    · exact hblock
  | fWrite hallado modoW =>
    cases hallado
    · simp [handleCpuEviction]
    · cases modoW
      · simp [handleCpuEviction, Ajena]
      · exact hblock

/-- A handler takes and gives the semaphore of the page loads, or has nothing to do with it. -/
theorem pesos_handleCpuEviction (pid : ℤ) (motivo : Motivo) :
    (∃ result, motivo = .pageFault result) ∨ ∀ i ∈ handleCpuEviction pid motivo, peso i = 0 := by
  have hready := fun i hi => (deOtro_readyProcess pid i hi).2
  have hblock : ∀ i ∈ blockAndReady pid, peso i = 0 := fun i hi => by
    rcases List.mem_cons.mp hi with rfl | hi
    · rfl
    · exact hready i hi
  cases motivo with
  | pageFault result => exact Or.inl ⟨result, rfl⟩
  | waitAsignado => exact Or.inr hready
  | waitNoDefinido => exact Or.inr fun i hi => (deOtro_salir pid i hi).2
  | signal libera => exact Or.inr fun i hi => (deOtro_releaseResource pid libera i hi).2
  | exit libera => exact Or.inr fun i hi => (deOtro_forceExit pid libera i hi).2
  | fClose wakes =>
    refine Or.inr fun i hi => ?_
    obtain ⟨q, -, rfl⟩ := List.mem_map.mp hi
    rfl
  | waitOcupado | evicted => exact Or.inr (by simp [handleCpuEviction, peso])
  | sleep blockTime =>
    refine Or.inr ?_
    rw [handleCpuEviction]
    split_ifs <;> simp [peso]
  | fOpen abierto => exact Or.inr (by cases abierto <;> simp [handleCpuEviction, peso])
  | fSeek hallado =>
    cases hallado
    · exact Or.inr (by simp [handleCpuEviction])
    · exact Or.inr hready
  | fTruncate hallado | fRead hallado =>
    cases hallado
    · exact Or.inr (by simp [handleCpuEviction])
    · exact Or.inr hblock
  | fWrite hallado modoW =>
    cases hallado
    · exact Or.inr (by simp [handleCpuEviction])
    · cases modoW
      · exact Or.inr (by simp [handleCpuEviction, peso])
      · exact Or.inr hblock

/-- The CPU gives the process back. -/
theorem bien_handleCpuEviction (pid : ℤ) (motivo : Motivo) :
    Bien STP (handleCpuEviction pid motivo ++ [.whileExec pid]) ∧
      pesoDe (handleCpuEviction pid motivo ++ [.whileExec pid]) = 0 := by
  have hturno : Turno pid (handleCpuEviction pid motivo ++ [.whileExec pid]) :=
    .bucle fun i hi => Or.inl (ajena_handleCpuEviction pid motivo i hi)
  rcases pesos_handleCpuEviction pid motivo with ⟨result, rfl⟩ | hpesos
  · exact ⟨bien_stp (Or.inr ⟨pid, hturno⟩) (by simp [handleCpuEviction]) (by simp [handleCpuEviction])
      (by simp [handleCpuEviction, peso]), by simp [handleCpuEviction, peso]⟩
  · have hcero : ∀ i ∈ handleCpuEviction pid motivo ++ [.whileExec pid], peso i = 0 := fun i hi => by
      rcases List.mem_append.mp hi with hi | hi
      · exact hpesos i hi
      · obtain rfl := List.mem_singleton.mp hi
        rfl
    have hno : ∀ w, peso w ≠ 0 → w ∉ handleCpuEviction pid motivo ++ [.whileExec pid] :=
      fun w hw hmem => hw (hcero w hmem)
    exact ⟨bien_stp (Or.inr ⟨pid, hturno⟩) (hno _ (by decide))
      (fun hmem => hno _ (by decide) (List.mem_of_mem_tail hmem)) fun _ => pesoDe_eq_zero hcero,
      pesoDe_eq_zero hcero⟩

theorem Turno.cpuExecute (h : Turno p (.cpuExecute pid :: resto)) : p = pid ∧ resto = [] := by
  generalize hl : Instr.cpuExecute pid :: resto = l at h
  cases h with
  | cpu =>
    obtain ⟨h1, rfl⟩ := List.cons.inj hl
    exact ⟨(Instr.cpuExecute.inj h1).symm, rfl⟩
  | @bucle pre h =>
    cases pre with
    | nil => cases (List.cons.inj hl).1
    | cons i pre =>
      obtain ⟨rfl, -⟩ := List.cons.inj hl
      rcases h _ (List.mem_cons_self ..) with hf | hf
      · exact hf.elim
      · cases hf

/-- **One step** keeps the invariant. -/
theorem Inv.atender {a : Accion} (hI : Inv s) (ha : atender s a = some s') : Inv s' := by
  have hcant := hI.cant
  cases a with
  | paso hilo =>
    rw [Hilos.atender] at ha
    cases hh : s.hilos hilo with
    | nil =>
      rw [hh] at ha
      cases ha
    | cons instr resto =>
      rw [hh] at ha
      obtain ⟨r, hr, rfl⟩ := Option.map_eq_some_iff.mp ha
      exact hI.paso hh hr
  | cpu motivo =>
    obtain ⟨pid, resto, hh, rfl⟩ := cpu_eq ha
    obtain ⟨p, hp⟩ := (hI.bien STP).stp.1.resolve_left (by rw [hh]; exact List.cons_ne_nil _ _)
    obtain ⟨rfl, rfl⟩ := (hh ▸ hp).cpuExecute
    obtain ⟨hb, hpeso⟩ := bien_handleCpuEviction p motivo
    refine hI.of_hilos (hI.lt_cant hh) hb (fun q hq => ?_) (Or.inl ⟨rfl, rfl, ?_⟩)
    · obtain ⟨rfl, -⟩ := (hh ▸ hI.exec q hq).cpuExecute
      rw [Function.update_self]
      exact .bucle fun i hi => Or.inl (ajena_handleCpuEviction q motivo i hi)
    · rw [hpeso, hh]
      simp [continuar, peso]
  | planificar pid =>
    rw [Hilos.atender] at ha
    split_ifs at ha with hlibre
    have hnadie : ∀ q, s.currentStatus q ≠ .EXEC := fun q hq => by
      have hturno := hI.exec q hq
      rw [hlibre.1] at hturno
      generalize hl : ([] : List Instr) = l at hturno
      cases hturno with
      | cpu => cases hl
      | @bucle pre h => exact absurd hl.symm (by simp)
    cases pid with
    | none =>
      dsimp only at ha
      split_ifs at ha
      obtain rfl := Option.some.inj ha
      exact ⟨hI.cant, hI.vacios, hI.bien, hI.exec, hI.total⟩
    | some pid =>
      dsimp only at ha
      split_ifs at ha
      obtain rfl := Option.some.inj ha
      have hturno : Turno pid [.changeStatus pid .EXEC, .whileExec pid] :=
        @Turno.bucle pid [.changeStatus pid .EXEC] (by simp)
      refine hI.of_hilos (show STP < s.cantHilos by unfold STP; omega)
        (bien_stp (Or.inr ⟨pid, hturno⟩) (by simp) (by simp) (by simp)) (fun q hq => ?_)
        (Or.inl ⟨rfl, rfl, ?_⟩)
      · exact absurd hq (hnadie q)
      · rw [hlibre.1]
        simp [continuar, peso]
  | admitir =>
    rw [Hilos.atender] at ha
    split_ifs at ha with hlibre
    obtain rfl := Option.some.inj ha
    refine hI.of_hilos (show LTP < s.cantHilos by unfold LTP; omega) ?_ (fun q hq => ?_)
      (Or.inl ⟨rfl, rfl, ?_⟩)
    · rw [Bien, if_neg (by decide)]
      exact ⟨fun i hi => (deOtro_readyProcess _ i hi).1, fun _ i hi => (deOtro_readyProcess _ i hi).2,
        fun hle => absurd hle (by decide)⟩
    · rw [Function.update_of_ne (by decide)]
      exact hI.exec q hq
    · rw [hlibre, pesoDe_eq_zero fun i hi => (deOtro_readyProcess _ i hi).2]
      rfl
  | finalizar pid libera =>
    rw [Hilos.atender] at ha
    split_ifs at ha with hlibre
    obtain rfl := Option.some.inj ha
    refine hI.of_hilos (show CONSOLA < s.cantHilos by unfold CONSOLA; omega) ?_ (fun q hq => ?_)
      (Or.inl ⟨rfl, rfl, ?_⟩)
    · rw [Bien, if_neg (by decide)]
      exact ⟨by simp [DeOtro, Ajena], fun _ => by simp [peso], fun hle => absurd hle (by decide)⟩
    · rw [Function.update_of_ne (by decide)]
      exact hI.exec q hq
    · rw [hlibre]
      simp [continuar, peso]
  | desalojar pid reason =>
    obtain ⟨r, hr, rfl⟩ := Option.map_eq_some_iff.mp ha
    rw [ejecutar] at hr
    split_ifs at hr <;>
    · obtain rfl := Option.some.inj hr
      exact ⟨hI.cant, hI.vacios, hI.bien, hI.exec, hI.total⟩

theorem inv_exec {as : List Accion} (hexec : exec atender estadoInicial as = some s) : Inv s :=
  exec_invariant (C := fun _ _ => True) (fun _ _ _ hI _ ha => hI.atender ha) inv_estadoInicial
    (along_of_forall (fun _ _ => trivial) as _) hexec

/-! ### Every interleaving -/

/-- **One process in `EXEC`**, after any steps of any threads: the one that the short-term planner is in
its loop with. -/
theorem uno_en_exec {as : List Accion} (hexec : exec atender estadoInicial as = some s) :
    (∀ p, s.currentStatus p = .EXEC → Turno p (s.hilos STP)) ∧
      ∀ p q, s.currentStatus p = .EXEC → s.currentStatus q = .EXEC → p = q := by
  have hI := inv_exec hexec
  exact ⟨hI.exec, fun p q hp hq => (hI.exec p hp).unico (hI.exec q hq)⟩

end

/-- A process is dispatched, and another one is ready. -/
def dosListos : List Accion :=
  [.admitir, .paso LTP, .paso LTP, .paso LTP, .planificar (some 1), .admitir, .paso LTP, .paso STP,
    .paso LTP, .paso LTP, .paso STP]

theorem uno_en_exec_dosListos : ∃ s, exec atender estadoInicial dosListos = some s ∧
    s.currentStatus 1 = .EXEC ∧ ∀ q, s.currentStatus q = .EXEC → 1 = q := by
  obtain ⟨s, hs⟩ : ∃ s, exec atender estadoInicial dosListos = some s := ⟨_, rfl⟩
  have huno : s.currentStatus 1 = .EXEC := by
    obtain rfl := Option.some.inj hs
    rfl
  exact ⟨s, hs, huno, fun q hq => (uno_en_exec hs).2 1 q huno hq⟩

section

variable {s s' : Estado} {p : ℤ} {hilo : ℕ}

/-- The thread has a page on its way. -/
def Carga (s : Estado) (hilo : ℕ) : Prop := .postPageFault ∈ s.hilos hilo

/-- The short-term planner has the semaphore, and is about to ask for a page. -/
def Empieza (s : Estado) : Prop :=
  .waitPageFault ∉ s.hilos STP ∧ ∃ pid result, .requestMemoryToLoadPage pid result ∈ s.hilos STP

theorem uno_le_pesoDe {prog : List Instr} {instr : Instr} (hno : .waitPageFault ∉ prog)
    (hmem : instr ∈ prog) (h1 : peso instr = 1) : 1 ≤ pesoDe prog := by
  induction prog with
  | nil => simp at hmem
  | cons i resto ih =>
    have hresto : .waitPageFault ∉ resto := fun hm => hno (List.mem_cons_of_mem _ hm)
    rw [pesoDe_cons]
    rcases List.mem_cons.mp hmem with rfl | hmem
    · have := pesoDe_nonneg hresto
      omega
    · have := @peso_nonneg i fun he => hno (he ▸ List.mem_cons_self ..)
      have := ih hresto hmem
      omega

theorem Inv.uno_le (hI : Inv s) (h : Carga s hilo) : hilo ≠ STP ∧ 1 ≤ pesoDe (s.hilos hilo) := by
  have hne : hilo ≠ STP := fun he => by
    subst he
    exact (hI.bien STP).stp.2.1 h
  exact ⟨hne, uno_le_pesoDe (fun hmem => ((hI.bien hilo).otro hne).1 _ hmem) h rfl⟩

/-- Two threads cannot both have weight. -/
theorem Inv.unico (hI : Inv s) {i j : ℕ} (hi : 1 ≤ pesoDe (s.hilos i)) (hj : 1 ≤ pesoDe (s.hilos j)) :
    i = j := by
  by_contra hne
  have hmem : ∀ {k}, 1 ≤ pesoDe (s.hilos k) → k ∈ Finset.range s.cantHilos := fun {k} hk => by
    rw [Finset.mem_range]
    by_contra hle
    rw [hI.vacios k (not_lt.mp hle)] at hk
    exact absurd hk (by decide)
  have hsub : ({i, j} : Finset ℕ) ⊆ Finset.range s.cantHilos := by
    intro k hk
    rcases Finset.mem_insert.mp hk with rfl | hk
    · exact hmem hi
    · obtain rfl := Finset.mem_singleton.mp hk
      exact hmem hj
  have hle := Finset.sum_le_sum_of_subset_of_nonneg (f := fun k => pesoDe (s.hilos k)) hsub
    fun k _ _ => (hI.bien k).pesoDe_nonneg
  rw [Finset.sum_pair hne] at hle
  have := hI.total
  omega

/-- The thread of a page load goes on by itself until it gives the semaphore back. -/
theorem termina_carga : ∀ {prog : List Instr} {s : Estado}, s.hilos hilo = prog → hilo ≠ STP →
    Suelto prog → .postPageFault ∈ prog → ∃ n s',
      exec atender s (List.replicate n (.paso hilo)) = some s' ∧ 0 < s'.semPageFault ∧
        s'.hilos STP = s.hilos STP
  | [], _, _, _, _, hpost => by simp at hpost
  | i :: resto, s, hh, hne, hsuelto, hpost => by
    have hpaso : ∀ {r : Estado × List Instr}, ejecutar (continuar s hilo resto) i = some r →
        atender s (.paso hilo) = some (continuar r.1 hilo (r.2 ++ resto)) := fun {r} hr => by
      rw [Hilos.atender, hh]
      simp only [hr, Option.map_some]
    have hstp : ∀ e : Estado, e.hilos = (continuar s hilo resto).hilos →
        (continuar e hilo resto).hilos STP = s.hilos STP := fun e he => by
      change Function.update e.hilos hilo resto STP = s.hilos STP
      rw [Function.update_of_ne (Ne.symm hne), he]
      exact Function.update_of_ne (Ne.symm hne) ..
    by_cases hi : i = .postPageFault
    · subst hi
      let e := { continuar s hilo resto with semPageFault := s.semPageFault + 1 }
      have ha : atender s (.paso hilo) = some (continuar e hilo resto) := hpaso rfl
      refine ⟨1, continuar e hilo resto, ?_, Nat.succ_pos s.semPageFault, hstp e rfl⟩
      rw [List.replicate_one, exec_cons, ha]
      rfl
    · have hmem : .postPageFault ∈ resto := (List.mem_cons.mp hpost).resolve_left (Ne.symm hi)
      obtain ⟨r, hr, hvacio, hhilos⟩ : ∃ r, ejecutar (continuar s hilo resto) i = some r ∧ r.2 = [] ∧
          r.1.hilos = (continuar s hilo resto).hilos := by
        obtain ⟨pid, rfl | rfl | rfl | rfl⟩ := hsuelto.mem (List.mem_cons_self ..) <;>
          exact ⟨_, rfl, rfl, rfl⟩
      have ha := hpaso hr
      rw [hvacio, List.nil_append] at ha
      obtain ⟨n, s', hexec, hpos, hs'⟩ := termina_carga (s := continuar r.1 hilo resto)
        (Function.update_self ..) hne hsuelto.resto hmem
      refine ⟨n + 1, s', ?_, hpos, hs'.trans (hstp r.1 hhilos)⟩
      rw [List.replicate_succ, exec_cons, ha]
      exact hexec

/-- **One page on its way**, after any steps of any threads. A short-term planner that waits for the
semaphore goes on once the thread that has it has gone on, which waits for nothing but the memory. -/
theorem una_carga {as : List Accion} (hexec : exec atender estadoInicial as = some s) :
    (∀ i j, Carga s i → Carga s j → i = j) ∧ (Empieza s → ∀ i, ¬Carga s i) ∧
      ((s.hilos STP).head? = some .waitPageFault → ∃ hilo n s', (0 < n → hilo ≠ STP ∧ Carga s hilo) ∧
        exec atender s (List.replicate n (.paso hilo) ++ [.paso STP]) = some s') := by
  have hI := inv_exec hexec
  refine ⟨fun i j hi hj => hI.unico (hI.uno_le hi).2 (hI.uno_le hj).2, ?_, fun hhead => ?_⟩
  · rintro ⟨hno, pid, result, hmem⟩ i hi
    obtain ⟨hne, hpeso⟩ := hI.uno_le hi
    exact hne (hI.unico hpeso (uno_le_pesoDe hno hmem rfl))
  · have hstp : ∀ e : Estado, e.hilos STP = s.hilos STP → 0 < e.semPageFault →
        ∃ e', atender e (.paso STP) = some e' := by
      intro e he hpos
      obtain ⟨resto, hresto⟩ := List.head?_eq_some_iff.mp hhead
      rw [Hilos.atender, he, hresto]
      have hpos' : 0 < (continuar e STP resto).semPageFault := hpos
      simp only [ejecutar, if_pos hpos']
      exact ⟨_, rfl⟩
    by_cases hpos : 0 < s.semPageFault
    · obtain ⟨e, he⟩ := hstp s rfl hpos
      refine ⟨STP, 0, e, fun h0 => absurd h0 (lt_irrefl 0), ?_⟩
      rw [List.replicate_zero, List.nil_append, exec_cons, he]
      rfl
    · -- the weight is in some other thread
      have hsum : ∑ k ∈ Finset.range s.cantHilos, pesoDe (s.hilos k) ≠ 0 := by
        have := hI.total
        omega
      obtain ⟨k, -, hk⟩ := Finset.exists_ne_zero_of_sum_ne_zero hsum
      have hkstp : k ≠ STP := fun he => by
        subst he
        exact hk ((hI.bien STP).stp.2.2.2 hhead)
      obtain ⟨hotros, hfijos, hsuelto⟩ := (hI.bien k).otro hkstp
      have hk3 : 3 ≤ k := by
        by_contra hlt
        exact hk (pesoDe_eq_zero (hfijos (not_le.mp hlt)))
      have hpost : .postPageFault ∈ s.hilos k := by
        by_contra hno
        refine hk (pesoDe_eq_zero fun i hi => ?_)
        have hd := hotros i hi
        cases i <;> first | rfl | exact hd.elim | exact absurd hi hno
      obtain ⟨n, e, hexec, hpos, he⟩ := termina_carga rfl hkstp (hsuelto hk3) hpost
      obtain ⟨e', he'⟩ := hstp e he hpos
      refine ⟨k, n, e', fun _ => ⟨hkstp, hpost⟩, ?_⟩
      rw [exec_append, hexec, Option.bind_some, exec_cons, he']
      rfl

end

/-- A page is on its way, and the next process has a page fault too. -/
def dosFaltas : List Accion :=
  [.admitir, .paso LTP, .paso LTP, .paso LTP, .admitir, .paso LTP, .paso LTP, .paso LTP,
    .planificar (some 1), .paso STP, .paso STP, .cpu (.pageFault true), .paso STP, .paso STP, .paso STP,
    .paso STP, .planificar (some 2), .paso STP, .paso STP, .cpu (.pageFault true)]

theorem una_carga_dosFaltas : ∃ s, exec atender estadoInicial dosFaltas = some s ∧ Carga s 3 ∧
    s.semPageFault = 0 ∧ (∀ i, Carga s i → i = 3) ∧
    ∃ hilo n s', (0 < n → hilo ≠ STP ∧ Carga s hilo) ∧
      exec atender s (List.replicate n (.paso hilo) ++ [.paso STP]) = some s' := by
  obtain ⟨s, hs⟩ : ∃ s, exec atender estadoInicial dosFaltas = some s := ⟨_, rfl⟩
  obtain ⟨huna, -, hsigue⟩ := una_carga hs
  obtain ⟨hcarga, hsem, hhead⟩ : Carga s 3 ∧ s.semPageFault = 0 ∧
      (s.hilos STP).head? = some .waitPageFault := by
    obtain rfl := Option.some.inj hs
    exact ⟨by unfold Carga; decide, rfl, rfl⟩
  exact ⟨s, hs, hcarga, hsem, fun i hi => huna i 3 hi hcarga, hsigue hhead⟩

end OperatingSystem.Kernel.Turnos
