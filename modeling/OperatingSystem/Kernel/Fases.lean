import OperatingSystem.Kernel.ColaReady

/-! # Where a process is

A live process is in one place at a time (`Fase`): in the queue, with a thread that is going to put it
there, with the short-term planner, in the queue of a resource or of a file, or nowhere. An instruction
takes it from one place to the next (`Fase.hace`), and so do the test of the loop, the planner and the
handlers. Only where `process_execute` overtakes a `process_ready` there is no next place. -/

namespace OperatingSystem.Kernel.Fases

open OperatingSystem.Kernel.Proceso (Status)
open OperatingSystem.Kernel.Hilos hiding atender
open OperatingSystem.Kernel.ColaReady

/-! ### The place of a process -/

def nadie : ℕ → List Instr := fun _ => []

/-- Only this thread has anything to do with the process. -/
def solo (hilo : ℕ) (prog : List Instr) : ℕ → List Instr := Function.update nadie hilo prog

/-- A step to the end of the process. -/
def Sale (p : ℤ) : Instr → Prop
  | .removeProcess pid | .exitProcess pid => pid = p
  | .changeStatus pid st => pid = p ∧ st = .EXIT
  | _ => False

/-- What the short-term planner may have to do with a process that it holds. -/
inductive Propia (p : ℤ) : Status → List Instr → Prop
  | nada {st : Status} : Propia p st []
  | cpu {st : Status} : Propia p st [.cpuExecute p]
  | vuelve {st : Status} : Propia p st (.changeStatus p .BLOCK :: entrar p)
  | bloquea {st : Status} : Propia p st [.changeStatus p .BLOCK]
  | despierta {st : Status} {instr : Instr} : Despierta p instr → Propia p st [instr]
  | bloqueaYLanza {st : Status} {instr : Instr} : Lanza p instr →
      Propia p st [.changeStatus p .BLOCK, instr]
  | lanza {st : Status} {instr : Instr} : st ≠ .EXEC → Lanza p instr → Propia p st [instr]
  | sale {st : Status} {prog : List Instr} : (∀ instr ∈ prog, Sale p instr) → Propia p st prog

/-- **Where a process is**, with the number of times that it is in a queue of those who wait. -/
inductive Fase (p : ℤ) : Vista → ℕ → Prop
  /-- With the short-term planner, or nowhere. -/
  | propia {st : Status} {prog : List Instr} : st ≠ .READY → Propia p st prog →
      Fase p ⟨st, 0, solo STP prog⟩ 0
  /-- About to be put in the queue. -/
  | entra {st : Status} {hilo : ℕ} : st ≠ .READY → hilo = STP ∨ st ≠ .EXEC →
      Fase p ⟨st, 0, solo hilo (entrar p)⟩ 0
  /-- In the queue, before `READY` is written. -/
  | anunciada {st : Status} {hilo : ℕ} : st ≠ .READY → hilo = STP ∨ st ≠ .EXEC →
      Fase p ⟨st, 1, solo hilo [.changeStatus p .READY]⟩ 0
  | lista : Fase p ⟨.READY, 1, nadie⟩ 0
  /-- Between the pop and `process_execute`. -/
  | elegida : Fase p ⟨.READY, 0, solo STP [.changeStatus p .EXEC]⟩ 0
  /-- The same, before `READY` is written. -/
  | adelantada {st : Status} {hilo : ℕ} : st ≠ .READY → hilo ≠ STP →
      Fase p ⟨st, 0, Function.update (solo hilo [.changeStatus p .READY]) STP
        [.changeStatus p .EXEC]⟩ 0
  /-- Put in a queue of those who wait, and about to be blocked. -/
  | bloquea {st : Status} : st ≠ .READY → Fase p ⟨st, 0, solo STP [.changeStatus p .BLOCK]⟩ 1
  | espera : Fase p ⟨.BLOCK, 0, nadie⟩ 1

section

variable {v v' : Vista} {instr : Instr} {prog resto : List Instr} {p : ℤ} {hilo : ℕ} {n : ℕ}

@[simp] theorem solo_self (hilo : ℕ) (prog : List Instr) : solo hilo prog hilo = prog :=
  Function.update_self ..

theorem solo_of_ne {j : ℕ} (h : j ≠ hilo) (prog : List Instr) : solo hilo prog j = [] :=
  Function.update_of_ne h ..

@[simp] theorem update_solo (hilo : ℕ) (l₁ l₂ : List Instr) :
    Function.update (solo hilo l₁) hilo l₂ = solo hilo l₂ :=
  Function.update_idem ..

@[simp] theorem solo_nil (hilo : ℕ) : solo hilo [] = nadie := Function.update_eq_self ..

theorem eq_of_solo_eq_cons {j : ℕ} (h : solo hilo prog j = instr :: resto) :
    j = hilo ∧ prog = instr :: resto := by
  by_cases hj : j = hilo
  · subst hj
    exact ⟨rfl, (solo_self ..).symm.trans h⟩
  · rw [solo_of_ne hj] at h
    cases h

/-- A process that nobody has anything to do with. -/
theorem fase_nadie {st : Status} (hst : st ≠ .READY) : Fase p ⟨st, 0, nadie⟩ 0 := by
  rw [← solo_nil STP]
  exact .propia hst .nada

/-- The only thread that has anything to do with the process goes on. -/
theorem fase_sigue {st st' : Status} {cola cola' : ℕ} {l l' : List Instr}
    (hf : Fase p ⟨st', cola', solo hilo l'⟩ n) :
    Fase p { Vista.sigue ⟨st, cola, solo hilo l⟩ hilo l' with status := st', cola := cola' } n := by
  unfold Vista.sigue
  rw [update_solo]
  exact hf

/-- A step to the end of a process that is not in the queue. -/
theorem hace_sale {st : Status} (h : Hace p ⟨st, 0, solo STP (instr :: resto)⟩ STP resto instr v')
    (hst : st ≠ .READY) (hs : Sale p instr) :
    ∃ st' l, st' ≠ .READY ∧ (∀ ins ∈ l, Sale p ins) ∧ v' = ⟨st', 0, solo STP (l ++ resto)⟩ := by
  cases h with
  | processOnReady => exact hs.elim
  | removeProcess => exact ⟨st, [], hst, by simp, Vista.ext rfl rfl (update_solo ..)⟩
  | changeStatus st' =>
    obtain rfl := hs.2
    exact ⟨.EXIT, [], by simp, by simp, Vista.ext rfl rfl (update_solo ..)⟩
  | exitProcess =>
    exact ⟨st, [.changeStatus p .EXIT], hst, by simp [Sale], Vista.ext rfl rfl (update_solo ..)⟩
  | despierta hd | sinEfecto hd =>
    cases instr <;> first | exact hd.elim | exact hs.elim
  | lanza hl =>
    cases instr <;> first | exact hl.elim | exact hs.elim

/-- The short-term planner does something to a process that it holds. -/
theorem Propia.hace {st : Status} (hprog : Propia p st (instr :: resto)) (hst : st ≠ .READY)
    (h : Hace p ⟨st, 0, solo STP (instr :: resto)⟩ STP resto instr v') : Fase p v' 0 := by
  cases hprog with
  | cpu =>
    cases h with
    | despierta hd | sinEfecto hd => exact hd.elim
    | lanza hl => exact hl.elim
  | vuelve =>
    obtain rfl := h.changeStatus_eq
    exact fase_sigue (.entra (by simp) (Or.inl rfl))
  | bloquea =>
    obtain rfl := h.changeStatus_eq
    exact fase_sigue (.propia (by simp) .nada)
  | bloqueaYLanza hl =>
    obtain rfl := h.changeStatus_eq
    exact fase_sigue (.propia (by simp) (.lanza (by simp) hl))
  | despierta hd =>
    rcases h.despierta_eq hd with rfl | rfl
    · exact fase_sigue (.entra hst (Or.inl rfl))
    · exact fase_sigue (.propia hst .nada)
  | lanza hexec hl =>
    obtain ⟨nuevo, prog, -, -, -, hp, rfl⟩ := h.lanza_eq hl
    have hv : (Vista.sigue ⟨st, 0, solo STP [instr]⟩ STP []).sigue nuevo prog =
        ⟨st, 0, solo nuevo prog⟩ := by
      unfold Vista.sigue
      rw [update_solo, solo_nil]
      rfl
    rw [hv]
    rcases hp with rfl | rfl
    · exact .entra hst (Or.inr hexec)
    · rw [solo_nil]
      exact fase_nadie hst
  | sale hs =>
    obtain ⟨st', l, hst', hl, rfl⟩ := hace_sale h hst (hs instr List.mem_cons_self)
    refine .propia hst' (.sale fun ins hin => ?_)
    rcases List.mem_append.mp hin with hin | hin
    · exact hl ins hin
    · exact hs ins (List.mem_cons_of_mem instr hin)

/-- **One instruction** takes a process from one place to the next, unless `process_execute` overtakes
the thread that put the process in the queue. -/
theorem Fase.hace (hf : Fase p v n) (hi : v.hilos hilo = instr :: resto)
    (h : Hace p v hilo resto instr v')
    (hord : instr = .changeStatus p .EXEC → ∀ j, v.hilos j ≠ [.changeStatus p .READY]) :
    Fase p v' n := by
  cases hf with
  | propia hst hprog =>
    obtain ⟨rfl, rfl⟩ := eq_of_solo_eq_cons hi
    exact hprog.hace hst h
  | entra hst hexec =>
    obtain ⟨rfl, he⟩ := eq_of_solo_eq_cons hi
    obtain ⟨rfl, rfl⟩ := List.cons.inj he
    obtain rfl := h.processOnReady_eq
    exact fase_sigue (.anunciada hst hexec)
  | anunciada hst hexec =>
    obtain ⟨rfl, he⟩ := eq_of_solo_eq_cons hi
    obtain ⟨rfl, rfl⟩ := List.cons.inj he
    obtain rfl := h.changeStatus_eq
    exact fase_sigue (solo_nil hilo ▸ .lista)
  | lista => cases hi
  | elegida =>
    obtain ⟨rfl, he⟩ := eq_of_solo_eq_cons hi
    obtain ⟨rfl, rfl⟩ := List.cons.inj he
    obtain rfl := h.changeStatus_eq
    exact fase_sigue (.propia (by simp) .nada)
  | @adelantada st j hst hne =>
    have hj : Function.update (solo j [.changeStatus p .READY]) STP [.changeStatus p .EXEC] j =
        [.changeStatus p .READY] := by
      rw [Function.update_of_ne hne, solo_self]
    by_cases hstp : hilo = STP
    · subst hstp
      have hi' : [Instr.changeStatus p .EXEC] = instr :: resto := by
        rw [← hi]
        simp
      exact absurd hj (hord (List.cons.inj hi').1.symm j)
    · -- the thread that put the process in the queue writes `READY` in time
      obtain ⟨rfl, he⟩ := eq_of_solo_eq_cons ((Function.update_of_ne hstp ..).symm.trans hi)
      obtain ⟨rfl, rfl⟩ := List.cons.inj he
      obtain rfl := h.changeStatus_eq
      unfold Vista.sigue
      rw [Function.update_comm hne.symm, update_solo, solo_nil]
      exact .elegida
  | bloquea hst =>
    obtain ⟨rfl, he⟩ := eq_of_solo_eq_cons hi
    obtain ⟨rfl, rfl⟩ := List.cons.inj he
    obtain rfl := h.changeStatus_eq
    exact fase_sigue (solo_nil STP ▸ .espera)
  | espera => cases hi

/-- What the console does is in no program. -/
theorem Propia.sinConsola {st : Status} (h : Propia p st (instr :: resto)) : SinConsola instr := by
  intro pid libera
  cases h with
  | despierta hd =>
    constructor
    all_goals
      rintro rfl
      exact hd
  | lanza _ hl =>
    constructor
    all_goals
      rintro rfl
      exact hl
  | sale hs =>
    constructor
    all_goals
      rintro rfl
      exact hs _ List.mem_cons_self
  | _ => simp

theorem Fase.sinConsola (hf : Fase p v n) (hi : v.hilos hilo = instr :: resto) : SinConsola instr := by
  have hestado : ∀ {st : Status}, SinConsola (.changeStatus p st) := by simp [SinConsola]
  cases hf with
  | propia hst hprog =>
    obtain ⟨-, rfl⟩ := eq_of_solo_eq_cons hi
    exact hprog.sinConsola
  | entra =>
    obtain ⟨-, he⟩ := eq_of_solo_eq_cons hi
    rw [← (List.cons.inj he).1]
    simp [SinConsola]
  | anunciada | elegida | bloquea =>
    obtain ⟨-, he⟩ := eq_of_solo_eq_cons hi
    rw [← (List.cons.inj he).1]
    exact hestado
  | adelantada =>
    by_cases hstp : hilo = STP
    · subst hstp
      have hi' : [Instr.changeStatus p .EXEC] = instr :: resto := by
        rw [← hi]
        simp
      rw [← (List.cons.inj hi').1]
      exact hestado
    · obtain ⟨-, he⟩ := eq_of_solo_eq_cons ((Function.update_of_ne hstp ..).symm.trans hi)
      rw [← (List.cons.inj he).1]
      exact hestado
  | lista | espera => cases hi

/-- The test of the loop sends the process to the CPU. -/
theorem Fase.cpuExecute (hf : Fase p v n) (hnil : v.hilos STP = []) (hst : v.status = .EXEC) :
    Fase p (v.sigue STP [.cpuExecute p]) n := by
  cases hf with
  | propia hne hprog => exact fase_sigue (.propia hne .cpu)
  | @entra st hilo hne hexec | @anunciada st hilo hne hexec =>
    rcases hexec with rfl | hexec
    · simp [entrar] at hnil
    · exact absurd hst hexec
  | elegida | bloquea | adelantada => simp at hnil
  | lista | espera => cases hst

/-- A new process waits for nothing. -/
theorem Fase.nuevo (hf : Fase p v n) (hv : v = ⟨.NEW, 0, nadie⟩) : n = 0 := by
  cases hf with
  | bloquea =>
    have h := congrFun (congrArg Vista.hilos hv) STP
    simp [nadie] at h
  | espera => cases congrArg Vista.status hv
  | _ => rfl

/-- The short-term planner takes the process out of the queue. -/
theorem Fase.planificar (hf : Fase p v n) (hnil : v.hilos STP = []) (hcola : 0 < v.cola) :
    Fase p { v.sigue STP [.changeStatus p .EXEC] with cola := v.cola - 1 } n := by
  cases hf with
  | @anunciada st hilo hne hexec =>
    have hstp : hilo ≠ STP := by
      rintro rfl
      simp at hnil
    exact .adelantada hne hstp
  | lista => exact .elegida
  | _ => exact absurd hcola (Nat.lt_irrefl 0)

/-- A process that waits is woken up. -/
theorem Fase.despierta (hf : Fase p v n) (hnil : v.hilos STP = []) (hn : 0 < n)
    (hd : Despierta p instr) : n = 1 ∧ Fase p (v.sigue STP [instr]) 0 := by
  cases hf with
  | bloquea => simp at hnil
  | espera => exact ⟨rfl, .propia (by simp) (.despierta hd)⟩
  | _ => exact absurd hn (Nat.lt_irrefl 0)

/-- The process that comes back from the CPU. -/
theorem Fase.enCpu (hf : Fase p v n) (hcpu : v.hilos STP = [.cpuExecute p]) :
    n = 0 ∧ ∃ st, st ≠ .READY ∧ v = ⟨st, 0, solo STP [.cpuExecute p]⟩ := by
  cases hf with
  | @propia st prog hst hprog =>
    obtain rfl : prog = [.cpuExecute p] := (solo_self STP prog).symm.trans hcpu
    exact ⟨rfl, _, hst, rfl⟩
  | @entra st hilo | @anunciada st hilo =>
    obtain ⟨-, he⟩ := eq_of_solo_eq_cons hcpu
    cases he
  | elegida | bloquea | adelantada => simp at hcpu
  | lista | espera => cases hcpu

end

/-! ### The handlers -/

section

variable {pid q : ℤ} {st : Status}

theorem tareas_salir_of_ne (h : pid ≠ q) : tareas q (salir pid) = [] := by
  simp [tareas, salir, deQuien, h]

theorem tareas_releaseResource_of_ne (h : pid ≠ q) (libera : Liberacion) :
    tareas q (releaseResource pid libera) =
      List.replicate ((despertados libera).count q) (.assignResource q) := by
  cases libera with
  | despierta nextPid =>
    by_cases hq : nextPid = q
    · simp [releaseResource, despertados, tareas, deQuien, hq]
    · simp [releaseResource, despertados, tareas, deQuien, hq]
  | nadie => rfl
  | error => exact tareas_salir_of_ne h

theorem tareas_forceExitProcess_of_ne (h : pid ≠ q) (libera : List Liberacion) :
    tareas q (forceExitProcess pid libera) =
      List.replicate ((libera.flatMap despertados).count q) (.assignResource q) := by
  unfold forceExitProcess
  induction libera with
  | nil => rfl
  | cons l ls ih =>
    rw [List.flatMap_cons, tareas_append, ih, tareas_releaseResource_of_ne h, List.flatMap_cons,
      List.count_append, List.replicate_add]

theorem tareas_map_assignOpenFile (wakes : List ℤ) :
    tareas q (wakes.map .assignOpenFile) =
      List.replicate (wakes.count q) (.assignOpenFile q) := by
  induction wakes with
  | nil => rfl
  | cons w ws ih =>
    by_cases hq : w = q
    · subst hq
      rw [List.map_cons, tareas_cons_of_eq rfl, ih, List.count_cons_self, List.replicate_succ]
    · rw [List.map_cons, tareas_cons_of_ne (by simpa [deQuien] using hq), ih,
        List.count_cons_of_ne hq]

/-- **A handler wakes up** whom it takes out of a queue, and does nothing else to other processes. -/
theorem tareas_handleCpuEviction_of_ne (h : pid ≠ q) (motivo : Motivo) :
    tareas q (handleCpuEviction pid motivo) =
      List.replicate ((salenBloqueados motivo).count q) (.assignResource q) ++
        List.replicate ((salenPendientes motivo).count q) (.assignOpenFile q) := by
  cases motivo with
  | signal libera =>
    exact (tareas_releaseResource_of_ne h libera).trans (List.append_nil _).symm
  | exit libera =>
    simpa [handleCpuEviction, salenBloqueados, salenPendientes, tareas_salir_of_ne h] using
      tareas_forceExitProcess_of_ne h libera
  | fClose wakes => exact tareas_map_assignOpenFile wakes
  | waitAsignado => exact tareas_readyProcess_of_ne h
  | waitNoDefinido => exact tareas_salir_of_ne h
  | waitOcupado | evicted | pageFault result =>
    simp [tareas, handleCpuEviction, deQuien, h, salenBloqueados, salenPendientes]
  | sleep blockTime =>
    by_cases hb : 0 < blockTime
    · simp [tareas, handleCpuEviction, deQuien, h, salenBloqueados, salenPendientes, hb]
    · simp [tareas, handleCpuEviction, deQuien, h, salenBloqueados, salenPendientes, hb]
  | fOpen hallado | fSeek hallado | fTruncate hallado | fRead hallado =>
    cases hallado
    · simp [tareas, handleCpuEviction, deQuien, h, salenBloqueados, salenPendientes]
    · simp [tareas, handleCpuEviction, blockAndReady, readyProcess, deQuien, h, salenBloqueados,
        salenPendientes]
  | fWrite hallado modoW =>
    cases hallado
    · rfl
    · cases modoW
      · rfl
      · simp [tareas, handleCpuEviction, blockAndReady, readyProcess, deQuien, h, salenBloqueados,
          salenPendientes]

theorem sale_salir (pid : ℤ) : ∀ instr ∈ tareas pid (salir pid), Sale pid instr := by
  intro instr hin
  have hin := (mem_tareas.mp hin).1
  simp only [salir, List.mem_cons, List.not_mem_nil, or_false] at hin
  rcases hin with rfl | rfl
  · rfl
  · rfl

/-- A release of a resource of the process does nothing to it, or ends it. -/
theorem sale_releaseResource {libera : Liberacion} (h : pid ∉ despertados libera) :
    ∀ instr ∈ tareas pid (releaseResource pid libera), Sale pid instr := by
  cases libera with
  | despierta nextPid =>
    intro instr hin
    obtain ⟨hin, hpid⟩ := mem_tareas.mp hin
    obtain rfl := List.mem_singleton.mp hin
    obtain rfl := Option.some.inj hpid
    exact absurd List.mem_cons_self h
  | nadie => simp [releaseResource]
  | error => exact sale_salir pid

theorem sale_forceExitProcess {libera : List Liberacion} (h : pid ∉ libera.flatMap despertados) :
    ∀ instr ∈ tareas pid (forceExitProcess pid libera ++ salir pid), Sale pid instr := by
  intro instr hin
  rw [tareas_append] at hin
  rcases List.mem_append.mp hin with hin | hin
  · obtain ⟨hin, hpid⟩ := mem_tareas.mp hin
    obtain ⟨l, hl, hin⟩ := List.mem_flatMap.mp hin
    have hno : pid ∉ despertados l := fun hm => h (List.mem_flatMap.mpr ⟨l, hl, hm⟩)
    exact sale_releaseResource hno instr (mem_tareas.mpr ⟨hin, hpid⟩)
  · exact sale_salir pid instr hin

theorem tareas_blockAndReady (pid : ℤ) :
    tareas pid (blockAndReady pid) = .changeStatus pid .BLOCK :: entrar pid := by
  unfold blockAndReady
  rw [tareas_cons_of_eq rfl, tareas_readyProcess]

/-- **A handler leaves the process** that came back in one place. -/
theorem fase_handleCpuEviction (hst : st ≠ .READY) {motivo : Motivo}
    (hB : pid ∉ salenBloqueados motivo) (hP : pid ∉ salenPendientes motivo) :
    Fase pid ⟨st, 0, solo STP (tareas pid (handleCpuEviction pid motivo))⟩
      ((entranBloqueados pid motivo).count pid + (entranPendientes pid motivo).count pid) := by
  have hentra : Fase pid ⟨st, 0, solo STP (tareas pid (readyProcess pid))⟩ 0 := by
    rw [tareas_readyProcess]
    exact .entra hst (Or.inl rfl)
  have hvuelve : Fase pid ⟨st, 0, solo STP (tareas pid (blockAndReady pid))⟩ 0 := by
    rw [tareas_blockAndReady]
    exact .propia hst .vuelve
  have hespera : ∀ {k : ℕ}, k = 1 →
      Fase pid ⟨st, 0, solo STP (tareas pid [.changeStatus pid .BLOCK])⟩ k := fun hk => by
    rw [hk, tareas_cons_of_eq rfl]
    exact .bloquea hst
  cases motivo with
  | waitAsignado => exact hentra
  | waitOcupado => exact hespera (by simp [entranBloqueados, entranPendientes])
  | waitNoDefinido => exact .propia hst (.sale (sale_salir pid))
  | signal libera => exact .propia hst (.sale (sale_releaseResource hB))
  | sleep blockTime =>
    by_cases hb : 0 < blockTime
    · have h : tareas pid (handleCpuEviction pid (.sleep blockTime)) =
          [.changeStatus pid .BLOCK, .simulateProcessBlock pid] := by
        simp [tareas, handleCpuEviction, deQuien, hb]
      rw [h]
      exact .propia hst (.bloqueaYLanza rfl)
    · have h : tareas pid (handleCpuEviction pid (.sleep blockTime)) =
          [.changeStatus pid .BLOCK] := by
        simp [tareas, handleCpuEviction, deQuien, hb]
      rw [h]
      exact .propia hst .bloquea
  | evicted =>
    have h : tareas pid (handleCpuEviction pid .evicted) = [.onEvicted pid] := by
      simp [tareas, handleCpuEviction, deQuien]
    rw [h]
    exact .propia hst (.despierta rfl)
  | pageFault result =>
    have h : tareas pid (handleCpuEviction pid (.pageFault result)) =
        [.changeStatus pid .BLOCK, .requestMemoryToLoadPage pid result] := by
      simp [tareas, handleCpuEviction, deQuien]
    rw [h]
    exact .propia hst (.bloqueaYLanza rfl)
  | fOpen abierto =>
    cases abierto
    · exact hespera (by simp [entranBloqueados, entranPendientes])
    · exact .propia hst .nada
  | fClose wakes =>
    have h : tareas pid (handleCpuEviction pid (.fClose wakes)) = [] := by
      refine (tareas_map_assignOpenFile wakes).trans ?_
      have hcount : wakes.count pid = 0 := List.count_eq_zero_of_not_mem hP
      rw [hcount, List.replicate_zero]
    rw [h]
    exact .propia hst .nada
  | fSeek hallado =>
    cases hallado
    · exact .propia hst .nada
    · exact hentra
  | fTruncate hallado | fRead hallado =>
    cases hallado
    · exact .propia hst .nada
    · exact hvuelve
  | fWrite hallado modoW =>
    cases hallado
    · exact .propia hst .nada
    · cases modoW
      · exact .propia hst .nada
      · exact hvuelve
  | exit libera => exact .propia hst (.sale (sale_forceExitProcess hB))

end

end OperatingSystem.Kernel.Fases
