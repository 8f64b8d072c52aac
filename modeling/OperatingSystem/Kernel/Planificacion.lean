import OperatingSystem.Lib.Run
import Mathlib.Data.Int.Basic

/-! # The pause of the planning (`kernel/src/core/process/process_handler.c`)

`DETENER_PLANIFICACION` sets `paused_planning`, and the planners test it: before they take a process,
and the short-term planner also before it handles what the CPU gives back. A planner that finds it set
waits for its semaphore. `INICIAR_PLANIFICACION` posts both semaphores, whether anyone waits for them
or not, and then resets `paused_planning`; so what it posts may be left over for a later pause.

What the planners do is a step for each access to a semaphore or to `paused_planning`. Which process is
next and whether it is `EXEC` when the inner loop is tested, after `process_execute` and after its
eviction was handled, is chosen by the run.

A planner is stopped (`detenido`) from its test of `paused_planning` in a pause to the next
`INICIAR_PLANIFICACION`. It does nothing while it is stopped (`Respetada`) in every run in which it
finds its semaphore at zero when it finds the planning paused (`SinSobrantes`):
`respetada_of_sinSobrantes`. -/

namespace OperatingSystem.Kernel.Planificacion

open OperatingSystem.Lib.Run

/-- Where `short_term_planner` is: before `sem_wait(&ready_process_event)`, the test of
`paused_planning`, its `sem_wait`, `next_process`; in the inner loop before `cpu_execute`, and with what
came back before the second test, its `sem_wait` and `handle_cpu_eviction`. -/
inductive Stp where
  | esperaReady | prueba | detenido | elige
  | ejecuta (pid : ℤ) | pruebaDesalojo (pid : ℤ) | detenidoDesalojo (pid : ℤ) | atiende (pid : ℤ)
  deriving DecidableEq

/-- Where `long_term_planner` is: before each of its `sem_wait`, the test, and the admission. -/
inductive Ltp where
  | esperaProceso | esperaLugar | prueba | detenido | admite
  deriving DecidableEq

/-- Where the console is in `start_planning`: not in it, or after the first or the second `sem_post`. -/
inductive Comando where
  | ninguno | posteoLtp | posteoStp
  deriving DecidableEq

/-- What a pause is to prevent. -/
inductive Suceso where
  | processExecute (pid : ℤ)
  | handleCpuEviction (pid : ℤ)
  | admite
  deriving DecidableEq

/-- `stpDetenido` and `ltpDetenido` say that the planner made its last test in a pause that no
`INICIAR_PLANIFICACION` has ended; `indebidos` is what they did so. -/
structure Sistema where
  pausedPlanning : Bool
  comando : Comando
  semLtpPaused : ℕ
  semStpPaused : ℕ
  readyProcessEvent : ℕ
  newProcessEvent : ℕ
  maxConcurrentMultiprograming : ℕ
  stp : Stp
  ltp : Ltp
  stpDetenido : Bool
  ltpDetenido : Bool
  indebidos : List Suceso

/-- The planning starts paused. -/
def inicial (multiprogrammingDegree : ℕ) : Sistema where
  pausedPlanning := true
  comando := .ninguno
  semLtpPaused := 0
  semStpPaused := 0
  readyProcessEvent := 0
  newProcessEvent := 0
  maxConcurrentMultiprograming := multiprogrammingDegree
  stp := .esperaReady
  ltp := .esperaProceso
  stpDetenido := false
  ltpDetenido := false
  indebidos := []

/-- `iniciar` is the test of `start_planning` with its first `sem_post`, `sigue` the next statement of
it. `stp` and `ltp` are steps of the planners: `nextProcess` is what `next_process` gives, if the
planner is there, and `exec` what the test of the inner loop finds, if it is next. The other threads
post the events of the planners, and take places when the degree of multiprogramming goes down. -/
inductive Accion where
  | detener
  | iniciar
  | sigue
  | stp (nextProcess : Option ℤ) (exec : Bool)
  | ltp (memoriaOk : Bool)
  | postReady
  | postNew
  | postLugar
  | waitLugar

/-- `pause_planning` -/
def pausePlanning (s : Sistema) : Sistema := { s with pausedPlanning := true }

/-- `start_planning`, up to its first `sem_post`. -/
def startPlanning (s : Sistema) : Sistema :=
  if s.pausedPlanning then
    { s with
      comando := .posteoLtp
      semLtpPaused := s.semLtpPaused + 1
      stpDetenido := false
      ltpDetenido := false }
  else s

/-- The planner does it, stopped or not. -/
def Sistema.hace (s : Sistema) (suceso : Suceso) (detenido : Bool) : Sistema :=
  if detenido then { s with indebidos := s.indebidos ++ [suceso] } else s

/-- The planner that tests `paused_planning` now is stopped, if no `start_planning` is under way. -/
def Sistema.detiene (s : Sistema) : Bool := s.pausedPlanning && s.comando = .ninguno

/-- One step of `short_term_planner`. -/
def shortTermPlanner (s : Sistema) (nextProcess : Option ℤ) (exec : Bool) : Option Sistema :=
  match s.stp with
  | .esperaReady =>
    if 0 < s.readyProcessEvent then
      some { s with readyProcessEvent := s.readyProcessEvent - 1, stp := .prueba }
    else none
  | .prueba => some { s with
      stp := if s.pausedPlanning then .detenido else .elige
      stpDetenido := s.detiene }
  | .detenido =>
    if 0 < s.semStpPaused then some { s with semStpPaused := s.semStpPaused - 1, stp := .elige }
    else none
  | .elige =>
    match nextProcess with
    | some pid => some { s.hace (.processExecute pid) s.stpDetenido with
        stp := if exec then .ejecuta pid else .esperaReady }
    | none => some { s with stp := .esperaReady }
  | .ejecuta pid => some { s with stp := .pruebaDesalojo pid }
  | .pruebaDesalojo pid => some { s with
      stp := if s.pausedPlanning then .detenidoDesalojo pid else .atiende pid
      stpDetenido := s.detiene }
  | .detenidoDesalojo pid =>
    if 0 < s.semStpPaused then
      some { s with semStpPaused := s.semStpPaused - 1, stp := .atiende pid }
    else none
  | .atiende pid => some { s.hace (.handleCpuEviction pid) s.stpDetenido with
      stp := if exec then .ejecuta pid else .esperaReady }

/-- One step of `long_term_planner`. A process that the memory accepts is made ready. -/
def longTermPlanner (s : Sistema) (memoriaOk : Bool) : Option Sistema :=
  match s.ltp with
  | .esperaProceso =>
    if 0 < s.newProcessEvent then
      some { s with newProcessEvent := s.newProcessEvent - 1, ltp := .esperaLugar }
    else none
  | .esperaLugar =>
    if 0 < s.maxConcurrentMultiprograming then
      some { s with
        maxConcurrentMultiprograming := s.maxConcurrentMultiprograming - 1, ltp := .prueba }
    else none
  | .prueba => some { s with
      ltp := if s.pausedPlanning then .detenido else .admite
      ltpDetenido := s.detiene }
  | .detenido =>
    if 0 < s.semLtpPaused then some { s with semLtpPaused := s.semLtpPaused - 1, ltp := .admite }
    else none
  | .admite => some { s.hace .admite s.ltpDetenido with
      ltp := .esperaProceso
      readyProcessEvent := if memoriaOk then s.readyProcessEvent + 1 else s.readyProcessEvent }

/-- The two commands exclude each other by a mutex. -/
def atender (s : Sistema) : Accion → Option Sistema
  | .detener => if s.comando = .ninguno then some (pausePlanning s) else none
  | .iniciar => if s.comando = .ninguno then some (startPlanning s) else none
  | .sigue =>
    match s.comando with
    | .ninguno => none
    | .posteoLtp => some { s with comando := .posteoStp, semStpPaused := s.semStpPaused + 1 }
    | .posteoStp => some { s with comando := .ninguno, pausedPlanning := false }
  | .stp nextProcess exec => shortTermPlanner s nextProcess exec
  | .ltp memoriaOk => longTermPlanner s memoriaOk
  | .postReady => some { s with readyProcessEvent := s.readyProcessEvent + 1 }
  | .postNew => some { s with newProcessEvent := s.newProcessEvent + 1 }
  | .postLugar =>
    some { s with maxConcurrentMultiprograming := s.maxConcurrentMultiprograming + 1 }
  | .waitLugar =>
    if 0 < s.maxConcurrentMultiprograming then
      some { s with maxConcurrentMultiprograming := s.maxConcurrentMultiprograming - 1 }
    else none

/-- **The pause is respected**: nothing was done by a planner that was stopped. -/
def Respetada (s : Sistema) : Prop := s.indebidos = []

instance (s : Sistema) : Decidable (Respetada s) := by unfold Respetada; infer_instance

/-- A planner that is stopped by its test finds nothing in its semaphore. -/
def SinSobrantes (s : Sistema) : Accion → Prop
  | .stp _ _ =>
    match s.stp with
    | .prueba | .pruebaDesalojo _ => s.detiene = true → s.semStpPaused = 0
    | _ => True
  | .ltp _ =>
    match s.ltp with
    | .prueba => s.detiene = true → s.semLtpPaused = 0
    | _ => True
  | _ => True

instance (s : Sistema) (a : Accion) : Decidable (SinSobrantes s a) := by
  unfold SinSobrantes
  split <;> (try split) <;> infer_instance

/-! ### The invariant -/

/-- A planner that is stopped is before its `sem_wait`, which is at zero. -/
structure Inv (s : Sistema) : Prop where
  stp : s.stpDetenido = true → s.comando = .ninguno ∧ s.semStpPaused = 0 ∧
    (s.stp = .detenido ∨ ∃ pid, s.stp = .detenidoDesalojo pid)
  ltp : s.ltpDetenido = true → s.comando = .ninguno ∧ s.semLtpPaused = 0 ∧ s.ltp = .detenido
  respetada : Respetada s

theorem inv_inicial (n : ℕ) : Inv (inicial n) := ⟨nofun, nofun, rfl⟩

variable {s s' : Sistema} {a : Accion}

theorem detiene_comando (h : s.detiene = true) : s.comando = .ninguno := by
  unfold Sistema.detiene at h
  rw [Bool.and_eq_true, decide_eq_true_iff] at h
  exact h.2

theorem detiene_paused (h : s.detiene = true) : s.pausedPlanning = true := by
  unfold Sistema.detiene at h
  rw [Bool.and_eq_true] at h
  exact h.1

/-- A planner that is not at its `sem_wait` is not stopped. -/
theorem stpDetenido_eq_false (hI : Inv s) (h : s.stp ≠ .detenido)
    (h' : ∀ pid, s.stp ≠ .detenidoDesalojo pid) : s.stpDetenido = false := by
  rw [← Bool.not_eq_true]
  intro hd
  obtain ⟨-, -, hp | ⟨pid, hp⟩⟩ := hI.stp hd
  · exact h hp
  · exact h' pid hp

theorem ltpDetenido_eq_false (hI : Inv s) (h : s.ltp ≠ .detenido) : s.ltpDetenido = false := by
  rw [← Bool.not_eq_true]
  exact fun hd => h (hI.ltp hd).2.2

theorem hace_false (s : Sistema) (suceso : Suceso) : s.hace suceso false = s :=
  if_neg Bool.false_ne_true

/-- A step of the short-term planner that leaves it free. -/
theorem inv_of_stp_libre (hI : Inv s) (hd : s'.stpDetenido = false) (hltp : s'.ltp = s.ltp)
    (hld : s'.ltpDetenido = s.ltpDetenido) (hc : s'.comando = s.comando)
    (hsem : s'.semLtpPaused = s.semLtpPaused) (hr : s'.indebidos = s.indebidos) : Inv s' where
  stp := fun h => by rw [hd] at h; exact absurd h Bool.false_ne_true
  ltp := by rw [hld, hltp, hc, hsem]; exact hI.ltp
  respetada := hr.trans hI.respetada

/-- The test of the short-term planner. -/
theorem inv_prueba_stp (hI : Inv s) (hC : s.detiene = true → s.semStpPaused = 0) {p q : Stp}
    (hpt : p = .detenido ∨ ∃ pid, p = .detenidoDesalojo pid) :
    Inv { s with
      stp := if s.pausedPlanning then p else q
      stpDetenido := s.detiene } where
  stp := fun h => by
    have h' : s.detiene = true := h
    refine ⟨detiene_comando h', hC h', ?_⟩
    dsimp only
    rw [if_pos (detiene_paused h')]
    exact hpt
  ltp := hI.ltp
  respetada := hI.respetada

theorem inv_shortTermPlanner {nextProcess : Option ℤ} {exec : Bool} (hI : Inv s)
    (hC : SinSobrantes s (.stp nextProcess exec))
    (h : shortTermPlanner s nextProcess exec = some s') : Inv s' := by
  unfold shortTermPlanner at h
  unfold SinSobrantes at hC
  cases hp : s.stp with
  | esperaReady =>
    have hd := stpDetenido_eq_false hI (by rw [hp]; exact nofun) (by rw [hp]; exact nofun)
    simp only [hp] at h
    obtain ⟨-, h⟩ := Option.ite_none_right_eq_some.mp h
    obtain rfl := Option.some.inj h
    exact inv_of_stp_libre hI hd rfl rfl rfl rfl rfl
  | prueba =>
    simp only [hp] at h hC
    obtain rfl := Option.some.inj h
    exact inv_prueba_stp hI hC (Or.inl rfl)
  | detenido =>
    simp only [hp] at h
    obtain ⟨hpos, h⟩ := Option.ite_none_right_eq_some.mp h
    obtain rfl := Option.some.inj h
    have hd : s.stpDetenido = false := by
      rw [← Bool.not_eq_true]
      intro hd
      have := (hI.stp hd).2.1
      omega
    exact inv_of_stp_libre hI hd rfl rfl rfl rfl rfl
  | elige =>
    have hd := stpDetenido_eq_false hI (by rw [hp]; exact nofun) (by rw [hp]; exact nofun)
    cases nextProcess with
    | none =>
      simp only [hp] at h
      obtain rfl := Option.some.inj h
      exact inv_of_stp_libre hI hd rfl rfl rfl rfl rfl
    | some pid =>
      simp only [hp, hd, hace_false] at h
      obtain rfl := Option.some.inj h
      exact inv_of_stp_libre hI rfl rfl rfl rfl rfl rfl
  | ejecuta pid =>
    have hd := stpDetenido_eq_false hI (by rw [hp]; exact nofun) (by rw [hp]; exact nofun)
    simp only [hp] at h
    obtain rfl := Option.some.inj h
    exact inv_of_stp_libre hI hd rfl rfl rfl rfl rfl
  | pruebaDesalojo pid =>
    simp only [hp] at h hC
    obtain rfl := Option.some.inj h
    exact inv_prueba_stp hI hC (Or.inr ⟨pid, rfl⟩)
  | detenidoDesalojo pid =>
    simp only [hp] at h
    obtain ⟨hpos, h⟩ := Option.ite_none_right_eq_some.mp h
    obtain rfl := Option.some.inj h
    have hd : s.stpDetenido = false := by
      rw [← Bool.not_eq_true]
      intro hd
      have := (hI.stp hd).2.1
      omega
    exact inv_of_stp_libre hI hd rfl rfl rfl rfl rfl
  | atiende pid =>
    have hd := stpDetenido_eq_false hI (by rw [hp]; exact nofun) (by rw [hp]; exact nofun)
    simp only [hp, hd, hace_false] at h
    obtain rfl := Option.some.inj h
    exact inv_of_stp_libre hI rfl rfl rfl rfl rfl rfl

/-- A step of the long-term planner that leaves it free. -/
theorem inv_of_ltp_libre (hI : Inv s) (hd : s'.ltpDetenido = false) (hstp : s'.stp = s.stp)
    (hsd : s'.stpDetenido = s.stpDetenido) (hc : s'.comando = s.comando)
    (hsem : s'.semStpPaused = s.semStpPaused) (hr : s'.indebidos = s.indebidos) : Inv s' where
  stp := by rw [hsd, hstp, hc, hsem]; exact hI.stp
  ltp := fun h => by rw [hd] at h; exact absurd h Bool.false_ne_true
  respetada := hr.trans hI.respetada

theorem inv_longTermPlanner {memoriaOk : Bool} (hI : Inv s) (hC : SinSobrantes s (.ltp memoriaOk))
    (h : longTermPlanner s memoriaOk = some s') : Inv s' := by
  unfold longTermPlanner at h
  unfold SinSobrantes at hC
  cases hp : s.ltp with
  | esperaProceso =>
    have hd := ltpDetenido_eq_false hI (by rw [hp]; exact nofun)
    simp only [hp] at h
    obtain ⟨-, h⟩ := Option.ite_none_right_eq_some.mp h
    obtain rfl := Option.some.inj h
    exact inv_of_ltp_libre hI hd rfl rfl rfl rfl rfl
  | esperaLugar =>
    have hd := ltpDetenido_eq_false hI (by rw [hp]; exact nofun)
    simp only [hp] at h
    obtain ⟨-, h⟩ := Option.ite_none_right_eq_some.mp h
    obtain rfl := Option.some.inj h
    exact inv_of_ltp_libre hI hd rfl rfl rfl rfl rfl
  | prueba =>
    simp only [hp] at h hC
    obtain rfl := Option.some.inj h
    refine ⟨hI.stp, fun hd => ?_, hI.respetada⟩
    have hd' : s.detiene = true := hd
    exact ⟨detiene_comando hd', hC hd', if_pos (detiene_paused hd')⟩
  | detenido =>
    simp only [hp] at h
    obtain ⟨hpos, h⟩ := Option.ite_none_right_eq_some.mp h
    obtain rfl := Option.some.inj h
    have hd : s.ltpDetenido = false := by
      rw [← Bool.not_eq_true]
      intro hd
      have := (hI.ltp hd).2.1
      omega
    exact inv_of_ltp_libre hI hd rfl rfl rfl rfl rfl
  | admite =>
    have hd := ltpDetenido_eq_false hI (by rw [hp]; exact nofun)
    simp only [hp, hd, hace_false] at h
    obtain rfl := Option.some.inj h
    exact inv_of_ltp_libre hI rfl rfl rfl rfl rfl rfl

/-- A command that stops nobody leaves the planners free. -/
theorem inv_of_libres (hs : s.stpDetenido = false) (hl : s.ltpDetenido = false) (hr : Respetada s) :
    Inv s where
  stp := fun h => by rw [hs] at h; exact absurd h Bool.false_ne_true
  ltp := fun h => by rw [hl] at h; exact absurd h Bool.false_ne_true
  respetada := hr

/-- While `start_planning` is under way nobody is stopped. -/
theorem libres_of_comando (hI : Inv s) (h : s.comando ≠ .ninguno) :
    s.stpDetenido = false ∧ s.ltpDetenido = false := by
  rw [← Bool.not_eq_true, ← Bool.not_eq_true]
  exact ⟨fun hd => h (hI.stp hd).1, fun hd => h (hI.ltp hd).1⟩

theorem inv_sigue (hI : Inv s) (h : atender s .sigue = some s') : Inv s' := by
  unfold atender at h
  cases hc : s.comando with
  | ninguno => simp [hc] at h
  | posteoLtp =>
    obtain ⟨hs, hl⟩ := libres_of_comando hI (by rw [hc]; exact nofun)
    simp only [hc] at h
    obtain rfl := Option.some.inj h
    exact inv_of_libres hs hl hI.respetada
  | posteoStp =>
    obtain ⟨hs, hl⟩ := libres_of_comando hI (by rw [hc]; exact nofun)
    simp only [hc] at h
    obtain rfl := Option.some.inj h
    exact inv_of_libres hs hl hI.respetada

theorem inv_atender (s : Sistema) (a : Accion) (s' : Sistema) (hI : Inv s) (hC : SinSobrantes s a)
    (h : atender s a = some s') : Inv s' := by
  cases a with
  | detener =>
    obtain ⟨-, h⟩ := Option.ite_none_right_eq_some.mp h
    obtain rfl := Option.some.inj h
    exact ⟨hI.stp, hI.ltp, hI.respetada⟩
  | iniciar =>
    obtain ⟨-, h⟩ := Option.ite_none_right_eq_some.mp h
    obtain rfl := Option.some.inj h
    unfold startPlanning
    split_ifs
    · exact inv_of_libres rfl rfl hI.respetada
    · exact hI
  | sigue => exact inv_sigue hI h
  | stp nextProcess exec => exact inv_shortTermPlanner hI hC h
  | ltp memoriaOk => exact inv_longTermPlanner hI hC h
  | waitLugar =>
    obtain ⟨-, h⟩ := Option.ite_none_right_eq_some.mp h
    obtain rfl := Option.some.inj h
    exact ⟨hI.stp, hI.ltp, hI.respetada⟩
  | _ =>
    obtain rfl := Option.some.inj h
    exact ⟨hI.stp, hI.ltp, hI.respetada⟩

/-- **A pause is a pause** in a run in which no planner finds what an earlier `INICIAR_PLANIFICACION`
left in its semaphore. -/
theorem respetada_of_sinSobrantes {n : ℕ} {as : List Accion}
    (hA : Along atender SinSobrantes (inicial n) as) (h : exec atender (inicial n) as = some s) :
    Respetada s :=
  (exec_invariant inv_atender (inv_inicial n) hA h).respetada

/-- A process arrives in the first pause, and both planners wait for its end. -/
def conEspera : List Accion :=
  [.postNew, .ltp true, .ltp true, .ltp true, .postReady, .stp none false, .stp none false, .iniciar,
    .ltp true, .ltp true, .sigue, .stp none false, .sigue, .stp (some 1) true, .detener]

theorem respetada_of_sinSobrantes_conEspera : ∃ s, exec atender (inicial 1) conEspera = some s ∧
    Respetada s := by
  obtain ⟨s, hs⟩ := Option.isSome_iff_exists.mp
    (by decide : (exec atender (inicial 1) conEspera).isSome = true)
  exact ⟨s, hs, respetada_of_sinSobrantes (by decide) hs⟩

/-- The planning starts and stops before there is any process: the first one is admitted and dispatched
in the pause. -/
def sinEspera : List Accion :=
  [.iniciar, .sigue, .sigue, .detener, .postNew, .ltp true, .ltp true, .ltp true, .ltp true, .ltp true,
    .stp none false, .stp none false, .stp none false, .stp (some 1) true]

theorem respetada_sinEspera : ∃ s, exec atender (inicial 1) sinEspera = some s ∧
    s.pausedPlanning = true ∧ s.indebidos = [.admite, .processExecute 1] ∧ ¬ Respetada s :=
  ⟨_, rfl, rfl, rfl, by decide⟩

end OperatingSystem.Kernel.Planificacion
