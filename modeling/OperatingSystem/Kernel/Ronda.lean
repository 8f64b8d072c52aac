import OperatingSystem.Kernel.Fichas
import OperatingSystem.Lib.Queues

/-! # The planners `FIFO` and `RR`

The threads of `Kernel.Fichas` put processes into the queue of the planner, one access at a time, and
take them out when they end; the short-term planner takes the first one. With `FIFO` and `RR` the
processes are dispatched as they came (`por_orden`): nobody who came later goes before one that is in the
queue, which waits for those in front of it and for nobody else. -/

namespace OperatingSystem.Kernel.Ronda

open OperatingSystem.Lib.Run OperatingSystem.Lib.Queues
open OperatingSystem.Kernel.Prioridades hiding Accion atender
open OperatingSystem.Kernel.Fichas

/-- The planner is the one of `planner_set_fifo` or `planner_set_rr`. -/
def PorLlegada : Planner → Prop
  | .fifo _ | .rr _ => True
  | .prioridades _ => False

/-- What the access of a thread does to the queue. -/
def enCola : Punto → List (Event Proceso)
  | .processOnReady proceso => [.push proceso]
  | .removeProcess proceso => [.remove proceso]
  | _ => []

/-- What a step does to the queue. -/
def sucesos (s : Sistema) : Accion → List (Event Proceso)
  | .paso hilo => (s.hilos[hilo]?).elim [] enCola
  | .stpPaso =>
    match s.stp with
    | .rafaga punto => enCola punto
    | _ => []
  | .nextProcess => [.pop]
  | _ => []

/-- The process that a step dispatches. -/
def despacha (s : Sistema) : Accion → List Proceso
  | .nextProcess => (nextProcess s.planner).1.toList
  | _ => []

/-- The dispatches of a run. -/
def despachados (s : Sistema) (as : List Accion) : List Proceso := emitted atender despacha s as

/-- What a run does to the queue. -/
def movimientos (s : Sistema) (as : List Accion) : List (Event Proceso) := emitted atender sucesos s as

/-- The processes that became ready, in this order. -/
def llegados (s : Sistema) (as : List Accion) : List Proceso := pushed (movimientos s as)

/-- How often the planner took a process. -/
def turnos (as : List Accion) : ℕ := as.countP fun
  | .nextProcess => true
  | _ => false

variable {s s' : Sistema} {a : Accion} {planner : Planner} {punto : Punto}

/-- **One access.** -/
theorem avanzar_cola {r : Sistema × Punto} (hp : PorLlegada s.planner) (h : avanzar s punto = some r) :
    PorLlegada r.1.planner ∧ r.1.planner.procesos = run s.planner.procesos (enCola punto) ∧
      served s.planner.procesos (enCola punto) = [] ∧ pops (enCola punto) = 0 := by
  cases punto with
  | libre => cases h
  | processOnReady proceso =>
    obtain rfl := Option.some.inj h
    cases hk : s.planner with
    | fifo cola | rr cola => exact ⟨trivial, rfl, rfl, rfl⟩
    | prioridades k => exact (hk ▸ hp : PorLlegada (.prioridades k)).elim
  | changeStatus proceso | postReady =>
    obtain rfl := Option.some.inj h
    exact ⟨hp, rfl, rfl, rfl⟩
  | removeProcess proceso =>
    obtain rfl := Option.some.inj h
    cases hk : s.planner with
    | fifo cola | rr cola => exact ⟨trivial, rfl, rfl, rfl⟩
    | prioridades k => exact (hk ▸ hp : PorLlegada (.prioridades k)).elim

/-- **One step.** -/
theorem atender_cola (hp : PorLlegada s.planner) (hs : atender s a = some s') :
    PorLlegada s'.planner ∧ s'.planner.procesos = run s.planner.procesos (sucesos s a) ∧
      despacha s a = served s.planner.procesos (sucesos s a) ∧ turnos [a] = pops (sucesos s a) := by
  cases a with
  | crear =>
    obtain rfl := Option.some.inj hs
    exact ⟨hp, rfl, rfl, rfl⟩
  | llamar hilo llamada =>
    obtain ⟨-, hs⟩ := Option.ite_none_right_eq_some.mp hs
    obtain rfl := Option.some.inj hs
    exact ⟨hp, rfl, rfl, rfl⟩
  | paso hilo =>
    obtain ⟨punto, hh, hs⟩ := Option.bind_eq_some_iff.mp hs
    obtain ⟨⟨s₁, punto'⟩, hav, hs⟩ := Option.bind_eq_some_iff.mp hs
    obtain rfl := Option.some.inj hs
    obtain ⟨h1, h2, h3, h4⟩ := avanzar_cola hp hav
    have hsuc : sucesos s (.paso hilo) = enCola punto := by rw [sucesos, hh]; rfl
    rw [hsuc]
    exact ⟨h1, h2, h3.symm, h4.symm⟩
  | stpLlamar llamada =>
    obtain ⟨-, hs⟩ := Option.ite_none_right_eq_some.mp hs
    obtain rfl := Option.some.inj hs
    exact ⟨hp, rfl, rfl, rfl⟩
  | stpPaso =>
    cases hstp : s.stp with
    | semWait | nextProcess =>
      simp only [atender, hstp] at hs
      cases hs
    | rafaga punto =>
      simp only [atender, hstp] at hs
      obtain ⟨⟨s₁, punto'⟩, hav, rfl⟩ := Option.map_eq_some_iff.mp hs
      obtain ⟨h1, h2, h3, h4⟩ := avanzar_cola hp hav
      have hsuc : sucesos s .stpPaso = enCola punto := by rw [sucesos, hstp]
      rw [hsuc]
      exact ⟨h1, h2, h3.symm, h4.symm⟩
  | semWait =>
    obtain ⟨-, hs⟩ := Option.ite_none_right_eq_some.mp hs
    obtain rfl := Option.some.inj hs
    exact ⟨hp, rfl, rfl, rfl⟩
  | nextProcess =>
    obtain ⟨-, hs⟩ := Option.ite_none_right_eq_some.mp hs
    obtain rfl := Option.some.inj hs
    cases hk : s.planner with
    | fifo cola | rr cola =>
      rw [despacha, hk]
      exact ⟨trivial, rfl, (List.append_nil _).symm, rfl⟩
    | prioridades k => exact (hk ▸ hp : PorLlegada (.prioridades k)).elim
  | fin =>
    obtain ⟨-, hs⟩ := Option.ite_none_right_eq_some.mp hs
    obtain rfl := Option.some.inj hs
    exact ⟨hp, rfl, rfl, rfl⟩
  | changeStatus pid nextStatus =>
    obtain rfl := Option.some.inj hs
    exact ⟨hp, rfl, rfl, rfl⟩

/-- **A run.** -/
theorem exec_cola : ∀ {as : List Accion} {s : Sistema}, PorLlegada s.planner →
    exec atender s as = some s' → PorLlegada s'.planner ∧
      s'.planner.procesos = run s.planner.procesos (movimientos s as) ∧
      despachados s as = served s.planner.procesos (movimientos s as) ∧
      turnos as = pops (movimientos s as)
  | [], s, hp, hs => by
    obtain rfl := Option.some.inj hs
    exact ⟨hp, rfl, rfl, rfl⟩
  | a :: as, s, hp, hs => by
    obtain ⟨s₁, ha, hs⟩ := Option.bind_eq_some_iff.mp hs
    obtain ⟨hp₁, hcola₁, hdesp₁, hturno₁⟩ := atender_cola hp ha
    obtain ⟨hp', hcola, hdesp, hturno⟩ := exec_cola hp₁ hs
    have hmov : movimientos s (a :: as) = sucesos s a ++ movimientos s₁ as := emitted_cons ha as
    have hdes : despachados s (a :: as) = despacha s a ++ despachados s₁ as := emitted_cons ha as
    have htur : turnos ([a] ++ as) = turnos [a] + turnos as := List.countP_append
    rw [List.singleton_append] at htur
    rw [hmov, hdes, htur, run_append, served_append, pops_append, ← hcola₁]
    exact ⟨hp', hcola, by rw [hdesp₁, hdesp], by rw [hturno₁, hturno]⟩

/-- **First come, first served**, with `FIFO` and with `RR`. What was dispatched and what is in the queue
became ready in this order, and nothing else did if no process was taken out. A process in the queue
is dispatched, after some of those in front of it and nobody else, unless it is taken out; until then,
every dispatch is of one of those in front of it, and a token announces it. -/
theorem por_orden {as : List Accion} (hp : planner = .fifo [] ∨ planner = .rr [])
    (hs : exec atender (inicial planner) as = some s) :
    (despachados (inicial planner) as ++ s.planner.procesos).Sublist (llegados (inicial planner) as) ∧
    ((∀ q, .remove q ∉ movimientos (inicial planner) as) →
      despachados (inicial planner) as ++ s.planner.procesos = llegados (inicial planner) as) ∧
    ∀ bs s' delante p detras, exec atender s bs = some s' →
      s.planner.procesos = delante ++ p :: detras → .remove p ∉ movimientos s bs →
      (∃ antes despues, despachados s bs = antes ++ p :: despues ∧ antes.Sublist delante) ∨
      ∃ delante' detras', s'.planner.procesos = delante' ++ p :: detras' ∧
        (despachados s bs ++ delante').Sublist delante ∧ (despachados s bs).length = turnos bs ∧
        0 < s'.readyProcessEvent + (s'.hilos.map Punto.porPostear).sum + s'.stp.fichas := by
  have hp₀ : PorLlegada (inicial planner).planner := by
    rcases hp with rfl | rfl <;> trivial
  have hvacia : (inicial planner).planner.procesos = [] := by
    rcases hp with rfl | rfl <;> rfl
  obtain ⟨hps, hcola, hdesp, -⟩ := exec_cola hp₀ hs
  rw [hvacia] at hcola hdesp
  refine ⟨?_, fun hno => ?_, fun bs s' delante p detras hs' hq hno => ?_⟩
  · rw [hdesp, hcola]
    exact served_append_run _ []
  · rw [hdesp, hcola]
    exact served_append_run_of_forall _ [] hno
  · obtain ⟨-, hcola', hdesp', hturnos⟩ := exec_cola hps hs'
    rw [hq] at hcola' hdesp'
    rcases bounded_wait delante detras hno with h | ⟨m₁, m₂, hrun, hsub, hlen⟩
    · rw [hdesp']
      exact Or.inl h
    · refine Or.inr ⟨m₁, m₂, hcola'.trans hrun, by rwa [hdesp'], by rw [hdesp', hturnos, hlen], ?_⟩
      have hcub : Cubierta (inicial planner) := by
        unfold Cubierta
        rw [hvacia]
        exact Nat.zero_le _
      have hcub' : Cubierta s' := by
        have hrun' : exec atender (inicial planner) (as ++ bs) = some s' := by
          rw [exec_append, hs]
          exact hs'
        exact exec_invariant (fun _ _ _ h (_ : True) hs => cubierta_atender h hs) hcub
          (along_of_forall (fun _ _ => trivial) (as ++ bs) _) hrun'
      refine Nat.lt_of_lt_of_le ?_ hcub'
      rw [hcola', hrun]
      simp

/-- Processes 1, 2 and 3 become ready; 1 is dispatched, comes back and goes behind 3. -/
def unaVuelta : List Accion :=
  [.crear, .llamar 0 (.readyProcess ⟨1, 0⟩), .paso 0, .paso 0, .paso 0,
    .llamar 0 (.readyProcess ⟨2, 0⟩), .paso 0, .paso 0, .paso 0,
    .llamar 0 (.readyProcess ⟨3, 0⟩), .paso 0, .semWait, .nextProcess, .paso 0,
    .stpLlamar (.readyProcess ⟨1, 0⟩), .stpPaso, .stpPaso, .stpPaso, .fin]

theorem por_orden_unaVuelta : ∃ s s', exec atender (inicial (.rr [])) unaVuelta = some s ∧
    exec atender s [.semWait, .nextProcess] = some s' ∧
    despachados (inicial (.rr [])) unaVuelta ++ s.planner.procesos =
      llegados (inicial (.rr [])) unaVuelta ∧
    ((∃ antes despues, despachados s [.semWait, .nextProcess] = antes ++ ⟨3, 0⟩ :: despues ∧
        antes.Sublist [⟨2, 0⟩]) ∨
      ∃ delante' detras', s'.planner.procesos = delante' ++ ⟨3, 0⟩ :: detras' ∧
        (despachados s [.semWait, .nextProcess] ++ delante').Sublist [⟨2, 0⟩] ∧
        (despachados s [.semWait, .nextProcess]).length = turnos [.semWait, .nextProcess] ∧
        0 < s'.readyProcessEvent + (s'.hilos.map Punto.porPostear).sum + s'.stp.fichas) := by
  obtain ⟨s, hs⟩ : ∃ s, exec atender (inicial (.rr [])) unaVuelta = some s := ⟨_, rfl⟩
  obtain ⟨s', hs'⟩ : ∃ s', exec atender s [.semWait, .nextProcess] = some s' := by
    obtain rfl := Option.some.inj hs
    exact ⟨_, rfl⟩
  have hcola : s.planner.procesos = [⟨2, 0⟩] ++ ⟨3, 0⟩ :: [⟨1, 0⟩] := by
    obtain rfl := Option.some.inj hs
    rfl
  have hnadie : movimientos s [.semWait, .nextProcess] = [.pop] := by
    obtain rfl := Option.some.inj hs
    rfl
  have hnadie₀ : movimientos (inicial (.rr [])) unaVuelta =
      [.push ⟨1, 0⟩, .push ⟨2, 0⟩, .push ⟨3, 0⟩, .pop, .push ⟨1, 0⟩] := rfl
  obtain ⟨-, htodos, hespera⟩ := por_orden (.inr rfl) hs
  exact ⟨s, s', hs, hs', htodos fun q => by rw [hnadie₀]; simp,
    hespera _ s' [⟨2, 0⟩] ⟨3, 0⟩ [⟨1, 0⟩] hs' hcola (by rw [hnadie]; simp)⟩

end OperatingSystem.Kernel.Ronda
