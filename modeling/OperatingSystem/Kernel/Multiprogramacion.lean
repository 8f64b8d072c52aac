import OperatingSystem.Kernel.Liberaciones

/-! # The degree of multiprogramming

`max_concurrent_multiprograming` has one instance for every process that may still be admitted. The
long-term planner takes one before it admits a process, `process_release` gives one back, and the
console takes or gives them one by one when `MULTIPROGRAMACION` changes the degree.

`Inv` is that none is lost: the instances, the one that the planner holds and the admitted processes add
up to what the console is heading for. `grado_iff` is when every process of a run ends once. -/

namespace OperatingSystem.Kernel.Multiprogramacion

open OperatingSystem.Lib.Dictionary OperatingSystem.Lib.Run
open OperatingSystem.Kernel.Proceso OperatingSystem.Kernel.Liberaciones
open OperatingSystem.Kernel.Recursos (resourcesRelease onExit exitResourceNotFound onWait
  releaseResource handleForceProcessExit)

/-! ### The planner and the console -/

/-- Where `long_term_planner` is: before either of its two `sem_wait`, or behind them. -/
inductive Ltp where
  | esperaProceso | esperaLugar | conLugar
  deriving DecidableEq

/-- The loop of `update_max_multi_programming`: what is left of it, and the new degree. -/
inductive Comando where
  | incrementa (restan : ℕ) (newMaxMp : ℤ)
  | decrementa (restan : ℕ) (newMaxMp : ℤ)

/-- The kernel with the two semaphores of the planner, the length of `new_process_contexts` and the
command that the console is in. -/
structure Sistema where
  kernel : Recursos.Estado
  multiprogrammingDegree : ℤ
  maxConcurrentMultiprograming : ℕ
  newProcessEvent : ℕ
  newProcessContexts : ℕ
  ltp : Ltp
  comando : Option Comando

def inicial (recursos : List (String × ℤ)) (multiprogrammingDegree : ℕ) : Sistema :=
  ⟨Recursos.estadoInicial recursos, multiprogrammingDegree, multiprogrammingDegree, 0, 0,
    .esperaProceso, none⟩

/-- `pedido a` is a request to the kernel; `itera` is one turn of the loop of the console. The memory
module answers the planner when it is to admit a process. -/
inductive Accion where
  | handleNewProcess
  | tomaProceso
  | tomaLugar
  | admite (memoriaOk : Bool)
  | pedido (a : Recursos.Accion)
  | updateMaxMultiProgramming (newMaxMp : ℤ)
  | itera

/-- The first statements of `update_max_multi_programming`. -/
def empezar (s : Sistema) (newMaxMp : ℤ) : Option Comando :=
  let diffMp := s.multiprogrammingDegree - newMaxMp
  if diffMp < 0 then some (.incrementa (-1 * diffMp).toNat newMaxMp)
  else if 0 < diffMp then some (.decrementa diffMp.toNat newMaxMp)
  else none

def iterar (s : Sistema) : Option Sistema :=
  match s.comando with
  | none => none
  | some (.incrementa 0 newMaxMp) | some (.decrementa 0 newMaxMp) =>
    some { s with multiprogrammingDegree := newMaxMp, comando := none }
  | some (.incrementa (n + 1) newMaxMp) =>
    some { s with
      maxConcurrentMultiprograming := s.maxConcurrentMultiprograming + 1
      comando := some (.incrementa n newMaxMp) }
  | some (.decrementa (n + 1) newMaxMp) =>
    if 0 < s.maxConcurrentMultiprograming then
      some { s with
        maxConcurrentMultiprograming := s.maxConcurrentMultiprograming - 1
        comando := some (.decrementa n newMaxMp) }
    else none

/-- `memory_allocate_new_process` and what follows; a process that the memory refuses is forgotten. -/
def admitir (s : Sistema) (memoriaOk : Bool) : Sistema :=
  let plan := if memoriaOk then Proceso.admitir s.kernel.plan
    else { s.kernel.plan with lastPid := s.kernel.plan.lastPid + 1 }
  { s with
    kernel := Recursos.setPlan s.kernel plan
    newProcessContexts := s.newProcessContexts - 1
    ltp := .esperaProceso }

/-- A semaphore at zero lets nobody through. Every `process_release` of a request posts once. -/
def atender (s : Sistema) : Accion → Option Sistema
  | .handleNewProcess => some { s with
      newProcessContexts := s.newProcessContexts + 1
      newProcessEvent := s.newProcessEvent + 1 }
  | .tomaProceso =>
    if s.ltp = .esperaProceso ∧ 0 < s.newProcessEvent then
      some { s with newProcessEvent := s.newProcessEvent - 1, ltp := .esperaLugar }
    else none
  | .tomaLugar =>
    if s.ltp = .esperaLugar ∧ 0 < s.maxConcurrentMultiprograming then
      some { s with
        maxConcurrentMultiprograming := s.maxConcurrentMultiprograming - 1, ltp := .conLugar }
    else none
  | .admite memoriaOk =>
    if s.ltp = .conLugar ∧ 0 < s.newProcessContexts then some (admitir s memoriaOk) else none
  | .pedido a => do
    let kernel ← Recursos.atender s.kernel a
    let posts := kernel.plan.exited.length - s.kernel.plan.exited.length
    return { s with
      kernel := kernel
      maxConcurrentMultiprograming := s.maxConcurrentMultiprograming + posts }
  | .updateMaxMultiProgramming newMaxMp => some { s with comando := empezar s newMaxMp }
  | .itera => iterar s

/-- The console is in one command at a time, the planner and the console get through their semaphores
when they can, and the memory module answers nothing but `MEMORY_NEW_PROCESS_OK`. -/
def Protocolo (s : Sistema) : Accion → Prop
  | .handleNewProcess | .updateMaxMultiProgramming _ => s.comando = none
  | .tomaProceso => s.ltp = .esperaProceso ∧ 0 < s.newProcessEvent
  | .tomaLugar => s.ltp = .esperaLugar ∧ 0 < s.maxConcurrentMultiprograming
  | .admite memoriaOk => s.ltp = .conLugar ∧ memoriaOk = true
  | .pedido .admitir => False
  | .pedido (.finalizar _) => s.comando = none
  | .pedido a => Liberaciones.Protocolo s.kernel a
  | .itera => match s.comando with
    | none => False
    | some (.decrementa (_ + 1) _) => 0 < s.maxConcurrentMultiprograming
    | some _ => True

/-! ### The degree -/

/-- The slot that the planner has taken for a process not yet admitted. -/
def lugarTomado (s : Sistema) : ℤ := if s.ltp = .conLugar then 1 else 0

/-- The admitted processes that are not `EXIT`. -/
def admitidos (s : Sistema) : ℤ := s.kernel.plan.running.keys.length

/-- **The degree is respected**: no process ended twice, and unless the console is changing it the
degree is what the slots add up to. -/
def Respetado (s : Sistema) : Prop :=
  (s.kernel.plan.exited.map Prod.fst).Nodup ∧
    (s.comando = none → (s.maxConcurrentMultiprograming : ℤ) + lugarTomado s + admitidos s =
      s.multiprogrammingDegree)

/-- After the step the degree is respected. -/
def Correcta (s : Sistema) (a : Accion) : Prop := ∃ s', atender s a = some s' ∧ Respetado s'

/-- The releases of a process that ends leave no counter above its maximum. -/
def EnOrden (k : Recursos.Estado) : Recursos.Accion → Prop
  | .exit p _ => ∀ pcb ∈ k.plan.running.get p, Cabe k pcb.asignedResources
  | .finalizar p => ∀ pcb ∈ k.plan.running.get p, pcb.currentStatus ≠ .EXEC →
      Cabe k pcb.asignedResources
  | _ => True

/-- **When every process ends once.** -/
def Condicion (s : Sistema) : Accion → Prop
  | .pedido a => EnOrden s.kernel a
  | _ => True

/-- The degree that the slots are to add up to in the middle of a command. -/
def objetivo (s : Sistema) : ℤ :=
  match s.comando with
  | none => s.multiprogrammingDegree
  | some (.incrementa n newMaxMp) => newMaxMp - n
  | some (.decrementa n newMaxMp) => newMaxMp + n

/-- **The invariant.** -/
structure Inv (s : Sistema) : Prop where
  base : Base s.kernel
  terminados : (s.kernel.plan.exited.map Prod.fst).Nodup
  muertos : ∀ p ∈ s.kernel.plan.exited.map Prod.fst,
    p ∉ s.kernel.plan.running.keys ∧ p ≤ s.kernel.plan.lastPid
  nuevos : s.newProcessContexts = s.newProcessEvent + if s.ltp = .esperaProceso then 0 else 1
  cuenta : (s.maxConcurrentMultiprograming : ℤ) + lugarTomado s + admitidos s = objetivo s

theorem Inv.respetado {s : Sistema} (hI : Inv s) : Respetado s := by
  refine ⟨hI.terminados, fun h => ?_⟩
  have hcuenta := hI.cuenta
  rw [objetivo, h] at hcuenta
  exact hcuenta

/-! ### Requests to the kernel -/

section

variable {k k' k₁ : Recursos.Estado} {p : ℤ} {pcb : Pcb} {exitCode : OpCode}

/-- Nobody comes and nobody goes. -/
structure SinCambio (k k' : Recursos.Estado) : Prop where
  keys : k'.plan.running.keys = k.plan.running.keys
  exited : k'.plan.exited = k.plan.exited
  lastPid : k'.plan.lastPid = k.plan.lastPid

/-- One process ends. -/
structure Termina (k k' : Recursos.Estado) (p : ℤ) (exitCode : OpCode) : Prop where
  vivo : p ∈ k.plan.running.keys
  keys : k'.plan.running.keys = k.plan.running.keys.filter (· ≠ p)
  exited : k'.plan.exited = k.plan.exited ++ [(p, exitCode)]
  lastPid : k'.plan.lastPid = k.plan.lastPid

theorem termina_salir (h : SinCambio k k₁) (hp : k.plan.running.get p = some pcb)
    (exitCode : OpCode) : Termina k
      (Recursos.setPlan k₁ (exitProcess (removeProcess k₁.plan p) p exitCode)) p exitCode := by
  refine ⟨Dict.mem_keys_of_get hp, ?_, ?_, h.lastPid⟩
  · change k₁.plan.running.keys.filter (· ≠ p) = _
    rw [h.keys]
  · change k₁.plan.exited ++ [(p, exitCode)] = _
    rw [h.exited]

theorem sinCambio_of_plan (h : k'.plan = k.plan) : SinCambio k k' := by
  refine ⟨?_, ?_, ?_⟩ <;> rw [h]

theorem sinCambio_efecto {rs : List String} (h : Efecto k k' rs) : SinCambio k k' :=
  ⟨h.keys, h.exited, h.lastPid⟩

theorem termina_onExit (h : Base k) (hp : k.plan.running.get p = some pcb)
    (hc : Cabe k pcb.asignedResources) (exitCode : OpCode) :
    ∃ k', onExit k p exitCode = some k' ∧ Termina k k' p exitCode := by
  obtain ⟨k₁, -, -, he, hs⟩ := onExit_cabe h hp hc exitCode
  exact ⟨_, hs, termina_salir (sinCambio_efecto he) hp exitCode⟩

/-- **A request to the kernel** ends one process at most, if it releases what it holds in order. -/
theorem pedido_spec (h : Base k) {a : Recursos.Accion} (hprot : Liberaciones.Protocolo k a)
    (hno : a ≠ .admitir) (hc : EnOrden k a) :
    ∃ k', Recursos.atender k a = some k' ∧
      (SinCambio k k' ∨ ∃ p exitCode, Termina k k' p exitCode) := by
  cases a with
  | admitir => exact absurd rfl hno
  | despachar p =>
    obtain ⟨pcb, hp, hs, -⟩ := base_despachar h hprot
    exact ⟨_, hs, Or.inl ⟨keys_put hp _, rfl, rfl⟩⟩
  | desalojar p =>
    obtain ⟨pcb, hex⟩ := Option.isSome_iff_exists.mp hprot
    obtain ⟨hp, -⟩ := enEjecucion_eq_some.mp hex
    obtain ⟨hs, -⟩ := base_desalojar h hex
    exact ⟨_, hs, Or.inl ⟨keys_put hp _, rfl, rfl⟩⟩
  | wait p r =>
    obtain ⟨pcb, hex⟩ := Option.isSome_iff_exists.mp hprot
    obtain ⟨hp, -⟩ := enEjecucion_eq_some.mp hex
    rw [Recursos.atender_wait hex]
    cases hr : k.resources.get r with
    | none =>
      exact ⟨_, Conservacion.onWait_none hp hr,
        Or.inr ⟨p, _, termina_salir ⟨rfl, rfl, rfl⟩ hp _⟩⟩
    | some res =>
      refine ⟨_, Conservacion.onWait_eq hp hr, Or.inl ?_⟩
      split_ifs
      · exact ⟨keys_put hp _, rfl, rfl⟩
      · exact ⟨keys_put hp _, rfl, rfl⟩
  | signal p r =>
    obtain ⟨pcb, hex⟩ := Option.isSome_iff_exists.mp hprot
    obtain ⟨hp, -⟩ := enEjecucion_eq_some.mp hex
    rw [Recursos.atender_signal hex]
    by_cases hllena : Llena k r
    · obtain ⟨hs, -, hplan, -⟩ := releaseResource_rechazada hp hllena
      exact ⟨_, hs, Or.inr ⟨p, _, termina_salir (sinCambio_of_plan hplan) hp _⟩⟩
    · unfold Llena at hllena
      push Not at hllena
      obtain ⟨res, hr, hmax⟩ := hllena
      obtain ⟨k', hs, -, he⟩ := releaseResource_libera h hp hr hmax
      exact ⟨k', hs, Or.inl (sinCambio_efecto he)⟩
  | exit p exitCode =>
    obtain ⟨pcb, hex⟩ := Option.isSome_iff_exists.mp hprot
    obtain ⟨hp, -⟩ := enEjecucion_eq_some.mp hex
    obtain ⟨k', hs, ht⟩ := termina_onExit h hp (hc pcb hp) exitCode
    exact ⟨k', (Recursos.atender_exit hex exitCode).trans hs, Or.inr ⟨p, exitCode, ht⟩⟩
  | finalizar p =>
    rw [Recursos.atender, handleForceProcessExit, findProcess]
    cases hp : k.plan.running.get p with
    | none => exact ⟨k, rfl, Or.inl ⟨rfl, rfl, rfl⟩⟩
    | some pcb =>
      simp only
      split_ifs with hst
      · exact ⟨_, rfl, Or.inl ⟨rfl, rfl, rfl⟩⟩
      · obtain ⟨k', hs, ht⟩ := termina_onExit h hp (hc pcb hp hst) .PROC_EXIT_FORCE
        exact ⟨k', hs, Or.inr ⟨p, _, ht⟩⟩

end

/-! ### One step -/

section

variable {s s' : Sistema} {k' : Recursos.Estado} {p : ℤ} {exitCode : OpCode}

/-- The kernel after a request, with the posts. -/
def conKernel (s : Sistema) (kernel : Recursos.Estado) : Sistema :=
  { s with
    kernel := kernel
    maxConcurrentMultiprograming := s.maxConcurrentMultiprograming +
      (kernel.plan.exited.length - s.kernel.plan.exited.length) }

theorem Inv.sinCambio (hI : Inv s) (hB : Base k') (h : SinCambio s.kernel k') :
    Inv (conKernel s k') := by
  have hposts : k'.plan.exited.length - s.kernel.plan.exited.length = 0 := by
    rw [h.exited, Nat.sub_self]
  refine ⟨hB, ?_, ?_, hI.nuevos, ?_⟩
  · change (k'.plan.exited.map Prod.fst).Nodup
    rw [h.exited]
    exact hI.terminados
  · change ∀ p ∈ k'.plan.exited.map Prod.fst, p ∉ k'.plan.running.keys ∧ p ≤ k'.plan.lastPid
    rw [h.exited, h.keys, h.lastPid]
    exact hI.muertos
  · change ((s.maxConcurrentMultiprograming + (k'.plan.exited.length -
      s.kernel.plan.exited.length) : ℕ) : ℤ) + lugarTomado s + k'.plan.running.keys.length = objetivo s
    rw [hposts, h.keys]
    exact hI.cuenta

/-- The process that ends gives its slot back. -/
theorem Inv.termina (hI : Inv s) (hB : Base k') (h : Termina s.kernel k' p exitCode) :
    Inv (conKernel s k') := by
  have hposts : k'.plan.exited.length - s.kernel.plan.exited.length = 1 := by
    rw [h.exited, List.length_append]
    simp
  have hvivos : k'.plan.running.keys.length + 1 = s.kernel.plan.running.keys.length := by
    have hnd := s.kernel.plan.running.nodup
    have hfilter : s.kernel.plan.running.keys.filter (· ≠ p) = s.kernel.plan.running.keys.erase p := by
      rw [hnd.erase_eq_filter]
      refine List.filter_congr fun q _ => ?_
      by_cases hq : q = p <;> simp [hq]
    have hpos := List.length_pos_of_mem h.vivo
    rw [h.keys, hfilter, List.length_erase_of_mem h.vivo]
    omega
  have hno : p ∉ s.kernel.plan.exited.map Prod.fst := fun hm => (hI.muertos p hm).1 h.vivo
  obtain ⟨pcb, hpcb⟩ := Option.isSome_iff_exists.mp ((s.kernel.plan.running.mem_keys p).mp h.vivo)
  have hpid := (hI.base.planInv.pids p pcb hpcb).2
  refine ⟨hB, ?_, ?_, hI.nuevos, ?_⟩
  · change (k'.plan.exited.map Prod.fst).Nodup
    rw [h.exited, List.map_append]
    refine List.nodup_append.mpr ⟨hI.terminados, by simp, fun q hq q' hq' => ?_⟩
    obtain rfl : q' = p := by simpa using hq'
    rintro rfl
    exact hno hq
  · change ∀ q ∈ k'.plan.exited.map Prod.fst, q ∉ k'.plan.running.keys ∧ q ≤ k'.plan.lastPid
    intro q hq
    rw [h.exited, List.map_append] at hq
    rw [h.keys, h.lastPid]
    rcases List.mem_append.mp hq with hq | hq
    · obtain ⟨h1, h2⟩ := hI.muertos q hq
      exact ⟨fun hmem => h1 (List.mem_of_mem_filter hmem), h2⟩
    · obtain rfl : q = p := by simpa using hq
      exact ⟨by simp, hpid⟩
  · have hcuenta := hI.cuenta
    change ((s.maxConcurrentMultiprograming + (k'.plan.exited.length -
      s.kernel.plan.exited.length) : ℕ) : ℤ) + lugarTomado s + k'.plan.running.keys.length = objetivo s
    unfold admitidos at hcuenta
    rw [hposts]
    push_cast
    omega

/-- The planner and the semaphores change, and not the kernel. -/
theorem Inv.ajustar (hI : Inv s) (hk : s'.kernel = s.kernel)
    (hnuevos : s'.newProcessContexts = s'.newProcessEvent + if s'.ltp = .esperaProceso then 0 else 1)
    (hcuenta : (s'.maxConcurrentMultiprograming : ℤ) + lugarTomado s' + admitidos s = objetivo s') :
    Inv s' := by
  refine ⟨by rw [hk]; exact hI.base, by rw [hk]; exact hI.terminados, by rw [hk]; exact hI.muertos,
    hnuevos, ?_⟩
  rw [admitidos, hk]
  exact hcuenta

end

/-! ### Runs -/

section

variable {s s' : Sistema}

theorem atender_pedido {a : Recursos.Accion} {k' : Recursos.Estado}
    (h : Recursos.atender s.kernel a = some k') : atender s (.pedido a) = some (conKernel s k') := by
  rw [atender, h]
  rfl

theorem protocolo_pedido {a : Recursos.Accion} (hprot : Protocolo s (.pedido a)) :
    Liberaciones.Protocolo s.kernel a ∧ a ≠ .admitir := by
  cases a with
  | admitir => exact absurd hprot id
  | finalizar => exact ⟨trivial, by simp⟩
  | despachar | desalojar | wait | signal | exit => exact ⟨hprot, by simp⟩

theorem Inv.pedido (hI : Inv s) {a : Recursos.Accion} (hprot : Liberaciones.Protocolo s.kernel a)
    (hno : a ≠ .admitir) (hc : EnOrden s.kernel a) :
    ∃ s', atender s (.pedido a) = some s' ∧ Inv s' := by
  obtain ⟨k', hs, hk⟩ := pedido_spec hI.base hprot hno hc
  have hB := hI.base.atender hprot hs
  refine ⟨_, atender_pedido hs, ?_⟩
  rcases hk with hk | ⟨p, exitCode, hk⟩
  · exact hI.sinCambio hB hk
  · exact hI.termina hB hk

/-- A request ends processes in order, if none of them ends twice. -/
theorem enOrden_of_correcta (hI : Inv s) {a : Recursos.Accion}
    (hprot : Liberaciones.Protocolo s.kernel a) (h : Correcta s (.pedido a)) :
    EnOrden s.kernel a := by
  obtain ⟨s', hs', hresp, -⟩ := h
  obtain ⟨k', hk', hs'⟩ := Option.bind_eq_some_iff.mp hs'
  obtain rfl := Option.some.inj hs'
  have hdos : ∀ {p pcb exitCode}, s.kernel.plan.running.get p = some pcb →
      onExit s.kernel p exitCode = some k' → Cabe s.kernel pcb.asignedResources := by
    intro p pcb exitCode hp hs
    by_contra hc
    have hexited := onExit_no_cabe hI.base hp hc hs
    change (k'.plan.exited.map Prod.fst).Nodup at hresp
    rw [hexited, List.map_append] at hresp
    have hnd := (List.nodup_append.mp hresp).2.1
    exact absurd hnd (by simp)
  cases a with
  | admitir | despachar | desalojar | wait | signal => trivial
  | exit p exitCode =>
    intro pcb hp
    obtain ⟨pcb₀, -, hk'⟩ := Option.bind_eq_some_iff.mp hk'
    exact hdos hp hk'
  | finalizar p =>
    intro pcb hp hst
    rw [Recursos.atender, handleForceProcessExit, findProcess, Option.mem_def.mp hp] at hk'
    simp only [if_neg hst] at hk'
    exact hdos hp hk'

/-- The slot of the planner becomes that of the process. -/
theorem Inv.admite (hI : Inv s) (hltp : s.ltp = .conLugar) :
    ∃ s', atender s (.admite true) = some s' ∧ Inv s' := by
  have hnuevos := hI.nuevos
  rw [hltp, if_neg (by simp)] at hnuevos
  have hfresh := hI.base.planInv.fresh
  have hno : s.kernel.plan.lastPid + 1 ∉ s.kernel.plan.running.keys := by
    rw [s.kernel.plan.running.mem_keys, hfresh]
    simp
  have hkeys : (Proceso.admitir s.kernel.plan).running.keys =
      s.kernel.plan.running.keys ++ [s.kernel.plan.lastPid + 1] := if_neg hno
  refine ⟨admitir s true, if_pos ⟨hltp, by omega⟩, ⟨hI.base.admitir, hI.terminados, ?_, ?_, ?_⟩⟩
  · intro p hp
    obtain ⟨h1, h2⟩ := hI.muertos p hp
    change p ∉ (Proceso.admitir s.kernel.plan).running.keys ∧ p ≤ s.kernel.plan.lastPid + 1
    rw [hkeys, List.mem_append, List.mem_singleton, not_or]
    exact ⟨⟨h1, by omega⟩, by omega⟩
  · change s.newProcessContexts - 1 = s.newProcessEvent + 0
    omega
  · have hcuenta := hI.cuenta
    rw [lugarTomado, if_pos hltp] at hcuenta
    change (s.maxConcurrentMultiprograming : ℤ) + 0 +
      (Proceso.admitir s.kernel.plan).running.keys.length = objetivo s
    rw [hkeys, List.length_append, List.length_singleton]
    unfold admitidos at hcuenta
    push_cast
    omega

/-- A process that the memory refused would take the slot with it. -/
theorem lugar_perdido (hltp : s.ltp = .conLugar) :
    ((admitir s false).maxConcurrentMultiprograming : ℤ) + lugarTomado (admitir s false) +
        admitidos (admitir s false) =
      s.maxConcurrentMultiprograming + lugarTomado s + admitidos s - 1 := by
  rw [lugarTomado, lugarTomado, hltp, if_pos rfl]
  change (s.maxConcurrentMultiprograming : ℤ) + 0 + admitidos s = _
  omega

/-- The command starts from the degree of before. -/
theorem objetivo_empezar (hcom : s.comando = none) (newMaxMp : ℤ) :
    objetivo { s with comando := empezar s newMaxMp } = objetivo s := by
  unfold objetivo empezar
  rw [hcom]
  simp only
  split_ifs with h1 h2
  · simp only
    omega
  · simp only
    omega
  · rfl

/-- One turn of the loop of the console. -/
theorem Inv.itera (hI : Inv s) (hprot : Protocolo s .itera) :
    ∃ s', iterar s = some s' ∧ Inv s' := by
  have hcuenta := hI.cuenta
  unfold Protocolo at hprot
  unfold objetivo at hcuenta
  cases hcom : s.comando with
  | none =>
    rw [hcom] at hprot
    exact absurd hprot id
  | some c =>
    rw [hcom] at hprot hcuenta
    match c with
    | .incrementa 0 newMaxMp =>
      refine ⟨{ s with multiprogrammingDegree := newMaxMp, comando := none }, ?_,
        hI.ajustar rfl hI.nuevos ?_⟩
      · rw [iterar, hcom]
      · change (s.maxConcurrentMultiprograming : ℤ) + lugarTomado s + admitidos s = newMaxMp
        simp only at hcuenta
        omega
    | .decrementa 0 newMaxMp =>
      refine ⟨{ s with multiprogrammingDegree := newMaxMp, comando := none }, ?_,
        hI.ajustar rfl hI.nuevos ?_⟩
      · rw [iterar, hcom]
      · change (s.maxConcurrentMultiprograming : ℤ) + lugarTomado s + admitidos s = newMaxMp
        simp only at hcuenta
        omega
    | .incrementa (n + 1) newMaxMp =>
      refine ⟨{ s with
        maxConcurrentMultiprograming := s.maxConcurrentMultiprograming + 1
        comando := some (.incrementa n newMaxMp) }, ?_, hI.ajustar rfl hI.nuevos ?_⟩
      · rw [iterar, hcom]
      · change ((s.maxConcurrentMultiprograming + 1 : ℕ) : ℤ) + lugarTomado s + admitidos s =
          newMaxMp - n
        simp only at hcuenta
        push_cast at hcuenta ⊢
        omega
    | .decrementa (n + 1) newMaxMp =>
      have hpos : 0 < s.maxConcurrentMultiprograming := hprot
      refine ⟨{ s with
        maxConcurrentMultiprograming := s.maxConcurrentMultiprograming - 1
        comando := some (.decrementa n newMaxMp) }, ?_, hI.ajustar rfl hI.nuevos ?_⟩
      · rw [iterar, hcom]
        exact if_pos hpos
      · change ((s.maxConcurrentMultiprograming - 1 : ℕ) : ℤ) + lugarTomado s + admitidos s =
          newMaxMp + n
        simp only at hcuenta
        push_cast at hcuenta
        omega

/-- **Every step keeps the invariant** under the condition. -/
theorem Inv.atender (hI : Inv s) {a : Accion} (hprot : Protocolo s a) (hc : Condicion s a) :
    ∃ s', atender s a = some s' ∧ Inv s' := by
  have hnuevos := hI.nuevos
  have hcuenta := hI.cuenta
  cases a with
  | handleNewProcess =>
    refine ⟨_, rfl, hI.ajustar rfl ?_ hcuenta⟩
    change s.newProcessContexts + 1 =
      s.newProcessEvent + 1 + if s.ltp = .esperaProceso then 0 else 1
    omega
  | tomaProceso =>
    obtain ⟨hltp, hpos⟩ := hprot
    rw [hltp, if_pos rfl] at hnuevos
    rw [lugarTomado, hltp, if_neg (by simp)] at hcuenta
    refine ⟨{ s with newProcessEvent := s.newProcessEvent - 1, ltp := .esperaLugar },
      if_pos ⟨hltp, hpos⟩, hI.ajustar rfl ?_ hcuenta⟩
    change s.newProcessContexts = s.newProcessEvent - 1 + 1
    omega
  | tomaLugar =>
    obtain ⟨hltp, hpos⟩ := hprot
    rw [hltp, if_neg (by simp)] at hnuevos
    rw [lugarTomado, hltp, if_neg (by simp)] at hcuenta
    refine ⟨{ s with
        maxConcurrentMultiprograming := s.maxConcurrentMultiprograming - 1, ltp := .conLugar },
      if_pos ⟨hltp, hpos⟩, hI.ajustar rfl hnuevos ?_⟩
    change ((s.maxConcurrentMultiprograming - 1 : ℕ) : ℤ) + 1 + admitidos s = objetivo s
    omega
  | admite memoriaOk =>
    obtain ⟨hltp, rfl⟩ := hprot
    exact hI.admite hltp
  | pedido a =>
    obtain ⟨hprot, hno⟩ := protocolo_pedido hprot
    exact hI.pedido hprot hno hc
  | updateMaxMultiProgramming newMaxMp =>
    refine ⟨_, rfl, hI.ajustar rfl hnuevos ?_⟩
    rw [objetivo_empezar hprot]
    exact hcuenta
  | itera => exact hI.itera hprot

/-- **One step.** -/
theorem correcta_iff (hI : Inv s) {a : Accion} (hprot : Protocolo s a) :
    Correcta s a ↔ Condicion s a := by
  constructor
  · intro h
    cases a with
    | pedido a => exact enOrden_of_correcta hI (protocolo_pedido hprot).1 h
    | handleNewProcess | tomaProceso | tomaLugar | admite | updateMaxMultiProgramming | itera =>
      trivial
  · intro hc
    obtain ⟨s', hs', hI'⟩ := hI.atender hprot hc
    exact ⟨s', hs', hI'.respetado⟩

end

theorem inv_inicial (recursos : List (String × ℤ)) (grado : ℕ) : Inv (inicial recursos grado) := by
  refine ⟨base_estadoInicial recursos, List.nodup_nil, fun p hp => absurd hp (by
    simp [inicial, Recursos.estadoInicial, planificadorInicial]), rfl, ?_⟩
  simp [inicial, lugarTomado, admitidos, objetivo, Recursos.estadoInicial, planificadorInicial,
    Dict.empty]

/-- **The degree of multiprogramming** is respected after every step of a run, and each process ends
once, if and only if every process of the run that ends releases what it holds in order. -/
theorem grado_iff {recursos : List (String × ℤ)} {grado : ℕ} {as : List Accion}
    (h : Along atender Protocolo (inicial recursos grado) as) :
    Along atender Correcta (inicial recursos grado) as ↔
      Along atender Condicion (inicial recursos grado) as := by
  refine along_congr (fun s a hI hprot => correcta_iff hI hprot)
    (fun s a s' hI hprot hc hs => ?_) (inv_inicial recursos grado) h
  obtain ⟨s₁, hs₁, hI'⟩ := hI.atender hprot hc
  obtain rfl := Option.some.inj (hs₁.symm.trans hs)
  exact hI'

/-- One process is admitted and ends, while the degree goes from one to two. -/
theorem grado_iff_unProceso :
    Along atender Correcta (inicial [("R1", 1)] 1) [.handleNewProcess, .tomaProceso, .tomaLugar,
        .admite true, .pedido (.despachar 1), .updateMaxMultiProgramming 2, .itera,
        .pedido (.exit 1 .PROC_EXIT_SUCCESS), .itera] ↔
      Along atender Condicion (inicial [("R1", 1)] 1) [.handleNewProcess, .tomaProceso, .tomaLugar,
        .admite true, .pedido (.despachar 1), .updateMaxMultiProgramming 2, .itera,
        .pedido (.exit 1 .PROC_EXIT_SUCCESS), .itera] :=
  grado_iff <| .of_step rfl rfl <| .of_step ⟨rfl, by decide⟩ rfl <| .of_step ⟨rfl, by decide⟩ rfl <|
    .of_step ⟨rfl, rfl⟩ rfl <| .of_step (show _ ∈ _ by decide) rfl <| .of_step rfl rfl <|
    .of_step trivial rfl <| .of_step (show Option.isSome _ = true by decide) rfl <|
    .of_step trivial rfl trivial

/-- **A slot too many.** A process that has `R1` gets it back by a `SIGNAL` of another one that does not
have it; the release at its end is refused, and it ends twice. -/
theorem termina_dos_veces :
    Along atender Protocolo (inicial [("R1", 1)] 2) [.handleNewProcess, .handleNewProcess,
        .tomaProceso, .tomaLugar, .admite true, .tomaProceso, .tomaLugar, .admite true,
        .pedido (.despachar 1), .pedido (.wait 1 "R1"), .pedido (.despachar 2),
        .pedido (.signal 2 "R1"), .pedido (.despachar 1),
        .pedido (.exit 1 .PROC_EXIT_SUCCESS)] ∧
      ∃ s, exec atender (inicial [("R1", 1)] 2) [.handleNewProcess, .handleNewProcess,
          .tomaProceso, .tomaLugar, .admite true, .tomaProceso, .tomaLugar, .admite true,
          .pedido (.despachar 1), .pedido (.wait 1 "R1"), .pedido (.despachar 2),
          .pedido (.signal 2 "R1"), .pedido (.despachar 1),
          .pedido (.exit 1 .PROC_EXIT_SUCCESS)] = some s ∧
        s.kernel.plan.exited =
          [(1, .PROC_EXIT_RESOURCE_NOT_FOUND), (1, .PROC_EXIT_SUCCESS)] ∧
        s.maxConcurrentMultiprograming = 2 ∧ admitidos s = 1 ∧ s.multiprogrammingDegree = 2 ∧
        ¬Respetado s := by
  refine ⟨?_, _, rfl, rfl, rfl, rfl, rfl, fun h => absurd h.1 (by decide)⟩
  exact .of_step rfl rfl <| .of_step rfl rfl <| .of_step ⟨rfl, by decide⟩ rfl <|
    .of_step ⟨rfl, by decide⟩ rfl <| .of_step ⟨rfl, rfl⟩ rfl <| .of_step ⟨rfl, by decide⟩ rfl <|
    .of_step ⟨rfl, by decide⟩ rfl <| .of_step ⟨rfl, rfl⟩ rfl <|
    .of_step (show _ ∈ _ by decide) rfl <|
    .of_step (show Option.isSome _ = true by decide) rfl <|
    .of_step (show _ ∈ _ by decide) rfl <|
    .of_step (show Option.isSome _ = true by decide) rfl <|
    .of_step (show _ ∈ _ by decide) rfl <|
    .of_step (show Option.isSome _ = true by decide) rfl trivial

end OperatingSystem.Kernel.Multiprogramacion
