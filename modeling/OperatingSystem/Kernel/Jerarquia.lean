import OperatingSystem.Kernel.Entregas
import OperatingSystem.Kernel.Interbloqueo
import OperatingSystem.Kernel.Liberaciones
import OperatingSystem.Lib.Waits

/-! # Resources asked for in order

The kernel does not prevent deadlocks, but its processes can: if each of them only waits for resources
that rank above all it holds (`EnOrden`), no circular wait ever comes up, whoever is killed or signals
what it does not have (`sin_espera_circular`). Names that differ in upper and lower case have to rank the
same, since the kernel takes one for the other.

In the runs in which nobody waits for a free instance there is then always a process that can go on: who
is not ready and not in the CPU waits, over any number of others, for one that is (`alguien_sigue`).

`Siguen` is what a release or an exit does to the processes: they lose entries or become ready. -/

namespace OperatingSystem.Kernel.Jerarquia

open OperatingSystem.Lib.Dictionary OperatingSystem.Lib.Run OperatingSystem.Lib.Waits
open OperatingSystem.Kernel.Proceso OperatingSystem.Kernel.Recursos
open OperatingSystem.Kernel.Conservacion (Espera cambio quitar dar asignar bloquear)
open OperatingSystem.Kernel.Interbloqueo (EsperaA EsperaCircular tieneAsignado)
open OperatingSystem.Kernel.Liberaciones (Base Soltado Llena releaseResource_rechazada
  releaseResource_soltado)

/-! ### Who waits for whom -/

/-- The name as `string_equals_ignore_case` takes it. -/
def clave (r : String) : List Char := r.toList.map Char.toLower

/-- What the processes hold and wait for, by the keys that `f` gives to the names. -/
def esperas {κ : Type*} (f : String → κ) (k : Planificador) : WaitGraph ℤ κ where
  holds q t := ∃ pcb, findProcess k q = some pcb ∧ ∃ r ∈ pcb.asignedResources, f r = t
  waits p := (findProcess k p).bind fun pcb =>
    if pcb.currentStatus = .BLOCK then pcb.blockedByResourceName.map f else none

section

variable {κ : Type*} {f : String → κ} {k : Planificador} {p q : ℤ} {t : κ} {pcb : Pcb} {r : String}

theorem waits_eq_some : (esperas f k).waits p = some t ↔
    ∃ pcb r, findProcess k p = some pcb ∧ Espera pcb r ∧ f r = t := by
  simp only [esperas, Option.bind_eq_some_iff, Option.ite_none_right_eq_some, Option.map_eq_some_iff,
    Espera]
  constructor
  · rintro ⟨pcb, hp, hst, r, hr, ht⟩
    exact ⟨pcb, r, hp, ⟨hst, hr⟩, ht⟩
  · rintro ⟨pcb, r, hp, ⟨hst, hr⟩, ht⟩
    exact ⟨pcb, hp, hst, r, hr, ht⟩

theorem waits_of_espera (hp : findProcess k p = some pcb) (hesp : Espera pcb r) :
    (esperas f k).waits p = some (f r) :=
  waits_eq_some.mpr ⟨pcb, r, hp, hesp, rfl⟩

theorem tieneAsignado_iff :
    tieneAsignado pcb r = true ↔ ∃ t ∈ pcb.asignedResources, clave t = clave r := by
  simp only [tieneAsignado, List.any_eq_true, stringEqualsIgnoreCase, decide_eq_true_eq, clave]
  exact exists_congr fun t => and_congr_right fun _ => eq_comm

/-- The relation that a deadlock is made of. -/
theorem esperaA_iff : EsperaA k p q ↔ (esperas clave k).WaitsFor p q := by
  constructor
  · rintro ⟨pcb, pcb', r, hp, hesp, hq, hr⟩
    exact ⟨clave r, waits_of_espera hp hesp, pcb', hq, tieneAsignado_iff.mp hr⟩
  · rintro ⟨t, ht, pcb', hq, hholds⟩
    obtain ⟨pcb, r, hp, hesp, rfl⟩ := waits_eq_some.mp ht
    exact ⟨pcb, pcb', r, hp, hesp, hq, tieneAsignado_iff.mpr hholds⟩

theorem esperaA_eq : EsperaA k = (esperas clave k).WaitsFor :=
  funext₂ fun _ _ => propext esperaA_iff

end

/-! ### Releases and exits -/

section

variable {s s' s'' : Estado} {p q : ℤ} {pcb pcb' : Pcb} {r : String} {res : Resource}

/-- What happens to a process that lives on: it may lose entries, or it becomes ready. -/
inductive Sigue (s s' : Estado) (q : ℤ) (pcb' : Pcb) : Prop where
  | igual (pcb : Pcb) (hq : s.plan.running.get q = some pcb)
      (hst : pcb'.currentStatus = pcb.currentStatus)
      (hres : pcb'.blockedByResourceName = pcb.blockedByResourceName)
      (hsub : pcb'.asignedResources ⊆ pcb.asignedResources)
      (hready : q ∈ s.plan.ready → q ∈ s'.plan.ready)
  | listo (hst : pcb'.currentStatus = .READY) (hready : q ∈ s'.plan.ready)

/-- All processes go on so, and no resource comes or goes. -/
structure Siguen (s s' : Estado) : Prop where
  procesos : ∀ q pcb', s'.plan.running.get q = some pcb' → Sigue s s' q pcb'
  recursos : ∀ t, (s.resources.get t).isSome → (s'.resources.get t).isSome

/-- A process that does not change. -/
theorem Sigue.mismo (hq : s.plan.running.get q = some pcb)
    (hready : q ∈ s.plan.ready → q ∈ s'.plan.ready) : Sigue s s' q pcb :=
  .igual pcb hq rfl rfl (List.Subset.refl _) hready

theorem Siguen.refl (s : Estado) : Siguen s s := ⟨fun _ _ hq => .mismo hq id, fun _ h => h⟩

theorem Siguen.trans (h : Siguen s s') (h' : Siguen s' s'') : Siguen s s'' := by
  refine ⟨fun q pcb'' hq => ?_, fun t ht => h'.recursos t (h.recursos t ht)⟩
  cases h'.procesos q pcb'' hq with
  | listo hst hready => exact .listo hst hready
  | igual pcb' hq' hst' hres' hsub' hready' =>
    cases h.procesos q pcb' hq' with
    | listo hst hready => exact .listo (hst'.trans hst) (hready' hready)
    | igual pcb hq hst hres hsub hready =>
      exact .igual pcb hq (hst'.trans hst) (hres'.trans hres) (List.Subset.trans hsub' hsub)
        fun hm => hready' (hready hm)

theorem siguen_setResource (s : Estado) (r : String) (res : Resource) :
    Siguen s (setResource s r res) :=
  ⟨fun _ _ hq => .mismo hq id, fun _ ht => Dict.isSome_get_put ht _ _⟩

/-- A process loses entries. -/
theorem siguen_quitar (hp : s.plan.running.get p = some pcb) (r : String) (res : Resource) :
    Siguen s (quitar s p pcb r res) := by
  refine ⟨fun q pcb' hq => ?_, fun t ht => Dict.isSome_get_put ht _ _⟩
  rcases Dict.get_put_eq_some.mp hq with ⟨rfl, rfl⟩ | ⟨-, hq⟩
  · exact .igual pcb hp rfl rfl List.eraseP_subset id
  · exact .mismo hq id

/-- A process becomes ready. -/
theorem siguen_listo {ready : List ℤ} {res' : Resource} (hst : pcb'.currentStatus = .READY)
    (hready : ∀ q ∈ s.plan.ready, q ∈ ready) (hp : p ∈ ready) (r : String) :
    Siguen s (cambio s p pcb' ready r res') := by
  refine ⟨fun q pcb₁ hq => ?_, fun t ht => Dict.isSome_get_put ht _ _⟩
  rcases Dict.get_put_eq_some.mp hq with ⟨rfl, rfl⟩ | ⟨-, hq⟩
  · exact .listo hst hp
  · exact .mismo hq (hready q)

/-- A process ends. -/
theorem siguen_salir (s : Estado) (p : ℤ) (exitCode : OpCode) :
    Siguen s (setPlan s (exitProcess (removeProcess s.plan p) p exitCode)) := by
  refine ⟨fun q pcb' hq => ?_, fun _ h => h⟩
  have hq : (s.plan.running.remove p).get q = some pcb' := hq
  have hqp : q ≠ p := by
    rintro rfl
    rw [Dict.get_remove_self] at hq
    cases hq
  rw [Dict.get_remove_of_ne _ hqp] at hq
  exact .mismo hq fun hm => (List.mem_erase_of_ne hqp).mpr hm

theorem Soltado.siguen (hS : Soltado s p pcb r res s') (hp : s.plan.running.get p = some pcb) :
    Siguen s s' := by
  have hquitar := siguen_quitar hp r res
  cases hS with
  | nadie => exact hquitar
  | muerto => exact hquitar.trans (siguen_setResource _ _ _)
  | vivo =>
    exact hquitar.trans (siguen_listo rfl (fun q hq => List.mem_append_left _ hq) (by simp) r)

theorem releaseResource_siguen (h : Base s) (hs : releaseResource s p r = some s') :
    Siguen s s' := by
  obtain ⟨pcb, hp, -⟩ := Option.bind_eq_some_iff.mp hs
  by_cases hmax : Llena s r
  · obtain ⟨hs₀, -, hplan, -⟩ := releaseResource_rechazada hp hmax
    obtain rfl := Option.some.inj (hs₀.symm.trans hs)
    refine Siguen.trans ⟨fun q pcb' hq => ?_, fun t ht => ?_⟩ (siguen_salir _ p _)
    · rw [hplan] at hq
      exact .mismo hq fun hm => by rwa [hplan]
    · unfold resourcesRelease
      split
      · exact ht
      · dsimp only
        split_ifs <;> exact Dict.isSome_get_put ht _ _
  · unfold Llena at hmax
    push Not at hmax
    obtain ⟨res, hr, hmax⟩ := hmax
    obtain ⟨s₁, hs₁, hS⟩ := releaseResource_soltado h hp hr hmax
    obtain rfl := Option.some.inj (hs₁.symm.trans hs)
    exact Soltado.siguen hS hp

theorem releaseResources_siguen : ∀ {rs : List String} {s : Estado}, Base s →
    releaseResources p rs s = some s' → Siguen s s'
  | [], s, _, hs => by
    obtain rfl := Option.some.inj hs
    exact .refl s
  | r :: rs, s, h, hs => by
    obtain ⟨s₁, hs₁, hs⟩ := Option.bind_eq_some_iff.mp hs
    exact (releaseResource_siguen h hs₁).trans
      (releaseResources_siguen (Liberaciones.releaseResource_base h hs₁) hs)

theorem onExit_siguen (h : Base s) {exitCode : OpCode} (hs : onExit s p exitCode = some s') :
    Siguen s s' := by
  obtain ⟨s₁, hs₁, hs⟩ := Option.bind_eq_some_iff.mp hs
  obtain ⟨pcb, -, hs₁⟩ := Option.bind_eq_some_iff.mp hs₁
  obtain rfl := Option.some.inj hs
  exact (releaseResources_siguen h hs₁).trans (siguen_salir _ p exitCode)

end

/-! ### The invariant -/

/-- Who holds `rs` may wait for `r`. -/
abbrev Regla := List String → String → Prop

/-- Whoever waits does so by the rule. -/
def Pide (C : Regla) (s : Estado) : Accion → Prop
  | .wait pid r => ∀ pcb, findProcess s.plan pid = some pcb → C pcb.asignedResources r
  | _ => True

/-- A process is ready, in the CPU, or waits by the rule for a resource that there is. -/
inductive Lugar (C : Regla) (s : Estado) (q : ℤ) (pcb : Pcb) : Prop where
  | listo (hst : pcb.currentStatus = .READY) (hready : q ∈ s.plan.ready)
  | ejecuta (hst : pcb.currentStatus = .EXEC)
  | espera (r : String) (hesp : Espera pcb r) (hr : (s.resources.get r).isSome)
      (hC : C pcb.asignedResources r)

/-- **Every process is somewhere.** -/
def Ubicados (C : Regla) (s : Estado) : Prop :=
  ∀ q pcb, s.plan.running.get q = some pcb → Lugar C s q pcb

/-- The rule is about everything that is held. -/
def Hereditaria (C : Regla) : Prop := ∀ rs rs' r, rs ⊆ rs' → C rs' r → C rs r

section

variable {C : Regla} {s s' : Estado} {p q : ℤ} {pcb pcb' : Pcb} {r : String}

theorem Sigue.lugar (hC : Hereditaria C) (hS : Sigue s s' q pcb') (h : Ubicados C s)
    (hr : ∀ t, (s.resources.get t).isSome → (s'.resources.get t).isSome) : Lugar C s' q pcb' := by
  cases hS with
  | listo hst hready => exact .listo hst hready
  | igual pcb hq hst hres hsub hready =>
    cases h q pcb hq with
    | listo hst₀ hready₀ => exact .listo (hst.trans hst₀) (hready hready₀)
    | ejecuta hst₀ => exact .ejecuta (hst.trans hst₀)
    | espera r hesp hr₀ hr' =>
      exact .espera r ⟨hst.trans hesp.1, hres.trans hesp.2⟩ (hr r hr₀) (hC _ _ r hsub hr')

theorem Ubicados.siguen (hC : Hereditaria C) (h : Ubicados C s) (hS : Siguen s s') : Ubicados C s' :=
  fun q pcb' hq => (hS.procesos q pcb' hq).lugar hC h hS.recursos

/-- One process changes its place. -/
theorem Ubicados.cambiar (hC : Hereditaria C) (h : Ubicados C s) (hp : Lugar C s' p pcb')
    (hrun : s'.plan.running = s.plan.running.put p pcb')
    (hready : ∀ q ≠ p, q ∈ s.plan.ready → q ∈ s'.plan.ready)
    (hr : ∀ t, (s.resources.get t).isSome → (s'.resources.get t).isSome) : Ubicados C s' := by
  intro q pcb₁ hq
  rw [hrun] at hq
  rcases Dict.get_put_eq_some.mp hq with ⟨rfl, rfl⟩ | ⟨hqp, hq⟩
  · exact hp
  · exact (Sigue.mismo hq (hready q hqp)).lugar hC h hr

theorem onWait_ubicados (hC : Hereditaria C) (h : Ubicados C s) (hp : s.plan.running.get p = some pcb)
    (hpide : Pide C s (.wait p r)) (hs : onWait s p r = some s') : Ubicados C s' := by
  cases hr : s.resources.get r with
  | none =>
    rw [Conservacion.onWait_none hp hr] at hs
    obtain rfl := Option.some.inj hs
    exact h.siguen hC (siguen_salir s p _)
  | some res =>
    rw [Conservacion.onWait_eq hp hr] at hs
    obtain rfl := Option.some.inj hs
    split_ifs
    · exact h.siguen hC (siguen_listo rfl (fun q hq => List.mem_append_left _ hq) (by simp) r)
    · have hr' : ((bloquear s p pcb r res).resources.get r).isSome := by
        rw [bloquear, cambio, Dict.get_put_self]
        rfl
      have hp' : Lugar C (bloquear s p pcb r res) p
          { pcb with currentStatus := .BLOCK, blockedByResourceName := some r } :=
        .espera r ⟨rfl, rfl⟩ hr' (hpide pcb hp)
      exact h.cambiar hC hp' rfl (fun _ _ hq => hq) fun t ht => Dict.isSome_get_put ht _ _

/-- **Every request by the rule keeps the processes where they should be.** -/
theorem atender_ubicados (hC : Hereditaria C) (h : Ubicados C s) (hbase : Base s) {a : Accion}
    (hpide : Pide C s a) (hs : atender s a = some s') : Ubicados C s' := by
  cases a with
  | admitir =>
    obtain rfl := Option.some.inj hs
    refine h.cambiar hC (.listo rfl ?_) rfl (fun q _ hq => List.mem_append_left _ hq) fun _ ht => ht
    exact List.mem_append_right _ (List.mem_singleton_self _)
  | despachar p =>
    obtain ⟨plan, hplan, rfl⟩ := Option.map_eq_some_iff.mp hs
    unfold Proceso.despachar at hplan
    split_ifs at hplan
    obtain ⟨pcb, -, hplan⟩ := Option.bind_eq_some_iff.mp hplan
    obtain rfl := Option.some.inj hplan
    exact h.cambiar hC (.ejecuta rfl) rfl (fun q hqp hq => (List.mem_erase_of_ne hqp).mpr hq)
      fun _ ht => ht
  | desalojar p =>
    obtain ⟨plan, hplan, rfl⟩ := Option.map_eq_some_iff.mp hs
    obtain ⟨pcb, -, hplan⟩ := Option.bind_eq_some_iff.mp hplan
    obtain rfl := Option.some.inj hplan
    refine h.cambiar hC (.listo rfl ?_) rfl (fun q _ hq => List.mem_append_left _ hq) fun _ ht => ht
    exact List.mem_append_right _ (List.mem_singleton_self _)
  | wait p r =>
    obtain ⟨pcb, hex, hs⟩ := Option.bind_eq_some_iff.mp hs
    exact onWait_ubicados hC h (enEjecucion_eq_some.mp hex).1 hpide hs
  | signal p r =>
    obtain ⟨-, -, hs⟩ := Option.bind_eq_some_iff.mp hs
    exact h.siguen hC (releaseResource_siguen hbase hs)
  | exit p exitCode =>
    obtain ⟨-, -, hs⟩ := Option.bind_eq_some_iff.mp hs
    exact h.siguen hC (onExit_siguen hbase hs)
  | finalizar p =>
    rw [Recursos.atender, handleForceProcessExit] at hs
    cases hp : findProcess s.plan p with
    | none =>
      simp only [hp] at hs
      obtain rfl := Option.some.inj hs
      exact h
    | some pcb =>
      simp only [hp] at hs
      split_ifs at hs
      · obtain rfl := Option.some.inj hs
        exact h.siguen hC ⟨fun _ _ hq => .mismo hq id, fun _ ht => ht⟩
      · exact h.siguen hC (onExit_siguen hbase hs)

/-- An action that is served is one that the protocol allows. -/
theorem protocolo_of_atender {a : Accion} (hs : atender s a = some s') :
    Liberaciones.Protocolo s a := by
  cases a with
  | admitir | finalizar => trivial
  | despachar p =>
    obtain ⟨plan, hplan, -⟩ := Option.map_eq_some_iff.mp hs
    unfold Proceso.despachar at hplan
    split_ifs at hplan with hready
    exact hready
  | desalojar p =>
    obtain ⟨plan, hplan, -⟩ := Option.map_eq_some_iff.mp hs
    obtain ⟨pcb, hex, -⟩ := Option.bind_eq_some_iff.mp hplan
    exact Option.isSome_of_mem hex
  | wait | signal | exit =>
    obtain ⟨pcb, hex, -⟩ := Option.bind_eq_some_iff.mp hs
    exact Option.isSome_of_mem hex

end

/-! ### Runs -/

theorem corrida_base {recursos : List (String × ℤ)} {as : List Accion} {s : Estado}
    (hs : exec atender (estadoInicial recursos) as = some s) : Base s :=
  exec_invariant (fun _ _ _ hI _ hs => hI.atender (protocolo_of_atender hs) hs)
    (Liberaciones.base_estadoInicial recursos)
    (along_of_forall (C := fun _ _ => True) (fun _ _ => trivial) as _) hs

theorem corrida_ubicados {C : Regla} (hC : Hereditaria C) {recursos : List (String × ℤ)}
    {as : List Accion} {s : Estado} (h : Along atender (Pide C) (estadoInicial recursos) as)
    (hs : exec atender (estadoInicial recursos) as = some s) : Ubicados C s := by
  refine (exec_invariant (I := fun s => Ubicados C s ∧ Base s) (fun s a s' hI hpide hs => ?_)
    ⟨fun q pcb hq => ?_, Liberaciones.base_estadoInicial recursos⟩ h hs).1
  · exact ⟨atender_ubicados hC hI.1 hI.2 hpide hs, hI.2.atender (protocolo_of_atender hs) hs⟩
  · cases hq

/-! ### Requests in order -/

variable {α : Type*} [Preorder α]

/-- The resource ranks above these. -/
def Encima (rango : List Char → α) : Regla := fun rs r => ∀ t ∈ rs, rango (clave t) < rango (clave r)

theorem hereditaria_encima (rango : List Char → α) : Hereditaria (Encima rango) :=
  fun _ _ _ hsub h t ht => h t (hsub ht)

/-- A process only waits for a resource that ranks above all it holds. -/
def EnOrden (rango : List Char → α) : Estado → Accion → Prop := Pide (Encima rango)

/-- What the processes hold and wait for is in order. -/
theorem Ubicados.ordered {rango : List Char → α} {s : Estado} (h : Ubicados (Encima rango) s) :
    (esperas clave s.plan).Ordered rango := by
  rintro p t u ht ⟨pcb', hp', v, hv, rfl⟩
  obtain ⟨pcb, r, hp, hesp, rfl⟩ := waits_eq_some.mp ht
  obtain rfl := Option.some.inj (hp.symm.trans hp')
  cases h p pcb hp with
  | listo hst | ejecuta hst => exact absurd (hst.symm.trans hesp.1) (by decide)
  | espera r' hesp' _ horden =>
    obtain rfl := Option.some.inj (hesp.2.symm.trans hesp'.2)
    exact horden v hv

/-- **No circular waits.** Where the processes ask in order for their resources, no run of the kernel
comes to a circular wait. -/
theorem sin_espera_circular {rango : List Char → α} {recursos : List (String × ℤ)} {as : List Accion}
    {s : Estado} (h : Along atender (EnOrden rango) (estadoInicial recursos) as)
    (hs : exec atender (estadoInicial recursos) as = some s) (p : ℤ) : ¬ EsperaCircular s.plan p := by
  have hcirc := (corrida_ubicados (hereditaria_encima rango) h hs).ordered.not_circular p
  rwa [EsperaCircular, esperaA_eq]

/-- A resource before another one. -/
def rangoChico (clave : List Char) : ℕ := if clave = ['r', '1'] then 1 else 2

/-- Two processes that ask for the first resource and then for the second one. -/
def porTurno : List Accion :=
  [.admitir, .admitir, .despachar 1, .wait 1 "R1", .despachar 2, .wait 2 "R1", .despachar 1,
    .wait 1 "R2"]

theorem enOrden_de {s : Estado} {p : ℤ} {r : String} (rs : List String)
    (hp : (findProcess s.plan p).map Pcb.asignedResources = some rs)
    (h : ∀ t ∈ rs, rangoChico (clave t) < rangoChico (clave r)) :
    EnOrden rangoChico s (.wait p r) := by
  intro pcb hpcb
  rw [hpcb] at hp
  rwa [Option.some.inj hp]

theorem enOrden_porTurno :
    Along atender (EnOrden rangoChico) (estadoInicial [("R1", 1), ("R2", 1)]) porTurno := by
  refine .of_step trivial rfl <| .of_step trivial rfl <| .of_step trivial rfl <|
    .of_step (enOrden_de [] rfl (by simp)) rfl <| .of_step trivial rfl <|
    .of_step (enOrden_de [] rfl (by simp)) rfl <| .of_step trivial rfl <|
    .of_step (enOrden_de ["R1"] (by decide) (by decide)) rfl trivial

theorem sin_espera_circular_porTurno :
    ∃ s, exec atender (estadoInicial [("R1", 1), ("R2", 1)]) porTurno = some s ∧
      (findProcess s.plan 2).map Pcb.blockedByResourceName = some (some "R1") ∧
        ¬ EsperaCircular s.plan 1 :=
  ⟨_, rfl, by decide, sin_espera_circular enOrden_porTurno rfl 1⟩

/-- The process is ready, and in the queue, or the CPU runs it. -/
def PuedeSeguir (s : Estado) (q : ℤ) : Prop := q ∈ s.plan.ready ∨ (enEjecucion s.plan q).isSome

/-- There is at least one instance of each resource. -/
def Positivos (s : Estado) : Prop := ∀ r res, s.resources.get r = some res → 0 < res.maxQty

theorem positivos_estadoInicial {recursos : List (String × ℤ)} (hpos : ∀ x ∈ recursos, 0 < x.2) :
    Positivos (estadoInicial recursos) := by
  have hfold : ∀ (l : List (String × ℤ)) (d : Dict String Resource), (∀ x ∈ l, 0 < x.2) →
      (∀ r res, d.get r = some res → 0 < res.maxQty) → ∀ r res,
        (l.foldl (fun d r => d.put r.1 (resourceCreate r.2)) d).get r = some res →
          0 < res.maxQty := by
    intro l
    induction l with
    | nil => exact fun d _ hd => hd
    | cons x l ih =>
      intro d hl hd
      refine ih _ (fun y hy => hl y (List.mem_cons_of_mem _ hy)) fun r res hr => ?_
      rcases Dict.get_put_eq_some.mp hr with ⟨-, rfl⟩ | ⟨-, hr⟩
      · exact hl x List.mem_cons_self
      · exact hd r res hr
  exact hfold recursos Dict.empty hpos fun r res hr => by cases hr

theorem Positivos.mismas {s s' : Estado} (h : Positivos s)
    (hm : Conservacion.MismasInstancias s s') : Positivos s' := by
  intro r res hr
  have hmax := hm r
  rw [hr] at hmax
  obtain ⟨res₀, hr₀, hmax⟩ := Option.map_eq_some_iff.mp hmax.symm
  rw [← hmax]
  exact h r res₀ hr₀

/-- In a state with its counters right, where nobody waits for a free instance, every resource that a
process waits for has a holder. -/
theorem hay_dueno {C : Regla} {s : Estado} {p : ℤ} {t : List Char}
    (hinv : Conservacion.Inv s) (hagot : Entregas.Agotados s) (hpos : Positivos s)
    (hub : Ubicados C s) (ht : (esperas clave s.plan).waits p = some t) :
    ∃ q, (esperas clave s.plan).holds q t := by
  obtain ⟨pcb, r, hp, hesp, rfl⟩ := waits_eq_some.mp ht
  obtain ⟨res, hr⟩ : ∃ res, s.resources.get r = some res := by
    cases hub p pcb hp with
    | listo hst | ejecuta hst => exact absurd (hst.symm.trans hesp.1) (by decide)
    | espera r' hesp' hr _ =>
      obtain rfl := Option.some.inj (hesp.2.symm.trans hesp'.2)
      exact Option.isSome_iff_exists.mp hr
  have hcola : p ∈ res.blockedPids := (hinv.cola r res hr p).mpr ⟨pcb, hp, hesp⟩
  have hheld : 0 < Conservacion.held s r := by
    rw [(hagot r res hr).1 (List.ne_nil_of_mem hcola)]
    exact hpos r res hr
  obtain ⟨q, pcb', hq, hcount⟩ := Dict.exists_of_sum_pos hheld
  exact ⟨q, pcb', hq, r, List.count_pos_iff.mp (by exact_mod_cast hcount), rfl⟩

/-- A request in order, of those after which nobody waits for a free instance. -/
def Ordenada (rango : List Char → α) (s : Estado) (a : Accion) : Prop :=
  Conservacion.Protocolo s a ∧ Conservacion.Condicion s a ∧ Entregas.CondicionEspera s a ∧
    EnOrden rango s a

/-- **Somebody can always go on.** Where the processes ask in order, and their requests are such that
nobody waits for a free instance, no run gets stuck, and whoever cannot go on waits in the end for a
process that can. -/
theorem alguien_sigue {rango : List Char → α} {recursos : List (String × ℤ)}
    (hpos : ∀ x ∈ recursos, 0 < x.2) {as : List Accion}
    (h : Along atender (Ordenada rango) (estadoInicial recursos) as) :
    ∃ s, exec atender (estadoInicial recursos) as = some s ∧
      ∀ p, (findProcess s.plan p).isSome →
        ∃ q, Relation.ReflTransGen (EsperaA s.plan) p q ∧ PuedeSeguir s q := by
  obtain ⟨s, hs, ⟨hinv, hagot, hpos'⟩⟩ := exec_total
    (I := fun s => Conservacion.Inv s ∧ Entregas.Agotados s ∧ Positivos s)
    (fun s a hI hC => by
      obtain ⟨-, s', hs', hagot⟩ :=
        Entregas.atender_agotados hI.1 hI.2.1 hC.1 hC.2.1 hC.2.2.1
      obtain ⟨s'', hs'', hinv, hm⟩ := Conservacion.atender_spec hI.1 hC.1 hC.2.1
      obtain rfl := Option.some.inj (hs'.symm.trans hs'')
      exact ⟨s', hs', hinv, hagot, hI.2.2.mismas hm⟩)
    ⟨Conservacion.inv_estadoInicial recursos, Entregas.agotados_estadoInicial recursos,
      positivos_estadoInicial hpos⟩ h
  have hub := corrida_ubicados (hereditaria_encima rango) (h.mono fun _ _ hC => hC.2.2.2) hs
  refine ⟨s, hs, fun p hp => ?_⟩
  -- who waits for nothing can go on
  have hlibre : ∀ q, (findProcess s.plan q).isSome → (esperas clave s.plan).waits q = none →
      PuedeSeguir s q := by
    intro q hq hw
    obtain ⟨pcb, hq⟩ := Option.isSome_iff_exists.mp hq
    cases hub q pcb hq with
    | listo _ hready => exact .inl hready
    | ejecuta hst => exact .inr (Option.isSome_of_mem (enEjecucion_eq_some.mpr ⟨hq, hst⟩))
    | espera r hesp =>
      rw [waits_of_espera hq hesp] at hw
      cases hw
  cases hw : (esperas clave s.plan).waits p with
  | none => exact ⟨p, .refl, hlibre p hp hw⟩
  | some t =>
    have hfin : {q | ((esperas clave s.plan).waits q).isSome}.Finite := by
      refine s.plan.running.keys.finite_toSet.subset fun q hq => ?_
      obtain ⟨t, ht⟩ := Option.isSome_iff_exists.mp hq
      obtain ⟨pcb, -, hq, -⟩ := waits_eq_some.mp ht
      exact Dict.mem_keys_of_get hq
    obtain ⟨q, hpq, hq⟩ := hub.ordered.exists_free hfin
      (fun _ _ => hay_dueno hinv hagot hpos' hub) hw
    refine ⟨q, esperaA_eq ▸ hpq.to_reflTransGen, hlibre q ?_ hq⟩
    obtain ⟨-, -, -, -, pcb, hpcb, -⟩ := Relation.TransGen.tail'_iff.mp hpq
    exact Option.isSome_of_mem hpcb

theorem alguien_sigue_porTurno :
    ∃ s, exec atender (estadoInicial [("R1", 1), ("R2", 1)]) porTurno = some s ∧
      ∀ p, (findProcess s.plan p).isSome →
        ∃ q, Relation.ReflTransGen (EsperaA s.plan) p q ∧ PuedeSeguir s q := by
  have hmax : ∀ {s : Estado} {r : String}, (s.resources.get r).map Resource.maxQty = some 1 →
      ∀ res, s.resources.get r = some res → 0 ≤ res.maxQty := fun h res hr => by
    rw [hr] at h
    exact (Option.some.inj h).symm ▸ by decide
  have hpos : ∀ x ∈ [("R1", (1 : ℤ)), ("R2", 1)], 0 < x.2 := by decide
  suffices h : Along atender (Ordenada rangoChico) (estadoInicial [("R1", 1), ("R2", 1)]) porTurno from
    alguien_sigue hpos h
  refine .of_step ⟨trivial, trivial, trivial, trivial⟩ rfl ?_
  refine .of_step ⟨trivial, trivial, trivial, trivial⟩ rfl ?_
  refine .of_step ⟨show _ ∈ _ by decide, trivial, trivial, trivial⟩ rfl ?_
  refine .of_step ⟨rfl, .inl rfl, hmax (by decide), enOrden_de [] rfl (by simp)⟩ rfl ?_
  refine .of_step ⟨show _ ∈ _ by decide, trivial, trivial, trivial⟩ rfl ?_
  refine .of_step ⟨rfl, .inl rfl, hmax (by decide), enOrden_de [] rfl (by simp)⟩ rfl ?_
  refine .of_step ⟨show _ ∈ _ by decide, trivial, trivial, trivial⟩ rfl ?_
  exact .of_step ⟨rfl, .inl rfl, hmax (by decide),
    enOrden_de ["R1"] (by decide) (by decide)⟩ rfl trivial

end OperatingSystem.Kernel.Jerarquia
