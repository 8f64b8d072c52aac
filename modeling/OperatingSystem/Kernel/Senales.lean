import OperatingSystem.Kernel.Conservacion

/-! # Signals that are refused

`resources_release` counts the instance first and looks at the maximum afterwards, so a `SIGNAL` that
would leave more instances than there are is refused with the counter already changed. `Limitado` is
what the test is there for: no counter is above its maximum. A run of `WAIT`s and `SIGNAL`s keeps it, and
every refusal has no effect, exactly when no `SIGNAL` finds the counter at its maximum
(`senales_iff`). -/

namespace OperatingSystem.Kernel.Senales

open OperatingSystem.Lib.Dictionary OperatingSystem.Lib.Run
open OperatingSystem.Kernel.Proceso OperatingSystem.Kernel.Recursos
open OperatingSystem.Kernel.Conservacion

/-- The maximum and the counter of a resource. -/
def cantidades (s : Estado) (r : String) : Option (ℤ × ℤ) :=
  (s.resources.get r).map fun res => (res.maxQty, res.availableQty)

/-- The counters are not above their maxima. -/
def Limitado (s : Estado) : Prop :=
  ∀ r res, s.resources.get r = some res → res.availableQty ≤ res.maxQty

/-- The resources and the other processes are as before. -/
def SinEfecto (s s' : Estado) (p : ℤ) : Prop :=
  (∀ r, s'.resources.get r = s.resources.get r) ∧
    ∀ q, q ≠ p → findProcess s'.plan q = findProcess s.plan q

/-- A `SIGNAL` that `resources_release` refuses changes nothing but the process that made it. -/
def RechazoSinEfecto (s : Estado) : Accion → Prop
  | .signal p r => (resourcesRelease s r).1 < 0 → ∀ s', onSignal s p r = some s' → SinEfecto s s' p
  | _ => True

/-- What is promised of a step. -/
def Correcta (s : Estado) (a : Accion) : Prop :=
  Limitado s ∧ RechazoSinEfecto s a ∧ ∀ s', atender s a = some s' → Limitado s'

/-- Processes wait and signal while they run, whether or not they hold the resource. -/
def Protocolo (s : Estado) : Accion → Prop
  | .admitir => True
  | .despachar pid => pid ∈ s.plan.ready
  | .desalojar pid | .wait pid _ | .signal pid _ => (enEjecucion s.plan pid).isSome
  | .exit _ _ | .finalizar _ => False

/-- No `SIGNAL` finds the counter of its resource at the maximum. -/
def Condicion (s : Estado) : Accion → Prop
  | .signal _ r => ∀ res, s.resources.get r = some res → res.availableQty < res.maxQty
  | _ => True

section

variable {s s' : Estado} {p : ℤ} {pcb : Pcb} {r : String} {res : Resource}

/-! ### Refusals -/

/-- A release of a resource that does not exist ends the process. -/
theorem releaseResource_none (hp : s.plan.running.get p = some pcb)
    (hr : s.resources.get r = none) : releaseResource s p r = some (exitResourceNotFound s p) := by
  unfold releaseResource resourcesRelease findProcess
  rw [hp, hr]
  rfl

theorem resourcesRelease_llena (hr : s.resources.get r = some res)
    (hmax : res.maxQty ≤ res.availableQty) : resourcesRelease s r = (ERROR_ON_ATOMIC_ASSIGNMENT,
      setResource s r { res with availableQty := res.availableQty + 1 }) := by
  unfold resourcesRelease
  rw [hr]
  exact if_pos (by omega)

/-- A release beyond the maximum is counted, and ends the process. -/
theorem releaseResource_llena (hp : s.plan.running.get p = some pcb)
    (hr : s.resources.get r = some res) (hmax : res.maxQty ≤ res.availableQty) :
    releaseResource s p r = some (exitResourceNotFound
      (setResource s r { res with availableQty := res.availableQty + 1 }) p) := by
  unfold releaseResource findProcess
  rw [hp, resourcesRelease_llena hr hmax]
  rfl

/-- A release is accepted below the maximum. -/
theorem resourcesRelease_nonneg (hr : s.resources.get r = some res)
    (hmax : res.availableQty < res.maxQty) : 0 ≤ (resourcesRelease s r).1 := by
  rw [resourcesRelease_eq hr (by omega)]
  show 0 ≤ if 0 ≤ res.availableQty + 1 then 0 else -(res.availableQty + 1)
  split_ifs <;> omega

theorem sinEfecto_exitResourceNotFound (s : Estado) (p : ℤ) :
    SinEfecto s (exitResourceNotFound s p) p := by
  constructor
  · intro r
    rfl
  · intro q hq
    exact Dict.get_remove_of_ne _ hq

/-! ### The counters -/

theorem limitado_iff : Limitado s ↔ ∀ r n, cantidades s r = some n → n.2 ≤ n.1 := by
  unfold Limitado cantidades
  constructor
  · intro h r n hn
    obtain ⟨res, hr, rfl⟩ := Option.map_eq_some_iff.mp hn
    exact h r res hr
  · intro h r res hr
    exact h r (res.maxQty, res.availableQty) (by rw [hr]; rfl)

theorem cantidades_setResource (s : Estado) (r : String) (res : Resource) (t : String) :
    cantidades (setResource s r res) t =
      if t = r then some (res.maxQty, res.availableQty) else cantidades s t := by
  unfold cantidades setResource
  rw [Dict.get_put]
  split_ifs <;> rfl

/-- A resource gets another counter. -/
theorem Limitado.of_cambio (h : Limitado s) {n : ℤ × ℤ} (hn : n.2 ≤ n.1)
    (heq : ∀ t, cantidades s' t = if t = r then some n else cantidades s t) : Limitado s' := by
  rw [limitado_iff] at h ⊢
  intro t n' hn'
  rw [heq] at hn'
  split_ifs at hn' with ht
  · obtain rfl := Option.some.inj hn'
    exact hn
  · exact h t n' hn'

theorem cantidades_addResourceInstances (s : Estado) (r : String) (n : ℤ) (t : String) :
    cantidades (addResourceInstances s r n) t = cantidades s t := by
  unfold addResourceInstances
  cases hr : s.resources.get r with
  | none => rfl
  | some res =>
    rw [cantidades_setResource]
    split_ifs with ht
    · subst ht
      rw [cantidades, hr]
      rfl
    · rfl

theorem cantidades_resourcesNextPid (s : Estado) (r t : String) :
    cantidades (resourcesNextPid s r).2 t = cantidades s t := by
  unfold resourcesNextPid
  cases hr : s.resources.get r with
  | none => rfl
  | some res =>
    cases hq : res.blockedPids with
    | nil =>
      simp only [hq]
    | cons q rest =>
      simp only [hq]
      rw [cantidades_setResource]
      split_ifs with ht
      · subst ht
        rw [cantidades, hr]
        rfl
      · rfl

/-- Whoever is woken up was counted when it asked. -/
theorem cantidades_assignResource (s : Estado) (r t : String) :
    cantidades (assignResourceToQueuedProcess s r) t = cantidades s t := by
  rw [← cantidades_resourcesNextPid s r t]
  unfold assignResourceToQueuedProcess
  simp only
  split_ifs
  · cases findProcess (resourcesNextPid s r).2.plan (resourcesNextPid s r).1 with
    | none => rfl
    | some pcb => exact cantidades_addResourceInstances _ r (-1) t
  · rfl

/-- **An accepted release** counts one instance. -/
theorem cantidades_releaseResource (hp : s.plan.running.get p = some pcb)
    (hr : s.resources.get r = some res) (hmax : res.availableQty < res.maxQty)
    (hs : releaseResource s p r = some s') (t : String) : cantidades s' t =
      if t = r then some (res.maxQty, res.availableQty + 1) else cantidades s t := by
  have hquitar : cantidades (quitar s p pcb r res) t =
      if t = r then some (res.maxQty, res.availableQty + 1) else cantidades s t :=
    cantidades_setResource s r { res with
      availableQty := res.availableQty + 1
      availableInstances := res.availableInstances + 1 } t
  rw [releaseResource_eq hp hr (by omega)] at hs
  obtain rfl := Option.some.inj hs
  refine Eq.trans ?_ hquitar
  split_ifs
  · exact cantidades_assignResource _ r t
  · rfl

/-! ### Requests -/

theorem limitado_of_onWait (h : Limitado s) (hw : onWait s p r = some s') : Limitado s' := by
  cases hp : s.plan.running.get p with
  | none =>
    rw [onWait, findProcess, hp] at hw
    simp at hw
  | some pcb =>
    cases hr : s.resources.get r with
    | none =>
      rw [onWait_none hp hr] at hw
      obtain rfl := Option.some.inj hw
      exact h
    | some res =>
      have hle := h r res hr
      rw [onWait_eq hp hr] at hw
      obtain rfl := Option.some.inj hw
      refine h.of_cambio (r := r) (n := (res.maxQty, res.availableQty - 1)) ?_ fun t => ?_
      · show res.availableQty - 1 ≤ res.maxQty
        omega
      · split_ifs with hqty ht ht
        · exact (cantidades_setResource s r _ t).trans (if_pos ht)
        · exact (cantidades_setResource s r _ t).trans (if_neg ht)
        · exact (cantidades_setResource s r _ t).trans (if_pos ht)
        · exact (cantidades_setResource s r _ t).trans (if_neg ht)

/-- A `SIGNAL` is right exactly if the counter is below the maximum. -/
theorem signal_correcta_iff (h : Limitado s) (hex : enEjecucion s.plan p = some pcb) :
    Correcta s (.signal p r) ↔ Condicion s (.signal p r) := by
  obtain ⟨hp, -⟩ := enEjecucion_eq_some.mp hex
  have hat := atender_signal hex r
  cases hr : s.resources.get r with
  | none =>
    have hsig : onSignal s p r = some (exitResourceNotFound s p) := releaseResource_none hp hr
    constructor
    · intro _ res hres
      rw [hr] at hres
      exact absurd hres (by simp)
    · intro _
      refine ⟨h, fun _ s' hs' => ?_, fun s' hs' => ?_⟩
      · obtain rfl := Option.some.inj (hsig.symm.trans hs')
        exact sinEfecto_exitResourceNotFound s p
      · obtain rfl := Option.some.inj (hsig.symm.trans (hat.symm.trans hs'))
        exact h
  | some res =>
    have hle := h r res hr
    constructor
    · intro hcor res' hr'
      obtain rfl := Option.some.inj (hr.symm.trans hr')
      by_contra hmax
      -- the counter is one above the maximum afterwards
      have hlim := hcor.2.2 _ (hat.trans (releaseResource_llena hp hr (by omega)))
      have := hlim r { res with availableQty := res.availableQty + 1 } (get_setResource ..)
      simp only at this
      omega
    · intro hc
      have hmax := hc res hr
      refine ⟨h, fun hneg => ?_, fun s' hs' => ?_⟩
      · have := resourcesRelease_nonneg hr hmax
        omega
      · have hcant := cantidades_releaseResource hp hr hmax (hat.symm.trans hs')
        refine h.of_cambio (n := (res.maxQty, res.availableQty + 1)) ?_ hcant
        show res.availableQty + 1 ≤ res.maxQty
        omega

/-- **One request.** -/
theorem correcta_iff {a : Accion} (h : Limitado s) (hprot : Protocolo s a) :
    Correcta s a ↔ Condicion s a := by
  cases a with
  | admitir =>
    refine ⟨fun _ => trivial, fun _ => ⟨h, trivial, fun s' hs' => ?_⟩⟩
    obtain rfl := Option.some.inj hs'
    exact h
  | despachar p =>
    refine ⟨fun _ => trivial, fun _ => ⟨h, trivial, fun s' hs' => ?_⟩⟩
    obtain ⟨plan, -, rfl⟩ := Option.map_eq_some_iff.mp hs'
    exact h
  | desalojar p =>
    refine ⟨fun _ => trivial, fun _ => ⟨h, trivial, fun s' hs' => ?_⟩⟩
    obtain ⟨plan, -, rfl⟩ := Option.map_eq_some_iff.mp hs'
    exact h
  | wait p r =>
    refine ⟨fun _ => trivial, fun _ => ⟨h, trivial, fun s' hs' => ?_⟩⟩
    obtain ⟨pcb, -, hs'⟩ := Option.bind_eq_some_iff.mp hs'
    exact limitado_of_onWait h hs'
  | signal p r =>
    obtain ⟨pcb, hex⟩ := Option.isSome_iff_exists.mp hprot
    exact signal_correcta_iff h hex
  | exit p exitCode => exact absurd hprot id
  | finalizar p => exact absurd hprot id

end

theorem limitado_estadoInicial (recursos : List (String × ℤ)) : Limitado (estadoInicial recursos) := by
  intro r res hr
  have hres : ∃ qty, res = resourceCreate qty :=
    (resourcesInitialize_get hr).resolve_left (by simp)
  obtain ⟨qty, rfl⟩ := hres
  exact le_rfl

/-- **Signals.** In a run of `WAIT`s and `SIGNAL`s no counter is ever above its maximum and every refusal
has no effect, exactly if every `SIGNAL` finds the counter below the maximum. -/
theorem senales_iff {recursos : List (String × ℤ)} {as : List Accion}
    (h : Along atender Protocolo (estadoInicial recursos) as) :
    Along atender Correcta (estadoInicial recursos) as ↔
      Along atender Condicion (estadoInicial recursos) as :=
  along_congr (I := Limitado) (fun _ _ hI hC => correcta_iff hI hC)
    (fun _ _ _ hI hC hE hs => ((correcta_iff hI hC).mpr hE).2.2 _ hs)
    (limitado_estadoInicial recursos) h

/-- A process takes the only instance and gives it back. -/
theorem senales_iff_devuelta :
    Along atender Correcta (estadoInicial [("R1", 1)]) [.admitir, .despachar 1, .wait 1 "R1",
        .despachar 1, .signal 1 "R1"] ↔
      Along atender Condicion (estadoInicial [("R1", 1)]) [.admitir, .despachar 1, .wait 1 "R1",
        .despachar 1, .signal 1 "R1"] :=
  senales_iff <| .of_step trivial rfl <| .of_step (show _ ∈ _ by decide) rfl <|
    .of_step (show Option.isSome _ = true by decide) rfl <|
    .of_step (show _ ∈ _ by decide) rfl <|
    .of_step (show Option.isSome _ = true by decide) rfl trivial

/-- **A refused signal counts.** A process signals a resource that nobody holds. -/
theorem signal_rechazado_cuenta :
    Along atender Protocolo (estadoInicial [("R1", 1)]) [.admitir, .despachar 1, .signal 1 "R1"] ∧
    ∃ s s' : Estado, exec atender (estadoInicial [("R1", 1)]) [.admitir, .despachar 1] = some s ∧
      (resourcesRelease s "R1").1 = ERROR_ON_ATOMIC_ASSIGNMENT ∧ onSignal s 1 "R1" = some s' ∧
      cantidades s "R1" = some (1, 1) ∧ cantidades s' "R1" = some (1, 2) :=
  ⟨.of_step trivial rfl <| .of_step (show _ ∈ _ by decide) rfl <|
    .of_step (show Option.isSome _ = true by decide) rfl trivial, _, _, rfl, rfl, rfl, rfl, rfl⟩

end OperatingSystem.Kernel.Senales
