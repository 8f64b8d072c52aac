import OperatingSystem.Kernel.Jerarquia

/-! # A deadlock is for ever

`Trabados D`: each process of `D` is blocked on a resource without a free instance that only processes of
`D` hold, with any number of instances and of holders. The kernel detects a deadlock and does nothing
about it, and nothing else ends it: in every run in which nobody of `D` is killed, and nobody signals what
it does not hold, the processes of `D` stay as they are (`interbloqueo_permanente`).

Where every resource has one instance, the processes of a circular wait are such a set
(`trabados_of_circular`).

`Intacto` is what an action leaves to `D`: its processes, the counters of what they wait for, and who
holds it. -/

namespace OperatingSystem.Kernel.Trabas

open OperatingSystem.Lib.Dictionary OperatingSystem.Lib.Run OperatingSystem.Lib.Waits
open OperatingSystem.Kernel.Proceso OperatingSystem.Kernel.Recursos
open OperatingSystem.Kernel.Conservacion (Espera cambio quitar dar asignar bloquear)
open OperatingSystem.Kernel.Interbloqueo (EsperaA EsperaCircular cruzados)
open OperatingSystem.Kernel.Liberaciones (Base Soltado Llena releaseResource_rechazada
  releaseResource_soltado)
open OperatingSystem.Kernel.Jerarquia

/-- **Nobody of these processes can go on.** -/
def Trabados (D : Set ℤ) (s : Estado) : Prop :=
  ∀ p ∈ D, ∃ pcb r res, findProcess s.plan p = some pcb ∧ Espera pcb r ∧
    s.resources.get r = some res ∧ res.availableQty ≤ 0 ∧
      ∀ q, (esperas id s.plan).holds q r → q ∈ D

/-- Nobody of `D` is killed, and a process only signals what it holds. -/
def Respeta (D : Set ℤ) (s : Estado) : Accion → Prop
  | .signal pid r => ∀ pcb, findProcess s.plan pid = some pcb → r ∈ pcb.asignedResources
  | .finalizar pid => pid ∉ D
  | _ => True

/-- A process of `D` waits for the resource. -/
def Esperado (D : Set ℤ) (s : Estado) (r : String) : Prop :=
  ∃ p ∈ D, ∃ pcb, findProcess s.plan p = some pcb ∧ Espera pcb r

/-- **What is left to `D`.** -/
structure Intacto (D : Set ℤ) (s s' : Estado) : Prop where
  procesos : ∀ p ∈ D, findProcess s'.plan p = findProcess s.plan p
  cuenta : ∀ r res, Esperado D s r → s.resources.get r = some res →
    ∃ res', s'.resources.get r = some res' ∧ res'.availableQty ≤ res.availableQty
  duenos : ∀ r q, Esperado D s r → (esperas id s'.plan).holds q r → (esperas id s.plan).holds q r

section

variable {D : Set ℤ} {s s' s'' : Estado} {p q : ℤ} {pcb pcb' : Pcb} {r t : String}
  {res res' : Resource} {rest : List ℤ}

theorem Intacto.esperado (h : Intacto D s s') : Esperado D s' r ↔ Esperado D s r :=
  exists_congr fun p => and_congr_right fun hp => by rw [h.procesos p hp]

theorem Intacto.refl (D : Set ℤ) (s : Estado) : Intacto D s s :=
  ⟨fun _ _ => rfl, fun _ res _ hr => ⟨res, hr, le_rfl⟩, fun _ _ _ hq => hq⟩

theorem Intacto.trans (h : Intacto D s s') (h' : Intacto D s' s'') : Intacto D s s'' := by
  refine ⟨fun p hp => (h'.procesos p hp).trans (h.procesos p hp), fun r res hesp hr => ?_,
    fun r q hesp hq => h.duenos r q hesp (h'.duenos r q (h.esperado.mpr hesp) hq)⟩
  obtain ⟨res', hr', hle⟩ := h.cuenta r res hesp hr
  obtain ⟨res'', hr'', hle'⟩ := h'.cuenta r res' (h.esperado.mpr hesp) hr'
  exact ⟨res'', hr'', hle'.trans hle⟩

/-- Whoever is left alone is still stuck. -/
theorem Trabados.intacto (h : Trabados D s) (hI : Intacto D s s') : Trabados D s' := by
  intro p hp
  obtain ⟨pcb, r, res, hpcb, hesp, hr, hqty, hin⟩ := h p hp
  have hr' : Esperado D s r := ⟨p, hp, pcb, hpcb, hesp⟩
  obtain ⟨res', hres', hle⟩ := hI.cuenta r res hr' hr
  exact ⟨pcb, r, res', (hI.procesos p hp).trans hpcb, hesp, hres', hle.trans hqty,
    fun q hq => hin q (hI.duenos r q hr' hq)⟩

/-! ### What others do -/

/-- Another process changes, without a resource that `D` waits for, and a resource with it. -/
theorem intacto_cambio {ready : List ℤ} (hpD : p ∉ D) (hp : s.plan.running.get p = some pcb)
    (hasig : ∀ t ∈ pcb'.asignedResources, Esperado D s t → t ∈ pcb.asignedResources)
    (hqty : ∀ res, Esperado D s r → s.resources.get r = some res →
      res'.availableQty ≤ res.availableQty) :
    Intacto D s (cambio s p pcb' ready r res') := by
  refine ⟨fun q hq => ?_, fun t res₁ hesp ht => ?_, fun t q hesp hq => ?_⟩
  · have hqp : q ≠ p := fun he => hpD (he ▸ hq)
    exact Dict.get_put_of_ne _ hqp _
  · by_cases htr : t = r
    · subst htr
      exact ⟨res', Dict.get_put_self .., hqty res₁ hesp ht⟩
    · exact ⟨res₁, (Dict.get_put_of_ne _ htr _).trans ht, le_rfl⟩
  · obtain ⟨pcb₁, hq, u, hu, rfl⟩ := hq
    rcases Dict.get_put_eq_some.mp hq with ⟨rfl, rfl⟩ | ⟨-, hq⟩
    · exact ⟨pcb, hp, u, hasig u hu hesp, rfl⟩
    · exact ⟨pcb₁, hq, u, hu, rfl⟩

/-- The planners do something about another process. -/
theorem intacto_plan {plan : Planificador} (hpD : p ∉ D)
    (hotros : ∀ q ≠ p, plan.running.get q = s.plan.running.get q)
    (hp : ∀ pcb', plan.running.get p = some pcb' → ∀ t ∈ pcb'.asignedResources,
      Esperado D s t → (esperas id s.plan).holds p t) : Intacto D s (setPlan s plan) := by
  refine ⟨fun q hq => hotros q fun he => hpD (he ▸ hq), fun r res _ hr => ⟨res, hr, le_rfl⟩,
    fun r q hesp hq => ?_⟩
  obtain ⟨pcb', hq, t, ht, rfl⟩ := hq
  by_cases hqp : q = p
  · subst hqp
    exact hp pcb' hq t ht hesp
  · exact ⟨pcb', (hotros q hqp).symm.trans hq, t, ht, rfl⟩

theorem intacto_salir (hpD : p ∉ D) (exitCode : OpCode) :
    Intacto D s (setPlan s (exitProcess (removeProcess s.plan p) p exitCode)) := by
  refine intacto_plan hpD (fun q hqp => Dict.get_remove_of_ne _ hqp) fun pcb' hp => ?_
  have hp : (s.plan.running.remove p).get p = some pcb' := hp
  rw [Dict.get_remove_self] at hp
  cases hp

/-- A resource that `D` does not wait for changes. -/
theorem intacto_setResource (hr : ¬ Esperado D s r) : Intacto D s (setResource s r res) := by
  refine ⟨fun _ _ => rfl, fun t res₁ hesp ht => ?_, fun _ _ _ hq => hq⟩
  have htr : t ≠ r := fun he => hr (he ▸ hesp)
  exact ⟨res₁, (Dict.get_put_of_ne _ htr _).trans ht, le_rfl⟩

theorem intacto_quitar (hpD : p ∉ D) (hp : s.plan.running.get p = some pcb)
    (hr : ¬ Esperado D s r) : Intacto D s (quitar s p pcb r res) :=
  intacto_cambio hpD hp (fun _ ht _ => List.eraseP_subset ht) fun _ hesp => absurd hesp hr

/-- Who gets an instance of what `D` does not wait for is not of `D`. -/
theorem intacto_dar (h : Base s) (hr : ¬ Esperado D s r) (hres : s.resources.get r = some res)
    (hq : res.blockedPids = q :: rest) (hpcb : s.plan.running.get q = some pcb) :
    Intacto D s (dar s q pcb r res rest) := by
  have hesp : Espera pcb r := h.cola r res hres q (by rw [hq]; exact List.mem_cons_self) pcb hpcb
  refine intacto_cambio (fun hqD => hr ⟨q, hqD, pcb, hpcb, hesp⟩) hpcb (fun t ht hesp' => ?_)
    fun _ hesp' => absurd hesp' hr
  exact (Liberaciones.mem_asignado ht).resolve_right fun he => hr (he ▸ hesp')

theorem releaseResource_intacto (h : Base s) (hpD : p ∉ D) (hr : ¬ Esperado D s r)
    (hs : releaseResource s p r = some s') : Intacto D s s' := by
  obtain ⟨pcb, hp, -⟩ := Option.bind_eq_some_iff.mp hs
  by_cases hmax : Llena s r
  · obtain ⟨hs₀, -⟩ := releaseResource_rechazada hp hmax
    obtain rfl := Option.some.inj (hs₀.symm.trans hs)
    refine Intacto.trans ?_ (intacto_salir hpD _)
    unfold resourcesRelease
    split
    · exact .refl D s
    · dsimp only
      split_ifs <;> exact intacto_setResource hr
  · unfold Llena at hmax
    push Not at hmax
    obtain ⟨res, hres, hmax⟩ := hmax
    obtain ⟨s₁, hs₁, hS⟩ := releaseResource_soltado h hp hres hmax
    obtain rfl := Option.some.inj (hs₁.symm.trans hs)
    have hI : Intacto D s (quitar s p pcb r res) := intacto_quitar hpD hp hr
    have hr' : ¬ Esperado D (quitar s p pcb r res) r := fun hesp => hr (hI.esperado.mp hesp)
    cases hS with
    | nadie => exact hI
    | muerto => exact hI.trans (intacto_setResource hr')
    | vivo hq _ hpcbq =>
      exact hI.trans (intacto_dar (h.quitar hp hres) hr' (Liberaciones.get_quitar ..) hq hpcbq)

theorem releaseResources_intacto : ∀ {rs : List String} {s : Estado}, Base s → p ∉ D →
    (∀ r ∈ rs, ¬ Esperado D s r) → releaseResources p rs s = some s' → Intacto D s s'
  | [], s, _, _, _, hs => by
    obtain rfl := Option.some.inj hs
    exact .refl D s
  | r :: rs, s, h, hpD, hrs, hs => by
    obtain ⟨s₁, hs₁, hs⟩ := Option.bind_eq_some_iff.mp hs
    have hI := releaseResource_intacto h hpD (hrs r List.mem_cons_self) hs₁
    refine hI.trans (releaseResources_intacto (Liberaciones.releaseResource_base h hs₁) hpD
      (fun t ht hesp => hrs t (List.mem_cons_of_mem _ ht) (hI.esperado.mp hesp)) hs)

/-- What `D` waits for is only held by `D`. -/
theorem Trabados.not_esperado (h : Trabados D s) (hpD : p ∉ D)
    (hp : s.plan.running.get p = some pcb) (hr : r ∈ pcb.asignedResources) : ¬ Esperado D s r := by
  rintro ⟨q, hq, pcbq, hpcbq, hesp⟩
  obtain ⟨pcb₁, r₁, -, hpcb₁, hesp₁, -, -, hin⟩ := h q hq
  obtain rfl := Option.some.inj (hpcbq.symm.trans hpcb₁)
  obtain rfl := Option.some.inj (hesp.2.symm.trans hesp₁.2)
  exact hpD (hin p ⟨pcb, hp, r, hr, rfl⟩)

/-- Who is not blocked is not of `D`. -/
theorem Trabados.not_mem (h : Trabados D s) (hp : s.plan.running.get p = some pcb)
    (hst : pcb.currentStatus ≠ .BLOCK) : p ∉ D := by
  intro hpD
  obtain ⟨pcb₁, _, _, hpcb₁, hesp, -⟩ := h p hpD
  obtain rfl := Option.some.inj (hp.symm.trans hpcb₁)
  exact hst hesp.1

theorem onExit_intacto (hD : Trabados D s) (h : Base s) (hpD : p ∉ D) {exitCode : OpCode}
    (hs : onExit s p exitCode = some s') : Intacto D s s' := by
  obtain ⟨s₁, hs₁, hs⟩ := Option.bind_eq_some_iff.mp hs
  obtain ⟨pcb, hp, hs₁⟩ := Option.bind_eq_some_iff.mp hs₁
  obtain rfl := Option.some.inj hs
  exact (releaseResources_intacto h hpD (fun r hr => hD.not_esperado hpD hp hr) hs₁).trans
    (intacto_salir hpD exitCode)

theorem onWait_intacto (hD : Trabados D s) (hpD : p ∉ D) (hp : s.plan.running.get p = some pcb)
    (hs : onWait s p r = some s') : Intacto D s s' := by
  cases hr : s.resources.get r with
  | none =>
    rw [Conservacion.onWait_none hp hr] at hs
    obtain rfl := Option.some.inj hs
    exact intacto_salir hpD _
  | some res =>
    rw [Conservacion.onWait_eq hp hr] at hs
    obtain rfl := Option.some.inj hs
    split_ifs with hlibre
    · -- what has a free instance is not what `D` waits for
      have hno : ¬ Esperado D s r := by
        rintro ⟨q, hq, pcbq, hpcbq, hesp⟩
        obtain ⟨pcb₁, r₁, res₁, hpcb₁, hesp₁, hr₁, hqty, -⟩ := hD q hq
        obtain rfl := Option.some.inj (hpcbq.symm.trans hpcb₁)
        obtain rfl := Option.some.inj (hesp.2.symm.trans hesp₁.2)
        obtain rfl := Option.some.inj (hr.symm.trans hr₁)
        omega
      refine intacto_cambio hpD hp (fun t ht hesp => ?_) fun _ hesp => absurd hesp hno
      exact (Liberaciones.mem_asignado ht).resolve_right fun he => hno (he ▸ hesp)
    · refine intacto_cambio hpD hp (fun t ht _ => ht) fun res₁ _ hr₁ => ?_
      obtain rfl := Option.some.inj (hr.symm.trans hr₁)
      exact (sub_lt_self res.availableQty one_pos).le

/-- **One action leaves a deadlock alone.** -/
theorem atender_intacto (hD : Trabados D s) (h : Base s) {a : Accion} (ha : Respeta D s a)
    (hs : atender s a = some s') : Intacto D s s' := by
  have hexec : ∀ {p : ℤ} {pcb : Pcb}, enEjecucion s.plan p = some pcb →
      s.plan.running.get p = some pcb ∧ p ∉ D := fun hex => by
    obtain ⟨hp, hst⟩ := enEjecucion_eq_some.mp hex
    exact ⟨hp, hD.not_mem hp (by rw [hst]; decide)⟩
  -- the process keeps what it holds
  have hmismo : ∀ {p : ℤ} {pcb : Pcb} {plan : Planificador} {st : Status}, p ∉ D →
      s.plan.running.get p = some pcb →
      plan.running = s.plan.running.put p { pcb with currentStatus := st } →
      Intacto D s (setPlan s plan) := fun hpD hp hrun => by
    refine intacto_plan hpD (fun q hqp => by rw [hrun, Dict.get_put_of_ne _ hqp])
      fun pcb' hp' t ht _ => ?_
    rw [hrun, Dict.get_put_self] at hp'
    obtain rfl := Option.some.inj hp'
    exact ⟨_, hp, t, ht, rfl⟩
  cases a with
  | admitir =>
    obtain rfl := Option.some.inj hs
    have hnuevo : s.plan.lastPid + 1 ∉ D := fun hD' => by
      obtain ⟨pcb, _, _, hpcb, -⟩ := hD _ hD'
      have := (h.planInv.pids _ pcb hpcb).2
      omega
    refine intacto_plan hnuevo (fun q hq => Dict.get_put_of_ne _ hq _) fun pcb' hp t ht _ => ?_
    obtain rfl := Option.some.inj ((Dict.get_put_self ..).symm.trans hp)
    cases ht
  | despachar p =>
    have hready := protocolo_of_atender hs
    obtain ⟨pcb, hp, hst, hdesp, -⟩ := h.planInv.despachar hready
    rw [atender, hdesp] at hs
    obtain rfl := Option.some.inj hs
    exact hmismo (hD.not_mem hp (by rw [hst]; decide)) hp rfl
  | desalojar p =>
    obtain ⟨plan, hplan, rfl⟩ := Option.map_eq_some_iff.mp hs
    obtain ⟨pcb, hex, hplan⟩ := Option.bind_eq_some_iff.mp hplan
    obtain rfl := Option.some.inj hplan
    exact hmismo (hexec hex).2 (hexec hex).1 rfl
  | wait p r =>
    obtain ⟨pcb, hex, hs⟩ := Option.bind_eq_some_iff.mp hs
    exact onWait_intacto hD (hexec hex).2 (hexec hex).1 hs
  | signal p r =>
    obtain ⟨pcb, hex, hs⟩ := Option.bind_eq_some_iff.mp hs
    obtain ⟨hp, hpD⟩ := hexec hex
    exact releaseResource_intacto h hpD (hD.not_esperado hpD hp (ha pcb hp)) hs
  | exit p exitCode =>
    obtain ⟨pcb, hex, hs⟩ := Option.bind_eq_some_iff.mp hs
    exact onExit_intacto hD h (hexec hex).2 hs
  | finalizar p =>
    rw [Recursos.atender, handleForceProcessExit] at hs
    cases hp : findProcess s.plan p with
    | none =>
      simp only [hp] at hs
      obtain rfl := Option.some.inj hs
      exact .refl D s
    | some pcb =>
      simp only [hp] at hs
      split_ifs at hs
      · obtain rfl := Option.some.inj hs
        exact intacto_plan ha (fun _ _ => rfl) fun pcb' hp' t ht _ => ⟨pcb', hp', t, ht, rfl⟩
      · exact onExit_intacto hD h ha hs

end

/-! ### Circular waits -/

/-- The processes of the circular waits through `p`. -/
def circulo (k : Planificador) (p : ℤ) : Set ℤ :=
  {q | Relation.TransGen (EsperaA k) p q ∧ Relation.TransGen (EsperaA k) q p}

/-- Of a resource that has one instance there is one holder. -/
theorem un_dueno {s : Estado} {q q' : ℤ} {pcb pcb' : Pcb} {r : String}
    (hheld : Conservacion.held s r ≤ 1) (hq : s.plan.running.get q = some pcb)
    (hr : r ∈ pcb.asignedResources) (hq' : s.plan.running.get q' = some pcb')
    (hr' : r ∈ pcb'.asignedResources) : q = q' := by
  by_contra hne
  have hpos : 0 < pcb.asignedResources.count r := List.count_pos_iff.mpr hr
  have hpos' : 0 < pcb'.asignedResources.count r := List.count_pos_iff.mpr hr'
  have hget : (s.plan.running.remove q).get q' = some pcb' :=
    (Dict.get_remove_of_ne _ (Ne.symm hne)).trans hq'
  have hle := Dict.le_sum (fun pcb : Pcb => Int.natCast_nonneg (pcb.asignedResources.count r)) hget
  rw [Dict.sum_remove hq] at hle
  unfold Conservacion.held at hheld
  omega

/-- **A circular wait is a deadlock** where every resource has one instance. -/
theorem trabados_of_circular {C : Regla} {s : Estado} {p : ℤ} (hinv : Conservacion.Inv s)
    (hagot : Entregas.Agotados s) (hub : Ubicados C s)
    (huno : ∀ r res, s.resources.get r = some res → res.maxQty = 1)
    (hnombres : ∀ r t, (s.resources.get r).isSome → (s.resources.get t).isSome →
      clave r = clave t → r = t) (h : EsperaCircular s.plan p) : Trabados (circulo s.plan p) s := by
  have hheld : ∀ r res, s.resources.get r = some res → Conservacion.held s r ≤ 1 := by
    intro r res hr
    have hmax := huno r res hr
    rcases (hagot r res hr).2 with hle | ⟨hle, -⟩ <;> omega
  have hone : ∀ t q q', (esperas clave s.plan).holds q t → (esperas clave s.plan).holds q' t →
      q = q' := by
    rintro t q q' ⟨pcb, hq, r, hr, rfl⟩ ⟨pcb', hq', r', hr', hrr'⟩
    have hdef := hinv.asignados q pcb hq r hr
    obtain rfl := hnombres r' r (hinv.asignados q' pcb' hq' r' hr') hdef hrr'
    obtain ⟨res, hres⟩ := Option.isSome_iff_exists.mp hdef
    exact un_dueno (hheld _ res hres) hq hr hq' hr'
  have hstuck : (esperas clave s.plan).Stuck (circulo s.plan p) := by
    rw [EsperaCircular, esperaA_eq] at h
    rw [circulo, esperaA_eq]
    exact WaitGraph.stuck_of_circular hone h
  intro q hq
  obtain ⟨t, ht, -, hin⟩ := hstuck q hq
  obtain ⟨pcb, r, hpcb, hesp, rfl⟩ := waits_eq_some.mp ht
  obtain ⟨res, hr⟩ : ∃ res, s.resources.get r = some res := by
    cases hub q pcb hpcb with
    | listo hst | ejecuta hst => exact absurd (hst.symm.trans hesp.1) (by decide)
    | espera r' hesp' hr _ =>
      obtain rfl := Option.some.inj (hesp.2.symm.trans hesp'.2)
      exact Option.isSome_iff_exists.mp hr
  have hcola : 0 < res.blockedPids.length :=
    List.length_pos_of_mem ((hinv.cola r res hr q).mpr ⟨pcb, hpcb, hesp⟩)
  have hpos : 0 ≤ Conservacion.held s r := Dict.sum_nonneg fun _ => Int.natCast_nonneg _
  have hmax := huno r res hr
  have hcuenta := (hinv.cuenta r res hr).1
  refine ⟨pcb, r, res, hpcb, hesp, hr, by omega, ?_⟩
  rintro q' ⟨pcb', hq', u, hu, rfl⟩
  exact hin q' ⟨pcb', hq', u, hu, rfl⟩

/-! ### Runs -/

/-- **A deadlock is for ever.** From any state that the kernel reaches, whatever the others do, the
processes of a deadlock stay as they are, unless one of them is killed or what they wait for is signalled
by who does not hold it. -/
theorem interbloqueo_permanente {D : Set ℤ} {recursos : List (String × ℤ)} {as bs : List Accion}
    {s s' : Estado} (hs : exec atender (estadoInicial recursos) as = some s) (hD : Trabados D s)
    (h : Along atender (Respeta D) s bs) (hs' : exec atender s bs = some s') :
    Trabados D s' ∧ ∀ p ∈ D, findProcess s'.plan p = findProcess s.plan p := by
  have hI : Intacto D s s' ∧ Base s' := exec_invariant (I := fun s' => Intacto D s s' ∧ Base s')
    (fun s₁ a s₂ hI ha hs₂ => ⟨hI.1.trans (atender_intacto (hD.intacto hI.1) hI.2 ha hs₂),
      hI.2.atender (protocolo_of_atender hs₂) hs₂⟩) ⟨.refl D s, corrida_base hs⟩ h hs'
  exact ⟨hD.intacto hI.1, hI.1.procesos⟩

/-- Each of two processes holds what the other one waits for; a third one comes and is killed. -/
theorem interbloqueo_permanente_cruzados :
    ∃ s s', exec atender (estadoInicial [("REC1", 1), ("REC2", 1)]) (cruzados ++ [.wait 2 "REC1"]) =
        some s ∧
      exec atender s [.admitir, .despachar 3, .wait 3 "REC1", .finalizar 3] = some s' ∧
        Trabados {1, 2} s' ∧ ∀ p ∈ ({1, 2} : Set ℤ), findProcess s'.plan p = findProcess s.plan p := by
  have htrabados : ∀ {s : Estado}, exec atender (estadoInicial [("REC1", 1), ("REC2", 1)])
      (cruzados ++ [.wait 2 "REC1"]) = some s → Trabados {1, 2} s := fun hs => by
    obtain rfl := Option.some.inj ((show _ = some _ from rfl).symm.trans hs)
    have hduenos : ∀ {r : String} {q : ℤ} {k : Planificador}, (∀ q ∈ k.running.keys,
        ∀ pcb ∈ k.running.get q, r ∈ pcb.asignedResources → q = 1 ∨ q = 2) →
        (esperas id k).holds q r → q ∈ ({1, 2} : Set ℤ) := by
      rintro r q k hk ⟨pcb, hq, t, ht, rfl⟩
      exact hk q (Dict.mem_keys_of_get hq) pcb hq ht
    rintro p (rfl | rfl)
    · exact ⟨_, "REC2", _, rfl, by decide, rfl, by decide, fun q hq => hduenos (by decide) hq⟩
    · exact ⟨_, "REC1", _, rfl, by decide, rfl, by decide, fun q hq => hduenos (by decide) hq⟩
  have hrespeta : ∀ s, Along atender (Respeta {1, 2}) s
      [.admitir, .despachar 3, .wait 3 "REC1", .finalizar 3] := fun s =>
    ⟨trivial, fun _ _ => ⟨trivial, fun _ _ => ⟨trivial, fun _ _ =>
      ⟨by simp [Respeta], fun _ _ => trivial⟩⟩⟩⟩
  obtain ⟨s, s', hs, hs'⟩ : ∃ s s',
      exec atender (estadoInicial [("REC1", 1), ("REC2", 1)]) (cruzados ++ [.wait 2 "REC1"]) = some s ∧
        exec atender s [.admitir, .despachar 3, .wait 3 "REC1", .finalizar 3] = some s' :=
    ⟨_, _, rfl, rfl⟩
  exact ⟨s, s', hs, hs', interbloqueo_permanente hs (htrabados hs) (hrespeta s) hs'⟩

end OperatingSystem.Kernel.Trabas
