import OperatingSystem.Kernel.Conservacion

/-! # Waiting for a resource

While processes wait for a resource, all of its instances are held (`Agotado`): this is what a release
has to restore by handing the instance to the first of the queue (`Entrega`). It does so when at most
one process is queued. With two or more, `resources_release` answers a positive number, which
`release_resource` takes for an instance that is still not free, and wakes nobody.

The main result `sin_espera` is that under this condition, besides the ones of `Condicion`, no process
ever waits for a resource that has a free instance. -/

namespace OperatingSystem.Kernel.Entregas

open OperatingSystem.Lib.Dictionary OperatingSystem.Lib.Lists OperatingSystem.Lib.Run
open OperatingSystem.Kernel.Proceso OperatingSystem.Kernel.Recursos
open OperatingSystem.Kernel.Conservacion

/-! ### What a release has to do -/

/-- **No process waits for a free instance.** -/
def SinEspera (s : Estado) : Prop :=
  ∀ r res, s.resources.get r = some res →
    (∃ q ∈ res.blockedPids, (s.plan.running.get q).isSome) → held s r = res.maxQty

/-- The first of the queue of `r` gets the instance and becomes ready. -/
def Entrega (s : Estado) (r : String) (s' : Estado) : Prop :=
  ∀ res q rest, s.resources.get r = some res → res.blockedPids = q :: rest →
    ∃ pcb pcb' res', s.plan.running.get q = some pcb ∧ s'.plan.running.get q = some pcb' ∧
      pcb'.asignedResources = pcb.asignedResources ++ [r] ∧ pcb'.currentStatus = .READY ∧
        q ∈ s'.plan.ready ∧ s'.resources.get r = some res' ∧ res'.blockedPids = rest

/-- Every release of the list hands the instance on. -/
def Entregan (p : ℤ) : List String → Estado → Prop
  | [], _ => True
  | r :: rs, s => ∃ s', releaseResource s p r = some s' ∧ Entrega s r s' ∧ Entregan p rs s'

/-- The releases of a request. -/
def EntregaTodo (s : Estado) : Accion → Prop
  | .signal p r => Entregan p [r] s
  | .exit p _ => ∀ pcb, s.plan.running.get p = some pcb → Entregan p pcb.asignedResources s
  | .finalizar p => ∀ pcb, s.plan.running.get p = some pcb → pcb.currentStatus ≠ .EXEC →
      Entregan p pcb.asignedResources s
  | _ => True

/-- **A request is served right.** -/
def Correcta (s : Estado) (a : Accion) : Prop :=
  EntregaTodo s a ∧ ∃ s', atender s a = some s' ∧ SinEspera s'

/-- At most one process is queued for the resource. -/
def ColaCorta (s : Estado) (r : String) : Prop :=
  ∀ res, s.resources.get r = some res → res.blockedPids.length ≤ 1

/-- **When nobody waits in vain**: besides `Condicion`, at most one process is queued for a resource
that is released, and nobody waits for a resource configured with less than no instances. -/
def CondicionEspera (s : Estado) : Accion → Prop
  | .wait _ r => ∀ res, s.resources.get r = some res → 0 ≤ res.maxQty
  | .signal _ r => ColaCorta s r
  | .exit p _ => ∀ pcb, s.plan.running.get p = some pcb →
      ∀ r ∈ pcb.asignedResources, ColaCorta s r
  | .finalizar p => ∀ pcb, s.plan.running.get p = some pcb → pcb.currentStatus ≠ .EXEC →
      ∀ r ∈ pcb.asignedResources, ColaCorta s r
  | _ => True

/-! ### The invariant -/

/-- A resource with a queue is exhausted, and never more than its instances are held. -/
def Agotado (h : ℤ) (res : Resource) : Prop :=
  (res.blockedPids ≠ [] → h = res.maxQty) ∧ (h ≤ res.maxQty ∨ h = 0 ∧ res.blockedPids = [])

/-- Every resource with a queue is exhausted. -/
def Agotados (s : Estado) : Prop :=
  ∀ r res, s.resources.get r = some res → Agotado (held s r) res

theorem Agotados.sinEspera {s : Estado} (h : Agotados s) : SinEspera s :=
  fun r res hr ⟨_, hq, _⟩ => (h r res hr).1 (List.ne_nil_of_mem hq)

section

variable {s s' : Estado} {p q : ℤ} {pcb : Pcb} {r : String} {res : Resource} {rest : List ℤ}

/-- Only the instances held and the queue matter. -/
theorem Agotados.congr (h : Agotados s) (hres : s'.resources = s.resources)
    (hheld : ∀ t, held s' t = held s t) : Agotados s' := fun t res ht => by
  rw [hheld]
  exact h t res (hres ▸ ht)

/-- A change of one process and one resource is to keep that resource exhausted. -/
theorem Agotados.cambiar (h : Agotados s) (hp : s.plan.running.get p = some pcb) {pcb' : Pcb}
    {res' : Resource} {ready : List ℤ}
    (hotros : ∀ t, t ≠ r → pcb'.asignedResources.count t = pcb.asignedResources.count t)
    (hr : Agotado (held (cambio s p pcb' ready r res') r) res') :
    Agotados (cambio s p pcb' ready r res') := fun t res₁ ht => by
  rcases Dict.get_put_eq_some.mp ht with ⟨rfl, rfl⟩ | ⟨htr, ht⟩
  · exact hr
  · rw [held_cambio hp, hotros t htr, sub_add_cancel]
    exact h t res₁ ht

theorem count_remove (hpri : Primero pcb r) (t : String) :
    ((processRemoveResource pcb r).asignedResources.count t : ℤ) =
      pcb.asignedResources.count t - if t = r then 1 else 0 := by
  have hcount := List.count_pos_iff.mpr (List.mem_of_find?_eq_some hpri)
  rw [processRemoveResource, eraseP_of_find? hpri]
  by_cases ht : t = r
  · subst ht
    rw [List.count_erase_self, if_pos rfl]
    omega
  · rw [List.count_erase_of_ne ht, if_neg ht, sub_zero]

theorem held_quitar (hp : s.plan.running.get p = some pcb) (hpri : Primero pcb r) (t : String) :
    held (quitar s p pcb r res) t = held s t - if t = r then 1 else 0 := by
  rw [quitar, held_cambio hp, count_remove hpri]
  omega

theorem held_dar (hq : s.plan.running.get q = some pcb) (t : String) :
    held (dar s q pcb r res rest) t = held s t + if t = r then 1 else 0 := by
  rw [dar, held_cambio hq]
  have := count_asignado pcb r t
  split_ifs at this ⊢ <;> simp only [this] <;> push_cast <;> omega

/-- A release while nobody is queued. -/
theorem quitar_agotados (ha : Agotados s) (hp : s.plan.running.get p = some pcb)
    (hr : s.resources.get r = some res) (hpri : Primero pcb r) (hnil : res.blockedPids = []) :
    Agotados (quitar s p pcb r res) ∧ Entrega s r (quitar s p pcb r res) ∧
      ∀ t, ColaCorta s t → ColaCorta (quitar s p pcb r res) t := by
  refine ⟨ha.cambiar hp (fun t ht => ?_) ⟨fun hne => absurd hnil hne, ?_⟩,
    fun res₁ q rest hr₁ hq => ?_, fun t ht res₁ hr₁ => ?_⟩
  · have := count_remove hpri t
    rw [if_neg ht] at this
    omega
  · have hheld : held (quitar s p pcb r res) r = _ := held_quitar hp hpri r
    have huno : 1 ≤ held s r := by
      have hcount := List.count_pos_iff.mpr (List.mem_of_find?_eq_some hpri)
      have hle : (pcb.asignedResources.count r : ℤ) ≤ held s r :=
        Dict.le_sum (f := fun pcb => (pcb.asignedResources.count r : ℤ)) (by simp) hp
      omega
    rw [if_pos rfl] at hheld
    have := (ha r res hr).2
    left
    change held (quitar s p pcb r res) r ≤ res.maxQty
    omega
  · obtain rfl := Option.some.inj (hr.symm.trans hr₁)
    rw [hnil] at hq
    simp at hq
  · rcases Dict.get_put_eq_some.mp hr₁ with ⟨rfl, rfl⟩ | ⟨-, hr₁⟩
    · exact ht res hr
    · exact ht res₁ hr₁

/-- A release that wakes the only process queued, which is another one. -/
theorem dar_agotados (ha : Agotados s) (hp : s.plan.running.get p = some pcb)
    (hr : s.resources.get r = some res) (hpri : Primero pcb r) (hqp : q ≠ p)
    (hq : res.blockedPids = [q]) {pcbq : Pcb} {res' : Resource}
    (hpcbq : (quitar s p pcb r res).plan.running.get q = some pcbq)
    (hr' : (quitar s p pcb r res).resources.get r = some res') :
    Agotados (dar (quitar s p pcb r res) q pcbq r res' []) ∧
      Entrega s r (dar (quitar s p pcb r res) q pcbq r res' []) ∧
      ∀ t, ColaCorta s t → ColaCorta (dar (quitar s p pcb r res) q pcbq r res' []) t := by
  have hmax := (ha r res hr).1 (by simp [hq])
  have hpcbq₀ : s.plan.running.get q = some pcbq := (Dict.get_put_of_ne _ hqp _).symm.trans hpcbq
  have hmax' : res'.maxQty = res.maxQty := by
    obtain rfl := Option.some.inj ((Dict.get_put_self ..).symm.trans hr')
    rfl
  have hheld : ∀ t, held (dar (quitar s p pcb r res) q pcbq r res' []) t = held s t := fun t => by
    rw [held_dar hpcbq, held_quitar hp hpri]
    omega
  have hotro : ∀ {t res₁}, t ≠ r → (dar (quitar s p pcb r res) q pcbq r res' []).resources.get t =
      some res₁ → s.resources.get t = some res₁ := fun {t res₁} ht hr₁ =>
    (Dict.get_put_of_ne _ ht _).symm.trans ((Dict.get_put_of_ne _ ht _).symm.trans hr₁)
  refine ⟨fun t res₁ hr₁ => ?_, fun res₁ x rest hr₁ hx => ?_, fun t ht res₁ hr₁ => ?_⟩
  · rw [hheld]
    by_cases htr : t = r
    · subst htr
      obtain rfl := Option.some.inj ((Dict.get_put_self ..).symm.trans hr₁)
      exact ⟨fun hne => absurd rfl hne, Or.inl (by simp only [hmax', hmax]; exact le_rfl)⟩
    · exact ha t res₁ (hotro htr hr₁)
  · obtain rfl := Option.some.inj (hr.symm.trans hr₁)
    obtain ⟨rfl, rfl⟩ : q = x ∧ [] = rest := by simpa [hq] using hx
    exact ⟨pcbq, _, _, hpcbq₀, Dict.get_put_self .., rfl, rfl, List.mem_append_right _ (by simp),
      Dict.get_put_self .., rfl⟩
  · by_cases htr : t = r
    · subst htr
      obtain rfl := Option.some.inj ((Dict.get_put_self ..).symm.trans hr₁)
      simp
    · exact ht res₁ (hotro htr hr₁)

/-- **A release hands the instance on** when at most one process is queued. -/
theorem suelta_agotados (h : Inv s) (ha : Agotados s) (hp : s.plan.running.get p = some pcb)
    (hr : s.resources.get r = some res) (hpri : Primero pcb r) (hcorta : ColaCorta s r)
    (hnb : ¬ Espera pcb r) (hs : Suelta s p pcb r res s') :
    Agotados s' ∧ Entrega s r s' ∧ ∀ t, ColaCorta s t → ColaCorta s' t := by
  have hcuenta := (h.cuenta r res hr).1
  have hlen := hcorta res hr
  obtain ⟨hcola, rfl⟩ | ⟨q, rest, pcbq, res', hq, hpos, hpcbq, hr', rfl⟩ := hs
  · -- with one process queued the counter comes back to zero, so nobody is queued here
    have hnil : res.blockedPids = [] := by
      by_contra hne
      have := (ha r res hr).1 hne
      have := List.length_pos_iff.mpr hne
      have := hcola.resolve_left hne
      omega
    exact quitar_agotados ha hp hr hpri hnil
  · obtain rfl : rest = [] := by
      rw [hq] at hlen
      exact List.length_eq_zero_iff.mp (by simpa using hlen)
    -- the process that releases is not queued, so another one is woken up
    have hqp : q ≠ p := by
      rintro rfl
      obtain ⟨pcb₁, h1, h2⟩ := (h.cola r res hr q).mp (by simp [hq])
      obtain rfl := Option.some.inj (hp.symm.trans h1)
      exact hnb h2
    exact dar_agotados ha hp hr hpri hqp hq hpcbq hr'

/-- All the releases of a process hand their instances on. -/
theorem releaseResources_agotados : ∀ {rs : List String} {s : Estado} {pcb : Pcb}, Inv s →
    Agotados s → s.plan.running.get p = some pcb → pcb.asignedResources = rs →
    (∀ t, ¬ Espera pcb t) → (∀ r ∈ rs, ColaCorta s r) →
    Entregan p rs s ∧ ∃ s', releaseResources p rs s = some s' ∧ Agotados s'
  | [], s, pcb, _, ha, _, _, _, _ => ⟨trivial, s, rfl, ha⟩
  | r :: rs, s, pcb, h, ha, hp, hrs, hnb, hcorta => by
    obtain ⟨res, hr⟩ := Option.isSome_iff_exists.mp (h.asignados p pcb hp r (by simp [hrs]))
    have hpri := primero_cons hrs
    obtain ⟨s₁, hs₁, hsuelta⟩ := releaseResource_cases h hp hr hpri
    obtain ⟨h₁, -, hp₁⟩ := hsuelta.inv h hp hr hpri (hnb r)
    obtain ⟨ha₁, hent, hcorta₁⟩ :=
      suelta_agotados h ha hp hr hpri (hcorta r (by simp)) (hnb r) hsuelta
    obtain ⟨hent₂, s₂, hs₂, ha₂⟩ := releaseResources_agotados h₁ ha₁ hp₁ (asigned_remove_cons hrs)
      hnb fun t ht => hcorta₁ t (hcorta t (by simp [ht]))
    exact ⟨⟨s₁, hs₁, hent, hent₂⟩, s₂, by rw [releaseResources, hs₁]; exact hs₂, ha₂⟩

theorem onExit_agotados (h : Inv s) (ha : Agotados s) (hp : s.plan.running.get p = some pcb)
    (hnb : ∀ t, ¬ Espera pcb t) (hcorta : ∀ r ∈ pcb.asignedResources, ColaCorta s r)
    (exitCode : OpCode) :
    Entregan p pcb.asignedResources s ∧ ∃ s', onExit s p exitCode = some s' ∧ Agotados s' := by
  obtain ⟨hent, s₁, hs₁, ha₁⟩ := releaseResources_agotados h ha hp rfl hnb hcorta
  obtain ⟨s₂, pcb₂, hs₂, -, -, hp₂, hrs₂, -⟩ := releaseResources_spec h hp rfl hnb
  obtain rfl := Option.some.inj (hs₁.symm.trans hs₂)
  have hforce : forceExitProcess s p = some s₁ := by
    rw [forceExitProcess, findProcess, hp]
    exact hs₁
  have ha₂ : Agotados (setPlan s₁ (exitProcess (removeProcess s₁.plan p) p exitCode)) :=
    ha₁.congr rfl (held_salir hp₂ hrs₂ exitCode)
  exact ⟨hent, _, by rw [onExit, hforce]; rfl, ha₂⟩

theorem onWait_agotados (h : Inv s) (ha : Agotados s) (hp : s.plan.running.get p = some pcb)
    (hc : Condicion s (.wait p r)) (hce : CondicionEspera s (.wait p r)) :
    ∃ s', onWait s p r = some s' ∧ Agotados s' := by
  cases hr : s.resources.get r with
  | none =>
    have hasig : pcb.asignedResources = [] := (hc.resolve_left (by rw [hr]; simp)) pcb hp
    exact ⟨_, onWait_none hp hr, ha.congr rfl (held_salir hp hasig _)⟩
  | some res =>
    have hcuenta := (h.cuenta r res hr).1
    have hagot := ha r res hr
    have hmax := hce res hr
    refine ⟨_, onWait_eq hp hr, ?_⟩
    split_ifs with hlibre
    · -- an instance is free, so nobody is queued
      have hnil : res.blockedPids = [] := by
        by_contra hne
        have := hagot.1 hne
        omega
      refine ha.cambiar hp (fun t ht => by simp [count_asignado, ht]) ⟨fun hne => absurd hnil hne, ?_⟩
      left
      rw [held_cambio hp]
      have := count_asignado pcb r r
      simp only [this, if_pos]
      rw [hnil] at hcuenta
      simp only [List.length_nil] at hcuenta
      push_cast
      omega
    · -- no instance is free, so all of them are held
      have hheld : held s r = res.maxQty := by
        by_cases hne : res.blockedPids = []
        · rw [hne, List.length_nil] at hcuenta
          have := hagot.2
          omega
        · exact hagot.1 hne
      refine ha.cambiar hp (fun _ _ => rfl) ?_
      rw [held_cambio hp]
      exact ⟨fun _ => by simp only [sub_add_cancel]; exact hheld,
        Or.inl (by simp only [sub_add_cancel]; exact hheld.le)⟩

/-- **A request keeps the resources with a queue exhausted**, and its releases hand on. -/
theorem atender_agotados (h : Inv s) (ha : Agotados s) {a : Accion} (hprot : Protocolo s a)
    (hc : Condicion s a) (hce : CondicionEspera s a) :
    EntregaTodo s a ∧ ∃ s', atender s a = some s' ∧ Agotados s' := by
  have hexec : ∀ {pcb : Pcb}, pcb.currentStatus = .EXEC → ∀ t, ¬ Espera pcb t := fun hst t ht =>
    absurd (hst.symm.trans ht.1) (by decide)
  cases a with
  | admitir => exact ⟨trivial, _, rfl, ha.congr rfl (held_admitir h)⟩
  | despachar p =>
    obtain ⟨pcb, hp, -, hs'⟩ := despachar_eq h hprot
    have ha' : Agotados (setPlan s (setProcess (removeProcess s.plan p) p
        { pcb with currentStatus := .EXEC })) := ha.congr rfl (held_cambiarEstado hp (by rfl))
    exact ⟨trivial, _, hs', ha'⟩
  | desalojar p =>
    obtain ⟨pcb, hex⟩ := Option.isSome_iff_exists.mp hprot
    obtain ⟨hp, -⟩ := enEjecucion_eq_some.mp hex
    have ha' : Agotados (setPlan s (readyProcess s.plan p pcb)) :=
      ha.congr rfl (held_cambiarEstado hp (by rfl))
    exact ⟨trivial, _, by rw [atender, onEvicted, hex]; rfl, ha'⟩
  | wait p r =>
    obtain ⟨pcb, hex⟩ := Option.isSome_iff_exists.mp hprot
    obtain ⟨hp, hst⟩ := enEjecucion_eq_some.mp hex
    exact ⟨trivial, by rw [atender_wait hex]; exact onWait_agotados h ha hp hc hce⟩
  | signal p r =>
    obtain ⟨pcb, hex, hmem⟩ := hprot
    obtain ⟨hp, hst⟩ := enEjecucion_eq_some.mp hex
    obtain ⟨res, hr⟩ := Option.isSome_iff_exists.mp (h.asignados p pcb hp r hmem)
    obtain ⟨s', hs', hsuelta⟩ := releaseResource_cases h hp hr (hc pcb hp)
    obtain ⟨ha', hent, -⟩ :=
      suelta_agotados h ha hp hr (hc pcb hp) hce (hexec hst r) hsuelta
    exact ⟨⟨s', hs', hent, trivial⟩, s', (atender_signal hex r).trans hs', ha'⟩
  | exit p exitCode =>
    obtain ⟨pcb, hex⟩ := Option.isSome_iff_exists.mp hprot
    obtain ⟨hp, hst⟩ := enEjecucion_eq_some.mp hex
    obtain ⟨hent, s', hs', ha'⟩ := onExit_agotados h ha hp (hexec hst) (hce pcb hp) exitCode
    refine ⟨fun pcb₁ hp₁ => ?_, s', (atender_exit hex exitCode).trans hs', ha'⟩
    obtain rfl := Option.some.inj (hp.symm.trans hp₁)
    exact hent
  | finalizar p =>
    rw [atender, handleForceProcessExit, findProcess]
    cases hp : s.plan.running.get p with
    | none => exact ⟨fun pcb hp' => absurd (hp.symm.trans hp') (by simp), s, rfl, ha⟩
    | some pcb =>
      by_cases hst : pcb.currentStatus = .EXEC
      · refine ⟨fun pcb₁ hp₁ hst₁ => ?_, _, if_pos hst, ha.congr rfl fun _ => rfl⟩
        obtain rfl := Option.some.inj (hp.symm.trans hp₁)
        exact absurd hst hst₁
      · obtain ⟨hent, s', hs', ha'⟩ :=
          onExit_agotados h ha hp (hc pcb hp) (hce pcb hp hst) .PROC_EXIT_FORCE
        refine ⟨fun pcb₁ hp₁ _ => ?_, s', by simpa [hst] using hs', ha'⟩
        obtain rfl := Option.some.inj (hp.symm.trans hp₁)
        exact hent

end

/-! ### Runs -/

theorem agotados_estadoInicial (recursos : List (String × ℤ)) : Agotados (estadoInicial recursos) :=
  fun r res hr => by
    obtain ⟨qty, rfl⟩ := (resourcesInitialize_get hr).resolve_left (by simp)
    exact ⟨fun hne => absurd rfl hne, Or.inr ⟨rfl, rfl⟩⟩

/-- **Nobody waits for a free instance.** Every request of a run is served right, as long as at most
one process is queued for a resource when it is released. -/
theorem sin_espera (recursos : List (String × ℤ)) {as : List Accion}
    (h : Along atender (fun s a => Protocolo s a ∧ Condicion s a ∧ CondicionEspera s a)
      (estadoInicial recursos) as) :
    Along atender Correcta (estadoInicial recursos) as := by
  refine h.of_invariant (I := fun s => Inv s ∧ Agotados s) ?_
    ⟨inv_estadoInicial recursos, agotados_estadoInicial recursos⟩
  rintro s a ⟨hinv, hagot⟩ ⟨hprot, hc, hce⟩
  obtain ⟨hent, s', hs', hagot'⟩ := atender_agotados hinv hagot hprot hc hce
  obtain ⟨s'', hs'', hinv', -⟩ := atender_spec hinv hprot hc
  obtain rfl := Option.some.inj (hs'.symm.trans hs'')
  refine ⟨⟨hent, s', hs', hagot'.sinEspera⟩, fun s₁ hs₁ => ?_⟩
  obtain rfl := Option.some.inj (hs'.symm.trans hs₁)
  exact ⟨hinv', hagot'⟩

/-- One process waits for the resource that another one signals. -/
theorem sin_espera_dosProcesos :
    Along atender Correcta (estadoInicial [("R1", 1)]) [.admitir, .admitir, .despachar 1,
      .wait 1 "R1", .despachar 2, .wait 2 "R1", .despachar 1, .signal 1 "R1",
      .exit 1 .PROC_EXIT_SUCCESS] := by
  refine sin_espera _ ?_
  have hcola : ∀ {s : Estado} {r : String} {n : ℕ},
      (s.resources.get r).map (fun res => res.blockedPids.length) = some n → n ≤ 1 →
        ColaCorta s r := fun h hn res hr => by
    rw [hr] at h
    exact (Option.some.inj h).trans_le hn
  have hmax : ∀ {s : Estado} {r : String}, (s.resources.get r).map Resource.maxQty = some 1 →
      ∀ res, s.resources.get r = some res → 0 ≤ res.maxQty := fun h res hr => by
    rw [hr] at h
    exact (Option.some.inj h).symm ▸ by decide
  have hpri : ∀ {s : Estado}, (s.plan.running.get 1).map Pcb.asignedResources = some ["R1"] →
      ∀ pcb, s.plan.running.get 1 = some pcb → Primero pcb "R1" := fun h pcb hp => by
    rw [hp] at h
    exact primero_cons (Option.some.inj h)
  have hnada : ∀ {s : Estado}, (s.plan.running.get 1).map Pcb.asignedResources = some [] →
      ∀ pcb, s.plan.running.get 1 = some pcb → ∀ r ∈ pcb.asignedResources, ColaCorta s r :=
    fun h pcb hp r hr => by
      rw [hp] at h
      rw [show pcb.asignedResources = [] from Option.some.inj h] at hr
      simp at hr
  refine .of_step ⟨trivial, trivial, trivial⟩ rfl ?_
  refine .of_step ⟨trivial, trivial, trivial⟩ rfl ?_
  refine .of_step ⟨show _ ∈ _ by decide, trivial, trivial⟩ rfl ?_
  refine .of_step ⟨rfl, Or.inl rfl, hmax (by decide)⟩ rfl ?_
  refine .of_step ⟨show _ ∈ _ by decide, trivial, trivial⟩ rfl ?_
  refine .of_step ⟨rfl, Or.inl rfl, hmax (by decide)⟩ rfl ?_
  refine .of_step ⟨show _ ∈ _ by decide, trivial, trivial⟩ rfl ?_
  refine .of_step ⟨⟨_, rfl, by decide⟩, hpri (by decide), hcola (by decide) le_rfl⟩ rfl ?_
  exact .of_step ⟨rfl, trivial, hnada (by decide)⟩ rfl trivial

/-- **Processes wait for a free instance.** With two processes queued, the release by the holder wakes
neither: no process holds the instance, and both still wait. -/
theorem signal_no_despierta :
    Along atender Protocolo (estadoInicial [("R1", 1)]) [.admitir, .admitir, .admitir, .despachar 1,
        .wait 1 "R1", .despachar 2, .wait 2 "R1", .despachar 3, .wait 3 "R1", .despachar 1,
        .signal 1 "R1"] ∧
      ∃ s, exec atender (estadoInicial [("R1", 1)]) [.admitir, .admitir, .admitir, .despachar 1,
          .wait 1 "R1", .despachar 2, .wait 2 "R1", .despachar 3, .wait 3 "R1", .despachar 1,
          .signal 1 "R1"] = some s ∧
        (s.resources.get "R1").map Resource.blockedPids = some [2, 3] ∧ held s "R1" = 0 ∧
          ¬ SinEspera s := by
  refine ⟨?_, _, rfl, by decide, by decide, fun h => ?_⟩
  · exact .of_step trivial rfl <| .of_step trivial rfl <| .of_step trivial rfl <|
      .of_step (show _ ∈ _ by decide) rfl <| .of_step rfl rfl <|
      .of_step (show _ ∈ _ by decide) rfl <| .of_step rfl rfl <|
      .of_step (show _ ∈ _ by decide) rfl <| .of_step rfl rfl <|
      .of_step (show _ ∈ _ by decide) rfl <| .of_step ⟨_, rfl, by decide⟩ rfl trivial
  · exact absurd (h "R1" _ rfl ⟨2, by decide, by decide⟩) (by decide)

end OperatingSystem.Kernel.Entregas
