import OperatingSystem.Kernel.Senales

/-! # Releases

`Base` holds in every state that the kernel reaches, whatever the processes ask for and whoever is
killed: what a process holds is a resource that there is, and a live process in a queue is blocked on
that resource. The pids of killed processes may stay in the queues.

A process that ends releases what it holds, one instance after the other. `Cabe` is that no counter
gets above its maximum by that. If so every release goes through (`releaseResources_cabe`); if not, one
of them is refused, which ends the process in the middle (`releaseResources_no_cabe`). -/

namespace OperatingSystem.Kernel.Liberaciones

open OperatingSystem.Lib.Dictionary OperatingSystem.Lib.Run
open OperatingSystem.Kernel.Proceso OperatingSystem.Kernel.Recursos
open OperatingSystem.Kernel.Conservacion (Espera cambio quitar dar asignar bloquear)
open OperatingSystem.Kernel.Senales (cantidades)

/-! ### Every reachable state -/

structure Base (s : Estado) : Prop where
  planInv : PlanInv s.plan
  asignados : ∀ q pcb, s.plan.running.get q = some pcb →
    ∀ r ∈ pcb.asignedResources, (s.resources.get r).isSome
  cola : ∀ r res, s.resources.get r = some res → ∀ q ∈ res.blockedPids,
    ∀ pcb, s.plan.running.get q = some pcb → Espera pcb r
  nodup : ∀ r res, s.resources.get r = some res → res.blockedPids.Nodup
  pids : ∀ r res, s.resources.get r = some res →
    ∀ q ∈ res.blockedPids, 0 < q ∧ q ≤ s.plan.lastPid

/-- Only what the CPU runs asks for something. -/
def Protocolo (s : Estado) : Accion → Prop
  | .admitir | .finalizar _ => True
  | .despachar pid => pid ∈ s.plan.ready
  | .desalojar pid | .wait pid _ | .signal pid _ | .exit pid _ => (enEjecucion s.plan pid).isSome

section

variable {s s' : Estado} {p q : ℤ} {pcb pcb' : Pcb} {ready : List ℤ} {r : String}
  {res res' : Resource} {rest : List ℤ}

/-- One process and one resource change. -/
theorem Base.cambiar (h : Base s) (hp : s.plan.running.get p = some pcb)
    (hr : s.resources.get r = some res)
    (hasig : ∀ t ∈ pcb'.asignedResources, t ∈ pcb.asignedResources ∨ t = r)
    (hnd : res'.blockedPids.Nodup)
    (hcola : ∀ q ∈ res'.blockedPids, q = p ∧ Espera pcb' r ∨ q ≠ p ∧ q ∈ res.blockedPids)
    (hespera : ∀ t, t ≠ r → Espera pcb t → Espera pcb' t)
    (hplan : PlanInv (cambio s p pcb' ready r res').plan) :
    Base (cambio s p pcb' ready r res') := by
  refine ⟨hplan, fun q pcb₁ hq t ht => ?_, fun t res₁ ht q hmem pcb₁ hq => ?_,
    fun t res₁ ht => ?_, fun t res₁ ht q hmem => ?_⟩
  · have hdef : t = r ∨ (s.resources.get t).isSome := by
      rcases Dict.get_put_eq_some.mp hq with ⟨rfl, rfl⟩ | ⟨-, hq⟩
      · exact (hasig t ht).symm.imp_right (h.asignados q pcb hp t)
      · exact Or.inr (h.asignados q pcb₁ hq t ht)
    by_cases htr : t = r
    · simp [cambio, htr]
    · simpa [cambio, htr] using hdef
  · rcases Dict.get_put_eq_some.mp hq with ⟨rfl, rfl⟩ | ⟨hqp, hq⟩
    · rcases Dict.get_put_eq_some.mp ht with ⟨rfl, rfl⟩ | ⟨htr, ht⟩
      · exact ((hcola q hmem).resolve_right fun h => h.1 rfl).2
      · have ht' := ht
        exact hespera t htr (h.cola t res₁ ht' q hmem pcb hp)
    · have hq' := hq
      rcases Dict.get_put_eq_some.mp ht with ⟨rfl, rfl⟩ | ⟨-, ht⟩
      · exact h.cola t res hr q ((hcola q hmem).resolve_left fun h => hqp h.1).2 pcb₁ hq'
      · exact h.cola t res₁ ht q hmem pcb₁ hq'
  · rcases Dict.get_put_eq_some.mp ht with ⟨rfl, rfl⟩ | ⟨-, ht⟩
    · exact hnd
    · exact h.nodup t res₁ ht
  · rcases Dict.get_put_eq_some.mp ht with ⟨rfl, rfl⟩ | ⟨-, ht⟩
    · rcases hcola q hmem with ⟨rfl, -⟩ | ⟨-, hmem⟩
      · exact h.planInv.pids q pcb hp
      · exact h.pids t res hr q hmem
    · exact h.pids t res₁ ht q hmem

/-- One resource changes, and its queue gets no longer. -/
theorem Base.setResource (h : Base s) (hr : s.resources.get r = some res)
    (hcola : res'.blockedPids.Sublist res.blockedPids) : Base (setResource s r res') := by
  have hget : ∀ {t res₁}, (Recursos.setResource s r res').resources.get t = some res₁ →
      ∃ res₂, s.resources.get t = some res₂ ∧ res₁.blockedPids.Sublist res₂.blockedPids := by
    intro t res₁ ht
    rcases Dict.get_put_eq_some.mp ht with ⟨rfl, rfl⟩ | ⟨-, ht⟩
    · exact ⟨res, hr, hcola⟩
    · exact ⟨res₁, ht, List.Sublist.refl _⟩
  refine ⟨h.planInv, fun q pcb hq t ht => ?_, fun t res₁ ht q hmem pcb hq => ?_,
    fun t res₁ ht => ?_, fun t res₁ ht q hmem => ?_⟩
  · have hdef := h.asignados q pcb hq t ht
    by_cases htr : t = r
    · simp [Recursos.setResource, htr]
    · simpa [Recursos.setResource, htr] using hdef
  · obtain ⟨res₂, h2, hsub⟩ := hget ht
    exact h.cola t res₂ h2 q (hsub.subset hmem) pcb hq
  · obtain ⟨res₂, h2, hsub⟩ := hget ht
    exact hsub.nodup (h.nodup t res₂ h2)
  · obtain ⟨res₂, h2, hsub⟩ := hget ht
    exact h.pids t res₂ h2 q (hsub.subset hmem)

theorem Base.quitar (h : Base s) (hp : s.plan.running.get p = some pcb)
    (hr : s.resources.get r = some res) : Base (quitar s p pcb r res) := by
  have hespera : ∀ t, Espera (processRemoveResource pcb r) t ↔ Espera pcb t := fun _ => Iff.rfl
  refine h.cambiar hp hr (fun t ht => Or.inl ?_) (h.nodup r res hr) (fun q hq => ?_)
    (fun t _ ht => (hespera t).mpr ht) (h.planInv.mismoEstado hp rfl)
  · exact List.eraseP_subset ht
  · by_cases hqp : q = p
    · subst hqp
      exact Or.inl ⟨rfl, (hespera r).mpr (h.cola r res hr q hq pcb hp)⟩
    · exact Or.inr ⟨hqp, hq⟩

/-- A new entry at the end. -/
theorem mem_asignado {t : String} (ht : t ∈ (processAssignResource pcb r).asignedResources) :
    t ∈ pcb.asignedResources ∨ t = r := by
  simpa [processAssignResource] using ht

theorem Base.dar (h : Base s) (hr : s.resources.get r = some res)
    (hq : res.blockedPids = q :: rest) (hpcb : s.plan.running.get q = some pcb) :
    Base (dar s q pcb r res rest) := by
  have hesp : Espera pcb r := h.cola r res hr q (by rw [hq]; simp) pcb hpcb
  have hnd := h.nodup r res hr
  rw [hq] at hnd
  obtain ⟨hqr, hrest⟩ := List.nodup_cons.mp hnd
  have hplan := h.planInv.ready hpcb (by rw [hesp.1]; simp) (processAssignResource pcb r)
  refine h.cambiar hpcb hr (fun t ht => mem_asignado ht) hrest (fun x hx => ?_)
    (fun t ht hesp' => ?_) hplan
  · exact Or.inr ⟨fun he => hqr (he ▸ hx), by rw [hq]; exact List.mem_cons_of_mem _ hx⟩
  · exact absurd (Option.some.inj (hesp'.2.symm.trans hesp.2)) ht

/-- A process in the CPU is in no queue. -/
theorem Base.not_mem_cola (h : Base s) (hp : s.plan.running.get p = some pcb)
    (hst : pcb.currentStatus ≠ .BLOCK) (hr : s.resources.get r = some res) :
    p ∉ res.blockedPids := fun hm => hst (h.cola r res hr p hm pcb hp).1

theorem Base.asignar (h : Base s) (hp : s.plan.running.get p = some pcb)
    (hr : s.resources.get r = some res) (hst : pcb.currentStatus = .EXEC) :
    Base (asignar s p pcb r res) := by
  have hno := h.not_mem_cola hp (by rw [hst]; simp) hr
  refine h.cambiar hp hr (fun t ht => mem_asignado ht) (h.nodup r res hr)
    (fun q hq => Or.inr ⟨fun he => hno (he ▸ hq), hq⟩) (fun t _ ht => ?_)
    (h.planInv.ready hp (by rw [hst]; simp) (processAssignResource pcb r))
  exact absurd (hst.symm.trans ht.1) (by decide)

theorem Base.bloquear (h : Base s) (hp : s.plan.running.get p = some pcb)
    (hr : s.resources.get r = some res) (hst : pcb.currentStatus = .EXEC) :
    Base (bloquear s p pcb r res) := by
  have hno := h.not_mem_cola hp (by rw [hst]; simp) hr
  have hnd : (res.blockedPids ++ [p]).Nodup := List.nodup_append.mpr
    ⟨h.nodup r res hr, by simp, by simpa using fun x hx (he : x = p) => hno (he ▸ hx)⟩
  refine h.cambiar hp hr (fun t ht => Or.inl ht) hnd (fun q hq => ?_) (fun t _ ht => ?_)
    (h.planInv.put_fuera hp (by rw [hst]; simp) _)
  · rcases List.mem_append.mp hq with hq | hq
    · exact Or.inr ⟨fun he => hno (he ▸ hq), hq⟩
    · exact Or.inl ⟨by simpa using hq, rfl, rfl⟩
  · exact absurd (hst.symm.trans ht.1) (by decide)

/-- Any process may leave. -/
theorem Base.salir (h : Base s) (p : ℤ) (exitCode : OpCode) :
    Base (setPlan s (exitProcess (removeProcess s.plan p) p exitCode)) := by
  have hvivo : ∀ {q pcb₁}, (s.plan.running.remove p).get q = some pcb₁ →
      s.plan.running.get q = some pcb₁ := fun {q pcb₁} hq => by
    have hqp : q ≠ p := by
      rintro rfl
      simp at hq
    simpa [hqp] using hq
  exact ⟨h.planInv.salir p exitCode, fun q pcb₁ hq => h.asignados q pcb₁ (hvivo hq),
    fun r res hr q hmem pcb₁ hq => h.cola r res hr q hmem pcb₁ (hvivo hq), h.nodup, h.pids⟩

/-- A process that waits for nothing changes its status. -/
theorem Base.cambiarEstado (h : Base s) (hp : s.plan.running.get p = some pcb)
    (hasig : pcb'.asignedResources = pcb.asignedResources) (hst : pcb.currentStatus ≠ .BLOCK)
    (hplan : PlanInv { s.plan with running := s.plan.running.put p pcb', ready := ready }) :
    Base (setPlan s { s.plan with running := s.plan.running.put p pcb', ready := ready }) := by
  refine ⟨hplan, fun q pcb₁ hq t ht => ?_, fun r res hr q hmem pcb₁ hq => ?_, h.nodup, h.pids⟩
  · rcases Dict.get_put_eq_some.mp hq with ⟨rfl, rfl⟩ | ⟨-, hq⟩
    · exact h.asignados q pcb hp t (hasig ▸ ht)
    · exact h.asignados q pcb₁ hq t ht
  · by_cases hqp : q = p
    · subst hqp
      exact absurd hmem (h.not_mem_cola hp hst hr)
    · exact h.cola r res hr q hmem pcb₁ ((Dict.get_put_of_ne _ hqp _).symm.trans hq)

theorem Base.admitir (h : Base s) : Base (setPlan s (Proceso.admitir s.plan)) := by
  refine ⟨h.planInv.admitir, fun q pcb₁ hq t ht => ?_, fun r res hr q hmem pcb₁ hq => ?_, h.nodup,
    fun r res hr q hmem => ?_⟩
  · rcases Dict.get_put_eq_some.mp hq with ⟨rfl, rfl⟩ | ⟨-, hq⟩
    · exact absurd ht (by simp [createNewPcb])
    · exact h.asignados q pcb₁ hq t ht
  · have hqp : q ≠ s.plan.lastPid + 1 := by
      have := (h.pids r res hr q hmem).2
      omega
    exact h.cola r res hr q hmem pcb₁ ((Dict.get_put_of_ne _ hqp _).symm.trans hq)
  · have := h.pids r res hr q hmem
    change 0 < q ∧ q ≤ s.plan.lastPid + 1
    omega

theorem base_estadoInicial (recursos : List (String × ℤ)) : Base (estadoInicial recursos) := by
  have hcola : ∀ r res, (estadoInicial recursos).resources.get r = some res →
      res.blockedPids = [] := fun r res hr => by
    obtain ⟨qty, rfl⟩ := (Conservacion.resourcesInitialize_get hr).resolve_left (by simp)
    rfl
  refine ⟨planInv_inicial, fun q pcb hq => ?_, fun r res hr q hq => ?_, fun r res hr => ?_,
    fun r res hr q hq => ?_⟩
  · exact absurd hq (by simp [estadoInicial, planificadorInicial])
  · rw [hcola r res hr] at hq
    exact absurd hq (by simp)
  · rw [hcola r res hr]
    exact List.nodup_nil
  · rw [hcola r res hr] at hq
    exact absurd hq (by simp)

/-! ### One release -/

/-- The first of the queue was killed: its pid is all that goes. -/
theorem assignResource_muerto (hr : s.resources.get r = some res)
    (hq : res.blockedPids = q :: rest) (hpos : 0 < q) (hnone : s.plan.running.get q = none) :
    assignResourceToQueuedProcess s r = setResource s r { res with blockedPids := rest } := by
  have hnext : resourcesNextPid s r = (q, setResource s r { res with blockedPids := rest }) := by
    simp [resourcesNextPid, hr, hq]
  have hfind : findProcess (setResource s r { res with blockedPids := rest }).plan q = none := hnone
  rw [assignResourceToQueuedProcess, hnext]
  simp only [if_pos hpos, hfind]

/-- The resource when an instance comes back. -/
def contar (res : Resource) : Resource :=
  { res with
    availableQty := res.availableQty + 1
    availableInstances := res.availableInstances + 1 }

theorem get_quitar (s : Estado) (p : ℤ) (pcb : Pcb) (r : String) (res : Resource) :
    (quitar s p pcb r res).resources.get r = some (contar res) := Dict.get_put_self ..

/-- **The outcomes of an accepted release**: nobody is woken up, or the first of the queue, if it was
not killed. -/
inductive Soltado (s : Estado) (p : ℤ) (pcb : Pcb) (r : String) (res : Resource) : Estado → Prop where
  | nadie (h : res.blockedPids = [] ∨ res.availableQty + 1 < 0) :
      Soltado s p pcb r res (quitar s p pcb r res)
  | muerto {q : ℤ} {rest : List ℤ} (hq : res.blockedPids = q :: rest)
      (hqty : 0 ≤ res.availableQty + 1) (hnone : (quitar s p pcb r res).plan.running.get q = none) :
      Soltado s p pcb r res
        (setResource (quitar s p pcb r res) r { contar res with blockedPids := rest })
  | vivo {q : ℤ} {rest : List ℤ} {pcbq : Pcb} (hq : res.blockedPids = q :: rest)
      (hqty : 0 ≤ res.availableQty + 1)
      (hpcbq : (quitar s p pcb r res).plan.running.get q = some pcbq) :
      Soltado s p pcb r res (dar (quitar s p pcb r res) q pcbq r (contar res) rest)

theorem releaseResource_soltado (h : Base s) (hp : s.plan.running.get p = some pcb)
    (hr : s.resources.get r = some res) (hmax : res.availableQty < res.maxQty) :
    ∃ s', releaseResource s p r = some s' ∧ Soltado s p pcb r res s' := by
  have hr' := get_quitar s p pcb r res
  refine ⟨_, Conservacion.releaseResource_eq hp hr (by omega), ?_⟩
  split_ifs with hqty
  · cases hq : res.blockedPids with
    | nil =>
      rw [Conservacion.assignResource_nil hr' hq]
      exact .nadie (Or.inl hq)
    | cons q rest =>
      have hpos : 0 < q := (h.pids r res hr q (by rw [hq]; simp)).1
      cases hpcb : (quitar s p pcb r res).plan.running.get q with
      | none =>
        rw [assignResource_muerto hr' hq hpos hpcb]
        exact .muerto hq hqty hpcb
      | some pcbq =>
        rw [Conservacion.assignResource_cons hr' hq hpos hpcb]
        exact .vivo hq hqty hpcb
  · exact .nadie (Or.inr (by omega))

/-- **What a release does to the rest**: `rs` are the resources that get an instance back. -/
structure Efecto (s s' : Estado) (rs : List String) : Prop where
  keys : s'.plan.running.keys = s.plan.running.keys
  exited : s'.plan.exited = s.plan.exited
  lastPid : s'.plan.lastPid = s.plan.lastPid
  cuenta : ∀ t, cantidades s' t = (cantidades s t).map fun n => (n.1, n.2 + (rs.count t : ℤ))
  colas : ∀ t res', s'.resources.get t = some res' →
    ∃ res, s.resources.get t = some res ∧ res'.blockedPids.Sublist res.blockedPids
  otros : ∀ t, t ∉ rs → s'.resources.get t = s.resources.get t

theorem efecto_refl (s : Estado) : Efecto s s [] := by
  refine ⟨rfl, rfl, rfl, fun t => ?_, fun t res' ht => ⟨res', ht, List.Sublist.refl _⟩,
    fun t _ => rfl⟩
  cases h : cantidades s t <;> simp

theorem Efecto.trans {s'' : Estado} {rs rs' : List String} (h : Efecto s s' rs)
    (h' : Efecto s' s'' rs') : Efecto s s'' (rs ++ rs') := by
  refine ⟨h'.keys.trans h.keys, h'.exited.trans h.exited, h'.lastPid.trans h.lastPid,
    fun t => ?_, fun t res' ht => ?_, fun t ht => ?_⟩
  · rw [h'.cuenta, h.cuenta]
    cases h : cantidades s t with
    | none => rfl
    | some n =>
      simp only [Option.map_some, List.count_append]
      push_cast
      rw [add_assoc]
  · obtain ⟨res₁, h1, hsub₁⟩ := h'.colas t res' ht
    obtain ⟨res₂, h2, hsub₂⟩ := h.colas t res₁ h1
    exact ⟨res₂, h2, hsub₁.trans hsub₂⟩
  · rw [List.mem_append, not_or] at ht
    rw [h'.otros t ht.2, h.otros t ht.1]

/-- Who lives goes on living. -/
theorem Efecto.vivo {rs : List String} (h : Efecto s s' rs) (q : ℤ) :
    (s'.plan.running.get q).isSome ↔ (s.plan.running.get q).isSome := by
  rw [← s'.plan.running.mem_keys, ← s.plan.running.mem_keys, h.keys]

/-- The resources are the same. -/
theorem Efecto.definido {rs : List String} (h : Efecto s s' rs) (t : String) :
    (s'.resources.get t).isSome ↔ (s.resources.get t).isSome := by
  have hcuenta := congrArg Option.isSome (h.cuenta t)
  simp only [cantidades, Option.isSome_map] at hcuenta
  rw [hcuenta]

theorem keys_put (hp : s.plan.running.get p = some pcb) (pcb' : Pcb) :
    (s.plan.running.put p pcb').keys = s.plan.running.keys :=
  if_pos (Dict.mem_keys_of_get hp)

theorem Soltado.base (hS : Soltado s p pcb r res s') (h : Base s)
    (hp : s.plan.running.get p = some pcb) (hr : s.resources.get r = some res) : Base s' := by
  have hB := h.quitar hp hr
  have hr' := get_quitar s p pcb r res
  cases hS with
  | nadie => exact hB
  | @muerto q rest hq _ _ =>
    refine hB.setResource hr' ?_
    change rest.Sublist res.blockedPids
    rw [hq]
    exact List.sublist_cons_self q rest
  | vivo hq _ hpcbq => exact hB.dar hr' hq hpcbq

theorem Soltado.efecto (hS : Soltado s p pcb r res s') (hp : s.plan.running.get p = some pcb)
    (hr : s.resources.get r = some res) : Efecto s s' [r] := by
  have hkeys : (quitar s p pcb r res).plan.running.keys = s.plan.running.keys := keys_put hp _
  -- the resource `r` counts one more, and its queue is the old one or its tail
  have hefecto : ∀ (s₁ : Estado) (res₁ : Resource), s₁.plan.running.keys = s.plan.running.keys →
      s₁.plan.exited = s.plan.exited → s₁.plan.lastPid = s.plan.lastPid →
      s₁.resources.get r = some res₁ →
      (∀ t, t ≠ r → s₁.resources.get t = s.resources.get t) →
      res₁.availableQty = res.availableQty + 1 → res₁.maxQty = res.maxQty →
      res₁.blockedPids.Sublist res.blockedPids → Efecto s s₁ [r] := by
    intro s₁ res₁ hkeys hexited hlast hr₁ hotros hqty hmax hsub
    refine ⟨hkeys, hexited, hlast, fun t => ?_, fun t res' ht => ?_, fun t ht => ?_⟩
    · unfold cantidades
      by_cases ht : t = r
      · subst ht
        rw [hr₁, hr]
        simp [hqty, hmax]
      · rw [hotros t ht]
        cases s.resources.get t <;> simp [Ne.symm ht]
    · by_cases htr : t = r
      · subst htr
        obtain rfl := Option.some.inj (hr₁.symm.trans ht)
        exact ⟨res, hr, hsub⟩
      · rw [hotros t htr] at ht
        exact ⟨res', ht, List.Sublist.refl _⟩
    · exact hotros t (by simpa using ht)
  have hotros : ∀ (d : Dict String Resource) (res₁ : Resource), (∀ t, t ≠ r →
      d.get t = s.resources.get t) → ∀ t, t ≠ r → (d.put r res₁).get t = s.resources.get t :=
    fun d res₁ h t ht => (Dict.get_put_of_ne _ ht _).trans (h t ht)
  have hquitar := hotros s.resources (contar res) fun t _ => rfl
  cases hS with
  | nadie =>
    exact hefecto _ _ hkeys rfl rfl (get_quitar s p pcb r res) hquitar rfl rfl (List.Sublist.refl _)
  | @muerto q rest hq _ _ =>
    refine hefecto _ _ hkeys rfl rfl (Dict.get_put_self ..) (hotros _ _ hquitar) rfl rfl ?_
    change rest.Sublist res.blockedPids
    rw [hq]
    exact List.sublist_cons_self q rest
  | @vivo q rest pcbq hq _ hpcbq =>
    refine hefecto _ _ ((keys_put hpcbq _).trans hkeys) rfl rfl (Dict.get_put_self ..)
      (hotros _ _ hquitar) rfl rfl ?_
    change rest.Sublist res.blockedPids
    rw [hq]
    exact List.sublist_cons_self q rest

theorem releaseResource_libera (h : Base s) (hp : s.plan.running.get p = some pcb)
    (hr : s.resources.get r = some res) (hmax : res.availableQty < res.maxQty) :
    ∃ s', releaseResource s p r = some s' ∧ Base s' ∧ Efecto s s' [r] := by
  obtain ⟨s', hs', hS⟩ := releaseResource_soltado h hp hr hmax
  exact ⟨s', hs', hS.base h hp hr, hS.efecto hp hr⟩

/-- A resource that does not exist, or that has all its instances. -/
def Llena (s : Estado) (r : String) : Prop :=
  ∀ res ∈ s.resources.get r, res.maxQty ≤ res.availableQty

/-- A release that is refused ends the process. -/
theorem releaseResource_rechazada (hp : s.plan.running.get p = some pcb) (hr : Llena s r) :
    releaseResource s p r = some (exitResourceNotFound (resourcesRelease s r).2 p) ∧
      (resourcesRelease s r).1 < 0 ∧ (resourcesRelease s r).2.plan = s.plan ∧
      (Base s → Base (resourcesRelease s r).2) := by
  cases hres : s.resources.get r with
  | none =>
    have hrel : resourcesRelease s r = (RESOURCE_NOT_DEFINED, s) := by
      rw [resourcesRelease, hres]
    rw [hrel]
    exact ⟨Senales.releaseResource_none hp hres, show RESOURCE_NOT_DEFINED < 0 by decide, rfl, id⟩
  | some res =>
    rw [Senales.resourcesRelease_llena hres (hr res hres)]
    exact ⟨Senales.releaseResource_llena hp hres (hr res hres),
      show ERROR_ON_ATOMIC_ASSIGNMENT < 0 by decide, rfl,
      fun h => h.setResource hres (List.Sublist.refl _)⟩

/-! ### The releases at the end of a process -/

/-- No counter gets above its maximum if an instance of each of `rs` comes back. -/
def Cabe (s : Estado) (rs : List String) : Prop :=
  ∀ r ∈ rs, ∀ res ∈ s.resources.get r, res.availableQty + rs.count r ≤ res.maxQty

theorem cabe_iff {rs : List String} : Cabe s rs ↔
    ∀ r ∈ rs, ∀ n, cantidades s r = some n → n.2 + rs.count r ≤ n.1 := by
  unfold Cabe cantidades
  constructor
  · intro h r hr n hn
    obtain ⟨res, hres, rfl⟩ := Option.map_eq_some_iff.mp hn
    exact h r hr res hres
  · intro h r hr res hres
    refine h r hr (res.maxQty, res.availableQty) ?_
    rw [Option.mem_def.mp hres]
    rfl

/-- After the first release the others are to fit. -/
theorem cabe_cons {rs : List String} (hr : s.resources.get r = some res)
    (hmax : res.availableQty < res.maxQty) (he : Efecto s s' [r]) :
    Cabe s (r :: rs) ↔ Cabe s' rs := by
  have hcount : ∀ t, (((r :: rs).count t : ℕ) : ℤ) = rs.count t + ([r].count t : ℕ) := fun t => by
    rw [List.count_cons, List.count_cons, List.count_nil]
    push_cast
    ring
  rw [cabe_iff, cabe_iff]
  constructor
  · intro h t ht n hn
    rw [he.cuenta] at hn
    obtain ⟨n₀, hn₀, rfl⟩ := Option.map_eq_some_iff.mp hn
    have := h t (List.mem_cons_of_mem _ ht) n₀ hn₀
    have := hcount t
    show n₀.2 + ([r].count t : ℕ) + rs.count t ≤ n₀.1
    omega
  · intro h t ht n hn
    by_cases hmem : t ∈ rs
    · have := h t hmem (n.1, n.2 + ([r].count t : ℕ)) (by rw [he.cuenta, hn]; rfl)
      simp only at this
      have := hcount t
      omega
    · obtain rfl : t = r := (List.mem_cons.mp ht).resolve_right hmem
      obtain rfl : (res.maxQty, res.availableQty) = n := by
        simpa [cantidades, hr] using hn
      have hcero : rs.count t = 0 := List.count_eq_zero.mpr hmem
      simp only [List.count_cons_self, hcero]
      push_cast
      omega

/-- **Every release goes through.** -/
theorem releaseResources_cabe : ∀ {rs : List String} {s : Estado}, Base s →
    (s.plan.running.get p).isSome → (∀ r ∈ rs, (s.resources.get r).isSome) → Cabe s rs →
    ∃ s', releaseResources p rs s = some s' ∧ Base s' ∧ Efecto s s' rs
  | [], s, h, _, _, _ => ⟨s, rfl, h, efecto_refl s⟩
  | r :: rs, s, h, hp, hdef, hc => by
    obtain ⟨pcb, hpcb⟩ := Option.isSome_iff_exists.mp hp
    obtain ⟨res, hr⟩ := Option.isSome_iff_exists.mp (hdef r (by simp))
    have hmax : res.availableQty < res.maxQty := by
      have := hc r (by simp) res hr
      rw [List.count_cons_self] at this
      omega
    obtain ⟨s₁, hs₁, h₁, he₁⟩ := releaseResource_libera h hpcb hr hmax
    have hdef₁ : ∀ t ∈ rs, (s₁.resources.get t).isSome :=
      fun t ht => (he₁.definido t).mpr (hdef t (List.mem_cons_of_mem _ ht))
    obtain ⟨s₂, hs₂, h₂, he₂⟩ := releaseResources_cabe h₁ ((he₁.vivo p).mpr hp) hdef₁
      ((cabe_cons hr hmax he₁).mp hc)
    refine ⟨s₂, ?_, h₂, he₁.trans he₂⟩
    rw [releaseResources, hs₁]
    exact hs₂

/-- **A release is refused**, which ends the process; if it is not the last one, there is a next
release of a process that is gone. -/
theorem releaseResources_no_cabe : ∀ {rs : List String} {s s' : Estado}, Base s →
    (s.plan.running.get p).isSome → (∀ r ∈ rs, (s.resources.get r).isSome) → ¬Cabe s rs →
    releaseResources p rs s = some s' → s'.plan.running.get p = none ∧
      s'.plan.exited = s.plan.exited ++ [(p, .PROC_EXIT_RESOURCE_NOT_FOUND)]
  | [], s, s', _, _, _, hc, _ => absurd (fun r hr => absurd hr (by simp)) hc
  | r :: rs, s, s', h, hp, hdef, hc, hs => by
    obtain ⟨pcb, hpcb⟩ := Option.isSome_iff_exists.mp hp
    obtain ⟨res, hr⟩ := Option.isSome_iff_exists.mp (hdef r (by simp))
    rw [releaseResources] at hs
    by_cases hmax : res.availableQty < res.maxQty
    · obtain ⟨s₁, hs₁, h₁, he₁⟩ := releaseResource_libera h hpcb hr hmax
      rw [hs₁] at hs
      have hdef₁ : ∀ t ∈ rs, (s₁.resources.get t).isSome :=
        fun t ht => (he₁.definido t).mpr (hdef t (List.mem_cons_of_mem _ ht))
      have hfin := releaseResources_no_cabe h₁ ((he₁.vivo p).mpr hp) hdef₁
        (mt (cabe_cons hr hmax he₁).mpr hc) hs
      rw [he₁.exited] at hfin
      exact hfin
    · have hllena : Llena s r := fun res' hr' => by
        obtain rfl := Option.some.inj (hr.symm.trans hr')
        exact not_lt.mp hmax
      obtain ⟨hs₀, -, hplan, -⟩ := releaseResource_rechazada hpcb hllena
      have hmuerto : (exitResourceNotFound (resourcesRelease s r).2 p).plan.running.get p = none :=
        Dict.get_remove_self ..
      rw [hs₀] at hs
      change releaseResources p rs (exitResourceNotFound (resourcesRelease s r).2 p) = some s' at hs
      cases rs with
      | nil =>
        obtain rfl := Option.some.inj hs
        refine ⟨hmuerto, ?_⟩
        rw [← hplan]
        rfl
      | cons r' rs' =>
        rw [releaseResources, releaseResource, findProcess, hmuerto] at hs
        exact absurd hs (by simp)

/-! ### Requests -/

theorem onExit_eq (hp : s.plan.running.get p = some pcb) (exitCode : OpCode) :
    onExit s p exitCode = (releaseResources p pcb.asignedResources s).map fun s₁ =>
      setPlan s₁ (exitProcess (removeProcess s₁.plan p) p exitCode) := by
  have hforce : forceExitProcess s p = releaseResources p pcb.asignedResources s := by
    rw [forceExitProcess, findProcess, hp]
    rfl
  rw [onExit, hforce]
  cases releaseResources p pcb.asignedResources s <;> rfl

theorem onExit_cabe (h : Base s) (hp : s.plan.running.get p = some pcb)
    (hc : Cabe s pcb.asignedResources) (exitCode : OpCode) :
    ∃ s₁, releaseResources p pcb.asignedResources s = some s₁ ∧ Base s₁ ∧
      Efecto s s₁ pcb.asignedResources ∧
      onExit s p exitCode = some (setPlan s₁ (exitProcess (removeProcess s₁.plan p) p exitCode)) := by
  obtain ⟨s₁, hs₁, h₁, he⟩ := releaseResources_cabe h (by rw [hp]; rfl) (h.asignados p pcb hp) hc
  refine ⟨s₁, hs₁, h₁, he, ?_⟩
  rw [onExit_eq hp, hs₁]
  rfl

/-- The process ends twice. -/
theorem onExit_no_cabe (h : Base s) (hp : s.plan.running.get p = some pcb)
    (hc : ¬Cabe s pcb.asignedResources) {exitCode : OpCode} (hs : onExit s p exitCode = some s') :
    s'.plan.exited =
      s.plan.exited ++ [(p, .PROC_EXIT_RESOURCE_NOT_FOUND), (p, exitCode)] := by
  rw [onExit_eq hp] at hs
  obtain ⟨s₁, hs₁, rfl⟩ := Option.map_eq_some_iff.mp hs
  have hfin := releaseResources_no_cabe h (by rw [hp]; rfl) (h.asignados p pcb hp) hc hs₁
  change s₁.plan.exited ++ [(p, exitCode)] = _
  rw [hfin.2, List.append_assoc]
  rfl

theorem releaseResource_base (h : Base s) (hs : releaseResource s p r = some s') : Base s' := by
  cases hp : s.plan.running.get p with
  | none =>
    rw [releaseResource, findProcess, hp] at hs
    exact absurd hs (by simp)
  | some pcb =>
    by_cases hmax : Llena s r
    · obtain ⟨hs₀, -, -, h₀⟩ := releaseResource_rechazada hp hmax
      obtain rfl := Option.some.inj (hs₀.symm.trans hs)
      exact (h₀ h).salir p _
    · unfold Llena at hmax
      push Not at hmax
      obtain ⟨res, hr, hmax⟩ := hmax
      obtain ⟨s₁, hs₁, h₁, -⟩ := releaseResource_libera h hp hr hmax
      obtain rfl := Option.some.inj (hs₁.symm.trans hs)
      exact h₁

theorem releaseResources_base : ∀ {rs : List String} {s : Estado}, Base s →
    releaseResources p rs s = some s' → Base s'
  | [], s, h, hs => by
    obtain rfl := Option.some.inj hs
    exact h
  | r :: rs, s, h, hs => by
    obtain ⟨s₁, hs₁, hs⟩ := Option.bind_eq_some_iff.mp hs
    exact releaseResources_base (releaseResource_base h hs₁) hs

theorem onExit_base (h : Base s) {exitCode : OpCode} (hs : onExit s p exitCode = some s') :
    Base s' := by
  obtain ⟨s₁, hs₁, hs⟩ := Option.bind_eq_some_iff.mp hs
  obtain ⟨pcb, -, hs₁⟩ := Option.bind_eq_some_iff.mp hs₁
  obtain rfl := Option.some.inj hs
  exact (releaseResources_base h hs₁).salir p exitCode

theorem onWait_base (h : Base s) (hp : s.plan.running.get p = some pcb)
    (hst : pcb.currentStatus = .EXEC) (hs : onWait s p r = some s') : Base s' := by
  cases hr : s.resources.get r with
  | none =>
    rw [Conservacion.onWait_none hp hr] at hs
    obtain rfl := Option.some.inj hs
    exact h.salir p _
  | some res =>
    rw [Conservacion.onWait_eq hp hr] at hs
    obtain rfl := Option.some.inj hs
    split_ifs
    · exact h.asignar hp hr hst
    · exact h.bloquear hp hr hst

theorem base_despachar (h : Base s) (hready : p ∈ s.plan.ready) :
    ∃ pcb, s.plan.running.get p = some pcb ∧ atender s (.despachar p) = some (setPlan s
      (setProcess (removeProcess s.plan p) p { pcb with currentStatus := .EXEC })) ∧
      Base (setPlan s (setProcess (removeProcess s.plan p) p { pcb with currentStatus := .EXEC })) := by
  obtain ⟨pcb, hp, hst, hdesp, hplan⟩ := h.planInv.despachar hready
  refine ⟨pcb, hp, by rw [atender, hdesp]; rfl, ?_⟩
  exact h.cambiarEstado hp (by rfl) (by rw [hst]; simp) hplan

theorem base_desalojar (h : Base s) (hex : enEjecucion s.plan p = some pcb) :
    atender s (.desalojar p) = some (setPlan s (readyProcess s.plan p pcb)) ∧
      Base (setPlan s (readyProcess s.plan p pcb)) := by
  obtain ⟨hp, hst⟩ := enEjecucion_eq_some.mp hex
  refine ⟨by rw [atender, onEvicted, hex]; rfl, ?_⟩
  exact h.cambiarEstado hp (by rfl) (by rw [hst]; simp) (h.planInv.ready hp (by rw [hst]; simp) pcb)

/-- **Every request keeps `Base`.** -/
theorem Base.atender (h : Base s) {a : Accion} (hprot : Protocolo s a)
    (hs : atender s a = some s') : Base s' := by
  cases a with
  | admitir =>
    obtain rfl := Option.some.inj hs
    exact h.admitir
  | despachar p =>
    obtain ⟨pcb, -, hs₁, h₁⟩ := base_despachar h hprot
    obtain rfl := Option.some.inj (hs₁.symm.trans hs)
    exact h₁
  | desalojar p =>
    obtain ⟨pcb, hex⟩ := Option.isSome_iff_exists.mp hprot
    obtain ⟨hs₁, h₁⟩ := base_desalojar h hex
    obtain rfl := Option.some.inj (hs₁.symm.trans hs)
    exact h₁
  | wait p r =>
    obtain ⟨pcb, hex, hs⟩ := Option.bind_eq_some_iff.mp hs
    obtain ⟨hp, hst⟩ := enEjecucion_eq_some.mp hex
    exact onWait_base h hp hst hs
  | signal p r =>
    obtain ⟨pcb, -, hs⟩ := Option.bind_eq_some_iff.mp hs
    exact releaseResource_base h hs
  | exit p exitCode =>
    obtain ⟨pcb, -, hs⟩ := Option.bind_eq_some_iff.mp hs
    exact onExit_base h hs
  | finalizar p =>
    rw [Recursos.atender, handleForceProcessExit] at hs
    cases hp : findProcess s.plan p with
    | none =>
      simp only [hp] at hs
      obtain rfl := Option.some.inj hs
      exact h
    | some pcb =>
      simp only [hp] at hs
      split_ifs at hs
      · obtain rfl := Option.some.inj hs
        exact ⟨h.planInv.interrumpir p _, h.asignados, h.cola, h.nodup, h.pids⟩
      · exact onExit_base h hs

end

end OperatingSystem.Kernel.Liberaciones
