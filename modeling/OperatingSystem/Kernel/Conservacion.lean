import OperatingSystem.Kernel.Recursos
import OperatingSystem.Lib.Lists
import OperatingSystem.Lib.Run

/-! # Conservation of resource instances

`Inv` ties the two counters of every resource to the instances the live processes hold (`held`) and to
its queue, which has exactly the processes blocked on it. Every request changes one process and one
resource at a time: `quitar` takes an instance away, `dar` hands one to the head of the queue,
`asignar` and `bloquear` are the two outcomes of a `WAIT`. `Inv.cambiar` says once under which conditions
such a change keeps the invariant.

The main result `conservacion` is that the counters are right after every run, as long as no process is
killed while it is queued, none asks for a resource that does not exist while it holds others, and a
`SIGNAL` finds the instance it names before any other of that name in upper or lower case. -/

namespace OperatingSystem.Kernel.Conservacion

open OperatingSystem.Lib.Dictionary OperatingSystem.Lib.Lists OperatingSystem.Lib.Run
open OperatingSystem.Kernel.Proceso OperatingSystem.Kernel.Recursos

/-! ### The invariant -/

/-- The process is blocked on the resource. -/
def Espera (pcb : Pcb) (r : String) : Prop :=
  pcb.currentStatus = .BLOCK ∧ pcb.blockedByResourceName = some r

instance (pcb : Pcb) (r : String) : Decidable (Espera pcb r) := by unfold Espera; infer_instance

/-- The instances of `r` that the live processes hold. -/
def held (s : Estado) (r : String) : ℤ := s.plan.running.sum fun pcb => pcb.asignedResources.count r

/-- The live processes blocked on `r`. -/
def waiting (s : Estado) (r : String) : ℤ :=
  s.plan.running.sum fun pcb => if Espera pcb r then 1 else 0

/-- **The invariant of the kernel's resources.** -/
structure Inv (s : Estado) : Prop where
  cuenta : ∀ r res, s.resources.get r = some res →
    res.availableQty = res.maxQty - held s r - res.blockedPids.length ∧
      res.availableInstances = res.maxQty - held s r
  nodup : ∀ r res, s.resources.get r = some res → res.blockedPids.Nodup
  cola : ∀ r res, s.resources.get r = some res →
    ∀ q, q ∈ res.blockedPids ↔ ∃ pcb, s.plan.running.get q = some pcb ∧ Espera pcb r
  asignados : ∀ q pcb, s.plan.running.get q = some pcb →
    ∀ r ∈ pcb.asignedResources, (s.resources.get r).isSome
  planInv : PlanInv s.plan

/-- One process and one resource change, and the queue of the planner. -/
def cambio (s : Estado) (p : ℤ) (pcb : Pcb) (ready : List ℤ) (r : String) (res : Resource) : Estado :=
  ⟨{ s.plan with running := s.plan.running.put p pcb, ready := ready }, s.resources.put r res⟩

section

variable {s : Estado} {p : ℤ} {pcb pcb' : Pcb} {ready : List ℤ} {r : String} {res res' : Resource}

theorem held_cambio (hp : s.plan.running.get p = some pcb) (t : String) :
    held (cambio s p pcb' ready r res') t =
      held s t - pcb.asignedResources.count t + pcb'.asignedResources.count t :=
  Dict.sum_put_of_some hp pcb' _

/-- **One change keeps the invariant** if the counters of the resource follow what the process gains
and what the queue loses. -/
theorem Inv.cambiar (h : Inv s) (hp : s.plan.running.get p = some pcb)
    (hr : s.resources.get r = some res) (d : ℤ)
    (hcount : (pcb'.asignedResources.count r : ℤ) = pcb.asignedResources.count r + d)
    (hotros : ∀ t, t ≠ r → pcb'.asignedResources.count t = pcb.asignedResources.count t)
    (hmax : res'.maxQty = res.maxQty)
    (hqty : res'.availableQty + res'.blockedPids.length =
      res.availableQty + res.blockedPids.length - d)
    (hinst : res'.availableInstances = res.availableInstances - d)
    (hnd : res'.blockedPids.Nodup)
    (hcola : ∀ q, q ∈ res'.blockedPids ↔ if q = p then Espera pcb' r else q ∈ res.blockedPids)
    (hespera : ∀ t, t ≠ r → (Espera pcb' t ↔ Espera pcb t))
    (hplan : PlanInv (cambio s p pcb' ready r res').plan) : Inv (cambio s p pcb' ready r res') := by
  have hheld : ∀ t, held (cambio s p pcb' ready r res') t = held s t + if t = r then d else 0 := by
    intro t
    rw [held_cambio hp]
    by_cases ht : t = r
    · subst ht
      rw [hcount, if_pos rfl]
      omega
    · rw [hotros t ht, if_neg ht]
      omega
  refine ⟨fun t res₁ ht => ?_, fun t res₁ ht => ?_, fun t res₁ ht q => ?_, fun q pcb₁ hq t ht => ?_,
    hplan⟩
  · rw [hheld]
    rcases Dict.get_put_eq_some.mp ht with ⟨rfl, rfl⟩ | ⟨htr, ht⟩
    · have := h.cuenta t res hr
      rw [if_pos rfl]
      omega
    · rw [if_neg htr, add_zero]
      exact h.cuenta t res₁ ht
  · rcases Dict.get_put_eq_some.mp ht with ⟨rfl, rfl⟩ | ⟨-, ht⟩
    · exact hnd
    · exact h.nodup t res₁ ht
  · rcases Dict.get_put_eq_some.mp ht with ⟨rfl, rfl⟩ | ⟨htr, ht⟩
    · rw [hcola]
      by_cases hqp : q = p
      · subst hqp
        simp [cambio]
      · rw [if_neg hqp, h.cola t res hr]
        simp [cambio, hqp]
    · rw [h.cola t res₁ ht]
      by_cases hqp : q = p
      · subst hqp
        simp [cambio, hp, hespera t htr]
      · simp [cambio, hqp]
  · have hdef : (s.resources.get t).isSome := by
      by_cases htr : t = r
      · rw [htr, hr]; rfl
      · rcases Dict.get_put_eq_some.mp hq with ⟨rfl, rfl⟩ | ⟨-, hq⟩
        · refine h.asignados q pcb hp t (List.count_pos_iff.mp ?_)
          rw [← hotros t htr]
          exact List.count_pos_iff.mpr ht
        · exact h.asignados q pcb₁ hq t ht
    by_cases htr : t = r
    · simp [cambio, htr]
    · simpa [cambio, htr] using hdef

end

/-! ### What the functions do -/

/-- `p` gives an instance of `r` back. -/
def quitar (s : Estado) (p : ℤ) (pcb : Pcb) (r : String) (res : Resource) : Estado :=
  cambio s p (processRemoveResource pcb r) s.plan.ready r
    { res with
      availableQty := res.availableQty + 1
      availableInstances := res.availableInstances + 1 }

/-- The process `q`, first of the queue of `r`, gets an instance. -/
def dar (s : Estado) (q : ℤ) (pcb : Pcb) (r : String) (res : Resource) (rest : List ℤ) : Estado :=
  cambio s q { processAssignResource pcb r with currentStatus := .READY } (s.plan.ready ++ [q]) r
    { res with availableInstances := res.availableInstances - 1, blockedPids := rest }

/-- `p` takes a free instance of `r`. -/
def asignar (s : Estado) (p : ℤ) (pcb : Pcb) (r : String) (res : Resource) : Estado :=
  cambio s p { processAssignResource pcb r with currentStatus := .READY } (s.plan.ready ++ [p]) r
    { res with
      availableQty := res.availableQty - 1
      availableInstances := res.availableInstances - 1 }

/-- `p` joins the queue of `r`. -/
def bloquear (s : Estado) (p : ℤ) (pcb : Pcb) (r : String) (res : Resource) : Estado :=
  cambio s p { pcb with currentStatus := .BLOCK, blockedByResourceName := some r } s.plan.ready r
    { res with
      availableQty := res.availableQty - 1
      blockedPids := res.blockedPids ++ [p] }

section

variable {s : Estado} {p q : ℤ} {pcb : Pcb} {r : String} {res : Resource} {rest : List ℤ}

theorem addResourceInstances_eq (hr : s.resources.get r = some res) (n : ℤ) :
    addResourceInstances s r n =
      setResource s r { res with availableInstances := res.availableInstances + n } := by
  rw [addResourceInstances, hr]

theorem get_setResource (s : Estado) (r : String) (res : Resource) :
    (setResource s r res).resources.get r = some res := Dict.get_put_self ..

theorem setResource_setResource (s : Estado) (r : String) (res res' : Resource) :
    setResource (setResource s r res) r res' = setResource s r res' := by
  simp [setResource]

/-- Without a queue nobody is woken up. -/
theorem assignResource_nil (hr : s.resources.get r = some res) (hq : res.blockedPids = []) :
    assignResourceToQueuedProcess s r = s := by
  simp [assignResourceToQueuedProcess, resourcesNextPid, hr, hq, INEXISTENT_NEXT_PID]

/-- The first of the queue is woken up. -/
theorem assignResource_cons (hr : s.resources.get r = some res)
    (hq : res.blockedPids = q :: rest) (hpos : 0 < q) (hpcb : s.plan.running.get q = some pcb) :
    assignResourceToQueuedProcess s r = dar s q pcb r res rest := by
  have hnext : resourcesNextPid s r = (q, setResource s r { res with blockedPids := rest }) := by
    simp [resourcesNextPid, hr, hq]
  have hfind : findProcess (setResource s r { res with blockedPids := rest }).plan q = some pcb := hpcb
  rw [assignResourceToQueuedProcess, hnext]
  simp only [if_pos hpos, hfind]
  rw [addResourceInstances_eq (get_setResource ..), setResource_setResource]
  rfl

/-- What `resources_release` answers: `0` unless processes are still waiting afterwards. -/
theorem resourcesRelease_eq (hr : s.resources.get r = some res)
    (hmax : res.availableQty + 1 ≤ res.maxQty) :
    resourcesRelease s r = (if 0 ≤ res.availableQty + 1 then 0 else -(res.availableQty + 1),
      setResource s r { res with availableQty := res.availableQty + 1 }) := by
  rw [resourcesRelease, hr]
  simp only [if_neg (not_lt.mpr hmax)]
  split_ifs with h1 h2 h3
  · rfl
  · omega
  · rw [show res.availableQty + 1 = 0 by omega]
    rfl
  · rfl

/-- **A release** takes the instance away, and wakes somebody up if nobody or one was queued. -/
theorem releaseResource_eq (hp : s.plan.running.get p = some pcb)
    (hr : s.resources.get r = some res) (hmax : res.availableQty + 1 ≤ res.maxQty) :
    releaseResource s p r = some (if 0 ≤ res.availableQty + 1
      then assignResourceToQueuedProcess (quitar s p pcb r res) r else quitar s p pcb r res) := by
  have hquitar : setPlan (addResourceInstances
      (setResource s r { res with availableQty := res.availableQty + 1 }) r 1)
      (setProcess s.plan p (processRemoveResource pcb r)) = quitar s p pcb r res := by
    rw [addResourceInstances_eq (get_setResource ..), setResource_setResource]
    rfl
  have hplan : (addResourceInstances
      (setResource s r { res with availableQty := res.availableQty + 1 }) r 1).plan = s.plan := by
    rw [addResourceInstances_eq (get_setResource ..)]
    rfl
  rw [releaseResource, findProcess, hp, resourcesRelease_eq hr hmax]
  simp only [Option.bind_eq_bind, Option.bind_some, hplan, hquitar]
  by_cases ha : 0 ≤ res.availableQty + 1
  · simp [ha]
  · rw [if_neg ha, if_pos (by omega), if_neg (by omega), if_neg ha]
    rfl

/-- **A wait** takes a free instance, or joins the queue. -/
theorem onWait_eq (hp : s.plan.running.get p = some pcb) (hr : s.resources.get r = some res) :
    onWait s p r =
      some (if 0 < res.availableQty then asignar s p pcb r res else bloquear s p pcb r res) := by
  rw [onWait, findProcess, hp, resourcesRequest, hr]
  by_cases ha : 0 < res.availableQty
  · simp only [Option.bind_eq_bind, Option.bind_some, if_pos ha,
      if_pos (show 0 ≤ res.availableQty - 1 by omega), le_refl, if_true]
    rw [addResourceInstances_eq (get_setResource ..), setResource_setResource]
    rfl
  · simp only [Option.bind_eq_bind, Option.bind_some, if_neg ha,
      if_neg (show ¬ 0 ≤ res.availableQty - 1 by omega),
      if_pos (show 0 ≤ -(res.availableQty - 1) by omega),
      if_neg (show ¬ -(res.availableQty - 1) = 0 by omega)]
    rfl

/-- A wait for a resource that does not exist ends the process. -/
theorem onWait_none (hp : s.plan.running.get p = some pcb) (hr : s.resources.get r = none) :
    onWait s p r = some (exitResourceNotFound s p) := by
  rw [onWait, findProcess, hp, resourcesRequest, hr]
  rfl

/-! ### The four changes keep the invariant -/

/-- The first entry of the name is the resource itself. -/
def Primero (pcb : Pcb) (r : String) : Prop :=
  pcb.asignedResources.find? (stringEqualsIgnoreCase · r) = some r

theorem Inv.quitar (h : Inv s) (hp : s.plan.running.get p = some pcb)
    (hr : s.resources.get r = some res) (hpri : Primero pcb r) :
    Inv (quitar s p pcb r res) := by
  have hmem : r ∈ pcb.asignedResources := List.mem_of_find?_eq_some hpri
  have hcount := List.count_pos_iff.mpr hmem
  refine h.cambiar hp hr (-1) ?_ ?_ rfl ?_ ?_ (h.nodup r res hr) ?_ ?_
    (h.planInv.mismoEstado hp rfl)
  · rw [processRemoveResource, eraseP_of_find? hpri, List.count_erase_self]
    omega
  · intro t ht
    rw [processRemoveResource, eraseP_of_find? hpri, List.count_erase_of_ne ht]
  · simp; omega
  · simp
  · intro q
    by_cases hqp : q = p
    · subst hqp
      rw [if_pos rfl, h.cola r res hr]
      simp [hp, Espera, processRemoveResource]
    · rw [if_neg hqp]
  · exact fun t _ => Iff.rfl

/-- A new entry at the end. -/
theorem count_asignado (pcb : Pcb) (r t : String) :
    (processAssignResource pcb r).asignedResources.count t =
      pcb.asignedResources.count t + if t = r then 1 else 0 := by
  rw [processAssignResource, List.count_append]
  by_cases ht : t = r
  · simp [ht]
  · simp [ht, Ne.symm ht]

theorem Inv.dar (h : Inv s) (hr : s.resources.get r = some res)
    (hq : res.blockedPids = q :: rest) (hpcb : s.plan.running.get q = some pcb) :
    Inv (dar s q pcb r res rest) := by
  have hesp : Espera pcb r := by
    obtain ⟨pcb₁, h1, h2⟩ := (h.cola r res hr q).mp (by simp [hq])
    obtain rfl := Option.some.inj (hpcb.symm.trans h1)
    exact h2
  have hnd := h.nodup r res hr
  rw [hq] at hnd
  obtain ⟨hqr, hrest⟩ := List.nodup_cons.mp hnd
  have hplan := h.planInv.ready hpcb (by rw [hesp.1]; simp) (processAssignResource pcb r)
  refine h.cambiar hpcb hr 1 ?_ ?_ rfl ?_ rfl hrest ?_ ?_ hplan
  · simp [count_asignado]
  · exact fun t ht => by simp [count_asignado, ht]
  · simp [hq]; omega
  · intro x
    by_cases hx : x = q
    · subst hx
      simp [hqr, Espera]
    · simp [hq, hx]
  · intro t ht
    simp [Espera, hesp.2, Ne.symm ht]

/-- A process in the CPU is in no queue. -/
theorem Inv.not_mem_cola (h : Inv s) (hp : s.plan.running.get p = some pcb)
    (hr : s.resources.get r = some res) (hst : pcb.currentStatus = .EXEC) :
    p ∉ res.blockedPids := fun hm => by
  obtain ⟨pcb₁, h1, h2, -⟩ := (h.cola r res hr p).mp hm
  obtain rfl := Option.some.inj (hp.symm.trans h1)
  exact absurd (hst.symm.trans h2) (by decide)

theorem Inv.asignar (h : Inv s) (hp : s.plan.running.get p = some pcb)
    (hr : s.resources.get r = some res) (hst : pcb.currentStatus = .EXEC) :
    Inv (asignar s p pcb r res) := by
  have hplan := h.planInv.ready hp (by rw [hst]; simp) (processAssignResource pcb r)
  have hcola := h.not_mem_cola hp hr hst
  refine h.cambiar hp hr 1 ?_ ?_ rfl ?_ rfl (h.nodup r res hr) ?_ ?_ hplan
  · simp [count_asignado]
  · exact fun t ht => by simp [count_asignado, ht]
  · simp; omega
  · intro x
    by_cases hx : x = p
    · subst hx
      simp [hcola, Espera]
    · simp [hx]
  · intro t _
    simp [Espera, hst]

theorem Inv.bloquear (h : Inv s) (hp : s.plan.running.get p = some pcb)
    (hr : s.resources.get r = some res) (hst : pcb.currentStatus = .EXEC) :
    Inv (bloquear s p pcb r res) := by
  have hplan := h.planInv.put_fuera hp (by rw [hst]; simp)
    { pcb with currentStatus := .BLOCK, blockedByResourceName := some r }
  have hcola := h.not_mem_cola hp hr hst
  have hnd : (res.blockedPids ++ [p]).Nodup := List.nodup_append.mpr
    ⟨h.nodup r res hr, by simp, by simpa using fun x hx (he : x = p) => hcola (he ▸ hx)⟩
  refine h.cambiar hp hr 0 (by simp) (fun _ _ => rfl) rfl ?_ (by simp) hnd ?_ ?_ hplan
  · simp
  · intro x
    by_cases hx : x = p
    · subst hx
      simp [Espera]
    · simp [hx]
  · intro t ht
    simp [Espera, hst, Ne.symm ht]

theorem held_cambiarEstado (hp : s.plan.running.get p = some pcb) {pcb' : Pcb} {ready : List ℤ}
    (hasig : pcb'.asignedResources = pcb.asignedResources) (t : String) :
    held (setPlan s { s.plan with running := s.plan.running.put p pcb', ready := ready }) t =
      held s t := by
  refine (Dict.sum_put_of_some hp pcb' _).trans ?_
  rw [hasig, held]
  omega

/-- A process changes its status only, and not to or from waiting for a resource. -/
theorem Inv.cambiarEstado (h : Inv s) (hp : s.plan.running.get p = some pcb) {pcb' : Pcb}
    {ready : List ℤ} (hasig : pcb'.asignedResources = pcb.asignedResources)
    (hespera : ∀ t, Espera pcb' t ↔ Espera pcb t)
    (hplan : PlanInv { s.plan with running := s.plan.running.put p pcb', ready := ready }) :
    Inv (setPlan s { s.plan with running := s.plan.running.put p pcb', ready := ready }) := by
  refine ⟨fun t res₁ ht => ?_, h.nodup, fun t res₁ ht q => ?_, fun q pcb₁ hq t ht => ?_, hplan⟩
  · rw [held_cambiarEstado hp hasig]
    exact h.cuenta t res₁ ht
  · rw [h.cola t res₁ ht]
    by_cases hqp : q = p
    · subst hqp
      simp [setPlan, hp, hespera]
    · simp [setPlan, hqp]
  · rcases Dict.get_put_eq_some.mp hq with ⟨rfl, rfl⟩ | ⟨-, hq⟩
    · exact h.asignados q pcb hp t (hasig ▸ ht)
    · exact h.asignados q pcb₁ hq t ht

theorem held_salir (hp : s.plan.running.get p = some pcb) (hasig : pcb.asignedResources = [])
    (exitCode : OpCode) (t : String) :
    held (setPlan s (exitProcess (removeProcess s.plan p) p exitCode)) t = held s t := by
  refine (Dict.sum_remove hp _).trans ?_
  rw [hasig, held]
  simp

/-- A process that holds nothing and waits for nothing may leave. -/
theorem Inv.salir (h : Inv s) (hp : s.plan.running.get p = some pcb)
    (hasig : pcb.asignedResources = []) (hnb : ∀ t, ¬ Espera pcb t) (exitCode : OpCode) :
    Inv (setPlan s (exitProcess (removeProcess s.plan p) p exitCode)) := by
  have hvivo : ∀ {q pcb₁}, (s.plan.running.remove p).get q = some pcb₁ →
      q ≠ p ∧ s.plan.running.get q = some pcb₁ := fun {q pcb₁} hq => by
    have hqp : q ≠ p := by rintro rfl; simp at hq
    exact ⟨hqp, by simpa [hqp] using hq⟩
  refine ⟨fun t res₁ ht => ?_, h.nodup, fun t res₁ ht q => ?_,
    fun q pcb₁ hq => h.asignados q pcb₁ (hvivo hq).2, h.planInv.salir p exitCode⟩
  · rw [held_salir hp hasig]
    exact h.cuenta t res₁ ht
  · rw [h.cola t res₁ ht]
    by_cases hqp : q = p
    · subst hqp
      simp [setPlan, exitProcess, hp, hnb]
    · simp [setPlan, exitProcess, removeProcess, hqp]

/-! ### Requests -/

/-- The resources and their numbers of instances stay the configured ones. -/
def MismasInstancias (s s' : Estado) : Prop :=
  ∀ r, (s'.resources.get r).map Resource.maxQty = (s.resources.get r).map Resource.maxQty

theorem MismasInstancias.trans {s s' s'' : Estado} (h : MismasInstancias s s')
    (h' : MismasInstancias s' s'') : MismasInstancias s s'' := fun r => (h' r).trans (h r)

theorem mismasInstancias_cambio (hr : s.resources.get r = some res) {res' : Resource}
    (hmax : res'.maxQty = res.maxQty) (p : ℤ) (pcb : Pcb) (ready : List ℤ) :
    MismasInstancias s (cambio s p pcb ready r res') := fun t => by
  by_cases ht : t = r
  · subst ht
    simp [cambio, hr, hmax]
  · simp [cambio, ht]

/-- **The outcomes of a release**: nobody is woken up, or the first of the queue is. -/
def Suelta (s : Estado) (p : ℤ) (pcb : Pcb) (r : String) (res : Resource) (s' : Estado) : Prop :=
  ((res.blockedPids = [] ∨ res.availableQty + 1 < 0) ∧ s' = quitar s p pcb r res) ∨
  ∃ q rest pcbq res', res.blockedPids = q :: rest ∧ 0 ≤ res.availableQty + 1 ∧
    (quitar s p pcb r res).plan.running.get q = some pcbq ∧
    (quitar s p pcb r res).resources.get r = some res' ∧
    s' = dar (quitar s p pcb r res) q pcbq r res' rest

/-- An instance that is held is missing from the counter. -/
theorem availableQty_lt (h : Inv s) (hp : s.plan.running.get p = some pcb)
    (hr : s.resources.get r = some res) (hmem : r ∈ pcb.asignedResources) :
    res.availableQty + 1 ≤ res.maxQty := by
  have hcount := List.count_pos_iff.mpr hmem
  have hle : (pcb.asignedResources.count r : ℤ) ≤ held s r :=
    Dict.le_sum (f := fun pcb => (pcb.asignedResources.count r : ℤ)) (by simp) hp
  have := (h.cuenta r res hr).1
  omega

theorem releaseResource_cases (h : Inv s) (hp : s.plan.running.get p = some pcb)
    (hr : s.resources.get r = some res) (hpri : Primero pcb r) :
    ∃ s', releaseResource s p r = some s' ∧ Suelta s p pcb r res s' := by
  have hmem : r ∈ pcb.asignedResources := List.mem_of_find?_eq_some hpri
  refine ⟨_, releaseResource_eq hp hr (availableQty_lt h hp hr hmem), ?_⟩
  by_cases ha : 0 ≤ res.availableQty + 1
  · rw [if_pos ha]
    have hr' : (quitar s p pcb r res).resources.get r = _ := Dict.get_put_self ..
    cases hq : res.blockedPids with
    | nil => exact Or.inl ⟨Or.inl hq, assignResource_nil hr' hq⟩
    | cons q rest =>
      have hquitar := h.quitar hp hr hpri
      obtain ⟨pcbq, hpcbq, -⟩ := (hquitar.cola r _ hr' q).mp (by simp [hq])
      exact Or.inr ⟨q, rest, pcbq, _, hq, ha, hpcbq, hr',
        assignResource_cons hr' hq (hquitar.planInv.pids q pcbq hpcbq).1 hpcbq⟩
  · rw [if_neg ha]
    exact Or.inl ⟨Or.inr (by omega), rfl⟩

/-- A release keeps the invariant, and the process goes on without the instance. -/
theorem Suelta.inv {s' : Estado} (h : Inv s) (hp : s.plan.running.get p = some pcb)
    (hr : s.resources.get r = some res) (hpri : Primero pcb r) (hnb : ¬ Espera pcb r)
    (hs : Suelta s p pcb r res s') : Inv s' ∧ MismasInstancias s s' ∧
      s'.plan.running.get p = some (processRemoveResource pcb r) := by
  have hquitar := h.quitar hp hr hpri
  have hmismas : MismasInstancias s (quitar s p pcb r res) :=
    mismasInstancias_cambio hr (by rfl) _ _ _
  have hp' : (quitar s p pcb r res).plan.running.get p =
    some (processRemoveResource pcb r) := Dict.get_put_self ..
  obtain ⟨-, rfl⟩ | ⟨q, rest, pcbq, res', hq, -, hpcbq, hr', rfl⟩ := hs
  · exact ⟨hquitar, hmismas, hp'⟩
  · have hq' : res'.blockedPids = q :: rest := by
      obtain rfl := Option.some.inj ((Dict.get_put_self ..).symm.trans hr')
      exact hq
    refine ⟨hquitar.dar hr' hq' hpcbq, hmismas.trans (mismasInstancias_cambio hr' (by rfl) _ _ _), ?_⟩
    -- the process woken up is blocked, so it is another one
    have hpq : p ≠ q := by
      rintro rfl
      obtain ⟨pcb₁, h1, h2⟩ := (hquitar.cola r res' hr' p).mp (by simp [hq'])
      obtain rfl := Option.some.inj (hp'.symm.trans h1)
      exact hnb h2
    exact (Dict.get_put_of_ne _ hpq _).trans hp'

/-- The first of the instances of a process is the first of its name. -/
theorem primero_cons {rs : List String} (h : pcb.asignedResources = r :: rs) : Primero pcb r := by
  simp [Primero, h, stringEqualsIgnoreCase_self]

theorem asigned_remove_cons {rs : List String} (h : pcb.asignedResources = r :: rs) :
    (processRemoveResource pcb r).asignedResources = rs := by
  simp [processRemoveResource, h, stringEqualsIgnoreCase_self]

/-- **`force_exit_process`** gives every instance back. -/
theorem releaseResources_spec : ∀ {rs : List String} {s : Estado} {pcb : Pcb}, Inv s →
    s.plan.running.get p = some pcb → pcb.asignedResources = rs → (∀ t, ¬ Espera pcb t) →
    ∃ s' pcb', releaseResources p rs s = some s' ∧ Inv s' ∧ MismasInstancias s s' ∧
      s'.plan.running.get p = some pcb' ∧ pcb'.asignedResources = [] ∧ ∀ t, ¬ Espera pcb' t
  | [], s, pcb, h, hp, hrs, hnb => ⟨s, pcb, rfl, h, fun _ => rfl, hp, hrs, hnb⟩
  | r :: rs, s, pcb, h, hp, hrs, hnb => by
    obtain ⟨res, hr⟩ := Option.isSome_iff_exists.mp (h.asignados p pcb hp r (by simp [hrs]))
    obtain ⟨s₁, hs₁, hsuelta⟩ := releaseResource_cases h hp hr (primero_cons hrs)
    obtain ⟨h₁, hm₁, hp₁⟩ := hsuelta.inv h hp hr (primero_cons hrs) (hnb r)
    obtain ⟨s₂, pcb₂, hs₂, h₂, hm₂, hp₂, hrs₂, hnb₂⟩ :=
      releaseResources_spec h₁ hp₁ (asigned_remove_cons hrs) hnb
    exact ⟨s₂, pcb₂, by rw [releaseResources, hs₁]; exact hs₂, h₂, hm₁.trans hm₂, hp₂, hrs₂, hnb₂⟩

/-- **The end of a process** that is not blocked. -/
theorem onExit_spec (h : Inv s) (hp : s.plan.running.get p = some pcb)
    (hnb : ∀ t, ¬ Espera pcb t) (exitCode : OpCode) :
    ∃ s', onExit s p exitCode = some s' ∧ Inv s' ∧ MismasInstancias s s' := by
  obtain ⟨s₁, pcb₁, hs₁, h₁, hm₁, hp₁, hrs₁, hnb₁⟩ := releaseResources_spec h hp rfl hnb
  refine ⟨_, ?_, h₁.salir hp₁ hrs₁ hnb₁ exitCode, hm₁⟩
  have hforce : forceExitProcess s p = some s₁ := by
    rw [forceExitProcess, findProcess, hp]
    exact hs₁
  rw [onExit, hforce]
  rfl

theorem held_admitir (h : Inv s) (t : String) :
    held (setPlan s (Proceso.admitir s.plan)) t = held s t := by
  refine (Dict.sum_put_of_none h.planInv.fresh _ _).trans ?_
  simp [held, createNewPcb]

/-- A new process holds nothing and waits for nothing. -/
theorem Inv.admitir (h : Inv s) : Inv (setPlan s (Proceso.admitir s.plan)) := by
  have hfresh := h.planInv.fresh
  refine ⟨fun t res₁ ht => ?_, h.nodup, fun t res₁ ht q => ?_, fun q pcb₁ hq t ht => ?_,
    h.planInv.admitir⟩
  · rw [held_admitir h]
    exact h.cuenta t res₁ ht
  · rw [h.cola t res₁ ht]
    by_cases hqp : q = s.plan.lastPid + 1
    · subst hqp
      simp [setPlan, Proceso.admitir, readyProcess, hfresh, Espera, createNewPcb]
    · simp [setPlan, Proceso.admitir, readyProcess, hqp]
  · rcases Dict.get_put_eq_some.mp hq with ⟨rfl, rfl⟩ | ⟨-, hq⟩
    · simp [createNewPcb] at ht
    · exact h.asignados q pcb₁ hq t ht

/-- The processes do as they say: only what the CPU runs asks for something, and a process releases
what it holds. -/
def Protocolo (s : Estado) : Accion → Prop
  | .admitir => True
  | .despachar pid => pid ∈ s.plan.ready
  | .desalojar pid => (enEjecucion s.plan pid).isSome
  | .wait pid _ => (enEjecucion s.plan pid).isSome
  | .signal pid r => ∃ pcb, enEjecucion s.plan pid = some pcb ∧ r ∈ pcb.asignedResources
  | .exit pid _ => (enEjecucion s.plan pid).isSome
  | .finalizar _ => True

/-- **When instances are conserved**: no process that holds others asks for a resource that does not
exist, a release finds the instance it names first, and no process is killed while it is queued. -/
def Condicion (s : Estado) : Accion → Prop
  | .wait pid r => (s.resources.get r).isSome ∨
      ∀ pcb, s.plan.running.get pid = some pcb → pcb.asignedResources = []
  | .signal pid r => ∀ pcb, s.plan.running.get pid = some pcb → Primero pcb r
  | .finalizar pid => ∀ pcb, s.plan.running.get pid = some pcb → ∀ r, ¬ Espera pcb r
  | _ => True

/-- The planner's queue has processes that can be run. -/
theorem despachar_eq (h : Inv s) (hready : p ∈ s.plan.ready) :
    ∃ pcb, s.plan.running.get p = some pcb ∧ pcb.currentStatus = .READY ∧
      atender s (.despachar p) = some (setPlan s (setProcess (removeProcess s.plan p) p
        { pcb with currentStatus := .EXEC })) := by
  obtain ⟨pcb, hp, hst, hdesp, -⟩ := h.planInv.despachar hready
  exact ⟨pcb, hp, hst, by rw [atender, hdesp]; rfl⟩

/-- **A request keeps the invariant.** -/
theorem atender_spec (h : Inv s) {a : Accion} (hprot : Protocolo s a) (hc : Condicion s a) :
    ∃ s', atender s a = some s' ∧ Inv s' ∧ MismasInstancias s s' := by
  have hexec : ∀ {pcb : Pcb}, pcb.currentStatus = .EXEC → ∀ t, ¬ Espera pcb t := fun hst t ht => by
    exact absurd (hst.symm.trans ht.1) (by decide)
  cases a with
  | admitir => exact ⟨_, rfl, h.admitir, fun _ => rfl⟩
  | despachar p =>
    obtain ⟨pcb, hp, hst, hdesp, hplan⟩ := h.planInv.despachar hprot
    have hinv : Inv (setPlan s (setProcess (removeProcess s.plan p) p
        { pcb with currentStatus := .EXEC })) :=
      h.cambiarEstado hp (by rfl) (fun t => by simp [Espera, hst]) hplan
    exact ⟨_, by rw [atender, hdesp]; rfl, hinv, fun _ => rfl⟩
  | desalojar p =>
    obtain ⟨pcb, hex⟩ := Option.isSome_iff_exists.mp hprot
    obtain ⟨hp, hst⟩ := enEjecucion_eq_some.mp hex
    have hinv : Inv (setPlan s (readyProcess s.plan p pcb)) :=
      h.cambiarEstado hp (by rfl) (fun t => by simp [Espera, hst])
        (h.planInv.ready hp (by rw [hst]; simp) pcb)
    exact ⟨_, by rw [atender, onEvicted, hex]; rfl, hinv, fun _ => rfl⟩
  | wait p r =>
    obtain ⟨pcb, hex⟩ := Option.isSome_iff_exists.mp hprot
    obtain ⟨hp, hst⟩ := enEjecucion_eq_some.mp hex
    rw [atender_wait hex]
    cases hr : s.resources.get r with
    | none =>
      have hasig : pcb.asignedResources = [] :=
        (hc.resolve_left (by rw [hr]; simp)) pcb hp
      exact ⟨_, onWait_none hp hr, h.salir hp hasig (hexec hst) _,
        fun _ => rfl⟩
    | some res =>
      refine ⟨_, onWait_eq hp hr, ?_⟩
      split_ifs
      · exact ⟨h.asignar hp hr hst, mismasInstancias_cambio hr (by rfl) _ _ _⟩
      · exact ⟨h.bloquear hp hr hst, mismasInstancias_cambio hr (by rfl) _ _ _⟩
  | signal p r =>
    obtain ⟨pcb, hex, hmem⟩ := hprot
    obtain ⟨hp, hst⟩ := enEjecucion_eq_some.mp hex
    obtain ⟨res, hr⟩ := Option.isSome_iff_exists.mp (h.asignados p pcb hp r hmem)
    obtain ⟨s', hs', hsuelta⟩ := releaseResource_cases h hp hr (hc pcb hp)
    obtain ⟨h', hm, -⟩ := hsuelta.inv h hp hr (hc pcb hp) (hexec hst r)
    exact ⟨s', (atender_signal hex r).trans hs', h', hm⟩
  | exit p exitCode =>
    obtain ⟨pcb, hex⟩ := Option.isSome_iff_exists.mp hprot
    obtain ⟨hp, hst⟩ := enEjecucion_eq_some.mp hex
    obtain ⟨s', hs', h', hm⟩ := onExit_spec h hp (hexec hst) exitCode
    exact ⟨s', (atender_exit hex exitCode).trans hs', h', hm⟩
  | finalizar p =>
    rw [atender, handleForceProcessExit, findProcess]
    cases hp : s.plan.running.get p with
    | none => exact ⟨s, rfl, h, fun _ => rfl⟩
    | some pcb =>
      by_cases hst : pcb.currentStatus = .EXEC
      · exact ⟨_, if_pos hst, ⟨h.cuenta, h.nodup, h.cola, h.asignados,
          h.planInv.interrumpir p .PROC_EXIT_FORCE⟩, fun _ => rfl⟩
      · obtain ⟨s', hs', h', hm⟩ := onExit_spec h hp (hc pcb hp) .PROC_EXIT_FORCE
        exact ⟨s', by simpa [hst] using hs', h', hm⟩

end

/-- The counters say how many instances the live processes hold and how many wait. -/
def Conservado (recursos : List (String × ℤ)) (s : Estado) : Prop :=
  ∀ r qty, (r, qty) ∈ recursos → ∃ res, s.resources.get r = some res ∧ res.maxQty = qty ∧
    res.availableQty = res.maxQty - held s r - waiting s r ∧
      res.availableInstances = res.maxQty - held s r

theorem Inv.conservado {s : Estado} (h : Inv s) {r : String} {res : Resource}
    (hr : s.resources.get r = some res) :
    res.availableQty = res.maxQty - held s r - waiting s r ∧
      res.availableInstances = res.maxQty - held s r := by
  have hcola : waiting s r = res.blockedPids.length :=
    Dict.sum_indicator (h.nodup r res hr) (h.cola r res hr)
  rw [hcola]
  exact h.cuenta r res hr

/-! ### Runs -/

/-- The dictionary holds a resource as configured. -/
theorem resourcesInitialize_get {recursos : List (String × ℤ)} {d : Dict String Resource} {r : String}
    {res : Resource} (h : (recursos.foldl (fun d r => d.put r.1 (resourceCreate r.2)) d).get r =
      some res) : d.get r = some res ∨ ∃ qty, res = resourceCreate qty := by
  induction recursos generalizing d with
  | nil => exact Or.inl h
  | cons rq recursos ih =>
    rcases ih h with h | h
    · by_cases hr : r = rq.1
      · subst hr
        exact Or.inr ⟨rq.2, by simpa using h.symm⟩
      · exact Or.inl (by simpa [hr] using h)
    · exact Or.inr h

/-- Every resource configured, under names that differ, is there. -/
theorem resourcesInitialize_mem {recursos : List (String × ℤ)} {d : Dict String Resource}
    {r : String} {qty : ℤ} (hnd : (recursos.map Prod.fst).Nodup)
    (h : (r, qty) ∈ recursos ∨ r ∉ recursos.map Prod.fst ∧ d.get r = some (resourceCreate qty)) :
    (recursos.foldl (fun d r => d.put r.1 (resourceCreate r.2)) d).get r =
      some (resourceCreate qty) := by
  induction recursos generalizing d with
  | nil => simpa using h
  | cons rq recursos ih =>
    rw [List.map_cons] at hnd
    obtain ⟨hrq, hnd⟩ := List.nodup_cons.mp hnd
    refine ih hnd ?_
    rcases h with h | ⟨h, hd⟩
    · rcases List.mem_cons.mp h with rfl | h
      · exact Or.inr ⟨hrq, Dict.get_put_self ..⟩
      · exact Or.inl h
    · simp only [List.map_cons, List.mem_cons, not_or] at h
      exact Or.inr ⟨h.2, (Dict.get_put_of_ne _ h.1 _).trans hd⟩

theorem inv_estadoInicial (recursos : List (String × ℤ)) : Inv (estadoInicial recursos) := by
  have hheld : ∀ r, held (estadoInicial recursos) r = 0 := fun _ => rfl
  have hres : ∀ r res, (estadoInicial recursos).resources.get r = some res →
      ∃ qty, res = resourceCreate qty := fun r res hr =>
    (resourcesInitialize_get hr).resolve_left (by simp)
  refine ⟨fun r res hr => ?_, fun r res hr => ?_, fun r res hr q => ?_, ?_, planInv_inicial⟩
  · obtain ⟨qty, rfl⟩ := hres r res hr
    rw [hheld]
    simp [resourceCreate]
  · obtain ⟨qty, rfl⟩ := hres r res hr
    exact List.nodup_nil
  · obtain ⟨qty, rfl⟩ := hres r res hr
    simp [resourceCreate, estadoInicial, planificadorInicial]
  · simp [estadoInicial, planificadorInicial]

/-- **Conservation.** The instances of every resource add up after every run. -/
theorem conservacion {recursos : List (String × ℤ)} (hdist : (recursos.map Prod.fst).Nodup)
    {as : List Accion}
    (h : Along atender (fun s a => Protocolo s a ∧ Condicion s a) (estadoInicial recursos) as) :
    ∃ s, exec atender (estadoInicial recursos) as = some s ∧ Conservado recursos s := by
  obtain ⟨s, hs, hinv, hm⟩ := exec_total
    (I := fun s => Inv s ∧ MismasInstancias (estadoInicial recursos) s)
    (fun s a hI hC => by
      obtain ⟨s', hs', hinv, hm⟩ := atender_spec hI.1 hC.1 hC.2
      exact ⟨s', hs', hinv, hI.2.trans hm⟩)
    ⟨inv_estadoInicial recursos, fun _ => rfl⟩ h
  refine ⟨s, hs, fun r qty hrq => ?_⟩
  have hini : (estadoInicial recursos).resources.get r = some (resourceCreate qty) :=
    resourcesInitialize_mem hdist (Or.inl hrq)
  obtain ⟨res, hr, hmax⟩ : ∃ res, s.resources.get r = some res ∧ res.maxQty = qty := by
    have := hm r
    rw [hini] at this
    exact Option.map_eq_some_iff.mp this
  exact ⟨res, hr, hmax, hinv.conservado hr⟩

/-- Two processes share a resource, and the one that holds it ends. -/
theorem conservacion_dosProcesos :
    ∃ s, exec atender (estadoInicial [("R1", 1)]) [.admitir, .admitir, .despachar 1, .wait 1 "R1",
        .despachar 2, .wait 2 "R1", .despachar 1, .exit 1 .PROC_EXIT_SUCCESS] = some s ∧
      Conservado [("R1", 1)] s :=
  conservacion (by decide) <|
    .of_step ⟨trivial, trivial⟩ rfl <|
    .of_step ⟨trivial, trivial⟩ rfl <|
    .of_step ⟨show _ ∈ _ by decide, trivial⟩ rfl <|
    .of_step ⟨rfl, Or.inl rfl⟩ rfl <|
    .of_step ⟨show _ ∈ _ by decide, trivial⟩ rfl <|
    .of_step ⟨rfl, Or.inl rfl⟩ rfl <|
    .of_step ⟨show _ ∈ _ by decide, trivial⟩ rfl <|
    .of_step ⟨rfl, trivial⟩ rfl trivial

/-- The counter is off when it is zero and nobody holds or waits for an instance. -/
theorem not_conservado {s : Estado} {r : String}
    (h : (s.resources.get r).map (fun res => (res.maxQty, res.availableQty)) = some (1, 0))
    (hheld : held s r = 0) (hwait : waiting s r = 0) : ¬ Conservado [(r, 1)] s := fun hc => by
  obtain ⟨res, hr, hmax, hqty, -⟩ := hc r 1 (by simp)
  rw [hr] at h
  obtain ⟨-, hcero⟩ := Prod.mk.inj (Option.some.inj h)
  omega

/-- **An instance is lost.** The console kills a process that waits for the only instance: its pid
stays in the queue, and the release by the holder gives the instance to nobody. -/
theorem finalizar_pierde_instancia :
    Along atender Protocolo (estadoInicial [("R1", 1)]) [.admitir, .admitir, .despachar 1,
        .wait 1 "R1", .despachar 2, .wait 2 "R1", .finalizar 2, .despachar 1,
        .exit 1 .PROC_EXIT_SUCCESS] ∧
      ∃ s, exec atender (estadoInicial [("R1", 1)]) [.admitir, .admitir, .despachar 1,
          .wait 1 "R1", .despachar 2, .wait 2 "R1", .finalizar 2, .despachar 1,
          .exit 1 .PROC_EXIT_SUCCESS] = some s ∧
        s.plan.running.keys = [] ∧ ¬ Conservado [("R1", 1)] s := by
  refine ⟨?_, _, rfl, by decide, not_conservado (by decide) (by decide) (by decide)⟩
  exact .of_step trivial rfl <| .of_step trivial rfl <| .of_step (show _ ∈ _ by decide) rfl <|
    .of_step rfl rfl <| .of_step (show _ ∈ _ by decide) rfl <| .of_step rfl rfl <|
    .of_step trivial rfl <| .of_step (show _ ∈ _ by decide) rfl <| .of_step rfl rfl trivial

end OperatingSystem.Kernel.Conservacion
