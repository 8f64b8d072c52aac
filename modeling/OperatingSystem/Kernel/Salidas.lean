import OperatingSystem.Kernel.Entregas
import OperatingSystem.Kernel.Liberaciones

/-! # Exits

A process that ends has to give every instance back first: `Liberan` are its releases, one for each
entry, of which each counts the instance and hands it to the first of the queue, and `Sale` is that they
come before `exit_process` and leave nothing behind.

`EXIT`, the exits that the CPU finds and `FINALIZAR_PROCESO` go through `force_exit_process`; a `WAIT` or
`SIGNAL` that is refused does not. The main result `salidas_iff` is when the exits of a run give
everything back. -/

namespace OperatingSystem.Kernel.Salidas

open OperatingSystem.Lib.Dictionary OperatingSystem.Lib.Run
open OperatingSystem.Kernel.Proceso OperatingSystem.Kernel.Recursos
open OperatingSystem.Kernel.Conservacion (quitar dar)
open OperatingSystem.Kernel.Entregas (Entrega)
open OperatingSystem.Kernel.Senales (cantidades)
open OperatingSystem.Kernel.Liberaciones

/-! ### What an exit has to do -/

/-- The counter goes up by one, and the first of the queue gets the instance. -/
def Libera (s : Estado) (r : String) (s' : Estado) : Prop :=
  (∃ res res', s.resources.get r = some res ∧ s'.resources.get r = some res' ∧
    res'.availableQty = res.availableQty + 1) ∧ Entrega s r s'

/-- The releases of a process. -/
def Liberan (p : ℤ) : List String → Estado → Estado → Prop
  | [], s, s' => s' = s
  | r :: rs, s, s' =>
    ∃ s₁, releaseResource s p r = some s₁ ∧ Libera s r s₁ ∧ Liberan p rs s₁ s'

/-- The process is in no queue, from which it could get an instance. -/
def SinCola (s : Estado) (p : ℤ) : Prop :=
  ∀ r, ∀ res ∈ s.resources.get r, p ∉ res.blockedPids

/-- **The process gives everything back and ends.** -/
def Sale (s : Estado) (p : ℤ) (exitCode : OpCode) (s' : Estado) : Prop :=
  ∃ pcb s₁ pcb₁, s.plan.running.get p = some pcb ∧ Liberan p pcb.asignedResources s s₁ ∧
    s₁.plan.running.get p = some pcb₁ ∧ pcb₁.asignedResources = [] ∧ SinCola s₁ p ∧
    s' = setPlan s₁ (exitProcess (removeProcess s₁.plan p) p exitCode)

/-- **What is promised of a request that ends a process**, by itself, from the console, or because
`resources.c` refuses it. -/
def Devuelve (s : Estado) : Accion → Prop
  | .exit p exitCode => ∃ s', atender s (.exit p exitCode) = some s' ∧ Sale s p exitCode s'
  | .finalizar p => ∀ pcb ∈ s.plan.running.get p, pcb.currentStatus ≠ .EXEC →
      ∃ s', atender s (.finalizar p) = some s' ∧ Sale s p .PROC_EXIT_FORCE s'
  | .wait p r => (resourcesRequest s r p).1 < 0 → ∃ s', atender s (.wait p r) = some s' ∧
      Sale (resourcesRequest s r p).2 p .PROC_EXIT_RESOURCE_NOT_FOUND s'
  | .signal p r => (resourcesRelease s r).1 < 0 → ∃ s', atender s (.signal p r) = some s' ∧
      Sale (resourcesRelease s r).2 p .PROC_EXIT_RESOURCE_NOT_FOUND s'
  | _ => True

/-- The instances fit below the maxima, and nobody is in the queue of one of the resources unless the
first release leaves the counter at zero or above. -/
def Reparte (s : Estado) (rs : List String) : Prop :=
  Cabe s rs ∧ ∀ r ∈ rs, ∀ res ∈ s.resources.get r, res.blockedPids = [] ∨ -1 ≤ res.availableQty

def Condicion (s : Estado) : Accion → Prop
  | .exit p _ => ∀ pcb ∈ s.plan.running.get p, Reparte s pcb.asignedResources
  | .finalizar p => ∀ pcb ∈ s.plan.running.get p, pcb.currentStatus ≠ .EXEC →
      SinCola s p ∧ Reparte s pcb.asignedResources
  | .wait p r => s.resources.get r = none →
      ∀ pcb ∈ s.plan.running.get p, pcb.asignedResources = []
  | .signal p r => Llena s r → ∀ pcb ∈ s.plan.running.get p, pcb.asignedResources = []
  | _ => True

/-! ### Queues of live processes -/

/-- Nobody in a queue was killed. -/
def Vivos (s : Estado) : Prop :=
  ∀ r res, s.resources.get r = some res → ∀ q ∈ res.blockedPids, (s.plan.running.get q).isSome

structure Inv (s : Estado) : Prop where
  base : Base s
  vivos : Vivos s

section

variable {s s' s₁ s₂ : Estado} {p q : ℤ} {pcb pcb' : Pcb} {r : String} {res : Resource}
  {rs : List String}

theorem sinCola_of_base (h : Base s) (hp : s.plan.running.get p = some pcb)
    (hst : pcb.currentStatus ≠ .BLOCK) : SinCola s p :=
  fun _ _ hres => h.not_mem_cola hp hst hres

theorem SinCola.efecto (h : SinCola s p) (he : Efecto s s' rs) : SinCola s' p := by
  intro r res' hr hmem
  obtain ⟨res, hres, hsub⟩ := he.colas r res' hr
  exact h r res hres (hsub.subset hmem)

/-- The queues get no longer, and who lives goes on living. -/
theorem Vivos.congr (h : Vivos s) (hcola : ∀ r res', s'.resources.get r = some res' →
      ∀ q ∈ res'.blockedPids, ∃ res, s.resources.get r = some res ∧ q ∈ res.blockedPids)
    (hvivo : ∀ r res, s.resources.get r = some res → ∀ q ∈ res.blockedPids,
      (s.plan.running.get q).isSome → (s'.plan.running.get q).isSome) : Vivos s' := by
  intro r res' hr q hmem
  obtain ⟨res, hres, hmem⟩ := hcola r res' hr q hmem
  exact hvivo r res hres q hmem (h r res hres q hmem)

theorem Vivos.efecto (h : Vivos s) (he : Efecto s s' rs) : Vivos s' := by
  refine h.congr (fun r res' hr q hmem => ?_) fun _ _ _ q _ hq => (he.vivo q).mpr hq
  obtain ⟨res, hres, hsub⟩ := he.colas r res' hr
  exact ⟨res, hres, hsub.subset hmem⟩

theorem Vivos.salir (h : Vivos s) (hno : SinCola s p) (exitCode : OpCode) :
    Vivos (setPlan s (exitProcess (removeProcess s.plan p) p exitCode)) := by
  refine h.congr (fun r res' hr q hmem => ⟨res', hr, hmem⟩) fun r res hr q hmem hq => ?_
  have hqp : q ≠ p := by
    rintro rfl
    exact hno r res hr hmem
  have hget : (s.plan.running.remove p).get q = s.plan.running.get q := Dict.get_remove_of_ne _ hqp
  rw [← hget] at hq
  exact hq

/-! ### One release -/

/-- The process goes on without the instance. -/
theorem Soltado.propio (hS : Soltado s p pcb r res s') (hno : p ∉ res.blockedPids) :
    s'.plan.running.get p = some (processRemoveResource pcb r) := by
  have hp' : (quitar s p pcb r res).plan.running.get p = some (processRemoveResource pcb r) :=
    Dict.get_put_self ..
  cases hS with
  | nadie => exact hp'
  | muerto => exact hp'
  | @vivo q rest pcbq hq _ _ =>
    have hne : p ≠ q := fun he => hno (by rw [hq, he]; simp)
    exact (Dict.get_put_of_ne _ hne _).trans hp'

/-- **A release serves the queue** if the counter does not stay below zero. -/
theorem libera_iff (hS : Soltado s p pcb r res s') (hr : s.resources.get r = some res)
    (hV : Vivos s) (hno : p ∉ res.blockedPids) :
    Libera s r s' ↔ res.blockedPids = [] ∨ -1 ≤ res.availableQty := by
  have hr' := get_quitar s p pcb r res
  have hquitar : ∀ {q}, q ≠ p → (quitar s p pcb r res).plan.running.get q =
      s.plan.running.get q := fun hq => Dict.get_put_of_ne _ hq _
  cases hS with
  | nadie h =>
    constructor
    · rintro ⟨-, hentrega⟩
      rcases h with h | h
      · exact Or.inl h
      · cases hq : res.blockedPids with
        | nil => exact Or.inl rfl
        | cons q rest =>
          -- the queue is as long as before
          obtain ⟨-, -, res', -, -, -, -, -, hres', hrest⟩ := hentrega res q rest hr hq
          obtain rfl := Option.some.inj (hr'.symm.trans hres')
          have hlen := congrArg List.length (hq.symm.trans hrest)
          simp at hlen
    · intro h'
      have hnil : res.blockedPids = [] := by
        rcases h' with h' | h'
        · exact h'
        · exact h.resolve_right (by omega)
      refine ⟨⟨res, _, hr, hr', rfl⟩, fun res₁ q rest hr₁ hq => ?_⟩
      obtain rfl := Option.some.inj (hr.symm.trans hr₁)
      rw [hnil] at hq
      exact absurd hq (by simp)
  | @muerto q rest hq hqty hnone =>
    have hmem : q ∈ res.blockedPids := by rw [hq]; simp
    have hqp : q ≠ p := fun he => hno (he ▸ hmem)
    have hvivo := hV r res hr q hmem
    rw [hquitar hqp] at hnone
    rw [hnone] at hvivo
    exact absurd hvivo (by simp)
  | @vivo q rest pcbq hq hqty hpcbq =>
    have hmem : q ∈ res.blockedPids := by rw [hq]; simp
    have hqp : q ≠ p := fun he => hno (he ▸ hmem)
    refine iff_of_true ⟨⟨res, _, hr, Dict.get_put_self .., rfl⟩, fun res₁ q₁ rest₁ hr₁ hq₁ => ?_⟩
      (Or.inr (by omega))
    obtain rfl := Option.some.inj (hr.symm.trans hr₁)
    obtain ⟨rfl, rfl⟩ := List.cons.inj (hq.symm.trans hq₁)
    rw [hquitar hqp] at hpcbq
    exact ⟨pcbq, _, _, hpcbq, Dict.get_put_self .., rfl, rfl, by simp [dar, Conservacion.cambio],
      Dict.get_put_self .., rfl⟩

/-! ### The releases -/

theorem liberan_releaseResources : ∀ {rs : List String} {s : Estado}, Liberan p rs s s' →
    releaseResources p rs s = some s'
  | [], s, h => by rw [releaseResources, show s' = s from h]
  | r :: rs, s, ⟨s₁, hs₁, _, h⟩ => by
    rw [releaseResources, hs₁]
    exact liberan_releaseResources h

/-- A process that is gone releases nothing. -/
theorem liberan_muerto (hL : Liberan p rs s s') (hp : s.plan.running.get p = none) : s' = s := by
  cases rs with
  | nil => exact hL
  | cons r rs =>
    obtain ⟨s₁, hs₁, -⟩ := hL
    rw [releaseResource, findProcess, hp] at hs₁
    exact absurd hs₁ (by simp)

/-- None of the releases of a process that is still there afterwards was refused. -/
theorem liberan_cons (h : Base s) (hp : s.plan.running.get p = some pcb)
    (hr : s.resources.get r = some res) (hL : Liberan p (r :: rs) s s')
    (hvivo : (s'.plan.running.get p).isSome) : res.availableQty < res.maxQty ∧
      ∃ s₁, Soltado s p pcb r res s₁ ∧ Libera s r s₁ ∧ Liberan p rs s₁ s' := by
  obtain ⟨s₁, hs₁, hlib, hL⟩ := hL
  have hmax : res.availableQty < res.maxQty := by
    by_contra hmax
    have hllena : Llena s r := fun res' hr' => by
      obtain rfl := Option.some.inj (hr.symm.trans hr')
      exact not_lt.mp hmax
    obtain ⟨hs₀, -⟩ := releaseResource_rechazada hp hllena
    obtain rfl := Option.some.inj (hs₀.symm.trans hs₁)
    have hnone : (exitResourceNotFound (resourcesRelease s r).2 p).plan.running.get p = none :=
      Dict.get_remove_self ..
    obtain rfl := liberan_muerto hL hnone
    rw [hnone] at hvivo
    exact absurd hvivo (by simp)
  obtain ⟨s₂, hs₂, hS⟩ := releaseResource_soltado h hp hr hmax
  obtain rfl := Option.some.inj (hs₂.symm.trans hs₁)
  exact ⟨hmax, s₂, hS, hlib, hL⟩

/-- After the first release the others are to do. -/
theorem reparte_cons (hr : s.resources.get r = some res) (hmax : res.availableQty < res.maxQty)
    (hq : res.blockedPids = [] ∨ -1 ≤ res.availableQty) (he : Efecto s s₁ [r]) :
    Reparte s (r :: rs) ↔ Reparte s₁ rs := by
  refine and_congr (cabe_cons hr hmax he) ⟨fun h t ht res₁ hres₁ => ?_, fun h t ht res₁ hres₁ => ?_⟩
  · by_cases htr : t = r
    · subst htr
      obtain ⟨res₂, hres₂, hsub⟩ := he.colas t res₁ hres₁
      obtain rfl := Option.some.inj (hr.symm.trans hres₂)
      rcases hq with hq | hq
      · rw [hq] at hsub
        exact Or.inl (List.sublist_nil.mp hsub)
      · have hcuenta := he.cuenta t
        simp only [cantidades, Option.mem_def.mp hres₁, hr, Option.map_some, Option.some.injEq,
          Prod.mk.injEq, List.count_singleton_self] at hcuenta
        right
        have := hcuenta.2
        push_cast at this
        omega
    · rw [he.otros t (by simpa using htr)] at hres₁
      exact h t (List.mem_cons_of_mem _ ht) res₁ hres₁
  · by_cases htr : t = r
    · subst htr
      obtain rfl := Option.some.inj (hr.symm.trans hres₁)
      exact hq
    · refine h t ((List.mem_cons.mp ht).resolve_left htr) res₁ ?_
      rw [he.otros t (by simpa using htr)]
      exact hres₁

/-- **All the releases of a process that waits for nothing.** -/
theorem liberan_of_reparte : ∀ {rs : List String} {s : Estado} {pcb : Pcb}, Base s → Vivos s →
    SinCola s p → s.plan.running.get p = some pcb → pcb.asignedResources = rs → Reparte s rs →
    ∃ s' pcb', Liberan p rs s s' ∧ s'.plan.running.get p = some pcb' ∧
      pcb'.asignedResources = [] ∧ Efecto s s' rs
  | [], s, pcb, _, _, _, hp, hrs, _ => ⟨s, pcb, rfl, hp, hrs, efecto_refl s⟩
  | r :: rs, s, pcb, h, hV, hno, hp, hrs, hrep => by
    obtain ⟨res, hr⟩ := Option.isSome_iff_exists.mp (h.asignados p pcb hp r (by simp [hrs]))
    have hmax : res.availableQty < res.maxQty := by
      have := hrep.1 r (by simp) res hr
      rw [List.count_cons_self] at this
      omega
    have hq := hrep.2 r (by simp) res hr
    obtain ⟨s₁, hs₁, hS⟩ := releaseResource_soltado h hp hr hmax
    have he := hS.efecto hp hr
    obtain ⟨s₂, pcb₂, hL, hp₂, hrs₂, he₂⟩ := liberan_of_reparte (hS.base h hp hr) (hV.efecto he)
      (hno.efecto he) (Soltado.propio hS (hno r res hr)) (Conservacion.asigned_remove_cons hrs)
      ((reparte_cons hr hmax hq he).mp hrep)
    exact ⟨s₂, pcb₂, ⟨s₁, hs₁, (libera_iff hS hr hV (hno r res hr)).mpr hq, hL⟩, hp₂, hrs₂,
      he.trans he₂⟩

theorem reparte_of_liberan : ∀ {rs : List String} {s : Estado} {pcb : Pcb}, Base s → Vivos s →
    SinCola s p → s.plan.running.get p = some pcb → pcb.asignedResources = rs →
    Liberan p rs s s' → (s'.plan.running.get p).isSome → Reparte s rs
  | [], _, _, _, _, _, _, _, _, _ =>
    ⟨fun _ hr => absurd hr (by simp), fun _ hr => absurd hr (by simp)⟩
  | r :: rs, s, pcb, h, hV, hno, hp, hrs, hL, hvivo => by
    obtain ⟨res, hr⟩ := Option.isSome_iff_exists.mp (h.asignados p pcb hp r (by simp [hrs]))
    obtain ⟨hmax, s₁, hS, hlib, hL⟩ := liberan_cons h hp hr hL hvivo
    have he := hS.efecto hp hr
    have hq := (libera_iff hS hr hV (hno r res hr)).mp hlib
    exact (reparte_cons hr hmax hq he).mpr (reparte_of_liberan (hS.base h hp hr) (hV.efecto he)
      (hno.efecto he) (Soltado.propio hS (hno r res hr)) (Conservacion.asigned_remove_cons hrs)
      hL hvivo)

/-- No release takes the process itself out of a queue. -/
theorem cola_of_liberan : ∀ {rs : List String} {s : Estado} {pcb : Pcb}, Base s →
    s.plan.running.get p = some pcb → pcb.asignedResources = rs → Liberan p rs s s' →
    (s'.plan.running.get p).isSome → SinCola s' p → SinCola s p
  | [], s, _, _, _, _, hL, _, hno => by
    rw [show s' = s from hL] at hno
    exact hno
  | r :: rs, s, pcb, h, hp, hrs, hL, hvivo, hno => by
    obtain ⟨res, hr⟩ := Option.isSome_iff_exists.mp (h.asignados p pcb hp r (by simp [hrs]))
    obtain ⟨-, s₁, hS, hlib, hL⟩ := liberan_cons h hp hr hL hvivo
    have he := hS.efecto hp hr
    have hp' : (quitar s p pcb r res).plan.running.get p = some (processRemoveResource pcb r) :=
      Dict.get_put_self ..
    have hresto := Conservacion.asigned_remove_cons hrs
    suffices hsuf : s₁.plan.running.get p = some (processRemoveResource pcb r) ∧
        ∃ res₁, s₁.resources.get r = some res₁ ∧ (p ∈ res.blockedPids → p ∈ res₁.blockedPids) by
      obtain ⟨hp₁, res₁, hr₁, hcola⟩ := hsuf
      have hno₁ := cola_of_liberan (hS.base h hp hr) hp₁ hresto hL hvivo hno
      intro t res₀ ht hmem
      by_cases htr : t = r
      · subst htr
        obtain rfl := Option.some.inj (hr.symm.trans ht)
        exact hno₁ t res₁ hr₁ (hcola hmem)
      · rw [← he.otros t (by simpa using htr)] at ht
        exact hno₁ t res₀ ht hmem
    cases hS with
    | nadie => exact ⟨hp', contar res, get_quitar s p pcb r res, id⟩
    | @muerto q rest hq _ hnone =>
      have hqp : q ≠ p := by
        rintro rfl
        rw [hp'] at hnone
        exact absurd hnone (by simp)
      refine ⟨hp', _, Dict.get_put_self .., fun hmem => ?_⟩
      rw [hq] at hmem
      exact (List.mem_cons.mp hmem).resolve_left (Ne.symm hqp)
    | @vivo q rest pcbq hq _ hpcbq =>
      -- a process that served itself would have one instance more than the others it keeps
      have hqp : q ≠ p := by
        rintro rfl
        obtain ⟨pcb₀, pcb', -, hpcb₀, hpcb', hasig, -⟩ := hlib.2 res q rest hr hq
        obtain rfl := Option.some.inj (hp.symm.trans hpcb₀)
        obtain rfl := Option.some.inj (hp'.symm.trans hpcbq)
        obtain rfl := Option.some.inj ((Dict.get_put_self ..).symm.trans hpcb')
        have hlen := congrArg List.length hasig
        simp [processAssignResource, hresto, hrs] at hlen
      refine ⟨(Dict.get_put_of_ne _ (Ne.symm hqp) _).trans hp', _, Dict.get_put_self ..,
        fun hmem => ?_⟩
      rw [hq] at hmem
      exact (List.mem_cons.mp hmem).resolve_left (Ne.symm hqp)

/-! ### One request -/

/-- **`force_exit_process` and `exit_process`.** -/
theorem onExit_sale_iff (hI : Inv s) (hp : s.plan.running.get p = some pcb) (exitCode : OpCode) :
    (∃ s', onExit s p exitCode = some s' ∧ Sale s p exitCode s') ↔
      SinCola s p ∧ Reparte s pcb.asignedResources := by
  constructor
  · rintro ⟨s', -, pcb₀, s₁, pcb₁, hp₀, hL, hp₁, -, hno₁, -⟩
    obtain rfl := Option.some.inj (hp.symm.trans hp₀)
    have hvivo : (s₁.plan.running.get p).isSome := by rw [hp₁]; rfl
    have hno := cola_of_liberan hI.base hp rfl hL hvivo hno₁
    exact ⟨hno, reparte_of_liberan hI.base hI.vivos hno hp rfl hL hvivo⟩
  · rintro ⟨hno, hrep⟩
    obtain ⟨s₁, pcb₁, hL, hp₁, hrs₁, he⟩ := liberan_of_reparte hI.base hI.vivos hno hp rfl hrep
    refine ⟨_, ?_, pcb, s₁, pcb₁, hp, hL, hp₁, hrs₁, hno.efecto he, rfl⟩
    rw [onExit_eq hp, liberan_releaseResources hL]
    rfl

/-- An exit without releases is right if there is nothing to release. -/
theorem sale_sin_recursos {s₀ : Estado} (hB : Base s₀) (hp : s₀.plan.running.get p = some pcb)
    (hst : pcb.currentStatus ≠ .BLOCK) (exitCode : OpCode) :
    Sale s₀ p exitCode (setPlan s₀ (exitProcess (removeProcess s₀.plan p) p exitCode)) ↔
      pcb.asignedResources = [] := by
  constructor
  · rintro ⟨pcb₀, s₁, pcb₁, hp₀, hL, hp₁, hrs₁, -, heq⟩
    obtain rfl := Option.some.inj (hp.symm.trans hp₀)
    by_contra hne
    obtain ⟨r, rs, hrs⟩ := List.exists_cons_of_ne_nil hne
    -- the counter of `r` would be another one
    obtain ⟨res, hr⟩ := Option.isSome_iff_exists.mp (hB.asignados p pcb hp r (by simp [hrs]))
    have hcabe : Cabe s₀ pcb.asignedResources := by
      by_contra hc
      have hfin := releaseResources_no_cabe hB (by rw [hp]; rfl) (hB.asignados p pcb hp) hc
        (liberan_releaseResources hL)
      rw [hp₁] at hfin
      exact absurd hfin.1 (by simp)
    obtain ⟨s₂, hs₂, -, he⟩ := releaseResources_cabe hB (by rw [hp]; rfl)
      (hB.asignados p pcb hp) hcabe
    obtain rfl := Option.some.inj (hs₂.symm.trans (liberan_releaseResources hL))
    have hres : s₂.resources = s₀.resources := by
      have := congrArg Estado.resources heq
      exact this.symm
    have hcuenta := he.cuenta r
    simp only [cantidades, hres, hr, Option.map_some, Option.some.injEq, Prod.mk.injEq] at hcuenta
    rw [hrs, List.count_cons_self] at hcuenta
    have := hcuenta.2
    push_cast at this
    omega
  · intro hnil
    refine ⟨pcb, s₀, pcb, hp, ?_, hp, hnil, sinCola_of_base hB hp hst, rfl⟩
    rw [hnil]
    rfl

/-- A request that is refused with the answer `n`, which left the state `s₀`. -/
theorem rechazada_iff {s₀ : Estado} {n : ℤ} (hB : Base s₀) (hp : s₀.plan.running.get p = some pcb)
    (hst : pcb.currentStatus = .EXEC) (hn : n < 0) {a : Accion}
    (ha : atender s a = some (exitResourceNotFound s₀ p)) :
    (n < 0 → ∃ s', atender s a = some s' ∧ Sale s₀ p .PROC_EXIT_RESOURCE_NOT_FOUND s') ↔
      pcb.asignedResources = [] := by
  have hsale := sale_sin_recursos hB hp (by rw [hst]; simp) .PROC_EXIT_RESOURCE_NOT_FOUND
  rw [← hsale, ha]
  constructor
  · intro h
    obtain ⟨s', hs', h⟩ := h hn
    obtain rfl := Option.some.inj hs'
    exact h
  · exact fun h _ => ⟨_, rfl, h⟩

theorem devuelve_wait_iff (hI : Inv s) (hex : enEjecucion s.plan p = some pcb) (r : String) :
    Devuelve s (.wait p r) ↔ Condicion s (.wait p r) := by
  obtain ⟨hp, hst⟩ := enEjecucion_eq_some.mp hex
  have hat := atender_wait hex r
  rw [Devuelve, Condicion]
  cases hr : s.resources.get r with
  | none =>
    have hreq : resourcesRequest s r p = (RESOURCE_NOT_DEFINED, s) := by
      rw [resourcesRequest, hr]
    rw [hreq, rechazada_iff hI.base hp hst (show RESOURCE_NOT_DEFINED < 0 by decide)
      (hat.trans (Conservacion.onWait_none hp hr))]
    simp [hp]
  | some res =>
    have hreq : ¬(resourcesRequest s r p).1 < 0 := by
      rw [resourcesRequest, hr]
      simp only
      split_ifs <;> simp only <;> omega
    simp [hreq]

theorem devuelve_signal_iff (hI : Inv s) (hex : enEjecucion s.plan p = some pcb) (r : String) :
    Devuelve s (.signal p r) ↔ Condicion s (.signal p r) := by
  obtain ⟨hp, hst⟩ := enEjecucion_eq_some.mp hex
  have hat := atender_signal hex r
  rw [Devuelve, Condicion]
  by_cases hllena : Llena s r
  · obtain ⟨hs, hneg, hplan, hB⟩ := releaseResource_rechazada hp hllena
    rw [rechazada_iff (hB hI.base) (by rw [hplan]; exact hp) hst hneg (hat.trans hs)]
    simp [hp, hllena]
  · have hrel : ¬(resourcesRelease s r).1 < 0 := by
      unfold Llena at hllena
      push Not at hllena
      obtain ⟨res, hr, hmax⟩ := hllena
      have := Senales.resourcesRelease_nonneg hr hmax
      omega
    simp [hrel, hllena]

theorem devuelve_finalizar_iff (hI : Inv s) (p : ℤ) :
    Devuelve s (.finalizar p) ↔ Condicion s (.finalizar p) := by
  rw [Devuelve, Condicion]
  refine forall_congr' fun pcb => imp_congr_right fun hp => imp_congr_right fun hst => ?_
  have hat : atender s (.finalizar p) = onExit s p .PROC_EXIT_FORCE := by
    rw [atender, handleForceProcessExit, findProcess, Option.mem_def.mp hp]
    exact if_neg hst
  rw [hat]
  exact onExit_sale_iff hI hp .PROC_EXIT_FORCE

/-- **One request.** -/
theorem devuelve_iff (hI : Inv s) {a : Accion} (hprot : Protocolo s a) :
    Devuelve s a ↔ Condicion s a := by
  cases a with
  | admitir | despachar | desalojar => exact Iff.rfl
  | wait p r =>
    obtain ⟨pcb, hex⟩ := Option.isSome_iff_exists.mp hprot
    exact devuelve_wait_iff hI hex r
  | signal p r =>
    obtain ⟨pcb, hex⟩ := Option.isSome_iff_exists.mp hprot
    exact devuelve_signal_iff hI hex r
  | exit p exitCode =>
    obtain ⟨pcb, hex⟩ := Option.isSome_iff_exists.mp hprot
    obtain ⟨hp, hst⟩ := enEjecucion_eq_some.mp hex
    have hno := sinCola_of_base hI.base hp (by rw [hst]; simp)
    rw [Devuelve, Condicion, atender_exit hex, onExit_sale_iff hI hp]
    simp [hp, hno]
  | finalizar p => exact devuelve_finalizar_iff hI p

/-! ### Runs -/

theorem vivos_onExit (hI : Inv s) (hp : s.plan.running.get p = some pcb) (hno : SinCola s p)
    (hrep : Reparte s pcb.asignedResources) {exitCode : OpCode}
    (hs : onExit s p exitCode = some s') : Vivos s' := by
  obtain ⟨s₁, -, -, he, hs₁⟩ := onExit_cabe hI.base hp hrep.1 exitCode
  obtain rfl := Option.some.inj (hs₁.symm.trans hs)
  exact (hI.vivos.efecto he).salir (hno.efecto he) exitCode

/-- `resources_release` by itself changes no queue. -/
theorem resourcesRelease_colas {t : String} {res' : Resource}
    (ht : (resourcesRelease s r).2.resources.get t = some res') :
    ∃ res, s.resources.get t = some res ∧ res'.blockedPids = res.blockedPids := by
  cases hr : s.resources.get r with
  | none =>
    rw [resourcesRelease, hr] at ht
    exact ⟨res', ht, rfl⟩
  | some res =>
    have hrel : (resourcesRelease s r).2 =
        setResource s r { res with availableQty := res.availableQty + 1 } := by
      rw [resourcesRelease, hr]
      simp only
      split_ifs <;> rfl
    rw [hrel] at ht
    rcases Dict.get_put_eq_some.mp ht with ⟨rfl, rfl⟩ | ⟨-, ht⟩
    · exact ⟨res, hr, rfl⟩
    · exact ⟨res', ht, rfl⟩

theorem vivos_onWait (hI : Inv s) (hp : s.plan.running.get p = some pcb)
    (hst : pcb.currentStatus = .EXEC) (hs : onWait s p r = some s') : Vivos s' := by
  cases hr : s.resources.get r with
  | none =>
    rw [Conservacion.onWait_none hp hr] at hs
    obtain rfl := Option.some.inj hs
    exact hI.vivos.salir (sinCola_of_base hI.base hp (by rw [hst]; simp)) _
  | some res =>
    rw [Conservacion.onWait_eq hp hr] at hs
    obtain rfl := Option.some.inj hs
    intro t res' ht q hmem
    have hviejo : (∃ res₀, s.resources.get t = some res₀ ∧ q ∈ res₀.blockedPids) ∨ q = p := by
      split_ifs at ht
      · rcases Dict.get_put_eq_some.mp ht with ⟨rfl, rfl⟩ | ⟨-, ht⟩
        · exact Or.inl ⟨res, hr, hmem⟩
        · exact Or.inl ⟨res', ht, hmem⟩
      · rcases Dict.get_put_eq_some.mp ht with ⟨rfl, rfl⟩ | ⟨-, ht⟩
        · exact (List.mem_append.mp hmem).imp (fun hmem => ⟨res, hr, hmem⟩) fun h => by simpa using h
        · exact Or.inl ⟨res', ht, hmem⟩
    have hvivo : (s.plan.running.get q).isSome := by
      rcases hviejo with ⟨res₀, h0, hmem⟩ | rfl
      · exact hI.vivos t res₀ h0 q hmem
      · rw [hp]
        rfl
    split_ifs
    · exact Dict.isSome_get_put hvivo p _
    · exact Dict.isSome_get_put hvivo p _

/-- Under the condition nobody in a queue is killed. -/
theorem Inv.atender (hI : Inv s) {a : Accion} (hprot : Protocolo s a) (hc : Condicion s a)
    (hs : atender s a = some s') : Inv s' := by
  refine ⟨hI.base.atender hprot hs, ?_⟩
  cases a with
  | admitir =>
    obtain rfl := Option.some.inj hs
    exact hI.vivos.congr (fun t res ht q hmem => ⟨res, ht, hmem⟩)
      fun t res ht q hmem hq => Dict.isSome_get_put hq _ _
  | despachar p =>
    obtain ⟨pcb, -, hs₁, -⟩ := base_despachar hI.base hprot
    obtain rfl := Option.some.inj (hs₁.symm.trans hs)
    exact hI.vivos.congr (fun t res ht q hmem => ⟨res, ht, hmem⟩)
      fun t res ht q hmem hq => Dict.isSome_get_put hq _ _
  | desalojar p =>
    obtain ⟨pcb, hex⟩ := Option.isSome_iff_exists.mp hprot
    obtain ⟨hs₁, -⟩ := base_desalojar hI.base hex
    obtain rfl := Option.some.inj (hs₁.symm.trans hs)
    exact hI.vivos.congr (fun t res ht q hmem => ⟨res, ht, hmem⟩)
      fun t res ht q hmem hq => Dict.isSome_get_put hq _ _
  | wait p r =>
    obtain ⟨pcb, hex, hs⟩ := Option.bind_eq_some_iff.mp hs
    obtain ⟨hp, hst⟩ := enEjecucion_eq_some.mp hex
    exact vivos_onWait hI hp hst hs
  | signal p r =>
    obtain ⟨pcb, hex, hs⟩ := Option.bind_eq_some_iff.mp hs
    obtain ⟨hp, hst⟩ := enEjecucion_eq_some.mp hex
    have hno := sinCola_of_base hI.base hp (by rw [hst]; simp)
    by_cases hllena : Llena s r
    · obtain ⟨hs₀, -, hplan, -⟩ := releaseResource_rechazada hp hllena
      obtain rfl := Option.some.inj (hs₀.symm.trans hs)
      have hV : Vivos (resourcesRelease s r).2 :=
        hI.vivos.congr (fun t res' ht q hmem => by
          obtain ⟨res, hres, heq⟩ := resourcesRelease_colas ht
          exact ⟨res, hres, heq ▸ hmem⟩) fun t res ht q hmem hq => by rw [hplan]; exact hq
      refine hV.salir (fun t res' ht hmem => ?_) _
      obtain ⟨res, hres, heq⟩ := resourcesRelease_colas ht
      exact hno t res hres (heq ▸ hmem)
    · unfold Llena at hllena
      push Not at hllena
      obtain ⟨res, hr, hmax⟩ := hllena
      obtain ⟨s₁, hs₁, -, he⟩ := releaseResource_libera hI.base hp hr hmax
      obtain rfl := Option.some.inj (hs₁.symm.trans hs)
      exact hI.vivos.efecto he
  | exit p exitCode =>
    obtain ⟨pcb, hex, hs⟩ := Option.bind_eq_some_iff.mp hs
    obtain ⟨hp, hst⟩ := enEjecucion_eq_some.mp hex
    exact vivos_onExit hI hp (sinCola_of_base hI.base hp (by rw [hst]; simp)) (hc pcb hp) hs
  | finalizar p =>
    rw [Recursos.atender, handleForceProcessExit] at hs
    cases hp : findProcess s.plan p with
    | none =>
      simp only [hp] at hs
      obtain rfl := Option.some.inj hs
      exact hI.vivos
    | some pcb =>
      simp only [hp] at hs
      split_ifs at hs with hst
      · obtain rfl := Option.some.inj hs
        exact hI.vivos
      · obtain ⟨hno, hrep⟩ := hc pcb hp hst
        exact vivos_onExit hI hp hno hrep hs

end

theorem inv_estadoInicial (recursos : List (String × ℤ)) : Inv (estadoInicial recursos) := by
  refine ⟨base_estadoInicial recursos, fun r res hr q hmem => ?_⟩
  obtain ⟨qty, rfl⟩ := (Conservacion.resourcesInitialize_get hr).resolve_left (by simp)
  exact absurd hmem (by simp [resourceCreate])

/-- **Exits.** Every process that ends in a run gives everything back if and only if every request of
the run that ends one meets the condition. -/
theorem salidas_iff {recursos : List (String × ℤ)} {as : List Accion}
    (h : Along atender Protocolo (estadoInicial recursos) as) :
    Along atender Devuelve (estadoInicial recursos) as ↔
      Along atender Condicion (estadoInicial recursos) as :=
  along_congr (fun _ _ hI hprot => devuelve_iff hI hprot)
    (fun _ _ _ hI hprot hc hs => hI.atender hprot hc hs) (inv_estadoInicial recursos) h

/-- A process ends with two instances, for one of which another one waits. -/
theorem salidas_iff_dosInstancias :
    Along atender Devuelve (estadoInicial [("R1", 1), ("R2", 1)]) [.admitir, .admitir,
        .despachar 1, .wait 1 "R1", .despachar 1, .wait 1 "R2", .despachar 2, .wait 2 "R1",
        .despachar 1, .exit 1 .PROC_EXIT_SUCCESS] ↔
      Along atender Condicion (estadoInicial [("R1", 1), ("R2", 1)]) [.admitir, .admitir,
        .despachar 1, .wait 1 "R1", .despachar 1, .wait 1 "R2", .despachar 2, .wait 2 "R1",
        .despachar 1, .exit 1 .PROC_EXIT_SUCCESS] :=
  salidas_iff <| .of_step trivial rfl <| .of_step trivial rfl <|
    .of_step (show _ ∈ _ by decide) rfl <|
    .of_step (show Option.isSome _ = true by decide) rfl <|
    .of_step (show _ ∈ _ by decide) rfl <|
    .of_step (show Option.isSome _ = true by decide) rfl <|
    .of_step (show _ ∈ _ by decide) rfl <|
    .of_step (show Option.isSome _ = true by decide) rfl <|
    .of_step (show _ ∈ _ by decide) rfl <|
    .of_step (show Option.isSome _ = true by decide) rfl trivial

/-- **An instance that nobody gives back.** A process that has `R1` asks for a resource that does not
exist. -/
theorem wait_indefinido_no_devuelve :
    Along atender Protocolo (estadoInicial [("R1", 1)]) [.admitir, .despachar 1, .wait 1 "R1",
        .despachar 1, .wait 1 "R9"] ∧
      ∃ s s', exec atender (estadoInicial [("R1", 1)]) [.admitir, .despachar 1, .wait 1 "R1",
          .despachar 1] = some s ∧ atender s (.wait 1 "R9") = some s' ∧
        s'.plan.exited = [(1, .PROC_EXIT_RESOURCE_NOT_FOUND)] ∧
        cantidades s' "R1" = some (1, 0) ∧ ¬Devuelve s (.wait 1 "R9") := by
  refine ⟨?_, _, _, rfl, rfl, rfl, rfl, fun h => ?_⟩
  · exact .of_step trivial rfl <| .of_step (show _ ∈ _ by decide) rfl <|
      .of_step (show Option.isSome _ = true by decide) rfl <|
      .of_step (show _ ∈ _ by decide) rfl <|
      .of_step (show Option.isSome _ = true by decide) rfl trivial
  · obtain ⟨s', hs', pcb, s₁, pcb₁, hp, hL, -, -, -, rfl⟩ := h (by decide)
    obtain rfl : pcb = ⟨.EXEC, ["R1"], none, [], none⟩ := (Option.some.inj hp).symm
    obtain ⟨s₂, hs₂, -, rfl⟩ := hL
    obtain rfl := Option.some.inj hs₂
    have hcuenta := congrArg (fun o => o.bind fun s => cantidades s "R1") hs'
    exact absurd hcuenta (by decide)

end OperatingSystem.Kernel.Salidas
