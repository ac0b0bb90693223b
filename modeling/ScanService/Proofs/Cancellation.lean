import ScanService.Proofs.Condemned
/-! Cancellation. A task that is cancelled in line leaves the line and nothing else changes; a scan
that is cancelled gives back the two resources of its session, and leaves all others and every mark
as they are. If the registry is locked the entry goes later, whosever it is by then. -/
namespace ScanService.Service

open Roster

variable {s s' : Service} {c : Scan} {t : ℕ}

/-- A scan gives back what its session has and is no more. Its entry goes too, or its name is left
over. -/
structure GivesBack (s s' : Service) (c : Scan) : Prop where
  identities : s'.store.roster.identities = s.store.roster.identities.map fun i =>
    if i.name = c.session.identity.name then { i with used := false } else i
  egresses : s'.store.roster.egresses = s.store.roster.egresses.map fun e =>
    if e.id = c.session.egress.id then { e with inUse := false } else e
  objects : s'.store.objects = s.store.objects
  registry : s'.registry =
    if s.locked then s.registry else s.registry.remove c.session.identity.name
  leftovers : s'.leftovers =
    if s.locked then s.leftovers ++ [c.session.identity.name] else s.leftovers
  scans : s'.scans = s.scans.filter fun d => d.task ≠ c.task
  live : s.live.Perm (c.session :: s'.live)
  frame : s' = { s with
    store := s'.store, registry := s'.registry, leftovers := s'.leftovers, scans := s'.scans,
    history := ⟨s.now,.handedBack c.task c.session .abandoned⟩ :: s.history }

/-- A name that is left over comes to its turn once the registry is free. Whatever entry it has is
removed then, and nothing else changes. -/
structure Clears (s : Service) (account : String) : Prop where
  runnable : .forget account ∈ s.runnable
  step : s.step (.turn (.forget account)) =
    { s with registry := s.registry.remove account, leftovers := s.leftovers.erase account }

structure Receives (s s' : Service) (t : ℕ) (session : Session) (later : List Session) : Prop where
  queue : s'.pool.queue = later
  served : t ∉ s'.pool.waiters.map (·.task)
  noted : ∃ N n, s'.occurrences = N ++ .received t session :: .observed (.parked n) :: s.occurrences
  owner : (∃ c, s'.scan? t = some c ∧ c.session = session) ∨
    (session ∈ s'.held ∧ .answered t (.session (.ok session)) ∈ s'.occurrences)

/-- The first session of the queue can be had at once: by the first in line if it wants one, and by
anyone who comes and wants one if nobody is in line. -/
structure Offers (s : Service) (session : Session) (later : List Session) : Prop where
  queue : s.pool.queue = session :: later
  first : ∀ w, s.pool.waiters.head? = some w → w.purpose.drains = false →
    .poll w.task ∈ s.runnable ∧ Receives s (s.step (.turn (.poll w.task))) w.task session later
  next : s.pool.waiters = [] → ∀ (purpose : Purpose) (wait : ℕ), purpose.drains = false →
    Receives s (s.arrive purpose wait) s.nextTask session later

/-- What cancelling a task does, wherever it is. -/
structure Cancels (s : Service) (t : ℕ) : Prop where
  waiting : ∀ w, s.pool.waiter? t = some w → s.step (.abort t) = { s with pool := s.pool.leave t }
  offered : ∀ w session later, s.pool.waiter? t = some w → s.pool.queue = session :: later →
    (s.step (.abort t)).Offers session later
  holding : ∀ c, s.scan? t = some c → s.store.Accepts .releaseIdentity →
    s.store.Accepts .releaseEgress → GivesBack s (s.step (.abort t)) c
  clears : s.locked = false → ∀ account ∈ s.leftovers, s.Clears account

/-- An egress through which the way of a scan failed is another than the one that the scan gives
back when it is cancelled, unless it waits to give up that very one: it stays taken. It stays dead
in any case, if the store could mark it. -/
def KeepsCondemned (s : Service) (es : List Event) (t : ℕ) : Prop :=
  ∀ before e later b cause c, es = before ++ e :: later → (s.run before).scan? t = some b →
    (s.run before).reply? b e = some (.error cause) → cause.category = .transport →
    (s.run es).scan? t = some c →
      (c.stage.standing.leaves = false → b.session.egress.id ≠ c.session.egress.id ∧
        ((s.run es).step (.abort t)).store.roster.EgressTaken b.session.egress.id) ∧
      ((s.run before).store.Accepts .killEgress →
        ((s.run es).step (.abort t)).store.roster.EgressDead b.session.egress.id)

/-! ### With a session -/

theorem roster_freeSession (hi : s.store.Accepts .releaseIdentity)
    (he : s.store.Accepts .releaseEgress) (session : Session) :
    (s.freeSession session).store.roster =
      (s.store.roster.releaseIdentity session.identity.name).releaseEgress session.egress.id := by
  have hr := hi.onRoster fun r =>
    (r.releaseIdentity session.identity.name,(.ok () : Except StoreFailure Unit))
  have ha : (s.store.releaseIdentity session.identity.name).1.Accepts .releaseEgress :=
    Store.accepts_onRoster he (by decide) _
  have hf := (ha.onRoster fun r =>
    (r.releaseEgress session.egress.id,(.ok () : Except StoreFailure Unit))).1
  exact hf.trans (congrArg (fun r => Roster.releaseEgress r session.egress.id) hr.1)

theorem objects_freeSession (s : Service) (session : Session) :
    (s.freeSession session).store.objects = s.store.objects :=
  (Store.objects_onRoster _ _ _).trans (Store.objects_onRoster _ _ _)

theorem givesBack_abandon (h : s.Has c) (hi : s.store.Accepts .releaseIdentity)
    (he : s.store.Accepts .releaseEgress) : GivesBack s (s.abandon c) c := by
  have hr := roster_freeSession hi he c.session
  have hst : (s.abandon c).store = (s.freeSession c.session).store := by
    unfold abandon delist
    split <;> rfl
  refine ⟨?_,?_,?_,?_,?_,?_,?_,?_⟩
  · rw [hst,hr]
    rfl
  · rw [hst,hr]
    rfl
  · rw [hst]
    exact objects_freeSession s c.session
  · unfold abandon delist
    split <;> rfl
  · unfold abandon delist
    split <;> rfl
  · unfold abandon delist
    split <;> rfl
  · rw [live_abandon,← Multiset.coe_eq_coe,← Multiset.cons_coe,h.live,
      ← map_roll (s.dropScan c.task),← Multiset.map_coe]
    rfl
  · unfold abandon delist
    split <;> rfl

theorem clears (hl : s.locked = false) {account : String} (hm : account ∈ s.leftovers) :
    s.Clears account := by
  refine ⟨List.mem_append_right _ ?_,by simp [step,take,onForget,hl,hm]⟩
  simp [registryTurns,hl,hm]

/-! ### In line -/

/-- The first in line takes the first session of the queue, unless it is there to end them all. -/
theorem receives_poll {w : Waiter} {session : Session} {later : List Session}
    (hw : s.pool.waiters.head? = some w) (ht : w.task ∉ s.scans.map (·.task))
    (hd : w.purpose.drains = false) (hq : s.pool.queue = session :: later) :
    Receives s (s.poll w.task) w.task session later := by
  obtain ⟨ws,hws⟩ := List.head?_eq_some_iff.mp hw
  have hwt : s.pool.waiter? w.task = some w := by simp [Pool.waiter?,hws]
  have hf : s.pool.isFirst w.task = true := by simp [Pool.isFirst,hws]
  let left : Service := { s with pool := s.pool.leave w.task }
  let pool : Pool := { left.pool with queue := later, parked := left.pool.parked - 1 }
  let paid : Service :=
    (({ left with pool }).observe (.parked pool.parked)).note (.received w.task session)
  have hr : (s.pool.leave w.task).receive? = some (session,pool) := by
    simp only [Pool.receive?,Pool.leave,hq,pool,left]
  have hp : s.poll w.task = paid.provide w session := by
    simp only [poll,hwt,hf,hd,hr,Bool.false_eq_true,and_false,if_false,if_true]
    rfl
  have hout : w.task ∉ pool.waiters.map (·.task) := by
    simp [pool,left,Pool.leave]
  rw [hp]
  unfold provide
  split
  · rename_i place http _
    have ho := occurrences_begin paid w.task w.since http place session
    have hb := congrArg Service.pool (begin_eq paid w.task w.since http place session)
    have hs := scan?_begin (s := paid) ht w.since http place session
    refine ⟨?_,?_,⟨_ ++ [_],_,by rw [List.append_assoc]; exact ho⟩,Or.inl ⟨_,hs,rfl⟩⟩
    · rw [hb]
      rfl
    · rw [hb]
      exact hout
  · have hh : session ∈ paid.held ++ [session] :=
      List.mem_append_right _ (List.mem_singleton.mpr rfl)
    exact ⟨rfl,hout,⟨[_],_,rfl⟩,Or.inr ⟨hh,List.mem_cons_self⟩⟩

theorem Tidy.offers {session : Session} {later : List Session} (hs : s.Tidy)
    (hq : s.pool.queue = session :: later) : s.Offers session later := by
  refine ⟨hq,fun w hw hd => ⟨?_,?_⟩,fun hl purpose wait hd => ?_⟩
  · have hm : w ∈ s.pool.waiters := List.mem_of_mem_head? hw
    obtain ⟨ws,hws⟩ := List.head?_eq_some_iff.mp hw
    have hg : s.pool.canGo s.now w = true := by simp [Pool.canGo,Pool.isFirst,hws,hq]
    simp only [runnable,List.append_assoc]
    exact List.mem_append_left _ (List.mem_map.mpr ⟨w,List.mem_filter.mpr ⟨hm,hg⟩,rfl⟩)
  · exact receives_poll hw (hs.not_mem_scans (List.mem_of_mem_head? hw)) hd hq
  · let w : Waiter :=
      ⟨s.nextTask,purpose,s.now,wait,if purpose.drains then none else some (s.after wait)⟩
    have hw : (s.joined w).pool.waiters.head? = some w := by simp [joined,Pool.join,hl,w]
    have ht : w.task ∉ s.scans.map (·.task) := by
      intro hm
      exact absurd (hs.fresh.lt _ (List.mem_append_left _ hm)) (lt_irrefl s.nextTask)
    have hr := receives_poll (s := s.joined w) hw ht hd hq
    exact ⟨hr.queue,hr.served,hr.noted,hr.owner⟩

theorem Tidy.cancels (hs : s.Tidy) (t : ℕ) : s.Cancels t := by
  have hw {w : Waiter} (h : s.pool.waiter? t = some w) :
      s.step (.abort t) = { s with pool := s.pool.leave t } := by
    have ht : w.task = t := by simpa using List.find?_some h
    have hn := hs.not_mem_scans (List.mem_of_find?_eq_some h)
    rw [ht] at hn
    have hc : s.scan? t = none := find?_eq_none_of_not_mem hn
    simp only [step,abort,hc,h]
  refine ⟨fun w h => hw h,fun w session later h hq => ?_,fun c h hi he => ?_,
    fun hl _ hm => clears hl hm⟩
  · have ht := tidy_step hs (.abort t)
    rw [hw h] at ht ⊢
    exact ht.offers hq
  · have hg := givesBack_abandon (hs.has h) hi he
    simp only [step,abort,h]
    exact hg

/-! ### After a substitution -/

structure Idle (id : ℤ) (r : Roster) (roll : Multiset (Session × Standing)) : Prop where
  taken : r.EgressTaken id
  free : ∀ p ∈ roll, p.1.egress.id ≠ id

theorem Idle.shift {id : ℤ} {Q : Session → Prop} {p q : Roster × Multiset (Session × Standing)}
    (h : Custody.Shift Q p q) (hp : Idle id p.1 p.2) : Idle id q.1 q.2 := by
  have htail {r : Roster} {x : Session × Standing} {roll : Multiset (Session × Standing)}
      (hp : Idle id r (x ::ₘ roll)) : ∀ y ∈ roll, y.1.egress.id ≠ id :=
    fun y hy => hp.free y (Multiset.mem_cons_of_mem hy)
  have hcons {x : Session × Standing} {roll : Multiset (Session × Standing)}
      (hx : x.1.egress.id ≠ id) (hr : ∀ y ∈ roll, y.1.egress.id ≠ id) : ∀ y ∈ x ::ₘ roll,
      y.1.egress.id ≠ id := by
    intro y hy
    rcases Multiset.mem_cons.mp hy with rfl | hy
    · exact hx
    · exact hr y hy
  cases h with
  | stays hk => exact ⟨hk.egresses id hp.taken,hp.free⟩
  | joins hk _ hi =>
    exact ⟨hk.egresses id hp.taken,hcons (fun he => hi (he ▸ hp.taken)) hp.free⟩
  | @stands _ _ _ session a b hk _ =>
    exact ⟨hk.egresses id hp.taken,
      hcons (hp.free (session,a) (Multiset.mem_cons_self _ _)) (htail hp)⟩
  | turns hk hi =>
    exact ⟨hk.egresses id hp.taken,hcons (fun he => hi (he ▸ hp.taken)) (htail hp)⟩
  | retires hs | leaves hs =>
    exact ⟨hs.egresses id (hp.free _ (Multiset.mem_cons_self _ _)).symm hp.taken,htail hp⟩

theorem stays_idle (id : ℤ) (Q : Session → Prop) : Custody.Stays Q (Idle id) :=
  ⟨fun hm hp => Idle.shift hm.shift hp,fun hc hp =>
    ⟨(Store.keeps_run _ _ hc).egresses id hp.taken,hp.free⟩⟩

theorem leaving_finishRetired {d d' : Scan} {reason : Retirement} {x : ScanFailure} (hs : s.Tidy)
    (h : s.scan? c.task = some d) (h' : (s.finishRetired c reason x).scan? c.task = some d') :
    d'.stage.standing.leaves = true := by
  unfold finishRetired at h'
  split at h'
  · rw [scan?_putScan (c := { c with stage := .delisting reason x }) h] at h'
    cases h'
    rfl
  · rw [(hs.gone_retireNow h reason x).scan?_eq] at h'
    cases h'

theorem leaving_run {es : List Event} {d : Scan} (hs : s.Tidy) (h : s.scan? t = some c)
    (hl : c.stage.standing.leaves = true) (h' : (s.run es).scan? t = some d) :
    d.stage.standing.leaves = true := by
  obtain rfl := scan?_task h
  induction es generalizing s with
  | nil =>
    obtain rfl : c = d := Option.some.inj (h.symm.trans h')
    exact hl
  | cons e es ih =>
    have htidy := tidy_step hs e
    have hgone (hg : (s.step e).Gone c.task) : d.stage.standing.leaves = true := by
      rw [show s.run (e :: es) = (s.step e).run es from rfl,(hg.run htidy es).2.2.scan?_eq] at h'
      cases h'
    by_cases ht : e.task s = some c.task
    · have hr : s.reply? c e = none := by
        cases hr : s.reply? c e with
        | none => rfl
        | some r => simp [standing_of_reply hr,Standing.leaves] at hl
      cases step_of_no_reply hs h ht hr with
      | same hstep => exact ih htidy (by rw [hstep,h]) h'
      | gate hc | entered hc => simp [hc,Stage.standing,Standing.leaves] at hl
      | removed hc hk =>
        refine hgone ?_
        rw [step_remove h hc hk]
        exact hs.gone_retireNow h _ _
      | aborted =>
        refine hgone ?_
        simp only [step,abort,h]
        exact hs.gone_abandon h
    · exact ih htidy ((leaves_step hs e ht).scan?.trans h) h'

theorem idle_fail {cause : RemoteFailure} {d : Scan} (hs : s.Tidy) (h : s.scan? c.task = some c)
    (hx : Custody.Exclusive s.store.roster s.live) (hk : cause.category = .transport)
    (hd : (s.fail c cause).scan? c.task = some d) (hl : d.stage.standing.leaves = false) :
    Idle c.session.egress.id (s.fail c cause).store.roster (s.fail c cause).roll := by
  have hhas := hs.has h
  rw [hhas.live] at hx
  have hr := (sameTasks_reported s c cause).tidy hs
  have hscan : (s.reported c cause).scan? (charged c cause).task = some c := by
    rw [scan?,(sameTasks_reported s c cause).scans]
    exact h
  have hst : (s.reported c cause).store = s.store := by rw [reported_eq]
  have hrest := rest_reported s c cause c.task
  have hout {u : Service} {x : ScanFailure} (hu : u.Tidy)
      (hc : u.scan? (charged c cause).task = some c)
        (hd : (u.finishRetired (charged c cause) .egressDead x).scan? c.task = some d) : False := by
    have hlv := leaving_finishRetired hu hc hd
    simp [hl] at hlv
  rw [fail_eq,hk] at hd ⊢
  cases hb : c.budget.transportSpent with
  | true =>
    simp only [RetryBudget.decide,hb,if_true] at hd
    exact (hout (u := (s.reported c cause).killEgress c.session) ⟨hr.fresh,hr.counted⟩
      hscan hd).elim
  | false =>
    simp only [RetryBudget.decide,hb,Bool.false_eq_true,if_false] at hd ⊢
    cases hcl : ((s.reported c cause).killEgress (charged c cause).session).store.claimEgress with
    | mk st x =>
      have hr' : Tidy { s.reported c cause with store := st } := ⟨hr.fresh,hr.counted⟩
      cases x with
      | error x =>
        rw [substitute_error hcl] at hd
        exact (hout hr' hscan hd).elim
      | ok e =>
        rw [substitute_ok hcl]
        have hu : Has { s.reported c cause with store := st } (charged c cause) :=
          ⟨hr'.nodup_scans,c,hscan,rfl,rfl⟩
        have hm : Custody.Moves False (fun _ => False) _ _ := moves_enlist hu
          (d := { charged c cause with session := c.session.through e }) rfl none
        refine hm.keep (P := fun c' => Idle c.session.egress.id c'.store.roster c'.roll)
          (fun _ _ => (stays_idle _ _).move) ?_
        have hclaim : (s.store.kill c.session.egress.id).1.claimEgress = (st,.ok e) := by
          rw [← hst]
          exact hcl
        have ht := (s.store.keeps_kill c.session.egress.id).egresses _
          (hx.egresses c.session (Multiset.mem_cons_self _ _))
        have hn := (claimEgress_taken (Store.claimEgress_ok hclaim)).1
        have hroll : Service.rest { s.reported c cause with store := st } c.task = s.rest c.task :=
          hrest
        refine ⟨(Custody.keeps_of_claimEgress hclaim).egresses _ ht,fun p hp => ?_⟩
        dsimp only at hp
        rw [show (charged c cause).task = c.task from rfl,hroll] at hp
        rcases Multiset.mem_cons.mp hp with rfl | hp
        · exact fun he => hn (he ▸ ht)
        · exact hx.id_ne p.1 (Multiset.mem_map.mpr ⟨p,hp,rfl⟩)

theorem Orderly.keepsCondemned (h : s.Orderly False) (hx : Custody.Exclusive s.store.roster s.live)
    {es : List Event} (hes : ∀ x ∈ es, x.sparing = true) (t : ℕ) : s.KeepsCondemned es t := by
  rintro before e later b cause c rfl hb hr hk hc
  have he : e.sparing = true := hes e (List.mem_append_right _ List.mem_cons_self)
  have hlater : ∀ x ∈ later, x.sparing = true :=
    fun x hx => hes x (List.mem_append_right _ (List.mem_cons_of_mem _ hx))
  obtain ⟨ho,hxo,hhas,hf⟩ := h.failing hx hes hb hr (by rw [hk]; decide)
  have ho' := ho.spared_step he
  have hrun := ho'.spared_run hlater
  have hbt := scan?_task hb
  rw [run_append] at hc ⊢
  refine ⟨fun hl => ?_,fun ha => ?_⟩
  · have hidle : Idle b.session.egress.id ((s.run before).run (e :: later)).store.roster
        ((s.run before).run (e :: later)).roll := by
      refine ho'.keep_run (stays_idle _ _) hlater (fun _ _ => trivial) ?_
      have hd : ∃ d, ((s.run before).step e).scan? b.task = some d := by
        cases hd : ((s.run before).step e).scan? b.task with
        | some d => exact ⟨d,rfl⟩
        | none =>
          have hg := (hf ▸ handles_fail (s.run before) b cause).gone ho.tidy (hbt ▸ hb) hd
          rw [show ((s.run before).run (e :: later)) = ((s.run before).step e).run later from rfl,
            ← hbt,(hg.run ho'.tidy later).2.2.scan?_eq] at hc
          cases hc
      obtain ⟨d,hd⟩ := hd
      rw [hf] at hd ⊢
      refine idle_fail ho.tidy (hbt ▸ hb) hxo hk hd ?_
      by_contra hdl
      rw [Bool.not_eq_false] at hdl
      rw [← hf] at hd
      have hend : c.stage.standing.leaves = true := leaving_run ho'.tidy hd hdl (hbt ▸ hc)
      simp [hl] at hend
    have habort := hrun.keep_step (e := .abort t) (stays_idle _ _) rfl (fun _ _ => trivial) hidle
    exact ⟨(hidle.free _ (Multiset.mem_coe.mpr (mem_roll_scan hc))).symm,habort.taken⟩
  · have hmark := ho'.keep_run (Custody.stays_egressMarked b.session.egress.id) hlater
      (Q := fun _ => True) (fun _ _ => trivial) (by rw [hf]; exact egressMarked_fail hhas hxo ha hk)
    exact (hrun.keep_step (e := .abort t) (Custody.stays_egressMarked _) (Q := fun _ => True) rfl
      (fun _ _ => trivial) hmark).out

/-- Cancellation gives back exactly what the cancelled task has: in every state that a service
reaches, and wherever the task is. What was condemned on the way stays out of use. -/
theorem cancellation (settings : Settings) (store : Store) (clock : ℤ) {n : ℕ} {pool : Pool}
    (hp : Pool.ofCapacity n = .ready pool) (es : List Event) (t : ℕ) :
    ((fresh settings store pool clock).run es).Cancels t ∧
      ((∀ e ∈ es, e.sparing = true) → (fresh settings store pool clock).KeepsCondemned es t) := by
  have hf := exclusive_fresh settings store clock hp
  refine ⟨(tidy_run hf.1.tidy es).cancels t,fun hes => hf.1.keepsCondemned hf.2 hes t⟩

def relocation : List Event :=
  [.scan ⟨0,0⟩,.loginDone 0 (.error .egressDead),.loginDone 0 (.ok ())]

theorem cancellation_relocation :
    ((sample.run relocation).step (.abort 0)).store.roster.egresses =
        [⟨1,true,true⟩,⟨2,false,false⟩,⟨3,false,false⟩] ∧
      ((sample.run relocation).step (.abort 0)).store.roster.identities.all
        (fun i => !i.used) = true ∧
      (sample.run relocation).Cancels 0 ∧ sample.KeepsCondemned relocation 0 := by
  have hc := cancellation { acquireWait := 0, cooldown := 0, queryTimeout := 1000 } stocked
    0 (n := 1) rfl relocation 0
  refine ⟨by decide +kernel,by decide +kernel,hc.1,hc.2 ?_⟩
  simp [relocation,Event.sparing,Event.ofScans]

/-- A scan that is cancelled takes its own entry out of the registry, and no other. -/
def TakesItsEntry (s : Service) (t : ℕ) : Prop :=
  ∀ c, s.scan? t = some c → s.store.Accepts .releaseIdentity → s.store.Accepts .releaseEgress →
    ∀ x, x ∈ (s.step (.abort t)).registry.entries ↔ x ∈ s.registry.entries ∧ x ≠ c.session.entry

/-- While the registry is locked the entry stays, and where an administrator has freed the identity
of a scan for another one it is the entry of that which goes. -/
theorem not_takesItsEntry_locked :
    ¬ (sample.run [.scan ⟨0,0⟩,.lock]).TakesItsEntry 0 ∧
      ¬ (sample.run [.scan ⟨0,0⟩,.command (.releaseIdentity "ash"),.scan ⟨0,0⟩]).TakesItsEntry
        0 := by
  refine ⟨fun h => ?_,fun h => ?_⟩
  · exact absurd (h _ rfl rfl rfl ⟨"ash",1⟩) (by decide +kernel)
  · exact absurd (h _ rfl rfl rfl ⟨"ash",2⟩) (by decide +kernel)

end ScanService.Service
