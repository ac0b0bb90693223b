import ScanService.Proofs.Alike
/-! What scans, the line, requests and callers do to two services that are alike leaves them
alike. -/
namespace ScanService

namespace Service

variable {readers : List ℕ} {s t : Service}

section Frame

variable (h : Alike readers s t)
include h

/-! ### Scans -/

theorem Alike.conclude (task started : ℕ) (http : Bool)
    (result : Except ScanFailure (List (ScanObject Float))) :
    Alike readers (s.conclude task started http result) (t.conclude task started http result) := by
  have hn := (h.observe (.scan (outcome result) (spanSeconds (s.now - started)))).note
    (.returned task result)
  unfold Service.conclude
  rw [h.now]
  cases http with
  | false => exact hn
  | true => exact (hn.observe _).note _

theorem Alike.finishReleased (c : Scan) (result : Except ScanFailure (List (ScanObject Float))) :
    Alike readers (s.finishReleased c result) (t.finishReleased c result) := by
  unfold Service.finishReleased
  rw [h.settings]
  exact (((h.release _ _).note _).dropScan _).conclude _ _ _ _

theorem Alike.retireNow (c : Scan) (reason : Retirement) (e : ScanFailure) :
    Alike readers (s.retireNow c reason e) (t.retireNow c reason e) := by
  unfold Service.retireNow
  rw [h.registry]
  exact ((((h.withRegistry _).retire _ _).note _).dropScan _).conclude _ _ _ _

theorem Alike.finishRetired (c : Scan) (reason : Retirement) (e : ScanFailure) :
    Alike readers (s.finishRetired c reason e) (t.finishRetired c reason e) := by
  unfold Service.finishRetired
  rw [h.locked]
  split
  · exact h.putScan _
  · exact h.retireNow c reason e

theorem Alike.startLogin (c : Scan) (force : Bool) :
    Alike readers (s.startLogin c force) (t.startLogin c force) :=
  (h.call _ _ _).putScan _

theorem Alike.enlistNow (c : Scan) (place : Option (Coordinate Float)) :
    Alike readers (s.enlistNow c place) (t.enlistNow c place) := by
  unfold Service.enlistNow Service.enrol
  rw [h.registry]
  cases place with
  | none => exact (h.withRegistry _).startLogin c false
  | some p => exact ((h.withRegistry _).call _ _ _).startLogin c false

theorem Alike.enlist (c : Scan) (place : Option (Coordinate Float)) :
    Alike readers (s.enlist c place) (t.enlist c place) := by
  unfold Service.enlist
  rw [h.locked]
  split
  · exact h.putScan _
  · exact h.enlistNow c place

theorem Alike.killEgress (session : Session) :
    Alike readers (s.killEgress session) (t.killEgress session) :=
  h.withStore (h.store.onRoster_fst (c := .killEgress) (by decide) _)

theorem Alike.substitute (c : Scan) : Alike readers (s.substitute c) (t.substitute c) := by
  obtain ⟨s',t',r,hs,ht,ha⟩ := (h.killEgress c.session).replaceEgress c.session
  unfold Service.substitute
  dsimp only
  rw [hs,ht]
  cases r with
  | error e => exact ha.finishRetired c .egressDead (.ofPool e)
  | ok session => exact ha.enlist _ none

theorem Alike.reported (c : Scan) (cause : RemoteFailure) :
    Alike readers (s.reported c cause) (t.reported c cause) := by
  have hn := h.note (.failed c.task c.session cause)
  unfold Service.reported
  dsimp only
  split
  · exact hn.observe _
  · exact hn

theorem Alike.fail (c : Scan) (cause : RemoteFailure) :
    Alike readers (s.fail c cause) (t.fail c cause) := by
  have hr := h.reported c cause
  rw [fail_eq,fail_eq]
  cases (c.budget.decide cause.category).1 with
  | substituteEgress => exact hr.substitute _
  | killEgress => exact (hr.killEgress _).finishRetired _ _ _
  | banIdentity =>
    exact (hr.withStore (h.store.onRoster_fst (c := .banIdentity) (by decide) _)).finishRetired _ _
      _
  | retryQuery =>
    cases c.stage with
    | login forced => exact hr.startLogin _ _
    | _ => exact hr.putScan _
  | giveUp => exact hr.finishReleased _ _

/-- Which objects can be stored makes no difference to a scan that has found them. -/
theorem Alike.succeed (c : Scan) (response : MapResponse) :
    Alike readers (s.succeed c response) (t.succeed c response) := by
  have hw := ((s.store.alike_writeAll (response.objects s.clock)).symm.trans h.store).trans
    (t.store.alike_writeAll (response.objects s.clock))
  have hr := (h.withStore hw).finishReleased c (.ok (response.objects s.clock))
  cases h
  exact hr

theorem Alike.loginDone (c : Scan) (forced : Bool) (result : Except RemoteFailure Unit) :
    Alike readers (s.loginDone c forced result) (t.loginDone c forced result) := by
  cases result with
  | ok _ => exact h.putScan _
  | error cause =>
    unfold Service.loginDone
    dsimp only
    split
    · exact h.startLogin _ _
    · exact h.fail _ _

theorem Alike.gateOpen (c : Scan) : Alike readers (s.gateOpen c) (t.gateOpen c) := by
  cases h with
  | mk records told => exact .mk records (.cons ⟨rfl,.same _⟩ told)

theorem Alike.fetchDone (c : Scan) (result : Except RemoteFailure MapResponse) :
    Alike readers (s.fetchDone c result) (t.fetchDone c result) := by
  cases result with
  | ok response => exact h.succeed c response
  | error cause => exact h.fail c cause

theorem Alike.begin (task started : ℕ) (http : Bool) (place : Coordinate Float)
    (session : Session) : Alike readers (s.begin task started http place session)
    (t.begin task started http place session) := by
  unfold Service.begin
  refine Alike.enlist ?_ _ _
  exact (h.note _).frame (fun u => { u with scans := u.scans ++ [_] }) fun _ _ _ => rfl

theorem Alike.abandon (c : Scan) : Alike readers (s.abandon c) (t.abandon c) :=
  (((h.delist _).freeSession _).note _).dropScan _

/-! ### The line -/

theorem Alike.provide (w : Waiter) (session : Session) :
    Alike readers (s.provide w session) (t.provide w session) := by
  unfold Service.provide
  rw [h.held]
  cases w.purpose with
  | scan place http => exact h.begin _ _ _ _ _
  | _ => exact (h.withHeld _).note _

theorem Alike.refuse (w : Waiter) (e : PoolFailure) :
    Alike readers (s.refuse w e) (t.refuse w e) := by
  unfold Service.refuse
  cases w.purpose with
  | scan place http => exact h.conclude _ _ _ _
  | _ => exact h.note _

theorem Alike.giveUp (w : Waiter) : Alike readers (s.giveUp w) (t.giveUp w) := by
  obtain ⟨s',t',r,hs,ht,ha⟩ := h.construct w.task
  unfold Service.giveUp
  rw [hs,ht]
  cases w.purpose with
  | acquire => exact h.refuse _ _
  | _ =>
    cases r with
    | error e => exact ha.refuse w e
    | ok session => exact ha.provide w session

theorem Alike.takeFirst (w : Waiter) (session : Session) (pool : Pool) :
    Alike readers (s.takeFirst w session pool) (t.takeFirst w session pool) :=
  (((h.withPool pool).observe _).note _).provide w session

theorem Alike.clearNow (task sessions : ℕ) :
    Alike readers (s.clearNow task sessions) (t.clearNow task sessions) :=
  (h.withRegistry _).note _

theorem Alike.clear (task sessions : ℕ) :
    Alike readers (s.clear task sessions) (t.clear task sessions) := by
  have hw := h.frame (fun u => { u with clearings := u.clearings ++ [⟨task,sessions⟩] })
    fun _ _ _ => rfl
  have hn := h.clearNow task sessions
  cases h
  unfold Service.clear
  dsimp only
  split
  · exact hw
  · exact hn

theorem Alike.dropClearing (task : ℕ) : Alike readers (s.dropClearing task) (t.dropClearing task) :=
  h.frame (·.dropClearing task) fun _ _ _ => rfl

theorem Alike.drainFor (w : Waiter) : Alike readers (s.drainFor w) (t.drainFor w) := by
  obtain ⟨s',t',n,hs,ht,ha⟩ := h.drain
  unfold Service.drainFor
  rw [hs,ht]
  cases w.purpose with
  | shutdown => exact ha.clear w.task n
  | _ => exact ha.note _

theorem Alike.poll (task : ℕ) : Alike readers (s.poll task) (t.poll task) := by
  have hl := h.withPool (s.pool.leave task)
  -- opened before the definition is: a rewrite of the pool would reach into the state that has left
  -- the line
  cases h with
  | mk records told =>
    unfold Service.poll
    dsimp only
    cases s.pool.waiter? task with
    | none => exact .mk records told
    | some w =>
      dsimp only
      split
      · exact hl.drainFor w
      · cases (if s.pool.isFirst task then (s.pool.leave task).receive? else none) with
        | some r => exact hl.takeFirst w r.1 r.2
        | none =>
          dsimp only
          split
          · exact hl.giveUp w
          · exact .mk records told

theorem Alike.arrive (purpose : Purpose) (wait : ℕ) :
    Alike readers (s.arrive purpose wait) (t.arrive purpose wait) := by
  let w : Waiter :=
    ⟨s.nextTask,purpose,s.now,wait,if purpose.drains then none else some (s.after wait)⟩
  have hj := ((h.withPool (s.pool.join w)).withNextTask (s.nextTask + 1)).poll s.nextTask
  cases h
  exact hj

theorem Alike.abort (task : ℕ) : Alike readers (s.abort task) (t.abort task) := by
  unfold Service.abort
  rw [h.scan?_eq,h.pool]
  cases s.scan? task with
  | none =>
    cases s.pool.waiter? task with
    | none => exact h.dropClearing task
    | some w => exact h.withPool _
  | some c => exact h.abandon c

/-! ### Answers to clients -/

theorem Alike.answerCached (place : Coordinate Float) (kinds : List ObjectKind) :
    Alike readers (s.answerCached place kinds).1 (t.answerCached place kinds).1 := by
  have hq := h.store.query place s.settings.cacheRadius kinds s.seconds
  rw [← h.seconds,← h.settings] at hq
  obtain ⟨s',t',ha,⟨e,hs,ht⟩ | ⟨os,os',hs,ht⟩⟩ := hq
  · rw [h.seconds,h.settings] at hs
    unfold Service.answerCached
    rw [hs,ht]
    exact (h.withStore ha).observe _
  · rw [h.seconds,h.settings] at hs
    unfold Service.answerCached
    rw [hs,ht]
    exact (h.withStore ha).observe _

theorem Alike.answerStats : ∃ s' t' r, s.answerStats = (s',r) ∧ t.answerStats = (t',r) ∧
    Alike readers s' t' := by
  obtain ⟨s₁,t₁,r,hs,ht,ha⟩ := h.store.identityStats
  unfold Service.answerStats
  rw [hs,ht]
  cases r with
  | error e => exact ⟨_,_,_,rfl,rfl,h.withStore ha⟩
  | ok i =>
    obtain ⟨s₂,t₂,r,hs,ht,ha⟩ := ha.egressStats
    dsimp only
    rw [hs,ht]
    cases r with
    | error e => exact ⟨_,_,_,rfl,rfl,h.withStore ha⟩
    | ok e =>
      cases h with
      | mk _ told => exact ⟨_,_,_,rfl,rfl,.mk ha told⟩

/-- But for a search of the objects and for the metrics, the answers are the same. -/
theorem Alike.handle (d : Demand) : Alike readers (s.handle d).1 (t.handle d).1 ∧
    (d.reads = false → (t.handle d).2 = (s.handle d).2) := by
  cases d with
  | reply r => exact ⟨h,fun _ => rfl⟩
  | refusal route text => exact ⟨h.observe _,fun _ => rfl⟩
  | scan place => exact ⟨h,fun _ => rfl⟩
  | cached place kinds => exact ⟨h.answerCached place kinds,nofun⟩
  | status given =>
    simp only [Service.handle,h.authorized,h.registry]
    split <;> exact ⟨h,fun _ => rfl⟩
  | stats given =>
    obtain ⟨s',t',r,hs,ht,ha⟩ := h.answerStats
    simp only [Service.handle,h.authorized,hs,ht]
    split
    · exact ⟨ha,fun _ => rfl⟩
    · exact ⟨h,fun _ => rfl⟩
  | health =>
    cases h with
    | mk records told => exact ⟨.mk records told,fun _ => rfl⟩
  | metrics => exact ⟨h,nofun⟩

theorem Alike.request {r : Http.Request}
    (hr : (Demand.ofRequest r).reads = true → s.nextTask ∈ readers) :
    Alike readers (s.request r) (t.request r) := by
  obtain ⟨ha,hs⟩ := h.handle (Demand.ofRequest r)
  have hn : Occurrence.Alike readers
      (.answered s.nextTask (.response (withoutBody r (s.handle (Demand.ofRequest r)).2)))
      (.answered t.nextTask (.response (withoutBody r (t.handle (Demand.ofRequest r)).2))) := by
    rw [h.nextTask]
    cases hd : (Demand.ofRequest r).reads with
    | true => exact .answer (hr hd) _ _
    | false =>
      rw [hs hd]
      exact .same _
  have hq := (ha.withNextTask (s.nextTask + 1)).notes hn
  unfold Service.request
  cases hd : Demand.ofRequest r with
  | scan place =>
    dsimp only
    rw [h.settings]
    exact h.arrive _ _
  | _ =>
    dsimp only
    rw [hd,h.nextTask] at hq
    rw [h.nextTask]
    exact hq

/-! ### Steps -/

theorem Alike.constructHeld : Alike readers s.constructHeld.1 t.constructHeld.1 := by
  obtain ⟨s',t',r,hs,ht,ha⟩ := (h.withNextTask (s.nextTask + 1)).construct s.nextTask
  rw [← h.nextTask] at ht
  unfold Service.constructHeld
  rw [hs,ht]
  cases r with
  | error e => exact ha
  | ok session =>
    dsimp only
    rw [ha.held]
    exact ha.withHeld _

theorem Alike.releaseHeld (serial cooldown : ℕ) :
    Alike readers (s.releaseHeld serial cooldown) (t.releaseHeld serial cooldown) := by
  unfold Service.releaseHeld
  rw [h.held?_eq]
  cases s.held? serial with
  | none => exact h
  | some session => exact (h.letGo serial).release _ _

theorem Alike.retireHeld (serial : ℕ) (reason : Retirement) :
    Alike readers (s.retireHeld serial reason).1 (t.retireHeld serial reason).1 := by
  cases hs : s.held? serial with
  | none =>
    have ht := h.held?_eq serial
    simp only [Service.retireHeld,hs,ht]
    exact h
  | some session =>
    rw [retireHeld_eq hs,retireHeld_eq ((h.held?_eq serial).trans hs)]
    exact (h.letGo serial).retire _ _

theorem Alike.replaceHeld (serial : ℕ) :
    Alike readers (s.replaceHeld serial).1 (t.replaceHeld serial).1 := by
  unfold Service.replaceHeld
  rw [h.held?_eq]
  cases s.held? serial with
  | none => exact h
  | some session =>
    obtain ⟨s',t',r,hs,ht,ha⟩ := h.replaceEgress session
    dsimp only
    rw [hs,ht]
    cases r with
    | error e => exact ha
    | ok session' =>
      dsimp only
      rw [ha.held]
      exact ha.withHeld _

theorem Alike.reconcileStatus : Alike readers s.reconcileStatus.1 t.reconcileStatus.1 := by
  have hr := h.store.onRoster_fst (c := .reconcile) (by decide)
    (Roster.transaction (fun _ => none) (Roster.reconciliation s.registry.snapshot))
  unfold Service.reconcileStatus
  cases h with
  | mk _ told => exact .mk hr told

/-- A purge removes what there is, and both see it done or not. -/
theorem Alike.purge : Alike readers s.purge t.purge := by
  obtain ⟨s',t',ha,⟨e,hs,ht⟩ | ⟨m,n,hs,ht⟩⟩ := h.store.purge s.seconds
  · rw [← h.seconds] at ht
    unfold Service.purge
    rw [hs,ht]
    exact h.withStore ha
  · rw [← h.seconds] at ht
    unfold Service.purge
    rw [hs,ht]
    exact (h.withStore ha).notes (.purge _ _ _)

theorem Alike.onLogin (task : ℕ) (result : Except RemoteFailure Unit) :
    Alike readers (s.onLogin task result) (t.onLogin task result) := by
  unfold Service.onLogin
  rw [h.scan?_eq]
  cases s.scan? task with
  | none => exact h
  | some c =>
    dsimp only
    cases c.stage with
    | login forced => exact h.loginDone c forced result
    | _ => exact h

theorem Alike.onGate (task : ℕ) : Alike readers (s.onGate task) (t.onGate task) := by
  unfold Service.onGate
  rw [h.scan?_eq]
  cases s.scan? task with
  | none => exact h
  | some c =>
    dsimp only
    split
    · exact h.gateOpen c
    · exact h

theorem Alike.onFetch (task : ℕ) (result : Except RemoteFailure MapResponse) :
    Alike readers (s.onFetch task result) (t.onFetch task result) := by
  unfold Service.onFetch
  rw [h.scan?_eq]
  cases s.scan? task with
  | none => exact h
  | some c =>
    dsimp only
    cases c.stage with
    | fetch deadline => exact h.fetchDone c result
    | _ => exact h

theorem Alike.onExpiry (task : ℕ) : Alike readers (s.onExpiry task) (t.onExpiry task) := by
  unfold Service.onExpiry
  rw [h.scan?_eq]
  cases s.scan? task with
  | none => exact h
  | some c =>
    dsimp only
    rw [h.overdue_eq]
    split
    · unfold Service.expire
      rw [h.settings]
      exact h.fail c _
    · exact h

theorem Alike.onWake (serial : ℕ) : Alike readers (s.onWake serial) (t.onWake serial) := by
  unfold Service.onWake
  rw [h.pool,h.now]
  split
  · exact h.wake serial
  · exact h

theorem Alike.onRegister (task : ℕ) : Alike readers (s.onRegister task) (t.onRegister task) := by
  unfold Service.onRegister
  rw [h.scan?_eq,h.locked]
  cases s.scan? task with
  | none => exact h
  | some c =>
    dsimp only
    split
    · exact h
    · cases c.stage with
      | listing place => exact h.enlistNow c place
      | delisting reason e => exact h.retireNow c reason e
      | _ => exact h

theorem Alike.onForget (account : String) :
    Alike readers (s.onForget account) (t.onForget account) := by
  refine h.frame (·.onForget account) fun u _ _ => ?_
  unfold Service.onForget
  dsimp only
  split <;> rfl

theorem Alike.onClear (task : ℕ) : Alike readers (s.onClear task) (t.onClear task) := by
  unfold Service.onClear
  rw [h.clearing?_eq,h.locked]
  cases s.clearing? task with
  | none => exact h
  | some c =>
    dsimp only
    split
    · exact h
    · exact (h.dropClearing task).clearNow task c.sessions

theorem Alike.take (turn : Turn) : Alike readers (s.take turn) (t.take turn) := by
  cases turn with
  | poll task => exact h.poll task
  | wake serial => exact h.onWake serial
  | enter => exact h.enter
  | expire task => exact h.onExpiry task
  | register task => exact h.onRegister task
  | forget account => exact h.onForget account
  | clear task => exact h.onClear task
  | unlock => exact h.frame ({ · with locked := false }) fun _ _ _ => rfl

/-- Whatever happens to both, they stay alike. -/
theorem Alike.step {e : Event} (he : ∀ task ∈ s.reads e, task ∈ readers) :
    Alike readers (s.step e) (t.step e) := by
  cases e with
  | scan place =>
    simp only [Service.step,h.settings]
    exact h.arrive _ _
  | request r => exact h.request fun hr => he _ (by simp [reads,hr])
  | acquire wait => exact h.arrive _ _
  | checkout wait => exact h.arrive _ _
  | drain => exact h.arrive _ _
  | shutdown => exact h.arrive _ _
  | construct => exact h.constructHeld
  | release serial cooldown => exact h.releaseHeld serial cooldown
  | retire serial reason => exact h.retireHeld serial reason
  | replaceEgress serial => exact h.replaceHeld serial
  | turn turn => exact h.take turn
  | loginDone task result => exact h.onLogin task result
  | gateOpen task => exact h.onGate task
  | fetchDone task result => exact h.onFetch task result
  | abort task => exact h.abort task
  | command c => exact h.withStore (h.store.run c)
  | plan c fails => exact h.withStore (h.store.plan c fails)
  | lock => exact h.frame (·.step .lock) fun _ _ _ => rfl
  | assign entry => exact h.frame (·.step (.assign entry)) fun _ _ _ => rfl
  | reconcileStatus => exact h.reconcileStatus
  | purge => exact h.purge
  | elapse millis => exact h.frame (·.step (.elapse millis)) fun _ _ _ => rfl
  | setClock millis => exact h.frame (·.step (.setClock millis)) fun _ _ _ => rfl

end Frame

end Service

end ScanService
