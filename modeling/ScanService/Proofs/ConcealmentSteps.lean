import ScanService.Proofs.Concealment
import ScanService.Proofs.Tasks
/-! The service without the secrets. What it does to such a state, whatever happens, is what it does
to the whole one, without the secrets. -/
namespace ScanService

def Scan.conceal (c : Scan) : Scan := { c with session := c.session.conceal }

def Answer.conceal : Answer → Answer
  | .session result => .session (result.map Session.conceal)
  | a => a

def Occurrence.conceal : Occurrence → Occurrence
  | .obtained task session => .obtained task session.conceal
  | .failed task session cause => .failed task session.conceal cause
  | .handedBack task session way => .handedBack task session.conceal way
  | .answered task answer => .answered task answer.conceal
  | .received task session => .received task session.conceal
  | .drained session => .drained session.conceal
  | o => o

def Entry.conceal (e : Entry) : Entry := { e with what := e.what.conceal }

def Event.conceal : Event → Event
  | .command c => .command c.conceal
  | e => e

namespace Service

def conceal (s : Service) : Service :=
  { s with
    store := s.store.conceal
    pool := s.pool.conceal
    scans := s.scans.map Scan.conceal
    held := s.held.map Session.conceal
    history := s.history.map Entry.conceal }

variable (s : Service)

theorem store_conceal : s.conceal.store = s.store.conceal := rfl

theorem pool_conceal : s.conceal.pool = s.pool.conceal := rfl

theorem scan?_conceal (task : Nat) : s.conceal.scan? task = (s.scan? task).map Scan.conceal :=
  List.find?_map

theorem held?_conceal (serial : Nat) :
    s.conceal.held? serial = (s.held? serial).map Session.conceal :=
  List.find?_map

theorem conceal_note (o : Occurrence) : (s.note o).conceal = s.conceal.note o.conceal := rfl

theorem conceal_putScan (c : Scan) : (s.putScan c).conceal = s.conceal.putScan c.conceal := by
  have hm : (s.scans.map fun d => if d.task = c.task then c else d).map Scan.conceal =
      (s.scans.map Scan.conceal).map fun d => if d.task = c.conceal.task then c.conceal else d := by
    rw [List.map_map,List.map_map]
    exact List.map_congr_left fun d _ => apply_ite Scan.conceal _ _ _
  simp only [conceal,putScan,hm]

theorem conceal_dropScan (task : Nat) : (s.dropScan task).conceal = s.conceal.dropScan task := by
  simp only [conceal,dropScan,List.filter_map]
  rfl

theorem conceal_letGo (serial : Nat) : (s.letGo serial).conceal = s.conceal.letGo serial := by
  simp only [conceal,letGo,List.filter_map]
  rfl

/-! ### Sessions -/

theorem construct_conceal (task : Nat) : s.conceal.construct task =
    ((s.construct task).1.conceal,(s.construct task).2.map Session.conceal) := by
  unfold construct
  rw [store_conceal,Store.claimEgress_conceal]
  rcases s.store.claimEgress with ⟨st,e | egress⟩
  · rfl
  · dsimp only
    rw [Store.claimIdentity_conceal]
    rcases st.claimIdentity with ⟨st',e | i⟩
    · simp only [Except.map,Store.releaseEgress_conceal]
      rfl
    · rfl

theorem conceal_release (session : Session) (cooldown : Nat) :
    (s.release session cooldown).conceal = s.conceal.release session.conceal cooldown := by
  simp only [conceal,release,Pool.conceal_rest]
  rfl

theorem conceal_retire (session : Session) (reason : Retirement) :
    (s.retire session reason).1.conceal = (s.conceal.retire session.conceal reason).1 := by
  cases reason with
  | identityBanned =>
    have hr := s.store.releaseEgress_conceal session.egress.id
    exact congrArg (fun r => { s.conceal.observe (.retirement "identity_banned") with
      store := r.1 }) hr.symm
  | egressDead =>
    have hr := s.store.releaseIdentity_conceal session.identity.name
    exact congrArg (fun r => { s.conceal.observe (.retirement "egress_dead") with store := r.1 })
      hr.symm

theorem replaceEgress_conceal (session : Session) : s.conceal.replaceEgress session.conceal =
    ((s.replaceEgress session).1.conceal,(s.replaceEgress session).2.map Session.conceal) := by
  unfold replaceEgress
  rw [store_conceal,Store.claimEgress_conceal]
  rcases s.store.claimEgress with ⟨st,e | egress⟩ <;> rfl

theorem conceal_freeSession (session : Session) :
    (s.freeSession session).conceal = s.conceal.freeSession session.conceal := by
  unfold freeSession
  rw [store_conceal,show session.conceal.identity.name = session.identity.name from rfl,
    Store.releaseIdentity_conceal,Store.releaseEgress_conceal]
  rfl

theorem conceal_endSession (session : Session) :
    (s.endSession session).conceal = s.conceal.endSession session.conceal := conceal_freeSession _ _

theorem conceal_foldl_endSession (sessions : List Session) : (sessions.foldl endSession s).conceal =
    (sessions.map Session.conceal).foldl endSession s.conceal := by
  induction sessions generalizing s with
  | nil => rfl
  | cons session later ih =>
    rw [List.foldl_cons,ih,conceal_endSession,List.map_cons,List.foldl_cons]

theorem drain_conceal : s.conceal.drain = (s.drain.1.conceal,s.drain.2) := by
  have hf := conceal_foldl_endSession { s with pool := s.pool.takeAll.2 } s.pool.takeAll.1
  simp only [drain]
  rw [pool_conceal,Pool.takeAll_conceal,List.length_map]
  exact congrArg (fun t : Service => (t.observe (.parked t.pool.parked),s.pool.takeAll.1.length))
    hf.symm

theorem conceal_wake (serial : Nat) : (s.wake serial).conceal = s.conceal.wake serial := by
  have hl (p : Pool) : p.conceal.queue.length = p.queue.length := List.length_map _
  simp only [wake,pool_conceal,← Pool.conceal_wake,hl,apply_ite conceal]
  rfl

theorem conceal_enter : s.enter.conceal = s.conceal.enter := by
  have hl (p : Pool) : p.conceal.queue.length = p.queue.length := List.length_map _
  simp only [enter,pool_conceal,← Pool.conceal_enter,hl,apply_ite conceal]
  rfl

/-! ### Scans -/

theorem conceal_conclude (task started : Nat) (http : Bool)
    (result : Except ScanFailure (List (ScanObject Float))) :
    (s.conclude task started http result).conceal = s.conceal.conclude task started
      http result := by
  cases http <;> rfl

theorem conceal_finishReleased (c : Scan) (result : Except ScanFailure (List (ScanObject Float))) :
    (s.finishReleased c result).conceal = s.conceal.finishReleased c.conceal result := by
  simp only [finishReleased]
  rw [conceal_conclude,conceal_dropScan,conceal_note,conceal_release]
  rfl

theorem conceal_retireNow (c : Scan) (reason : Retirement) (e : ScanFailure) :
    (s.retireNow c reason e).conceal = s.conceal.retireNow c.conceal reason e := by
  simp only [retireNow]
  rw [conceal_conclude,conceal_dropScan,conceal_note,conceal_retire]
  rfl

theorem conceal_finishRetired (c : Scan) (reason : Retirement) (e : ScanFailure) :
    (s.finishRetired c reason e).conceal = s.conceal.finishRetired c.conceal reason e := by
  unfold finishRetired
  rw [apply_ite conceal,conceal_putScan,conceal_retireNow]
  rfl

theorem conceal_startLogin (c : Scan) (force : Bool) :
    (s.startLogin c force).conceal = s.conceal.startLogin c.conceal force := by
  rw [startLogin,conceal_putScan]
  rfl

theorem conceal_enlistNow (c : Scan) (place : Option (Coordinate Float)) :
    (s.enlistNow c place).conceal = s.conceal.enlistNow c.conceal place := by
  rw [enlistNow,conceal_startLogin]
  cases place <;> rfl

theorem conceal_enlist (c : Scan) (place : Option (Coordinate Float)) :
    (s.enlist c place).conceal = s.conceal.enlist c.conceal place := by
  unfold enlist
  rw [apply_ite conceal,conceal_putScan,conceal_enlistNow]
  rfl

theorem conceal_delist (account : String) :
    (s.delist account).conceal = s.conceal.delist account := by
  unfold delist
  rw [apply_ite conceal]
  rfl

theorem conceal_killEgress (session : Session) :
    (s.killEgress session).conceal = s.conceal.killEgress session.conceal :=
  congrArg (fun r => { s.conceal with store := r.1 }) (s.store.kill_conceal session.egress.id).symm

theorem conceal_substitute (c : Scan) :
    (s.substitute c).conceal = s.conceal.substitute c.conceal := by
  have hr := (s.killEgress c.session).replaceEgress_conceal c.session
  rw [conceal_killEgress] at hr
  simp only [substitute]
  rw [show c.conceal.session = c.session.conceal from rfl,hr]
  rcases (s.killEgress c.session).replaceEgress c.session with ⟨t,e | session⟩
  · exact t.conceal_finishRetired c .egressDead (.ofPool e)
  · exact t.conceal_enlist { c with session } none

theorem conceal_reported (c : Scan) (cause : RemoteFailure) :
    (s.reported c cause).conceal = s.conceal.reported c.conceal cause := by
  simp only [reported,apply_ite conceal]
  rfl

theorem conceal_fail (c : Scan) (cause : RemoteFailure) :
    (s.fail c cause).conceal = s.conceal.fail c.conceal cause := by
  have hc : (charged c cause).conceal = charged c.conceal cause := rfl
  rw [fail_eq,fail_eq,show c.conceal.budget = c.budget from rfl,
    show c.conceal.stage = c.stage from rfl]
  cases (c.budget.decide cause.category).1 with
  | substituteEgress => rw [conceal_substitute,conceal_reported,hc]
  | killEgress =>
    dsimp only
    rw [conceal_finishRetired,conceal_killEgress,conceal_reported,hc]
    rfl
  | banIdentity =>
    dsimp only
    rw [conceal_finishRetired,hc,← conceal_reported,store_conceal,
      show c.conceal.session.identity.name = c.session.identity.name from rfl,Store.ban_conceal]
    rfl
  | retryQuery =>
    cases c.stage with
    | login forced => rw [conceal_startLogin,conceal_reported,hc]
    | _ =>
      dsimp only
      rw [conceal_putScan,conceal_reported]
      rfl
  | giveUp =>
    dsimp only
    rw [conceal_finishReleased,conceal_reported,hc]

theorem conceal_loginDone (c : Scan) (forced : Bool) (result : Except RemoteFailure Unit) :
    (s.loginDone c forced result).conceal = s.conceal.loginDone c.conceal forced result := by
  cases result with
  | ok _ => exact s.conceal_putScan _
  | error cause => simp only [loginDone,apply_ite conceal,conceal_startLogin,conceal_fail]

theorem conceal_gateOpen (c : Scan) : (s.gateOpen c).conceal = s.conceal.gateOpen c.conceal := by
  rw [gateOpen,conceal_putScan]
  rfl

theorem conceal_fetchDone (c : Scan) (result : Except RemoteFailure MapResponse) :
    (s.fetchDone c result).conceal = s.conceal.fetchDone c.conceal result := by
  cases result with
  | ok response =>
    simp only [fetchDone,succeed,conceal_finishReleased]
    rw [store_conceal,← Store.conceal_writeAll]
    rfl
  | error cause => exact s.conceal_fail c cause

theorem conceal_expire (c : Scan) : (s.expire c).conceal = s.conceal.expire c.conceal :=
  s.conceal_fail c _

theorem conceal_begin (task started : Nat) (http : Bool) (place : Coordinate Float)
    (session : Session) : (s.begin task started http place session).conceal =
      s.conceal.begin task started http place session.conceal := by
  have hs : ((s.scans ++ [(⟨task,started,http,session,.full,.listing (some place)⟩ : Scan)]).map
      Scan.conceal) = s.scans.map Scan.conceal ++
    [⟨task,started,http,session.conceal,.full,.listing (some place)⟩] :=
    List.map_append
  unfold begin
  rw [conceal_enlist]
  exact congrArg (fun scans => enlist { s.conceal.note (.obtained task session.conceal) with scans }
    ⟨task,started,http,session.conceal,.full,.listing (some place)⟩ (some place)) hs

theorem conceal_abandon (c : Scan) : (s.abandon c).conceal = s.conceal.abandon c.conceal := by
  simp only [abandon]
  rw [conceal_dropScan,conceal_note,conceal_freeSession,conceal_delist]
  rfl

/-! ### The line -/

theorem conceal_provide (w : Waiter) (session : Session) :
    (s.provide w session).conceal = s.conceal.provide w session.conceal := by
  unfold provide
  cases w.purpose with
  | scan place http => exact s.conceal_begin _ _ _ _ _
  | _ => simp [conceal,note,Entry.conceal,Occurrence.conceal,Answer.conceal,Except.map]

theorem conceal_refuse (w : Waiter) (e : PoolFailure) :
    (s.refuse w e).conceal = s.conceal.refuse w e := by
  unfold refuse
  cases w.purpose with
  | scan place http => exact s.conceal_conclude _ _ _ _
  | _ => rfl

theorem conceal_giveUp (w : Waiter) : (s.giveUp w).conceal = s.conceal.giveUp w := by
  unfold giveUp
  cases w.purpose with
  | acquire => exact s.conceal_refuse _ _
  | _ =>
    dsimp only
    rw [construct_conceal]
    rcases s.construct w.task with ⟨t,e | session⟩
    · exact t.conceal_refuse w e
    · exact t.conceal_provide w session

theorem conceal_takeFirst (w : Waiter) (session : Session) (pool : Pool) :
    (s.takeFirst w session pool).conceal = s.conceal.takeFirst w session.conceal pool.conceal := by
  rw [takeFirst,conceal_provide]
  rfl

theorem conceal_clear (task sessions : Nat) :
    (s.clear task sessions).conceal = s.conceal.clear task sessions := by
  unfold clear
  rw [apply_ite conceal]
  rfl

theorem conceal_drainFor (w : Waiter) : (s.drainFor w).conceal = s.conceal.drainFor w := by
  unfold drainFor
  rw [drain_conceal]
  cases w.purpose with
  | shutdown => exact s.drain.1.conceal_clear w.task s.drain.2
  | _ => rfl

/-- Someone in line goes on with the session that it received, or gives up, or stays as it was. -/
theorem conceal_received (left : Service) (w : Waiter) (received : Option (Session × Pool)) :
    (match received with
      | some (session,pool) => left.takeFirst w session pool
      | none => if w.overdue s.now then left.giveUp w else s).conceal =
    match received.map fun r => (r.1.conceal,r.2.conceal) with
      | some (session,pool) => left.conceal.takeFirst w session pool
      | none => if w.overdue s.now then left.conceal.giveUp w else s.conceal := by
  cases received with
  | none => exact (apply_ite conceal _ _ _).trans (by rw [conceal_giveUp]; rfl)
  | some r => exact left.conceal_takeFirst w r.1 r.2

theorem conceal_poll (task : Nat) : (s.poll task).conceal = s.conceal.poll task := by
  have hr : (if s.pool.isFirst task then (s.pool.leave task).conceal.receive? else none) =
      (if s.pool.isFirst task then (s.pool.leave task).receive? else none).map
        fun r => (r.1.conceal,r.2.conceal) := by
    rw [Pool.receive?_conceal,apply_ite (Option.map _)]
    rfl
  unfold poll
  rw [show s.conceal.pool.waiter? task = s.pool.waiter? task from rfl]
  cases s.pool.waiter? task with
  | none => rfl
  | some w =>
    let left : Service := { s with pool := s.pool.leave task }
    simp only [show s.conceal.pool.isFirst task = s.pool.isFirst task from rfl,apply_ite conceal]
    refine if_congr Iff.rfl (left.conceal_drainFor w) ?_
    have hs := s.conceal_received left w
      (if s.pool.isFirst task then (s.pool.leave task).receive? else none)
    rw [← hr] at hs
    exact hs

theorem conceal_arrive (purpose : Purpose) (wait : Nat) :
    (s.arrive purpose wait).conceal = s.conceal.arrive purpose wait := conceal_poll _ _

theorem conceal_abort (task : Nat) : (s.abort task).conceal = s.conceal.abort task := by
  unfold abort
  rw [scan?_conceal]
  cases s.scan? task with
  | none =>
    dsimp only [Option.map_none]
    rw [show s.conceal.pool.waiter? task = s.pool.waiter? task from rfl]
    cases s.pool.waiter? task <;> rfl
  | some c => exact s.conceal_abandon c

/-! ### Answers to clients -/

theorem observations_conceal : s.conceal.observations = s.observations := by
  simp only [observations,conceal,← List.map_reverse,List.filterMap_map]
  congr 1
  funext e
  cases e with
  | mk time what => cases what <;> rfl

theorem answerCached_conceal (place : Coordinate Float) (kinds : List ObjectKind) :
    s.conceal.answerCached place kinds =
      ((s.answerCached place kinds).1.conceal,(s.answerCached place kinds).2) := by
  have hq := s.store.query_conceal place s.settings.cacheRadius kinds s.seconds
  unfold answerCached
  rw [store_conceal,show s.conceal.settings = s.settings from rfl,
    show s.conceal.seconds = s.seconds from rfl,hq]
  rcases s.store.query place s.settings.cacheRadius kinds s.seconds with ⟨st,e | os⟩ <;> rfl

theorem answerStats_conceal :
    s.conceal.answerStats = (s.answerStats.1.conceal,s.answerStats.2) := by
  unfold answerStats
  rw [store_conceal,Store.identityStats_conceal]
  rcases s.store.identityStats with ⟨st,e | i⟩
  · rfl
  · dsimp only
    rw [Store.egressStats_conceal]
    rcases st.egressStats with ⟨st',e | e⟩ <;> rfl

theorem handle_conceal (d : Demand) :
    s.conceal.handle d = ((s.handle d).1.conceal,(s.handle d).2) := by
  cases d with
  | cached place kinds => exact s.answerCached_conceal place kinds
  | status given =>
    simp only [handle,show s.conceal.authorized given = s.authorized given from rfl]
    split <;> rfl
  | stats given =>
    simp only [handle,show s.conceal.authorized given = s.authorized given from rfl]
    split
    · exact s.answerStats_conceal
    · rfl
  | metrics => simp only [handle,observations_conceal]
  | _ => rfl

theorem conceal_request (r : Http.Request) : (s.request r).conceal = s.conceal.request r := by
  unfold request
  cases Demand.ofRequest r with
  | scan place => exact s.conceal_arrive _ _
  | _ =>
    dsimp only
    rw [handle_conceal]
    rfl

/-! ### Steps -/

theorem conceal_constructHeld : s.constructHeld.1.conceal = s.conceal.constructHeld.1 := by
  let t : Service := { s with nextTask := s.nextTask + 1 }
  have hc : ({ s.conceal with nextTask := s.conceal.nextTask + 1 }).construct s.conceal.nextTask =
      ((t.construct s.nextTask).1.conceal,(t.construct s.nextTask).2.map Session.conceal) :=
    t.construct_conceal s.nextTask
  unfold constructHeld
  rw [hc]
  rcases t.construct s.nextTask with ⟨u,e | session⟩
  · rfl
  · simp [conceal,Except.map]

theorem conceal_releaseHeld (serial cooldown : Nat) :
    (s.releaseHeld serial cooldown).conceal = s.conceal.releaseHeld serial cooldown := by
  unfold releaseHeld
  rw [held?_conceal]
  cases s.held? serial with
  | none => rfl
  | some h =>
    dsimp only [Option.map_some]
    rw [conceal_release,conceal_letGo]

theorem conceal_retireHeld (serial : Nat) (reason : Retirement) :
    (s.retireHeld serial reason).1.conceal = (s.conceal.retireHeld serial reason).1 := by
  have hc := s.held?_conceal serial
  cases hh : s.held? serial with
  | none =>
    rw [hh] at hc
    simp [retireHeld,hh,hc]
  | some h =>
    rw [hh] at hc
    rw [retireHeld_eq hh,retireHeld_eq hc,conceal_retire,conceal_letGo]

theorem conceal_replaceHeld (serial : Nat) :
    (s.replaceHeld serial).1.conceal = (s.conceal.replaceHeld serial).1 := by
  unfold replaceHeld
  rw [held?_conceal]
  cases s.held? serial with
  | none => rfl
  | some h =>
    dsimp only [Option.map_some]
    rw [replaceEgress_conceal]
    rcases s.replaceEgress h with ⟨t,e | h'⟩
    · rfl
    · have hm : (t.held.map fun k => if k.serial = serial then h' else k).map Session.conceal =
          (t.held.map Session.conceal).map fun k =>
          if k.serial = serial then h'.conceal else k := by
        rw [List.map_map,List.map_map]
        exact List.map_congr_left fun k _ => apply_ite Session.conceal _ _ _
      exact congrArg (fun held => { t.conceal with held }) hm

theorem conceal_reconcileStatus : s.reconcileStatus.1.conceal = s.conceal.reconcileStatus.1 := by
  have hr := s.store.reconcile_conceal s.registry.snapshot
  exact congrArg (fun r => { s.conceal with store := r.1 }) hr.symm

theorem conceal_purge : s.purge.conceal = s.conceal.purge := by
  have hp := s.store.purge_conceal s.seconds
  unfold purge
  rw [store_conceal,show s.conceal.seconds = s.seconds from rfl,hp]
  rcases s.store.purge s.seconds with ⟨st,e | n⟩ <;> rfl

theorem conceal_onLogin (task : Nat) (result : Except RemoteFailure Unit) :
    (s.onLogin task result).conceal = s.conceal.onLogin task result := by
  unfold onLogin
  rw [scan?_conceal]
  cases s.scan? task with
  | none => rfl
  | some c =>
    dsimp only [Option.map_some]
    rw [show c.conceal.stage = c.stage from rfl]
    cases c.stage with
    | login forced => exact s.conceal_loginDone c forced result
    | _ => rfl

theorem conceal_onGate (task : Nat) : (s.onGate task).conceal = s.conceal.onGate task := by
  unfold onGate
  rw [scan?_conceal]
  cases s.scan? task with
  | none => rfl
  | some c =>
    dsimp only [Option.map_some]
    rw [apply_ite conceal,conceal_gateOpen]
    rfl

theorem conceal_onFetch (task : Nat) (result : Except RemoteFailure MapResponse) :
    (s.onFetch task result).conceal = s.conceal.onFetch task result := by
  unfold onFetch
  rw [scan?_conceal]
  cases s.scan? task with
  | none => rfl
  | some c =>
    dsimp only [Option.map_some]
    rw [show c.conceal.stage = c.stage from rfl]
    cases c.stage with
    | fetch deadline => exact s.conceal_fetchDone c result
    | _ => rfl

theorem overdue_conceal (c : Scan) : s.conceal.overdue c.conceal = s.overdue c := rfl

theorem conceal_onExpiry (task : Nat) : (s.onExpiry task).conceal = s.conceal.onExpiry task := by
  unfold onExpiry
  rw [scan?_conceal]
  cases s.scan? task with
  | none => rfl
  | some c =>
    dsimp only [Option.map_some]
    rw [apply_ite conceal,conceal_expire,overdue_conceal]

theorem conceal_onWake (serial : Nat) : (s.onWake serial).conceal = s.conceal.onWake serial := by
  have ha : (s.conceal.pool.cooling.any fun r =>
      r.session.serial = serial && r.due ≤ s.conceal.now) = s.pool.cooling.any fun r =>
    r.session.serial = serial && r.due ≤ s.now := List.any_map
  unfold onWake
  rw [apply_ite conceal,conceal_wake,ha]

theorem conceal_onRegister (task : Nat) :
    (s.onRegister task).conceal = s.conceal.onRegister task := by
  unfold onRegister
  rw [scan?_conceal]
  cases s.scan? task with
  | none => rfl
  | some c =>
    dsimp only [Option.map_some]
    rw [apply_ite conceal,show c.conceal.stage = c.stage from rfl,
      show s.conceal.locked = s.locked from rfl]
    cases c.stage with
    | listing place => rw [conceal_enlistNow]
    | delisting reason e => rw [conceal_retireNow]
    | _ => rfl

theorem conceal_onForget (account : String) :
    (s.onForget account).conceal = s.conceal.onForget account := by
  unfold onForget
  rw [apply_ite conceal]
  rfl

theorem conceal_onClear (task : Nat) : (s.onClear task).conceal = s.conceal.onClear task := by
  unfold onClear
  rw [show s.conceal.clearing? task = s.clearing? task from rfl]
  cases s.clearing? task with
  | none => rfl
  | some c => exact apply_ite conceal _ _ _

theorem conceal_take (turn : Turn) : (s.take turn).conceal = s.conceal.take turn := by
  cases turn with
  | poll task => exact s.conceal_poll task
  | wake serial => exact s.conceal_onWake serial
  | enter => exact s.conceal_enter
  | expire task => exact s.conceal_onExpiry task
  | register task => exact s.conceal_onRegister task
  | forget account => exact s.conceal_onForget account
  | clear task => exact s.conceal_onClear task
  | unlock => rfl

/-- What the service does is the same but for the secrets. -/
theorem conceal_step (e : Event) : (s.step e).conceal = s.conceal.step e.conceal := by
  cases e with
  | scan place => exact s.conceal_arrive _ _
  | request r => exact s.conceal_request r
  | acquire wait => exact s.conceal_arrive _ _
  | checkout wait => exact s.conceal_arrive _ _
  | drain => exact s.conceal_arrive _ _
  | shutdown => exact s.conceal_arrive _ _
  | construct => exact s.conceal_constructHeld
  | release serial cooldown => exact s.conceal_releaseHeld serial cooldown
  | retire serial reason => exact s.conceal_retireHeld serial reason
  | replaceEgress serial => exact s.conceal_replaceHeld serial
  | turn t => exact s.conceal_take t
  | loginDone task result => exact s.conceal_onLogin task result
  | gateOpen task => exact s.conceal_onGate task
  | fetchDone task result => exact s.conceal_onFetch task result
  | abort task => exact s.conceal_abort task
  | command c => exact congrArg (fun store => { s.conceal with store }) (s.store.conceal_run c)
  | reconcileStatus => exact s.conceal_reconcileStatus
  | purge => exact s.conceal_purge
  | plan c fails => rfl
  | assign e => rfl
  | lock => rfl
  | elapse millis => rfl
  | setClock millis => rfl

end Service

end ScanService
