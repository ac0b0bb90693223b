import ScanService.Proofs.Custody
/-! The service makes the moves. Every step of a scan, of the line, of the pool and of the interface
is some of the moves of custody, or none. -/
namespace ScanService

open Custody

namespace Service

variable {books : Prop} {Q : Session → Prop} {s : Service} {c : Scan}

def rest (s : Service) (t : ℕ) : Multiset (Session × Standing) := (s.dropScan t).roll

/-- A scan stands where it stands on record, with the session that it has there. -/
structure Has (s : Service) (c : Scan) : Prop where
  distinct : (s.scans.map (·.task)).Nodup
  found : ∃ d, s.scan? c.task = some d ∧ d.session = c.session ∧ d.stage.standing = c.stage.standing

theorem Tidy.has (hs : s.Tidy) {t : ℕ} (h : s.scan? t = some c) : s.Has c :=
  ⟨hs.nodup_scans,c,by rw [scan?_task h,h],rfl,rfl⟩

theorem Has.roll (h : s.Has c) :
    (s.roll : Multiset (Session × Standing)) = (c.session,c.stage.standing) ::ₘ s.rest c.task := by
  obtain ⟨d,hd,he,hg⟩ := h.found
  have hp := ((perm_cons_filter h.distinct hd).map fun e => (e.session,e.stage.standing)).symm
  rw [List.map_cons,he,hg] at hp
  rw [rest,Multiset.cons_coe,Multiset.coe_eq_coe]
  exact hp.append_right _

theorem Has.roll_putScan (h : s.Has c) {c' : Scan} (hc : c'.task = c.task) :
    ((s.putScan c').roll : Multiset (Session × Standing)) =
      (c'.session,c'.stage.standing) ::ₘ s.rest c.task := by
  obtain ⟨d,hd,_⟩ := h.found
  have hp := (perm_map_replace h.distinct hd c').map fun e => (e.session,e.stage.standing)
  rw [List.map_cons,← hc] at hp
  rw [rest,Multiset.cons_coe,Multiset.coe_eq_coe,← hc]
  exact hp.append_right _

/-- The sessions alive apart from that of one task, wherever they stand. -/
theorem Has.live (h : s.Has c) :
    (s.live : Multiset Session) = c.session ::ₘ (s.rest c.task).map Prod.fst := by
  rw [← live_custody]
  exact live_of_roll (c := s.custody) h.roll

theorem Has.custody (h : s.Has c) :
    s.custody = { s.custody with roll := (c.session,c.stage.standing) ::ₘ s.rest c.task } := by
  rw [← h.roll]
  rfl

theorem Has.custody_putScan (h : s.Has c) {d : Scan} (hc : d.task = c.task) :
    (s.putScan d).custody =
      { s.custody with roll := (d.session,d.stage.standing) ::ₘ s.rest c.task } := by
  rw [← h.roll_putScan hc]
  rfl

theorem Has.custody_same (h : s.Has c) {d : Scan} (hc : d.task = c.task)
    (hs : d.session = c.session) (hg : d.stage.standing = c.stage.standing) :
    (s.putScan d).custody = s.custody := by
  rw [h.custody_putScan hc,hs,hg,← h.custody]

/-! ### Steps of one scan -/

theorem custody_startLogin (h : s.Has c) {d : Scan} (hc : d.task = c.task) (force : Bool) :
    (s.startLogin d force).custody =
      { s.custody with roll := (d.session,.listed) ::ₘ s.rest c.task } :=
  Has.custody_putScan (s := s.call d.task d.session (.login force)) (c := c) ⟨h.distinct,h.found⟩
    (d := { d with stage := .login force }) hc

theorem custody_enrol (s : Service) (c : Scan) (place : Option (Coordinate Float)) :
    (s.enrol c place).custody =
      { s.custody with registry := s.registry.assign c.session.entry } := by
  cases place <;> rfl

theorem rest_enrol (s : Service) (c : Scan) (place : Option (Coordinate Float)) (t : ℕ) :
    (s.enrol c place).rest t = s.rest t := by
  cases place <;> rfl

theorem custody_enlistNow (h : s.Has c) {d : Scan} (hc : d.task = c.task)
    (place : Option (Coordinate Float)) :
    (s.enlistNow d place).custody = { s.custody with
      registry := s.registry.assign d.session.entry, roll :=
        (d.session,.listed) ::ₘ s.rest c.task } := by
  have hh : (s.enrol d place).Has c := by
    cases place <;> exact ⟨h.distinct,h.found⟩
  rw [enlistNow,custody_startLogin hh hc,custody_enrol,rest_enrol]

/-- A scan whose session is to be entered waits for that, or it is entered at once. -/
theorem moves_enlist (h : s.Has c) {d : Scan} (hc : d.task = c.task)
    (place : Option (Coordinate Float)) :
    Moves books Q { s.custody with roll := (d.session,.coming) ::ₘ s.rest c.task }
      (s.enlist d place).custody := by
  unfold enlist
  split
  · rw [h.custody_putScan (d := { d with stage := .listing place }) hc]
    exact Moves.refl _
  · rw [custody_enlistNow h hc]
    exact (Move.enter rfl).moves

theorem store_enlist (s : Service) (c : Scan) (place : Option (Coordinate Float)) :
    (s.enlist c place).store = s.store := by
  unfold enlist
  split
  · rfl
  · cases place <;> rfl

theorem Has.live_putScan (h : s.Has c) {d : Scan} (hc : d.task = c.task) :
    ((s.putScan d).live : Multiset Session) = d.session ::ₘ (s.rest c.task).map Prod.fst := by
  rw [← live_custody]
  exact live_of_roll (c := (s.putScan d).custody) (h.roll_putScan hc)

theorem roll_finishReleased (s : Service) (c : Scan)
    (r : Except ScanFailure (List (ScanObject Float))) :
    ((s.finishReleased c r).roll : Multiset (Session × Standing)) =
      (c.session,.listed) ::ₘ s.rest c.task := by
  rw [finishReleased,conclude_eq,rest,Multiset.cons_coe,Multiset.coe_eq_coe]
  simp only [Service.roll,release,note,dropScan,Pool.rest,Pool.sessions,List.map_append,
    List.map_cons,List.map_nil,← List.append_assoc]
  exact List.perm_append_singleton _ _

theorem custody_finishReleased (h : s.Has c) (hl : c.stage.standing = .listed)
    (r : Except ScanFailure (List (ScanObject Float))) :
    (s.finishReleased c r).custody = s.custody := by
  rw [h.custody,Service.custody,roll_finishReleased,finishReleased,conclude_eq,hl]
  rfl

theorem custody_retireNow (s : Service) (c : Scan) (reason : Retirement) (e : ScanFailure) :
    (s.retireNow c reason e).custody = { s.custody with
      store := reason.spare s.store c.session, registry :=
        s.registry.remove c.session.identity.name,
      roll := s.rest c.task } := by
  rw [retireNow,conclude_eq]
  cases reason <;> rfl

/-- A scan whose session is to be taken out of service waits for the registry, or it ends at
once. -/
theorem moves_finishRetired (h : s.Has c) (reason : Retirement) (e : ScanFailure) :
    Moves books Q { s.custody with roll := (c.session,.leaving reason) ::ₘ s.rest c.task }
      (s.finishRetired c reason e).custody := by
  unfold finishRetired
  split
  · rw [h.custody_putScan (d := { c with stage := .delisting reason e }) rfl]
    exact Moves.refl _
  · rw [custody_retireNow]
    exact (Move.dismiss rfl).moves

variable (books Q) in
/-- The session of a scan goes on through another egress, or it is given up. -/
theorem custody_substitute (h : s.Has c) :
    (∃ st e, (s.store.kill c.session.egress.id).1.claimEgress = (st,.ok e) ∧
      Moves books Q { s.custody with
        store := st, roll := (c.session.through e,.coming) ::ₘ s.rest c.task }
          (s.substitute c).custody) ∨
    (∃ st, (s.store.kill c.session.egress.id).1.SameRecords st ∧
      Moves books Q { s.custody with
        store := st, roll := (c.session,.leaving .egressDead) ::ₘ s.rest c.task }
        (s.substitute c).custody) := by
  cases hc : (s.killEgress c.session).store.claimEgress with
  | mk st x =>
    have h' : Has { s with store := st } c := ⟨h.distinct,h.found⟩
    cases x with
    | error e =>
      rw [substitute_error hc]
      exact Or.inr ⟨st,Store.claimEgress_error hc,moves_finishRetired h' _ _⟩
    | ok e =>
      rw [substitute_ok hc]
      exact Or.inl ⟨st,e,hc,
        moves_enlist h' (d := { c with session := c.session.through e }) rfl none⟩

theorem Has.roll_listed (h : s.Has c) (hl : c.stage.standing = .listed) :
    s.custody.roll = (c.session,.listed) ::ₘ s.rest c.task :=
  hl ▸ h.roll

theorem moves_substitute (h : s.Has c) (hl : c.stage.standing = .listed) :
    Moves books Q s.custody (s.substitute c).custody := by
  rcases custody_substitute books Q h with ⟨st,e,hc,hs⟩ | ⟨st,hc,hs⟩
  · exact (Move.swap (h.roll_listed hl) hc).moves.trans hs
  · exact (Move.bury (h.roll_listed hl) hc).moves.trans hs

theorem Has.reported (h : s.Has c) (cause : RemoteFailure) :
    (s.reported c cause).Has (charged c cause) := by
  rw [reported_eq]
  exact ⟨h.distinct,h.found⟩

theorem custody_reported (s : Service) (c : Scan) (cause : RemoteFailure) :
    (s.reported c cause).custody = s.custody := by
  rw [reported_eq]
  rfl

theorem moves_fail (h : s.Has c) (hl : c.stage.standing = .listed) (cause : RemoteFailure) :
    Moves books Q s.custody (s.fail c cause).custody := by
  have hr := h.reported cause
  have hs : s.custody = (s.reported c cause).custody := (custody_reported s c cause).symm
  have hst : s.store = (s.reported c cause).store := congrArg Custody.store hs
  rw [fail_eq,hs]
  cases (c.budget.decide cause.category).1 with
  | substituteEgress => exact moves_substitute hr hl
  | killEgress =>
    have hk : ((s.reported c cause).killEgress c.session).Has (charged c cause) :=
      ⟨hr.distinct,hr.found⟩
    exact (Move.bury (hr.roll_listed hl) (.refl _)).moves.trans (moves_finishRetired hk _ _)
  | banIdentity =>
    have hb : Has { s.reported c cause with store := (s.store.ban c.session.identity.name).1 }
        (charged c cause) := ⟨hr.distinct,hr.found⟩
    refine Moves.trans (Move.expel (hr.roll_listed hl)).moves ?_
    rw [hst] at hb ⊢
    exact moves_finishRetired hb _ _
  | retryQuery =>
    have hp (stage : Stage) (hg : stage.standing = .listed) :
        ((s.reported c cause).putScan { charged c cause with stage }).custody =
          (s.reported c cause).custody :=
      hr.custody_same rfl rfl (hg.trans hl.symm)
    cases hc : c.stage with
    | login forced =>
      dsimp only
      rw [custody_startLogin hr (d := charged c cause) rfl false,← hr.roll_listed hl]
      exact Moves.refl _
    | _ =>
      dsimp only
      rw [hp .pacing rfl]
      exact Moves.refl _
  | giveUp =>
    dsimp only
    rw [custody_finishReleased hr hl]
    exact Moves.refl _

theorem moves_loginDone (h : s.Has c) (forced : Bool) (hc : c.stage = .login forced)
    (r : Except RemoteFailure Unit) : Moves books Q s.custody (s.loginDone c forced r).custody := by
  have hl : c.stage.standing = .listed := by rw [hc]; rfl
  cases r with
  | ok u =>
    rw [loginDone,h.custody_same (d := { c with stage := .pacing }) rfl rfl hl.symm]
    exact Moves.refl _
  | error cause =>
    dsimp only [loginDone]
    split
    · rw [custody_startLogin h rfl true,← h.roll_listed hl]
      exact Moves.refl _
    · exact moves_fail h hl cause

theorem custody_gateOpen (h : s.Has c) (hc : c.stage = .pacing) :
    (s.gateOpen c).custody = s.custody := by
  have h' : (s.call c.task c.session .fetch).Has c := ⟨h.distinct,h.found⟩
  have hs := h'.custody_same (d := { c with stage := .fetch (s.after s.settings.queryTimeout) }) rfl
    rfl (by rw [hc]; rfl)
  exact hs

theorem moves_fetchDone (h : s.Has c) (hl : c.stage.standing = .listed)
    (r : Except RemoteFailure MapResponse) : Moves books Q s.custody (s.fetchDone c r).custody := by
  cases r with
  | ok response =>
    have h' : Has { s with store := s.store.writeAll (response.objects s.clock) } c :=
      ⟨h.distinct,h.found⟩
    simp only [fetchDone,succeed]
    rw [custody_finishReleased h' hl]
    exact (Move.pause (c := s.custody) (s.store.sameRecords_writeAll _)).moves
  | error cause => exact moves_fail h hl cause

theorem delists_delist (s : Service) (account : String) :
    Delists s.custody account (s.delist account).custody := by
  unfold delist
  split
  · have hp : ((s.leftovers ++ [account] : List String) : Multiset String) =
        account ::ₘ s.leftovers := by
      rw [Multiset.cons_coe,Multiset.coe_eq_coe]
      exact List.perm_append_singleton _ _
    rw [show ({ s with leftovers := s.leftovers ++ [account] } : Service).custody =
      { s.custody with leftovers := account ::ₘ s.leftovers } by rw [← hp]; rfl]
    exact .later
  · exact .atOnce

theorem live_abandon (s : Service) (c : Scan) : (s.abandon c).live = (s.dropScan c.task).live := by
  unfold abandon delist
  split <;> rfl

theorem moves_abandon (h : s.Has c) (hs : c.stage.standing.leaves = true → Q c.session) :
    Moves books Q s.custody (s.abandon c).custody := by
  have hd := delists_delist s c.session.identity.name
  have hr : (s.abandon c).custody = { (s.delist c.session.identity.name).custody with
      store := c.session.freed s.store, roll := s.rest c.task } := by
    unfold abandon delist
    split <;> rfl
  rw [hr]
  exact (Move.abandon h.roll hs hd).moves

theorem moves_enlistNow (h : s.Has c) (hl : c.stage.standing = .coming)
    (place : Option (Coordinate Float)) :
    Moves books Q s.custody (s.enlistNow c place).custody := by
  have hc : s.custody.roll = (c.session,.coming) ::ₘ s.rest c.task := hl ▸ h.roll
  rw [custody_enlistNow h rfl]
  exact (Move.enter hc).moves

theorem moves_retireNow (h : s.Has c) {reason : Retirement}
    (hl : c.stage.standing = .leaving reason) (e : ScanFailure) :
    Moves books Q s.custody (s.retireNow c reason e).custody := by
  have hc : s.custody.roll = (c.session,.leaving reason) ::ₘ s.rest c.task := hl ▸ h.roll
  rw [custody_retireNow]
  exact (Move.dismiss hc).moves

/-! ### The pool -/

theorem sessions_receive? {p p' : Pool} {session : Session} (h : p.receive? = some (session,p')) :
    p.sessions = session :: p'.sessions := by
  unfold Pool.receive? at h
  split at h
  · simp at h
  · rename_i hq
    simp only [Option.some.injEq,Prod.mk.injEq] at h
    rw [← h.2,← h.1]
    simp [Pool.sessions,hq]

theorem perm_wake {p : Pool} (hp : (p.cooling.map (·.session.serial)).Nodup) (serial : ℕ) :
    (p.wake serial).sessions.Perm p.sessions := by
  unfold Pool.wake
  split
  · exact List.Perm.refl _
  · rename_i r hr
    have hc := (perm_cons_filter hp hr).map Resting.session
    have he := (hc.append_left p.entering).append_left p.queue
    dsimp only
    split
    · simp only [Pool.sessions,List.append_assoc,List.singleton_append]
      exact (List.perm_middle.symm.append_left p.queue).trans he
    · simp only [Pool.sessions,List.append_assoc,List.singleton_append]
      exact he

theorem perm_enter (p : Pool) : p.enter.sessions.Perm p.sessions := by
  unfold Pool.enter
  split
  · exact List.Perm.refl _
  · rename_i session later he
    split
    · simp [Pool.sessions,he]
    · exact List.Perm.refl _

theorem moves_endSessions (h : ¬ books) (l : List Session) (s : Service) :
    Moves books Q { s.custody with
      roll := (l.map (·,Standing.listed) ++ s.roll : List (Session × Standing)) }
      (l.foldl endSession s).custody := by
  induction l generalizing s with
  | nil => exact Moves.refl _
  | cons session l ih =>
    rw [List.map_cons,List.cons_append,← Multiset.cons_coe]
    exact (Move.drain rfl h).moves.trans (ih (s.endSession session))

theorem roll_takeAll (s : Service) : (s.roll : Multiset (Session × Standing)) =
    (s.pool.queue.map (·,Standing.listed) ++ ({ s with pool := s.pool.takeAll.2 } : Service).roll :
      List (Session × Standing)) := by
  rw [Multiset.coe_eq_coe]
  simp only [roll,Pool.sessions,Pool.takeAll,List.nil_append,List.map_append,List.append_assoc]
  simp only [← List.append_assoc (List.map _ _) (s.held.map _)]
  exact List.perm_append_comm_assoc _ _ _

theorem live_takeAll (s : Service) : (s.live : Multiset Session) =
    (s.pool.queue ++ ({ s with pool := s.pool.takeAll.2 } : Service).live : List Session) := by
  have hr := congrArg (Multiset.map Prod.fst) (roll_takeAll s)
  rw [Multiset.map_coe,Multiset.map_coe,map_roll,List.map_append,map_roll] at hr
  simpa [Function.comp_def] using hr

theorem moves_drain (h : ¬ books) (s : Service) :
    Moves books Q s.custody s.drain.1.custody := by
  rw [custody,roll_takeAll]
  exact moves_endSessions h s.pool.queue { s with pool := s.pool.takeAll.2 }

/-! ### Those in line -/

theorem custody_conclude (s : Service) (task started : ℕ) (http : Bool)
    (r : Except ScanFailure (List (ScanObject Float))) :
    (s.conclude task started http r).custody = s.custody := by
  rw [conclude_eq]
  rfl

theorem moves_begin {task : ℕ} (hs : (s.scans.map (·.task)).Nodup) (h : task ∉ s.scans.map (·.task))
    (started : ℕ) (http : Bool) (place : Coordinate Float) (session : Session) :
    Moves books Q { s.custody with roll := (session,.coming) ::ₘ s.roll }
      (s.begin task started http place session).custody := by
  let c : Scan := ⟨task,started,http,session,.full,.listing (some place)⟩
  let s' : Service := { s.note (.obtained task session) with scans := s.scans ++ [c] }
  have hn : ((s.scans ++ [c]).map (·.task)).Nodup := by
    rw [List.map_append]
    exact List.nodup_append_comm.mp (List.nodup_cons.mpr ⟨h,hs⟩)
  have hf : s'.scan? task = some c := by
    have ho : s.scans.find? (fun d => d.task = task) = none := find?_eq_none_of_not_mem h
    simp [s',Service.scan?,List.find?_append,ho,c]
  have hh : s'.Has c := ⟨hn,c,hf,rfl,rfl⟩
  have hr : (s.roll : Multiset (Session × Standing)) = s'.rest task := by
    have hd : (s.scans ++ [c]).filter (fun d => d.task ≠ task) = s.scans := by
      rw [List.filter_append,filter_ne_of_not_mem h]
      simp [c]
    rw [rest]
    simp only [roll,dropScan,s',hd]
    rfl
  rw [hr]
  exact moves_enlist hh rfl (some place)

theorem construct_cases (s : Service) (task : ℕ) :
    (∃ st x, s.store.claimEgress = (st,.error x) ∧
      s.construct task = ({ s with store := st },.error (.ofStore x))) ∨
    (∃ st₁ st₂ egress x, s.store.claimEgress = (st₁,.ok egress) ∧
      st₁.claimIdentity = (st₂,.error x) ∧
      s.construct task = ({ s with store := (st₂.releaseEgress egress.id).1 },
        .error (.ofStore x))) ∨
    (∃ st₁ st₂ egress identity, s.store.claimEgress = (st₁,.ok egress) ∧
      st₁.claimIdentity = (st₂,.ok identity) ∧
      s.construct task = (({ s with store := st₂, nextSession := s.nextSession + 1 }).call task
        ⟨s.nextSession,identity,egress⟩ .create,.ok ⟨s.nextSession,identity,egress⟩)) := by
  cases he : s.store.claimEgress with
  | mk st₁ x =>
    cases x with
    | error x => exact Or.inl ⟨st₁,x,rfl,by simp only [construct,he]⟩
    | ok egress =>
      cases hi : st₁.claimIdentity with
      | mk st₂ y =>
        cases y with
        | error y => exact Or.inr (Or.inl ⟨st₁,st₂,egress,y,rfl,hi,by simp only [construct,he,hi]⟩)
        | ok identity =>
          exact Or.inr (Or.inr ⟨st₁,st₂,egress,identity,rfl,hi,by simp only [construct,he,hi]⟩)

theorem custody_refuse (s : Service) (w : Waiter) (e : PoolFailure) :
    (s.refuse w e).custody = s.custody := by
  unfold refuse
  split
  · exact custody_conclude s _ _ _ _
  · rfl

theorem moves_giveUp {w : Waiter} (hs : (s.scans.map (·.task)).Nodup)
    (h : w.task ∉ s.scans.map (·.task)) {place : Coordinate Float} {http : Bool}
    (hw : w.purpose = .scan place http) : Moves books Q s.custody (s.giveUp w).custody := by
  simp only [giveUp,hw]
  rcases s.construct_cases w.task with ⟨st,x,he,hc⟩ | ⟨st₁,st₂,egress,x,he,hi,hc⟩ | ⟨st₁,st₂,egress,
    identity,he,hi,hc⟩
  · rw [hc]
    dsimp only
    rw [custody_refuse]
    exact (Move.pause (c := s.custody) (Store.claimEgress_error he)).moves
  · rw [hc]
    dsimp only
    rw [custody_refuse]
    exact (Move.waste (c := s.custody) he hi).moves
  · rw [hc]
    simp only [provide,hw]
    let session : Session := ⟨s.nextSession,identity,egress⟩
    let built : Service := ({ s with store := st₂, nextSession := s.nextSession + 1 }).call w.task
      session .create
    have hb : Moves books Q _ _ := moves_begin (s := built) hs h w.since http place session
    exact (Move.hire (c := s.custody) he hi).moves.trans hb

theorem moves_takeFirst {w : Waiter} (hs : (s.scans.map (·.task)).Nodup)
    (h : w.task ∉ s.scans.map (·.task)) {place : Coordinate Float}
    {http : Bool} (hw : w.purpose = .scan place http) {session : Session} {pool : Pool}
    (hr : s.pool.receive? = some (session,pool)) :
    Moves books Q s.custody (s.takeFirst w session pool).custody := by
  let s' : Service := { s with pool }
  have hl : s.custody.roll = (session,.listed) ::ₘ s'.roll := by
    rw [Multiset.cons_coe,custody,Multiset.coe_eq_coe,roll,sessions_receive? hr,List.map_append,
      List.map_cons,roll,List.map_append]
    exact (List.perm_middle.append_left _).trans List.perm_middle
  simp only [takeFirst,provide,hw]
  let paid : Service := (s'.observe (.parked pool.parked)).note (.received w.task session)
  have hb : Moves books Q _ _ := moves_begin (s := paid) hs h w.since http place session
  exact (Move.greet hl).moves.trans hb

theorem moves_clear (h : ¬ books) (s : Service) (task sessions : ℕ) :
    Moves books Q s.custody (s.clear task sessions).custody := by
  unfold clear
  split
  · exact Moves.refl _
  · exact (Move.relist .empty _ h).moves

theorem moves_drainFor (h : ¬ books) (s : Service) (w : Waiter) :
    Moves books Q s.custody (s.drainFor w).custody := by
  have hd : Moves books Q s.custody s.drain.1.custody := moves_drain h s
  unfold drainFor
  split
  · exact hd.trans (moves_clear h s.drain.1 w.task s.drain.2)
  · exact hd

/-- Someone in line wants a session for a scan, or to end the parked sessions if the books need not
be right. -/
def Sits (books : Prop) (w : Waiter) : Prop :=
  (∃ place http, w.purpose = .scan place http) ∨
  (¬ books ∧ w.purpose.drains = true ∧ w.deadline = none)

def Lined (books : Prop) (s : Service) : Prop := ∀ w ∈ s.pool.waiters, Sits books w

theorem moves_poll (hs : s.Tidy) (hl : s.Lined books) (t : ℕ) :
    Moves books Q s.custody (s.poll t).custody := by
  unfold poll
  cases hw : s.pool.waiter? t with
  | none => exact Moves.refl _
  | some w =>
    have hm : w ∈ s.pool.waiters := List.mem_of_find?_eq_some hw
    have hn := hs.not_mem_scans hm
    let left : Service := { s with pool := s.pool.leave t }
    have hleft : left.custody = s.custody := rfl
    dsimp only
    rcases hl w hm with ⟨place,http,hp⟩ | ⟨hb,hd,hn'⟩
    · rw [if_neg (by simp [hp,Purpose.drains])]
      split
      · rename_i session pool hr
        have hr' : left.pool.receive? = some (session,pool) := by
          split at hr
          · exact hr
          · simp at hr
        exact hleft ▸ moves_takeFirst (s := left) hs.nodup_scans hn hp hr'
      · split
        · exact hleft ▸ moves_giveUp (s := left) hs.nodup_scans hn hp
        · exact Moves.refl _
    · split
      · exact hleft ▸ moves_drainFor hb left w
      · rename_i hf
        have hf' : s.pool.isFirst t = false := by simpa [hd] using hf
        have ho : w.overdue s.now = false := by simp [Waiter.overdue,hn']
        simp only [hf',ho,Bool.false_eq_true,if_false]
        exact Moves.refl _

theorem lined_poll (hs : s.Tidy) (hl : s.Lined books) (t : ℕ) : (s.poll t).Lined books := by
  rcases enters_poll hs t with he | ⟨_,he⟩
  · exact he.symm ▸ hl
  · intro w hw
    rw [he.waiters] at hw
    exact hl w (List.mem_of_mem_filter hw)

theorem moves_arrive (hs : s.Tidy) (hl : s.Lined books) {purpose : Purpose}
    (hp : (∃ place http, purpose = .scan place http) ∨ (¬ books ∧ purpose.drains = true))
    (wait : ℕ) : Moves books Q s.custody (s.arrive purpose wait).custody ∧
    (s.arrive purpose wait).Lined books := by
  have hd : purpose.drains = true →
      (if purpose.drains then none else some (s.after wait)) = none := by
    intro h
    simp [h]
  generalize hg : (if purpose.drains then none else some (s.after wait)) = deadline at hd
  let s' : Service := { s with
    pool := s.pool.join ⟨s.nextTask,purpose,s.now,wait,deadline⟩, nextTask := s.nextTask + 1 }
  have hs' : s'.Tidy := hs.join purpose s.now wait deadline
  have hl' : s'.Lined books := by
    intro w hw
    rcases List.mem_append.mp hw with hw | hw
    · exact hl w hw
    · rw [List.mem_singleton.mp hw]
      rcases hp with hp | ⟨hb,hp⟩
      · exact Or.inl hp
      · exact Or.inr ⟨hb,hp,hd hp⟩
  have ha : s.arrive purpose wait = s'.poll s.nextTask := by
    simp only [arrive,hg]
    rfl
  rw [ha]
  exact ⟨moves_poll (s := s') hs' hl' s.nextTask,lined_poll hs' hl' s.nextTask⟩

/-! ### Every step -/

theorem spends_handle (s : Service) (d : Demand) : s.store.Spends (s.handle d).1.store := by
  cases d with
  | cached place kinds =>
    have hq := s.store.spends_ask .query
      (·.objects.query Geometry.sphere place s.settings.cacheRadius kinds s.seconds)
    simp only [handle,answerCached,Store.query]
    split <;> simp_all [observe,note]
  | status given =>
    simp only [handle]
    split <;> exact .refl _
  | stats given =>
    have hi := s.store.spends_ask .identityStats (·.roster.identityStats)
    have he (st : Store) := st.spends_ask .egressStats (·.roster.egressStats)
    simp only [handle,answerStats,Store.identityStats,Store.egressStats]
    split
    · split
      · simp_all
      · rename_i st i h
        have ht := he st
        split <;> simp_all
        all_goals exact hi.trans ht
    · exact .refl _
  | _ => exact .refl _

theorem sameRecords_handle (s : Service) (d : Demand) : s.store.SameRecords (s.handle d).1.store :=
  (spends_handle s d).sameRecords

theorem moves_handle (s : Service) (d : Demand) :
    Moves books Q s.custody (s.handle d).1.custody := by
  rw [handle_eq]
  exact (Move.pause (c := s.custody) (sameRecords_handle s d)).moves

theorem moves_request (hs : s.Tidy) (hl : s.Lined books) (r : Http.Request) :
    Moves books Q s.custody (s.request r).custody ∧ (s.request r).Lined books := by
  unfold request
  split
  · rename_i place _
    exact moves_arrive hs hl (Or.inl ⟨place,true,rfl⟩) _
  · refine ⟨moves_handle s (Demand.ofRequest r),?_⟩
    dsimp only
    rw [handle_eq]
    exact hl

/-- The session of a scan that a step abandons while it waits to be taken out of service. -/
def Spoils (s : Service) (e : Event) (σ : Session) : Prop :=
  ∃ t c, e = .abort t ∧ s.scan? t = some c ∧ c.stage.standing.leaves = true ∧ c.session = σ

theorem moves_abort (hs : s.Tidy) (hl : s.Lined books) (t : ℕ)
    (hsp : ∀ σ, s.Spoils (.abort t) σ → Q σ) :
    Moves books Q s.custody (s.abort t).custody ∧ (s.abort t).Lined books := by
  unfold abort
  split
  · rename_i c hc
    refine ⟨moves_abandon (hs.has hc) fun h => hsp _ ⟨t,c,rfl,hc,h,rfl⟩,fun w hw => hl w ?_⟩
    rwa [(handles_abandon s c).waiters] at hw
  · split
    · exact ⟨Moves.refl _,fun w hw => hl w (List.mem_of_mem_filter hw)⟩
    · exact ⟨Moves.refl _,hl⟩

theorem moves_purge (s : Service) : Moves books Q s.custody s.purge.custody := by
  have hp := s.store.sameRecords_onObjects .purge fun t =>
    ((t.purge s.seconds).1,.ok (t.purge s.seconds).2)
  simp only [purge,Store.purge]
  split
  · rename_i st n h
    rw [h] at hp
    exact (Move.pause (c := s.custody) hp).moves
  · rename_i st e h
    rw [h] at hp
    exact (Move.pause (c := s.custody) hp).moves

theorem serials_cooling (h : s.custody.Serial) : (s.pool.cooling.map (·.session.serial)).Nodup := by
  have hn : (s.live.map Session.serial).Nodup := by simpa [Serial] using h.nodup
  have hc := (List.nodup_append.mp (List.map_append ▸ hn)).2.1
  have hr := (List.nodup_append.mp (List.map_append ▸ hc)).2.1
  rw [List.map_map] at hr
  exact hr

theorem serials_held (h : s.custody.Serial) : (s.held.map (·.serial)).Nodup := by
  have hn : (s.live.map Session.serial).Nodup := by simpa [Serial] using h.nodup
  have hc := (List.nodup_append.mp (List.map_append ▸ hn)).1
  exact (List.nodup_append.mp (List.map_append ▸ hc)).2.1

theorem custody_of_perm {s s' : Service} (hp : s'.pool.sessions.Perm s.pool.sessions)
    (hs : s' = { s with pool := s'.pool, history := s'.history }) : s'.custody = s.custody := by
  rw [hs]
  have hr : (roll { s with pool := s'.pool, history := s'.history } :
    Multiset (Session × Standing)) =
      s.roll := by
    rw [Multiset.coe_eq_coe]
    exact ((hp.append_left _).map _).append_left _
  rw [custody,hr]
  rfl

theorem custody_wake (h : s.custody.Serial) (serial : ℕ) : (s.wake serial).custody = s.custody := by
  have hp := perm_wake (serials_cooling h) serial
  unfold wake
  dsimp only
  split
  · exact custody_of_perm hp rfl
  · exact custody_of_perm hp rfl

theorem custody_enter (s : Service) : s.enter.custody = s.custody := by
  have hp := perm_enter s.pool
  unfold enter
  dsimp only
  split
  · exact custody_of_perm hp rfl
  · exact custody_of_perm hp rfl

theorem moves_onLogin (hs : s.Tidy) (t : ℕ) (r : Except RemoteFailure Unit) :
    Moves books Q s.custody (s.onLogin t r).custody := by
  unfold onLogin
  split
  · exact Moves.refl _
  · rename_i c hc
    split
    · rename_i forced hg
      exact moves_loginDone (hs.has hc) forced hg r
    · exact Moves.refl _

theorem moves_onGate (hs : s.Tidy) (t : ℕ) : Moves books Q s.custody (s.onGate t).custody := by
  unfold onGate
  split
  · exact Moves.refl _
  · rename_i c hc
    split
    · rename_i hg
      rw [custody_gateOpen (hs.has hc) hg]
      exact Moves.refl _
    · exact Moves.refl _

theorem moves_onFetch (hs : s.Tidy) (t : ℕ) (r : Except RemoteFailure MapResponse) :
    Moves books Q s.custody (s.onFetch t r).custody := by
  unfold onFetch
  split
  · exact Moves.refl _
  · rename_i c hc
    split
    · rename_i hg
      exact moves_fetchDone (hs.has hc) (by rw [hg]; rfl) r
    · exact Moves.refl _

theorem standing_of_overdue (h : s.overdue c = true) : c.stage.standing = .listed := by
  unfold overdue at h
  split at h
  · rename_i hg
    rw [hg]
    rfl
  · simp at h

theorem moves_onExpiry (hs : s.Tidy) (t : ℕ) : Moves books Q s.custody (s.onExpiry t).custody := by
  unfold onExpiry
  split
  · exact Moves.refl _
  · rename_i c hc
    split
    · rename_i ho
      exact moves_fail (hs.has hc) (standing_of_overdue ho) _
    · exact Moves.refl _

theorem moves_onRegister (hs : s.Tidy) (t : ℕ) :
    Moves books Q s.custody (s.onRegister t).custody := by
  unfold onRegister
  split
  · exact Moves.refl _
  · rename_i c hc
    split
    · exact Moves.refl _
    · split
      · rename_i place hg
        exact moves_enlistNow (hs.has hc) (by rw [hg]; rfl) place
      · rename_i reason e hg
        exact moves_retireNow (hs.has hc) (by rw [hg]; rfl) e
      · exact Moves.refl _

theorem moves_onForget (h : ¬ books) (s : Service) (account : String) :
    Moves books Q s.custody (s.onForget account).custody := by
  unfold onForget
  split
  · exact Moves.refl _
  · exact (Move.relist _ _ h).moves

theorem moves_onClear (h : ¬ books) (s : Service) (task : ℕ) :
    Moves books Q s.custody (s.onClear task).custody := by
  unfold onClear
  split
  · exact Moves.refl _
  · split
    · exact Moves.refl _
    · exact (Move.relist .empty _ h).moves

theorem lined_or {s' : Service} {t : ℕ} (hl : s.Lined books) (h : s' = s ∨ Handles t s s') :
    s'.Lined books := by
  rcases h with rfl | h
  · exact hl
  · exact fun w hw => hl w (h.waiters ▸ hw)

theorem moves_take (hs : s.Tidy) (hc : s.custody.Serial) (hl : s.Lined books) (t : Turn)
    (hf : books → ∀ account, t ≠ .forget account) (hn : books → ∀ task, t ≠ .clear task) :
    Moves books Q s.custody (s.take t).custody ∧ (s.take t).Lined books := by
  cases t with
  | poll task => exact ⟨moves_poll hs hl task,lined_poll hs hl task⟩
  | wake serial =>
    simp only [take,onWake]
    split
    · rw [custody_wake hc]
      exact ⟨Moves.refl _,fun w hw => hl w ((sameTasks_wake s serial).waiters ▸ hw)⟩
    · exact ⟨Moves.refl _,hl⟩
  | enter =>
    simp only [take]
    rw [custody_enter]
    exact ⟨Moves.refl _,fun w hw => hl w ((sameTasks_enter s).waiters ▸ hw)⟩
  | expire task => exact ⟨moves_onExpiry hs task,lined_or hl (handles_onExpiry s task)⟩
  | register task => exact ⟨moves_onRegister hs task,lined_or hl (handles_onRegister s task)⟩
  | forget account =>
    have hb : ¬ books := fun hb => hf hb account rfl
    exact ⟨moves_onForget hb s account,fun w hw =>
      hl w ((sameTasks_onForget s account).waiters ▸ hw)⟩
  | clear task =>
    have hb : ¬ books := fun hb => hn hb task rfl
    exact ⟨moves_onClear hb s task,fun w hw => hl w ((sameTasks_onClear s task).waiters ▸ hw)⟩
  | unlock => exact ⟨Moves.refl _,hl⟩

end Service

/-- What scans and the service itself do, and what the remote service, other threads and the time do
to them. -/
def Event.ofScans : Event → Bool
  | turn (.clear _) => false
  | turn _ | scan _ | request _ | loginDone _ _ | gateOpen _ | fetchDone _ _ | abort _
  | lock | purge
  | elapse _ | setClock _ => true
  | _ => false

def Event.drains : Event → Bool
  | drain | shutdown | turn (.clear _) => true
  | _ => false

def Event.forgets : Event → Bool
  | turn (.forget _) => true
  | _ => false

namespace Service

variable {books : Prop} {Q : Session → Prop} {s : Service}

/-- A step of the scans, or one that ends the parked sessions, is made of moves. -/
theorem moves_step (hs : s.Tidy) (hc : s.custody.Serial) (hl : s.Lined books) {e : Event}
    (he : (e.ofScans = true ∧ (books → e.forgets = false)) ∨ (¬ books ∧ e.drains = true))
    (hsp : ∀ σ, s.Spoils e σ → Q σ) :
    Moves books Q s.custody (s.step e).custody ∧ (s.step e).Lined books := by
  cases e with
  | turn t =>
    refine moves_take hs hc hl t ?_ ?_
    · rintro hb account rfl
      simp [Event.forgets,Event.drains,hb] at he
    · rintro hb task rfl
      simp [Event.ofScans,hb] at he
  | scan place => exact moves_arrive hs hl (Or.inl ⟨place,false,rfl⟩) _
  | request r => exact moves_request hs hl r
  | loginDone task r => exact ⟨moves_onLogin hs task r,lined_or hl (handles_onLogin s task r)⟩
  | gateOpen task => exact ⟨moves_onGate hs task,lined_or hl (handles_onGate s task)⟩
  | fetchDone task r => exact ⟨moves_onFetch hs task r,lined_or hl (handles_onFetch s task r)⟩
  | abort task => exact moves_abort hs hl task hsp
  | lock => exact ⟨Moves.refl _,hl⟩
  | purge =>
    refine ⟨moves_purge s,?_⟩
    simp only [step,purge]
    split <;> exact hl
  | elapse millis => exact ⟨Moves.refl _,hl⟩
  | setClock millis => exact ⟨Moves.refl _,hl⟩
  | drain =>
    have hb : ¬ books := by simpa [Event.ofScans,Event.drains] using he
    exact moves_arrive hs hl (Or.inr ⟨hb,rfl⟩) 0
  | shutdown =>
    have hb : ¬ books := by simpa [Event.ofScans,Event.drains] using he
    exact moves_arrive hs hl (Or.inr ⟨hb,rfl⟩) 0
  | _ => simp [Event.ofScans,Event.drains] at he

/-- What the moves rest on: numbers are given out once, and the line is as expected. -/
structure Orderly (books : Prop) (s : Service) : Prop where
  tidy : s.Tidy
  serial : s.custody.Serial
  lined : s.Lined books

theorem Orderly.step (h : s.Orderly books) {e : Event}
    (he : (e.ofScans = true ∧ (books → e.forgets = false)) ∨ (¬ books ∧ e.drains = true))
    (hsp : ∀ σ, s.Spoils e σ → Q σ) :
    Moves books Q s.custody (s.step e).custody ∧ (s.step e).Orderly books := by
  have hm := moves_step h.tidy h.serial h.lined he hsp
  exact ⟨hm.1,⟨tidy_step h.tidy e,hm.1.serial h.serial,hm.2⟩⟩

/-- Records and registry do not matter for it. -/
theorem Orderly.onBooks (h : s.Orderly books) (store : Store) (registry : Registry)
    (leftovers : List String) : Orderly books { s with store, registry, leftovers } :=
  ⟨⟨h.tidy.fresh,h.tidy.counted⟩,h.serial,h.lined⟩

/-- A service that starts has no sessions and no line. -/
theorem orderly_fresh (settings : Settings) (store : Store) (clock : ℤ) {n : ℕ} {pool : Pool}
    (hp : Pool.ofCapacity n = .ready pool) :
    (fresh settings store pool clock).Orderly books ∧
      (fresh settings store pool clock).live = [] := by
  obtain rfl := Pool.eq_of_ofCapacity hp
  exact ⟨⟨tidy_fresh _ _ _ _ rfl rfl,Fresh.zero 0,by simp [Lined,fresh]⟩,rfl⟩

end Service

end ScanService
