import ScanService.Service.Step
import ScanService.Proofs.KeyedLists
/-! Task numbers are given out once. No two scans and no two in line have one number, in any run; so
what a step does to the scan of one task leaves the scans of all others alone. -/
namespace ScanService

/-- A session that goes on through another egress. -/
def Session.through (session : Session) (egress : Egress) : Session := { session with egress }

def Session.call (session : Session) (a : RemoteAction) : RemoteCall :=
  ⟨session.identity.name,session.egress.id,a⟩

def Pool.Counted (p : Pool) : Prop := p.parked = p.queue.length + p.entering.length

theorem Pool.eq_of_ofCapacity {n : ℕ} {pool : Pool} (h : ofCapacity n = .ready pool) :
    pool = ⟨max n 1,[],[],[],[],0⟩ := by
  unfold ofCapacity at h
  split at h
  · simp at h
  · injection h with h
    exact h.symm

def RemoteAction.awaited : RemoteAction → Bool
  | login _ | fetch => true
  | _ => false

/-- What belongs to the course of a task: the session it gets, the calls it waits for, how it gives
the session back, and its result. -/
def Occurrence.isOf (t : ℕ) : Occurrence → Bool
  | obtained u _ => u = t
  | called u c => u = t && c.action.awaited
  | handedBack u _ _ => u = t
  | returned u _ => u = t
  | _ => false

namespace Service

def about (s : Service) (t : ℕ) : List Occurrence := (s.history.map (·.what)).filter (·.isOf t)

theorem about_note (s : Service) (o : Occurrence) (t : ℕ) :
    (s.note o).about t = if o.isOf t then o :: s.about t else s.about t := by
  simp only [about,note,List.map_cons,List.filter_cons]

theorem about_call_ne (s : Service) {task t : ℕ} (h : t ≠ task) (session : Session)
    (a : RemoteAction) : (s.call task session a).about t = s.about t := by
  simp [call,about_note,Occurrence.isOf,h.symm]

theorem about_conclude (s : Service) (task started : ℕ) (http : Bool)
    (r : Except ScanFailure (List (ScanObject Float))) (t : ℕ) :
    (s.conclude task started http r).about t =
      if task = t then .returned task r :: s.about t else s.about t := by
  cases http <;> simp [conclude,observe,about_note,Occurrence.isOf]

def tasks (s : Service) : List ℕ := s.scans.map (·.task) ++ s.pool.waiters.map (·.task)

/-- The task numbers in use are distinct and the next one is new; the parked sessions are
counted. -/
structure Tidy (s : Service) : Prop where
  fresh : Fresh s.tasks s.nextTask
  counted : s.pool.Counted

theorem Tidy.nodup_scans {s : Service} (h : s.Tidy) : (s.scans.map (·.task)).Nodup :=
  (List.nodup_append.mp (Multiset.coe_nodup.mp h.fresh.nodup)).1

/-- A task with a scan is not in line. -/
theorem Tidy.disjoint {s : Service} (h : s.Tidy) :
    (s.scans.map (·.task)).Disjoint (s.pool.waiters.map (·.task)) :=
  List.disjoint_of_nodup_append (Multiset.coe_nodup.mp h.fresh.nodup)

theorem Tidy.not_mem_scans {s : Service} (h : s.Tidy) {w : Waiter} (hw : w ∈ s.pool.waiters) :
    w.task ∉ s.scans.map (·.task) :=
  fun hc => h.disjoint hc (List.mem_map.mpr ⟨w,hw,rfl⟩)

/-- A step acts on the scan of one task at most: it changes it or ends it. -/
structure Handles (task : ℕ) (s s' : Service) : Prop where
  waiters : s'.pool.waiters = s.pool.waiters
  counted : s.pool.Counted → s'.pool.Counted
  nextTask : s'.nextTask = s.nextTask
  scans : s'.scans = (s.dropScan task).scans ∨ ∃ c, c.task = task ∧ s'.scans = (s.putScan c).scans
  about : ∀ t, t ≠ task → s'.about t = s.about t

theorem scan?_putScan_ne (s : Service) {c : Scan} {t : ℕ} (h : t ≠ c.task) :
    (s.putScan c).scan? t = s.scan? t := by
  simp only [putScan,scan?]
  induction s.scans with
  | nil => rfl
  | cons d ds ih =>
    by_cases hd : d.task = c.task
    · have hc : c.task ≠ t := fun he => h he.symm
      simp [hd,hc,ih]
    · simp [List.find?_cons,hd,ih]

theorem scan?_dropScan_ne (s : Service) {task t : ℕ} (h : t ≠ task) :
    (s.dropScan task).scan? t = s.scan? t := by
  simp only [dropScan,scan?,List.find?_filter]
  congr 1
  funext c
  by_cases hc : c.task = t <;> simp [hc,h]

theorem scan?_putScan {s : Service} {c d : Scan} (h : s.scan? c.task = some d) :
    (s.putScan c).scan? c.task = some c := by
  simp only [putScan,scan?] at h ⊢
  generalize s.scans = cs at h ⊢
  induction cs with
  | nil => simp at h
  | cons e es ih =>
    by_cases he : e.task = c.task
    · simp [he]
    · simp only [List.find?_cons,he,decide_false] at h
      simpa [List.find?_cons,he] using ih h

theorem scan?_task {s : Service} {t : ℕ} {c : Scan} (h : s.scan? t = some c) : c.task = t := by
  simpa using List.find?_some h

theorem mem_of_scan? {s : Service} {t : ℕ} {c : Scan} (h : s.scan? t = some c) :
    t ∈ s.scans.map (·.task) :=
  List.mem_map.mpr ⟨c,List.mem_of_find?_eq_some h,scan?_task h⟩

theorem Handles.scan?_ne {task t : ℕ} {s s' : Service} (h : Handles task s s') (ht : t ≠ task) :
    s'.scan? t = s.scan? t := by
  rcases h.scans with hs | ⟨c,rfl,hs⟩
  · simpa only [scan?,hs] using s.scan?_dropScan_ne ht
  · simpa only [scan?,hs] using s.scan?_putScan_ne ht

theorem Handles.sublist_scans {task : ℕ} {s s' : Service} (h : Handles task s s') :
    (s'.scans.map (·.task)).Sublist (s.scans.map (·.task)) := by
  rcases h.scans with he | ⟨c,rfl,he⟩
  · rw [he]
    exact List.filter_sublist.map _
  · have hm : s'.scans.map (·.task) = s.scans.map (·.task) := by
      rw [he,putScan,List.map_map]
      apply List.map_congr_left
      intro d _
      by_cases hd : d.task = c.task <;> simp [hd]
    rw [hm]

theorem Handles.tidy {task : ℕ} {s s' : Service} (h : Handles task s s') (hs : s.Tidy) :
    s'.Tidy := by
  refine ⟨?_,h.counted hs.counted⟩
  unfold tasks
  rw [h.waiters,h.nextTask]
  exact hs.fresh.of_le (Multiset.coe_le.mpr (h.sublist_scans.append (List.Sublist.refl _)).subperm)

/-- States that agree on the scans, the line and the next number. -/
structure SameTasks (s s' : Service) : Prop where
  waiters : s'.pool.waiters = s.pool.waiters
  counted : s.pool.Counted → s'.pool.Counted
  nextTask : s'.nextTask = s.nextTask
  scans : s'.scans = s.scans
  about : ∀ t, s'.about t = s.about t

theorem SameTasks.trans {s s' s'' : Service} (h : SameTasks s s') (h' : SameTasks s' s'') :
    SameTasks s s'' :=
  ⟨h'.waiters.trans h.waiters,fun hc => h'.counted (h.counted hc),h'.nextTask.trans h.nextTask,
    h'.scans.trans h.scans,fun t => (h'.about t).trans (h.about t)⟩

theorem SameTasks.tidy {s s' : Service} (h : SameTasks s s') (hs : s.Tidy) : s'.Tidy := by
  refine ⟨?_,h.counted hs.counted⟩
  unfold tasks
  rw [h.scans,h.waiters,h.nextTask]
  exact hs.fresh

theorem Handles.after {s s' s'' : Service} {task : ℕ} (h' : Handles task s' s'')
    (h : SameTasks s s') : Handles task s s'' := by
  refine ⟨h'.waiters.trans h.waiters,fun hc => h'.counted (h.counted hc),
    h'.nextTask.trans h.nextTask,?_,fun t ht => (h'.about t ht).trans (h.about t)⟩
  rcases h'.scans with hs | ⟨c,hc,hs⟩
  · exact Or.inl (by rw [hs,dropScan,dropScan,h.scans])
  · exact Or.inr ⟨c,hc,by rw [hs,putScan,putScan,h.scans]⟩

theorem conclude_eq (s : Service) (task started : ℕ) (http : Bool)
    (r : Except ScanFailure (List (ScanObject Float))) :
    s.conclude task started http
      r = { s with history := (s.conclude task started http r).history } := by
  cases http <;> rfl

theorem retireHeld_eq {s : Service} {serial : ℕ} {h : Session} (hh : s.held? serial = some h)
    (reason : Retirement) :
    (s.retireHeld serial reason).1 = ((s.letGo serial).retire h reason).1 := by
  simp only [retireHeld,hh]
  cases (s.letGo serial).retire h reason with
  | mk s' x => cases x <;> rfl

/-! ### Steps of one scan -/

theorem Handles.concluded {task : ℕ} {s s' : Service} (h : Handles task s s')
    (started : ℕ) (http : Bool) (r : Except ScanFailure (List (ScanObject Float))) :
    Handles task s (s'.conclude task started http r) := by
  have ha (t : ℕ) (ht : t ≠ task) : (s'.conclude task started http r).about t = s.about t := by
    rw [about_conclude,if_neg ht.symm]
    exact h.about t ht
  refine ⟨?_,?_,?_,?_,ha⟩
  · rw [conclude_eq]
    exact h.waiters
  · rw [conclude_eq]
    exact h.counted
  · rw [conclude_eq]
    exact h.nextTask
  · rw [conclude_eq]
    exact h.scans

theorem handles_putScan (s : Service) (c : Scan) : Handles c.task s (s.putScan c) :=
  ⟨rfl,id,rfl,Or.inr ⟨c,rfl,rfl⟩,fun _ _ => rfl⟩

theorem handles_startLogin (s : Service) (c : Scan) (force : Bool) :
    Handles c.task s (s.startLogin c force) :=
  ⟨rfl,id,rfl,Or.inr ⟨{ c with stage := .login force },rfl,rfl⟩,fun _ ht => about_call_ne s ht _ _⟩

theorem handles_handBack (s : Service) (c : Scan) (way : HandBack) :
    Handles c.task s ((s.note (.handedBack c.task c.session way)).dropScan c.task) := by
  refine ⟨rfl,id,rfl,Or.inl rfl,fun t ht => ?_⟩
  have hn := about_note s (.handedBack c.task c.session way) t
  rwa [if_neg (by simp [Occurrence.isOf,ht.symm])] at hn

theorem handles_finishReleased (s : Service) (c : Scan)
    (r : Except ScanFailure (List (ScanObject Float))) :
    Handles c.task s (s.finishReleased c r) := by
  have hs : SameTasks s (s.release c.session s.settings.cooldown) := ⟨rfl,id,rfl,rfl,fun _ => rfl⟩
  exact ((handles_handBack _ c .released).after hs).concluded _ _ r

theorem handles_retireNow (s : Service) (c : Scan) (reason : Retirement) (e : ScanFailure) :
    Handles c.task s (s.retireNow c reason e) := by
  let s' : Service := { s with registry := s.registry.remove c.session.identity.name }
  have hs : SameTasks s (s'.retire c.session reason).1 := ⟨rfl,id,rfl,rfl,fun _ => rfl⟩
  exact ((handles_handBack _ c (.retired reason)).after hs).concluded _ _ (.error e)

theorem handles_finishRetired (s : Service) (c : Scan) (reason : Retirement) (e : ScanFailure) :
    Handles c.task s (s.finishRetired c reason e) := by
  unfold finishRetired
  split
  · exact handles_putScan s { c with stage := .delisting reason e }
  · exact handles_retireNow s c reason e

theorem sameTasks_enrol (s : Service) (c : Scan) (place : Option (Coordinate Float)) :
    SameTasks s (s.enrol c place) := by
  cases place with
  | none => exact ⟨rfl,id,rfl,rfl,fun _ => rfl⟩
  | some p =>
    exact ⟨rfl,id,rfl,rfl,
      fun t => by simp [enrol,call,about,note,Occurrence.isOf,RemoteAction.awaited]⟩

theorem handles_enlistNow (s : Service) (c : Scan) (place : Option (Coordinate Float)) :
    Handles c.task s (s.enlistNow c place) :=
  (handles_startLogin _ c false).after (sameTasks_enrol s c place)

theorem handles_enlist (s : Service) (c : Scan) (place : Option (Coordinate Float)) :
    Handles c.task s (s.enlist c place) := by
  unfold enlist
  split
  · exact handles_putScan s { c with stage := .listing place }
  · exact handles_enlistNow s c place

theorem substitute_ok {s : Service} {c : Scan} {st : Store} {e : Egress}
    (h : (s.killEgress c.session).store.claimEgress = (st,.ok e)) :
    s.substitute c = ({ s with store := st }).enlist { c with session := c.session.through e }
      none := by
  simp only [substitute,replaceEgress,h]
  rfl

theorem substitute_error {s : Service} {c : Scan} {st : Store} {e : StoreFailure}
    (h : (s.killEgress c.session).store.claimEgress = (st,.error e)) :
    s.substitute c =
      ({ s with store := st }).finishRetired c .egressDead (.ofPool (.ofStore e)) := by
  simp only [substitute,replaceEgress,h]
  rfl

def charged (c : Scan) (cause : RemoteFailure) : Scan :=
  { c with budget := (c.budget.decide cause.category).2 }

def reported (s : Service) (c : Scan) (cause : RemoteFailure) : Service :=
  let s := s.note (.failed c.task c.session cause)
  if (c.budget.decide cause.category).1.retries then s.observe (.retry cause.category.label) else s

theorem reported_eq (s : Service) (c : Scan) (cause : RemoteFailure) :
    s.reported c cause = { s with history := (s.reported c cause).history } := by
  unfold reported
  dsimp only
  split <;> rfl

theorem fail_eq (s : Service) (c : Scan) (cause : RemoteFailure) :
    s.fail c cause = match (c.budget.decide cause.category).1 with
      | .substituteEgress => (s.reported c cause).substitute (charged c cause)
      | .killEgress =>
        ((s.reported c cause).killEgress c.session).finishRetired (charged c cause) .egressDead
          (.remote cause)
      | .banIdentity =>
        ({ s.reported c cause with store := (s.store.ban c.session.identity.name).1 }).finishRetired
          (charged c cause) .identityBanned (.remote cause)
      | .retryQuery => match c.stage with
        | .login _ => (s.reported c cause).startLogin (charged c cause) false
        | _ => (s.reported c cause).putScan { charged c cause with stage := .pacing }
      | .giveUp =>
        (s.reported c cause).finishReleased (charged c cause) (.error (.remote cause)) := by
  have hs : (s.reported c cause).store = s.store := by rw [reported_eq]
  rw [← hs]
  rfl

theorem handles_substitute (s : Service) (c : Scan) : Handles c.task s (s.substitute c) := by
  cases h : (s.killEgress c.session).store.claimEgress with
  | mk st x =>
    cases x with
    | error e =>
      rw [substitute_error h]
      exact (handles_finishRetired _ c .egressDead _).after ⟨rfl,id,rfl,rfl,fun _ => rfl⟩
    | ok e =>
      rw [substitute_ok h]
      let c' : Scan := { c with session := c.session.through e }
      exact (handles_enlist _ c' none).after ⟨rfl,id,rfl,rfl,fun _ => rfl⟩

theorem sameTasks_reported (s : Service) (c : Scan) (cause : RemoteFailure) :
    SameTasks s (s.reported c cause) := by
  have ha (t : ℕ) : (s.reported c cause).about t = s.about t := by
    unfold reported
    dsimp only
    split <;> simp [observe,about_note,Occurrence.isOf]
  refine ⟨?_,?_,?_,?_,ha⟩ <;> rw [reported_eq]
  exact id

theorem handles_fail (s : Service) (c : Scan) (cause : RemoteFailure) :
    Handles c.task s (s.fail c cause) := by
  have hr := sameTasks_reported s c cause
  have hk : SameTasks s ((s.reported c cause).killEgress c.session) :=
    ⟨hr.waiters,hr.counted,hr.nextTask,hr.scans,hr.about⟩
  rw [fail_eq]
  cases (c.budget.decide cause.category).1 with
  | substituteEgress => exact (handles_substitute _ (charged c cause)).after hr
  | killEgress => exact (handles_finishRetired _ (charged c cause) .egressDead _).after hk
  | banIdentity =>
    exact (handles_finishRetired _ (charged c cause) .identityBanned _).after
      ⟨hr.waiters,hr.counted,hr.nextTask,hr.scans,hr.about⟩
  | retryQuery =>
    cases c.stage with
    | login forced => exact (handles_startLogin _ (charged c cause) false).after hr
    | _ => exact (handles_putScan _ { charged c cause with stage := .pacing }).after hr
  | giveUp => exact (handles_finishReleased _ (charged c cause) _).after hr

theorem handles_loginDone (s : Service) (c : Scan) (forced : Bool) (r : Except RemoteFailure Unit) :
    Handles c.task s (s.loginDone c forced r) := by
  cases r with
  | ok u => exact handles_putScan s { c with stage := .pacing }
  | error cause =>
    dsimp only [loginDone]
    split
    · exact handles_startLogin s c true
    · exact handles_fail s c cause

theorem handles_gateOpen (s : Service) (c : Scan) : Handles c.task s (s.gateOpen c) := by
  refine ⟨rfl,id,rfl,Or.inr ⟨{ c with stage := .fetch (s.after s.settings.queryTimeout) },rfl,rfl⟩,
    ?_⟩
  exact fun t ht => about_call_ne s ht c.session .fetch

theorem handles_fetchDone (s : Service) (c : Scan) (r : Except RemoteFailure MapResponse) :
    Handles c.task s (s.fetchDone c r) := by
  cases r with
  | ok response => exact (handles_finishReleased _ c _).after ⟨rfl,id,rfl,rfl,fun _ => rfl⟩
  | error cause => exact handles_fail s c cause

theorem sameTasks_delist (s : Service) (account : String) : SameTasks s (s.delist account) := by
  unfold delist
  split <;> exact ⟨rfl,id,rfl,rfl,fun _ => rfl⟩

theorem handles_abandon (s : Service) (c : Scan) : Handles c.task s (s.abandon c) := by
  have hd := sameTasks_delist s c.session.identity.name
  have hs : SameTasks s ((s.delist c.session.identity.name).freeSession c.session) :=
    ⟨hd.waiters,hd.counted,hd.nextTask,hd.scans,hd.about⟩
  exact (handles_handBack _ c .abandoned).after hs

/-! ### Those in line -/

/-- A scan that was to be entered in the registry waits for that, or it was entered and logs in. -/
inductive Enlisted (c : Scan) (place : Option (Coordinate Float)) : List Occurrence → Prop
  | waits (hc : c.stage = .listing place) : Enlisted c place []
  | asks (hc : c.stage = .login false) :
      Enlisted c place [.called c.task (c.session.call (.login false))]

/-- Someone leaves the line, and begins a scan or does not. -/
structure Enters (task : ℕ) (s s' : Service) : Prop where
  waiters : s'.pool.waiters = s.pool.waiters
  counted : s.pool.Counted → s'.pool.Counted
  nextTask : s'.nextTask = s.nextTask
  scans : (s'.scans = s.scans ∧ ∀ session, .obtained task session ∈ s'.about task →
      .obtained task session ∈ s.about task) ∨
    ∃ c place N, c.task = task ∧ c.budget = .full ∧ Enlisted c place N ∧ s'.scans = s.scans ++ [c] ∧
      s'.about task = N ++ .obtained task c.session :: s.about task
  about : ∀ t, t ≠ task → s'.about t = s.about t

theorem SameTasks.enters {s s' : Service} (h : SameTasks s s') (task : ℕ) : Enters task s s' :=
  ⟨h.waiters,h.counted,h.nextTask,Or.inl ⟨h.scans,fun _ ho => h.about task ▸ ho⟩,
    fun t _ => h.about t⟩

theorem Enters.after {s s' s'' : Service} {task : ℕ} (h' : Enters task s' s'')
    (h : SameTasks s s') : Enters task s s'' :=
  ⟨h'.waiters.trans h.waiters,fun hc => h'.counted (h.counted hc),h'.nextTask.trans h.nextTask,
    h.about task ▸ h.scans ▸ h'.scans,fun t ht => (h'.about t ht).trans (h.about t)⟩

theorem SameTasks.concluded {s s' : Service} (h : SameTasks s s') (task started : ℕ) (http : Bool)
    (r : Except ScanFailure (List (ScanObject Float))) :
    Enters task s (s'.conclude task started http r) := by
  have ha (t : ℕ) (ht : t ≠ task) : (s'.conclude task started http r).about t = s.about t := by
    rw [about_conclude,if_neg ht.symm]
    exact h.about t
  refine ⟨?_,?_,?_,Or.inl ⟨?_,?_⟩,ha⟩
  · rw [conclude_eq]
    exact h.waiters
  · rw [conclude_eq]
    exact h.counted
  · rw [conclude_eq]
    exact h.nextTask
  · rw [conclude_eq]
    exact h.scans
  · rw [about_conclude,if_pos rfl,← h.about task]
    simp

theorem begin_scans {s : Service} {task : ℕ} (h : task ∉ s.scans.map (·.task))
    (started : ℕ) (http : Bool) (place : Coordinate Float) (session : Session) :
    (s.begin task started http place session).scans = s.scans ++
      [⟨task,started,http,session,.full,
        if s.locked then .listing (some place) else .login false⟩] := by
  have hl : (s.note (.obtained task session)).locked = s.locked := rfl
  cases hs : s.locked <;>
    simp only [begin,enlist,enlistNow,enrol,startLogin,putScan,call,note,hs,List.map_append,
      List.map_cons,List.map_nil,if_true,Bool.false_eq_true,if_false] <;>
    rw [map_replace_of_not_mem h]

theorem about_begin (s : Service) (task started : ℕ) (http : Bool) (place : Coordinate Float)
    (session : Session) (t : ℕ) :
    (s.begin task started http place session).about t =
      if task = t then (if s.locked then [] else [.called task (session.call (.login false))]) ++
        .obtained task session :: s.about t
      else s.about t := by
  cases hs : s.locked <;> by_cases h : task = t <;>
    simp [about,begin,enlist,enlistNow,enrol,startLogin,putScan,call,note,Occurrence.isOf,
      RemoteAction.awaited,Session.call,hs,h]

/-- A scan that begins is noted and may be entered; nothing else changes. -/
theorem begin_eq (s : Service) (task started : ℕ) (http : Bool) (place : Coordinate Float)
    (session : Session) : s.begin task started http place session = { s with
      registry := (s.begin task started http place session).registry,
      scans := (s.begin task started http place session).scans,
      history := (s.begin task started http place session).history } := by
  cases hl : s.locked <;> simp [begin,enlist,enlistNow,enrol,startLogin,putScan,call,note,hl]

theorem enters_begin {s : Service} {task : ℕ} (h : task ∉ s.scans.map (·.task))
    (started : ℕ) (http : Bool) (place : Coordinate Float) (session : Session) :
    Enters task s (s.begin task started http place session) := by
  have ha := about_begin s task started http place session
  have hb := begin_scans h started http place session
  refine ⟨by rw [begin_eq],by rw [begin_eq]; exact id,by rw [begin_eq],Or.inr ?_,
    fun t ht => by rw [ha,if_neg ht.symm]⟩
  cases hl : s.locked with
  | true => exact ⟨_,some place,[],rfl,rfl,.waits (by simp [hl]),hb,by simp [ha,hl]⟩
  | false => exact ⟨_,some place,_,rfl,rfl,.asks (by simp [hl]),hb,by simp [ha,hl]⟩

theorem enters_provide {s : Service} {w : Waiter} (h : w.task ∉ s.scans.map (·.task))
    (session : Session) : Enters w.task s (s.provide w session) := by
  unfold provide
  split
  · exact enters_begin h _ _ _ _
  · refine SameTasks.enters ?_ _
    exact ⟨rfl,id,rfl,rfl,fun _ => rfl⟩

theorem enters_refuse (s : Service) (w : Waiter) (e : PoolFailure) :
    Enters w.task s (s.refuse w e) := by
  unfold refuse
  split
  · refine SameTasks.concluded ?_ _ _ _ _
    exact ⟨rfl,id,rfl,rfl,fun _ => rfl⟩
  · refine SameTasks.enters ?_ _
    exact ⟨rfl,id,rfl,rfl,fun _ => rfl⟩

theorem sameTasks_construct (s : Service) (task : ℕ) : SameTasks s (s.construct task).1 := by
  unfold construct
  split
  · exact ⟨rfl,id,rfl,rfl,fun _ => rfl⟩
  · split
    · exact ⟨rfl,id,rfl,rfl,fun _ => rfl⟩
    · exact ⟨rfl,id,rfl,rfl,fun t => by simp [call,about,note,Occurrence.isOf,RemoteAction.awaited]⟩

theorem enters_giveUp {s : Service} {w : Waiter} (h : w.task ∉ s.scans.map (·.task)) :
    Enters w.task s (s.giveUp w) := by
  unfold giveUp
  split
  · exact enters_refuse s w _
  · have hs := sameTasks_construct s w.task
    cases hc : s.construct w.task with
    | mk s' x =>
      rw [hc] at hs
      cases x with
      | error e => exact (enters_refuse s' w e).after hs
      | ok session => exact (enters_provide (by rw [hs.scans]; exact h) session).after hs

theorem enters_takeFirst {s : Service} {w : Waiter} (h : w.task ∉ s.scans.map (·.task))
    (session : Session) {pool : Pool} (hp : pool.waiters = s.pool.waiters)
    (hc : s.pool.Counted → pool.Counted) : Enters w.task s (s.takeFirst w session pool) := by
  have he := enters_provide (s := (({ s with pool }).observe (.parked pool.parked)).note
    (.received w.task session)) h session
  exact he.after ⟨hp,hc,rfl,rfl,fun _ => rfl⟩

theorem receive?_pool {p p' : Pool} {session : Session} (h : p.receive? = some (session,p')) :
    p'.waiters = p.waiters ∧ (p.Counted → p'.Counted) := by
  unfold Pool.receive? at h
  split at h
  · simp at h
  · rename_i hq
    simp only [Option.some.injEq,Prod.mk.injEq] at h
    rw [← h.2]
    refine ⟨rfl,?_⟩
    simp only [Pool.Counted,hq,List.length_cons]
    omega

theorem sameTasks_drain (s : Service) : SameTasks s s.drain.1 := by
  have hf (l : List Session) (u : Service) : SameTasks u (l.foldl endSession u) := by
    induction l generalizing u with
    | nil => exact ⟨rfl,id,rfl,rfl,fun _ => rfl⟩
    | cons session l ih =>
      have hh := ih (u.endSession session)
      exact ⟨hh.waiters,hh.counted,hh.nextTask,hh.scans,hh.about⟩
  have hh := hf s.pool.takeAll.1 { s with pool := s.pool.takeAll.2 }
  have hc : s.pool.Counted → s.pool.takeAll.2.Counted := by
    simp only [Pool.Counted,Pool.takeAll,List.length_nil]
    omega
  exact ⟨hh.waiters,fun h => hh.counted (hc h),hh.nextTask,hh.scans,hh.about⟩

theorem sameTasks_clear (s : Service) (task sessions : ℕ) :
    SameTasks s (s.clear task sessions) := by
  unfold clear
  split <;> exact ⟨rfl,id,rfl,rfl,fun _ => rfl⟩

theorem enters_drainFor (s : Service) (w : Waiter) : Enters w.task s (s.drainFor w) := by
  have hd := sameTasks_drain s
  apply SameTasks.enters
  unfold drainFor
  split
  · exact hd.trans (sameTasks_clear s.drain.1 w.task s.drain.2)
  · exact ⟨hd.waiters,hd.counted,hd.nextTask,hd.scans,hd.about⟩

/-- Looking whether it can go on, a task either stays in line or leaves it. -/
theorem enters_poll {s : Service} (hs : s.Tidy) (t : ℕ) :
    s.poll t = s ∨
      ((∃ w, s.pool.waiter? t = some w) ∧
        Enters t { s with pool := s.pool.leave t } (s.poll t)) := by
  unfold poll
  cases hw : s.pool.waiter? t with
  | none => exact Or.inl rfl
  | some w =>
    have hwt : w.task = t := by simpa using List.find?_some hw
    have hn := hs.not_mem_scans (List.mem_of_find?_eq_some hw)
    subst hwt
    dsimp only
    split
    · exact Or.inr ⟨⟨w,rfl⟩,enters_drainFor _ w⟩
    · split
      · rename_i session pool hr
        refine Or.inr ⟨⟨w,rfl⟩,?_⟩
        have hp : pool.waiters = (s.pool.leave w.task).waiters ∧
            ((s.pool.leave w.task).Counted → pool.Counted) := by
          split at hr
          · exact receive?_pool hr
          · simp at hr
        exact enters_takeFirst (s := { s with pool := s.pool.leave w.task }) hn session hp.1 hp.2
      · split
        · exact Or.inr ⟨⟨w,rfl⟩,enters_giveUp hn⟩
        · exact Or.inl rfl

theorem tidy_poll {s : Service} (hs : s.Tidy) (t : ℕ) : (s.poll t).Tidy := by
  rcases enters_poll hs t with he | ⟨⟨w,hw⟩,he⟩
  · rw [he]
    exact hs
  · have hn := (List.nodup_append.mp (Multiset.coe_nodup.mp hs.fresh.nodup)).2.1
    have hwt : w.task = t := by simpa using List.find?_some hw
    have hp : (t :: (s.pool.leave t).waiters.map (·.task)).Perm (s.pool.waiters.map (·.task)) := by
      simpa [hwt,Pool.leave] using (perm_cons_filter hn hw).map (·.task)
    have hl : ((t :: (s.scans.map (·.task) ++ (s.pool.leave t).waiters.map (·.task)) : List ℕ) :
        Multiset ℕ) ≤ s.tasks := by
      refine Multiset.coe_le.mpr (List.Perm.subperm ?_)
      exact List.perm_middle.symm.trans (hp.append_left _)
    have hw' : (s.poll t).pool.waiters = (s.pool.leave t).waiters := he.waiters
    refine ⟨?_,he.counted hs.counted⟩
    unfold tasks
    rw [hw',he.nextTask]
    rcases he.scans with ⟨hsc,_⟩ | ⟨c,_,_,hc,_,_,hsc,_⟩
    · rw [hsc]
      exact hs.fresh.of_le (le_trans (Multiset.le_cons_self _ t) hl)
    · rw [hsc]
      refine hs.fresh.of_le (le_trans (Multiset.coe_le.mpr (List.Perm.subperm ?_)) hl)
      simp only [List.map_append,List.map_cons,List.map_nil,hc,List.append_assoc,
        List.singleton_append]
      exact List.perm_middle

end Service

end ScanService
