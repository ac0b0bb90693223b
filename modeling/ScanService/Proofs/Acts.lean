import ScanService.Proofs.Stock
/-! What a step can do: something with the scan of one task, something with one in line, or neither.
Whatever is shown of every step is shown of these few acts. -/
namespace ScanService

/-- What concerns no scan and ends no session: callers are answered, sessions are received, and the
service is measured. -/
def Occurrence.plain : Occurrence → Bool
  | answered _ _ | received _ _ => true
  | observed (.parked _) | observed (.purge _ _) | observed (.request _ _ _) => true
  | _ => false

theorem Occurrence.gone?_of_plain {o : Occurrence} (h : o.plain = true) : o.gone? = none := by
  cases o with
  | handedBack | drained => exact absurd h Bool.false_ne_true
  | _ => rfl

theorem not_called_of_plain {N : List Occurrence} (hN : ∀ o ∈ N, o.plain = true) (t : ℕ)
    (call : RemoteCall) : .called t call ∉ N :=
  fun hm => by simpa [Occurrence.plain] using hN _ hm

/-- What a scan notes before it goes on or ends, and the budget that it is left with. -/
inductive Charges (c : Scan) : RetryBudget → List Occurrence → Prop
  | nothing : Charges c c.budget []
  | retry {cause : RemoteFailure} (h : (c.budget.decide cause.category).1.retries = true) :
      Charges c (c.budget.decide cause.category).2
        [.observed (.retry cause.category.label),.failed c.task c.session cause]
  | final {cause : RemoteFailure} (h : (c.budget.decide cause.category).1.retries = false) :
      Charges c (c.budget.decide cause.category).2 [.failed c.task c.session cause]

namespace Service

def Voices (s : Service) (o : Occurrence) : Prop := ∃ t, ∃ σ ∈ s.held, ∃ a, o = .called t (σ.call a)

structure Aside (s s' : Service) : Prop where
  scans : s'.scans = s.scans
  waiters : s'.pool.waiters = s.pool.waiters
  nextTask : s'.nextTask = s.nextTask ∨ s'.nextTask = s.nextTask + 1
  noted : ∃ N, s'.occurrences = N ++ s.occurrences ∧
    ∀ o ∈ N, o.plain = true ∨ (∃ σ, o = .drained σ) ∨ s'.Voices o
  complete : s.Complete 0 → s'.Complete 0

/-- A scan is ready for what it does next: what failed is noted, its budget is charged, and it may
have got another egress. -/
structure Ready (s : Service) (c : Scan) (s₁ : Service) (c₁ : Scan) : Prop where
  scans : s₁.scans = s.scans
  held : s₁.held = s.held
  pool : s₁.pool = s.pool
  nextTask : s₁.nextTask = s.nextTask
  nextSession : s₁.nextSession = s.nextSession
  task : c₁.task = c.task
  serial : c₁.session.serial = c.session.serial
  noted : ∃ N, Charges c c₁.budget N ∧ s₁.occurrences = N ++ s.occurrences

def calls (s : Service) (c : Scan) (as : List RemoteAction) : Service :=
  as.foldl (fun u a => u.call c.task c.session a) s

inductive ScanAct (s : Service) (c : Scan) : Service → Prop
  | proceeds {s₁ : Service} {c₁ : Scan} (h : Ready s c s₁ c₁) : ScanAct s c (s₁.putScan c₁)
  | asks {s₁ : Service} {c₁ : Scan} (h : Ready s c s₁ c₁) (as : List RemoteAction) {stage : Stage}
      (hst : stage.standing.leaves = false) :
      ScanAct s c ((s₁.calls c₁ as).putScan { c₁ with stage })
  | releases {s₁ : Service} {c₁ : Scan} (h : Ready s c s₁ c₁)
      (r : Except ScanFailure (List (ScanObject Float))) : ScanAct s c (s₁.finishReleased c₁ r)
  | retires {s₁ : Service} {c₁ : Scan} (h : Ready s c s₁ c₁) (reason : Retirement)
      (e : ScanFailure) : ScanAct s c (s₁.retireNow c₁ reason e)
  | abandons : ScanAct s c (s.abandon c)

structure Furnished (s : Service) (t : ℕ) (session : Session) (s₁ : Service) : Prop where
  scans : s₁.scans = s.scans
  waiters : s₁.pool.waiters = s.pool.waiters
  nextTask : s₁.nextTask = s.nextTask
  noted : ∃ N, s₁.occurrences = N ++ s.occurrences ∧
    ∀ o ∈ N, o.plain = true ∨ o = .called t (session.call .create)
  complete : s.Complete 0 → s₁.Complete {session.serial}

/-- What a step can do with a task that has left the line: it begins a scan, it has waited for one
in vain, or it waited for something else. -/
inductive LineAct (s : Service) (t : ℕ) : Service → Prop
  | begins {s₁ : Service} {session : Session} (h : Furnished s t session s₁)
      (since : ℕ) (http : Bool) (place : Coordinate Float) :
      LineAct s t (s₁.begin t since http place session)
  | refused (store : Store) (since : ℕ) (http : Bool) (e : ScanFailure) :
      LineAct s t (({ s with store }).conclude t since http (.error e))
  | aside {s' : Service} (h : Aside s s') : LineAct s t s'

def joined (s : Service) (w : Waiter) : Service :=
  { s with pool := s.pool.join w, nextTask := s.nextTask + 1 }

/-- What a step that is about a task, or about none, can do. -/
inductive Act : Service → Option ℕ → Service → Prop
  | aside {s s' : Service} {t : Option ℕ} (h : Aside s s') : Act s t s'
  | handles {s s' : Service} {c : Scan} (hc : s.scan? c.task = some c) (h : ScanAct s c s') :
      Act s (some c.task) s'
  | departs {s s' : Service} {w : Waiter} (hw : s.pool.waiter? w.task = some w)
      (h : LineAct { s with pool := s.pool.leave w.task } w.task s') : Act s (some w.task) s'
  | arrives {s s' : Service} {w : Waiter} (hw : w.task = s.nextTask)
      (h : Act (s.joined w) (some w.task) s') : Act s (some w.task) s'

variable {s s' : Service} {c : Scan}

/-- A result is counted and noted before anyone is answered. -/
theorem occurrences_conclude (s : Service) (task started : ℕ) (http : Bool)
    (r : Except ScanFailure (List (ScanObject Float))) :
    ∃ N x, (s.conclude task started http r).occurrences =
        N ++ .returned task r :: .observed (.scan (outcome r) x) :: s.occurrences ∧
      ∀ o ∈ N, o.plain = true := by
  let x := spanSeconds (s.now - started)
  cases http with
  | false => exact ⟨[],x,rfl,by simp⟩
  | true =>
    let a : Answer := .response (.json 200 (Reply.ofScan r).text)
    exact ⟨[.answered task a,.observed (.request "/q" 200 x)],x,rfl,by simp [Occurrence.plain]⟩

theorem occurrences_finishReleased (s : Service) (c : Scan)
    (r : Except ScanFailure (List (ScanObject Float))) :
    ∃ N x, (s.finishReleased c r).occurrences = N ++ .returned c.task r :: .observed
      (.scan (outcome r) x) ::
        .handedBack c.task c.session .released :: s.occurrences ∧ ∀ o ∈ N, o.plain = true :=
  occurrences_conclude _ c.task c.started c.http r

theorem occurrences_retireNow (s : Service) (c : Scan) (reason : Retirement) (e : ScanFailure) :
    ∃ N x, (s.retireNow c reason e).occurrences = N ++ .returned c.task (.error e) ::
        .observed (.scan (outcome (.error e)) x) :: .handedBack c.task c.session
          (.retired reason) ::
        .observed (.retirement reason.label) :: s.occurrences ∧ ∀ o ∈ N, o.plain = true :=
  occurrences_conclude _ c.task c.started c.http (.error e)

theorem occurrences_abandon (s : Service) (c : Scan) :
    (s.abandon c).occurrences = .handedBack c.task c.session .abandoned :: s.occurrences := by
  unfold abandon delist
  split <;> rfl

theorem calls_eq (s : Service) (c : Scan) (as : List RemoteAction) :
    s.calls c as = { s with history := (s.calls c as).history } := by
  induction as generalizing s with
  | nil => rfl
  | cons a as ih => exact ih (s.call c.task c.session a)

theorem occurrences_calls (s : Service) (c : Scan) (as : List RemoteAction) :
    (s.calls c as).occurrences = (as.map fun a => .called c.task (c.session.call a)).reverse ++
      s.occurrences := by
  induction as generalizing s with
  | nil => rfl
  | cons a as ih =>
    rw [List.map_cons,List.reverse_cons,List.append_assoc]
    exact ih (s.call c.task c.session a)

theorem scan?_calls (s : Service) (c : Scan) (as : List RemoteAction) (t : ℕ) :
    (s.calls c as).scan? t = s.scan? t := by
  rw [scan?,calls_eq]
  rfl

theorem enlistNow_eq (s : Service) (c : Scan) (place : Option (Coordinate Float)) :
    s.enlistNow c place =
      (({ s with registry := s.registry.assign c.session.entry }).calls c
        (place.toList.map RemoteAction.move ++ [RemoteAction.login false])).putScan { c with
        stage := .login false } := by
  cases place <;> rfl

theorem occurrences_begin (s : Service) (t since : ℕ) (http : Bool) (place : Coordinate Float)
    (session : Session) :
    (s.begin t since http place session).occurrences =
      (if s.locked then [] else
        [.called t (session.call (.login false)),.called t (session.call (.move place))]) ++
      .obtained t session :: s.occurrences := by
  cases hl : s.locked <;> simp only [begin,enlist,note,hl] <;> rfl

/-- A scan that begins notes nothing but calls. -/
theorem noted_begin (s : Service) (t since : ℕ) (http : Bool) (place : Coordinate Float)
    (session : Session) :
    ∃ as : List RemoteAction, (s.begin t since http place session).occurrences =
      as.map (fun a => .called t (session.call a)) ++ .obtained t session :: s.occurrences := by
  rw [occurrences_begin]
  cases s.locked with
  | true => exact ⟨[],rfl⟩
  | false => exact ⟨[.login false,.move place],rfl⟩

theorem scan?_begin {t : ℕ} (h : t ∉ s.scans.map (·.task)) (since : ℕ) (http : Bool)
    (place : Coordinate Float) (session : Session) :
    (s.begin t since http place session).scan? t = some ⟨t,since,http,session,.full,
      if s.locked then .listing (some place) else .login false⟩ := by
  have hn : s.scans.find? (fun c => c.task = t) = none := find?_eq_none_of_not_mem h
  rw [scan?,begin_scans h,List.find?_append,hn]
  simp

/-! ### The scans -/

theorem Ready.refl (s : Service) (c : Scan) :
    Ready s c s c := ⟨rfl,rfl,rfl,rfl,rfl,rfl,rfl,[],.nothing,rfl⟩

theorem Ready.waiters {s₁ : Service} {c₁ : Scan} (h : Ready s c s₁ c₁) :
    s₁.pool.waiters = s.pool.waiters := by
  rw [h.pool]

/-- Records, registry and stage do not matter for it, nor does the egress. -/
theorem Ready.with {s₁ : Service} {c₁ : Scan} (h : Ready s c s₁ c₁) (store : Store)
    (registry : Registry) (egress : Egress) (stage : Stage) :
    Ready s c { s₁ with store, registry } { c₁ with session := c₁.session.through egress, stage } :=
  ⟨h.scans,h.held,h.pool,h.nextTask,h.nextSession,h.task,h.serial,h.noted⟩

theorem ready_reported (s : Service) (c : Scan) (cause : RemoteFailure) :
    Ready s c (s.reported c cause) (charged c cause) := by
  have hn : ∃ N, Charges c (charged c cause).budget N ∧
      (s.reported c cause).occurrences = N ++ s.occurrences := by
    cases hr : (c.budget.decide cause.category).1.retries with
    | true => exact ⟨_,.retry hr,by rw [reported,if_pos hr]; rfl⟩
    | false => exact ⟨_,.final hr,by rw [reported,if_neg (by simp [hr])]; rfl⟩
  have hs : (s.reported c cause).scans = s.scans ∧ (s.reported c cause).held = s.held ∧
      (s.reported c cause).pool = s.pool ∧ (s.reported c cause).nextTask = s.nextTask ∧
      (s.reported c cause).nextSession = s.nextSession := by
    rw [reported_eq]
    exact ⟨rfl,rfl,rfl,rfl,rfl⟩
  exact ⟨hs.1,hs.2.1,hs.2.2.1,hs.2.2.2.1,hs.2.2.2.2,rfl,rfl,hn⟩

theorem act_enlist {s₁ : Service} {c₁ : Scan} (h : Ready s c s₁ c₁)
    (place : Option (Coordinate Float)) : ScanAct s c (s₁.enlist c₁ place) := by
  unfold enlist
  split
  · exact .proceeds (h.with s₁.store s₁.registry c₁.session.egress (.listing place))
  · rw [enlistNow_eq]
    exact .asks (h.with s₁.store _ c₁.session.egress c₁.stage) _ rfl

theorem act_finishRetired {s₁ : Service} {c₁ : Scan} (h : Ready s c s₁ c₁) (reason : Retirement)
    (e : ScanFailure) : ScanAct s c (s₁.finishRetired c₁ reason e) := by
  unfold finishRetired
  split
  · exact .proceeds (h.with s₁.store s₁.registry c₁.session.egress (.delisting reason e))
  · exact .retires h reason e

theorem act_substitute {s₁ : Service} {c₁ : Scan} (h : Ready s c s₁ c₁) :
    ScanAct s c (s₁.substitute c₁) := by
  cases hc : (s₁.killEgress c₁.session).store.claimEgress with
  | mk st x =>
    cases x with
    | error e =>
      rw [substitute_error hc]
      exact act_finishRetired (h.with st s₁.registry c₁.session.egress c₁.stage) _ _
    | ok e =>
      rw [substitute_ok hc]
      exact act_enlist (h.with st s₁.registry e c₁.stage) none

theorem act_fail (s : Service) (c : Scan) (cause : RemoteFailure) :
    ScanAct s c (s.fail c cause) := by
  have hr := ready_reported s c cause
  have hw (store : Store) : Ready s c { s.reported c cause with store } (charged c cause) :=
    hr.with store (s.reported c cause).registry c.session.egress c.stage
  rw [fail_eq]
  cases (c.budget.decide cause.category).1 with
  | substituteEgress => exact act_substitute hr
  | killEgress => exact act_finishRetired (hw _) _ _
  | banIdentity => exact act_finishRetired (hw _) _ _
  | retryQuery =>
    cases c.stage with
    | login forced => exact .asks hr [.login false] rfl
    | _ => exact .proceeds (hr.with _ _ c.session.egress .pacing)
  | giveUp => exact .releases hr _

theorem act_loginDone (s : Service) (c : Scan) (forced : Bool) (r : Except RemoteFailure Unit) :
    ScanAct s c (s.loginDone c forced r) := by
  cases r with
  | ok u => exact .proceeds ((Ready.refl s c).with s.store s.registry c.session.egress .pacing)
  | error cause =>
    dsimp only [loginDone]
    split
    · exact .asks (Ready.refl s c) [.login true] rfl
    · exact act_fail s c cause

theorem act_gateOpen (s : Service) (c : Scan) : ScanAct s c (s.gateOpen c) :=
  .asks (Ready.refl s c) [.fetch] rfl

theorem act_fetchDone (s : Service) (c : Scan) (r : Except RemoteFailure MapResponse) :
    ScanAct s c (s.fetchDone c r) := by
  cases r with
  | ok response =>
    exact .releases ((Ready.refl s c).with (s.store.writeAll (response.objects s.clock)) s.registry
      c.session.egress c.stage) _
  | error cause => exact act_fail s c cause

/-! ### Those in line -/

theorem Aside.refl (s : Service) : Aside s s := ⟨rfl,rfl,Or.inl rfl,⟨[],rfl,by simp⟩,id⟩

theorem aside_of_plain (h : s'.scans = s.scans) (hw : s'.pool.waiters = s.pool.waiters)
    (hn : s'.nextTask = s.nextTask ∨ s'.nextTask = s.nextTask + 1)
    (hx : s'.nextSession = s.nextSession)
    (hl : s.Complete 0 → (s'.live : Multiset Session) = s.live) {N : List Occurrence}
    (ho : s'.occurrences = N ++ s.occurrences) (hN : ∀ o ∈ N, o.plain = true) : Aside s s' := by
  refine ⟨h,hw,hn,⟨N,ho,fun o hm => Or.inl (hN o hm)⟩,fun hc => ?_⟩
  refine hc.of_same ?_ (gone_of_notes ho fun o hm => Occurrence.gone?_of_plain (hN o hm)) hx
  rw [← Multiset.map_coe,hl hc,Multiset.map_coe]

/-- Ending the parked sessions for someone, the service tells at most that one. -/
theorem occurrences_drainFor (s : Service) (w : Waiter) : ∃ N : List Occurrence,
    (s.drainFor w).occurrences = N ++ s.drain.1.occurrences ∧ ∀ o ∈ N, o.plain = true := by
  unfold drainFor clear
  split
  · dsimp only
    split
    · exact ⟨[],rfl,by simp⟩
    · exact ⟨[.answered w.task (.shutDown s.drain.2)],rfl,by simp [Occurrence.plain]⟩
  · exact ⟨[.answered w.task (.drained s.drain.2)],rfl,by simp [Occurrence.plain]⟩

theorem aside_drainFor (s : Service) (w : Waiter) : Aside s (s.drainFor w) := by
  obtain ⟨N,ho,hN⟩ := s.occurrences_drainFor w
  obtain ⟨registry,clearings,history,hd⟩ := s.drainFor_frame w
  have hlive : (s.drainFor w).live = s.drain.1.live := by
    rw [hd,drain_frame]
    rfl
  have hsession : (s.drainFor w).nextSession = s.drain.1.nextSession := by rw [hd,drain_frame]
  refine ⟨by rw [hd],by rw [hd]; rfl,Or.inl (by rw [hd]),
    ⟨N ++ (.observed (.parked s.drain.1.pool.parked) :: (s.pool.queue.map .drained).reverse),
      by rw [ho,s.occurrences_drain,List.append_assoc],fun o hm => ?_⟩,fun hc => ?_⟩
  · simp only [List.mem_append,List.mem_cons,List.mem_reverse,List.mem_map] at hm
    rcases hm with hm | rfl | ⟨σ,_,rfl⟩
    · exact Or.inl (hN o hm)
    · exact Or.inl rfl
    · exact Or.inr (Or.inl ⟨σ,rfl⟩)
  · exact (complete_drain hc).of_same (by rw [hlive])
      (gone_of_notes ho fun o hm => Occurrence.gone?_of_plain (hN o hm)) hsession

theorem act_provide {s₁ : Service} {w : Waiter} {session : Session}
    (h : Furnished s w.task session s₁) : LineAct s w.task (s₁.provide w session) := by
  unfold provide
  split
  · exact .begins h _ _ _
  · obtain ⟨N,hN,hp⟩ := h.noted
    refine .aside ⟨h.scans,h.waiters,Or.inl h.nextTask,
      ⟨.answered w.task (.session (.ok session)) :: N,congrArg (List.cons _) hN,fun o ho => ?_⟩,
      fun hc => ?_⟩
    · rcases List.mem_cons.mp ho with rfl | ho
      · exact Or.inl rfl
      · rcases hp o ho with hp | rfl
        · exact Or.inl hp
        · exact Or.inr (Or.inr
            ⟨_,session,List.mem_append_right _ (List.mem_singleton.mpr rfl),_,rfl⟩)
    · exact (h.complete hc).hold (live_hold s₁ session) rfl rfl

theorem act_refuse (s : Service) (store : Store) (w : Waiter) (e : PoolFailure) :
    LineAct s w.task (({ s with store }).refuse w e) := by
  unfold refuse
  split
  · exact .refused store _ _ _
  · refine .aside (aside_of_plain rfl rfl (Or.inl rfl) rfl (fun _ => rfl)
      (N := [.answered w.task (.session (.error e))]) rfl ?_)
    simp [Occurrence.plain]

theorem act_giveUp (s : Service) (w : Waiter) : LineAct s w.task (s.giveUp w) := by
  unfold giveUp
  split
  · exact act_refuse s s.store w _
  · rcases s.construct_cases w.task with ⟨st,x,_,hc⟩ | ⟨st₁,st₂,egress,x,_,_,hc⟩ | ⟨st₁,st₂,egress,
      identity,_,_,hc⟩
    · rw [hc]
      exact act_refuse s st w _
    · rw [hc]
      exact act_refuse s _ w _
    · rw [hc]
      exact act_provide
        ⟨rfl,rfl,rfl,⟨[.called w.task _],rfl,by simp [Session.call]⟩,fun h => h.build rfl rfl rfl⟩

theorem act_takeFirst {w : Waiter} {session : Session} {pool : Pool}
    (hr : s.pool.receive? = some (session,pool)) :
    LineAct s w.task (s.takeFirst w session pool) := by
  refine act_provide ⟨rfl,(receive?_pool hr).1,rfl,
    ⟨[.received w.task session,.observed (.parked pool.parked)],rfl,by simp [Occurrence.plain]⟩,
    fun h => ?_⟩
  refine h.take ?_ rfl rfl
  rw [live,sessions_receive? hr,Multiset.cons_coe,Multiset.coe_eq_coe]
  exact List.perm_middle

theorem act_poll (s : Service) (t : ℕ) : Act s (some t) (s.poll t) := by
  unfold poll
  cases hw : s.pool.waiter? t with
  | none => exact .aside (Aside.refl s)
  | some w =>
    have ht : w.task = t := by simpa using List.find?_some hw
    subst ht
    dsimp only
    split
    · exact .departs hw (.aside (aside_drainFor _ w))
    · split
      · rename_i session pool hr
        have hr' : (s.pool.leave w.task).receive? = some (session,pool) := by
          split at hr
          · exact hr
          · simp at hr
        exact .departs hw (act_takeFirst hr')
      · split
        · exact .departs hw (act_giveUp _ w)
        · exact .aside (Aside.refl s)

theorem act_arrive (s : Service) (purpose : Purpose) (wait : ℕ) :
    Act s (some s.nextTask) (s.arrive purpose wait) := by
  let w : Waiter :=
    ⟨s.nextTask,purpose,s.now,wait,if purpose.drains then none else some (s.after wait)⟩
  exact .arrives (w := w) rfl (act_poll (s.joined w) w.task)

/-! ### Every step -/

theorem occurrences_handle (s : Service) (d : Demand) :
    ∃ N, (s.handle d).1.occurrences = N ++ s.occurrences ∧ ∀ o ∈ N, o.plain = true := by
  rcases history_handle s d with h | ⟨endpoint,status,seconds,h⟩
  · exact ⟨[],congrArg (List.map Entry.what) h,by simp⟩
  · refine ⟨[.observed (.request endpoint status seconds)],congrArg (List.map Entry.what) h,?_⟩
    simp [Occurrence.plain]

theorem act_request (s : Service) (r : Http.Request) : Act s (some s.nextTask) (s.request r) := by
  unfold request
  split
  · exact act_arrive s _ _
  · obtain ⟨N,hN,hp⟩ := occurrences_handle s (Demand.ofRequest r)
    have hh := handle_eq s (Demand.ofRequest r)
    let a : Answer := .response (withoutBody r (s.handle (Demand.ofRequest r)).2)
    have hN' : (({ (s.handle (Demand.ofRequest r)).1 with nextTask := s.nextTask + 1 }).note
        (.answered s.nextTask a)).occurrences = .answered s.nextTask a :: N ++ s.occurrences :=
      congrArg (List.cons _) hN
    have hs : (s.handle (Demand.ofRequest r)).1.scans = s.scans := by rw [hh]
    have hw : (s.handle (Demand.ofRequest r)).1.pool.waiters = s.pool.waiters := by rw [hh]
    have hx : (s.handle (Demand.ofRequest r)).1.nextSession = s.nextSession := by rw [hh]
    have hl : (s.handle (Demand.ofRequest r)).1.live = s.live := by
      rw [hh]
      rfl
    refine .aside (aside_of_plain hs hw (Or.inr rfl) hx (fun _ => congrArg _ hl) hN' fun o ho => ?_)
    rcases List.mem_cons.mp ho with rfl | ho
    · rfl
    · exact hp o ho

theorem aside_wake (s : Service) (serial : ℕ) : Aside s (s.wake serial) := by
  have hs := sameTasks_wake s serial
  have hN : ∃ N, (s.wake serial).occurrences = N ++ s.occurrences ∧ ∀ o ∈ N, o.plain = true := by
    unfold wake
    dsimp only
    split
    · exact ⟨[.observed (.parked _)],rfl,by simp [Occurrence.plain]⟩
    · exact ⟨[],rfl,by simp⟩
  have hx : (s.wake serial).nextSession = s.nextSession := by
    unfold wake
    dsimp only
    split <;> rfl
  obtain ⟨N,hN,hp⟩ := hN
  exact aside_of_plain hs.scans hs.waiters (Or.inl hs.nextTask) hx
    (fun hc => by simpa using congrArg Custody.live (custody_wake hc.serial serial)) hN hp

theorem aside_enter (s : Service) : Aside s s.enter := by
  have hs := sameTasks_enter s
  have hN : ∃ N, s.enter.occurrences = N ++ s.occurrences ∧ ∀ o ∈ N, o.plain = true := by
    unfold enter
    dsimp only
    split
    · exact ⟨[.observed (.parked _)],rfl,by simp [Occurrence.plain]⟩
    · exact ⟨[],rfl,by simp⟩
  obtain ⟨N,hN,hp⟩ := hN
  exact aside_of_plain hs.scans hs.waiters (Or.inl hs.nextTask)
    (congrArg Custody.next (custody_enter s))
      (fun _ => by simpa using congrArg Custody.live (custody_enter s)) hN hp

theorem aside_constructHeld (s : Service) : Aside s s.constructHeld.1 := by
  unfold constructHeld
  rcases ({ s with nextTask := s.nextTask + 1 } : Service).construct_cases s.nextTask with
    ⟨st,x,_,hc⟩ | ⟨st₁,st₂,egress,x,_,_,hc⟩ | ⟨st₁,st₂,egress,identity,_,_,hc⟩
  · rw [hc]
    exact aside_of_plain rfl rfl (Or.inr rfl) rfl (fun _ => rfl) (N := []) rfl (by simp)
  · rw [hc]
    exact aside_of_plain rfl rfl (Or.inr rfl) rfl (fun _ => rfl) (N := []) rfl (by simp)
  · rw [hc]
    refine ⟨rfl,rfl,Or.inr rfl,⟨[.called s.nextTask _],rfl,fun o ho => Or.inr (Or.inr ?_)⟩,fun h =>
      ?_⟩
    · rw [List.mem_singleton.mp ho]
      exact ⟨_,_,List.mem_append_right _ (List.mem_singleton.mpr rfl),.create,rfl⟩
    · let built : Service :=
        { s with nextTask := s.nextTask + 1, store := st₂, nextSession := s.nextSession + 1 }
      have hb : Complete (built.call s.nextTask ⟨s.nextSession,identity,egress⟩ .create)
          {s.nextSession} := h.build rfl rfl rfl
      exact hb.hold (live_hold _ _) rfl rfl

theorem aside_replaceHeld (s : Service) (serial : ℕ) : Aside s (s.replaceHeld serial).1 := by
  unfold replaceHeld replaceEgress
  cases hh : s.held? serial with
  | none => exact Aside.refl s
  | some h =>
    cases s.store.claimEgress with
    | mk st x =>
      cases x with
      | error e =>
        exact aside_of_plain rfl rfl (Or.inl rfl) rfl (fun _ => rfl) (N := []) rfl (by simp)
      | ok e =>
        have hs : h.serial = serial := by simpa using List.find?_some hh
        have hm : (s.held.map fun k => if k.serial = serial then { h with egress := e } else k).map
          (·.serial) =
            s.held.map (·.serial) := by
          rw [List.map_map]
          refine List.map_congr_left fun k _ => ?_
          by_cases hk : k.serial = serial <;> simp [hk,hs]
        refine ⟨rfl,rfl,Or.inl rfl,⟨[],rfl,by simp⟩,fun hc => hc.of_same ?_ rfl rfl⟩
        simp only [live,List.map_append,hm]

theorem aside_releaseHeld (s : Service) (serial cooldown : ℕ) :
    Aside s (s.releaseHeld serial cooldown) := by
  unfold releaseHeld
  cases hh : s.held? serial with
  | none => exact Aside.refl s
  | some h =>
    refine aside_of_plain rfl rfl (Or.inl rfl) rfl (fun hc => ?_) (N := []) rfl (by simp)
    have hp := ((perm_cons_filter (serials_held hc.serial) hh).append_left
      (s.scans.map (·.session))).append_right s.pool.sessions
    have hr : (s.pool.rest h (s.restEnd cooldown)).sessions = s.pool.sessions ++ [h] := by
      simp [Pool.rest,Pool.sessions]
    have hl : ((s.letGo serial).release h cooldown).live = s.scans.map (·.session) ++
        (s.held.filter fun k => k.serial ≠ serial) ++
          (s.pool.rest h (s.restEnd cooldown)).sessions := rfl
    rw [Multiset.coe_eq_coe,hl,hr,← List.append_assoc]
    exact (List.perm_append_singleton _ _).trans ((List.perm_middle.symm.append_right _).trans hp)

theorem aside_purge (s : Service) : Aside s s.purge := by
  unfold purge
  split
  · exact aside_of_plain rfl rfl (Or.inl rfl) rfl (fun _ => rfl) (N := [.observed (.purge _ _)]) rfl
      (by simp [Occurrence.plain])
  · exact aside_of_plain rfl rfl (Or.inl rfl) rfl (fun _ => rfl) (N := []) rfl (by simp)

def Serves (s : Service) (t : ℕ) (s' : Service) :
    Prop := s' = s ∨ ∃ c, s.scan? t = some c ∧ ScanAct s c s'

theorem Serves.act {t : ℕ} (h : Serves s t s') : Act s (some t) s' := by
  rcases h with rfl | ⟨c,hc,h⟩
  · exact .aside (Aside.refl _)
  · obtain rfl := scan?_task hc
    exact .handles hc h

theorem serves_onLogin (s : Service) (t : ℕ) (r : Except RemoteFailure Unit) :
    Serves s t (s.onLogin t r) := by
  unfold onLogin
  split
  · exact Or.inl rfl
  · rename_i c hc
    split
    · exact Or.inr ⟨c,hc,act_loginDone s c _ r⟩
    · exact Or.inl rfl

theorem serves_onGate (s : Service) (t : ℕ) : Serves s t (s.onGate t) := by
  unfold onGate
  split
  · exact Or.inl rfl
  · rename_i c hc
    split
    · exact Or.inr ⟨c,hc,act_gateOpen s c⟩
    · exact Or.inl rfl

theorem serves_onFetch (s : Service) (t : ℕ) (r : Except RemoteFailure MapResponse) :
    Serves s t (s.onFetch t r) := by
  unfold onFetch
  split
  · exact Or.inl rfl
  · rename_i c hc
    split
    · exact Or.inr ⟨c,hc,act_fetchDone s c r⟩
    · exact Or.inl rfl

theorem serves_onExpiry (s : Service) (t : ℕ) : Serves s t (s.onExpiry t) := by
  unfold onExpiry
  split
  · exact Or.inl rfl
  · rename_i c hc
    split
    · exact Or.inr ⟨c,hc,act_fail s c _⟩
    · exact Or.inl rfl

theorem serves_onRegister (s : Service) (t : ℕ) : Serves s t (s.onRegister t) := by
  unfold onRegister
  split
  · exact Or.inl rfl
  · rename_i c hc
    split
    · exact Or.inl rfl
    · split
      · rw [enlistNow_eq]
        exact Or.inr ⟨c,hc,.asks ((Ready.refl s c).with s.store _ c.session.egress c.stage) _ rfl⟩
      · exact Or.inr ⟨c,hc,.retires (Ready.refl s c) _ _⟩
      · exact Or.inl rfl

theorem aside_onForget (s : Service) (account : String) : Aside s (s.onForget account) := by
  unfold onForget
  split
  · exact Aside.refl s
  · exact aside_of_plain rfl rfl (Or.inl rfl) rfl (fun _ => rfl) (N := []) rfl (by simp)

theorem aside_onClear (s : Service) (t : ℕ) : Aside s (s.onClear t) := by
  unfold onClear
  split
  · exact Aside.refl s
  · rename_i c _
    split
    · exact Aside.refl s
    · exact aside_of_plain rfl rfl (Or.inl rfl) rfl (fun _ => rfl)
        (N := [.answered t (.shutDown c.sessions)]) rfl (by simp [Occurrence.plain])

theorem act_abort (s : Service) (t : ℕ) : Act s (some t) (s.abort t) := by
  unfold abort
  split
  · rename_i c hc
    obtain rfl := scan?_task hc
    exact .handles hc .abandons
  · cases hw : s.pool.waiter? t with
    | some w =>
      have ht : w.task = t := by simpa using List.find?_some hw
      subst ht
      exact .departs hw (.aside (Aside.refl _))
    | none =>
      exact .aside (aside_of_plain rfl rfl (Or.inl rfl) rfl (fun _ => rfl) (N := []) rfl (by simp))

end Service

def Event.retires : Event → Bool
  | retire _ _ => true
  | _ => false

namespace Service

/-- Every step is an act, unless a caller retires a session of its own. -/
theorem act_step (s : Service) {e : Event} (he : e.retires = false) :
    Act s (e.task s) (s.step e) := by
  cases e with
  | turn turn =>
    cases turn with
    | poll task => exact act_poll s task
    | wake serial =>
      simp only [step,take,onWake]
      split
      · exact .aside (aside_wake s serial)
      · exact .aside (Aside.refl s)
    | enter => exact .aside (aside_enter s)
    | expire task => exact (serves_onExpiry s task).act
    | register task => exact (serves_onRegister s task).act
    | forget account => exact .aside (aside_onForget s account)
    | clear task => exact .aside (aside_onClear s task)
    | unlock =>
      exact .aside (aside_of_plain rfl rfl (Or.inl rfl) rfl (fun _ => rfl) (N := []) rfl (by simp))
  | scan place => exact act_arrive s _ _
  | request r => exact act_request s r
  | acquire wait => exact act_arrive s _ _
  | checkout wait => exact act_arrive s _ _
  | drain => exact act_arrive s _ _
  | shutdown => exact act_arrive s _ _
  | construct => exact .aside (aside_constructHeld s)
  | release serial cooldown => exact .aside (aside_releaseHeld s serial cooldown)
  | retire serial reason => simp [Event.retires] at he
  | replaceEgress serial => exact .aside (aside_replaceHeld s serial)
  | loginDone task r => exact (serves_onLogin s task r).act
  | gateOpen task => exact (serves_onGate s task).act
  | fetchDone task r => exact (serves_onFetch s task r).act
  | abort task => exact act_abort s task
  | purge => exact .aside (aside_purge s)
  | _ =>
    exact .aside (aside_of_plain rfl rfl (Or.inl rfl) rfl (fun _ => rfl) (N := []) rfl (by simp))

end Service

end ScanService
