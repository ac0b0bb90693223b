import ScanService.Proofs.Tasks
/-! Two services that differ only in the stored objects, in which writes of objects are to fail, and
in what was read off the objects. The calls of the store, but for those writes, have the same
results on both, and so has what is done to sessions. -/
namespace ScanService

namespace Store

/-- The same records of the resources, and but for writes of objects the same failures. -/
structure Alike (s t : Store) : Prop where
  roster : t.roster = s.roster
  faults : ∀ c ≠ StoreCall.write, t.faults c = s.faults c

variable {s t u : Store} {c : StoreCall} {α β : Type}

theorem Alike.refl (s : Store) : Alike s s := ⟨rfl,fun _ _ => rfl⟩

theorem Alike.symm (h : Alike s t) : Alike t s := ⟨h.roster.symm,fun c hc => (h.faults c hc).symm⟩

theorem Alike.trans (h : Alike s t) (h' : Alike t u) : Alike s u :=
  ⟨h'.roster.trans h.roster,fun c hc => (h'.faults c hc).trans (h.faults c hc)⟩

theorem Alike.plan (h : Alike s t) (c : StoreCall) (fails : List (Option StoreFailure)) :
    Alike (s.plan c fails) (t.plan c fails) := by
  refine ⟨h.roster,fun d hd => ?_⟩
  simp only [Store.plan,h.faults d hd]

theorem alike_plan_write (s : Store) (fails : List (Option StoreFailure)) :
    Alike s (s.plan .write fails) :=
  ⟨rfl,fun _ hc => if_neg hc⟩

/-- On both sides the call fails in the same way, or it is carried out. -/
theorem Alike.call (h : Alike s t) (hc : c ≠ .write) (run : Store → Store × Except StoreFailure α)
    (run' : Store → Store × Except StoreFailure β) : ∃ s' t', Alike s' t' ∧
      ((∃ e, s.call c run = (s',.error e) ∧ t.call c run' = (t',.error e)) ∨
        (s.call c run = run s' ∧ t.call c run' = run' t')) := by
  unfold Store.call
  rw [h.faults c hc]
  rcases s.faults c with _ | ⟨_ | e,later⟩
  · exact ⟨s,t,h,Or.inr ⟨rfl,rfl⟩⟩
  · exact ⟨_,_,h.plan c later,Or.inr ⟨rfl,rfl⟩⟩
  · exact ⟨_,_,h.plan c later,Or.inl ⟨e,rfl,rfl⟩⟩

/-- A change to the records gives the same result. -/
theorem Alike.onRoster (h : Alike s t) (hc : c ≠ .write)
    (f : Roster → Roster × Except StoreFailure α) :
    ∃ s' t' r, s.onRoster c f = (s',r) ∧ t.onRoster c f = (t',r) ∧ Alike s' t' := by
  let run (s : Store) : Store × Except StoreFailure α :=
    ({ s with roster := (f s.roster).1 },(f s.roster).2)
  obtain ⟨s',t',ha,⟨e,hs,ht⟩ | ⟨hs,ht⟩⟩ := h.call hc run run
  · exact ⟨s',t',.error e,hs,ht,ha⟩
  · refine ⟨(run s').1,(run t').1,(f s'.roster).2,hs,ht.trans ?_,?_⟩
    · simp only [run,ha.roster]
    · exact ⟨by simp only [run,ha.roster],ha.faults⟩

/-- A question fails on both sides, or is answered on both. -/
theorem Alike.ask (h : Alike s t) (hc : c ≠ .write) (f : Store → α) : ∃ s' t', Alike s' t' ∧
    ((∃ e, s.ask c f = (s',.error e) ∧ t.ask c f = (t',.error e)) ∨
      (s.ask c f = (s',.ok (f s')) ∧ t.ask c f = (t',.ok (f t')))) :=
  h.call hc _ _

theorem Alike.ask_fst (h : Alike s t) (hc : c ≠ .write) (f : Store → α) :
    Alike (s.ask c f).1 (t.ask c f).1 := by
  obtain ⟨s',t',ha,⟨e,hs,ht⟩ | ⟨hs,ht⟩⟩ := h.ask hc f <;>
    · rw [hs,ht]
      exact ha

theorem Alike.onRoster_fst (h : Alike s t) (hc : c ≠ .write)
    (f : Roster → Roster × Except StoreFailure α) :
    Alike (s.onRoster c f).1 (t.onRoster c f).1 := by
  obtain ⟨s',t',r,hs,ht,ha⟩ := h.onRoster hc f
  rw [hs,ht]
  exact ha

theorem Alike.claimEgress (h : Alike s t) :
    ∃ s' t' r, s.claimEgress = (s',r) ∧ t.claimEgress = (t',r) ∧ Alike s' t' :=
      h.onRoster (by decide) _

theorem Alike.claimIdentity (h : Alike s t) :
    ∃ s' t' r, s.claimIdentity = (s',r) ∧ t.claimIdentity = (t',r) ∧ Alike s' t' :=
      h.onRoster (by decide) _

theorem Alike.releaseEgress (h : Alike s t) (id : Int) :
    Alike (s.releaseEgress id).1 (t.releaseEgress id).1 :=
  h.onRoster_fst (by decide) _

theorem Alike.releaseIdentity (h : Alike s t) (name : String) :
    Alike (s.releaseIdentity name).1 (t.releaseIdentity name).1 := h.onRoster_fst (by decide) _

theorem Alike.ask_roster (h : Alike s t) (hc : c ≠ .write) (f : Roster → α) :
    ∃ s' t' r, s.ask c (fun u => f u.roster) = (s',r) ∧ t.ask c (fun u => f u.roster) = (t',r) ∧
      Alike s' t' := by
  obtain ⟨s',t',ha,⟨e,hs,ht⟩ | ⟨hs,ht⟩⟩ := h.ask hc fun u => f u.roster
  · exact ⟨s',t',_,hs,ht,ha⟩
  · exact ⟨s',t',_,hs,by rw [ht,ha.roster],ha⟩

theorem Alike.identityStats (h : Alike s t) :
    ∃ s' t' r, s.identityStats = (s',r) ∧ t.identityStats = (t',r) ∧ Alike s' t' :=
  h.ask_roster (by decide) Roster.identityStats

theorem Alike.egressStats (h : Alike s t) :
    ∃ s' t' r, s.egressStats = (s',r) ∧ t.egressStats = (t',r) ∧ Alike s' t' :=
  h.ask_roster (by decide) Roster.egressStats

/-- A search fails on both sides, or finds something on both. -/
theorem Alike.query (h : Alike s t) (center : Coordinate Float) (radius : Float)
    (kinds : List ObjectKind) (now : Int) : ∃ s' t', Alike s' t' ∧
      ((∃ e, s.query center radius kinds now = (s',.error e) ∧
        t.query center radius kinds now = (t',.error e)) ∨ ∃ os os',
      s.query center radius kinds now = (s',.ok os) ∧
          t.query center radius kinds now = (t',.ok os')) := by
  obtain ⟨s',t',ha,he | ⟨hs,ht⟩⟩ := h.ask (c := .query) (by decide)
    fun u => u.objects.query Geometry.sphere center radius kinds now
  · exact ⟨s',t',ha,Or.inl he⟩
  · exact ⟨s',t',ha,Or.inr ⟨_,_,hs,ht⟩⟩

theorem Alike.purge (h : Alike s t) (threshold : Int) : ∃ s' t', Alike s' t' ∧
    ((∃ e, s.purge threshold = (s',.error e) ∧ t.purge threshold = (t',.error e)) ∨
      ∃ m n, s.purge threshold = (s',.ok m) ∧ t.purge threshold = (t',.ok n)) := by
  obtain ⟨s',t',ha,he | ⟨hs,ht⟩⟩ := h.call (c := .purge) (by decide)
    (fun s => ({ s with objects := (s.objects.purge threshold).1 },
      .ok (s.objects.purge threshold).2))
    (fun s => ({ s with objects := (s.objects.purge threshold).1 },
      .ok (s.objects.purge threshold).2))
  · exact ⟨s',t',ha,Or.inl he⟩
  · exact ⟨{ s' with objects := (s'.objects.purge threshold).1 },
      { t' with objects := (t'.objects.purge threshold).1 },⟨ha.roster,ha.faults⟩,
      Or.inr ⟨_,_,hs,ht⟩⟩

theorem alike_write (s : Store) (o : ScanObject Float) : Alike s (s.write o).1 := by
  unfold write onObjects Store.call
  rcases s.faults .write with _ | ⟨_ | e,later⟩
  · exact ⟨rfl,fun _ _ => rfl⟩
  · exact ⟨rfl,(s.alike_plan_write later).faults⟩
  · exact s.alike_plan_write later

theorem alike_writeAll (s : Store) (os : List (ScanObject Float)) : Alike s (s.writeAll os) := by
  induction os generalizing s with
  | nil => exact .refl s
  | cons o os ih => exact (s.alike_write o).trans (ih _)

theorem Alike.run (h : Alike s t) (c : Command) : Alike (s.run c).1 (t.run c).1 := by
  cases c with
  | claimIdentity | claimEgress | releaseIdentity _ | releaseEgress _ | ban _ | kill _ | reconcile _
  | markAllUnused | addIdentity _ | addEgress _ | dropAllEgress | removeDeadEgress =>
    dsimp only [Store.run,answered]
    refine h.onRoster_fst ?_ _
    decide
  | identityStats | egressStats | getIdentity _ | getEgress _ | banned | query _ _ _ _
  | get _ | count =>
    dsimp only [Store.run,answered]
    refine h.ask_fst ?_ _
    decide
  | write o => exact ((s.alike_write o).symm.trans h).trans (t.alike_write o)
  | purge threshold =>
    obtain ⟨s',t',ha,⟨e,hs,ht⟩ | ⟨m,n,hs,ht⟩⟩ := h.purge threshold <;>
      · simp only [Store.run,answered,hs,ht]
        exact ha

end Store

def Demand.reads : Demand → Bool
  | .cached _ _ | .metrics => true
  | _ => false

/-- The same, or both the answer to a task that reads the objects, or both the count of a purge. -/
inductive Occurrence.Alike (readers : List ℕ) : Occurrence → Occurrence → Prop
  | same (o : Occurrence) : Alike readers o o
  | answer {task : ℕ} (h : task ∈ readers) (r r' : Http.Response) :
      Alike readers (.answered task (.response r)) (.answered task (.response r'))
  | purge (kind : String) (m n : ℕ) :
      Alike readers (.observed (.purge kind m)) (.observed (.purge kind n))

structure Entry.Alike (readers : List ℕ) (e e' : Entry) : Prop where
  time : e'.time = e.time
  what : Occurrence.Alike readers e.what e'.what

namespace Service

def reads (s : Service) : Event → List ℕ
  | .request r => if (Demand.ofRequest r).reads then [s.nextTask] else []
  | _ => []

/-- A service that is the same but for its objects, for which writes of objects are to fail, and for
what tasks and purges read off the objects. -/
inductive Alike (readers : List ℕ) (s : Service) : Service → Prop
  | mk {store : Store} {history : List Entry} (records : s.store.Alike store)
      (told : List.Forall₂ (Entry.Alike readers) s.history history) :
      Alike readers s { s with store, history }

variable {readers : List ℕ} {s t : Service}

theorem Alike.store (h : Alike readers s t) : s.store.Alike t.store := by
  cases h with
  | mk records _ => exact records

theorem alike_of_store (readers : List ℕ) {s : Service} {store : Store} (h : s.store.Alike store) :
    Alike readers s { s with store } :=
  .mk h (List.forall₂_same.mpr fun e _ => ⟨rfl,.same e.what⟩)

theorem Alike.withStore (h : Alike readers s t) {store store' : Store} (hs : store.Alike store') :
    Alike readers { s with store } { t with store := store' } := by
  cases h with
  | mk _ told => exact .mk hs told

theorem Alike.notes (h : Alike readers s t) {o o' : Occurrence} (ho : o.Alike readers o') :
    Alike readers (s.note o) (t.note o') := by
  cases h with
  | mk records told => exact .mk records (.cons ⟨rfl,ho⟩ told)

theorem Alike.note (h : Alike readers s t) (o : Occurrence) : Alike readers (s.note o) (t.note o) :=
  h.notes (.same o)

theorem Alike.observe (h : Alike readers s t) (o : Observation) :
    Alike readers (s.observe o) (t.observe o) :=
  h.note (.observed o)

theorem Alike.call (h : Alike readers s t) (task : ℕ) (session : Session) (action : RemoteAction) :
    Alike readers (s.call task session action) (t.call task session action) := h.note _

theorem Alike.settings (h : Alike readers s t) : t.settings = s.settings := by cases h; rfl

theorem Alike.pool (h : Alike readers s t) : t.pool = s.pool := by cases h; rfl

theorem Alike.registry (h : Alike readers s t) : t.registry = s.registry := by cases h; rfl

theorem Alike.locked (h : Alike readers s t) : t.locked = s.locked := by cases h; rfl

theorem Alike.held (h : Alike readers s t) : t.held = s.held := by cases h; rfl

theorem Alike.now (h : Alike readers s t) : t.now = s.now := by cases h; rfl

theorem Alike.nextTask (h : Alike readers s t) : t.nextTask = s.nextTask := by cases h; rfl

theorem Alike.seconds (h : Alike readers s t) : t.seconds = s.seconds := by cases h; rfl

theorem Alike.authorized (h : Alike readers s t) (given : Option String) :
    t.authorized given = s.authorized given := by
  cases h
  rfl

theorem Alike.overdue_eq (h : Alike readers s t) (c : Scan) :
    t.overdue c = s.overdue c := by cases h; rfl

theorem Alike.held?_eq (h : Alike readers s t) (serial : ℕ) :
    t.held? serial = s.held? serial := by cases h; rfl

theorem Alike.clearing?_eq (h : Alike readers s t) (task : ℕ) :
    t.clearing? task = s.clearing? task := by cases h; rfl

theorem Alike.scan?_eq (h : Alike readers s t) (task : ℕ) :
    t.scan? task = s.scan? task := by cases h; rfl

section Frame

variable (h : Alike readers s t)
include h

/-- What goes by neither the store nor the history and leaves them alone can be done to both. -/
theorem Alike.frame (f : Service → Service)
    (hf : ∀ (u : Service) (store : Store) (history : List Entry),
    f { u with store, history } = { f u with store, history }) : Alike readers (f s) (f t) := by
  have he : f s = { f s with store := s.store, history := s.history } := hf s s.store s.history
  have hs : (f s).store = s.store := by rw [he]
  have hn : (f s).history = s.history := by rw [he]
  cases h with
  | @mk store history records told =>
    rw [hf s store history]
    exact .mk (by rwa [hs]) (by rwa [hn])

theorem Alike.withPool (pool : Pool) : Alike readers { s with pool } { t with pool } :=
  h.frame ({ · with pool }) fun _ _ _ => rfl

theorem Alike.withHeld (held : List Session) : Alike readers { s with held } { t with held } :=
  h.frame ({ · with held }) fun _ _ _ => rfl

theorem Alike.withRegistry (registry : Registry) :
    Alike readers { s with registry } { t with registry } :=
  h.frame ({ · with registry }) fun _ _ _ => rfl

theorem Alike.delist (account : String) : Alike readers (s.delist account) (t.delist account) := by
  refine h.frame (·.delist account) fun u _ _ => ?_
  unfold Service.delist
  split <;> rfl

theorem Alike.withNextTask (nextTask : ℕ) : Alike readers { s with nextTask } { t with nextTask } :=
  h.frame ({ · with nextTask }) fun _ _ _ => rfl

theorem Alike.putScan (c : Scan) : Alike readers (s.putScan c) (t.putScan c) :=
  h.frame (·.putScan c) fun _ _ _ => rfl

theorem Alike.dropScan (task : ℕ) : Alike readers (s.dropScan task) (t.dropScan task) :=
  h.frame (·.dropScan task) fun _ _ _ => rfl

theorem Alike.letGo (serial : ℕ) : Alike readers (s.letGo serial) (t.letGo serial) :=
  h.frame (·.letGo serial) fun _ _ _ => rfl

/-! ### Sessions -/

/-- Both build the same session, or neither does. -/
theorem Alike.construct (task : ℕ) :
    ∃ s' t' r, s.construct task = (s',r) ∧ t.construct task = (t',r) ∧ Alike readers s' t' := by
  obtain ⟨s₁,t₁,r,hs,ht,ha⟩ := h.store.claimEgress
  unfold Service.construct
  rw [hs,ht]
  cases r with
  | error e => exact ⟨_,_,_,rfl,rfl,h.withStore ha⟩
  | ok egress =>
    obtain ⟨s₂,t₂,r,hs,ht,ha⟩ := ha.claimIdentity
    dsimp only
    rw [hs,ht]
    cases r with
    | error e => exact ⟨_,_,_,rfl,rfl,h.withStore (ha.releaseEgress egress.id)⟩
    | ok identity =>
      cases h with
      | mk records told => exact ⟨_,_,_,rfl,rfl,.mk ha (.cons ⟨rfl,.same _⟩ told)⟩

theorem Alike.release (session : Session) (cooldown : ℕ) :
    Alike readers (s.release session cooldown) (t.release session cooldown) :=
  h.frame (·.release session cooldown) fun _ _ _ => rfl

theorem Alike.retire (session : Session) (reason : Retirement) :
    Alike readers (s.retire session reason).1 (t.retire session reason).1 := by
  have hn := h.observe (.retirement reason.label)
  cases reason with
  | identityBanned => exact hn.withStore (h.store.releaseEgress _)
  | egressDead => exact hn.withStore (h.store.releaseIdentity _)

theorem Alike.replaceEgress (session : Session) :
    ∃ s' t' r, s.replaceEgress session = (s',r) ∧ t.replaceEgress session = (t',r) ∧
      Alike readers s' t' := by
  obtain ⟨s₁,t₁,r,hs,ht,ha⟩ := h.store.claimEgress
  unfold Service.replaceEgress
  rw [hs,ht]
  cases r with
  | error e => exact ⟨_,_,_,rfl,rfl,h.withStore ha⟩
  | ok egress => exact ⟨_,_,_,rfl,rfl,h.withStore ha⟩

theorem Alike.freeSession (session : Session) :
    Alike readers (s.freeSession session) (t.freeSession session) :=
  h.withStore ((h.store.releaseIdentity _).releaseEgress _)

theorem Alike.foldl_endSession (sessions : List Session) :
    Alike readers (sessions.foldl endSession s) (sessions.foldl endSession t) := by
  induction sessions generalizing s t with
  | nil => exact h
  | cons session later ih => exact ih ((h.note (.drained session)).freeSession session)

theorem Alike.drain : ∃ s' t' n, s.drain = (s',n) ∧ t.drain = (t',n) ∧ Alike readers s' t' := by
  have hf := (h.withPool s.pool.takeAll.2).foldl_endSession s.pool.takeAll.1
  refine ⟨_,_,_,rfl,?_,hf.observe (.parked _)⟩
  simp only [Service.drain,h.pool,hf.pool]

theorem Alike.wake (serial : ℕ) : Alike readers (s.wake serial) (t.wake serial) := by
  cases h with
  | mk records told =>
    unfold Service.wake
    dsimp only
    split
    · exact .mk records (.cons ⟨rfl,.same _⟩ told)
    · exact .mk records told

theorem Alike.enter : Alike readers s.enter t.enter := by
  cases h with
  | mk records told =>
    unfold Service.enter
    dsimp only
    split
    · exact .mk records (.cons ⟨rfl,.same _⟩ told)
    · exact .mk records told

end Frame

end Service

end ScanService
