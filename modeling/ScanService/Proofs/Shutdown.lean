import ScanService.Proofs.Draining
import ScanService.Proofs.Recovery
/-! Shutting down. The sessions of the queue are ended and their resources are free, and all others
live on with theirs; but the registry forgets everybody. A reconciliation with what it lists then
takes their resources from all sessions that are alive, and later from those that no scan has taken
up again. -/
namespace ScanService

namespace Roster

/-- There are records of both resources of a session, and the first of each says this of being in
use. -/
structure Flagged (r : Roster) (inUse : Bool) (σ : Session) : Prop where
  identity : ∃ i, r.identity? σ.identity.name = some i ∧ i.used = inUse
  egress : ∃ e, r.egress? σ.egress.id = some e ∧ e.inUse = inUse

theorem Flagged.bare {r : Roster} {inUse : Bool} {σ : Session} (h : r.Flagged inUse σ) :
    r.bare.Flagged false σ := by
  obtain ⟨⟨i,hi,_⟩,e,he,_⟩ := h
  refine ⟨⟨{ i with used := false },?_,rfl⟩,{ e with inUse := false },?_,rfl⟩
  · rw [identity?,Roster.bare,List.find?_map]
    exact congrArg (Option.map _) hi
  · rw [egress?,Roster.bare,List.find?_map]
    exact congrArg (Option.map _) he

end Roster

namespace Service

variable {s : Service} {es : List Event}

/-- Shutdown forgets only what it returns: both resources of every session of the queue are free and
its name is listed no more, while all that are alive are still listed, so that a reconciliation
takes nothing from them. -/
structure ForgetsReturned (s u : Service) : Prop where
  freed : ∀ σ ∈ s.pool.queue, u.store.roster.Flagged false σ
  unlisted : ∀ σ ∈ s.pool.queue, u.registry.get? σ.identity.name = none
  listed : ∀ σ ∈ u.live, σ.entry ∈ u.registry.snapshot
  safe : ∀ σ ∈ u.live, (u.step .reconcileStatus).store.roster.Flagged true σ

/-- What a shutdown does to the sessions: those of the queue are ended, and all others live on and
keep their resources. -/
structure Ends (s u : Service) : Prop where
  live : s.live.Perm (s.pool.queue ++ u.live)
  freed : ∀ σ ∈ s.pool.queue, u.store.roster.Flagged false σ
  kept : ∀ σ ∈ u.live, u.store.roster.Flagged true σ

/-- What it does to the registry before it returns how many sessions it has ended: nobody is listed
any more, and a reconciliation takes the resources of all that are alive. -/
structure ForgetsAll (s : Service) (t ended : ℕ) (e : Event) : Prop where
  answered : .answered t (.shutDown ended) ∈ s.news e
  unlisted : (s.step e).registry.snapshot = []
  taken : ∀ σ ∈ (s.step e).live,
    ((s.step e).step .reconcileStatus).store.roster.Flagged false σ

theorem ends_drainFor (hx : Custody.Exclusive s.store.roster s.live) (hf : s.store.Faultless)
    (w : Waiter) : Ends s (s.drainFor w) ∧ (s.drainFor w).store.Faultless := by
  obtain ⟨registry,clearings,history,hd⟩ := s.drainFor_frame w
  have hl : (s.drainFor w).live = ({ s with pool := s.pool.takeAll.2 } : Service).live := by
    rw [hd]; rfl
  have hlive := s.live_takeAll
  rw [hlive,← Multiset.coe_add] at hx
  obtain ⟨hq,ho⟩ := exclusive_endSessions (s := { s with pool := s.pool.takeAll.2 }) hf
    s.pool.queue hx
  have hs : (s.drainFor w).store =
      (s.pool.queue.foldl endSession { s with pool := s.pool.takeAll.2 }).store := by rw [hd]
  refine ⟨⟨?_,fun σ hσ => ?_,fun σ hσ => ?_⟩,?_⟩
  · rw [hl]
    exact Multiset.coe_eq_coe.mp hlive
  · rw [hs]
    exact ⟨(hq σ hσ).records.1,(hq σ hσ).records.2⟩
  · rw [hl] at hσ
    rw [hs]
    exact ⟨(ho.identities σ hσ).record,(ho.egresses σ hσ).record⟩
  · rw [hs]
    exact faultless_endSessions (s := { s with pool := s.pool.takeAll.2 }) hf s.pool.queue

/-- With nobody listed, a reconciliation takes whatever was marked. -/
theorem taken_of_empty (hf : s.store.Faultless) (hr : s.registry = .empty) {σ : Session}
    (hσ : s.store.roster.Flagged true σ) :
    (s.step .reconcileStatus).store.roster.Flagged false σ := by
  have hb : (s.step .reconcileStatus).store.roster = s.store.roster.bare := by
    have h := hf.reconcile_roster s.registry.snapshot
    rw [hr] at h
    rw [step,reconcileStatus,hr]
    exact h.trans (Roster.reconcile_nil _)
  rw [hb]
  exact hσ.bare

theorem ForgetsReturned.iff_nil {u : Service} (h : Ends s u) (hr : u.registry.snapshot = []) :
    ForgetsReturned s u ↔ u.live = [] := by
  constructor
  · intro hf
    refine List.eq_nil_iff_forall_not_mem.mpr fun σ hσ => ?_
    have hm := hf.listed σ hσ
    rw [hr] at hm
    exact List.not_mem_nil hm
  · intro hl
    refine ⟨h.freed,fun σ _ => ?_,by simp [hl],by simp [hl]⟩
    have he : u.registry.entries = [] := hr
    rw [Registry.get?,he,List.find?_nil]

/-- What the step does in which a shutdown comes to its turn: it ends the sessions of the queue. If
it gets at the registry it also forgets everybody, and so no more than those that it has ended only
if none is left alive; if not, it leaves the registry as it is and waits for it. -/
structure ShutsDown (s : Service) (t : ℕ) (e : Event) : Prop where
  ends : Ends s (s.step e)
  forgets : s.locked = false → ForgetsAll s t s.pool.queue.length e ∧
    (ForgetsReturned s (s.step e) ↔ (s.step e).live = [])
  waits : s.locked = true → (s.step e).registry = s.registry ∧
    (s.step e).clearings = s.clearings ++ [⟨t,s.pool.queue.length⟩]

theorem clear_of_unlocked (hl : s.locked = false) (t n : ℕ) : s.clear t n = s.clearNow t n := by
  rw [clear,if_neg (by simp [hl])]

theorem clear_of_locked (hl : s.locked = true) (t n : ℕ) :
    s.clear t n = { s with clearings := s.clearings ++ [⟨t,n⟩] } := by
  rw [clear,if_pos hl]

theorem drainFor_shutdown {w : Waiter} (hw : w.purpose = .shutdown) :
    s.drainFor w = s.drain.1.clear w.task s.pool.queue.length := by
  simp only [drainFor,hw]
  rfl

theorem drain_registry (s : Service) : s.drain.1.locked = s.locked ∧
    s.drain.1.registry = s.registry ∧ s.drain.1.clearings = s.clearings := by
  rw [drain_frame]
  exact ⟨rfl,rfl,rfl⟩

theorem shutsDown_of_drainFor (hs : s.Tidy) (hx : Custody.Exclusive s.store.roster s.live)
    (hf : s.store.Faultless) {v : Service} {w : Waiter} {e : Event} (hw : w.purpose = .shutdown)
    (he : s.step e = v.drainFor w)
    (hv : v.store = s.store ∧ v.live = s.live ∧ v.pool.queue = s.pool.queue ∧
      v.occurrences = s.occurrences)
    (hr : v.locked = s.locked ∧ v.registry = s.registry ∧ v.clearings = s.clearings) :
    ShutsDown s w.task e := by
  obtain ⟨hstore,hlive,hqueue,hocc⟩ := hv
  obtain ⟨hlocked,hregistry,hclear⟩ := hr
  obtain ⟨hdl,hdr,hdc⟩ := v.drain_registry
  obtain ⟨hend,hf'⟩ := ends_drainFor (s := v) (by rwa [hstore,hlive]) (hstore ▸ hf) w
  rw [← he] at hend hf'
  have hend : Ends s (s.step e) := ⟨hlive ▸ hqueue ▸ hend.live,hqueue ▸ hend.freed,hend.kept⟩
  rw [drainFor_shutdown hw,hqueue] at he
  refine ⟨hend,fun hl => ?_,fun hl => ?_⟩
  · rw [clear_of_unlocked (by rw [hdl,hlocked,hl])] at he
    have hreg : (s.step e).registry = .empty := by rw [he]; rfl
    have ho : (s.step e).occurrences = .answered w.task (.shutDown s.pool.queue.length) ::
        .observed (.parked v.drain.1.pool.parked) :: (v.pool.queue.map .drained).reverse ++
          s.occurrences := by
      rw [he,← hocc]
      exact congrArg (List.cons _) v.occurrences_drain
    have hn : .answered w.task (.shutDown s.pool.queue.length) ∈ s.news e := by
      rw [news_of_notes hs ho]
      exact List.mem_cons_self
    have hsnap : (s.step e).registry.snapshot = [] := by rw [hreg]; rfl
    exact ⟨⟨hn,hsnap,fun σ hσ => taken_of_empty hf' hreg (hend.kept σ hσ)⟩,
      ForgetsReturned.iff_nil hend hsnap⟩
  · rw [clear_of_locked (by rw [hdl,hlocked,hl])] at he
    rw [he]
    exact ⟨hdr.trans hregistry,by rw [hdc,hclear]⟩

/-- A shutdown that comes to an empty line ends the sessions of the queue at once; behind others it
waits, and ends them when it has become the first. One that then had to wait for the registry
forgets everybody when it gets at it. -/
structure Shutdown (s : Service) : Prop where
  atOnce : s.pool.waiters = [] → ShutsDown s s.nextTask .shutdown
  waits : s.pool.waiters ≠ [] → s.step .shutdown = s.joined ⟨s.nextTask,.shutdown,s.now,0,none⟩
  inTurn : ∀ w, s.pool.waiter? w.task = some w → s.pool.isFirst w.task = true →
    w.purpose = .shutdown → ShutsDown s w.task (.turn (.poll w.task))
  later : ∀ c, s.clearing? c.task = some c → s.locked = false →
    (s.step (.turn (.clear c.task))).live = s.live ∧
      (s.step (.turn (.clear c.task))).store = s.store ∧
      ForgetsAll s c.task c.sessions (.turn (.clear c.task))

theorem forgets_clear (hs : s.Tidy) (hx : Custody.Exclusive s.store.roster s.live)
    (hf : s.store.Faultless) {c : Clearing} (hc : s.clearing? c.task = some c)
    (hl : s.locked = false) : (s.step (.turn (.clear c.task))).live = s.live ∧
      (s.step (.turn (.clear c.task))).store = s.store ∧
      ForgetsAll s c.task c.sessions (.turn (.clear c.task)) := by
  have he : s.step (.turn (.clear c.task)) =
      (s.dropClearing c.task).clearNow c.task c.sessions := by
    simp [step,take,onClear,hc,hl]
  have hn : s.news (.turn (.clear c.task)) = [.answered c.task (.shutDown c.sessions)] :=
    news_of_notes hs (by rw [he]; rfl)
  refine ⟨by rw [he]; rfl,by rw [he]; rfl,by simp [hn],by rw [he]; rfl,fun σ hσ => ?_⟩
  rw [he] at hσ ⊢
  exact taken_of_empty (s := (s.dropClearing c.task).clearNow c.task c.sessions) hf rfl
    ⟨(hx.identities σ hσ).record,(hx.egresses σ hσ).record⟩

theorem shutdown_of_exclusive (hs : s.Tidy) (hx : Custody.Exclusive s.store.roster s.live)
    (hf : s.store.Faultless) : Shutdown s := by
  refine ⟨fun hl => ?_,fun hl => arrive_of_line hs hl rfl,fun w hw hfirst hp => ?_,
    fun c hc hl => forgets_clear hs hx hf hc hl⟩
  · let w : Waiter := ⟨s.nextTask,.shutdown,s.now,0,none⟩
    have hj : s.step .shutdown = ({ s with nextTask := s.nextTask + 1 } : Service).drainFor w :=
      arrive_of_empty hs hl rfl
    exact shutsDown_of_drainFor (w := w) hs hx hf rfl hj ⟨rfl,rfl,rfl,rfl⟩ ⟨rfl,rfl,rfl⟩
  · have hd : w.purpose.drains = true := by rw [hp]; rfl
    exact shutsDown_of_drainFor hs hx hf hp (poll_drains hw hfirst hd) ⟨rfl,rfl,rfl,rfl⟩
      ⟨rfl,rfl,rfl⟩

/-- Shutdown, in every state that a service reaches in which no call of the store is to fail, if
nobody has freed the records from outside: what it returns is free, what is alive keeps its
resources, and all is forgotten. -/
theorem shutdown_forgets_all (settings : Settings) (store : Store) (clock : ℤ) {n : ℕ} {pool : Pool}
    (hp : Pool.ofCapacity n = .ready pool) (hes : ∀ e ∈ es, e.frees = false)
    (hf : ((fresh settings store pool clock).run es).store.Faultless) :
    Shutdown ((fresh settings store pool clock).run es) := by
  obtain ⟨ho,hx⟩ := exclusive_fresh settings store clock hp
  exact shutdown_of_exclusive (tidy_run ho.tidy es) (exclusive_traffic ho.tidy ho.serial hx hes) hf

/-! ### Afterwards -/

/-- What the registry says after the state `u` that a shutdown has left. While nothing can go on it
lists only sessions that are alive, and all of them but those that are still as they were in `u` and
those that were robbed. A reconciliation takes nothing from a session that is listed. -/
structure Relists (u : Service) (later : List Event) : Prop where
  alive : (u.run later).quiet → ∀ x ∈ (u.run later).registry.snapshot,
    ∃ σ ∈ (u.run later).live, σ.entry = x
  listed : (u.run later).quiet → ∀ σ ∈ (u.run later).live,
    (σ ∈ u.live ∨ u.Robbed later σ) ∨ σ.entry ∈ (u.run later).registry.snapshot
  safe : (u.run later).store.Faultless → ∀ σ ∈ (u.run later).live,
    σ.entry ∈ (u.run later).registry.snapshot →
    ((u.run later).step .reconcileStatus).store.roster.Flagged true σ

theorem flagged_reconcileStatus (hx : Custody.Exclusive s.store.roster s.live)
    (hf : s.store.Faultless) {σ : Session} (hσ : σ ∈ s.live) (hm : σ.entry ∈ s.registry.snapshot) :
    (s.step .reconcileStatus).store.roster.Flagged true σ := by
  have hr : (s.step .reconcileStatus).store.roster =
      (s.store.roster.reconcile s.registry.snapshot).1 :=
    hf.reconcile_roster _
  rw [hr]
  constructor
  · exact (Roster.reconcile_identityTaken (List.mem_map.mpr ⟨_,hm,rfl⟩)
      (hx.identities σ hσ).1).record
  · exact (Roster.reconcile_egressTaken (List.mem_map.mpr ⟨_,hm,rfl⟩) (hx.egresses σ hσ).1).record

theorem bookedBut_shutdown (hs : s.Tidy) (hn : s.custody.Serial)
    (hx : Custody.Exclusive s.store.roster s.live) (hl : s.pool.waiters = [])
    (hu : s.locked = false) : (s.step .shutdown).Orderly True ∧
      Custody.BookedBut (· ∈ (s.step .shutdown).live) (s.step .shutdown).custody := by
  have hd : s.step .shutdown = ({ s with nextTask := s.nextTask + 1 } : Service).drainFor
      ⟨s.nextTask,.shutdown,s.now,0,none⟩ := arrive_of_empty hs hl rfl
  have hw : (s.step .shutdown).pool.waiters = [] := by
    rw [hd,pool_drainFor]
    exact hl
  have hr : (s.step .shutdown).registry = .empty := by
    rw [hd,drainFor_shutdown rfl,clear_of_unlocked (by rw [(drain_registry _).1]; exact hu)]
    rfl
  have hx' : Custody.Exclusive (s.step .shutdown).store.roster (s.step .shutdown).live :=
    exclusive_traffic hs hn hx (show ∀ e ∈ [Event.shutdown], e.frees = false by simp [Event.frees])
  refine ⟨⟨tidy_step hs _,serial_step hs hn _,by simp [Lined,hw]⟩,by rwa [live_custody],?_⟩
  rw [custody,hr]
  exact ⟨Registry.sorted_empty,by simp [Registry.empty],
    fun p hp => Or.inr (Or.inl (mem_live_of_roll (Multiset.mem_coe.mp hp)))⟩

/-- While only scans go on after a shutdown that found nobody in line or in the registry, the
registry is right about all but the sessions that it has forgotten. -/
theorem relists_after_shutdown (settings : Settings) (store : Store) (clock : ℤ)
    {n : ℕ} {pool : Pool} (hp : Pool.ofCapacity n = .ready pool) (hes : ∀ e ∈ es, e.frees = false)
    (hl : ((fresh settings store pool clock).run es).pool.waiters = [])
    (hu : ((fresh settings store pool clock).run es).locked = false) {later : List Event}
    (hlater : ∀ e ∈ later, e.keepsBooks = true) :
    Relists (((fresh settings store pool clock).run es).step .shutdown) later := by
  obtain ⟨ho,hx⟩ := exclusive_fresh settings store clock hp
  have hb := bookedBut_shutdown (tidy_run ho.tidy es) (serial_run ho.tidy ho.serial es)
    (exclusive_traffic ho.tidy ho.serial hx hes) hl hu
  have hv := (hb.1.booked_run hb.2 hlater).2
  have hx' := hv.exclusive
  rw [live_custody] at hx'
  exact ⟨(booked_of_custody hv).alive,(booked_of_custody hv).listed,
    fun hf σ hσ hm => flagged_reconcileStatus hx' hf hσ hm⟩

def slow : Service := fresh { acquireWait := 0, cooldown := 50, queryTimeout := 1000 } stocked
    ⟨1,[],[],[],[],0⟩ 0

def mixed : List Event :=
  [.command (.addIdentity { name := "brock", secret := "" }),.scan ⟨0,0⟩,.scan ⟨0,0⟩,.scan ⟨0,0⟩,
    .loginDone 1 (.error (.protocol "")),.elapse 50,.turn (.wake 1),
    .loginDone 2 (.error (.protocol ""))]

theorem mixed_faultless : (slow.run mixed).store.Faultless := Store.faultless_of_unplanned rfl

theorem shutdown_forgets_all_mixed :
    (slow.run mixed).pool.queue.map (·.entry) = [⟨"misty",2⟩] ∧
      ((slow.run mixed).step .shutdown).live.map (·.entry) = [⟨"ash",1⟩,⟨"brock",3⟩] ∧
      ((slow.run mixed).step .shutdown).store.roster.egresses.map (·.inUse) = [true,false,true] ∧
      (((slow.run mixed).step .shutdown).step .reconcileStatus).store.roster.egresses.map
        (·.inUse) = [false,false,false] ∧
      Shutdown (slow.run mixed) :=
  ⟨by decide +kernel,by decide +kernel,by decide +kernel,by decide +kernel,
    shutdown_forgets_all _ stocked 0 (n := 1) rfl (by decide +kernel) mixed_faultless⟩

/-- A shutdown does not always forget only what it returns, even where nothing can go on and nobody
is in line. -/
theorem not_forgetsReturned_mixed : ¬ ∀ es : List Event, (∀ e ∈ es, e.frees = false) →
    (slow.run es).store.Faultless → (slow.run es).quiet → (slow.run es).pool.waiters = [] →
      ForgetsReturned (slow.run es) ((slow.run es).step .shutdown) := by
  intro h
  have hq : (slow.run mixed).runnable = [] := by decide +kernel
  have hw : (slow.run mixed).pool.waiters.map (·.task) = [] := by decide +kernel
  have hf := h mixed (by decide +kernel) mixed_faultless hq (List.map_eq_nil_iff.mp hw)
  have hm : StatusEntry.mk "ash" 1 ∈ ((slow.run mixed).step .shutdown).live.map (·.entry) := by
    decide +kernel
  obtain ⟨σ,hσ,he⟩ := List.mem_map.mp hm
  have hs : ((slow.run mixed).step .shutdown).registry.snapshot = [] := by decide +kernel
  have hl := hf.listed σ hσ
  rw [hs] at hl
  exact List.not_mem_nil hl

end Service

end ScanService
