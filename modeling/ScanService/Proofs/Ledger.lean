import Mathlib.Data.Multiset.OrderedMonoid
import ScanService.Proofs.Acts
/-! The ledger of the scans: who stands in line, who has a session, and what became of each. The
sessions that were obtained are those that were handed back and those that scans have; whatever a
step does is some entries of the ledger. -/
namespace ScanService

namespace Occurrence

@[simp] def obtained? : Occurrence → Option (ℕ × ℕ)
  | obtained t session => some (t,session.serial)
  | _ => none

@[simp] def handedBack? : Occurrence → Option (ℕ × ℕ)
  | handedBack t session _ => some (t,session.serial)
  | _ => none

@[simp] def ended? : Occurrence → Option ℕ
  | returned t _ => some t
  | handedBack t _ .abandoned => some t
  | _ => none

@[simp] def retired? : Occurrence → Option String
  | handedBack _ _ (.retired reason) => some reason.label
  | _ => none

@[simp] def outcome? : Occurrence → Option String
  | returned _ r => some (Service.outcome r)
  | _ => none

@[simp] def retirement? : Occurrence → Option String
  | observed (.retirement reason) => some reason
  | _ => none

@[simp] def scan? : Occurrence → Option String
  | observed (.scan outcome _) => some outcome
  | _ => none

def idle : Occurrence → Bool
  | called _ _ | failed _ _ _ | answered _ _ | received _ _ | drained _ => true
  | observed (.scan _ _) | observed (.retirement _) => false
  | observed _ => true
  | _ => false

theorem entries_of_idle {o : Occurrence} (h : o.idle = true) :
    o.obtained? = none ∧ o.handedBack? = none ∧ o.ended? = none ∧ o.retired? = none ∧
      o.outcome? = none ∧ o.retirement? = none ∧ o.scan? = none := by
  cases o with
  | observed x =>
    cases x with
    | scan | retirement => exact absurd h Bool.false_ne_true
    | _ => exact ⟨rfl,rfl,rfl,rfl,rfl,rfl,rfl⟩
  | obtained | handedBack | returned => exact absurd h Bool.false_ne_true
  | _ => exact ⟨rfl,rfl,rfl,rfl,rfl,rfl,rfl⟩

end Occurrence

/-- The tasks in line, the scans with a session, the next task, and what has happened, the latest
first. -/
structure Ledger where
  line : Multiset ℕ
  scans : Multiset (ℕ × ℕ)
  next : ℕ
  log : List Occurrence

namespace Ledger

inductive Move : Ledger → Ledger → Prop
  | note {line : Multiset ℕ} {scans : Multiset (ℕ × ℕ)} {next : ℕ} {log : List Occurrence}
      {o : Occurrence} (h : o.idle = true) : Move ⟨line,scans,next,log⟩ ⟨line,scans,next,o :: log⟩
  | number {line : Multiset ℕ} {scans : Multiset (ℕ × ℕ)} {next : ℕ} {log : List Occurrence} :
      Move ⟨line,scans,next,log⟩ ⟨line,scans,next + 1,log⟩
  | join {line : Multiset ℕ} {scans : Multiset (ℕ × ℕ)} {next : ℕ} {log : List Occurrence} :
      Move ⟨line,scans,next,log⟩ ⟨next ::ₘ line,scans,next + 1,log⟩
  | leave {line : Multiset ℕ} {scans : Multiset (ℕ × ℕ)} {next t : ℕ} {log : List Occurrence} :
      Move ⟨t ::ₘ line,scans,next,log⟩ ⟨line,scans,next,log⟩
  | begin {line : Multiset ℕ} {scans : Multiset (ℕ × ℕ)} {next t : ℕ} {log : List Occurrence}
      {session : Session} : Move ⟨t ::ₘ line,scans,next,log⟩
        ⟨line,(t,session.serial) ::ₘ scans,next,.obtained t session :: log⟩
  | refuse {line : Multiset ℕ} {scans : Multiset (ℕ × ℕ)} {next t : ℕ} {log : List Occurrence}
      {r : Except ScanFailure (List (ScanObject Float))} {x : Float} :
      Move ⟨t ::ₘ line,scans,next,log⟩
        ⟨line,scans,next,.returned t r :: .observed (.scan (Service.outcome r) x) :: log⟩
  | release {line : Multiset ℕ} {scans : Multiset (ℕ × ℕ)} {next t : ℕ} {log : List Occurrence}
      {session : Session} {r : Except ScanFailure (List (ScanObject Float))} {x : Float} :
      Move ⟨line,(t,session.serial) ::ₘ scans,next,log⟩
        ⟨line,scans,next,.returned t r :: .observed (.scan (Service.outcome r) x) ::
          .handedBack t session .released :: log⟩
  | retire {line : Multiset ℕ} {scans : Multiset (ℕ × ℕ)} {next t : ℕ} {log : List Occurrence}
      {session : Session} {reason : Retirement} {r : Except ScanFailure (List (ScanObject Float))}
      {x : Float} : Move ⟨line,(t,session.serial) ::ₘ scans,next,log⟩
        ⟨line,scans,next,.returned t r :: .observed (.scan (Service.outcome r) x) ::
          .handedBack t session (.retired reason) :: .observed (.retirement reason.label) :: log⟩
  | abandon {line : Multiset ℕ} {scans : Multiset (ℕ × ℕ)} {next t : ℕ} {log : List Occurrence}
      {session : Session} : Move ⟨line,(t,session.serial) ::ₘ scans,next,log⟩
        ⟨line,scans,next,.handedBack t session .abandoned :: log⟩

def Moves : Ledger → Ledger → Prop := Relation.ReflTransGen Move

theorem moves_notes {line : Multiset ℕ} {scans : Multiset (ℕ × ℕ)} {next : ℕ}
    {log : List Occurrence} {N : List Occurrence} (hN : ∀ o ∈ N, o.idle = true) :
    Moves ⟨line,scans,next,log⟩ ⟨line,scans,next,N ++ log⟩ := by
  induction N with
  | nil => exact .refl
  | cons o N ih =>
    have hr := ih fun x hx => hN x (List.mem_cons_of_mem _ hx)
    exact hr.tail (.note (hN o List.mem_cons_self))

/-- The books agree: sessions obtained and handed back, tasks in line, with a session and over, and
what was counted of both. -/
structure Settled (l : Ledger) : Prop where
  sessions : (l.log.filterMap Occurrence.obtained? : Multiset (ℕ × ℕ)) =
    l.log.filterMap Occurrence.handedBack? + l.scans
  fresh : Fresh (l.line + l.scans.map Prod.fst + l.log.filterMap Occurrence.ended?) l.next
  ended : (l.log.filterMap Occurrence.handedBack? : Multiset (ℕ × ℕ)).map Prod.fst ≤
    l.log.filterMap Occurrence.ended?
  retirements : l.log.filterMap Occurrence.retirement? = l.log.filterMap Occurrence.retired?
  outcomes : l.log.filterMap Occurrence.scan? = l.log.filterMap Occurrence.outcome?

theorem Settled.handOver {line : Multiset ℕ} {scans : Multiset (ℕ × ℕ)} {next : ℕ}
    {log log' : List Occurrence} {x : ℕ × ℕ} (h : Settled ⟨line,x ::ₘ scans,next,log⟩)
    (ho : log'.filterMap Occurrence.obtained? = log.filterMap Occurrence.obtained?)
    (hb : log'.filterMap Occurrence.handedBack? = x :: log.filterMap Occurrence.handedBack?)
    (he : log'.filterMap Occurrence.ended? = x.1 :: log.filterMap Occurrence.ended?)
    (hr : log'.filterMap Occurrence.retirement? = log'.filterMap Occurrence.retired?)
    (hc : log'.filterMap Occurrence.scan? = log'.filterMap Occurrence.outcome?) :
    Settled ⟨line,scans,next,log'⟩ := by
  refine ⟨?_,?_,?_,hr,hc⟩
  · rw [ho,hb,h.sessions,Multiset.add_cons,← Multiset.cons_coe,Multiset.cons_add]
  · have hf := h.fresh
    rw [Multiset.map_cons,Multiset.add_cons,Multiset.cons_add] at hf
    rw [he,← Multiset.cons_coe,Multiset.add_cons]
    exact hf
  · rw [hb,he,← Multiset.cons_coe,← Multiset.cons_coe,Multiset.map_cons]
    exact Multiset.cons_le_cons _ h.ended

theorem Move.settled {l l' : Ledger} (h : Move l l') (hl : l.Settled) : l'.Settled := by
  obtain ⟨hs,hf,ho,hr,hc⟩ := hl
  cases h with
  | @note line scans next log o h =>
    obtain ⟨h₁,h₂,h₃,h₄,h₅,h₆,h₇⟩ := Occurrence.entries_of_idle h
    constructor <;> simpa only [List.filterMap_cons_none h₁,List.filterMap_cons_none h₂,
      List.filterMap_cons_none h₃,List.filterMap_cons_none h₄,List.filterMap_cons_none h₅,
      List.filterMap_cons_none h₆,List.filterMap_cons_none h₇]
  | number => exact ⟨hs,hf.succ,ho,hr,hc⟩
  | join =>
    refine ⟨hs,?_,ho,hr,hc⟩
    rw [Multiset.cons_add,Multiset.cons_add]
    exact hf.cons
  | leave =>
    rw [Multiset.cons_add,Multiset.cons_add] at hf
    exact ⟨hs,hf.of_le (Multiset.le_cons_self _ _),ho,hr,hc⟩
  | @begin line scans next t log session =>
    refine ⟨?_,?_,ho,hr,hc⟩
    · rw [Multiset.add_cons]
      exact congrArg (Multiset.cons (t,session.serial)) hs
    · rw [Multiset.map_cons,Multiset.add_cons,← Multiset.cons_add]
      exact hf
  | @refuse line scans next t log r x =>
    refine ⟨hs,?_,ho.trans (Multiset.le_cons_self _ t),hr,
      congrArg (List.cons (Service.outcome r)) hc⟩
    rw [Multiset.cons_add,Multiset.cons_add,← Multiset.add_cons] at hf
    exact hf
  | @release line scans next t log session r x =>
    exact Settled.handOver ⟨hs,hf,ho,hr,hc⟩ rfl rfl rfl hr
      (congrArg (List.cons (Service.outcome r)) hc)
  | @retire line scans next t log session reason r x =>
    exact Settled.handOver ⟨hs,hf,ho,hr,hc⟩ rfl rfl rfl (congrArg (List.cons reason.label) hr)
      (congrArg (List.cons (Service.outcome r)) hc)
  | abandon => exact Settled.handOver ⟨hs,hf,ho,hr,hc⟩ rfl rfl rfl hr hc

theorem Moves.settled {l l' : Ledger} (h : Moves l l') (hl : l.Settled) : l'.Settled := by
  induction h with
  | refl => exact hl
  | tail _ hm ih => exact hm.settled ih

end Ledger

theorem Occurrence.idle_of_plain {o : Occurrence} (h : o.plain = true) : o.idle = true := by
  cases o with
  | observed x => cases x <;> simp_all [plain,idle]
  | _ => simp_all [plain,idle]

theorem Charges.idle {c : Scan} {b : RetryBudget} {N : List Occurrence} (h : Charges c b N) :
    ∀ o ∈ N, o.idle = true := by
  cases h <;> simp [Occurrence.idle]

namespace Service

open Ledger

variable {s s' : Service} {c : Scan} {t : ℕ}

def openScans (s : Service) : List (ℕ × ℕ) := s.scans.map fun c => (c.task,c.session.serial)

def ledger (s : Service) :
    Ledger := ⟨(s.pool.waiters.map (·.task) : List ℕ),s.openScans,s.nextTask,s.occurrences⟩

theorem ledger_of_same (hw : s'.pool.waiters = s.pool.waiters) (hs : s'.scans = s.scans) :
    s'.ledger = { s.ledger with next := s'.nextTask, log := s'.occurrences } := by
  simp only [ledger,openScans,hw,hs]

/-- States that agree on the line and the scans, where only what is idle is noted in between. -/
theorem entries_of_notes (hw : s'.pool.waiters = s.pool.waiters) (hs : s'.scans = s.scans)
    (hn : s'.nextTask = s.nextTask) {N : List Occurrence} (ho : s'.occurrences = N ++ s.occurrences)
    (hN : ∀ o ∈ N, o.idle = true) : Moves s.ledger s'.ledger := by
  rw [ledger_of_same hw hs,hn,ho]
  exact moves_notes hN

theorem Aside.entries (h : Aside s s') : Moves s.ledger s'.ledger := by
  obtain ⟨N,ho,hN⟩ := h.noted
  have hi : ∀ o ∈ N, o.idle = true := by
    intro o hm
    rcases hN o hm with hp | ⟨σ,rfl⟩ | ⟨u,σ,_,a,rfl⟩
    · exact Occurrence.idle_of_plain hp
    · rfl
    · rfl
  rcases h.nextTask with hn | hn
  · exact entries_of_notes h.waiters h.scans hn ho hi
  · rw [ledger_of_same h.waiters h.scans,hn,ho]
    exact (moves_notes hi).tail .number

theorem Ready.entries {s₁ : Service} {c₁ : Scan} (h : Ready s c s₁ c₁) :
    Moves s.ledger s₁.ledger := by
  obtain ⟨N,hN,ho⟩ := h.noted
  exact entries_of_notes h.waiters h.scans h.nextTask ho hN.idle

theorem openScans_eq (hn : (s.scans.map (·.task)).Nodup) (h : s.scan? t = some c) :
    (s.openScans : Multiset (ℕ × ℕ)) = (t,c.session.serial) ::ₘ (s.dropScan t).openScans := by
  have hp := ((perm_cons_filter hn h).map fun c => (c.task,c.session.serial)).symm
  rw [List.map_cons,scan?_task h] at hp
  exact Multiset.coe_eq_coe.mpr hp

theorem ledger_putScan (hn : (s.scans.map (·.task)).Nodup) {d : Scan} (h : s.scan? c.task = some d)
    (he : c.session.serial = d.session.serial) : (s.putScan c).ledger = s.ledger := by
  have hp := ((perm_map_replace hn h c).map fun c => (c.task,c.session.serial))
  have hq := openScans_eq hn h
  have hm : ((s.putScan c).openScans : Multiset (ℕ × ℕ)) = s.openScans := by
    rw [hq,← he]
    exact Multiset.coe_eq_coe.mpr hp
  rw [ledger,hm]
  rfl

theorem calls_entries (s : Service) (c : Scan) (as : List RemoteAction) :
    Moves s.ledger (s.calls c as).ledger := by
  rw [calls_eq]
  refine entries_of_notes rfl rfl rfl (occurrences_calls s c as) fun o ho => ?_
  obtain ⟨a,_,rfl⟩ := List.mem_map.mp (List.mem_reverse.mp ho)
  rfl

theorem ScanAct.entries (h : ScanAct s c s') (hs : s.Tidy) (hc : s.scan? c.task = some c) :
    Moves s.ledger s'.ledger := by
  have hready {s₁ : Service} {c₁ : Scan} (h : Ready s c s₁ c₁) :
      (s₁.scans.map (·.task)).Nodup ∧ s₁.scan? c₁.task = some c := by
    refine ⟨?_,?_⟩
    · rw [h.scans]
      exact hs.nodup_scans
    · rw [scan?,h.scans,h.task]
      exact hc
  have hopen {s₁ : Service} {c₁ : Scan} (h : Ready s c s₁ c₁) : (s₁.openScans : Multiset (ℕ × ℕ)) =
      (c₁.task,c₁.session.serial) ::ₘ (s₁.dropScan c₁.task).openScans := by
    rw [openScans_eq (hready h).1 (hready h).2,h.serial]
  cases h with
  | @proceeds s₁ c₁ h =>
    rw [ledger_putScan (hready h).1 (hready h).2 h.serial]
    exact h.entries
  | @asks s₁ c₁ h as stage hst =>
    have hn : ((s₁.calls c₁ as).scans.map (·.task)).Nodup := by
      rw [calls_eq]
      exact (hready h).1
    have hf : (s₁.calls c₁ as).scan? c₁.task = some c := (scan?_calls s₁ c₁ as _).trans (hready h).2
    rw [ledger_putScan (c := { c₁ with stage }) hn hf h.serial]
    exact h.entries.trans (calls_entries s₁ c₁ as)
  | @releases s₁ c₁ h r =>
    obtain ⟨M,x,hM,hp⟩ := occurrences_finishReleased s₁ c₁ r
    have hl : (s₁.finishReleased c₁ r).ledger = ⟨(s₁.pool.waiters.map (·.task) : List ℕ),
        (s₁.dropScan c₁.task).openScans,s₁.nextTask,(s₁.finishReleased c₁ r).occurrences⟩ := by
      rw [ledger,finishReleased,conclude_eq]
      rfl
    refine h.entries.trans ?_
    rw [hl,hM,ledger,hopen h]
    exact (Relation.ReflTransGen.single .release).trans (moves_notes fun o ho =>
      Occurrence.idle_of_plain (hp o ho))
  | @retires s₁ c₁ h reason e =>
    obtain ⟨M,x,hM,hp⟩ := occurrences_retireNow s₁ c₁ reason e
    have hl : (s₁.retireNow c₁ reason e).ledger = ⟨(s₁.pool.waiters.map (·.task) : List ℕ),
        (s₁.dropScan c₁.task).openScans,s₁.nextTask,(s₁.retireNow c₁ reason e).occurrences⟩ := by
      rw [ledger,retireNow,conclude_eq]
      rfl
    refine h.entries.trans ?_
    rw [hl,hM,ledger,hopen h]
    exact (Relation.ReflTransGen.single .retire).trans (moves_notes fun o ho =>
      Occurrence.idle_of_plain (hp o ho))
  | abandons =>
    have hl : (s.abandon c).ledger = ⟨(s.pool.waiters.map (·.task) : List ℕ),
        (s.dropScan c.task).openScans,s.nextTask,.handedBack c.task c.session
          .abandoned :: s.occurrences⟩ := by
      unfold abandon delist
      split <;> rfl
    rw [hl,ledger,hopen (Ready.refl s c)]
    exact Relation.ReflTransGen.single .abandon

/-- A task that has left the line, from where it stood in it. -/
theorem LineAct.entries (h : LineAct s t s') (ht : t ∉ s.scans.map (·.task)) :
    Moves { s.ledger with line := t ::ₘ s.ledger.line } s'.ledger := by
  cases h with
  | @begins s₁ session h since http place =>
    obtain ⟨N,ho,hN⟩ := h.noted
    have hi : ∀ o ∈ N, o.idle = true := by
      intro o hm
      rcases hN o hm with hp | rfl
      · exact Occurrence.idle_of_plain hp
      · rfl
    have hopen : ((s₁.begin t since http place session).openScans : Multiset (ℕ × ℕ)) =
        (t,session.serial) ::ₘ (s.openScans : Multiset (ℕ × ℕ)) := by
      have hsc := begin_scans (s := s₁) (by rwa [h.scans]) since http place session
      rw [openScans,hsc,List.map_append,h.scans]
      exact Multiset.coe_eq_coe.mpr (List.perm_append_singleton _ _)
    have hb := begin_eq s₁ t since http place session
    have hw : (s₁.begin t since http place session).pool.waiters = s.pool.waiters := by
      rw [hb,h.waiters]
    have hn : (s₁.begin t since http place session).nextTask = s.nextTask := by rw [hb,h.nextTask]
    obtain ⟨as,has⟩ := noted_begin s₁ t since http place session
    have hl : (s₁.begin t since http place session).ledger = ⟨s.ledger.line,
        (t,session.serial) ::ₘ s.ledger.scans,s.nextTask,
        as.map (fun a => .called t (session.call a)) ++ .obtained t
          session :: (N ++ s.occurrences)⟩ := by
      rw [ledger,hopen,hw,hn,has,ho]
      rfl
    rw [hl]
    refine ((moves_notes hi).tail .begin).trans (moves_notes fun o hm => ?_)
    obtain ⟨a,_,rfl⟩ := List.mem_map.mp hm
    rfl
  | refused store since http e =>
    obtain ⟨M,x,hM,hp⟩ := occurrences_conclude { s with store } t since http (.error e)
    have hl : (({ s with store }).conclude t since http (.error e)).ledger = ⟨s.ledger.line,
        s.ledger.scans,s.nextTask,
        (({ s with store }).conclude t since http (.error e)).occurrences⟩ := by
      rw [ledger,conclude_eq]
      rfl
    rw [hl,hM]
    exact (Relation.ReflTransGen.single .refuse).trans (moves_notes fun o ho =>
      Occurrence.idle_of_plain (hp o ho))
  | aside h => exact (Relation.ReflTransGen.single .leave).trans h.entries

/-- What a step does is some entries of the ledger. -/
theorem Act.entries {t : Option ℕ} (h : Act s t s') (hs : s.Tidy) : Moves s.ledger s'.ledger := by
  induction h with
  | aside h => exact h.entries
  | handles hc h => exact h.entries hs hc
  | @departs s s' w hw h =>
    have hm := List.mem_of_find?_eq_some hw
    have hn : (s.pool.waiters.map (·.task)).Nodup :=
      (List.nodup_append.mp (Multiset.coe_nodup.mp hs.fresh.nodup)).2.1
    have hp : (w.task :: (s.pool.leave w.task).waiters.map (·.task)).Perm
        (s.pool.waiters.map (·.task)) :=
      (perm_cons_filter hn hw).map Waiter.task
    have he := h.entries (s := { s with pool := s.pool.leave w.task }) (hs.not_mem_scans hm)
    have hl : s.ledger =
        { s.ledger with line := w.task ::ₘ ((s.pool.leave w.task).waiters.map (·.task) :
          List ℕ) } := by
      rw [ledger,Multiset.cons_coe,Multiset.coe_eq_coe.mpr hp]
    rw [hl]
    exact he
  | @arrives s s' w hw h ih =>
    obtain ⟨task,purpose,since,wait,deadline⟩ := w
    obtain rfl : task = s.nextTask := hw
    have hj : (s.joined ⟨s.nextTask,purpose,since,wait,deadline⟩).ledger =
        ⟨s.nextTask ::ₘ s.ledger.line,s.ledger.scans,s.nextTask + 1,s.occurrences⟩ := by
      have hp := Multiset.coe_eq_coe.mpr
        (List.perm_append_singleton s.nextTask (s.pool.waiters.map (·.task)))
      rw [ledger,joined,Pool.join,List.map_append]
      exact congrArg (fun line => Ledger.mk line s.openScans (s.nextTask + 1) s.occurrences) hp
    have hi := ih (hs.join purpose since wait deadline)
    rw [hj] at hi
    exact (Relation.ReflTransGen.single .join).trans hi

theorem settled_run (hs : s.Tidy) (h : s.ledger.Settled) {es : List Event}
    (hes : ∀ e ∈ es, e.retires = false) : (s.run es).ledger.Settled := by
  induction es generalizing s with
  | nil => exact h
  | cons e es ih =>
    have hm := (s.act_step (hes e List.mem_cons_self)).entries hs
    exact ih (tidy_step hs e) (hm.settled h) fun e he => hes e (List.mem_cons_of_mem _ he)

theorem settled_fresh (settings : Settings) (store : Store) (clock : ℤ) {n : ℕ} {pool : Pool}
    (hp : Pool.ofCapacity n = .ready pool) : (fresh settings store pool clock).ledger.Settled := by
  obtain rfl := Pool.eq_of_ofCapacity hp
  exact ⟨rfl,Fresh.zero 0,le_rfl,rfl,rfl⟩

/-! ### The sessions that were built -/

theorem Ready.live {s₁ : Service} {c₁ : Scan} (h : Ready s c s₁ c₁) : s₁.live = s.live := by
  rw [Service.live,Service.live,h.scans,h.held,h.pool]

theorem Ready.complete {s₁ : Service} {c₁ : Scan} (h : Ready s c s₁ c₁) (hs : s.Complete 0) :
    s₁.Complete 0 := by
  obtain ⟨N,hN,ho⟩ := h.noted
  refine hs.of_same (by rw [h.live]) (gone_of_notes ho ?_) h.nextSession
  generalize c₁.budget = b at hN
  cases hN <;> simp

theorem Ready.has {s₁ : Service} {c₁ : Scan} (h : Ready s c s₁ c₁) (hs : s.Tidy)
    (hc : s.scan? c.task = some c) : s₁.Has c :=
  ⟨by rw [h.scans]; exact hs.nodup_scans,c,by rw [scan?,h.scans]; exact hc,rfl,rfl⟩

theorem Ready.serials {s₁ : Service} {c₁ : Scan} (h : Ready s c s₁ c₁) (hs : s.Tidy)
    (hc : s.scan? c.task = some c) : (s₁.live.map (·.serial) : Multiset ℕ) =
      c₁.session.serial ::ₘ ((s₁.rest c₁.task).map Prod.fst).map Session.serial := by
  rw [← Multiset.map_coe,(h.has hs hc).live,Multiset.map_cons,h.serial,h.task]

theorem live_finishReleased (s : Service) (c : Scan)
    (r : Except ScanFailure (List (ScanObject Float))) :
    ((s.finishReleased c r).live : Multiset Session) = c.session ::ₘ (s.rest c.task).map
      Prod.fst := by
  rw [← live_custody]
  exact Custody.live_of_roll (c := (s.finishReleased c r).custody) (roll_finishReleased s c r)

theorem live_retireNow (s : Service) (c : Scan) (reason : Retirement) (e : ScanFailure) :
    ((s.retireNow c reason e).live : Multiset Session) = (s.rest c.task).map Prod.fst := by
  rw [← live_custody,custody_retireNow]
  rfl

theorem live_begin (ht : t ∉ s.scans.map (·.task)) (since : ℕ) (http : Bool)
    (place : Coordinate Float) (session : Session) :
    ((s.begin t since http place session).live : Multiset Session) = session ::ₘ s.live := by
  have hb := begin_eq s t since http place session
  rw [live,begin_scans ht,congrArg Service.held hb,congrArg Service.pool hb,List.map_append,
    Multiset.cons_coe,Multiset.coe_eq_coe]
  simp only [live,List.map_cons,List.map_nil,List.append_assoc,List.singleton_append]
  exact List.perm_middle

theorem ScanAct.complete (h : ScanAct s c s') (hs : s.Tidy) (hc : s.scan? c.task = some c)
    (h₀ : s.Complete 0) : s'.Complete 0 := by
  cases h with
  | @proceeds s₁ c₁ h =>
    refine (h.complete h₀).of_same ?_ rfl rfl
    rw [← Multiset.map_coe,(h.has hs hc).live_putScan h.task,Multiset.map_cons,
      h.serials hs hc,h.task]
  | @asks s₁ c₁ h as stage hst =>
    have hg : (s₁.calls c₁ as).gone = s₁.gone := by
      refine gone_of_notes (occurrences_calls s₁ c₁ as) fun o ho => ?_
      obtain ⟨a,_,rfl⟩ := List.mem_map.mp (List.mem_reverse.mp ho)
      rfl
    have hl : ((s₁.calls c₁ as).putScan { c₁ with stage }).live =
        (s₁.putScan { c₁ with stage }).live := by
      rw [calls_eq]
      rfl
    refine (h.complete h₀).of_same ?_ hg (by rw [calls_eq]; rfl)
    rw [hl,← Multiset.map_coe,(h.has hs hc).live_putScan (d := { c₁ with stage }) h.task,
      Multiset.map_cons,h.serials hs hc,h.task]
  | @releases s₁ c₁ h r =>
    obtain ⟨M,x,hM,hp⟩ := occurrences_finishReleased s₁ c₁ r
    have hg : (s₁.finishReleased c₁ r).gone = s₁.gone :=
      (gone_of_notes hM fun o ho => Occurrence.gone?_of_plain (hp o ho)).trans rfl
    refine (h.complete h₀).of_same ?_ hg (by rw [finishReleased,conclude_eq]; rfl)
    rw [← Multiset.map_coe,live_finishReleased,Multiset.map_cons,h.serials hs hc]
  | @retires s₁ c₁ h reason e =>
    obtain ⟨M,x,hM,hp⟩ := occurrences_retireNow s₁ c₁ reason e
    have hg : (s₁.retireNow c₁ reason e).gone = c₁.session.serial :: s₁.gone :=
      (gone_of_notes hM fun o ho => Occurrence.gone?_of_plain (hp o ho)).trans rfl
    refine (h.complete h₀).lose ?_ hg (congrArg Custody.next (custody_retireNow s₁ c₁ reason e))
    rw [h.serials hs hc,← Multiset.map_coe,live_retireNow]
  | abandons =>
    have hg : (s.abandon c).gone = c.session.serial :: s.gone := by
      rw [gone,occurrences_abandon]
      rfl
    refine h₀.lose ?_ hg ?_
    · rw [(Ready.refl s c).serials hs hc,live_abandon,← map_roll]
      rfl
    · unfold abandon delist
      split <;> rfl

theorem LineAct.complete (h : LineAct s t s') (ht : t ∉ s.scans.map (·.task)) (h₀ : s.Complete 0) :
    s'.Complete 0 := by
  cases h with
  | @begins s₁ session h since http place =>
    obtain ⟨as,has⟩ := noted_begin s₁ t since http place session
    have hg : (s₁.begin t since http place session).gone = s₁.gone := by
      refine (gone_of_notes has fun o hm => ?_).trans rfl
      obtain ⟨a,_,rfl⟩ := List.mem_map.mp hm
      rfl
    exact (h.complete h₀).hold (live_begin (by rwa [h.scans]) since http place session) hg
      (by rw [begin_eq])
  | refused store since http e =>
    obtain ⟨M,x,hM,hp⟩ := occurrences_conclude { s with store } t since http (.error e)
    have hg : (({ s with store }).conclude t since http (.error e)).gone = s.gone :=
      (gone_of_notes hM fun o ho => Occurrence.gone?_of_plain (hp o ho)).trans rfl
    refine h₀.of_same ?_ hg
      (congrArg Custody.next (custody_conclude { s with store } t since http (.error e)))
    rw [conclude_eq]
    rfl
  | aside h => exact h.complete h₀

theorem Act.complete {about : Option ℕ} (h : Act s about s') (hs : s.Tidy) (h₀ : s.Complete 0) :
    s'.Complete 0 := by
  induction h with
  | aside h => exact h.complete h₀
  | handles hc h => exact h.complete hs hc h₀
  | departs hw h => exact h.complete (hs.not_mem_scans (List.mem_of_find?_eq_some hw)) h₀
  | @arrives s s' w hw h ih =>
    obtain ⟨task,purpose,since,wait,deadline⟩ := w
    obtain rfl : task = s.nextTask := hw
    exact ih (hs.join purpose since wait deadline) h₀

theorem complete_run (hs : s.Tidy) (h : s.Complete 0) {es : List Event}
    (hes : ∀ e ∈ es, e.retires = false) : (s.run es).Complete 0 := by
  induction es generalizing s with
  | nil => exact h
  | cons e es ih =>
    have hc := (s.act_step (hes e List.mem_cons_self)).complete hs h
    exact ih (tidy_step hs e) hc fun e he => hes e (List.mem_cons_of_mem _ he)

theorem complete_fresh (settings : Settings) (store : Store) (clock : ℤ) {n : ℕ} {pool : Pool}
    (hp : Pool.ofCapacity n = .ready pool) : (fresh settings store pool clock).Complete 0 := by
  have ho : Orderly False _ ∧ _ := orderly_fresh settings store clock hp
  rw [Complete,ho.2]
  rfl

end Service

end ScanService
