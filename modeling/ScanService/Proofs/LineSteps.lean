import ScanService.Proofs.Acts
import ScanService.Proofs.TrafficSteps
/-! What every event does to the line: it leaves it as it is, or one in it departs, perhaps the one
who has just come. Who departs has got a session or ended those in the queue, or the wait was in
vain, or nothing is said. Of a shutdown nothing is said before it has emptied the registry. -/
namespace ScanService

/-- What is said to those in line: a session was received, the wait for one was in vain, or sessions
were ended. -/
def Occurrence.deals : Occurrence → Bool
  | received _ _ | answered _ (.session (.error _)) | answered _ (.drained _) => true
  | _ => false

theorem Charges.quiet {c : Scan} {b : RetryBudget} {N : List Occurrence} (h : Charges c b N) :
    ∀ o ∈ N, o.deals = false := by
  cases h <;> simp [Occurrence.deals]

namespace Service

def dealings (s : Service) : List Occurrence := s.occurrences.filter Occurrence.deals

structure Lines (s s' : Service) : Prop where
  waiters : s'.pool.waiters = s.pool.waiters
  queue : s.pool.queue <+: s'.pool.queue
  dealings : s'.dealings = s.dealings

inductive Departs (s : Service) (w : Waiter) (s' : Service) : Prop
  | quits (hq : s.pool.queue <+: s'.pool.queue) (hd : s'.dealings = s.dealings)
  | drains (hf : s.pool.isFirst w.task = true) (hq : s'.pool.queue = [])
      (hp : s'.pool.parked = s.pool.parked - s.pool.queue.length)
      (hd : s'.dealings = .answered w.task (.drained s.pool.queue.length) :: s.dealings)
  | shutsDown (hf : s.pool.isFirst w.task = true) (hq : s'.pool.queue = [])
      (hd : s'.dealings = s.dealings)
  | receives (hf : s.pool.isFirst w.task = true) (σ : Session)
      (hd : s'.dealings = .received w.task σ :: s.dealings)
  | fails (hf : s.pool.isFirst w.task = true → s.pool.queue = []) (ho : w.overdue s.now = true)
      {e : PoolFailure} (he : w.purpose = .acquire ∧ e = .timeout (w.wait * 1000000) ∨
        ∃ x, e = .ofStore x)
      (hq : s'.pool.queue = s.pool.queue)
      (hd : s'.dealings = .answered w.task (.session (.error e)) :: s.dealings)

/-- The line goes on: nothing happens to it, or one in it departs. -/
inductive Proceeds (s s' : Service) : Prop
  | lines (h : Lines s s')
  | departs {w : Waiter} (hw : w ∈ s.pool.waiters)
      (hl : s'.pool.waiters = (s.pool.leave w.task).waiters) (h : Departs s w s')

variable {s s' : Service} {c : Scan}

theorem Lines.refl (s : Service) : Lines s s := ⟨rfl,List.prefix_rfl,rfl⟩

theorem dealings_of_notes {N : List Occurrence} (ho : s'.occurrences = N ++ s.occurrences)
    (hN : ∀ o ∈ N, o.deals = false) : s'.dealings = s.dealings := by
  rw [dealings,ho,List.filter_append,List.filter_eq_nil_iff.mpr (by simpa using hN),
    List.nil_append,dealings]

theorem dealings_conclude (s : Service) (task started : ℕ) (http : Bool)
    (r : Except ScanFailure (List (ScanObject Float))) :
    (s.conclude task started http r).dealings = s.dealings := by
  cases http <;> rfl

theorem Ready.lines {s₁ : Service} {c₁ : Scan} (h : Ready s c s₁ c₁) : Lines s s₁ := by
  obtain ⟨N,hN,ho⟩ := h.noted
  exact ⟨h.waiters,h.pool ▸ List.prefix_rfl,dealings_of_notes ho hN.quiet⟩

theorem ScanAct.lines (h : ScanAct s c s') : Lines s s' := by
  cases h with
  | proceeds h => exact ⟨h.lines.waiters,h.lines.queue,h.lines.dealings⟩
  | @asks s₁ c₁ h as stage hst =>
    have hd : (s₁.calls c₁ as).dealings = s₁.dealings := by
      refine dealings_of_notes (occurrences_calls s₁ c₁ as) fun o ho => ?_
      obtain ⟨a,_,rfl⟩ := List.mem_map.mp (List.mem_reverse.mp ho)
      rfl
    have hp : (s₁.calls c₁ as).pool = s₁.pool := by rw [calls_eq]
    exact ⟨hp ▸ h.lines.waiters,hp ▸ h.lines.queue,hd.trans h.lines.dealings⟩
  | @releases s₁ c₁ h r =>
    have hd := dealings_conclude (((s₁.release c₁.session s₁.settings.cooldown).note
      (.handedBack c₁.task c₁.session .released)).dropScan c₁.task) c₁.task c₁.started c₁.http r
    refine ⟨?_,?_,hd.trans h.lines.dealings⟩
    · rw [finishReleased,conclude_eq]
      exact h.lines.waiters
    · rw [finishReleased,conclude_eq]
      exact h.lines.queue
  | @retires s₁ c₁ h reason e =>
    have hd := dealings_conclude
      (((({ s₁ with registry := s₁.registry.remove c₁.session.identity.name } : Service).retire
        c₁.session reason).1.note (.handedBack c₁.task c₁.session (.retired reason))).dropScan
      c₁.task) c₁.task c₁.started c₁.http (.error e)
    refine ⟨?_,?_,hd.trans h.lines.dealings⟩
    · rw [retireNow,conclude_eq]
      exact h.lines.waiters
    · rw [retireNow,conclude_eq]
      exact h.lines.queue
  | abandons =>
    unfold abandon delist
    split <;> exact ⟨rfl,List.prefix_rfl,rfl⟩

/-! ### Those in line -/

theorem dealings_provide (s : Service) (w : Waiter) (σ : Session) :
    (s.provide w σ).dealings = s.dealings := by
  unfold provide
  split
  · rename_i place http _
    obtain ⟨as,has⟩ := noted_begin s w.task w.since http place σ
    refine dealings_of_notes
      (N := as.map (fun a => .called w.task (σ.call a)) ++ [.obtained w.task σ]) ?_ ?_
    · rw [has,List.append_assoc]
      rfl
    · intro o ho
      rcases List.mem_append.mp ho with ho | ho
      · obtain ⟨a,_,rfl⟩ := List.mem_map.mp ho
        rfl
      · rw [List.mem_singleton.mp ho]
        rfl
  · rfl

theorem pool_provide (s : Service) (w : Waiter) (σ : Session) : (s.provide w σ).pool = s.pool := by
  unfold provide
  split
  · rw [begin_eq]
  · rfl

theorem pool_refuse (s : Service) (w : Waiter) (e : PoolFailure) :
    (s.refuse w e).pool = s.pool := by
  unfold refuse
  split
  · rw [conclude_eq]
  · rfl

theorem dealings_refuse (s : Service) (w : Waiter) (e : PoolFailure) :
    (s.refuse w e).dealings = s.dealings ∨ (s.refuse w e).dealings = .answered w.task
      (.session (.error e)) :: s.dealings := by
  unfold refuse
  split
  · exact Or.inl (dealings_conclude s _ _ _ _)
  · exact Or.inr rfl

theorem dealings_drain (s : Service) : s.drain.1.dealings = s.dealings := by
  refine dealings_of_notes s.occurrences_drain fun o ho => ?_
  simp only [List.mem_cons,List.mem_reverse,List.mem_map] at ho
  rcases ho with rfl | ⟨σ,_,rfl⟩ <;> rfl

theorem dealings_clear (s : Service) (task sessions : ℕ) :
    (s.clear task sessions).dealings = s.dealings := by
  unfold clear
  split <;> rfl

theorem dealings_drainFor (s : Service) (w : Waiter) : (s.drainFor w).dealings = s.dealings ∨
    (s.drainFor w).dealings = .answered w.task (.drained s.pool.queue.length) :: s.dealings := by
  unfold drainFor
  split
  · exact Or.inl ((dealings_clear s.drain.1 w.task s.drain.2).trans s.dealings_drain)
  · exact Or.inr (congrArg (List.cons _) s.dealings_drain)

theorem departs_refuse {w : Waiter} (hf : s.pool.isFirst w.task = true → s.pool.queue = [])
    (ho : w.overdue s.now = true) {e : PoolFailure}
    (he : w.purpose = .acquire ∧ e = .timeout (w.wait * 1000000) ∨ ∃ x, e = .ofStore x)
    (store : Store) : Departs s w (({ s.left w with store } : Service).refuse w e) := by
  have hq := pool_refuse { s.left w with store } w e
  rcases dealings_refuse { s.left w with store } w e with hd | hd
  · exact .quits (hq ▸ List.prefix_rfl) hd
  · exact .fails hf ho he (hq ▸ rfl) hd

theorem departs_giveUp {w : Waiter} (hf : s.pool.isFirst w.task = true → s.pool.queue = [])
    (ho : w.overdue s.now = true) : Departs s w ((s.left w).giveUp w) := by
  unfold giveUp
  split
  · exact departs_refuse hf ho (Or.inl ⟨‹_›,rfl⟩) s.store
  · rcases (s.left w).construct_cases w.task with ⟨st,x,_,hc⟩ | ⟨st₁,st₂,e,x,_,_,hc⟩ | ⟨st₁,
      st₂,e,i,_,_,hc⟩
    · rw [hc]
      exact departs_refuse hf ho (Or.inr ⟨x,rfl⟩) st
    · rw [hc]
      exact departs_refuse hf ho (Or.inr ⟨x,rfl⟩) _
    · rw [hc]
      let b := ({ s.left w with store := st₂, nextSession := s.nextSession + 1 } : Service).call
        w.task ⟨s.nextSession,i,e⟩ .create
      have hp : (b.provide w ⟨s.nextSession,i,e⟩).pool = s.pool.leave w.task := pool_provide b w _
      have hd : (b.provide w ⟨s.nextSession,i,e⟩).dealings = s.dealings := dealings_provide b w _
      exact .quits (hp ▸ List.prefix_rfl) hd

theorem pool_giveUp (s : Service) (w : Waiter) : (s.giveUp w).pool = s.pool := by
  unfold giveUp
  split
  · exact pool_refuse s w _
  · rcases s.construct_cases w.task with ⟨st,x,_,hc⟩ | ⟨st₁,st₂,e,x,_,_,hc⟩ | ⟨st₁,st₂,e,i,_,_,hc⟩
    · rw [hc]
      exact pool_refuse { s with store := st } w _
    · rw [hc]
      exact pool_refuse { s with store := (st₂.releaseEgress e.id).1 } w _
    · rw [hc]
      exact pool_provide
        (({ s with store := st₂, nextSession := s.nextSession + 1 } : Service).call w.task
          ⟨s.nextSession,i,e⟩ .create) w ⟨s.nextSession,i,e⟩

theorem pool_drainFor (s : Service) (w : Waiter) : (s.drainFor w).pool = s.pool.takeAll.2 := by
  obtain ⟨registry,clearings,history,hd⟩ := s.drainFor_frame w
  rw [hd]

theorem proceeds_poll (s : Service) (t : ℕ) : Proceeds s (s.poll t) := by
  have hl := s.looks_poll t
  generalize s.poll t = s' at hl ⊢
  cases hl with
  | stays _ => exact .lines (.refl s)
  | @drains w hw hf hd =>
    have hp : ((s.left w).drainFor w).pool.waiters = (s.pool.leave w.task).waiters := by
      rw [pool_drainFor]; rfl
    have hq : ((s.left w).drainFor w).pool.queue = [] := by rw [pool_drainFor]; rfl
    refine .departs (List.mem_of_find?_eq_some hw) hp ?_
    rcases dealings_drainFor (s.left w) w with hn | hn
    · exact .shutsDown hf hq hn
    · exact .drains hf hq (by rw [pool_drainFor]; rfl) hn
  | @takes w σ pool hw hf hr =>
    obtain ⟨later,_,rfl⟩ := receive?_eq_some hr
    let pool : Pool := { (s.left w).pool with queue := later, parked := (s.left w).pool.parked - 1 }
    let b := (({ s.left w with pool } : Service).observe (.parked pool.parked)).note
      (.received w.task σ)
    have hp : (b.provide w σ).pool.waiters = (s.pool.leave w.task).waiters := by
      rw [pool_provide]; rfl
    exact .departs (List.mem_of_find?_eq_some hw) hp (.receives hf σ (dealings_provide b w σ))
  | @givesUp w hw hf ho =>
    have hp : ((s.left w).giveUp w).pool.waiters = (s.pool.leave w.task).waiters := by
      rw [pool_giveUp]; rfl
    exact .departs (List.mem_of_find?_eq_some hw) hp (departs_giveUp hf ho)

/-! ### Every event -/

/-- Who is in line at an event: those who were, or one more. Who wants a parked session only has
called for it. -/
inductive Comes (s : Service) (e : Event) : Service → Prop
  | nobody : Comes s e s
  | one {w : Waiter} (hw : w.task = s.nextTask)
      (hp : w.purpose = .acquire → e = .acquire w.wait ∧ w.deadline = some (s.after w.wait)) :
      Comes s e (s.joined w)

def Goes (s : Service) (e : Event) (s' : Service) : Prop := ∃ u, Comes s e u ∧ Proceeds u s'

theorem Proceeds.goes {e : Event} (h : Proceeds s s') : Goes s e s' := ⟨s,.nobody,h⟩

theorem Lines.goes {e : Event} (h : Lines s s') : Goes s e s' := Proceeds.goes (.lines h)

theorem goes_arrive (s : Service) {e : Event} {purpose : Purpose} {wait : ℕ}
    (he : purpose = .acquire → e = .acquire wait) : Goes s e (s.arrive purpose wait) := by
  let w : Waiter :=
    ⟨s.nextTask,purpose,s.now,wait,if purpose.drains then none else some (s.after wait)⟩
  refine ⟨s.joined w,.one rfl fun hp => ⟨he hp,?_⟩,proceeds_poll (s.joined w) w.task⟩
  have hd : purpose.drains = false := by rw [show purpose = .acquire from hp]; rfl
  simp [w,hd]

theorem lines_refill {p : Pool} (hp : p.waiters = s.pool.waiters ∧ s.pool.queue <+: p.queue) :
    Lines s (if s.pool.queue.length < p.queue.length then ({ s with pool := p } : Service).observe
      (.parked p.parked)
      else { s with pool := p }) := by
  split <;> exact ⟨hp.1,hp.2,rfl⟩

theorem lines_wake (s : Service) (serial : ℕ) : Lines s (s.wake serial) := by
  apply lines_refill (p := s.pool.wake serial)
  unfold Pool.wake
  split
  · exact ⟨rfl,List.prefix_rfl⟩
  · dsimp only
    split
    · exact ⟨rfl,List.prefix_append _ _⟩
    · exact ⟨rfl,List.prefix_rfl⟩

theorem lines_enter (s : Service) : Lines s s.enter := by
  apply lines_refill (p := s.pool.enter)
  unfold Pool.enter
  split
  · exact ⟨rfl,List.prefix_rfl⟩
  · split
    · exact ⟨rfl,List.prefix_append _ _⟩
    · exact ⟨rfl,List.prefix_rfl⟩

theorem lines_handle (s : Service) (d : Demand) : Lines s (s.handle d).1 := by
  rw [handle_eq]
  refine ⟨rfl,List.prefix_rfl,?_⟩
  rcases history_handle s d with hh | ⟨_,_,_,hh⟩
  · simp only [dealings,occurrences,hh]
  · simp only [dealings,occurrences,hh]
    rfl

theorem Serves.lines {t : ℕ} (h : Serves s t s') : Lines s s' := by
  rcases h with rfl | ⟨c,_,h⟩
  · exact .refl _
  · exact h.lines

theorem lines_constructHeld (s : Service) : Lines s s.constructHeld.1 := by
  unfold constructHeld
  rcases ({ s with nextTask := s.nextTask + 1 } : Service).construct_cases s.nextTask with
    ⟨st,x,_,hc⟩ | ⟨st₁,st₂,e,x,_,_,hc⟩ | ⟨st₁,st₂,e,i,_,_,hc⟩ <;> rw [hc] <;> exact ⟨rfl,
      List.prefix_rfl,rfl⟩

theorem lines_releaseHeld (s : Service) (serial cooldown : ℕ) :
    Lines s (s.releaseHeld serial cooldown) := by
  unfold releaseHeld
  split <;> exact ⟨rfl,List.prefix_rfl,rfl⟩

theorem lines_retireHeld (s : Service) (serial : ℕ) (reason : Retirement) :
    Lines s (s.retireHeld serial reason).1 := by
  cases hh : s.held? serial with
  | none =>
    simp only [retireHeld,hh]
    exact .refl s
  | some h =>
    rw [retireHeld_eq hh]
    exact ⟨rfl,List.prefix_rfl,rfl⟩

theorem lines_replaceHeld (s : Service) (serial : ℕ) : Lines s (s.replaceHeld serial).1 := by
  unfold replaceHeld replaceEgress
  cases s.held? serial with
  | none => exact .refl s
  | some h =>
    cases s.store.claimEgress with
    | mk st x => cases x <;> exact ⟨rfl,List.prefix_rfl,rfl⟩

theorem lines_purge (s : Service) : Lines s s.purge := by
  unfold purge
  split <;> exact ⟨rfl,List.prefix_rfl,rfl⟩

theorem lines_onForget (s : Service) (account : String) : Lines s (s.onForget account) := by
  unfold onForget
  split <;> exact ⟨rfl,List.prefix_rfl,rfl⟩

theorem lines_onClear (s : Service) (t : ℕ) : Lines s (s.onClear t) := by
  unfold onClear
  split
  · exact .refl s
  · split <;> exact ⟨rfl,List.prefix_rfl,rfl⟩

theorem proceeds_abort (s : Service) (t : ℕ) : Proceeds s (s.abort t) := by
  unfold abort
  split
  · exact .lines (ScanAct.lines .abandons)
  · cases hw : s.pool.waiter? t with
    | some w =>
      have ht : w.task = t := by simpa using List.find?_some hw
      subst ht
      exact .departs (List.mem_of_find?_eq_some hw) rfl (.quits List.prefix_rfl rfl)
    | none => exact .lines ⟨rfl,List.prefix_rfl,rfl⟩

/-- Every event lets the line go on. -/
theorem goes_step (s : Service) (e : Event) : Goes s e (s.step e) := by
  have hn {purpose : Purpose} {wait : ℕ} (hp : purpose ≠ .acquire) :
      Goes s e (s.arrive purpose wait) :=
    goes_arrive s fun h => absurd h hp
  cases e with
  | turn turn =>
    cases turn with
    | poll task => exact (proceeds_poll s task).goes
    | wake serial =>
      simp only [step,take,onWake]
      split
      · exact (lines_wake s serial).goes
      · exact (Lines.refl s).goes
    | enter => exact (lines_enter s).goes
    | expire task => exact (serves_onExpiry s task).lines.goes
    | register task => exact (serves_onRegister s task).lines.goes
    | forget account => exact (lines_onForget s account).goes
    | clear task => exact (lines_onClear s task).goes
    | unlock => exact Lines.goes ⟨rfl,List.prefix_rfl,rfl⟩
  | scan place => exact hn (by simp)
  | request r =>
    simp only [step,request]
    split
    · exact hn (by simp)
    · have hl := lines_handle s (Demand.ofRequest r)
      exact Lines.goes ⟨hl.waiters,hl.queue,hl.dealings⟩
  | acquire wait => exact goes_arrive s fun _ => rfl
  | checkout wait => exact hn (by simp)
  | drain => exact hn (by simp)
  | shutdown => exact hn (by simp)
  | construct => exact (lines_constructHeld s).goes
  | release serial cooldown => exact (lines_releaseHeld s serial cooldown).goes
  | retire serial reason => exact (lines_retireHeld s serial reason).goes
  | replaceEgress serial => exact (lines_replaceHeld s serial).goes
  | loginDone task r => exact (serves_onLogin s task r).lines.goes
  | gateOpen task => exact (serves_onGate s task).lines.goes
  | fetchDone task r => exact (serves_onFetch s task r).lines.goes
  | abort task => exact (proceeds_abort s task).goes
  | purge => exact (lines_purge s).goes
  | _ => exact Lines.goes ⟨rfl,List.prefix_rfl,rfl⟩

end Service

end ScanService
