import ScanService.Proofs.QueueDiscipline
/-! Ending the parked sessions. A call for it ends those of the queue and counts them; if nothing
can go on and the queue has room for all that are parked, these are all, and whoever looks next
finds none. -/
namespace ScanService

namespace Roster

def IdentityFree (r : Roster) (name : String) : Prop :=
  Table.Taken Identity.name (fun i => !i.used) r.identities name

def EgressFree (r : Roster) (id : ℤ) :
    Prop := Table.Taken Egress.id (fun e => !e.inUse) r.egresses id

/-- Both resources of a session are free. -/
structure Frees (r : Roster) (σ : Session) : Prop where
  identity : r.IdentityFree σ.identity.name
  egress : r.EgressFree σ.egress.id

variable {r : Roster} {σ : Session}

theorem Frees.records (h : r.Frees σ) :
    (∃ i, r.identity? σ.identity.name = some i ∧ i.used = false) ∧
      ∃ e, r.egress? σ.egress.id = some e ∧ e.inUse = false := by
  obtain ⟨i,hi,hu⟩ := Table.find?_of_taken h.identity
  obtain ⟨e,he,hv⟩ := Table.find?_of_taken h.egress
  exact ⟨⟨i,hi,by simpa using hu⟩,e,he,by simpa using hv⟩

/-- Giving back the resources of another session frees no fewer. -/
theorem Frees.release (h : r.Frees σ) (name : String) (id : ℤ) :
    ((r.releaseIdentity name).releaseEgress id).Frees σ where
  identity := Table.taken_amend_of_busy (fun _ => rfl) (fun _ _ => rfl) h.identity
  egress := Table.taken_amend_of_busy (fun _ => rfl) (fun _ _ => rfl) h.egress

theorem frees_release (hi : r.IdentityTaken σ.identity.name) (he : r.EgressTaken σ.egress.id) :
    ((r.releaseIdentity σ.identity.name).releaseEgress σ.egress.id).Frees σ where
  identity := Table.taken_amend_self (fun _ => rfl) (fun _ => rfl) hi.1
  egress := Table.taken_amend_self (fun _ => rfl) (fun _ => rfl) he.1

end Roster

theorem Traffic.Moves.length_line {spared : Prop} {t t' : Traffic} (h : Moves spared t t') :
    t'.line.length + t.woken.length ≤ t.line.length + t'.woken.length := by
  refine h.keep (P := fun u => u.line.length + t.woken.length ≤ t.line.length + u.woken.length) ?_
    le_rfl
  intro u v hm hu
  cases hm with
  | wake _ _ =>
    simp only [List.length_append,List.length_singleton]
    omega
  | take _ hl =>
    simp only [hl,List.length_cons] at hu
    dsimp only
    omega
  | clear hl _ =>
    simp only [hl,List.length_cons] at hu
    dsimp only
    omega
  | _ => exact hu

namespace Service

variable {s : Service} {e : Event} {es : List Event} {t : ℕ}

/-! ### What is ended -/

theorem roster_endSession (h : s.store.Faultless) (σ : Session) : (s.endSession σ).store.Faultless ∧
    (s.endSession σ).store.roster =
      (s.store.roster.releaseIdentity σ.identity.name).releaseEgress σ.egress.id := by
  have hi : (s.store.releaseIdentity σ.identity.name).1.Faultless := h.onRoster
  have he : (s.endSession σ).store.roster =
      (s.store.releaseIdentity σ.identity.name).1.roster.releaseEgress σ.egress.id :=
      hi.onRoster_roster
  have hr : (s.store.releaseIdentity σ.identity.name).1.roster =
      s.store.roster.releaseIdentity σ.identity.name := h.onRoster_roster
  exact ⟨hi.onRoster,by rw [he,hr]⟩

theorem faultless_endSessions (h : s.store.Faultless) (l : List Session) :
    (l.foldl endSession s).store.Faultless := by
  induction l generalizing s with
  | nil => exact h
  | cons τ l ih => exact ih (roster_endSession h τ).1

theorem frees_endSessions (h : s.store.Faultless) {σ : Session} (hσ : s.store.roster.Frees σ)
    (l : List Session) : (l.foldl endSession s).store.roster.Frees σ := by
  induction l generalizing s with
  | nil => exact hσ
  | cons τ l ih =>
    obtain ⟨hf,hr⟩ := roster_endSession h τ
    exact ih hf (hr ▸ hσ.release _ _)

/-- Sessions that are ended one by one give back both their resources, and the others keep
theirs. -/
theorem exclusive_endSessions (h : s.store.Faultless) (l : List Session) {others : Multiset Session}
    (hx : Custody.Exclusive s.store.roster ((l : Multiset Session) + others)) :
    (∀ σ ∈ l, (l.foldl endSession s).store.roster.Frees σ) ∧
      Custody.Exclusive (l.foldl endSession s).store.roster others := by
  induction l generalizing s with
  | nil => exact ⟨by simp,by simpa using hx⟩
  | cons σ l ih =>
    rw [← Multiset.cons_coe,Multiset.cons_add] at hx
    obtain ⟨hf,hr⟩ := roster_endSession h σ
    have hσ : (s.endSession σ).store.roster.Frees σ := hr ▸ Roster.frees_release
      (hx.identities σ (Multiset.mem_cons_self _ _)) (hx.egresses σ (Multiset.mem_cons_self _ _))
    obtain ⟨hl,ho⟩ := ih hf (hx.spares (Custody.spares_freed s.store σ))
    exact ⟨List.forall_mem_cons.mpr ⟨frees_endSessions hf hσ l,hl⟩,ho⟩

/-! ### When nothing can go on -/

theorem quiet_iff : s.quiet ↔ (∀ w ∈ s.pool.waiters, s.pool.canGo s.now w = false) ∧
    (∀ r ∈ s.pool.cooling, s.now < r.due) ∧ (s.pool.entering = [] ∨ s.pool.hasRoom = false) ∧
      (∀ c ∈ s.scans, s.overdue c = false) ∧ s.registryTurns = [] := by
  simp only [quiet,runnable,List.append_eq_nil_iff,List.map_eq_nil_iff,List.filter_eq_nil_iff,
    ite_eq_left_iff]
  simp [and_assoc,or_iff_not_imp_left]

/-- Who cannot go on is not overdue, and if first in line, wants a session and finds none. -/
theorem canGo_eq_false {w : Waiter} : s.pool.canGo s.now w = false ↔ w.overdue s.now = false ∧
    (s.pool.isFirst w.task = true → w.purpose.drains = false ∧ s.pool.queue = []) := by
  simp [Pool.canGo]

theorem take_of_quiet (h : s.quiet) (turn : Turn) : s.take turn = s := by
  obtain ⟨hw,hr,he,hc,_⟩ := quiet_iff.mp h
  obtain ⟨hl,hleft,hclear,hlisted⟩ := settled_of_quiet h
  cases turn with
  | poll task =>
    have hl : s.Looks task (s.poll task) := s.looks_poll task
    have hg {w : Waiter} (hm : s.pool.waiter? w.task = some w) :=
      canGo_eq_false.mp (hw w (List.mem_of_find?_eq_some hm))
    rw [take]
    generalize s.poll task = u at hl ⊢
    cases hl with
    | stays => rfl
    | drains hm hf hd => simp [((hg hm).2 hf).1] at hd
    | takes hm hf hr =>
      obtain ⟨later,hq,_⟩ := receive?_eq_some hr
      rw [left,Pool.leave,((hg hm).2 hf).2] at hq
      cases hq
    | givesUp hm hf ho => simp [(hg hm).1] at ho
  | wake serial =>
    rw [take,onWake,if_neg]
    intro ha
    obtain ⟨r,hm,hk⟩ := List.any_eq_true.mp ha
    have hd := of_decide_eq_true (Bool.and_eq_true_iff.mp hk).2
    exact absurd (hr r hm) hd.not_gt
  | enter =>
    have hp : s.pool.enter = s.pool := by
      unfold Pool.enter
      split
      · rfl
      · rename_i hs
        rcases he with he | he
        · rw [he] at hs
          cases hs
        · simp [he]
    rw [take,enter,hp]
    simp
  | expire task =>
    rw [take,onExpiry]
    split
    · rfl
    · rename_i c hs
      simp [hc c (List.mem_of_find?_eq_some hs)]
  | register task =>
    rw [take,onRegister]
    split
    · rfl
    · rename_i c hs
      have hg : c.stage.standing = .listed := hlisted _ (mem_roll_scan hs)
      rw [hl,if_neg Bool.false_ne_true]
      cases hst : c.stage <;> simp_all [Stage.standing]
  | forget account => simp [take,onForget,hleft]
  | clear task => simp [take,onClear,clearing?,hclear]
  | unlock => rw [take,← hl]

theorem run_turns_of_quiet (h : s.quiet) (turns : List Turn) : s.run (turns.map .turn) = s := by
  induction turns with
  | nil => rfl
  | cons turn turns ih =>
    have hr : s.run ((turn :: turns).map .turn) = (s.take turn).run (turns.map .turn) := rfl
    rw [hr,take_of_quiet h,ih]

/-! ### Those who come -/

theorem poll_drains {w : Waiter} (hw : s.pool.waiter? t = some w) (hf : s.pool.isFirst t = true)
    (hd : w.purpose.drains = true) : s.poll t = (s.left w).drainFor w := by
  have ht : w.task = t := by simpa using List.find?_some hw
  simp [poll,hw,hf,hd,left,ht]

theorem poll_givesUp {w : Waiter} (hw : s.pool.waiter? t = some w) (hd : w.purpose.drains = false)
    (hq : s.pool.queue = []) (ho : w.overdue s.now = true) : s.poll t = (s.left w).giveUp w := by
  have ht : w.task = t := by simpa using List.find?_some hw
  simp [poll,hw,hd,left,ht,ho,Pool.receive?,Pool.leave,hq]

theorem poll_stays {w : Waiter} (hw : s.pool.waiter? t = some w) (hf : s.pool.isFirst t = false)
    (ho : w.overdue s.now = false) : s.poll t = s := by
  simp [poll,hw,hf,ho]

theorem Tidy.nextTask_not_mem (hs : s.Tidy) : s.nextTask ∉ s.pool.waiters.map (·.task) := by
  intro hm
  obtain ⟨v,hv,he⟩ := List.mem_map.mp hm
  exact absurd (hs.lt_next hv) he.not_lt

section Joined

variable {w : Waiter}

theorem waiter?_joined (hs : s.Tidy) (hw : w.task = s.nextTask) :
    (s.joined w).pool.waiter? w.task = some w := by
  have hn := hw ▸ hs.nextTask_not_mem
  simp [joined,Pool.waiter?,Pool.join,List.find?_append,find?_eq_none_of_not_mem hn]

theorem left_joined (hs : s.Tidy) (hw : w.task = s.nextTask) :
    (s.joined w).left w = { s with nextTask := s.nextTask + 1 } := by
  have hn := hw ▸ hs.nextTask_not_mem
  have hp : (s.pool.join w).leave w.task = s.pool := by
    rw [Pool.leave,Pool.join,List.filter_append,filter_ne_of_not_mem hn]
    simp
  rw [left,joined,hp]

theorem isFirst_joined (hs : s.Tidy) (hw : w.task = s.nextTask) :
    (s.joined w).pool.isFirst w.task = s.pool.waiters.isEmpty := by
  have hn := hw ▸ hs.nextTask_not_mem
  cases hl : s.pool.waiters with
  | nil => simp [joined,Pool.isFirst,Pool.join,hl]
  | cons v ws =>
    rw [hl] at hn
    have hv : v.task ≠ w.task := fun he => hn (by simp [he])
    simp [joined,Pool.isFirst,Pool.join,hl,hv]

end Joined

theorem news_of_notes (hs : s.Tidy) {N : List Occurrence}
    (ho : (s.step e).occurrences = N ++ s.occurrences) :
    s.news e = N := List.append_cancel_right ((occurrences_step hs e).symm.trans ho)

/-- Whoever looks for a parked session and does not wait is told at once that there is none, if the
queue is empty. -/
theorem news_acquire (hs : s.Tidy) (hq : s.pool.queue = []) :
    s.news (.acquire 0) = [.answered s.nextTask (.session (.error (.timeout 0)))] := by
  let w : Waiter := ⟨s.nextTask,.acquire,s.now,0,some (s.after 0)⟩
  have ho : w.overdue s.now = true := by simp [w,Waiter.overdue,after]
  have hp : (s.joined w).poll w.task = ((s.joined w).left w).giveUp w :=
    poll_givesUp (waiter?_joined hs rfl) rfl hq ho
  rw [left_joined hs rfl] at hp
  have hz : w.wait * 1000000 = 0 := Nat.zero_mul _
  have hr : s.step (.acquire 0) = (s.joined w).poll w.task := rfl
  refine news_of_notes hs ?_
  rw [hr,hp,giveUp,refuse,hz]
  rfl

/-- Who comes to an empty line to end the parked sessions does so at once. -/
theorem arrive_of_empty (hs : s.Tidy) (hw : s.pool.waiters = []) {purpose : Purpose}
    (hd : purpose.drains = true) : s.arrive purpose 0 =
      ({ s with nextTask := s.nextTask + 1 } : Service).drainFor ⟨s.nextTask,purpose,
        s.now,0,none⟩ := by
  let w : Waiter := ⟨s.nextTask,purpose,s.now,0,none⟩
  have hf : (s.joined w).pool.isFirst w.task = true := by
    rw [isFirst_joined hs rfl,hw,List.isEmpty_nil]
  have hp : (s.joined w).poll w.task = ((s.joined w).left w).drainFor w :=
    poll_drains (waiter?_joined hs rfl) hf hd
  have ha : s.arrive purpose 0 = (s.joined w).poll w.task := by
    simp only [arrive,hd,if_true]
    rfl
  rw [ha,hp,left_joined hs rfl]

/-- Behind others it waits for its turn. -/
theorem arrive_of_line (hs : s.Tidy) (hw : s.pool.waiters ≠ []) {purpose : Purpose}
    (hd : purpose.drains = true) :
    s.arrive purpose 0 = s.joined ⟨s.nextTask,purpose,s.now,0,none⟩ := by
  let w : Waiter := ⟨s.nextTask,purpose,s.now,0,none⟩
  have hf : (s.joined w).pool.isFirst w.task = false := by
    rw [isFirst_joined hs rfl]
    simpa using hw
  have ha : s.arrive purpose 0 = (s.joined w).poll w.task := by
    simp only [arrive,hd,if_true]
    rfl
  rw [ha]
  exact poll_stays (waiter?_joined hs rfl) hf rfl

/-- Nothing but the line and the records is changed. -/
theorem step_drain_of_empty (hs : s.Tidy) (hw : s.pool.waiters = []) :
    ∃ history, s.step .drain = { s with
      nextTask := s.nextTask + 1
      pool := s.pool.takeAll.2
      store := (s.pool.queue.foldl endSession
        { s with pool := s.pool.takeAll.2, nextTask := s.nextTask + 1 }).store
      history } := by
  rw [step,arrive_of_empty hs hw rfl,drainFor,drain_frame]
  exact ⟨_,rfl⟩

theorem step_drain_of_line (hs : s.Tidy) (hw : s.pool.waiters ≠ []) :
    s.step .drain = s.joined ⟨s.nextTask,.drain,s.now,0,none⟩ := arrive_of_line hs hw rfl

/-! ### What is counted -/

/-- What a step deals with the line is news. -/
theorem mem_news_of_dealings (hs : s.Tidy) {o : Occurrence}
    (h : (s.step e).dealings = o :: s.dealings) : o ∈ s.news e := by
  rw [dealings_step hs] at h
  have hm := List.append_cancel_right (h.trans (List.singleton_append (x := o)).symm)
  exact (List.mem_filter.mp (hm ▸ List.mem_singleton_self _)).1

theorem dealings_drain_of_empty (hs : s.Tidy) (hw : s.pool.waiters = []) :
    (s.step .drain).dealings =
      .answered s.nextTask (.drained s.pool.queue.length) :: s.dealings := by
  rw [step,arrive_of_empty hs hw rfl,drainFor]
  exact congrArg (List.cons _)
    (dealings_drain ({ s with nextTask := s.nextTask + 1 } : Service))

theorem drained_of_news (hs : s.Tidy) {k : ℕ} (h : .answered t (.drained k) ∈ s.news e) :
    k = s.pool.queue.length ∧ (s.step e).pool.queue = [] ∧
      (s.step e).pool.parked = s.pool.parked - s.pool.queue.length := by
  obtain ⟨u,w,hc,_,_,ht⟩ := told_of_news hs h rfl
  cases ht with
  | drains hq hp => cases hc <;> exact ⟨rfl,hq,hp⟩

theorem entering_of_quiet (hs : s.Tidy) (hq : s.quiet) (hc : s.pool.parked ≤ s.pool.capacity) :
    s.pool.entering = [] := by
  rcases (quiet_iff.mp hq).2.2.1 with he | hr
  · exact he
  · have hn := hs.counted
    have hl : ¬ s.pool.queue.length < s.pool.capacity := of_decide_eq_false hr
    unfold Pool.Counted at hn
    exact List.eq_nil_of_length_eq_zero (by omega)

theorem queue_of_quiet (hq : s.quiet) (hw : s.pool.waiters ≠ []) : s.pool.queue = [] := by
  obtain ⟨w,ws,hl⟩ := List.exists_cons_of_ne_nil hw
  have hg := (quiet_iff.mp hq).1 w (by simp [hl])
  exact ((canGo_eq_false.mp hg).2 (by simp [Pool.isFirst,hl])).2

/-- In a state in which sessions had been parked, what is left when they have been ended: nothing is
parked and nobody finds a session, both resources of each that was parked are free, and those at
rest keep theirs. -/
structure Emptied (s u : Service) : Prop where
  parked : u.pool.parked = 0
  refused : .answered u.nextTask (.session (.error (.timeout 0))) ∈ u.news (.acquire 0)
  freed : ∀ σ ∈ s.pool.queue ++ s.pool.entering,
    (∃ i, u.store.roster.identity? σ.identity.name = some i ∧ i.used = false) ∧
      ∃ e, u.store.roster.egress? σ.egress.id = some e ∧ e.inUse = false
  kept : ∀ r ∈ s.pool.cooling, r ∈ u.pool.cooling ∧
    (∃ i, u.store.roster.identity? r.session.identity.name = some i ∧ i.used = true) ∧
      ∃ e, u.store.roster.egress? r.session.egress.id = some e ∧ e.inUse = true

/-- What a call to end the parked sessions does. It returns how many there were. If others are in
line nothing is parked, and it waits: then it returns how many there are at its turn, and no more
than have come meanwhile. When nothing can go on any more, they have been ended. -/
structure Drains (s : Service) : Prop where
  returned : s.pool.waiters = [] → .answered s.nextTask (.drained s.pool.parked) ∈ s.news .drain
  delayed : s.pool.waiters ≠ [] → s.pool.parked = 0 ∧ ∀ es e k,
    .answered s.nextTask (.drained k) ∈ ((s.step .drain).run es).news e →
      k + (((s.step .drain).run es).step e).pool.parked = ((s.step .drain).run es).pool.parked ∧
        (((s.step .drain).run es).step e).pool.queue = [] ∧
        k ≤ ((s.step .drain).along rising es).length
  settled : (s.step .drain).quiet
  emptied : ∀ turns : List Turn, ((s.step .drain).run (turns.map .turn)).quiet →
    Emptied s ((s.step .drain).run (turns.map .turn))

theorem quiet_drain (hs : s.Tidy) (hq : s.quiet) (he : s.pool.entering = []) :
    (s.step .drain).quiet := by
  obtain ⟨hw,hr,_,hc,hg⟩ := quiet_iff.mp hq
  by_cases hl : s.pool.waiters = []
  · obtain ⟨history,hd⟩ := step_drain_of_empty hs hl
    rw [hd]
    exact quiet_iff.mpr ⟨by simp [Pool.takeAll,hl],hr,Or.inl he,hc,hg⟩
  · rw [step_drain_of_line hs hl]
    refine quiet_iff.mpr ⟨fun w hm => canGo_eq_false.mpr ?_,hr,Or.inl he,hc,hg⟩
    rcases List.mem_append.mp hm with hm | hm
    · refine ⟨(canGo_eq_false.mp (hw w hm)).1,fun hf => ?_⟩
      have hf' : s.pool.isFirst w.task = true := by
        obtain ⟨v,ws,hv⟩ := List.exists_cons_of_ne_nil hl
        simpa [joined,Pool.isFirst,Pool.join,hv] using hf
      exact (canGo_eq_false.mp (hw w hm)).2 hf'
    · rw [List.mem_singleton.mp hm]
      refine ⟨rfl,fun hf => ?_⟩
      rw [isFirst_joined hs rfl] at hf
      simp [hl] at hf

theorem kept_of_exclusive {u : Service} (hx : Custody.Exclusive u.store.roster u.live) {r : Resting}
    (hr : r ∈ u.pool.cooling) :
    (∃ i, u.store.roster.identity? r.session.identity.name = some i ∧ i.used = true) ∧
      ∃ e, u.store.roster.egress? r.session.egress.id = some e ∧ e.inUse = true := by
  have hm : r.session ∈ u.live := by
    simp only [live,Pool.sessions,List.mem_append,List.mem_map]
    exact Or.inr (Or.inr ⟨r,hr,rfl⟩)
  exact ⟨(hx.identities _ hm).record,(hx.egresses _ hm).record⟩

theorem emptied_of_empty (hs : s.Tidy) (hx : Custody.Exclusive s.store.roster s.live)
    (hf : s.store.Faultless) (hl : s.pool.waiters = []) (he : s.pool.entering = []) :
    Emptied s (s.step .drain) := by
  have hn : s.pool.parked = s.pool.queue.length := by simpa [Pool.Counted,he] using hs.counted
  obtain ⟨history,hd⟩ := step_drain_of_empty hs hl
  have hp : (s.step .drain).pool = s.pool.takeAll.2 := by rw [hd]
  rw [live_takeAll,← Multiset.coe_add] at hx
  obtain ⟨hq,hr⟩ := exclusive_endSessions
    (s := { s with pool := s.pool.takeAll.2, nextTask := s.nextTask + 1 }) hf s.pool.queue hx
  have hx' : Custody.Exclusive (s.step .drain).store.roster (s.step .drain).live := by
    rw [hd]
    exact hr
  refine ⟨?_,?_,fun σ hσ => ?_,fun r hr => ?_⟩
  · rw [hp]
    exact Nat.sub_eq_zero_of_le hn.le
  · rw [news_acquire (tidy_step hs .drain) (by rw [hp]; rfl)]
    exact List.mem_singleton_self _
  · rw [he,List.append_nil] at hσ
    rw [hd]
    exact (hq σ hσ).records
  · have hm : r ∈ (s.step .drain).pool.cooling := hp ▸ hr
    exact ⟨hm,kept_of_exclusive hx' hm⟩

theorem emptied_of_line (hs : s.Tidy) (hx : Custody.Exclusive s.store.roster s.live)
    (hl : s.pool.waiters ≠ []) (hq : s.pool.queue = []) (he : s.pool.entering = []) :
    Emptied s (s.step .drain) := by
  have hn : s.pool.parked = 0 := by simpa [Pool.Counted,hq,he] using hs.counted
  have hj := step_drain_of_line hs hl
  refine ⟨?_,?_,by simp [hq,he],fun r hr => ?_⟩
  · rw [hj]
    exact hn
  · rw [news_acquire (tidy_step hs .drain) (by rw [hj]; exact hq)]
    exact List.mem_singleton_self _
  · rw [hj]
    exact ⟨hr,kept_of_exclusive hx hr⟩

/-- The sessions parked are ended, all of them if there are no more than the queue can hold. -/
theorem drains_of_quiet (hs : s.Tidy) (hn : s.custody.Serial)
    (hx : Custody.Exclusive s.store.roster s.live) (hf : s.store.Faultless) (hq : s.quiet)
    (hc : s.pool.parked ≤ s.pool.capacity) : Drains s := by
  have he := entering_of_quiet hs hq hc
  have hp : s.pool.parked = s.pool.queue.length := by simpa [Pool.Counted,he] using hs.counted
  have hd := quiet_drain hs hq he
  have ht := tidy_step hs .drain
  refine ⟨fun hl => ?_,fun hl => ⟨?_,fun es e k hk => ?_⟩,hd,fun turns _ => ?_⟩
  -- nobody is in line, so the call goes on at once
  · refine mem_news_of_dealings hs ?_
    rw [hp]
    exact dealings_drain_of_empty hs hl
  · rw [hp,queue_of_quiet hq hl,List.length_nil]
  -- the line was empty of sessions when the call came, and grows by the rests that end
  · have hu := (tidy_run ht es).counted
    obtain ⟨rfl,hq',ha⟩ := drained_of_news (tidy_run ht es) hk
    have hm := (traffic_run False ht (serial_step hs hn .drain) es False.elim 0 []).length_line
    have hz : (s.step .drain).pool.line = [] := by
      rw [step_drain_of_line hs hl]
      simp [Pool.line,joined,Pool.join,he,queue_of_quiet hq hl]
    simp only [traffic,hz,List.length_nil,List.nil_append,zero_add,add_zero] at hm
    rw [Pool.line,List.length_append] at hm
    unfold Pool.Counted at hu
    exact ⟨by omega,hq',by omega⟩
  · rw [run_turns_of_quiet hd]
    by_cases hl : s.pool.waiters = []
    · exact emptied_of_empty hs hx hf hl he
    · exact emptied_of_line hs hx hl (queue_of_quiet hq hl) he

/-- No two sessions alive share a resource, whatever callers do, if nobody frees the records from
outside. -/
theorem exclusive_traffic (hs : s.Tidy) (hn : s.custody.Serial)
    (hx : Custody.Exclusive s.store.roster s.live) (hes : ∀ e ∈ es, e.frees = false) :
    Custody.Exclusive (s.run es).store.roster (s.run es).live := by
  have hm := traffic_run True hs hn es (fun _ => hes) 0 []
  have ht := hm.exclusive (by rw [traffic_live]; exact hx)
  rwa [traffic_live] at ht

/-- Draining: in every state that a service reaches in which nothing can go on and no call of the
store is to fail, if no more sessions are parked than the queue can hold and nobody has freed the
records from outside. -/
theorem drain_empties (settings : Settings) (store : Store) (clock : ℤ) {n : ℕ} {pool : Pool}
    (hp : Pool.ofCapacity n = .ready pool) {es : List Event} (hes : ∀ e ∈ es, e.frees = false)
    (hf : ((fresh settings store pool clock).run es).store.Faultless)
    (hq : ((fresh settings store pool clock).run es).quiet)
    (hc : ((fresh settings store pool clock).run es).pool.parked ≤
      ((fresh settings store pool clock).run es).pool.capacity) :
    Drains ((fresh settings store pool clock).run es) := by
  obtain ⟨ho,hx⟩ := exclusive_fresh settings store clock hp
  exact drains_of_quiet (tidy_run ho.tidy es) (serial_run ho.tidy ho.serial es)
    (exclusive_traffic ho.tidy ho.serial hx hes) hf hq hc

def halfRested : List Event := [.construct,.construct,.release 0 0,.release 1 50,.turn (.wake 0)]

theorem drain_empties_halfRested :
    (sample.run halfRested).pool.queue.map (·.serial) = [0] ∧
      (sample.run halfRested).pool.cooling.map (·.session.serial) = [1] ∧
      Drains (sample.run halfRested) := by
  have hq : (sample.run halfRested).runnable = [] := by decide +kernel
  refine ⟨by decide +kernel,by decide +kernel,drain_empties _ stocked 0 (n := 1) rfl ?_ ?_ hq ?_⟩
  · decide +kernel
  · exact Store.faultless_of_unplanned rfl
  · decide +kernel

def crowded : List Event :=
  [.construct,.construct,.release 0 0,.release 1 0,.turn (.wake 0),.turn (.wake 1)]

theorem not_drains_crowded :
    (∀ e ∈ crowded, e.frees = false) ∧ (sample.run crowded).store.Faultless ∧
      (sample.run crowded).quiet ∧ ¬ Drains (sample.run crowded) := by
  have hq : (sample.run crowded).runnable = [] := by decide +kernel
  have hq' : (((sample.run crowded).step .drain).run [.turn .enter]).runnable = [] := by
    decide +kernel
  refine ⟨by decide +kernel,Store.faultless_of_unplanned rfl,hq,fun h => ?_⟩
  exact absurd (h.emptied [.enter] hq').parked (by decide +kernel)

end Service

end ScanService
