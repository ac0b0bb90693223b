import Mathlib.Data.List.Induction
import ScanService.Proofs.LineSteps
import ScanService.Proofs.RetryTally
/-! The discipline of the pool. What is given back rests, wakes and is taken once, in the order of
waking; those in line are served in the order in which they came; and who waits in vain was offered
nothing all the while. -/
namespace ScanService

namespace Traffic

/-- What has woken was taken in that order, not before it was due, but for the last, which stand in
line in that order. The latest taking is the first one here. -/
def Served (woken : List Resting) (taken : List Taking) (line : List Session) : Prop :=
  ∃ past present, woken = past ++ present ∧
    List.Forall₂ (fun r x => x.session = r.session ∧ r.due ≤ x.time) past taken.reverse ∧
    present.map (·.session) = line

theorem Served.wake {woken : List Resting} {taken : List Taking} {line : List Session}
    (h : Served woken taken line) (r : Resting) :
    Served (woken ++ [r]) taken (line ++ [r.session]) := by
  obtain ⟨past,present,hw,hp,hm⟩ := h
  exact ⟨past,present ++ [r],by simp [hw],hp,by simp [hm]⟩

theorem Served.take {woken : List Resting} {taken : List Taking} {line : List Session}
    {σ : Session} {now : ℕ} (h : Served woken taken (σ :: line)) (hd : ∀ r ∈ woken, r.due ≤ now) :
    Served woken (⟨σ,now⟩ :: taken) line := by
  obtain ⟨past,present,hw,hp,hm⟩ := h
  obtain ⟨r,later,rfl,rfl,rfl⟩ := List.map_eq_cons_iff.mp hm
  have hr : r.due ≤ now := hd r (by simp [hw])
  refine ⟨past ++ [r],later,by simp [hw],?_,rfl⟩
  rw [List.reverse_cons]
  exact List.rel_append hp (.cons ⟨rfl,hr⟩ .nil)

/-- What was given back is at rest or has woken, and what has woken was due and is served in
order. -/
structure InTurn (t : Traffic) : Prop where
  kept : t.given = t.woken + t.asleep
  due : ∀ r ∈ t.woken, r.due ≤ t.now
  order : Served t.woken t.taken t.line

variable {spared : Prop} {t t' : Traffic}

theorem Move.inTurn (h : Move spared t t') (ht : t.InTurn) : t'.InTurn := by
  cases h with
  | pass millis => exact ⟨ht.kept,fun r hr => Nat.le_add_right_of_le (ht.due r hr),ht.order⟩
  | rest ho _ _ => exact ⟨by simp [ht.kept],ht.due,ht.order⟩
  | @wake r z hz hd =>
    refine ⟨?_,?_,ht.order.wake r⟩
    · rw [ht.kept,hz,← Multiset.coe_add,add_assoc,Multiset.coe_singleton,Multiset.singleton_add]
    · simpa [or_imp,forall_and,hd] using ht.due
  | take _ hl => exact ⟨ht.kept,ht.due,Served.take (hl ▸ ht.order) ht.due⟩
  | clear hl _ => exact ⟨ht.kept,ht.due,Served.take (hl ▸ ht.order) ht.due⟩
  | _ => exact ⟨ht.kept,ht.due,ht.order⟩

theorem Moves.inTurn (h : Moves spared t t') (ht : t.InTurn) : t'.InTurn :=
  h.keep (fun _ _ => Move.inTurn) ht

/-- What a move takes from the line, if it takes something. -/
theorem Move.taken (h : Move spared t t') :
    t'.taken = t.taken ∨ ∃ σ ∈ t.line, t'.taken = ⟨σ,t.now⟩ :: t.taken := by
  cases h with
  | take _ hl => exact Or.inr ⟨_,hl ▸ List.mem_cons_self,rfl⟩
  | clear hl _ => exact Or.inr ⟨_,hl ▸ List.mem_cons_self,rfl⟩
  | _ => exact Or.inl rfl

/-- A session that is out of reach until a time is not taken before. -/
theorem Moves.taken (h : Moves spared t t') {serial due : ℕ} (hs : serial < t.next)
    (ha : t.Away (fun σ => σ.serial = serial) due) : ∃ N : List Taking,
      t'.taken = N ++ t.taken ∧ ∀ x ∈ N, x.session.serial = serial → due ≤ x.time := by
  suffices hi : t.next ≤ t'.next ∧ (due ≤ t'.now ∨ t'.Away (fun σ => σ.serial = serial) due) ∧
      ∃ N : List Taking, t'.taken = N ++ t.taken ∧ ∀ x ∈ N, x.session.serial = serial →
      due ≤ x.time from hi.2.2
  induction h with
  | refl => exact ⟨le_rfl,Or.inr ha,[],rfl,by simp⟩
  | @tail u v _ hm ih =>
    obtain ⟨hn,hu,N,hN,hx⟩ := ih
    refine ⟨hn.trans hm.next_le,?_,?_⟩
    · rcases hu with hd | hu
      · exact Or.inl (hd.trans hm.now_le)
      · exact hm.away hu (fun _ _ => id) fun σ hσ _ he =>
          absurd (hσ.symm.trans he) (hs.trans_le hn).ne'
    · rcases hm.taken with hv | ⟨σ,hσ,hv⟩
      · exact ⟨N,hv.trans hN,hx⟩
      · refine ⟨⟨σ,u.now⟩ :: N,by rw [hv,hN,List.cons_append],
          List.forall_mem_cons.mpr ⟨fun he => ?_,hx⟩⟩
        rcases hu with hd | hu
        · exact hd
        · exact absurd he (hu.line σ hσ)

end Traffic

theorem PoolFailure.ofStore_ne (x : StoreFailure) :
    ofStore x ≠ closed ∧ ∀ n, ofStore x ≠ timeout n := by
  cases x <;> simp [ofStore]

namespace Service

open Traffic

variable {s s' u : Service} {e : Event} {es : List Event} {t : ℕ}

/-! ### The order of the line -/

def Queued (s : Service) : Prop := s.pool.waiters.Pairwise fun v w => v.task < w.task

/-- Nothing is at hand for a task: the queue is empty, or someone is in line who came before. -/
def Barren (s : Service) (t : ℕ) : Prop := s.pool.queue = [] ∨ ∃ v ∈ s.pool.waiters, v.task < t

theorem Queued.first_le (h : s.Queued) (hf : s.pool.isFirst t = true) {w : Waiter}
    (hw : w ∈ s.pool.waiters) : t ≤ w.task := by
  unfold Queued at h
  unfold Pool.isFirst at hf
  cases hl : s.pool.waiters with
  | nil => simp [hl] at hw
  | cons v ws =>
    rw [hl] at h hw
    have hv : v.task = t := by simpa [hl] using hf
    rcases List.mem_cons.mp hw with rfl | hw
    · exact hv.ge
    · exact hv ▸ ((List.pairwise_cons.mp h).1 w hw).le

theorem Queued.exists_lt (h : s.Queued) {w : Waiter} (hw : w ∈ s.pool.waiters)
    (hf : ¬ s.pool.isFirst w.task = true) : ∃ v ∈ s.pool.waiters, v.task < w.task := by
  unfold Queued at h
  unfold Pool.isFirst at hf
  cases hl : s.pool.waiters with
  | nil => simp [hl] at hw
  | cons v ws =>
    rw [hl] at h hw
    have hv : v.task ≠ w.task := by simpa [hl] using hf
    rcases List.mem_cons.mp hw with rfl | hw
    · exact absurd rfl hv
    · exact ⟨v,List.mem_cons_self,(List.pairwise_cons.mp h).1 w hw⟩

/-- Nothing is at hand for one in line exactly if the queue is empty or somebody else is first. -/
theorem barren_iff (h : s.Queued) {w : Waiter} (hw : w ∈ s.pool.waiters) :
    s.Barren w.task ↔ (s.pool.isFirst w.task = true → s.pool.queue = []) := by
  constructor
  · rintro (hb | ⟨v,hv,hlt⟩) hf
    · exact hb
    · exact absurd (h.first_le hf hv) hlt.not_ge
  · intro hb
    by_cases hf : s.pool.isFirst w.task = true
    · exact Or.inl (hb hf)
    · exact Or.inr (h.exists_lt hw hf)

theorem Tidy.lt_next (hs : s.Tidy) {w : Waiter} (hw : w ∈ s.pool.waiters) : w.task < s.nextTask :=
  hs.fresh.lt _ (List.mem_append_right _ (List.mem_map_of_mem hw))

theorem Queued.joined (h : s.Queued) (hs : s.Tidy) {w : Waiter} (hw : w.task = s.nextTask) :
    (s.joined w).Queued := by
  refine List.pairwise_append.mpr ⟨h,List.pairwise_singleton _ _,fun v hv u hu => ?_⟩
  rw [List.mem_singleton.mp hu,hw]
  exact hs.lt_next hv

theorem Proceeds.mem (h : Proceeds s s') {w : Waiter} (hw : w ∈ s'.pool.waiters) :
    w ∈ s.pool.waiters := by
  cases h with
  | lines h => exact h.waiters ▸ hw
  | departs _ hl _ => exact List.mem_of_mem_filter (hl ▸ hw)

theorem Proceeds.queued (h : Proceeds s s') (hq : s.Queued) : s'.Queued := by
  unfold Queued
  cases h with
  | lines h => exact h.waiters ▸ hq
  | departs _ hl _ =>
    rw [hl]
    exact List.Pairwise.filter _ hq

/-- Whoever has a session at hand keeps it at hand while in line. -/
theorem Proceeds.barren (h : Proceeds s s') (hq : s.Queued) (hb : s'.Barren t)
    (ht : t ∈ s'.pool.waiters.map (·.task)) : s.Barren t := by
  cases h with
  | lines h =>
    rcases hb with hb | ⟨v,hv,hlt⟩
    · exact Or.inl (List.prefix_nil.mp (hb ▸ h.queue))
    · exact Or.inr ⟨v,h.waiters ▸ hv,hlt⟩
  | @departs w hw hl h =>
    rcases hb with hb | ⟨v,hv,hlt⟩
    · obtain ⟨u,hu,rfl⟩ := List.mem_map.mp ht
      rw [hl] at hu
      have hne : u.task ≠ w.task := by simpa using (List.mem_filter.mp hu).2
      have hmem := List.mem_of_mem_filter hu
      -- if the first has gone, it came before
      have hfirst (hf : s.pool.isFirst w.task = true) : s.Barren u.task :=
        Or.inr ⟨w,hw,lt_of_le_of_ne (hq.first_le hf hmem) hne.symm⟩
      cases h with
      | quits hp _ => exact Or.inl (List.prefix_nil.mp (hb ▸ hp))
      | drains hf _ _ _ => exact hfirst hf
      | shutsDown hf _ _ => exact hfirst hf
      | receives hf _ _ => exact hfirst hf
      | fails _ _ _ hp _ => exact Or.inl (hp ▸ hb)
    · exact Or.inr ⟨v,List.mem_of_mem_filter (hl ▸ hv),hlt⟩

/-! ### Runs of the line -/

theorem nextTask_step (hs : s.Tidy) (e : Event) : s.nextTask ≤ (s.step e).nextTask := by
  have hne : e.task s ≠ some ((e.task s).getD 0 + 1) := by
    cases e.task s <;> simp
  exact (leaves_step hs e hne).nextTask

theorem nextTask_run (hs : s.Tidy) (es : List Event) : s.nextTask ≤ (s.run es).nextTask := by
  induction es generalizing s with
  | nil => exact le_rfl
  | cons e es ih => exact (nextTask_step hs e).trans (ih (tidy_step hs e))

theorem nextTask_arrive (hs : s.Tidy) (purpose : Purpose) (wait : ℕ) :
    s.nextTask < (s.arrive purpose wait).nextTask :=
  (leaves_poll (hs.join purpose s.now wait _) (Nat.succ_ne_self s.nextTask)).nextTask

theorem Comes.queued (h : Comes s e u) (hs : s.Tidy) (hq : s.Queued) : u.Queued := by
  cases h with
  | nobody => exact hq
  | one hw _ => exact hq.joined hs hw

/-- Someone who had come before is the only one of its number. -/
theorem Comes.mem (h : Comes s e u) {w : Waiter} (ht : w.task < s.nextTask)
    (hw : w ∈ u.pool.waiters) : w ∈ s.pool.waiters := by
  cases h with
  | nobody => exact hw
  | one hv _ =>
    rcases List.mem_append.mp hw with hw | hw
    · exact hw
    · rw [List.mem_singleton.mp hw,hv] at ht
      exact absurd ht (lt_irrefl _)

theorem Comes.inLine (h : Comes s e u) (ht : t < s.nextTask)
    (hm : t ∈ u.pool.waiters.map (·.task)) : t ∈ s.pool.waiters.map (·.task) := by
  obtain ⟨w,hw,rfl⟩ := List.mem_map.mp hm
  exact List.mem_map_of_mem (h.mem ht hw)

theorem Comes.barren (h : Comes s e u) (ht : t ≤ s.nextTask) (hb : u.Barren t) : s.Barren t := by
  cases h with
  | nobody => exact hb
  | one hw _ =>
    refine hb.imp_right fun ⟨v,hv,hlt⟩ => ?_
    rcases List.mem_append.mp hv with hv | hv
    · exact ⟨v,hv,hlt⟩
    · rw [List.mem_singleton.mp hv,hw] at hlt
      exact absurd (hlt.trans_le ht) (lt_irrefl _)

theorem Comes.now (h : Comes s e u) : u.now = s.now := by cases h <;> rfl

theorem Comes.dealings (h : Comes s e u) : u.dealings = s.dealings := by cases h <;> rfl

theorem queued_step (hs : s.Tidy) (hq : s.Queued) (e : Event) : (s.step e).Queued := by
  obtain ⟨u,hc,hp⟩ := goes_step s e
  exact hp.queued (hc.queued hs hq)

theorem queued_run (hs : s.Tidy) (hq : s.Queued) (es : List Event) : (s.run es).Queued := by
  induction es generalizing s with
  | nil => exact hq
  | cons e es ih => exact ih (tidy_step hs e) (queued_step hs hq e)

/-- Someone who is in line after an event and had come before it was in line then. -/
theorem waiter_step {w : Waiter} (ht : w.task < s.nextTask) (hw : w ∈ (s.step e).pool.waiters) :
    w ∈ s.pool.waiters := by
  obtain ⟨u,hc,hp⟩ := goes_step s e
  exact hc.mem ht (hp.mem hw)

theorem waiter_run (hs : s.Tidy) {w : Waiter} (ht : w.task < s.nextTask)
    (hw : w ∈ (s.run es).pool.waiters) : w ∈ s.pool.waiters := by
  induction es generalizing s with
  | nil => exact hw
  | cons e es ih => exact waiter_step ht (ih (tidy_step hs e) (ht.trans_le (nextTask_step hs e)) hw)

theorem inLine_step (ht : t < s.nextTask) (hm : t ∈ (s.step e).pool.waiters.map (·.task)) :
    t ∈ s.pool.waiters.map (·.task) := by
  obtain ⟨w,hw,rfl⟩ := List.mem_map.mp hm
  exact List.mem_map_of_mem (waiter_step ht hw)

theorem barren_step (hs : s.Tidy) (hq : s.Queued) (ht : t ≤ s.nextTask)
    (hm : t ∈ (s.step e).pool.waiters.map (·.task)) (hb : (s.step e).Barren t) : s.Barren t := by
  obtain ⟨u,hc,hp⟩ := goes_step s e
  exact hc.barren ht (hp.barren (hc.queued hs hq) hb hm)

theorem barren_run (hs : s.Tidy) (hq : s.Queued) (ht : t < s.nextTask)
    (hm : t ∈ (s.run es).pool.waiters.map (·.task)) (hb : (s.run es).Barren t) :
    t ∈ s.pool.waiters.map (·.task) ∧ s.Barren t := by
  induction es generalizing s with
  | nil => exact ⟨hm,hb⟩
  | cons e es ih =>
    have hr := ih (tidy_step hs e) (queued_step hs hq e) (ht.trans_le (nextTask_step hs e)) hm hb
    exact ⟨inLine_step ht hr.1,barren_step hs hq ht.le hr.1 hr.2⟩

/-! ### Those who called -/

def Called (s : Service) (es : List Event) (w : Waiter) : Prop :=
  ∃ before later, es = before ++ .acquire w.wait :: later ∧ (s.run before).nextTask = w.task ∧
    w.deadline = some ((s.run before).after w.wait)

theorem Comes.called (h : Comes (s.run es) e u) {w : Waiter} (hw : w ∈ u.pool.waiters)
    (hp : w.purpose = .acquire)
    (hc : ∀ w ∈ (s.run es).pool.waiters, w.purpose = .acquire → s.Called es w) :
    s.Called (es ++ [e]) w := by
  have hm (hw : w ∈ (s.run es).pool.waiters) : s.Called (es ++ [e]) w := by
    obtain ⟨before,later,rfl,ht,hd⟩ := hc w hw hp
    exact ⟨before,later ++ [e],by simp,ht,hd⟩
  cases h with
  | nobody => exact hm hw
  | one ht ha =>
    rcases List.mem_append.mp hw with hw | hw
    · exact hm hw
    · rw [List.mem_singleton] at hw
      subst hw
      obtain ⟨rfl,hd⟩ := ha hp
      exact ⟨es,[],rfl,ht.symm,hd⟩

theorem called_run (hw : s.pool.waiters = []) (es : List Event) :
    ∀ w ∈ (s.run es).pool.waiters, w.purpose = .acquire → s.Called es w := by
  induction es using List.reverseRecOn with
  | nil => simp [run,hw]
  | append_singleton es e ih =>
    rw [run_append]
    obtain ⟨u,hc,hp⟩ := goes_step (s.run es) e
    exact fun w hm ha => hc.called (hp.mem hm) ha ih

/-! ### What is said to them -/

def news (s : Service) (e : Event) : List Occurrence :=
  (s.step e).occurrences.take ((s.step e).occurrences.length - s.occurrences.length)

theorem occurrences_step (hs : s.Tidy) (e : Event) :
    (s.step e).occurrences = s.news e ++ s.occurrences := by
  have hn : ∃ N, (s.step e).occurrences = N ++ s.occurrences := by
    have hr (he : e.retires = false) : ∃ N, (s.step e).occurrences = N ++ s.occurrences :=
      occurrences_run hs (show ∀ d ∈ [e], d.retires = false by simpa using he)
    cases e with
    | retire serial reason =>
      cases hh : s.held? serial with
      | none => exact ⟨[],by simp [step,retireHeld,hh]⟩
      | some h => exact ⟨[.observed (.retirement reason.label)],by rw [step,retireHeld_eq hh]; rfl⟩
    | _ => exact hr rfl
  obtain ⟨N,hN⟩ := hn
  simp [news,hN]

theorem dealings_step (hs : s.Tidy) (e : Event) :
    (s.step e).dealings = (s.news e).filter Occurrence.deals ++ s.dealings := by
  rw [dealings,occurrences_step hs,List.filter_append,dealings]

/-- One in line is told what becomes of the wait: a session, or none within the time, or what has
been ended. -/
inductive Told (s : Service) (w : Waiter) (s' : Service) : Occurrence → Prop
  | receives (hf : s.pool.isFirst w.task = true) (σ : Session) : Told s w s' (.received w.task σ)
  | fails (hf : s.pool.isFirst w.task = true → s.pool.queue = []) (ho : w.overdue s.now = true)
      {x : PoolFailure} (hx : w.purpose = .acquire ∧ x = .timeout (w.wait * 1000000) ∨
        ∃ y, x = .ofStore y) :
      Told s w s' (.answered w.task (.session (.error x)))
  | drains (hq : s'.pool.queue = []) (hp : s'.pool.parked = s.pool.parked - s.pool.queue.length) :
      Told s w s' (.answered w.task (.drained s.pool.queue.length))

theorem Departs.told {w : Waiter} (h : Departs s w s') {N : List Occurrence}
    (hN : s'.dealings = N ++ s.dealings) {o : Occurrence} (ho : o ∈ N) : s.Told w s' o := by
  have hone {x : Occurrence} (hd : s'.dealings = x :: s.dealings) : o = x := by
    have hx : N = [x] := List.append_cancel_right (hN.symm.trans hd)
    simpa [hx] using ho
  cases h with
  | quits _ hd | shutsDown _ _ hd => simp [List.self_eq_append_left.mp (hd.symm.trans hN)] at ho
  | drains _ hq hp hd => exact hone hd ▸ .drains hq hp
  | receives hf σ hd => exact hone hd ▸ .receives hf σ
  | fails hf hw he _ hd => exact hone hd ▸ .fails hf hw he

/-- What is said at an event is said to one in line, who departs. -/
theorem told_of_news (hs : s.Tidy) {o : Occurrence} (ho : o ∈ s.news e) (hd : o.deals = true) :
    ∃ u w, Comes s e u ∧ w ∈ u.pool.waiters ∧
      (s.step e).pool.waiters = (u.pool.leave w.task).waiters ∧ u.Told w (s.step e) o := by
  obtain ⟨u,hc,hp⟩ := goes_step s e
  have hN : (s.step e).dealings = (s.news e).filter Occurrence.deals ++ u.dealings :=
    hc.dealings ▸ dealings_step hs e
  have hm : o ∈ (s.news e).filter Occurrence.deals := List.mem_filter.mpr ⟨ho,hd⟩
  cases hp with
  | lines h => simp [List.self_eq_append_left.mp (h.dealings.symm.trans hN)] at hm
  | @departs w hw hl h => exact ⟨u,w,hc,hw,hl,h.told hN hm⟩

theorem lt_of_received (hs : s.Tidy) (hq : s.Queued) {σ : Session} (h : .received t σ ∈ s.news e) :
    ∀ v ∈ (s.step e).pool.waiters, t < v.task := by
  obtain ⟨u,w,hc,hw,hl,ht⟩ := told_of_news hs h rfl
  cases ht with
  | receives hf _ =>
    intro v hv
    rw [hl] at hv
    obtain ⟨hv,hn⟩ := List.mem_filter.mp hv
    exact lt_of_le_of_ne ((hc.queued hs hq).first_le hf hv) (Ne.symm (of_decide_eq_true hn))

theorem not_closed_step (hs : s.Tidy) : .answered t (.session (.error .closed)) ∉ s.news e := by
  intro h
  obtain ⟨u,w,_,_,_,ht⟩ := told_of_news hs h rfl
  cases ht with
  | fails _ _ hx =>
    rcases hx with ⟨_,hx⟩ | ⟨y,hy⟩
    · cases hx
    · exact (PoolFailure.ofStore_ne y).1 hy.symm

theorem not_closed_run (hs : s.Tidy) (h : .answered t (.session (.error .closed)) ∉ s.occurrences)
    (es : List Event) : .answered t (.session (.error .closed)) ∉ (s.run es).occurrences := by
  induction es generalizing s with
  | nil => exact h
  | cons e es ih =>
    refine ih (tidy_step hs e) ?_
    rw [occurrences_step hs]
    exact fun hm => (List.mem_append.mp hm).elim (not_closed_step hs) h

/-! ### Waits in vain -/

/-- The answer to an event says of a task that its wait was in vain: it had called, it has waited as
long as was said, and all the while nothing was at hand. -/
def InVain (s : Service) (es : List Event) (e : Event) (t nanos : ℕ) : Prop :=
  ∃ before wait later, es ++ [e] = before ++ .acquire wait :: later ∧ (s.run before).nextTask = t ∧
    nanos = wait * 1000000 ∧ (s.run before).after wait ≤ (s.run es).now ∧
    ∀ x y, es = before ++ x ++ y → (s.run (before ++ x)).Barren t

/-- Since a call nothing was at hand for the caller, if nothing is at the end. -/
theorem barren_since (hs : s.Tidy) (hq : s.Queued) {call : Event}
    (ha : s.nextTask < (s.step call).nextTask) {x y later : List Event}
    (he : x ++ y ++ [e] = call :: later)
    (hm : s.nextTask < (s.run (x ++ y)).nextTask →
      s.nextTask ∈ (s.run (x ++ y)).pool.waiters.map (·.task))
    (hb : (s.run (x ++ y)).Barren s.nextTask) : (s.run x).Barren s.nextTask := by
  have hs' := tidy_step hs call
  have hq' := queued_step hs hq call
  -- the run has got to the call, or already past it
  cases x with
  | nil =>
    cases y with
    | nil => exact hb
    | cons a y =>
      obtain ⟨rfl,_⟩ := List.cons.inj he
      have hr := barren_run hs' hq' ha (hm (ha.trans_le (nextTask_run hs' y))) hb
      exact barren_step hs hq le_rfl hr.1 hr.2
  | cons a x =>
    obtain ⟨rfl,_⟩ := List.cons.inj he
    have ht := ha.trans_le (nextTask_run hs' x)
    have hr : s.run (a :: x ++ y) = ((s.step a).run x).run y := run_append _ x y
    rw [hr] at hm hb
    exact (barren_run (tidy_run hs' x) (queued_run hs' hq' x) ht
      (hm (ht.trans_le (nextTask_run (tidy_run hs' x) y))) hb).2

theorem inVain_of_timeout (hs : s.Tidy) (hq : s.Queued) (hw : s.pool.waiters = []) {n : ℕ}
    (h : .answered t (.session (.error (.timeout n))) ∈ (s.run es).news e) : s.InVain es e t n := by
  obtain ⟨u,w,hc,hm,_,ht⟩ := told_of_news (tidy_run hs es) h rfl
  cases ht with
  | fails hf hd hx =>
    have hp : w.purpose = .acquire ∧ n = w.wait * 1000000 := by
      rcases hx with ⟨hp,hx⟩ | ⟨y,hy⟩
      · exact ⟨hp,PoolFailure.timeout.inj hx⟩
      · exact absurd hy.symm ((PoolFailure.ofStore_ne y).2 n)
    obtain ⟨before,later,he,ht,hl⟩ := hc.called hm hp.1 (called_run hw es)
    refine ⟨before,w.wait,later,he,ht,hp.2,?_,?_⟩
    · have hd' : (s.run before).after w.wait ≤ (s.run es).now := by
        simpa [Waiter.overdue,hl,hc.now] using hd
      exact hd'
    · rintro x y rfl
      -- nothing was at hand at the end: the queue was empty, or another one was first
      have hu : u.Barren w.task :=
        (barren_iff (hc.queued (tidy_run hs _) (queued_run hs hq _)) hm).mpr hf
      have he' : x ++ y ++ [e] = .acquire w.wait :: later := by simpa using he
      have hr : s.run (before ++ x ++ y) = (s.run before).run (x ++ y) := by
        rw [List.append_assoc,run_append]
      have hn := nextTask_run (tidy_run hs before) (x ++ y)
      rw [run_append,← ht]
      have ha : (s.run before).nextTask < ((s.run before).step (.acquire w.wait)).nextTask :=
        nextTask_arrive (tidy_run hs before) .acquire w.wait
      refine barren_since (tidy_run hs before) (queued_run hs hq before) ha he' ?_ ?_
      · rw [← hr,ht]
        exact fun hlt => hc.inLine hlt (List.mem_map_of_mem hm)
      · rw [← hr,ht]
        exact hc.barren (by rwa [hr,← ht]) hu

/-! ### Full rests -/

theorem held?_serial {serial : ℕ} {h : Session} (hh : s.held? serial = some h) :
    h.serial = serial := by
  simpa using List.find?_some hh

theorem step_release {serial : ℕ} {h : Session} (hh : s.held? serial = some h) (cooldown : ℕ) :
    s.step (.release serial cooldown) = (s.letGo serial).release h cooldown := by
  simp only [step,releaseHeld,hh]

/-- After a caller has given its session back nobody has it, and it is not due before its rest is
over. -/
theorem away_release (hx : s.custody.Serial) {serial : ℕ} {h : Session}
    (hh : s.held? serial = some h) (cooldown : ℕ) (G : Multiset Resting) (W : List Resting) :
    ((s.step (.release serial cooldown)).traffic G W).Away (fun σ => σ.serial = serial)
      (s.restEnd cooldown) := by
  have hk := held?_serial hh
  have hn : (total s.out s.pool.line s.pool.cooling).map Session.serial |>.Nodup :=
    ((traffic_serial (G := 0) (W := [])).mpr hx).nodup
  rw [out_letGo hx hh,total_out] at hn
  obtain ⟨ho,hl,hz⟩ := forall_mem_total.mp (Custody.nodup_map_cons.mp hn).1
  rw [step_release hh]
  refine ⟨fun x hm => hk ▸ ho x hm,fun σ hm => hk ▸ hl σ hm,fun r hm hr => ?_⟩
  rcases List.mem_append.mp (Multiset.mem_coe.mp hm) with hm | hm
  · exact absurd hr (hk ▸ hz r hm)
  · rw [List.mem_singleton.mp hm]
    exact le_rfl

theorem takings_after_release (hs : s.Tidy) (hx : s.custody.Serial) {serial : ℕ} {h : Session}
    (hh : s.held? serial = some h) (cooldown : ℕ) (es : List Event) : ∃ N,
      (s.run (.release serial cooldown :: es)).takings = N ++ s.takings ∧
        ∀ x ∈ N, x.session.serial = serial → s.restEnd cooldown ≤ x.time := by
  have hr := step_release hh cooldown
  have hm := traffic_run False (tidy_step hs (.release serial cooldown)) (serial_step hs hx _) es
    False.elim 0 []
  have hlt : serial < s.nextSession := by
    refine held?_serial hh ▸ hx.lt _ (Multiset.mem_map_of_mem Session.serial ?_)
    rw [live_custody]
    simp [live,List.mem_of_find?_eq_some hh]
  have hn : ((s.step (.release serial cooldown)).traffic 0 []).next = s.nextSession := by
    rw [hr]; rfl
  obtain ⟨N,hN,hd⟩ := hm.taken (hn ▸ hlt) (away_release hx hh cooldown 0 [])
  have ht : (s.step (.release serial cooldown)).takings = s.takings := by rw [hr]; rfl
  exact ⟨N,ht ▸ hN,hd⟩

/-- The discipline of the pool in a run and at the next event, where a rest that begins in a state
is due at some time. What is given back rests or its rest has ended, and what has ended its rest was
taken or is in line, in that order and once. No session is taken that has not rested, no turn is
missed, no wait is in vain without need, the pool is open, and what is parked is counted. -/
structure Discipline (due : Service → ℕ → ℕ) (s : Service) (es : List Event) : Prop where
  kept : (s.along lent es ++ (s.run es).released).Perm
    (s.along rising es ++ (s.run es).pool.cooling)
  order : Served (s.along rising es) (s.run es).takings
    ((s.run es).pool.queue ++ (s.run es).pool.entering)
  once : ((s.run es).live.map (·.serial)).Nodup
  rested : ∀ before serial cooldown later, es = before ++ .release serial cooldown :: later →
    ((s.run before).held? serial).isSome = true →
    ∃ N, (s.run es).takings = N ++ (s.run before).takings ∧
      ∀ x ∈ N, x.session.serial = serial → due (s.run before) cooldown ≤ x.time
  turns : ∀ e t σ, .received t σ ∈ (s.run es).news e →
    ∀ v ∈ (s.run (es ++ [e])).pool.waiters, t < v.task
  patience : ∀ e t n, .answered t (.session (.error (.timeout n))) ∈ (s.run es).news e →
    s.InVain es e t n
  unclosed : ∀ t, .answered t (.session (.error .closed)) ∉ (s.run es).occurrences
  counted : (s.run es).pool.parked = (s.run es).pool.queue.length + (s.run es).pool.entering.length

/-- Queue discipline: in every run of a service, whatever is called, given back or cancelled,
whatever the waits and the rests are and however many sessions the queue holds. -/
theorem queue_discipline (settings : Settings) (store : Store) (clock : ℤ) {n : ℕ} {pool : Pool}
    (hp : Pool.ofCapacity n = .ready pool) (es : List Event) :
    Discipline restEnd (fresh settings store pool clock) es := by
  have hf : Orderly False _ ∧ _ := orderly_fresh settings store clock hp
  have hs := hf.1.tidy
  have hx := hf.1.serial
  obtain rfl := Pool.eq_of_ofCapacity hp
  have hq : (fresh settings store ⟨max n 1,[],[],[],[],0⟩ clock).Queued := .nil
  have ht : ((fresh settings store ⟨max n 1,[],[],[],[],0⟩ clock).traffic 0 []).InTurn :=
    ⟨rfl,by simp [traffic],[],[],rfl,.nil,rfl⟩
  have hm := (traffic_run False hs hx es False.elim 0 []).inTurn ht
  refine ⟨?_,hm.order,?_,?_,fun e t σ h => ?_,fun e t m => inVain_of_timeout hs hq rfl,
    fun t => ?_,?_⟩
  · have hk := hm.kept
    simp only [traffic,zero_add,List.nil_append,Multiset.coe_add,Multiset.coe_eq_coe] at hk
    exact hk
  · have hn := (serial_run hs hx es).nodup
    rwa [live_custody,Multiset.map_coe,Multiset.coe_nodup] at hn
  · rintro before serial cooldown later rfl hh
    obtain ⟨h,hh⟩ := Option.isSome_iff_exists.mp hh
    rw [run_append]
    exact takings_after_release (tidy_run hs before) (serial_run hs hx before) hh cooldown later
  · rw [run_append]
    exact lt_of_received (tidy_run hs es) (queued_run hs hq es) h
  · exact not_closed_run hs (by simp [occurrences,fresh]) es
  · exact (tidy_run hs es).counted

/-- Two sessions are given back and the one with the shorter rest is taken first. The last of three
callers waits in vain; the second one is about to get the other session. -/
def takingTurns : List Event :=
  [.construct,.construct,.release 0 5,.release 1 3,.acquire 9,.acquire 9,.acquire 2,.elapse 3,
    .turn (.poll 4),.turn (.wake 1),.turn (.poll 2),.elapse 2,.turn (.wake 0)]

theorem queue_discipline_takingTurns :
    (sample.run takingTurns).takings.map (fun x => (x.session.serial,x.time)) = [(1,3)] ∧
      (sample.run takingTurns).pool.queue.map (·.serial) = [0] ∧
      (sample.run takingTurns).pool.waiters.map (·.task) = [3] ∧
      Discipline restEnd sample takingTurns :=
  ⟨by decide +kernel,by decide +kernel,by decide +kernel,
    queue_discipline _ stocked 0 (n := 1) rfl _⟩

def farRest : List Event :=
  [.construct,.release 0 endless,.elapse thirtyYears,.turn (.wake 0),.acquire 0]

def overtaking : List Event := [.acquire 5,.checkout 0]

/-- A rest is not always as long as it is said to be, and a new session may go to one who came
later. -/
theorem not_discipline_endless : ¬ Discipline after sample farRest ∧
    (sample.run overtaking).pool.waiters.map (·.task) = [0] ∧
      ∃ σ, .answered 1 (.session (.ok σ)) ∈ (sample.run overtaking).occurrences := by
  refine ⟨fun h => ?_,by decide +kernel,_,List.mem_of_getElem? (i := 0) rfl⟩
  · obtain ⟨N,hN,hx⟩ := h.rested [.construct] 0 endless _ rfl rfl
    have hm : ⟨⟨0,⟨"ash","","ptc",true,false⟩,⟨1,true,false⟩⟩,thirtyYears⟩ ∈ N := by
      have ht : (sample.run [.construct]).takings = [] := rfl
      rw [ht,List.append_nil] at hN
      exact hN ▸ List.mem_of_getElem? (i := 0) rfl
    exact absurd ((Nat.le_add_left _ _).trans (hx _ hm rfl)) (by decide : ¬ endless ≤ thirtyYears)

end Service

end ScanService
