import ScanService.Proofs.Claims
import ScanService.Proofs.Draining
import ScanService.Proofs.Listed
/-! Getting a session, a parked one or else a new one. A caller who waits takes what comes to hand
for it. If nothing does until the wait is over, a session is built: its two claims are both made or
both undone, and they fail only for want of a record or with the store. -/
namespace ScanService

namespace Roster

variable {r r' : Roster} {e : Egress}

def HasEgress (r : Roster) : Prop := ∃ e ∈ r.egresses, e.inUse = false ∧ e.dead = false

def HasIdentity (r : Roster) : Prop := ∃ i ∈ r.identities, i.used = false ∧ i.banned = false

theorem EgressClaimed.releaseEgress (h : r.EgressClaimed r' e) (hd : r'.Distinct) :
    r'.releaseEgress e.id = r := by
  obtain ⟨before,f,after,hr,hf,rfl,hr'⟩ := h.claim
  have hu : f.inUse = false := by
    rw [Egress.claimable,Bool.and_eq_true] at hf
    simpa using hf.1
  have hb : ({ f with inUse := false } : Egress) = f := by rw [← hu]
  have hi := hd.ids
  rw [hr'] at hi
  have ha := Table.amend_append_cons (f := fun e => { e with inUse := false }) hi
  have he : (r'.releaseEgress f.id).egresses = r.egresses := by
    rw [Roster.releaseEgress,updateEgress,hr',hr]
    exact ha.trans (congrArg (fun e => before ++ e :: after) hb)
  exact congrArg₂ Roster.mk h.identities he

end Roster

theorem PoolFailure.ofStore_eq_store {x : StoreFailure} (h : x.isNotAvailable = false) :
    ofStore x = store x := by
  cases x with
  | notAvailable resource => simp [StoreFailure.isNotAvailable] at h
  | _ => rfl

namespace Store

variable {s t u : Store} {e : Egress} {i : Identity} {x : StoreFailure}

/-- What building a session makes of the store, and what comes of it. Unless a call fails, it
succeeds exactly if there are an egress and an identity to claim; it puts to use the egress of the
smallest id and the identity that was added first, and no other. What it cannot finish it undoes. -/
structure Builds (s t : Store) (r : Except PoolFailure Session) : Prop where
  succeeds : s.Accepts .claimEgress → s.Accepts .claimIdentity →
    ((∃ σ, r = .ok σ) ↔ s.roster.HasEgress ∧ s.roster.HasIdentity)
  built : ∀ σ, r = .ok σ →
    ∃ ρ, s.roster.EgressClaimed ρ σ.egress ∧ ρ.IdentityClaimed t.roster σ.identity
  egressless : s.Accepts .claimEgress → ¬ s.roster.HasEgress →
    r = .error (.exhausted "egress") ∧ t.roster = s.roster
  identityless : s.Accepts .claimEgress → s.Accepts .claimIdentity → s.Accepts .releaseEgress →
    s.roster.HasEgress → ¬ s.roster.HasIdentity → r = .error (.exhausted "identity") ∧
    t.roster = s.roster
  undone : ∀ e x, s.claimEgress.2 = .ok e → s.claimEgress.1.claimIdentity.2 = .error x →
    x.isNotAvailable = false → s.Accepts .releaseEgress → r = .error (.store x) ∧
    t.roster = s.roster
  objects : t.objects = s.objects

theorem Accepts.of_claimEgress {c : StoreCall} (ha : s.Accepts c) (hc : c ≠ .claimEgress)
    {x : Except StoreFailure Egress} (he : s.claimEgress = (t,x)) : t.Accepts c := by
  have ht := accepts_onRoster ha hc Roster.claimEgress
  rwa [← Store.claimEgress,he] at ht

theorem Accepts.of_claimIdentity {c : StoreCall} (ha : s.Accepts c) (hc : c ≠ .claimIdentity)
    {x : Except StoreFailure Identity} (hi : s.claimIdentity = (t,x)) : t.Accepts c := by
  have ht := accepts_onRoster ha hc Roster.claimIdentity
  rwa [← Store.claimIdentity,hi] at ht

theorem hasEgress_of_claimEgress (h : s.claimEgress = (t,.ok e)) : s.roster.HasEgress := by
  obtain ⟨f,hf,hu,hd,_⟩ := Roster.claimEgress_ok (claimEgress_ok h)
  exact ⟨f,hf,hu,hd⟩

theorem hasIdentity_of_claimIdentity (h : s.claimIdentity = (t,.ok i)) : s.roster.HasIdentity := by
  obtain ⟨j,hj,hu,hb,_⟩ := Roster.claimIdentity_ok (claimIdentity_ok h)
  exact ⟨j,hj,hu,hb⟩

section Building

variable (h : s.roster.Distinct)
include h

theorem not_hasEgress (ha : s.Accepts .claimEgress) (hc : s.claimEgress = (t,.error x)) :
    ¬ s.roster.HasEgress := by
  intro he
  obtain ⟨t',e,hc'⟩ := ((egressClaims h).succeeds ha).mpr he
  simp [hc] at hc'

theorem not_hasIdentity (ha : s.Accepts .claimIdentity) (hc : s.claimIdentity = (t,.error x)) :
    ¬ s.roster.HasIdentity := by
  intro hi
  obtain ⟨t',i,hc'⟩ := ((identityClaims h).succeeds ha).mpr hi
  simp [hc] at hc'

theorem hasIdentity_after (he : s.claimEgress = (t,.ok e)) :
    t.roster.HasIdentity ↔ s.roster.HasIdentity := by
  rw [Roster.HasIdentity,(h.egressClaimed (claimEgress_ok he)).identities,Roster.HasIdentity]

theorem roster_undone (he : s.claimEgress = (t,.ok e)) (hi : t.claimIdentity = (u,.error x))
    (ha : s.Accepts .releaseEgress) : (u.releaseEgress e.id).1.roster = s.roster := by
  have hc := h.egressClaimed (claimEgress_ok he)
  have hu : u.Accepts .releaseEgress :=
    (ha.of_claimEgress (by decide) he).of_claimIdentity (by decide) hi
  rw [releaseEgress,(hu.onRoster _).1,(claimIdentity_error hi).roster]
  exact hc.releaseEgress (distinct_of_claimEgress he h)

theorem builds_of_refused (he : s.claimEgress = (t,.error x)) :
    s.Builds t (.error (.ofStore x)) where
  succeeds ha _ := by simp [not_hasEgress h ha he]
  built _ hr := nomatch hr
  egressless ha _ := by
    obtain ⟨hr,_,hx⟩ := (egressClaims h).refused t x he
    rw [hx ha]
    exact ⟨rfl,hr⟩
  identityless ha _ _ hs := absurd hs (not_hasEgress h ha he)
  undone e y hc := by simp [he] at hc
  objects := objects_of_claimEgress he

theorem builds_of_undone (he : s.claimEgress = (t,.ok e)) (hi : t.claimIdentity = (u,.error x)) :
    s.Builds (u.releaseEgress e.id).1 (.error (.ofStore x)) where
  succeeds _ ha := by
    have ht := ha.of_claimEgress (by decide) he
    simp [← hasIdentity_after h he,not_hasIdentity (distinct_of_claimEgress he h) ht hi]
  built _ hr := nomatch hr
  egressless _ hn := absurd (hasEgress_of_claimEgress he) hn
  identityless _ ha hr _ _ := by
    have ht := ha.of_claimEgress (by decide) he
    have hx := ((identityClaims (distinct_of_claimEgress he h)).refused u x hi).2.2 ht
    rw [hx]
    exact ⟨rfl,roster_undone h he hi hr⟩
  undone f y hf hy hn ha := by
    simp only [he,hi,Except.error.injEq] at hy
    subst hy
    exact ⟨by rw [PoolFailure.ofStore_eq_store hn],roster_undone h he hi ha⟩
  objects := (u.objects_onRoster _ _).trans
    ((objects_of_claimIdentity hi).trans (objects_of_claimEgress he))

theorem builds_of_done (he : s.claimEgress = (t,.ok e)) (hi : t.claimIdentity = (u,.ok i)) (n : ℕ) :
    s.Builds u (.ok ⟨n,i,e⟩) where
  succeeds _ _ := by
    have ht := hasIdentity_of_claimIdentity hi
    simp [hasEgress_of_claimEgress he,(hasIdentity_after h he).mp ht]
  built σ hσ := by
    obtain rfl := Except.ok.inj hσ
    exact ⟨t.roster,h.egressClaimed (claimEgress_ok he),
      (distinct_of_claimEgress he h).identityClaimed (claimIdentity_ok hi)⟩
  egressless _ hn := absurd (hasEgress_of_claimEgress he) hn
  identityless _ _ _ _ hn :=
    absurd ((hasIdentity_after h he).mp (hasIdentity_of_claimIdentity hi)) hn
  undone f y hf hy := by simp [he,hi] at hy
  objects := (objects_of_claimIdentity hi).trans (objects_of_claimEgress he)

end Building

end Store

namespace Service

variable {s : Service} {w : Waiter} {e : Event} {es : List Event} {t : ℕ}

theorem builds_construct (h : s.store.roster.Distinct) (t : ℕ) :
    s.store.Builds (s.construct t).1.store (s.construct t).2 := by
  rcases s.construct_cases t with ⟨st,x,he,hc⟩ | ⟨st₁,st₂,e,x,he,hi,hc⟩ | ⟨st₁,st₂,e,i,he,hi,hc⟩
  · rw [hc]
    exact Store.builds_of_refused h he
  · rw [hc]
    exact Store.builds_of_undone h he hi
  · rw [hc]
    exact Store.builds_of_done h he hi s.nextSession

/-! ### One in line -/

def building (t : ℕ) : Except PoolFailure Session → List Occurrence
  | .ok σ => [.answered t (.session (.ok σ)),.called t (σ.call .create)]
  | .error x => [.answered t (.session (.error x))]

def caller (s : Service) (wait : ℕ) :
    Waiter := ⟨s.nextTask,.checkout,s.now,wait,some (s.after wait)⟩

theorem overdue_caller {wait now : ℕ} : (s.caller wait).overdue now = true ↔ s.now + wait ≤ now :=
  decide_eq_true_iff

theorem not_overdue_caller {wait now : ℕ} :
    (s.caller wait).overdue now = false ↔ now < s.now + wait := by
  rw [← Bool.not_eq_true,overdue_caller,not_le]

theorem nextTask_checkout (hs : s.Tidy) (wait : ℕ) :
    s.nextTask < (s.step (.checkout wait)).nextTask :=
  nextTask_arrive hs .checkout wait

theorem giveUp_checkout (hw : w.purpose = .checkout) :
    (s.giveUp w).store = (s.construct w.task).1.store ∧ (s.giveUp w).occurrences = building w.task
      (s.construct w.task).2 ++ s.occurrences := by
  rcases s.construct_cases w.task with ⟨st,x,_,hc⟩ | ⟨st₁,st₂,e,x,_,_,hc⟩ | ⟨st₁,st₂,e,i,_,_,hc⟩
  · simp only [giveUp,hw,hc,refuse]
    exact ⟨rfl,rfl⟩
  · simp only [giveUp,hw,hc,refuse]
    exact ⟨rfl,rfl⟩
  · simp only [giveUp,hw,hc,provide]
    exact ⟨rfl,rfl⟩

theorem Tidy.waiter?_eq (hs : s.Tidy) (hw : w ∈ s.pool.waiters) : s.pool.waiter? w.task = some w :=
  find?_of_mem (List.nodup_append.mp (Multiset.coe_nodup.mp hs.fresh.nodup)).2.1 hw rfl

/-- How a caller who wants a session leaves the line when it looks: with the one at hand, or with
what comes of building one if none is at hand and the wait is over. -/
inductive Checkout (s : Service) (w : Waiter) (s' : Service) : Prop
  | parked {σ : Session} {later : List Session} (hb : ¬ s.Barren w.task)
      (hq : s.pool.queue = σ :: later) (hs : s'.store = s.store)
      (hn : s'.occurrences = .answered w.task (.session (.ok σ)) ::
        .received w.task σ :: .observed (.parked (s.pool.parked - 1)) :: s.occurrences)
  | built {r : Except PoolFailure Session} (hb : s.Barren w.task) (ho : w.overdue s.now = true)
      (hr : s.store.Builds s'.store r) (hn : s'.occurrences = building w.task r ++ s.occurrences)

theorem checkout_poll (hs : s.Tidy) (hq : s.Queued) (hd : s.store.roster.Distinct)
    (hw : w ∈ s.pool.waiters) (hp : w.purpose = .checkout)
    (hn : w.task ∉ (s.poll w.task).pool.waiters.map (·.task)) : Checkout s w (s.poll w.task) := by
  have hl := s.looks_poll w.task
  have hm := hs.waiter?_eq hw
  have hb := barren_iff hq hw
  generalize s.poll w.task = s' at hl hn ⊢
  generalize ht : w.task = t at hl hm
  cases hl with
  | stays _ => exact absurd (List.mem_map.mpr ⟨w,hw,rfl⟩) hn
  | @drains v hv _ hd =>
    obtain rfl : w = v := Option.some.inj (hm.symm.trans hv)
    simp [hp,Purpose.drains] at hd
  | @takes v σ pool hv hf hr =>
    obtain rfl : w = v := Option.some.inj (hm.symm.trans hv)
    obtain ⟨later,hl,rfl⟩ := receive?_eq_some hr
    have hl : s.pool.queue = σ :: later := hl
    refine .parked (fun h => ?_) hl ?_ ?_
    · rw [hb.mp h hf] at hl
      cases hl
    · simp only [takeFirst,store_provide]
      rfl
    · simp only [takeFirst,provide,hp]
      rfl
  | @givesUp v hv hf ho =>
    obtain rfl : w = v := Option.some.inj (hm.symm.trans hv)
    obtain ⟨hst,hoc⟩ := giveUp_checkout (s := s.left w) hp
    exact .built (hb.mpr hf) ho (hst ▸ builds_construct (s := s.left w) hd w.task) hoc

/-! ### In a run -/

theorem caller_inLine (hs : s.Tidy) {wait : ℕ}
    (hm : s.nextTask ∈ (s.run (.checkout wait :: es)).pool.waiters.map (·.task)) :
    s.caller wait ∈ (s.run (.checkout wait :: es)).pool.waiters := by
  obtain ⟨w,hw,ht⟩ := List.mem_map.mp hm
  have hc : w ∈ (s.step (.checkout wait)).pool.waiters :=
    waiter_run (tidy_step hs _) (ht.trans_lt (nextTask_checkout hs wait)) hw
  rcases List.mem_append.mp ((proceeds_poll (s.joined (s.caller wait)) s.nextTask).mem hc)
    with hv | hv
  · exact absurd (hs.lt_next hv) ht.not_lt
  · exact List.mem_singleton.mp hv ▸ hw

theorem waits_poll (hs : s.Tidy) (hw : w ∈ s.pool.waiters) (ht : w.task ≠ t) :
    w ∈ (s.poll t).pool.waiters := by
  rcases enters_poll hs t with he | ⟨_,he⟩
  · rwa [he]
  · rw [he.waiters]
    exact List.mem_filter.mpr ⟨hw,by simpa using ht⟩

theorem waits_arrive (hs : s.Tidy) (hw : w ∈ s.pool.waiters) (purpose : Purpose) (wait : ℕ) :
    w ∈ (s.arrive purpose wait).pool.waiters :=
  waits_poll (hs.join purpose s.now wait _) (List.mem_append_left _ hw) (hs.lt_next hw).ne

theorem waits_step (hs : s.Tidy) (hw : w ∈ s.pool.waiters) (hp : e ≠ .turn (.poll w.task))
    (ha : e ≠ .abort w.task) : w ∈ (s.step e).pool.waiters := by
  have hl {s' : Service} (h : Lines s s') : w ∈ s'.pool.waiters := h.waiters ▸ hw
  cases e with
  | turn turn =>
    cases turn with
    | poll task => exact waits_poll hs hw fun h => hp (h ▸ rfl)
    | wake serial =>
      simp only [step,take,onWake]
      split
      · exact hl (lines_wake s serial)
      · exact hw
    | enter => exact hl (lines_enter s)
    | expire task => exact hl (serves_onExpiry s task).lines
    | register task => exact hl (serves_onRegister s task).lines
    | forget account => exact hl (lines_onForget s account)
    | clear task => exact hl (lines_onClear s task)
    | unlock => exact hw
  | scan place => exact waits_arrive hs hw _ _
  | request r =>
    simp only [step,request]
    split
    · exact waits_arrive hs hw _ _
    · show w ∈ (s.handle (Demand.ofRequest r)).1.pool.waiters
      exact hl (lines_handle s _)
  | acquire wait => exact waits_arrive hs hw _ _
  | checkout wait => exact waits_arrive hs hw _ _
  | drain => exact waits_arrive hs hw _ _
  | shutdown => exact waits_arrive hs hw _ _
  | construct => exact hl (lines_constructHeld s)
  | release serial cooldown => exact hl (lines_releaseHeld s serial cooldown)
  | retire serial reason => exact hl (lines_retireHeld s serial reason)
  | replaceEgress serial => exact hl (lines_replaceHeld s serial)
  | loginDone task r => exact hl (serves_onLogin s task r).lines
  | gateOpen task => exact hl (serves_onGate s task).lines
  | fetchDone task r => exact hl (serves_onFetch s task r).lines
  | abort task =>
    simp only [step,abort]
    split
    · exact hl (ScanAct.lines .abandons)
    · split
      · exact List.mem_filter.mpr ⟨hw,by simpa using fun h : w.task = task => ha (h ▸ rfl)⟩
      · exact hw
  | purge => exact hl (lines_purge s)
  | _ => exact hw

theorem poll_eq_of_inLine (hs : s.Tidy) (hm : t ∈ (s.poll t).pool.waiters.map (·.task)) :
    s.poll t = s := by
  rcases enters_poll hs t with he | ⟨_,he⟩
  · exact he
  · rw [he.waiters] at hm
    obtain ⟨w,hw,ht⟩ := List.mem_map.mp hm
    exact absurd ht (of_decide_eq_true (List.mem_filter.mp hw).2)

/-- In a run time passes only when nothing can go on, and not past a time at which something can. -/
def Punctual (s : Service) (es : List Event) : Prop :=
  ∀ x e y, es = x ++ e :: y → (s.run x).now < ((s.run x).step e).now →
    (s.run x).quiet ∧ ∀ d ∈ (s.run x).timers, ((s.run x).step e).now ≤ d

/-- How one who called for a session leaves the line at an event. A session at hand goes to it, and
the store is left alone. If none was at hand ever since the call, the wait is over, and it gets what
comes of building one. -/
inductive Supplied (s : Service) (wait : ℕ) (es : List Event) (e : Event) : Prop
  | parked {σ : Session} {later : List Session} (hb : ¬ (s.run es).Barren s.nextTask)
      (hq : (s.run es).pool.queue = σ :: later) (hs : ((s.run es).step e).store = (s.run es).store)
      (hn : (s.run es).news e = [.answered s.nextTask (.session (.ok σ)),.received s.nextTask σ,
        .observed (.parked ((s.run es).pool.parked - 1))])
  | built {r : Except PoolFailure Session} (hb : ∀ x y, es = x ++ y → (s.run x).Barren s.nextTask)
      (ho : s.now + wait ≤ (s.run es).now)
      (hr : (s.run es).store.Builds ((s.run es).step e).store r)
      (hn : (s.run es).news e = building s.nextTask r)

/-- What becomes of one who calls for a session and waits for a parked one at most for some time. It
is supplied when it leaves the line, unless it is cancelled. When nothing can go on and it is still
there, nothing is at hand for it and its wait is not over. Where time passes punctually, its wait is
no longer than was said. -/
structure Acquires (s : Service) (wait : ℕ) : Prop where
  at_once : s.nextTask ∉ (s.step (.checkout wait)).pool.waiters.map (·.task) →
    Supplied s wait [] (.checkout wait)
  later : ∀ es e, s.nextTask ∈ (s.run (.checkout wait :: es)).pool.waiters.map (·.task) →
    s.nextTask ∉ ((s.run (.checkout wait :: es)).step e).pool.waiters.map (·.task) →
      e = .abort s.nextTask ∨ Supplied s wait (.checkout wait :: es) e
  settled : ∀ es, s.nextTask ∈ (s.run (.checkout wait :: es)).pool.waiters.map (·.task) →
    (s.run (.checkout wait :: es)).quiet → (s.run (.checkout wait :: es)).Barren s.nextTask ∧
      (s.run (.checkout wait :: es)).now < s.now + wait
  punctual : ∀ es, s.nextTask ∈ (s.run (.checkout wait :: es)).pool.waiters.map (·.task) →
    s.Punctual (.checkout wait :: es) → (s.run (.checkout wait :: es)).now ≤ s.now + wait

section Acquires

variable (hs : s.Tidy) {wait : ℕ}
include hs

theorem supplied_at_once (hq : s.Queued) (hd : s.store.roster.Distinct)
    (hn : s.nextTask ∉ (s.step (.checkout wait)).pool.waiters.map (·.task)) :
    Supplied s wait [] (.checkout wait) := by
  have hj : (s.joined (s.caller wait)).Tidy := hs.join .checkout s.now wait _
  have hc : Comes s (.checkout wait) (s.joined (s.caller wait)) := .one rfl nofun
  have hw : s.caller wait ∈ (s.joined (s.caller wait)).pool.waiters :=
    List.mem_append_right _ List.mem_cons_self
  rcases checkout_poll hj (hq.joined hs rfl) hd hw rfl hn with ⟨hb,hl,hst,ho⟩ | ⟨hb,ho,hr,ho'⟩
  · refine .parked (fun h => hb ?_) hl hst (news_of_notes hs ho)
    exact h.imp_right fun ⟨v,hv,hlt⟩ => ⟨v,List.mem_append_left _ hv,hlt⟩
  · refine .built (fun x y h => ?_) ?_ hr (news_of_notes hs ho')
    · rw [(List.nil_eq_append_iff.mp h).1]
      exact hc.barren le_rfl hb
    · exact overdue_caller.mp ho

theorem supplied_later (hq : s.Queued) (hd : s.store.roster.Distinct)
    (hm : s.nextTask ∈ (s.run (.checkout wait :: es)).pool.waiters.map (·.task))
    (hn : s.nextTask ∉ ((s.run (.checkout wait :: es)).step e).pool.waiters.map (·.task)) :
    e = .abort s.nextTask ∨ Supplied s wait (.checkout wait :: es) e := by
  have hw := caller_inLine hs hm
  have hs' := tidy_run hs (.checkout wait :: es)
  have hq' := queued_run hs hq (.checkout wait :: es)
  by_cases ha : e = .abort s.nextTask
  · exact Or.inl ha
  by_cases hp : e = .turn (.poll s.nextTask)
  · subst hp
    refine Or.inr ?_
    have hd' := distinct_run hs hd (.checkout wait :: es)
    rcases checkout_poll hs' hq' hd' hw rfl hn with ⟨hb,hl,hst,ho⟩ | ⟨hb,ho,hr,ho'⟩
    · exact .parked hb hl hst (news_of_notes hs' ho)
    · refine .built (fun x y h => ?_) ?_ hr (news_of_notes hs' ho')
      · have he : x ++ y ++ [.turn (.poll s.nextTask)] = .checkout
            wait :: (es ++ [.turn (.poll s.nextTask)]) := by
          rw [← h,List.cons_append]
        exact barren_since hs hq (nextTask_checkout hs wait) he (fun _ => h ▸ hm) (h ▸ hb)
      · exact overdue_caller.mp ho
  · exact absurd (List.mem_map_of_mem (waits_step hs' hw hp ha)) hn

theorem settled_inLine (hq : s.Queued)
    (hm : s.nextTask ∈ (s.run (.checkout wait :: es)).pool.waiters.map (·.task))
    (hr : (s.run (.checkout wait :: es)).quiet) : (s.run (.checkout wait :: es)).Barren s.nextTask ∧
      (s.run (.checkout wait :: es)).now < s.now + wait := by
  have hw := caller_inLine hs hm
  obtain ⟨ho,hf⟩ := canGo_eq_false.mp ((quiet_iff.mp hr).1 _ hw)
  refine ⟨(barren_iff (queued_run hs hq _) hw).mpr fun h => (hf h).2,?_⟩
  exact not_overdue_caller.mp ho

theorem punctual_inLine (hm : s.nextTask ∈ (s.run (.checkout wait :: es)).pool.waiters.map (·.task))
    (hp : s.Punctual (.checkout wait :: es)) :
    (s.run (.checkout wait :: es)).now ≤ s.now + wait := by
  induction es using List.reverseRecOn with
  | nil =>
    have hj : (s.joined (s.caller wait)).Tidy := hs.join .checkout s.now wait _
    have he : s.run [.checkout wait] = s.joined (s.caller wait) := poll_eq_of_inLine hj hm
    rw [he]
    exact Nat.le_add_right _ _
  | append_singleton es e ih =>
    have hr : s.run (.checkout wait :: (es ++ [e])) = (s.run (.checkout wait :: es)).step e :=
      run_append s (.checkout wait :: es) [e]
    have hw : s.caller wait ∈ (s.run (.checkout wait :: es)).pool.waiters := by
      refine waiter_step ?_ (hr ▸ caller_inLine hs hm)
      exact (nextTask_checkout hs wait).trans_le (nextTask_run (tidy_step hs _) es)
    rw [hr]
    by_cases hlt : (s.run (.checkout wait :: es)).now < ((s.run (.checkout wait :: es)).step e).now
    · obtain ⟨hq,ht⟩ := hp (.checkout wait :: es) e [] rfl hlt
      have ho := (canGo_eq_false.mp ((quiet_iff.mp hq).1 _ hw)).1
      -- the end of the wait is still to come, so time does not pass it
      refine ht _ (List.mem_filter.mpr ⟨?_,decide_eq_true (not_overdue_caller.mp ho)⟩)
      exact List.mem_append_left _ (List.mem_append_left _ (List.mem_filterMap.mpr ⟨_,hw,rfl⟩))
    · refine (not_lt.mp hlt).trans (ih (List.mem_map_of_mem hw) ?_)
      intro x f y h
      exact hp x f (y ++ [e]) (by rw [← List.cons_append,h,List.append_assoc,List.cons_append])

end Acquires

/-- Acquisition is atomic and never busy without need: whatever has happened to a service, whoever
calls for a session and however long it waits. -/
theorem acquires_atomically (settings : Settings) {store : Store} (hd : store.roster.Distinct)
    (clock : ℤ) {n : ℕ} {pool : Pool} (hp : Pool.ofCapacity n = .ready pool)
    (before : List Event) (wait : ℕ) :
    Acquires ((fresh settings store pool clock).run before) wait := by
  have hf : Orderly False _ ∧ _ := orderly_fresh settings store clock hp
  obtain rfl := Pool.eq_of_ofCapacity hp
  have hq : (fresh settings store ⟨max n 1,[],[],[],[],0⟩ clock).Queued := .nil
  have hs' := tidy_run hf.1.tidy before
  have hq' := queued_run hf.1.tidy hq before
  have hd' := distinct_run hf.1.tidy hd before
  exact ⟨supplied_at_once hs' hq' hd',fun _ _ => supplied_later hs' hq' hd',fun _ =>
    settled_inLine hs' hq',fun _ => punctual_inLine hs'⟩

def shorthanded : Service :=
  (fresh { acquireWait := 0, cooldown := 0, queryTimeout := 1000 }
    { Store.empty with roster := ⟨[{ name := "ash", secret := "" }],[{ id := 2 },{ id := 1 }]⟩ }
    ⟨1,[],[],[],[],0⟩ 0).run [.construct]

theorem punctual_shorthanded : shorthanded.Punctual [.checkout 5,.elapse 5] := by
  rintro (_ | ⟨a,_ | ⟨b,x⟩⟩) e y h hlt
  · obtain ⟨rfl,_⟩ := List.cons.inj h
    exact absurd hlt (by decide +kernel)
  · obtain ⟨rfl,he⟩ := List.cons.inj h
    obtain ⟨rfl,_⟩ := List.cons.inj he
    have hq : (shorthanded.run [.checkout 5]).runnable = [] := by decide +kernel
    exact ⟨hq,by decide +kernel⟩
  · simp at h

/-- The other egress is claimed and released; a failure of the store is told as one. -/
theorem acquires_atomically_shorthanded :
    (shorthanded.run [.checkout 5,.elapse 5]).news (.turn (.poll 1)) =
        [.answered 1 (.session (.error (.exhausted "identity")))] ∧
      (shorthanded.run [.plan .claimIdentity [some (.notNull "used")],.checkout 5,.elapse 5]).news
        (.turn (.poll 1)) = [.answered 1 (.session (.error (.store (.notNull "used"))))] ∧
      (shorthanded.run [.checkout 5,.elapse 5,.turn (.poll 1)]).store.roster =
        shorthanded.store.roster ∧
      shorthanded.Punctual [.checkout 5,.elapse 5] ∧ Acquires shorthanded 5 :=
  ⟨rfl,rfl,by decide +kernel,punctual_shorthanded,
    acquires_atomically _ ⟨by decide,by decide⟩ 0 (n := 1) rfl [.construct] 5⟩

end Service

end ScanService
