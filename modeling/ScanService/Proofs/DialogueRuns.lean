import ScanService.Proofs.Dialogue
/-! In any run, whatever other tasks do in between, a scan takes one of the courses: what one event
makes of it, then the run by induction. -/
namespace ScanService

namespace Service

variable {s : Service} {c : Scan}

/-! ### A task that is over -/

/-- The task has had its number, and has neither a scan nor a place in line. -/
structure Gone (s : Service) (t : ℕ) : Prop where
  lt : t < s.nextTask
  out : t ∉ s.tasks

variable {t : ℕ}

theorem Gone.scan?_eq (h : s.Gone t) : s.scan? t = none :=
  find?_eq_none_of_not_mem fun hm => h.out (List.mem_append_left _ hm)

theorem Gone.waiter?_eq (h : s.Gone t) : s.pool.waiter? t = none :=
  find?_eq_none_of_not_mem fun hm => h.out (List.mem_append_right _ hm)

theorem step_of_no_scan (h : s.scan? t = none) {e : Event} (ht : e.task s = some t) :
    Leaves t s (s.step e) ∨ s.step e = s.poll t ∨
      (t = s.nextTask ∧ ∃ purpose wait, s.step e = s.arrive purpose wait) := by
  cases e with
  | turn turn =>
    cases turn with
    | poll task =>
      injection ht with ht
      exact Or.inr (Or.inl (ht ▸ rfl))
    | expire task =>
      injection ht with ht
      subst ht
      simpa only [step,take,onExpiry,h] using Or.inl (Leaves.refl task s)
    | register task =>
      injection ht with ht
      subst ht
      simpa only [step,take,onRegister,h] using Or.inl (Leaves.refl task s)
    | _ => simp [Event.task] at ht
  | loginDone task r =>
    injection ht with ht
    subst ht
    simpa only [step,onLogin,h] using Or.inl (Leaves.refl task s)
  | gateOpen task =>
    injection ht with ht
    subst ht
    simpa only [step,onGate,h] using Or.inl (Leaves.refl task s)
  | fetchDone task r =>
    injection ht with ht
    subst ht
    simpa only [step,onFetch,h] using Or.inl (Leaves.refl task s)
  | abort task =>
    injection ht with ht
    subst ht
    simp only [step,abort,h]
    split
    · exact Or.inl (leaves_leave s task task)
    · exact Or.inl ⟨rfl,rfl,id,le_rfl⟩
  | request r =>
    injection ht with ht
    simp only [step,request]
    split
    · exact Or.inr (Or.inr ⟨ht.symm,_,_,rfl⟩)
    · refine Or.inl ⟨?_,about_handle s (Demand.ofRequest r) t,?_,Nat.le_succ _⟩
      · rw [handle_eq]
        rfl
      · rw [handle_eq]
        exact id
  | scan _ | acquire _ | checkout _ | drain | shutdown =>
    injection ht with ht
    exact Or.inr (Or.inr ⟨ht.symm,_,_,rfl⟩)
  | _ => simp [Event.task] at ht

/-- Whatever happens, it stays over. -/
theorem Gone.leaves (h : s.Gone t) (hs : s.Tidy) (e : Event) : Leaves t s (s.step e) := by
  by_cases ht : e.task s = some t
  · rcases step_of_no_scan h.scan?_eq ht with hl | hp | ⟨hn,_⟩
    · exact hl
    · rw [hp]
      simpa only [poll,h.waiter?_eq] using Leaves.refl t s
    · exact absurd hn h.lt.ne
  · exact leaves_step hs e ht

theorem Gone.run (h : s.Gone t) (hs : s.Tidy) (es : List Event) :
    s.dialogue t es = [] ∧ (s.run es).about t = s.about t ∧ (s.run es).Gone t := by
  induction es generalizing s with
  | nil => exact ⟨by simp [dialogue,h.scan?_eq],rfl,h⟩
  | cons e es ih =>
    have hl := h.leaves hs e
    have hg : (s.step e).Gone t := ⟨lt_of_lt_of_le h.lt hl.nextTask,fun hm => h.out (hl.tasks hm)⟩
    have hr := ih hg (tidy_step hs e)
    refine ⟨?_,hr.2.1.trans hl.about,hr.2.2⟩
    simpa only [dialogue,h.scan?_eq] using hr.1

theorem Tidy.gone_of_drop (hs : s.Tidy) (h : s.scan? t = some c) {s' : Service}
    (hw : s'.pool.waiters = s.pool.waiters) (hn : s'.nextTask = s.nextTask)
    (hd : s'.scans = (s.dropScan t).scans) : s'.Gone t := by
  have hm := mem_of_scan? h
  refine ⟨hn ▸ hs.fresh.lt t (List.mem_append_left _ hm),?_⟩
  rw [tasks,hw,hd,List.mem_append]
  rintro (hin | hin)
  · obtain ⟨d,hd,he⟩ := List.mem_map.mp hin
    simp [dropScan,he] at hd
  · exact hs.disjoint hm hin

/-- A scan that a step has ended does not come back. -/
theorem Handles.gone {s' : Service} (h : Handles t s s') (hs : s.Tidy) (hc : s.scan? t = some c)
    (hn : s'.scan? t = none) : s'.Gone t := by
  have hm := mem_of_scan? hc
  refine ⟨h.nextTask ▸ hs.fresh.lt t (List.mem_append_left _ hm),?_⟩
  rw [tasks,h.waiters,List.mem_append]
  rintro (hin | hin)
  · obtain ⟨d,hd,he⟩ := List.mem_map.mp hin
    simpa [he] using List.find?_eq_none.mp hn d hd
  · exact hs.disjoint hm hin

/-! ### What a step makes of a scan -/

theorem scan?_startLogin {d : Scan} (h : s.scan? c.task = some d) (forced : Bool) :
    (s.startLogin c forced).scan? c.task = some { c with stage := .login forced } :=
  scan?_putScan (s := s.call c.task c.session (.login forced))
    (c := { c with stage := .login forced }) h

theorem about_startLogin (s : Service) (c : Scan) (forced : Bool) :
    (s.startLogin c forced).about c.task =
      .called c.task (c.session.call (.login forced)) :: s.about c.task := by
  have hn := about_note s (.called c.task (c.session.call (.login forced))) c.task
  rwa [if_pos (by simp [Occurrence.isOf,Session.call,RemoteAction.awaited])] at hn

theorem about_handBack (s : Service) (c : Scan) (way : HandBack) :
    ((s.note (.handedBack c.task c.session way)).dropScan c.task).about c.task =
      .handedBack c.task c.session way :: s.about c.task := by
  have hn := about_note s (.handedBack c.task c.session way) c.task
  rwa [if_pos (by simp [Occurrence.isOf])] at hn

theorem about_finishReleased (s : Service) (c : Scan)
    (r : Except ScanFailure (List (ScanObject Float))) : (s.finishReleased c r).about c.task =
      .returned c.task r :: .handedBack c.task c.session .released :: s.about c.task := by
  rw [finishReleased,about_conclude,if_pos rfl,about_handBack]
  rfl

theorem about_retireNow (s : Service) (c : Scan) (reason : Retirement) (e : ScanFailure) :
    (s.retireNow c reason e).about c.task =
      .returned c.task (.error e) :: .handedBack c.task c.session
        (.retired reason) :: s.about c.task := by
  rw [retireNow,about_conclude,if_pos rfl,about_handBack]
  rfl

theorem Tidy.gone_finishReleased (hs : s.Tidy) {d : Scan} (h : s.scan? c.task = some d)
    (r : Except ScanFailure (List (ScanObject Float))) : (s.finishReleased c r).Gone c.task := by
  rw [finishReleased,conclude_eq]
  exact hs.gone_of_drop h rfl rfl rfl

theorem Tidy.gone_retireNow (hs : s.Tidy) {d : Scan} (h : s.scan? c.task = some d)
    (reason : Retirement) (e : ScanFailure) : (s.retireNow c reason e).Gone c.task := by
  rw [retireNow,conclude_eq]
  exact hs.gone_of_drop h rfl rfl rfl

theorem Tidy.gone_abandon (hs : s.Tidy) (h : s.scan? c.task = some c) :
    (s.abandon c).Gone c.task := by
  have hd := sameTasks_delist s c.session.identity.name
  have hdrop : (s.abandon c).scans = ((s.delist c.session.identity.name).dropScan c.task).scans :=
    rfl
  refine hs.gone_of_drop h hd.waiters hd.nextTask (hdrop.trans ?_)
  rw [dropScan,hd.scans]
  rfl

theorem about_abandon (s : Service) (c : Scan) :
    (s.abandon c).about c.task = .handedBack c.task c.session .abandoned :: s.about c.task := by
  have hh := about_handBack ((s.delist c.session.identity.name).freeSession c.session) c .abandoned
  exact hh.trans (congrArg _ ((sameTasks_delist s _).about c.task))

theorem scan?_enlistNow {d : Scan} (h : s.scan? c.task = some d)
    (place : Option (Coordinate Float)) :
    (s.enlistNow c place).scan? c.task = some { c with stage := .login false } := by
  have he := sameTasks_enrol s c place
  exact scan?_startLogin (s := s.enrol c place) (by rwa [scan?,he.scans]) false

theorem about_enlistNow (s : Service) (c : Scan) (place : Option (Coordinate Float)) :
    (s.enlistNow c place).about c.task = .called c.task (c.session.call (.login false)) ::
      s.about c.task :=
  (about_startLogin _ c false).trans (congrArg _ ((sameTasks_enrol s c place).about c.task))

theorem step_register {place : Option (Coordinate Float)} (h : s.scan? c.task = some c)
    (hc : c.stage = .listing place) (hl : s.locked = false) :
    s.step (.turn (.register c.task)) = s.enlistNow c place := by
  simp [step,take,onRegister,h,hl,hc]

theorem step_remove {reason : Retirement} {x : ScanFailure} (h : s.scan? c.task = some c)
    (hc : c.stage = .delisting reason x) (hl : s.locked = false) :
    s.step (.turn (.register c.task)) = s.retireNow c reason x := by
  simp [step,take,onRegister,h,hl,hc]

theorem scan?_register {place : Option (Coordinate Float)} (h : s.scan? c.task = some c)
    (hc : c.stage = .listing place) (hl : s.locked = false) :
    (s.step (.turn (.register c.task))).scan? c.task = some { c with stage := .login false } := by
  rw [step_register h hc hl]
  exact scan?_enlistNow h place

theorem dialogue_silent {e : Event} {es : List Event} {c' : Scan} (h : s.scan? t = some c)
    (hr : s.reply? c e = none) (h' : (s.step e).scan? t = some c') :
    s.dialogue t (e :: es) = (s.step e).dialogue t es := by
  simp only [dialogue,h,hr,h',Option.isSome_some,if_true]

/-- The dialogue of a scan goes on where the one of a longer run does. -/
theorem dialogue_append {es : List Event} (h : (s.run es).scan? t = some c) :
    ∃ T, ∀ fs, s.dialogue t (es ++ fs) = T ++ (s.run es).dialogue t fs := by
  induction es generalizing s with
  | nil => exact ⟨[],fun _ => rfl⟩
  | cons e es ih =>
    obtain ⟨T,hT⟩ := ih h
    simp only [List.cons_append,dialogue,hT]
    split
    · exact ⟨T,fun _ => rfl⟩
    · split
      · exact ⟨_ ++ T,fun _ => (List.append_assoc _ _ _).symm⟩
      · split
        · exact ⟨T,fun _ => rfl⟩
        · exact ⟨_ ++ T,fun _ => (List.append_assoc _ _ _).symm⟩

/-- The dialogue of a scan that goes on ends with the question that it waits on. -/
theorem dialogue_pending {es : List Event} (h : (s.run es).scan? t = some c) :
    ∃ T, s.dialogue t es = T ++ (s.run es).pending c := by
  obtain ⟨T,hT⟩ := dialogue_append h
  refine ⟨T,?_⟩
  have hn := hT []
  rw [List.append_nil] at hn
  rw [hn]
  simp only [dialogue,h]

theorem dialogue_reply {e : Event} {es : List Event} {q : Query} {r : Except RemoteFailure Unit}
    (h : s.scan? t = some c) (hq : c.stage.query? = some q) (hr : s.reply? c e = some r) :
    s.dialogue t (e :: es) =
      ⟨c.session,q,some r,s.store.roster,(s.step e).store.roster⟩ :: (s.step e).dialogue t es := by
  simp only [dialogue,h,hr,pending,hq,Option.toList_some,List.map_cons,List.map_nil,
    List.singleton_append]

theorem reply?_eq_none {e : Event} (he : e.task s ≠ some c.task) : s.reply? c e = none := by
  unfold reply?
  split
  · exact if_neg fun h => he (congrArg some h)
  · exact if_neg fun h => he (congrArg some h)
  · exact if_neg fun h => he (congrArg some h.1)
  · rfl

theorem Tidy.waiter?_eq_none (hs : s.Tidy) (h : s.scan? t = some c) : s.pool.waiter? t = none :=
  find?_eq_none_of_not_mem fun hw => hs.disjoint (mem_of_scan? h) hw

theorem Tidy.lt_nextTask (hs : s.Tidy) (h : s.scan? t = some c) : t < s.nextTask :=
  hs.fresh.lt t (List.mem_append_left _ (mem_of_scan? h))

/-- The answers that a scan can get. -/
theorem step_of_reply {e : Event} {r : Except RemoteFailure Unit} (h : s.reply? c e = some r) :
    (∃ forced, c.stage = .login forced ∧ e = .loginDone c.task r) ∨
      (∃ deadline x, c.stage = .fetch deadline ∧ e = .fetchDone c.task x) ∨
      (∃ deadline, c.stage = .fetch deadline ∧ s.overdue c ∧ e = .turn (.expire c.task)) := by
  unfold reply? at h
  split at h
  · rename_i forced task x hc
    split at h
    · rename_i ht
      exact Or.inl ⟨forced,hc,by rw [ht,Option.some.inj h]⟩
    · simp at h
  · rename_i deadline task x hc
    split at h
    · rename_i ht
      exact Or.inr (Or.inl ⟨deadline,x,hc,by rw [ht]⟩)
    · simp at h
  · rename_i deadline task hc
    split at h
    · rename_i ht
      exact Or.inr (Or.inr ⟨deadline,hc,ht.2,by rw [ht.1]⟩)
    · simp at h
  · simp at h

/-- What an event can be that is about a task with a scan and is no answer. -/
inductive Unasked (s : Service) (c : Scan) : Event → Prop
  | same {e : Event} (hstep : s.step e = s) : Unasked s c e
  | gate (hc : c.stage = .pacing) : Unasked s c (.gateOpen c.task)
  | entered {place : Option (Coordinate Float)} (hc : c.stage = .listing place)
      (hl : s.locked = false) : Unasked s c (.turn (.register c.task))
  | removed {reason : Retirement} {x : ScanFailure} (hc : c.stage = .delisting reason x)
      (hl : s.locked = false) : Unasked s c (.turn (.register c.task))
  | aborted : Unasked s c (.abort c.task)

theorem step_of_no_reply (hs : s.Tidy) (h : s.scan? c.task = some c) {e : Event}
    (ht : e.task s = some c.task) (hr : s.reply? c e = none) : s.Unasked c e := by
  have hnew (hn : some s.nextTask = some c.task) : False :=
    absurd (Option.some.inj hn) (hs.lt_nextTask h).ne'
  cases e with
  | turn turn =>
    cases turn with
    | poll task =>
      injection ht with ht
      subst ht
      exact .same (by simp only [step,take,poll,hs.waiter?_eq_none h])
    | expire task =>
      injection ht with ht
      subst ht
      have ho : s.overdue c = false := by
        cases hc : c.stage with
        | fetch deadline => simpa [reply?,hc] using hr
        | _ => simp only [overdue,hc]
      exact .same (by simp [step,take,onExpiry,h,ho])
    | register task =>
      injection ht with ht
      subst ht
      cases hl : s.locked with
      | true => exact .same (by simp [step,take,onRegister,h,hl])
      | false =>
        cases hc : c.stage with
        | listing place => exact .entered hc hl
        | delisting reason x => exact .removed hc hl
        | _ => exact .same (by simp [step,take,onRegister,h,hl,hc])
    | _ => simp [Event.task] at ht
  | loginDone task r =>
    injection ht with ht
    subst ht
    cases hc : c.stage with
    | login forced => simp [reply?,hc] at hr
    | _ => exact .same (by simp only [step,onLogin,h,hc])
  | gateOpen task =>
    injection ht with ht
    subst ht
    by_cases hc : c.stage = .pacing
    · exact .gate hc
    · exact .same (by simp only [step,onGate,h,hc,if_false])
  | fetchDone task r =>
    injection ht with ht
    subst ht
    cases hc : c.stage with
    | fetch deadline => simp [reply?,hc] at hr
    | _ => exact .same (by simp only [step,onFetch,h,hc])
  | abort task =>
    injection ht with ht
    exact ht ▸ .aborted
  | scan _ | request _ | acquire _ | checkout _ | drain | shutdown => exact (hnew ht).elim
  | _ => simp [Event.task] at ht

/-- Once the gate opens the scan goes on with its query. -/
theorem scan?_gateOpen (h : s.scan? c.task = some c) (hc : c.stage = .pacing) :
    (s.step (.gateOpen c.task)).scan? c.task =
      some { c with stage := .fetch (s.after s.settings.queryTimeout) } := by
  have hstep : s.step (.gateOpen c.task) = s.gateOpen c := by simp only [step,onGate,h,hc,if_true]
  rw [hstep]
  exact scan?_putScan (s := s.call c.task c.session .fetch)
    (c := { c with stage := .fetch (s.after s.settings.queryTimeout) }) h

/-! ### The course of a scan -/

def During (s : Service) (P : Service → Prop) (t : ℕ) : List Event → Prop
  | [] => True
  | e :: es => (e.task s = some t → P s) ∧ (s.step e).During P t es

/-- In a run no call of the store is to fail when something happens to a task. -/
def Calm (s : Service) (t : ℕ) (es : List Event) : Prop := s.During (·.store.Faultless) t es

/-- In a run the registry is free whenever something happens to a task. -/
def Unhindered (s : Service) (t : ℕ) (es : List Event) : Prop := s.During (·.locked = false) t es

/-- What the premises of a course say of a state. -/
structure Fits (sound free : Prop) (s : Service) : Prop where
  store : sound → s.store.Faultless
  registry : free → s.locked = false

theorem During.fits {sound free : Prop} {es : List Event} (hc : sound → s.Calm t es)
    (hu : free → s.Unhindered t es) : s.During (Fits sound free) t es := by
  induction es generalizing s with
  | nil => trivial
  | cons e es ih =>
    exact ⟨fun ht => ⟨fun hso => (hc hso).1 ht,fun hf => (hu hf).1 ht⟩,
      ih (fun hso => (hc hso).2) fun hf => (hu hf).2⟩

/-- Between two states a scan takes a course, and it is over if the session is given back. -/
def Takes (sound free : Prop) (c : Scan) (T : List Ask) (s r : Service) : Prop :=
  ∃ A, Course sound free c T A ∧ r.about c.task = A.reverse ++ s.about c.task ∧
    (r.scan? c.task = none ↔ ∃ session way, .handedBack c.task session way ∈ A)

def Follows (sound free : Prop) (es : List Event) (s : Service) (c : Scan) : Prop :=
  Takes sound free c (s.dialogue c.task es) s (s.run es)

def Withdraws (free : Prop) (reason : Retirement) (e : ScanFailure) (es : List Event)
    (s : Service) (c : Scan) (past : List Occurrence) : Prop :=
  s.dialogue c.task es = [] ∧ ∃ E, Leaving free c.task c.session reason e E ∧
    (s.run es).about c.task = E.reverse ++ past ∧
    ((s.run es).scan? c.task = none ↔ ∃ session way, .handedBack c.task session way ∈ E)

section Departing

variable {free : Prop} {reason : Retirement} {x : ScanFailure} {es : List Event}

theorem Gone.withdraws {E : List Occurrence} {past : List Occurrence}
    (h : s.Gone c.task) (hs : s.Tidy) (hE : Leaving free c.task c.session reason x E)
    (ha : s.about c.task = E.reverse ++ past)
    (ho : ∃ session way, .handedBack c.task session way ∈ E) :
    Withdraws free reason x es s c past := by
  have hr := h.run hs es
  exact ⟨hr.1,E,hE,hr.2.1.trans ha,iff_of_true hr.2.2.scan?_eq ho⟩

theorem withdraws_run (hs : s.Tidy) (h : s.scan? c.task = some c)
    (hc : c.stage = .delisting reason x) (hn : ¬ free) :
    Withdraws free reason x es s c (s.about c.task) := by
  have hp (u : Service) : u.pending c = [] := by
    rw [pending,hc]
    rfl
  induction es generalizing s with
  | nil =>
    refine ⟨by simp [dialogue,h,hp],[],.waits hn,rfl,?_⟩
    simp [Service.run,h]
  | cons e es ih =>
    have hr : s.reply? c e = none := by simp only [reply?,hc]
    have htidy := tidy_step hs e
    have hd : s.dialogue c.task (e :: es) = (s.step e).dialogue c.task es := by
      simp only [dialogue,h,hr,hp,List.nil_append,ite_self]
    have hstay (h' : (s.step e).scan? c.task = some c)
        (ha : (s.step e).about c.task = s.about c.task) : Withdraws free reason x (e :: es) s c
          (s.about c.task) := by
      have hrest := ih htidy h'
      rw [ha] at hrest
      unfold Withdraws
      rw [hd]
      exact hrest
    have hleave {E : List Occurrence} (hg : (s.step e).Gone c.task)
        (hE : Leaving free c.task c.session reason x E)
        (ha : (s.step e).about c.task = E.reverse ++ s.about c.task)
        (ho : ∃ session way, .handedBack c.task session way ∈ E) :
        Withdraws free reason x (e :: es) s c (s.about c.task) := by
      unfold Withdraws
      rw [hd]
      exact hg.withdraws htidy hE ha ho
    by_cases ht : e.task s = some c.task
    · cases step_of_no_reply hs h ht hr with
      | same hstep => exact hstay (by rw [hstep,h]) (by rw [hstep])
      | gate hg => simp [hc] at hg
      | entered hg => simp [hc] at hg
      | @removed reason' x' hg hl =>
        obtain ⟨rfl,rfl⟩ : reason = reason' ∧ x = x' := by simpa [hc] using hg
        have hstep := step_remove h hc hl
        refine hleave ?_ .retired ?_ ⟨c.session,.retired reason,by simp⟩
        · rw [hstep]
          exact hs.gone_retireNow h reason x
        · rw [hstep]
          exact about_retireNow s c reason x
      | aborted =>
        have hstep : s.step (.abort c.task) = s.abandon c := by simp only [step,abort,h]
        refine hleave ?_ (.aborted hn) ?_ ⟨c.session,.abandoned,by simp⟩
        · rw [hstep]
          exact hs.gone_abandon h
        · rw [hstep]
          exact about_abandon s c
    · have hl := leaves_step hs e ht
      exact hstay (hl.scan?.trans h) hl.about

theorem withdraws_finishRetired {d : Scan} (hs : s.Tidy) (h : s.scan? c.task = some d)
    (hf : free → s.locked = false) :
    Withdraws free reason x es (s.finishRetired c reason x) c (s.about c.task) := by
  have ht := (handles_finishRetired s c reason x).tidy hs
  unfold finishRetired at ht ⊢
  split at ht
  · rename_i hl
    rw [if_pos hl]
    have hn : ¬ free := fun hfree => by simp [hf hfree] at hl
    have hg := scan?_putScan (c := { c with stage := .delisting reason x }) h
    exact withdraws_run (c := { c with stage := .delisting reason x }) ht hg rfl hn
  · rename_i hl
    rw [if_neg hl]
    exact (hs.gone_retireNow h reason x).withdraws ht .retired (about_retireNow s c reason x)
      ⟨c.session,.retired reason,by simp⟩

end Departing

section Failing

variable {sound free : Prop} {es : List Event} {a : Ask} {cause : RemoteFailure}

theorem follows_gone {s' : Service} {A : List Occurrence} (hs : s'.Tidy) (hg : s'.Gone c.task)
    (ha : s'.about c.task = A.reverse ++ s.about c.task) (he : EndsWith sound free c a A)
    (ho : ∃ session way, .handedBack c.task session way ∈ A) (hm : sound → a.Marks) :
    Takes sound free c (a :: s'.dialogue c.task es) s (s'.run es) := by
  have hr := hg.run hs es
  refine ⟨A,by rw [hr.1]; exact .ends he hm,hr.2.1.trans ha,?_⟩
  exact iff_of_true hr.2.2.scan?_eq ho

theorem follows_withdraws {s' : Service} {c' : Scan} {reason : Retirement} {x : ScanFailure}
    (hd : Withdraws free reason x es s' c' (s.about c.task)) (ht : c'.task = c.task)
    (hσ : c'.session = c.session)
    (he : ∀ {E}, Leaving free c.task c.session reason x E → EndsWith sound free c a E)
    (hm : sound → a.Marks) : Takes sound free c (a :: s'.dialogue c.task es) s (s'.run es) := by
  obtain ⟨hT,E,hE,ha,ho⟩ := hd
  rw [ht] at hT ha ho
  rw [ht,hσ] at hE
  exact ⟨E,by rw [hT]; exact .ends (he hE) hm,ha,ho⟩

theorem follows_on {s' : Service} {c' : Scan} {N : List Occurrence}
    (hf : Follows sound free es s' c') (ht : c'.task = c.task)
    (hn : s'.about c.task = N.reverse ++ s.about c.task) (hg : GoesOn sound c a c' N)
    (hm : sound → a.Marks) : Takes sound free c (a :: s'.dialogue c.task es) s (s'.run es) := by
  obtain ⟨A,hA,hr,ho⟩ := hf
  rw [ht] at hA hr ho
  refine ⟨N ++ A,.goesOn hg hm hA,?_,?_⟩
  · rw [hr,hn,List.reverse_append,List.append_assoc]
  · rw [ho]
    cases hg <;> simp

variable (ih : ∀ {s' : Service} {d : Scan}, s'.Tidy → s'.scan? d.task = some d →
  d.stage.standing.leaves = false → s'.During (Fits sound free) d.task es →
  Follows sound free es s' d)

include ih

theorem follows_enlist {d : Scan} (hs : s.Tidy) (h : s.scan? d.task = some c)
    (hfit : (s.enlist d none).During (Fits sound free) d.task es) :
    ∃ A, Course sound free { d with stage := .listing none }
      ((s.enlist d none).dialogue d.task es) A ∧
      ((s.enlist d none).run es).about d.task = A.reverse ++ s.about d.task ∧
      (((s.enlist d none).run es).scan? d.task = none ↔
        ∃ session way, .handedBack d.task session way ∈ A) := by
  have htidy := (handles_enlist s d none).tidy hs
  unfold enlist at htidy hfit ⊢
  split at htidy
  · rename_i hl
    rw [if_pos hl] at hfit ⊢
    have hg := scan?_putScan (c := { d with stage := .listing none }) h
    exact ih (d := { d with stage := .listing none }) htidy hg rfl hfit
  · rename_i hl
    rw [if_neg hl] at hfit ⊢
    have hg := scan?_enlistNow (c := d) h none
    obtain ⟨A,hA,hr,ho⟩ := ih (d := { d with stage := .login false }) htidy hg rfl hfit
    refine ⟨_ :: A,.listed rfl hA,?_,?_⟩
    · refine hr.trans ?_
      rw [about_enlistNow,List.reverse_cons,List.append_assoc]
      rfl
    · refine ho.trans ?_
      simp

theorem follows_substitute {r : Service} {c' : Scan} (hr : r.Tidy) (h : r.scan? c'.task = some c)
    (hc' : c' = charged c cause) (hab : r.about c.task = s.about c.task) (ha : a.Fails c cause)
    (hb : a.before = r.store.roster) (hf : Fits sound free r) (hm : sound → a.Marks)
    (hd : (c.budget.decide cause.category).1 = .substituteEgress)
    (hfit : (r.substitute c').During (Fits sound free) c.task es) :
    Takes sound free c (a :: (r.substitute c').dialogue c.task es) s
      ((r.substitute c').run es) := by
  subst hc'
  have hkill (hso : sound) : (r.killEgress c.session).store.Faultless ∧
      (r.killEgress c.session).store.roster = a.before.kill c.session.egress.id :=
    ⟨(hf.store hso).onRoster,hb ▸ (hf.store hso).onRoster_roster⟩
  cases hcl : (r.killEgress (charged c cause).session).store.claimEgress with
  | mk st x =>
    have hr' : Tidy { r with store := st } := ⟨hr.fresh,hr.counted⟩
    cases x with
    | error x =>
      rw [substitute_error hcl] at hfit ⊢
      have hdep : Withdraws free .egressDead (.ofPool (.ofStore x)) es _ (charged c cause) _ :=
        withdraws_finishRetired (s := { r with store := st }) hr' h hf.registry
      have hab' : Service.about { r with store := st } c.task = s.about c.task := hab
      refine follows_withdraws (hab' ▸ hdep) rfl rfl (fun hE => .starved (x := x) ha hd ?_ hE) hm
      intro hso
      have hx := Store.claimEgress_refused hcl (hkill hso).1
      exact ⟨hx.1,(hkill hso).2 ▸ hx.2⟩
    | ok e =>
      rw [substitute_ok hcl] at hfit ⊢
      obtain ⟨A,hA,hrun,ho⟩ := follows_enlist ih
        (d := { charged c cause with session := c.session.through e }) hr' h hfit
      have hn : sound → (a.before.kill c.session.egress.id).nextEgress ≠ none := by
        intro hso
        rw [← (hkill hso).2]
        exact Roster.claimEgress_ok_next (Store.claimEgress_ok hcl)
      refine ⟨[] ++ A,.goesOn (.substituted ha hd hn) hm hA,?_,ho⟩
      exact hrun.trans (congrArg _ hab)

theorem follows_fail (hs : s.Tidy) (h : s.scan? c.task = some c) (ha : a.Fails c cause)
    (hb : a.before = s.store.roster) (hf : Fits sound free s) (hm : sound → a.Marks)
    (hfit : (s.fail c cause).During (Fits sound free) c.task es) :
    Takes sound free c (a :: (s.fail c cause).dialogue c.task es) s ((s.fail c cause).run es) := by
  have hst := sameTasks_reported s c cause
  have hr := hst.tidy hs
  have hab := hst.about c.task
  have hscan : (s.reported c cause).scan? (charged c cause).task = some c := by
    rw [scan?,hst.scans]
    exact h
  have hstore : (s.reported c cause).store = s.store := by rw [reported_eq]
  have hlock : (s.reported c cause).locked = s.locked := by rw [reported_eq]
  have htidy := (handles_fail s c cause).tidy hs
  rw [fail_eq] at htidy hfit ⊢
  cases hd : (c.budget.decide cause.category).1 with
  | substituteEgress =>
    simp only [hd] at htidy hfit ⊢
    exact follows_substitute ih hr hscan rfl hab ha (hstore ▸ hb)
      ⟨fun hso => hstore ▸ hf.store hso,fun hfree => hlock ▸ hf.registry hfree⟩ hm hd hfit
  | killEgress =>
    simp only [hd] at htidy hfit ⊢
    have hk : ((s.reported c cause).killEgress c.session).Tidy := ⟨hr.fresh,hr.counted⟩
    have hdep : Withdraws free .egressDead (.remote cause) es _ (charged c cause) _ :=
      withdraws_finishRetired hk hscan fun hfree => hlock.trans (hf.registry hfree)
    exact follows_withdraws (hab ▸ hdep) rfl rfl (fun hE => .condemned ha (by rw [hd]; rfl) hE) hm
  | banIdentity =>
    simp only [hd] at htidy hfit ⊢
    let b : Service := { s.reported c cause with store := (s.store.ban c.session.identity.name).1 }
    have hb' : b.Tidy := ⟨hr.fresh,hr.counted⟩
    have hdep : Withdraws free .identityBanned (.remote cause) es _ (charged c cause) _ :=
      withdraws_finishRetired hb' hscan fun hfree => hlock.trans (hf.registry hfree)
    exact follows_withdraws (hab ▸ hdep) rfl rfl (fun hE => .condemned ha (by rw [hd]; rfl) hE) hm
  | retryQuery =>
    simp only [hd] at htidy hfit ⊢
    have hq := ha.query
    cases hc : c.stage with
    | login forced =>
      simp only [hc] at htidy hfit ⊢
      have hg := scan?_startLogin (c := charged c cause) hscan false
      have hfol := ih (d := { charged c cause with stage := .login false }) htidy hg rfl hfit
      refine follows_on (N := [.called c.task (c.session.call (.login false))])
        hfol rfl ?_ (.loginRetried hc ha hd) hm
      exact (about_startLogin (s.reported c cause) (charged c cause) false).trans (congrArg _ hab)
    | fetch deadline =>
      simp only [hc] at htidy hfit ⊢
      have hg : (Service.putScan _ _).scan? c.task = some { charged c cause with
          stage := .pacing } :=
        scan?_putScan (c := { charged c cause with stage := .pacing }) hscan
      have hfol := ih (d := { charged c cause with stage := .pacing }) htidy hg rfl hfit
      exact follows_on (N := []) hfol rfl hab (.fetchRetried hc ha hd) hm
    | _ => simp [hc,Stage.query?] at hq
  | giveUp =>
    simp only [hd] at htidy hfit ⊢
    refine follows_gone htidy (hr.gone_finishReleased hscan _) ?_ (.givenUp ha (by rw [hd]; rfl))
      ⟨c.session,.released,by simp⟩ hm
    exact (about_finishReleased (s.reported c cause) (charged c cause) _).trans
      (congrArg _ (congrArg _ hab))

end Failing

section Answering

variable {sound free : Prop} {es : List Event}
  (ih : ∀ {s' : Service} {d : Scan}, s'.Tidy → s'.scan? d.task = some d →
    d.stage.standing.leaves = false → s'.During (Fits sound free) d.task es →
    Follows sound free es s' d)

include ih

theorem follows_failed {e : Event} {q : Query} {cause : RemoteFailure} (hs : s.Tidy)
    (h : s.scan? c.task = some c) (hq : c.stage.query? = some q)
    (hr : s.reply? c e = some (.error cause))
    (hf : ¬ (cause = .invalidAuthToken ∧ c.stage = .login false)) (he : s.step e = s.fail c cause)
    (hfit : s.During (Fits sound free) c.task (e :: es)) : Follows sound free (e :: es) s c := by
  have ht : e.task s = some c.task := by
    by_contra ht
    rw [reply?_eq_none ht] at hr
    exact Option.some_ne_none _ hr.symm
  have hq' : q = .login false → c.stage = .login false := by
    rintro rfl
    cases hc : c.stage with
    | login forced =>
      rw [hc] at hq
      injection hq with hq
      injection hq with hq
      rw [hq]
    | _ => simp [hc,Stage.query?] at hq
  have hm (hso : sound) :
      Ask.Marks ⟨c.session,q,some (.error cause),s.store.roster,(s.step e).store.roster⟩ := by
    have hfl := flags_fail ((hfit.1 ht).store hso) c cause
    have hn : ¬ (cause = .invalidAuthToken ∧ q = .login false) := fun hn => hf ⟨hn.1,hq' hn.2⟩
    rw [he]
    constructor
    · simpa [Ask.category?,Ask.failure?,hn] using hfl.1
    · simpa [Ask.category?,Ask.failure?,hn] using hfl.2
  unfold Follows
  rw [dialogue_reply h hq hr]
  rw [he] at hm ⊢
  show Takes sound free c _ s ((s.step e).run es)
  rw [he]
  exact follows_fail ih hs h ⟨⟨rfl,hq,rfl⟩,hf⟩ rfl (hfit.1 ht) hm (he ▸ hfit.2)

theorem follows_silent {e : Event} {d : Scan} {N : List Occurrence} (hs : s.Tidy)
    (h : s.scan? c.task = some c) (hr : s.reply? c e = none) (ht : d.task = c.task)
    (hst : d.stage.standing.leaves = false)
    (h' : (s.step e).scan? c.task = some d)
    (ha : (s.step e).about c.task = N.reverse ++ s.about c.task)
    (hc : ∀ T A, Course sound free d T A → Course sound free c T (N ++ A))
    (hN : ∀ session way, .handedBack c.task session way ∉ N)
    (hfit : s.During (Fits sound free) c.task (e :: es)) : Follows sound free (e :: es) s c := by
  rw [← ht] at h'
  obtain ⟨A,hA,hrun,ho⟩ := ih (tidy_step hs e) h' hst (ht ▸ hfit.2)
  rw [ht] at h' hA hrun ho
  unfold Follows
  rw [dialogue_silent h hr h']
  refine ⟨N ++ A,hc _ _ hA,?_,?_⟩
  · show ((s.step e).run es).about c.task = _
    rw [hrun,ha,List.reverse_append,List.append_assoc]
  · show ((s.step e).run es).scan? c.task = none ↔ _
    rw [ho]
    simp [hN]

theorem follows_untouched {e : Event} (hs : s.Tidy) (h : s.scan? c.task = some c)
    (hst : c.stage.standing.leaves = false) (hr : s.reply? c e = none)
    (hsc : (s.step e).scan? c.task = s.scan? c.task) (ha : (s.step e).about c.task = s.about c.task)
    (hfit : s.During (Fits sound free) c.task (e :: es)) : Follows sound free (e :: es) s c :=
  follows_silent ih (N := []) hs h hr rfl hst (hsc.trans h) ha (fun T A hT => hT) (by simp) hfit

theorem follows_login {forced : Bool} (hs : s.Tidy) (h : s.scan? c.task = some c)
    (hc : c.stage = .login forced) (r : Except RemoteFailure Unit)
    (hfit : s.During (Fits sound free) c.task (.loginDone c.task r :: es)) :
    Follows sound free (.loginDone c.task r :: es) s c := by
  have hq : c.stage.query? = some (.login forced) := by rw [hc]; rfl
  have hr : s.reply? c (.loginDone c.task r) = some r := by simp only [reply?,hc,if_true]
  have hstep : s.step (.loginDone c.task r) = s.loginDone c forced r := by
    simp only [step,onLogin,h,hc]
  have hsame {a : Ask} (ha : a.failure? = none) (hab : a.after = a.before) (_ : sound) : a.Marks :=
    Ask.marks_of_same ha hab
  have htidy := tidy_step hs (.loginDone c.task r)
  have hfit' := hfit.2
  cases r with
  | ok u =>
    unfold Follows
    rw [dialogue_reply h hq hr]
    have hg : (s.step (.loginDone c.task (.ok u))).scan? c.task = some
        { c with stage := .pacing } := by
      rw [hstep]
      exact scan?_putScan (c := { c with stage := .pacing }) h
    have hfol := ih (d := { c with stage := .pacing }) htidy hg rfl hfit'
    refine follows_on (s := s) (c := c) (N := []) hfol rfl ?_ (.loggedIn hc ⟨rfl,hq,rfl⟩)
      (hsame rfl ?_)
    · rw [hstep]
      rfl
    · rw [hstep]
      rfl
  | error cause =>
    by_cases hf : cause = .invalidAuthToken ∧ ¬ forced
    · obtain ⟨rfl,hforced⟩ := hf
      rw [Bool.not_eq_true] at hforced
      subst hforced
      have hst : s.step (.loginDone c.task (.error .invalidAuthToken)) = s.startLogin c true := by
        rw [hstep]
        rfl
      unfold Follows
      rw [dialogue_reply h hq hr]
      have hg := scan?_startLogin h true
      rw [← hst] at hg
      refine follows_on (N := [.called c.task (c.session.call (.login true))])
        (ih (d := { c with stage := .login true }) htidy hg rfl hfit') rfl ?_
        (.refused hc ⟨rfl,hq,rfl⟩) (hsame rfl ?_)
      · rw [hst]
        exact about_startLogin s c true
      · rw [hst]
        rfl
    · refine follows_failed ih hs h hq hr ?_ ?_ hfit
      · rw [hc]
        simpa using hf
      · rw [hstep,loginDone]
        exact if_neg hf

theorem follows_gate (hs : s.Tidy) (h : s.scan? c.task = some c) (hc : c.stage = .pacing)
    (hfit : s.During (Fits sound free) c.task (.gateOpen c.task :: es)) :
    Follows sound free (.gateOpen c.task :: es) s c := by
  have hr : s.reply? c (.gateOpen c.task) = none := by simp only [reply?,hc]
  have hstep : s.step (.gateOpen c.task) = s.gateOpen c := by simp only [step,onGate,h,hc,if_true]
  refine follows_silent ih (d := { c with stage := .fetch (s.after s.settings.queryTimeout) })
    (N := [.called c.task (c.session.call .fetch)]) hs h hr rfl rfl (scan?_gateOpen h hc) ?_
    (fun T A hT => .paced hc hT) (by simp) hfit
  rw [hstep]
  have hn := about_note s (.called c.task (c.session.call .fetch)) c.task
  rwa [if_pos (by simp [Occurrence.isOf,Session.call,RemoteAction.awaited])] at hn

theorem follows_register {place : Option (Coordinate Float)} (hs : s.Tidy)
    (h : s.scan? c.task = some c) (hc : c.stage = .listing place) (hl : s.locked = false)
    (hfit : s.During (Fits sound free) c.task (.turn (.register c.task) :: es)) :
    Follows sound free (.turn (.register c.task) :: es) s c := by
  have hr : s.reply? c (.turn (.register c.task)) = none := by simp only [reply?,hc]
  refine follows_silent ih (d := { c with stage := .login false })
    (N := [.called c.task (c.session.call (.login false))]) hs h hr rfl rfl
      (scan?_register h hc hl) ?_
    (fun T A hT => .listed hc hT) (by simp) hfit
  rw [step_register h hc hl]
  exact about_enlistNow s c place

theorem follows_fetch {deadline : ℕ} (hs : s.Tidy) (h : s.scan? c.task = some c)
    (hc : c.stage = .fetch deadline) (r : Except RemoteFailure MapResponse)
    (hfit : s.During (Fits sound free) c.task (.fetchDone c.task r :: es)) :
    Follows sound free (.fetchDone c.task r :: es) s c := by
  have hq : c.stage.query? = some .fetch := by rw [hc]; rfl
  have hr : s.reply? c (.fetchDone c.task r) = some (r.map fun _ => ()) := by
    simp only [reply?,hc,if_true]
  have hstep : s.step (.fetchDone c.task r) = s.fetchDone c r := by simp only [step,onFetch,h,hc]
  cases r with
  | ok response =>
    let s' : Service := { s with store := s.store.writeAll (response.objects s.clock) }
    have hst : s.step (.fetchDone c.task (.ok response)) =
      s'.finishReleased c (.ok (response.objects s.clock)) := hstep
    have hs' : s'.Tidy := ⟨hs.fresh,hs.counted⟩
    unfold Follows
    rw [dialogue_reply h hq hr]
    refine follows_gone (tidy_step hs _) ?_ ?_ (.fetched (response.objects s.clock) hc ⟨rfl,hq,rfl⟩)
      ⟨c.session,.released,by simp⟩ fun _ => Ask.marks_of_same rfl ?_
    · rw [hst]
      exact hs'.gone_finishReleased h _
    · rw [hst]
      exact about_finishReleased s' c _
    · rw [hst]
      exact (congrArg Store.roster (store_finishReleased s' c _)).trans
        (Store.sameRecords_writeAll _ _).roster
  | error cause =>
    refine follows_failed ih hs h hq hr ?_ hstep hfit
    rw [hc]
    simp

theorem follows_expire {deadline : ℕ} (hs : s.Tidy) (h : s.scan? c.task = some c)
    (hc : c.stage = .fetch deadline) (ho : s.overdue c)
    (hfit : s.During (Fits sound free) c.task (.turn (.expire c.task) :: es)) :
    Follows sound free (.turn (.expire c.task) :: es) s c := by
  have hstep : s.step (.turn (.expire c.task)) = s.expire c := by
    simp only [step,take,onExpiry,h,ho,if_true]
  refine follows_failed ih (q := .fetch) hs h (by rw [hc]; rfl) ?_ (by rw [hc]; simp) hstep hfit
  simp only [reply?,hc,ho,true_and,if_true]

end Answering

theorem follows_abort {sound free : Prop} (hs : s.Tidy) (h : s.scan? c.task = some c)
    (es : List Event) : Follows sound free (.abort c.task :: es) s c := by
  have hstep : s.step (.abort c.task) = s.abandon c := by simp only [step,abort,h]
  have hr : s.reply? c (.abort c.task) = none := by
    unfold reply?
    cases c.stage <;> rfl
  have htidy := tidy_step hs (.abort c.task)
  have hg : (s.step (.abort c.task)).Gone c.task := by
    rw [hstep]
    exact hs.gone_abandon h
  have hrun := hg.run htidy es
  refine ⟨[.handedBack c.task c.session .abandoned],?_,?_,?_⟩
  · simp only [dialogue,h,hr,hg.scan?_eq,Option.isSome_none,Bool.false_eq_true,if_false,hrun.1,
      List.append_nil]
    exact .abandoned s
  · refine hrun.2.1.trans ?_
    rw [hstep]
    exact about_abandon s c
  · refine iff_of_true hrun.2.2.scan?_eq ⟨c.session,.abandoned,?_⟩
    simp

/-- In any run a scan takes one of the courses, unless it is over but for the registry. -/
theorem follows_run {sound free : Prop} {es : List Event} (hs : s.Tidy)
    (h : s.scan? c.task = some c) (hst : c.stage.standing.leaves = false)
    (hfit : s.During (Fits sound free) c.task es) :
    Follows sound free es s c := by
  induction es generalizing s c with
  | nil =>
    refine ⟨[],?_,rfl,?_⟩
    · simp only [dialogue,h]
      exact .waiting s
    · simp [Service.run,h]
  | cons e es ih =>
    cases hr : s.reply? c e with
    | some r =>
      rcases step_of_reply hr with ⟨forced,hc,rfl⟩ | ⟨deadline,x,hc,rfl⟩ | ⟨deadline,hc,ho,rfl⟩
      · exact follows_login ih hs h hc r hfit
      · exact follows_fetch ih hs h hc x hfit
      · exact follows_expire ih hs h hc ho hfit
    | none =>
      by_cases ht : e.task s = some c.task
      · cases step_of_no_reply hs h ht hr with
        | same hstep => exact follows_untouched ih hs h hst hr (by rw [hstep]) (by rw [hstep]) hfit
        | gate hc => exact follows_gate ih hs h hc hfit
        | entered hc hl => exact follows_register ih hs h hc hl hfit
        | removed hc hl => simp [hc,Stage.standing,Standing.leaves] at hst
        | aborted => exact follows_abort hs h es
      · have hl := leaves_step hs e ht
        exact follows_untouched ih hs h hst hr hl.scan? hl.about hfit

/-- A scan marks nothing but on an answer, not even when it is aborted. -/
theorem flags_of_no_reply (hs : s.Tidy) (h : s.scan? c.task = some c)
    (hf : s.store.Faultless) {e : Event} (ht : e.task s = some c.task) (hr : s.reply? c e = none) :
    (s.step e).store.roster.deadFlags = s.store.roster.deadFlags ∧
      (s.step e).store.roster.bannedFlags = s.store.roster.bannedFlags := by
  cases step_of_no_reply hs h ht hr with
  | same hstep =>
    rw [hstep]
    exact ⟨rfl,rfl⟩
  | gate hc =>
    have hst : (s.step (.gateOpen c.task)).store = s.store := by
      simp only [step,onGate,h]
      split <;> rfl
    rw [hst]
    exact ⟨rfl,rfl⟩
  | @entered place hc hl =>
    have hst : (s.enlistNow c place).store = s.store := by
      cases place <;> rfl
    rw [step_register h hc hl,hst]
    exact ⟨rfl,rfl⟩
  | @removed reason x hc hl =>
    rw [step_remove h hc hl,store_retireNow]
    exact flags_spare hf c.session reason
  | aborted =>
    have hst : (s.step (.abort c.task)).store = c.session.freed s.store := by
      simp only [step,abort,h,abandon,delist]
      split <;> rfl
    have hi : (s.store.releaseIdentity c.session.identity.name).1.roster =
        s.store.roster.releaseIdentity c.session.identity.name := hf.onRoster_roster
    have he : (c.session.freed s.store).roster =
        (s.store.releaseIdentity c.session.identity.name).1.roster.releaseEgress
          c.session.egress.id :=
      (Store.Faultless.onRoster hf).onRoster_roster
    rw [hst,he,hi]
    exact ⟨Roster.deadFlags_updateEgress _ _ fun _ => ⟨rfl,rfl⟩,
      Roster.bannedFlags_updateIdentity _ _ fun _ => ⟨rfl,rfl⟩⟩

/-! ### The start of a scan -/

/-- A task that has had no session yet and can still get one. -/
structure Before (s : Service) (t : ℕ) : Prop where
  scan? : s.scan? t = none
  about : s.about t = []

/-- What becomes of it in a step: a scan with the whole budget ahead, nothing at all, or an end
without a session. -/
inductive Opens (t : ℕ) (s : Service) : Prop
  | begun (c : Scan) (place : Option (Coordinate Float)) (N : List Occurrence) (task : c.task = t)
      (budget : c.budget = .full) (enlisted : Enlisted c place N) (scan : s.scan? t = some c)
      (about : s.about t = N ++ [.obtained t c.session])
  | before (h : s.Before t)
  | ended (gone : s.Gone t) (about : ∀ session, .obtained t session ∉ s.about t)

theorem Before.same (h : s.Before t) {s' : Service} (hl : Leaves t s s') : Opens t s' :=
  .before ⟨hl.scan?.trans h.scan?,hl.about.trans h.about⟩

theorem Before.poll (h : s.Before t) (hs : s.Tidy) : Opens t (s.poll t) := by
  have hn (c : Scan) (hc : c ∈ s.scans) : c.task ≠ t := by
    have hf := List.find?_eq_none.mp h.scan? c hc
    simpa using hf
  rcases enters_poll hs t with he | ⟨⟨w,hw⟩,he⟩
  · rw [he]
    exact .before h
  · rcases he.scans with ⟨hsc,hab⟩ | ⟨c,place,N,hct,hb,hN,hsc,hab⟩
    · have hwt : w.task = t := by simpa using List.find?_some hw
      have hm : t ∈ s.pool.waiters.map (·.task) :=
        List.mem_map.mpr ⟨w,List.mem_of_find?_eq_some hw,hwt⟩
      refine .ended ⟨he.nextTask ▸ hs.fresh.lt t (List.mem_append_right _ hm),?_⟩ fun session ho =>
        ?_
      · rw [tasks,hsc,he.waiters,List.mem_append]
        rintro (hin | hin)
        · obtain ⟨c,hc,hct⟩ := List.mem_map.mp hin
          exact hn c hc hct
        · obtain ⟨v,hv,hvt⟩ := List.mem_map.mp hin
          simp [Pool.leave,hvt] at hv
      · have hin : .obtained t session ∈ s.about t := hab session ho
        rw [h.about] at hin
        simp at hin
    · refine .begun c place N hct hb hN ?_ ?_
      · have hf : s.scans.find? (·.task = t) = none := h.scan?
        rw [Service.scan?,hsc,List.find?_append,hf]
        simp [hct]
      · refine hab.trans ?_
        exact congrArg (N ++ ·) (congrArg _ h.about)

theorem Before.arrive (h : s.Before s.nextTask) (hs : s.Tidy) (purpose : Purpose) (wait : ℕ) :
    Opens s.nextTask (s.arrive purpose wait) := by
  have hb : Before { s with
      pool := s.pool.join ⟨s.nextTask,purpose,s.now,wait,
        if purpose.drains then none else some (s.after wait)⟩,
      nextTask := s.nextTask + 1 } s.nextTask := ⟨h.scan?,h.about⟩
  exact hb.poll (hs.join purpose s.now wait _)

theorem Before.step (h : s.Before t) (hs : s.Tidy) (e : Event) : Opens t (s.step e) := by
  by_cases ht : e.task s = some t
  · rcases step_of_no_scan h.scan? ht with hl | hp | ⟨rfl,purpose,wait,ha⟩
    · exact h.same hl
    · rw [hp]
      exact h.poll hs
    · rw [ha]
      exact h.arrive hs purpose wait
  · exact h.same (leaves_step hs e ht)

/-- A scan that was entered at once has the course of one that waited for that. -/
theorem Enlisted.course {sound free : Prop} {place : Option (Coordinate Float)}
    {N A : List Occurrence} {T : List Ask} (h : Enlisted c place N) (hA : Course sound free c T A) :
    Course sound free { c with stage := .listing place } T (N ++ A) := by
  obtain ⟨task,started,http,session,budget,stage⟩ := c
  cases h with
  | waits hc =>
    dsimp only at hc
    subst hc
    exact hA
  | asks hc =>
    dsimp only at hc
    subst hc
    exact .listed rfl hA

/-- In any run a task that obtains a session opens a scan with it, and the scan takes one of the
courses. -/
theorem Before.run {sound free : Prop} {es : List Event} {session : Session}
    (h : s.Before t) (hs : s.Tidy) (hfit : s.During (Fits sound free) t es)
    (ho : .obtained t session ∈ (s.run es).about t) :
    ∃ c place A, c.task = t ∧ c.session = session ∧ c.budget = .full ∧ c.stage = .listing place ∧
      Course sound free c (s.dialogue t es) A ∧
      (s.run es).about t = A.reverse ++ [.obtained t session] ∧
      ((s.run es).scan? t = none ↔ ∃ session way, .handedBack t session way ∈ A) := by
  induction es generalizing s with
  | nil =>
    have ho' : .obtained t session ∈ s.about t := ho
    rw [h.about] at ho'
    simp at ho'
  | cons e es ih =>
    have hd : s.dialogue t (e :: es) = (s.step e).dialogue t es := by simp only [dialogue,h.scan?]
    have htidy := tidy_step hs e
    rw [hd]
    cases h.step hs e with
    | before h' => exact ih h' htidy hfit.2 ho
    | ended hg ha => exact absurd ((hg.run htidy es).2.1 ▸ ho) (ha session)
    | begun c place N ht hb hN hsc hab =>
      subst ht
      have hst : c.stage.standing.leaves = false := by
        cases hN with
        | waits hc | asks hc => rw [hc]; rfl
      have hrev : N.reverse = N := by cases hN <;> rfl
      have hNo : .obtained c.task session ∉ N := by cases hN <;> simp
      have hNh : ∀ session way, .handedBack c.task session way ∉ N := by cases hN <;> simp
      obtain ⟨A,hA,hrun,hout⟩ := follows_run htidy hsc hst hfit.2
      have ho' : .obtained c.task session ∈ ((s.step e).run es).about c.task := ho
      rw [hrun,hab] at ho'
      have hc : session = c.session := by simpa [hA.not_obtained,hNo] using ho'
      subst hc
      refine ⟨{ c with stage := .listing place },place,N ++ A,rfl,rfl,hb,rfl,hN.course hA,?_,?_⟩
      · refine hrun.trans ?_
        rw [hab,List.reverse_append,hrev,List.append_assoc]
      · refine hout.trans ?_
        simp [hNh]

end Service

end ScanService
