import ScanService.Proofs.Tasks
/-! What every step does to the tasks: it keeps the numbers distinct, and leaves alone all tasks but
the one it is about. -/
namespace ScanService

namespace Service

theorem Tidy.join {s : Service} (hs : s.Tidy) (purpose : Purpose) (since wait : ℕ)
    (deadline : Option ℕ) :
    Tidy { s with
      pool := s.pool.join ⟨s.nextTask,purpose,since,wait,deadline⟩, nextTask :=
        s.nextTask + 1 } := by
  have hp : (s.scans.map (·.task) ++ (s.pool.waiters.map (·.task) ++ [s.nextTask])).Perm
      (s.nextTask :: s.tasks) := by
    rw [← List.append_assoc]
    exact List.perm_append_singleton _ _
  refine ⟨?_,hs.counted⟩
  simp only [tasks,Pool.join,List.map_append,List.map_cons,List.map_nil]
  rw [Multiset.coe_eq_coe.mpr hp]
  exact hs.fresh.cons

theorem tidy_arrive {s : Service} (hs : s.Tidy) (purpose : Purpose) (wait : ℕ) :
    (s.arrive purpose wait).Tidy :=
  tidy_poll (hs.join purpose s.now wait _) s.nextTask

theorem handle_eq (s : Service) (d : Demand) :
    (s.handle d).1 = { s with
      store := (s.handle d).1.store, history := (s.handle d).1.history } := by
  cases d with
  | cached place kinds =>
    simp only [handle,answerCached]
    split <;> rfl
  | status given =>
    simp only [handle]
    split <;> rfl
  | stats given =>
    simp only [handle,answerStats]
    split
    · split
      · rfl
      · split <;> rfl
    · rfl
  | _ => rfl

/-- An answer is measured at most. -/
theorem history_handle (s : Service) (d : Demand) : (s.handle d).1.history = s.history ∨
    ∃ endpoint status seconds, (s.handle d).1.history =
      ⟨s.now,.observed (.request endpoint status seconds)⟩ :: s.history := by
  cases d with
  | refusal route text => exact Or.inr ⟨_,_,_,rfl⟩
  | cached place kinds =>
    simp only [handle,answerCached]
    split <;> exact Or.inr ⟨_,_,_,rfl⟩
  | status given =>
    simp only [handle]
    split <;> exact Or.inl rfl
  | stats given =>
    simp only [handle,answerStats]
    split
    · split
      · exact Or.inl rfl
      · split <;> exact Or.inl rfl
    · exact Or.inl rfl
  | _ => exact Or.inl rfl

theorem tidy_request {s : Service} (hs : s.Tidy) (r : Http.Request) : (s.request r).Tidy := by
  unfold request
  split
  · exact tidy_arrive hs _ _
  · dsimp only
    rw [handle_eq]
    exact ⟨hs.fresh.succ,hs.counted⟩

theorem tidy_abort {s : Service} (hs : s.Tidy) (t : ℕ) : (s.abort t).Tidy := by
  unfold abort
  split
  · exact (handles_abandon s _).tidy hs
  · split
    · have hl : ((s.pool.leave t).waiters.map (·.task)).Sublist (s.pool.waiters.map (·.task)) :=
        List.filter_sublist.map _
      exact ⟨hs.fresh.of_le (Multiset.coe_le.mpr ((List.Sublist.refl _).append hl).subperm),
        hs.counted⟩
    · exact ⟨hs.fresh,hs.counted⟩

theorem sameTasks_wake (s : Service) (serial : ℕ) : SameTasks s (s.wake serial) := by
  have hp : (s.pool.wake serial).waiters = s.pool.waiters ∧
      (s.pool.Counted → (s.pool.wake serial).Counted) := by
    unfold Pool.wake
    split
    · exact ⟨rfl,id⟩
    · dsimp only
      split
      all_goals
        refine ⟨rfl,?_⟩
        simp only [Pool.Counted,List.length_append,List.length_singleton]
        omega
  unfold wake
  dsimp only
  split <;> exact ⟨hp.1,hp.2,rfl,rfl,fun _ => rfl⟩

theorem sameTasks_enter (s : Service) : SameTasks s s.enter := by
  have hp : s.pool.enter.waiters = s.pool.waiters ∧ (s.pool.Counted → s.pool.enter.Counted) := by
    unfold Pool.enter
    split
    · exact ⟨rfl,id⟩
    · rename_i session later he
      split
      · refine ⟨rfl,?_⟩
        simp only [Pool.Counted,he,List.length_append,List.length_cons,List.length_nil]
        omega
      · exact ⟨rfl,id⟩
  unfold enter
  dsimp only
  split <;> exact ⟨hp.1,hp.2,rfl,rfl,fun _ => rfl⟩

/-- What a step does with the scan of a task, whichever task it is about. -/
theorem handles_onLogin (s : Service) (t : ℕ) (r : Except RemoteFailure Unit) :
    s.onLogin t r = s ∨ Handles t s (s.onLogin t r) := by
  unfold onLogin
  split
  · exact Or.inl rfl
  · rename_i c hc
    rw [← scan?_task hc]
    split
    · exact Or.inr (handles_loginDone s c _ r)
    · exact Or.inl rfl

theorem handles_onGate (s : Service) (t : ℕ) : s.onGate t = s ∨ Handles t s (s.onGate t) := by
  unfold onGate
  split
  · exact Or.inl rfl
  · rename_i c hc
    rw [← scan?_task hc]
    split
    · exact Or.inr (handles_gateOpen s c)
    · exact Or.inl rfl

theorem handles_onFetch (s : Service) (t : ℕ) (r : Except RemoteFailure MapResponse) :
    s.onFetch t r = s ∨ Handles t s (s.onFetch t r) := by
  unfold onFetch
  split
  · exact Or.inl rfl
  · rename_i c hc
    rw [← scan?_task hc]
    split
    · exact Or.inr (handles_fetchDone s c r)
    · exact Or.inl rfl

theorem handles_onExpiry (s : Service) (t : ℕ) : s.onExpiry t = s ∨ Handles t s (s.onExpiry t) := by
  unfold onExpiry
  split
  · exact Or.inl rfl
  · rename_i c hc
    rw [← scan?_task hc]
    split
    · exact Or.inr (handles_fail s c _)
    · exact Or.inl rfl

theorem handles_onRegister (s : Service) (t : ℕ) :
    s.onRegister t = s ∨ Handles t s (s.onRegister t) := by
  unfold onRegister
  split
  · exact Or.inl rfl
  · rename_i c hc
    rw [← scan?_task hc]
    split
    · exact Or.inl rfl
    · split
      · exact Or.inr (handles_enlistNow s c _)
      · exact Or.inr (handles_retireNow s c _ _)
      · exact Or.inl rfl

theorem sameTasks_onForget (s : Service) (account : String) : SameTasks s (s.onForget account) := by
  unfold onForget
  split <;> exact ⟨rfl,id,rfl,rfl,fun _ => rfl⟩

theorem sameTasks_onClear (s : Service) (t : ℕ) : SameTasks s (s.onClear t) := by
  unfold onClear
  split
  · exact ⟨rfl,id,rfl,rfl,fun _ => rfl⟩
  · split <;> exact ⟨rfl,id,rfl,rfl,fun _ => rfl⟩

theorem sameTasks_unlock (s : Service) : SameTasks s { s with locked := false } :=
  ⟨rfl,id,rfl,rfl,fun _ => rfl⟩

theorem tidy_or {s s' : Service} {t : ℕ} (hs : s.Tidy) (h : s' = s ∨ Handles t s s') :
    s'.Tidy := by
  rcases h with rfl | h
  · exact hs
  · exact h.tidy hs

theorem tidy_take {s : Service} (hs : s.Tidy) (t : Turn) : (s.take t).Tidy := by
  cases t with
  | poll task => exact tidy_poll hs task
  | wake serial =>
    simp only [take,onWake]
    split
    · exact (sameTasks_wake s serial).tidy hs
    · exact hs
  | enter => exact (sameTasks_enter s).tidy hs
  | expire task => exact tidy_or hs (handles_onExpiry s task)
  | register task => exact tidy_or hs (handles_onRegister s task)
  | forget account => exact (sameTasks_onForget s account).tidy hs
  | clear task => exact (sameTasks_onClear s task).tidy hs
  | unlock => exact (sameTasks_unlock s).tidy hs

theorem tidy_construct {s : Service} (hs : s.Tidy) : s.constructHeld.1.Tidy := by
  have hn : Tidy { s with nextTask := s.nextTask + 1 } := ⟨hs.fresh.succ,hs.counted⟩
  have hc := (sameTasks_construct { s with nextTask := s.nextTask + 1 } s.nextTask).tidy hn
  unfold constructHeld
  cases hx : construct { s with nextTask := s.nextTask + 1 } s.nextTask with
  | mk s' x =>
    rw [hx] at hc
    cases x with
    | error e => exact hc
    | ok session => exact ⟨hc.fresh,hc.counted⟩

theorem sameTasks_retireHeld (s : Service) (serial : ℕ) (reason : Retirement) :
    SameTasks s (s.retireHeld serial reason).1 := by
  unfold retireHeld
  cases s.held? serial with
  | none => exact ⟨rfl,id,rfl,rfl,fun _ => rfl⟩
  | some h =>
    have hr : SameTasks s ((s.letGo serial).retire h reason).1 := ⟨rfl,id,rfl,rfl,fun _ => rfl⟩
    dsimp only
    split <;> simpa [*] using hr

theorem sameTasks_replaceHeld (s : Service) (serial : ℕ) :
    SameTasks s (s.replaceHeld serial).1 := by
  unfold replaceHeld replaceEgress
  cases s.held? serial with
  | none => exact ⟨rfl,id,rfl,rfl,fun _ => rfl⟩
  | some h =>
    cases s.store.claimEgress with
    | mk st x => cases x <;> exact ⟨rfl,id,rfl,rfl,fun _ => rfl⟩

/-- Any event keeps the task numbers distinct and the count of the parked sessions right. -/
theorem tidy_step {s : Service} (hs : s.Tidy) (e : Event) : (s.step e).Tidy := by
  cases e with
  | turn t => exact tidy_take hs t
  | scan place => exact tidy_arrive hs _ _
  | request r => exact tidy_request hs r
  | acquire wait => exact tidy_arrive hs _ _
  | checkout wait => exact tidy_arrive hs _ _
  | drain => exact tidy_arrive hs _ _
  | shutdown => exact tidy_arrive hs _ _
  | construct => exact tidy_construct hs
  | release serial cooldown =>
    simp only [step,releaseHeld]
    split
    · exact hs
    · exact ⟨hs.fresh,hs.counted⟩
  | retire serial reason => exact (sameTasks_retireHeld s serial reason).tidy hs
  | replaceEgress serial => exact (sameTasks_replaceHeld s serial).tidy hs
  | loginDone task r => exact tidy_or hs (handles_onLogin s task r)
  | gateOpen task => exact tidy_or hs (handles_onGate s task)
  | fetchDone task r => exact tidy_or hs (handles_onFetch s task r)
  | abort task => exact tidy_abort hs task
  | purge =>
    simp only [step,purge]
    split <;> exact ⟨hs.fresh,hs.counted⟩
  | _ => exact ⟨hs.fresh,hs.counted⟩

theorem tidy_fresh (settings : Settings) (store : Store) (pool : Pool) (clock : ℤ)
    (h : pool.waiters = []) (hc : pool.Counted) : (fresh settings store pool clock).Tidy := by
  refine ⟨?_,hc⟩
  simpa [tasks,Service.fresh,h] using Fresh.zero 0

theorem run_append (s : Service) (es fs : List Event) : s.run (es ++ fs) = (s.run es).run fs :=
  List.foldl_append

theorem tidy_run {s : Service} (hs : s.Tidy) (es : List Event) : (s.run es).Tidy := by
  induction es generalizing s with
  | nil => exact hs
  | cons e es ih => exact ih (tidy_step hs e)

/-! ### Leaving the other tasks alone -/

/-- A step leaves a task alone: its scan stays as it is, and so does its course, and it does not
come back. -/
structure Leaves (t : ℕ) (s s' : Service) : Prop where
  scan? : s'.scan? t = s.scan? t
  about : s'.about t = s.about t
  tasks : t ∈ s'.tasks → t ∈ s.tasks
  nextTask : s.nextTask ≤ s'.nextTask

theorem Leaves.refl (t : ℕ) (s : Service) : Leaves t s s := ⟨rfl,rfl,id,le_rfl⟩

theorem Leaves.trans {t : ℕ} {s s' s'' : Service} (h : Leaves t s s') (h' : Leaves t s' s'') :
    Leaves t s s'' :=
  ⟨h'.scan?.trans h.scan?,h'.about.trans h.about,fun ht => h.tasks (h'.tasks ht),
    h.nextTask.trans h'.nextTask⟩

theorem SameTasks.leaves {s s' : Service} (h : SameTasks s s') (t : ℕ) : Leaves t s s' := by
  refine ⟨?_,h.about t,?_,h.nextTask.ge⟩
  · rw [Service.scan?,h.scans,Service.scan?]
  · rw [Service.tasks,h.scans,h.waiters]
    exact id

theorem Handles.leaves {task t : ℕ} {s s' : Service} (h : Handles task s s') (ht : t ≠ task) :
    Leaves t s s' := by
  refine ⟨h.scan?_ne ht,h.about t ht,?_,h.nextTask.ge⟩
  intro hm
  rw [Service.tasks,h.waiters] at hm
  exact (h.sublist_scans.append (List.Sublist.refl _)).subset hm

theorem Enters.leaves {task t : ℕ} {s s' : Service} (h : Enters task s s') (ht : t ≠ task) :
    Leaves t s s' := by
  rcases h.scans with ⟨hs,_⟩ | ⟨c,_,_,rfl,_,_,hs,_⟩
  · refine ⟨?_,h.about t ht,?_,h.nextTask.ge⟩
    · rw [Service.scan?,hs,Service.scan?]
    · rw [Service.tasks,hs,h.waiters]
      exact id
  · refine ⟨?_,h.about t ht,?_,h.nextTask.ge⟩
    · rw [Service.scan?,hs,List.find?_append]
      simp [Service.scan?,ht.symm]
    · rw [Service.tasks,hs,h.waiters]
      simp only [Service.tasks,List.map_append,List.mem_append,List.map_cons,List.map_nil,
        List.mem_singleton]
      rintro ((hm | hm) | hm)
      · exact Or.inl hm
      · exact absurd hm ht
      · exact Or.inr hm

theorem leaves_leave (s : Service) (t task : ℕ) :
    Leaves t s { s with pool := s.pool.leave task } := by
  refine ⟨rfl,rfl,?_,le_rfl⟩
  intro hm
  exact ((List.Sublist.refl _).append (List.filter_sublist.map _)).subset hm

theorem leaves_poll {s : Service} (hs : s.Tidy) {t task : ℕ} (ht : t ≠ task) :
    Leaves t s (s.poll task) := by
  rcases enters_poll hs task with he | ⟨_,he⟩
  · rw [he]
    exact Leaves.refl t s
  · exact (leaves_leave s t task).trans (he.leaves ht)

theorem leaves_arrive {s : Service} (hs : s.Tidy) {t : ℕ} (ht : t ≠ s.nextTask) (purpose : Purpose)
    (wait : ℕ) : Leaves t s (s.arrive purpose wait) := by
  let deadline := if purpose.drains then none else some (s.after wait)
  have hj : Leaves t s { s with
      pool := s.pool.join ⟨s.nextTask,purpose,s.now,wait,deadline⟩, nextTask :=
        s.nextTask + 1 } := by
    refine ⟨rfl,rfl,?_,Nat.le_succ _⟩
    simp only [Service.tasks,Pool.join,List.map_append,List.mem_append,List.map_cons,List.map_nil,
      List.mem_singleton]
    rintro (hm | hm | hm)
    · exact Or.inl hm
    · exact Or.inr hm
    · exact absurd hm ht
  exact hj.trans (leaves_poll (hs.join purpose s.now wait deadline) ht)

theorem about_handle (s : Service) (d : Demand) (t : ℕ) : (s.handle d).1.about t = s.about t := by
  cases d with
  | cached place kinds =>
    simp only [handle,answerCached]
    split <;> rfl
  | status given =>
    simp only [handle]
    split <;> rfl
  | stats given =>
    simp only [handle,answerStats]
    split
    · split
      · rfl
      · split <;> rfl
    · rfl
  | _ => rfl

theorem leaves_request {s : Service} (hs : s.Tidy) {t : ℕ} (ht : t ≠ s.nextTask)
    (r : Http.Request) : Leaves t s (s.request r) := by
  unfold request
  split
  · exact leaves_arrive hs ht _ _
  · have ha := about_handle s (Demand.ofRequest r) t
    have hh := handle_eq s (Demand.ofRequest r)
    refine ⟨?_,ha,?_,?_⟩
    · dsimp only
      rw [hh]
      rfl
    · dsimp only
      rw [hh]
      exact id
    · exact Nat.le_succ _

theorem leaves_construct (s : Service) (t : ℕ) : Leaves t s s.constructHeld.1 := by
  let s' : Service := { s with nextTask := s.nextTask + 1 }
  have hs' : Leaves t s s' := ⟨rfl,rfl,id,Nat.le_succ _⟩
  have hc := hs'.trans ((sameTasks_construct s' s.nextTask).leaves t)
  unfold constructHeld
  cases hx : s'.construct s.nextTask with
  | mk s'' x =>
    rw [hx] at hc
    cases x with
    | error e => simpa only [s',hx] using hc
    | ok session => simpa only [s',hx] using ⟨hc.scan?,hc.about,hc.tasks,hc.nextTask⟩

theorem leaves_or {s s' : Service} {t task : ℕ} (h : s' = s ∨ Handles task s s') (ht : t ≠ task) :
    Leaves t s s' := by
  rcases h with rfl | h
  · exact Leaves.refl t _
  · exact h.leaves ht

end Service

/-- The task that an event is about: the one that it names, or the new one that it brings. -/
def Event.task (s : Service) : Event → Option ℕ
  | turn (.poll t) | turn (.expire t) | turn (.register t) | loginDone t _ | gateOpen t
  | fetchDone t _ | abort t => some t
  | scan _ | request _ | acquire _ | checkout _ | drain | shutdown => some s.nextTask
  | _ => none

namespace Service

/-- A step leaves alone all tasks but the one it is about. -/
theorem leaves_step {s : Service} (hs : s.Tidy) (e : Event) {t : ℕ} (ht : e.task s ≠ some t) :
    Leaves t s (s.step e) := by
  have hne {task : ℕ} (h : some task ≠ some t) : t ≠ task := fun he => h (he ▸ rfl)
  cases e with
  | turn turn =>
    cases turn with
    | poll task => exact leaves_poll hs (hne ht)
    | wake serial =>
      simp only [step,take,onWake]
      split
      · exact (sameTasks_wake s serial).leaves t
      · exact Leaves.refl t s
    | enter => exact (sameTasks_enter s).leaves t
    | expire task => exact leaves_or (handles_onExpiry s task) (hne ht)
    | register task => exact leaves_or (handles_onRegister s task) (hne ht)
    | forget account => exact (sameTasks_onForget s account).leaves t
    | clear task => exact (sameTasks_onClear s task).leaves t
    | unlock => exact (sameTasks_unlock s).leaves t
  | scan place => exact leaves_arrive hs (hne ht) _ _
  | request r => exact leaves_request hs (hne ht) r
  | acquire wait => exact leaves_arrive hs (hne ht) _ _
  | checkout wait => exact leaves_arrive hs (hne ht) _ _
  | drain => exact leaves_arrive hs (hne ht) _ _
  | shutdown => exact leaves_arrive hs (hne ht) _ _
  | construct => exact leaves_construct s t
  | release serial cooldown =>
    simp only [step,releaseHeld]
    split
    · exact Leaves.refl t s
    · exact ⟨rfl,rfl,id,le_rfl⟩
  | retire serial reason => exact (sameTasks_retireHeld s serial reason).leaves t
  | replaceEgress serial => exact (sameTasks_replaceHeld s serial).leaves t
  | loginDone task r => exact leaves_or (handles_onLogin s task r) (hne ht)
  | gateOpen task => exact leaves_or (handles_onGate s task) (hne ht)
  | fetchDone task r => exact leaves_or (handles_onFetch s task r) (hne ht)
  | abort task =>
    simp only [step,abort]
    split
    · rename_i c hc
      exact (handles_abandon s c).leaves (scan?_task hc ▸ hne ht)
    · split
      · exact leaves_leave s t task
      · exact ⟨rfl,rfl,id,le_rfl⟩
  | purge =>
    simp only [step,purge]
    split <;> exact ⟨rfl,rfl,id,le_rfl⟩
  | _ => exact ⟨rfl,rfl,id,le_rfl⟩

end Service

end ScanService
