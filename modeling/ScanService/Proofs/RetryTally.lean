import ScanService.Proofs.Acts
import ScanService.Proofs.DialogueRuns
import ScanService.Proofs.RetryCourse
/-! What is counted of the retries. What a run measures is told apart by the tasks that its steps
are about; for each task there is one retry at most of each of the two categories that are retried,
and only while it has a scan. -/
namespace ScanService

def Observation.retried? : Observation → Option String
  | retry category => some category
  | _ => none

theorem Observation.retried?_eq_some {x : Observation} {l : String} (h : x.retried? = some l) :
    x = .retry l := by
  cases x with
  | retry category => exact congrArg retry (Option.some.inj h)
  | _ => exact absurd h (by simp [retried?])

def Occurrence.observed? : Occurrence → Option Observation
  | observed x => some x
  | _ => none

@[simp] def Occurrence.retried? : Occurrence → Option String
  | observed (.retry category) => some category
  | _ => none

theorem Occurrence.observed?_bind_retried? (o : Occurrence) :
    o.observed?.bind Observation.retried? = o.retried? := by
  cases o with
  | observed x => cases x <;> rfl
  | _ => rfl

theorem Occurrence.retried?_of_plain {o : Occurrence} (h : o.plain = true) : o.retried? = none := by
  cases o with
  | observed x => cases x <;> simp_all [plain]
  | _ => rfl

def retryLabels (N : List Occurrence) : List String := N.filterMap Occurrence.retried?

theorem retryLabels_append (M N : List Occurrence) :
    retryLabels (M ++ N) = retryLabels M ++ retryLabels N :=
  List.filterMap_append

theorem retryLabels_eq_nil {N : List Occurrence} (hN : ∀ o ∈ N, o.retried? = none) :
    retryLabels N = [] :=
  List.filterMap_eq_nil_iff.mpr hN

theorem Category.label_inj {j k : Category} (h : j.label = k.label) : j = k := by
  have hj := Category.ofLabel?_label j
  rw [h,Category.ofLabel?_label] at hj
  exact (Option.some.inj hj).symm

theorem RetryBudget.decide_of_final {b : RetryBudget} {k : Category}
    (h : (b.decide k).1.retries = false) : (b.decide k).2 = b := by
  revert h
  rcases b with ⟨x,y⟩
  cases k <;> cases x <;> cases y <;> decide

namespace Charges

variable {c : Scan} {b : RetryBudget} {N : List Occurrence}

/-- The budget pays for the retries that are counted. -/
theorem count (h : Charges c b N) (k : Category) :
    (retryLabels N).count k.label + c.budget.spent k = b.spent k := by
  cases h with
  | nothing => simp [retryLabels]
  | @retry cause hr =>
    have hN : retryLabels [.observed (.retry cause.category.label),.failed c.task c.session cause] =
        [cause.category.label] := rfl
    rw [hN,RetryBudget.spent_decide hr,List.count_singleton,Nat.add_comm]
    by_cases hk : cause.category = k
    · simp [hk]
    · have hl : cause.category.label ≠ k.label := fun he => hk (Category.label_inj he)
      simp [hk,hl]
  | @final cause hr =>
    have hN : retryLabels [.failed c.task c.session cause] = [] := rfl
    rw [hN,RetryBudget.decide_of_final hr,List.count_nil,Nat.zero_add]

theorem retried (h : Charges c b N) {l : String} (hl : l ∈ retryLabels N) :
    ∃ k : Category, k.retried = true ∧ l = k.label := by
  cases h with
  | nothing => simp [retryLabels] at hl
  | @retry cause hr =>
    have he : l = cause.category.label := by simpa [retryLabels] using hl
    exact ⟨_,(RetryBudget.retries_iff.mp hr).1,he⟩
  | final => simp [retryLabels] at hl

end Charges

namespace Service

variable {s s' : Service} {c : Scan} {t : ℕ}

def spent (s : Service) (t : ℕ) (k : Category) : ℕ := (s.scan? t).elim 0 fun c => c.budget.spent k

theorem spent_of_scan (h : s.scan? t = some c) (k : Category) : s.spent t k = c.budget.spent k := by
  simp [spent,h]

theorem spent_of_none (h : s.scan? t = none) (k : Category) : s.spent t k = 0 := by
  simp [spent,h]

theorem spent_le (s : Service) (t : ℕ) (k : Category) :
    s.spent t k ≤ if k.retried then 1 else 0 := by
  cases h : s.scan? t with
  | none => simp [spent_of_none h]
  | some c =>
    rw [spent_of_scan h]
    exact c.budget.spent_le k

/-- What a step notes, and the retries that are counted in it: only for the scan of the task that
the step is about, which either pays for them or is over. -/
structure Tally (s : Service) (about : Option ℕ) (s' : Service) (N : List Occurrence) : Prop where
  noted : s'.occurrences = N ++ s.occurrences
  labels : ∀ l ∈ retryLabels N, ∃ t, about = some t ∧ (s.scan? t).isSome = true ∧
    ∃ k : Category, k.retried = true ∧ l = k.label
  paid : ∀ t, about = some t →
    (∀ k : Category, (retryLabels N).count k.label + s.spent t k = s'.spent t k) ∨
    (s'.Gone t ∧ ∀ k : Category, (retryLabels N).count k.label + s.spent t k ≤ if k.retried
      then 1 else 0)

theorem tally_of_none {about : Option ℕ} {N : List Occurrence}
    (ho : s'.occurrences = N ++ s.occurrences) (hN : retryLabels N = [])
    (hs : ∀ t, about = some t → ∀ k, s'.spent t k = s.spent t k) : Tally s about s' N :=
  ⟨ho,by simp [hN],fun t ht => Or.inl fun k => by simp [hN,hs t ht k]⟩

theorem Aside.tally (h : Aside s s') (about : Option ℕ) : ∃ N, Tally s about s' N := by
  obtain ⟨N,ho,hN⟩ := h.noted
  have hn : retryLabels N = [] := by
    apply retryLabels_eq_nil
    intro o hm
    rcases hN o hm with hp | ⟨σ,rfl⟩ | ⟨u,σ,_,a,rfl⟩
    · exact Occurrence.retried?_of_plain hp
    · rfl
    · rfl
  exact ⟨N,tally_of_none ho hn fun t _ k => by simp only [spent,scan?,h.scans]⟩

theorem tally_of_charges {b : RetryBudget} {M N : List Occurrence} (hc : s.scan? c.task = some c)
    (hN : Charges c b N) (ho : s'.occurrences = M ++ (N ++ s.occurrences))
    (hM : ∀ o ∈ M, o.retried? = none) (hs : (∃ d, s'.scan? c.task = some d ∧ d.budget = b) ∨
      s'.Gone c.task) :
    Tally s (some c.task) s' (M ++ N) := by
  have hl : retryLabels (M ++ N) = retryLabels N := by
    rw [retryLabels_append,retryLabels_eq_nil hM,List.nil_append]
  refine ⟨by rw [ho,List.append_assoc],fun l hm => ?_,fun t ht => ?_⟩
  · rw [hl] at hm
    exact ⟨c.task,rfl,by simp [hc],hN.retried hm⟩
  · obtain rfl := Option.some.inj ht
    rw [hl]
    rcases hs with ⟨d,hd,rfl⟩ | hg
    · refine Or.inl fun k => ?_
      rw [spent_of_scan hc,spent_of_scan hd]
      exact hN.count k
    · refine Or.inr ⟨hg,fun k => ?_⟩
      rw [spent_of_scan hc,hN.count]
      exact b.spent_le k

theorem Ready.scan?_putScan {s₁ : Service} {c₁ : Scan} (h : Ready s c s₁ c₁)
    (hc : s.scan? c.task = some c) : (s₁.putScan c₁).scan? c.task = some c₁ := by
  have hd : s₁.scan? c₁.task = some c := by
    rw [scan?,h.scans,h.task]
    exact hc
  rw [← h.task]
  exact Service.scan?_putScan hd

theorem Ready.scan?_asked {s₁ : Service} {c₁ : Scan} (h : Ready s c s₁ c₁)
    (hc : s.scan? c.task = some c) (as : List RemoteAction) (stage : Stage) :
    ((s₁.calls c₁ as).putScan { c₁ with stage }).scan? c.task = some { c₁ with stage } := by
  have hd : (s₁.calls c₁ as).scan? c₁.task = some c := by
    rw [scan?_calls,h.task]
    exact (congrArg (List.find? _) h.scans).trans hc
  rw [← h.task]
  exact Service.scan?_putScan (c := { c₁ with stage }) hd

/-- The scan is over when it is dropped. -/
theorem Ready.gone {s₁ : Service} {c₁ : Scan} (h : Ready s c s₁ c₁) (hs : s.Tidy)
    (hc : s.scan? c.task = some c) (hw : s'.pool.waiters = s₁.pool.waiters)
    (hn : s'.nextTask = s₁.nextTask) (hd : s'.scans = (s₁.dropScan c₁.task).scans) :
    s'.Gone c.task := by
  refine hs.gone_of_drop hc (hw.trans h.waiters) (hn.trans h.nextTask) ?_
  rw [hd,dropScan,dropScan,h.scans,h.task]

theorem ScanAct.tally (h : ScanAct s c s') (hs : s.Tidy) (hc : s.scan? c.task = some c) :
    ∃ N, Tally s (some c.task) s' N := by
  have hplain {o : Occurrence} {M L : List Occurrence} (hM : ∀ o ∈ M, o.plain = true)
      (hL : ∀ o ∈ L, o.retried? = none) (ho : o ∈ M ++ L) : o.retried? = none := by
    rcases List.mem_append.mp ho with ho | ho
    · exact Occurrence.retried?_of_plain (hM o ho)
    · exact hL o ho
  cases h with
  | @proceeds s₁ c₁ h =>
    obtain ⟨N,hN,ho⟩ := h.noted
    have hd : (s₁.putScan c₁).scan? c.task = some c₁ := h.scan?_putScan hc
    exact ⟨_,tally_of_charges (M := []) hc hN ho (by simp) (Or.inl ⟨c₁,hd,rfl⟩)⟩
  | @asks s₁ c₁ h as stage hst =>
    obtain ⟨N,hN,ho⟩ := h.noted
    refine ⟨_,tally_of_charges hc hN ((occurrences_calls s₁ c₁ as).trans (congrArg _ ho))
      (fun o hm => ?_) (Or.inl ⟨_,h.scan?_asked hc as stage,rfl⟩)⟩
    obtain ⟨a,_,rfl⟩ := List.mem_map.mp (List.mem_reverse.mp hm)
    rfl
  | @releases s₁ c₁ h r =>
    obtain ⟨N,hN,ho⟩ := h.noted
    obtain ⟨M,x,hM,hp⟩ := occurrences_finishReleased s₁ c₁ r
    rw [ho] at hM
    refine ⟨_,tally_of_charges (M := M ++ [_,_,_]) hc hN (by simpa using hM) (fun o hm =>
      ?_) (Or.inr ?_)⟩
    · exact hplain hp (by simp) hm
    · rw [finishReleased,conclude_eq]
      exact h.gone hs hc rfl rfl rfl
  | @retires s₁ c₁ h reason e =>
    obtain ⟨N,hN,ho⟩ := h.noted
    obtain ⟨M,x,hM,hp⟩ := occurrences_retireNow s₁ c₁ reason e
    rw [ho] at hM
    refine ⟨_,tally_of_charges (M := M ++ [_,_,_,_]) hc hN (by simpa using hM) (fun o hm =>
      ?_) (Or.inr ?_)⟩
    · exact hplain hp (by simp) hm
    · rw [retireNow,conclude_eq]
      exact h.gone hs hc rfl rfl rfl
  | abandons =>
    exact ⟨_,tally_of_charges (M := [.handedBack c.task c.session .abandoned]) hc .nothing
      (occurrences_abandon s c) (by simp) (Or.inr (hs.gone_abandon hc))⟩

theorem LineAct.tally (h : LineAct s t s') (ht : t ∉ s.scans.map (·.task)) :
    ∃ N, Tally s (some t) s' N := by
  have hn : s.scan? t = none := find?_eq_none_of_not_mem ht
  cases h with
  | @begins s₁ session h since http place =>
    obtain ⟨N,ho,hN⟩ := h.noted
    have hb := scan?_begin (s := s₁) (by rwa [h.scans]) since http place session
    obtain ⟨as,has⟩ := noted_begin s₁ t since http place session
    refine ⟨as.map (fun a => .called t (session.call a)) ++ .obtained t session :: N,
      tally_of_none ?_ ?_ ?_⟩
    · rw [has,ho,List.append_assoc]
      rfl
    · refine retryLabels_eq_nil fun o hm => ?_
      rcases List.mem_append.mp hm with hm | hm
      · obtain ⟨a,_,rfl⟩ := List.mem_map.mp hm
        rfl
      · rcases List.mem_cons.mp hm with rfl | hm
        · rfl
        · rcases hN o hm with hp | rfl
          · exact Occurrence.retried?_of_plain hp
          · rfl
    · intro u hu k
      obtain rfl := Option.some.inj hu
      rw [spent_of_none hn,spent_of_scan hb]
      cases k <;> rfl
  | refused store since http e =>
    obtain ⟨M,x,hM,hp⟩ := occurrences_conclude { s with store } t since http (.error e)
    refine ⟨M ++ [.returned t (.error e),.observed (.scan (outcome (.error e)) x)],
      tally_of_none ?_ ?_ fun u _ k => ?_⟩
    · rw [hM,List.append_assoc]
      rfl
    · rw [retryLabels_append,retryLabels_eq_nil fun o hm => Occurrence.retried?_of_plain (hp o hm)]
      rfl
    · rw [spent,scan?,conclude_eq]
      rfl
  | aside h => exact h.tally _

/-- What a step counts of the retries. -/
theorem Act.tally {about : Option ℕ} (h : Act s about s') (hs : s.Tidy) :
    ∃ N, Tally s about s' N := by
  induction h with
  | aside h => exact h.tally _
  | handles hc h => exact h.tally hs hc
  | @departs s s' w hw h =>
    obtain ⟨N,hN⟩ := h.tally (hs.not_mem_scans (List.mem_of_find?_eq_some hw))
    exact ⟨N,hN.noted,hN.labels,hN.paid⟩
  | @arrives s s' w hw h ih =>
    obtain ⟨task,purpose,since,wait,deadline⟩ := w
    obtain rfl : task = s.nextTask := hw
    obtain ⟨N,hN⟩ := ih (hs.join purpose since wait deadline)
    exact ⟨N,hN.noted,hN.labels,hN.paid⟩

/-! ### Runs -/

theorem observations_eq (s : Service) :
    s.observations = s.occurrences.reverse.filterMap Occurrence.observed? := by
  rw [observations,occurrences,← List.map_reverse,List.filterMap_map]
  rfl

def measured (s : Service) : List Event → List (Option ℕ × Observation)
  | [] => []
  | e :: es => ((s.step e).observations.drop s.observations.length).map (e.task s,
      ·) ++ (s.step e).measured es

def retriesOf (t : ℕ) (M : List (Option ℕ × Observation)) : List String :=
  M.filterMap fun x => if x.1 = some t then x.2.retried? else none

theorem retriesOf_append (t : ℕ) (M N : List (Option ℕ × Observation)) :
    retriesOf t (M ++ N) = retriesOf t M ++ retriesOf t N := List.filterMap_append

theorem Tally.observations {about : Option ℕ} {N : List Occurrence} (h : Tally s about s' N) :
    s'.observations = s.observations ++ N.reverse.filterMap Occurrence.observed? := by
  rw [observations_eq,observations_eq,h.noted,List.reverse_append,List.filterMap_append]

theorem Tally.measured {e : Event} {N : List Occurrence} (h : Tally s (e.task s) (s.step e) N)
    (es : List Event) :
    s.measured (e :: es) = (N.reverse.filterMap Occurrence.observed?).map (e.task s,·) ++
      (s.step e).measured es := by
  rw [Service.measured,h.observations,List.drop_left]

theorem retriesOf_map_self (N : List Occurrence) (t : ℕ) :
    retriesOf t ((N.reverse.filterMap Occurrence.observed?).map (some t,·)) =
      (retryLabels N).reverse := by
  rw [retriesOf,List.filterMap_map,List.filterMap_filterMap,List.filterMap_reverse,retryLabels]
  congr 2
  funext o
  rw [← o.observed?_bind_retried?]
  exact congrArg _ (funext fun x => if_pos rfl)

theorem retriesOf_map_ne {a : Option ℕ} (ha : a ≠ some t) (X : List Observation) :
    retriesOf t (X.map (a,·)) = [] := by
  simp [retriesOf,ha]

/-- What is measured is what the run adds to what had been observed. -/
theorem observations_run (hs : s.Tidy) {es : List Event} (hes : ∀ e ∈ es, e.retires = false) :
    (s.run es).observations = s.observations ++ (s.measured es).map Prod.snd := by
  induction es generalizing s with
  | nil => simp [measured,run]
  | cons e es ih =>
    obtain ⟨N,hN⟩ := (s.act_step (hes e List.mem_cons_self)).tally hs
    have hr := ih (tidy_step hs e) fun e he => hes e (List.mem_cons_of_mem _ he)
    have ho : (s.run (e :: es)).observations = ((s.step e).run es).observations := rfl
    rw [ho,hr,hN.observations,hN.measured es]
    simp [List.map_map,Function.comp_def]

/-- Nothing that has happened is forgotten. -/
theorem occurrences_run (hs : s.Tidy) {es : List Event} (hes : ∀ e ∈ es, e.retires = false) :
    ∃ N, (s.run es).occurrences = N ++ s.occurrences := by
  induction es generalizing s with
  | nil => exact ⟨[],rfl⟩
  | cons e es ih =>
    obtain ⟨M,hM⟩ := (s.act_step (hes e List.mem_cons_self)).tally hs
    obtain ⟨N,hN⟩ := ih (tidy_step hs e) fun e he => hes e (List.mem_cons_of_mem _ he)
    rw [hM.noted,← List.append_assoc] at hN
    exact ⟨N ++ M,hN⟩

/-- A retry is counted for a task that has a scan then. -/
theorem scan_of_retry (hs : s.Tidy) {es : List Event} (hes : ∀ e ∈ es, e.retires = false)
    {a : Option ℕ} {l : String} (h : (a,.retry l) ∈ s.measured es) :
    ∃ before later t, es = before ++ later ∧ a = some t ∧
      ((s.run before).scan? t).isSome = true := by
  induction es generalizing s with
  | nil => simp [measured] at h
  | cons e es ih =>
    obtain ⟨N,hN⟩ := (s.act_step (hes e List.mem_cons_self)).tally hs
    rw [hN.measured es,List.mem_append] at h
    rcases h with h | h
    · obtain ⟨x,hx,he⟩ := List.mem_map.mp h
      obtain ⟨rfl,rfl⟩ := Prod.mk.inj he
      have hl : l ∈ retryLabels N := by
        obtain ⟨o,ho,hx⟩ := List.mem_filterMap.mp hx
        exact List.mem_filterMap.mpr ⟨o,List.mem_reverse.mp ho,
          by rw [← o.observed?_bind_retried?,hx]; rfl⟩
      obtain ⟨t,ht,hsc,_⟩ := hN.labels l hl
      exact ⟨[],e :: es,t,rfl,ht,hsc⟩
    · obtain ⟨before,later,t,rfl,ha,hsc⟩ :=
        ih (tidy_step hs e) (fun e he => hes e (List.mem_cons_of_mem _ he)) h
      exact ⟨e :: before,later,t,rfl,ha,hsc⟩

theorem retried_of_mem (hs : s.Tidy) {es : List Event}
    (hes : ∀ e ∈ es, e.retires = false) {l : String} (h : l ∈ retriesOf t (s.measured es)) :
    ∃ k : Category, k.retried = true ∧ l = k.label := by
  induction es generalizing s with
  | nil => simp [measured,retriesOf] at h
  | cons e es ih =>
    obtain ⟨N,hN⟩ := (s.act_step (hes e List.mem_cons_self)).tally hs
    rw [hN.measured es,retriesOf_append,List.mem_append] at h
    rcases h with h | h
    · by_cases ht : e.task s = some t
      · rw [ht,retriesOf_map_self,List.mem_reverse] at h
        obtain ⟨_,_,_,hk⟩ := hN.labels l h
        exact hk
      · rw [retriesOf_map_ne ht] at h
        exact absurd h List.not_mem_nil
    · exact ih (tidy_step hs e) (fun e he => hes e (List.mem_cons_of_mem _ he)) h

/-- No retry is counted for a task that is over. -/
theorem Gone.retriesOf (h : s.Gone t) (hs : s.Tidy) {es : List Event}
    (hes : ∀ e ∈ es, e.retires = false) : retriesOf t (s.measured es) = [] := by
  refine List.eq_nil_iff_forall_not_mem.mpr fun l hl => ?_
  obtain ⟨⟨a,x⟩,hx,hl⟩ := List.mem_filterMap.mp hl
  dsimp only at hl
  split at hl
  · rename_i ha
    rw [Observation.retried?_eq_some hl] at hx
    obtain ⟨before,later,u,_,hu,hsc⟩ := scan_of_retry hs hes hx
    obtain rfl : u = t := Option.some.inj (hu.symm.trans ha)
    rw [(h.run hs before).2.2.scan?_eq] at hsc
    exact absurd hsc (by simp)
  · simp at hl

theorem count_retriesOf (hs : s.Tidy) {es : List Event} (hes : ∀ e ∈ es, e.retires = false) (t : ℕ)
    (k : Category) :
    (retriesOf t (s.measured es)).count k.label + s.spent t k ≤ if k.retried then 1 else 0 := by
  induction es generalizing s with
  | nil => simpa [measured,retriesOf] using s.spent_le t k
  | cons e es ih =>
    have hes' : ∀ e ∈ es, e.retires = false := fun e he => hes e (List.mem_cons_of_mem _ he)
    obtain ⟨N,hN⟩ := (s.act_step (hes e List.mem_cons_self)).tally hs
    have hr := ih (tidy_step hs e) hes'
    rw [hN.measured es,retriesOf_append,List.count_append]
    by_cases ht : e.task s = some t
    · rw [ht,retriesOf_map_self,List.count_reverse]
      rcases hN.paid t ht with hp | ⟨hg,hp⟩
      · have hk := hp k
        omega
      · rw [hg.retriesOf (tidy_step hs e) hes',List.count_nil]
        simpa using hp k
    · have hsp : (s.step e).spent t k = s.spent t k := by
        rw [spent,spent,(leaves_step hs e ht).scan?]
      rw [retriesOf_map_ne ht,List.count_nil,Nat.zero_add,← hsp]
      exact hr

/-- For each task one retry at most of each of two categories, and none of another. -/
theorem retriesOf_le (hs : s.Tidy) {es : List Event} (hes : ∀ e ∈ es, e.retires = false) (t : ℕ) :
    (retriesOf t (s.measured es) : Multiset String) ≤ {"transport","transient_protocol"} := by
  refine Multiset.le_iff_count.mpr fun l => ?_
  rw [Multiset.coe_count]
  by_cases hl : l ∈ retriesOf t (s.measured es)
  · obtain ⟨k,hk,rfl⟩ := retried_of_mem hs hes hl
    have hc := count_retriesOf hs hes t k
    have hm : k.label ∈ ({"transport","transient_protocol"} : Multiset String) := by
      revert hk
      cases k <;> decide
    have h1 : 1 ≤ Multiset.count k.label {"transport","transient_protocol"} :=
      Multiset.one_le_count_iff_mem.mpr hm
    rw [if_pos hk] at hc
    omega
  · rw [List.count_eq_zero.mpr hl]
    exact Nat.zero_le _

end Service

end ScanService
