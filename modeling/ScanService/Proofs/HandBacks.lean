import Mathlib.Algebra.BigOperators.Group.Finset.Basic
import ScanService.Proofs.Exclusive
import ScanService.Proofs.Ledger
import ScanService.Proofs.RetryTally
/-! Every session that a scan obtains is handed back once, in one of the ways there are, and what is
counted of the scans agrees with what became of them. -/
namespace ScanService

def Observation.retirement? : Observation → Option String
  | retirement reason => some reason
  | _ => none

def Observation.scan? : Observation → Option String
  | scan outcome _ => some outcome
  | _ => none

/-! What the counters sum up. -/

namespace Occurrence

def handBack? : Occurrence → Option ((ℕ × ℕ) × HandBack)
  | handedBack t session way => some ((t,session.serial),way)
  | _ => none

def result? : Occurrence → Option (ℕ × Except ScanFailure (List (ScanObject Float)))
  | returned t r => some (t,r)
  | _ => none

theorem observed?_bind_retirement? (o : Occurrence) :
    o.observed?.bind Observation.retirement? = o.retirement? := by
  cases o with
  | observed x => cases x <;> rfl
  | _ => rfl

theorem observed?_bind_scan? (o : Occurrence) : o.observed?.bind Observation.scan? = o.scan? := by
  cases o with
  | observed x => cases x <;> rfl
  | _ => rfl

end Occurrence

theorem Retirement.label_inj {a b : Retirement} (h : a.label = b.label) : a = b := by
  revert h
  cases a <;> cases b <;> decide

theorem length_eq_counts (W : List HandBack) : W.length = W.count .released +
    W.count (.retired .identityBanned) + W.count (.retired .egressDead) + W.count .abandoned := by
  induction W with
  | nil => rfl
  | cons way W ih =>
    rcases way with _ | ⟨_ | _⟩ | _ <;> simp [ih] <;> omega

namespace Service

variable {s : Service} {es : List Event} {t : ℕ}

def obtainings (s : Service) : List (ℕ × ℕ) := s.occurrences.filterMap Occurrence.obtained?

/-- The sessions that scans have handed back, with the tasks and the ways, the latest first. -/
def handBacks (s : Service) : List ((ℕ × ℕ) × HandBack) :=
  s.occurrences.filterMap Occurrence.handBack?

def ways (s : Service) : List HandBack := s.handBacks.map Prod.snd

def results (s : Service) : List (ℕ × Except ScanFailure (List (ScanObject Float))) :=
  s.occurrences.filterMap Occurrence.result?

def retirementLabels (s : Service) : List String := s.observations.filterMap Observation.retirement?

def scanLabels (s : Service) : List String := s.observations.filterMap Observation.scan?

/-- The account of the sessions: each that was built is alive, in one place, or is gone; each that a
scan obtained was handed back once or is still in use, and no task obtained two. As many retirements
are counted for each reason as there were, and each scan that returned is counted under the label of
its result. -/
structure HandsBackOnce (s : Service) : Prop where
  built : (s.live.map (·.serial) + s.gone : Multiset ℕ) = Multiset.range s.nextSession
  sessions : (s.obtainings : Multiset (ℕ × ℕ)) = s.handBacks.map Prod.fst + s.openScans
  once : (s.obtainings.map Prod.fst).Nodup
  number : s.obtainings.length = s.ways.count .released + s.ways.count (.retired .identityBanned) +
    s.ways.count (.retired .egressDead) + s.ways.count .abandoned + s.scans.length
  retirements : ∀ reason : Retirement, s.retirementLabels.count reason.label = s.ways.count
    (.retired reason)
  retired : s.retirementLabels.length = s.ways.count (.retired .identityBanned) + s.ways.count
    (.retired .egressDead)
  returned : (s.results.map Prod.fst).Nodup
  outcomes : s.scanLabels = (s.results.map fun x => outcome x.2).reverse
  counted : ∑ l ∈ {"success","busy","remote_error","store_error"},
    s.scanLabels.count l = s.results.length

/-- Whoever aborts a task before it has a result keeps it from being counted. -/
def AbortsUncounted (s : Service) (es : List Event) : Prop :=
  ∀ before later t, es = before ++ .abort t :: later → t ∈ (s.run before).tasks →
    t ∉ (s.run es).results.map Prod.fst

/-- What is counted of the retries: all that a run measures is told apart by tasks, retries are
counted only for scans that have a session, and for each at most one of either category that is
retried. -/
structure RetriesBounded (s : Service) (es : List Event) : Prop where
  all : (s.run es).observations = s.observations ++ (s.measured es).map Prod.snd
  scan : ∀ a l, (a,.retry l) ∈ s.measured es → ∃ t, a = some t ∧
    t ∈ (s.run es).obtainings.map Prod.fst
  each : ∀ t, (retriesOf t (s.measured es) : Multiset String) ≤ {"transport","transient_protocol"}

theorem retirementLabels_eq (s : Service) :
    s.retirementLabels = (s.occurrences.filterMap Occurrence.retirement?).reverse := by
  rw [retirementLabels,observations_eq,List.filterMap_filterMap,List.filterMap_reverse]
  simp only [Occurrence.observed?_bind_retirement?]

theorem scanLabels_eq (s : Service) :
    s.scanLabels = (s.occurrences.filterMap Occurrence.scan?).reverse := by
  rw [scanLabels,observations_eq,List.filterMap_filterMap,List.filterMap_reverse]
  simp only [Occurrence.observed?_bind_scan?]

theorem map_handBacks (s : Service) :
    s.handBacks.map Prod.fst = s.occurrences.filterMap Occurrence.handedBack? := by
  rw [handBacks,List.map_filterMap]
  congr 1
  funext o
  cases o <;> rfl

theorem map_results (s : Service) :
    (s.results.map fun x => outcome x.2) = s.occurrences.filterMap Occurrence.outcome? := by
  rw [results,List.map_filterMap]
  congr 1
  funext o
  cases o <;> rfl

theorem results_sublist (s : Service) :
    (s.results.map Prod.fst).Sublist (s.occurrences.filterMap Occurrence.ended?) := by
  unfold results
  induction s.occurrences with
  | nil => exact List.Sublist.refl _
  | cons o N ih =>
    cases o with
    | returned t r => exact ih.cons_cons t
    | handedBack t session way =>
      cases way with
      | abandoned => exact ih.cons t
      | _ => exact ih
    | _ => exact ih

theorem count_retired (s : Service) (reason : Retirement) :
    (s.occurrences.filterMap Occurrence.retired?).count reason.label = s.ways.count
      (.retired reason) := by
  unfold ways handBacks
  induction s.occurrences with
  | nil => rfl
  | cons o N ih =>
    cases o with
    | handedBack t session way =>
      cases way with
      | retired r =>
        by_cases h : r = reason
        · subst h
          simp [Occurrence.handBack?,ih]
        · have hl : r.label ≠ reason.label := fun he => h (Retirement.label_inj he)
          simp [Occurrence.handBack?,ih,h,hl]
      | _ => simpa [List.filterMap_cons,Occurrence.handBack?] using ih
    | _ => exact ih

theorem length_retired (s : Service) : (s.occurrences.filterMap Occurrence.retired?).length =
    s.ways.count (.retired .identityBanned) + s.ways.count (.retired .egressDead) := by
  unfold ways handBacks
  induction s.occurrences with
  | nil => rfl
  | cons o N ih =>
    cases o with
    | handedBack t session way =>
      rcases way with _ | ⟨_ | _⟩ | _ <;> simp [List.filterMap_cons,Occurrence.handBack?,ih] <;>
        omega
    | _ => exact ih

theorem mem_outcomes (r : Except ScanFailure (List (ScanObject Float))) :
    outcome r ∈ ({"success","busy","remote_error","store_error"} : Finset String) := by
  cases r with
  | ok objects => simp [outcome]
  | error e => cases e <;> simp [outcome,ScanFailure.outcome]

theorem handsBackOnce_of_settled (h : s.ledger.Settled) (hc : s.Complete 0) : s.HandsBackOnce := by
  have hsessions : (s.obtainings : Multiset (ℕ × ℕ)) = s.handBacks.map Prod.fst + s.openScans := by
    rw [map_handBacks]
    exact h.sessions
  have hlength : s.obtainings.length = s.ways.length + s.scans.length := by
    have hc := congrArg Multiset.card hsessions
    simpa [ways,openScans] using hc
  have hended : (s.occurrences.filterMap Occurrence.ended? : Multiset ℕ).Nodup :=
    Multiset.nodup_of_le (Multiset.le_add_left _ _) h.fresh.nodup
  have hlabels : s.retirementLabels = (s.occurrences.filterMap Occurrence.retired?).reverse := by
    rw [retirementLabels_eq]
    exact congrArg List.reverse h.retirements
  have houtcomes : s.scanLabels = (s.results.map fun x => outcome x.2).reverse := by
    rw [scanLabels_eq,map_results]
    exact congrArg List.reverse h.outcomes
  refine ⟨(add_zero _).symm.trans hc,hsessions,?_,?_,fun reason => ?_,?_,?_,houtcomes,?_⟩
  · have hm : (s.obtainings.map Prod.fst : Multiset ℕ) ≤
        s.ledger.line + s.ledger.scans.map Prod.fst + s.ledger.log.filterMap Occurrence.ended? := by
      rw [← Multiset.map_coe,hsessions,map_handBacks,Multiset.map_add,add_comm]
      exact add_le_add (Multiset.le_add_left _ _) h.ended
    exact Multiset.coe_nodup.mp (Multiset.nodup_of_le hm h.fresh.nodup)
  · rw [hlength,length_eq_counts]
  · rw [hlabels,List.count_reverse,count_retired]
  · rw [hlabels,List.length_reverse,length_retired]
  · exact (Multiset.coe_nodup.mp hended).sublist s.results_sublist
  · have hc : ∀ l ∈ (s.scanLabels : Multiset String),
        l ∈ ({"success","busy","remote_error","store_error"} : Finset String) := by
      intro l hl
      rw [houtcomes] at hl
      obtain ⟨x,_,rfl⟩ := List.mem_map.mp (List.mem_reverse.mp hl)
      exact mem_outcomes x.2
    have hsum := Multiset.sum_count_eq_card hc
    simpa [houtcomes] using hsum

/-! ### Aborts -/

theorem mem_results {r : Except ScanFailure (List (ScanObject Float))} :
    (t,r) ∈ s.results ↔ .returned t r ∈ s.about t := by
  rw [results,List.mem_filterMap,about,List.mem_filter]
  constructor
  · rintro ⟨o,ho,hr⟩
    cases o with
    | returned u r' =>
      obtain ⟨rfl,rfl⟩ := Prod.mk.inj (Option.some.inj hr)
      exact ⟨ho,by simp [Occurrence.isOf]⟩
    | _ => simp [Occurrence.result?] at hr
  · rintro ⟨ho,_⟩
    exact ⟨_,ho,rfl⟩

theorem no_result (h : s.ledger.Settled) (ht : t ∈ s.tasks)
    (r : Except ScanFailure (List (ScanObject Float))) : (t,r) ∉ s.results := by
  intro hr
  have hn := h.fresh.nodup
  have hend : t ∈ s.occurrences.filterMap Occurrence.ended? :=
    s.results_sublist.subset (List.mem_map.mpr ⟨(t,r),hr,rfl⟩)
  have hin : t ∈ s.ledger.line + s.ledger.scans.map Prod.fst := by
    simpa [ledger,openScans,tasks,or_comm] using ht
  exact Multiset.disjoint_left.mp (Multiset.disjoint_of_nodup_add hn) hin hend

theorem gone_abort (hs : s.Tidy) (h : s.ledger.Settled) (ht : t ∈ s.tasks) :
    (s.step (.abort t)).Gone t ∧ ∀ r, (t,r) ∉ (s.step (.abort t)).results := by
  simp only [step,abort]
  split
  · rename_i c hc
    obtain rfl := scan?_task hc
    refine ⟨hs.gone_abandon hc,fun r => ?_⟩
    have hr : (s.abandon c).results = s.results := by
      rw [results,occurrences_abandon]
      rfl
    rw [hr]
    exact no_result h ht r
  · rename_i hc
    have hscan : t ∉ s.scans.map (·.task) := fun hm => by
      obtain ⟨c,hm,he⟩ := List.mem_map.mp hm
      exact List.find?_eq_none.mp hc c hm (decide_eq_true he)
    split
    · refine ⟨⟨hs.fresh.lt t ht,fun hm => ?_⟩,no_result (s := s) h ht⟩
      obtain ⟨w,hm,he⟩ := List.mem_map.mp ((List.mem_append.mp hm).resolve_left hscan)
      exact of_decide_eq_true (List.mem_filter.mp hm).2 he
    · rename_i hw
      obtain ⟨w,hm,he⟩ := List.mem_map.mp ((List.mem_append.mp ht).resolve_left hscan)
      exact absurd (decide_eq_true he) (List.find?_eq_none.mp hw w hm)

theorem abortsUncounted (hs : s.Tidy) (h : s.ledger.Settled) (hes : ∀ e ∈ es, e.retires = false) :
    s.AbortsUncounted es := by
  rintro before later t rfl ht hm
  have hb := settled_run hs h fun e he => hes e (List.mem_append_left _ he)
  have hg := gone_abort (tidy_run hs before) hb ht
  obtain ⟨⟨u,r⟩,hr,rfl⟩ := List.mem_map.mp hm
  have hrun := (hg.1.run (tidy_step (tidy_run hs before) _) later).2.1
  rw [run_append,mem_results] at hr
  have hr' : .returned u r ∈ (((s.run before).step (.abort u)).run later).about u := hr
  rw [hrun,← mem_results] at hr'
  exact hg.2 r hr'

theorem retriesBounded (hs : s.Tidy) (h : s.ledger.Settled) (h₀ : s.Complete 0)
    (hes : ∀ e ∈ es, e.retires = false) : s.RetriesBounded es := by
  refine ⟨observations_run hs hes,fun a l hl => ?_,retriesOf_le hs hes⟩
  obtain ⟨before,later,t,rfl,rfl,hsc⟩ := scan_of_retry hs hes hl
  have hbefore : ∀ e ∈ before, e.retires = false := fun e he => hes e (List.mem_append_left _ he)
  have hb := handsBackOnce_of_settled (settled_run hs h hbefore) (complete_run hs h₀ hbefore)
  obtain ⟨c,hc⟩ := Option.isSome_iff_exists.mp hsc
  obtain ⟨N,hN⟩ := occurrences_run (tidy_run hs before) fun e he =>
    hes e (List.mem_append_right _ he)
  have ho : (t,c.session.serial) ∈ (s.run before).obtainings := by
    rw [← Multiset.mem_coe,hb.sessions]
    refine Multiset.mem_add.mpr (Or.inr (List.mem_map.mpr ⟨c,List.mem_of_find?_eq_some hc,?_⟩))
    rw [scan?_task hc]
  refine ⟨t,rfl,List.mem_map.mpr ⟨(t,c.session.serial),?_,rfl⟩⟩
  rw [obtainings,run_append,hN,List.filterMap_append]
  exact List.mem_append_right _ ho

/-- Every session that a scan obtains is handed back once, in every state that a service reaches,
whatever the remote service answers, whichever tasks are aborted and whatever calls of the store
fail; and what is counted agrees with it. -/
theorem hand_back_once (settings : Settings) (store : Store) (clock : ℤ) {n : ℕ} {pool : Pool}
    (hp : Pool.ofCapacity n = .ready pool) (hes : ∀ e ∈ es, e.retires = false) :
    ((fresh settings store pool clock).run es).HandsBackOnce ∧
      (fresh settings store pool clock).AbortsUncounted es ∧
      (fresh settings store pool clock).RetriesBounded es := by
  have ho : Orderly False _ ∧ _ := orderly_fresh settings store clock hp
  have hb := settled_fresh settings store clock hp
  have hc := complete_fresh settings store clock hp
  exact ⟨handsBackOnce_of_settled (settled_run ho.1.tidy hb hes) (complete_run ho.1.tidy hc hes),
    abortsUncounted ho.1.tidy hb hes,retriesBounded ho.1.tidy hb hc hes⟩

/-- One of five scans is repeated through another egress and succeeds, one is banned, and one is
aborted that went on with the first session. The fourth is under way, and there is no identity for
the last. -/
def exits : List Event :=
  [.scan ⟨0,0⟩,.loginDone 0 (.error .egressDead),.loginDone 0 (.ok ()),.gateOpen 0,
    .fetchDone 0 (.ok {}),.scan ⟨0,0⟩,.loginDone 1 (.error .accountBanned),.turn (.wake 0),
    .scan ⟨0,0⟩,.abort 2,.scan ⟨0,0⟩,.scan ⟨0,0⟩]

theorem hand_back_once_exits :
    (sample.run exits).obtainings = [(3,2),(2,0),(1,1),(0,0)] ∧
      (sample.run exits).ways = [.abandoned,.retired .identityBanned,.released] ∧
      (sample.run exits).scanLabels = ["success","remote_error","busy"] ∧
      retriesOf 0 (sample.measured exits) = ["transport"] ∧ (sample.run exits).HandsBackOnce ∧
      sample.AbortsUncounted exits ∧ sample.RetriesBounded exits := by
  refine ⟨by decide +kernel,by decide +kernel,by decide +kernel,by decide +kernel,
    hand_back_once _ stocked 0 (n := 1) rfl ?_⟩
  simp [exits,Event.retires]

end Service

end ScanService
