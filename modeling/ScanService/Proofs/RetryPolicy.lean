import Mathlib.Data.Finset.Card
import ScanService.Proofs.DialogueRuns
import ScanService.Proofs.RetryCourse
import ScanService.Proofs.Accounted
/-! The retry policy of a scan: the bounds on its dialogue in every run, and, while no call of the
store fails, its end and its marks as functions of the failures that it met. -/
namespace ScanService

/-- A pass is a login, at most one more that is forced, and a fetch, or a part of that. -/
def Ask.Pass (p : List Ask) : Prop :=
  ∃ L ∈ [[],[.login false],[.login false,.login true]],
    p.map (·.query) = L ∨ p.map (·.query) = L ++ [.fetch]

/-- The bounds on the dialogue of a scan with its first session. -/
structure Bounded (session : Session) (T : List Ask) : Prop where
  passes : (Ask.passes T).length ≤ 3
  pass : ∀ p ∈ Ask.passes T, Ask.Pass p
  asks : T.length ≤ 9
  fetches : T.countP (·.query = .fetch) ≤ 3
  egresses : (T.map (·.session.egress.id)).toFinset.card ≤ 2
  relocation : Ask.RelocatedOnce session T
  /-- One retry at most for each of two categories, none for any other. -/
  retries : ∀ k, T.dropLast.countP (·.category? = some k) ≤ if k.retried then 1 else 0
  last : ∀ a ∈ T, ∀ k, a.category? = some k → k.retried = false → T.getLast? = some a
  forced : ∀ X b Y, T = X ++ b :: Y → b.query = .login true →
    ∃ a, X.getLast? = some a ∧ a.Refused b
  fetch : ∀ X b Y, T = X ++ b :: Y → b.query = .fetch → Ask.Authenticated X b

/-- What becomes known of a scan with a dialogue, whatever calls of the store fail. What it is told
after a failure it is told once the registry is free. -/
structure Concluded (free : Prop) (t : ℕ) (session : Session) (T : List Ask) (A : List Occurrence) :
    Prop where
  course : ∃ E, A = .obtained t session :: (T.map fun a => .called t a.call) ++ E ∧ Ending t T E
  ok : (∃ objects, .returned t (.ok objects) ∈ A) ↔
    ∃ a, T.getLast? = some a ∧ a.query = .fetch ∧ a.reply = some (.ok ())
  remote : free ∨ (∃ r, .returned t r ∈ A) → ∀ e, .returned t (.error (.remote e)) ∈ A ↔
    ∃ a, T.getLast? = some a ∧ a.failure? = some e ∧
      (e.category.retried = true → 1 < T.countP (·.category? = some e.category))
  stops : free → T.countP (·.failure?.isSome) = 3 → ∃ r, .returned t r ∈ A

structure Decided (free : Prop) (t : ℕ) (T : List Ask) (A : List Occurrence) : Prop where
  marks : ∀ a ∈ T, a.reply ≠ none → a.Marks
  busy : free ∨ (∃ r, .returned t r ∈ A) → (.returned t (.error .busy) ∈ A ↔
    ∃ a, T.find? (·.category? = some .transport) = some a ∧
      (a.before.kill a.session.egress.id).nextEgress = none)
  cases : ∀ r, .returned t r ∈ A →
    (∃ objects, r = .ok objects) ∨ r = .error .busy ∨ ∃ e, r = .error (.remote e)

theorem Ask.Pass.length_le {p : List Ask} (h : Ask.Pass p) : p.length ≤ 3 := by
  obtain ⟨L,hL,hp⟩ := h
  have hl : L.length ≤ 2 := by
    simp only [List.mem_cons,List.not_mem_nil,or_false] at hL
    rcases hL with rfl | rfl | rfl <;> decide
  rcases hp with hp | hp
  · have hlen := congrArg List.length hp
    simp only [List.length_map] at hlen
    omega
  · have hlen := congrArg List.length hp
    simp only [List.length_map,List.length_append,List.length_singleton] at hlen
    omega

theorem length_flatten_le {ps : List (List Ask)} (h : ∀ p ∈ ps, p.length ≤ 3) :
    ps.flatten.length ≤ 3 * ps.length := by
  induction ps with
  | nil => simp
  | cons p ps ih =>
    have hp := h p List.mem_cons_self
    have hps := ih fun q hq => h q (List.mem_cons_of_mem _ hq)
    rw [List.flatten_cons,List.length_append,List.length_cons]
    omega

theorem Stage.Allows.pass {p : List Ask}
    (h : (Stage.login false).Allows p ∨ Stage.pacing.Allows p) : Ask.Pass p := by
  rcases h with (⟨hq,_⟩ | ⟨L,hL,hp⟩) | ⟨_,rfl⟩ | ⟨L,hL,hp⟩
  · simp [query?] at hq
  · exact ⟨L,List.mem_cons_of_mem _ hL,hp⟩
  · exact ⟨[],by simp,Or.inl rfl⟩
  · exact ⟨L,by simp_all [Stage.logins],hp⟩

theorem Ask.RelocatedOnce.card_egresses {session : Session} {T : List Ask}
    (h : Ask.RelocatedOnce session T) : (T.map (·.session.egress.id)).toFinset.card ≤ 2 := by
  obtain ⟨e,X,Y,rfl,hX,hY,_⟩ := h
  have hs : ((X ++ Y).map (·.session.egress.id)).toFinset ⊆ {session.egress.id,e.id} := by
    intro i hi
    obtain ⟨a,ha,rfl⟩ := List.mem_map.mp (List.mem_toFinset.mp hi)
    rcases List.mem_append.mp ha with ha | ha
    · simp [hX a ha]
    · simp [hY a ha,Session.through]
  exact (Finset.card_le_card hs).trans Finset.card_le_two

theorem getLast?_of_final {T : List Ask} {a : Ask} {k : Category} (ha : a ∈ T)
    (hk : a.category? = some k) (hn : T.dropLast.countP (·.category? = some k) = 0) :
    T.getLast? = some a := by
  have hT : T ≠ [] := List.ne_nil_of_mem ha
  rw [← List.dropLast_append_getLast hT,List.mem_append,List.mem_singleton] at ha
  rcases ha with ha | ha
  · rw [List.countP_eq_zero] at hn
    exact absurd (decide_eq_true hk) (hn a ha)
  · rw [List.getLast?_eq_some_getLast hT,ha]

namespace Course

variable {sound free : Prop} {c : Scan} {T : List Ask} {A : List Occurrence}
  {place : Option (Coordinate Float)}

theorem bounded (h : Course sound free c T A) (hb : c.budget = .full)
    (hc : c.stage = .listing place) : Bounded c.session T := by
  have hl : c.budget.left = 2 := by
    rw [hb]
    rfl
  have hretries (k : Category) : T.dropLast.countP (·.category? = some k) ≤ if k.retried
      then 1 else 0 :=
    (Nat.le_add_right _ _).trans (h.retries k)
  have hpass (p : List Ask) (hp : p ∈ Ask.passes T) : Ask.Pass p :=
    Stage.Allows.pass (h.admits.pass (by rw [hc]; rfl) hp)
  have hlen := h.passes_length
  refine ⟨by omega,hpass,?_,?_,h.relocatedOnce.card_egresses,h.relocatedOnce,hretries,?_,?_,?_⟩
  · have hflat := length_flatten_le fun p hp => (hpass p hp).length_le
    rw [Ask.flatten_passes] at hflat
    omega
  · have hf := h.fetches
    omega
  · intro a ha k hk hn
    have hr := hretries k
    rw [hn] at hr
    exact getLast?_of_final ha hk (Nat.le_zero.mp hr)
  · intro U b V hT hq
    refine h.forced hT ?_ hq
    rintro rfl
    obtain ⟨_,hn⟩ := h.head (a := b) (by rw [hT]; rfl)
    simp [hc,hq,Stage.next?] at hn
  · intro U b V hT hq
    rcases h.authenticated hT hq with hl | ⟨hn,_⟩
    · exact hl
    · simp [hc,Stage.next?] at hn

theorem concluded (h : Course sound free c T A) (hb : c.budget = .full)
    (hc : c.stage = .listing place) :
    Concluded free c.task c.session T (.obtained c.task c.session :: A) := by
  obtain ⟨E,hE,he⟩ := h.ending
  have hs (k : Category) : c.budget.spent k = 0 := by
    rw [hb]
    cases k <;> rfl
  refine ⟨⟨E,?_,he⟩,?_,fun hr e => ?_,fun hf hn => ?_⟩
  · rw [List.cons_append,← hE]
    simp [Scan.asked,hc,Stage.query?]
  · rw [← h.returned_ok]
    simp
  · have hr := h.returned_remote (by simpa using hr) e
    rw [hs,Nat.zero_add] at hr
    rw [← hr]
    simp
  · obtain ⟨r,hr⟩ := h.stops hf (by rw [hn,hb]; rfl)
    exact ⟨r,by simp [hr]⟩

theorem decided (h : Course sound free c T A) (hso : sound) (hb : c.budget = .full) :
    Decided free c.task T (.obtained c.task c.session :: A) := by
  refine ⟨fun a ha hr => h.marks hso ha hr,fun hr => ?_,fun r hr => ?_⟩
  · have hr := h.returned_busy hso (by simpa using hr)
    rw [hb] at hr
    simpa [RetryBudget.full] using hr
  · exact h.returned_cases hso (by simpa using hr)

end Course

namespace Service

variable {s : Service} {t : ℕ} {session : Session} {es : List Event}

theorem During.of_append {P : Service → Prop} {fs : List Event} (h : s.During P t (es ++ fs)) :
    (s.run es).During P t fs := by
  induction es generalizing s with
  | nil => exact h
  | cons e es ih => exact ih h.2

theorem Orderly.calm (h : s.Orderly False) (hb : Custody.Balanced s.store s.roll)
    (hes : ∀ e ∈ es, e.flagless = true) (t : ℕ) : s.Calm t es := by
  unfold Calm
  induction es generalizing s with
  | nil => trivial
  | cons e es ih =>
    have hs := h.balanced_step hb (hes e List.mem_cons_self)
    exact ⟨fun _ => hb.faultless,ih hs.1 hs.2 fun e he => hes e (List.mem_cons_of_mem _ he)⟩

def MarksByAnswers (s : Service) (es : List Event) (t : ℕ) : Prop :=
  ∀ es' e later c, es = es' ++ e :: later → (s.run es').scan? t = some c →
  e.task (s.run es') = some t →
    (s.run es').reply? c e = none →
    ((s.run es').step e).store.roster.deadFlags = (s.run es').store.roster.deadFlags ∧
      ((s.run es').step e).store.roster.bannedFlags = (s.run es').store.roster.bannedFlags

/-- The scan that a task began with a session keeps to the retry policy in a run. It takes nine
answers at most and is over when its session is given back; until then it waits for an answer, for
the gate or for the registry, and each of them lets it go on. After three failures only the registry
can keep it. -/
structure KeepsPolicy (s : Service) (es : List Event) (t : ℕ) (session : Session) : Prop where
  bounded : Bounded session (s.dialogue t es)
  concluded : Concluded (s.Unhindered t es) t session (s.dialogue t es) ((s.run es).about t).reverse
  ended : (s.run es).scan? t = none ↔
    ∃ session way, .handedBack t session way ∈ ((s.run es).about t).reverse
  waits : ∀ c, (s.run es).scan? t = some c → c.stage = .pacing ∨ c.stage.writes = true ∨
    ∃ a, (s.dialogue t es).getLast? = some a ∧ a.reply = none
  gate : ∀ es' later c, es = es' ++ .gateOpen t :: later → (s.run es').scan? t = some c →
    c.stage = .pacing → ∃ deadline,
      ((s.run es').step (.gateOpen t)).scan? t = some { c with stage := .fetch deadline }
  register : ∀ es' later c, es = es' ++ .turn (.register t) :: later →
    (s.run es').scan? t = some c → (s.run es').locked = false →
      (∀ place, c.stage = .listing place →
        ((s.run es').step (.turn (.register t))).scan? t = some { c with stage := .login false }) ∧
      ∀ reason e, c.stage = .delisting reason e →
        .returned t (.error e) ∈ ((s.run es').step (.turn (.register t))).about t
  spent : (s.dialogue t es).countP (·.failure?.isSome) = 3 →
    ∀ c, (s.run es).scan? t = some c → c.stage.standing.leaves = true
  decided : s.Calm t es →
    Decided (s.Unhindered t es) t (s.dialogue t es) ((s.run es).about t).reverse
  quiet : s.Calm t es → s.MarksByAnswers es t

theorem comes_to_ask {c : Scan} (h : s.scan? c.task = some c)
    (hst : c.stage.standing.leaves = false) :
    ∃ fs d q, (s.run fs).scan? c.task = some d ∧ d.stage.query? = some q := by
  cases hc : c.stage with
  | listing place =>
    let u : Service := { s with locked := false }
    have hu : u.scan? c.task = some c := h
    exact ⟨[.turn .unlock,.turn (.register c.task)],_,_,scan?_register hu hc rfl,rfl⟩
  | pacing => exact ⟨[.gateOpen c.task],_,_,scan?_gateOpen h hc,rfl⟩
  | login forced => exact ⟨[],c,.login forced,h,by rw [hc]; rfl⟩
  | fetch deadline => exact ⟨[],c,.fetch,h,by rw [hc]; rfl⟩
  | delisting reason e => simp [hc,Stage.standing,Standing.leaves] at hst

/-- With three failures a scan that can still ask would ask a fourth time. -/
theorem Before.spent (h : s.Before t) (hs : s.Tidy) (ho : .obtained t session ∈ (s.run es).about t)
    (hn : (s.dialogue t es).countP (·.failure?.isSome) = 3) {c : Scan}
    (hc : (s.run es).scan? t = some c) : c.stage.standing.leaves = true := by
  by_contra hst
  rw [Bool.not_eq_true] at hst
  obtain rfl := scan?_task hc
  have hany {u : Service} {fs : List Event} : u.During (Fits False False) c.task fs :=
    During.fits False.elim False.elim
  obtain ⟨fs,d,q,hd,hq⟩ := comes_to_ask hc hst
  rw [← run_append] at hd
  obtain ⟨_,_,hab,_⟩ := follows_run (tidy_run hs es) hc hst (hany : Service.During _ _ _ fs)
  have ho' : .obtained c.task session ∈ (s.run (es ++ fs)).about c.task := by
    rw [run_append,hab]
    exact List.mem_append_right _ ho
  obtain ⟨b,_,A,_,_,hb,_,hA,_⟩ := h.run hs hany ho'
  have hl : b.budget.left = 2 := by
    rw [hb]
    rfl
  obtain ⟨T,hT⟩ := dialogue_append hc
  have hes : s.dialogue c.task es = T ++ (s.run es).pending c := by
    have hnil := hT []
    rw [List.append_nil] at hnil
    simpa only [dialogue,hc] using hnil
  rw [hes,List.countP_append,countP_pending,Nat.add_zero] at hn
  have hle := (Ask.countP_failures_le _).trans hA.passes_length
  have hthree : (s.dialogue c.task (es ++ fs)).countP (·.failure?.isSome) = b.budget.left + 1 := by
    rw [hT fs,List.countP_append] at hle ⊢
    omega
  obtain ⟨a,ha,hf⟩ := hA.last_of_spent hthree
  obtain ⟨U,hU⟩ := dialogue_pending hd
  rw [hU] at ha
  simp only [pending,hq,Option.toList_some,List.map_cons,List.map_nil,List.getLast?_concat,
    Option.some.injEq] at ha
  simp [← ha,Ask.failure?] at hf

theorem Before.keepsPolicy (h : s.Before t) (hs : s.Tidy)
    (ho : .obtained t session ∈ (s.run es).about t) : s.KeepsPolicy es t session := by
  have hfit : s.During (Fits (s.Calm t es) (s.Unhindered t es)) t es := During.fits id id
  obtain ⟨c,place,A,rfl,rfl,hb,hc,hA,hr,hout⟩ := h.run hs hfit ho
  have hrev : ((s.run es).about c.task).reverse = .obtained c.task c.session :: A := by
    rw [hr]
    simp
  refine ⟨hA.bounded hb hc,?_,?_,fun d hd => ?_,?_,?_,fun hn d hd => h.spent hs ho hn hd,
    fun hcalm => ?_,fun hcalm => ?_⟩
  · rw [hrev]
    exact hA.concluded hb hc
  · rw [hrev,hout]
    simp
  · obtain ⟨T,hT⟩ := dialogue_pending hd
    cases hq : d.stage with
    | pacing => exact Or.inl rfl
    | listing _ | delisting _ _ => exact Or.inr (Or.inl rfl)
    | login _ | fetch _ =>
      refine Or.inr (Or.inr ?_)
      rw [hT]
      simp [pending,hq,Stage.query?]
  · rintro es' later d rfl hd hg
    have ht := scan?_task hd
    rw [← ht] at hd ⊢
    exact ⟨_,scan?_gateOpen hd hg⟩
  · rintro es' later d rfl hd hl
    have ht := scan?_task hd
    rw [← ht] at hd ⊢
    refine ⟨fun place hp => scan?_register hd hp hl,fun reason e he => ?_⟩
    rw [step_remove hd he hl,about_retireNow]
    exact List.mem_cons_self
  · rw [hrev]
    exact hA.decided hcalm hb
  · rintro es' e later d rfl hd he hn
    have hf := (During.of_append hcalm).1 he
    have ht := scan?_task hd
    rw [← ht] at hd he
    exact flags_of_no_reply (tidy_run hs es') hd hf he hn

/-- The retry policy: in every run, whatever the remote service answers and whatever calls of the
store fail, a scan that obtains a session keeps to it. -/
theorem retry_policy (settings : Settings) (store : Store) (clock : ℤ) {n : ℕ} {pool : Pool}
    (hp : Pool.ofCapacity n = .ready pool)
    (ho : .obtained t session ∈ ((fresh settings store pool clock).run es).about t) :
    (fresh settings store pool clock).KeepsPolicy es t session := by
  have hs : Orderly False _ ∧ _ := orderly_fresh settings store clock hp
  have hb : (fresh settings store pool clock).Before t := ⟨rfl,rfl⟩
  exact hb.keepsPolicy hs.1.tidy ho

def setbacks : List Event :=
  [.scan ⟨0,0⟩,.loginDone 0 (.error .invalidPlatformRequest),.loginDone 0 (.error .egressDead),
    .loginDone 0 (.error .invalidAuthToken),.loginDone 0 (.ok ()),.gateOpen 0,
    .fetchDone 0 (.error .credentialRejected)]

theorem retry_policy_setbacks :
    ((sample.dialogue 0 setbacks).map fun a => (a.session.egress.id,a.query,a.category?)) =
        [(1,.login false,some .transientProtocol),(1,.login false,some .transport),
          (2,.login false,none),(2,.login true,none),(2,.fetch,some .credential)] ∧
      sample.Calm 0 setbacks ∧ sample.Unhindered 0 setbacks ∧
      sample.KeepsPolicy setbacks 0 ⟨0,⟨"ash","","ptc",true,false⟩,⟨1,true,false⟩⟩ := by
  have hb := balanced_fresh { acquireWait := 0, cooldown := 0, queryTimeout := 1000 } 0 (n := 1) rfl
    stocked_faultless stocked_unused
  refine ⟨by decide +kernel,hb.1.calm hb.2 ?_ 0,?_,
    retry_policy _ _ 0 (n := 1) rfl (List.mem_of_getLast? ?_)⟩
  · simp [setbacks,Event.flagless,Event.ofScans,Event.drains]
  · exact ⟨fun _ => rfl,fun _ => rfl,fun _ => rfl,fun _ => rfl,fun _ => rfl,fun _ => rfl,
      fun _ => rfl,trivial⟩
  · rfl

end Service

end ScanService
