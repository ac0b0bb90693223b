import ScanService.Proofs.Dialogue
/-! What a course looks like: how many passes it has, which question follows which answer, through
which egress it is put, and how the scan ends. Each fact is an induction on the course. -/
namespace ScanService

namespace Ask

def call (a : Ask) : RemoteCall := a.session.call a.query.action

def passes : List Ask → List (List Ask)
  | [] => []
  | a :: T => if a.failure?.isSome then [a] :: passes T else match passes T with
    | [] => [[a]]
    | p :: ps => (a :: p) :: ps

theorem passes_of_failure {a : Ask} {cause : RemoteFailure} (h : a.failure? = some cause)
    (T : List Ask) : passes (a :: T) = [a] :: passes T := by
  simp [passes,h]

theorem passes_of_none {a : Ask} (h : a.failure? = none) (T : List Ask) :
    passes (a :: T) = (a :: (passes T).headD []) :: (passes T).tail := by
  cases hp : passes T <;> simp [passes,h,hp]

theorem flatten_passes (T : List Ask) : (passes T).flatten = T := by
  induction T with
  | nil => rfl
  | cons a T ih =>
    cases h : a.failure? with
    | some cause => rw [passes_of_failure h,List.flatten_cons,ih,List.singleton_append]
    | none =>
      rw [passes_of_none h]
      cases hp : passes T with
      | nil => simpa [hp] using ih
      | cons p ps => simpa [hp] using ih

/-- Each pass has one failure at most. -/
theorem countP_failures_le (T : List Ask) : T.countP (·.failure?.isSome) ≤ (passes T).length := by
  induction T with
  | nil => simp
  | cons a T ih =>
    rw [List.countP_cons]
    cases h : a.failure? with
    | some cause =>
      rw [passes_of_failure h,List.length_cons]
      simpa using ih
    | none =>
      rw [passes_of_none h,List.length_cons,List.length_tail]
      simp
      omega

theorem passes_single (a : Ask) : passes [a] = [[a]] := by
  cases h : a.failure? <;> simp [passes,h]

end Ask

def Stage.logins : Stage → List (List Query)
  | listing _ | login false => [[.login false],[.login false,.login true]]
  | login true => [[.login true]]
  | _ => [[]]

def Stage.Allows (stage : Stage) (p : List Ask) : Prop :=
  (stage.query? = none ∧ p = []) ∨
    ∃ L ∈ stage.logins, p.map (·.query) = L ∨ p.map (·.query) = L ++ [.fetch]

def Stage.Admits (stage : Stage) (T : List Ask) : Prop :=
  stage.Allows ((Ask.passes T).headD []) ∧
    ∀ p ∈ (Ask.passes T).tail, (login false).Allows p ∨ pacing.Allows p

theorem Stage.eq_of_query? {stage : Stage} {forced : Bool}
    (h : stage.query? = some (.login forced)) : stage = .login forced := by
  cases stage <;> simp_all [query?]

theorem Stage.eq_of_next? {stage : Stage} (h : stage.next? = some (.login true)) :
    stage = .login true := by
  cases stage <;> simp_all [next?,query?]

theorem Stage.allows_single {stage : Stage} {a : Ask} (h : stage.query? = some a.query) :
    stage.Allows [a] := by
  cases stage with
  | login forced => cases forced <;> simp_all [Allows,logins,query?]
  | fetch _ => simp_all [Allows,logins,query?]
  | _ => simp [query?] at h

theorem Stage.Allows.of_login {place : Option (Coordinate Float)} {p : List Ask}
    (h : (login false).Allows p) : (listing place).Allows p := by
  rcases h with ⟨hq,_⟩ | h
  · simp [query?] at hq
  · exact Or.inr h

theorem Stage.Allows.of_listing {place : Option (Coordinate Float)} {p : List Ask}
    (h : (listing place).Allows p) : (login false).Allows p ∨ pacing.Allows p := by
  rcases h with ⟨_,hp⟩ | h
  · exact Or.inr (Or.inl ⟨rfl,hp⟩)
  · exact Or.inl (Or.inr h)

theorem Stage.Allows.after_login {forced : Bool} {a : Ask} {p : List Ask} (h : pacing.Allows p)
    (ha : a.query = .login forced) : (login forced).Allows (a :: p) := by
  have hp : p.map (·.query) = [] ∨ p.map (·.query) = [.fetch] := by
    rcases h with ⟨_,rfl⟩ | ⟨L,hL,hp⟩
    · exact Or.inl rfl
    · rwa [List.mem_singleton.mp hL,List.nil_append] at hp
  refine Or.inr ⟨[.login forced],by cases forced <;> simp [logins],?_⟩
  simpa [ha] using hp

theorem Stage.Allows.after_refusal {a : Ask} {p : List Ask} (h : (login true).Allows p)
    (ha : a.query = .login false) : (login false).Allows (a :: p) := by
  rcases h with ⟨hq,_⟩ | ⟨L,hL,hp⟩
  · simp [query?] at hq
  · rw [List.mem_singleton.mp hL] at hp
    refine Or.inr ⟨[.login false,.login true],by simp [logins],?_⟩
    simpa [ha] using hp

theorem Stage.admits_single {stage : Stage} {a : Ask} (h : stage.query? = some a.query) :
    stage.Admits [a] := by
  unfold Admits
  rw [Ask.passes_single]
  exact ⟨allows_single h,by simp⟩

def Stage.opening : Stage → Bool
  | listing _ | login false | pacing => true
  | _ => false

theorem Stage.Admits.pass {stage : Stage} {T : List Ask} (h : stage.Admits T)
    (hs : stage.opening = true) {p : List Ask} (hp : p ∈ Ask.passes T) :
    (login false).Allows p ∨ pacing.Allows p := by
  unfold Admits at h
  cases hT : Ask.passes T with
  | nil => simp [hT] at hp
  | cons q qs =>
    rw [hT] at h hp
    rcases List.mem_cons.mp hp with rfl | hp
    · cases stage with
      | listing place => exact h.1.of_listing
      | login forced =>
        cases forced with
        | false => exact Or.inl h.1
        | true => simp [opening] at hs
      | pacing => exact Or.inr h.1
      | _ => simp [opening] at hs
    · exact h.2 p hp

theorem Stage.Admits.from_fetch {deadline : ℕ} {T : List Ask} (h : (fetch deadline).Admits T) :
    pacing.Admits T := by
  refine ⟨?_,h.2⟩
  rcases h.1 with ⟨hq,_⟩ | hL
  · simp [query?] at hq
  · exact Or.inr hL

theorem Stage.Admits.after_failure {stage next : Stage} {a : Ask} {T : List Ask}
    {cause : RemoteFailure} (h : next.Admits T) (hf : a.failure? = some cause)
    (ha : stage.query? = some a.query) (hn : next.opening = true) : stage.Admits (a :: T) := by
  unfold Admits
  rw [Ask.passes_of_failure hf]
  exact ⟨allows_single ha,fun _ hp => h.pass hn hp⟩

def HandBack.after : Option Category → HandBack
  | some .transport => retired .egressDead
  | some .credential => retired .identityBanned
  | _ => released

/-- A dialogue goes through one egress, and once its way has failed through one other at most. -/
def Ask.RelocatedOnce (session : Session) (T : List Ask) : Prop :=
  ∃ e X Y, T = X ++ Y ∧ (∀ a ∈ X, a.session = session) ∧ (∀ a ∈ Y, a.session = session.through e) ∧
    (Y ≠ [] → ∃ a, X.getLast? = some a ∧ a.category? = some .transport)

/-- A login has succeeded in the session of a question, and nothing since then went through another
one or showed that its way is dead. -/
def Ask.Authenticated (X : List Ask) (b : Ask) : Prop :=
  ∃ U l V forced, X = U ++ l :: V ∧ l.query = .login forced ∧ l.reply = some (.ok ()) ∧
    l.session = b.session ∧ ∀ a ∈ V, a.session = b.session ∧ a.category? ≠ some .transport

def Ask.Refused (a b : Ask) : Prop :=
  a.query = .login false ∧ a.session = b.session ∧ a.reply = some (.error .invalidAuthToken)

def Category.retried (k : Category) : Bool := k = .transport || k = .transientProtocol

namespace RetryBudget

variable {b : RetryBudget} {k : Category}

def spent (b : RetryBudget) : Category → ℕ
  | .transport => b.transportSpent.toNat
  | .transientProtocol => b.transientSpent.toNat
  | _ => 0

def left (b : RetryBudget) : ℕ := (!b.transportSpent).toNat + (!b.transientSpent).toNat

theorem spent_le (b : RetryBudget) (k : Category) : b.spent k ≤ if k.retried then 1 else 0 := by
  rcases b with ⟨x,y⟩
  cases k <;> cases x <;> cases y <;> decide

theorem retries_iff : (b.decide k).1.retries = true ↔ k.retried = true ∧ b.spent k = 0 := by
  rcases b with ⟨x,y⟩
  cases k <;> cases x <;> cases y <;> decide

theorem spent_decide (h : (b.decide k).1.retries = true) (j : Category) :
    (b.decide k).2.spent j = b.spent j + if k = j then 1 else 0 := by
  rcases b with ⟨x,y⟩
  cases k <;> cases j <;> cases x <;> cases y <;> first | decide | exact absurd h (by decide)

theorem left_decide (h : (b.decide k).1.retries = true) : b.left = (b.decide k).2.left + 1 := by
  rcases b with ⟨x,y⟩
  cases k <;> cases x <;> cases y <;> first | decide | exact absurd h (by decide)

theorem handBack?_eq {way : HandBack} (h : (b.decide k).1.handBack? = some way) :
    (b.decide k).1.retries = false ∧ way = .after (some k) := by
  rcases b with ⟨x,y⟩
  cases k <;> cases x <;> cases y <;> cases h <;> exact ⟨rfl,rfl⟩

end RetryBudget

/-! ### One answer -/

section Answer

variable {sound free : Prop} {c c' : Scan} {a : Ask} {N E : List Occurrence} {cause : RemoteFailure}

theorem Ask.Answers.failure?_of_ok (ha : a.Answers c (.ok ())) : a.failure? = none := by
  simp [failure?,ha.reply]

theorem Ask.Answers.query_of_login {r : Except RemoteFailure Unit} {forced : Bool}
    (ha : a.Answers c r) (hc : c.stage = .login forced) : a.query = .login forced := by
  simpa [hc,Stage.query?] using ha.query.symm

theorem Ask.Answers.query_of_fetch {r : Except RemoteFailure Unit} {deadline : ℕ}
    (ha : a.Answers c r) (hc : c.stage = .fetch deadline) : a.query = .fetch := by
  simpa [hc,Stage.query?] using ha.query.symm

theorem Ask.Answers.failure?_of_refused (hc : c.stage = .login false)
    (ha : a.Answers c (.error .invalidAuthToken)) : a.failure? = none := by
  simp [failure?,ha.reply,ha.query_of_login hc]

theorem Ask.Fails.failure?_eq (ha : a.Fails c cause) : a.failure? = some cause := by
  have hn : ¬ (cause = .invalidAuthToken ∧ a.query = .login false) := fun hn =>
    ha.unforced ⟨hn.1,Stage.eq_of_query? (hn.2 ▸ ha.query)⟩
  simp [failure?,ha.reply,hn]

theorem Ask.Fails.category?_eq (ha : a.Fails c cause) : a.category? = some cause.category := by
  rw [category?,ha.failure?_eq]
  rfl

namespace GoesOn

theorem task (h : GoesOn sound c a c' N) : c'.task = c.task := by
  cases h <;> rfl

theorem session (h : GoesOn sound c a c' N) : a.session = c.session := by
  cases h with
  | loggedIn _ ha | refused _ ha => exact ha.session
  | substituted ha | loginRetried _ ha | fetchRetried _ ha => exact ha.session

theorem query (h : GoesOn sound c a c' N) : c.stage.query? = some a.query := by
  cases h with
  | loggedIn _ ha | refused _ ha => exact ha.query
  | substituted ha | loginRetried _ ha | fetchRetried _ ha => exact ha.query

theorem not_returned (h : GoesOn sound c a c' N) (t : ℕ)
    (r : Except ScanFailure (List (ScanObject Float))) : .returned t r ∉ N := by
  cases h <;> simp

/-- An answer after which the scan goes on either is no failure and costs nothing, or is one that
costs a retry. -/
theorem cases (h : GoesOn sound c a c' N) :
    (a.failure? = none ∧ c'.session = c.session ∧ c'.budget = c.budget) ∨
      ∃ cause, a.Fails c cause ∧ (c.budget.decide cause.category).1.retries = true ∧
        c'.budget = (c.budget.decide cause.category).2 := by
  cases h with
  | loggedIn _ ha => exact Or.inl ⟨ha.failure?_of_ok,rfl,rfl⟩
  | refused hc ha => exact Or.inl ⟨ha.failure?_of_refused hc,rfl,rfl⟩
  | substituted ha hd => exact Or.inr ⟨_,ha,by rw [hd]; rfl,rfl⟩
  | loginRetried _ ha hd => exact Or.inr ⟨_,ha,by rw [hd]; rfl,rfl⟩
  | fetchRetried _ ha hd => exact Or.inr ⟨_,ha,by rw [hd]; rfl,rfl⟩

theorem spent (h : GoesOn sound c a c' N) (k : Category) :
    c'.budget.spent k = c.budget.spent k + if a.category? = some k then 1 else 0 := by
  rcases h.cases with ⟨hf,_,hb⟩ | ⟨cause,ha,hd,hb⟩
  · simp [hb,Ask.category?,hf]
  · simp [hb,ha.category?_eq,RetryBudget.spent_decide hd]

theorem retried (h : GoesOn sound c a c' N) {k : Category} (hk : a.category? = some k) :
    k.retried = true ∧ c.budget.spent k = 0 := by
  rcases h.cases with ⟨hf,_,_⟩ | ⟨cause,ha,hd,_⟩
  · simp [Ask.category?,hf] at hk
  · rw [ha.category?_eq,Option.some.injEq] at hk
    exact hk ▸ RetryBudget.retries_iff.mp hd

theorem countP_failures (h : GoesOn sound c a c' N) {T : List Ask}
    (hn : (a :: T).countP (·.failure?.isSome) = c.budget.left + 1) :
    T.countP (·.failure?.isSome) = c'.budget.left + 1 := by
  rw [List.countP_cons] at hn
  rcases h.cases with ⟨hf,_,hb⟩ | ⟨cause,ha,hd,hb⟩
  · simpa [hf,hb] using hn
  · have hl := RetryBudget.left_decide hd
    rw [← hb] at hl
    simp only [ha.failure?_eq,Option.isSome_some,if_true] at hn
    omega

/-- The session stays as it is but for a substitution, and there is one at most. -/
theorem same (h : GoesOn sound c a c' N) :
    (c'.session = c.session ∧ (c.budget.transportSpent = true → c'.budget.transportSpent = true)) ∨
      ∃ e, c'.session = c.session.through e ∧ a.category? = some .transport ∧
        c.budget.transportSpent = false ∧ c'.budget.transportSpent = true := by
  have hspent (hb : c.budget.transportSpent = true) : c'.budget.transportSpent = true := by
    have hs := h.spent .transport
    cases hb' : c'.budget.transportSpent with
    | true => rfl
    | false =>
      simp only [RetryBudget.spent,hb,hb',Bool.toNat_true,Bool.toNat_false] at hs
      omega
  cases h with
  | loggedIn | refused | loginRetried | fetchRetried => exact Or.inl ⟨rfl,hspent⟩
  | @substituted cause e ha hd =>
    obtain ⟨hk,hb⟩ := RetryBudget.substitute_iff.mp hd
    refine Or.inr ⟨e,rfl,hk ▸ ha.category?_eq,hb,?_⟩
    simp [Service.charged,hk,RetryBudget.decide,hb]

end GoesOn

namespace Leaving

variable {t : ℕ} {session : Session} {reason : Retirement} {e : ScanFailure}

theorem returned (h : Leaving free t session reason e E)
    {r : Except ScanFailure (List (ScanObject Float))} (hr : .returned t r ∈ E) : r = .error e := by
  cases h with
  | waits | aborted => simp at hr
  | retired => simpa using hr

/-- If the registry is free, or if there is a result, the session was taken out of service. -/
theorem eq (h : Leaving free t session reason e E) (hr : free ∨ ∃ r, .returned t r ∈ E) :
    E = [.handedBack t session (.retired reason),.returned t (.error e)] := by
  cases h with
  | waits hn => simp [hn] at hr
  | aborted hn => simp [hn] at hr
  | retired => rfl

end Leaving

namespace EndsWith

theorem session (h : EndsWith sound free c a E) : a.session = c.session := by
  cases h with
  | fetched _ _ ha => exact ha.session
  | givenUp ha | starved ha | condemned ha => exact ha.session

theorem query (h : EndsWith sound free c a E) : c.stage.query? = some a.query := by
  cases h with
  | fetched _ _ ha => exact ha.query
  | givenUp ha | starved ha | condemned ha => exact ha.query

theorem returns (h : EndsWith sound free c a E) (hf : free) : ∃ r, .returned c.task r ∈ E := by
  cases h with
  | fetched objects => exact ⟨.ok objects,by simp⟩
  | givenUp ha => exact ⟨_,List.mem_cons_of_mem _ (List.mem_singleton.mpr rfl)⟩
  | starved _ _ _ hE | condemned _ _ hE =>
    rw [hE.eq (Or.inl hf)]
    exact ⟨_,List.mem_cons_of_mem _ (List.mem_singleton.mpr rfl)⟩

end EndsWith

end Answer

/-! ### A whole course -/

theorem countP_dropLast_cons {α : Type} (p : α → Bool) (a : α) (l : List α) :
    (a :: l).dropLast.countP p ≤ l.dropLast.countP p + if p a then 1 else 0 := by
  cases l with
  | nil => simp
  | cons b l => simp [List.countP_cons]

def Scan.asked (c : Scan) : List Occurrence :=
  c.stage.query?.toList.map fun q => .called c.task (c.session.call q.action)

/-- What follows the calls of a task: nothing as long as its scan goes on, nothing but the session
if it is aborted, the session and a result if it ends. -/
inductive Ending (t : ℕ) (T : List Ask) : List Occurrence → Prop
  | running : Ending t T []
  | abandoned (session : Session) : Ending t T [.handedBack t session .abandoned]
  | concluded {a : Ask} (ha : T.getLast? = some a)
      (r : Except ScanFailure (List (ScanObject Float))) :
      Ending t T [.handedBack t a.session (.after a.category?),.returned t r]

theorem Ending.cons {t : ℕ} {T : List Ask} {E : List Occurrence} (h : Ending t T E) (a : Ask) :
    Ending t (a :: T) E := by
  cases h with
  | running => exact .running
  | abandoned session => exact .abandoned session
  | concluded ha r => exact .concluded (by simp [List.getLast?_cons,ha]) r

theorem Leaving.ending {free : Prop} {c : Scan} {a : Ask} {reason : Retirement} {e : ScanFailure}
    {E : List Occurrence} (h : Leaving free c.task c.session reason e E)
    (hs : a.session = c.session) (hk : .after a.category? = HandBack.retired reason) :
    Ending c.task [a] E := by
  cases h with
  | waits => exact .running
  | aborted => exact .abandoned _
  | retired =>
    rw [← hs,← hk]
    exact .concluded rfl _

/-- The last answer says how the session is given back. -/
theorem EndsWith.ending {sound free : Prop} {c : Scan} {a : Ask} {E : List Occurrence}
    (h : EndsWith sound free c a E) : Ending c.task [a] E := by
  have hs := h.session
  cases h with
  | fetched objects _ ha =>
    rw [← hs]
    have hk : HandBack.after a.category? = .released := by
      simp [HandBack.after,Ask.category?,ha.failure?_of_ok]
    exact hk ▸ .concluded rfl (.ok objects)
  | @givenUp cause ha hd =>
    rw [← hs]
    have hk : HandBack.after a.category? = .released := by
      rw [ha.category?_eq,(RetryBudget.handBack?_eq hd).2]
    exact hk ▸ .concluded rfl (.error (.remote cause))
  | starved ha hd _ hE =>
    refine hE.ending hs ?_
    rw [ha.category?_eq,(RetryBudget.substitute_iff.mp hd).1]
    rfl
  | condemned ha hd hE =>
    refine hE.ending hs ?_
    rw [ha.category?_eq,(RetryBudget.handBack?_eq hd).2]

theorem Service.mem_pending {s : Service} {c : Scan} {a : Ask} (h : a ∈ s.pending c) :
    a.session = c.session ∧ a.reply = none ∧ c.stage.query? = some a.query := by
  obtain ⟨q,hq,rfl⟩ := List.mem_map.mp h
  exact ⟨rfl,rfl,Option.mem_toList.mp hq⟩

theorem one_lt_length_of_split {α : Type} {l X Y : List α} {b : α} (h : l = X ++ b :: Y)
    (hX : X ≠ []) : 1 < l.length := by
  have hn := List.length_pos_iff.mpr hX
  rw [h,List.length_append,List.length_cons]
  omega

theorem Service.pending_cases (s : Service) (c : Scan) :
    s.pending c = [] ∨ ∃ a, s.pending c = [a] ∧ a.failure? = none := by
  unfold pending
  cases c.stage.query? with
  | none => exact Or.inl rfl
  | some q => exact Or.inr ⟨_,rfl,rfl⟩

theorem Service.countP_pending (s : Service) (c : Scan) :
    (s.pending c).countP (·.failure?.isSome) = 0 := by
  rcases s.pending_cases c with hn | ⟨a,ha,hf⟩
  · simp [hn]
  · simp [ha,hf]

theorem Service.length_pending_le (s : Service) (c : Scan) : (s.pending c).length ≤ 1 := by
  rcases s.pending_cases c with hn | ⟨a,ha,_⟩
  · simp [hn]
  · simp [ha]

namespace Course

variable {sound free : Prop} {c : Scan} {T : List Ask} {A : List Occurrence}

/-- The calls are those that put the questions. -/
theorem ending (h : Course sound free c T A) :
    ∃ E, c.asked ++ A = (T.map fun a => .called c.task a.call) ++ E ∧ Ending c.task T E := by
  have hp (s : Service) (c : Scan) :
      c.asked = (s.pending c).map fun a => Occurrence.called c.task a.call := by
    simp [Scan.asked,Service.pending,Ask.call]
  induction h with
  | waiting s => exact ⟨[],by rw [hp s],.running⟩
  | abandoned s => exact ⟨_,by rw [hp s],.abandoned _⟩
  | listed hc _ ih | paced hc _ ih =>
    obtain ⟨E,hE,he⟩ := ih
    refine ⟨E,?_,he⟩
    rw [Scan.asked,hc]
    exact hE
  | @goesOn c c' a N T A hg _ _ ih =>
    obtain ⟨E,hE,he⟩ := ih
    have hq : c.asked = [.called c.task a.call] := by simp [Scan.asked,hg.query,Ask.call,hg.session]
    have hN : c'.asked = N := by
      cases hg <;> rfl
    rw [hg.task] at hE he
    refine ⟨E,?_,he.cons a⟩
    rw [hq,← hN,hE]
    rfl
  | @ends c a E he _ =>
    have hq : c.asked = [.called c.task a.call] := by simp [Scan.asked,he.query,Ask.call,he.session]
    exact ⟨E,by rw [hq]; rfl,he.ending⟩

/-- Whatever is marked is marked for an answer. -/
theorem marks (h : Course sound free c T A) (hso : sound) {a : Ask} (ha : a ∈ T)
    (hr : a.reply ≠ none) : a.Marks := by
  induction h with
  | waiting s | abandoned s => exact absurd (Service.mem_pending ha).2.1 hr
  | listed _ _ ih | paced _ _ ih => exact ih ha
  | goesOn _ hm _ ih =>
    rcases List.mem_cons.mp ha with rfl | ha
    · exact hm hso
    · exact ih ha
  | ends _ hm =>
    rw [List.mem_singleton.mp ha]
    exact hm hso

theorem admits (h : Course sound free c T A) : c.stage.Admits T := by
  have hp (s : Service) (c : Scan) : c.stage.Admits (s.pending c) := by
    unfold Service.pending
    cases hq : c.stage.query? with
    | none => exact ⟨Or.inl ⟨hq,rfl⟩,by simp [Ask.passes]⟩
    | some q => exact Stage.admits_single hq
  induction h with
  | waiting s | abandoned s => exact hp s _
  | listed hc _ ih =>
    rw [hc]
    exact ⟨ih.1.of_login,ih.2⟩
  | paced hc _ ih =>
    rw [hc]
    exact ih.from_fetch
  | goesOn hg _ _ ih =>
    cases hg with
    | loggedIn hc ha =>
      unfold Stage.Admits
      rw [Ask.passes_of_none ha.failure?_of_ok,hc]
      exact ⟨ih.1.after_login (ha.query_of_login hc),ih.2⟩
    | refused hc ha =>
      unfold Stage.Admits
      rw [Ask.passes_of_none (ha.failure?_of_refused hc),hc]
      exact ⟨ih.1.after_refusal (ha.query_of_login hc),ih.2⟩
    | substituted ha | loginRetried _ ha | fetchRetried _ ha =>
      exact ih.after_failure ha.failure?_eq ha.query rfl
  | ends he _ => exact Stage.admits_single he.query

theorem passes_length (h : Course sound free c T A) :
    (Ask.passes T).length ≤ c.budget.left + 1 := by
  have hp (s : Service) (c : Scan) : (Ask.passes (s.pending c)).length ≤ 1 := by
    rcases s.pending_cases c with hn | ⟨a,ha,_⟩
    · simp [hn,Ask.passes]
    · simp [ha,Ask.passes_single]
  induction h with
  | waiting s | abandoned s => exact (hp s _).trans (Nat.le_add_left _ _)
  | listed _ _ ih | paced _ _ ih => exact ih
  | goesOn hg _ _ ih =>
    rcases hg.cases with ⟨hf,_,hb⟩ | ⟨cause,ha,hd,hb⟩
    · rw [hb] at ih
      rw [Ask.passes_of_none hf,List.length_cons,List.length_tail]
      omega
    · have hl := RetryBudget.left_decide hd
      rw [hb] at ih
      rw [Ask.passes_of_failure ha.failure?_eq,List.length_cons]
      omega
  | ends he _ => simp [Ask.passes_single]

theorem fetches (h : Course sound free c T A) :
    T.countP (·.query = .fetch) ≤ c.budget.left + 1 := by
  have hp (s : Service) (c : Scan) : (s.pending c).countP (·.query = .fetch) ≤ 1 :=
    List.countP_le_length.trans (s.length_pending_le c)
  induction h with
  | waiting s | abandoned s => exact (hp s _).trans (Nat.le_add_left _ _)
  | listed _ _ ih | paced _ _ ih => exact ih
  | @goesOn c c' a N T A hg _ _ ih =>
    rw [List.countP_cons]
    rcases hg.cases with ⟨hf,_,hb⟩ | ⟨cause,ha,hd,hb⟩
    · have hq : a.query ≠ .fetch := by
        cases hg with
        | loggedIn hl ha | refused hl ha => simp [ha.query_of_login hl]
        | substituted ha | loginRetried _ ha | fetchRetried _ ha => simp [ha.failure?_eq] at hf
      rw [hb] at ih
      simpa [hq] using ih
    · have hl := RetryBudget.left_decide hd
      rw [hb] at ih
      split <;> omega
  | ends he _ => exact List.countP_le_length.trans (Nat.le_add_left _ _)

/-- Only failures of two categories are followed by a question, and only one of each. -/
theorem retries (h : Course sound free c T A) (k : Category) :
    T.dropLast.countP (·.category? = some k) + c.budget.spent k ≤ if k.retried then 1 else 0 := by
  have hp (s : Service) (c : Scan) : (s.pending c).dropLast = [] := by
    rcases s.pending_cases c with hn | ⟨a,ha,_⟩
    · rw [hn]
      rfl
    · rw [ha]
      rfl
  induction h with
  | @waiting c s | @abandoned c s => simpa [hp s c] using c.budget.spent_le k
  | listed _ _ ih | paced _ _ ih => exact ih
  | @goesOn c c' a N T A hg _ _ ih =>
    have hl := countP_dropLast_cons (fun x : Ask => decide (x.category? = some k)) a T
    have hs := hg.spent k
    simp only [decide_eq_true_eq] at hl
    omega
  | @ends c a E he _ => simpa using c.budget.spent_le k

theorem session_eq (h : Course sound free c T A) (hb : c.budget.transportSpent = true) {a : Ask}
    (ha : a ∈ T) : a.session = c.session := by
  induction h with
  | waiting s | abandoned s => exact (Service.mem_pending ha).1
  | listed _ _ ih | paced _ _ ih => exact ih hb ha
  | goesOn hg _ _ ih =>
    rcases List.mem_cons.mp ha with rfl | ha
    · exact hg.session
    · rcases hg.same with ⟨hs,ht⟩ | ⟨_,_,_,ht,_⟩
      · rw [← hs]
        exact ih (ht hb) ha
      · simp [hb] at ht
  | ends he _ =>
    rw [List.mem_singleton.mp ha]
    exact he.session

theorem relocatedOnce (h : Course sound free c T A) : Ask.RelocatedOnce c.session T := by
  have hone {c : Scan} {T : List Ask} (hT : ∀ a ∈ T, a.session = c.session) :
      Ask.RelocatedOnce c.session T :=
    ⟨c.session.egress,T,[],by simp,hT,by simp,by simp⟩
  induction h with
  | waiting s | abandoned s => exact hone fun a ha => (Service.mem_pending ha).1
  | listed _ _ ih | paced _ _ ih => exact ih
  | @goesOn c c' a N T A hg _ hT ih =>
    rcases hg.same with ⟨hs,_⟩ | ⟨e,hs,hk,_,ht⟩
    · obtain ⟨e,X,Y,rfl,hX,hY,hl⟩ := ih
      rw [hs] at hX hY
      refine ⟨e,a :: X,Y,rfl,?_,hY,fun hn => ?_⟩
      · simpa using ⟨hg.session,hX⟩
      · obtain ⟨b,hb,hk⟩ := hl hn
        exact ⟨b,by simp [List.getLast?_cons,hb],hk⟩
    · refine ⟨e,[a],T,rfl,by simpa using hg.session,fun b hb => ?_,fun _ => ⟨a,rfl,hk⟩⟩
      rw [hT.session_eq ht hb,hs]
  | ends he _ => exact hone (by simpa using he.session)

/-- The first question is the one that the scan puts next. -/
theorem head (h : Course sound free c T A) {a : Ask} (ha : T.head? = some a) :
    a.session = c.session ∧ c.stage.next? = some a.query := by
  have hq {c : Scan} (hq : c.stage.query? = some a.query) : c.stage.next? = some a.query := by
    cases hc : c.stage <;> simp_all [Stage.query?,Stage.next?]
  induction h with
  | waiting s | abandoned s =>
    have hp := Service.mem_pending (List.mem_of_mem_head? ha)
    exact ⟨hp.1,hq hp.2.2⟩
  | listed hc _ ih | paced hc _ ih =>
    rw [hc]
    exact ih ha
  | goesOn hg _ _ _ =>
    cases ha
    exact ⟨hg.session,hq hg.query⟩
  | ends he _ =>
    cases ha
    exact ⟨he.session,hq he.query⟩

/-- A login is forced right after the token was refused to an unforced one. -/
theorem forced (h : Course sound free c T A) {X Y : List Ask} {b : Ask}
    (hT : T = X ++ b :: Y) (hX : X ≠ []) (hb : b.query = .login true) :
    ∃ a, X.getLast? = some a ∧ a.Refused b := by
  induction h generalizing X with
  | waiting s | abandoned s =>
    exact absurd (s.length_pending_le _) (one_lt_length_of_split hT hX).not_ge
  | listed _ _ ih | paced _ _ ih => exact ih hT hX
  | @goesOn c c' a N T A hg _ hrest ih =>
    cases X with
    | nil => exact absurd rfl hX
    | cons x X =>
      obtain ⟨rfl,htail⟩ := List.cons_eq_cons.mp hT
      cases X with
      | nil =>
        have hhead : T.head? = some b := htail ▸ rfl
        obtain ⟨hs,hq⟩ := hrest.head hhead
        have hc := Stage.eq_of_next? (hb ▸ hq)
        cases hg with
        | refused hl ha => exact ⟨a,rfl,ha.query_of_login hl,ha.session.trans hs.symm,ha.reply⟩
        | loggedIn | substituted | loginRetried | fetchRetried => simp at hc
      | cons y X =>
        obtain ⟨z,hz,hh⟩ := ih htail (by simp)
        exact ⟨z,by simpa [List.getLast?_cons] using hz,hh⟩
  | ends he _ => exact absurd (Nat.le_refl 1) (one_lt_length_of_split hT hX).not_ge

/-- A fetch comes after a login, unless the scan is logged in from the start. -/
theorem authenticated (h : Course sound free c T A) {X Y : List Ask} {b : Ask}
    (hT : T = X ++ b :: Y) (hb : b.query = .fetch) : Ask.Authenticated X b ∨
      (c.stage.next? = some .fetch ∧ b.session = c.session ∧
        ∀ a ∈ X, a.session = c.session ∧ a.category? ≠ some .transport) := by
  have hnil {c : Scan} {T : List Ask} {A : List Occurrence} (h : Course sound free c T A)
      (hT : T = [] ++ b :: Y) : c.stage.next? = some .fetch ∧ b.session = c.session := by
    have hhead : T.head? = some b := hT ▸ rfl
    exact ⟨hb ▸ (h.head hhead).2,(h.head hhead).1⟩
  by_cases hX : X = []
  · subst hX
    exact Or.inr ⟨(hnil h hT).1,(hnil h hT).2,by simp⟩
  induction h generalizing X with
  | waiting s | abandoned s =>
    exact absurd (s.length_pending_le _) (one_lt_length_of_split hT hX).not_ge
  | listed _ _ ih =>
    rcases ih hT hX with hl | ⟨hn,_⟩
    · exact Or.inl hl
    · simp [Stage.next?,Stage.query?] at hn
  | paced hc _ ih =>
    rcases ih hT hX with hl | ⟨_,hs,hx⟩
    · exact Or.inl hl
    · exact Or.inr ⟨by rw [hc]; rfl,hs,hx⟩
  | @goesOn c c' a N T A hg _ hrest ih =>
    cases X with
    | nil => exact absurd rfl hX
    | cons x X =>
      obtain ⟨rfl,htail⟩ := List.cons_eq_cons.mp hT
      have hih : Ask.Authenticated X b ∨ (c'.stage.next? = some .fetch ∧ b.session = c'.session ∧
          ∀ a ∈ X, a.session = c'.session ∧ a.category? ≠ some .transport) := by
        by_cases hn : X = []
        · subst hn
          exact Or.inr ⟨(hnil hrest htail).1,(hnil hrest htail).2,by simp⟩
        · exact ih htail hn
      rcases hih with ⟨U,l,V,forced,rfl,hl⟩ | ⟨hc',hs,hx⟩
      · exact Or.inl ⟨a :: U,l,V,forced,rfl,hl⟩
      · cases hg with
        | @loggedIn forced hl ha =>
          refine Or.inl ⟨[],a,X,forced,rfl,ha.query_of_login hl,ha.reply,
            ha.session.trans hs.symm,?_⟩
          exact fun d hd => ⟨(hx d hd).1.trans hs.symm,(hx d hd).2⟩
        | refused | substituted | loginRetried => simp [Stage.next?,Stage.query?] at hc'
        | fetchRetried hl ha hd =>
          refine Or.inr ⟨by rw [hl]; rfl,hs,fun d hm => ?_⟩
          rcases List.mem_cons.mp hm with rfl | hm
          · refine ⟨ha.session,?_⟩
            rw [ha.category?_eq,(RetryBudget.retry_iff.mp hd).1]
            simp
          · exact hx d hm
  | ends _ _ => exact absurd (Nat.le_refl 1) (one_lt_length_of_split hT hX).not_ge

/-! ### How it ends -/

/-- Objects are returned exactly after a fetch that succeeded. -/
theorem returned_ok (h : Course sound free c T A) :
    (∃ objects, .returned c.task (.ok objects) ∈ A) ↔ ∃ a, T.getLast? = some a ∧ a.query = .fetch ∧
      a.reply = some (.ok ()) := by
  have hp (s : Service) (c : Scan) :
      ¬ ∃ a, (s.pending c).getLast? = some a ∧ a.query = .fetch ∧ a.reply = some (.ok ()) := by
    rintro ⟨a,ha,_,hr⟩
    simp [(Service.mem_pending (List.mem_of_getLast? ha)).2.1] at hr
  induction h with
  | waiting s | abandoned s => exact iff_of_false (by simp) (hp s _)
  | listed _ _ ih | paced _ _ ih => simpa using ih
  | @goesOn c c' a N T A hg _ _ ih =>
    have ha : ¬ (a.query = .fetch ∧ a.reply = some (.ok ())) := by
      rintro ⟨hq,hr⟩
      cases hg with
      | loggedIn hl ha => simp [ha.query_of_login hl] at hq
      | refused _ ha => simp [ha.reply] at hr
      | substituted ha | loginRetried _ ha | fetchRetried _ ha => simp [ha.reply] at hr
    rw [hg.task] at ih
    simp only [List.mem_append,hg.not_returned,false_or,ih]
    cases T with
    | nil => simpa using ha
    | cons b T => simp
  | @ends c a E he _ =>
    cases he with
    | fetched objects hl ha =>
      exact iff_of_true ⟨objects,by simp⟩ ⟨a,rfl,ha.query_of_fetch hl,ha.reply⟩
    | givenUp ha => simp [ha.reply]
    | starved ha _ _ hE | condemned ha _ hE =>
      refine iff_of_false ?_ (by simp [ha.reply])
      rintro ⟨objects,ho⟩
      exact absurd (hE.returned ho) (by simp)

theorem final_iff {c : Scan} {a : Ask} {cause : RemoteFailure} (ha : a.Fails c cause)
    (hr : (c.budget.decide cause.category).1.retries = false) (e : RemoteFailure) :
    cause = e ↔ ∃ b, [a].getLast? = some b ∧ b.failure? = some e ∧ (e.category.retried = true →
      1 < c.budget.spent e.category + [a].countP (·.category? = some e.category)) := by
  simp only [List.getLast?_singleton,Option.some.injEq,exists_eq_left',ha.failure?_eq]
  constructor
  · rintro rfl
    refine ⟨rfl,fun hk => ?_⟩
    have hn : c.budget.spent cause.category ≠ 0 := fun hn => by
      simp [RetryBudget.retries_iff.mpr ⟨hk,hn⟩] at hr
    simp [ha.category?_eq]
    omega
  · exact fun hc => hc.1

/-- A failure is returned exactly if it is not retried, or no more, unless the registry has yet to
be free. -/
theorem returned_remote (h : Course sound free c T A) (hr : free ∨ ∃ r, .returned c.task r ∈ A)
    (e : RemoteFailure) :
    .returned c.task (.error (.remote e)) ∈ A ↔ ∃ a, T.getLast? = some a ∧ a.failure? = some e ∧
      (e.category.retried = true →
        1 < c.budget.spent e.category + T.countP (·.category? = some e.category)) := by
  have hp (s : Service) (c : Scan) {a : Ask} (ha : (s.pending c).getLast? = some a) :
      a.failure? ≠ some e := by
    simp [Ask.failure?,(Service.mem_pending (List.mem_of_getLast? ha)).2.1]
  induction h with
  | waiting s | abandoned s =>
    refine iff_of_false (by simp) ?_
    rintro ⟨a,ha,hf,_⟩
    exact hp s _ ha hf
  | listed _ _ ih | paced _ _ ih => simpa using ih (by simpa using hr)
  | @goesOn c c' a N T A hg _ _ ih =>
    rw [hg.task,hg.spent] at ih
    simp only [List.mem_append,hg.not_returned,false_or] at hr ⊢
    refine (ih hr).trans ?_
    cases T with
    | nil =>
      refine iff_of_false (by simp) ?_
      rintro ⟨b,hb,hf,hn⟩
      obtain rfl : a = b := by simpa using hb
      have hk : a.category? = some e.category := by simp [Ask.category?,hf]
      have hr := hg.retried hk
      simp [hk,hr] at hn
    | cons b T =>
      simp only [List.getLast?_cons_cons,List.countP_cons (a := a),decide_eq_true_eq]
      simp only [Nat.add_assoc,Nat.add_comm (if a.category? = some e.category then 1 else 0)]
  | @ends c a E he _ =>
    cases he with
    | fetched objects hl ha => simp [ha.failure?_of_ok]
    | @starved cause x _ ha hd _ hE =>
      rw [hE.eq hr]
      refine iff_of_false ?_ ?_
      · cases x <;> simp [PoolFailure.ofStore,ScanFailure.ofPool]
      · rintro ⟨b,hb,hf,hn⟩
        obtain rfl : a = b := by simpa using hb
        obtain rfl : cause = e := by simpa [ha.failure?_eq] using hf
        have hr := RetryBudget.retries_iff.mp (congrArg Decision.retries hd)
        simp [ha.category?_eq,hr] at hn
    | givenUp ha hd =>
      rw [← final_iff ha (RetryBudget.handBack?_eq hd).1 e]
      simp [eq_comm]
    | condemned ha hd hE =>
      rw [hE.eq hr,← final_iff ha (RetryBudget.handBack?_eq hd).1 e]
      simp [eq_comm]

/-- A scan finds nothing but objects, no egress, or a failure of the remote service, unless a call
of the store fails. -/
theorem returned_cases (h : Course sound free c T A) (hso : sound)
    {r : Except ScanFailure (List (ScanObject Float))} (hr : .returned c.task r ∈ A) :
    (∃ objects, r = .ok objects) ∨ r = .error .busy ∨ ∃ e, r = .error (.remote e) := by
  induction h with
  | waiting | abandoned => simp at hr
  | listed _ _ ih | paced _ _ ih => exact ih (by simpa using hr)
  | goesOn hg _ _ ih =>
    rw [hg.task] at ih
    exact ih (by simpa [hg.not_returned] using hr)
  | ends he _ =>
    cases he with
    | fetched objects => exact Or.inl ⟨objects,by simpa using hr⟩
    | @givenUp cause => exact Or.inr (Or.inr ⟨cause,by simpa using hr⟩)
    | @starved cause x _ _ _ he hE =>
      have hb : r = .error (.ofPool (.ofStore x)) := hE.returned hr
      rw [(he hso).1] at hb
      exact Or.inr (Or.inl hb)
    | @condemned cause _ _ _ _ hE => exact Or.inr (Or.inr ⟨cause,hE.returned hr⟩)

/-- A scan is busy exactly if the first egress to fail has no substitute, unless a call of the store
fails or the registry has yet to be free. -/
theorem returned_busy (h : Course sound free c T A) (hso : sound)
    (hr : free ∨ ∃ r, .returned c.task r ∈ A) :
    .returned c.task (.error .busy) ∈ A ↔ c.budget.transportSpent = false ∧
      ∃ a, T.find? (·.category? = some .transport) = some a ∧
        (a.before.kill a.session.egress.id).nextEgress = none := by
  have hp (s : Service) (c : Scan) : (s.pending c).find?
      (·.category? = some .transport) = none := by
    rw [List.find?_eq_none]
    intro a ha
    simp [Ask.category?,Ask.failure?,(Service.mem_pending ha).2.1]
  have hno {c : Scan} {a : Ask} {cause : RemoteFailure} {way : HandBack} (ha : a.Fails c cause)
      (hd : (c.budget.decide cause.category).1.handBack? = some way) :
      ¬ (c.budget.transportSpent = false ∧ ∃ d, [a].find? (·.category? = some .transport) = some d ∧
        (d.before.kill d.session.egress.id).nextEgress = none) := by
    rintro ⟨hb,d,hd',_⟩
    have hr := (RetryBudget.handBack?_eq hd).1
    have hk : a.category? = some .transport := by
      by_contra hk
      simp [hk] at hd'
    rw [ha.category?_eq,Option.some.injEq] at hk
    simp [hk,RetryBudget.decide,hb,Decision.retries] at hr
  induction h with
  | waiting s | abandoned s => simp [hp s]
  | listed _ _ ih | paced _ _ ih => simpa using ih (by simpa using hr)
  | @goesOn c c' a N T A hg _ _ ih =>
    rw [hg.task] at ih
    simp only [List.mem_append,hg.not_returned,false_or] at hr ⊢
    refine (ih hr).trans ?_
    by_cases hk : a.category? = some .transport
    · -- A substitute was found, so there is no want of one, and there will be no other search.
      cases hg with
      | loggedIn _ ha => simp [Ask.category?,ha.failure?_of_ok] at hk
      | refused hl ha => simp [Ask.category?,ha.failure?_of_refused hl] at hk
      | @substituted cause e ha hd he =>
        obtain ⟨hc,hb⟩ := RetryBudget.substitute_iff.mp hd
        have hn := he hso
        rw [← ha.session] at hn
        refine iff_of_false ?_ ?_
        · simp [Service.charged,hc,RetryBudget.decide,hb]
        · simp [hk,hn]
      | loginRetried _ ha hd | fetchRetried _ ha hd =>
        rw [ha.category?_eq,(RetryBudget.retry_iff.mp hd).1] at hk
        simp at hk
    · have hs := hg.spent .transport
      have hb : c'.budget.transportSpent = c.budget.transportSpent := by
        cases hx : c'.budget.transportSpent <;> cases hy : c.budget.transportSpent <;>
          simp_all [RetryBudget.spent]
      simp [hk,hb]
  | @ends c a E he _ =>
    cases he with
    | fetched objects hl ha => simp [Ask.category?,ha.failure?_of_ok]
    | starved ha hd he hE =>
      obtain ⟨hc,hb⟩ := RetryBudget.substitute_iff.mp hd
      have hn := (he hso).2
      rw [← ha.session] at hn
      have hk : a.category? = some .transport := hc ▸ ha.category?_eq
      refine iff_of_true ?_ ⟨hb,a,by simp [hk],hn⟩
      rw [hE.eq hr,(he hso).1]
      exact List.mem_cons_of_mem _ (List.mem_singleton.mpr rfl)
    | givenUp ha hd => exact iff_of_false (by simp) (hno ha hd)
    | condemned ha hd hE =>
      rw [hE.eq hr]
      exact iff_of_false (by simp) (hno ha hd)

/-- If as many passes failed as can, the last question led to the last of the failures. -/
theorem last_of_spent (h : Course sound free c T A)
    (hn : T.countP (·.failure?.isSome) = c.budget.left + 1) :
    ∃ a, T.getLast? = some a ∧ a.failure?.isSome = true := by
  induction h with
  | waiting s | abandoned s => simp [s.countP_pending] at hn
  | listed _ _ ih | paced _ _ ih => exact ih hn
  | @goesOn c c' a N T A hg _ _ ih =>
    obtain ⟨b,hb,hf⟩ := ih (hg.countP_failures hn)
    exact ⟨b,by simp [List.getLast?_cons,hb],hf⟩
  | @ends c a E he _ =>
    refine ⟨a,rfl,?_⟩
    by_contra hf
    simp [hf] at hn

/-- A third failed pass is the last. -/
theorem stops (h : Course sound free c T A) (hf : free)
    (hn : T.countP (·.failure?.isSome) = c.budget.left + 1) : ∃ r, .returned c.task r ∈ A := by
  induction h with
  | waiting s | abandoned s => simp [s.countP_pending] at hn
  | listed _ _ ih | paced _ _ ih => simpa using ih hn
  | @goesOn c c' a N T A hg _ _ ih =>
    obtain ⟨r,hr⟩ := ih (hg.countP_failures hn)
    exact ⟨r,List.mem_append_right _ (hg.task ▸ hr)⟩
  | ends he _ => exact he.returns hf

end Course

end ScanService
