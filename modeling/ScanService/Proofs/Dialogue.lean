import ScanService.Proofs.CustodySteps
/-! The dialogue of a scan with the remote service: what it asks, through which session, and what
comes back. A course is a dialogue that the retry rules allow, with all that becomes known of it. -/
namespace ScanService

inductive Query
  | login (forced : Bool)
  | fetch
deriving DecidableEq, Repr

def Query.action : Query → RemoteAction
  | login forced => .login forced
  | fetch => .fetch

def Stage.query? : Stage → Option Query
  | login forced => some (.login forced)
  | fetch _ => some .fetch
  | listing _ | pacing | delisting _ _ => none

def Stage.next? : Stage → Option Query
  | listing _ => some (.login false)
  | pacing => some .fetch
  | stage => stage.query?

/-- A question, the answer if one came, and the records before and after what the answer led to. -/
structure Ask where
  session : Session
  query : Query
  reply : Option (Except RemoteFailure Unit)
  before : Roster
  after : Roster

namespace Ask

/-- The failure that ends a pass. A token that is refused to a login does not: the login is forced
first. -/
def failure? (a : Ask) : Option RemoteFailure :=
  match a.reply with
  | some (.error cause) =>
    if cause = .invalidAuthToken ∧ a.query = .login false then none else some cause
  | _ => none

def category? (a : Ask) : Option Category := a.failure?.map (·.category)

/-- What an answer marks: a dead egress if the way failed, a banned identity if the credentials
did. -/
structure Marks (a : Ask) : Prop where
  dead : a.after.deadFlags =
    if a.category? = some .transport then (a.before.kill a.session.egress.id).deadFlags
    else a.before.deadFlags
  banned : a.after.bannedFlags =
    if a.category? = some .credential then (a.before.ban a.session.identity.name).bannedFlags
    else a.before.bannedFlags

/-- An answer that ends no pass leaves the marks as they are. -/
theorem marks_of_same {a : Ask} (ha : a.failure? = none) (h : a.after = a.before) : a.Marks := by
  constructor <;> simp [category?,ha,h]

structure Answers (a : Ask) (c : Scan) (r : Except RemoteFailure Unit) : Prop where
  session : a.session = c.session
  query : c.stage.query? = some a.query
  reply : a.reply = some r

structure Fails (a : Ask) (c : Scan) (cause : RemoteFailure) :
    Prop extends a.Answers c (.error cause) where
  unforced : ¬ (cause = .invalidAuthToken ∧ c.stage = .login false)

end Ask

namespace Service

def reply? (s : Service) (c : Scan) (e : Event) : Option (Except RemoteFailure Unit) :=
  match c.stage, e with
  | .login _, .loginDone t r => if t = c.task then some r else none
  | .fetch _, .fetchDone t r => if t = c.task then some (r.map fun _ => ()) else none
  | .fetch _, .turn (.expire t) =>
    if t = c.task ∧ s.overdue c then
      some (.error (.deadlineExceeded (s.settings.queryTimeout % 0x10000000000000000)))
    else none
  | _, _ => none

def pending (s : Service) (c : Scan) : List Ask :=
  c.stage.query?.toList.map fun q => ⟨c.session,q,none,s.store.roster,s.store.roster⟩

/-- All questions of a task in a run, the first one first. The last one is without an answer if the
scan is aborted or the run ends before one comes. -/
def dialogue (s : Service) (t : ℕ) : List Event → List Ask
  | [] => match s.scan? t with
    | none => []
    | some c => s.pending c
  | e :: es => match s.scan? t with
    | none => (s.step e).dialogue t es
    | some c => match s.reply? c e with
      | some r =>
        (s.pending c).map (fun a => { a with reply := some r, after := (s.step e).store.roster })
          ++ (s.step e).dialogue t es
      | none => if ((s.step e).scan? t).isSome then (s.step e).dialogue t es
        else s.pending c ++ (s.step e).dialogue t es

end Service

def Decision.handBack? : Decision → Option HandBack
  | killEgress => some (.retired .egressDead)
  | banIdentity => some (.retired .identityBanned)
  | giveUp => some .released
  | _ => none

open Service in
/-- An answer after which a scan goes on: as what, and with which calls. If the premise holds, no
call of the store fails. -/
inductive GoesOn (sound : Prop) (c : Scan) (a : Ask) : Scan → List Occurrence → Prop
  | loggedIn {forced : Bool} (hc : c.stage = .login forced) (ha : a.Answers c (.ok ())) :
      GoesOn sound c a { c with stage := .pacing } []
  | refused (hc : c.stage = .login false) (ha : a.Answers c (.error .invalidAuthToken)) :
      GoesOn sound c a { c with stage := .login true }
        [.called c.task (c.session.call (.login true))]
  | substituted {cause : RemoteFailure} {e : Egress} (ha : a.Fails c cause)
      (hd : (c.budget.decide cause.category).1 = .substituteEgress)
      (he : sound → (a.before.kill c.session.egress.id).nextEgress ≠ none) :
      GoesOn sound c a
        { charged c cause with session := c.session.through e, stage := .listing none } []
  | loginRetried {forced : Bool} {cause : RemoteFailure} (hc : c.stage = .login forced)
      (ha : a.Fails c cause) (hd : (c.budget.decide cause.category).1 = .retryQuery) :
      GoesOn sound c a { charged c cause with stage := .login false }
        [.called c.task (c.session.call (.login false))]
  | fetchRetried {deadline : ℕ} {cause : RemoteFailure} (hc : c.stage = .fetch deadline)
      (ha : a.Fails c cause) (hd : (c.budget.decide cause.category).1 = .retryQuery) :
      GoesOn sound c a { charged c cause with stage := .pacing } []

/-- What becomes known of a scan whose session is taken out of service. If the registry is free, it
is over at once; else it waits, and may be aborted meanwhile. -/
inductive Leaving (free : Prop) (t : ℕ) (session : Session) (reason : Retirement)
    (e : ScanFailure) : List Occurrence → Prop
  | waits (hn : ¬ free) : Leaving free t session reason e []
  | aborted (hn : ¬ free) : Leaving free t session reason e [.handedBack t session .abandoned]
  | retired : Leaving free t session reason e
      [.handedBack t session (.retired reason),.returned t (.error e)]

inductive EndsWith (sound free : Prop) (c : Scan) (a : Ask) : List Occurrence → Prop
  | fetched {deadline : ℕ} (objects : List (ScanObject Float)) (hc : c.stage = .fetch deadline)
      (ha : a.Answers c (.ok ())) :
      EndsWith sound free c a [.handedBack c.task c.session .released,
        .returned c.task (.ok objects)]
  | givenUp {cause : RemoteFailure} (ha : a.Fails c cause)
      (hd : (c.budget.decide cause.category).1.handBack? = some .released) :
      EndsWith sound free c a
        [.handedBack c.task c.session .released,.returned c.task (.error (.remote cause))]
  | starved {cause : RemoteFailure} {x : StoreFailure} {E : List Occurrence} (ha : a.Fails c cause)
      (hd : (c.budget.decide cause.category).1 = .substituteEgress)
      (he : sound → x = .notAvailable "egress" ∧
        (a.before.kill c.session.egress.id).nextEgress = none)
      (hE : Leaving free c.task c.session .egressDead (.ofPool (.ofStore x)) E) :
      EndsWith sound free c a E
  | condemned {cause : RemoteFailure} {reason : Retirement} {E : List Occurrence}
      (ha : a.Fails c cause)
      (hd : (c.budget.decide cause.category).1.handBack? = some (.retired reason))
      (hE : Leaving free c.task c.session reason (.remote cause) E) : EndsWith sound free c a E

open Service in
/-- The courses of a scan by the retry rules: from the scan as it is, its questions from here on and
what becomes known of it. -/
inductive Course (sound free : Prop) : Scan → List Ask → List Occurrence → Prop
  | waiting {c : Scan} (s : Service) : Course sound free c (s.pending c) []
  | abandoned {c : Scan} (s : Service) :
      Course sound free c (s.pending c) [.handedBack c.task c.session .abandoned]
  | listed {c : Scan} {place : Option (Coordinate Float)} {T : List Ask} {A : List Occurrence}
      (hc : c.stage = .listing place) (h : Course sound free { c with stage := .login false } T A) :
      Course sound free c T (.called c.task (c.session.call (.login false)) :: A)
  | paced {c : Scan} {deadline : ℕ} {T : List Ask} {A : List Occurrence} (hc : c.stage = .pacing)
      (h : Course sound free { c with stage := .fetch deadline } T A) :
      Course sound free c T (.called c.task (c.session.call .fetch) :: A)
  | goesOn {c c' : Scan} {a : Ask} {N : List Occurrence} {T : List Ask} {A : List Occurrence}
      (hg : GoesOn sound c a c' N) (hm : sound → a.Marks) (h : Course sound free c' T A) :
      Course sound free c (a :: T) (N ++ A)
  | ends {c : Scan} {a : Ask} {E : List Occurrence} (he : EndsWith sound free c a E)
      (hm : sound → a.Marks) : Course sound free c [a] E

theorem Leaving.not_obtained {free : Prop} {t : ℕ} {session : Session} {reason : Retirement}
    {e : ScanFailure} {E : List Occurrence} (h : Leaving free t session reason e E) (u : ℕ)
    (other : Session) : .obtained u other ∉ E := by
  cases h <;> simp

/-- A scan obtains no second session. -/
theorem Course.not_obtained {sound free : Prop} {c : Scan} {T : List Ask} {A : List Occurrence}
    (h : Course sound free c T A) (t : ℕ) (session : Session) : .obtained t session ∉ A := by
  induction h with
  | waiting _ => simp
  | abandoned _ => simp
  | listed _ _ ih | paced _ _ ih => simpa using ih
  | goesOn hg _ _ ih =>
    cases hg <;> simpa using ih
  | ends he _ =>
    cases he with
    | fetched | givenUp => simp
    | starved _ _ _ hE | condemned _ _ hE => exact hE.not_obtained t session

namespace RetryBudget

variable {b : RetryBudget} {k : Category}

theorem substitute_iff : (b.decide k).1 = .substituteEgress ↔ k = .transport ∧
    b.transportSpent = false := by
  rcases b with ⟨x,y⟩
  cases k <;> cases x <;> cases y <;> simp [decide]

theorem kill_iff : (b.decide k).1 = .killEgress ↔ k = .transport ∧ b.transportSpent = true := by
  rcases b with ⟨x,y⟩
  cases k <;> cases x <;> cases y <;> simp [decide]

theorem ban_iff : (b.decide k).1 = .banIdentity ↔ k = .credential := by
  rcases b with ⟨x,y⟩
  cases k <;> cases x <;> cases y <;> simp [decide]

theorem retry_iff : (b.decide k).1 = .retryQuery ↔ k = .transientProtocol ∧
    b.transientSpent = false := by
  rcases b with ⟨x,y⟩
  cases k <;> cases x <;> cases y <;> simp [decide]

theorem neither_of_giveUp (h : (b.decide k).1 = .giveUp) : k ≠ .transport ∧ k ≠ .credential := by
  rcases b with ⟨x,y⟩
  cases k <;> cases x <;> cases y <;> simp_all [decide]

end RetryBudget

namespace Service

variable {s : Service} {c : Scan}

/-! ### What the retry rules mark -/

theorem store_finishReleased (s : Service) (c : Scan)
    (r : Except ScanFailure (List (ScanObject Float))) :
    (s.finishReleased c r).store = s.store := by
  rw [finishReleased,conclude_eq]
  rfl

theorem store_retireNow (s : Service) (c : Scan) (reason : Retirement) (e : ScanFailure) :
    (s.retireNow c reason e).store = reason.spare s.store c.session :=
  congrArg Custody.store (custody_retireNow s c reason e)

/-- Whatever is given back at the end, no mark changes. -/
theorem flags_spare {store : Store} (hf : store.Faultless) (session : Session)
    (reason : Retirement) : (reason.spare store session).roster.deadFlags = store.roster.deadFlags ∧
      (reason.spare store session).roster.bannedFlags = store.roster.bannedFlags := by
  cases reason with
  | identityBanned =>
    have hr : (Retirement.identityBanned.spare store session).roster =
        store.roster.releaseEgress session.egress.id := hf.onRoster_roster
    rw [hr]
    exact ⟨Roster.deadFlags_updateEgress _ _ fun _ => ⟨rfl,rfl⟩,rfl⟩
  | egressDead =>
    have hr : (Retirement.egressDead.spare store session).roster =
        store.roster.releaseIdentity session.identity.name := hf.onRoster_roster
    rw [hr]
    exact ⟨rfl,Roster.bannedFlags_updateIdentity _ _ fun _ => ⟨rfl,rfl⟩⟩

theorem flags_finishRetired (hf : s.store.Faultless) (c : Scan) (reason : Retirement)
    (e : ScanFailure) :
    (s.finishRetired c reason e).store.roster.deadFlags = s.store.roster.deadFlags ∧
      (s.finishRetired c reason e).store.roster.bannedFlags = s.store.roster.bannedFlags := by
  unfold finishRetired
  split
  · exact ⟨rfl,rfl⟩
  · rw [store_retireNow]
    exact flags_spare hf c.session reason

theorem flags_substitute (hf : s.store.Faultless) (c : Scan) :
    (s.substitute c).store.roster.deadFlags = (s.store.roster.kill c.session.egress.id).deadFlags ∧
      (s.substitute c).store.roster.bannedFlags = s.store.roster.bannedFlags := by
  have hk : (s.killEgress c.session).store.roster = s.store.roster.kill c.session.egress.id :=
    hf.onRoster_roster
  have hfk : (s.killEgress c.session).store.Faultless := hf.onRoster
  cases hc : (s.killEgress c.session).store.claimEgress with
  | mk st x =>
    cases x with
    | error e =>
      have hst : st.roster = _ := (Store.claimEgress_error hc).roster
      have hr := flags_finishRetired (s := { s with store := st })
        (Store.claimEgress_faultless hc hfk) c .egressDead (.ofPool (.ofStore e))
      rw [substitute_error hc]
      rw [hst,hk] at hr
      exact hr
    | ok e =>
      have hst := Roster.flags_claimEgress (s.killEgress c.session).store.roster
      rw [Store.claimEgress_ok hc,hk] at hst
      rw [substitute_ok hc,store_enlist]
      exact hst

/-- A failure marks the egress if the way failed, the identity if the credentials did, and nothing
else. -/
theorem flags_fail (hf : s.store.Faultless) (c : Scan) (cause : RemoteFailure) :
    (s.fail c cause).store.roster.deadFlags =
        (if cause.category = .transport then (s.store.roster.kill c.session.egress.id).deadFlags
          else s.store.roster.deadFlags) ∧
      (s.fail c cause).store.roster.bannedFlags =
        (if cause.category = .credential then
          (s.store.roster.ban c.session.identity.name).bannedFlags
          else s.store.roster.bannedFlags) := by
  have hst : (s.reported c cause).store = s.store := by rw [reported_eq]
  have hfr : (s.reported c cause).store.Faultless := hst.symm ▸ hf
  rw [fail_eq]
  cases hd : (c.budget.decide cause.category).1 with
  | substituteEgress =>
    rw [(RetryBudget.substitute_iff.mp hd).1,if_pos rfl,if_neg (by decide),← hst]
    exact flags_substitute hfr (charged c cause)
  | killEgress =>
    have hk : ((s.reported c cause).killEgress c.session).store.roster =
        s.store.roster.kill c.session.egress.id := by
      rw [← hst]
      exact hfr.onRoster_roster
    have hr := flags_finishRetired (s := (s.reported c cause).killEgress c.session) hfr.onRoster
      (charged c cause) .egressDead (.remote cause)
    rw [(RetryBudget.kill_iff.mp hd).1,if_pos rfl,if_neg (by decide)]
    rw [hk] at hr
    exact hr
  | banIdentity =>
    have hb : (s.store.ban c.session.identity.name).1.roster = s.store.roster.ban
        c.session.identity.name :=
      hf.onRoster_roster
    have hr := flags_finishRetired
      (s := { s.reported c cause with store := (s.store.ban c.session.identity.name).1 })
        hf.onRoster
      (charged c cause) .identityBanned (.remote cause)
    rw [RetryBudget.ban_iff.mp hd,if_pos rfl,if_neg (by decide)]
    simp only [hb] at hr
    exact hr
  | retryQuery =>
    rw [(RetryBudget.retry_iff.mp hd).1,if_neg (by decide),if_neg (by decide),← hst]
    cases c.stage <;> exact ⟨rfl,rfl⟩
  | giveUp =>
    have hn := RetryBudget.neither_of_giveUp hd
    rw [if_neg hn.1,if_neg hn.2]
    dsimp only
    rw [store_finishReleased,hst]
    exact ⟨rfl,rfl⟩

end Service

end ScanService
