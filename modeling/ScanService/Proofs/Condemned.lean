import ScanService.Proofs.Acts
import ScanService.Proofs.DialogueRuns
import ScanService.Proofs.Exclusive
/-! Condemned resources. An egress through which the way failed and an identity that was refused
stay marked as in use while nobody has them, even if the store cannot mark them as dead or banned;
so no call is made with them again. -/
namespace ScanService.Custody

open Roster

/-- A resource is out of reach, and whoever still has it is to be taken out of service for it. -/
structure Barred {κ : Type} (out : Prop) (key : Session → κ) (reason : Retirement)
    (roll : Multiset (Session × Standing)) (k : κ) : Prop where
  out : out
  leaving : ∀ p ∈ roll, key p.1 = k → p.2 = .leaving reason

def EgressBarred (id : ℤ) (r : Roster) (roll : Multiset (Session × Standing)) : Prop :=
  Barred (r.EgressTaken id) (·.egress.id) .egressDead roll id

def EgressMarked (id : ℤ) (r : Roster) (roll : Multiset (Session × Standing)) : Prop :=
  Barred (r.EgressDead id) (·.egress.id) .egressDead roll id

def IdentityBarred (name : String) (r : Roster) (roll : Multiset (Session × Standing)) : Prop :=
  Barred (r.IdentityTaken name) (·.identity.name) .identityBanned roll name

def IdentityMarked (name : String) (r : Roster) (roll : Multiset (Session × Standing)) : Prop :=
  Barred (r.IdentityBanned name) (·.identity.name) .identityBanned roll name

namespace Barred

variable {κ : Type} {out out' : Prop} {key : Session → κ} {reason : Retirement}
  {roll : Multiset (Session × Standing)} {session : Session} {a b : Standing} {k : κ}

theorem keeps (h : Barred out key reason roll k) (hk : out → out') :
    Barred out' key reason roll k :=
  ⟨hk h.out,h.leaving⟩

theorem tail (h : Barred out key reason ((session,a) ::ₘ roll) k) : Barred out key reason roll k :=
  ⟨h.out,fun p hp => h.leaving p (Multiset.mem_cons_of_mem hp)⟩

theorem head (h : Barred out key reason ((session,a) ::ₘ roll) k) (hs : key session = k) :
    a = .leaving reason :=
  h.leaving _ (Multiset.mem_cons_self _ _) hs

theorem ne_of_stays (h : Barred out key reason roll k) {p : Session × Standing} (hp : p ∈ roll)
    (hl : p.2.leaves = false) : key p.1 ≠ k := by
  intro he
  rw [h.leaving p hp he] at hl
  simp [Standing.leaves] at hl

theorem ne (h : Barred out key reason ((session,a) ::ₘ roll) k) (ha : a.leaves = false) :
    key session ≠ k :=
  h.ne_of_stays (Multiset.mem_cons_self (session,a) roll) ha

theorem cons (h : Barred out key reason roll k) (hs : key session = k → a = .leaving reason) :
    Barred out key reason ((session,a) ::ₘ roll) k := by
  refine ⟨h.out,fun p hp => ?_⟩
  rcases Multiset.mem_cons.mp hp with rfl | hp
  · exact hs
  · exact h.leaving p hp

theorem of_others (ho : out) (hr : ∀ σ ∈ roll.map Prod.fst, key σ ≠ k)
    (hs : key session = k → a = .leaving reason) :
    Barred out key reason ((session,a) ::ₘ roll) k := by
  have hb : Barred out key reason roll k :=
    ⟨ho,fun p hp he => absurd he (hr p.1 (Multiset.mem_map.mpr ⟨p,hp,rfl⟩))⟩
  exact hb.cons hs

end Barred

variable {Q : Session → Prop} {p q : Roster × Multiset (Session × Standing)}

theorem Shift.egress_leaving {id : ℤ} {out : Prop} (h : Shift Q p q)
    (ho : p.1.EgressTaken id ∨ p.1.EgressDead id)
    (hp : Barred out (·.egress.id) .egressDead p.2 id) :
    Barred out (·.egress.id) .egressDead q.2 id := by
  have hn {e : ℤ} (ht : ¬ p.1.EgressTaken e) (hd : ¬ p.1.EgressDead e) : e ≠ id := by
    rintro rfl
    exact ho.elim ht hd
  cases h with
  | stays _ => exact hp
  | joins _ _ hi _ hd => exact hp.cons fun he => absurd he (hn hi hd)
  | stands _ ha => exact hp.tail.cons fun he => absurd he (hp.ne ha)
  | turns _ hi hd => exact hp.tail.cons fun he => absurd he (hn hi hd)
  | retires | leaves => exact hp.tail

theorem Shift.identity_leaving {name : String} {out : Prop} (h : Shift Q p q)
    (ho : p.1.IdentityTaken name ∨ p.1.IdentityBanned name)
    (hp : Barred out (·.identity.name) .identityBanned p.2 name) :
    Barred out (·.identity.name) .identityBanned q.2 name := by
  cases h with
  | stays _ => exact hp
  | joins _ hn _ hb =>
    refine hp.cons fun he => ?_
    subst he
    exact (ho.elim hn hb).elim
  | stands _ ha => exact hp.tail.cons fun he => absurd he (hp.ne ha)
  -- the identity works on, through another egress
  | turns => exact hp.tail.cons fun he => absurd he (hp.ne rfl)
  | retires | leaves => exact hp.tail

theorem Shift.egressBarred {id : ℤ} (hs : ∀ σ, Q σ → σ.egress.id ≠ id) (h : Shift Q p q)
    (hp : EgressBarred id p.1 p.2) : EgressBarred id q.1 q.2 := by
  refine Barred.keeps (h.egress_leaving (Or.inl hp.out) hp) fun ht => ?_
  cases h with
  | stays hk | joins hk | stands hk | turns hk => exact hk.egresses id ht
  | @retires _ _ _ session _ hsp _ hd =>
    by_cases he : session.egress.id = id
    · injection hp.head he with hr
      exact hd hr id ht
    · exact hsp.egresses id (Ne.symm he) ht
  | @leaves _ _ _ session _ hsp ha =>
    refine hsp.egresses id (fun he => ?_) ht
    exact hs session (ha (by rw [hp.head he.symm]; rfl)) he.symm

theorem Shift.identityBarred {name : String} (hs : ∀ σ, Q σ → σ.identity.name ≠ name)
    (h : Shift Q p q) (hp : IdentityBarred name p.1 p.2) : IdentityBarred name q.1 q.2 := by
  refine Barred.keeps (h.identity_leaving (Or.inl hp.out) hp) fun ht => ?_
  cases h with
  | stays hk | joins hk | stands hk | turns hk => exact hk.identities name ht
  | @retires _ _ _ session _ hsp hb _ =>
    by_cases he : session.identity.name = name
    · injection hp.head he with hr
      exact hb hr name ht
    · exact hsp.identities name (Ne.symm he) ht
  | @leaves _ _ _ session _ hsp ha =>
    refine hsp.identities name (fun he => ?_) ht
    exact hs session (ha (by rw [hp.head he.symm]; rfl)) he.symm

/-! ### What is marked stays marked -/

theorem Move.keepsDead {books : Prop} {c c' : Custody} (h : Move books Q c c') :
    KeepsDead c.store.roster c'.store.roster := by
  have hfree (store : Store) (session : Session) : KeepsDead store.roster
      (session.freed store).roster :=
    (store.keepsDead_releaseIdentity _).trans (Store.keepsDead_releaseEgress _ _)
  cases h with
  | pause h => exact h.roster ▸ KeepsDead.refl _
  | waste he hi =>
    exact ((Store.keepsDead_of_claimEgress he).trans (Store.keepsDead_of_claimIdentity hi)).trans
      (Store.keepsDead_releaseEgress _ _)
  | hire he hi =>
    exact (Store.keepsDead_of_claimEgress he).trans (Store.keepsDead_of_claimIdentity hi)
  | greet | enter | relist => exact KeepsDead.refl _
  | swap _ h => exact (Store.keepsDead_kill _ _).trans (Store.keepsDead_of_claimEgress h)
  | @bury st session roll _ h => exact h.roster ▸ c.store.keepsDead_kill session.egress.id
  | expel => exact c.store.keepsDead_ban _
  | @dismiss reason =>
    cases reason with
    | identityBanned => exact c.store.keepsDead_releaseEgress _
    | egressDead => exact c.store.keepsDead_releaseIdentity _
  | abandon _ _ hd => cases hd <;> exact hfree _ _
  | drain => exact hfree _ _

theorem Move.identityBanned {books : Prop} {c c' : Custody} {name : String} (h : Move books Q c c')
    (hb : c.store.roster.IdentityBanned name) : c'.store.roster.IdentityBanned name := by
  have hrun {store : Store} (hb : store.roster.IdentityBanned name) (cmd : Command) :
      (store.run cmd).1.roster.IdentityBanned name := Store.identityBanned_run hb cmd
  have hclaim {store st : Store} {x : Except StoreFailure Egress} (he : store.claimEgress = (st,x))
      (hb : store.roster.IdentityBanned name) : st.roster.IdentityBanned name := by
    have hr := hrun hb .claimEgress
    rwa [Store.run,Store.answered,he] at hr
  have hclaim' {store st : Store} {x : Except StoreFailure Identity}
      (he : store.claimIdentity = (st,x)) (hb : store.roster.IdentityBanned name) :
      st.roster.IdentityBanned name := by
    have hr := hrun hb .claimIdentity
    rwa [Store.run,Store.answered,he] at hr
  have hfree (session : Session) : (session.freed c.store).roster.IdentityBanned name :=
    hrun (hrun hb (.releaseIdentity session.identity.name)) (.releaseEgress session.egress.id)
  cases h with
  | pause h => exact h.roster ▸ hb
  | @waste st₁ st₂ egress x he hi =>
    exact hrun (hclaim' hi (hclaim he hb)) (.releaseEgress egress.id)
  | hire he hi => exact hclaim' hi (hclaim he hb)
  | greet | enter | relist => exact hb
  | @swap st egress session roll _ h => exact hclaim h (hrun hb (.kill session.egress.id))
  | @bury st session roll _ h => exact h.roster ▸ hrun hb (.kill session.egress.id)
  | @expel session => exact hrun hb (.ban session.identity.name)
  | @dismiss reason session =>
    cases reason with
    | identityBanned => exact hrun hb (.releaseEgress session.egress.id)
    | egressDead => exact hrun hb (.releaseIdentity session.identity.name)
  | abandon _ _ hd => cases hd <;> exact hfree _
  | drain => exact hfree _

/-- What the moves keep, and an administrator who spares the sessions alive. -/
structure Stays (Q : Session → Prop) (P : Roster → Multiset (Session × Standing) → Prop) :
    Prop where
  move : ∀ {c c' : Custody}, Move False Q c c' → P c.store.roster c.roll → P c'.store.roster c'.roll
  command : ∀ {store : Store} {cmd : Command} {roll}, cmd.spares = true → P store.roster roll →
    P (store.run cmd).1.roster roll

theorem stays_egressBarred {id : ℤ} (hs : ∀ σ, Q σ → σ.egress.id ≠ id) :
    Stays Q (EgressBarred id) :=
  ⟨fun hm => hm.shift.egressBarred hs,fun hc hp =>
    Barred.keeps hp ((Store.keeps_run _ _ hc).egresses id)⟩

theorem stays_identityBarred {name : String} (hs : ∀ σ, Q σ → σ.identity.name ≠ name) :
    Stays Q (IdentityBarred name) :=
  ⟨fun hm => hm.shift.identityBarred hs,fun hc hp =>
    Barred.keeps hp ((Store.keeps_run _ _ hc).identities name)⟩

theorem stays_egressMarked (id : ℤ) : Stays Q (EgressMarked id) :=
  ⟨fun hm hp => Barred.keeps (hm.shift.egress_leaving (Or.inr hp.out) hp) (hm.keepsDead id),
    fun hc hp => Barred.keeps hp (Store.keepsDead_run _ _ (Command.removes_of_spares hc) id)⟩

theorem stays_identityMarked (name : String) : Stays Q (IdentityMarked name) :=
  ⟨fun hm hp => Barred.keeps (hm.shift.identity_leaving (Or.inr hp.out) hp) hm.identityBanned,
    fun _ hp => Barred.keeps hp fun hb => Store.identityBanned_run hb _⟩

section Condemning

variable {store st : Store} {session : Session} {roll : Multiset (Session × Standing)} {e : Egress}

theorem barred_of_swap {out : Prop} (ho : out)
    (hx : Exclusive store.roster (session ::ₘ roll.map Prod.fst))
    (h : (store.kill session.egress.id).1.claimEgress = (st,.ok e)) :
    Barred out (·.egress.id) .egressDead ((session.through e,.coming) ::ₘ roll)
      session.egress.id := by
  have ht := (store.keeps_kill session.egress.id).egresses _
    (hx.egresses session (Multiset.mem_cons_self _ _))
  have hn := (claimEgress_taken (Store.claimEgress_ok h)).1
  have hne : e.id ≠ session.egress.id := fun he => hn (he ▸ ht)
  exact Barred.of_others ho hx.id_ne fun he => absurd he hne

theorem barred_of_bury {out : Prop} (ho : out)
    (hx : Exclusive store.roster (session ::ₘ roll.map Prod.fst)) :
    Barred out (·.egress.id) .egressDead ((session,.leaving .egressDead) ::ₘ roll)
      session.egress.id :=
  .of_others ho hx.id_ne fun _ => rfl

theorem barred_of_expel {out : Prop} (ho : out)
    (hx : Exclusive store.roster (session ::ₘ roll.map Prod.fst)) :
    Barred out (·.identity.name) .identityBanned ((session,.leaving .identityBanned) ::ₘ roll)
      session.identity.name :=
  .of_others ho hx.name_ne fun _ => rfl

end Condemning

end ScanService.Custody

namespace ScanService

def Occurrence.caller? : Occurrence → Option (String × ℤ)
  | called _ call => some (call.identity,call.egress)
  | _ => none

theorem Event.retires_of_sparing {e : Event} (he : e.sparing = true) : e.retires = false := by
  cases e <;> simp_all [sparing,ofScans,drains,retires]

end ScanService

namespace ScanService.Service

open Custody Roster

variable {s s' : Service} {c : Scan} {cause : RemoteFailure} {e : Event}

/-! ### A failure bars what failed -/

theorem step_of_failure {t : ℕ} (h : s.scan? t = some c) (hr : s.reply? c e = some (.error cause))
    (hn : cause ≠ .invalidAuthToken) : s.step e = s.fail c cause := by
  obtain rfl := scan?_task h
  rcases step_of_reply hr with ⟨forced,hc,rfl⟩ | ⟨deadline,x,hc,rfl⟩ | ⟨deadline,hc,ho,rfl⟩
  · simp only [step,onLogin,h,hc,loginDone]
    exact if_neg fun hh => hn hh.1
  · cases x with
    | ok response => simp [reply?,hc,Except.map] at hr
    | error x =>
      obtain rfl : x = cause := by simpa [reply?,hc,Except.map] using hr
      simp only [step,onFetch,h,hc,fetchDone]
  · have hx : RemoteFailure.deadlineExceeded (s.settings.queryTimeout % 0x10000000000000000) =
        cause := by
      simpa [reply?,hc,ho] using hr
    subst hx
    simp only [step,take,onExpiry,h,ho,if_true]
    rfl

theorem rest_reported (s : Service) (c : Scan) (cause : RemoteFailure) (t : ℕ) :
    (s.reported c cause).rest t = s.rest t := by
  rw [reported_eq]
  rfl

theorem standing_of_reply {r : Except RemoteFailure Unit} (h : s.reply? c e = some r) :
    c.stage.standing = .listed := by
  rcases step_of_reply h with ⟨_,hc,_⟩ | ⟨_,_,hc,_⟩ | ⟨_,hc,_⟩ <;> rw [hc] <;> rfl

/-- A failure of the way leaves the session with another egress or on its way out. Whatever holds
then and is kept by the moves holds after it. -/
theorem keep_fail_transport {P : Roster → Multiset (Session × Standing) → Prop} {Q : Session → Prop}
    (hP : Stays Q P) (h : s.Has c) (hk : cause.category = .transport)
    (hswap : ∀ st e, (s.store.kill c.session.egress.id).1.claimEgress = (st,.ok e) →
      P st.roster ((c.session.through e,.coming) ::ₘ s.rest c.task))
    (hbury : ∀ st, (s.store.kill c.session.egress.id).1.SameRecords st →
      P st.roster ((c.session,.leaving .egressDead) ::ₘ s.rest c.task)) :
    P (s.fail c cause).store.roster (s.fail c cause).roll := by
  have hr : s.reported c cause = { s with history := (s.reported c cause).history } :=
    reported_eq s c cause
  have hrest := rest_reported s c cause c.task
  rw [fail_eq,hk]
  cases hb : c.budget.transportSpent with
  | false =>
    simp only [RetryBudget.decide,hb,Bool.false_eq_true,if_false]
    have hs := custody_substitute False Q (h.reported cause)
    rw [show (charged c cause).task = c.task from rfl,hrest] at hs
    rw [hr] at hs ⊢
    rcases hs with ⟨st,e,hc,hm⟩ | ⟨st,hc,hm⟩
    · exact hm.keep (P := fun c => P c.store.roster c.roll) (fun _ _ => hP.move) (hswap st e hc)
    · exact hm.keep (P := fun c => P c.store.roster c.roll) (fun _ _ => hP.move) (hbury st hc)
  | true =>
    simp only [RetryBudget.decide,hb,if_true]
    have hk : ((s.reported c cause).killEgress c.session).Has (charged c cause) :=
      ⟨(h.reported cause).distinct,(h.reported cause).found⟩
    have hm : Moves False Q _ _ := moves_finishRetired hk .egressDead (.remote cause)
    refine hm.keep (P := fun c => P c.store.roster c.roll) (fun _ _ => hP.move) ?_
    have hrest' : ((s.reported c cause).killEgress c.session).rest c.task = s.rest c.task := hrest
    have hst : ((s.reported c cause).killEgress c.session).store =
        (s.store.kill c.session.egress.id).1 := by
      rw [hr]
      rfl
    dsimp only
    rw [show (charged c cause).task = c.task from rfl,hrest']
    exact hbury _ (hst ▸ .refl _)

theorem keep_fail_credential {P : Roster → Multiset (Session × Standing) → Prop}
    {Q : Session → Prop} (hP : Stays Q P) (h : s.Has c) (hk : cause.category = .credential)
    (hexpel : P (s.store.ban c.session.identity.name).1.roster
      ((c.session,.leaving .identityBanned) ::ₘ s.rest c.task)) :
    P (s.fail c cause).store.roster (s.fail c cause).roll := by
  let u : Service := { s.reported c cause with store := (s.store.ban c.session.identity.name).1 }
  have hu : u.Has (charged c cause) := ⟨(h.reported cause).distinct,(h.reported cause).found⟩
  have hm : Moves False Q _ _ := moves_finishRetired hu .identityBanned (.remote cause)
  have hrest : u.rest c.task = s.rest c.task := rest_reported s c cause c.task
  rw [fail_eq,RetryBudget.ban_iff.mpr hk]
  refine hm.keep (P := fun c => P c.store.roster c.roll) (fun _ _ => hP.move) ?_
  dsimp only
  rw [show (charged c cause).task = c.task from rfl,hrest]
  exact hexpel

theorem egressBarred_fail (h : s.Has c) (hx : Custody.Exclusive s.store.roster s.live)
    (hk : cause.category = .transport) :
    EgressBarred c.session.egress.id (s.fail c cause).store.roster (s.fail c cause).roll := by
  rw [h.live] at hx
  have ht := (s.store.keeps_kill c.session.egress.id).egresses _
    (hx.egresses c.session (Multiset.mem_cons_self _ _))
  refine keep_fail_transport (Q := fun _ => False) (stays_egressBarred fun _ => False.elim) h hk ?_
    ?_
  · exact fun st e hc => barred_of_swap ((keeps_of_claimEgress hc).egresses _ ht) hx hc
  · exact fun st hc => barred_of_bury (by rwa [hc.roster]) hx

/-- The egress is marked as dead, if the store takes the call. -/
theorem egressMarked_fail (h : s.Has c) (hx : Custody.Exclusive s.store.roster s.live)
    (ha : s.store.Accepts .killEgress) (hk : cause.category = .transport) :
    EgressMarked c.session.egress.id (s.fail c cause).store.roster (s.fail c cause).roll := by
  rw [h.live] at hx
  have hd : (s.store.kill c.session.egress.id).1.roster.EgressDead c.session.egress.id := by
    rw [Store.kill,(ha.onRoster _).1]
    exact egressDead_kill (hx.egresses c.session (Multiset.mem_cons_self _ _)).1
  refine keep_fail_transport (Q := fun _ => False) (stays_egressMarked _) h hk ?_ ?_
  · exact fun st e hc => barred_of_swap (Store.keepsDead_of_claimEgress hc _ hd) hx hc
  · exact fun st hc => barred_of_bury (by rwa [hc.roster]) hx

theorem identityBarred_fail (h : s.Has c) (hx : Custody.Exclusive s.store.roster s.live)
    (hk : cause.category = .credential) :
    IdentityBarred c.session.identity.name (s.fail c cause).store.roster (s.fail c cause).roll := by
  rw [h.live] at hx
  have ht := (s.store.keeps_ban c.session.identity.name).identities _
    (hx.identities c.session (Multiset.mem_cons_self _ _))
  exact keep_fail_credential (Q := fun _ => False) (stays_identityBarred fun _ => False.elim) h hk
    (barred_of_expel ht hx)

theorem identityMarked_fail (h : s.Has c) (hx : Custody.Exclusive s.store.roster s.live)
    (ha : s.store.Accepts .banIdentity) (hk : cause.category = .credential) :
    IdentityMarked c.session.identity.name (s.fail c cause).store.roster (s.fail c cause).roll := by
  rw [h.live] at hx
  have hd : (s.store.ban c.session.identity.name).1.roster.IdentityBanned
      c.session.identity.name := by
    rw [Store.ban,(ha.onRoster _).1]
    exact identityBanned_ban (hx.identities c.session (Multiset.mem_cons_self _ _)).1
  exact keep_fail_credential (Q := fun _ => False) (stays_identityMarked _) h hk
    (barred_of_expel hd hx)

/-! ### Who calls -/

def Speaks (s s' : Service) : Prop :=
  ∃ N, s'.occurrences = N ++ s.occurrences ∧ ∀ t call, .called t call ∈ N →
    ∃ p ∈ s'.roll, p.2.leaves = false ∧ ∃ a, call = p.1.call a

theorem speaks_of_silent {N : List Occurrence} (h : s'.occurrences = N ++ s.occurrences)
    (hN : ∀ t call, .called t call ∉ N) : Speaks s s' :=
  ⟨N,h,fun t call hm => absurd hm (hN t call)⟩

theorem Ready.not_called {s₁ : Service} {c₁ : Scan} (h : Ready s c s₁ c₁) :
    ∃ N, s₁.occurrences = N ++ s.occurrences ∧ ∀ t call, .called t call ∉ N := by
  obtain ⟨N,hN,ho⟩ := h.noted
  refine ⟨N,ho,fun t call => ?_⟩
  generalize c₁.budget = b at hN
  cases hN <;> simp

theorem Aside.speaks (h : Aside s s') : Speaks s s' := by
  obtain ⟨N,hN,hp⟩ := h.noted
  refine ⟨N,hN,fun t call hm => ?_⟩
  rcases hp _ hm with hp | ⟨σ,he⟩ | ⟨u,σ,hσ,a,he⟩
  · simp [Occurrence.plain] at hp
  · cases he
  · injection he with _ he
    exact ⟨_,mem_roll_held hσ,rfl,a,he⟩

theorem ScanAct.speaks (h : ScanAct s c s') (hc : s.scan? c.task = some c) : Speaks s s' := by
  cases h with
  | @proceeds s₁ c₁ h =>
    obtain ⟨N,ho,hN⟩ := h.not_called
    exact speaks_of_silent ho hN
  | @asks s₁ c₁ h as stage hst =>
    obtain ⟨N,ho,hN⟩ := h.not_called
    have hs : (s₁.calls c₁ as).scan? c₁.task = some c := by
      rw [scan?_calls,scan?,h.scans,h.task]
      exact hc
    have hroll := mem_roll_scan (scan?_putScan (c := { c₁ with stage }) hs)
    refine ⟨(as.map fun a => .called c₁.task (c₁.session.call a)).reverse ++ N,?_,
      fun t call hm => ?_⟩
    · exact (occurrences_calls s₁ c₁ as).trans (by rw [ho,List.append_assoc])
    · rcases List.mem_append.mp hm with hm | hm
      · obtain ⟨a,_,he⟩ := List.mem_map.mp (List.mem_reverse.mp hm)
        injection he with _ he
        exact ⟨_,hroll,hst,a,he.symm⟩
      · exact absurd hm (hN t call)
  | @releases s₁ c₁ h r =>
    obtain ⟨N,ho,hN⟩ := h.not_called
    obtain ⟨M,x,hM,hp⟩ := occurrences_finishReleased s₁ c₁ r
    rw [ho] at hM
    refine speaks_of_silent (N := M ++ _ :: _ :: _ :: N) (by simpa using hM) fun t call => ?_
    simp [not_called_of_plain hp,hN]
  | @retires s₁ c₁ h reason e =>
    obtain ⟨N,ho,hN⟩ := h.not_called
    obtain ⟨M,x,hM,hp⟩ := occurrences_retireNow s₁ c₁ reason e
    rw [ho] at hM
    refine speaks_of_silent (N := M ++ _ :: _ :: _ :: _ :: N) (by simpa using hM) fun t call => ?_
    simp [not_called_of_plain hp,hN]
  | abandons => exact speaks_of_silent (N := [_]) (occurrences_abandon s c) (by simp)

theorem LineAct.speaks {t : ℕ} (h : LineAct s t s') (ht : t ∉ s.scans.map (·.task)) :
    Speaks s s' := by
  cases h with
  | @begins s₁ session h since http place =>
    obtain ⟨N,ho,hN⟩ := h.noted
    have hm := mem_roll_scan (scan?_begin (s := s₁) (by rwa [h.scans]) since http place session)
    have hst : ∀ b : Bool,
        (if b then Stage.listing (some place) else .login false).standing.leaves = false
      | true | false => rfl
    have hb := occurrences_begin s₁ t since http place session
    rw [ho] at hb
    refine ⟨_ ++ _ :: N,by rw [List.append_assoc]; exact hb,fun u call hc =>
      ⟨_,hm,hst s₁.locked,?_⟩⟩
    rcases List.mem_append.mp hc with hc | hc
    · split at hc
      · simp at hc
      · simp only [List.mem_cons,Occurrence.called.injEq,List.not_mem_nil,or_false] at hc
        rcases hc with ⟨_,hc⟩ | ⟨_,hc⟩
        · exact ⟨_,hc⟩
        · exact ⟨_,hc⟩
    · rcases List.mem_cons.mp hc with hc | hc
      · cases hc
      · rcases hN _ hc with hp | he
        · simp [Occurrence.plain] at hp
        · injection he with _ he
          exact ⟨_,he⟩
  | refused store since http e =>
    obtain ⟨M,x,hM,hp⟩ := occurrences_conclude { s with store } t since http (.error e)
    have ho : ({ s with store } : Service).occurrences = s.occurrences := rfl
    rw [ho] at hM
    refine speaks_of_silent (N := M ++ [_,_]) (by simpa using hM) fun u call => ?_
    simp [not_called_of_plain hp]
  | aside h => exact h.speaks

/-- Every call that a step makes is made by a session that is alive after it and is to stay. -/
theorem Act.speaks {t : Option ℕ} (h : Act s t s') (hs : s.Tidy) : Speaks s s' := by
  induction h with
  | aside h => exact h.speaks
  | handles hc h => exact h.speaks hc
  | @departs s s' w hw h =>
    have ht := hs.not_mem_scans (List.mem_of_find?_eq_some hw)
    exact h.speaks (s := { s with pool := s.pool.leave w.task }) ht
  | @arrives s s' w hw h ih =>
    obtain ⟨task,purpose,since,wait,deadline⟩ := w
    obtain rfl : task = s.nextTask := hw
    exact ih (hs.join purpose since wait deadline)

/-! ### Every run -/

/-- In a run a scan is abandoned while its session is to be taken out of service. -/
def Spoilt (s : Service) (es : List Event) (σ : Session) : Prop :=
  ∃ before e later, es = before ++ e :: later ∧ (s.run before).Spoils e σ

section Running

variable {P : Roster → Multiset (Session × Standing) → Prop} {Q : Session → Prop}

theorem Orderly.keep_step (hP : Stays Q P) (h : s.Orderly False) (he : e.sparing = true)
    (hsp : ∀ σ, s.Spoils e σ → Q σ) (hp : P s.store.roster s.roll) :
    P (s.step e).store.roster (s.step e).roll := by
  have hm (he : (e.ofScans || e.drains) = true) : P (s.step e).store.roster (s.step e).roll :=
    (h.step (e := e) (by simpa using he) hsp).1.keep (P := fun c => P c.store.roster c.roll)
      (fun _ _ => hP.move) hp
  cases e with
  | plan c fails => exact hp
  | assign entry => exact hp
  | command c => exact hP.command he hp
  | _ => exact hm he

theorem Orderly.keep_run (hP : Stays Q P) (h : s.Orderly False) {es : List Event}
    (hes : ∀ e ∈ es, e.sparing = true) (hsp : ∀ σ, s.Spoilt es σ → Q σ)
    (hp : P s.store.roster s.roll) : P (s.run es).store.roster (s.run es).roll := by
  induction es generalizing s with
  | nil => exact hp
  | cons e es ih =>
    have he := hes e List.mem_cons_self
    have hs (σ : Session) (hσ : s.Spoils e σ) : Q σ := hsp σ ⟨[],e,es,rfl,hσ⟩
    refine ih (h.shifts_step he hs).1 (fun e he => hes e (List.mem_cons_of_mem _ he)) ?_
      (h.keep_step hP he hs hp)
    rintro σ ⟨before,x,later,rfl,hσ⟩
    exact hsp σ ⟨e :: before,x,later,rfl,hσ⟩

/-- What the moves keep holds throughout a run, and of whoever calls in it. -/
theorem Orderly.calls_run (hP : Stays Q P) (h : s.Orderly False) (hp : P s.store.roster s.roll)
    {es : List Event} (hes : ∀ e ∈ es, e.sparing = true) (hsp : ∀ σ, s.Spoilt es σ → Q σ) :
    ∃ N, (s.run es).occurrences = N ++ s.occurrences ∧ ∀ t call, .called t call ∈ N →
      ∃ r roll, P r roll ∧ ∃ p ∈ roll, p.2.leaves = false ∧ ∃ a, call = p.1.call a := by
  induction es generalizing s with
  | nil => exact ⟨[],rfl,by simp⟩
  | cons e es ih =>
    have he := hes e List.mem_cons_self
    have hs (σ : Session) (hσ : s.Spoils e σ) : Q σ := hsp σ ⟨[],e,es,rfl,hσ⟩
    have ho := (h.shifts_step he hs).1
    have hp' := h.keep_step hP he hs hp
    obtain ⟨M,hM,hc⟩ := (s.act_step (Event.retires_of_sparing he)).speaks h.tidy
    obtain ⟨N,hN,hd⟩ := ih ho hp' (fun e he => hes e (List.mem_cons_of_mem _ he)) (by
      rintro σ ⟨before,x,later,rfl,hσ⟩
      exact hsp σ ⟨e :: before,x,later,rfl,hσ⟩)
    refine ⟨N ++ M,by rw [List.append_assoc,← hM]; exact hN,fun t call hm => ?_⟩
    rcases List.mem_append.mp hm with hm | hm
    · exact hd t call hm
    · obtain ⟨p,hp,hl,a,ha⟩ := hc t call hm
      exact ⟨_,_,hp',p,Multiset.mem_coe.mpr hp,hl,a,ha⟩

end Running

/-- No call between two states goes through an egress, or is made as an identity. -/
def NoCall (s s' : Service) (bad : RemoteCall → Prop) : Prop :=
  ∃ N, s'.occurrences = N ++ s.occurrences ∧ ∀ t call, .called t call ∈ N → ¬ bad call

/-- What has been found to be at fault in a run is used no more: no call is made through an egress
from the failure of the way on, and none as an identity from the refusal of its credentials on. If
the store could not mark it, that lasts until the scan is abandoned that waits for the registry to
give it up. -/
structure ShunsCondemned (s : Service) (es : List Event) : Prop where
  egress : ∀ before e later t c cause, es = before ++ e :: later → (s.run before).scan? t = some c →
    (s.run before).reply? c e = some (.error cause) → cause.category = .transport →
    ((s.run before).store.Accepts .killEgress ∨
      ∀ σ, ((s.run before).step e).Spoilt later σ → σ.egress.id ≠ c.session.egress.id) →
    NoCall (s.run before) (s.run es) fun call => call.egress = c.session.egress.id
  identity : ∀ before e later t c cause, es = before ++ e :: later →
    (s.run before).scan? t = some c → (s.run before).reply? c e = some (.error cause) →
    cause.category = .credential → ((s.run before).store.Accepts .banIdentity ∨
      ∀ σ, ((s.run before).step e).Spoilt later σ → σ.identity.name ≠ c.session.identity.name) →
    NoCall (s.run before) (s.run es) fun call => call.identity = c.session.identity.name

/-- What a step brings about and the moves keep rules out the calls of whoever has it against
them. -/
theorem Orderly.noCall {P : Roster → Multiset (Session × Standing) → Prop} {bad : RemoteCall → Prop}
    {Q : Session → Prop} (hP : Stays Q P)
    (hbad : ∀ r roll, P r roll → ∀ p ∈ roll, p.2.leaves = false → ∀ a, ¬ bad (p.1.call a))
    (h : s.Orderly False) {later : List Event} (hes : ∀ x ∈ e :: later, x.sparing = true)
    (hsp : ∀ σ, (s.step e).Spoilt later σ → Q σ) (hp : P (s.step e).store.roster (s.step e).roll) :
    NoCall s (s.run (e :: later)) bad := by
  have he := hes e List.mem_cons_self
  have ho := h.spared_step he
  obtain ⟨M,hM,hc⟩ := (s.act_step (Event.retires_of_sparing he)).speaks h.tidy
  obtain ⟨N,hN,hd⟩ := ho.calls_run hP hp (fun x hx => hes x (List.mem_cons_of_mem _ hx)) hsp
  refine ⟨N ++ M,by rw [List.append_assoc,← hM]; exact hN,fun t call hm => ?_⟩
  rcases List.mem_append.mp hm with hm | hm
  · obtain ⟨r,roll,hr,p,hp,hl,a,rfl⟩ := hd t call hm
    exact hbad r roll hr p hp hl a
  · obtain ⟨p,hpr,hl,a,rfl⟩ := hc t call hm
    exact hbad _ _ hp p (Multiset.mem_coe.mpr hpr) hl a

/-- Where a scan of a run fails, and what the step makes of it. -/
theorem Orderly.failing (h : s.Orderly False) (hx : Custody.Exclusive s.store.roster s.live)
    {before later : List Event} (hes : ∀ x ∈ before ++ e :: later, x.sparing = true) {t : ℕ}
    (hc : (s.run before).scan? t = some c) (hr : (s.run before).reply? c e = some (.error cause))
    (hn : cause.category ≠ RemoteFailure.invalidAuthToken.category) :
    (s.run before).Orderly False ∧ Custody.Exclusive (s.run before).store.roster
      (s.run before).live ∧ (s.run before).Has c ∧
      (s.run before).step e = (s.run before).fail c cause := by
  have hb : ∀ x ∈ before, x.sparing = true := fun x hx => hes x (List.mem_append_left _ hx)
  have ho := h.spared_run hb
  exact ⟨ho,h.exclusive_run hx hb,ho.tidy.has hc,step_of_failure hc hr fun he => hn (he ▸ rfl)⟩

theorem Orderly.shunsCondemned (h : s.Orderly False) (hx : Custody.Exclusive s.store.roster s.live)
    {es : List Event} (hes : ∀ x ∈ es, x.sparing = true) : s.ShunsCondemned es := by
  constructor
  · rintro before e later t c cause rfl hc hr hk hor
    obtain ⟨hb,hxb,hhas,hf⟩ := h.failing hx hes hc hr (by rw [hk]; decide)
    have hes' : ∀ x ∈ e :: later, x.sparing = true := fun x hx => hes x (List.mem_append_right _ hx)
    rw [run_append]
    rcases hor with ha | hsp
    · refine hb.noCall (stays_egressMarked c.session.egress.id) (fun r roll hp p hm hl a =>
        hp.ne_of_stays hm hl) hes' (fun _ _ => trivial) (Q := fun _ => True) ?_
      rw [hf]
      exact egressMarked_fail hhas hxb ha hk
    · refine hb.noCall (stays_egressBarred hsp) (fun r roll hp p hm hl a => hp.ne_of_stays hm hl)
        hes' (fun _ hσ => hσ) ?_
      rw [hf]
      exact egressBarred_fail hhas hxb hk
  · rintro before e later t c cause rfl hc hr hk hor
    obtain ⟨hb,hxb,hhas,hf⟩ := h.failing hx hes hc hr (by rw [hk]; decide)
    have hes' : ∀ x ∈ e :: later, x.sparing = true := fun x hx => hes x (List.mem_append_right _ hx)
    rw [run_append]
    rcases hor with ha | hsp
    · refine hb.noCall (stays_identityMarked c.session.identity.name)
        (fun r roll hp p hm hl a => hp.ne_of_stays hm hl) hes' (fun _ _ => trivial)
          (Q := fun _ => True) ?_
      rw [hf]
      exact identityMarked_fail hhas hxb ha hk
    · refine hb.noCall (stays_identityBarred hsp) (fun r roll hp p hm hl a => hp.ne_of_stays hm hl)
        hes' (fun _ hσ => hσ) ?_
      rw [hf]
      exact identityBarred_fail hhas hxb hk

/-- Condemned resources stay out of use in every run, whatever calls of the store fail, whichever
scans are aborted and whenever parked sessions are ended, as far as no scan on its way out is
aborted. -/
theorem condemned_out_of_use (settings : Settings) (store : Store) (clock : ℤ) {n : ℕ} {pool : Pool}
    (hp : Pool.ofCapacity n = .ready pool) {es : List Event} (hes : ∀ e ∈ es, e.sparing = true) :
    (fresh settings store pool clock).ShunsCondemned es := by
  have hf := exclusive_fresh settings store clock hp
  exact hf.1.shunsCondemned hf.2 hes

def callers (s : Service) : List (String × ℤ) := s.occurrences.filterMap Occurrence.caller?

/-- The store can neither mark the egress of the first scan as dead nor the identity of the second
as banned. A third scan goes with what is left. -/
def unmarked : List Event :=
  [.scan ⟨0,0⟩,.scan ⟨0,0⟩,.plan .killEgress [some .lock],.loginDone 0 (.error .egressDead),
    .plan .banIdentity [some .lock],.loginDone 1 (.error .accountBanned),
    .command (.addIdentity { name := "brock", secret := "" }),.scan ⟨0,0⟩]

theorem condemned_out_of_use_unmarked :
    ((sample.run unmarked).store.roster.egresses.all fun e => !e.dead) = true ∧
      ((sample.run unmarked).store.roster.identities.all fun i => !i.banned) = true ∧
      ((sample.run unmarked).callers.take 3).all (fun x => x = ("brock",2)) = true ∧
      sample.ShunsCondemned unmarked := by
  refine ⟨by decide +kernel,by decide +kernel,by decide +kernel,
    condemned_out_of_use _ stocked 0 (n := 1) rfl ?_⟩
  simp [unmarked,Event.sparing,Event.ofScans,Event.drains,Command.spares]

/-- From the refusal of its credentials on no call is made as an identity. -/
def ShunsRefused (s : Service) (es : List Event) : Prop :=
  ∀ before e later t c cause, es = before ++ e :: later → (s.run before).scan? t = some c →
    (s.run before).reply? c e = some (.error cause) → cause.category = .credential →
    NoCall (s.run before) (s.run es) fun call => call.identity = c.session.identity.name

theorem NoCall.countP_callers {name : String} (h : NoCall s s' fun call => call.identity = name) :
    s'.callers.countP (·.1 = name) = s.callers.countP (·.1 = name) := by
  obtain ⟨N,hN,hc⟩ := h
  have hzero : (N.filterMap Occurrence.caller?).countP (·.1 = name) = 0 := by
    rw [List.countP_eq_zero]
    intro x hx
    obtain ⟨o,ho,hox⟩ := List.mem_filterMap.mp hx
    cases o with
    | called t call =>
      obtain rfl := Option.some.inj hox
      simpa using hc t call ho
    | _ => simp [Occurrence.caller?] at hox
  rw [callers,callers,hN,List.filterMap_append,List.countP_append,hzero,Nat.zero_add]

/-- The store cannot mark an identity that was refused, and the scan is aborted while the registry
is locked. -/
def amnesty : List Event :=
  [.scan ⟨0,0⟩,.plan .banIdentity [some .lock],.lock,.loginDone 0 (.error .accountBanned),
    .abort 0,.scan ⟨0,0⟩,.turn .unlock,.turn (.register 1)]

def pardon : List Event :=
  [.scan ⟨0,0⟩,.plan .banIdentity [some .lock],.loginDone 0 (.error .accountBanned),
    .command (.releaseIdentity "ash"),.scan ⟨0,0⟩]

/-- An identity that was refused may be used again: if the scan is aborted that waits to give it up,
and if an administrator frees it. -/
theorem not_shunsRefused_amnesty :
    (∀ e ∈ amnesty, e.sparing = true) ∧ ¬ sample.ShunsRefused amnesty ∧
      ¬ sample.ShunsRefused pardon := by
  refine ⟨by simp [amnesty,Event.sparing,Event.ofScans],fun h => ?_,fun h => ?_⟩
  · have hn := (h (amnesty.take 3) (.loginDone 0 (.error .accountBanned)) (amnesty.drop 4) 0 _
      .accountBanned rfl
      rfl rfl rfl).countP_callers
    exact absurd hn (by decide +kernel)
  · have hn := (h (pardon.take 2) (.loginDone 0 (.error .accountBanned)) (pardon.drop 3) 0 _
      .accountBanned rfl
      rfl rfl rfl).countP_callers
    exact absurd hn (by decide +kernel)

end ScanService.Service
