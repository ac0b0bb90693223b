import ScanService.Proofs.CustodySteps
/-! Exclusive checkout. No two sessions alive have one identity or one egress, and the records of
both are marked as in use, whatever calls of the store fail on the way. -/
namespace ScanService.Custody

open Roster

/-- Names and ids of the sessions are distinct, and all of them are taken. -/
structure Exclusive (r : Roster) (live : Multiset Session) : Prop where
  names : (live.map (·.identity.name)).Nodup
  ids : (live.map (·.egress.id)).Nodup
  identities : ∀ σ ∈ live, r.IdentityTaken σ.identity.name
  egresses : ∀ σ ∈ live, r.EgressTaken σ.egress.id

theorem nodup_map_cons {κ : Type} {f : Session → κ} {session : Session} {live : Multiset Session} :
    ((session ::ₘ live).map f).Nodup ↔ (∀ σ ∈ live, f σ ≠ f session) ∧ (live.map f).Nodup := by
  simp [Multiset.nodup_cons]

namespace Exclusive

variable {r r' : Roster} {live : Multiset Session} {session : Session}

theorem keeps (h : Exclusive r live) (hk : Keeps r r') : Exclusive r' live where
  names := h.names
  ids := h.ids
  identities σ hσ := hk.identities _ (h.identities σ hσ)
  egresses σ hσ := hk.egresses _ (h.egresses σ hσ)

/-- A session joins whose name and id nobody has. -/
theorem cons (h : Exclusive r live)
    (hn : ∀ σ ∈ live, σ.identity.name ≠ session.identity.name)
    (hi : ∀ σ ∈ live, σ.egress.id ≠ session.egress.id)
    (htn : r.IdentityTaken session.identity.name)
    (hti : r.EgressTaken session.egress.id) :
    Exclusive r (session ::ₘ live) where
  names := nodup_map_cons.mpr ⟨hn,h.names⟩
  ids := nodup_map_cons.mpr ⟨hi,h.ids⟩
  identities σ hσ := by
    rcases Multiset.mem_cons.mp hσ with rfl | hσ
    · exact htn
    · exact h.identities σ hσ
  egresses σ hσ := by
    rcases Multiset.mem_cons.mp hσ with rfl | hσ
    · exact hti
    · exact h.egresses σ hσ

theorem name_ne (h : Exclusive r (session ::ₘ live)) :
    ∀ σ ∈ live, σ.identity.name ≠ session.identity.name := (nodup_map_cons.mp h.names).1

theorem id_ne (h : Exclusive r (session ::ₘ live)) :
    ∀ σ ∈ live, σ.egress.id ≠ session.egress.id := (nodup_map_cons.mp h.ids).1

theorem nodup_names {l : List Session} (h : Exclusive r l) : (l.map (·.identity.name)).Nodup := by
  simpa using h.names

theorem nodup_ids {l : List Session} (h : Exclusive r l) : (l.map (·.egress.id)).Nodup := by
  simpa using h.ids

/-- A session leaves, and whatever it does not have stays taken. -/
theorem spares (h : Exclusive r (session ::ₘ live))
    (hs : Spares session.identity.name session.egress.id r r') : Exclusive r' live where
  names := (nodup_map_cons.mp h.names).2
  ids := (nodup_map_cons.mp h.ids).2
  identities σ hσ := hs.identities _ (h.name_ne σ hσ) (h.identities σ (Multiset.mem_cons_of_mem hσ))
  egresses σ hσ := hs.egresses _ (h.id_ne σ hσ) (h.egresses σ (Multiset.mem_cons_of_mem hσ))

theorem name_ne_of_not_taken (h : Exclusive r live) {name : String}
    (hn : ¬ r.IdentityTaken name) : ∀ σ ∈ live, σ.identity.name ≠ name :=
  fun σ hσ he => hn (he ▸ h.identities σ hσ)

theorem id_ne_of_not_taken (h : Exclusive r live) {id : ℤ}
    (hn : ¬ r.EgressTaken id) : ∀ σ ∈ live, σ.egress.id ≠ id :=
  fun σ hσ he => hn (he ▸ h.egresses σ hσ)

end Exclusive

section Claims

variable {s t u : Store} {e : Egress} {i : Identity} {x : StoreFailure}

theorem keeps_of_claimEgress (h : s.claimEgress = (t,.ok e)) : Keeps s.roster t.roster := by
  have hk := keeps_claimEgress s.roster
  rw [Store.claimEgress_ok h] at hk
  exact hk

theorem keeps_of_claimIdentity (h : s.claimIdentity = (t,.ok i)) : Keeps s.roster t.roster := by
  have hk := keeps_claimIdentity s.roster
  rw [Store.claimIdentity_ok h] at hk
  exact hk

/-- An egress that is claimed and given back at once was not taken before. -/
theorem keeps_of_waste (he : s.claimEgress = (t,.ok e)) (hi : t.claimIdentity = (u,.error x)) :
    Keeps s.roster (u.releaseEgress e.id).1.roster := by
  have hu : Keeps s.roster u.roster := (Store.claimIdentity_error hi).roster ▸
    keeps_of_claimEgress he
  have hn := (claimEgress_taken (Store.claimEgress_ok he)).1
  constructor
  · intro n ht
    have hr : (u.releaseEgress e.id).1.roster.IdentityTaken n ↔ u.roster.IdentityTaken n := by
      simp only [IdentityTaken,u.identities_releaseEgress]
    exact hr.mpr (hu.identities n ht)
  · intro id hid
    have hne : id ≠ e.id := fun he => hn (he ▸ hid)
    exact (u.spares_releaseEgress "" e.id).egresses id hne (hu.egresses id hid)

end Claims

/-- What can become of the records and of the sessions alive while no session loses what it has:
what is taken stays taken, and what a session newly has was free and fit for use. A session that
leaves frees its own two resources, and only the fit one if it was to be taken out of service,
unless it may be spoilt. -/
inductive Shift (Q : Session → Prop) :
    Roster × Multiset (Session × Standing) → Roster × Multiset (Session × Standing) → Prop
  | stays {r r' : Roster} {roll : Multiset (Session × Standing)} (hk : Keeps r r') :
      Shift Q (r,roll) (r',roll)
  | joins {r r' : Roster} {roll : Multiset (Session × Standing)} {session : Session}
      (hk : Keeps r r') (hn : ¬ r.IdentityTaken session.identity.name)
      (hi : ¬ r.EgressTaken session.egress.id) (hb : ¬ r.IdentityBanned session.identity.name)
      (hd : ¬ r.EgressDead session.egress.id) (hn' : r'.IdentityTaken session.identity.name)
      (hi' : r'.EgressTaken session.egress.id) : Shift Q (r,roll) (r',(session,.coming) ::ₘ roll)
  | stands {r r' : Roster} {roll : Multiset (Session × Standing)} {session : Session}
      {a b : Standing} (hk : Keeps r r') (ha : a.leaves = false) :
      Shift Q (r,(session,a) ::ₘ roll) (r',(session,b) ::ₘ roll)
  | turns {r r' : Roster} {roll : Multiset (Session × Standing)} {session : Session} {e : Egress}
      (hk : Keeps r r') (hi : ¬ r.EgressTaken e.id) (hd : ¬ r.EgressDead e.id)
      (hi' : r'.EgressTaken e.id) :
      Shift Q (r,(session,.listed) ::ₘ roll) (r',(session.through e,.coming) ::ₘ roll)
  | retires {r r' : Roster} {roll : Multiset (Session × Standing)} {session : Session}
      {reason : Retirement} (hs : Spares session.identity.name session.egress.id r r')
      (hn : reason = .identityBanned → ∀ n, r.IdentityTaken n → r'.IdentityTaken n)
      (he : reason = .egressDead → ∀ e, r.EgressTaken e → r'.EgressTaken e) :
      Shift Q (r,(session,.leaving reason) ::ₘ roll) (r',roll)
  | leaves {r r' : Roster} {roll : Multiset (Session × Standing)} {session : Session} {a : Standing}
      (hs : Spares session.identity.name session.egress.id r r')
      (ha : a.leaves = true → Q session) :
      Shift Q (r,(session,a) ::ₘ roll) (r',roll)

def Shifts (Q : Session → Prop) :
    Roster × Multiset (Session × Standing) → Roster × Multiset (Session × Standing) → Prop :=
  Relation.ReflTransGen (Shift Q)

section Shifting

variable {books : Prop} {Q : Session → Prop} {c c' : Custody}
  {p q : Roster × Multiset (Session × Standing)}

/-- What every shift keeps, any number of shifts keep. -/
theorem Shifts.keep {P : Roster → Multiset (Session × Standing) → Prop}
    (hP : ∀ p q, Shift Q p q → P p.1 p.2 → P q.1 q.2) (h : Shifts Q p q) (hp : P p.1 p.2) :
    P q.1 q.2 := by
  induction h with
  | refl => exact hp
  | tail _ hs ih => exact hP _ _ hs ih

theorem spares_freed (store : Store) (session : Session) :
    Spares session.identity.name session.egress.id store.roster (session.freed store).roster :=
  (store.spares_releaseIdentity _ _).trans (Store.spares_releaseEgress _ _ _)

theorem spares_spare (reason : Retirement) (store : Store) (session : Session) :
    Spares session.identity.name session.egress.id store.roster
      (reason.spare store session).roster := by
  cases reason with
  | identityBanned => exact store.spares_releaseEgress _ _
  | egressDead => exact store.spares_releaseIdentity _ _

theorem Move.shift (h : Move books Q c c') :
    Shift Q (c.store.roster,c.roll) (c'.store.roster,c'.roll) := by
  cases h with
  | pause h => exact .stays (h.roster ▸ Keeps.refl _)
  | waste he hi => exact .stays (keeps_of_waste he hi)
  | @hire st₁ st₂ egress identity he hi =>
    have hte := claimEgress_taken (Store.claimEgress_ok he)
    have hti := claimIdentity_taken (Store.claimIdentity_ok hi)
    have hk := keeps_of_claimEgress he
    have hk' := keeps_of_claimIdentity hi
    have hids : st₁.roster.identities = c.store.roster.identities :=
      (claimEgress_works (Store.claimEgress_ok he)).2
    refine .joins (hk.trans hk') (fun h => hti.1 (hk.identities _ h)) hte.1 (fun h => ?_)
      (fun h => h.not_claimed (Store.claimEgress_ok he)) hti.2 (hk'.egresses _ hte.2)
    have hb : st₁.roster.IdentityBanned identity.name := by
      rw [IdentityBanned,hids]
      exact h
    exact hb.not_claimed (Store.claimIdentity_ok hi)
  | greet hc | enter hc =>
    rw [hc]
    exact .stands (Keeps.refl _) rfl
  | @swap st egress session roll hc he =>
    have hte := claimEgress_taken (Store.claimEgress_ok he)
    have hk := c.store.keeps_kill session.egress.id
    have hd := c.store.keepsDead_kill session.egress.id
    rw [hc]
    exact .turns (hk.trans (keeps_of_claimEgress he)) (fun h => hte.1 (hk.egresses _ h))
      (fun h => (hd _ h).not_claimed (Store.claimEgress_ok he)) hte.2
  | @bury st session roll hc h =>
    rw [hc]
    exact .stands (h.roster ▸ c.store.keeps_kill session.egress.id) rfl
  | expel hc =>
    rw [hc]
    exact .stands (c.store.keeps_ban _) rfl
  | @dismiss reason session roll hc =>
    rw [hc]
    refine .retires (spares_spare reason c.store session) ?_ ?_
    · rintro rfl n hn
      simpa only [Retirement.spare,IdentityTaken,Store.identities_releaseEgress] using hn
    · rintro rfl e he
      simpa only [Retirement.spare,EgressTaken,Store.egresses_releaseIdentity] using he
  | abandon hc ha hd =>
    rw [hc]
    cases hd <;> exact .leaves (spares_freed _ _) ha
  | drain hc _ =>
    rw [hc]
    exact .leaves (spares_freed _ _) (by simp [Standing.leaves])
  | relist _ _ _ => exact .stays (Keeps.refl _)

theorem Moves.shifts (h : Moves books Q c c') :
    Shifts Q (c.store.roster,c.roll) (c'.store.roster,c'.roll) := by
  induction h with
  | refl => exact .refl
  | tail _ hm ih => exact .tail ih hm.shift

theorem Shift.exclusive (h : Shift Q p q) (hp : Exclusive p.1 (p.2.map Prod.fst)) :
    Exclusive q.1 (q.2.map Prod.fst) := by
  cases h with
  | stays hk => exact hp.keeps hk
  | joins hk hn hi _ _ hn' hi' =>
    rw [Multiset.map_cons]
    exact (hp.keeps hk).cons (hp.name_ne_of_not_taken hn) (hp.id_ne_of_not_taken hi) hn' hi'
  | stands hk _ =>
    rw [Multiset.map_cons] at hp ⊢
    exact hp.keeps hk
  | @turns r r' roll session e hk hi _ hi' =>
    rw [Multiset.map_cons] at hp ⊢
    have hl := hp.spares (hk.spares _ _)
    refine hl.cons hp.name_ne ?_ ?_ hi'
    · exact fun σ hσ => hp.id_ne_of_not_taken hi σ (Multiset.mem_cons_of_mem hσ)
    · exact hk.identities _ (hp.identities session (Multiset.mem_cons_self _ _))
  | retires hs _ _ | leaves hs _ =>
    rw [Multiset.map_cons] at hp
    exact hp.spares hs

theorem Move.exclusive (h : Move books Q c c') (hc : Exclusive c.store.roster c.live) :
    Exclusive c'.store.roster c'.live :=
  h.shift.exclusive hc

theorem Shifts.exclusive (h : Shifts Q p q) (hp : Exclusive p.1 (p.2.map Prod.fst)) :
    Exclusive q.1 (q.2.map Prod.fst) :=
  h.keep (P := fun r roll => Exclusive r (roll.map Prod.fst)) (fun _ _ => Shift.exclusive) hp

end Shifting

end ScanService.Custody

namespace ScanService

/-- What clears no use flag of a session alive and removes no record: the scans, the ends of parked
sessions, planned faults, and an administrator who adds, bans, kills, claims or looks up. -/
def Event.sparing : Event → Bool
  | plan _ _ | assign _ => true
  | command c => c.spares
  | e => e.ofScans || e.drains

namespace Service

/-- No two sessions alive share an identity or an egress, and both of each are marked as in use. -/
structure Exclusive (s : Service) : Prop where
  names : (s.live.map (·.identity.name)).Nodup
  ids : (s.live.map (·.egress.id)).Nodup
  used : ∀ σ ∈ s.live, ∃ i, s.store.roster.identity? σ.identity.name = some i ∧ i.used = true
  inUse : ∀ σ ∈ s.live, ∃ e, s.store.roster.egress? σ.egress.id = some e ∧ e.inUse = true

theorem exclusive_of_custody {s : Service} (h : Custody.Exclusive s.store.roster s.live) :
    s.Exclusive where
  names := h.nodup_names
  ids := h.nodup_ids
  used σ hσ := (h.identities σ hσ).record
  inUse σ hσ := (h.egresses σ hσ).record

variable {Q : Session → Prop}

/-- A step that spares the sessions alive is made of shifts. -/
theorem Orderly.shifts_step {s : Service} (h : s.Orderly False) {e : Event} (he : e.sparing = true)
    (hsp : ∀ σ, s.Spoils e σ → Q σ) : (s.step e).Orderly False ∧
      Custody.Shifts Q (s.store.roster,s.roll) ((s.step e).store.roster,(s.step e).roll) := by
  have hm (he : (e.ofScans || e.drains) = true) : (s.step e).Orderly False ∧
      Custody.Shifts Q (s.store.roster,s.roll) ((s.step e).store.roster,(s.step e).roll) := by
    have hs := h.step (e := e) (by simpa using he) hsp
    exact ⟨hs.2,hs.1.shifts⟩
  cases e with
  | plan c fails => exact ⟨h.onBooks _ _ _,.refl⟩
  | assign entry => exact ⟨h.onBooks _ _ _,.refl⟩
  | command c => exact ⟨h.onBooks _ _ _,.single (.stays (s.store.keeps_run c he))⟩
  | _ => exact hm he

/-- A run that spares the sessions alive is made of shifts. -/
theorem Orderly.shifts_run {s : Service} (h : s.Orderly False) {es : List Event}
    (hes : ∀ e ∈ es, e.sparing = true)
    (hsp : ∀ before e later, es = before ++ e :: later → ∀ σ, (s.run before).Spoils e σ → Q σ) :
    (s.run es).Orderly False ∧
      Custody.Shifts Q (s.store.roster,s.roll) ((s.run es).store.roster,(s.run es).roll) := by
  induction es generalizing s with
  | nil => exact ⟨h,.refl⟩
  | cons e es ih =>
    have hs := h.shifts_step (hes e List.mem_cons_self) (hsp [] e es rfl)
    have hr := ih hs.1 (fun e he => hes e (List.mem_cons_of_mem _ he))
      fun before x later hx => hsp (e :: before) x later (congrArg (List.cons e) hx)
    exact ⟨hr.1,hs.2.trans hr.2⟩

theorem Orderly.spared_step {s : Service} (h : s.Orderly False) {e : Event}
    (he : e.sparing = true) : (s.step e).Orderly False :=
  (h.shifts_step (Q := fun _ => True) he fun _ _ => trivial).1

theorem Orderly.spared_run {s : Service} (h : s.Orderly False) {es : List Event}
    (hes : ∀ e ∈ es, e.sparing = true) : (s.run es).Orderly False :=
  (h.shifts_run (Q := fun _ => True) hes fun _ _ _ _ _ _ => trivial).1

theorem Orderly.exclusive_run {s : Service} (h : s.Orderly False)
    (hx : Custody.Exclusive s.store.roster s.live) {es : List Event}
    (hes : ∀ e ∈ es, e.sparing = true) :
    Custody.Exclusive (s.run es).store.roster (s.run es).live := by
  have hr := (h.shifts_run (Q := fun _ => True) hes fun _ _ _ _ _ _ => trivial).2
  rw [← live_custody] at hx ⊢
  exact hr.exclusive hx

theorem exclusive_fresh (settings : Settings) (store : Store) (clock : ℤ) {n : ℕ} {pool : Pool}
    (hp : Pool.ofCapacity n = .ready pool) : (fresh settings store pool clock).Orderly False ∧
      Custody.Exclusive store.roster (fresh settings store pool clock).live := by
  have hf : Orderly False _ ∧ _ := orderly_fresh settings store clock hp
  refine ⟨hf.1,?_⟩
  rw [hf.2]
  exact ⟨by simp,by simp,by simp,by simp⟩

/-- Exclusive checkout: in every state that a service reaches, whatever calls of the store fail,
whichever scans are aborted and whenever parked sessions are ended. -/
theorem exclusive_checkout (settings : Settings) (store : Store) (clock : ℤ) {n : ℕ} {pool : Pool}
    (hp : Pool.ofCapacity n = .ready pool) {es : List Event} (hes : ∀ e ∈ es, e.sparing = true) :
    ((fresh settings store pool clock).run es).Exclusive := by
  have hf := exclusive_fresh settings store clock hp
  exact exclusive_of_custody (hf.1.exclusive_run hf.2 hes)

def stocked : Store :=
  { Store.empty with
    roster := ⟨[⟨"ash","","ptc",false,false⟩,⟨"misty","","ptc",false,false⟩],
      [{ id := 1 },{ id := 2 },{ id := 3 }]⟩ }

def sample : Service := fresh { acquireWait := 0, cooldown := 0, queryTimeout := 1000 } stocked
    ⟨1,[],[],[],[],0⟩ 0

/-- The first of two scans goes on through another egress, although the store cannot mark the old
one. -/
def substitution : List Event :=
  [.scan ⟨0,0⟩,.scan ⟨0,0⟩,.plan .killEgress [some .lock],.loginDone 0 (.error .egressDead)]

theorem exclusive_checkout_substitution :
    ((sample.run substitution).live.map fun σ => (σ.identity.name,σ.egress.id)) = [("ash",3),
      ("misty",2)] ∧ (sample.run substitution).Exclusive := by
  refine ⟨by decide +kernel,exclusive_checkout _ stocked 0 (n := 1) rfl ?_⟩
  simp [substitution,Event.sparing,Event.ofScans]

end Service

end ScanService
