import Mathlib.Data.Multiset.Filter
import ScanService.Proofs.Exclusive
/-! No leaked resource. While no call of the store fails, the records that are in use and not
condemned are those of the sessions alive, one session to a record. -/
namespace ScanService

namespace Custody

open Roster

def serving (reason : Retirement) (roll : Multiset (Session × Standing)) : Multiset Session :=
  (roll.filter fun p => p.2 ≠ .leaving reason).map Prod.fst

/-- At work is exactly what a session alive has, unless it is what the session is taken out of
service for. -/
structure Accounted (r : Roster) (roll : Multiset (Session × Standing)) : Prop where
  identities : ∀ n, r.IdentityWorks n ↔ n ∈ (serving .identityBanned roll).map (·.identity.name)
  egresses : ∀ e, r.EgressWorks e ↔ e ∈ (serving .egressDead roll).map (·.egress.id)

section Serving

variable {reason : Retirement} {roll : Multiset (Session × Standing)} {session : Session}
    {a : Standing}

theorem serving_cons (h : a ≠ .leaving reason) :
    serving reason ((session,a) ::ₘ roll) = session ::ₘ serving reason roll := by
  rw [serving,Multiset.filter_cons_of_pos (p := fun p : Session × Standing =>
    p.2 ≠ .leaving reason) _ h,Multiset.map_cons]
  rfl

theorem serving_cons_leaving :
    serving reason ((session,.leaving reason) ::ₘ roll) = serving reason roll := by
  rw [serving,Multiset.filter_cons_of_neg (p := fun p : Session × Standing =>
    p.2 ≠ .leaving reason) _ (by simp)]
  rfl

theorem serving_le (reason : Retirement) (roll : Multiset (Session × Standing)) :
    serving reason roll ≤ roll.map Prod.fst :=
  Multiset.map_le_map (Multiset.filter_le _ _)

theorem serving_of_none (h : ∀ p ∈ roll, p.2.leaves = false) :
    serving reason roll = roll.map Prod.fst := by
  rw [serving,Multiset.filter_eq_self.mpr]
  intro p hp he
  simpa [he,Standing.leaves] using h p hp

end Serving

section Keys

variable {κ : Type} {works works' : κ → Prop} {keys keys' : Multiset κ} {k : κ}

theorem works_cons (h : ∀ m, works m ↔ m ∈ keys) (hw : ∀ m, works' m ↔ works m ∨ m = k) :
    ∀ m, works' m ↔ m ∈ k ::ₘ keys := by
  intro m
  rw [hw,h,Multiset.mem_cons]
  exact or_comm

theorem works_without (h : ∀ m, works m ↔ m ∈ keys') (hk : keys' = k ::ₘ keys ∨ keys' = keys)
    (hn : k ∉ keys) (hw : ∀ m, works' m ↔ works m ∧ m ≠ k) : ∀ m, works' m ↔ m ∈ keys := by
  intro m
  rw [hw,h]
  constructor
  · rintro ⟨hm,hne⟩
    rcases hk with rfl | rfl
    · exact (Multiset.mem_cons.mp hm).resolve_left hne
    · exact hm
  · intro hm
    refine ⟨?_,fun he => hn (he ▸ hm)⟩
    rcases hk with rfl | rfl
    · exact Multiset.mem_cons_of_mem hm
    · exact hm

end Keys

namespace Exclusive

variable {r : Roster} {reason : Retirement} {roll : Multiset (Session × Standing)}
    {session : Session}

theorem name_not_mem (h : Exclusive r (session ::ₘ roll.map Prod.fst)) :
    session.identity.name ∉ (serving reason roll).map (·.identity.name) := by
  intro hm
  obtain ⟨σ,hσ,he⟩ := Multiset.mem_map.mp hm
  exact h.name_ne σ (Multiset.mem_of_le (serving_le _ _) hσ) he

theorem id_not_mem (h : Exclusive r (session ::ₘ roll.map Prod.fst)) :
    session.egress.id ∉ (serving reason roll).map (·.egress.id) := by
  intro hm
  obtain ⟨σ,hσ,he⟩ := Multiset.mem_map.mp hm
  exact h.id_ne σ (Multiset.mem_of_le (serving_le _ _) hσ) he

end Exclusive

namespace Accounted

variable {r r' : Roster} {roll : Multiset (Session × Standing)} {session : Session} {a : Standing}

theorem same (h : Accounted r roll) (hw : SameWorks r r') : Accounted r' roll :=
  ⟨fun n => (hw.identities n).trans (h.identities n),fun e => (hw.egresses e).trans (h.egresses e)⟩

/-- How a session stands matters only if it is to be taken out of service. -/
theorem stands {b : Standing} (h : Accounted r ((session,a) ::ₘ roll)) (ha : a.leaves = false)
    (hb : b.leaves = false) : Accounted r ((session,b) ::ₘ roll) := by
  have hn {x : Standing} (hx : x.leaves = false) (reason : Retirement) : x ≠ .leaving reason := by
    rintro rfl
    simp [Standing.leaves] at hx
  obtain ⟨hi,he⟩ := h
  rw [serving_cons (hn ha _)] at hi he
  constructor
  · rwa [serving_cons (hn hb _)]
  · rwa [serving_cons (hn hb _)]

theorem not_egressWorks (h : Accounted r roll) {e : ℤ}
    (hn : e ∉ (roll.map Prod.fst).map (·.egress.id)) : ¬ r.EgressWorks e := fun hw =>
  hn (Multiset.mem_of_le (Multiset.map_le_map (serving_le _ _)) ((h.egresses e).mp hw))

theorem without_name (h : Accounted r ((session,a) ::ₘ roll))
    (hx : Exclusive r (session ::ₘ roll.map Prod.fst))
    (hw : ∀ n, r'.IdentityWorks n ↔ r.IdentityWorks n ∧ n ≠ session.identity.name) :
    ∀ n, r'.IdentityWorks n ↔ n ∈ (serving .identityBanned roll).map (·.identity.name) := by
  refine works_without h.identities ?_ hx.name_not_mem hw
  by_cases ha : a = .leaving .identityBanned
  · exact Or.inr (by rw [ha,serving_cons_leaving])
  · exact Or.inl (by rw [serving_cons ha,Multiset.map_cons])

theorem without_id (h : Accounted r ((session,a) ::ₘ roll))
    (hx : Exclusive r (session ::ₘ roll.map Prod.fst))
    (hw : ∀ e, r'.EgressWorks e ↔ r.EgressWorks e ∧ e ≠ session.egress.id) :
    ∀ e, r'.EgressWorks e ↔ e ∈ (serving .egressDead roll).map (·.egress.id) := by
  refine works_without h.egresses ?_ hx.id_not_mem hw
  by_cases ha : a = .leaving .egressDead
  · exact Or.inr (by rw [ha,serving_cons_leaving])
  · exact Or.inl (by rw [serving_cons ha,Multiset.map_cons])

end Accounted

section Moves

variable {s t u : Store} {roll : Multiset (Session × Standing)} {session : Session} {e : Egress}
  {i : Identity} {x : StoreFailure} {a : Standing}

theorem accounted_waste (hs : s.Faultless) (ha : Accounted s.roster roll)
    (hx : Exclusive s.roster (roll.map Prod.fst)) (he : s.claimEgress = (t,.ok e))
    (hi : t.claimIdentity = (u,.error x)) : Accounted (u.releaseEgress e.id).1.roster roll := by
  have hw := claimEgress_works (Store.claimEgress_ok he)
  have hu : u.roster = t.roster := (Store.claimIdentity_error hi).roster
  have hf : u.Faultless := Store.claimIdentity_faultless hi (Store.claimEgress_faultless he hs)
  have hr : (u.releaseEgress e.id).1.roster = t.roster.releaseEgress e.id := hu ▸ hf.onRoster_roster
  -- nobody has the egress, so it was not at work before the claim
  have hn : ¬ s.roster.EgressWorks e.id := by
    refine ha.not_egressWorks fun hm => ?_
    obtain ⟨σ,hσ,hid⟩ := Multiset.mem_map.mp hm
    exact (claimEgress_taken (Store.claimEgress_ok he)).1 (hid ▸ hx.egresses σ hσ)
  rw [hr]
  refine ha.same ⟨fun n => ?_,fun y => ?_⟩
  · have hid : (t.roster.releaseEgress e.id).identities = s.roster.identities := hw.2
    simp only [IdentityWorks,hid]
  · rw [works_releaseEgress,hw.1]
    constructor
    · rintro ⟨hy | hy,hne⟩
      · exact hy
      · exact absurd hy hne
    · intro hy
      exact ⟨Or.inl hy,fun h => hn (h ▸ hy)⟩

theorem accounted_hire {serial : ℕ} (ha : Accounted s.roster roll) (he : s.claimEgress = (t,.ok e))
    (hi : t.claimIdentity = (u,.ok i)) : Accounted u.roster ((⟨serial,i,e⟩,.coming) ::ₘ roll) := by
  have hwe := claimEgress_works (Store.claimEgress_ok he)
  have hwi := claimIdentity_works (Store.claimIdentity_ok hi)
  constructor
  · rw [serving_cons (by simp),Multiset.map_cons]
    refine works_cons ha.identities fun n => ?_
    simpa only [IdentityWorks,hwe.2] using hwi.1 n
  · rw [serving_cons (by simp),Multiset.map_cons]
    refine works_cons ha.egresses fun y => ?_
    simpa only [EgressWorks,hwi.2] using hwe.1 y

theorem accounted_swap (hs : s.Faultless) (ha : Accounted s.roster ((session,.listed) ::ₘ roll))
    (hx : Exclusive s.roster (session ::ₘ roll.map Prod.fst))
    (h : (s.kill session.egress.id).1.claimEgress = (t,.ok e)) :
    Accounted t.roster ((session.through e,.coming) ::ₘ roll) := by
  have hk : (s.kill session.egress.id).1.roster = s.roster.kill session.egress.id :=
    hs.onRoster_roster
  have hw := claimEgress_works (Store.claimEgress_ok h)
  rw [hk] at hw
  constructor
  · intro n
    have hid : t.roster.identities = s.roster.identities := hw.2
    have hn := ha.identities n
    rw [serving_cons (by simp),Multiset.map_cons] at hn ⊢
    simpa only [IdentityWorks,hid,Session.through] using hn
  · rw [serving_cons (by simp),Multiset.map_cons]
    exact works_cons (ha.without_id hx fun y => works_kill) hw.1

theorem accounted_bury (hs : s.Faultless) (ha : Accounted s.roster ((session,.listed) ::ₘ roll))
    (hx : Exclusive s.roster (session ::ₘ roll.map Prod.fst))
    (h : (s.kill session.egress.id).1.SameRecords t) :
    Accounted t.roster ((session,.leaving .egressDead) ::ₘ roll) := by
  have hk : t.roster = s.roster.kill session.egress.id := h.roster.trans hs.onRoster_roster
  rw [hk]
  constructor
  · intro n
    have hn := ha.identities n
    rwa [serving_cons (by simp)] at hn ⊢
  · rw [serving_cons_leaving]
    exact ha.without_id hx fun y => works_kill

theorem accounted_expel (hs : s.Faultless) (ha : Accounted s.roster ((session,.listed) ::ₘ roll))
    (hx : Exclusive s.roster (session ::ₘ roll.map Prod.fst)) :
    Accounted (s.ban session.identity.name).1.roster
      ((session,.leaving .identityBanned) ::ₘ roll) := by
  have hb : (s.ban session.identity.name).1.roster = s.roster.ban session.identity.name :=
    hs.onRoster_roster
  rw [hb]
  constructor
  · rw [serving_cons_leaving]
    exact ha.without_name hx fun n => works_ban
  · intro e
    have he := ha.egresses e
    rwa [serving_cons (by simp)] at he ⊢

theorem accounted_spare (hs : s.Faultless) {reason : Retirement}
    (ha : Accounted s.roster ((session,.leaving reason) ::ₘ roll))
    (hx : Exclusive s.roster (session ::ₘ roll.map Prod.fst)) :
    Accounted (reason.spare s session).roster roll := by
  cases reason with
  | identityBanned =>
    have hr : (s.releaseEgress session.egress.id).1.roster = s.roster.releaseEgress
        session.egress.id :=
      hs.onRoster_roster
    rw [Retirement.spare,hr]
    refine ⟨fun n => ?_,ha.without_id hx fun y => works_releaseEgress⟩
    have hn := ha.identities n
    rwa [serving_cons_leaving] at hn
  | egressDead =>
    have hr : (s.releaseIdentity session.identity.name).1.roster =
        s.roster.releaseIdentity session.identity.name := hs.onRoster_roster
    rw [Retirement.spare,hr]
    refine ⟨ha.without_name hx fun n => works_releaseIdentity,fun y => ?_⟩
    have hy := ha.egresses y
    rwa [serving_cons_leaving] at hy

theorem accounted_freed (hs : s.Faultless) (ha : Accounted s.roster ((session,a) ::ₘ roll))
    (hx : Exclusive s.roster (session ::ₘ roll.map Prod.fst)) :
    Accounted (session.freed s).roster roll := by
  have hb : (s.releaseIdentity session.identity.name).1.roster =
      s.roster.releaseIdentity session.identity.name := hs.onRoster_roster
  have hf : (s.releaseIdentity session.identity.name).1.Faultless := hs.onRoster
  have hr : (session.freed s).roster =
      (s.roster.releaseIdentity session.identity.name).releaseEgress session.egress.id :=
    hb ▸ hf.onRoster_roster
  rw [hr]
  exact ⟨ha.without_name hx fun n => works_releaseIdentity,ha.without_id hx fun y =>
    works_releaseEgress⟩

end Moves

section Keeping

variable {books : Prop} {Q : Session → Prop} {c c' : Custody}

theorem faultless_freed {s : Store} (h : s.Faultless) (session : Session) :
    (session.freed s).Faultless := Store.Faultless.onRoster h.onRoster

theorem Move.faultless (h : Move books Q c c') (hc : c.store.Faultless) : c'.store.Faultless := by
  cases h with
  | pause h => exact h.faultless hc
  | waste he hi =>
    exact (Store.claimIdentity_faultless hi (Store.claimEgress_faultless he hc)).onRoster
  | hire he hi => exact Store.claimIdentity_faultless hi (Store.claimEgress_faultless he hc)
  | greet _ | enter _ | relist _ _ _ => exact hc
  | swap _ h => exact Store.claimEgress_faultless h hc.onRoster
  | bury _ h => exact h.faultless hc.onRoster
  | expel _ => exact hc.onRoster
  | @dismiss reason session roll _ => cases reason <;> exact hc.onRoster
  | abandon _ _ hd => cases hd <;> exact faultless_freed hc _
  | drain _ _ => exact faultless_freed hc _

/-- Without faults every move keeps the accounts. -/
theorem Move.accounted (h : Move books Q c c') (hc : c.store.Faultless)
    (hx : Exclusive c.store.roster c.live) (ha : Accounted c.store.roster c.roll) :
    Accounted c'.store.roster c'.roll := by
  have hx' {session : Session} {a : Standing} {roll : Multiset (Session × Standing)}
      (hr : c.roll = (session,a) ::ₘ roll) : Exclusive c.store.roster
        (session ::ₘ roll.map Prod.fst) :=
    live_of_roll hr ▸ hx
  cases h with
  | pause h => exact h.roster ▸ ha
  | waste he hi => exact accounted_waste hc ha hx he hi
  | hire he hi => exact accounted_hire ha he hi
  | greet hr | enter hr => exact (hr ▸ ha).stands rfl rfl
  | swap hr h => exact accounted_swap hc (hr ▸ ha) (hx' hr) h
  | bury hr h => exact accounted_bury hc (hr ▸ ha) (hx' hr) h
  | expel hr => exact accounted_expel hc (hr ▸ ha) (hx' hr)
  | dismiss hr => exact accounted_spare hc (hr ▸ ha) (hx' hr)
  | abandon hr _ hd => cases hd <;> exact accounted_freed hc (hr ▸ ha) (hx' hr)
  | drain hr _ => exact accounted_freed hc (hr ▸ ha) (hx' hr)
  | relist _ _ _ => exact ha

/-- What holds of the records and of the sessions alive while no call of the store fails. -/
structure Balanced (s : Store) (roll : Multiset (Session × Standing)) : Prop where
  faultless : s.Faultless
  exclusive : Exclusive s.roster (roll.map Prod.fst)
  accounted : Accounted s.roster roll

theorem Moves.balanced (h : Moves books Q c c') (hc : Balanced c.store c.roll) :
    Balanced c'.store c'.roll :=
  h.keep (P := fun c => Balanced c.store c.roll) (fun _ _ hm hb => ⟨hm.faultless hb.faultless,
    hm.exclusive hb.exclusive,hm.accounted hb.faultless hb.exclusive hb.accounted⟩) hc

end Keeping

end Custody

/-- What sets no flag and makes no call fail: the scans, the ends of parked sessions, and an
administrator who adds free records or looks up. -/
def Event.flagless : Event → Bool
  | assign _ => true
  | command c => c.flagless
  | e => e.ofScans || e.drains

namespace Service

/-- Every record that is in use and not condemned is that of one session alive, and whatever nobody
has and is not condemned can be claimed. While nothing can go on there are no more sessions than
records that are not condemned. -/
structure Accounted (s : Service) : Prop where
  identity : ∀ i ∈ s.store.roster.identities, i.used = true → i.banned = false →
    (s.live.countP fun σ => σ.identity.name = i.name) = 1
  egress : ∀ e ∈ s.store.roster.egresses, e.inUse = true → e.dead = false →
    (s.live.countP fun σ => σ.egress.id = e.id) = 1
  le_identities : s.quiet → s.live.length ≤ (s.store.roster.identities.filter fun i =>
    !i.banned).length
  le_egresses : s.quiet → s.live.length ≤ (s.store.roster.egresses.filter fun e => !e.dead).length
  free_identity : ∀ i ∈ s.store.roster.identities, (∀ σ ∈ s.live, σ.identity.name ≠ i.name) →
    i.banned = false → i.claimable = true
  free_egress : ∀ e ∈ s.store.roster.egresses, (∀ σ ∈ s.live, σ.egress.id ≠ e.id) →
    e.dead = false → e.claimable = true

section Counting

variable {α κ : Type} [DecidableEq κ] {l : List Session} {f : Session → κ}
    {rows : List α} {key : α → κ}
  {busy out : α → Bool}

theorem countP_key (hn : (l.map f).Nodup) (hw : ∀ k, Table.Works key busy out rows k → k ∈ l.map f)
    {x : α} (hx : x ∈ rows) (hb : busy x = true) (ho : out x = false) :
    (l.countP fun σ => f σ = key x) = 1 := by
  have hm := hw (key x) ⟨x,hx,rfl,hb,ho⟩
  have hc := List.count_eq_one_of_mem hn hm
  rw [List.count_eq_countP,List.countP_map] at hc
  rw [← hc]
  apply List.countP_congr
  intro σ _
  simp

omit [DecidableEq κ] in
theorem length_le_rows (hn : (l.map f).Nodup)
    (hw : ∀ k ∈ l.map f, Table.Works key busy out rows k) :
    l.length ≤ (rows.filter fun x => !out x).length := by
  have hs : l.map f ⊆ (rows.filter fun x => !out x).map key := by
    intro k hk
    obtain ⟨x,hx,he,_,ho⟩ := hw k hk
    exact List.mem_map.mpr ⟨x,List.mem_filter.mpr ⟨hx,by simp [ho]⟩,he⟩
  simpa using (List.subperm_of_subset hn hs).length_le

end Counting

theorem serving_of_quiet {s : Service} (h : s.quiet) (reason : Retirement) :
    Custody.serving reason s.roll = s.live := by
  rw [Custody.serving_of_none,Multiset.map_coe,map_roll]
  intro p hp
  rw [(settled_of_quiet h).2.2.2 p hp]
  rfl

theorem accounted_of_balanced {s : Service} (h : Custody.Balanced s.store s.roll) :
    s.Accounted := by
  have hx := h.exclusive
  rw [Multiset.map_coe,map_roll] at hx
  have hnames := hx.nodup_names
  have hids := hx.nodup_ids
  have hlive (reason : Retirement) : Custody.serving reason s.roll ≤ s.live := by
    have hle := Custody.serving_le reason (s.roll : Multiset (Session × Standing))
    rwa [Multiset.map_coe,map_roll] at hle
  have hn (n : String) (hw : s.store.roster.IdentityWorks n) : n ∈ s.live.map (·.identity.name) :=
    Multiset.mem_of_le (Multiset.map_le_map (hlive _)) ((h.accounted.identities n).mp hw)
  have he (e : ℤ) (hw : s.store.roster.EgressWorks e) : e ∈ s.live.map (·.egress.id) :=
    Multiset.mem_of_le (Multiset.map_le_map (hlive _)) ((h.accounted.egresses e).mp hw)
  refine ⟨?_,?_,fun hq => ?_,fun hq => ?_,?_,?_⟩
  · exact fun i hi hu hb => countP_key hnames hn hi hu hb
  · exact fun e hm hu hd => countP_key hids he hm hu hd
  · refine length_le_rows hnames fun n hm => (h.accounted.identities n).mpr ?_
    rwa [serving_of_quiet hq]
  · refine length_le_rows hids fun e hm => (h.accounted.egresses e).mpr ?_
    rwa [serving_of_quiet hq]
  · intro i hi hfree hb
    cases hu : i.used with
    | false => simp [Identity.claimable,hu,hb]
    | true =>
      obtain ⟨σ,hσ,hname⟩ := List.mem_map.mp (hn i.name ⟨i,hi,rfl,hu,hb⟩)
      exact absurd hname (hfree σ hσ)
  · intro e hm hfree hd
    cases hu : e.inUse with
    | false => simp [Egress.claimable,hu,hd]
    | true =>
      obtain ⟨σ,hσ,hid⟩ := List.mem_map.mp (he e.id ⟨e,hm,rfl,hu,hd⟩)
      exact absurd hid (hfree σ hσ)

theorem Orderly.balanced_step {s : Service} (h : s.Orderly False)
    (hb : Custody.Balanced s.store s.roll) {e : Event} (he : e.flagless = true) :
    (s.step e).Orderly False ∧ Custody.Balanced (s.step e).store (s.step e).roll := by
  have hm (he : (e.ofScans || e.drains) = true) :
      (s.step e).Orderly False ∧ Custody.Balanced (s.step e).store (s.step e).roll := by
    have hs := h.step (e := e) (Q := fun _ => True) (by simpa using he) fun _ _ => trivial
    exact ⟨hs.2,hs.1.balanced hb⟩
  cases e with
  | assign entry => exact ⟨h.onBooks _ _ _,hb⟩
  | command c =>
    exact ⟨h.onBooks _ _ _,⟨hb.faultless.run he,
      hb.exclusive.keeps (s.store.keeps_run c (Command.spares_of_flagless he)),
      hb.accounted.same (s.store.works_run c he)⟩⟩
  | _ => exact hm he

theorem Orderly.balanced_run {s : Service} (h : s.Orderly False)
    (hb : Custody.Balanced s.store s.roll) {es : List Event} (hes : ∀ e ∈ es, e.flagless = true) :
    Custody.Balanced (s.run es).store (s.run es).roll := by
  induction es generalizing s with
  | nil => exact hb
  | cons e es ih =>
    have hs := h.balanced_step hb (hes e List.mem_cons_self)
    exact ih hs.1 hs.2 fun e he => hes e (List.mem_cons_of_mem _ he)

theorem balanced_of_unused {store : Store} (hf : store.Faultless) (hu : store.roster.Unused) :
    Custody.Balanced store 0 := by
  refine ⟨hf,⟨by simp,by simp,by simp,by simp⟩,⟨fun n => ?_,fun e => ?_⟩⟩
  · refine iff_of_false ?_ (Multiset.notMem_zero n)
    rintro ⟨i,hi,_,hb,_⟩
    exact Bool.false_ne_true ((hu.1 i hi).symm.trans hb)
  · refine iff_of_false ?_ (Multiset.notMem_zero e)
    rintro ⟨e,he,_,hb,_⟩
    exact Bool.false_ne_true ((hu.2 e he).symm.trans hb)

/-- A service that starts with such records. -/
theorem balanced_fresh (settings : Settings) {store : Store} (clock : ℤ) {n : ℕ} {pool : Pool}
    (hp : Pool.ofCapacity n = .ready pool) (hf : store.Faultless) (hu : store.roster.Unused) :
    (fresh settings store pool clock).Orderly False ∧
      Custody.Balanced store (fresh settings store pool clock).roll := by
  have ho : Orderly False _ ∧ _ := orderly_fresh settings store clock hp
  refine ⟨ho.1,?_⟩
  rw [roll_of_live_nil ho.2]
  exact balanced_of_unused hf hu

/-- No leaked resource: in every state that a service reaches whose records were all free at the
start, while no call of the store fails and nobody else sets flags. -/
theorem no_leaked_resource (settings : Settings) {store : Store} (clock : ℤ) {n : ℕ} {pool : Pool}
    (hp : Pool.ofCapacity n = .ready pool) (hf : store.Faultless) (hu : store.roster.Unused)
    {es : List Event} (hes : ∀ e ∈ es, e.flagless = true) :
    ((fresh settings store pool clock).run es).Accounted := by
  have hb := balanced_fresh settings clock hp hf hu
  exact accounted_of_balanced (hb.1.balanced_run hb.2 hes)

theorem stocked_faultless : stocked.Faultless := Store.faultless_of_unplanned rfl

theorem stocked_unused : stocked.roster.Unused := by
  constructor <;> simp [stocked]

/-- The first of two scans is refused for its credentials, the second goes on through another egress
and rests. -/
def mishaps : List Event :=
  [.scan ⟨0,0⟩,.scan ⟨0,0⟩,.loginDone 0 (.error .credentialRejected),
    .loginDone 1 (.error .egressDead),.loginDone 1 (.error (.protocol "")),.drain]

theorem no_leaked_resource_mishaps :
    ((sample.run mishaps).live.map fun σ => (σ.identity.name,σ.egress.id)) = [("misty",1)] ∧
      (sample.run mishaps).Accounted := by
  refine ⟨by decide +kernel,no_leaked_resource _ 0 (n := 1) rfl stocked_faultless stocked_unused ?_⟩
  simp [mishaps,Event.flagless,Event.ofScans,Event.drains]

end Service

end ScanService
