import ScanService.Proofs.Accounted
import ScanService.Proofs.RegistryOrder
/-! The registry lists the sessions alive, and the counts that clients are shown agree: the flags of
both kinds of record, the registry and the parked sessions. -/
namespace ScanService

namespace Custody

open Roster

/-- The registry is in order. Its entries are of sessions alive, of those that are to be entered
anew, or left over; and all sessions that are entered are listed but for the unlisted ones. -/
structure ListedBut (unlisted : Session → Prop) (c : Custody) : Prop where
  sorted : c.registry.Sorted
  alive : ∀ x ∈ c.registry.entries, x.account ∈ c.leftovers ∨
    ∃ p ∈ c.roll, p.1.identity.name = x.account ∧ (p.2 = .coming ∨ p.1.entry = x)
  entries : ∀ p ∈ c.roll, p.2 = .coming ∨ unlisted p.1 ∨ p.1.entry ∈ c.registry.entries

namespace ListedBut

variable {unlisted : Session → Prop} {c : Custody} {session session' : Session} {a b : Standing}
  {roll : Multiset (Session × Standing)}

/-- A session joins that is to be entered. -/
theorem hire (h : ListedBut unlisted c) (store : Store) (next : ℕ) :
    ListedBut unlisted { c with store, roll := (session,.coming) ::ₘ c.roll, next } := by
  refine ⟨h.sorted,fun x hx => (h.alive x hx).imp_right ?_,fun p hp => ?_⟩
  · rintro ⟨p,hp,hn⟩
    exact ⟨p,Multiset.mem_cons_of_mem hp,hn⟩
  · rcases Multiset.mem_cons.mp hp with rfl | hp
    · exact Or.inl rfl
    · exact h.entries p hp

theorem anew (h : ListedBut unlisted c) (hc : c.roll = (session,a) ::ₘ roll)
    (hn : session'.identity.name = session.identity.name) (store : Store) :
    ListedBut unlisted { c with store, roll := (session',.coming) ::ₘ roll } := by
  refine ⟨h.sorted,fun x hx => (h.alive x hx).imp_right ?_,fun p hp => ?_⟩
  · rw [hc]
    rintro ⟨p,hp,hx,he⟩
    rcases Multiset.mem_cons.mp hp with rfl | hp
    · exact ⟨_,Multiset.mem_cons_self _ _,hn.trans hx,Or.inl rfl⟩
    · exact ⟨p,Multiset.mem_cons_of_mem hp,hx,he⟩
  · rcases Multiset.mem_cons.mp hp with rfl | hp
    · exact Or.inl rfl
    · exact h.entries p (hc ▸ Multiset.mem_cons_of_mem hp)

/-- A session that is entered is to be taken out. -/
theorem leave (h : ListedBut unlisted c) (hc : c.roll = (session,.listed) ::ₘ roll) (store : Store)
    (reason : Retirement) :
    ListedBut unlisted { c with store, roll := (session,.leaving reason) ::ₘ roll } := by
  refine ⟨h.sorted,fun x hx => (h.alive x hx).imp_right ?_,fun p hp => ?_⟩
  · rw [hc]
    rintro ⟨p,hp,hx,he⟩
    rcases Multiset.mem_cons.mp hp with rfl | hp
    · exact ⟨_,Multiset.mem_cons_self _ _,hx,Or.inr (he.resolve_left (by simp))⟩
    · exact ⟨p,Multiset.mem_cons_of_mem hp,hx,he⟩
  · rcases Multiset.mem_cons.mp hp with rfl | hp
    · have he := (h.entries (session,.listed) (hc ▸ Multiset.mem_cons_self _ _)).resolve_left
        (by simp)
      exact Or.inr he
    · exact h.entries p (hc ▸ Multiset.mem_cons_of_mem hp)

/-- A session is entered under a name that no other has. -/
theorem enter (h : ListedBut unlisted c) (hc : c.roll = (session,a) ::ₘ roll)
    (hn : ∀ p ∈ roll, p.1.identity.name ≠ session.identity.name) :
    ListedBut unlisted { c with
      registry := c.registry.assign session.entry, roll := (session,.listed) ::ₘ roll } := by
  refine ⟨h.sorted.assign _,fun x hx => ?_,fun p hp => ?_⟩
  · rcases h.sorted.mem_assign.mp hx with rfl | ⟨hx,hne⟩
    · exact Or.inr ⟨_,Multiset.mem_cons_self _ _,rfl,Or.inr rfl⟩
    · refine (h.alive x hx).imp_right ?_
      rw [hc]
      rintro ⟨p,hp,hxn,he⟩
      rcases Multiset.mem_cons.mp hp with rfl | hp
      · exact absurd hxn.symm hne
      · exact ⟨p,Multiset.mem_cons_of_mem hp,hxn,he⟩
  · dsimp only
    rw [h.sorted.mem_assign]
    rcases Multiset.mem_cons.mp hp with rfl | hp
    · exact Or.inr (Or.inr (Or.inl rfl))
    · refine (h.entries p (hc ▸ Multiset.mem_cons_of_mem hp)).imp_right fun he => he.imp_right ?_
      exact fun hm => Or.inr ⟨hm,hn p hp⟩

/-- A session leaves, and its entry goes or is left over. -/
theorem without (h : ListedBut unlisted c) {c' : Custody} (hd : Delists c session.identity.name c')
    (hc : c.roll = (session,a) ::ₘ roll)
    (hn : ∀ p ∈ roll, p.1.identity.name ≠ session.identity.name) (store : Store) :
    ListedBut unlisted { c' with store, roll } := by
  have hall (p : Session × Standing) (hp : p ∈ roll) :
      p.2 = .coming ∨ unlisted p.1 ∨ p.1.entry ∈ c.registry.entries :=
    h.entries p (hc ▸ Multiset.mem_cons_of_mem hp)
  -- an entry of another name than that of the session is of somebody else
  have hother (x : StatusEntry) (hx : x ∈ c.registry.entries)
      (hne : x.account ≠ session.identity.name) : x.account ∈ c.leftovers ∨
        ∃ p ∈ roll, p.1.identity.name = x.account ∧ (p.2 = .coming ∨ p.1.entry = x) := by
    refine (h.alive x hx).imp_right ?_
    rw [hc]
    rintro ⟨p,hp,hxn,he⟩
    rcases Multiset.mem_cons.mp hp with rfl | hp
    · exact absurd hxn.symm hne
    · exact ⟨p,hp,hxn,he⟩
  cases hd with
  | atOnce =>
    refine ⟨h.sorted.remove _,fun x hx => ?_,fun p hp => ?_⟩
    · obtain ⟨hx,hne⟩ := Registry.mem_remove.mp hx
      exact hother x hx hne
    · dsimp only
      rw [Registry.mem_remove]
      exact (hall p hp).imp_right fun he => he.imp_right fun hm => ⟨hm,hn p hp⟩
  | later =>
    refine ⟨h.sorted,fun x hx => ?_,hall⟩
    by_cases hne : x.account = session.identity.name
    · exact Or.inl (hne ▸ Multiset.mem_cons_self _ _)
    · exact (hother x hx hne).imp_left Multiset.mem_cons_of_mem

/-- A left-over name is taken out of the registry, and whoever has it is unlisted from then on. -/
theorem forget (h : ListedBut unlisted c) (account : String)
    (hu : ∀ p ∈ c.roll, p.1.identity.name = account → unlisted p.1) :
    ListedBut unlisted { c with
      registry := c.registry.remove account, leftovers := c.leftovers.erase account } := by
  refine ⟨h.sorted.remove _,fun x hx => ?_,fun p hp => ?_⟩
  · obtain ⟨hx,hne⟩ := Registry.mem_remove.mp hx
    exact (h.alive x hx).imp_left (Multiset.mem_erase_of_ne hne).mpr
  · dsimp only
    rw [Registry.mem_remove]
    by_cases hp' : p.1.identity.name = account
    · exact Or.inr (Or.inl (hu p hp hp'))
    · exact (h.entries p hp).imp_right fun he => he.imp_right fun hm => ⟨hm,hp'⟩

end ListedBut

/-- The records of sessions that share nothing, and the registry that lists all but the unlisted
ones. -/
structure BookedBut (unlisted : Session → Prop) (c : Custody) : Prop where
  exclusive : Exclusive c.store.roster c.live
  listed : ListedBut unlisted c

section Moving

variable {unlisted Q : Session → Prop} {books : Prop} {c c' : Custody}

theorem Move.listedBut (h : Move True Q c c') (hx : Exclusive c.store.roster c.live)
    (hl : ListedBut unlisted c) : ListedBut unlisted c' := by
  have hn {session : Session} {a : Standing} {roll : Multiset (Session × Standing)}
      (hr : c.roll = (session,a) ::ₘ roll) : ∀ p ∈ roll,
      p.1.identity.name ≠ session.identity.name := by
    rw [live_of_roll hr] at hx
    exact fun p hp => hx.name_ne p.1 (Multiset.mem_map_of_mem _ hp)
  cases h with
  | pause _ | waste _ _ => exact ⟨hl.sorted,hl.alive,hl.entries⟩
  | hire _ _ => exact hl.hire _ _
  | greet hr => exact hl.anew hr rfl c.store
  | enter hr => exact hl.enter hr (hn hr)
  | @swap st egress session roll hr _ =>
    have hname : (session.through egress).identity.name = session.identity.name := rfl
    exact hl.anew hr hname st
  | bury hr _ | expel hr => exact hl.leave hr _ _
  | dismiss hr => exact hl.without .atOnce hr (hn hr) _
  | abandon hr _ hd => exact hl.without hd hr (hn hr) _
  | drain _ h | relist _ _ h => exact absurd trivial h

theorem Moves.bookedBut (h : Moves True Q c c') (hc : BookedBut unlisted c) :
    BookedBut unlisted c' :=
  h.keep (fun _ _ hm hb => ⟨hm.exclusive hb.exclusive,hm.listedBut hb.exclusive hb.listed⟩) hc

theorem distinct_freed {store : Store} (h : store.roster.Distinct) (session : Session) :
    (session.freed store).roster.Distinct :=
  Store.distinct_run _ (Store.distinct_run _ h (.releaseIdentity _)) (.releaseEgress _)

theorem Move.distinct (h : Move books Q c c') (hd : c.store.roster.Distinct) :
    c'.store.roster.Distinct := by
  cases h with
  | pause h => exact h.roster ▸ hd
  | waste he hi =>
    exact Store.distinct_run _
      (Store.distinct_of_claimIdentity hi (Store.distinct_of_claimEgress he hd)) (.releaseEgress _)
  | hire he hi => exact Store.distinct_of_claimIdentity hi (Store.distinct_of_claimEgress he hd)
  | greet _ | enter _ | relist _ _ _ => exact hd
  | swap _ h => exact Store.distinct_of_claimEgress h (Store.distinct_run _ hd (.kill _))
  | bury _ h => exact h.roster ▸ Store.distinct_run _ hd (.kill _)
  | expel _ => exact Store.distinct_run _ hd (.ban _)
  | @dismiss reason session roll _ =>
    cases reason with
    | identityBanned => exact c.store.distinct_run hd (.releaseEgress session.egress.id)
    | egressDead => exact c.store.distinct_run hd (.releaseIdentity session.identity.name)
  | abandon _ _ hl => cases hl <;> exact distinct_freed hd _
  | drain _ _ => exact distinct_freed hd _

theorem Moves.distinct (h : Moves books Q c c') (hd : c.store.roster.Distinct) :
    c'.store.roster.Distinct :=
  h.keep (P := fun c => c.store.roster.Distinct) (fun _ _ => Move.distinct) hd

end Moving

end Custody

/-- What leaves the writing of the registry to the scans: all that spares the sessions alive but the
ends of parked sessions, which leave their entries behind. -/
def Event.keepsBooks : Event → Bool
  | plan _ _ => true
  | command c => c.spares
  | e => e.ofScans

theorem Event.sparing_of_keepsBooks {e : Event} (h : e.keepsBooks = true) : e.sparing = true := by
  cases e <;> simp_all [keepsBooks,sparing,ofScans]

namespace Service

/-- A removal that was left for later ran when a session was there already: it took the entry that
the session had. -/
def Robbed (s : Service) (es : List Event) (σ : Session) : Prop :=
  ∃ before later, es = before ++ .turn (.forget σ.identity.name) :: later ∧
    (s.run before).locked = false ∧ σ.identity.name ∈ (s.run before).leftovers ∧
    σ.serial < (s.run before).nextSession

/-- The registry is in the order of names. While nothing can go on it lists nobody but the sessions
alive, with their egresses, and all of them that were not robbed. -/
structure Booked (s : Service) (robbed : Session → Prop) : Prop where
  sorted : s.registry.snapshot.Pairwise fun e f => e.account < f.account
  alive : s.quiet → ∀ x ∈ s.registry.snapshot, ∃ σ ∈ s.live, σ.entry = x
  listed : s.quiet → ∀ σ ∈ s.live, robbed σ ∨ σ.entry ∈ s.registry.snapshot
  exact : s.quiet → (∀ σ ∈ s.live, ¬ robbed σ) → s.registry.snapshot.Perm (s.live.map Session.entry)

theorem mem_roll {s : Service} {σ : Session} (h : σ ∈ s.live) : ∃ a, (σ,a) ∈ s.roll := by
  rw [← map_roll] at h
  obtain ⟨⟨_,a⟩,hp,rfl⟩ := List.mem_map.mp h
  exact ⟨a,hp⟩

theorem mem_live_of_roll {s : Service} {p : Session × Standing} (h : p ∈ s.roll) :
    p.1 ∈ s.live := by
  rw [← map_roll]
  exact List.mem_map_of_mem h

theorem booked_of_custody {s : Service} {robbed : Session → Prop}
    (h : Custody.BookedBut robbed s.custody) : s.Booked robbed := by
  have hx := h.exclusive
  rw [live_custody] at hx
  have ha (hq : s.quiet) (x : StatusEntry) (hm : x ∈ s.registry.snapshot) : ∃ σ ∈ s.live,
      σ.entry = x := by
    obtain ⟨_,hf,_,hr⟩ := settled_of_quiet hq
    rcases h.listed.alive x hm with ho | ⟨p,hp,_,he⟩
    · simp [custody,hf] at ho
    · have hp' : p ∈ s.roll := hp
      exact ⟨p.1,mem_live_of_roll hp',he.resolve_left (by rw [hr p hp']; simp)⟩
  have hl (hq : s.quiet) (σ : Session) (hσ : σ ∈ s.live) : robbed σ ∨
      σ.entry ∈ s.registry.snapshot := by
    obtain ⟨a,hp⟩ := mem_roll hσ
    refine (h.listed.entries (σ,a) hp).resolve_left ?_
    rw [(settled_of_quiet hq).2.2.2 _ hp]
    simp
  refine ⟨h.listed.sorted,ha,hl,fun hq hno => ?_⟩
  have hr : s.registry.entries.Nodup := List.Nodup.of_map _ h.listed.sorted.nodup_accounts
  have hd : (s.live.map Session.entry).Nodup := by
    apply List.Nodup.of_map StatusEntry.account
    rw [List.map_map]
    exact hx.nodup_names
  refine (List.perm_ext_iff_of_nodup hr hd).mpr fun x => ?_
  rw [List.mem_map]
  constructor
  · exact ha hq x
  · rintro ⟨σ,hσ,rfl⟩
    exact (hl hq σ hσ).resolve_left (hno σ hσ)

/-- A step keeps the books, if whoever loses the entry to a removal left for later counts as
unlisted. -/
theorem Orderly.bookedBut_step {unlisted : Session → Prop} {s : Service} (h : s.Orderly True)
    (hb : Custody.BookedBut unlisted s.custody) {e : Event} (he : e.keepsBooks = true)
    (hu : ∀ account, e = .turn (.forget account) → s.locked = false → account ∈ s.leftovers →
      ∀ p ∈ s.roll, p.1.identity.name = account → unlisted p.1) :
    (s.step e).Orderly True ∧ Custody.BookedBut unlisted (s.step e).custody := by
  have hm (he : e.ofScans = true) (hf : e.forgets = false) :
      (s.step e).Orderly True ∧ Custody.BookedBut unlisted (s.step e).custody := by
    have hs := h.step (e := e) (Q := fun _ => True) (Or.inl ⟨he,fun _ => hf⟩) fun _ _ => trivial
    exact ⟨hs.2,hs.1.bookedBut hb⟩
  cases e with
  | plan c fails =>
    exact ⟨h.onBooks _ _ _,⟨hb.exclusive,⟨hb.listed.sorted,hb.listed.alive,hb.listed.entries⟩⟩⟩
  | command c =>
    exact ⟨h.onBooks _ _ _,⟨hb.exclusive.keeps (s.store.keeps_run c he),
      ⟨hb.listed.sorted,hb.listed.alive,hb.listed.entries⟩⟩⟩
  | turn t =>
    cases t with
    | forget account =>
      simp only [Service.step,take,onForget]
      split
      · exact ⟨h,hb⟩
      · rename_i hcan
        obtain ⟨hlocked,hmem⟩ := not_or.mp hcan
        have hlist := hb.listed.forget account
          (hu account rfl (by simpa using hlocked) (by simpa using hmem))
        simp only [custody,Multiset.coe_erase] at hlist
        exact ⟨h.onBooks _ _ _,⟨hb.exclusive,hlist⟩⟩
    | _ => exact hm he rfl
  | _ => exact hm he rfl

theorem Orderly.bookedBut_run {unlisted : Session → Prop} {s : Service} (h : s.Orderly True)
    (hb : Custody.BookedBut unlisted s.custody) {es : List Event}
    (hes : ∀ e ∈ es, e.keepsBooks = true)
    (hu : ∀ before account later, es = before ++ .turn (.forget account) :: later →
      (s.run before).locked = false → account ∈ (s.run before).leftovers →
      ∀ p ∈ (s.run before).roll, p.1.identity.name = account → unlisted p.1) :
    (s.run es).Orderly True ∧ Custody.BookedBut unlisted (s.run es).custody := by
  induction es generalizing s with
  | nil => exact ⟨h,hb⟩
  | cons e es ih =>
    have hs := h.bookedBut_step hb (hes e List.mem_cons_self) fun account he =>
      hu [] account es (by rw [he]; rfl)
    exact ih hs.1 hs.2 (fun e he => hes e (List.mem_cons_of_mem _ he))
      fun before account later hx => hu (e :: before) account later (congrArg (List.cons e) hx)

theorem serial_lt {s : Service} (h : s.custody.Serial) {σ : Session} (hσ : σ ∈ s.live) :
    σ.serial < s.nextSession := by
  refine h.lt _ (Multiset.mem_map_of_mem _ ?_)
  rwa [live_custody]

theorem Orderly.loosen {s : Service} (h : s.Orderly True) : s.Orderly False :=
  ⟨h.tidy,h.serial,fun w hw => (h.lined w hw).imp_right fun hs => absurd trivial hs.1⟩

/-- The registry of a run lists all but the robbed. -/
theorem Orderly.booked_run {unlisted : Session → Prop} {s : Service} (h : s.Orderly True)
    (hb : Custody.BookedBut unlisted s.custody) {es : List Event}
    (hes : ∀ e ∈ es, e.keepsBooks = true) :
    (s.run es).Orderly True ∧
      Custody.BookedBut (fun σ => unlisted σ ∨ s.Robbed es σ) (s.run es).custody := by
  refine h.bookedBut_run ⟨hb.exclusive,hb.listed.sorted,hb.listed.alive,fun p hp => ?_⟩ hes ?_
  · exact (hb.listed.entries p hp).imp_right fun hl => hl.imp_left Or.inl
  · rintro before account later rfl hl hm p hp rfl
    have ho := h.loosen.spared_run fun e (he : e ∈ before) =>
      Event.sparing_of_keepsBooks (hes e (List.mem_append_left _ he))
    exact Or.inr ⟨before,later,rfl,hl,hm,serial_lt ho.serial (mem_live_of_roll hp)⟩

section Distinct

variable {s : Service}

theorem store_begin (s : Service) (task started : ℕ) (http : Bool) (place : Coordinate Float)
    (session : Session) : (s.begin task started http place session).store = s.store :=
  store_enlist _ _ _

theorem store_provide (s : Service) (w : Waiter) (σ : Session) :
    (s.provide w σ).store = s.store := by
  unfold provide
  split
  · exact store_begin _ _ _ _ _ _
  · rfl

theorem store_refuse (s : Service) (w : Waiter) (e : PoolFailure) :
    (s.refuse w e).store = s.store := by
  unfold refuse
  split
  · rw [conclude_eq]
  · rfl

theorem distinct_construct (h : s.store.roster.Distinct) (t : ℕ) :
    (s.construct t).1.store.roster.Distinct := by
  rcases s.construct_cases t with ⟨st,x,he,hc⟩ | ⟨st₁,st₂,e,x,he,hi,hc⟩ | ⟨st₁,st₂,e,i,he,hi,hc⟩
  · rw [hc]
    exact Store.distinct_of_claimEgress he h
  · have hd := Store.distinct_of_claimIdentity hi (Store.distinct_of_claimEgress he h)
    rw [hc]
    exact st₂.distinct_run hd (.releaseEgress e.id)
  · rw [hc]
    exact Store.distinct_of_claimIdentity hi (Store.distinct_of_claimEgress he h)

theorem distinct_giveUp (h : s.store.roster.Distinct) (w : Waiter) :
    (s.giveUp w).store.roster.Distinct := by
  have hc := distinct_construct h w.task
  unfold giveUp
  split
  · rwa [store_refuse]
  · cases hx : s.construct w.task with
    | mk u x =>
      rw [hx] at hc
      cases x with
      | ok σ => exact (store_provide u w σ).symm ▸ hc
      | error e => exact (store_refuse u w e).symm ▸ hc

theorem distinct_poll (h : s.store.roster.Distinct) (t : ℕ) : (s.poll t).store.roster.Distinct := by
  unfold poll
  split
  · exact h
  · dsimp only
    split
    · exact (moves_drainFor (Q := fun _ => True) not_false _ _).distinct h
    · split
      · rw [takeFirst,store_provide]
        exact h
      · split
        · exact distinct_giveUp (s := { s with pool := s.pool.leave t }) h _
        · exact h

theorem distinct_arrive (h : s.store.roster.Distinct) (purpose : Purpose) (wait : ℕ) :
    (s.arrive purpose wait).store.roster.Distinct := by
  unfold arrive
  apply distinct_poll
  exact h

/-- No event makes two records of one key. -/
theorem distinct_step (hs : s.Tidy) (h : s.store.roster.Distinct) (e : Event) :
    (s.step e).store.roster.Distinct := by
  have hm {u : Service} (hm : Custody.Moves False (fun _ => True) s.custody u.custody) :
      u.store.roster.Distinct := hm.distinct h
  cases e with
  | turn turn =>
    cases turn with
    | poll task => exact distinct_poll h task
    | wake serial =>
      simp only [step,take,onWake,wake]
      split
      · split <;> exact h
      · exact h
    | enter =>
      simp only [step,take,enter]
      split <;> exact h
    | expire task => exact hm (moves_onExpiry hs task)
    | register task => exact hm (moves_onRegister hs task)
    | forget account => exact hm (moves_onForget not_false s account)
    | clear task => exact hm (moves_onClear not_false s task)
    | unlock => exact h
  | scan place => exact distinct_arrive h _ _
  | request r =>
    simp only [step,request]
    split
    · exact distinct_arrive h _ _
    · exact hm (moves_handle s _)
  | acquire wait => exact distinct_arrive h _ _
  | checkout wait => exact distinct_arrive h _ _
  | drain => exact distinct_arrive h _ _
  | shutdown => exact distinct_arrive h _ _
  | construct =>
    have hc := distinct_construct (s := { s with nextTask := s.nextTask + 1 }) h s.nextTask
    simp only [step,constructHeld]
    split <;> simp_all
  | release serial cooldown =>
    simp only [step,releaseHeld]
    split <;> exact h
  | retire serial reason =>
    cases hh : s.held? serial with
    | none => simpa only [step,retireHeld,hh] using h
    | some σ =>
      rw [step,retireHeld_eq hh]
      cases reason with
      | identityBanned => exact s.store.distinct_run h (.releaseEgress σ.egress.id)
      | egressDead => exact s.store.distinct_run h (.releaseIdentity σ.identity.name)
  | replaceEgress serial =>
    have hc : s.store.claimEgress.1.roster.Distinct := s.store.distinct_run h .claimEgress
    simp only [step,replaceHeld,replaceEgress]
    split
    · exact h
    · cases hx : s.store.claimEgress with
      | mk st x =>
        rw [hx] at hc
        cases x <;> exact hc
  | loginDone task r => exact hm (moves_onLogin hs task r)
  | gateOpen task => exact hm (moves_onGate hs task)
  | fetchDone task r => exact hm (moves_onFetch hs task r)
  | abort task =>
    simp only [step,abort]
    split
    · rename_i c hc
      exact hm (moves_abandon (hs.has hc) fun _ => trivial)
    · split <;> exact h
  | command c => exact s.store.distinct_run h c
  | reconcileStatus => exact s.store.distinct_run h (.reconcile s.registry.snapshot)
  | purge => exact hm (moves_purge s)
  | _ => exact h

theorem distinct_run (hs : s.Tidy) (h : s.store.roster.Distinct) (es : List Event) :
    (s.run es).store.roster.Distinct := by
  induction es generalizing s with
  | nil => exact h
  | cons e es ih => exact ih (tidy_step hs e) (distinct_step hs h e)

end Distinct

/-! ### The counts -/

def guarded : Service :=
  fresh { acquireWait := 0, cooldown := 0, queryTimeout := 1000, secret := some "x" } stocked
    ⟨1,[],[],[],[],0⟩ 0

/-- One scan goes on through another egress; the session of the other has rested and is parked. -/
def shift : List Event :=
  [.scan ⟨0,0⟩,.scan ⟨0,0⟩,.loginDone 0 (.error .egressDead),.loginDone 1 (.error (.protocol "")),
    .turn (.wake 1)]

end Service

end ScanService
