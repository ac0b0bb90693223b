import ScanService.Proofs.Exclusive
/-! Egresses that an administrator removes and adds again. A session keeps its egress when the
record of it is removed. As long as nobody adds the egress again meanwhile, no other session gets
it. -/
namespace ScanService

namespace Roster

variable {r r' : Roster} {e : Egress} {id : ℤ}

/-- No record of the id is free; there may be none. -/
def EgressWithheld (r : Roster) (id : ℤ) :
    Prop := Table.Withheld Egress.id Egress.inUse r.egresses id

/-- What no claim can take stays so. -/
def Withholds (r r' : Roster) : Prop := ∀ id, r.EgressWithheld id → r'.EgressWithheld id

theorem Withholds.of_egresses (h : r'.egresses = r.egresses) : Withholds r r' := by
  intro id hw
  rwa [EgressWithheld,h]

theorem withholds_kill (r : Roster) (id : ℤ) : Withholds r (r.kill id) :=
  fun _ hw => Table.withheld_amend_of_busy (fun _ => rfl) (fun _ hb => hb) hw

theorem withheld_releaseEgress {m : ℤ} (hm : id ≠ m) (hw : r.EgressWithheld id) :
    (r.releaseEgress m).EgressWithheld id :=
  Table.withheld_amend_of_ne (fun _ => rfl) hm hw

theorem claimEgress_withheld (h : r.claimEgress = (r',.ok e)) :
    ¬ r.EgressWithheld e.id ∧ r'.EgressWithheld e.id ∧ Withholds r r' := by
  obtain ⟨f,hf,hu,_,rfl,rfl⟩ := claimEgress_ok h
  have hn : ¬ r.EgressWithheld f.id := Table.not_withheld_of_free hf hu
  exact ⟨hn,Table.withheld_amend_self fun _ => rfl,
    fun _ hw => Table.withheld_amend_of_busy (fun _ => rfl) (fun _ _ => rfl) hw⟩

theorem withholds_claimEgress (r : Roster) : Withholds r r.claimEgress.1 := by
  cases hc : r.claimEgress with
  | mk r' x =>
    cases x with
    | error e => exact (claimEgress_error hc).1 ▸ fun _ hw => hw
    | ok e => exact (claimEgress_withheld hc).2.2

theorem egresses_claimIdentity (r : Roster) : r.claimIdentity.1.egresses = r.egresses := by
  unfold claimIdentity
  split <;> rfl

theorem egresses_addIdentity (r : Roster) (i : Identity) :
    (r.addIdentity i).1.egresses = r.egresses := by
  unfold addIdentity
  split <;> rfl

theorem withheld_addEgress {m : ℤ} (h : (r.addEgress m).2 = .ok () → m ≠ id)
    (hw : r.EgressWithheld id) : (r.addEgress m).1.EgressWithheld id := by
  unfold addEgress at h ⊢
  cases hm : r.egress? m with
  | some f => exact hw
  | none => exact Table.withheld_append (h (by rw [hm])) hw

end Roster

namespace Custody

open Roster

variable {r r' : Roster} {live : Multiset Session} {session : Session} {id : ℤ}

/-- At most one session has the egress, and if one has it, no claim can take it. -/
structure Sole (id : ℤ) (r : Roster) (live : Multiset Session) : Prop where
  count : (live.map (·.egress.id)).count id ≤ 1
  withheld : id ∈ live.map (·.egress.id) → r.EgressWithheld id

namespace Sole

theorem keeps (h : Sole id r live)
    (hk : id ∈ live.map (·.egress.id) → r.EgressWithheld id → r'.EgressWithheld id) :
    Sole id r' live :=
  ⟨h.count,fun hm => hk hm (h.withheld hm)⟩

/-- A session joins with an egress that was not withheld. -/
theorem cons (h : Sole id r live) (hn : ¬ r.EgressWithheld session.egress.id)
    (hw : r'.EgressWithheld session.egress.id) (hk : r.EgressWithheld id → r'.EgressWithheld id) :
    Sole id r' (session ::ₘ live) := by
  by_cases he : session.egress.id = id
  · subst he
    have h0 : session.egress.id ∉ live.map (·.egress.id) := fun hm => hn (h.withheld hm)
    exact ⟨by simp [Multiset.count_eq_zero_of_notMem h0],fun _ => hw⟩
  · have hne : id ≠ session.egress.id := fun h => he h.symm
    refine ⟨by simpa [Multiset.count_cons_of_ne hne] using h.count,fun hm => hk (h.withheld ?_)⟩
    rw [Multiset.map_cons,Multiset.mem_cons] at hm
    exact hm.resolve_left hne

/-- A session leaves, and whatever it does not have stays withheld. -/
theorem tail (h : Sole id r (session ::ₘ live))
    (hk : id ≠ session.egress.id → r.EgressWithheld id → r'.EgressWithheld id) :
    Sole id r' live := by
  have hc := h.count
  rw [Multiset.map_cons] at hc
  refine ⟨(Multiset.count_le_count_cons _ _ _).trans hc,fun hm => ?_⟩
  refine hk (fun he => ?_) (h.withheld (by simpa using Or.inr (by simpa using hm)))
  subst he
  rw [Multiset.count_cons_self] at hc
  have := Multiset.count_pos.mpr hm
  omega

end Sole

/-! ### The moves -/

section Calls

variable {s t u : Store} {e : Egress} {i : Identity} {x : StoreFailure}

theorem egresses_of_claimIdentity {y : Except StoreFailure Identity} (h : s.claimIdentity = (t,y)) :
    t.roster.egresses = s.roster.egresses := by
  have hr := Store.onRoster_roster (s := s) (c := .claimIdentity)
    (fun r => r.egresses = s.roster.egresses) rfl (egresses_claimIdentity s.roster)
  rw [← Store.claimIdentity,h] at hr
  exact hr

theorem withheld_releaseEgress (s : Store) {m : ℤ} (hm : id ≠ m) (hw : s.roster.EgressWithheld id) :
    (s.releaseEgress m).1.roster.EgressWithheld id :=
  Store.onRoster_roster (fun r => r.EgressWithheld id) hw (Roster.withheld_releaseEgress hm hw)

theorem withholds_kill (s : Store) (m : ℤ) : Withholds s.roster (s.kill m).1.roster :=
  fun id hw => Store.onRoster_roster (fun r => r.EgressWithheld id) hw
    (Roster.withholds_kill _ _ id hw)

theorem withholds_ban (s : Store) (name : String) : Withholds s.roster (s.ban name).1.roster :=
  fun id hw => Store.onRoster_roster (fun r => r.EgressWithheld id) hw hw

theorem withholds_releaseIdentity (s : Store) (name : String) :
    Withholds s.roster (s.releaseIdentity name).1.roster :=
  .of_egresses (s.egresses_releaseIdentity name)

theorem withholds_of_waste (he : s.claimEgress = (t,.ok e)) (hi : t.claimIdentity = (u,.error x)) :
    Withholds s.roster (u.releaseEgress e.id).1.roster := by
  intro id hw
  have hc := claimEgress_withheld (Store.claimEgress_ok he)
  have hne : id ≠ e.id := fun h => hc.1 (h ▸ hw)
  exact withheld_releaseEgress u hne
    (Withholds.of_egresses (egresses_of_claimIdentity hi) id (hc.2.2 id hw))

end Calls

theorem Move.sole {books : Prop} {Q : Session → Prop} {c c' : Custody} (h : Move books Q c c')
    (hs : Sole id c.store.roster c.live) : Sole id c'.store.roster c'.live := by
  cases h with
  | pause h => exact h.roster ▸ hs
  | waste he hi => exact hs.keeps fun _ => withholds_of_waste he hi id
  | hire he hi =>
    have hc := claimEgress_withheld (Store.claimEgress_ok he)
    have hk := Withholds.of_egresses (egresses_of_claimIdentity hi)
    rw [live_of_roll rfl]
    exact hs.cons hc.1 (hk _ hc.2.1) fun hw => hk id (hc.2.2 id hw)
  | greet hc | enter hc =>
    rw [live_of_roll hc] at hs
    rw [live_of_roll rfl]
    exact hs
  | @swap st egress session roll hc he =>
    rw [live_of_roll hc] at hs
    have hw := claimEgress_withheld (Store.claimEgress_ok he)
    have ht := hs.tail fun _ hw => withholds_kill c.store session.egress.id id hw
    rw [live_of_roll rfl]
    refine ht.cons ?_ ?_ (hw.2.2 id)
    · exact hw.1
    · exact hw.2.1
  | @bury st session roll hc h =>
    rw [live_of_roll hc] at hs
    rw [live_of_roll rfl]
    exact hs.keeps fun _ hw => h.roster.symm ▸ withholds_kill c.store session.egress.id id hw
  | @expel session roll hc =>
    rw [live_of_roll hc] at hs
    rw [live_of_roll rfl]
    exact hs.keeps fun _ hw => withholds_ban c.store _ id hw
  | @dismiss reason session roll hc =>
    rw [live_of_roll hc] at hs
    cases reason with
    | identityBanned => exact hs.tail fun hne hw => withheld_releaseEgress _ hne hw
    | egressDead => exact hs.tail fun _ hw => withholds_releaseIdentity _ _ id hw
  | @abandon _ session roll _ hc _ _ | @drain session roll hc _ =>
    rw [live_of_roll hc] at hs
    exact hs.tail fun hne hw =>
      withheld_releaseEgress _ hne (withholds_releaseIdentity c.store _ id hw)
  | relist _ _ _ => exact hs

theorem Moves.sole {books : Prop} {Q : Session → Prop} {c c' : Custody} (h : Moves books Q c c')
    (hs : Sole id c.store.roster c.live) : Sole id c'.store.roster c'.live :=
  h.keep (P := fun c => Sole id c.store.roster c.live) (fun _ _ => Move.sole) hs

end Custody

def Command.provisions : Command → Bool
  | .dropAllEgress | .removeDeadEgress => true
  | c => c.spares

def Event.provisions : Event → Bool
  | command c => c.provisions
  | e => e.sparing

open Roster in
theorem Store.withheld_run_addEgress (s : Store) {m id : ℤ}
    (h : m = id → (s.run (.addEgress m)).2 ≠ .ok .done) (hw : s.roster.EgressWithheld id) :
    (s.run (.addEgress m)).1.roster.EgressWithheld id := by
  cases hc : s.addEgress m with
  | mk t x =>
    simp only [run,hc,answered] at h ⊢
    cases x with
    | ok u =>
      have hr := withheld_addEgress (fun _ => fun hm => h hm rfl) hw
      rwa [onRoster_ok hc] at hr
    | error f =>
      rcases onRoster_error hc with hr | hr
      · have hk := withheld_addEgress (m := m) (fun hok => by simp [hr] at hok) hw
        rwa [hr] at hk
      · exact hr.1 ▸ hw

open Roster in
theorem Store.withheld_run (s : Store) {c : Command} {id : ℤ} (hc : c.provisions = true)
    (ha : c = .addEgress id → (s.run c).2 ≠ .ok .done) (hw : s.roster.EgressWithheld id) :
    (s.run c).1.roster.EgressWithheld id := by
  let P : Roster → Prop := fun r => r.EgressWithheld id
  cases c with
  | claimIdentity =>
    exact onRoster_roster P hw (Withholds.of_egresses (egresses_claimIdentity s.roster) id hw)
  | claimEgress => exact onRoster_roster P hw (withholds_claimEgress s.roster id hw)
  | ban name => exact Custody.withholds_ban s name id hw
  | kill m => exact Custody.withholds_kill s m id hw
  | addIdentity i =>
    exact onRoster_roster P hw (Withholds.of_egresses (egresses_addIdentity s.roster i) id hw)
  | addEgress m => exact s.withheld_run_addEgress (fun he => ha (he ▸ rfl)) hw
  | dropAllEgress => exact onRoster_roster P hw fun _ he => absurd he List.not_mem_nil
  | removeDeadEgress => exact onRoster_roster P hw fun e he => hw e (List.mem_of_mem_filter he)
  | identityStats | egressStats | getIdentity _ | getEgress _ | banned | query _ _ _ _
  | get _ | count =>
    exact (sameRecords_ask s _ _).roster ▸ hw
  | write o => exact (sameRecords_onObjects s _ _).roster ▸ hw
  | purge n => exact (sameRecords_onObjects s _ _).roster ▸ hw
  | releaseIdentity _ | releaseEgress _ | reconcile _ | markAllUnused =>
    simp [Command.provisions,Command.spares] at hc

namespace Service

variable {id : ℤ}

def Forgets (s : Service) (id : ℤ) : Prop :=
  id ∈ s.live.map (·.egress.id) ∧ (s.administer (.addEgress id)).2 = .ok .done

/-- In the course of a run the egress is added while a session has it. -/
def Readds (s : Service) (es : List Event) (id : ℤ) : Prop :=
  ∃ before after, es = before ++ .command (.addEgress id) :: after ∧ (s.run before).Forgets id

theorem readds_cons {s : Service} {e : Event} {es : List Event} :
    (e = .command (.addEgress id) ∧ s.Forgets id) ∨ (s.step e).Readds es id →
      s.Readds (e :: es) id := by
  rintro (⟨rfl,hf⟩ | ⟨before,after,rfl,hf⟩)
  · exact ⟨[],es,rfl,hf⟩
  · exact ⟨e :: before,after,rfl,hf⟩

theorem Orderly.sole_step {s : Service} (h : s.Orderly False)
    (hx : Custody.Sole id s.store.roster s.live) {e : Event} (he : e.provisions = true)
    (hr : ¬ (e = .command (.addEgress id) ∧ s.Forgets id)) :
    (s.step e).Orderly False ∧ Custody.Sole id (s.step e).store.roster (s.step e).live := by
  have hm (he : (e.ofScans || e.drains) = true) : (s.step e).Orderly False ∧
      Custody.Sole id (s.step e).store.roster (s.step e).live := by
    have hs := h.step (e := e) (Q := fun _ => True) (by simpa using he) fun _ _ => trivial
    rw [← live_custody] at hx ⊢
    exact ⟨hs.2,hs.1.sole hx⟩
  cases e with
  | plan c fails => exact ⟨h.onBooks _ _ _,hx⟩
  | assign entry => exact ⟨h.onBooks _ _ _,hx⟩
  | command c =>
    refine ⟨h.onBooks _ _ _,hx.keeps fun hl => s.store.withheld_run he ?_⟩
    rintro rfl hok
    exact hr ⟨rfl,by simpa using hl,hok⟩
  | _ => exact hm he

theorem Orderly.sole_run {s : Service} (h : s.Orderly False)
    (hx : Custody.Sole id s.store.roster s.live) {es : List Event}
    (hes : ∀ e ∈ es, e.provisions = true) (hr : ¬ s.Readds es id) :
    Custody.Sole id (s.run es).store.roster (s.run es).live := by
  induction es generalizing s with
  | nil => exact hx
  | cons e es ih =>
    have hs := h.sole_step hx (hes e List.mem_cons_self) fun hf => hr (readds_cons (.inl hf))
    exact ih hs.1 hs.2 (fun e he => hes e (List.mem_cons_of_mem _ he)) fun hf =>
      hr (readds_cons (.inr hf))

/-- Whatever an administrator removes and adds, no two sessions alive have an egress that is not
added while one of them has it. -/
theorem exclusive_unless_readded (settings : Settings) (store : Store) (clock : ℤ)
    {n : ℕ} {pool : Pool} (hp : Pool.ofCapacity n = .ready pool) {es : List Event}
    (hes : ∀ e ∈ es, e.provisions = true) (hr : ¬ (fresh settings store pool clock).Readds es id) :
    ((((fresh settings store pool clock).run es).live).map (·.egress.id)).count id ≤ 1 := by
  have hf : Orderly False _ ∧ _ := orderly_fresh settings store clock hp
  have hx : Custody.Sole id store.roster (fresh settings store pool clock).live := by
    rw [hf.2]
    exact ⟨by simp,by simp⟩
  simpa using (hf.1.sole_run hx hes hr).count

def replacement (id : ℤ) : List Event :=
  [.scan ⟨0,0⟩,.command .dropAllEgress,.command (.addEgress id),.scan ⟨0,0⟩]

theorem provisions_replacement : ∀ e ∈ replacement id, e.provisions = true := by
  simp [replacement,Event.provisions,Command.provisions,Command.spares,Event.sparing,Event.ofScans]

theorem exclusive_unless_readded_replacement :
    ((sample.run (replacement 4)).live.map (·.egress.id)) = [1,4] ∧
      ((sample.run (replacement 4)).live.map (·.egress.id)).count 1 ≤ 1 := by
  refine ⟨by decide +kernel,
    exclusive_unless_readded _ stocked 0 (n := 1) rfl provisions_replacement ?_⟩
  rintro ⟨before,after,h,_⟩
  have hm : Event.command (.addEgress 1) ∈ replacement 4 := h ▸ by simp
  simp [replacement] at hm

/-- The egress of a scan is removed and added again, and the next scan gets it too. -/
theorem not_exclusive_replacement :
    (∀ e ∈ replacement 1, e.provisions = true) ∧
      ¬ ((sample.run (replacement 1)).live.map (·.egress.id)).Nodup :=
  ⟨provisions_replacement,by decide +kernel⟩

end Service

end ScanService
