import Mathlib.Data.List.Nodup
import ScanService.Proofs.Permanence
import ScanService.Proofs.Reconciliation
/-! Claims. A claim is refused only where no record is free; it marks one free record, gives it out
and touches no other. Nobody is given a record that somebody has: before a name or an id is given
out again it has been released, or a reconciliation has cleared it, or the egress has been removed
and added again. -/
namespace ScanService

namespace Table

variable {α κ : Type} {key : α → κ} {free : α → Bool} {use : α → α} {rows rows' : List α} {x y : α}

/-- A free record is put to use and given out. All others stay what they were and where they
were. -/
def Claim (free : α → Bool) (use : α → α) (rows rows' : List α) (x : α) : Prop :=
  ∃ before y after, rows = before ++ y :: after ∧ free y = true ∧ x = use y ∧
  rows' = before ++ x :: after

theorem amend_append_cons [DecidableEq κ] {before after : List α} {f : α → α}
    (h : ((before ++ y :: after).map key).Nodup) :
    amend key (before ++ y :: after) (key y) f = before ++ f y :: after := by
  rw [List.map_append,List.map_cons,List.nodup_append] at h
  have hb : amend key before (key y) f = before := by
    refine (List.map_congr_left fun z hz => ?_).trans (List.map_id before)
    exact if_neg (h.2.2 _ (List.mem_map_of_mem hz) _ List.mem_cons_self)
  have ha : amend key after (key y) f = after := by
    refine (List.map_congr_left fun z hz => ?_).trans (List.map_id after)
    exact if_neg fun he : key z = key y =>
      (List.nodup_cons.mp h.2.1).1 (he ▸ List.mem_map_of_mem hz)
  rw [amend] at ha hb ⊢
  rw [List.map_append,List.map_cons,hb,ha,if_pos rfl]

theorem claim_amend [DecidableEq κ] (h : (rows.map key).Nodup) (hy : y ∈ rows)
    (hf : free y = true) : Claim free use rows (amend key rows (key y) use) (use y) := by
  obtain ⟨before,after,rfl⟩ := List.append_of_mem hy
  exact ⟨before,y,after,rfl,hf,rfl,amend_append_cons h⟩

namespace Claim

theorem exists_free (h : Claim free use rows rows' x) : ∃ y ∈ rows, free y = true ∧ x = use y := by
  obtain ⟨before,y,after,rfl,hf,rfl,rfl⟩ := h
  exact ⟨y,by simp,hf,rfl⟩

theorem mem_of_free (h : Claim free use rows rows' x) (hu : ∀ y, free (use y) = false)
    (hy : y ∈ rows') (hf : free y = true) : y ∈ rows := by
  obtain ⟨before,z,after,rfl,_,rfl,rfl⟩ := h
  rcases List.mem_append.mp hy with hy | hy
  · exact List.mem_append_left _ hy
  · rcases List.mem_cons.mp hy with rfl | hy
    · exact absurd hf (by simp [hu])
    · exact List.mem_append_right _ (List.mem_cons_of_mem _ hy)

theorem length_free (h : Claim free use rows rows' x) (hu : ∀ y, free (use y) = false) :
    (rows.filter free).length = (rows'.filter free).length + 1 := by
  obtain ⟨before,y,after,rfl,hf,rfl,rfl⟩ := h
  simp only [List.filter_append,List.filter_cons,hf,hu,if_true,List.length_append,List.length_cons]
  rfl

theorem key_ne (h : Claim free use rows rows' x) (hu : ∀ y, free (use y) = false)
    (hn : (rows'.map key).Nodup) (hy : y ∈ rows') (hf : free y = true) : key y ≠ key x := by
  obtain ⟨before,z,after,rfl,_,rfl,rfl⟩ := h
  intro he
  obtain rfl : y = use z := List.inj_on_of_nodup_map hn hy (by simp) he
  exact absurd hf (by simp [hu])

end Claim

end Table

namespace Roster

variable {r r' : Roster} {i : Identity} {e : Egress}

/-- The identity that was added first of those that are free is put to use. -/
structure IdentityClaimed (r r' : Roster) (i : Identity) : Prop where
  claim : Table.Claim Identity.claimable (fun i => { i with used := true }) r.identities
    r'.identities i
  first : ∃ j, r.identities.find? (·.claimable) = some j ∧ j.name = i.name
  egresses : r'.egresses = r.egresses

/-- The egress of the smallest id of those that are free is put to use. -/
structure EgressClaimed (r r' : Roster) (e : Egress) : Prop where
  claim : Table.Claim Egress.claimable (fun e => { e with inUse := true }) r.egresses r'.egresses e
  least : ∀ f ∈ r.egresses, f.claimable = true → e.id ≤ f.id
  identities : r'.identities = r.identities

theorem foldl_lesser_le {es : List Egress} {o : Option Egress} (h : es.foldl lesser o = some e) :
    (∀ f ∈ es, e.id ≤ f.id) ∧ ∀ f, o = some f → e.id ≤ f.id := by
  induction es generalizing o with
  | nil => exact ⟨by simp,fun f hf => by simp_all⟩
  | cons g es ih =>
    obtain ⟨hes,ho⟩ := ih h
    -- the lesser of two is below both
    have hl : ∃ m, lesser o g = some m ∧ m.id ≤ g.id ∧ ∀ f, o = some f → m.id ≤ f.id := by
      cases o with
      | none => exact ⟨g,rfl,Int.le_refl _,by simp⟩
      | some f =>
        by_cases hlt : g.id < f.id
        · exact ⟨g,if_pos hlt,Int.le_refl _,by rintro _ ⟨⟩; exact Int.le_of_lt hlt⟩
        · exact ⟨f,if_neg hlt,Int.not_lt.mp hlt,by rintro _ ⟨⟩; exact Int.le_refl _⟩
    obtain ⟨m,hm,hmg,hmo⟩ := hl
    have hem := ho m hm
    refine ⟨?_,fun f hf => Int.le_trans hem (hmo f hf)⟩
    intro f hf
    rcases List.mem_cons.mp hf with rfl | hf
    · exact Int.le_trans hem hmg
    · exact hes f hf

theorem Distinct.identityClaimed (h : r.Distinct) (hc : r.claimIdentity = (r',.ok i)) :
    r.IdentityClaimed r' i := by
  unfold Roster.claimIdentity at hc
  split at hc
  · simp at hc
  · rename_i j hj
    simp only [Prod.mk.injEq,Except.ok.injEq] at hc
    obtain ⟨rfl,rfl⟩ := hc
    exact ⟨Table.claim_amend h.names (List.mem_of_find?_eq_some hj) (List.find?_some hj),
      ⟨j,hj,rfl⟩,rfl⟩

theorem Distinct.egressClaimed (h : r.Distinct) (hc : r.claimEgress = (r',.ok e)) :
    r.EgressClaimed r' e := by
  unfold Roster.claimEgress at hc
  split at hc
  · simp at hc
  · rename_i f hf
    simp only [Prod.mk.injEq,Except.ok.injEq] at hc
    obtain ⟨rfl,rfl⟩ := hc
    obtain ⟨hm,hfree⟩ : f ∈ r.egresses ∧ f.claimable = true := by
      rcases mem_of_foldl_lesser hf with hn | hm
      · simp at hn
      · exact List.mem_filter.mp hm
    refine ⟨Table.claim_amend h.ids hm hfree,?_,rfl⟩
    intro g hg hgf
    exact (foldl_lesser_le hf).1 g (List.mem_filter.mpr ⟨hg,hgf⟩)

/-- A removal of the dead leaves an egress in use as it is or takes it away. -/
theorem EgressTaken.removeDeadEgress {id : Int} (h : r.EgressTaken id) :
    r.removeDeadEgress.1.EgressTaken id ∨ r.removeDeadEgress.1.egress? id = none := by
  by_cases hm : ∃ e ∈ r.removeDeadEgress.1.egresses, e.id = id
  · exact Or.inl ⟨hm,fun e he => h.2 e (List.mem_filter.mp he).1⟩
  · refine Or.inr (egress?_eq_none.mpr fun hi => hm ?_)
    simpa using hi

end Roster

namespace Store

variable {s t : Store} {name : String} {id : Int} {c : Command} {cs : List Command}

/-! ### One claim -/

/-- What a claim of an identity does: unless the call fails by plan, it succeeds exactly if an
identity is free. -/
structure IdentityClaims (s : Store) : Prop where
  succeeds : s.Accepts .claimIdentity →
    ((∃ t i, s.claimIdentity = (t,.ok i)) ↔ ∃ i ∈ s.roster.identities, i.used = false ∧
      i.banned = false)
  claimed : ∀ t i, s.claimIdentity = (t,.ok i) → s.roster.IdentityClaimed t.roster i ∧
    t.objects = s.objects
  refused : ∀ t e, s.claimIdentity = (t,.error e) → t.roster = s.roster ∧ t.objects = s.objects ∧
    (s.Accepts .claimIdentity → e = .notAvailable "identity")

structure EgressClaims (s : Store) : Prop where
  succeeds : s.Accepts .claimEgress →
    ((∃ t e, s.claimEgress = (t,.ok e)) ↔ ∃ e ∈ s.roster.egresses, e.inUse = false ∧ e.dead = false)
  claimed : ∀ t e, s.claimEgress = (t,.ok e) → s.roster.EgressClaimed t.roster e ∧
    t.objects = s.objects
  refused : ∀ t x, s.claimEgress = (t,.error x) → t.roster = s.roster ∧ t.objects = s.objects ∧
    (s.Accepts .claimEgress → x = .notAvailable "egress")

theorem objects_of_claimIdentity {x : Except StoreFailure Identity} (h : s.claimIdentity = (t,x)) :
    t.objects = s.objects := by
  have ho : s.claimIdentity.1.objects = s.objects := s.objects_onRoster _ _
  rwa [h] at ho

theorem objects_of_claimEgress {x : Except StoreFailure Egress} (h : s.claimEgress = (t,x)) :
    t.objects = s.objects := by
  have ho : s.claimEgress.1.objects = s.objects := s.objects_onRoster _ _
  rwa [h] at ho

theorem identityClaims (h : s.roster.Distinct) : s.IdentityClaims where
  succeeds ha := by
    refine ha.onRoster_succeeds (fun r i hc => ?_) fun r e hc => ?_
    · obtain ⟨j,hj,hu,hb,_⟩ := Roster.claimIdentity_ok hc
      exact ⟨j,hj,hu,hb⟩
    · rintro ⟨i,hi,hu,hb⟩
      simpa [Identity.claimable,hu,hb] using (Roster.claimIdentity_error hc).2.2 i hi
  claimed t i hc := ⟨h.identityClaimed (claimIdentity_ok hc),objects_of_claimIdentity hc⟩
  refused t e hc := ⟨(claimIdentity_error hc).roster,objects_of_claimIdentity hc,
    fun ha => (Roster.claimIdentity_error (ha.onRoster_eq hc)).2.1⟩

theorem egressClaims (h : s.roster.Distinct) : s.EgressClaims where
  succeeds ha := by
    refine ha.onRoster_succeeds (fun r e hc => ?_) fun r x hc => ?_
    · obtain ⟨f,hf,hu,hd,_⟩ := Roster.claimEgress_ok hc
      exact ⟨f,hf,hu,hd⟩
    · rintro ⟨e,he,hu,hd⟩
      simpa [Egress.claimable,hu,hd] using (Roster.claimEgress_error hc).2.2 e he
  claimed t e hc := ⟨h.egressClaimed (claimEgress_ok hc),objects_of_claimEgress hc⟩
  refused t x hc := ⟨(claimEgress_error hc).roster,objects_of_claimEgress hc,
    fun ha => (Roster.claimEgress_error (ha.onRoster_eq hc)).2.1⟩

/-! ### Many claims in a row -/

def repeated {α : Type} (call : Store → Store × α) : ℕ → Store → List α
  | 0, _ => []
  | n + 1, s => (call s).2 :: repeated call n (call s).1

/-- The answers to claims in a row: as many records as are free, or as are claimed for, all free
before and no two of one key, and then one refusal after the other. -/
structure Served {α κ : Type} (key : α → κ) (free : α → Bool) (use : α → α) (rows : List α)
    (refusal : StoreFailure) (n : ℕ) (answers : List (Except StoreFailure α)) (given : List α) :
    Prop where
  answers : answers = given.map .ok ++ List.replicate (n - (rows.filter free).length)
    (.error refusal)
  length : given.length = min n (rows.filter free).length
  distinct : (given.map key).Nodup
  free : ∀ x ∈ given, ∃ y ∈ rows, free y = true ∧ x = use y

section Repeated

variable {α κ : Type} (key : α → κ) (free : α → Bool) (use : α → α) (rows : Roster → List α)
  {refusal : StoreFailure} {c : StoreCall} {f : Roster → Roster × Except StoreFailure α}

/-- Claims in a row, where each of them takes one of the records that are free or is refused for
want of one. -/
theorem served (hu : ∀ y, free (use y) = false) (hku : ∀ y, key (use y) = key y)
    (hk : ∀ r : Roster, r.Distinct → ((rows r).map key).Nodup)
    (hd : ∀ r : Roster, r.Distinct → (f r).1.Distinct)
    (hok : ∀ r r' x, r.Distinct → f r = (r',.ok x) → Table.Claim free use (rows r) (rows r') x)
    (herr : ∀ r r' e, f r = (r',.error e) → r' = r ∧ e = refusal ∧ ∀ y ∈ rows r, free y = false)
    (n : ℕ) (h : s.roster.Distinct) (hf : s.faults c = []) :
    ∃ given, Served key free use (rows s.roster) refusal n (repeated (fun s => s.onRoster c f) n s)
      given := by
  induction n generalizing s with
  | zero => exact ⟨[],by simp [repeated],by simp,by simp,by simp⟩
  | succ n ih =>
    have hs := onRoster_of_unplanned hf f
    obtain ⟨given,hg⟩ := ih (s := { s with roster := (f s.roster).1 }) (hd _ h) hf
    cases hx : f s.roster with
    | mk r x =>
      have hr := hd _ h
      rw [hx] at hs hg hr
      cases x with
      | ok x =>
        have hcl := hok _ r x h hx
        have hl := hcl.length_free hu
        refine ⟨x :: given,?_,?_,?_,?_⟩
        · rw [repeated,hs,hg.answers,hl,Nat.add_sub_add_right]
          rfl
        · rw [List.length_cons,hg.length,hl,Nat.add_min_add_right]
        · rw [List.map_cons,List.nodup_cons]
          refine ⟨fun hm => ?_,hg.distinct⟩
          -- what is free after the first claim has another key than what the first claim was given
          obtain ⟨y,hy,he⟩ := List.mem_map.mp hm
          obtain ⟨z,hz,hf,rfl⟩ := hg.free y hy
          exact hcl.key_ne hu (hk _ hr) hz hf ((hku z).symm.trans he)
        · intro y hy
          rcases List.mem_cons.mp hy with rfl | hy
          · exact hcl.exists_free
          · obtain ⟨z,hz,hf,rfl⟩ := hg.free y hy
            exact ⟨z,hcl.mem_of_free hu hz hf,hf,rfl⟩
      | error e =>
        obtain ⟨rfl,rfl,hn⟩ := herr _ r e hx
        have hn := List.filter_eq_nil_iff.mpr fun y hy => Bool.eq_false_iff.mp (hn y hy)
        have hl := hg.length
        rw [hn,List.length_nil,Nat.min_zero,List.length_eq_zero_iff] at hl
        subst hl
        have ha := hg.answers
        rw [hn] at ha
        refine ⟨[],?_,by simp [hn],by simp,by simp⟩
        rw [repeated,hs,ha,hn]
        rfl

end Repeated

theorem identities_served (h : s.roster.Distinct) (hf : s.faults .claimIdentity = []) (n : ℕ) :
    ∃ given, Served Identity.name Identity.claimable (fun i => { i with used := true })
      s.roster.identities (.notAvailable "identity") n (repeated claimIdentity n s) given :=
  served Identity.name Identity.claimable (fun i => { i with used := true }) Roster.identities
    (fun _ => rfl) (fun _ => rfl) (fun _ => Roster.Distinct.names)
      (fun _ => Roster.Distinct.claimIdentity)
    (fun _ _ _ h hc => (h.identityClaimed hc).claim) (fun _ _ _ => Roster.claimIdentity_error) n h
      hf

theorem egresses_served (h : s.roster.Distinct) (hf : s.faults .claimEgress = []) (n : ℕ) :
    ∃ given, Served Egress.id Egress.claimable (fun e => { e with inUse := true }) s.roster.egresses
      (.notAvailable "egress") n (repeated claimEgress n s) given :=
  served Egress.id Egress.claimable (fun e => { e with inUse := true }) Roster.egresses
    (fun _ => rfl) (fun _ => rfl) (fun _ => Roster.Distinct.ids)
      (fun _ => Roster.Distinct.claimEgress)
    (fun _ _ _ h hc => (h.egressClaimed hc).claim) (fun _ _ _ => Roster.claimEgress_error) n h hf

/-! ### Between two claims of one record -/

/-- The command takes the identity out of use: it is a release of it, or a reconciliation that does
not list it. -/
structure FreesIdentity (s : Store) (name : String) (c : Command) : Prop where
  command : c = .releaseIdentity name ∨
    (∃ assigned, c = .reconcile assigned ∧ name ∉ assigned.map (·.account)) ∨ c = .markAllUnused
  taken : s.roster.IdentityTaken name
  freed : ∃ i ∈ (s.run c).1.roster.identities, i.name = name ∧ i.used = false

structure FreesEgress (s : Store) (id : Int) (c : Command) : Prop where
  command : c = .releaseEgress id ∨
    (∃ assigned, c = .reconcile assigned ∧ id ∉ assigned.map (·.egress)) ∨ c = .markAllUnused
  taken : s.roster.EgressTaken id
  freed : ∃ e ∈ (s.run c).1.roster.egresses, e.id = id ∧ e.inUse = false

structure RemovesEgress (s : Store) (id : Int) (c : Command) : Prop where
  command : c = .dropAllEgress ∨ c = .removeDeadEgress
  taken : s.roster.EgressTaken id
  gone : (s.run c).1.roster.egress? id = none

theorem exists_lost {P : Store → Prop} (h : P s) (hn : ¬ P (s.runCommands cs)) :
    ∃ before c after, cs = before ++ c :: after ∧ P (s.runCommands before) ∧
      ¬ P ((s.runCommands before).run c).1 := by
  induction cs generalizing s with
  | nil => exact absurd h hn
  | cons c cs ih =>
    by_cases hc : P (s.run c).1
    · obtain ⟨before,d,after,rfl,hb,hd⟩ := ih hc hn
      exact ⟨c :: before,d,after,rfl,hb,hd⟩
    · exact ⟨[],c,cs,rfl,h,hc⟩

theorem identityTaken_run (h : s.roster.IdentityTaken name) (c : Command) :
    (s.run c).1.roster.IdentityTaken name ∨ s.FreesIdentity name c := by
  by_cases ht : (s.run c).1.roster.IdentityTaken name
  · exact Or.inl ht
  have hcommand : c = .releaseIdentity name ∨
      (∃ assigned, c = .reconcile assigned ∧ name ∉ assigned.map (·.account)) ∨
      c = .markAllUnused := by
    cases c with
    | releaseIdentity other =>
      by_cases ho : name = other
      · exact Or.inl (ho ▸ rfl)
      · exact absurd ((s.spares_releaseIdentity other 0).identities name ho h) ht
    | reconcile assigned =>
      refine Or.inr (Or.inl ⟨assigned,rfl,fun hm => ht ?_⟩)
      rw [run,answered,reconcile_eq]
      exact onRoster_roster (·.IdentityTaken name) h (Roster.reconcile_identityTaken hm h.1)
    | markAllUnused => exact Or.inr (Or.inr rfl)
    | releaseEgress _ | dropAllEgress | removeDeadEgress =>
      exact absurd (onRoster_roster (·.IdentityTaken name) h h) ht
    | _ => exact absurd ((s.keeps_run _ rfl).identities name h) ht
  -- such a command changes use flags only, so the record is still there
  have hbare : (s.run c).1.roster.bare = s.roster.bare := by
    rcases hcommand with rfl | ⟨_,rfl,_⟩ | rfl <;> exact s.bare_run _ rfl
  have hm : name ∈ (s.run c).1.roster.identities.map (·.name) := by
    rw [← Roster.names_bare,hbare,Roster.names_bare]
    exact List.mem_map.mpr h.1
  exact Or.inr ⟨hcommand,h,Table.exists_free_of_not_taken ht hm⟩

theorem egressTaken_run (h : s.roster.EgressTaken id) (c : Command) :
    (s.run c).1.roster.EgressTaken id ∨ s.FreesEgress id c ∨ s.RemovesEgress id c := by
  by_cases ht : (s.run c).1.roster.EgressTaken id
  · exact Or.inl ht
  refine Or.inr ?_
  by_cases hr : c.removes = true
  · refine Or.inr ⟨?_,h,?_⟩
    · cases c <;> simp_all [Command.removes]
    · -- a removal takes no use flag away, so the record is lost with it
      cases c with
      | dropAllEgress =>
        exact (onRoster_roster (fun r => r.EgressTaken id ∨ r.egress? id = none) (Or.inl h)
          (Or.inr rfl)).resolve_left ht
      | removeDeadEgress =>
        exact (onRoster_roster (fun r => r.EgressTaken id ∨ r.egress? id = none) (Or.inl h)
          h.removeDeadEgress).resolve_left ht
      | _ => simp [Command.removes] at hr
  · have hcommand : c = .releaseEgress id ∨
        (∃ assigned, c = .reconcile assigned ∧ id ∉ assigned.map (·.egress)) ∨
        c = .markAllUnused := by
      cases c with
      | releaseEgress other =>
        by_cases ho : id = other
        · exact Or.inl (ho ▸ rfl)
        · exact absurd ((s.spares_releaseEgress "" other).egresses id ho h) ht
      | reconcile assigned =>
        refine Or.inr (Or.inl ⟨assigned,rfl,fun hm => ht ?_⟩)
        rw [run,answered,reconcile_eq]
        exact onRoster_roster (·.EgressTaken id) h (Roster.reconcile_egressTaken hm h.1)
      | markAllUnused => exact Or.inr (Or.inr rfl)
      | releaseIdentity _ => exact absurd (onRoster_roster (·.EgressTaken id) h h) ht
      | dropAllEgress | removeDeadEgress => simp [Command.removes] at hr
      | _ => exact absurd ((s.keeps_run _ rfl).egresses id h) ht
    have hbare : (s.run c).1.roster.bare = s.roster.bare := by
      rcases hcommand with rfl | ⟨_,rfl,_⟩ | rfl <;> exact s.bare_run _ rfl
    have hm : id ∈ (s.run c).1.roster.egresses.map (·.id) := by
      rw [← Roster.egressIds_bare,hbare,Roster.egressIds_bare]
      exact List.mem_map.mpr h.1
    exact Or.inl ⟨hcommand,h,Table.exists_free_of_not_taken ht hm⟩

/-- How an egress that was in use can be claimed again: a command freed it, or one removed it and it
was added again later. -/
inductive EgressReturned (s : Store) (id : Int) (cs : List Command) : Prop
  | freed (before : List Command) (c : Command) (after : List Command)
      (h : cs = before ++ c :: after)
    (hc : (s.runCommands before).FreesEgress id c)
  | readded (before : List Command) (c : Command) (between after : List Command)
    (h : cs = before ++ c :: (between ++ .addEgress id :: after))
      (hc : (s.runCommands before).RemovesEgress id c)
    (ha : ((((s.runCommands before).run c).1.runCommands between).run (.addEgress id)).2 =
      .ok .done)

theorem runCommands_append_cons (s : Store) (before : List Command) (c : Command)
    (after : List Command) :
    s.runCommands (before ++ c :: after) = ((s.runCommands before).run c).1.runCommands after := by
  simp [runCommands]

theorem egressReturned (h : s.roster.EgressTaken id)
    (hn : ¬ (s.runCommands cs).roster.EgressTaken id)
    (hg : (s.runCommands cs).roster.egress? id ≠ none) : s.EgressReturned id cs := by
  obtain ⟨before,c,after,rfl,hb,hc⟩ := exists_lost (P := fun t => t.roster.EgressTaken id) h hn
  rcases (egressTaken_run hb c).resolve_left hc with hf | hr
  · exact .freed before c after rfl hf
  · -- it was gone after the command, so one of the later ones added it
    rw [runCommands_append_cons] at hg
    obtain ⟨between,d,rest,rfl,hd,ha⟩ :=
      exists_lost (P := fun t => t.roster.egress? id = none) hr.gone hg
    obtain ⟨rfl,ha⟩ := (egress?_run hd d).resolve_left ha
    exact .readded before c between rest rfl hr ha

theorem identityFreed (h : s.roster.IdentityTaken name)
    (hn : ¬ (s.runCommands cs).roster.IdentityTaken name) :
    ∃ before c after, cs = before ++ c :: after ∧ (s.runCommands before).FreesIdentity name c := by
  obtain ⟨before,c,after,rfl,hb,hc⟩ := exists_lost (P := fun t => t.roster.IdentityTaken name) h hn
  exact ⟨before,c,after,rfl,(identityTaken_run hb c).resolve_left hc⟩

/-- The law of the claims on a store: what one claim does, what many do in a row, and what has
happened between two claims that give the same. -/
structure ClaimsExclusively (s : Store) : Prop where
  identity : s.IdentityClaims
  egress : s.EgressClaims
  identities : ∀ t i cs u j, s.claimIdentity = (t,.ok i) →
    (t.runCommands cs).claimIdentity = (u,.ok j) → j.name = i.name →
      ∃ before c after, cs = before ++ c :: after ∧ (t.runCommands before).FreesIdentity i.name c
  egresses : ∀ t e cs u f, s.claimEgress = (t,.ok e) → (t.runCommands cs).claimEgress = (u,.ok f) →
    f.id = e.id → t.EgressReturned e.id cs
  identities_in_a_row : s.faults .claimIdentity = [] → ∀ n, ∃ given,
    Served Identity.name Identity.claimable (fun i => { i with used := true }) s.roster.identities
      (.notAvailable "identity") n (repeated claimIdentity n s) given
  egresses_in_a_row : s.faults .claimEgress = [] → ∀ n, ∃ given,
    Served Egress.id Egress.claimable (fun e => { e with inUse := true }) s.roster.egresses
      (.notAvailable "egress") n (repeated claimEgress n s) given

theorem claimsExclusively (h : s.roster.Distinct) : s.ClaimsExclusively where
  identity := identityClaims h
  egress := egressClaims h
  identities t i cs u j hi hj hn := by
    have hfree := (Roster.claimIdentity_taken (claimIdentity_ok hj)).1
    exact identityFreed (Roster.claimIdentity_taken (claimIdentity_ok hi)).2 (hn ▸ hfree)
  egresses t e cs u f he hf hn := by
    have hfree := (Roster.claimEgress_taken (claimEgress_ok hf)).1
    obtain ⟨g,hg,_,_,rfl,_⟩ := Roster.claimEgress_ok (claimEgress_ok hf)
    refine egressReturned (Roster.claimEgress_taken (claimEgress_ok he)).2 (hn ▸ hfree) ?_
    exact fun hnone => Roster.egress?_eq_none.mp hnone (List.mem_map.mpr ⟨g,hg,hn⟩)
  identities_in_a_row := identities_served h
  egresses_in_a_row := egresses_served h

theorem distinct_runCommands (h : s.roster.Distinct) (cs : List Command) :
    (s.runCommands cs).roster.Distinct := by
  induction cs generalizing s with
  | nil => exact h
  | cons c cs ih => exact ih (s.distinct_run h c)

/-- Whatever a store without two records of one key has been asked to do, by however many callers
and with whichever of its calls failing: claims find a free record if there is one and give no
record to two callers. -/
theorem claims_exclusive_and_complete (h : s.roster.Distinct) (cs : List Command) :
    (s.runCommands cs).ClaimsExclusively := claimsExclusively (distinct_runCommands h cs)

/-- The only egress is claimed, killed, removed, added and claimed again. -/
theorem claims_exclusive_and_complete_comeback :
    lone.roster.Distinct ∧ (lone.runCommands [.count]).ClaimsExclusively ∧
      (lone.claimEgress.1.runCommands [.kill 1,.removeDeadEgress,.addEgress 1]).claimEgress.2 =
        .ok ⟨1,true,false⟩ ∧
      lone.claimEgress.1.EgressReturned 1 [.kill 1,.removeDeadEgress,.addEgress 1] := by
  have hd : lone.roster.Distinct := ⟨by decide,by decide⟩
  refine ⟨hd,claims_exclusive_and_complete hd _,rfl,?_⟩
  exact (claims_exclusive_and_complete hd []).egresses _ ⟨1,true,false⟩ _ _
    ⟨1,true,false⟩ rfl rfl rfl

end Store
end ScanService
