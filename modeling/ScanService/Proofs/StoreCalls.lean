import ScanService.Store.Command
import ScanService.Proofs.Roster
/-! The calls of the store. A call that is to fail leaves every record as it is; any other does what
it does to the records, and a store without planned faults carries out every call. -/
namespace ScanService.Store

/-- No planned call fails. -/
def Faultless (s : Store) : Prop := ∀ c, ∀ f ∈ s.faults c, f = none

theorem faultless_of_unplanned {s : Store} (h : s.faults = fun _ => []) : s.Faultless := by
  simp [Faultless,h]

structure SameRecords (s t : Store) : Prop where
  roster : t.roster = s.roster
  faultless : s.Faultless → t.Faultless

theorem SameRecords.refl (s : Store) : SameRecords s s := ⟨rfl,fun h => h⟩

theorem SameRecords.trans {s t u : Store} (h : SameRecords s t) (h' : SameRecords t u) :
    SameRecords s u := ⟨h'.roster.trans h.roster,fun hf => h'.faultless (h.faultless hf)⟩

/-- Nothing is different but which calls are planned to fail, and there are no new faults. -/
structure Spends (s t : Store) : Prop where
  frame : t = { s with faults := t.faults }
  faultless : s.Faultless → t.Faultless

theorem Spends.refl (s : Store) : Spends s s := ⟨rfl,fun h => h⟩

theorem Spends.trans {s t u : Store} (h : Spends s t) (h' : Spends t u) : Spends s u :=
  ⟨by rw [h'.frame,h.frame],fun hf => h'.faultless (h.faultless hf)⟩

theorem Spends.roster {s t : Store} (h : Spends s t) : t.roster = s.roster := by
  rw [h.frame]

theorem Spends.objects {s t : Store} (h : Spends s t) : t.objects = s.objects := by
  rw [h.frame]

theorem Spends.sameRecords {s t : Store} (h : Spends s t) : SameRecords s t :=
  ⟨h.roster,h.faultless⟩

theorem spends_plan {s : Store} {c : StoreCall} {f : Option StoreFailure}
    {later : List (Option StoreFailure)} (h : s.faults c = f :: later) :
    Spends s (s.plan c later) := by
  refine ⟨rfl,?_⟩
  intro hs d
  simp only [plan]
  by_cases hd : d = c
  · subst hd
    have hl := hs d
    rw [h] at hl
    simpa using (List.forall_mem_cons.mp hl).2
  · simpa [hd] using hs d

/-- A call either fails by plan or is carried out. -/
theorem call_cases {α : Type} (s : Store) (c : StoreCall)
    (run : Store → Store × Except StoreFailure α) :
    ∃ t, Spends s t ∧
      (s.call c run = run t ∨ (¬ s.Faultless ∧ ∃ e, s.call c run = (t,.error e))) := by
  unfold call
  split
  · exact ⟨s,.refl s,Or.inl rfl⟩
  · rename_i e later hc
    refine ⟨_,spends_plan hc,Or.inr ⟨?_,e,rfl⟩⟩
    intro hs
    exact Option.some_ne_none e (hs c _ (by simp [hc]))
  · rename_i later hc
    exact ⟨_,spends_plan hc,Or.inl rfl⟩

section OnRoster

variable {α : Type} {s t : Store} {c : StoreCall} {f : Roster → Roster × Except StoreFailure α}

/-- What holds of the records before a call and of what the call makes of them, holds after it. -/
theorem onRoster_roster (P : Roster → Prop) (h : P s.roster) (hf : P (f s.roster).1) :
    P (s.onRoster c f).1.roster := by
  obtain ⟨t,ht,he | ⟨_,x,he⟩⟩ :=
    s.call_cases c fun s => ({ s with roster := (f s.roster).1 },(f s.roster).2)
  · simpa only [onRoster,he,ht.roster] using hf
  · simpa only [onRoster,he,ht.roster] using h

theorem onRoster_ok {a : α} (h : s.onRoster c f = (t,.ok a)) : f s.roster = (t.roster,.ok a) := by
  obtain ⟨u,hu,he | ⟨_,x,he⟩⟩ :=
    s.call_cases c fun s => ({ s with roster := (f s.roster).1 },(f s.roster).2)
  · rw [onRoster,he,hu.roster,Prod.mk.injEq] at h
    rw [← h.1,← h.2]
  · simp [onRoster,he] at h

theorem onRoster_error {e : StoreFailure} (h : s.onRoster c f = (t,.error e)) :
    f s.roster = (t.roster,.error e) ∨ (t.roster = s.roster ∧ ¬ s.Faultless) := by
  obtain ⟨u,hu,he | ⟨hn,x,he⟩⟩ :=
    s.call_cases c fun s => ({ s with roster := (f s.roster).1 },(f s.roster).2)
  · rw [onRoster,he,hu.roster,Prod.mk.injEq] at h
    exact Or.inl (by rw [← h.1,← h.2])
  · rw [onRoster,he,Prod.mk.injEq] at h
    exact Or.inr ⟨h.1 ▸ hu.roster,hn⟩

theorem Faultless.onRoster (h : s.Faultless) : (s.onRoster c f).1.Faultless := by
  obtain ⟨u,hu,he | ⟨hn,_⟩⟩ :=
    s.call_cases c fun s => ({ s with roster := (f s.roster).1 },(f s.roster).2)
  · rw [Store.onRoster,he]
    exact hu.faultless h
  · exact absurd h hn

theorem Faultless.onRoster_roster (h : s.Faultless) :
    (s.onRoster c f).1.roster = (f s.roster).1 := by
  obtain ⟨u,hu,he | ⟨hn,_⟩⟩ :=
    s.call_cases c fun s => ({ s with roster := (f s.roster).1 },(f s.roster).2)
  · rw [Store.onRoster,he,← hu.roster]
  · exact absurd h hn

end OnRoster

/-- A reconciliation does to the records what its statements do one after the other. -/
theorem reconcile_eq (s : Store) (assigned : List StatusEntry) :
    s.reconcile assigned =
      s.onRoster .reconcile fun r => ((r.reconcile assigned).1,.ok (r.reconcile assigned).2) :=
  congrArg (s.onRoster .reconcile) (funext (Roster.transaction_of_none fun _ _ => rfl))

/-- A change to the resource records leaves the objects alone. -/
theorem objects_onRoster {α : Type} (s : Store) (c : StoreCall)
    (f : Roster → Roster × Except StoreFailure α) : (s.onRoster c f).1.objects = s.objects := by
  unfold onRoster call
  split <;> rfl

/-- The next call of a kind is not planned to fail. -/
def Accepts (s : Store) (c : StoreCall) : Prop := (s.faults c).head?.join = none

/-- A call that is accepted is carried out. -/
theorem Accepts.onRoster {α : Type} {s : Store} {c : StoreCall} (h : s.Accepts c)
    (f : Roster → Roster × Except StoreFailure α) :
    (s.onRoster c f).1.roster = (f s.roster).1 ∧ (s.onRoster c f).2 = (f s.roster).2 := by
  unfold Store.onRoster call
  split
  · exact ⟨rfl,rfl⟩
  · rename_i later hc
    simp [Accepts,hc] at h
  · exact ⟨rfl,rfl⟩

theorem Accepts.onRoster_eq {α : Type} {s t : Store} {c : StoreCall} (h : s.Accepts c)
    {f : Roster → Roster × Except StoreFailure α} {x : Except StoreFailure α}
    (hc : s.onRoster c f = (t,x)) : f s.roster = (t.roster,x) := by
  have hr := h.onRoster f
  rw [hc] at hr
  exact Prod.ext hr.1.symm hr.2.symm

/-- A call that is accepted succeeds exactly if what it does to the records does. -/
theorem Accepts.onRoster_succeeds {α : Type} {s : Store} {c : StoreCall} (h : s.Accepts c)
    {f : Roster → Roster × Except StoreFailure α} {P : Prop}
    (hok : ∀ r a, f s.roster = (r,.ok a) → P) (herr : ∀ r e, f s.roster = (r,.error e) → ¬ P) :
    (∃ t a, s.onRoster c f = (t,.ok a)) ↔ P := by
  constructor
  · rintro ⟨t,a,hc⟩
    exact hok _ a (onRoster_ok hc)
  · intro hp
    cases hc : s.onRoster c f with
    | mk t x =>
      cases x with
      | ok a => exact ⟨t,a,rfl⟩
      | error e => exact absurd hp (herr _ e (h.onRoster_eq hc))

/-- Without a plan a call is just carried out. -/
theorem onRoster_of_unplanned {α : Type} {s : Store} {c : StoreCall} (h : s.faults c = [])
    (f : Roster → Roster × Except StoreFailure α) :
    s.onRoster c f = ({ s with roster := (f s.roster).1 },(f s.roster).2) := by
  simp only [onRoster,call,h]

/-- A call uses up no plan but its own. -/
theorem accepts_onRoster {α : Type} {s : Store} {c d : StoreCall} (h : s.Accepts d) (hd : d ≠ c)
    (f : Roster → Roster × Except StoreFailure α) : (s.onRoster c f).1.Accepts d := by
  unfold onRoster call
  split
  · exact h
  · simpa [Accepts,plan,hd] using h
  · simpa [Accepts,plan,hd] using h

theorem sameRecords_onObjects {α : Type} (s : Store) (c : StoreCall)
    (f : ObjectTable Float → ObjectTable Float × Except StoreFailure α) :
    SameRecords s (s.onObjects c f).1 := by
  obtain ⟨t,ht,he | ⟨_,x,he⟩⟩ :=
    s.call_cases c fun s => ({ s with objects := (f s.objects).1 },(f s.objects).2)
  · rw [onObjects,he]
    exact ⟨ht.roster,ht.faultless⟩
  · rw [onObjects,he]
    exact ht.sameRecords

/-- A change to the objects fails by plan, or it is made. -/
theorem onObjects_cases {α : Type} (s : Store) (c : StoreCall)
    (f : ObjectTable Float → ObjectTable Float × Except StoreFailure α) :
    (s.onObjects c f).1.objects = s.objects ∨
      ((s.onObjects c f).1.objects = (f s.objects).1 ∧ (s.onObjects c f).2 = (f s.objects).2) := by
  unfold onObjects call
  split
  · exact Or.inr ⟨rfl,rfl⟩
  · exact Or.inl rfl
  · exact Or.inr ⟨rfl,rfl⟩

theorem spends_ask {α : Type} (s : Store) (c : StoreCall) (f : Store → α) :
    Spends s (s.ask c f).1 := by
  obtain ⟨t,ht,he | ⟨_,x,he⟩⟩ := s.call_cases c fun s => (s,.ok (f s))
  · rw [ask,he]
    exact ht
  · rw [ask,he]
    exact ht

theorem sameRecords_ask {α : Type} (s : Store) (c : StoreCall) (f : Store → α) :
    SameRecords s (s.ask c f).1 := (s.spends_ask c f).sameRecords

/-- Without faults a question is answered. -/
theorem Faultless.ask {α : Type} {s : Store} (h : s.Faultless) (c : StoreCall) (f : Store → α) :
    ∃ t, SameRecords s t ∧ s.ask c f = (t,.ok (f t)) := by
  obtain ⟨t,ht,he | ⟨hn,_⟩⟩ := s.call_cases c fun s => (s,.ok (f s))
  · exact ⟨t,ht.sameRecords,he⟩
  · exact absurd h hn

theorem ask_ok {α : Type} {s t : Store} {c : StoreCall} {f : Store → α} {a : α}
    (h : s.ask c f = (t,.ok a)) : Spends s t ∧ a = f t := by
  obtain ⟨u,hu,he | ⟨_,x,he⟩⟩ := s.call_cases c fun s => (s,.ok (f s))
  · rw [ask,he,Prod.mk.injEq,Except.ok.injEq] at h
    exact ⟨h.1 ▸ hu,h.1 ▸ h.2.symm⟩
  · simp [ask,he] at h

theorem sameRecords_writeAll (s : Store) (os : List (ScanObject Float)) :
    SameRecords s (s.writeAll os) := by
  induction os generalizing s with
  | nil => exact .refl s
  | cons o os ih => exact (sameRecords_onObjects s .write fun t => t.write o).trans (ih _)

/-! ### The calls of a scan -/

theorem claimEgress_ok {s t : Store} {e : Egress} (h : s.claimEgress = (t,.ok e)) :
    s.roster.claimEgress = (t.roster,.ok e) := onRoster_ok h

theorem claimIdentity_ok {s t : Store} {i : Identity} (h : s.claimIdentity = (t,.ok i)) :
    s.roster.claimIdentity = (t.roster,.ok i) := onRoster_ok h

theorem claimEgress_faultless {s t : Store} {x : Except StoreFailure Egress}
    (h : s.claimEgress = (t,x)) (hs : s.Faultless) : t.Faultless := by
  have hh := hs.onRoster (c := .claimEgress) (f := Roster.claimEgress)
  rw [← claimEgress,h] at hh
  exact hh

theorem claimIdentity_faultless {s t : Store} {x : Except StoreFailure Identity}
    (h : s.claimIdentity = (t,x)) (hs : s.Faultless) : t.Faultless := by
  have hh := hs.onRoster (c := .claimIdentity) (f := Roster.claimIdentity)
  rw [← claimIdentity,h] at hh
  exact hh

theorem claimEgress_error {s t : Store} {x : StoreFailure} (h : s.claimEgress = (t,.error x)) :
    SameRecords s t := by
  refine ⟨?_,claimEgress_faultless h⟩
  rcases onRoster_error h with hr | hr
  · exact (Roster.claimEgress_error hr).1
  · exact hr.1

theorem claimIdentity_error {s t : Store} {x : StoreFailure} (h : s.claimIdentity = (t,.error x)) :
    SameRecords s t := by
  refine ⟨?_,claimIdentity_faultless h⟩
  rcases onRoster_error h with hr | hr
  · exact (Roster.claimIdentity_error hr).1
  · exact hr.1

/-- Without faults a claim is refused only for want of a claimable record. -/
theorem claimEgress_refused {s t : Store} {x : StoreFailure} (h : s.claimEgress = (t,.error x))
    (hs : s.Faultless) : x = .notAvailable "egress" ∧ s.roster.nextEgress = none := by
  rcases onRoster_error h with hr | hr
  · exact ⟨(Roster.claimEgress_error hr).2.1,Roster.claimEgress_error_next hr⟩
  · exact absurd hs hr.2

open Roster in
theorem keeps_kill (s : Store) (id : Int) : Keeps s.roster (s.kill id).1.roster :=
  onRoster_roster (Keeps s.roster) (.refl _) (Roster.keeps_kill _ _)

open Roster in
theorem keeps_ban (s : Store) (name : String) : Keeps s.roster (s.ban name).1.roster :=
  onRoster_roster (Keeps s.roster) (.refl _) (Roster.keeps_ban _ _)

open Roster in
theorem spares_releaseIdentity (s : Store) (name : String) (id : Int) :
    Spares name id s.roster (s.releaseIdentity name).1.roster :=
  onRoster_roster (Spares name id s.roster) ((Keeps.refl _).spares _ _)
    (Roster.spares_releaseIdentity _ _ _)

open Roster in
theorem spares_releaseEgress (s : Store) (name : String) (id : Int) :
    Spares name id s.roster (s.releaseEgress id).1.roster :=
  onRoster_roster (Spares name id s.roster) ((Keeps.refl _).spares _ _)
    (Roster.spares_releaseEgress _ _ _)

theorem identities_releaseEgress (s : Store) (id : Int) :
    (s.releaseEgress id).1.roster.identities = s.roster.identities :=
  onRoster_roster (fun r => r.identities = s.roster.identities) rfl rfl

theorem egresses_releaseIdentity (s : Store) (name : String) :
    (s.releaseIdentity name).1.roster.egresses = s.roster.egresses :=
  onRoster_roster (fun r => r.egresses = s.roster.egresses) rfl rfl

section Dead

open Roster

theorem keepsDead_onRoster {α : Type} (s : Store) (c : StoreCall)
    (f : Roster → Roster × Except StoreFailure α) (hf : KeepsDead s.roster (f s.roster).1) :
    KeepsDead s.roster (s.onRoster c f).1.roster :=
  onRoster_roster (KeepsDead s.roster) (.refl _) hf

theorem keepsDead_kill (s : Store) (id : Int) : KeepsDead s.roster (s.kill id).1.roster :=
  s.keepsDead_onRoster _ _ (keepsDead_updateEgress _ _ (fun _ => rfl) fun _ _ => rfl)

theorem keepsDead_releaseEgress (s : Store) (id : Int) :
    KeepsDead s.roster (s.releaseEgress id).1.roster :=
  s.keepsDead_onRoster _ _ (keepsDead_updateEgress _ _ (fun _ => rfl) fun _ h => h)

theorem keepsDead_releaseIdentity (s : Store) (name : String) :
    KeepsDead s.roster (s.releaseIdentity name).1.roster :=
  s.keepsDead_onRoster _ _ fun _ h => h

theorem keepsDead_ban (s : Store) (name : String) : KeepsDead s.roster (s.ban name).1.roster :=
  s.keepsDead_onRoster _ _ fun _ h => h

theorem keepsDead_of_claimEgress {s t : Store} {x : Except StoreFailure Egress}
    (h : s.claimEgress = (t,x)) : KeepsDead s.roster t.roster := by
  have hk := s.keepsDead_onRoster .claimEgress Roster.claimEgress (keepsDead_claimEgress _)
  rwa [← claimEgress,h] at hk

theorem keepsDead_of_claimIdentity {s t : Store} {x : Except StoreFailure Identity}
    (h : s.claimIdentity = (t,x)) : KeepsDead s.roster t.roster := by
  have hk := s.keepsDead_onRoster .claimIdentity Roster.claimIdentity (keepsDead_claimIdentity _)
  rwa [← claimIdentity,h] at hk

end Dead

end ScanService.Store

namespace ScanService

/-- A command that clears no use flag and removes no record. -/
def Command.spares : Command → Bool
  | .releaseIdentity _ | .releaseEgress _ | .reconcile _ | .markAllUnused | .dropAllEgress
  | .removeDeadEgress => false
  | _ => true

open Roster in
theorem Store.keeps_run (s : Store) (c : Command) (hc : c.spares = true) :
    Keeps s.roster (s.run c).1.roster := by
  have hr := Keeps.refl s.roster
  cases c with
  | claimIdentity => exact onRoster_roster (Keeps s.roster) hr (keeps_claimIdentity _)
  | claimEgress => exact onRoster_roster (Keeps s.roster) hr (keeps_claimEgress _)
  | ban name => exact s.keeps_ban name
  | kill id => exact s.keeps_kill id
  | addIdentity i => exact onRoster_roster (Keeps s.roster) hr (keeps_addIdentity _ _)
  | addEgress id => exact onRoster_roster (Keeps s.roster) hr (keeps_addEgress _ _)
  | identityStats | egressStats | getIdentity _ | getEgress _ | banned | query _ _ _ _
  | get _ | count =>
    exact (sameRecords_ask s _ _).roster ▸ hr
  | write o => exact (sameRecords_onObjects s _ _).roster ▸ hr
  | purge n => exact (sameRecords_onObjects s _ _).roster ▸ hr
  | releaseIdentity _ | releaseEgress _ | reconcile _ | markAllUnused | dropAllEgress
  | removeDeadEgress =>
    simp [Command.spares] at hc

def Command.reshapes : Command → Bool
  | .ban _ | .kill _ | .addIdentity _ | .addEgress _ | .dropAllEgress | .removeDeadEgress => true
  | _ => false

def Command.removes : Command → Bool
  | .dropAllEgress | .removeDeadEgress => true
  | _ => false

theorem Command.removes_of_spares {c : Command} (h : c.spares = true) : c.removes = false := by
  cases c <;> simp_all [removes,spares]

/-- All other commands change use flags at most. -/
theorem Store.bare_run (s : Store) (c : Command) (hc : c.reshapes = false) :
    (s.run c).1.roster.bare = s.roster.bare := by
  cases c with
  | claimIdentity =>
    exact onRoster_roster (·.bare = s.roster.bare) rfl (Roster.bare_claimIdentity _)
  | claimEgress => exact onRoster_roster (·.bare = s.roster.bare) rfl (Roster.bare_claimEgress _)
  | releaseIdentity name =>
    exact onRoster_roster (·.bare = s.roster.bare) rfl
      (Roster.bare_updateIdentity _ name fun _ => rfl)
  | releaseEgress id =>
    exact onRoster_roster (·.bare = s.roster.bare) rfl (Roster.bare_updateEgress _ id fun _ => rfl)
  | reconcile assigned =>
    rw [run,answered,reconcile_eq]
    exact onRoster_roster (·.bare = s.roster.bare) rfl (Roster.bare_reconcile _ assigned)
  | markAllUnused =>
    rw [run,answered,markAllUnused,reconcile_eq]
    exact onRoster_roster (·.bare = s.roster.bare) rfl (Roster.bare_reconcile _ [])
  | identityStats | egressStats | getIdentity _ | getEgress _ | banned | query _ _ _ _
  | get _ | count =>
    exact congrArg Roster.bare (sameRecords_ask s _ _).roster
  | write o => exact congrArg Roster.bare (sameRecords_onObjects s _ _).roster
  | purge n => exact congrArg Roster.bare (sameRecords_onObjects s _ _).roster
  | ban _ | kill _ | addIdentity _ | addEgress _ | dropAllEgress | removeDeadEgress =>
    simp [Command.reshapes] at hc

open Roster in
theorem Store.keepsDead_run (s : Store) (c : Command) (hc : c.removes = false) :
    KeepsDead s.roster (s.run c).1.roster := by
  cases hr : c.reshapes with
  | false =>
    intro id h
    rw [← egressDead_bare,s.bare_run c hr]
    exact egressDead_bare.mpr h
  | true =>
    cases c with
    | ban name => exact s.keepsDead_ban name
    | kill id => exact s.keepsDead_kill id
    | addIdentity i => exact s.keepsDead_onRoster _ _ (keepsDead_addIdentity _ i)
    | addEgress id => exact s.keepsDead_onRoster _ _ (keepsDead_addEgress _ id)
    | dropAllEgress | removeDeadEgress => simp [Command.removes] at hc
    | _ => simp [Command.reshapes] at hr

theorem Store.identityBanned_run {s : Store} {name : String} (h : s.roster.IdentityBanned name)
    (c : Command) : (s.run c).1.roster.IdentityBanned name := by
  cases hr : c.reshapes with
  | false =>
    rw [← Roster.identityBanned_bare,s.bare_run c hr]
    exact Roster.identityBanned_bare.mpr h
  | true =>
    cases c with
    | ban other => exact onRoster_roster (·.IdentityBanned name) h (h.ban other)
    | addIdentity i => exact onRoster_roster (·.IdentityBanned name) h (h.addIdentity i)
    | addEgress id => exact onRoster_roster (·.IdentityBanned name) h (h.addEgress id)
    | kill _ | dropAllEgress | removeDeadEgress => exact onRoster_roster (·.IdentityBanned name) h h
    | _ => simp [Command.reshapes] at hr

def Command.flagless : Command → Bool
  | .identityStats | .egressStats | .getIdentity _ | .getEgress _ | .banned | .addEgress _
  | .query _ _ _ _ | .write _ | .purge _ | .get _ | .count => true
  | .addIdentity i => !i.used
  | _ => false

theorem Command.spares_of_flagless {c : Command} (h : c.flagless = true) : c.spares = true := by
  cases c <;> simp_all [flagless,spares]

open Roster in
theorem Store.works_run (s : Store) (c : Command) (hc : c.flagless = true) :
    SameWorks s.roster (s.run c).1.roster := by
  have hr := SameWorks.refl s.roster
  cases c with
  | addIdentity i =>
    exact onRoster_roster (SameWorks s.roster) hr
      (sameWorks_addIdentity _ (by simpa [Command.flagless] using hc))
  | addEgress id => exact onRoster_roster (SameWorks s.roster) hr (sameWorks_addEgress _ _)
  | identityStats | egressStats | getIdentity _ | getEgress _ | banned | query _ _ _ _
  | get _ | count =>
    exact (sameRecords_ask s _ _).roster ▸ hr
  | write o => exact (sameRecords_onObjects s _ _).roster ▸ hr
  | purge n => exact (sameRecords_onObjects s _ _).roster ▸ hr
  | _ => simp [Command.flagless] at hc

theorem Store.Faultless.run {s : Store} (h : s.Faultless) {c : Command} (hc : c.flagless = true) :
    (s.run c).1.Faultless := by
  cases c with
  | addIdentity i => exact h.onRoster
  | addEgress id => exact h.onRoster
  | identityStats | egressStats | getIdentity _ | getEgress _ | banned | query _ _ _ _
  | get _ | count =>
    exact (sameRecords_ask s _ _).faultless h
  | write o => exact (sameRecords_onObjects s _ _).faultless h
  | purge n => exact (sameRecords_onObjects s _ _).faultless h
  | _ => simp [Command.flagless] at hc

/-- Whatever an administrator does, no two records of a kind get one key. -/
theorem Store.distinct_run (s : Store) (h : s.roster.Distinct) (c : Command) :
    (s.run c).1.roster.Distinct := by
  cases c with
  | claimIdentity => exact onRoster_roster _ h h.claimIdentity
  | claimEgress => exact onRoster_roster _ h h.claimEgress
  | releaseIdentity name => exact onRoster_roster _ h (h.updateIdentity _ fun _ => rfl)
  | releaseEgress id => exact onRoster_roster _ h (h.updateEgress _ fun _ => rfl)
  | ban name => exact onRoster_roster _ h (h.updateIdentity _ fun _ => rfl)
  | kill id => exact onRoster_roster _ h (h.updateEgress _ fun _ => rfl)
  | reconcile assigned =>
    rw [run,answered,reconcile_eq]
    exact onRoster_roster _ h (h.reconcile assigned)
  | markAllUnused =>
    rw [run,answered,markAllUnused,reconcile_eq]
    exact onRoster_roster _ h (h.reconcile [])
  | addIdentity i => exact onRoster_roster _ h (h.addIdentity i)
  | addEgress id => exact onRoster_roster _ h (h.addEgress id)
  | dropAllEgress => exact onRoster_roster _ h ⟨h.names,List.nodup_nil⟩
  | removeDeadEgress =>
    exact onRoster_roster _ h ⟨h.names,h.ids.sublist (List.filter_sublist.map _)⟩
  | identityStats | egressStats | getIdentity _ | getEgress _ | banned | query _ _ _ _
  | get _ | count =>
    exact (sameRecords_ask s _ _).roster ▸ h
  | write o => exact (sameRecords_onObjects s _ _).roster ▸ h
  | purge n => exact (sameRecords_onObjects s _ _).roster ▸ h

theorem Store.distinct_of_claimEgress {s t : Store} {x : Except StoreFailure Egress}
    (hc : s.claimEgress = (t,x)) (h : s.roster.Distinct) : t.roster.Distinct := by
  have hd : s.claimEgress.1.roster.Distinct := s.distinct_run h .claimEgress
  rwa [hc] at hd

theorem Store.distinct_of_claimIdentity {s t : Store} {x : Except StoreFailure Identity}
    (hc : s.claimIdentity = (t,x)) (h : s.roster.Distinct) : t.roster.Distinct := by
  have hd : s.claimIdentity.1.roster.Distinct := s.distinct_run h .claimIdentity
  rwa [hc] at hd

end ScanService
