import Mathlib.Data.List.Induction
import ScanService.Proofs.StoreCalls
/-! Bans and kills for good. A banned identity stays banned whatever the store is asked to do, and a
dead egress stays dead until its record is removed. Only a record that is added after that is free
again. -/
namespace ScanService

namespace Roster

variable {r : Roster} {id : Int}

theorem egress?_eq_none : r.egress? id = none ↔ id ∉ r.egresses.map (·.id) := by
  simp [egress?]

theorem egress?_addEgress {other : Int} (h : r.egress? id = none) (ho : other ≠ id) :
    (r.addEgress other).1.egress? id = none := by
  unfold addEgress
  split
  · exact h
  · rw [egress?_eq_none] at h ⊢
    simpa [ho.symm] using h

theorem egress?_kill (h : r.egress? id = none) (other : Int) :
    (r.kill other).egress? id = none := by
  have he : (r.kill other).egresses.map (·.id) = r.egresses.map (·.id) :=
    Table.map_amend fun _ => rfl
  rwa [egress?_eq_none,he,← egress?_eq_none]

/-- A removal of the dead takes a dead egress away. -/
theorem EgressDead.removeDeadEgress (h : r.EgressDead id) :
    r.removeDeadEgress.1.egress? id = none := by
  rw [egress?_eq_none]
  intro hm
  obtain ⟨e,he,hid⟩ := List.mem_map.mp hm
  obtain ⟨he,hd⟩ := List.mem_filter.mp he
  simp [h.2 e he hid] at hd

end Roster

namespace Store

variable {s : Store} {name : String} {id : Int} {c : Command}

theorem runCommands_append (s : Store) (cs : List Command) (c : Command) :
    s.runCommands (cs ++ [c]) = ((s.runCommands cs).run c).1 := by
  simp [runCommands]

theorem answered_ok {α : Type} {f : α → Command.Answer} {p : Store × Except StoreFailure α}
    {a : Command.Answer} (h : (answered f p).2 = .ok a) : ∃ x, p = (p.1,.ok x) ∧ f x = a := by
  obtain ⟨t,y⟩ := p
  cases y with
  | error e => simp [answered,Except.map] at h
  | ok x => exact ⟨x,rfl,by simpa [answered,Except.map] using h⟩

theorem addEgress_cases (s : Store) (id : Int) :
    (s.run (.addEgress id)).2 = .ok .done ∨ (s.run (.addEgress id)).1.roster = s.roster := by
  cases h : s.addEgress id with
  | mk t x =>
    cases x with
    | ok _ => exact Or.inl (by simp [run,answered,h,Except.map])
    | error e =>
      have ht : t.roster = s.roster := by
        rcases onRoster_error h with hr | hr
        · unfold Roster.addEgress at hr
          split at hr
          · exact (congrArg Prod.fst hr).symm
          · simp at hr
        · exact hr.1
      exact Or.inr (by simpa [run,answered,h] using ht)

/-! ### What one command does to what is condemned -/

theorem egressDead_removal (h : s.roster.EgressDead id) (hc : c.removes = true) :
    (s.run c).1.roster.EgressDead id ∨ (s.run c).1.roster.egress? id = none := by
  cases c with
  | dropAllEgress =>
    exact onRoster_roster (fun r => r.EgressDead id ∨ r.egress? id = none) (Or.inl h) (Or.inr rfl)
  | removeDeadEgress =>
    exact onRoster_roster (fun r => r.EgressDead id ∨ r.egress? id = none) (Or.inl h)
      (Or.inr h.removeDeadEgress)
  | _ => simp [Command.removes] at hc

/-- An egress that is not there comes by being added only. -/
theorem egress?_run (h : s.roster.egress? id = none) (c : Command) :
    (s.run c).1.roster.egress? id = none ∨ (c = .addEgress id ∧ (s.run c).2 = .ok .done) := by
  cases hr : c.reshapes with
  | false =>
    rw [Roster.egress?_eq_none,← Roster.egressIds_bare] at h ⊢
    rw [s.bare_run c hr]
    exact Or.inl h
  | true =>
    cases c with
    | addEgress other =>
      by_cases ho : other = id
      · subst ho
        rcases s.addEgress_cases other with ha | ha
        · exact Or.inr ⟨rfl,ha⟩
        · exact Or.inl (ha ▸ h)
      · exact Or.inl (onRoster_roster (·.egress? id = none) h (Roster.egress?_addEgress h ho))
    | kill other =>
      exact Or.inl (onRoster_roster (·.egress? id = none) h (Roster.egress?_kill h other))
    | removeDeadEgress =>
      refine Or.inl (onRoster_roster (·.egress? id = none) h ?_)
      rw [Roster.egress?_eq_none] at h ⊢
      exact fun hm => h ((List.filter_sublist.map _).subset hm)
    | dropAllEgress => exact Or.inl (onRoster_roster (·.egress? id = none) h rfl)
    | ban _ => exact Or.inl (onRoster_roster (·.egress? id = none) h h)
    | addIdentity i =>
      refine Or.inl (onRoster_roster (·.egress? id = none) h ?_)
      unfold Roster.addIdentity
      split <;> exact h
    | _ => simp [Command.reshapes] at hr

theorem identity_claimed {i : Identity} (h : (s.run .claimIdentity).2 = .ok (.identity (some i))) :
    ¬ s.roster.IdentityBanned i.name := by
  obtain ⟨j,hc,hj⟩ := answered_ok h
  obtain rfl : j = i := by simpa using hj
  exact fun hb => hb.not_claimed (claimIdentity_ok hc)

theorem egress_claimed {e : Egress} (h : (s.run .claimEgress).2 = .ok (.egress (some e))) :
    ¬ s.roster.EgressDead e.id ∧ s.roster.egress? e.id ≠ none := by
  obtain ⟨f,hc,hf⟩ := answered_ok h
  obtain rfl : f = e := by simpa using hf
  refine ⟨fun hd => hd.not_claimed (claimEgress_ok hc),?_⟩
  obtain ⟨g,hg,_,_,rfl,_⟩ := Roster.claimEgress_ok (claimEgress_ok hc)
  exact fun hn => Roster.egress?_eq_none.mp hn (List.mem_map.mpr ⟨g,hg,rfl⟩)

/-! ### What many do -/

theorem identityBanned_runCommands (h : s.roster.IdentityBanned name) (cs : List Command) :
    (s.runCommands cs).roster.IdentityBanned name := by
  induction cs generalizing s with
  | nil => exact h
  | cons c cs ih => exact ih (identityBanned_run h c)

/-- One of the commands has removed the dead egress, and it is not there after them. -/
structure Removed (s : Store) (id : Int) (cs : List Command) : Prop where
  removal : ∃ before c after, cs = before ++ c :: after ∧ c.removes = true ∧
    (s.runCommands before).roster.EgressDead id
  gone : (s.runCommands cs).roster.egress? id = none

/-- The dead egress has been removed and, with success, added again. -/
def Readded (s : Store) (id : Int) (cs : List Command) : Prop :=
  ∃ before after, cs = before ++ .addEgress id :: after ∧ s.Removed id before ∧
    ((s.runCommands before).run (.addEgress id)).2 = .ok .done

/-- What can become of a dead egress. -/
inductive Fate (s : Store) (id : Int) (cs : List Command) : Prop
  | dead (h : (s.runCommands cs).roster.EgressDead id)
  | removed (h : s.Removed id cs)
  | readded (h : s.Readded id cs)

variable {cs : List Command}

theorem Removed.append (h : s.Removed id cs)
    (hg : (s.runCommands (cs ++ [c])).roster.egress? id = none) : s.Removed id (cs ++ [c]) := by
  obtain ⟨⟨before,d,after,rfl,hd,hb⟩,_⟩ := h
  exact ⟨⟨before,d,after ++ [c],by simp,hd,hb⟩,hg⟩

theorem Readded.append (h : s.Readded id cs) (c : Command) : s.Readded id (cs ++ [c]) := by
  obtain ⟨before,after,rfl,hb,ha⟩ := h
  exact ⟨before,after ++ [c],by simp,hb,ha⟩

theorem Fate.append (h : s.Fate id cs) (c : Command) : s.Fate id (cs ++ [c]) := by
  cases h with
  | dead h =>
    cases hc : c.removes with
    | false =>
      refine .dead ?_
      rw [runCommands_append]
      exact keepsDead_run _ c hc id h
    | true =>
      rcases egressDead_removal h hc with hd | hg
      · exact .dead (by rwa [runCommands_append])
      · exact .removed ⟨⟨cs,c,[],rfl,hc,h⟩,by rwa [runCommands_append]⟩
  | removed h =>
    rcases egress?_run h.gone c with hg | ⟨rfl,ha⟩
    · exact .removed (h.append (by rwa [runCommands_append]))
    · exact .readded ⟨cs,[],rfl,h,ha⟩
  | readded h => exact .readded (h.append c)

theorem fate_of_dead (h : s.roster.EgressDead id) (cs : List Command) : s.Fate id cs := by
  induction cs using List.reverseRecOn with
  | nil => exact .dead h
  | append_singleton cs c ih => exact ih.append c

/-- Only an egress that was added again is claimed. -/
theorem Fate.claimed (h : s.Fate id cs) {e : Egress} (he : e.id = id)
    (hc : ((s.runCommands cs).run .claimEgress).2 = .ok (.egress (some e))) : s.Readded id cs := by
  obtain ⟨hd,hn⟩ := egress_claimed hc
  subst he
  cases h with
  | dead h => exact absurd h hd
  | removed h => exact absurd h.gone hn
  | readded h => exact h

/-! ### For good -/

theorem identityBanned_of_ban (hi : s.roster.identity? name ≠ none)
    (h : (s.run (.ban name)).2 = .ok .done) : (s.run (.ban name)).1.roster.IdentityBanned name := by
  obtain ⟨i,hi⟩ := Option.ne_none_iff_exists'.mp hi
  have hn : i.name = name := by simpa using List.find?_some hi
  obtain ⟨_,hb,_⟩ := answered_ok h
  have ht : (s.run (.ban name)).1.roster = s.roster.ban name :=
    (congrArg Prod.fst (onRoster_ok hb)).symm
  rw [ht]
  exact Roster.identityBanned_ban ⟨i,List.mem_of_find?_eq_some hi,hn⟩

theorem egressDead_of_kill (he : s.roster.egress? id ≠ none)
    (h : (s.run (.kill id)).2 = .ok .done) : (s.run (.kill id)).1.roster.EgressDead id := by
  obtain ⟨e,he⟩ := Option.ne_none_iff_exists'.mp he
  have hn : e.id = id := by simpa using List.find?_some he
  obtain ⟨_,hk,_⟩ := answered_ok h
  have ht : (s.run (.kill id)).1.roster = s.roster.kill id :=
    (congrArg Prod.fst (onRoster_ok hk)).symm
  rw [ht]
  exact Roster.egressDead_kill ⟨e,List.mem_of_find?_eq_some he,hn⟩

/-- What bans and kills of records that are there bring about, in every later state, and that no
command but those that condemn, provide or remove records changes more than use flags. -/
structure CondemnsForGood (s : Store) : Prop where
  banned : ∀ name, s.roster.identity? name ≠ none → (s.run (.ban name)).2 = .ok .done →
    ∀ cs, ((s.run (.ban name)).1.runCommands cs).roster.IdentityBanned name ∧
      ∀ i, (((s.run (.ban name)).1.runCommands cs).run .claimIdentity).2 = .ok
        (.identity (some i)) → i.name ≠ name
  killed : ∀ id, s.roster.egress? id ≠ none → (s.run (.kill id)).2 = .ok .done →
    ∀ cs, (s.run (.kill id)).1.Fate id cs ∧
      ∀ e, (((s.run (.kill id)).1.runCommands cs).run .claimEgress).2 = .ok (.egress (some e)) →
        e.id = id → (s.run (.kill id)).1.Readded id cs
  others : ∀ c : Command, c.reshapes = false → (s.run c).1.roster.bare = s.roster.bare

/-- Bans and kills are for good, whatever the store is asked to do later and whichever of its calls
fail: a banned identity is never claimed again, and a dead egress only once it has been removed and
added again. -/
theorem condemns_for_good (s : Store) : s.CondemnsForGood := by
  refine ⟨fun name hi hb cs => ?_,fun id he hk cs => ?_,fun c hc => s.bare_run c hc⟩
  · have h := identityBanned_runCommands (identityBanned_of_ban hi hb) cs
    refine ⟨h,fun i hc hn => ?_⟩
    exact identity_claimed hc (hn ▸ h)
  · have h := fate_of_dead (egressDead_of_kill he hk) cs
    exact ⟨h,fun e hc hid => h.claimed hid hc⟩

def lone : Store := { empty with roster := ⟨[{ name := "ash", secret := "" }],[{ id := 1 }]⟩ }

def comeback : List Command :=
  [.reconcile [⟨"ash",1⟩],.markAllUnused,.claimEgress,.removeDeadEgress,.addEgress 1]

theorem condemns_for_good_comeback :
    (((lone.run (.kill 1)).1.runCommands (comeback.take 3)).roster.egresses = [⟨1,false,true⟩]) ∧
      (((lone.run (.kill 1)).1.runCommands comeback).run .claimEgress).2 = .ok
        (.egress (some ⟨1,true,false⟩)) ∧
      (lone.run (.kill 1)).1.Readded 1 comeback :=
  ⟨rfl,rfl,((condemns_for_good lone).killed 1 (by decide) rfl comeback).2 ⟨1,true,false⟩ rfl rfl⟩

end Store

end ScanService
