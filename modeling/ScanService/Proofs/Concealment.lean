import ScanService.Service.Step
import ScanService.Proofs.StoreCalls
/-! The state without the secrets of its identities, wherever it keeps them. The calls of the store,
the pool and the building of sessions do to such a state what they do to the whole one. -/
namespace ScanService

def Identity.conceal (i : Identity) : Identity := { i with secret := "" }

def Session.conceal (session : Session) :
    Session := { session with identity := session.identity.conceal }

/-! ### The records -/

namespace Roster

def conceal (r : Roster) : Roster := { r with identities := r.identities.map Identity.conceal }

theorem conceal_updateIdentity (r : Roster) (name : String) {f : Identity → Identity}
    (hf : ∀ i, (f i).conceal = f i.conceal) :
    (r.updateIdentity name f).conceal = r.conceal.updateIdentity name f := by
  simp only [conceal,updateIdentity,List.map_map,Roster.mk.injEq,and_true]
  refine List.map_congr_left fun i _ => ?_
  simp only [Function.comp_apply,apply_ite Identity.conceal,hf]
  rfl

theorem conceal_releaseIdentity (r : Roster) (name : String) :
    (r.releaseIdentity name).conceal = r.conceal.releaseIdentity name :=
  r.conceal_updateIdentity name fun _ => rfl

theorem conceal_ban (r : Roster) (name : String) : (r.ban name).conceal = r.conceal.ban name :=
  r.conceal_updateIdentity name fun _ => rfl

theorem identity?_conceal (r : Roster) (name : String) :
    r.conceal.identity? name = (r.identity? name).map Identity.conceal := List.find?_map

theorem nextIdentity_conceal (r : Roster) :
    r.conceal.nextIdentity = r.nextIdentity.map Identity.conceal :=
  List.find?_map

theorem claimIdentity_conceal (r : Roster) : r.conceal.claimIdentity =
    (r.claimIdentity.1.conceal,r.claimIdentity.2.map Identity.conceal) := by
  unfold claimIdentity
  rw [nextIdentity_conceal]
  cases r.nextIdentity with
  | none => rfl
  | some i =>
    have hu := r.conceal_updateIdentity i.name (f := fun i => { i with used := true }) fun _ => rfl
    exact Prod.ext hu.symm rfl

theorem claimEgress_conceal (r : Roster) :
    r.conceal.claimEgress = (r.claimEgress.1.conceal,r.claimEgress.2) := by
  unfold claimEgress
  rw [show r.conceal.nextEgress = r.nextEgress from rfl]
  cases r.nextEgress <;> rfl

theorem addIdentity_conceal (r : Roster) (i : Identity) :
    r.conceal.addIdentity i.conceal = ((r.addIdentity i).1.conceal,(r.addIdentity i).2) := by
  unfold addIdentity
  rw [show i.conceal.name = i.name from rfl,identity?_conceal]
  cases r.identity? i.name with
  | none => simp [conceal]
  | some j => rfl

theorem addEgress_conceal (r : Roster) (id : Int) :
    r.conceal.addEgress id = ((r.addEgress id).1.conceal,(r.addEgress id).2) := by
  unfold addEgress
  rw [show r.conceal.egress? id = r.egress? id from rfl]
  cases r.egress? id <;> rfl

theorem setUsed_conceal (r : Roster) (used : Bool) {which : Identity → Bool}
    (hw : ∀ i, which i.conceal = which i) :
    setUsed used which r.conceal = ((setUsed used which r).1.conceal,(setUsed used which r).2) := by
  have hm (i : Identity) :
      (if i.conceal.used ≠ used ∧ which i.conceal then { i.conceal with used } else i.conceal) =
        (if i.used ≠ used ∧ which i then { i with used } else i).conceal := by
    rw [hw,apply_ite Identity.conceal]
    rfl
  have hf (i : Identity) : (decide (i.conceal.used ≠ used) && which i.conceal) =
      (decide (i.used ≠ used) && which i) := by
    rw [hw]
    rfl
  simp only [setUsed,conceal,List.map_map,List.filter_map,List.length_map,Function.comp_def,hm,hf]

theorem setInUse_conceal (r : Roster) (inUse : Bool) (which : Egress → Bool) :
    setInUse inUse which r.conceal = ((setInUse inUse which r).1.conceal,
      (setInUse inUse which r).2) := rfl

theorem reconcile_conceal (r : Roster) (assigned : List StatusEntry) :
    r.conceal.reconcile assigned = ((r.reconcile assigned).1.conceal,(r.reconcile assigned).2) := by
  cases assigned with
  | nil =>
    simp only [reconcile,reconciliation,runAll]
    rw [setUsed_conceal _ _ fun _ => rfl,setInUse_conceal]
  | cons a assigned =>
    simp only [reconcile,reconciliation,runAll]
    rw [setUsed_conceal _ _ fun _ => rfl,setUsed_conceal _ _ fun _ => rfl,setInUse_conceal,
      setInUse_conceal]

theorem identityStats_conceal (r : Roster) : r.conceal.identityStats = r.identityStats := by
  simp only [identityStats,conceal,List.filter_map,List.length_map]
  rfl

end Roster

namespace Store

def conceal (s : Store) : Store := { s with roster := s.roster.conceal }

theorem call_conceal {α β : Type} {g : α → β} {run : Store → Store × Except StoreFailure α}
    {run' : Store → Store × Except StoreFailure β}
    (h : ∀ s, run' s.conceal = ((run s).1.conceal,(run s).2.map g)) (s : Store) (c : StoreCall) :
    s.conceal.call c run' = ((s.call c run).1.conceal,(s.call c run).2.map g) := by
  unfold call
  rw [show s.conceal.faults c = s.faults c from rfl]
  cases s.faults c with
  | nil => exact h s
  | cons fails later =>
    cases fails with
    | some e => rfl
    | none => exact h (s.plan c later)

section Same

variable {α : Type} (s : Store) (c : StoreCall)

theorem call_conceal_same {run run' : Store → Store × Except StoreFailure α}
    (h : ∀ s, run' s.conceal = ((run s).1.conceal,(run s).2)) :
    s.conceal.call c run' = ((s.call c run).1.conceal,(s.call c run).2) := by
  have hs : s.conceal.call c run' = ((s.call c run).1.conceal,(s.call c run).2.map id) :=
    call_conceal (fun t => by rw [h t,Except.map_id]; rfl) s c
  rwa [Except.map_id] at hs

theorem onRoster_conceal {f f' : Roster → Roster × Except StoreFailure α}
    (h : ∀ r, f' r.conceal = ((f r).1.conceal,(f r).2)) :
    s.conceal.onRoster c f' = ((s.onRoster c f).1.conceal,(s.onRoster c f).2) := by
  refine call_conceal_same s c fun t => ?_
  rw [show t.conceal.roster = t.roster.conceal from rfl,h]
  rfl

theorem onObjects_conceal (f : ObjectTable Float → ObjectTable Float × Except StoreFailure α) :
    s.conceal.onObjects c f = ((s.onObjects c f).1.conceal,(s.onObjects c f).2) :=
  call_conceal_same s c fun _ => rfl

theorem ask_conceal {f : Store → α} (h : ∀ t, f t.conceal = f t) :
    s.conceal.ask c f = ((s.ask c f).1.conceal,(s.ask c f).2) :=
  call_conceal_same s c fun t => by rw [h t]

theorem conceal_ask {β : Type} (f : Store → α) (f' : Store → β) :
    (s.ask c f).1.conceal = (s.conceal.ask c f').1 := by
  unfold ask call
  rw [show s.conceal.faults c = s.faults c from rfl]
  cases s.faults c with
  | nil => rfl
  | cons fails later => cases fails <;> rfl

end Same

variable (s : Store)

theorem claimIdentity_conceal : s.conceal.claimIdentity =
    (s.claimIdentity.1.conceal,s.claimIdentity.2.map Identity.conceal) := by
  unfold claimIdentity onRoster
  refine call_conceal (fun t => ?_) s .claimIdentity
  rw [show t.conceal.roster = t.roster.conceal from rfl,Roster.claimIdentity_conceal]
  rfl

theorem claimEgress_conceal : s.conceal.claimEgress = (s.claimEgress.1.conceal,s.claimEgress.2) :=
  s.onRoster_conceal _ Roster.claimEgress_conceal

theorem releaseIdentity_conceal (name : String) : s.conceal.releaseIdentity name =
    ((s.releaseIdentity name).1.conceal,(s.releaseIdentity name).2) :=
  s.onRoster_conceal _ fun r => by rw [r.conceal_releaseIdentity]

theorem releaseEgress_conceal (id : Int) :
    s.conceal.releaseEgress id = ((s.releaseEgress id).1.conceal,(s.releaseEgress id).2) :=
  s.onRoster_conceal _ fun _ => rfl

theorem ban_conceal (name : String) :
    s.conceal.ban name = ((s.ban name).1.conceal,(s.ban name).2) :=
  s.onRoster_conceal _ fun r => by rw [r.conceal_ban]

theorem kill_conceal (id : Int) : s.conceal.kill id = ((s.kill id).1.conceal,(s.kill id).2) :=
  s.onRoster_conceal _ fun _ => rfl

theorem reconcile_conceal (assigned : List StatusEntry) :
    s.conceal.reconcile assigned = ((s.reconcile assigned).1.conceal,(s.reconcile assigned).2) := by
  rw [reconcile_eq,reconcile_eq]
  exact s.onRoster_conceal _ fun r => by rw [r.reconcile_conceal]

theorem identityStats_conceal :
    s.conceal.identityStats = (s.identityStats.1.conceal,s.identityStats.2) :=
  s.ask_conceal _ fun t => t.roster.identityStats_conceal

theorem egressStats_conceal : s.conceal.egressStats = (s.egressStats.1.conceal,s.egressStats.2) :=
  s.ask_conceal _ fun _ => rfl

theorem query_conceal (center : Coordinate Float) (radius : Float)
    (kinds : List ObjectKind) (now : Int) : s.conceal.query center radius kinds now =
      ((s.query center radius kinds now).1.conceal,(s.query center radius kinds now).2) :=
  s.ask_conceal _ fun _ => rfl

theorem purge_conceal (threshold : Int) :
    s.conceal.purge threshold = ((s.purge threshold).1.conceal,(s.purge threshold).2) :=
  s.onObjects_conceal _ _

theorem conceal_writeAll (os : List (ScanObject Float)) :
    (s.writeAll os).conceal = s.conceal.writeAll os := by
  unfold writeAll
  induction os generalizing s with
  | nil => rfl
  | cons o os ih =>
    have hw : s.conceal.write o = ((s.write o).1.conceal,(s.write o).2) := s.onObjects_conceal _ _
    rw [List.foldl_cons,List.foldl_cons,ih,hw]

end Store

def Command.conceal : Command → Command
  | .addIdentity i => .addIdentity i.conceal
  | c => c

theorem Store.conceal_run (s : Store) (c : Command) :
    (s.run c).1.conceal = (s.conceal.run c.conceal).1 := by
  cases c with
  | claimIdentity => exact (congrArg Prod.fst s.claimIdentity_conceal).symm
  | claimEgress => exact (congrArg Prod.fst s.claimEgress_conceal).symm
  | releaseIdentity name => exact (congrArg Prod.fst (s.releaseIdentity_conceal name)).symm
  | releaseEgress id => exact (congrArg Prod.fst (s.releaseEgress_conceal id)).symm
  | ban name => exact (congrArg Prod.fst (s.ban_conceal name)).symm
  | kill id => exact (congrArg Prod.fst (s.kill_conceal id)).symm
  | reconcile assigned => exact (congrArg Prod.fst (s.reconcile_conceal assigned)).symm
  | markAllUnused => exact (congrArg Prod.fst (s.reconcile_conceal [])).symm
  | addIdentity i =>
    exact (congrArg Prod.fst (s.onRoster_conceal .addIdentity fun r =>
      r.addIdentity_conceal i)).symm
  | addEgress id =>
    exact (congrArg Prod.fst (s.onRoster_conceal .addEgress fun r => r.addEgress_conceal id)).symm
  | dropAllEgress => exact (congrArg Prod.fst (s.onRoster_conceal .dropAllEgress fun _ => rfl)).symm
  | removeDeadEgress =>
    exact (congrArg Prod.fst (s.onRoster_conceal .removeDeadEgress fun _ => rfl)).symm
  | write o => exact (congrArg Prod.fst (s.onObjects_conceal .write fun t => t.write o)).symm
  | purge n => exact (congrArg Prod.fst (s.purge_conceal n)).symm
  | identityStats | egressStats | getIdentity _ | getEgress _ | banned | query _ _ _ _
  | get _ | count =>
    dsimp only [run,answered,Command.conceal]
    exact s.conceal_ask _ _ _

/-! ### The pool -/

def Resting.conceal (r : Resting) : Resting := { r with session := r.session.conceal }

namespace Pool

def conceal (p : Pool) : Pool :=
  { p with
    queue := p.queue.map Session.conceal
    entering := p.entering.map Session.conceal
    cooling := p.cooling.map Resting.conceal }

variable (p : Pool)

theorem hasRoom_conceal : p.conceal.hasRoom = p.hasRoom := by simp [hasRoom,conceal]

theorem conceal_rest (session : Session) (due : Nat) :
    (p.rest session due).conceal = p.conceal.rest session.conceal due := by
  simp [rest,conceal,Resting.conceal]

theorem conceal_wake (serial : Nat) : (p.wake serial).conceal = p.conceal.wake serial := by
  have hf : p.conceal.cooling.find? (·.session.serial = serial) =
      (p.cooling.find? (·.session.serial = serial)).map Resting.conceal := List.find?_map
  unfold wake
  rw [hf]
  cases p.cooling.find? (·.session.serial = serial) with
  | none => rfl
  | some r =>
    have hc : p.conceal.cooling.filter (fun r => r.session.serial ≠ serial) =
        (p.cooling.filter fun r => r.session.serial ≠ serial).map Resting.conceal := List.filter_map
    have he : p.conceal.entering.isEmpty = p.entering.isEmpty := List.isEmpty_map
    simp only [Option.map_some,hc,he,apply_ite conceal]
    simp only [hasRoom,conceal,List.length_map,List.map_append]
    rfl

theorem conceal_enter : p.enter.conceal = p.conceal.enter := by
  have hr := p.hasRoom_conceal
  unfold enter
  cases he : p.entering with
  | nil => simp [conceal,he]
  | cons session later =>
    simp only [show p.conceal.entering = session.conceal :: later.map Session.conceal by
      simp [conceal,he],hr]
    split <;> simp [conceal,he]

theorem receive?_conceal :
    p.conceal.receive? = p.receive?.map fun r => (r.1.conceal,r.2.conceal) := by
  unfold receive?
  cases hq : p.queue with
  | nil => simp [conceal,hq]
  | cons session later => simp [conceal,hq]

theorem takeAll_conceal :
    p.conceal.takeAll = (p.takeAll.1.map Session.conceal,p.takeAll.2.conceal) := by
  simp [takeAll,conceal]

end Pool

end ScanService
