import ScanService.Proofs.StoreCalls
import ScanService.Proofs.TaskSteps
import Mathlib.Logic.Relation
/-! Who has what: the records, the registry and the sessions that are alive, apart from where they
are. All that the service does with its sessions is one of a dozen moves here, so what the moves
keep the service keeps. -/
namespace ScanService

/-- How a session stands with the registry: it is to be entered, it is entered, or it is to be taken
out of the registry and out of service. -/
inductive Standing
  | coming
  | listed
  | leaving (reason : Retirement)
deriving DecidableEq

def Standing.leaves : Standing → Bool
  | leaving _ => true
  | _ => false

def Stage.standing : Stage → Standing
  | listing _ => .coming
  | delisting reason _ => .leaving reason
  | _ => .listed

/-- The store when a session is taken out of service: what did not fail is given back. -/
def Retirement.spare (reason : Retirement) (store : Store) (session : Session) : Store :=
  match reason with
  | identityBanned => (store.releaseEgress session.egress.id).1
  | egressDead => (store.releaseIdentity session.identity.name).1

def Session.freed (session : Session) (store : Store) : Store :=
  ((store.releaseIdentity session.identity.name).1.releaseEgress session.egress.id).1

/-- The records, the registry with the names left over in it, the sessions alive and how they stand,
and the next serial number. -/
structure Custody where
  store : Store
  registry : Registry
  leftovers : Multiset String
  roll : Multiset (Session × Standing)
  next : ℕ

namespace Custody

def live (c : Custody) : Multiset Session := c.roll.map Prod.fst

/-- An entry is taken out of the registry, or its name is left over. -/
inductive Delists (c : Custody) (account : String) : Custody → Prop
  | atOnce : Delists c account { c with registry := c.registry.remove account }
  | later : Delists c account { c with leftovers := account ::ₘ c.leftovers }

/-- A move. Those that leave the registry behind are open only if the books need not be right, and a
session that is to be taken out of service is abandoned only if it may be spoilt. -/
inductive Move (books : Prop) (Q : Session → Prop) (c : Custody) : Custody → Prop
  | pause {store : Store} (h : c.store.SameRecords store) : Move books Q c { c with store }
  | waste {st₁ st₂ : Store} {egress : Egress} {x : StoreFailure}
      (he : c.store.claimEgress = (st₁,.ok egress)) (hi : st₁.claimIdentity = (st₂,.error x)) :
      Move books Q c { c with store := (st₂.releaseEgress egress.id).1 }
  | hire {st₁ st₂ : Store} {egress : Egress} {identity : Identity}
      (he : c.store.claimEgress = (st₁,.ok egress)) (hi : st₁.claimIdentity = (st₂,.ok identity)) :
      Move books Q c { c with
        store := st₂, roll := (⟨c.next,identity,egress⟩,.coming) ::ₘ c.roll, next := c.next + 1 }
  | greet {session : Session} {roll : Multiset (Session × Standing)}
      (hc : c.roll = (session,.listed) ::ₘ roll) :
      Move books Q c { c with roll := (session,.coming) ::ₘ roll }
  | enter {session : Session} {roll : Multiset (Session × Standing)}
      (hc : c.roll = (session,.coming) ::ₘ roll) :
      Move books Q c { c with
        registry := c.registry.assign session.entry, roll := (session,.listed) ::ₘ roll }
  | swap {st : Store} {egress : Egress} {session : Session} {roll : Multiset (Session × Standing)}
      (hc : c.roll = (session,.listed) ::ₘ roll)
      (h : (c.store.kill session.egress.id).1.claimEgress = (st,.ok egress)) :
      Move books Q c { c with
        store := st, roll := (session.through egress,.coming) ::ₘ roll }
  | bury {st : Store} {session : Session} {roll : Multiset (Session × Standing)}
      (hc : c.roll = (session,.listed) ::ₘ roll)
      (h : (c.store.kill session.egress.id).1.SameRecords st) :
      Move books Q c { c with store := st, roll := (session,.leaving .egressDead) ::ₘ roll }
  | expel {session : Session} {roll : Multiset (Session × Standing)}
      (hc : c.roll = (session,.listed) ::ₘ roll) :
      Move books Q c { c with
        store := (c.store.ban session.identity.name).1,
        roll := (session,.leaving .identityBanned) ::ₘ roll }
  | dismiss {reason : Retirement} {session : Session} {roll : Multiset (Session × Standing)}
      (hc : c.roll = (session,.leaving reason) ::ₘ roll) :
      Move books Q c { c with
        store := reason.spare c.store session, registry :=
          c.registry.remove session.identity.name, roll }
  | abandon {standing : Standing} {session : Session} {roll : Multiset (Session × Standing)}
      {c' : Custody} (hc : c.roll = (session,standing) ::ₘ roll)
      (hs : standing.leaves = true → Q session) (hd : Delists c session.identity.name c') :
      Move books Q c { c' with store := session.freed c.store, roll }
  | drain {session : Session} {roll : Multiset (Session × Standing)}
      (hc : c.roll = (session,.listed) ::ₘ roll) (h : ¬ books) :
      Move books Q c { c with store := session.freed c.store, roll }
  | relist (registry : Registry) (leftovers : Multiset String) (h : ¬ books) :
      Move books Q c { c with registry, leftovers }

def Moves (books : Prop) (Q : Session → Prop) : Custody → Custody → Prop :=
  Relation.ReflTransGen (Move books Q)

variable {books : Prop} {Q : Session → Prop} {c c' c'' : Custody}

theorem Moves.refl (c : Custody) : Moves books Q c c := Relation.ReflTransGen.refl

theorem Move.moves (h : Move books Q c c') : Moves books Q c c' :=
  Relation.ReflTransGen.single h

theorem Moves.trans (h : Moves books Q c c') (h' : Moves books Q c' c'') :
    Moves books Q c c'' := Relation.ReflTransGen.trans h h'

/-- What every move keeps, any number of moves keep. -/
theorem Moves.keep {P : Custody → Prop} (hP : ∀ c c', Move books Q c c' → P c → P c')
    (h : Moves books Q c c') (hc : P c) : P c' := by
  induction h with
  | refl => exact hc
  | tail _ hm ih => exact hP _ _ hm ih

theorem live_of_roll {session : Session} {standing : Standing}
    {roll : Multiset (Session × Standing)} (h : c.roll = (session,standing) ::ₘ roll) :
    c.live = session ::ₘ roll.map Prod.fst := by
  rw [live,h,Multiset.map_cons]

def Serial (c : Custody) : Prop := Fresh (c.live.map Session.serial) c.next

theorem Move.serial (h : Move books Q c c') (hs : c.Serial) : c'.Serial := by
  have hk {session : Session} {standing : Standing} {roll : Multiset (Session × Standing)}
      (hc : c.roll = (session,standing) ::ₘ roll) :
      Fresh (session.serial ::ₘ (roll.map Prod.fst).map Session.serial) c.next := by
    rw [← Multiset.map_cons,← live_of_roll hc]
    exact hs
  have hd {session : Session} {standing : Standing} {roll : Multiset (Session × Standing)}
      (hc : c.roll = (session,standing) ::ₘ roll) :
      Fresh ((roll.map Prod.fst).map Session.serial) c.next :=
    (hk hc).of_le (Multiset.le_cons_self _ _)
  cases h with
  | pause _ | waste _ _ | relist _ _ _ => exact hs
  | hire _ _ => simpa [Serial,live] using Fresh.cons hs
  | greet hc | enter hc | bury hc _ | expel hc => simpa [Serial,live] using hk hc
  | swap hc _ => simpa [Serial,live,Session.through] using hk hc
  | dismiss hc => exact hd hc
  | abandon hc _ hl => cases hl <;> exact hd hc
  | drain hc _ => exact hd hc

theorem Moves.serial (h : Moves books Q c c') (hs : c.Serial) : c'.Serial :=
  h.keep (fun _ _ => Move.serial) hs

end Custody

namespace Service

def roll (s : Service) : List (Session × Standing) :=
  s.scans.map (fun c => (c.session,c.stage.standing)) ++ (s.held ++ s.pool.sessions).map (·,.listed)

def custody (s : Service) : Custody := ⟨s.store,s.registry,s.leftovers,s.roll,s.nextSession⟩

theorem mem_roll_scan {s : Service} {c : Scan} {t : ℕ} (h : s.scan? t = some c) :
    (c.session,c.stage.standing) ∈ s.roll :=
  List.mem_append_left _ (List.mem_map.mpr ⟨c,List.mem_of_find?_eq_some h,rfl⟩)

theorem mem_roll_held {s : Service} {session : Session} (h : session ∈ s.held) :
    (session,.listed) ∈ s.roll :=
  List.mem_append_right _ (List.mem_map.mpr ⟨session,List.mem_append_left _ h,rfl⟩)

theorem map_roll (s : Service) : s.roll.map Prod.fst = s.live := by
  simp [roll,live,Function.comp_def]

theorem roll_of_live_nil {s : Service} (h : s.live = []) : s.roll = [] := by
  rw [← map_roll] at h
  exact List.map_eq_nil_iff.mp h

/-- What a state has come to in which nothing can go on at the registry. -/
theorem settled_of_quiet {s : Service} (h : s.quiet) :
    s.locked = false ∧ s.leftovers = [] ∧ s.clearings = [] ∧ ∀ p ∈ s.roll, p.2 = .listed := by
  have hr : s.registryTurns = [] := (List.append_eq_nil_iff.mp h).2
  unfold registryTurns at hr
  split at hr
  · simp at hr
  · rename_i hl
    obtain ⟨hw,hn⟩ := List.append_eq_nil_iff.mp hr
    obtain ⟨hs,hf⟩ := List.append_eq_nil_iff.mp hw
    refine ⟨by simpa using hl,List.map_eq_nil_iff.mp hf,List.map_eq_nil_iff.mp hn,fun p hp => ?_⟩
    rcases List.mem_append.mp hp with hp | hp
    · obtain ⟨c,hc,rfl⟩ := List.mem_map.mp hp
      have hw : c.stage.writes = false := by
        simpa using List.filter_eq_nil_iff.mp (List.map_eq_nil_iff.mp hs) c hc
      dsimp only
      cases hg : c.stage <;> simp_all [Stage.writes,Stage.standing]
    · obtain ⟨σ,_,rfl⟩ := List.mem_map.mp hp
      rfl

@[simp] theorem live_custody (s : Service) : s.custody.live = s.live := by
  rw [Custody.live,custody,Multiset.map_coe,map_roll]

end Service

end ScanService
