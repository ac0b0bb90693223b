import ScanService.Gateway.Client
import ScanService.Proofs.ConcealmentSteps
/-! Secrets do not show. Two services whose records differ in the secrets of the identities only
look the same from outside, as long as what happens to them does. -/
namespace ScanService

namespace Gateway

def Request.conceal : Request → Request
  | .login username _ provider force => .login username "" provider force
  | r => r

end Gateway

namespace Service

variable (s : Service)

def told {α : Type} (f : Occurrence → Option α) : List (Nat × α) :=
  s.history.filterMap fun e => (f e.what).map (e.time,·)

theorem told_conceal {α : Type} {f : Occurrence → Option α}
    (hf : ∀ o : Occurrence, f o.conceal = f o) : s.conceal.told f = s.told f := by
  simp only [told,conceal,List.filterMap_map]
  congr 1
  funext e
  exact congrArg (Option.map (e.time,·)) (hf e.what)

end Service

/-- All that can be seen of a service from outside, and of its records all but the secrets: the
answers to clients, the results of the scans and the calls of the remote service, each with its task
and time; the registry, the metrics and the records; and what can go on by itself now or later. -/
structure View where
  responses : List (Nat × Nat × Http.Response)
  results : List (Nat × Nat × Except ScanFailure (List (ScanObject Float)))
  calls : List (Nat × Nat × RemoteCall)
  registry : List StatusEntry
  metrics : List String
  identities : List Identity
  egresses : List Egress
  objects : List (ScanObject Float)
  turns : List Turn
  timers : List Nat

namespace Service

variable (s : Service)

def view : View where
  responses := s.told fun
    | .answered task (.response r) => some (task,r)
    | _ => none
  results := s.told fun
    | .returned task result => some (task,result)
    | _ => none
  calls := s.told fun
    | .called task call => some (task,call)
    | _ => none
  registry := s.registry.snapshot
  metrics := Metrics.lines s.observations
  identities := s.store.roster.identities.map Identity.conceal
  egresses := s.store.roster.egresses
  objects := s.store.objects.rows
  turns := s.runnable
  timers := s.timers

theorem registryTurns_conceal : s.conceal.registryTurns = s.registryTurns := by
  unfold registryTurns
  rw [show s.conceal.scans = s.scans.map Scan.conceal from rfl,List.filter_map,List.map_map]
  rfl

theorem runnable_conceal : s.conceal.runnable = s.runnable := by
  have hw : s.conceal.pool.canGo = s.pool.canGo := by
    funext now w
    simp [pool_conceal,Pool.canGo,Pool.isFirst,Pool.conceal]
  have hc : (s.conceal.pool.cooling.filter fun r => r.due ≤ s.now).map
      (fun r => Turn.wake r.session.serial) = (s.pool.cooling.filter fun r => r.due ≤ s.now).map
        fun r => Turn.wake r.session.serial := by
    rw [show s.conceal.pool.cooling = s.pool.cooling.map Resting.conceal from rfl,
      List.filter_map,List.map_map]
    rfl
  have he : s.conceal.pool.entering.isEmpty = s.pool.entering.isEmpty := List.isEmpty_map
  have ho : (s.conceal.scans.filter s.conceal.overdue).map (fun c => Turn.expire c.task) =
      (s.scans.filter s.overdue).map fun c => Turn.expire c.task := by
    rw [show s.conceal.scans = s.scans.map Scan.conceal from rfl,List.filter_map,List.map_map]
    rfl
  simp only [runnable]
  rw [hw,ho,he,show s.conceal.pool.hasRoom = s.pool.hasRoom from s.pool.hasRoom_conceal,
    show s.conceal.now = s.now from rfl,hc,registryTurns_conceal]
  rfl

theorem timers_conceal : s.conceal.timers = s.timers := by
  simp only [timers,conceal,Pool.conceal,List.map_map,List.filterMap_map]
  rfl

theorem view_conceal : s.conceal.view = s.view := by
  simp only [view,runnable_conceal,timers_conceal,observations_conceal]
  congr 1
  · refine s.told_conceal fun o => ?_
    cases o with
    | answered task a => cases a <;> rfl
    | _ => rfl
  · exact s.told_conceal fun o => by cases o <;> rfl
  · exact s.told_conceal fun o => by cases o <;> rfl
  · exact List.map_map ..

/-- A run in a world that chooses each event by all that was seen before it: the service after so
many steps, and the views after each, the latest first. -/
def watch (s : Service) (world : List View → Event) : Nat → Service × List View
  | 0 => (s,[s.view])
  | n + 1 =>
    let seen := watch s world n
    let next := seen.1.step (world seen.2)
    (next,next.view :: seen.2)

variable {s} {s' : Service} {world world' : List View → Event}

theorem view_eq (h : s.conceal = s'.conceal) : s.view = s'.view := by
  rw [← s.view_conceal,h,s'.view_conceal]

theorem watch_conceal (hs : s.conceal = s'.conceal)
    (hw : ∀ views, (world views).conceal = (world' views).conceal) (n : Nat) :
    (s.watch world n).1.conceal = (s'.watch world' n).1.conceal ∧
      (s.watch world n).2 = (s'.watch world' n).2 := by
  induction n with
  | zero => exact ⟨hs,congrArg (fun v => [v]) (view_eq hs)⟩
  | succ n ih =>
    have hn : ((s.watch world n).1.step (world (s.watch world n).2)).conceal =
        ((s'.watch world' n).1.step (world' (s'.watch world' n).2)).conceal := by
      rw [conceal_step,conceal_step,ih.1,ih.2,hw]
    exact ⟨hn,congrArg₂ List.cons (view_eq hn) ih.2⟩

/-- Of two services that start with the same settings, and with records that differ in the
secrets only, the same is seen after every step, if what happens to them differs in the secrets
of added identities only. What happens, and what the remote service answers, may depend on all
that was seen. -/
theorem secrets_do_not_show (settings : Settings) (pool : Pool) (clock : Int) {store store' : Store}
    (hs : store.conceal = store'.conceal)
    (hw : ∀ views, (world views).conceal = (world' views).conceal) (n : Nat) :
    ((fresh settings store pool clock).watch world n).2 =
      ((fresh settings store' pool clock).watch world' n).2 := by
  have hf : (fresh settings store pool clock).conceal =
      (fresh settings store' pool clock).conceal :=
    congrArg (fun store => { (fresh settings store pool clock).conceal with store }) hs
  exact (watch_conceal hf hw n).2

def keeping (secret : String) : Store :=
  { Store.empty with roster := ⟨[⟨"ash",secret,"ptc",false,false⟩],[{ id := 1 }]⟩ }

def lapse (secret : String) (views : List View) : Event :=
  [.scan ⟨0,0⟩,.command (.addIdentity ⟨"misty",secret,"ptc",false,false⟩),
    .loginDone 0 (.error .accountBanned)].getD (views.length - 1) .purge

def sights (secret added : String) : List View :=
  ((fresh { acquireWait := 0, cooldown := 0, queryTimeout := 1000 } (keeping secret) ⟨1,[],[],[],[],
    0⟩ 0).watch (lapse added) 3).2

theorem secrets_do_not_show_lapse : (keeping "pikachu").roster ≠ (keeping "onix").roster ∧
    (sights "pikachu" "starmie").map (fun v => (v.identities.map (·.banned),v.results.length)) =
      [([true,false],1),([false,false],0),([false],0),([false],0)] ∧
    sights "pikachu" "starmie" = sights "onix" "togepi" := by
  have hs : (keeping "pikachu").conceal = (keeping "onix").conceal := rfl
  have hw (views : List View) : (lapse "starmie" views).conceal =
      (lapse "togepi" views).conceal := by
    unfold lapse
    rcases views.length - 1 with _ | _ | _ | _ <;> rfl
  exact ⟨by decide,by decide +kernel,secrets_do_not_show _ _ _ hs hw 3⟩

end Service

end ScanService
