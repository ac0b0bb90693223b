import ScanService.Proofs.Acts
import ScanService.Proofs.AlikeSteps
import ScanService.Proofs.Persistence
import ScanService.Proofs.Secrecy
/-! Objects are stored as far as the store takes them. Which writes fail decides what is found there
later, and nothing else. -/
namespace ScanService

def Event.spoils : Event → Bool
  | .plan .write _ => true
  | _ => false

namespace Store

/-- What the store has after objects were written to it. -/
structure Persists (s : Store) (os : List (ScanObject Float)) : Prop where
  record (x : String) : (s.writeAll os).objects.get? x = s.objects.settled (s.writable os) x
  /-- None fails for another reason than that its id is there. -/
  whole : s.writable os = os ↔
    (∀ f ∈ (s.faults .write).take os.length, f = none) ∧ ∀ o ∈ os,
    ObjectTable.missingColumn o = none
  kept {x : String} (hx : x ∉ os.map (·.id)) : (s.writeAll os).objects.get? x = s.objects.get? x
  again (h : ∀ f ∈ (s.faults .write).take (2 * os.length), f = none) :
    ((s.writeAll os).writeAll os).objects = (s.writeAll os).objects

theorem persists (s : Store) (os : List (ScanObject Float)) : s.Persists os where
  record := s.get?_objects_writeAll os
  whole := s.writable_eq_self_iff os
  kept hx := get?_objects_writeAll_of_not_mem hx s
  again := objects_writeAll_writeAll

/-- A write that fails changes no object, and takes no other write along. -/
structure PassesOver (s : Store) : Prop where
  refused {o : ScanObject Float} {e : StoreFailure} (h : (s.write o).2 = .error e) :
    (s.write o).1.objects = s.objects
  made {o : ScanObject Float} (h : (s.write o).2 = .ok ()) :
    (s.write o).1.objects = (s.objects.write o).1
  others (os : List (ScanObject Float)) :
    (s.writeAll os).objects = s.objects.writeAll (spared (s.faults .write) os)

theorem passesOver (s : Store) :
    s.PassesOver := ⟨objects_of_write_error,objects_of_write_ok,s.objects_writeAll⟩

end Store

namespace Service

variable {readers : List ℕ} {s t : Service}

/-- A scan that gets a map returns all its objects, and has them stored one after the other. -/
def StoresFinds (s : Service) : Prop :=
  ∀ (task : ℕ) (c : Scan) (deadline : ℕ) (response : MapResponse), s.scan? task = some c →
    c.stage = .fetch deadline →
      (s.step (.fetchDone task (.ok response))).store = s.store.writeAll
        (response.objects s.clock) ∧
        .returned c.task (.ok (response.objects s.clock)) ∈
          (s.step (.fetchDone task (.ok response))).occurrences

theorem storesFinds (s : Service) : s.StoresFinds := by
  intro task c deadline response hc hd
  let os := response.objects s.clock
  have hs : s.step (.fetchDone task (.ok response)) =
      ({ s with store := s.store.writeAll os }).finishReleased c (.ok os) := by
    simp only [step,onFetch,hc,hd]
    rfl
  obtain ⟨N,x,ho,_⟩ := occurrences_finishReleased { s with store := s.store.writeAll os } c (.ok os)
  rw [hs]
  refine ⟨?_,by simp [ho,os]⟩
  rw [finishReleased,conclude_eq]
  rfl

/-! ### Runs with failures and without -/

def unspoilt (s : Service) : Service := { s with store := s.store.plan .write [] }

def cleanRun (s : Service) (es : List Event) :
    Service := s.unspoilt.run (es.filter fun e => !e.spoils)

def readings (s : Service) : List Event → List ℕ
  | [] => []
  | e :: es => s.reads e ++ readings (s.step e) es

theorem Alike.spoilt (h : Alike readers s t) {e : Event} (he : e.spoils = true) :
    Alike readers (s.step e) t := by
  unfold Event.spoils at he
  split at he
  · rename_i fails
    exact h.withStore ((s.store.alike_plan_write fails).symm.trans h.store)
  · cases he

theorem Alike.run_filter (h : Alike readers s t) {es : List Event}
    (hr : ∀ task ∈ s.readings es, task ∈ readers) :
    Alike readers (s.run es) (t.run (es.filter fun e => !e.spoils)) := by
  induction es generalizing s t with
  | nil => exact h
  | cons e es ih =>
    obtain ⟨he,hes⟩ := List.forall_mem_append.mp hr
    cases hs : e.spoils with
    | true =>
      rw [List.filter_cons_of_neg (by simp [hs])]
      exact ih (h.spoilt hs) hes
    | false =>
      rw [List.filter_cons_of_pos (by simp [hs])]
      exact ih (h.step he) hes

theorem Alike.told {α : Type} (h : Alike readers s t) {f : Occurrence → Option α}
    (hf : ∀ o o', Occurrence.Alike readers o o' → f o' = f o) : t.told f = s.told f := by
  have hm {es es' : List Entry} (h : List.Forall₂ (Entry.Alike readers) es es') :
      es'.filterMap (fun e => (f e.what).map (e.time,·)) = es.filterMap fun e =>
        (f e.what).map (e.time,·) := by
    induction h with
    | nil => rfl
    | cons he _ ih => rw [List.filterMap_cons,List.filterMap_cons,ih,hf _ _ he.what,he.time]
  cases h with
  | mk _ told => exact hm told

/-- Failures of writes make no difference but to the objects and to what is read off them. -/
structure Undisturbed (s : Service) (es : List Event) : Prop where
  results : (s.run es).told (fun | .returned task result => some (task,result) | _ => none) =
    (s.cleanRun es).told fun | .returned task result => some (task,result) | _ => none
  answers : (s.run es).told (fun
      | .answered task (.response r) => if task ∈ s.readings es then none else some (task,r)
      | _ => none) =
    (s.cleanRun es).told fun
      | .answered task (.response r) => if task ∈ s.readings es then none else some (task,r)
      | _ => none
  calls : (s.run es).told (fun | .called task call => some (task,call) | _ => none) =
    (s.cleanRun es).told fun | .called task call => some (task,call) | _ => none
  handBacks :
    (s.run es).told (fun | .handedBack task session way => some (task,session,way) | _ => none) =
      (s.cleanRun es).told fun
        | .handedBack task session way => some (task,session,way)
        | _ => none
  roster : (s.run es).store.roster = (s.cleanRun es).store.roster
  registry : (s.run es).registry = (s.cleanRun es).registry
  alike : Alike (s.readings es) (s.run es) (s.cleanRun es)

theorem undisturbed (s : Service) (es : List Event) : s.Undisturbed es := by
  have h : Alike (s.readings es) (s.run es) (s.cleanRun es) :=
    (alike_of_store (s.readings es) (s.store.alike_plan_write [])).run_filter fun _ h => h
  exact {
    results := (h.told fun o o' ho => by cases ho <;> rfl).symm
    answers := (h.told fun o o' ho => by
      cases ho with
      | same | purge => rfl
      | answer hr => simp [hr]).symm
    calls := (h.told fun o o' ho => by cases ho <;> rfl).symm
    handBacks := (h.told fun o o' ho => by cases ho <;> rfl).symm
    roster := h.store.roster.symm
    registry := h.registry.symm
    alike := h }

/-- Whatever is stored and whichever writes fail, the last object of an id that is no creature is
found under it, or else what was stored before, or else the first creature; and whatever happens,
the scans, their calls and sessions, the records of the resources and the registry are as they would
be if no write failed. -/
theorem best_effort (s : Service) (es : List Event) :
    (∀ os, s.store.Persists os) ∧ s.store.PassesOver ∧ s.StoresFinds ∧ s.Undisturbed es :=
  ⟨s.store.persists,s.store.passesOver,s.storesFinds,s.undisturbed es⟩

def crossing : MapResponse :=
  ⟨[{ wild := [⟨35,16,1,2,9000⟩,⟨36,19,1,2,9000⟩]
      forts := [⟨"z",.checkpoint,3,4,0,true,none⟩,⟨"a",.stronghold,3,4,1,false,none⟩] },
    { wild := [⟨36,25,5,6,7000⟩], forts := [⟨"a",.stronghold,3,4,2,false,none⟩] }]⟩

def finds : List (ScanObject Float) := crossing.objects 60000

def village : Service :=
  fresh { acquireWait := 0, cooldown := 0, queryTimeout := 1000 }
    { Store.empty with
      roster := ⟨[⟨"ash","","ptc",false,false⟩],[{ id := 1 }]⟩
      objects := ⟨[.creature "a" 29 ⟨1,2⟩ 100,.checkpoint "c" ⟨1,2⟩ false]⟩ }
        ⟨1,[],[],[],[],0⟩ 60000

def outage : List Event :=
  [.scan ⟨0,0⟩,.loginDone 0 (.ok ()),.gateOpen 0,
    .plan .write [none,some .lock,some .lock,none,none,some .lock]]

def stock (s : Store) : List (String × ObjectKind × Option UInt32 × Option UInt8) :=
  s.objects.rows.map fun o => (o.id,o.kind,o.species,o.team)

theorem best_effort_village :
    (∀ f ∈ (village.store.faults .write).take (2 * finds.length), f = none) ∧
      "c" ∉ finds.map (·.id) ∧
    village.store.writable finds = finds ∧
    (village.store.writeAll finds).objects.get? "c" = village.store.objects.get? "c" ∧
    ((village.store.writeAll finds).writeAll finds).objects =
      (village.store.writeAll finds).objects ∧
    ((village.run outage).scan? 0).map (·.stage) = some (.fetch 1000) ∧
    ((village.run outage).step (.fetchDone 0 (.ok crossing))).store =
      (village.run outage).store.writeAll finds ∧
    stock (village.run (outage ++ [.fetchDone 0 (.ok crossing)])).store =
      [("a",.stronghold,none,some 1),("c",.checkpoint,none,none),("z",.creature,some 16,none),
        ("10",.creature,some 25,none)] ∧
    stock (village.cleanRun (outage ++ [.fetchDone 0 (.ok crossing)])).store =
      [("a",.stronghold,none,some 2),("c",.checkpoint,none,none),("z",.checkpoint,none,none),
        ("10",.creature,some 19,none)] ∧
    village.Undisturbed (outage ++ [.fetchDone 0 (.ok crossing)]) := by
  have hf : village.store.faults .write = [] := rfl
  have hnone : ∀ f ∈ (village.store.faults .write).take (2 * finds.length), f = none := by simp [hf]
  have hc : "c" ∉ finds.map (·.id) := by decide +kernel
  have hstage : ((village.run outage).scan? 0).map (·.stage) = some (.fetch 1000) := by
    decide +kernel
  have hm : ∀ o ∈ finds, ObjectTable.missingColumn o = none := by decide +kernel
  obtain ⟨-,-,hs,-⟩ := best_effort (village.run outage) []
  obtain ⟨hv,-,-,hu⟩ := best_effort village (outage ++ [.fetchDone 0 (.ok crossing)])
  obtain ⟨c,hscan,hd⟩ := Option.map_eq_some_iff.mp hstage
  exact ⟨hnone,hc,(hv finds).whole.mpr ⟨by simp [hf],hm⟩,(hv finds).kept hc,
    (hv finds).again hnone,hstage,(hs 0 c 1000 crossing hscan hd).1,by decide +kernel,
    by decide +kernel,hu⟩

end Service

end ScanService
