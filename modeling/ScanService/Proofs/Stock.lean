import Mathlib.Data.Multiset.OrderedMonoid
import Mathlib.Data.Multiset.Range
import ScanService.Proofs.CustodySteps
/-! Every session that was built is alive, in one place, or it is gone and was seen to go. -/
namespace ScanService

open Custody

/-- The serial number of a session that is gone: it was taken out of service, abandoned, or ended at
rest. -/
@[simp] def Occurrence.gone? : Occurrence → Option ℕ
  | handedBack _ session (.retired _) | handedBack _ session .abandoned
  | drained session => some session.serial
  | _ => none

namespace Service

def occurrences (s : Service) : List Occurrence := s.history.map (·.what)

def gone (s : Service) : List ℕ := s.occurrences.filterMap Occurrence.gone?

def Complete (s : Service) (hand : Multiset ℕ) : Prop :=
  (s.live.map (·.serial) + s.gone + hand : Multiset ℕ) = Multiset.range s.nextSession

variable {s s' : Service}

/-- What is noted at the end ends no session. -/
theorem gone_of_notes {N L : List Occurrence} (ho : s.occurrences = N ++ L)
    (hN : ∀ o ∈ N, o.gone? = none) : s.gone = L.filterMap Occurrence.gone? := by
  rw [gone,ho,List.filterMap_append,List.filterMap_eq_nil_iff.mpr hN,List.nil_append]

/-- The same sessions are alive as before, and none has gone. -/
theorem Complete.of_same {hand : Multiset ℕ} (h : s.Complete hand)
    (hl : (s'.live.map (·.serial) : Multiset ℕ) = s.live.map (·.serial)) (hg : s'.gone = s.gone)
    (hx : s'.nextSession = s.nextSession) : s'.Complete hand := by
  rw [Complete,hl,hg,hx]
  exact h

/-- A session that is built is in hand. -/
theorem Complete.build (h : s.Complete 0) (hl : s'.live = s.live) (hg : s'.gone = s.gone)
    (hx : s'.nextSession = s.nextSession + 1) : s'.Complete {s.nextSession} := by
  rw [Complete,hl,hg,hx,Multiset.range_succ,← h,add_zero,add_comm,Multiset.singleton_add]

/-- A session in hand gets to a caller. -/
theorem Complete.hold {session : Session} (h : s.Complete {session.serial})
    (hl : (s'.live : Multiset Session) = session ::ₘ s.live) (hg : s'.gone = s.gone)
    (hx : s'.nextSession = s.nextSession) : s'.Complete 0 := by
  have hm : (s'.live.map (·.serial) : Multiset ℕ) = session.serial ::ₘ
      (s.live.map (·.serial) : List ℕ) := by
    rw [← Multiset.map_coe,hl,Multiset.map_cons,Multiset.map_coe]
  rw [Complete,hm,hg,hx,← h,add_zero,Multiset.cons_add]
  exact (Multiset.singleton_add _ _).symm.trans (add_comm _ _)

/-- A session that was alive is in hand. -/
theorem Complete.take {session : Session} (h : s.Complete 0)
    (hl : (s.live : Multiset Session) = session ::ₘ s'.live) (hg : s'.gone = s.gone)
    (hx : s'.nextSession = s.nextSession) : s'.Complete {session.serial} := by
  have hm : (s.live.map (·.serial) : Multiset ℕ) = session.serial ::ₘ
      (s'.live.map (·.serial) : List ℕ) := by
    rw [← Multiset.map_coe,hl,Multiset.map_cons,Multiset.map_coe]
  rw [Complete,hg,hx,← h,hm,add_zero,Multiset.cons_add]
  exact (add_comm _ _).trans (Multiset.singleton_add _ _)

/-- A session that was alive is gone. -/
theorem Complete.lose {n : ℕ} (h : s.Complete 0)
    (hl : (s.live.map (·.serial) : Multiset ℕ) = n ::ₘ (s'.live.map (·.serial) : List ℕ))
    (hg : s'.gone = n :: s.gone) (hx : s'.nextSession = s.nextSession) : s'.Complete 0 := by
  rw [Complete,hg,hx,← h,hl,← Multiset.cons_coe,Multiset.add_cons,Multiset.cons_add,
    Multiset.cons_add,Multiset.cons_add]

theorem Complete.serial {hand : Multiset ℕ} (h : s.Complete hand) : s.custody.Serial := by
  have hr : Fresh (Multiset.range s.nextSession) s.nextSession :=
    ⟨Multiset.nodup_range _,fun n hn => Multiset.mem_range.mp hn⟩
  have hl : (s.live : Multiset Session).map Session.serial ≤ Multiset.range s.nextSession := by
    rw [← h,add_assoc]
    exact Multiset.le_add_right _ _
  refine hr.of_le ?_
  rwa [live_custody]

/-- A caller who holds a session more. -/
theorem live_hold (s : Service) (session : Session) :
    (({ s with held := s.held ++ [session] } : Service).live : Multiset Session) =
      session ::ₘ s.live := by
  rw [Multiset.cons_coe,Multiset.coe_eq_coe]
  simp only [live,List.append_assoc,List.singleton_append]
  rw [← List.append_assoc,← List.append_assoc]
  exact List.perm_middle

/-! ### Ending the sessions of the queue -/

theorem endSessions_frame (l : List Session) (s : Service) : l.foldl endSession s =
    { s with store := (l.foldl endSession s).store, history := (l.foldl endSession
      s).history } := by
  induction l generalizing s with
  | nil => rfl
  | cons σ l ih => exact ih (s.endSession σ)

/-- What ends the sessions of the queue does to the service. -/
theorem drain_frame (s : Service) : s.drain.1 = { s with
    pool := s.pool.takeAll.2
    store := (s.pool.queue.foldl endSession { s with pool := s.pool.takeAll.2 }).store
    history := s.drain.1.history } :=
  congrArg (fun u => { u with history := s.drain.1.history })
    (endSessions_frame s.pool.queue { s with pool := s.pool.takeAll.2 })

theorem drainFor_frame (s : Service) (w : Waiter) : ∃ registry clearings history,
    s.drainFor w = { s with
      pool := s.pool.takeAll.2
      store := (s.pool.queue.foldl endSession { s with pool := s.pool.takeAll.2 }).store
      registry, clearings, history } := by
  unfold drainFor clear
  dsimp only
  rw [drain_frame]
  split
  · split <;> exact ⟨_,_,_,rfl⟩
  · exact ⟨_,_,_,rfl⟩

theorem occurrences_endSessions (l : List Session) (s : Service) :
    (l.foldl endSession s).occurrences = (l.map .drained).reverse ++ s.occurrences := by
  induction l generalizing s with
  | nil => rfl
  | cons session l ih =>
    rw [List.foldl_cons,ih,List.map_cons,List.reverse_cons,List.append_assoc]
    rfl

theorem occurrences_drain (s : Service) : s.drain.1.occurrences =
    .observed (.parked s.drain.1.pool.parked) :: (s.pool.queue.map .drained).reverse ++
      s.occurrences :=
  congrArg (List.cons _)
    (occurrences_endSessions s.pool.takeAll.1 { s with pool := s.pool.takeAll.2 })

/-- The sessions of the queue are ended. -/
theorem complete_drain (h : s.Complete 0) : s.drain.1.Complete 0 := by
  have hlive : s.drain.1.live = ({ s with pool := s.pool.takeAll.2 } : Service).live := by
    rw [drain_frame]
    rfl
  have hsession : s.drain.1.nextSession = s.nextSession := by rw [drain_frame]
  have hg : s.drain.1.gone = (s.pool.queue.map (·.serial)).reverse ++ s.gone := by
    rw [gone,occurrences_drain,List.cons_append,List.filterMap_cons_none rfl,List.filterMap_append,
      List.filterMap_reverse,List.filterMap_map,← List.filterMap_eq_map]
    rfl
  have hm : (s.live.map (·.serial) : Multiset ℕ) = s.pool.queue.map (·.serial) +
      (s.drain.1.live.map (·.serial) : List ℕ) := by
    rw [← Multiset.map_coe,live_takeAll,← hlive,Multiset.map_coe,List.map_append,Multiset.coe_add]
  rw [Complete,hsession,← h,hm,hg,← Multiset.coe_add,Multiset.coe_reverse,add_zero,add_zero,
    add_left_comm,add_assoc]

end Service

end ScanService
