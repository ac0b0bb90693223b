import ScanService.Proofs.Traffic
/-! The service makes the moves of traffic. Every event, also one from a caller or an administrator,
is some of them or none. -/
namespace ScanService

open Roster Traffic

def Entry.rest? (settings : Settings) (e : Entry) : Option Resting :=
  match e.what with
  | .handedBack _ σ .released => some ⟨σ,settings.restEnd e.time settings.cooldown⟩
  | _ => none

def Entry.taking? (e : Entry) : Option Taking :=
  match e.what with
  | .received _ σ | .drained σ => some ⟨σ,e.time⟩
  | _ => none

def Occurrence.visits : Occurrence → Bool
  | obtained _ _ | handedBack _ _ _ | returned _ _ => true
  | _ => false

def Pool.line (p : Pool) : List Session := p.queue ++ p.entering

/-- What may clear a use flag, or remove a record, from outside. -/
def Event.frees : Event → Bool
  | command c => !c.spares
  | reconcileStatus => true
  | _ => false

namespace Service

def out (s : Service) : List (Option ℕ × Session) :=
  s.scans.map (fun c => (some c.task,c.session)) ++ s.held.map fun h => (none,h)

def released (s : Service) : List Resting := s.history.filterMap (Entry.rest? s.settings)

def takings (s : Service) : List Taking := s.history.filterMap Entry.taking?

def visits (s : Service) : List Entry := s.history.filter fun e => e.what.visits

def lent (s : Service) : Event → List Resting
  | .release serial cooldown => ((s.held? serial).map fun h => ⟨h,s.restEnd cooldown⟩).toList
  | _ => []

def rising (s : Service) : Event → List Resting
  | .turn (.wake serial) =>
    s.pool.cooling.filter fun r => r.session.serial = serial && r.due ≤ s.now
  | _ => []

def traffic (s : Service) (G : Multiset Resting) (W : List Resting) : Traffic where
  now := s.now
  due := (s.settings.restEnd · s.settings.cooldown)
  roster := s.store.roster
  out := s.out
  line := s.pool.line
  asleep := s.pool.cooling
  next := s.nextSession
  given := G + s.released
  woken := W
  taken := s.takings
  visits := s.visits

variable {spared : Prop} {s s' : Service} {c : Scan} {G : Multiset Resting} {W : List Resting}

theorem traffic_live (s : Service) (G : Multiset Resting) (W : List Resting) :
    (s.traffic G W).live = (s.live : Multiset Session) := by
  have ho : s.out.map Prod.snd = s.scans.map (·.session) ++ s.held := by
    simp [out,List.map_map,Function.comp_def]
  have hl : s.live = s.out.map Prod.snd ++ (s.pool.line ++ s.pool.cooling.map (·.session)) := by
    rw [ho]
    rfl
  rw [hl,← Multiset.coe_add,← Multiset.coe_add]
  rfl

theorem traffic_serial : (s.traffic G W).Serial ↔ s.custody.Serial := by
  rw [Traffic.Serial,traffic_live,Custody.Serial,live_custody]
  rfl

/-! ### Steps of one scan -/

theorem traffic_conclude (s : Service) (task started : ℕ) (http : Bool)
    (r : Except ScanFailure (List (ScanObject Float))) :
    (s.conclude task started http r).traffic G W =
      { s.traffic G W with visits := ⟨s.now,.returned task r⟩ :: s.visits } := by
  cases http <;> rfl

theorem Has.out (h : s.Has c) :
    (s.out : Multiset (Option ℕ × Session)) = (some c.task,c.session) ::ₘ
      (s.dropScan c.task).out := by
  obtain ⟨d,hd,he,_⟩ := h.found
  have hp := ((perm_cons_filter h.distinct hd).map fun c => (some c.task,c.session)).symm
  rw [List.map_cons,he,scan?_task hd] at hp
  rw [Multiset.cons_coe,Multiset.coe_eq_coe]
  exact hp.append_right (s.held.map fun h => (none,h))

theorem Has.out_putScan (h : s.Has c) (c' : Scan) (hc : c'.task = c.task) :
    ((s.putScan c').out : Multiset (Option ℕ × Session)) =
      (some c.task,c'.session) ::ₘ (s.dropScan c.task).out := by
  obtain ⟨d,hd,_⟩ := h.found
  have hp := (perm_map_replace h.distinct hd c').map fun c => (some c.task,c.session)
  rw [List.map_cons,← hc] at hp
  rw [Multiset.cons_coe,Multiset.coe_eq_coe,← hc]
  exact hp.append_right (s.held.map fun h => (none,h))

theorem Has.traffic_putScan (h : s.Has c) (c' : Scan) (hc : c'.task = c.task) :
    (s.putScan c').traffic G W =
      { s.traffic G W with out := (some c.task,c'.session) ::ₘ (s.dropScan c.task).out } :=
  congrArg (fun o => { s.traffic G W with out := o }) (h.out_putScan c' hc)

theorem Has.traffic_same (h : s.Has c) (c' : Scan) (hc : c'.task = c.task)
    (hσ : c'.session = c.session) : (s.putScan c').traffic G W = s.traffic G W := by
  rw [h.traffic_putScan c' hc,hσ,← h.out]
  rfl

theorem traffic_startLogin (h : s.Has c) (c' : Scan) (hc : c'.task = c.task) (force : Bool) :
    (s.startLogin c' force).traffic G W =
      { s.traffic G W with out := (some c.task,c'.session) ::ₘ (s.dropScan c.task).out } :=
  Has.traffic_putScan (s := s.call c'.task c'.session (.login force)) (c := c) ⟨h.distinct,h.found⟩
    { c' with stage := .login force } hc

theorem traffic_enlistNow (h : s.Has c) (c' : Scan) (hc : c'.task = c.task)
    (place : Option (Coordinate Float)) : (s.enlistNow c' place).traffic G W =
      { s.traffic G W with out := (some c.task,c'.session) ::ₘ (s.dropScan c.task).out } := by
  have hh : (s.enrol c' place).Has c := by
    cases place <;> exact ⟨h.distinct,h.found⟩
  rw [enlistNow,traffic_startLogin hh c' hc false]
  cases place <;> rfl

theorem traffic_enlist (h : s.Has c) (c' : Scan) (hc : c'.task = c.task)
    (place : Option (Coordinate Float)) : (s.enlist c' place).traffic G W =
      { s.traffic G W with out := (some c.task,c'.session) ::ₘ (s.dropScan c.task).out } := by
  unfold enlist
  split
  · exact h.traffic_putScan { c' with stage := .listing place } hc
  · exact traffic_enlistNow h c' hc place

theorem traffic_finishReleased (h : s.Has c) (r : Except ScanFailure (List (ScanObject Float))) :
    Moves spared (s.traffic G W) ((s.finishReleased c r).traffic G W) := by
  let x : Resting := ⟨c.session,s.restEnd s.settings.cooldown⟩
  have ha : ((s.pool.cooling ++ [x] : List Resting) : Multiset Resting) = x ::ₘ s.pool.cooling :=
    Multiset.coe_eq_coe.mpr (List.perm_append_singleton _ _)
  have hg : G + (x :: s.released : List Resting) = x ::ₘ (G + s.released) := by
    rw [← Multiset.cons_coe,Multiset.add_cons]
  have he : (s.finishReleased c r).traffic G W = { s.traffic G W with
      out := (s.dropScan c.task).out, asleep := x ::ₘ s.pool.cooling, given :=
        x ::ₘ (G + s.released)
      visits := ⟨s.now,.returned c.task r⟩ :: ⟨s.now,.handedBack c.task c.session .released⟩ ::
        s.visits } := by
    rw [finishReleased,traffic_conclude,← ha,← hg]
    rfl
  rw [he]
  exact (Move.rest h.out (fun _ => rfl) (.returned .released c.task r)).moves

theorem traffic_retireNow (s : Service) (c : Scan) (reason : Retirement) (e : ScanFailure) :
    (s.retireNow c reason e).traffic G W = { s.traffic G W with
      roster := (s.retire c.session reason).1.store.roster, out := (s.dropScan c.task).out
      visits := ⟨s.now,.returned c.task (.error e)⟩ :: ⟨s.now,
        .handedBack c.task c.session (.retired reason)⟩ :: s.visits } := by
  rw [retireNow,traffic_conclude]
  rfl

theorem spares_retire (s : Service) (σ : Session) (reason : Retirement) :
    Spares σ.identity.name σ.egress.id s.store.roster (s.retire σ reason).1.store.roster := by
  have hs := Custody.spares_spare reason s.store σ
  cases reason <;> exact hs

theorem identities_retire (s : Service) (σ : Session) :
    (s.retire σ .identityBanned).1.store.roster.identities = s.store.roster.identities :=
  s.store.identities_releaseEgress σ.egress.id

theorem leave_retire {who : Option ℕ} {σ : Session} {o : Multiset (Option ℕ × Session)}
    {N : List Entry} (ho : (s.out : Multiset (Option ℕ × Session)) = (who,σ) ::ₘ o)
    (reason : Retirement) (hN : Closing s.now σ (.retired reason) who N) :
    Move spared (s.traffic G W) { s.traffic G W with
      roster := (s.retire σ reason).1.store.roster, out := o, visits := N ++ s.visits } := by
  refine .leave ho (spares_retire s σ reason) ?_ hN
  cases reason with
  | egressDead => exact Or.inr (Or.inl rfl)
  | identityBanned =>
    refine Or.inr (Or.inr fun n hn => ?_)
    rw [IdentityTaken,identities_retire]
    exact hn

theorem leave_retireNow (h : s.Has c) (reason : Retirement) (e : ScanFailure) :
    Moves spared (s.traffic G W) ((s.retireNow c reason e).traffic G W) := by
  rw [traffic_retireNow]
  exact (leave_retire h.out reason (.returned _ c.task (.error e))).moves

theorem traffic_finishRetired (h : s.Has c) (reason : Retirement) (e : ScanFailure) :
    Moves spared (s.traffic G W) ((s.finishRetired c reason e).traffic G W) := by
  unfold finishRetired
  split
  · rw [h.traffic_same { c with stage := .delisting reason e } rfl rfl]
    exact Moves.refl _
  · exact leave_retireNow h reason e

theorem pause_store {store : Store} (hk : Keeps s.store.roster store.roster) :
    Moves spared (s.traffic G W) (({ s with store } : Service).traffic G W) :=
  (Move.pause fun _ => hk).moves

theorem traffic_substitute (h : s.Has c) :
    Moves spared (s.traffic G W) ((s.substitute c).traffic G W) := by
  have hk := s.store.keeps_kill c.session.egress.id
  cases hc : (s.killEgress c.session).store.claimEgress with
  | mk st x =>
    cases x with
    | error e =>
      have hs : Keeps s.store.roster st.roster := (Store.claimEgress_error hc).roster ▸ hk
      have h' : Has { s with store := st } c := ⟨h.distinct,h.found⟩
      rw [substitute_error hc]
      exact (pause_store hs).trans (traffic_finishRetired h' _ _)
    | ok e =>
      have hte := claimEgress_taken (Store.claimEgress_ok hc)
      have hm : Moves spared (s.traffic G W) { s.traffic G W with
          roster := st.roster, out :=
            (some c.task,c.session.through e) ::ₘ (s.dropScan c.task).out } :=
        (Move.turn h.out (hk.trans (Custody.keeps_of_claimEgress hc)) (fun ht =>
          hte.1 (hk.egresses _ ht)) hte.2).moves
      have h' : Has { s with store := st } c := ⟨h.distinct,h.found⟩
      rw [substitute_ok hc,traffic_enlist h' { c with session := c.session.through e } rfl none]
      exact hm

theorem traffic_reported (s : Service) (c : Scan) (cause : RemoteFailure) :
    (s.reported c cause).traffic G W = s.traffic G W := by
  unfold reported
  dsimp only
  split <;> rfl

theorem traffic_fail (h : s.Has c) (cause : RemoteFailure) :
    Moves spared (s.traffic G W) ((s.fail c cause).traffic G W) := by
  have hr := h.reported cause
  have hs : s.traffic G W = (s.reported c cause).traffic G W := (traffic_reported s c cause).symm
  have hst : s.store = (s.reported c cause).store := by rw [reported_eq]
  rw [fail_eq,hs]
  cases (c.budget.decide cause.category).1 with
  | substituteEgress => exact traffic_substitute hr
  | killEgress =>
    have h' : Has ((s.reported c cause).killEgress c.session) (charged c cause) :=
      ⟨hr.distinct,hr.found⟩
    exact (pause_store (Store.keeps_kill _ _)).trans (traffic_finishRetired h' _ _)
  | banIdentity =>
    have h' : Has { s.reported c cause with store := (s.store.ban c.session.identity.name).1 }
      (charged c cause) :=
      ⟨hr.distinct,hr.found⟩
    exact (pause_store (hst ▸ Store.keeps_ban _ _)).trans (traffic_finishRetired h' _ _)
  | retryQuery =>
    cases c.stage with
    | login forced =>
      dsimp only
      rw [traffic_startLogin hr (charged c cause) rfl false,← hr.out]
      exact Moves.refl _
    | _ =>
      dsimp only
      rw [hr.traffic_same { charged c cause with stage := .pacing } rfl rfl]
      exact Moves.refl _
  | giveUp => exact traffic_finishReleased hr _

theorem traffic_loginDone (h : s.Has c) (forced : Bool) (r : Except RemoteFailure Unit) :
    Moves spared (s.traffic G W) ((s.loginDone c forced r).traffic G W) := by
  cases r with
  | ok u =>
    rw [loginDone,h.traffic_same { c with stage := .pacing } rfl rfl]
    exact Moves.refl _
  | error cause =>
    dsimp only [loginDone]
    split
    · rw [traffic_startLogin h c rfl true,← h.out]
      exact Moves.refl _
    · exact traffic_fail h cause

theorem traffic_gateOpen (h : s.Has c) : (s.gateOpen c).traffic G W = s.traffic G W :=
  Has.traffic_same (s := s.call c.task c.session .fetch) (c := c) ⟨h.distinct,h.found⟩
    { c with stage := .fetch (s.after s.settings.queryTimeout) } rfl rfl

theorem traffic_fetchDone (h : s.Has c) (r : Except RemoteFailure MapResponse) :
    Moves spared (s.traffic G W) ((s.fetchDone c r).traffic G W) := by
  cases r with
  | ok response =>
    have h' : Has { s with store := s.store.writeAll (response.objects s.clock) } c :=
      ⟨h.distinct,h.found⟩
    have hk := (s.store.sameRecords_writeAll (response.objects s.clock)).roster
    exact (pause_store (hk ▸ Keeps.refl _)).trans (traffic_finishReleased h' _)
  | error cause => exact traffic_fail h cause

theorem traffic_abandon (h : s.Has c) :
    Moves spared (s.traffic G W) ((s.abandon c).traffic G W) := by
  have hm : Move spared (s.traffic G W) { s.traffic G W with
      roster := (s.freeSession c.session).store.roster, out := (s.dropScan c.task).out
      visits := ⟨s.now,.handedBack c.task c.session .abandoned⟩ :: s.visits } :=
    .leave h.out (Custody.spares_freed s.store c.session) (Or.inl rfl) (.abandoned c.task)
  unfold abandon delist
  split <;> exact hm.moves

/-! ### The pool -/

theorem receive?_eq_some {p p' : Pool} {σ : Session} (h : p.receive? = some (σ,p')) :
    ∃ later, p.queue = σ :: later ∧ p' = { p with queue := later, parked := p.parked - 1 } := by
  unfold Pool.receive? at h
  split at h
  · simp at h
  · rename_i σ' later hq
    simp only [Option.some.injEq,Prod.mk.injEq] at h
    exact ⟨later,by rw [hq,h.1],h.2.symm⟩

theorem line_wake {p : Pool} {serial : ℕ} {r : Resting}
    (h : p.cooling.find? (fun r => r.session.serial = serial) = some r) :
    (p.wake serial).line = p.line ++ [r.session] ∧
      (p.wake serial).cooling = p.cooling.filter fun r => r.session.serial ≠ serial := by
  simp only [Pool.wake,h]
  split
  · rename_i hr
    have he : p.entering = [] := by simpa using (Bool.and_eq_true_iff.mp hr).1
    simp [Pool.line,he]
  · simp [Pool.line]

theorem line_enter (p : Pool) : p.enter.line = p.line ∧ p.enter.cooling = p.cooling := by
  unfold Pool.enter
  split
  · exact ⟨rfl,rfl⟩
  · rename_i σ later he
    split
    · simp [Pool.line,he]
    · exact ⟨rfl,rfl⟩

theorem traffic_enter (s : Service) : s.enter.traffic G W = s.traffic G W := by
  have hl := line_enter s.pool
  have he : s.enter.traffic G W =
      { s.traffic G W with line := s.pool.enter.line, asleep := s.pool.enter.cooling } := by
    unfold enter
    dsimp only
    split <;> rfl
  rw [he,hl.1,hl.2]
  rfl

theorem traffic_onWake (h : s.custody.Serial) (serial : ℕ) : Moves spared (s.traffic G W)
    ((s.onWake serial).traffic G (W ++ s.rising (.turn (.wake serial)))) := by
  have hn := serials_cooling h
  unfold onWake
  split
  · rename_i ha
    obtain ⟨r,hr,hk⟩ := List.any_eq_true.mp ha
    obtain ⟨hs,hd⟩ := Bool.and_eq_true_iff.mp hk
    have hf := find?_of_mem hn hr (of_decide_eq_true hs)
    have hp : (s.pool.cooling : Multiset Resting) =
        r ::ₘ (s.pool.cooling.filter fun r => r.session.serial ≠ serial : List Resting) := by
      rw [Multiset.cons_coe,Multiset.coe_eq_coe]
      exact (perm_cons_filter hn hf).symm
    have hw : s.rising (.turn (.wake serial)) = [r] := by
      have hq : (fun r : Resting => decide (r.session.serial = serial) && decide (r.due ≤ s.now)) =
          fun r : Resting => decide (r.due ≤ s.now) && decide (r.session.serial = serial) := by
        funext r
        exact Bool.and_comm _ _
      simp only [rising]
      rw [hq,← List.filter_filter,filter_of_mem hn hr (of_decide_eq_true hs)]
      simp [of_decide_eq_true hd]
    have hl := line_wake hf
    have he : (s.wake serial).traffic G (W ++ [r]) = { s.traffic G W with
        asleep := (s.pool.wake serial).cooling, line := (s.pool.wake serial).line, woken :=
          W ++ [r] } := by
      unfold wake
      dsimp only
      split <;> rfl
    rw [hw,he,hl.1,hl.2]
    exact (Move.wake hp (of_decide_eq_true hd)).moves
  · rename_i ha
    have hw : s.rising (.turn (.wake serial)) = [] := by
      apply List.filter_eq_nil_iff.mpr
      exact fun r hr hk => ha (List.any_eq_true.mpr ⟨r,hr,hk⟩)
    rw [hw,List.append_nil]
    exact Moves.refl _

theorem traffic_endSessions (l : List Session) (s : Service) :
    Moves spared { s.traffic G W with line := l ++ s.pool.line }
      ((l.foldl endSession s).traffic G W) := by
  induction l generalizing s with
  | nil => exact Moves.refl _
  | cons σ l ih =>
    have hm : Move spared { s.traffic G W with line := σ :: (l ++ s.pool.line) }
        { (s.endSession σ).traffic G W with line := l ++ s.pool.line } :=
        .clear rfl (Custody.spares_freed s.store σ)
    exact hm.moves.trans (ih (s.endSession σ))

theorem traffic_clear (s : Service) (task sessions : ℕ) :
    (s.clear task sessions).traffic G W = s.traffic G W := by
  unfold clear
  split <;> rfl

theorem traffic_drainFor (s : Service) (w : Waiter) :
    Moves spared (s.traffic G W) ((s.drainFor w).traffic G W) := by
  have hd : Moves spared (s.traffic G W) (s.drain.1.traffic G W) :=
    traffic_endSessions s.pool.queue { s with pool := s.pool.takeAll.2 }
  unfold drainFor
  split
  · exact (traffic_clear s.drain.1 w.task s.drain.2).symm ▸ hd
  · exact hd

/-! ### Those in line -/

def left (s : Service) (w : Waiter) : Service := { s with pool := s.pool.leave w.task }

/-- What looking does for a task: it stays in line, or leaves it for one of three reasons. -/
inductive Looks (s : Service) : ℕ → Service → Prop
  | stays (t : ℕ) : Looks s t s
  | drains {w : Waiter} (hw : s.pool.waiter? w.task = some w) (hf : s.pool.isFirst w.task = true)
      (hd : w.purpose.drains = true) : Looks s w.task ((s.left w).drainFor w)
  | takes {w : Waiter} {σ : Session} {pool : Pool} (hw : s.pool.waiter? w.task = some w)
      (hf : s.pool.isFirst w.task = true) (hr : (s.left w).pool.receive? = some (σ,pool)) :
      Looks s w.task ((s.left w).takeFirst w σ pool)
  | givesUp {w : Waiter} (hw : s.pool.waiter? w.task = some w)
      (hf : s.pool.isFirst w.task = true → s.pool.queue = []) (ho : w.overdue s.now = true) :
      Looks s w.task ((s.left w).giveUp w)

theorem looks_poll (s : Service) (t : ℕ) : s.Looks t (s.poll t) := by
  unfold poll
  cases hw : s.pool.waiter? t with
  | none => exact .stays t
  | some w =>
    have ht : w.task = t := by simpa using List.find?_some hw
    subst ht
    dsimp only
    split
    · rename_i hf
      exact .drains hw hf.1 hf.2
    · split
      · rename_i σ pool hr
        split at hr
        · exact .takes hw ‹_› hr
        · simp at hr
      · rename_i hr
        split
        · refine .givesUp hw (fun hf => ?_) ‹_›
          rw [if_pos hf] at hr
          unfold Pool.receive? at hr
          split at hr
          · assumption
          · simp at hr
        · exact .stays w.task

theorem traffic_hold (s : Service) (σ : Session) :
    ({ s with held := s.held ++ [σ] } : Service).traffic G W = { s.traffic G W with
      out := (none,σ) ::ₘ s.out } := by
  have ho : (({ s with held := s.held ++ [σ] } : Service).out : Multiset (Option ℕ × Session)) =
      (none,σ) ::ₘ s.out := by
    rw [Multiset.cons_coe,Multiset.coe_eq_coe,out,List.map_append,← List.append_assoc]
    exact List.perm_append_singleton _ _
  exact congrArg (fun o => { s.traffic G W with out := o }) ho

theorem traffic_begin (s : Service) (t since : ℕ) (http : Bool) (place : Coordinate Float)
    (σ : Session) : (s.begin t since http place σ).traffic G W = { s.traffic G W with
      out := (s.begin t since http place σ).out, visits := ⟨s.now,.obtained t σ⟩ :: s.visits } := by
  cases hl : s.locked <;> simp only [begin,enlist,note,hl] <;> rfl

theorem traffic_provide {w : Waiter} (h : w.task ∉ s.scans.map (·.task)) (σ : Session) :
    ∃ who, (s.provide w σ).traffic G W = { s.traffic G W with
      out := (who,σ) ::ₘ s.out, visits := opening s.now σ who ++ s.visits } := by
  unfold provide
  split
  · rename_i place http _
    refine ⟨some w.task,?_⟩
    have ho : ((s.begin w.task w.since http place σ).out : Multiset (Option ℕ × Session)) =
        (some w.task,σ) ::ₘ s.out := by
      rw [Multiset.cons_coe,Multiset.coe_eq_coe,out,begin_scans h,List.map_append,List.append_assoc,
        congrArg Service.held (begin_eq s w.task w.since http place σ)]
      exact List.perm_middle
    rw [traffic_begin,ho]
    rfl
  · exact ⟨none,traffic_hold s σ⟩

theorem traffic_refuse (s : Service) (w : Waiter) (e : PoolFailure) :
    Moves spared (s.traffic G W) ((s.refuse w e).traffic G W) := by
  unfold refuse
  split
  · rw [traffic_conclude]
    exact (Move.refuse _ _).moves
  · exact Moves.refl _

theorem move_build {st₁ st₂ : Store} {e : Egress} {i : Identity}
    (he : s.store.claimEgress = (st₁,.ok e)) (hi : st₁.claimIdentity = (st₂,.ok i))
    (who : Option ℕ) : Move spared (s.traffic G W) { s.traffic G W with
      roster := st₂.roster, out := (who,⟨s.nextSession,i,e⟩) ::ₘ s.out, next := s.nextSession + 1
      visits := opening s.now ⟨s.nextSession,i,e⟩ who ++ s.visits } := by
  have hte := claimEgress_taken (Store.claimEgress_ok he)
  have hti := claimIdentity_taken (Store.claimIdentity_ok hi)
  have hk := Custody.keeps_of_claimEgress he
  have hk' := Custody.keeps_of_claimIdentity hi
  exact .build who (hk.trans hk') (fun h => hti.1 (hk.identities _ h)) hte.1 hti.2
    (hk'.egresses _ hte.2)

theorem traffic_giveUp {w : Waiter} (h : w.task ∉ s.scans.map (·.task)) :
    Moves spared (s.traffic G W) ((s.giveUp w).traffic G W) := by
  unfold giveUp
  split
  · exact traffic_refuse s w _
  · rcases s.construct_cases w.task with ⟨st,x,he,hc⟩ | ⟨st₁,st₂,e,x,he,hi,hc⟩ | ⟨st₁,
      st₂,e,i,he,hi,hc⟩
    · rw [hc]
      exact (pause_store ((Store.claimEgress_error he).roster ▸ Keeps.refl _)).trans
        (traffic_refuse _ w _)
    · rw [hc]
      exact (pause_store (Custody.keeps_of_waste he hi)).trans (traffic_refuse _ w _)
    · rw [hc]
      let b := ({ s with store := st₂, nextSession := s.nextSession + 1 } : Service).call w.task
        ⟨s.nextSession,i,e⟩ .create
      obtain ⟨who,hp⟩ := traffic_provide (s := b) (G := G) (W := W) h ⟨s.nextSession,i,e⟩
      dsimp only
      rw [hp]
      exact (move_build he hi who).moves

theorem traffic_takeFirst {w : Waiter} (h : w.task ∉ s.scans.map (·.task))
    {σ : Session} {pool : Pool} (hr : s.pool.receive? = some (σ,pool)) :
    Moves spared (s.traffic G W) ((s.takeFirst w σ pool).traffic G W) := by
  obtain ⟨later,hq,rfl⟩ := receive?_eq_some hr
  let pool : Pool := { s.pool with queue := later, parked := s.pool.parked - 1 }
  let b := (({ s with pool } : Service).observe (.parked pool.parked)).note (.received w.task σ)
  obtain ⟨who,hp⟩ := traffic_provide (s := b) (G := G) (W := W) h σ
  have hl : (s.traffic G W).line = σ :: pool.line := by
    simp only [traffic,Pool.line,hq,pool,List.cons_append]
  simp only [takeFirst]
  rw [hp]
  exact (Move.take who hl).moves

theorem traffic_poll (hs : s.Tidy) (t : ℕ) :
    Moves spared (s.traffic G W) ((s.poll t).traffic G W) := by
  have hn {w : Waiter} (hw : s.pool.waiter? w.task = some w) :=
    hs.not_mem_scans (List.mem_of_find?_eq_some hw)
  have hl := s.looks_poll t
  generalize s.poll t = s' at hl ⊢
  cases hl with
  | stays _ => exact Moves.refl _
  | drains hw hf hd => exact traffic_drainFor (s.left _) _
  | takes hw hf hr => exact traffic_takeFirst (s := s.left _) (hn hw) hr
  | givesUp hw hf ho => exact traffic_giveUp (s := s.left _) (hn hw)

theorem traffic_arrive (hs : s.Tidy) (purpose : Purpose) (wait : ℕ) :
    Moves spared (s.traffic G W) ((s.arrive purpose wait).traffic G W) :=
  traffic_poll (hs.join purpose s.now wait _) s.nextTask

/-! ### Callers -/

theorem traffic_handle (s : Service) (d : Demand) : (s.handle d).1.traffic G W = s.traffic G W := by
  rw [handle_eq,traffic,released,takings,visits]
  dsimp only
  rw [(sameRecords_handle s d).roster]
  rcases history_handle s d with hh | ⟨_,_,_,hh⟩ <;> rw [hh] <;> rfl

theorem traffic_request (hs : s.Tidy) (r : Http.Request) :
    Moves spared (s.traffic G W) ((s.request r).traffic G W) := by
  unfold request
  split
  · exact traffic_arrive hs _ _
  · have ht : (s.handle (Demand.ofRequest r)).1.traffic G W = s.traffic G W := traffic_handle s _
    rw [← ht]
    exact Moves.refl _

theorem traffic_constructHeld (s : Service) :
    Moves spared (s.traffic G W) (s.constructHeld.1.traffic G W) := by
  unfold constructHeld
  rcases ({ s with nextTask := s.nextTask + 1 } : Service).construct_cases s.nextTask with
    ⟨st,x,he,hc⟩ | ⟨st₁,st₂,e,x,he,hi,hc⟩ | ⟨st₁,st₂,e,i,he,hi,hc⟩
  · rw [hc]
    exact pause_store ((Store.claimEgress_error he).roster ▸ Keeps.refl _)
  · rw [hc]
    exact pause_store (Custody.keeps_of_waste he hi)
  · rw [hc]
    have hh := traffic_hold (G := G) (W := W) (({ s with
      nextTask := s.nextTask + 1, store := st₂, nextSession := s.nextSession + 1 } : Service).call
        s.nextTask ⟨s.nextSession,i,e⟩ .create) ⟨s.nextSession,i,e⟩
    dsimp only
    rw [hh]
    exact (move_build he hi none).moves

/-- The session that a caller holds, apart from the others. -/
theorem out_letGo (hx : s.custody.Serial) {serial : ℕ} {h : Session}
    (hh : s.held? serial = some h) :
    (s.out : Multiset (Option ℕ × Session)) = (none,h) ::ₘ (s.letGo serial).out := by
  have hp := (perm_cons_filter (serials_held hx) hh).map fun h => ((none : Option ℕ),h)
  rw [Multiset.cons_coe,Multiset.coe_eq_coe]
  exact (hp.symm.append_left _).trans List.perm_middle

theorem traffic_releaseHeld (hx : s.custody.Serial) (serial cooldown : ℕ) :
    Moves spared (s.traffic G W)
      ((s.releaseHeld serial cooldown).traffic (G + s.lent (.release serial cooldown)) W) := by
  unfold releaseHeld
  cases hh : s.held? serial with
  | none =>
    simp only [lent,hh,Option.map_none,Option.toList_none,Multiset.coe_nil,add_zero]
    exact Moves.refl _
  | some h =>
    let x : Resting := ⟨h,s.restEnd cooldown⟩
    have ha : ((s.pool.cooling ++ [x] : List Resting) : Multiset Resting) = x ::ₘ s.pool.cooling :=
      Multiset.coe_eq_coe.mpr (List.perm_append_singleton _ _)
    have hg : G + ([x] : List Resting) + s.released = x ::ₘ (G + s.released) := by
      rw [Multiset.coe_singleton,add_right_comm,add_comm,Multiset.singleton_add]
    have he : ((s.letGo serial).release h cooldown).traffic (G + ([x] : List Resting))
        W = { s.traffic G W with
        out := (s.letGo serial).out, asleep := x ::ₘ s.pool.cooling, given :=
          x ::ₘ (G + s.released) } := by
      rw [← ha,← hg]
      rfl
    simp only [lent,hh,Option.map_some,Option.toList_some]
    rw [he]
    exact (Move.rest (out_letGo hx hh) (fun hn => absurd rfl hn) (.caller _)).moves

theorem traffic_retireHeld (hx : s.custody.Serial) (serial : ℕ) (reason : Retirement) :
    Moves spared (s.traffic G W) ((s.retireHeld serial reason).1.traffic G W) := by
  cases hh : s.held? serial with
  | none =>
    simp only [retireHeld,hh]
    exact Moves.refl _
  | some h =>
    rw [retireHeld_eq hh]
    exact (leave_retire (out_letGo hx hh) reason (.caller _)).moves

theorem traffic_replaceHeld (hx : s.custody.Serial) (serial : ℕ) :
    Moves spared (s.traffic G W) ((s.replaceHeld serial).1.traffic G W) := by
  unfold replaceHeld replaceEgress
  cases hh : s.held? serial with
  | none => exact Moves.refl _
  | some h =>
    cases he : s.store.claimEgress with
    | mk st x =>
      cases x with
      | error e => exact pause_store ((Store.claimEgress_error he).roster ▸ Keeps.refl _)
      | ok e =>
        have hte := claimEgress_taken (Store.claimEgress_ok he)
        have hp := (perm_map_replace (serials_held hx) hh (h.through e)).map fun h =>
          ((none : Option ℕ),h)
        let s' : Service := { s with
          store := st, held := s.held.map fun k => if k.serial = serial then h.through e else k }
        have ho : (s'.out : Multiset (Option ℕ × Session)) = (none,h.through e) ::ₘ
            (s.letGo serial).out := by
          rw [Multiset.cons_coe,Multiset.coe_eq_coe]
          exact (hp.append_left _).trans List.perm_middle
        have ht : s'.traffic G W = { s.traffic G W with
            roster := st.roster, out := (none,h.through e) ::ₘ (s.letGo serial).out } :=
          congrArg (fun o => { s.traffic G W with roster := st.roster, out := o }) ho
        have hm : Moves spared (s.traffic G W) (s'.traffic G W) := by
          rw [ht]
          exact (Move.turn (out_letGo hx hh) (Custody.keeps_of_claimEgress he) hte.1 hte.2).moves
        exact hm

/-! ### Every event -/

theorem traffic_onLogin (hs : s.Tidy) (t : ℕ) (r : Except RemoteFailure Unit) :
    Moves spared (s.traffic G W) ((s.onLogin t r).traffic G W) := by
  unfold onLogin
  split
  · exact Moves.refl _
  · rename_i c hc
    split
    · exact traffic_loginDone (hs.has hc) _ r
    · exact Moves.refl _

theorem traffic_onGate (hs : s.Tidy) (t : ℕ) : (s.onGate t).traffic G W = s.traffic G W := by
  unfold onGate
  split
  · rfl
  · rename_i c hc
    split
    · exact traffic_gateOpen (hs.has hc)
    · rfl

theorem traffic_onFetch (hs : s.Tidy) (t : ℕ) (r : Except RemoteFailure MapResponse) :
    Moves spared (s.traffic G W) ((s.onFetch t r).traffic G W) := by
  unfold onFetch
  split
  · exact Moves.refl _
  · rename_i c hc
    split
    · exact traffic_fetchDone (hs.has hc) r
    · exact Moves.refl _

theorem traffic_onExpiry (hs : s.Tidy) (t : ℕ) :
    Moves spared (s.traffic G W) ((s.onExpiry t).traffic G W) := by
  unfold onExpiry
  split
  · exact Moves.refl _
  · rename_i c hc
    split
    · exact traffic_fail (hs.has hc) _
    · exact Moves.refl _

theorem traffic_onRegister (hs : s.Tidy) (t : ℕ) :
    Moves spared (s.traffic G W) ((s.onRegister t).traffic G W) := by
  unfold onRegister
  split
  · exact Moves.refl _
  · rename_i c hc
    split
    · exact Moves.refl _
    · split
      · rw [traffic_enlistNow (hs.has hc) c rfl,← (hs.has hc).out]
        exact Moves.refl _
      · exact leave_retireNow (hs.has hc) _ _
      · exact Moves.refl _

theorem traffic_onForget (s : Service) (account : String) :
    (s.onForget account).traffic G W = s.traffic G W := by
  unfold onForget
  split <;> rfl

theorem traffic_onClear (s : Service) (t : ℕ) : (s.onClear t).traffic G W = s.traffic G W := by
  unfold onClear
  split
  · rfl
  · split <;> rfl

theorem traffic_abort (hs : s.Tidy) (t : ℕ) :
    Moves spared (s.traffic G W) ((s.abort t).traffic G W) := by
  unfold abort
  split
  · rename_i c hc
    exact traffic_abandon (hs.has hc)
  · split <;> exact Moves.refl _

theorem traffic_purge (s : Service) : Moves spared (s.traffic G W) (s.purge.traffic G W) := by
  have hp := s.store.sameRecords_onObjects .purge fun t =>
    ((t.purge s.seconds).1,.ok (t.purge s.seconds).2)
  simp only [purge,Store.purge]
  split <;> rename_i h <;> rw [h] at hp <;> exact pause_store (hp.roster ▸ Keeps.refl _)

/-- Every event makes moves, and spares the records unless it frees them from outside. -/
theorem traffic_step (spared : Prop) (hs : s.Tidy) (hx : s.custody.Serial) (e : Event)
    (he : spared → e.frees = false) :
    Moves spared (s.traffic G W) ((s.step e).traffic (G + s.lent e) (W ++ s.rising e)) := by
  have hm (hl : s.lent e = []) (hr : s.rising e = [])
      (h : Moves spared (s.traffic G W) ((s.step e).traffic G W)) : Moves spared (s.traffic G W)
        ((s.step e).traffic (G + s.lent e) (W ++ s.rising e)) := by
    rwa [hl,hr,Multiset.coe_nil,add_zero,List.append_nil]
  cases e with
  | turn turn =>
    cases turn with
    | poll task => exact hm rfl rfl (traffic_poll hs task)
    | wake serial =>
      simp only [lent,Multiset.coe_nil,add_zero]
      exact traffic_onWake hx serial
    | enter => exact hm rfl rfl ((traffic_enter s).symm ▸ Moves.refl _)
    | expire task => exact hm rfl rfl (traffic_onExpiry hs task)
    | register task => exact hm rfl rfl (traffic_onRegister hs task)
    | forget account => exact hm rfl rfl ((traffic_onForget s account).symm ▸ Moves.refl _)
    | clear task => exact hm rfl rfl ((traffic_onClear s task).symm ▸ Moves.refl _)
    | unlock => exact hm rfl rfl (Moves.refl _)
  | scan place => exact hm rfl rfl (traffic_arrive hs _ _)
  | request r => exact hm rfl rfl (traffic_request hs r)
  | acquire wait => exact hm rfl rfl (traffic_arrive hs _ _)
  | checkout wait => exact hm rfl rfl (traffic_arrive hs _ _)
  | drain => exact hm rfl rfl (traffic_arrive hs _ _)
  | shutdown => exact hm rfl rfl (traffic_arrive hs _ _)
  | construct => exact hm rfl rfl (traffic_constructHeld s)
  | release serial cooldown =>
    simp only [rising,List.append_nil]
    exact traffic_releaseHeld hx serial cooldown
  | retire serial reason => exact hm rfl rfl (traffic_retireHeld hx serial reason)
  | replaceEgress serial => exact hm rfl rfl (traffic_replaceHeld hx serial)
  | loginDone task r => exact hm rfl rfl (traffic_onLogin hs task r)
  | gateOpen task => exact hm rfl rfl ((traffic_onGate hs task).symm ▸ Moves.refl _)
  | fetchDone task r => exact hm rfl rfl (traffic_onFetch hs task r)
  | abort task => exact hm rfl rfl (traffic_abort hs task)
  | command c =>
    refine hm rfl rfl (Move.pause fun h => ?_).moves
    exact s.store.keeps_run c (by simpa [Event.frees] using he h)
  | plan c fails => exact hm rfl rfl (Moves.refl _)
  | assign e => exact hm rfl rfl (Moves.refl _)
  | lock => exact hm rfl rfl (Moves.refl _)
  | reconcileStatus =>
    exact hm rfl rfl (Move.pause fun h => by simp [Event.frees] at he; exact absurd h he).moves
  | purge => exact hm rfl rfl (traffic_purge s)
  | elapse millis => exact hm rfl rfl (Move.pass millis).moves
  | setClock millis => exact hm rfl rfl (Moves.refl _)

/-! ### Runs -/

def along {α : Type} (f : Service → Event → List α) (s : Service) : List Event → List α
  | [] => []
  | e :: es => f s e ++ along f (s.step e) es

/-- Numbers are given out once, in every state of a run. -/
theorem serial_step (hs : s.Tidy) (hx : s.custody.Serial) (e : Event) :
    (s.step e).custody.Serial := by
  have ht := (traffic_step (G := 0) (W := []) False hs hx e False.elim).serial
  exact traffic_serial.mp (ht (traffic_serial.mpr hx))

theorem serial_run (hs : s.Tidy) (hx : s.custody.Serial) (es : List Event) :
    (s.run es).custody.Serial := by
  induction es generalizing s with
  | nil => exact hx
  | cons e es ih => exact ih (tidy_step hs e) (serial_step hs hx e)

/-- A run is made of moves, which spare the records if no event frees them. -/
theorem traffic_run (spared : Prop) (hs : s.Tidy) (hx : s.custody.Serial) (es : List Event)
    (hes : spared → ∀ e ∈ es, e.frees = false) (G : Multiset Resting) (W : List Resting) :
    Moves spared (s.traffic G W)
      ((s.run es).traffic (G + s.along lent es) (W ++ s.along rising es)) := by
  induction es generalizing s G W with
  | nil =>
    simp only [along,Multiset.coe_nil,add_zero,List.append_nil]
    exact Moves.refl _
  | cons e es ih =>
    have hm := traffic_step (G := G) (W := W) spared hs hx e fun h => hes h e List.mem_cons_self
    -- what the first step gives back and wakes goes before what the others do
    have hr := ih (tidy_step hs e) (serial_step hs hx e)
      (fun h e he => hes h e (List.mem_cons_of_mem _ he)) (G + s.lent e) (W ++ s.rising e)
    rw [add_assoc,Multiset.coe_add,List.append_assoc] at hr
    exact hm.trans hr

end Service

end ScanService
