import ScanService.Proofs.TrafficSteps
/-! Minimum rest. Between two scans that use one identity lies the rest to which the first of them
gives its session back, whether the second one gets that session or a new one is built for it. -/
namespace ScanService

def Occurrence.freesIdentity : Occurrence → Bool
  | handedBack _ _ .abandoned | handedBack _ _ (.retired .egressDead) => true
  | _ => false

/-- In a history, the latest entry first, the scan of a task is over. It handed back a session of an
identity, and the rest from then on is over by a time. -/
def RestsBy (due : ℕ → ℕ) (L : List Entry) (task : ℕ) (name : String) (time : ℕ) : Prop :=
  ∃ b σ way r, ⟨b,.handedBack task σ way⟩ ∈ L ∧ ⟨b,.returned task r⟩ ∈ L ∧ σ.identity.name = name ∧
    due b ≤ time

/-- In a history, whenever a scan obtains a session, every scan that had one of the same identity
before is over, and so is a rest from when it handed its session back. -/
def Spaced (due : ℕ → ℕ) (L : List Entry) : Prop :=
  ∀ later earlier a b t u σ τ, L = later ++ ⟨b,.obtained u τ⟩ :: earlier →
  ⟨a,.obtained t σ⟩ ∈ earlier →
    σ.identity.name = τ.identity.name → RestsBy due earlier t σ.identity.name b

section Histories

variable {due : ℕ → ℕ} {L N : List Entry}

theorem RestsBy.mono {task time : ℕ} {name : String} {M : List Entry}
    (h : RestsBy due L task name time) (hl : ∀ x ∈ L, x ∈ M) : RestsBy due M task name time := by
  obtain ⟨b,σ,way,r,hb,hr,hn,ht⟩ := h
  exact ⟨b,σ,way,r,hl _ hb,hl _ hr,hn,ht⟩

/-- Entries by which no session is obtained do not matter. -/
theorem Spaced.append (h : Spaced due L) (hN : ∀ x ∈ N, ∀ t σ, x.what ≠ .obtained t σ) :
    Spaced due (N ++ L) := by
  intro later earlier a b t u σ τ he
  rcases List.append_eq_append_iff.mp he with ⟨M,rfl,hM⟩ | ⟨M,rfl,hM⟩
  · exact h M earlier a b t u σ τ hM
  · cases M with
    | nil => exact h [] earlier a b t u σ τ (by simpa using hM.symm)
    | cons x M =>
      rw [List.cons_append,List.cons.injEq] at hM
      exact absurd (congrArg Entry.what hM.1).symm (hN x (by simp) u τ)

theorem Spaced.cons {b u : ℕ} {τ : Session} (h : Spaced due L)
    (hx : ∀ a t σ, ⟨a,.obtained t σ⟩ ∈ L → σ.identity.name = τ.identity.name →
      RestsBy due L t σ.identity.name b) : Spaced due (⟨b,.obtained u τ⟩ :: L) := by
  intro later earlier a b' t u' σ τ' he
  cases later with
  | nil =>
    simp only [List.nil_append,List.cons.injEq,Entry.mk.injEq,Occurrence.obtained.injEq] at he
    obtain ⟨⟨rfl,rfl,rfl⟩,rfl⟩ := he
    exact hx a t σ
  | cons x later =>
    rw [List.cons_append,List.cons.injEq] at he
    exact h later earlier a b' t u' σ τ' he.2

theorem Spaced.of_filter {p : Entry → Bool} (hp : ∀ a t σ, p ⟨a,.obtained t σ⟩ = true)
    (h : Spaced due (L.filter p)) : Spaced due L := by
  rintro later earlier a b t u σ τ rfl hm hn
  have hs : (later ++ ⟨b,.obtained u τ⟩ :: earlier).filter p =
      later.filter p ++ ⟨b,.obtained u τ⟩ :: earlier.filter p := by
    rw [List.filter_append,List.filter_cons_of_pos (hp b u τ)]
  have hr := h _ _ a b t u σ τ hs (List.mem_filter.mpr ⟨hm,hp a t σ⟩) hn
  exact hr.mono fun x hx => List.mem_of_mem_filter hx

end Histories

namespace Traffic

open Roster

variable {t t' : Traffic} {name : String} {task due : ℕ}

/-- Until a time no session of an identity goes out: the record of the identity is taken, and
whatever session has it rests until then. -/
def Rested (t : Traffic) (name : String) (due : ℕ) : Prop :=
  due ≤ t.now ∨ t.roster.IdentityTaken name ∧ t.Away (fun σ => σ.identity.name = name) due

theorem Away.identityTaken (ha : t.Away (fun σ => σ.identity.name = name) due) (h : Move True t t')
    (hi : t.roster.IdentityTaken name) : t'.roster.IdentityTaken name := by
  obtain ⟨ho,hl,_⟩ := ha
  cases h with
  | pause hk => exact (hk trivial).identities _ hi
  | build _ hk _ _ _ _ => exact hk.identities _ hi
  | turn _ hk _ _ => exact hk.identities _ hi
  | leave hm hs _ _ => exact hs.identities _ (Ne.symm (ho _ (hm ▸ Multiset.mem_cons_self _ _))) hi
  | clear hm hs => exact hs.identities _ (Ne.symm (hl _ (hm ▸ List.mem_cons_self))) hi
  | _ => exact hi

theorem Move.rested (h : Move True t t') (hr : t.Rested name due) : t'.Rested name due := by
  rcases hr with hr | ⟨hi,ha⟩
  · exact Or.inl (hr.trans h.now_le)
  · have hb (σ : Session) (_ : σ.serial = t.next) (hn : ¬ t.roster.IdentityTaken σ.identity.name) :
        σ.identity.name ≠ name := fun he => hn (he ▸ hi)
    rcases h.away ha (fun _ _ => id) hb with hd | ha'
    · exact Or.inl hd
    · exact Or.inr ⟨ha.identityTaken h hi,ha'⟩

/-- What a move notes: that a session was obtained, which is out then and was in line or of a record
not taken, or nothing of the kind. -/
theorem Move.visits (h : Move True t t') :
    (∃ task σ, t'.visits = ⟨t.now,.obtained task σ⟩ :: t.visits ∧ (some task,σ) ∈ t'.out ∧
      (¬ t.roster.IdentityTaken σ.identity.name ∨ σ ∈ t.line)) ∨
    ∃ N, t'.visits = N ++ t.visits ∧ ∀ x ∈ N, ∀ task σ, x.what ≠ .obtained task σ := by
  have hnone {u : Traffic} (hu : u.visits = t.visits) :
      ∃ N, u.visits = N ++ t.visits ∧ ∀ x ∈ N, ∀ task σ, x.what ≠ .obtained task σ :=
        ⟨[],hu,by simp⟩
  cases h with
  | refuse task r => exact Or.inr ⟨[_],rfl,by simp⟩
  | build who _ hn _ _ _ =>
    cases who with
    | none => exact Or.inr (hnone rfl)
    | some task => exact Or.inl ⟨task,_,rfl,Multiset.mem_cons_self _ _,Or.inl hn⟩
  | leave _ _ _ hN =>
    refine Or.inr ⟨_,rfl,?_⟩
    cases hN <;> simp
  | rest _ _ hN =>
    refine Or.inr ⟨_,rfl,?_⟩
    cases hN <;> simp
  | take who hl =>
    cases who with
    | none => exact Or.inr (hnone rfl)
    | some task => exact Or.inl ⟨task,_,rfl,Multiset.mem_cons_self _ _,Or.inr (by simp [hl])⟩
  | _ => exact Or.inr (hnone rfl)

theorem Move.mem_visits (h : Move True t t') {x : Entry} (hx : x ∈ t.visits) : x ∈ t'.visits := by
  rcases h.visits with ⟨task,σ,hv,_⟩ | ⟨N,hv,_⟩
  · exact hv ▸ List.mem_cons_of_mem _ hx
  · exact hv ▸ List.mem_append_right _ hx

theorem names_ne {r : Roster} {σ : Session} {o : Multiset (Option ℕ × Session)} {l : List Session}
    {z : Multiset Resting} (h : Custody.Exclusive r (σ ::ₘ total o l z)) :
    (∀ x ∈ o, x.2.identity.name ≠ σ.identity.name) ∧ (∀ τ ∈ l, τ.identity.name ≠ σ.identity.name) ∧
      ∀ r ∈ z, r.session.identity.name ≠ σ.identity.name :=
  forall_mem_total.mp fun _ => h.name_ne _

/-- The scan of a task has a session of an identity, or has handed one back that rests. -/
def Accounted (t : Traffic) (task : ℕ) (name : String) : Prop :=
  (∃ σ, (some task,σ) ∈ t.out ∧ σ.identity.name = name) ∨
    ∃ b σ way r, ⟨b,.handedBack task σ way⟩ ∈ t.visits ∧ ⟨b,.returned task r⟩ ∈ t.visits ∧
      σ.identity.name = name ∧ t.Rested name (t.due b)

theorem Move.accounted (h : Move True t t') (hx : Custody.Exclusive t.roster t.live)
    (hq : ∀ x ∈ t'.visits, x.what.freesIdentity = false) (ha : t.Accounted task name) :
    t'.Accounted task name := by
  rcases ha with ⟨σ,hσ,rfl⟩ | ⟨b,σ,way,r,hb,hr,hn,hT⟩
  · have hi := hx.identities σ (Multiset.mem_add.mpr (Or.inl (Multiset.mem_map_of_mem Prod.snd hσ)))
    have hlive {who : Option ℕ} {τ : Session} {o : Multiset (Option ℕ × Session)}
        (ho : t.out = (who,τ) ::ₘ o) : Custody.Exclusive t.roster
          (τ ::ₘ total o t.line t.asleep) := by rwa [live,ho,total_out] at hx
    cases h with
    | build who _ _ _ _ _ => exact Or.inl ⟨σ,Multiset.mem_cons_of_mem hσ,rfl⟩
    | take who _ => exact Or.inl ⟨σ,Multiset.mem_cons_of_mem hσ,rfl⟩
    | turn ho _ _ _ =>
      rw [ho] at hσ
      rcases Multiset.mem_cons.mp hσ with hσ | hσ
      · obtain ⟨rfl,rfl⟩ := Prod.mk.injEq _ _ _ _ ▸ hσ
        exact Or.inl ⟨_,Multiset.mem_cons_self _ _,rfl⟩
      · exact Or.inl ⟨σ,Multiset.mem_cons_of_mem hσ,rfl⟩
    | leave ho _ hb hN =>
      obtain ⟨hno,hnl,hnz⟩ := names_ne (hlive ho)
      rw [ho] at hσ
      rcases Multiset.mem_cons.mp hσ with hσ | hσ
      · obtain ⟨rfl,rfl⟩ := Prod.mk.injEq _ _ _ _ ▸ hσ
        -- the scan itself hands its session back, for good
        cases hN with
        | abandoned _ => exact absurd (hq _ List.mem_cons_self) (by simp [Occurrence.freesIdentity])
        | returned way _ r =>
          rcases hb with rfl | rfl | hb
          · exact absurd (hq _ (List.mem_cons_of_mem _ List.mem_cons_self))
              (by simp [Occurrence.freesIdentity])
          · exact absurd (hq _ (List.mem_cons_of_mem _ List.mem_cons_self))
              (by simp [Occurrence.freesIdentity])
          · exact Or.inr ⟨t.now,σ,_,r,List.mem_cons_of_mem _ List.mem_cons_self,
              List.mem_cons_self,rfl,Or.inr ⟨hb _ hi,hno,hnl,fun r hr hn => absurd hn (hnz r hr)⟩⟩
      · exact Or.inl ⟨σ,hσ,rfl⟩
    | rest ho hd hN =>
      obtain ⟨hno,hnl,hnz⟩ := names_ne (hlive ho)
      rw [ho] at hσ
      rcases Multiset.mem_cons.mp hσ with hσ | hσ
      · obtain ⟨rfl,rfl⟩ := Prod.mk.injEq _ _ _ _ ▸ hσ
        -- the scan itself hands its session back, to rest
        cases hN with
        | returned _ _ r =>
          refine Or.inr ⟨t.now,σ,.released,r,List.mem_cons_of_mem _ List.mem_cons_self,
            List.mem_cons_self,rfl,
            Or.inr ⟨hi,hno,hnl,Multiset.forall_mem_cons.mpr ⟨fun _ => (hd (by simp)).ge,?_⟩⟩⟩
          exact fun r hr hn => absurd hn (hnz r hr)
      · exact Or.inl ⟨σ,hσ,rfl⟩
    | _ => exact Or.inl ⟨σ,hσ,rfl⟩
  · refine Or.inr ⟨b,σ,way,r,h.mem_visits hb,h.mem_visits hr,hn,?_⟩
    rw [h.moves.due]
    exact h.rested hT

/-- A session that is now obtained has an identity of which no other is out, and which has
rested. -/
theorem Accounted.rests {σ : Session} (ha : t.Accounted task σ.identity.name)
    (hx : Custody.Exclusive t.roster t.live)
    (hσ : ¬ t.roster.IdentityTaken σ.identity.name ∨ σ ∈ t.line) :
    RestsBy t.due t.visits task σ.identity.name t.now := by
  rcases ha with ⟨τ,hτ,hn⟩ | ⟨b,τ,way,r,hb,hr,hn,hT | ⟨hi,_,hl,_⟩⟩
  · exfalso
    rcases hσ with hσ | hσ
    · exact hσ (hn ▸ hx.identities τ
        (Multiset.mem_add.mpr (Or.inl (Multiset.mem_map_of_mem Prod.snd hτ))))
    · obtain ⟨o,ho⟩ := Multiset.exists_cons_of_mem hτ
      rw [live,ho,total_out] at hx
      exact (names_ne hx).2.1 σ hσ hn.symm
  · exact ⟨b,τ,way,r,hb,hr,hn,hT⟩
  · rcases hσ with hσ | hσ
    · exact absurd hi hσ
    · exact absurd rfl (hl σ hσ)

/-- No two sessions alive have one identity, every session that a scan obtained is accounted for,
and the scans of one identity are spaced. -/
structure Paced (t : Traffic) : Prop where
  exclusive : Custody.Exclusive t.roster t.live
  accounted : ∀ a task σ, ⟨a,.obtained task σ⟩ ∈ t.visits → t.Accounted task σ.identity.name
  spaced : Spaced t.due t.visits

theorem Move.paced (h : Move True t t') (hq : ∀ x ∈ t'.visits, x.what.freesIdentity = false)
    (hp : t.Paced) : t'.Paced := by
  have ha (a task : ℕ) (σ : Session) (hm : ⟨a,.obtained task σ⟩ ∈ t.visits) :
      t'.Accounted task σ.identity.name :=
    h.accounted hp.exclusive hq (hp.accounted a task σ hm)
  have hc : t'.due = t.due := h.moves.due
  refine ⟨h.exclusive hp.exclusive,fun a task σ hm => ?_,?_⟩
  · rcases h.visits with ⟨u,τ,hv,ho,_⟩ | ⟨N,hv,hN⟩
    · rw [hv] at hm
      rcases List.mem_cons.mp hm with hm | hm
      · simp only [Entry.mk.injEq,Occurrence.obtained.injEq] at hm
        obtain ⟨_,rfl,rfl⟩ := hm
        exact Or.inl ⟨σ,ho,rfl⟩
      · exact ha a task σ hm
    · rw [hv] at hm
      rcases List.mem_append.mp hm with hm | hm
      · exact absurd rfl (hN _ hm task σ)
      · exact ha a task σ hm
  · rw [hc]
    rcases h.visits with ⟨u,τ,hv,_,hτ⟩ | ⟨N,hv,hN⟩
    · rw [hv]
      refine hp.spaced.cons fun a task σ hm hn => ?_
      rw [hn]
      exact (hn ▸ hp.accounted a task σ hm).rests hp.exclusive hτ
    · rw [hv]
      exact hp.spaced.append hN

theorem Moves.paced (h : Moves True t t') (hp : t.Paced)
    (hq : ∀ x ∈ t'.visits, x.what.freesIdentity = false) : t'.Paced := by
  induction h with
  | refl => exact hp
  | tail _ hm ih => exact hm.paced hq (ih fun x hx => hq x (hm.mem_visits hx))

end Traffic

namespace Service

/-- Two scans of one identity are apart by the rest between them, in every state that a service
reaches, whatever the remote service answers and whatever calls of the store fail, if no scan was
abandoned or lost its session to a dead egress and nobody else cleared a use flag. -/
theorem minimum_rest (settings : Settings) (store : Store) (clock : ℤ) {n : ℕ} {pool : Pool}
    (hp : Pool.ofCapacity n = .ready pool) {es : List Event} (hes : ∀ e ∈ es, e.frees = false)
    (hq : ∀ x ∈ ((fresh settings store pool clock).run es).history, x.what.freesIdentity = false) :
    Spaced (settings.restEnd · settings.cooldown)
      ((fresh settings store pool clock).run es).history := by
  have hf : Orderly False _ ∧ _ := orderly_fresh settings store clock hp
  have hx := (exclusive_fresh settings store clock hp).2
  have hm := traffic_run True hf.1.tidy hf.1.serial es (fun _ => hes) 0 []
  have hb : ((fresh settings store pool clock).traffic 0 []).Paced := by
    refine ⟨?_,by simp [traffic,visits,fresh],fun later earlier a b t u σ τ he => ?_⟩
    · rw [traffic_live]
      exact hx
    · simp [traffic,visits,fresh] at he
  have ht := hm.paced hb fun x hx => hq x (List.mem_of_mem_filter hx)
  have hs := ht.spaced
  rw [hm.due] at hs
  exact Spaced.of_filter (fun _ _ _ => rfl) hs

def resting (cooldown : ℕ) :
    Service := fresh { acquireWait := 0, cooldown := cooldown, queryTimeout := 1000 } stocked
      ⟨1,[],[],[],[],0⟩ 0

def outing (task millis : ℕ) : List Event :=
  [.scan ⟨0,0⟩,.loginDone task (.ok ()),.gateOpen task,.fetchDone task (.ok {}),.elapse millis,
    .turn (.wake 0)]

/-- When scans obtained a session, with the task, the session and its identity, the latest first. -/
def checkouts (s : Service) : List (ℕ × ℕ × ℕ × String) :=
  s.history.filterMap fun e => match e.what with
    | .obtained t σ => some (e.time,t,σ.serial,σ.identity.name)
    | _ => none

/-- The second scan gets the session of the first one. Then the session is ended, and the third scan
gets another one with the same identity. -/
def outings : List Event := outing 0 5 ++ outing 1 5 ++ [.drain,.scan ⟨0,0⟩]

theorem minimum_rest_outings :
    ((resting 5).run outings).checkouts = [(10,3,1,"ash"),(5,1,0,"ash"),(0,0,0,"ash")] ∧
      Spaced ((resting 5).settings.restEnd · 5) ((resting 5).run outings).history := by
  refine ⟨by decide +kernel,minimum_rest _ stocked 0 (n := 1) rfl ?_ ?_⟩
  · decide +kernel
  · decide +kernel

def reunion : List Event := outing 0 thirtyYears ++ [.scan ⟨0,0⟩]

/-- Two scans of one identity are then closer than the rest that they were to leave between them. -/
theorem not_spaced_endless : (∀ e ∈ reunion, e.frees = false) ∧
    (∀ x ∈ ((resting endless).run reunion).history, x.what.freesIdentity = false) ∧
    ¬ Spaced (· + endless) ((resting endless).run reunion).history := by
  refine ⟨by decide +kernel,by decide +kernel,fun h => ?_⟩
  let H := ((resting endless).run reunion).history
  let σ : Session := ⟨0,⟨"ash","","ptc",true,false⟩,⟨1,true,false⟩⟩
  have hd : H.drop 2 = ⟨thirtyYears,.obtained 1 σ⟩ :: H.drop 3 := rfl
  have hs : H = H.take 2 ++ ⟨thirtyYears,.obtained 1 σ⟩ :: H.drop 3 := by
    rw [← hd,List.take_append_drop]
  have hm : ⟨0,.obtained 0 σ⟩ ∈ H.drop 3 := List.mem_of_getElem? (i := 9) rfl
  obtain ⟨b,_,_,_,_,_,_,hb⟩ := h _ _ 0 thirtyYears 0 1 σ σ hs hm rfl
  exact absurd ((Nat.le_add_left endless b).trans hb) (by decide)

end Service

end ScanService
