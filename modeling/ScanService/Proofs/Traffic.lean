import Mathlib.Data.Multiset.OrderedMonoid
import ScanService.Proofs.Exclusive
/-! Where the sessions are: out with a scan or a caller, at rest, or in the line that they form when
their rest is over. All that becomes of them is one of nine moves, so what the moves keep the
service keeps. -/
namespace ScanService

structure Taking where
  session : Session
  time : ℕ

def Service.endless : ℕ := 0x8000000000000000 * 1000

/-- The end of a rest from a time on. One whose end the clock cannot hold is over after thirty
years. -/
def Settings.restEnd (settings : Settings) (start cooldown : ℕ) : ℕ :=
  if start + cooldown ≤ settings.horizon then start + cooldown else start + Service.thirtyYears

/-- The time, the end of the rest that a scan gives a session at a time, the records, the sessions
out, each with the task of its scan if it has one, those in the line of the pool and those at rest,
and the next serial number. Then what was given back to rest, which rests have ended, the first one
first, and, the last one first, what was taken from the line and what scans obtained and handed
back. -/
structure Traffic where
  now : ℕ
  due : ℕ → ℕ
  roster : Roster
  out : Multiset (Option ℕ × Session)
  line : List Session
  asleep : Multiset Resting
  next : ℕ
  given : Multiset Resting
  woken : List Resting
  taken : List Taking
  visits : List Entry

namespace Traffic

open Roster

def opening (now : ℕ) (σ : Session) : Option ℕ → List Entry
  | none => []
  | some t => [⟨now,.obtained t σ⟩]

/-- What is noted when a scan, if it is one, hands a session back. A scan that is not abandoned has
a result. -/
inductive Closing (now : ℕ) (σ : Session) : HandBack → Option ℕ → List Entry → Prop
  | caller (way : HandBack) : Closing now σ way none []
  | abandoned (t : ℕ) : Closing now σ .abandoned (some t) [⟨now,.handedBack t σ .abandoned⟩]
  | returned (way : HandBack) (t : ℕ) (r : Except ScanFailure (List (ScanObject Float))) :
      Closing now σ way (some t) [⟨now,.returned t r⟩,⟨now,.handedBack t σ way⟩]

/-- A move. If the records are spared, no use flag is cleared but those of a session that goes, and
that of its identity only if it is abandoned or its egress is dead. -/
inductive Move (spared : Prop) : Traffic → Traffic → Prop
  | pause {t : Traffic} {r : Roster} (hk : spared → Keeps t.roster r) :
      Move spared t { t with roster := r }
  | pass {t : Traffic} (millis : ℕ) : Move spared t { t with now := t.now + millis }
  | refuse {t : Traffic} (task : ℕ) (r : Except ScanFailure (List (ScanObject Float))) :
      Move spared t { t with visits := ⟨t.now,.returned task r⟩ :: t.visits }
  | build {t : Traffic} {r : Roster} {i : Identity} {e : Egress} (who : Option ℕ)
      (hk : Keeps t.roster r) (hn : ¬ t.roster.IdentityTaken i.name)
      (he : ¬ t.roster.EgressTaken e.id) (hn' : r.IdentityTaken i.name) (he' : r.EgressTaken e.id) :
      Move spared t { t with
        roster := r, out := (who,⟨t.next,i,e⟩) ::ₘ t.out, next := t.next + 1,
        visits := opening t.now ⟨t.next,i,e⟩ who ++ t.visits }
  | turn {t : Traffic} {r : Roster} {who : Option ℕ} {σ : Session}
      {o : Multiset (Option ℕ × Session)} {e : Egress} (ho : t.out = (who,σ) ::ₘ o)
      (hk : Keeps t.roster r) (he : ¬ t.roster.EgressTaken e.id) (he' : r.EgressTaken e.id) :
      Move spared t { t with roster := r, out := (who,σ.through e) ::ₘ o }
  | leave {t : Traffic} {r : Roster} {who : Option ℕ} {σ : Session}
      {o : Multiset (Option ℕ × Session)} {way : HandBack} {N : List Entry}
      (ho : t.out = (who,σ) ::ₘ o) (hs : Spares σ.identity.name σ.egress.id t.roster r)
      (hb : way = .abandoned ∨ way = .retired .egressDead ∨ ∀ n, t.roster.IdentityTaken n →
        r.IdentityTaken n)
      (hN : Closing t.now σ way who N) :
      Move spared t { t with roster := r, out := o, visits := N ++ t.visits }
  | rest {t : Traffic} {who : Option ℕ} {σ : Session} {o : Multiset (Option ℕ × Session)} {due : ℕ}
      {N : List Entry} (ho : t.out = (who,σ) ::ₘ o) (hd : who ≠ none → due = t.due t.now)
      (hN : Closing t.now σ .released who N) :
      Move spared t { t with
        out := o, asleep := ⟨σ,due⟩ ::ₘ t.asleep, given := ⟨σ,due⟩ ::ₘ t.given,
        visits := N ++ t.visits }
  | wake {t : Traffic} {r : Resting} {z : Multiset Resting} (hz : t.asleep = r ::ₘ z)
      (hd : r.due ≤ t.now) :
      Move spared t { t with asleep := z, line := t.line ++ [r.session], woken := t.woken ++ [r] }
  | take {t : Traffic} {σ : Session} {l : List Session} (who : Option ℕ) (hl : t.line = σ :: l) :
      Move spared t { t with
        out := (who,σ) ::ₘ t.out, line := l, taken := ⟨σ,t.now⟩ :: t.taken,
        visits := opening t.now σ who ++ t.visits }
  | clear {t : Traffic} {r : Roster} {σ : Session} {l : List Session} (hl : t.line = σ :: l)
      (hs : Spares σ.identity.name σ.egress.id t.roster r) :
      Move spared t { t with roster := r, line := l, taken := ⟨σ,t.now⟩ :: t.taken }

def Moves (spared : Prop) : Traffic → Traffic → Prop := Relation.ReflTransGen (Move spared)

variable {spared : Prop} {t t' t'' : Traffic}

theorem Moves.refl (t : Traffic) : Moves spared t t := Relation.ReflTransGen.refl

theorem Move.moves (h : Move spared t t') : Moves spared t t' := Relation.ReflTransGen.single h

theorem Moves.trans (h : Moves spared t t') (h' : Moves spared t' t'') : Moves spared t t'' :=
  Relation.ReflTransGen.trans h h'

/-- What every move keeps, any number of moves keep. -/
theorem Moves.keep {P : Traffic → Prop} (hP : ∀ t t', Move spared t t' → P t → P t')
    (h : Moves spared t t') (ht : P t) : P t' := by
  induction h with
  | refl => exact ht
  | tail _ hm ih => exact hP _ _ hm ih

theorem Moves.due (h : Moves spared t t') : t'.due = t.due :=
  h.keep (P := fun u => u.due = t.due) (fun _ _ hm hc => by cases hm <;> exact hc) rfl

theorem Move.now_le (h : Move spared t t') : t.now ≤ t'.now := by
  cases h with
  | pass millis => exact Nat.le_add_right _ _
  | _ => exact le_rfl

theorem Move.next_le (h : Move spared t t') : t.next ≤ t'.next := by
  cases h with
  | build => exact Nat.le_succ _
  | _ => exact le_rfl

/-! ### Out of reach -/

/-- Sessions of a kind are out of reach until a time: none is out or in line, and those at rest are
not due before. -/
structure Away (t : Traffic) (kind : Session → Prop) (due : ℕ) : Prop where
  out : ∀ x ∈ t.out, ¬ kind x.2
  line : ∀ σ ∈ t.line, ¬ kind σ
  asleep : ∀ r ∈ t.asleep, kind r.session → due ≤ r.due

/-- Until then they stay out of reach, if none of the kind can be built and the egress does not
matter. -/
theorem Move.away (h : Move spared t t') {kind : Session → Prop} {due : ℕ} (ha : t.Away kind due)
    (hk : ∀ σ e, kind (σ.through e) → kind σ)
    (hb : ∀ σ, σ.serial = t.next → ¬ t.roster.IdentityTaken σ.identity.name → ¬ kind σ) :
    due ≤ t'.now ∨ t'.Away kind due := by
  obtain ⟨ho,hl,hz⟩ := ha
  cases h with
  | pause _ => exact Or.inr ⟨ho,hl,hz⟩
  | pass _ => exact Or.inr ⟨ho,hl,hz⟩
  | refuse _ _ => exact Or.inr ⟨ho,hl,hz⟩
  | build who _ hn _ _ _ => exact Or.inr ⟨Multiset.forall_mem_cons.mpr ⟨hb _ rfl hn,ho⟩,hl,hz⟩
  | turn hm _ _ _ =>
    rw [hm] at ho
    obtain ⟨hσ,ho⟩ := Multiset.forall_mem_cons.mp ho
    exact Or.inr ⟨Multiset.forall_mem_cons.mpr ⟨fun h => hσ (hk _ _ h),ho⟩,hl,hz⟩
  | leave hm _ _ _ =>
    rw [hm] at ho
    exact Or.inr ⟨(Multiset.forall_mem_cons.mp ho).2,hl,hz⟩
  | rest hm _ _ =>
    rw [hm] at ho
    obtain ⟨hσ,ho⟩ := Multiset.forall_mem_cons.mp ho
    exact Or.inr ⟨ho,hl,Multiset.forall_mem_cons.mpr ⟨fun h => absurd h hσ,hz⟩⟩
  | @wake r z hm hd =>
    rw [hm] at hz
    obtain ⟨hr,hz⟩ := Multiset.forall_mem_cons.mp hz
    -- one of the kind wakes only when the time has come
    by_cases hk : kind r.session
    · exact Or.inl ((hr hk).trans hd)
    · refine Or.inr ⟨ho,fun σ hσ => ?_,hz⟩
      rcases List.mem_append.mp hσ with hσ | hσ
      · exact hl σ hσ
      · rwa [List.mem_singleton.mp hσ]
  | take who hm =>
    rw [hm] at hl
    obtain ⟨hσ,hl⟩ := List.forall_mem_cons.mp hl
    exact Or.inr ⟨Multiset.forall_mem_cons.mpr ⟨hσ,ho⟩,hl,hz⟩
  | clear hm _ =>
    rw [hm] at hl
    exact Or.inr ⟨ho,(List.forall_mem_cons.mp hl).2,hz⟩

/-! ### The sessions alive -/

def total (out : Multiset (Option ℕ × Session)) (line : List Session) (asleep : Multiset Resting) :
    Multiset Session :=
  out.map Prod.snd + (line + asleep.map (·.session))

section Total

variable {o : Multiset (Option ℕ × Session)} {l : List Session} {z : Multiset Resting} {σ : Session}

@[simp] theorem total_out {who : Option ℕ} : total ((who,σ) ::ₘ o) l z = σ ::ₘ total o l z := by
  rw [total,Multiset.map_cons,Multiset.cons_add]
  rfl

@[simp] theorem total_asleep {r : Resting} : total o l (r ::ₘ z) = r.session ::ₘ total o l z := by
  rw [total,Multiset.map_cons,Multiset.add_cons,Multiset.add_cons]
  rfl

@[simp] theorem total_line : total o (σ :: l) z = σ ::ₘ total o l z := by
  rw [total,← Multiset.cons_coe,Multiset.cons_add,Multiset.add_cons]
  rfl

@[simp] theorem total_last : total o (l ++ [σ]) z = σ ::ₘ total o l z := by
  rw [← total_line,total,total,Multiset.coe_eq_coe.mpr (List.perm_append_singleton σ l)]

theorem forall_mem_total {p : Session → Prop} : (∀ σ ∈ total o l z, p σ) ↔
    (∀ x ∈ o, p x.2) ∧ (∀ σ ∈ l, p σ) ∧ ∀ r ∈ z, p r.session := by
  simp only [total,Multiset.mem_add,Multiset.mem_map,Multiset.mem_coe,or_imp,forall_and,
    forall_exists_index,and_imp,forall_apply_eq_imp_iff₂]

end Total

def live (t : Traffic) : Multiset Session := total t.out t.line t.asleep

/-- Moves that spare the records let no two sessions alive share anything. -/
theorem Move.exclusive (h : Move True t t') (ht : Custody.Exclusive t.roster t.live) :
    Custody.Exclusive t'.roster t'.live := by
  cases h with
  | pause hk => exact ht.keeps (hk trivial)
  | pass _ => exact ht
  | refuse _ _ => exact ht
  | build who hk hn he hn' he' =>
    rw [live,total_out]
    exact (ht.keeps hk).cons (ht.name_ne_of_not_taken hn) (ht.id_ne_of_not_taken he) hn' he'
  | @turn r who σ o e ho hk he he' =>
    rw [live,ho,total_out] at ht
    rw [live,total_out]
    refine (ht.spares (hk.spares _ _)).cons ht.name_ne ?_ ?_ he'
    · exact fun τ hτ => ht.id_ne_of_not_taken he τ (Multiset.mem_cons_of_mem hτ)
    · exact hk.identities _ (ht.identities σ (Multiset.mem_cons_self _ _))
  | leave ho hs _ _ =>
    rw [live,ho,total_out] at ht
    exact ht.spares hs
  | rest ho _ _ =>
    simp only [live,ho,total_out,total_asleep] at ht ⊢
    exact ht
  | wake hz _ =>
    simp only [live,hz,total_asleep,total_last] at ht ⊢
    exact ht
  | take who hl =>
    simp only [live,hl,total_line,total_out] at ht ⊢
    exact ht
  | clear hl hs =>
    rw [live,hl,total_line] at ht
    exact ht.spares hs

theorem Moves.exclusive (h : Moves True t t') (ht : Custody.Exclusive t.roster t.live) :
    Custody.Exclusive t'.roster t'.live :=
  h.keep (P := fun t => Custody.Exclusive t.roster t.live) (fun _ _ => Move.exclusive) ht

def Serial (t : Traffic) : Prop := Fresh (t.live.map Session.serial) t.next

theorem Move.serial (h : Move spared t t') (ht : t.Serial) : t'.Serial := by
  have hd {σ : Session} {live : Multiset Session} {next : ℕ}
      (h : Fresh ((σ ::ₘ live).map Session.serial) next) : Fresh (live.map Session.serial) next :=
    h.of_le (Multiset.map_le_map (Multiset.le_cons_self live σ))
  cases h with
  | pause _ => exact ht
  | pass _ => exact ht
  | refuse _ _ => exact ht
  | build who _ _ _ _ _ => simpa only [Serial,live,total_out,Multiset.map_cons] using Fresh.cons ht
  | turn ho _ _ _ =>
    simp only [Serial,live,ho,total_out,Multiset.map_cons] at ht ⊢
    exact ht
  | leave ho _ _ _ =>
    simp only [Serial,live,ho,total_out] at ht ⊢
    exact hd ht
  | rest ho _ _ =>
    simp only [Serial,live,ho,total_out,total_asleep] at ht ⊢
    exact ht
  | wake hz _ =>
    simp only [Serial,live,hz,total_asleep,total_last] at ht ⊢
    exact ht
  | take who hl =>
    simp only [Serial,live,hl,total_line,total_out] at ht ⊢
    exact ht
  | clear hl _ =>
    simp only [Serial,live,hl,total_line] at ht ⊢
    exact hd ht

theorem Moves.serial (h : Moves spared t t') (ht : t.Serial) : t'.Serial :=
  h.keep (fun _ _ => Move.serial) ht

end Traffic

end ScanService
