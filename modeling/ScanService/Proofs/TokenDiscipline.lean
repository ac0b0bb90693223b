import Mathlib.Data.List.Induction
import ScanService.Gateway.Client
/-! The token of a client. A token is valid as long as nothing that the client has seen speaks
against it, which is said here of what it was used for and not of its state. Every request for
objects carries a valid token and the last place; and a client that has one does not log in again
unless it is forced to. -/
namespace ScanService.Gateway

/-- A use of a client, with what comes of its exchange if it makes one. -/
inductive Use
  | login (i : Identity) (egress : Int) (force : Bool) (fault : Option String) (x : Exchange)
  | move (place : Coordinate Float)
  | fetch (x : Exchange)

/-- What is known of a use afterwards: the request that was made, with the egress it went through,
and the failure that it ended with. -/
structure Dealing where
  use : Use
  request : Option (Int × Request)
  failure : Option RemoteFailure

def failureIn {α : Type} : Option (Except RemoteFailure α) → Option RemoteFailure
  | some (.error e) => some e
  | _ => none

namespace Client

def deal (c : Client) : Use → Client × Dealing
  | .login i egress force fault x =>
    let r := c.login i egress force fault x
    (r.client,⟨.login i egress force fault x,r.request,failureIn r.result⟩)
  | .move place => (c.move place,⟨.move place,none,none⟩)
  | .fetch x =>
    let r := c.fetch x
    (r.client,⟨.fetch x,r.request,failureIn r.result⟩)

def after (c : Client) (us : List Use) : Client := us.foldl (fun c u => (c.deal u).1) c

def log (c : Client) : List Use → List Dealing
  | [] => []
  | u :: us => (c.deal u).2 :: (c.deal u).1.log us

theorem after_append_one (c : Client) (us : List Use) (u : Use) :
    c.after (us ++ [u]) = ((c.after us).deal u).1 := List.foldl_append

theorem log_append_one (c : Client) (us : List Use) (u : Use) :
    c.log (us ++ [u]) = c.log us ++ [((c.after us).deal u).2] := by
  induction us generalizing c with
  | nil => rfl
  | cons v us ih => simp [log,after,ih]

end Client

/-! ### Validity -/

namespace Exchange

def status? : Exchange → Option Nat
  | answered status _ => some status
  | left status => status
  | _ => none

def rejects (x : Exchange) : Bool := x.status?.any fun status => !Http.isSuccess status

def token? : Exchange → Option String
  | answered status (some body) => if Http.isSuccess status then tokenOf? body else none
  | _ => none

theorem token?_of_rejects {x : Exchange} (h : x.rejects = true) : x.token? = none := by
  match x with
  | answered status (some body) =>
    have hs : Http.isSuccess status = false := by simpa [rejects,status?] using h
    simp [token?,hs]
  | answered status none => rfl
  | unreachable | faulty _ | left _ => rfl

end Exchange

namespace Dealing

/-- A login went through the egress and completed with the token. -/
def Grants (d : Dealing) (egress : Int) (token : String) : Prop :=
  match d.use with
  | .login _ _ _ _ x => (∃ r, d.request = some (egress,r)) ∧ x.token? = some token
  | _ => False

/-- What speaks against a token got through an egress: another egress is bound, a login completes
with a token or is rejected, or a request that carries the token ends because it is refused. -/
def Voids (d : Dealing) (egress : Int) (token : String) : Prop :=
  match d.use with
  | .login _ e _ fault x =>
    (fault = none ∧ e ≠ egress) ∨ (d.request.isSome ∧ (x.token?.isSome ∨ x.rejects = true))
  | .move _ => False
  | .fetch _ => (∃ e place,
      d.request = some (e,.mapObjects token place)) ∧ d.failure = some .invalidAuthToken

end Dealing

/-- A token got through an egress, against which nothing speaks since the login that gave it. -/
def Valid (log : List Dealing) (egress : Int) (token : String) : Prop :=
  ∃ before d after, log = before ++ d :: after ∧ d.Grants egress token ∧
    ∀ d' ∈ after, ¬ d'.Voids egress token

def lastPlace (us : List Use) : Coordinate Float :=
  us.foldl (fun place u => match u with
    | .move there => there
    | _ => place) ⟨0.0,0.0⟩

variable {log : List Dealing} {d : Dealing} {egress : Int} {token : String}

theorem not_valid_nil : ¬ Valid [] egress token := by
  rintro ⟨before,d,after,h,_⟩
  simp at h

theorem valid_append_one :
    Valid (log ++ [d]) egress token ↔
      d.Grants egress token ∨ (Valid log egress token ∧ ¬ d.Voids egress token) := by
  constructor
  · rintro ⟨before,g,after,h,hg,ha⟩
    rcases List.eq_nil_or_concat after with rfl | ⟨after,d',rfl⟩
    · obtain ⟨_,hd⟩ := List.append_inj' h rfl
      exact Or.inl ((List.cons.inj hd).1 ▸ hg)
    · rw [List.concat_eq_append] at h ha
      rw [← List.cons_append,← List.append_assoc] at h
      obtain ⟨rfl,hd⟩ := List.append_inj' h rfl
      obtain rfl := (List.cons.inj hd).1
      exact Or.inr ⟨⟨before,g,after,rfl,hg,fun e he => ha e (List.mem_append_left _ he)⟩,
        ha _ (by simp)⟩
  · rintro (hg | ⟨⟨before,g,after,rfl,hg,ha⟩,hd⟩)
    · exact ⟨log,d,[],rfl,hg,by simp⟩
    · refine ⟨before,g,after ++ [d],by simp,hg,fun e he => ?_⟩
      rcases List.mem_append.mp he with he | he
      · exact ha e he
      · exact List.mem_singleton.mp he ▸ hd

/-! ### What a use does to the token -/

namespace Client

variable {c : Client} {i : Identity} {force : Bool} {fault : Option String} {x : Exchange}

def Reaches (c : Client) (egress : Int) (fault : Option String) :
    Prop := c.bound = some egress ∨ fault = none

def Has (c : Client) (egress : Int) (token : String) :
    Prop := c.bound = some egress ∧ c.token = some token

theorem bind_of_bound (h : c.bound = some egress) : c.bind egress = c := if_pos h

theorem bind_of_not_bound (h : c.bound ≠ some egress) :
    c.bind egress = { c with bound := some egress, token := none } := if_neg h

theorem bound_bind (c : Client) (egress : Int) : (c.bind egress).bound = some egress := by
  by_cases h : c.bound = some egress
  · rw [bind_of_bound h,h]
  · rw [bind_of_not_bound h]

theorem token_bind (c : Client) (egress : Int) :
    (c.bind egress).token = some token ↔ c.Has egress token := by
  by_cases h : c.bound = some egress
  · simp [bind_of_bound h,Has,h]
  · simp [bind_of_not_bound h,Has,h]

theorem onLogin_client (c : Client) (x : Exchange) :
    (c.onLogin x).1 = { c with token := if x.rejects then none else x.token?.or c.token } := by
  match x with
  | .unreachable | .faulty _ => rfl
  | .left none => rfl
  | .left (some status) =>
    cases hs : Http.isSuccess status <;> simp [onLogin,Exchange.rejects,Exchange.status?,
      Exchange.token?,hs]
  | .answered status none =>
    cases hs : Http.isSuccess status <;> simp [onLogin,Exchange.rejects,Exchange.status?,
      Exchange.token?,hs]
  | .answered status (some body) =>
    cases hs : Http.isSuccess status
    · simp [onLogin,Exchange.rejects,Exchange.status?,hs]
    · cases ht : tokenOf? body <;> simp [onLogin,Exchange.rejects,Exchange.status?,
        Exchange.token?,hs,ht]

theorem login_cases (c : Client) (i : Identity) (egress : Int) (force : Bool)
    (fault : Option String) (x : Exchange) :
    (¬ c.Reaches egress fault ∧ (c.login i egress force fault x).client = c ∧
      (c.login i egress force fault x).request = none) ∨
    (c.Reaches egress fault ∧ force = false ∧ (∃ token, c.Has egress token) ∧
      c.login i egress force fault x = ⟨c,none,some (.ok ())⟩) ∨
    (c.Reaches egress fault ∧ (force = true ∨ ¬ ∃ token, c.Has egress token) ∧
      (c.login i egress force fault x).client = ((c.bind egress).onLogin x).1 ∧
      (c.login i egress force fault x).request = some (egress,loginRequest i force)) := by
  by_cases hr : c.Reaches egress fault
  · right
    have hf : (if c.bound = some egress then none else fault) = none := by
      rcases hr with h | h <;> simp [h]
    by_cases ht : (c.bind egress).token.isSome ∧ ¬ force
    · left
      obtain ⟨token,hk⟩ := Option.isSome_iff_exists.mp ht.1
      have hc := (token_bind c egress).mp hk
      refine ⟨hr,by simpa using ht.2,⟨token,hc⟩,?_⟩
      simp only [login,hf]
      rw [if_pos ht,bind_of_bound hc.1]
    · right
      refine ⟨hr,?_,?_⟩
      · by_cases hforce : force = true
        · exact Or.inl hforce
        · refine Or.inr fun ⟨token,hc⟩ => ht ⟨?_,hforce⟩
          rw [(token_bind c egress).mpr hc]
          rfl
      · simp only [login,hf]
        rw [if_neg ht]
        exact ⟨rfl,rfl⟩
  · left
    obtain ⟨hb,hf⟩ := not_or.mp hr
    obtain ⟨text,rfl⟩ := Option.ne_none_iff_exists'.mp hf
    refine ⟨hr,?_,?_⟩ <;> simp [login,hb]

theorem onFetch_client (c : Client) (x : Exchange) : (c.onFetch x).1 =
    if failureIn (c.onFetch x).2 = some .invalidAuthToken then { c with token := none } else c := by
  match x with
  | .unreachable | .faulty _ | .left _ => rfl
  | .answered status body =>
    cases hs : Http.isSuccess status
    · simp [onFetch,failureIn,hs]
    · cases hb : body.bind objectsOf? <;> simp [onFetch,failureIn,hs,hb]

theorem fetch_of_has (h : c.Has egress token) (x : Exchange) :
    c.fetch x = ⟨(c.onFetch x).1,some (egress,.mapObjects token c.place),(c.onFetch x).2⟩ := by
  simp only [fetch,h.1,h.2]

theorem fetch_of_not_has (h : ¬ ∃ egress token, c.Has egress token) (x : Exchange) :
    c.fetch x = ⟨c,none,some (.error .invalidAuthToken)⟩ := by
  unfold fetch
  split
  · rename_i egress token hb ht
    exact absurd ⟨egress,token,hb,ht⟩ h
  · rfl

/-- A request for objects carries the token that the client has, through the egress that it is bound
to. -/
theorem fetch_request_iff (c : Client) (x : Exchange) (egress : Int) (r : Request) :
    (c.fetch x).request = some (egress,r) ↔ ∃ token, c.Has egress token ∧
      r = .mapObjects token c.place := by
  by_cases h : ∃ egress token, c.Has egress token
  · obtain ⟨e,t,h⟩ := h
    rw [fetch_of_has h]
    constructor
    · intro hq
      simp only [Option.some.injEq,Prod.mk.injEq] at hq
      exact ⟨t,hq.1 ▸ h,hq.2.symm⟩
    · rintro ⟨token,hk,rfl⟩
      obtain rfl : e = egress := by simpa using h.1.symm.trans hk.1
      obtain rfl : t = token := by simpa using h.2.symm.trans hk.2
      rfl
  · rw [fetch_of_not_has h]
    simp only [reduceCtorEq,false_iff]
    exact fun ⟨token,hk,_⟩ => h ⟨egress,token,hk⟩

/-- A login that is not forced makes no request exactly if a token is at hand, and then it
succeeds. -/
theorem login_request_none (hr : c.Reaches egress fault) (i : Identity) (x : Exchange) :
    ((c.login i egress false fault x).request = none ↔ ∃ token, c.Has egress token) ∧
      ((c.login i egress false fault x).request = none →
        (c.login i egress false fault x).result = some (.ok ())) := by
  rcases c.login_cases i egress false fault x with ⟨hn,_⟩ | ⟨_,_,hk,hl⟩ | ⟨_,hk,_,hq⟩
  · exact absurd hr hn
  · simp [hl,hk]
  · simpa [hq] using hk

theorem has_login (c : Client) (i : Identity) (e : Int) (force : Bool) (fault : Option String)
    (x : Exchange) : (c.deal (.login i e force fault x)).1.Has egress token ↔
      (c.deal (.login i e force fault x)).2.Grants egress token ∨
        (c.Has egress token ∧ ¬ (c.deal (.login i e force fault x)).2.Voids egress token) := by
  simp only [deal,Dealing.Grants,Dealing.Voids]
  rcases c.login_cases i e force fault x with ⟨hr,hc,hq⟩ | ⟨_,_,⟨_,hk⟩,hl⟩ | ⟨hr,_,hc,hq⟩
  · simp [hc,hq,(not_or.mp hr).2]
  · -- a token is at hand, so the egress that is asked for is bound already
    have he : c.Has egress token → e = egress := fun h => by simpa using hk.1.symm.trans h.1
    simp only [hl]
    simpa using fun h _ => he h
  · have he : c.Has egress token → (fault = none → e = egress) → e = egress := fun h hf => by
      rcases hr with hb | hn
      · simpa using hb.symm.trans h.1
      · exact hf hn
    have hb : (c.bind e).token = some token ↔ c.Has e token := c.token_bind e
    rw [hc,hq,onLogin_client]
    cases hx : x.rejects with
    | true => simp [Has,Exchange.token?_of_rejects hx]
    | false =>
      cases ht : x.token? with
      | some given => simp [Has,bound_bind]
      | none =>
        simp only [Has,bound_bind] at hb he ⊢
        grind

theorem has_fetch (c : Client) (x : Exchange) : (c.deal (.fetch x)).1.Has egress token ↔
    (c.deal (.fetch x)).2.Grants egress token ∨
      (c.Has egress token ∧ ¬ (c.deal (.fetch x)).2.Voids egress token) := by
  simp only [deal,Dealing.Grants,Dealing.Voids]
  by_cases h : ∃ egress token, c.Has egress token
  · obtain ⟨e,t,h⟩ := h
    have ht : c.Has egress token → t = token := fun hk => by simpa using h.2.symm.trans hk.2
    rw [fetch_of_has h]
    dsimp only
    rw [onFetch_client]
    by_cases hf : failureIn (c.onFetch x).2 = some .invalidAuthToken
    · simpa [Has,hf] using ht
    · simp [hf]
  · simp [fetch_of_not_has h]

/-- The client has a token after a use if the use grants it, or if it had it and nothing speaks
against it. -/
theorem has_deal (c : Client) (u : Use) : (c.deal u).1.Has egress token ↔
    (c.deal u).2.Grants egress token ∨
    (c.Has egress token ∧ ¬ (c.deal u).2.Voids egress token) := by
  cases u with
  | login i e force fault x => exact c.has_login i e force fault x
  | move place => simp [deal,move,Has,Dealing.Grants,Dealing.Voids]
  | fetch x => exact c.has_fetch x

/-- What a client has is what is valid by all that is known of its uses. -/
theorem has_iff_valid (us : List Use) :
    (({} : Client).after us).Has egress token ↔ Valid (({} : Client).log us) egress token := by
  induction us using List.reverseRecOn with
  | nil => simp [after,log,Has,not_valid_nil]
  | append_singleton us u ih => rw [after_append_one,log_append_one,has_deal,valid_append_one,ih]

theorem place_deal (c : Client) (u : Use) : (c.deal u).1.place = match u with
    | .move there => there
    | _ => c.place := by
  cases u with
  | move place => rfl
  | login i e force fault x =>
    dsimp only [deal]
    rcases c.login_cases i e force fault x with ⟨_,hc,_⟩ | ⟨_,_,_,hl⟩ | ⟨_,_,hc,_⟩
    · rw [hc]
    · rw [hl]
    · rw [hc,onLogin_client]
      unfold bind
      split <;> rfl
  | fetch x =>
    dsimp only [deal]
    by_cases h : ∃ egress token, c.Has egress token
    · obtain ⟨e,t,h⟩ := h
      rw [fetch_of_has h,onFetch_client]
      split <;> rfl
    · rw [fetch_of_not_has h]

theorem place_after (us : List Use) : (({} : Client).after us).place = lastPlace us := by
  induction us using List.reverseRecOn with
  | nil => rfl
  | append_singleton us u ih =>
    rw [after_append_one,place_deal,ih,lastPlace,lastPlace,List.foldl_append]
    rfl

end Client

/-- What a client does next, after a sequence of uses, by the tokens that are valid then. -/
structure Disciplined (us : List Use) (c : Client) (log : List Dealing) : Prop where
  fetch (x : Exchange) (egress : Int) (r : Request) : (c.fetch x).request = some (egress,r) ↔
    ∃ token, Valid log egress token ∧ r = .mapObjects token (lastPlace us)
  refuse (x : Exchange) : (¬ ∃ egress token, Valid log egress token) →
    (c.fetch x).request = none ∧ (c.fetch x).result = some (.error .invalidAuthToken)
  login (i : Identity) (egress : Int) (fault : Option String) (x : Exchange) :
    c.Reaches egress fault →
      ((c.login i egress false fault x).request = none ↔ ∃ token, Valid log egress token) ∧
      ((c.login i egress false fault x).request = none →
        (c.login i egress false fault x).result = some (.ok ()))

/-- Whatever a client was used for before, and whatever became of the exchanges: a request for
objects carries a valid token through the egress that it was got through, and the last place;
without a valid token nothing is sent; and a login that is not forced makes no request exactly if
there is a valid token for its egress. -/
theorem token_discipline (us : List Use) :
    Disciplined us (({} : Client).after us) (({} : Client).log us) := by
  have hv {egress : Int} {token : String} :
      (({} : Client).after us).Has egress token ↔ Valid (({} : Client).log us) egress token :=
    Client.has_iff_valid us
  refine ⟨fun x egress r => ?_,fun x hn => ?_,fun i egress fault x hr => ?_⟩
  · simp only [Client.fetch_request_iff,Client.place_after,hv]
  · simp only [← hv] at hn
    rw [Client.fetch_of_not_has hn]
    exact ⟨rfl,rfl⟩
  · simp only [← hv]
    exact Client.login_request_none hr i x

example :
    let granted : Use := .login ⟨"ash","pikachu","ptc",true,false⟩ 1 false none
      (.answered 200 (some "\x7b\"token\":\"t0k\"\x7d"))
    let refused : Use := .fetch (.answered 401 (some "\x7b\"error\":\"invalid_auth_token\"\x7d"))
    (({} : Client).log [granted,.fetch (.left none),refused,.fetch .unreachable]).map
      (fun d => d.request.map fun r => (r.1,r.2.path)) =
        [some (1,"/login"),some (1,"/map-objects"),some (1,"/map-objects"),none] := by
  decide +kernel

end ScanService.Gateway
