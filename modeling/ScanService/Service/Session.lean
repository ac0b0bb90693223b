import ScanService.Service.Basic
/-! How sessions are built, given back and ended. A failure of the store on the way back is passed
over: the flag it leaves keeps the resource out of service. -/
namespace ScanService.Service

/-- Builds a session: claims an egress, then an identity. Without an identity the egress is given
back. -/
def construct (s : Service) (task : Nat) : Service × Except PoolFailure Session :=
  match s.store.claimEgress with
  | (store,.error e) => ({ s with store },.error (.ofStore e))
  | (store,.ok egress) =>
    match store.claimIdentity with
    | (store,.error e) =>
      ({ s with store := (store.releaseEgress egress.id).1 },.error (.ofStore e))
    | (store,.ok identity) =>
      let session : Session := ⟨s.nextSession,identity,egress⟩
      (({ s with store, nextSession := s.nextSession + 1 }).call task session .create,.ok session)

def release (s : Service) (session : Session) (cooldown : Nat) : Service :=
  { s with pool := s.pool.rest session (s.restEnd cooldown) }

/-- Takes a session out of service: what failed stays claimed and marked, the other resource is
given back. -/
def retire (s : Service) (session : Session) (reason : Retirement) :
    Service × Except StoreFailure Unit :=
  let s := s.observe (.retirement reason.label)
  let r := match reason with
    | .identityBanned => s.store.releaseEgress session.egress.id
    | .egressDead => s.store.releaseIdentity session.identity.name
  ({ s with store := r.1 },r.2)

/-- Claims another egress for a session. The old one is left as it is. -/
def replaceEgress (s : Service) (session : Session) : Service × Except PoolFailure Session :=
  match s.store.claimEgress with
  | (store,.error e) => ({ s with store },.error (.ofStore e))
  | (store,.ok egress) => ({ s with store },.ok { session with egress })

/-- Gives both resources of a session back to the store. -/
def freeSession (s : Service) (session : Session) : Service :=
  { s with
    store := ((s.store.releaseIdentity session.identity.name).1.releaseEgress session.egress.id).1 }

def endSession (s : Service) (session : Session) : Service :=
  (s.note (.drained session)).freeSession session

def drain (s : Service) : Service × Nat :=
  let taken := s.pool.takeAll
  let s := taken.1.foldl endSession { s with pool := taken.2 }
  (s.observe (.parked s.pool.parked),taken.1.length)

def wake (s : Service) (serial : Nat) : Service :=
  let s' := { s with pool := s.pool.wake serial }
  if s.pool.queue.length < s'.pool.queue.length then s'.observe (.parked s'.pool.parked) else s'

/-- The first session that waits for room enters the queue. -/
def enter (s : Service) : Service :=
  let s' := { s with pool := s.pool.enter }
  if s.pool.queue.length < s'.pool.queue.length then s'.observe (.parked s'.pool.parked) else s'

end ScanService.Service
