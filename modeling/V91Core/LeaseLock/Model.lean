import V91Core.Python.Numeric
import Mathlib.Logic.Function.Basic

namespace V91Core.LeaseLock

open V91Core.Python

structure Lease where
  lockId : PyStr
  holderId : PyStr
  fencingToken : Int
  expiresAt : PyNum
deriving DecidableEq

def Lease.isExpired (lease : Lease) (now : PyNum) : Bool := lease.expiresAt.le now

-- A lock without an entry in `_last_token` has the token 0.
structure LeaseLockManager where
  leases : PyStr → Option Lease
  lastToken : PyStr → Int

def LeaseLockManager.init : LeaseLockManager := ⟨fun _ => none, fun _ => 0⟩

-- The arguments that the code checks may be any values, the others have their
-- annotated types.
def requireId (name : String) : Json → Except PyExc PyStr
  | .str s =>
      if strip s = [] then .error (.leaseLockError (py name ++ py " must be a non-empty string")) else .ok s
  | _ => .error (.leaseLockError (py name ++ py " must be a non-empty string"))

def requireDuration (duration : Json) : Except PyExc PyNum :=
  match PyNum.ofJson duration with
  | some seconds =>
      if seconds.le (.int 0) then
        .error (.leaseLockError (py "duration must be a positive number of seconds"))
      else .ok seconds
  | none => .error (.leaseLockError (py "duration must be a positive number of seconds"))

def requireIds (lockId holderId : Json) : Except PyExc (PyStr × PyStr) := do
  let lock ← requireId "lock_id" lockId
  let holder ← requireId "holder_id" holderId
  .ok (lock, holder)

def requireRequest (lockId holderId duration : Json) : Except PyExc (PyStr × PyStr × PyNum) := do
  let (lock, holder) ← requireIds lockId holderId
  let seconds ← requireDuration duration
  .ok (lock, holder, seconds)

namespace LeaseLockManager

-- `current is not None and not current.is_expired(now)`.
def held (m : LeaseLockManager) (lock : PyStr) (now : PyNum) : Bool :=
  match m.leases lock with
  | some current => !current.isExpired now
  | none => false

-- `lease.holder_id == holder_id and lease.fencing_token == fencing_token`.
def matchingLease (m : LeaseLockManager) (lock holder : PyStr) (token : Int) : Option Lease :=
  (m.leases lock).filter fun lease => lease.holderId = holder ∧ lease.fencingToken = token

def setLease (m : LeaseLockManager) (lock : PyStr) (lease : Option Lease) : LeaseLockManager :=
  { m with leases := Function.update m.leases lock lease }

def setLastToken (m : LeaseLockManager) (lock : PyStr) (token : Int) : LeaseLockManager :=
  { m with lastToken := Function.update m.lastToken lock token }

-- The token is counted before `now + duration`, which may raise.
def acquire (m : LeaseLockManager) (lockId holderId duration : Json) (now : PyNum) :
    Except PyExc (Option Lease) × LeaseLockManager :=
  match requireRequest lockId holderId duration with
  | .error e => (.error e, m)
  | .ok (lock, holder, seconds) =>
      if m.held lock now then (.ok none, m)
      else
        let token := m.lastToken lock + 1
        match now.add seconds with
        | .error e => (.error e, m.setLastToken lock token)
        | .ok expiresAt =>
            let lease : Lease := ⟨lock, holder, token, expiresAt⟩
            (.ok (some lease), (m.setLastToken lock token).setLease lock (some lease))

def renew (m : LeaseLockManager) (lockId holderId : Json) (token : Int) (duration : Json) (now : PyNum) :
    Except PyExc Lease × LeaseLockManager :=
  match requireRequest lockId holderId duration with
  | .error e => (.error e, m)
  | .ok (lock, holder, seconds) =>
      match m.matchingLease lock holder token with
      | none =>
          (.error (.leaseLockError
            (py "only the current lease holder with the matching fencing token can renew")), m)
      | some lease =>
          if lease.isExpired now then
            (.error (.leaseLockError (py "lease already expired; renew refused (fail-closed)")), m)
          else
            match now.add seconds with
            | .error e => (.error e, m)
            | .ok expiresAt =>
                let renewed : Lease := ⟨lock, holder, token, expiresAt⟩
                (.ok renewed, m.setLease lock (some renewed))

def release (m : LeaseLockManager) (lockId holderId : Json) (token : Int) :
    Except PyExc Unit × LeaseLockManager :=
  match requireIds lockId holderId with
  | .error e => (.error e, m)
  | .ok (lock, holder) =>
      if m.leases lock = none then (.error (.leaseLockError (py "no lease held for this lock")), m)
      else if m.matchingLease lock holder token = none then
        (.error (.leaseLockError
          (py "only the current lease holder with the matching fencing token can release")), m)
      else (.ok (), m.setLease lock none)

def validateAction (m : LeaseLockManager) (lock holder : PyStr) (token : Int) (now : PyNum) : Bool :=
  match m.matchingLease lock holder token with
  | none => false
  | some lease => !lease.isExpired now

def isFenced (m : LeaseLockManager) (lock : PyStr) (token : Int) : Bool := token < m.lastToken lock

end LeaseLockManager

-- One call of a public method, with the clock reading that the method takes.
inductive Request where
  | acquire (lockId holderId duration : Json) (now : PyNum)
  | renew (lockId holderId : Json) (token : Int) (duration : Json) (now : PyNum)
  | release (lockId holderId : Json) (token : Int)
  | validateAction (lock holder : PyStr) (token : Int) (now : PyNum)
  | isFenced (lock : PyStr) (token : Int)

inductive Answer where
  | acquired (lease : Option Lease)
  | renewed (lease : Lease)
  | released
  | truth (b : Bool)
deriving DecidableEq

def Request.lockId : Request → Json
  | .acquire lockId _ _ _ | .renew lockId _ _ _ _ | .release lockId _ _ => lockId
  | .validateAction lock _ _ _ | .isFenced lock _ => .str lock

def call (m : LeaseLockManager) : Request → Except PyExc Answer × LeaseLockManager
  | .acquire lockId holderId duration now => (m.acquire lockId holderId duration now).map (·.map .acquired) id
  | .renew lockId holderId token duration now =>
      (m.renew lockId holderId token duration now).map (·.map .renewed) id
  | .release lockId holderId token => (m.release lockId holderId token).map (·.map fun _ => .released) id
  | .validateAction lock holder token now => (.ok (.truth (m.validateAction lock holder token now)), m)
  | .isFenced lock token => (.ok (.truth (m.isFenced lock token)), m)

def step (m : LeaseLockManager) (r : Request) : LeaseLockManager := (call m r).2

-- The lease that a successful `acquire` of this lock returns.
def grantOf (lock : PyStr) (m : LeaseLockManager) (r : Request) : Option Lease :=
  match (call m r).1 with
  | .ok (.acquired lease) => lease.filter fun lease => lease.lockId = lock
  | _ => none

end V91Core.LeaseLock
