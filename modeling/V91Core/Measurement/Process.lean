import V91Core.Effect.Pool
import V91Core.Measurement.Model

namespace V91Core.Measurement

open V91Core.Python V91Core.Effect

-- What `append_snapshot` asks of the operating system.
inductive FileOp where
  | makeParent
  | createLock
  | utcNow
  | writeLock (text : Bytes)
  | syncLock
  | ledgerExists
  | readLedger
  | openLedger
  | writeLine (line : Bytes)
  | syncLedger
  | closeLedger
  | closeLock
  | unlinkLock

abbrev FileOp.Res : FileOp → Type
  | .utcNow => PyStr
  | .ledgerExists => Bool
  | .readLedger => Bytes
  | _ => Unit

abbrev Action := Prog FileOp FileOp.Res PyExc

abbrev perform (op : FileOp) : Action op.Res := Prog.perform op

structure Appended where
  sequence : Nat
  eventHash : PyStr
deriving DecidableEq

def lockExists : PyExc :=
  .measurementError (py "Ledger lock exists; inspect it manually before retrying")

-- `os.open` with `O_CREAT | O_EXCL`.
def acquireLock : Action Unit :=
  Prog.catching (fun e => if e = .fileExists then .raise lockExists else .raise e) (perform .createLock)

-- The `finally` block.
def releaseLock : Action Unit := do
  perform .closeLock
  Prog.catching (fun e => if e = .fileNotFound then .ret () else .raise e) (perform .unlinkLock)

-- `verify_ledger`.
def verifyFile (rt : Runtime) : Action LedgerState := do
  let present : Bool ← perform .ledgerExists
  if present then
    let content : Bytes ← Prog.catching (fun e => .raise (readError e)) (perform .readLedger)
    Prog.ofExcept (verifyContent rt content)
  else Prog.ret ⟨.emptyLedger, 0, genesis⟩

-- The record is serialised after the file has been opened.
def writeRecord (rt : Runtime) (record : Json) : Action Unit := do
  perform .openLedger
  Prog.finishing (perform .closeLedger) do
    let line ← Prog.ofExcept (recordLine (rt.below 1) record)
    perform (.writeLine line)
    perform .syncLedger

-- The `try` block. `verify_ledger` and `canonical_json` have frames of their own.
def lockedAppend (rt : Runtime) (pid : Nat) (snapshot : Json) : Action Appended := do
  let now : PyStr ← perform .utcNow
  let text ← Prog.ofExcept (encodeUtf8 (py "pid=" ++ natText pid ++ py " time=" ++ now ++ [cp '\n']))
  perform (.writeLock text)
  perform .syncLock
  let state ← verifyFile (rt.below 1)
  let recordedAt : PyStr ← perform .utcNow
  let payload := payloadFields state recordedAt snapshot
  let digest ← Prog.ofExcept (eventHash rt state.lastHash (.obj payload))
  writeRecord rt (.obj (recordFields payload digest))
  return ⟨state.events + 1, digest⟩

def appendSnapshot (rt : Runtime) (pid : Nat) (snapshot : Json) : Action Appended := do
  perform .makeParent
  acquireLock
  Prog.finishing releaseLock (lockedAppend rt pid snapshot)

-- The files that the processes share. `lock` names the process that created the
-- lock file. `inside` and `writers` record who is between lock and unlock and who
-- wrote each line; no process reads them.
structure Shared (ι : Type) where
  ledger : Option Bytes
  lock : Option ι
  inside : List ι
  writers : List ι

variable {ι : Type}

variable [DecidableEq ι]

-- Every operation may fail and then changes nothing, but a failed write may have
-- written its line.
inductive Exec (i : ι) : Shared ι → (op : FileOp) → Except PyExc op.Res → Shared ι → Prop
  | fails (s : Shared ι) (op : FileOp) (e : PyExc) : Exec i s op (.error e) s
  | makeParent (s : Shared ι) : Exec i s .makeParent (.ok ()) s
  | createLock (s : Shared ι) (hlock : s.lock = none) :
      Exec i s .createLock (.ok ()) { s with lock := some i, inside := i :: s.inside }
  | utcNow (s : Shared ι) (now : PyStr) : Exec i s .utcNow (.ok now) s
  | writeLock (s : Shared ι) (text : Bytes) : Exec i s (.writeLock text) (.ok ()) s
  | syncLock (s : Shared ι) : Exec i s .syncLock (.ok ()) s
  | ledgerExists (s : Shared ι) : Exec i s .ledgerExists (.ok s.ledger.isSome) s
  | readLedger (s : Shared ι) (content : Bytes) (hledger : s.ledger = some content) :
      Exec i s .readLedger (.ok content) s
  | openLedger (s : Shared ι) : Exec i s .openLedger (.ok ()) { s with ledger := some (s.ledger.getD []) }
  | writeLine (s : Shared ι) (line : Bytes) (r : Except PyExc Unit) :
      Exec i s (.writeLine line) r
        { s with ledger := some (s.ledger.getD [] ++ line), writers := s.writers ++ [i] }
  | syncLedger (s : Shared ι) : Exec i s .syncLedger (.ok ()) s
  | closeLedger (s : Shared ι) : Exec i s .closeLedger (.ok ()) s
  | closeLock (s : Shared ι) : Exec i s .closeLock (.ok ()) s
  | unlinkLock (s : Shared ι) (j : ι) (hlock : s.lock = some j) :
      Exec i s .unlinkLock (.ok ()) { s with lock := none, inside := s.inside.erase i }

-- The operations that touch neither the ledger nor the lock file's existence.
def FileOp.quiet : FileOp → Bool
  | .createLock | .openLedger | .writeLine _ | .unlinkLock => false
  | _ => true

theorem Exec.quiet_eq (i : ι) (op : FileOp) (hop : op.quiet = true) (s : Shared ι) (r : Except PyExc op.Res)
    (s' : Shared ι) (h : Exec i s op r s') : s' = s := by
  cases h <;> first | rfl | cases hop

def system : System ι (Shared ι) FileOp FileOp.Res PyExc where
  exec := Exec
  env _ _ := False

-- One call of `append_snapshot` for each process, on a missing ledger.
def start (rt : Runtime) (pid : ι → Nat) (snapshot : ι → Json.Dict) :
    Pool ι (Shared ι) FileOp FileOp.Res PyExc Appended :=
  ⟨⟨none, none, [], []⟩, fun i => appendSnapshot rt (pid i) (snapshot i).json⟩

-- Every operation succeeds whenever it can.
def handler : Handler (system (ι := ι)) where
  run i s
    | .makeParent => (.ok (), s)
    | .createLock =>
        match s.lock with
        | none => (.ok (), { s with lock := some i, inside := i :: s.inside })
        | some _ => (.error .fileExists, s)
    | .utcNow => (.ok (py "2026-01-01T00:00:00.000Z"), s)
    | .writeLock _ => (.ok (), s)
    | .syncLock => (.ok (), s)
    | .ledgerExists => (.ok s.ledger.isSome, s)
    | .readLedger =>
        match s.ledger with
        | none => (.error .fileNotFound, s)
        | some content => (.ok content, s)
    | .openLedger => (.ok (), { s with ledger := some (s.ledger.getD []) })
    | .writeLine line =>
        (.ok (), { s with ledger := some (s.ledger.getD [] ++ line), writers := s.writers ++ [i] })
    | .syncLedger => (.ok (), s)
    | .closeLedger => (.ok (), s)
    | .closeLock => (.ok (), s)
    | .unlinkLock =>
        match s.lock with
        | none => (.error .fileNotFound, s)
        | some _ => (.ok (), { s with lock := none, inside := s.inside.erase i })
  sound i s op := by
    cases op with
    | createLock =>
        cases hlock : s.lock with
        | none => simpa [system, hlock] using Exec.createLock (i := i) s hlock
        | some j => simpa [system, hlock] using Exec.fails (i := i) s .createLock .fileExists
    | readLedger =>
        cases hledger : s.ledger with
        | none => simpa [system, hledger] using Exec.fails (i := i) s .readLedger .fileNotFound
        | some content => simpa [system, hledger] using Exec.readLedger (i := i) s content hledger
    | unlinkLock =>
        cases hlock : s.lock with
        | none => simpa [system, hlock] using Exec.fails (i := i) s .unlinkLock .fileNotFound
        | some j => simpa [system, hlock] using Exec.unlinkLock (i := i) s j hlock
    | writeLine line => exact .writeLine s line (.ok ())
    | _ => constructor

end V91Core.Measurement
