import V91Core.ModelRun.Manifest

namespace V91Core.ModelRun

open V91Core.Python

-- A runner after its constructor. The injected callable is not part of it: its
-- answer is an argument of each call.
structure PinnedModelRunner where
  modelDigest : PyStr
  tokenizerDigest : PyStr
  runtimeDigest : PyStr
  seed : Nat
  parameters : List (PyData × PyData)
  precision : PyStr
  backend : PyStr
  emitted : List (PyStr × PyStr)

def runnerError (msg : String) : PyExc := .modelRunnerError (py msg)

def requireDigest (name : String) (value : PyData) : Except PyExc PyStr :=
  match value with
  | .str s =>
      if s.length = 64 ∧ s.all isHexChar then .ok s
      else .error (runnerError (name ++ " must be a 64-character lowercase SHA-256 hex digest"))
  | _ => .error (runnerError (name ++ " must be a 64-character lowercase SHA-256 hex digest"))

structure RunnerArgs where
  callable : Bool
  modelDigest : PyData
  tokenizerDigest : PyData
  runtimeDigest : PyData
  seed : PyData
  parameters : PyData
  precision : PyData
  backend : PyData
  allowNondeterministic : PyData

-- `isinstance(temperature, bool)`, or a number other than zero.
def samplesTemperature : Option PyData → Bool
  | some (.bool _) => true
  | some (.int n) => n ≠ 0
  | some (.float x) => !(PyData.float x).eqInt 0
  | _ => false

def checkDeterministic (parameters : List (PyData × PyData)) : Except PyExc Unit :=
  if samplesTemperature (PyData.get? (py "temperature") parameters) then
    .error (runnerError
      "temperature != 0 makes exact replay unlikely; pass allow_nondeterministic=True to record such runs honestly")
  else if ((PyData.get? (py "do_sample") parameters).getD .none).isTrue then
    .error (runnerError
      "do_sample=True makes exact replay unlikely; pass allow_nondeterministic=True to record such runs honestly")
  else .ok ()

def PinnedModelRunner.init (args : RunnerArgs) : Except PyExc PinnedModelRunner := do
  if !args.callable then .error (runnerError "inference must be a callable accepting bytes and returning bytes")
  let modelDigest ← requireDigest "model_digest" args.modelDigest
  let tokenizerDigest ← requireDigest "tokenizer_digest" args.tokenizerDigest
  let runtimeDigest ← requireDigest "runtime_digest" args.runtimeDigest
  let seed ← requireSeed args.seed (runnerError "seed must be a non-negative integer")
  let parameters ← requireMapping args.parameters (runnerError "parameters must be a mapping")
  let precision ← requireText args.precision (runnerError "precision is required")
  let backend ← requireText args.backend (runnerError "backend is required")
  if !args.allowNondeterministic.truthy then checkDeterministic parameters
  .ok ⟨modelDigest, tokenizerDigest, runtimeDigest, seed, parameters, precision, backend, []⟩

namespace PinnedModelRunner

variable (rt : Runtime) (r : PinnedModelRunner)

-- `run(input_bytes)`, where `answer` is what the callable does with the input.
def run (inputBytes : PyData) (answer : Except PyExc PyData) : Except PyExc RunRecord × PinnedModelRunner :=
  match inputBytes, answer with
  | .bytes input, .ok (.bytes output) =>
      match buildRunManifest rt ⟨.str r.modelDigest, .str r.tokenizerDigest, .str r.runtimeDigest, .bytes input,
        .bytes output, .int r.seed, .dict r.parameters, .str r.precision, .str r.backend⟩ with
      | .ok record => (.ok record, { r with emitted := (record.inputDigest, record.outputDigest) :: r.emitted })
      | .error e => (.error e, r)
  | .bytes _, .ok _ => (.error (runnerError "inference output must be bytes"), r)
  | .bytes _, .error e => (.error e, r)
  | _, _ => (.error (runnerError "input must be bytes"), r)

-- `key in self._emitted`, which hashes both parts of the key first.
def hasEmitted (inputDigest outputDigest : PyData) : Except PyExc Bool := do
  let input ← inputDigest.lookupKey
  let output ← outputDigest.lookupKey
  match input, output with
  | some input, some output => .ok ((input, output) ∈ r.emitted)
  | _, _ => .ok false

def producedHere (manifest : PyData) : Except PyExc Bool :=
  match manifest with
  | .dict entries =>
      match PyData.get? (py "input_digest") entries, PyData.get? (py "output_digest") entries with
      | some input, some output => r.hasEmitted input output
      | _, _ => .error (runnerError "not a run manifest")
  | _ => .error (runnerError "not a run manifest")

def refused : Verdict :=
  ⟨.selfVerificationRefused, py ("both records were produced by this runner; " ++
    "a runner cannot verify itself - an independent node must produce the replay")⟩

def verifyIndependentReplay (reference replay : PyData) : Except PyExc Verdict := do
  let own ← r.producedHere reference
  let ownReplay ← if own then r.producedHere replay else .ok false
  if own && ownReplay then .ok refused else verifyExactReplay rt reference replay

end PinnedModelRunner

end V91Core.ModelRun
