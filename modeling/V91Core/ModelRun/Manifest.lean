import V91Core.Python.Data

namespace V91Core.ModelRun

open V91Core.Python

-- What a valid run record says.
structure RunRecord where
  modelDigest : PyStr
  tokenizerDigest : PyStr
  runtimeDigest : PyStr
  inputDigest : PyStr
  outputDigest : PyStr
  settings : List (PyData × PyData)
  settingsDigest : PyStr
  seed : Nat
  precision : PyStr
  backend : PyStr

def completed : PyStr := py "COMPLETED_UNVERIFIED"

-- The record as the dict that `build_run_manifest` returns.
def RunRecord.entries (r : RunRecord) : List (PyData × PyData) :=
  [(.str (py "schema_version"), .int 1), (.str (py "model_digest"), .str r.modelDigest),
    (.str (py "tokenizer_digest"), .str r.tokenizerDigest), (.str (py "runtime_digest"), .str r.runtimeDigest),
    (.str (py "input_digest"), .str r.inputDigest), (.str (py "output_digest"), .str r.outputDigest),
    (.str (py "settings"), .dict r.settings), (.str (py "settings_digest"), .str r.settingsDigest),
    (.str (py "seed"), .int r.seed), (.str (py "precision"), .str r.precision),
    (.str (py "backend"), .str r.backend), (.str (py "status"), .str completed)]

section Checks

variable (rt : Runtime)

def manifestError (msg : String) : PyExc := .modelRunManifestError (py msg)

def sha256Bytes : PyData → Except PyExc PyStr
  | .bytes data => .ok (rt.sha256Hex data)
  | _ => .error (manifestError "artifact content must be bytes")

-- `sort_keys=True, separators=(",", ":"), ensure_ascii=False, allow_nan=False`.
def strictStyle : Json.Style := ⟨false, true, false, false⟩

-- `TypeError` and `ValueError` are caught. `RecursionError` is neither of them.
def canonicalJson (value : PyData) : Except PyExc Bytes :=
  match value.dumps rt strictStyle >>= encodeUtf8 with
  | .ok bytes => .ok bytes
  | .error e =>
      if e.isTypeError || e.isValueError then .error (manifestError "settings must be finite JSON-compatible data")
      else .error e

def validateDigest (name : String) (value : PyData) : Except PyExc PyStr :=
  match value with
  | .str s =>
      if s.length ≠ 64 then .error (manifestError (name ++ " must be a 64-character SHA-256 hex digest"))
      else if s.all isHexChar then .ok s
      else .error (manifestError (name ++ " must be lowercase hexadecimal"))
  | _ => .error (manifestError (name ++ " must be a 64-character SHA-256 hex digest"))

def requireSeed (value : PyData) (e : PyExc) : Except PyExc Nat :=
  match value with
  | .int n => if n < 0 then .error e else .ok n.toNat
  | _ => .error e

def requireText (value : PyData) (e : PyExc) : Except PyExc PyStr := ofOption e value.nonBlank?

def requireMapping (value : PyData) (e : PyExc) : Except PyExc (List (PyData × PyData)) :=
  match value with
  | .dict entries => .ok entries
  | _ => .error e

def checkManifest (ok : Bool) (msg : String) : Except PyExc Unit :=
  if ok then .ok () else .error (manifestError msg)

end Checks

-- The keyword arguments of `build_run_manifest`.
structure RunArgs where
  modelDigest : PyData
  tokenizerDigest : PyData
  runtimeDigest : PyData
  inputBytes : PyData
  outputBytes : PyData
  seed : PyData
  parameters : PyData
  precision : PyData
  backend : PyData

section Model

variable (rt : Runtime)

def buildRunManifest (args : RunArgs) : Except PyExc RunRecord := do
  let modelDigest ← validateDigest "model_digest" args.modelDigest
  let tokenizerDigest ← validateDigest "tokenizer_digest" args.tokenizerDigest
  let runtimeDigest ← validateDigest "runtime_digest" args.runtimeDigest
  let seed ← requireSeed args.seed (manifestError "seed must be a non-negative integer")
  let settings ← requireMapping args.parameters (manifestError "parameters must be a mapping")
  let precision ← requireText args.precision (manifestError "precision is required")
  let backend ← requireText args.backend (manifestError "backend is required")
  let text ← canonicalJson rt (.dict settings)
  let inputDigest ← sha256Bytes rt args.inputBytes
  let outputDigest ← sha256Bytes rt args.outputBytes
  .ok ⟨modelDigest, tokenizerDigest, runtimeDigest, inputDigest, outputDigest, settings, rt.sha256Hex text, seed,
    precision, backend⟩

def required : List PyStr :=
  [py "schema_version", py "model_digest", py "tokenizer_digest", py "runtime_digest", py "input_digest",
    py "output_digest", py "settings_digest", py "settings", py "seed", py "precision", py "backend", py "status"]

-- `set(manifest) == required`.
def hasRequired (entries : List (PyData × PyData)) : Bool :=
  entries.all (fun entry => required.any fun key => entry.1.isStr key) &&
    required.all fun key => (PyData.get? key entries).isSome

-- `manifest[key]` of a key that is there.
def manifestField (entries : List (PyData × PyData)) (key : String) : PyData :=
  (PyData.get? (py key) entries).getD .none

def validateRunManifest (manifest : PyData) : Except PyExc RunRecord := do
  let entries ← requireMapping manifest (manifestError "manifest must be a mapping")
  checkManifest (hasRequired entries) "manifest fields do not match schema"
  let version := manifestField entries "schema_version"
  checkManifest (!version.isBool && version.eqInt 1) "unsupported schema version"
  let modelDigest ← validateDigest "model_digest" (manifestField entries "model_digest")
  let tokenizerDigest ← validateDigest "tokenizer_digest" (manifestField entries "tokenizer_digest")
  let runtimeDigest ← validateDigest "runtime_digest" (manifestField entries "runtime_digest")
  let inputDigest ← validateDigest "input_digest" (manifestField entries "input_digest")
  let outputDigest ← validateDigest "output_digest" (manifestField entries "output_digest")
  let settingsDigest ← validateDigest "settings_digest" (manifestField entries "settings_digest")
  let settings ← requireMapping (manifestField entries "settings") (manifestError "settings must be a mapping")
  let text ← canonicalJson rt (.dict settings)
  checkManifest (rt.sha256Hex text = settingsDigest) "settings digest mismatch"
  let seed ← requireSeed (manifestField entries "seed") (manifestError "invalid seed")
  let precision ← requireText (manifestField entries "precision") (manifestError "invalid precision")
  let backend ← requireText (manifestField entries "backend") (manifestError "invalid backend")
  checkManifest ((manifestField entries "status").isStr completed)
    "only completed, unverified run records can be replay-compared"
  .ok ⟨modelDigest, tokenizerDigest, runtimeDigest, inputDigest, outputDigest, settings, settingsDigest, seed,
    precision, backend⟩

-- The value of a field that two records are compared by.
inductive Condition where
  | text (s : PyStr)
  | number (n : Nat)
deriving DecidableEq

-- The values of `_CONDITION_FIELDS`, which are strings and an int in a valid record.
def RunRecord.conditions (r : RunRecord) : List (String × Condition) :=
  [("model_digest", .text r.modelDigest), ("tokenizer_digest", .text r.tokenizerDigest),
    ("runtime_digest", .text r.runtimeDigest), ("input_digest", .text r.inputDigest),
    ("settings_digest", .text r.settingsDigest), ("seed", .number r.seed), ("precision", .text r.precision),
    ("backend", .text r.backend)]

inductive VerdictStatus where
  | selfVerificationRefused
  | conditionsMismatch
  | verifiedExact
  | nondeterministic
deriving DecidableEq

def VerdictStatus.text : VerdictStatus → PyStr
  | .selfVerificationRefused => py "SELF_VERIFICATION_REFUSED"
  | .conditionsMismatch => py "CONDITIONS_MISMATCH"
  | .verifiedExact => py "VERIFIED_EXACT"
  | .nondeterministic => py "NONDETERMINISTIC"

structure Verdict where
  status : VerdictStatus
  reason : PyStr
deriving DecidableEq

-- The first field in which the conditions of two records differ.
def firstDifference (a b : RunRecord) : Option String :=
  ((a.conditions.zip b.conditions).find? fun p => p.1.2 ≠ p.2.2).map fun p => p.1.1

def compareRecords (a b : RunRecord) : Verdict :=
  match firstDifference a b with
  | some field => ⟨.conditionsMismatch, py ("execution condition differs: " ++ field)⟩
  | none =>
      if a.outputDigest = b.outputDigest then
        ⟨.verifiedExact, py "canonical output digests match under pinned conditions"⟩
      else ⟨.nondeterministic, py "output digests differ under matching recorded conditions"⟩

def verifyExactReplay (reference replay : PyData) : Except PyExc Verdict := do
  let a ← validateRunManifest rt reference
  let b ← validateRunManifest rt replay
  .ok (compareRecords a b)

end Model

end V91Core.ModelRun
