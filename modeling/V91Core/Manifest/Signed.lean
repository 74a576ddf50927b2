import V91Core.Python.DateTime
import V91Core.Store.CryptoReceipts

namespace V91Core.Manifest

open V91Core.Python V91Core.Store

def requiredTopLevel : List PyStr :=
  [py "schema_version", py "node_id", py "key_id", py "software_version", py "issued_at", py "expires_at",
    py "resources", py "contributions", py "policy_version"]

def requiredResources : List PyStr :=
  [py "cpu_cores_available", py "ram_mb_available", py "vram_mb_available", py "disk_mb_available"]

def requiredContributions : List PyStr :=
  [py "compute", py "verification", py "encrypted_storage", py "metadata_index"]

def textFields : List PyStr := [py "node_id", py "key_id", py "software_version", py "policy_version"]

def signatureKey : PyStr := py "signature"

def signatureAlgorithm : PyStr := py "Ed25519"

def invalid (msg : PyStr) : Except PyExc α := .error (.manifestError msg)

def ensure (ok : Bool) (msg : PyStr) : Except PyExc Unit := if ok then .ok () else invalid msg

-- The first key that does not pass is reported.
def ensureAll (keys : List PyStr) (ok : PyStr → Bool) (msg : PyStr → PyStr) : Except PyExc Unit :=
  match keys.find? fun key => !ok key with
  | some key => invalid (msg key)
  | none => .ok ()

-- `entries[key]` for a key that is there.
def fieldOf (entries : List (PyData × PyData)) (key : PyStr) : PyData := (PyData.get? key entries).getD .none

section Validation

variable (rt : Runtime)

def namesText (names : List PyStr) : PyStr := Json.repr rt.printable (.arr (names.map .str))

-- `value.replace("Z", "+00:00")`.
def replaceZulu (text : PyStr) : PyStr := text.flatMap fun c => if c = cp 'Z' then py "+00:00" else [c]

-- `_parse_instant`, whose result is the instant in microseconds. Aware datetimes
-- compare as instants.
def parseInstant : PyData → Except PyExc Int
  | .str text =>
      match fromIsoFormat (replaceZulu text) with
      | none => invalid (py "unparsable timestamp: " ++ Json.reprStr rt.printable text)
      | some ⟨_, none⟩ =>
          invalid (py "naive timestamp rejected (timezone required): " ++ Json.reprStr rt.printable text)
      | some ⟨wall, some offset⟩ => .ok (wall - offset)
  | _ => invalid (py "timestamp must be an ISO-8601 string")

-- The message shows the `repr` of the value, which may raise.
def checkVersion (value : PyData) : Except PyExc Unit :=
  if value.eqInt 1 then .ok ()
  else do
    let text ← value.repr rt
    invalid (py "unsupported schema_version: " ++ text)

-- A number that is not negative, and no bool.
def isAmount (value : PyData) : Bool :=
  match value.number? with
  | some n => !n.lt (.int 0)
  | none => false

-- A dict with all of these keys, whose values pass the check.
def checkGroup (name : PyStr) (required : List PyStr) (ok : PyData → Bool) (expected : PyStr) :
    PyData → Except PyExc Unit
  | .dict entries => do
      ensure (required.all fun key => (PyData.get? key entries).isSome)
        (name ++ py " must contain all of " ++ namesText rt required)
      ensureAll required (fun key => ok (fieldOf entries key))
        fun key => name ++ cp '.' :: key ++ py " must be a " ++ expected
  | _ => invalid (name ++ py " must contain all of " ++ namesText rt required)

def checkResources : PyData → Except PyExc Unit :=
  checkGroup rt (py "resources") requiredResources isAmount (py "non-negative number")

def checkContributions : PyData → Except PyExc Unit :=
  checkGroup rt (py "contributions") requiredContributions PyData.isBool (py "boolean")

def validateStructure (entries : List (PyData × PyData)) : Except PyExc Unit := do
  let missing := requiredTopLevel.filter fun key => (PyData.get? key entries).isNone
  ensure missing.isEmpty (py "manifest is missing required fields: " ++ namesText rt missing)
  checkVersion rt (fieldOf entries (py "schema_version"))
  ensureAll textFields (fun key => (fieldOf entries key).nonBlank?.isSome)
    fun key => key ++ py " must be a non-empty string"
  let _ ← parseInstant rt (fieldOf entries (py "issued_at"))
  let _ ← parseInstant rt (fieldOf entries (py "expires_at"))
  checkResources rt (fieldOf entries (py "resources"))
  checkContributions rt (fieldOf entries (py "contributions"))

end Validation

section Signing

variable (rt : Runtime) (ed : Ed25519)

def signingKey : PyData → Except PyExc Bytes
  | .bytes key => if key.length = 32 then .ok key else invalid (py "private signing key must be raw 32 bytes")
  | _ => invalid (py "private signing key must be raw 32 bytes")

def signatureObject (signature : Bytes) : PyData :=
  .dict [(.str (py "algorithm"), .str signatureAlgorithm), (.str (py "value"), .str (bytesHex signature))]

def signManifest (manifest privateKey : PyData) : Except PyExc (List (PyData × PyData)) :=
  match manifest with
  | .dict entries =>
      if (PyData.get? signatureKey entries).isSome then invalid (py "manifest already carries a signature")
      else do
        validateStructure rt entries
        let key ← signingKey privateKey
        let message ← canonicalRecordBytes rt entries
        .ok (PyData.insert signatureKey (signatureObject (ed.sign key message)) entries)
  | _ => invalid (py "manifest must be a dict")

end Signing

section Verification

variable (rt : Runtime) (ed : Ed25519)

-- The text of the signature, or why there is none.
def readSignature : PyData → Except PyStr PyStr
  | .dict entries =>
      if (fieldOf entries (py "algorithm")).isStr signatureAlgorithm then
        match fieldOf entries (py "value") with
        | .str value => if value.length = 128 then .ok value else .error (py "malformed signature value")
        | _ => .error (py "malformed signature value")
      else .error (py "unsupported or missing signature algorithm")
  | _ => .error (py "unsupported or missing signature algorithm")

-- The `try` block around the library, all of whose exceptions are caught.
def checkSignatureValue (unsigned : List (PyData × PyData)) (value : PyStr) (publicKey : PyData) :
    Except PyExc Bool := do
  let key ← match publicKey with
    | .bytes key =>
        if key.length = 32 then .ok key else .error (.valueError (py "An Ed25519 public key is 32 bytes long"))
    | _ => .error .typeError
  let signature ← ofOption (.valueError (py "non-hexadecimal number found in fromhex() arg")) (fromHex value)
  let message ← canonicalRecordBytes rt unsigned
  .ok (ed.verify key signature message)

-- `ids and value in ids`, for a set of texts or `None`.
def isRevoked (ids : Option (List PyStr)) (value : PyData) : Except PyExc Bool :=
  match ids with
  | none | some [] => .ok false
  | some ids => value.lookupKey.map fun key => key.any (· ∈ ids)

-- The part of `verify_manifest` after the signature.
def checkFreshness (entries : List (PyData × PyData)) (now : PyData)
    (revokedNodeIds revokedKeyIds : Option (List PyStr)) : Except PyExc (Bool × PyStr) := do
  let now ← parseInstant rt now
  let issued ← parseInstant rt (fieldOf entries (py "issued_at"))
  let expires ← parseInstant rt (fieldOf entries (py "expires_at"))
  if now < issued then .ok (false, py "manifest not yet valid (issued_at in the future)")
  else if expires < now then .ok (false, py "manifest expired")
  else
    let nodeId := fieldOf entries (py "node_id")
    let keyId := fieldOf entries (py "key_id")
    let nodeRevoked ← isRevoked revokedNodeIds nodeId
    if nodeRevoked then
      let text ← nodeId.toStr rt
      .ok (false, py "node_id revoked: " ++ text)
    else
      let keyRevoked ← isRevoked revokedKeyIds keyId
      if keyRevoked then
        let text ← keyId.toStr rt
        .ok (false, py "key_id revoked: " ++ text)
      else .ok (true, py "signed, fresh, unrevoked advertisement " ++
        py "(no resource existence proof, no authorization)")

-- A structural failure is caught only if it is a `ManifestError`.
def verifyManifest (signedManifest publicKey now : PyData) (revokedNodeIds revokedKeyIds : Option (List PyStr)) :
    Except PyExc (Bool × PyStr) :=
  match signedManifest with
  | .dict entries =>
      match PyData.get? signatureKey entries with
      | none => .ok (false, py "manifest carries no signature")
      | some signature =>
          match readSignature signature with
          | .error reason => .ok (false, reason)
          | .ok value =>
              let unsigned := PyData.erase signatureKey entries
              match validateStructure rt unsigned with
              | .error (.manifestError msg) => .ok (false, py "structural validation failed: " ++ msg)
              | .error e => .error e
              | .ok () =>
                  match checkSignatureValue rt ed unsigned value publicKey with
                  | .ok true => checkFreshness rt entries now revokedNodeIds revokedKeyIds
                  | _ => .ok (false, py "signature verification failed")
  | _ => .ok (false, py "manifest must be a dict")

end Verification

end V91Core.Manifest
