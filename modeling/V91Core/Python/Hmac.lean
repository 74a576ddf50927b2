import V91Core.Python.Runtime

namespace V91Core.Python

-- The block size of SHA-256 in bytes.
def hmacBlock : Nat := 64

def hmacKey (rt : Runtime) (secret : Bytes) : Bytes :=
  let key := if secret.length ≤ hmacBlock then secret else (rt.sha256 secret).val
  key ++ List.replicate (hmacBlock - key.length) 0

-- `hmac.new(secret, message, hashlib.sha256).digest()`.
def Runtime.hmac (rt : Runtime) (secret message : Bytes) : Digest :=
  let inner := rt.sha256 ((hmacKey rt secret).map (· ^^^ 0x36) ++ message)
  rt.sha256 ((hmacKey rt secret).map (· ^^^ 0x5C) ++ inner.val)

def Runtime.hmacHex (rt : Runtime) (secret message : Bytes) : PyStr := hexdigest (rt.hmac secret message)

end V91Core.Python
