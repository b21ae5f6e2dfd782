/- The headers that sign the sidecar's requests. -/
import Fleet.Lib.Crypto
import Fleet.Lib.DateTime

namespace Fleet.Agent
open Fleet.Lib

structure SignedHeaders where
  authorization : String
  fleetTimestamp : String

/-- `path` is signed as it is given, its query included when it has one. -/
def signRequest (C : Crypto) (now : Int) (method path : String) (body : Bytes)
    (privateKey : C.PrivateKey) (agentId : String) : SignedHeaders :=
  let timestamp := DateTime.isoformat now
  let bodyHash := C.sha256 body
  let signingString := utf8 s!"{method}\n{path}\n{timestamp}\n{bodyHash}"
  let signature := C.sign privateKey signingString
  let sigB64 := Base64.b64encode signature
  { authorization := s!"Signature {agentId}:{sigB64}", fleetTimestamp := timestamp }

end Fleet.Agent
