/- A signature scheme and a hash as a program sees them. -/
import Fleet.Lib.Base64

namespace Fleet.Lib

/-- Ed25519 and SHA-256 as the code uses them. `fromPublicBytes` fails with the text
of a `ValueError`; `verify` takes the signature before the data. -/
structure Crypto where
  PublicKey : Type
  PrivateKey : Type
  publicKey : PrivateKey → PublicKey
  fromPublicBytes : Bytes → Except String PublicKey
  sign : PrivateKey → Bytes → Bytes
  verify : PublicKey → Bytes → Bytes → Bool
  sha256 : Bytes → String

/-- The idealisation under which a signature stands for its text: no two data have one
digest, and a signature verifies for nothing but what was signed. -/
structure Crypto.Ideal (C : Crypto) : Prop where
  collisionFree : Function.Injective C.sha256
  correct : ∀ sk m, C.verify (C.publicKey sk) (C.sign sk m) m = true
  unforgeable : ∀ sk m m', C.verify (C.publicKey sk) (C.sign sk m) m' = true → m' = m
  nonempty : ∀ sk m, C.sign sk m ≠ []

theorem Crypto.Ideal.verify_iff {C : Crypto} (ideal : C.Ideal) (sk : C.PrivateKey) (m m' : Bytes) :
    C.verify (C.publicKey sk) (C.sign sk m) m' = true ↔ m' = m := by
  constructor
  · exact ideal.unforgeable sk m m'
  · rintro rfl
    exact ideal.correct sk m'

end Fleet.Lib
