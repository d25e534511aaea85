import CipherRules.Suite.Attribute

/-!
# Suites

A cipher suite: its two names, its code point and its attributes.
-/

namespace CipherRules

/-- A cipher suite with its classification. -/
structure Suite where
  /-- The standard name, which identifies the suite. -/
  name : Text
  /-- The other name under which the suite is known. -/
  opensslName : Text
  /-- The registered code point. -/
  id : UInt16
  /-- The protocol version that introduced the suite. -/
  protocol : Protocol
  keyExchange : KeyExchange
  authentication : Authentication
  encryption : Encryption
  digest : Digest
  /-- Whether the suite was weakened for export. -/
  exportGrade : Bool
  strength : Strength
  /-- Whether the combination is approved under FIPS 140. -/
  fips : Bool
  /-- The effective length of the bulk key in bits. -/
  keyBits : UInt16
  deriving DecidableEq

namespace Suite

/-- The standard name, then the other one. -/
def names (s : Suite) : List Text := [s.name, s.opensslName]

/-- True of the two names of a suite. -/
def hasName (s : Suite) (n : Text) : Bool := s.name == n || s.opensslName == n

theorem hasName_iff {s : Suite} {n : Text} : s.hasName n = true ↔ n ∈ s.names := by
  simp [hasName, names, @eq_comm _ n]

/-- Names and attributes of a suite on one line. -/
def description (s : Suite) : Text :=
  s.name ++ .of " (" ++ s.opensslName ++ .of ") " ++ s.protocol.label
    ++ .of " Kx=" ++ s.keyExchange.label
    ++ .of " Au=" ++ s.authentication.label
    ++ .of " Enc=" ++ s.encryption.label
    ++ .of " Mac=" ++ s.digest.label
    ++ .of " " ++ s.strength.label
    ++ (if s.exportGrade then Text.of " export" else [])

end Suite

end CipherRules
