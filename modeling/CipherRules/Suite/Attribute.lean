import CipherRules.Text

/-!
# Suites — Attributes

The attribute families by which cipher suites are classified.  Each family is a finite type whose
constructors stand in ascending order; `all` lists them in that order (`mem_all`), `rank` counts
the values below one, and `label` is how a value is written.
-/

namespace CipherRules

/-- A finite family of attribute values in a fixed order. -/
class Family (α : Type) where
  /-- The values of the family in ascending order. -/
  all : List α
  /-- How a value is written. -/
  label : α → Text
  /-- No value is missing from `all`. -/
  mem_all : ∀ a : α, a ∈ all

namespace Family

variable {α : Type} [DecidableEq α] [Family α]

/-- The number of values of the family below `a`. -/
def rank (a : α) : Nat := (all : List α).idxOf a

/-- Two values of one rank are the same. -/
theorem rank_injective {a b : α} (h : rank a = rank b) : a = b := by
  have ha := List.getElem_idxOf (List.idxOf_lt_length_iff.2 (mem_all a))
  have hb := List.getElem_idxOf (List.idxOf_lt_length_iff.2 (mem_all b))
  simp only [rank] at h
  simp only [h] at ha
  exact ha.symm.trans hb

end Family

/-- Protocol versions, by the one that introduced a suite. -/
inductive Protocol where
  | sslV3 | tlsV1 | tlsV1_2 | tlsV1_3
  deriving DecidableEq

/-- Key exchange algorithms; `any` is one negotiated apart from the suite. -/
inductive KeyExchange where
  | rsa | dhe | ecdhe | psk | any
  deriving DecidableEq

/-- Authentication algorithms; `null` is none at all, `any` one negotiated apart from the suite. -/
inductive Authentication where
  | rsa | dss | ecdsa | psk | null | any
  deriving DecidableEq

/-- Bulk encryption algorithms; `null` is none at all. -/
inductive Encryption where
  | null | rc4 | rc2 | des | tripleDes | idea | seed | aes128 | aes256 | aes128Gcm | aes256Gcm
  | aes128Ccm | chaCha20 | camellia128 | camellia256
  deriving DecidableEq

/-- Message digests; `aead` is integrity given by the cipher itself. -/
inductive Digest where
  | md5 | sha1 | sha256 | sha384 | aead
  deriving DecidableEq

/-- Strength classes, from no confidentiality at all to the strongest. -/
inductive Strength where
  | none | exportGrade | low | medium | high
  deriving DecidableEq

namespace Protocol

/-- Versions are written without a space. -/
def label : Protocol → Text
  | .sslV3   => .of "SSLv3"
  | .tlsV1   => .of "TLSv1"
  | .tlsV1_2 => .of "TLSv1.2"
  | .tlsV1_3 => .of "TLSv1.3"

instance : Family Protocol where
  all := [.sslV3, .tlsV1, .tlsV1_2, .tlsV1_3]
  label := label
  mem_all a := by cases a <;> simp

end Protocol

namespace KeyExchange

/-- Algorithms are written in capitals. -/
def label : KeyExchange → Text
  | .rsa   => .of "RSA"
  | .dhe   => .of "DHE"
  | .ecdhe => .of "ECDHE"
  | .psk   => .of "PSK"
  | .any   => .of "ANY"

instance : Family KeyExchange where
  all := [.rsa, .dhe, .ecdhe, .psk, .any]
  label := label
  mem_all a := by cases a <;> simp

end KeyExchange

namespace Authentication

/-- Algorithms are written in capitals. -/
def label : Authentication → Text
  | .rsa   => .of "RSA"
  | .dss   => .of "DSS"
  | .ecdsa => .of "ECDSA"
  | .psk   => .of "PSK"
  | .null  => .of "NULL"
  | .any   => .of "ANY"

instance : Family Authentication where
  all := [.rsa, .dss, .ecdsa, .psk, .null, .any]
  label := label
  mem_all a := by cases a <;> simp

end Authentication

namespace Encryption

/-- Ciphers are written in capitals, with key length and mode run together. -/
def label : Encryption → Text
  | .null        => .of "NULL"
  | .rc4         => .of "RC4"
  | .rc2         => .of "RC2"
  | .des         => .of "DES"
  | .tripleDes   => .of "3DES"
  | .idea        => .of "IDEA"
  | .seed        => .of "SEED"
  | .aes128      => .of "AES128"
  | .aes256      => .of "AES256"
  | .aes128Gcm   => .of "AES128GCM"
  | .aes256Gcm   => .of "AES256GCM"
  | .aes128Ccm   => .of "AES128CCM"
  | .chaCha20    => .of "CHACHA20"
  | .camellia128 => .of "CAMELLIA128"
  | .camellia256 => .of "CAMELLIA256"

instance : Family Encryption where
  all := [.null, .rc4, .rc2, .des, .tripleDes, .idea, .seed, .aes128, .aes256, .aes128Gcm,
    .aes256Gcm, .aes128Ccm, .chaCha20, .camellia128, .camellia256]
  label := label
  mem_all a := by cases a <;> simp

end Encryption

namespace Digest

/-- Digests are written in capitals. -/
def label : Digest → Text
  | .md5    => .of "MD5"
  | .sha1   => .of "SHA1"
  | .sha256 => .of "SHA256"
  | .sha384 => .of "SHA384"
  | .aead   => .of "AEAD"

instance : Family Digest where
  all := [.md5, .sha1, .sha256, .sha384, .aead]
  label := label
  mem_all a := by cases a <;> simp

end Digest

namespace Strength

/-- Classes are written in capitals. -/
def label : Strength → Text
  | .none        => .of "NONE"
  | .exportGrade => .of "EXPORT"
  | .low         => .of "LOW"
  | .medium      => .of "MEDIUM"
  | .high        => .of "HIGH"

instance : Family Strength where
  all := [.none, .exportGrade, .low, .medium, .high]
  label := label
  mem_all a := by cases a <;> simp

/-- The classes below `medium`. -/
def isWeak (s : Strength) : Bool := Family.rank s < Family.rank Strength.medium

end Strength

/-- The two truth values, for attributes that a suite has or has not. -/
instance : Family Bool where
  all := [false, true]
  label b := if b then .of "true" else .of "false"
  mem_all a := by cases a <;> simp

end CipherRules
