import CipherRules.Predicate

/-!
# Keywords

The words of a rule string that stand for a class of suites.  A keyword has one meaning
(`Keyword.meaning?`); of several keywords with one meaning the first in the table is canonical
(`Keyword.spelling?`), and aliases stand after the canonical spelling.  Any other term must look
like the name of a suite (`looksLikeSuiteName`).
-/

namespace CipherRules

namespace Keyword

/-- What a sensible default leaves out: anonymous, unencrypted and weak suites, and RC4. -/
def complementOfDefault : Predicate :=
  .or (.or (.or (.authentication [.null]) (.encryption [.null]))
    (.strength [.none, .exportGrade, .low])) (.encryption [.rc4])

/-- An ephemeral key exchange without authentication. -/
def anonymous (k : KeyExchange) : Predicate :=
  .and (.keyExchange [k]) (.authentication [.null])

/-- An ephemeral key exchange with some authentication. -/
def authenticated (k : KeyExchange) : Predicate :=
  .and (.keyExchange [k]) (.not (.authentication [.null]))

/-- The keywords with their meanings, canonical spellings first. -/
def table : List (Text × Predicate) := [
  (.of "ALL", .always),
  (.of "DEFAULT", .not complementOfDefault),
  (.of "COMPLEMENTOFDEFAULT", complementOfDefault),
  (.of "HIGH", .strength [.high]),
  (.of "MEDIUM", .strength [.medium]),
  (.of "LOW", .strength [.low]),
  (.of "EXPORT", .exportGrade true),
  (.of "EXP", .exportGrade true),
  (.of "eNULL", .encryption [.null]),
  (.of "NULL", .encryption [.null]),
  (.of "aNULL", .authentication [.null]),
  (.of "ADH", anonymous .dhe),
  (.of "AECDH", anonymous .ecdhe),
  (.of "FIPS", .fips true),
  (.of "SSLv3", .protocol [.sslV3]),
  (.of "TLSv1", .protocol [.tlsV1]),
  (.of "TLSv1.2", .protocol [.tlsV1_2]),
  (.of "TLSv1.3", .protocol [.tlsV1_3]),
  (.of "kRSA", .keyExchange [.rsa]),
  (.of "RSA", .keyExchange [.rsa]),
  (.of "kDHE", .keyExchange [.dhe]),
  (.of "kEDH", .keyExchange [.dhe]),
  (.of "DHE", authenticated .dhe),
  (.of "EDH", authenticated .dhe),
  (.of "kECDHE", .keyExchange [.ecdhe]),
  (.of "kEECDH", .keyExchange [.ecdhe]),
  (.of "ECDHE", authenticated .ecdhe),
  (.of "EECDH", authenticated .ecdhe),
  (.of "kPSK", .keyExchange [.psk]),
  (.of "PSK", .keyExchange [.psk]),
  (.of "aRSA", .authentication [.rsa]),
  (.of "aDSS", .authentication [.dss]),
  (.of "DSS", .authentication [.dss]),
  (.of "aECDSA", .authentication [.ecdsa]),
  (.of "ECDSA", .authentication [.ecdsa]),
  (.of "aPSK", .authentication [.psk]),
  (.of "RC4", .encryption [.rc4]),
  (.of "RC2", .encryption [.rc2]),
  (.of "DES", .encryption [.des]),
  (.of "3DES", .encryption [.tripleDes]),
  (.of "IDEA", .encryption [.idea]),
  (.of "SEED", .encryption [.seed]),
  (.of "AES", .encryption [.aes128, .aes256, .aes128Gcm, .aes256Gcm, .aes128Ccm]),
  (.of "AES128", .encryption [.aes128, .aes128Gcm, .aes128Ccm]),
  (.of "AES256", .encryption [.aes256, .aes256Gcm]),
  (.of "AESGCM", .encryption [.aes128Gcm, .aes256Gcm]),
  (.of "AESCCM", .encryption [.aes128Ccm]),
  (.of "CHACHA20", .encryption [.chaCha20]),
  (.of "CAMELLIA", .encryption [.camellia128, .camellia256]),
  (.of "CAMELLIA128", .encryption [.camellia128]),
  (.of "CAMELLIA256", .encryption [.camellia256]),
  (.of "MD5", .digest [.md5]),
  (.of "SHA1", .digest [.sha1]),
  (.of "SHA", .digest [.sha1]),
  (.of "SHA256", .digest [.sha256]),
  (.of "SHA384", .digest [.sha384])]

/-- The keywords, canonical spellings first. -/
def all : List Text := table.map (·.1)

/-- The class that a keyword stands for. -/
def meaning? (word : Text) : Option Predicate := table.lookup word

/-- The canonical keyword for a class. -/
def spelling? (p : Predicate) : Option Text := (table.find? (·.2 == p)).map (·.1)

end Keyword

/-- Names of suites contain a hyphen or start with one of two marks; no keyword does. -/
def looksLikeSuiteName (term : Text) : Bool :=
  term.contains '-' || (Text.of "TLS_").isPrefixOf term || (Text.of "SSL_").isPrefixOf term

end CipherRules
