import CipherRules.Catalog

/-!
# Catalogs — The builtin catalog

The suites known without further configuration, in ascending order of their code points, which is
their canonical order.
-/

namespace CipherRules.Catalog

/-- A suite of the table; it is export grade exactly if its strength class is. -/
def row (id : UInt16) (name opensslName : Text) (protocol : Protocol)
    (keyExchange : KeyExchange) (authentication : Authentication) (encryption : Encryption)
    (digest : Digest) (strength : Strength) (fips : Bool) (keyBits : UInt16) : Suite where
  name := name
  opensslName := opensslName
  id := id
  protocol := protocol
  keyExchange := keyExchange
  authentication := authentication
  encryption := encryption
  digest := digest
  exportGrade := strength == .exportGrade
  strength := strength
  fips := fips
  keyBits := keyBits

/-- The suites of the builtin catalog. -/
def builtinSuites : List Suite := [
  row 0x0001 (.of "TLS_RSA_WITH_NULL_MD5") (.of "NULL-MD5")
    .sslV3 .rsa .rsa .null .md5 .none false 0,
  row 0x0002 (.of "TLS_RSA_WITH_NULL_SHA") (.of "NULL-SHA")
    .sslV3 .rsa .rsa .null .sha1 .none false 0,
  row 0x0003 (.of "TLS_RSA_EXPORT_WITH_RC4_40_MD5") (.of "EXP-RC4-MD5")
    .sslV3 .rsa .rsa .rc4 .md5 .exportGrade false 40,
  row 0x0004 (.of "TLS_RSA_WITH_RC4_128_MD5") (.of "RC4-MD5")
    .sslV3 .rsa .rsa .rc4 .md5 .medium false 128,
  row 0x0005 (.of "TLS_RSA_WITH_RC4_128_SHA") (.of "RC4-SHA")
    .sslV3 .rsa .rsa .rc4 .sha1 .medium false 128,
  row 0x0006 (.of "TLS_RSA_EXPORT_WITH_RC2_CBC_40_MD5") (.of "EXP-RC2-CBC-MD5")
    .sslV3 .rsa .rsa .rc2 .md5 .exportGrade false 40,
  row 0x0007 (.of "TLS_RSA_WITH_IDEA_CBC_SHA") (.of "IDEA-CBC-SHA")
    .sslV3 .rsa .rsa .idea .sha1 .medium false 128,
  row 0x0008 (.of "TLS_RSA_EXPORT_WITH_DES40_CBC_SHA") (.of "EXP-DES-CBC-SHA")
    .sslV3 .rsa .rsa .des .sha1 .exportGrade false 40,
  row 0x0009 (.of "TLS_RSA_WITH_DES_CBC_SHA") (.of "DES-CBC-SHA")
    .sslV3 .rsa .rsa .des .sha1 .low false 56,
  row 0x000a (.of "TLS_RSA_WITH_3DES_EDE_CBC_SHA") (.of "DES-CBC3-SHA")
    .sslV3 .rsa .rsa .tripleDes .sha1 .medium true 112,
  row 0x0011 (.of "TLS_DHE_DSS_EXPORT_WITH_DES40_CBC_SHA") (.of "EXP-EDH-DSS-DES-CBC-SHA")
    .sslV3 .dhe .dss .des .sha1 .exportGrade false 40,
  row 0x0012 (.of "TLS_DHE_DSS_WITH_DES_CBC_SHA") (.of "EDH-DSS-DES-CBC-SHA")
    .sslV3 .dhe .dss .des .sha1 .low false 56,
  row 0x0013 (.of "TLS_DHE_DSS_WITH_3DES_EDE_CBC_SHA") (.of "EDH-DSS-DES-CBC3-SHA")
    .sslV3 .dhe .dss .tripleDes .sha1 .medium true 112,
  row 0x0014 (.of "TLS_DHE_RSA_EXPORT_WITH_DES40_CBC_SHA") (.of "EXP-EDH-RSA-DES-CBC-SHA")
    .sslV3 .dhe .rsa .des .sha1 .exportGrade false 40,
  row 0x0015 (.of "TLS_DHE_RSA_WITH_DES_CBC_SHA") (.of "EDH-RSA-DES-CBC-SHA")
    .sslV3 .dhe .rsa .des .sha1 .low false 56,
  row 0x0016 (.of "TLS_DHE_RSA_WITH_3DES_EDE_CBC_SHA") (.of "EDH-RSA-DES-CBC3-SHA")
    .sslV3 .dhe .rsa .tripleDes .sha1 .medium true 112,
  row 0x0017 (.of "TLS_DH_anon_EXPORT_WITH_RC4_40_MD5") (.of "EXP-ADH-RC4-MD5")
    .sslV3 .dhe .null .rc4 .md5 .exportGrade false 40,
  row 0x0018 (.of "TLS_DH_anon_WITH_RC4_128_MD5") (.of "ADH-RC4-MD5")
    .sslV3 .dhe .null .rc4 .md5 .medium false 128,
  row 0x001b (.of "TLS_DH_anon_WITH_3DES_EDE_CBC_SHA") (.of "ADH-DES-CBC3-SHA")
    .sslV3 .dhe .null .tripleDes .sha1 .medium false 112,
  row 0x002f (.of "TLS_RSA_WITH_AES_128_CBC_SHA") (.of "AES128-SHA")
    .sslV3 .rsa .rsa .aes128 .sha1 .high true 128,
  row 0x0032 (.of "TLS_DHE_DSS_WITH_AES_128_CBC_SHA") (.of "DHE-DSS-AES128-SHA")
    .sslV3 .dhe .dss .aes128 .sha1 .high true 128,
  row 0x0033 (.of "TLS_DHE_RSA_WITH_AES_128_CBC_SHA") (.of "DHE-RSA-AES128-SHA")
    .sslV3 .dhe .rsa .aes128 .sha1 .high true 128,
  row 0x0034 (.of "TLS_DH_anon_WITH_AES_128_CBC_SHA") (.of "ADH-AES128-SHA")
    .sslV3 .dhe .null .aes128 .sha1 .high false 128,
  row 0x0035 (.of "TLS_RSA_WITH_AES_256_CBC_SHA") (.of "AES256-SHA")
    .sslV3 .rsa .rsa .aes256 .sha1 .high true 256,
  row 0x0039 (.of "TLS_DHE_RSA_WITH_AES_256_CBC_SHA") (.of "DHE-RSA-AES256-SHA")
    .sslV3 .dhe .rsa .aes256 .sha1 .high true 256,
  row 0x003b (.of "TLS_RSA_WITH_NULL_SHA256") (.of "NULL-SHA256")
    .tlsV1_2 .rsa .rsa .null .sha256 .none false 0,
  row 0x003c (.of "TLS_RSA_WITH_AES_128_CBC_SHA256") (.of "AES128-SHA256")
    .tlsV1_2 .rsa .rsa .aes128 .sha256 .high true 128,
  row 0x003d (.of "TLS_RSA_WITH_AES_256_CBC_SHA256") (.of "AES256-SHA256")
    .tlsV1_2 .rsa .rsa .aes256 .sha256 .high true 256,
  row 0x0041 (.of "TLS_RSA_WITH_CAMELLIA_128_CBC_SHA") (.of "CAMELLIA128-SHA")
    .sslV3 .rsa .rsa .camellia128 .sha1 .high false 128,
  row 0x0067 (.of "TLS_DHE_RSA_WITH_AES_128_CBC_SHA256") (.of "DHE-RSA-AES128-SHA256")
    .tlsV1_2 .dhe .rsa .aes128 .sha256 .high true 128,
  row 0x006b (.of "TLS_DHE_RSA_WITH_AES_256_CBC_SHA256") (.of "DHE-RSA-AES256-SHA256")
    .tlsV1_2 .dhe .rsa .aes256 .sha256 .high true 256,
  row 0x0084 (.of "TLS_RSA_WITH_CAMELLIA_256_CBC_SHA") (.of "CAMELLIA256-SHA")
    .sslV3 .rsa .rsa .camellia256 .sha1 .high false 256,
  row 0x008c (.of "TLS_PSK_WITH_AES_128_CBC_SHA") (.of "PSK-AES128-CBC-SHA")
    .sslV3 .psk .psk .aes128 .sha1 .high false 128,
  row 0x0096 (.of "TLS_RSA_WITH_SEED_CBC_SHA") (.of "SEED-SHA")
    .sslV3 .rsa .rsa .seed .sha1 .medium false 128,
  row 0x009c (.of "TLS_RSA_WITH_AES_128_GCM_SHA256") (.of "AES128-GCM-SHA256")
    .tlsV1_2 .rsa .rsa .aes128Gcm .aead .high true 128,
  row 0x009d (.of "TLS_RSA_WITH_AES_256_GCM_SHA384") (.of "AES256-GCM-SHA384")
    .tlsV1_2 .rsa .rsa .aes256Gcm .aead .high true 256,
  row 0x009e (.of "TLS_DHE_RSA_WITH_AES_128_GCM_SHA256") (.of "DHE-RSA-AES128-GCM-SHA256")
    .tlsV1_2 .dhe .rsa .aes128Gcm .aead .high true 128,
  row 0x009f (.of "TLS_DHE_RSA_WITH_AES_256_GCM_SHA384") (.of "DHE-RSA-AES256-GCM-SHA384")
    .tlsV1_2 .dhe .rsa .aes256Gcm .aead .high true 256,
  row 0x00a8 (.of "TLS_PSK_WITH_AES_128_GCM_SHA256") (.of "PSK-AES128-GCM-SHA256")
    .tlsV1_2 .psk .psk .aes128Gcm .aead .high false 128,
  row 0x1301 (.of "TLS_AES_128_GCM_SHA256") (.of "TLS_AES_128_GCM_SHA256")
    .tlsV1_3 .any .any .aes128Gcm .aead .high true 128,
  row 0x1302 (.of "TLS_AES_256_GCM_SHA384") (.of "TLS_AES_256_GCM_SHA384")
    .tlsV1_3 .any .any .aes256Gcm .aead .high true 256,
  row 0x1303 (.of "TLS_CHACHA20_POLY1305_SHA256") (.of "TLS_CHACHA20_POLY1305_SHA256")
    .tlsV1_3 .any .any .chaCha20 .aead .high false 256,
  row 0x1304 (.of "TLS_AES_128_CCM_SHA256") (.of "TLS_AES_128_CCM_SHA256")
    .tlsV1_3 .any .any .aes128Ccm .aead .high true 128,
  row 0xc006 (.of "TLS_ECDHE_ECDSA_WITH_NULL_SHA") (.of "ECDHE-ECDSA-NULL-SHA")
    .tlsV1 .ecdhe .ecdsa .null .sha1 .none false 0,
  row 0xc007 (.of "TLS_ECDHE_ECDSA_WITH_RC4_128_SHA") (.of "ECDHE-ECDSA-RC4-SHA")
    .tlsV1 .ecdhe .ecdsa .rc4 .sha1 .medium false 128,
  row 0xc009 (.of "TLS_ECDHE_ECDSA_WITH_AES_128_CBC_SHA") (.of "ECDHE-ECDSA-AES128-SHA")
    .tlsV1 .ecdhe .ecdsa .aes128 .sha1 .high true 128,
  row 0xc00a (.of "TLS_ECDHE_ECDSA_WITH_AES_256_CBC_SHA") (.of "ECDHE-ECDSA-AES256-SHA")
    .tlsV1 .ecdhe .ecdsa .aes256 .sha1 .high true 256,
  row 0xc011 (.of "TLS_ECDHE_RSA_WITH_RC4_128_SHA") (.of "ECDHE-RSA-RC4-SHA")
    .tlsV1 .ecdhe .rsa .rc4 .sha1 .medium false 128,
  row 0xc012 (.of "TLS_ECDHE_RSA_WITH_3DES_EDE_CBC_SHA") (.of "ECDHE-RSA-DES-CBC3-SHA")
    .tlsV1 .ecdhe .rsa .tripleDes .sha1 .medium true 112,
  row 0xc013 (.of "TLS_ECDHE_RSA_WITH_AES_128_CBC_SHA") (.of "ECDHE-RSA-AES128-SHA")
    .tlsV1 .ecdhe .rsa .aes128 .sha1 .high true 128,
  row 0xc014 (.of "TLS_ECDHE_RSA_WITH_AES_256_CBC_SHA") (.of "ECDHE-RSA-AES256-SHA")
    .tlsV1 .ecdhe .rsa .aes256 .sha1 .high true 256,
  row 0xc018 (.of "TLS_ECDH_anon_WITH_AES_128_CBC_SHA") (.of "AECDH-AES128-SHA")
    .tlsV1 .ecdhe .null .aes128 .sha1 .high false 128,
  row 0xc02b (.of "TLS_ECDHE_ECDSA_WITH_AES_128_GCM_SHA256") (.of "ECDHE-ECDSA-AES128-GCM-SHA256")
    .tlsV1_2 .ecdhe .ecdsa .aes128Gcm .aead .high true 128,
  row 0xc02c (.of "TLS_ECDHE_ECDSA_WITH_AES_256_GCM_SHA384") (.of "ECDHE-ECDSA-AES256-GCM-SHA384")
    .tlsV1_2 .ecdhe .ecdsa .aes256Gcm .aead .high true 256,
  row 0xc02f (.of "TLS_ECDHE_RSA_WITH_AES_128_GCM_SHA256") (.of "ECDHE-RSA-AES128-GCM-SHA256")
    .tlsV1_2 .ecdhe .rsa .aes128Gcm .aead .high true 128,
  row 0xc030 (.of "TLS_ECDHE_RSA_WITH_AES_256_GCM_SHA384") (.of "ECDHE-RSA-AES256-GCM-SHA384")
    .tlsV1_2 .ecdhe .rsa .aes256Gcm .aead .high true 256,
  row 0xcca8 (.of "TLS_ECDHE_RSA_WITH_CHACHA20_POLY1305_SHA256") (.of "ECDHE-RSA-CHACHA20-POLY1305")
    .tlsV1_2 .ecdhe .rsa .chaCha20 .aead .high false 256,
  row 0xcca9 (.of "TLS_ECDHE_ECDSA_WITH_CHACHA20_POLY1305_SHA256")
    (.of "ECDHE-ECDSA-CHACHA20-POLY1305") .tlsV1_2 .ecdhe .ecdsa .chaCha20 .aead .high false 256,
  row 0xccaa (.of "TLS_DHE_RSA_WITH_CHACHA20_POLY1305_SHA256") (.of "DHE-RSA-CHACHA20-POLY1305")
    .tlsV1_2 .dhe .rsa .chaCha20 .aead .high false 256]

/-- No name occurs at two places of the table. -/
theorem firstClash?_builtinSuites : firstClash? [] builtinSuites = none := by decide +kernel

/-- The catalog of the suites known without further configuration. -/
def builtin : Catalog where
  suites := builtinSuites
  names_unique := (firstClash?_eq_none_iff.1 firstClash?_builtinSuites).2

end CipherRules.Catalog
