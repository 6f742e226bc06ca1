import TlsClient.Engine.Builder
import TlsClient.Engine.TrustAnchors
import TlsClient.Library.Numerals

/-!
# The spec factory of a JA3 string

Embeds `GetSpecFactoryFromJa3String`, `stringToSpec` and `getExtensionBaseMap` of `src/ja3.go` with the tables of
`src/mapper.go`. The constants of `utls` are a parameter: `Utls` holds their values, which are those registered
for TLS. An extension is what its struct is, with the fields that the functions fill from the string or the
options. A GREASE extension has a number of its own, so that two of them are different objects, as two pointers
are. `stringToSpec` also prints a warning to the standard output, which is left out.

The parts of the string are taken by index, without a look at their number. `factory_returns_iff` says for which
strings the factory returns.
-/

namespace TlsClient.Engine.Ja3

open TlsClient.Ffi Utf8 Numerals

/-! ## The constants of `utls` -/

inductive ExtensionName
  | serverName
  | statusRequest
  | supportedCurves
  | supportedPoints
  | signatureAlgorithms
  | alpn
  | sct
  | padding
  | extendedMasterSecret
  | compressCertificate
  | recordSizeLimit
  | delegatedCredentials
  | sessionTicket
  | preSharedKey
  | earlyData
  | supportedVersions
  | cookie
  | pskModes
  | keyShare
  | nextProtoNeg
  | alpsOld
  | alps
  | ech
  | renegotiationInfo
deriving DecidableEq, Repr

inductive VersionName
  | tls13
  | tls12
  | tls11
  | tls10
deriving DecidableEq, Repr

inductive SignatureName
  | pkcs1WithSHA256
  | pkcs1WithSHA384
  | pkcs1WithSHA512
  | pssWithSHA256
  | pssWithSHA384
  | pssWithSHA512
  | ecdsaWithP256AndSHA256
  | ecdsaWithP384AndSHA384
  | ecdsaWithP521AndSHA512
  | pkcs1WithSHA1
  | ecdsaWithSHA1
  | ed25519
  | sha224RSA
  | sha224ECDSA
  | mldsa44
  | mldsa65
  | mldsa87
deriving DecidableEq, Repr

inductive CurveName
  | p256
  | p384
  | p521
  | p256Kyber768Draft00
  | x25519
  | x25519Kyber512Draft00
  | x25519Kyber768Draft00
  | x25519Kyber768Draft00Old
  | x25519MLKEM768
deriving DecidableEq, Repr

inductive KdfName
  | hkdfSHA256
  | hkdfSHA384
  | hkdfSHA512
deriving DecidableEq, Repr

inductive AeadName
  | aes128GCM
  | aes256GCM
  | chacha20Poly1305
deriving DecidableEq, Repr

inductive CertCompressionName
  | zlib
  | brotli
  | zstd
deriving DecidableEq, Repr

/-- `extensionTrustAnchors` -/
def extensionTrustAnchors : UInt16 := 0xca34

/-- The values of the constants. Different extensions have different ids, none of which is the GREASE placeholder
or the id of the trust anchors, for which `utls` has no constant. -/
structure Utls where
  greasePlaceholder : UInt16
  extension : ExtensionName → UInt16
  version : VersionName → UInt16
  signatureScheme : SignatureName → UInt16
  curve : CurveName → UInt16
  kdf : KdfName → UInt16
  aead : AeadName → UInt16
  certCompression : CertCompressionName → UInt16
  extension_injective : Function.Injective extension
  extension_ne_grease : ∀ name, extension name ≠ greasePlaceholder
  extension_ne_trustAnchors : ∀ name, extension name ≠ extensionTrustAnchors
  trustAnchors_ne_grease : extensionTrustAnchors ≠ greasePlaceholder

/-! ## Specs -/

/-- `tls.KeyShare` -/
structure KeyShare where
  group : UInt16
  data : Bytes
deriving DecidableEq, Repr

/-- `tls.TLSExtension`: a pointer to one of these structs. Fields that are always the same are left out. -/
inductive TLSExtension
  | grease (object : ℕ)
  | sni
  | statusRequest
  | sct
  | padding
  | extendedMasterSecret
  | sessionTicket
  | preSharedKey
  | generic (id : UInt16) (data : Bytes)
  | cookie
  | pskKeyExchangeModes
  | npn
  | renegotiationInfo
  | supportedCurves (curves : List UInt16)
  | supportedPoints (supportedPoints : List UInt8)
  | compressCert (algorithms : List UInt16)
  | keyShare (keyShares : List KeyShare)
  | greaseECH (candidateCipherSuites : List (UInt16 × UInt16)) (candidatePayloadLens : List ℤ)
  | supportedVersions (versions : List UInt16)
  | signatureAlgorithms (supportedSignatureAlgorithms : List UInt16)
  | delegatedCredentials (supportedSignatureAlgorithms : List UInt16)
  | alpn (alpnProtocols : List Bytes)
  | applicationSettings (supportedProtocols : List Bytes)
  | applicationSettingsNew (supportedProtocols : List Bytes)
  | recordSizeLimit (limit : ℤ)
deriving DecidableEq, Repr

/-- The id with which an extension is sent. -/
def TLSExtension.id (utls : Utls) : TLSExtension → UInt16
  | .grease _ => utls.greasePlaceholder
  | .sni => utls.extension .serverName
  | .statusRequest => utls.extension .statusRequest
  | .sct => utls.extension .sct
  | .padding => utls.extension .padding
  | .extendedMasterSecret => utls.extension .extendedMasterSecret
  | .sessionTicket => utls.extension .sessionTicket
  | .preSharedKey => utls.extension .preSharedKey
  | .generic id _ => id
  | .cookie => utls.extension .cookie
  | .pskKeyExchangeModes => utls.extension .pskModes
  | .npn => utls.extension .nextProtoNeg
  | .renegotiationInfo => utls.extension .renegotiationInfo
  | .supportedCurves _ => utls.extension .supportedCurves
  | .supportedPoints _ => utls.extension .supportedPoints
  | .compressCert _ => utls.extension .compressCertificate
  | .keyShare _ => utls.extension .keyShare
  | .greaseECH _ _ => utls.extension .ech
  | .supportedVersions _ => utls.extension .supportedVersions
  | .signatureAlgorithms _ => utls.extension .signatureAlgorithms
  | .delegatedCredentials _ => utls.extension .delegatedCredentials
  | .alpn _ => utls.extension .alpn
  | .applicationSettings _ => utls.extension .alpsOld
  | .applicationSettingsNew _ => utls.extension .alps
  | .recordSizeLimit _ => utls.extension .recordSizeLimit

/-- `tls.ClientHelloSpec`, without the fields that are always the same. -/
structure ClientHelloSpec where
  cipherSuites : List UInt16
  extensions : List TLSExtension
deriving DecidableEq, Repr

/-- The errors of the factory. -/
inductive SpecError
  | notValid (value : Bytes) (what : String)
  | parseUint (text : Bytes) (err : NumError)
  | trustAnchorsMissing
  | unknownExtension (id : Bytes)
deriving DecidableEq, Repr

def SpecError.text (quote : Bytes → Bytes) : SpecError → Bytes
  | .notValid value what => value ++ utf8 " is not a valid " ++ utf8 what
  | .parseUint text .invalidSyntax => utf8 "strconv.ParseUint: parsing " ++ quote text ++ utf8 ": invalid syntax"
  | .parseUint text .outOfRange => utf8 "strconv.ParseUint: parsing " ++ quote text ++ utf8 ": value out of range"
  | .trustAnchorsMissing =>
    utf8 "the ja3 string contains the trust_anchors extension (51764) but no trustAnchorsPayload was provided. " ++
      utf8 "Copy the data field of \"Unknown extension 51764\" from the browser fingerprint, or pass \"0000\" " ++
      utf8 "for an empty anchor list"
  | .unknownExtension id => utf8 "unknown extension with id " ++ id ++ utf8 " provided"

/-! ## The tables -/

section Tables

variable (utls : Utls)

def tlsVersions : List (Bytes × UInt16) :=
  [(utf8 "GREASE", utls.greasePlaceholder), (utf8 "1.3", utls.version .tls13), (utf8 "1.2", utls.version .tls12),
    (utf8 "1.1", utls.version .tls11), (utf8 "1.0", utls.version .tls10)]

def delegatedCredentialsAlgorithms : List (Bytes × UInt16) :=
  [(utf8 "PKCS1WithSHA256", utls.signatureScheme .pkcs1WithSHA256),
    (utf8 "PKCS1WithSHA384", utls.signatureScheme .pkcs1WithSHA384),
    (utf8 "PKCS1WithSHA512", utls.signatureScheme .pkcs1WithSHA512),
    (utf8 "PSSWithSHA256", utls.signatureScheme .pssWithSHA256),
    (utf8 "PSSWithSHA384", utls.signatureScheme .pssWithSHA384),
    (utf8 "PSSWithSHA512", utls.signatureScheme .pssWithSHA512),
    (utf8 "ECDSAWithP256AndSHA256", utls.signatureScheme .ecdsaWithP256AndSHA256),
    (utf8 "ECDSAWithP384AndSHA384", utls.signatureScheme .ecdsaWithP384AndSHA384),
    (utf8 "ECDSAWithP521AndSHA512", utls.signatureScheme .ecdsaWithP521AndSHA512),
    (utf8 "PKCS1WithSHA1", utls.signatureScheme .pkcs1WithSHA1),
    (utf8 "ECDSAWithSHA1", utls.signatureScheme .ecdsaWithSHA1), (utf8 "Ed25519", utls.signatureScheme .ed25519),
    (utf8 "SHA224_RSA", utls.signatureScheme .sha224RSA), (utf8 "SHA224_ECDSA", utls.signatureScheme .sha224ECDSA)]

/-- The algorithms of the other table, and four more. -/
def signatureAlgorithms : List (Bytes × UInt16) :=
  delegatedCredentialsAlgorithms utls ++
    [(utf8 "MLDSA44", utls.signatureScheme .mldsa44), (utf8 "MLDSA65", utls.signatureScheme .mldsa65),
      (utf8 "MLDSA87", utls.signatureScheme .mldsa87), (utf8 "GREASE", utls.greasePlaceholder)]

def kdfIds : List (Bytes × UInt16) :=
  [(utf8 "HKDF_SHA256", utls.kdf .hkdfSHA256), (utf8 "HKDF_SHA384", utls.kdf .hkdfSHA384),
    (utf8 "HKDF_SHA512", utls.kdf .hkdfSHA512)]

def aeadIds : List (Bytes × UInt16) :=
  [(utf8 "AEAD_AES_128_GCM", utls.aead .aes128GCM), (utf8 "AEAD_AES_256_GCM", utls.aead .aes256GCM),
    (utf8 "AEAD_CHACHA20_POLY1305", utls.aead .chacha20Poly1305)]

def curves : List (Bytes × UInt16) :=
  [(utf8 "GREASE", utls.greasePlaceholder), (utf8 "P256", utls.curve .p256), (utf8 "P384", utls.curve .p384),
    (utf8 "P521", utls.curve .p521), (utf8 "X25519", utls.curve .x25519),
    (utf8 "P256Kyber768", utls.curve .p256Kyber768Draft00),
    (utf8 "X25519Kyber512D", utls.curve .x25519Kyber512Draft00),
    (utf8 "X25519Kyber768", utls.curve .x25519Kyber768Draft00),
    (utf8 "X25519Kyber768Old", utls.curve .x25519Kyber768Draft00Old),
    (utf8 "X25519MLKEM768", utls.curve .x25519MLKEM768)]

def certCompression : List (Bytes × UInt16) :=
  [(utf8 "zlib", utls.certCompression .zlib), (utf8 "brotli", utls.certCompression .brotli),
    (utf8 "zstd", utls.certCompression .zstd)]

/-- `getExtensionBaseMap` -/
def getExtensionBaseMap : List (UInt16 × TLSExtension) :=
  [(utls.extension .serverName, .sni), (utls.extension .statusRequest, .statusRequest),
    (utls.extension .sct, .sct), (utls.extension .padding, .padding),
    (utls.extension .extendedMasterSecret, .extendedMasterSecret),
    (utls.extension .sessionTicket, .sessionTicket), (utls.extension .preSharedKey, .preSharedKey),
    (utls.extension .earlyData, .generic (utls.extension .earlyData) []), (utls.extension .cookie, .cookie),
    (utls.extension .pskModes, .pskKeyExchangeModes), (utls.extension .nextProtoNeg, .npn),
    (utls.extension .renegotiationInfo, .renegotiationInfo)]

end Tables

/-! ## `stringToSpec` -/

/-- What the factory makes of the options, for `stringToSpec`. -/
structure MappedOptions where
  signatureAlgorithms : List UInt16
  delegatedCredentialsAlgorithms : List UInt16
  tlsVersions : List UInt16
  keyShares : List KeyShare
  hpkeSymmetricCipherSuites : List (UInt16 × UInt16)
  candidatePayloads : List ℤ
  supportedProtocolsALPN : List Bytes
  supportedProtocolsALPS : List Bytes
  certCompressionAlgorithms : List UInt16
  recordSizeLimit : ℤ
  trustAnchors : Bytes
deriving DecidableEq, Repr

/-- `strings.Split(s, ",")` -/
def splitComma (s : Bytes) : List Bytes := s.splitOn 44

/-- `strings.Split(s, "-")` -/
def splitHyphen (s : Bytes) : List Bytes := s.splitOn 45

/-- The items of a part that may be empty. -/
def items (part : Bytes) : List Bytes :=
  if (splitHyphen part).length = 1 ∧ (splitHyphen part)[0]? = some [] then [] else splitHyphen part

/-- The loops that convert items, in base 10. -/
def parseItems (bitSize : ℕ) (texts : List Bytes) : Except SpecError (List ℕ) :=
  texts.mapM fun text => (parseUint text 10 bitSize).mapError (.parseUint text)

/-- The assignments to `extMap`, in their order. -/
def assignments (utls : Utls) (options : MappedOptions) (targetCurves : List UInt16)
    (targetPointFormats : List UInt8) : List (UInt16 × TLSExtension) :=
  [(utls.extension .supportedCurves, .supportedCurves targetCurves)] ++
    (if options.certCompressionAlgorithms.length ≠ 0 then
      [(utls.extension .compressCertificate, .compressCert options.certCompressionAlgorithms)]
    else []) ++
    [(utls.extension .keyShare, .keyShare options.keyShares),
      (utls.extension .supportedPoints, .supportedPoints targetPointFormats),
      (utls.extension .ech, .greaseECH options.hpkeSymmetricCipherSuites options.candidatePayloads),
      (utls.extension .supportedVersions, .supportedVersions options.tlsVersions),
      (utls.extension .signatureAlgorithms, .signatureAlgorithms options.signatureAlgorithms),
      (utls.extension .delegatedCredentials, .delegatedCredentials options.delegatedCredentialsAlgorithms),
      (utls.extension .alpn, .alpn options.supportedProtocolsALPN),
      (utls.extension .alpsOld, .applicationSettings options.supportedProtocolsALPS),
      (utls.extension .alps, .applicationSettingsNew options.supportedProtocolsALPS)] ++
    (if options.trustAnchors.length > 0 then
      [(extensionTrustAnchors, .generic extensionTrustAnchors options.trustAnchors)]
    else []) ++
    [(utls.extension .recordSizeLimit, .recordSizeLimit options.recordSizeLimit)]

/-- A map after assignments: the last one to a key counts. -/
def lookupLast (writes : List (UInt16 × TLSExtension)) (id : UInt16) : Option TLSExtension :=
  List.lookup id writes.reverse

/-- The loop over the extensions; `fresh` numbers the GREASE extensions. -/
def collectExtensions (utls : Utls) (extMap : UInt16 → Option TLSExtension) :
    ℕ → List Bytes → Except SpecError (List TLSExtension)
  | _, [] => .ok []
  | fresh, e :: rest => do
    let eId ← (parseUint e 10 16).mapError (.parseUint e)
    if UInt16.ofNat eId = utls.greasePlaceholder then
      return .grease fresh :: (← collectExtensions utls extMap (fresh + 1) rest)
    else
      match extMap (UInt16.ofNat eId) with
      | none =>
        if UInt16.ofNat eId = extensionTrustAnchors then .error .trustAnchorsMissing
        else .error (.unknownExtension e)
      | some te => return te :: (← collectExtensions utls extMap fresh rest)

/-- `stringToSpec`, from the parts on. -/
def partsToSpec (utls : Utls) (options : MappedOptions) (ciphers extensions curves pointFormats : Bytes) :
    Except SpecError ClientHelloSpec := do
  let targetCurves ← parseItems 16 (items curves)
  let targetPointFormats ← parseItems 8 (items pointFormats)
  let writes := getExtensionBaseMap utls ++
    assignments utls options (targetCurves.map UInt16.ofNat) (targetPointFormats.map UInt8.ofNat)
  let exts ← collectExtensions utls (lookupLast writes) 0 (splitHyphen extensions)
  let suites ← parseItems 16 (splitHyphen ciphers)
  return { cipherSuites := suites.map UInt16.ofNat, extensions := exts }

/-- `ja3StringParts[i]`, which panics behind the last part. -/
def partAt (parts : List Bytes) (i : ℕ) : WireBytes.Checked Bytes :=
  match parts[i]? with
  | some part => .ok part
  | none => .error .outOfRange

def stringToSpec (utls : Utls) (ja3 : Bytes) (options : MappedOptions) :
    WireBytes.Checked (Except SpecError ClientHelloSpec) := do
  let ja3StringParts := splitComma ja3
  let ciphers ← partAt ja3StringParts 1
  let extensions ← partAt ja3StringParts 2
  let curves ← partAt ja3StringParts 3
  let pointFormats ← partAt ja3StringParts 4
  return partsToSpec utls options ciphers extensions curves pointFormats

/-! ## The factory -/

/-- A name of the table, or a hexadecimal number. -/
def code (table : List (Bytes × UInt16)) (what : String) (name : Bytes) : Except SpecError UInt16 :=
  match List.lookup name table with
  | some value => .ok value
  | none =>
    match parseUint name 16 16 with
    | .ok value => .ok (UInt16.ofNat value)
    | .error _ => .error (.notValid name what)

/-- Two names of the tables, or two hexadecimal numbers. -/
def candidateCipherSuite (utls : Utls) (suite : Bytes × Bytes) : Except SpecError (UInt16 × UInt16) :=
  match List.lookup suite.1 (kdfIds utls), List.lookup suite.2 (aeadIds utls) with
  | some kdfId, some aeadId => .ok (kdfId, aeadId)
  | _, _ => do
    let kdfId ← (parseUint suite.1 16 16).mapError fun _ => .notValid suite.1 "KdfId"
    let aeadId ← (parseUint suite.2 16 16).mapError fun _ => .notValid suite.2 "aeadId"
    return (UInt16.ofNat kdfId, UInt16.ofNat aeadId)

/-- The key share of a curve that the table knows. -/
def keyShareOf (utls : Utls) (keyShareCurve : Bytes) : Option KeyShare :=
  (List.lookup keyShareCurve (curves utls)).map fun group =>
    ⟨group, if keyShareCurve = utf8 "GREASE" then [0] else []⟩

/-- The part of the factory before `stringToSpec`. -/
def mapOptions (utls : Utls) (args : Ja3Spec) (trustAnchors : Bytes) : Except SpecError MappedOptions := do
  let mappedSignatureAlgorithms ←
    args.supportedSignatureAlgorithms.mapM (code (signatureAlgorithms utls) "supportedSignatureAlgorithm")
  let mappedDelegatedCredentialsAlgorithms ←
    args.supportedDelegatedCredentialsAlgorithms.mapM
      (code (delegatedCredentialsAlgorithms utls) "supportedDelegatedCredentialsAlgorithm")
  let mappedHpkeSymmetricCipherSuites ← args.echCandidateCipherSuites.mapM (candidateCipherSuite utls)
  return {
    signatureAlgorithms := mappedSignatureAlgorithms
    delegatedCredentialsAlgorithms := mappedDelegatedCredentialsAlgorithms
    tlsVersions := args.supportedVersions.filterMap fun version => List.lookup version (tlsVersions utls)
    keyShares := args.keyShareCurves.filterMap (keyShareOf utls)
    hpkeSymmetricCipherSuites := mappedHpkeSymmetricCipherSuites
    candidatePayloads := args.candidatePayloads
    supportedProtocolsALPN := args.supportedProtocolsALPN
    supportedProtocolsALPS := args.supportedProtocolsALPS
    certCompressionAlgorithms :=
      args.certCompressionAlgorithms.filterMap fun algorithm => List.lookup algorithm (certCompression utls)
    recordSizeLimit := args.recordSizeLimit
    trustAnchors := trustAnchors }

/-- The function that `GetSpecFactoryFromJa3String` returns: a panic, an error or a spec. -/
def factory (utls : Utls) (args : Ja3Spec) (trustAnchors : Bytes) :
    WireBytes.Checked (Except SpecError ClientHelloSpec) :=
  match mapOptions utls args trustAnchors with
  | .error err => .ok (.error err)
  | .ok options => stringToSpec utls args.ja3String options

/-- `GetSpecFactoryFromJa3String`; the factory that it returns is what a call of it gives. -/
def getSpecFactoryFromJa3String (utls : Utls) (args : Ja3Spec) (draw : Shuffle.Draws) :
    Except TrustAnchors.SplitError (WireBytes.Checked (Except SpecError ClientHelloSpec)) :=
  if args.trustAnchorsPayload = [] then .ok (factory utls args [])
  else (TrustAnchors.buildTrustAnchorsPayload args.trustAnchorsPayload draw).map (factory utls args)

/-! ## Strings with too few parts -/

/-- A caller who gets a factory can call it without a panic. -/
def Returns (utls : Utls) (args : Ja3Spec) (draw : Shuffle.Draws) : Prop :=
  ∀ made, getSpecFactoryFromJa3String utls args draw = .ok made → ∃ result, made = .ok result

/-- A name that the table knows, or a hexadecimal number of 16 bits. -/
def IsCode (table : List (Bytes × UInt16)) (name : Bytes) : Prop :=
  (List.lookup name table).isSome ∨ ∃ value, parseUint name 16 16 = .ok value

/-- Names that both tables know, or two hexadecimal numbers of 16 bits. -/
def IsCipherSuite (utls : Utls) (suite : Bytes × Bytes) : Prop :=
  (List.lookup suite.1 (kdfIds utls)).isSome ∧ (List.lookup suite.2 (aeadIds utls)).isSome ∨
    (∃ value, parseUint suite.1 16 16 = .ok value) ∧ ∃ value, parseUint suite.2 16 16 = .ok value

/-- The options that the factory accepts. -/
structure OptionsValid (utls : Utls) (args : Ja3Spec) : Prop where
  signatureAlgorithms : ∀ name ∈ args.supportedSignatureAlgorithms, IsCode (signatureAlgorithms utls) name
  delegatedCredentialsAlgorithms : ∀ name ∈ args.supportedDelegatedCredentialsAlgorithms,
    IsCode (delegatedCredentialsAlgorithms utls) name
  echCandidateCipherSuites : ∀ suite ∈ args.echCandidateCipherSuites, IsCipherSuite utls suite

variable {utls : Utls} {args : Ja3Spec}

/-- A name has a code if it is in the table or a number. -/
theorem code_ok_iff {table : List (Bytes × UInt16)} {what : String} {name : Bytes} :
    (∃ value, code table what name = .ok value) ↔ IsCode table name := by
  rw [code, IsCode]
  cases hlookup : List.lookup name table with
  | some value => simp
  | none => cases hparse : parseUint name 16 16 <;> simp

/-- When a suite is valid. -/
theorem candidateCipherSuite_ok_iff {suite : Bytes × Bytes} :
    (∃ value, candidateCipherSuite utls suite = .ok value) ↔ IsCipherSuite utls suite := by
  have hparsed : (∃ value, (do
        let kdfId ← (parseUint suite.1 16 16).mapError fun _ => SpecError.notValid suite.1 "KdfId"
        let aeadId ← (parseUint suite.2 16 16).mapError fun _ => SpecError.notValid suite.2 "aeadId"
        return (UInt16.ofNat kdfId, UInt16.ofNat aeadId)) = .ok value) ↔
      (∃ value, parseUint suite.1 16 16 = .ok value) ∧ ∃ value, parseUint suite.2 16 16 = .ok value := by
    constructor
    · rintro ⟨value, h⟩
      obtain ⟨kdfId, hkdf, h⟩ := Fallible.bind_eq_ok_iff.mp h
      obtain ⟨aeadId, haead, -⟩ := Fallible.bind_eq_ok_iff.mp h
      exact ⟨⟨kdfId, Fallible.mapError_eq_ok_iff.mp hkdf⟩, aeadId, Fallible.mapError_eq_ok_iff.mp haead⟩
    · rintro ⟨⟨kdfId, hkdf⟩, aeadId, haead⟩
      rw [hkdf, haead]
      exact ⟨_, rfl⟩
  rw [candidateCipherSuite, IsCipherSuite]
  -- a table may have one half of the suite and not the other; then the numbers decide
  cases hkdf : List.lookup suite.1 (kdfIds utls) with
  | none =>
    rw [Option.isSome_none, Bool.false_eq_true, false_and, false_or]
    exact hparsed
  | some kdfId =>
    cases haead : List.lookup suite.2 (aeadIds utls) with
    | none =>
      rw [Option.isSome_none, Bool.false_eq_true, and_false, false_or]
      exact hparsed
    | some aeadId => exact iff_of_true ⟨_, rfl⟩ (.inl ⟨rfl, rfl⟩)

/-- When the options are valid. -/
theorem mapOptions_ok_iff {trustAnchors : Bytes} :
    (∃ options, mapOptions utls args trustAnchors = .ok options) ↔ OptionsValid utls args := by
  have hsignature := @Fallible.exists_mapM_iff _ _ _ (code (signatureAlgorithms utls) "supportedSignatureAlgorithm")
    args.supportedSignatureAlgorithms
  have hdelegated := @Fallible.exists_mapM_iff _ _ _
    (code (delegatedCredentialsAlgorithms utls) "supportedDelegatedCredentialsAlgorithm")
    args.supportedDelegatedCredentialsAlgorithms
  have hsuites := @Fallible.exists_mapM_iff _ _ _ (candidateCipherSuite utls) args.echCandidateCipherSuites
  simp only [code_ok_iff] at hsignature hdelegated
  simp only [candidateCipherSuite_ok_iff] at hsuites
  constructor
  · rintro ⟨options, h⟩
    rw [mapOptions] at h
    obtain ⟨mapped₁, h₁, h⟩ := Fallible.bind_eq_ok_iff.mp h
    obtain ⟨mapped₂, h₂, h⟩ := Fallible.bind_eq_ok_iff.mp h
    obtain ⟨mapped₃, h₃, -⟩ := Fallible.bind_eq_ok_iff.mp h
    exact ⟨hsignature.mp ⟨mapped₁, h₁⟩, hdelegated.mp ⟨mapped₂, h₂⟩, hsuites.mp ⟨mapped₃, h₃⟩⟩
  · rintro ⟨hvalid₁, hvalid₂, hvalid₃⟩
    obtain ⟨mapped₁, h₁⟩ := hsignature.mpr hvalid₁
    obtain ⟨mapped₂, h₂⟩ := hdelegated.mpr hvalid₂
    obtain ⟨mapped₃, h₃⟩ := hsuites.mpr hvalid₃
    rw [mapOptions, h₁, h₂, h₃]
    exact ⟨_, rfl⟩

theorem partAt_of_lt {parts : List Bytes} {i : ℕ} (h : i < parts.length) : partAt parts i = .ok parts[i] := by
  rw [partAt, List.getElem?_eq_getElem h]

theorem partAt_of_le {parts : List Bytes} {i : ℕ} (h : parts.length ≤ i) : partAt parts i = .error .outOfRange := by
  rw [partAt, List.getElem?_eq_none h]

/-- With five parts or more the string is read to an end. -/
theorem stringToSpec_of_parts {ja3 : Bytes} (h : 5 ≤ (splitComma ja3).length) (options : MappedOptions) :
    ∃ ciphers extensions curves pointFormats, (splitComma ja3)[1]? = some ciphers ∧
      (splitComma ja3)[2]? = some extensions ∧ (splitComma ja3)[3]? = some curves ∧
      (splitComma ja3)[4]? = some pointFormats ∧
      stringToSpec utls ja3 options = .ok (partsToSpec utls options ciphers extensions curves pointFormats) := by
  refine ⟨(splitComma ja3)[1], (splitComma ja3)[2], (splitComma ja3)[3], (splitComma ja3)[4],
    List.getElem?_eq_getElem _, List.getElem?_eq_getElem _, List.getElem?_eq_getElem _,
    List.getElem?_eq_getElem _, ?_⟩
  rw [stringToSpec]
  simp only [partAt_of_lt (show 1 < (splitComma ja3).length by omega),
    partAt_of_lt (show 2 < (splitComma ja3).length by omega),
    partAt_of_lt (show 3 < (splitComma ja3).length by omega),
    partAt_of_lt (show 4 < (splitComma ja3).length by omega)]
  rfl

/-- With fewer parts an index is out of range. -/
theorem stringToSpec_of_few_parts {ja3 : Bytes} (h : (splitComma ja3).length < 5) (options : MappedOptions) :
    stringToSpec utls ja3 options = .error .outOfRange := by
  rw [stringToSpec]
  generalize splitComma ja3 = parts at h
  -- the last index is out of range; the accesses before it may be as well
  have hlast : partAt parts 4 = .error .outOfRange := partAt_of_le (by omega)
  have hbefore : ∀ i, (∃ part, partAt parts i = .ok part) ∨ partAt parts i = .error .outOfRange := by
    intro i
    by_cases hi : i < parts.length
    · exact .inl ⟨_, partAt_of_lt hi⟩
    · exact .inr (partAt_of_le (not_lt.mp hi))
  rcases hbefore 1 with ⟨part₁, h₁⟩ | h₁
  · rcases hbefore 2 with ⟨part₂, h₂⟩ | h₂
    · rcases hbefore 3 with ⟨part₃, h₃⟩ | h₃
      · simp only [h₁, h₂, h₃, hlast]
        rfl
      · simp only [h₁, h₂, h₃]
        rfl
    · simp only [h₁, h₂]
      rfl
  · simp only [h₁]
    rfl

/-- A JA3 string is read without a panic exactly if it has five parts. -/
theorem stringToSpec_ok_iff {ja3 : Bytes} {options : MappedOptions} :
    (∃ result, stringToSpec utls ja3 options = .ok result) ↔ 5 ≤ (splitComma ja3).length := by
  by_cases h : 5 ≤ (splitComma ja3).length
  · obtain ⟨_, _, _, _, -, -, -, -, hspec⟩ := @stringToSpec_of_parts utls ja3 h options
    exact iff_of_true ⟨_, hspec⟩ h
  · rw [stringToSpec_of_few_parts (not_le.mp h)]
    refine iff_of_false ?_ h
    rintro ⟨result, ⟨⟩⟩

/-- The factory returns exactly if valid options come with five parts. -/
theorem factory_ok_iff {trustAnchors : Bytes} :
    (∃ result, factory utls args trustAnchors = .ok result) ↔
      (OptionsValid utls args → 5 ≤ (splitComma args.ja3String).length) := by
  rw [← @mapOptions_ok_iff utls args trustAnchors, factory]
  cases hmap : mapOptions utls args trustAnchors with
  | error err =>
    refine iff_of_true ⟨_, rfl⟩ ?_
    rintro ⟨options, ⟨⟩⟩
  | ok options =>
    show (∃ result, stringToSpec utls args.ja3String options = .ok result) ↔ _
    rw [stringToSpec_ok_iff]
    exact ⟨fun h _ => h, fun h => h ⟨options, rfl⟩⟩

/-- The factory returns exactly if there is none, because the trust anchors are rejected, if the options are
rejected before the string is read, or if the string has five parts or more. -/
theorem factory_returns_iff (utls : Utls) (args : Ja3Spec) (draw : Shuffle.Draws) :
    Returns utls args draw ↔
      args.trustAnchorsPayload ≠ [] ∧ ¬TrustAnchors.WellFormed args.trustAnchorsPayload ∨
        ¬OptionsValid utls args ∨ 5 ≤ (splitComma args.ja3String).length := by
  have hmade : ∀ trustAnchors, (∃ result, factory utls args trustAnchors = .ok result) ↔
      ¬OptionsValid utls args ∨ 5 ≤ (splitComma args.ja3String).length := by
    intro trustAnchors
    rw [factory_ok_iff, imp_iff_not_or]
  rw [Returns, getSpecFactoryFromJa3String]
  by_cases hnone : args.trustAnchorsPayload = []
  · rw [if_pos hnone, ← hmade []]
    simp [hnone]
  -- a text of trust anchors is built first, and its errors are returned before the factory is made
  · have hbuild := TrustAnchors.wellFormed_iff args.trustAnchorsPayload draw
    rw [if_neg hnone, hbuild]
    cases hpayload : TrustAnchors.buildTrustAnchorsPayload args.trustAnchorsPayload draw with
    | error err =>
      refine iff_of_true ?_ (.inl ⟨hnone, ?_⟩)
      · rintro made ⟨⟩
      · rintro ⟨out, ⟨⟩⟩
    | ok out =>
      rw [← hmade out]
      constructor
      · exact fun h => .inr (h _ rfl)
      · rintro (⟨-, hbad⟩ | hok) made hfactory
        · exact absurd ⟨out, rfl⟩ hbad
        · obtain rfl := Except.ok.inj hfactory
          exact hok

/-! ## A string with two parts -/

/-- The numbers registered for TLS. -/
def registered : Utls where
  greasePlaceholder := 0x0a0a
  extension
    | .serverName => 0
    | .statusRequest => 5
    | .supportedCurves => 10
    | .supportedPoints => 11
    | .signatureAlgorithms => 13
    | .alpn => 16
    | .sct => 18
    | .padding => 21
    | .extendedMasterSecret => 23
    | .compressCertificate => 27
    | .recordSizeLimit => 28
    | .delegatedCredentials => 34
    | .sessionTicket => 35
    | .preSharedKey => 41
    | .earlyData => 42
    | .supportedVersions => 43
    | .cookie => 44
    | .pskModes => 45
    | .keyShare => 51
    | .nextProtoNeg => 13172
    | .alpsOld => 17513
    | .alps => 17613
    | .ech => 0xfe0d
    | .renegotiationInfo => 0xff01
  version
    | .tls13 => 0x0304
    | .tls12 => 0x0303
    | .tls11 => 0x0302
    | .tls10 => 0x0301
  signatureScheme
    | .pkcs1WithSHA256 => 0x0401
    | .pkcs1WithSHA384 => 0x0501
    | .pkcs1WithSHA512 => 0x0601
    | .pssWithSHA256 => 0x0804
    | .pssWithSHA384 => 0x0805
    | .pssWithSHA512 => 0x0806
    | .ecdsaWithP256AndSHA256 => 0x0403
    | .ecdsaWithP384AndSHA384 => 0x0503
    | .ecdsaWithP521AndSHA512 => 0x0603
    | .pkcs1WithSHA1 => 0x0201
    | .ecdsaWithSHA1 => 0x0203
    | .ed25519 => 0x0807
    | .sha224RSA => 0x0301
    | .sha224ECDSA => 0x0303
    | .mldsa44 => 0x0904
    | .mldsa65 => 0x0905
    | .mldsa87 => 0x0906
  curve
    | .p256 => 23
    | .p384 => 24
    | .p521 => 25
    | .x25519 => 29
    | .p256Kyber768Draft00 => 0xfe32
    | .x25519Kyber512Draft00 => 0xfe30
    | .x25519Kyber768Draft00 => 0x6399
    | .x25519Kyber768Draft00Old => 0xfe31
    | .x25519MLKEM768 => 0x11ec
  kdf
    | .hkdfSHA256 => 1
    | .hkdfSHA384 => 2
    | .hkdfSHA512 => 3
  aead
    | .aes128GCM => 1
    | .aes256GCM => 2
    | .chacha20Poly1305 => 3
  certCompression
    | .zlib => 1
    | .brotli => 2
    | .zstd => 3
  extension_injective := by
    intro a b h
    cases a <;> cases b <;> first | rfl | exact absurd h (by decide)
  extension_ne_grease := by
    intro name
    cases name <;> decide
  extension_ne_trustAnchors := by
    intro name
    cases name <;> decide
  trustAnchors_ne_grease := by decide

/-- A JA3 string and no options. -/
def onlyString (ja3 : String) : Ja3Spec where
  ja3String := utf8 ja3
  supportedSignatureAlgorithms := []
  supportedDelegatedCredentialsAlgorithms := []
  supportedVersions := []
  keyShareCurves := []
  supportedProtocolsALPN := []
  supportedProtocolsALPS := []
  echCandidateCipherSuites := []
  candidatePayloads := []
  certCompressionAlgorithms := []
  recordSizeLimit := 0
  trustAnchorsPayload := []

/-- A string that ends after the cipher suites makes the factory panic. -/
theorem factory_panics :
    ¬∀ (utls : Utls) (args : Ja3Spec) (draw : Shuffle.Draws), Returns utls args draw := by
  intro hall
  have hmade : getSpecFactoryFromJa3String registered (onlyString "771,4865-4866") (fun i => Fin.last i) =
      .ok (.error .outOfRange) := by rfl
  obtain ⟨result, hresult⟩ := hall _ _ _ _ hmade
  cases hresult

end TlsClient.Engine.Ja3
