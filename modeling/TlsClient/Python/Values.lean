import TlsClient.Ffi.Values
import Mathlib.Data.List.Nodup

/-!
# Python values

The option values of `src/tls_client/_core.py`, typed. A `PyInt` may be a `bool`, which cffi takes for
an `int` and `str` does not. A `PyDict` is its items in insertion order, with distinct keys. Where the
code reads a list, a dict or a flag only through its truth value, a missing key, `None` and an empty or
false value are one value here; `DictField` keeps missing and `None` apart where the code does.
-/

namespace TlsClient.Python

open TlsClient.Ffi

/-- An `int`, or a `bool` standing for one. -/
inductive PyInt where
  | int (n : ℤ)
  | bool (b : Bool)
deriving DecidableEq, Repr

/-- `int(v)`, and what cffi stores. -/
def PyInt.toInt : PyInt → ℤ
  | .int n => n
  | .bool b => if b then 1 else 0

/-- What a dict holds under a key that may be missing or explicitly `None`. -/
inductive DictField (α : Type) where
  | missing
  | none
  | value (a : α)
deriving DecidableEq, Repr

/-- `d.get(key)`. -/
def DictField.get {α : Type} : DictField α → Option α
  | .value a => some a
  | _ => Option.none

/-- A dict in insertion order. -/
structure PyDict (κ ν : Type) where
  items : List (κ × ν)
  nodup : (items.map Prod.fst).Nodup

namespace PyDict

variable {κ ν : Type}

def empty : PyDict κ ν := ⟨[], List.nodup_nil⟩

instance [DecidableEq κ] [DecidableEq ν] : DecidableEq (PyDict κ ν) := fun d e =>
  if h : d.items = e.items then isTrue (by cases d; cases e; cases h; rfl)
  else isFalse fun heq => h (congrArg PyDict.items heq)

/-- `d.get(k)`. -/
def get [DecidableEq κ] (d : PyDict κ ν) (k : κ) : Option ν :=
  (d.items.find? fun item => item.1 = k).map Prod.snd

end PyDict

/-- A proxy URL for every scheme, or a mapping from schemes to URLs. -/
inductive ProxyConfig where
  | url (proxy : String)
  | mapping (proxies : PyDict String String)
deriving DecidableEq

/-- One element of `client_certificates`; a missing key reads as `b""`. -/
structure ClientCertificate where
  certPem : Option Bytes
  keyPem : Option Bytes
deriving DecidableEq

/-- One element of `ech_candidate_cipher_suites`. -/
structure CandidateCipherSuite where
  kdfId : DictField String
  aeadId : DictField String
deriving DecidableEq

/-- A `PriorityParam` dict. -/
structure PriorityParam where
  streamDep : Option PyInt := none
  exclusive : Bool := false
  weight : Option PyInt := none
  /-- there are keys that are not read, or read as false -/
  otherKeys : Bool := false
deriving DecidableEq

/-- The dict is not empty. -/
def PriorityParam.truthy (p : PriorityParam) : Bool :=
  p.streamDep.isSome || p.exclusive || p.weight.isSome || p.otherKeys

/-- One element of `priority_frames`. -/
structure PriorityFrame where
  priorityParam : PriorityParam := {}
  streamID : Option PyInt := none
deriving DecidableEq

/-- The `custom_tls_client` dict. -/
structure CustomTlsClient where
  ja3String : DictField String := .missing
  connectionFlow : Option PyInt := none
  recordSizeLimit : Option PyInt := none
  streamId : Option PyInt := none
  h3PriorityParam : Option PyInt := none
  h3SendGreaseFrames : Bool := false
  allowHttp : Bool := false
  trustAnchorsPayload : Option String := none
  h2SettingsOrder : List String := []
  h3SettingsOrder : List String := []
  h3PseudoHeaderOrder : List String := []
  certCompressionAlgos : List String := []
  keyShareCurves : List String := []
  alpnProtocols : List String := []
  alpsProtocols : List String := []
  pseudoHeaderOrder : List String := []
  supportedDelegatedCredentialsAlgorithms : List String := []
  supportedSignatureAlgorithms : List String := []
  supportedVersions : List String := []
  h2Settings : PyDict String PyInt := .empty
  h3Settings : PyDict String PyInt := .empty
  echCandidatePayloads : List PyInt := []
  echCandidateCipherSuites : List CandidateCipherSuite := []
  priorityFrames : List PriorityFrame := []
  headerPriority : Option PriorityParam := none
  /-- there are keys that are not read, or read as false -/
  otherKeys : Bool := false
deriving DecidableEq

/-- The dict is not empty. -/
def CustomTlsClient.truthy (c : CustomTlsClient) : Bool :=
  c.ja3String != .missing || c.connectionFlow.isSome || c.recordSizeLimit.isSome ||
    c.streamId.isSome || c.h3PriorityParam.isSome || c.h3SendGreaseFrames || c.allowHttp ||
    c.trustAnchorsPayload.isSome || !c.h2SettingsOrder.isEmpty || !c.h3SettingsOrder.isEmpty ||
    !c.h3PseudoHeaderOrder.isEmpty || !c.certCompressionAlgos.isEmpty ||
    !c.keyShareCurves.isEmpty || !c.alpnProtocols.isEmpty || !c.alpsProtocols.isEmpty ||
    !c.pseudoHeaderOrder.isEmpty || !c.supportedDelegatedCredentialsAlgorithms.isEmpty ||
    !c.supportedSignatureAlgorithms.isEmpty || !c.supportedVersions.isEmpty ||
    !c.h2Settings.items.isEmpty || !c.h3Settings.items.isEmpty ||
    !c.echCandidatePayloads.isEmpty || !c.echCandidateCipherSuites.isEmpty ||
    !c.priorityFrames.isEmpty || c.headerPriority.isSome || c.otherKeys

/-- The exceptions the request path raises before the engine is called; the texts of the last two are
those of cffi and of the language. -/
inductive PyError where
  /-- `ValueError(format % args)`, where `%r` puts the quoted string, and `None` for `none` -/
  | valueError (format : String) (args : List (Option String) := [])
  | runtimeError (msg : String)
  | typeError
  | overflowError
deriving DecidableEq, Repr

end TlsClient.Python
