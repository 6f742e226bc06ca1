import TlsClient.Python.Headers
import TlsClient.Python.Options
import TlsClient.Python.UrlParams
import TlsClient.Library.Fallible

/-!
# Requests-style arguments

`_prepare_request_compat` of `src/tls_client/_core.py`, with `_ensure_header`. The sources of a body are applied one
after the other and the last one wins, but of the headers that describe them the first one does. So a form that JSON
replaces leaves its `Content-Type` behind: `prepareRequestCompat_described_iff`.
-/

namespace TlsClient.Python

open TlsClient.Ffi

/-! ## JSON -/

/-- What `_json.dumps` takes. A float is the text that it is written as, and so is a key. -/
inductive Json where
  | none
  | bool (b : Bool)
  | int (n : ℤ)
  | float (repr : String)
  | str (s : String)
  | list (items : List Json)
  | dict (items : List (String × Json))

namespace Json

/-- `ESCAPE_DCT`, and `\\u` with four digits for the other control characters. -/
def escapeChar (c : Char) : String :=
  if c = '"' then "\\\""
  else if c = '\\' then "\\\\"
  else if c = '\n' then "\\n"
  else if c = '\r' then "\\r"
  else if c = '\t' then "\\t"
  else if c = '\x08' then "\\b"
  else if c = '\x0c' then "\\f"
  else if c.toNat < 32 then
    "\\u00" ++ String.ofList [Nat.digitChar (c.toNat / 16), Nat.digitChar (c.toNat % 16)]
  else c.toString

/-- A text between quotes. -/
def encodeString (s : String) : String := "\"" ++ String.join (s.toList.map escapeChar) ++ "\""

mutual

/-- `_json.dumps(value, ensure_ascii=False)`. -/
def dumps : Json → String
  | .none => "null"
  | .bool b => if b then "true" else "false"
  | .int n => toString n
  | .float repr => repr
  | .str s => encodeString s
  | .list items => "[" ++ ", ".intercalate (dumpsItems items) ++ "]"
  | .dict items => "\x7b" ++ ", ".intercalate (dumpsFields items) ++ "\x7d"

def dumpsItems : List Json → List String
  | [] => []
  | item :: items => dumps item :: dumpsItems items

def dumpsFields : List (String × Json) → List String
  | [] => []
  | item :: items => (encodeString item.1 ++ ": " ++ dumps item.2) :: dumpsFields items

end

/-- `value is not None`. -/
def isNotNone : Json → Bool
  | .none => false
  | _ => true

end Json

/-! ## Arguments -/

/-- What `data` can be. -/
inductive RequestData where
  | dict (fields : PyDict String String)
  | str (text : String)
  | bytes (content : Bytes)

/-- What `cert` can be: a file, or one for the certificate and one for the key. -/
inductive Cert where
  | path (file : String)
  | pair (certFile keyFile : String)

/-- The keyword arguments that are read or set. -/
structure Kwargs where
  body : Option Bytes := none
  clientCertificates : Option (List ClientCertificate) := none
  requestCookies : Option (PyDict String String) := none
  proxy : DictField ProxyConfig := .missing
  followRedirects : DictField Bool := .missing
  timeout : DictField PyInt := .missing
  verify : DictField Bool := .missing
  stream : DictField Bool := .missing

/-- The parameters, without the headers. -/
structure CompatArgs where
  url : String
  params : Option (PyDict String String) := none
  data : Option RequestData := none
  jsonData : Json := .none
  auth : Option (String × String) := none
  cookies : Option (PyDict String String) := none
  stream : Option Bool := none
  cert : Option Cert := none
  timeout : Option PyInt := none
  allowRedirects : Option Bool := none
  proxies : Option (PyDict String String) := none
  verify : Option Bool := none
  kwargs : Kwargs := {}

/-- What `get_default` has. -/
structure SessionDefaults where
  auth : Option (String × String) := none
  cert : Option Cert := none
  proxy : Option ProxyConfig := none

/-! ## Headers -/

/-- The dicts of headers that there are, and the variables `headers` and `headers_owned`. The caller's dict, if there is
one, is the first. -/
structure HeaderVars where
  dicts : List Headers
  headers : Option ℕ
  headersOwned : Bool := false

/-- The dict that `headers` is, empty for `None`. -/
def HeaderVars.current (vars : HeaderVars) : Headers :=
  ((vars.headers.bind fun r => vars.dicts[r]?)).getD .empty

/-- `headers` is a new dict. -/
def HeaderVars.new (vars : HeaderVars) (headers : Headers) : HeaderVars :=
  ⟨vars.dicts ++ [headers], some vars.dicts.length, true⟩

def callerVars (headers : Option Headers) : HeaderVars := ⟨headers.toList, headers.map fun _ => 0, false⟩

variable (lower : String → String)

/-- The items of a name, in any case. -/
def named (name : String) (headers : Headers) : List (String × String) :=
  headers.items.filter fun item => lower item.1 = lower name

/-- `_ensure_header`. -/
def ensureHeader (headerName value : String) (vars : HeaderVars) : HeaderVars :=
  match vars.headers with
  | none => vars.new (PyDict.empty.set headerName value)
  | some r =>
    if vars.current.keys.any fun key => lower key = lower headerName then vars
    else if vars.headersOwned then { vars with dicts := vars.dicts.set r (vars.current.set headerName value) }
    else vars.new (vars.current.set headerName value)

/-! ## The function -/

/-- `urlencode(data).encode("utf-8")` -/
def formBody (fields : PyDict String String) : Bytes :=
  Utf8.utf8 (String.ofList (FormUrlencoded.urlencode (fields.items.map fun item => (item.1.toList, item.2.toList))))

/-- `base64.b64encode` -/
def b64encode : Bytes → List Char
  | a :: b :: c :: rest =>
    [b64Digit (a.toNat / 4), b64Digit (a.toNat % 4 * 16 + b.toNat / 16), b64Digit (b.toNat % 16 * 4 + c.toNat / 64),
      b64Digit (c.toNat % 64)] ++ b64encode rest
  | [a, b] =>
    [b64Digit (a.toNat / 4), b64Digit (a.toNat % 4 * 16 + b.toNat / 16), b64Digit (b.toNat % 16 * 4), '=']
  | [a] => [b64Digit (a.toNat / 4), b64Digit (a.toNat % 4 * 16), '=', '=']
  | [] => []
where
  b64Digit (n : ℕ) : Char :=
    Char.ofNat (if n < 26 then 65 + n else if n < 52 then 71 + n else if n < 62 then n - 4 else if n = 62 then 43 else 47)

/-- `Basic` credentials. -/
def basicAuth (auth : String × String) : String :=
  "Basic " ++ String.ofList (b64encode (Utf8.utf8 (auth.1 ++ ":" ++ auth.2)))

/-- The body and the headers that the sources of a body leave. -/
def prepareBody (args : CompatArgs) (vars : HeaderVars) : Option Bytes × HeaderVars :=
  let body := args.kwargs.body
  let (body, vars) : Option Bytes × HeaderVars :=
    match body, args.data with
    | none, some (.dict fields) =>
      (some (formBody fields), ensureHeader lower "Content-Type" "application/x-www-form-urlencoded" vars)
    | none, some (.str text) => (some (Utf8.utf8 text), vars)
    | none, some (.bytes content) => (some content, vars)
    | body, _ => (body, vars)
  if args.jsonData.isNotNone then
    (some (Utf8.utf8 args.jsonData.dumps), ensureHeader lower "Content-Type" "application/json" vars)
  else (body, vars)

/-- The credentials that are used. -/
def prepareAuth (defaults : SessionDefaults) (args : CompatArgs) (vars : HeaderVars) : HeaderVars :=
  match val args.auth defaults.auth with
  | none => vars
  | some auth => ensureHeader lower "Authorization" (basicAuth auth) vars

/-- `_load_client_certificates`. -/
def loadClientCertificates {ε : Type} (readFile : String → Except ε Bytes) : Cert → Except ε (List ClientCertificate)
  | .path file => do
    let certBytes ← readFile file
    return [⟨some certBytes, some certBytes⟩]
  | .pair certFile keyFile => do
    let certBytes ← readFile certFile
    let keyBytes ← readFile keyFile
    return [⟨some certBytes, some keyBytes⟩]

/-- `key not in kwargs`: the value goes into it, if there is one. -/
def DictField.orSet {α : Type} (field : DictField α) (value : Option α) : DictField α :=
  match field, value with
  | .missing, some a => .value a
  | field, _ => field

/-- The options that are passed on in `kwargs`. -/
def prepareKwargs (defaults : SessionDefaults) (url : String) (args : CompatArgs) : Kwargs :=
  let kwargs := args.kwargs
  let proxySource : Option ProxyConfig :=
    match args.proxies, kwargs.proxy with
    | some proxies, _ => some (.mapping proxies)
    | none, .missing => defaults.proxy
    | none, proxy => proxy.get
  { kwargs with
    body := none
    clientCertificates := none
    requestCookies := none
    proxy :=
      match resolveProxyUrl proxySource url with
      | none => kwargs.proxy
      | some effectiveProxy => .value (.url effectiveProxy)
    followRedirects := kwargs.followRedirects.orSet args.allowRedirects
    timeout := kwargs.timeout.orSet args.timeout
    verify := kwargs.verify.orSet args.verify
    stream := kwargs.stream.orSet args.stream }

/-- What is returned, and what is left of `kwargs`. -/
structure Prepared where
  url : String
  body : Option Bytes
  headers : Option ℕ
  requestCookies : Option (PyDict String String)
  clientCertificates : Option (List ClientCertificate)
  kwargs : Kwargs

/-- `_prepare_request_compat`: the dicts of headers when it returns or raises, and what it returns. -/
def prepareRequestCompat {ε : Type} (readFile : String → Except ε Bytes) (defaults : SessionDefaults)
    (args : CompatArgs) (headers : Option Headers) : HeaderVars × Except ε Prepared :=
  let url :=
    match args.params with
    | none => args.url
    | some params =>
      String.ofList (mergeUrlParams args.url.toList (params.items.map fun item => (item.1.toList, item.2.toList)))
  let prepared := prepareBody lower args (callerVars headers)
  let vars := prepareAuth lower defaults args prepared.2
  let clientCertificates : Except ε (Option (List ClientCertificate)) :=
    match args.kwargs.clientCertificates, val args.cert defaults.cert with
    | none, some cert => (loadClientCertificates readFile cert).map some
    | clientCertificates, _ => .ok clientCertificates
  (vars, do
    let clientCertificates ← clientCertificates
    return {
      url := url
      body := prepared.1
      headers := vars.headers
      requestCookies := val args.cookies args.kwargs.requestCookies
      clientCertificates := clientCertificates
      kwargs := prepareKwargs defaults url args })

/-! ## What the headers should say -/

/-- Where a body is from. -/
inductive BodySource where
  | nothing
  | raw (content : Bytes)
  | form (fields : PyDict String String)
  | json (value : Json)

namespace BodySource

def bytes : BodySource → Option Bytes
  | nothing => none
  | raw content => some content
  | form fields => some (formBody fields)
  | json value => some (Utf8.utf8 value.dumps)

/-- The type of a body that has been encoded. -/
def contentType : BodySource → Option String
  | form _ => some "application/x-www-form-urlencoded"
  | json _ => some "application/json"
  | _ => none

end BodySource

namespace CompatArgs

/-- The source of the body that is returned. -/
def bodySource (args : CompatArgs) : BodySource :=
  if args.jsonData.isNotNone then .json args.jsonData
  else
    match args.kwargs.body, args.data with
    | some content, _ => .raw content
    | none, none => .nothing
    | none, some (.dict fields) => .form fields
    | none, some (.str text) => .raw (Utf8.utf8 text)
    | none, some (.bytes content) => .raw content

/-- A form is encoded. -/
def usesForm (args : CompatArgs) : Bool :=
  match args.kwargs.body, args.data with
  | none, some (.dict _) => true
  | _, _ => false

end CompatArgs

/-- The body is that of its source. A type is added for it where the caller gave none; the types and the credentials
that the caller gave are there as they are, and the dict they are in is as it was. -/
structure Described {ε : Type} (args : CompatArgs) (headers : Option Headers) (vars : HeaderVars)
    (result : Except ε Prepared) : Prop where
  body : ∀ prepared, result = .ok prepared → prepared.body = args.bodySource.bytes ∧ prepared.headers = vars.headers
  contentType : named lower "Content-Type" (headers.getD .empty) = [] →
    named lower "Content-Type" vars.current = args.bodySource.contentType.toList.map fun type => ("Content-Type", type)
  kept : ∀ name ∈ ["Content-Type", "Authorization"], named lower name (headers.getD .empty) ≠ [] →
    named lower name vars.current = named lower name (headers.getD .empty)
  unmodified : ∀ d, headers = some d → vars.dicts[0]? = some d

/-! ## Adding a header -/

variable {lower} {name other value : String} {d : Headers} {headers : Option Headers} {vars : HeaderVars}

/-- What `_ensure_header` makes of a dict. -/
def ensured (lower : String → String) (headerName value : String) (d : Headers) : Headers :=
  if named lower headerName d = [] then d.set headerName value else d

theorem named_eq_nil_iff : named lower name d = [] ↔ (d.keys.any fun key => lower key = lower name) = false := by
  rw [named, List.filter_eq_nil_iff, List.any_eq_false, PyDict.keys, List.forall_mem_map]

/-- A header of a new name goes to the end. -/
theorem items_set (h : named lower name d = []) (value : String) : (d.set name value).items = d.items ++ [(name, value)] := by
  refine PyDict.setItems_of_not_mem value fun hmem => ?_
  rw [named_eq_nil_iff, List.any_eq_false] at h
  exact h name hmem (decide_eq_true rfl)

/-- An ensured header is there, with its own value or the default. -/
theorem named_ensured_self (name value : String) (d : Headers) :
    named lower name (ensured lower name value d) =
      if named lower name d = [] then [(name, value)] else named lower name d := by
  rw [ensured]
  split_ifs with h
  · have hnone := h
    rw [named] at hnone
    rw [named, items_set h, List.filter_append, hnone, List.filter_cons_of_pos (by simp)]
    rfl
  · rfl

/-- The headers of other names are left alone. -/
theorem named_ensured_of_ne (hne : lower other ≠ lower name) (value : String) (d : Headers) :
    named lower name (ensured lower other value d) = named lower name d := by
  rw [ensured]
  split_ifs with h
  · rw [named, items_set h, List.filter_append, List.filter_cons_of_neg (by simpa using hne), List.filter_nil,
      List.append_nil, named]
  · rfl

/-- Nothing has been written to the caller's dict. -/
structure FromCaller (headers : Option Headers) (vars : HeaderVars) : Prop where
  kept : headers.toList <+: vars.dicts
  valid : ∀ r, vars.headers = some r → r < vars.dicts.length
  owned : vars.headersOwned = true → ∀ r, vars.headers = some r → headers.toList.length ≤ r

/-- At first the headers are the caller's. -/
theorem fromCaller_callerVars (headers : Option Headers) : FromCaller headers (callerVars headers) := by
  refine ⟨List.prefix_refl _, fun r hr => ?_, fun howned => ?_⟩
  · cases headers with
    | none => contradiction
    | some d =>
      obtain rfl := Option.some.inj hr
      exact Nat.one_pos
  · contradiction

/-- At first the headers are the caller's, or none. -/
theorem current_callerVars (headers : Option Headers) : (callerVars headers).current = headers.getD .empty := by
  cases headers with
  | none => rfl
  | some d => rfl

theorem current_new (vars : HeaderVars) (d : Headers) : (vars.new d).current = d := by
  simp [HeaderVars.new, HeaderVars.current]

/-- A new dict does not change the caller's. -/
theorem FromCaller.new (h : FromCaller headers vars) (d : Headers) : FromCaller headers (vars.new d) := by
  refine ⟨h.kept.trans (List.prefix_append _ _), fun r hr => ?_, fun _ r hr => ?_⟩
  · obtain rfl := Option.some.inj hr
    simp [HeaderVars.new]
  · obtain rfl := Option.some.inj hr
    exact h.kept.length_le

/-- A dict that is not the caller's is written to. -/
theorem FromCaller.write (h : FromCaller headers vars) (howned : vars.headersOwned = true) {r : ℕ}
    (hr : vars.headers = some r) (d : Headers) :
    FromCaller headers { vars with dicts := vars.dicts.set r d } ∧
      HeaderVars.current { vars with dicts := vars.dicts.set r d } = d := by
  obtain ⟨rest, hrest⟩ := h.kept
  have hle := h.owned howned r hr
  refine ⟨⟨?_, fun r' hr' => ?_, h.owned⟩, ?_⟩
  · rw [← hrest, List.set_append_right _ _ hle]
    exact List.prefix_append _ _
  · rw [List.length_set]
    exact h.valid r' hr'
  · rw [HeaderVars.current, hr, Option.bind_some, List.getElem?_set_self (h.valid r hr)]
    rfl

variable (lower) in
/-- Adding a header makes a dict that has it and leaves the caller's dict alone. -/
theorem ensureHeader_spec (h : FromCaller headers vars) (name value : String) :
    FromCaller headers (ensureHeader lower name value vars) ∧
      (ensureHeader lower name value vars).current = ensured lower name value vars.current := by
  rw [ensureHeader]
  cases hr : vars.headers with
  | none =>
    have hcurrent : vars.current = .empty := by rw [HeaderVars.current, hr, Option.bind_none, Option.getD_none]
    refine ⟨h.new _, ?_⟩
    dsimp only
    rw [current_new, ensured, hcurrent, if_pos]
    rfl
  | some r =>
    dsimp only
    rw [ensured]
    by_cases hnone : named lower name vars.current = []
    · rw [if_neg (by rw [named_eq_nil_iff.mp hnone]; decide), if_pos hnone]
      split_ifs with howned
      · obtain ⟨hkept, hcurrent⟩ := h.write howned hr (vars.current.set name value)
        rw [hr] at hkept hcurrent
        exact ⟨hkept, hcurrent⟩
      · exact ⟨h.new _, current_new _ _⟩
    · rw [if_pos (Bool.eq_true_of_not_eq_false (mt named_eq_nil_iff.mpr hnone)), if_neg hnone]
      exact ⟨h, rfl⟩

/-! ## The headers that are returned -/

variable {ε : Type} {readFile : String → Except ε Bytes} {defaults : SessionDefaults} {args : CompatArgs}

/-- The headers with the type of the form. -/
def formVars (lower : String → String) (args : CompatArgs) (vars : HeaderVars) : HeaderVars :=
  if args.usesForm then ensureHeader lower "Content-Type" "application/x-www-form-urlencoded" vars else vars

/-- The body is that of the source that wins; the types of the form and of JSON are added one after the other. -/
theorem prepareBody_eq (args : CompatArgs) (vars : HeaderVars) :
    prepareBody lower args vars = (args.bodySource.bytes,
      if args.jsonData.isNotNone then ensureHeader lower "Content-Type" "application/json" (formVars lower args vars)
      else formVars lower args vars) := by
  rw [prepareBody, CompatArgs.bodySource, formVars, CompatArgs.usesForm]
  cases args.jsonData.isNotNone with
  | false =>
    cases args.kwargs.body with
    | some content => rfl
    | none =>
      cases args.data with
      | none => rfl
      | some data => cases data <;> rfl
  | true =>
    cases args.kwargs.body with
    | some content => rfl
    | none =>
      cases args.data with
      | none => rfl
      | some data => cases data <;> rfl

/-- The type that is left for the caller's headers. -/
def addedType (args : CompatArgs) : Option String :=
  if args.usesForm then some "application/x-www-form-urlencoded" else args.bodySource.contentType

/-- Without JSON the type is that of a form, if there is one. -/
theorem contentType_of_not_isNotNone (h : args.jsonData.isNotNone = false) :
    args.bodySource.contentType = if args.usesForm then some "application/x-www-form-urlencoded" else none := by
  rw [CompatArgs.bodySource, h, CompatArgs.usesForm]
  cases args.kwargs.body with
  | some content => rfl
  | none =>
    cases args.data with
    | none => rfl
    | some data => cases data <;> rfl

/-- With JSON the type is its own. -/
theorem contentType_of_isNotNone (h : args.jsonData.isNotNone = true) :
    args.bodySource.contentType = some "application/json" := by
  rw [CompatArgs.bodySource, h]
  rfl

variable (lower) in
/-- The headers after the form. -/
theorem formVars_spec (h : FromCaller headers vars) (args : CompatArgs) :
    FromCaller headers (formVars lower args vars) ∧
      named lower "Content-Type" (formVars lower args vars).current =
        (if named lower "Content-Type" vars.current = [] ∧ args.usesForm then
          [("Content-Type", "application/x-www-form-urlencoded")]
        else named lower "Content-Type" vars.current) ∧
      ∀ name, lower "Content-Type" ≠ lower name →
        named lower name (formVars lower args vars).current = named lower name vars.current := by
  rw [formVars]
  by_cases hused : args.usesForm = true
  · rw [if_pos hused]
    obtain ⟨hform, hcurrent⟩ := ensureHeader_spec lower h "Content-Type" "application/x-www-form-urlencoded"
    refine ⟨hform, ?_, fun name hne => ?_⟩
    · rw [hcurrent, named_ensured_self]
      simp only [hused, and_true]
    · rw [hcurrent, named_ensured_of_ne hne]
  · rw [if_neg hused, if_neg fun hboth => hused hboth.2]
    exact ⟨h, rfl, fun _ _ => rfl⟩

variable (lower) in
/-- The headers after the body: the first source of a body decides on the type. -/
theorem prepareBody_spec (h : FromCaller headers vars) (args : CompatArgs) :
    FromCaller headers (prepareBody lower args vars).2 ∧
      named lower "Content-Type" (prepareBody lower args vars).2.current =
        (if named lower "Content-Type" vars.current = [] then (addedType args).toList.map fun type => ("Content-Type", type)
        else named lower "Content-Type" vars.current) ∧
      ∀ name, lower "Content-Type" ≠ lower name →
        named lower name (prepareBody lower args vars).2.current = named lower name vars.current := by
  obtain ⟨hform, hname, hother⟩ := formVars_spec lower h args
  rw [prepareBody_eq]
  dsimp only
  rw [addedType]
  -- the JSON type is added last, and only where no type stands yet
  cases hjson : args.jsonData.isNotNone with
  | false =>
    refine ⟨hform, ?_, hother⟩
    rw [if_neg Bool.false_ne_true, hname, contentType_of_not_isNotNone hjson]
    by_cases hgiven : named lower "Content-Type" vars.current = []
    · cases args.usesForm with
      | true => rw [if_pos ⟨hgiven, rfl⟩, if_pos hgiven]; rfl
      | false => rw [if_neg (fun hboth => Bool.false_ne_true hboth.2), if_pos hgiven, hgiven]; rfl
    · rw [if_neg (fun hboth => hgiven hboth.1), if_neg hgiven]
  | true =>
    obtain ⟨hall, hlast⟩ := ensureHeader_spec lower hform "Content-Type" "application/json"
    rw [if_pos rfl]
    refine ⟨hall, ?_, fun name hne => ?_⟩
    · rw [hlast, named_ensured_self, contentType_of_isNotNone hjson]
      by_cases hgiven : named lower "Content-Type" vars.current = []
      · rw [if_pos hgiven]
        cases hused : args.usesForm with
        | true =>
          have hform : named lower "Content-Type" (formVars lower args vars).current ≠ [] := by
            rw [hname, if_pos ⟨hgiven, hused⟩]
            exact List.cons_ne_nil _ _
          rw [if_neg hform, hname, if_pos ⟨hgiven, hused⟩]
          rfl
        | false =>
          rw [if_pos (by rw [hname, hused, if_neg (fun hboth => Bool.false_ne_true hboth.2), hgiven])]
          rfl
      · have hsame : named lower "Content-Type" (formVars lower args vars).current =
            named lower "Content-Type" vars.current := by rw [hname, if_neg fun hboth => hgiven hboth.1]
        rw [hsame, if_neg hgiven, if_neg hgiven]
    · rw [hlast, named_ensured_of_ne hne, hother name hne]

variable (lower) in
/-- The credentials are added after that. -/
theorem prepareAuth_spec (h : FromCaller headers vars) (defaults : SessionDefaults) (args : CompatArgs) :
    FromCaller headers (prepareAuth lower defaults args vars) ∧
      (named lower "Authorization" vars.current ≠ [] →
        named lower "Authorization" (prepareAuth lower defaults args vars).current =
          named lower "Authorization" vars.current) ∧
      ∀ name, lower "Authorization" ≠ lower name →
        named lower name (prepareAuth lower defaults args vars).current = named lower name vars.current := by
  rw [prepareAuth]
  cases val args.auth defaults.auth with
  | none => exact ⟨h, fun _ => rfl, fun _ _ => rfl⟩
  | some auth =>
    obtain ⟨hall, hcurrent⟩ := ensureHeader_spec lower h "Authorization" (basicAuth auth)
    refine ⟨hall, fun hgiven => ?_, fun name hne => ?_⟩
    · rw [hcurrent, named_ensured_self, if_neg hgiven]
    · rw [hcurrent, named_ensured_of_ne hne]

/-- The type that is added is the one of the body if and only if no form was encoded that JSON replaces. -/
theorem addedType_eq_iff (args : CompatArgs) :
    addedType args = args.bodySource.contentType ↔ ¬(args.usesForm = true ∧ args.jsonData.isNotNone = true) := by
  rw [addedType]
  cases hjson : args.jsonData.isNotNone with
  | false =>
    rw [contentType_of_not_isNotNone hjson]
    cases args.usesForm <;> simp
  | true =>
    rw [contentType_of_isNotNone hjson]
    cases args.usesForm <;> simp

/-- The headers describe the body and keep what the caller gave, if and only if the caller gave a type or no form was
encoded that JSON replaces. -/
theorem prepareRequestCompat_described_iff (hlower : lower "Content-Type" ≠ lower "Authorization")
    (readFile : String → Except ε Bytes) (defaults : SessionDefaults) (args : CompatArgs) (headers : Option Headers) :
    Described lower args headers (prepareRequestCompat lower readFile defaults args headers).1
        (prepareRequestCompat lower readFile defaults args headers).2 ↔
      named lower "Content-Type" (headers.getD .empty) ≠ [] ∨
        ¬(args.usesForm = true ∧ args.jsonData.isNotNone = true) := by
  obtain ⟨hbody, htype, hother⟩ := prepareBody_spec lower (fromCaller_callerVars headers) args
  obtain ⟨hall, hauth, hrest⟩ := prepareAuth_spec lower hbody defaults args
  rw [current_callerVars] at htype hother
  -- `Authorization` does not touch the type, so the body alone decides it
  have hfinal : named lower "Content-Type" (prepareRequestCompat lower readFile defaults args headers).1.current =
      if named lower "Content-Type" (headers.getD .empty) = [] then
        (addedType args).toList.map fun type => ("Content-Type", type)
      else named lower "Content-Type" (headers.getD .empty) := (hrest _ hlower.symm).trans htype
  constructor
  · intro hdescribed
    by_contra hneither
    rw [not_or, not_not] at hneither
    have hsame := hdescribed.contentType hneither.1
    rw [hfinal, if_pos hneither.1] at hsame
    have htypes : addedType args = args.bodySource.contentType := by
      have hinj : Function.Injective fun type : Option String => type.toList.map fun type => ("Content-Type", type) := by
        intro a b hab
        cases a <;> cases b <;> simp_all
      exact hinj hsame
    exact (addedType_eq_iff args).mp htypes (not_not.mp hneither.2)
  · intro hcondition
    refine ⟨fun prepared hprepared => ?_, fun hnone => ?_, fun name hname hgiven => ?_, fun d hd => ?_⟩
    · obtain ⟨certificates, -, heq⟩ := Fallible.bind_eq_ok_iff.mp hprepared
      obtain rfl := Except.ok.inj heq
      exact ⟨congrArg Prod.fst (prepareBody_eq args _), rfl⟩
    · rw [hfinal, if_pos hnone, (addedType_eq_iff args).mpr (hcondition.resolve_left (not_not.mpr hnone))]
    · rcases List.mem_pair.mp hname with rfl | rfl
      · rw [hfinal, if_neg hgiven]
      · have hkept := hother _ hlower
        exact (hauth (by rw [hkept]; exact hgiven)).trans hkept
    · obtain ⟨more, hmore⟩ := hall.kept
      have hfirst : (prepareRequestCompat lower readFile defaults args headers).1.dicts = headers.toList ++ more :=
        hmore.symm
      rw [hfirst, hd]
      rfl

/-- `str.lower` of ASCII. -/
def asciiLower (s : String) : String := String.ofList (s.toList.map Char.toLower)

/-- There are no files. -/
def noFiles (_ : String) : Except Unit Bytes := .error ()

def dictOf (key value : String) : PyDict String String := ⟨[(key, value)], List.nodup_singleton _⟩

/-- A form and JSON, where the caller says what the body is. -/
theorem prepareRequestCompat_described_iff_given :
    asciiLower "Content-Type" ≠ asciiLower "Authorization" ∧
      Described asciiLower
        { url := "https://example.com/", data := some (.dict (dictOf "a" "1")), jsonData := .dict [("b", .int 2)] }
        (some (dictOf "content-TYPE" "text/plain"))
        (prepareRequestCompat asciiLower noFiles { auth := some ("user", "secret") }
          { url := "https://example.com/", data := some (.dict (dictOf "a" "1")), jsonData := .dict [("b", .int 2)] }
          (some (dictOf "content-TYPE" "text/plain"))).1
        (prepareRequestCompat asciiLower noFiles { auth := some ("user", "secret") }
          { url := "https://example.com/", data := some (.dict (dictOf "a" "1")), jsonData := .dict [("b", .int 2)] }
          (some (dictOf "content-TYPE" "text/plain"))).2 := by
  have hlower : asciiLower "Content-Type" ≠ asciiLower "Authorization" := by decide +kernel
  exact ⟨hlower, (prepareRequestCompat_described_iff hlower noFiles { auth := some ("user", "secret") } _ _).mpr
    (.inl (by decide +kernel))⟩

/-- JSON that replaces a form is sent as a form. -/
theorem not_described :
    (prepareRequestCompat asciiLower noFiles {}
        { url := "https://example.com/", data := some (.dict (dictOf "a" "1")), jsonData := .dict [("b", .int 2)] }
        none).1.current.items = [("Content-Type", "application/x-www-form-urlencoded")] ∧
      (prepareRequestCompat asciiLower noFiles {}
        { url := "https://example.com/", data := some (.dict (dictOf "a" "1")), jsonData := .dict [("b", .int 2)] }
        none).2.toOption.map Prepared.body = some (some (Utf8.utf8 "\x7b\"b\": 2\x7d")) ∧
      ¬∀ (defaults : SessionDefaults) (args : CompatArgs) (headers : Option Headers),
        Described asciiLower args headers (prepareRequestCompat asciiLower noFiles defaults args headers).1
          (prepareRequestCompat asciiLower noFiles defaults args headers).2 := by
  have hitems : (prepareRequestCompat asciiLower noFiles {}
      { url := "https://example.com/", data := some (.dict (dictOf "a" "1")), jsonData := .dict [("b", .int 2)] }
      none).1.current.items = [("Content-Type", "application/x-www-form-urlencoded")] := by decide +kernel
  refine ⟨hitems, by decide +kernel, fun hall => ?_⟩
  have htype := (hall {}
    { url := "https://example.com/", data := some (.dict (dictOf "a" "1")), jsonData := .dict [("b", .int 2)] } none).contentType
    rfl
  rw [named, hitems] at htype
  revert htype
  decide +kernel

end TlsClient.Python
