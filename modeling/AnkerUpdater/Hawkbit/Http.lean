import AnkerUpdater.Hawkbit.Download
import AnkerUpdater.Lib.HandleLog
import AnkerUpdater.Lib.Runs

/-!
# The requests of the client

The HTTP handles and the heap blocks of every request, with the texts and
the reply in them, from the first `asprintf` to the last `free`.  The block
of a reply is as long as its Content-Length says and holds no terminator of
its own.
-/

namespace AnkerUpdater.Hawkbit

open HandleLog Runs

/-- What is done with a handle or a block. -/
inductive HttpOp where
  | readText
  | setHeader
  | openConnection
  | fetchHeaders
  | getStatusCode
  | getContentLength
  | transfer
  | otaWrite
  | closeConnection
  | parse
  | lookUp
  deriving DecidableEq

inductive HttpRc where
  | ok
  | errHttpClient
  | errHeaders
  | errNoMemLeft
  | errJsonParsing
  deriving DecidableEq

abbrev Resources := Ledger HttpOp

/-! ## Headers -/

structure HeadersEnv where
  host : Bool
  accept : Bool
  contentType : Bool
  asprintf : Bool
  authorization : Bool

def HeadersEnv.works (E : HeadersEnv) (type : Bool) : Bool :=
  E.host && (!type || (E.accept && E.contentType)) && E.asprintf && E.authorization

def httpSetHeaders (type : Bool) (E : HeadersEnv) (handle : ℕ) (v : Resources) :
    HttpRc × Resources :=
  let host := v.uses .setHeader handle
  let accept := if type then host.uses .setHeader handle else host
  let contentType := if type then accept.uses .setHeader handle else accept
  if !E.host then (.errHeaders, host)
  else if type && !E.accept then (.errHeaders, accept)
  else if type && !E.contentType then (.errHeaders, contentType)
  else if !E.asprintf then (.errNoMemLeft, contentType)
  else
    let value := contentType.next
    let set := (contentType.opens.uses .setHeader handle).uses .readText value
    (if E.authorization then .ok else .errHeaders, set.closes value)

/-- The label `cleanup`; `esp_http_client_cleanup` releases the handle. -/
def cleanup (handle : ℕ) (close cleaned : Bool) (err : HttpRc) (v : Resources) :
    HttpRc × Resources :=
  (if close && cleaned then err else .errHttpClient,
    (v.uses .closeConnection handle).closes handle)

/-! ## GET -/

/-- `response` is what the server sends, `uninit` what `malloc` leaves;
`statusCode` and `contentLength` are the values in the `int32_t` variables
of these names. -/
structure GetEnv where
  clientInit : Bool
  headers : HeadersEnv
  clientOpen : Bool
  fetchHeaders : Bool
  statusCode : ℤ
  contentLength : ℤ
  malloc : Bool
  uninit : ℕ → UInt8
  response : List UInt8
  clientClose : Bool
  clientCleanup : Bool

structure Block where
  id : ℕ
  bytes : List UInt8

/-- The block after `esp_http_client_read_response`. -/
def GetEnv.block (E : GetEnv) : List UInt8 :=
  List.ofFn fun i : Fin E.contentLength.toNat ↦ E.response.getD i (E.uninit i)

def GetEnv.lengthFits (E : GetEnv) : Bool := 1 ≤ E.contentLength && E.contentLength ≤ 4096

/-- Every operation of the request succeeds. -/
def GetEnv.delivers (E : GetEnv) : Bool :=
  E.clientInit && E.headers.works false && E.clientOpen && E.fetchHeaders &&
    E.statusCode = 200 && E.lengthFits && E.malloc && !E.response.isEmpty &&
    E.clientClose && E.clientCleanup

def getBeforeCleanup (E : GetEnv) (handle : ℕ) (v : Resources) :
    HttpRc × Option Block × Resources :=
  match httpSetHeaders false E.headers handle v with
  | (rc, set) =>
      let opened := set.uses .openConnection handle
      let fetched := opened.uses .fetchHeaders handle
      let known := (fetched.uses .getStatusCode handle).uses .getContentLength handle
      if rc ≠ .ok then (.errHttpClient, none, set)
      else if !E.clientOpen then (.errHttpClient, none, opened)
      else if !E.fetchHeaders then (.errHttpClient, none, fetched)
      else if E.statusCode ≠ 200 then (.errHttpClient, none, known)
      else if !E.lengthFits then (.errHttpClient, none, known)
      else if !E.malloc then (.errHttpClient, none, known)
      else
        let read := (known.opens.uses .transfer handle).uses .transfer known.next
        (if E.response.isEmpty then .errHttpClient else .ok, some ⟨known.next, E.block⟩, read)

def httpRequestTypeGet (E : GetEnv) (v : Resources) : HttpRc × Option Block × Resources :=
  if !E.clientInit then (.errHttpClient, none, v)
  else
    match getBeforeCleanup E v.next v.opens with
    | (err, data, before) =>
        match cleanup v.next E.clientClose E.clientCleanup err before with
        | (err, cleaned) =>
            if err ≠ .ok then
              (.errHttpClient, none, data.elim cleaned fun block ↦ cleaned.closes block.id)
            else (.ok, data, cleaned)

/-! ## POST and PUT -/

structure PostEnv where
  clientInit : Bool
  headers : HeadersEnv
  clientOpen : Bool
  clientWrite : Bool
  fetchHeaders : Bool
  statusCode : ℤ
  clientClose : Bool
  clientCleanup : Bool

def postBeforeCleanup (E : PostEnv) (data handle : ℕ) (v : Resources) : HttpRc × Resources :=
  match httpSetHeaders true E.headers handle v with
  | (rc, set) =>
      let opened := set.uses .openConnection handle
      let written := (opened.uses .transfer handle).uses .readText data
      let fetched := written.uses .fetchHeaders handle
      if rc ≠ .ok then (.errHttpClient, set)
      else if !E.clientOpen then (.errHttpClient, opened)
      else if !E.clientWrite then (.errHttpClient, written)
      else if !E.fetchHeaders then (.errHttpClient, fetched)
      else
        (if E.statusCode = 200 then .ok else .errHttpClient, fetched.uses .getStatusCode handle)

def httpRequestTypePostPut (E : PostEnv) (data : ℕ) (v : Resources) : HttpRc × Resources :=
  if !E.clientInit then (.errHttpClient, v)
  else
    match postBeforeCleanup E data v.next v.opens with
    | (err, before) =>
        match cleanup v.next E.clientClose E.clientCleanup err before with
        | (err, cleaned) => (if err = .ok then .ok else .errHttpClient, cleaned)

/-! ## Downloads -/

/-- The loop of `http_request_download_data`. -/
def readUses (m : ModuleType) (handle buffer : ℕ) : List Read → Resources → Resources
  | [], v => (v.uses .transfer handle).uses .transfer buffer
  | .failed :: _, v => (v.uses .transfer handle).uses .transfer buffer
  | .data bytes otaWrite :: rs, v =>
      let read := (v.uses .transfer handle).uses .transfer buffer
      if bytes = [] then read
      else if m = .anker then
        if otaWrite then readUses m handle buffer rs (read.uses .otaWrite buffer)
        else read.uses .otaWrite buffer
      else readUses m handle buffer rs read

/-- `http_request_download_data` without its OTA session; `headers` decides
whether the headers can be set. -/
def downloadResources (m : ModuleType) (E : DownloadEnv) (headers : HeadersEnv) (v : Resources) :
    Resources :=
  if !E.clientInit then v
  else
    let cleaned (v' : Resources) := (v'.uses .closeConnection v.next).closes v.next
    match httpSetHeaders false headers v.next v.opens with
    | (rc, set) =>
        let opened := set.uses .openConnection v.next
        let fetched := opened.uses .fetchHeaders v.next
        let known := (fetched.uses .getStatusCode v.next).uses .getContentLength v.next
        if rc ≠ .ok then cleaned set
        else if !E.clientOpen then cleaned opened
        else if !E.fetchHeaders then cleaned fetched
        else if E.statusCode ≠ 200 ∨ E.contentLength < 1 ∨ E.malloc = false then cleaned known
        else
          let buffer := known.next
          if m = .anker ∧ (E.nextUpdatePartition = none ∨ E.otaBegin = false) then
            (cleaned known.opens).closes buffer
          else (cleaned (readUses m v.next buffer E.reads known.opens)).closes buffer

/-! ## The requests of the task -/

/-- `inside` stays true as long as no text is read beyond its block. -/
structure Requests where
  resources : Resources
  inside : Bool

namespace Requests

def init : Requests := ⟨.init, true⟩

variable (s : Requests)

/-- `cJSON_Parse` takes a string, so it reads up to the first zero byte;
the parsed value is looked into and deleted. -/
def parseReply (data : Option Block) (parsed : Bool) : HttpRc × Requests :=
  match data with
  | none => (.errJsonParsing, s)
  | some block =>
      let read := s.resources.uses .parse block.id
      let done := if parsed then (read.opens.uses .lookUp read.next).closes read.next else read
      (if parsed then .ok else .errJsonParsing,
        ⟨done.closes block.id, s.inside && decide (0 ∈ block.bytes)⟩)

structure RetrieveEnv where
  asprintf : Bool
  get : GetEnv
  parsed : Bool

def retrieveAssignedDeployment (E : RetrieveEnv) : HttpRc × Requests :=
  match httpRequestTypeGet E.get s.resources with
  | (.ok, data, v) => { s with resources := v }.parseReply data E.parsed
  | (_, _, v) => (.errHttpClient, { s with resources := v })

def retrieveActionsToDo (E : RetrieveEnv) : HttpRc × Requests :=
  if !E.asprintf then (.errNoMemLeft, s)
  else
    let url := s.resources.next
    match httpRequestTypeGet E.get (s.resources.opens.uses .readText url) with
    | (.ok, data, v) => { s with resources := v.closes url }.parseReply data E.parsed
    | (_, _, v) => (.errHttpClient, { s with resources := v.closes url })

structure SendEnv where
  asprintfUrl : Bool
  asprintfData : Bool
  post : PostEnv

/-- A text with its URL. -/
def sendText (E : SendEnv) : HttpRc × Requests :=
  if !E.asprintfUrl then (.errNoMemLeft, s)
  else
    let url := s.resources.next
    let formatted := s.resources.opens
    if !E.asprintfData then (.errNoMemLeft, { s with resources := formatted.closes url })
    else
      let data := formatted.next
      match httpRequestTypePostPut E.post data (formatted.opens.uses .readText url) with
      | (rc, v) => (rc, { s with resources := (v.closes url).closes data })

def sendUpdateFeedback (E : SendEnv) : HttpRc × Requests := s.sendText E

def sendStatusMessage (E : SendEnv) : HttpRc × Requests := s.sendText E

inductive Request where
  | retrieveActionsToDo (E : RetrieveEnv)
  | retrieveAssignedDeployment (E : RetrieveEnv)
  | downloadData (m : ModuleType) (E : DownloadEnv) (headers : HeadersEnv)
  | sendUpdateFeedback (E : SendEnv)
  | sendStatusMessage (E : SendEnv)

def step : Request → Requests
  | .retrieveActionsToDo E => (s.retrieveActionsToDo E).2
  | .retrieveAssignedDeployment E => (s.retrieveAssignedDeployment E).2
  | .downloadData m E headers => { s with resources := downloadResources m E headers s.resources }
  | .sendUpdateFeedback E => (s.sendUpdateFeedback E).2
  | .sendStatusMessage E => (s.sendStatusMessage E).2

/-- Nothing is left open or allocated, everything was used only before its
release, and every text that was read ended inside its block. -/
structure Clean (s : Requests) : Prop where
  resources : s.resources.Holds ∅
  inside : s.inside = true

end Requests

/-! ## What one request does -/

section

variable {v : Resources} {live : Set ℕ} {handle : ℕ}

end

namespace Requests

variable {s : Requests}

end Requests

end AnkerUpdater.Hawkbit
