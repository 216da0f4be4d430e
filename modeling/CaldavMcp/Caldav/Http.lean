/-
  Requests and replies, and the authentication helpers (`src/caldav/auth.rs` and the first
  part of `src/caldav/mod.rs`).

  A request is what a handler reads: the method, the headers (lower-case names, first match
  wins) and the whole body. The path has been matched and percent-decoded by the router
  (`Route`, in `Caldav.Router`). A reply is a response, or a panic: `Response::builder()` with
  a header value that is not a valid one fails, and every caller unwraps it.

  A response keeps its multistatus document as data; `Body.bytes` is what goes on the wire.
-/
import CaldavMcp.Caldav.Properties
import CaldavMcp.Db.Users
import CaldavMcp.Db.Calendars

namespace CaldavMcp

open Program

/-- A response body. -/
inductive Body where
  | text (s : String)
  | multistatus (doc : Multistatus)
  deriving DecidableEq, Repr

/-- The bytes of a body. -/
def Body.bytes : Body → ByteArray
  | .text s => s.toUTF8
  | .multistatus doc => doc.build.toUTF8

/-- An HTTP response. -/
structure Response where
  status : Nat
  headers : List (String × String)
  body : Body
  deriving DecidableEq, Repr

/-- The outcome of a handler. -/
inductive Reply where
  | response (r : Response)
  | panicked
  deriving DecidableEq, Repr

/-- The status of a reply, if there is a response. -/
def Reply.status? : Reply → Option Nat
  | .response r => some r.status
  | .panicked => none

/-- A success status. -/
def Reply.Success (r : Reply) : Prop :=
  ∃ status, r.status? = some status ∧ 200 ≤ status ∧ status < 300

/-- The value of a response header, if there is a response that has it. -/
def Reply.header? (name : String) : Reply → Option String
  | .response r => r.headers.lookup name
  | .panicked => none

/-- The bytes of a reply's body. -/
def Reply.bytes? : Reply → Option ByteArray
  | .response r => some r.body.bytes
  | .panicked => none

/-- A header value `HeaderValue` accepts: no control characters but the tab. The check is on
    bytes; those of a character beyond ASCII are all from 0x80 on, and allowed. -/
def validHeaderValue (s : String) : Bool :=
  s.toList.all fun c => (32 ≤ c.toNat && c.toNat ≠ 127) || c.toNat = 9

/-- `Response::builder()` with headers and a body, unwrapped. -/
def buildResponse (status : Nat) (headers : List (String × String)) (body : Body) : Reply :=
  if headers.all (validHeaderValue ·.2) then .response ⟨status, headers, body⟩ else .panicked

/-- `(status, text).into_response()`. -/
def plain (status : Nat) (text : String) : Reply :=
  .response ⟨status, [("content-type", "text/plain; charset=utf-8")], .text text⟩

/-- `axum::body::to_bytes(body, limit).await.unwrap_or_default()` on the reply's own body. -/
def Reply.buffered (limit : Nat) : Reply → Reply
  | .response r =>
    .response (if r.body.bytes.size ≤ limit then r else { r with body := .text "" })
  | .panicked => .panicked

def davHeader : String × String := ("dav", "1, 2, 3, calendar-access, calendar-schedule")

def allowHeader : String × String :=
  ("allow", "OPTIONS, GET, HEAD, PUT, DELETE, PROPFIND, PROPPATCH, REPORT, MKCALENDAR")

/-- A 207 Multi-Status response. -/
def multistatusResponse (doc : Multistatus) : Reply :=
  buildResponse 207 [("content-type", "application/xml; charset=utf-8"), davHeader]
    (.multistatus doc)

theorem multistatusResponse_eq (doc : Multistatus) :
    multistatusResponse doc = .response ⟨207,
      [("content-type", "application/xml; charset=utf-8"), davHeader], .multistatus doc⟩ := by
  unfold multistatusResponse buildResponse
  rw [if_pos (by decide)]

/-! ## Requests -/

/-- An HTTP request. -/
structure Request where
  method : String
  headers : List (String × ByteArray)
  body : ByteArray

namespace Request

/-- `HeaderValue::to_str`: visible ASCII and tab only. -/
def headerToStr (v : ByteArray) : Option String :=
  if v.data.toList.all fun b => (32 ≤ b && b < 127) || b = 9 then
    some (String.ofList (v.data.toList.map fun b => Char.ofNat b.toNat))
  else none

/-- A header as a string. -/
def header? (r : Request) (name : String) : Option String :=
  (r.headers.lookup name).bind headerToStr

/-- The Depth header (0 or 1, default 0). -/
def depth (r : Request) : Nat := if r.header? "depth" = some "1" then 1 else 0

/-- The Authorization header. -/
def authHeader (r : Request) : Option String := r.header? "authorization"

/-- The body up to a limit; an oversized body reads as empty. -/
def bodyUpTo (r : Request) (limit : Nat) : ByteArray :=
  if r.body.size ≤ limit then r.body else ByteArray.empty

end Request

/-! ## Authentication -/

/-- A 401 response. -/
def unauthorizedResponse : Reply :=
  .response ⟨401, [("www-authenticate", "Basic realm=\"CalDAV\""), davHeader],
    .text "Unauthorized"⟩

/-- The username and password of a Basic Auth header. -/
def basicCredentials (lib : Lib) (header : String) : Option (String × String) := do
  let encoded ← header.stripStart? "Basic "
  let decoded ← lib.base64Decode encoded
  let credentials ← String.fromUTF8? decoded
  credentials.splitFirst ':'

/-- Authenticate from an Authorization header value. -/
def tryBasicAuth (lib : Lib) (header : String) : Action (Option User) :=
  match basicCredentials lib header with
  | none => return none
  | some (username, password) => do
    match ← (verifyUser lib username password).run with
    | .ok user => return user
    | .error _ => return none

/-- Authenticate from an optional Authorization header. -/
def inlineAuth (lib : Lib) (authHeader : Option String) : Action (Option User) :=
  match authHeader with
  | some h => tryBasicAuth lib h
  | none => return none

/-- The user of a request: by its Authorization header when there is one, otherwise by what
    the path names. `auth_or_path_user` and `auth_or_email_user` differ in the lookup. -/
def authOr (lib : Lib) (authHeader : Option String) (lookup : Call (Option User)) :
    Action (Option User) :=
  match authHeader with
  | some h => tryBasicAuth lib h
  | none => do
    match ← lookup.run with
    | .ok user => return user
    | .error _ => return none

def authOrPathUser (lib : Lib) (authHeader : Option String) (pathUsername : String) :
    Action (Option User) := authOr lib authHeader (getUserByUsername pathUsername)

def authOrEmailUser (lib : Lib) (authHeader : Option String) (email : String) :
    Action (Option User) := authOr lib authHeader (getUserByEmail email)

/-- Whether a user owns a calendar or has a share of it. -/
def verifyCalendarAccess (user : User) (calendarId : String) : Action Bool := do
  match ← (listCalendarsForUser user.id).run with
  | .ok accessible => return accessible.any (·.id = calendarId)
  | .error _ => return false

end CaldavMcp
