/-
  The request extensions (`src/caldav/mod.rs` and the method handlers).

  A method handler does not take the user as an argument: it reads the `User` extension of the
  request and unwraps it. A dispatcher puts the resolved user there, and on the email routes the
  href context. Here both are written so: `unwrapUser` is the unwrap, which panics where the
  extension is missing, and the dispatchers start from a request without extensions.

  `Extensions.handle_eq`: every dispatcher inserts the user before it calls a handler that reads
  it, so the server is `handle`, which hands the user over as an argument.
-/
import CaldavMcp.Caldav.Router

namespace CaldavMcp

open Program

/-- The extensions of a request that are read: `get::<User>()` and `get::<HrefContext>()`. -/
structure Extensions where
  user : Option User
  hrefCtx : Option HrefContext

namespace Extensions

/-- A request comes in without them. -/
def new : Extensions := ⟨none, none⟩

def insertUser (user : User) (extensions : Extensions) : Extensions :=
  { extensions with user := some user }

def insertContext (ctx : HrefContext) (extensions : Extensions) : Extensions :=
  { extensions with hrefCtx := some ctx }

/-- `request.extensions().get::<User>().unwrap()`, and what is done with the user. -/
def unwrapUser (extensions : Extensions) (handler : User → Action Reply) : Action Reply :=
  match extensions.user with
  | some user => handler user
  | none => return .panicked

/-! ## The handlers that read them -/

section

variable (lib : Lib) (extensions : Extensions) (request : Request)

/-- `propfind::handle_calendar_home`. -/
def propfindHome : Action Reply :=
  extensions.unwrapUser fun user => handlePropfindHome lib user request

/-- `propfind::handle_calendar`. -/
def propfindCalendar (calendarId : String) : Action Reply :=
  extensions.unwrapUser fun user =>
    handlePropfindCalendar lib user extensions.hrefCtx calendarId request

def report (calendarId : String) : Action Reply :=
  extensions.unwrapUser fun user => handleReport lib user extensions.hrefCtx calendarId request

def mkcalendar (username calendarId : String) : Action Reply :=
  extensions.unwrapUser fun user => handleMkcalendar lib user username calendarId request

def proppatch (calendarId : String) : Action Reply :=
  extensions.unwrapUser fun user => handleProppatch lib user extensions.hrefCtx calendarId request

/-- The methods of a calendar collection. -/
def collectionMethods (username calendarId : String) : Action Reply :=
  if request.method = "PROPFIND" then propfindCalendar lib extensions request calendarId
  else if request.method = "REPORT" then report lib extensions request calendarId
  else if request.method = "MKCALENDAR" then mkcalendar lib extensions request username calendarId
  else if request.method = "PROPPATCH" then proppatch lib extensions request calendarId
  else if request.method = "DELETE" then handleDeleteCalendar calendarId
  else return methodNotAllowed

end

/-! ## The dispatchers -/

section

variable (lib : Lib) (request : Request)

/-- A calendar collection: access is checked, then the extensions are there for the method. -/
def collectionFor (user : User) (extensions : Extensions) (username calendarId : String) :
    Action Reply := do
  if request.method ≠ "MKCALENDAR" then
    if ← verifyCalendarAccess user calendarId then
      collectionMethods lib extensions request username calendarId
    else return accessDenied
  else collectionMethods lib extensions request username calendarId

def handleEmailCalendarCollection (email calendarId : String) : Action Reply :=
  withUser (authOrEmailUser lib request.authHeader email) request fun user =>
    let ctx : HrefContext := ⟨some (encodeEmailForPath email), user.username⟩
    collectionFor lib request user ((new.insertUser user).insertContext ctx) user.username
      calendarId

def handleCalendarHome (username : String) : Action Reply :=
  withUser (authOrPathUser lib request.authHeader username) request fun user =>
    if request.method = "PROPFIND" then propfindHome lib (new.insertUser user) request
    else return methodNotAllowed

def handleCalendarCollection (username calendarId : String) : Action Reply :=
  withUser (authOrPathUser lib request.authHeader username) request fun user =>
    collectionFor lib request user (new.insertUser user) username calendarId

/-- The server on one request. GET, PUT and DELETE of an object read no extension. -/
def handle (route : Route) : Action Reply :=
  match route with
  | .emailCollection email calendarId =>
    handleEmailCalendarCollection lib request email calendarId
  | .calendarHome username => handleCalendarHome lib request username
  | .calendarCollection username calendarId =>
    handleCalendarCollection lib request username calendarId
  | .wellKnown => return handleWellKnown request
  | .serverRoot => handleServerRoot lib request
  | .caldavRoot | .fallback => handleCaldavRoot lib request
  | .principal username => return handlePrincipalDiscovery username request
  | .emailHome email => handleCaldavEmailDiscovery lib email request
  | .emailObject email calendarId filename =>
    handleEmailObject lib email calendarId filename request
  | .object username calendarId filename =>
    handleObject lib username calendarId filename request

end

/-! ## The user is there where it is read -/

section

variable {extensions : Extensions} {user : User}

theorem unwrapUser_of_some (h : extensions.user = some user) (handler : User → Action Reply) :
    extensions.unwrapUser handler = handler user := by
  unfold unwrapUser
  rw [h]

theorem collectionMethods_eq (lib : Lib) (request : Request) (h : extensions.user = some user)
    (username calendarId : String) :
    collectionMethods lib extensions request username calendarId =
      CaldavMcp.collectionMethods lib user extensions.hrefCtx username calendarId request := by
  unfold collectionMethods propfindCalendar report mkcalendar proppatch
  simp only [unwrapUser_of_some h]
  rfl

theorem collectionFor_eq (lib : Lib) (request : Request) (h : extensions.user = some user)
    (username calendarId : String) :
    collectionFor lib request user extensions username calendarId =
      CaldavMcp.collectionFor lib user extensions.hrefCtx username calendarId request := by
  unfold collectionFor
  rw [collectionMethods_eq lib request h]
  rfl

/-- No extension is missing: the server is the one that passes the user on. -/
theorem handle_eq (lib : Lib) (request : Request) (route : Route) :
    handle lib request route = CaldavMcp.handle lib route request := by
  cases route with
  | emailCollection email calendarId =>
    apply congrArg (withUser (authOrEmailUser lib request.authHeader email) request)
    funext user
    exact collectionFor_eq lib request rfl user.username calendarId
  | calendarCollection username calendarId =>
    apply congrArg (withUser (authOrPathUser lib request.authHeader username) request)
    funext user
    exact collectionFor_eq lib request rfl username calendarId
  | _ => rfl

end

end Extensions

end CaldavMcp
