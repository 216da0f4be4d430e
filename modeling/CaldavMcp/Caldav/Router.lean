/-
  The CalDAV router (`src/caldav/mod.rs`, `wellknown.rs`).

  `Route` is a matched path with its percent-decoded segments; routes that differ in a
  trailing slash only are one. `handle` is the whole server on one request.
-/
import CaldavMcp.Caldav.Handlers

namespace CaldavMcp

open Program

/-- The routes of the CalDAV port. -/
inductive Route where
  | wellKnown
  | serverRoot
  | caldavRoot
  | principal (username : String)
  | fallback
  | emailHome (email : String)
  | emailCollection (email calendarId : String)
  | emailObject (email calendarId filename : String)
  | calendarHome (username : String)
  | calendarCollection (username calendarId : String)
  | object (username calendarId filename : String)
  deriving DecidableEq, Repr

/-- The answer to OPTIONS at any CalDAV path. -/
def handleOptions : Reply := .response ⟨200, [davHeader, allowHeader], .text ""⟩

def methodNotAllowed : Reply := plain 405 "Method not allowed"

def accessDenied : Reply := plain 403 "Access denied"

def handleWellKnown (request : Request) : Reply :=
  if request.method = "OPTIONS" then handleOptions
  else buildResponse 301 [("location", "/caldav/"), davHeader] (.text "")

/-- The PROPFIND answer of the discovery paths. -/
def discoveryAnswer (lib : Lib) (href : String) (request : Request) : Action Reply := do
  match ← inlineAuth lib request.authHeader with
  | some user =>
    return multistatusResponse (Multistatus.new.addResponse href (rootProps user.username) [])
  | none =>
    return multistatusResponse (Multistatus.new.addResponse href rootPropsUnauthenticated [])

/-- "/". -/
def handleServerRoot (lib : Lib) (request : Request) : Action Reply :=
  if request.method = "OPTIONS" then return handleOptions
  else if request.method = "PROPFIND" then discoveryAnswer lib "/" request
  else return buildResponse 301 [("location", "/caldav/")] (.text "")

/-- "/caldav/", and the fallback paths "/principals/" and "/principals/username/". -/
def handleCaldavRoot (lib : Lib) (request : Request) : Action Reply :=
  if request.method = "OPTIONS" then return handleOptions
  else if request.method = "PROPFIND" then discoveryAnswer lib "/caldav/" request
  else return methodNotAllowed

/-- "/caldav/principals/username/". -/
def handlePrincipalDiscovery (username : String) (request : Request) : Reply :=
  if request.method = "OPTIONS" then handleOptions
  else buildResponse 301 [("location", "/caldav/users/" ++ username ++ "/")] (.text "")

/-- "/calendar/dav/email/user/". -/
def handleCaldavEmailDiscovery (lib : Lib) (email : String) (request : Request) :
    Action Reply :=
  if request.method = "OPTIONS" then return handleOptions
  else if request.method = "PROPFIND" then
    let requestPath := "/calendar/dav/" ++ encodeEmailForPath email ++ "/user/"
    let propfind := parsePropfind lib (request.bodyUpTo (64 * 1024))
    match request.authHeader with
    | some h => do
      match ← tryBasicAuth lib h with
      | some user => handleEmailHome user requestPath request.depth email propfind
      | none => return unauthorizedResponse
    | none => do
      match ← (getUserByEmail email).run with
      | .ok (some user) =>
        return (← handleEmailHome user requestPath request.depth email propfind).buffered
          (512 * 1024)
      | _ => return unauthorizedResponse
  else return methodNotAllowed

/-- The methods of a calendar collection, for a resolved user. `username` is what the method
    handlers take as the path's username. -/
def collectionMethods (lib : Lib) (user : User) (hrefCtx : Option HrefContext)
    (username calendarId : String) (request : Request) : Action Reply :=
  if request.method = "PROPFIND" then
    handlePropfindCalendar lib user hrefCtx calendarId request
  else if request.method = "REPORT" then handleReport lib user hrefCtx calendarId request
  else if request.method = "MKCALENDAR" then
    handleMkcalendar lib user username calendarId request
  else if request.method = "PROPPATCH" then
    handleProppatch lib user hrefCtx calendarId request
  else if request.method = "DELETE" then handleDeleteCalendar calendarId
  else return methodNotAllowed

/-- The methods of a calendar object. -/
def objectMethods (calendarId filename : String) (request : Request) : Action Reply :=
  if request.method = "GET" then handleGet calendarId filename
  else if request.method = "PUT" then handlePut calendarId filename request
  else if request.method = "DELETE" then handleDeleteObject calendarId filename
  else return methodNotAllowed

/-- A calendar collection: access is checked for every method but MKCALENDAR. -/
def collectionFor (lib : Lib) (user : User) (hrefCtx : Option HrefContext)
    (username calendarId : String) (request : Request) : Action Reply := do
  if request.method ≠ "MKCALENDAR" then
    if ← verifyCalendarAccess user calendarId then
      collectionMethods lib user hrefCtx username calendarId request
    else return accessDenied
  else collectionMethods lib user hrefCtx username calendarId request

/-- A calendar object: access is checked for every method. -/
def objectFor (user : User) (calendarId filename : String) (request : Request) :
    Action Reply := do
  if ← verifyCalendarAccess user calendarId then objectMethods calendarId filename request
  else return accessDenied

/-- Resolve the user, then continue; OPTIONS needs no user. -/
def withUser (auth : Action (Option User)) (request : Request) (k : User → Action Reply) :
    Action Reply :=
  if request.method = "OPTIONS" then return handleOptions
  else do
    match ← auth with
    | some user => k user
    | none => return unauthorizedResponse

def handleEmailCalendarCollection (lib : Lib) (email calendarId : String) (request : Request) :
    Action Reply :=
  withUser (authOrEmailUser lib request.authHeader email) request fun user =>
    collectionFor lib user (some ⟨some (encodeEmailForPath email), user.username⟩) user.username
      calendarId request

def handleEmailObject (lib : Lib) (email calendarId filename : String) (request : Request) :
    Action Reply :=
  withUser (authOrEmailUser lib request.authHeader email) request fun user =>
    objectFor user calendarId filename request

def handleCalendarHome (lib : Lib) (username : String) (request : Request) : Action Reply :=
  withUser (authOrPathUser lib request.authHeader username) request fun user =>
    if request.method = "PROPFIND" then handlePropfindHome lib user request
    else return methodNotAllowed

def handleCalendarCollection (lib : Lib) (username calendarId : String) (request : Request) :
    Action Reply :=
  withUser (authOrPathUser lib request.authHeader username) request fun user =>
    collectionFor lib user none username calendarId request

def handleObject (lib : Lib) (username calendarId filename : String) (request : Request) :
    Action Reply :=
  withUser (authOrPathUser lib request.authHeader username) request fun user =>
    objectFor user calendarId filename request

/-- The server on one request. -/
def handle (lib : Lib) (route : Route) (request : Request) : Action Reply :=
  match route with
  | .wellKnown => return handleWellKnown request
  | .serverRoot => handleServerRoot lib request
  | .caldavRoot | .fallback => handleCaldavRoot lib request
  | .principal username => return handlePrincipalDiscovery username request
  | .emailHome email => handleCaldavEmailDiscovery lib email request
  | .emailCollection email calendarId =>
    handleEmailCalendarCollection lib email calendarId request
  | .emailObject email calendarId filename =>
    handleEmailObject lib email calendarId filename request
  | .calendarHome username => handleCalendarHome lib username request
  | .calendarCollection username calendarId =>
    handleCalendarCollection lib username calendarId request
  | .object username calendarId filename =>
    handleObject lib username calendarId filename request

end CaldavMcp
