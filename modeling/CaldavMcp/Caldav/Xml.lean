/-
  `src/caldav/xml/`: the multistatus builder, the properties of resources, and the parsers of
  PROPFIND and REPORT bodies.

  A `Multistatus` holds the arguments of the builder's calls in call order; `build` renders
  them to the document's text, escaping text content as `BytesText::new` does. A property's
  `Xml` content is written as it stands. The parsers are the loops of the source over the
  events of `Lib.readXml`.
-/
import CaldavMcp.Text
import CaldavMcp.Lib
import CaldavMcp.Db.Models

namespace CaldavMcp

/-! ## `xml/mod.rs` -/

def davNs : String := "DAV:"

def caldavNs : String := "urn:ietf:params:xml:ns:caldav"

def appleNs : String := "http://apple.com/ns/ical/"

def csNs : String := "http://calendarserver.org/ns/"

/-! ## `multistatus.rs` -/

/-- Content of a property. -/
inductive PropContent where
  | text (s : String)
  | xml (s : String)
  | empty
  deriving DecidableEq, Repr

/-- A single property value to include in a response. -/
structure PropValue where
  name : String
  ns : String
  value : PropContent
  deriving DecidableEq, Repr

/-- A response entry: an href with found and not-found properties. -/
structure ResponseEntry where
  href : String
  found : List PropValue
  notFound : List String
  deriving DecidableEq, Repr

/-- A multistatus document under construction. -/
structure Multistatus where
  responses : List ResponseEntry
  syncToken : Option String
  deriving DecidableEq, Repr

namespace Multistatus

def new : Multistatus := ⟨[], none⟩

/-- Add a response entry. -/
def addResponse (b : Multistatus) (href : String) (found : List PropValue)
    (notFound : List String) : Multistatus :=
  { b with responses := b.responses ++ [⟨href, found, notFound⟩] }

/-- Add a sync-token element; the one caller adds it last. -/
def addSyncToken (b : Multistatus) (token : String) : Multistatus :=
  { b with syncToken := some token }

end Multistatus

/-- The prefix declared for a namespace in the document element. -/
def nsPrefix (ns : String) : String :=
  if ns = davNs then "D"
  else if ns = caldavNs then "C"
  else if ns = appleNs then "A"
  else if ns = csNs then "CS"
  else "D"

/-- Map a namespace URI and a local name to a prefixed element name. -/
def prefixName (ns localName : String) : String := nsPrefix ns ++ ":" ++ localName

/-- The escaping of text content. -/
def escapeChar (c : Char) : List Char :=
  if c = '<' then "&lt;".toList
  else if c = '>' then "&gt;".toList
  else if c = '&' then "&amp;".toList
  else if c = '\'' then "&apos;".toList
  else if c = '"' then "&quot;".toList
  else [c]

def escapeText (s : String) : String := String.ofList (s.toList.flatMap escapeChar)

/-- `<name>text</name>`. -/
def textElement (name text : String) : String :=
  "<" ++ name ++ ">" ++ escapeText text ++ "</" ++ name ++ ">"

def PropValue.render (p : PropValue) : String :=
  let prefixed := prefixName p.ns p.name
  match p.value with
  | .text text => textElement prefixed text
  | .xml xml => "<" ++ prefixed ++ ">" ++ xml ++ "</" ++ prefixed ++ ">"
  | .empty => "<" ++ prefixed ++ "/>"

/-- A propstat with its rendered properties; nothing when there are none. -/
def renderPropstat (props : List String) (status : String) : String :=
  if props.isEmpty then ""
  else "<D:propstat><D:prop>" ++ String.join props ++ "</D:prop>" ++
    textElement "D:status" status ++ "</D:propstat>"

def ResponseEntry.render (r : ResponseEntry) : String :=
  "<D:response>" ++ textElement "D:href" r.href ++
    renderPropstat (r.found.map PropValue.render) "HTTP/1.1 200 OK" ++
    renderPropstat (r.notFound.map fun name => "<" ++ name ++ "/>") "HTTP/1.1 404 Not Found" ++
    "</D:response>"

/-- The finished document. -/
def Multistatus.build (b : Multistatus) : String :=
  "<?xml version=\"1.0\" encoding=\"utf-8\"?><D:multistatus xmlns:D=\"" ++ davNs ++
    "\" xmlns:C=\"" ++ caldavNs ++ "\" xmlns:A=\"" ++ appleNs ++ "\" xmlns:CS=\"" ++ csNs ++
    "\">" ++ String.join (b.responses.map ResponseEntry.render) ++
    (match b.syncToken with
      | some token => textElement "D:sync-token" token
      | none => "") ++ "</D:multistatus>"

/-! ## `parse.rs` -/

/-- A requested property. -/
structure PropRequest where
  ns : String
  localName : String
  deriving DecidableEq, Repr

/-- A parsed PROPFIND body. -/
inductive PropfindRequest where
  | allProp
  | propName
  | props (requested : List PropRequest)
  deriving DecidableEq, Repr

/-- A parsed REPORT body. -/
inductive ReportRequest where
  | calendarMultiget (props : List PropRequest) (hrefs : List String)
  | calendarQuery (props : List PropRequest) (timeRange : Option (String × String))
  | syncCollection (props : List PropRequest) (syncToken : String)
  deriving DecidableEq, Repr

/-- Prefix to namespace URI, the latest declaration first. -/
abbrev NsContext := List (String × String)

/-- Register the xmlns declarations of an element. -/
def NsContext.register (ctx : NsContext) (attributes : List (String × String)) : NsContext :=
  attributes.foldl (fun ctx (key, value) =>
    if key = "xmlns" then ("", value) :: ctx
    else match key.stripStart? "xmlns:" with
      | some p => (p, value) :: ctx
      | none => ctx) ctx

/-- Resolve the namespace of an element. -/
def NsContext.resolve (ctx : NsContext) (name : String) (attributes : List (String × String)) :
    String :=
  match attributes.lookup "xmlns" with
  | some ns => ns
  | none =>
    match name.splitFirst ':' with
    | some (p, _) =>
      match ctx.lookup p with
      | some ns => ns
      | none =>
        -- well-known prefix conventions
        if p = "D" ∨ p = "d" then davNs
        else if p = "C" ∨ p = "c" ∨ p = "cal" then caldavNs
        else if p = "A" ∨ p = "IC" then appleNs
        else if p = "CS" ∨ p = "cs" then csNs
        else davNs
    | none =>
      match ctx.lookup "" with
      | some ns => ns
      | none => davNs

/-- The local part of a qualified name. -/
def localNameOf (name : String) : String :=
  match name.splitFirst ':' with
  | some (_, localName) => localName
  | none => name

/-- The loop of `parse_propfind`. -/
def parsePropfindFrom (ctx : NsContext) (inProp : Bool) (props : List PropRequest) :
    List XmlEvent → PropfindRequest
  | [] => if props.isEmpty then .allProp else .props props
  | .error :: _ => .allProp
  | .start name attributes :: rest | .empty name attributes :: rest =>
    let ctx := ctx.register attributes
    let localName := localNameOf name
    if localName = "allprop" then .allProp
    else if localName = "propname" then .propName
    else if localName = "prop" then parsePropfindFrom ctx true props rest
    else if inProp then
      parsePropfindFrom ctx inProp
        (props ++ [⟨ctx.resolve name attributes, localName⟩]) rest
    else parsePropfindFrom ctx inProp props rest
  | .stop name :: rest =>
    parsePropfindFrom ctx (if localNameOf name = "prop" then false else inProp) props rest
  | _ :: rest => parsePropfindFrom ctx inProp props rest

/-- Parse a PROPFIND body. -/
def parsePropfind (lib : Lib) (body : ByteArray) : PropfindRequest :=
  if body.isEmpty then .allProp else parsePropfindFrom [] false [] (lib.readXml body)

/-- The kind of a REPORT. -/
inductive ReportType where
  | multiget
  | query
  | sync
  deriving DecidableEq, Repr

/-- The accumulators of `parse_report`. -/
structure ReportState where
  ctx : NsContext
  reportType : Option ReportType
  inProp : Bool
  inSyncToken : Bool
  inHref : Bool
  props : List PropRequest
  hrefs : List String
  timeStart : String
  timeEnd : String
  syncToken : String

namespace ReportState

def init : ReportState := ⟨[], none, false, false, false, [], [], "", "", ""⟩

/-- A start or empty element. -/
def openElement (s : ReportState) (name : String) (attributes : List (String × String)) :
    ReportState :=
  let s := { s with ctx := s.ctx.register attributes }
  let localName := localNameOf name
  if localName = "calendar-multiget" then { s with reportType := some .multiget }
  else if localName = "calendar-query" then { s with reportType := some .query }
  else if localName = "sync-collection" then { s with reportType := some .sync }
  else if localName = "prop" then { s with inProp := true }
  else if localName = "filter" ∨ localName = "comp-filter" then s
  else if localName = "href" then { s with inHref := true }
  else if localName = "sync-token" then { s with inSyncToken := true }
  else if localName = "time-range" then
    attributes.foldl (fun s (key, value) =>
      if key = "start" then { s with timeStart := value }
      else if key = "end" then { s with timeEnd := value }
      else s) s
  else if s.inProp then
    { s with props := s.props ++ [⟨s.ctx.resolve name attributes, localName⟩] }
  else s

/-- An end element. -/
def closeElement (s : ReportState) (name : String) : ReportState :=
  let localName := localNameOf name
  if localName = "prop" then { s with inProp := false }
  else if localName = "href" then { s with inHref := false }
  else if localName = "sync-token" then { s with inSyncToken := false }
  else s

/-- A text event. -/
def text (s : ReportState) (t : String) : ReportState :=
  if s.inHref then { s with hrefs := s.hrefs ++ [t] }
  else if s.inSyncToken then { s with syncToken := t }
  else s

/-- The request the accumulators describe. -/
def finish (s : ReportState) : Option ReportRequest :=
  match s.reportType with
  | some .multiget => some (.calendarMultiget s.props s.hrefs)
  | some .query => some (.calendarQuery s.props
      (if s.timeStart ≠ "" ∧ s.timeEnd ≠ "" then some (s.timeStart, s.timeEnd) else none))
  | some .sync => some (.syncCollection s.props s.syncToken)
  | none => none

/-- The loop of `parse_report`. -/
def run (s : ReportState) : List XmlEvent → Option ReportRequest
  | [] => s.finish
  | .error :: _ => none
  | .start name attributes :: rest | .empty name attributes :: rest =>
    (s.openElement name attributes).run rest
  | .stop name :: rest => (s.closeElement name).run rest
  | .text t :: rest => (s.text t).run rest
  | .other :: rest => s.run rest

end ReportState

/-- Parse a REPORT body. -/
def parseReport (lib : Lib) (body : ByteArray) : Option ReportRequest :=
  if body.isEmpty then none else ReportState.init.run (lib.readXml body)

/-- The loop of `extract_prop_value` and of `extract_xml_value`: the first text inside an
    element with the given local name. The two differ only in that the former leaves the
    element on an end tag if it is inside. -/
def extractValueFrom (localName : String) (inTarget : Bool) : List XmlEvent → Option String
  | [] => none
  | .error :: _ => none
  | .start name _ :: rest =>
    extractValueFrom localName (inTarget || localNameOf name = localName) rest
  | .text t :: rest => if inTarget then some t else extractValueFrom localName inTarget rest
  | .stop _ :: rest => extractValueFrom localName false rest
  | _ :: rest => extractValueFrom localName inTarget rest

end CaldavMcp
