/-
  Request bodies, written and read back.

  A client writes a PROPFIND or calendar-multiget body with prefixes of its own choice, declared
  on the root element (`Declarations`), and the parser finds the properties and hrefs it meant,
  whatever the prefixes (`requests_read_back`). The writer gives the elements and texts of the
  body in document order; `written` is the text of the body. The reader of the library is taken
  to yield these very events for that text.
-/
import CaldavMcp.Caldav.Xml

namespace CaldavMcp

/-! ## Writing -/

/-- An attribute. -/
def writtenAttribute (a : String × String) : String := " " ++ a.1 ++ "=\"" ++ a.2 ++ "\""

/-- The text of one event. -/
def XmlEvent.written : XmlEvent → String
  | .start name attributes => "<" ++ name ++ String.join (attributes.map writtenAttribute) ++ ">"
  | .empty name attributes => "<" ++ name ++ String.join (attributes.map writtenAttribute) ++ "/>"
  | .stop name => "</" ++ name ++ ">"
  | .text t => escapeText t
  | .other | .error => ""

/-- The text of a body. -/
def written (events : List XmlEvent) : String := String.join (events.map XmlEvent.written)

/-- Namespaces and the prefixes chosen for them. The empty prefix makes a namespace the
    default one. -/
structure Declarations where
  namespaces : List String
  prefixOf : String → String
  /-- two namespaces have two prefixes -/
  apart : ∀ ns ∈ namespaces, ∀ ns' ∈ namespaces, prefixOf ns = prefixOf ns' → ns = ns'
  plain : ∀ ns ∈ namespaces, ':' ∉ (prefixOf ns).toList

namespace Declarations

variable (d : Declarations)

/-- The xmlns attributes of the root element. -/
def attributes : List (String × String) :=
  d.namespaces.map fun ns =>
    (if d.prefixOf ns = "" then "xmlns" else "xmlns:" ++ d.prefixOf ns, ns)

/-- The name of an element. -/
def qualified (ns localName : String) : String :=
  if d.prefixOf ns = "" then localName else d.prefixOf ns ++ ":" ++ localName

end Declarations

/-- A requested property, written as `<p:name/>` or as `<p:name></p:name>`. -/
structure Asked where
  prop : PropRequest
  selfClosing : Bool
  deriving DecidableEq, Repr

def Asked.events (d : Declarations) (a : Asked) : List XmlEvent :=
  let name := d.qualified a.prop.ns a.prop.localName
  if a.selfClosing then [.empty name []] else [.start name [], .stop name]

/-- The `prop` element. -/
def propEvents (d : Declarations) (asked : List Asked) : List XmlEvent :=
  [.start (d.qualified davNs "prop") []] ++ asked.flatMap (Asked.events d) ++
    [.stop (d.qualified davNs "prop")]

def hrefEvents (d : Declarations) (href : String) : List XmlEvent :=
  [.start (d.qualified davNs "href") [], .text href, .stop (d.qualified davNs "href")]

/-- A propfind body. -/
def propfindEvents (d : Declarations) (asked : List Asked) : List XmlEvent :=
  [.start (d.qualified davNs "propfind") d.attributes] ++ propEvents d asked ++
    [.stop (d.qualified davNs "propfind")]

/-- A calendar-multiget body. -/
def multigetEvents (d : Declarations) (asked : List Asked) (hrefs : List String) :
    List XmlEvent :=
  [.start (d.qualified caldavNs "calendar-multiget") d.attributes] ++ propEvents d asked ++
    hrefs.flatMap (hrefEvents d) ++ [.stop (d.qualified caldavNs "calendar-multiget")]

/-- The element names `parse_propfind` treats specially. -/
def propfindWords : List String := ["allprop", "propname", "prop"]

/-- The element names `parse_report` treats specially. -/
def reportWords : List String :=
  ["calendar-multiget", "calendar-query", "sync-collection", "prop", "filter", "comp-filter",
    "href", "sync-token", "time-range"]

/-! ## Names and prefixes -/

section

variable {d : Declarations} {ns localName : String}

/-- A qualified name splits where it was joined. -/
theorem splitFirst_qualified (hns : ns ∈ d.namespaces) (hl : ':' ∉ localName.toList) :
    (d.qualified ns localName).splitFirst ':' =
      if d.prefixOf ns = "" then none else some (d.prefixOf ns, localName) := by
  unfold Declarations.qualified String.splitFirst
  split
  · rw [Text.splitOnce_of_not_mem hl]
    rfl
  · rw [String.toList_append, String.toList_append, List.append_assoc]
    rw [show ":".toList ++ localName.toList = ':' :: localName.toList from rfl,
      Text.splitOnce_append (d.plain ns hns)]
    simp

theorem localNameOf_qualified (hns : ns ∈ d.namespaces) (hl : ':' ∉ localName.toList) :
    localNameOf (d.qualified ns localName) = localName := by
  unfold localNameOf
  rw [splitFirst_qualified hns hl]
  by_cases hp : d.prefixOf ns = ""
  · rw [if_pos hp]
    exact if_pos hp
  · rw [if_neg hp]

/-- The context after the root element holds the declarations. -/
theorem register_attributes (d : Declarations) :
    NsContext.register [] d.attributes =
      (d.namespaces.map fun ns => (d.prefixOf ns, ns)).reverse := by
  have h : ∀ (l : List String) (ctx : NsContext), NsContext.register ctx (l.map fun ns =>
      (if d.prefixOf ns = "" then "xmlns" else "xmlns:" ++ d.prefixOf ns, ns)) =
      (l.map fun ns => (d.prefixOf ns, ns)).reverse ++ ctx := by
    intro l
    induction l with
    | nil => exact fun _ => rfl
    | cons ns l ih =>
      intro ctx
      rw [List.map_cons, List.map_cons, List.reverse_cons, List.append_assoc]
      refine Eq.trans ?_ (ih ((d.prefixOf ns, ns) :: ctx))
      unfold NsContext.register
      rw [List.foldl_cons]
      congr 1
      by_cases hp : d.prefixOf ns = ""
      · rw [if_pos hp, hp]
        rfl
      · have hne : "xmlns:" ++ d.prefixOf ns ≠ "xmlns" := by
          intro heq
          have := congrArg (fun s : String => s.toList.length) heq
          simp at this
        rw [if_neg hp]
        dsimp only
        rw [if_neg hne, String.stripStart?_append]
  exact (h d.namespaces []).trans (List.append_nil _)

/-- A key with one value is looked up to it. -/
theorem lookup_eq_some {l : List (String × String)} {k v : String} (hmem : (k, v) ∈ l)
    (huniq : ∀ v', (k, v') ∈ l → v' = v) : l.lookup k = some v := by
  induction l with
  | nil => cases hmem
  | cons e l ih =>
    obtain ⟨k', v'⟩ := e
    by_cases hk : k = k'
    · subst hk
      rw [List.lookup_cons_self, huniq v' List.mem_cons_self]
    · rw [List.lookup_cons, beq_eq_false_iff_ne.mpr hk]
      refine ih ?_ fun v' h => huniq v' (List.mem_cons_of_mem _ h)
      exact (List.mem_cons.mp hmem).resolve_left fun h => hk (Prod.mk.inj h).1

/-- A declared prefix is resolved to its namespace. -/
theorem resolve_qualified (hns : ns ∈ d.namespaces) (hl : ':' ∉ localName.toList) :
    (NsContext.register [] d.attributes).resolve (d.qualified ns localName) [] = ns := by
  have hlookup : (NsContext.register [] d.attributes).lookup (d.prefixOf ns) = some ns := by
    rw [register_attributes]
    refine lookup_eq_some ?_ fun ns' h => ?_
    · exact List.mem_reverse.mpr (List.mem_map.mpr ⟨ns, hns, rfl⟩)
    · obtain ⟨ns'', hmem, heq⟩ := List.mem_map.mp (List.mem_reverse.mp h)
      obtain ⟨hp, rfl⟩ := Prod.mk.inj heq
      exact d.apart _ hmem _ hns hp
  unfold NsContext.resolve
  rw [List.lookup_nil]
  dsimp only
  rw [splitFirst_qualified hns hl]
  by_cases hp : d.prefixOf ns = ""
  · rw [if_pos hp]
    rw [hp] at hlookup
    dsimp only
    rw [hlookup]
  · rw [if_neg hp]
    dsimp only
    rw [hlookup]

end

/-! ## Reading -/

/-- The property can be written with these declarations. -/
structure Declarations.Names (d : Declarations) (a : Asked) : Prop where
  declared : a.prop.ns ∈ d.namespaces
  localPart : ':' ∉ a.prop.localName.toList

section

variable {d : Declarations} {ctx : NsContext} {rest : List XmlEvent}

theorem written_isEmpty (name : String) (attributes : List (String × String))
    (events : List XmlEvent) :
    ¬ (written (.start name attributes :: events)).toUTF8.isEmpty := by
  intro h
  have hsize : (written (.start name attributes :: events)).toUTF8.size = 0 := by
    simpa [ByteArray.isEmpty] using h
  have hnil : written (.start name attributes :: events) = "" :=
    String.toByteArray_inj.mp (ByteArray.size_eq_zero_iff.mp hsize)
  have hlength := congrArg (fun s : String => s.toList.length) hnil
  simp [written, XmlEvent.written] at hlength

/-! ### `parse_propfind` -/

/-- An element that is no word of the parser is a requested property inside `prop`, and
    nothing outside. -/
theorem parsePropfindFrom_start {name : String} {attributes : List (String × String)}
    (h : localNameOf name ∉ propfindWords) (inProp : Bool) (acc : List PropRequest) :
    parsePropfindFrom ctx inProp acc (.start name attributes :: rest) =
      parsePropfindFrom (ctx.register attributes) inProp
        (if inProp then acc ++ [⟨(ctx.register attributes).resolve name attributes,
          localNameOf name⟩] else acc) rest := by
  simp only [propfindWords, List.mem_cons, List.not_mem_nil, or_false, not_or] at h
  obtain ⟨h1, h2, h3⟩ := h
  cases inProp <;> simp [parsePropfindFrom, h1, h2, h3]

/-- A self-closing element is read like an open one. -/
theorem parsePropfindFrom_empty (name : String) (attributes : List (String × String))
    (inProp : Bool) (acc : List PropRequest) :
    parsePropfindFrom ctx inProp acc (.empty name attributes :: rest) =
      parsePropfindFrom ctx inProp acc (.start name attributes :: rest) := rfl

theorem parsePropfindFrom_stop {name : String} (h : localNameOf name ∉ propfindWords)
    (inProp : Bool) (acc : List PropRequest) :
    parsePropfindFrom ctx inProp acc (.stop name :: rest) =
      parsePropfindFrom ctx inProp acc rest := by
  simp only [propfindWords, List.mem_cons, List.not_mem_nil, or_false, not_or] at h
  obtain ⟨-, -, h3⟩ := h
  simp [parsePropfindFrom, h3]

theorem parsePropfind_asked {a : Asked} (ha : d.Names a)
    (hw : a.prop.localName ∉ propfindWords) (acc : List PropRequest) :
    parsePropfindFrom (NsContext.register [] d.attributes) true acc (a.events d ++ rest) =
      parsePropfindFrom (NsContext.register [] d.attributes) true (acc ++ [a.prop]) rest := by
  have hlocal := localNameOf_qualified ha.declared ha.localPart
  have hw' : localNameOf (d.qualified a.prop.ns a.prop.localName) ∉ propfindWords := by
    rwa [hlocal]
  have hprop : PropRequest.mk ((NsContext.register [] d.attributes).resolve
      (d.qualified a.prop.ns a.prop.localName) []) a.prop.localName = a.prop := by
    rw [resolve_qualified ha.declared ha.localPart]
  have hopen : ∀ rest, parsePropfindFrom (NsContext.register [] d.attributes) true acc
      (.start (d.qualified a.prop.ns a.prop.localName) [] :: rest) =
      parsePropfindFrom (NsContext.register [] d.attributes) true (acc ++ [a.prop]) rest := by
    intro rest
    rw [parsePropfindFrom_start hw', if_pos rfl, hlocal]
    exact congrArg (fun r => parsePropfindFrom _ true (acc ++ [r]) rest) hprop
  unfold Asked.events
  dsimp only
  cases a.selfClosing with
  | true => exact (parsePropfindFrom_empty ..).trans (hopen rest)
  | false => exact (hopen _).trans (parsePropfindFrom_stop hw' ..)

theorem parsePropfind_allAsked {asked : List Asked} (hasked : ∀ a ∈ asked, d.Names a)
    (hw : ∀ a ∈ asked, a.prop.localName ∉ propfindWords) (acc : List PropRequest) :
    parsePropfindFrom (NsContext.register [] d.attributes) true acc
        (asked.flatMap (Asked.events d) ++ rest) =
      parsePropfindFrom (NsContext.register [] d.attributes) true (acc ++ asked.map (·.prop))
        rest := by
  induction asked generalizing acc with
  | nil => rw [List.map_nil, List.append_nil]; rfl
  | cons a asked ih =>
    rw [List.flatMap_cons, List.append_assoc, parsePropfind_asked (hasked a List.mem_cons_self)
      (hw a List.mem_cons_self), ih (fun b hb => hasked b (List.mem_cons_of_mem _ hb))
      (fun b hb => hw b (List.mem_cons_of_mem _ hb)), List.map_cons, List.append_assoc]
    rfl

/-- The events of a propfind body give the properties. -/
theorem parsePropfindFrom_propfind {asked : List Asked} (hdav : davNs ∈ d.namespaces)
    (hne : asked ≠ []) (hasked : ∀ a ∈ asked, d.Names a)
    (hw : ∀ a ∈ asked, a.prop.localName ∉ propfindWords) :
    parsePropfindFrom [] false [] (propfindEvents d asked) = .props (asked.map (·.prop)) := by
  have hroot : localNameOf (d.qualified davNs "propfind") ∉ propfindWords := by
    rw [localNameOf_qualified hdav (by decide)]
    decide
  have hprop : localNameOf (d.qualified davNs "prop") = "prop" :=
    localNameOf_qualified hdav (by decide)
  have henter : ∀ rest, parsePropfindFrom (NsContext.register [] d.attributes) false []
      (.start (d.qualified davNs "prop") [] :: rest) =
      parsePropfindFrom (NsContext.register [] d.attributes) true [] rest := by
    intro rest
    simp only [parsePropfindFrom, hprop]
    rfl
  have hleave : ∀ acc rest, parsePropfindFrom (NsContext.register [] d.attributes) true acc
      (.stop (d.qualified davNs "prop") :: rest) =
      parsePropfindFrom (NsContext.register [] d.attributes) false acc rest := by
    intro acc rest
    simp only [parsePropfindFrom, hprop]
    rfl
  unfold propfindEvents propEvents
  simp only [List.append_assoc, List.cons_append, List.nil_append]
  rw [parsePropfindFrom_start hroot, if_neg Bool.false_ne_true, henter,
    parsePropfind_allAsked hasked hw, hleave, parsePropfindFrom_stop hroot, List.nil_append]
  unfold parsePropfindFrom
  rw [if_neg]
  simpa using hne

/-! ### `parse_report` -/

/-- The state of the loop inside a calendar-multiget. -/
def ReportState.multiget (ctx : NsContext) (inProp : Bool) (props : List PropRequest)
    (hrefs : List String) : ReportState :=
  ⟨ctx, some .multiget, inProp, false, false, props, hrefs, "", "", ""⟩

theorem openElement_property (ctx : NsContext) {name : String}
    (h : localNameOf name ∉ reportWords) (props : List PropRequest) (hrefs : List String) :
    (ReportState.multiget ctx true props hrefs).openElement name [] =
      .multiget ctx true (props ++ [⟨ctx.resolve name [], localNameOf name⟩]) hrefs := by
  simp only [reportWords, List.mem_cons, List.not_mem_nil, or_false, not_or] at h
  simp [ReportState.openElement, ReportState.multiget, NsContext.register, h]

theorem closeElement_property {name : String} (h : localNameOf name ∉ reportWords)
    (s : ReportState) : s.closeElement name = s := by
  simp only [reportWords, List.mem_cons, List.not_mem_nil, or_false, not_or] at h
  simp [ReportState.closeElement, h]

theorem run_asked {a : Asked} (ha : d.Names a) (hw : a.prop.localName ∉ reportWords)
    (props : List PropRequest) (hrefs : List String) :
    (ReportState.multiget (NsContext.register [] d.attributes) true props hrefs).run
        (a.events d ++ rest) =
      (ReportState.multiget (NsContext.register [] d.attributes) true (props ++ [a.prop])
        hrefs).run rest := by
  have hlocal := localNameOf_qualified ha.declared ha.localPart
  have hw' : localNameOf (d.qualified a.prop.ns a.prop.localName) ∉ reportWords := by
    rwa [hlocal]
  have hopen := openElement_property (NsContext.register [] d.attributes) hw' props hrefs
  rw [resolve_qualified ha.declared ha.localPart, hlocal] at hopen
  unfold Asked.events
  dsimp only
  cases a.selfClosing with
  | true => exact congrArg (fun s : ReportState => s.run rest) hopen
  | false =>
    refine (congrArg (fun s : ReportState => s.run _) hopen).trans ?_
    exact congrArg (fun s : ReportState => s.run rest) (closeElement_property hw' _)

theorem run_allAsked {asked : List Asked} (hasked : ∀ a ∈ asked, d.Names a)
    (hw : ∀ a ∈ asked, a.prop.localName ∉ reportWords) (props : List PropRequest)
    (hrefs : List String) :
    (ReportState.multiget (NsContext.register [] d.attributes) true props hrefs).run
        (asked.flatMap (Asked.events d) ++ rest) =
      (ReportState.multiget (NsContext.register [] d.attributes) true
        (props ++ asked.map (·.prop)) hrefs).run rest := by
  induction asked generalizing props with
  | nil => rw [List.map_nil, List.append_nil]; rfl
  | cons a asked ih =>
    rw [List.flatMap_cons, List.append_assoc, run_asked (hasked a List.mem_cons_self)
      (hw a List.mem_cons_self), ih (fun b hb => hasked b (List.mem_cons_of_mem _ hb))
      (fun b hb => hw b (List.mem_cons_of_mem _ hb)), List.map_cons, List.append_assoc]
    rfl

theorem run_hrefs (hdav : davNs ∈ d.namespaces) (props : List PropRequest)
    (hrefs found : List String) :
    (ReportState.multiget ctx false props found).run (hrefs.flatMap (hrefEvents d) ++ rest) =
      (ReportState.multiget ctx false props (found ++ hrefs)).run rest := by
  have hlocal : localNameOf (d.qualified davNs "href") = "href" :=
    localNameOf_qualified hdav (by decide)
  induction hrefs generalizing found with
  | nil => rw [List.append_nil]; rfl
  | cons href hrefs ih =>
    have hone : ∀ rest, (ReportState.multiget ctx false props found).run
        (hrefEvents d href ++ rest) =
        (ReportState.multiget ctx false props (found ++ [href])).run rest := by
      intro rest
      simp [hrefEvents, ReportState.run, ReportState.openElement, ReportState.closeElement,
        ReportState.text, ReportState.multiget, NsContext.register, hlocal]
    rw [List.flatMap_cons, List.append_assoc, hone, ih, List.append_assoc]
    rfl

/-- The events of a calendar-multiget body give the properties and the hrefs. -/
theorem run_multiget {asked : List Asked} (hdav : davNs ∈ d.namespaces)
    (hcaldav : caldavNs ∈ d.namespaces) (hasked : ∀ a ∈ asked, d.Names a)
    (hw : ∀ a ∈ asked, a.prop.localName ∉ reportWords) (hrefs : List String) :
    ReportState.init.run (multigetEvents d asked hrefs) =
      some (.calendarMultiget (asked.map (·.prop)) hrefs) := by
  have hroot : localNameOf (d.qualified caldavNs "calendar-multiget") = "calendar-multiget" :=
    localNameOf_qualified hcaldav (by decide)
  have hprop : localNameOf (d.qualified davNs "prop") = "prop" :=
    localNameOf_qualified hdav (by decide)
  have hopen : ReportState.init.openElement (d.qualified caldavNs "calendar-multiget")
      d.attributes = .multiget (NsContext.register [] d.attributes) false [] [] := by
    unfold ReportState.openElement
    dsimp only
    rw [hroot, if_pos rfl]
    rfl
  have henter : (ReportState.multiget (NsContext.register [] d.attributes) false [] []).openElement
      (d.qualified davNs "prop") [] =
      .multiget (NsContext.register [] d.attributes) true [] [] := by
    unfold ReportState.openElement
    dsimp only
    rw [hprop]
    rfl
  have hleave : ∀ props, (ReportState.multiget (NsContext.register [] d.attributes) true props
      []).closeElement (d.qualified davNs "prop") =
      .multiget (NsContext.register [] d.attributes) false props [] := by
    intro props
    unfold ReportState.closeElement
    dsimp only
    rw [hprop]
    rfl
  have hlast : ∀ s : ReportState,
      s.closeElement (d.qualified caldavNs "calendar-multiget") = s := by
    intro s
    unfold ReportState.closeElement
    dsimp only
    rw [hroot]
    rfl
  unfold multigetEvents propEvents
  simp only [List.append_assoc, List.cons_append, List.nil_append]
  unfold ReportState.run
  rw [hopen]
  unfold ReportState.run
  rw [henter, run_allAsked hasked hw, List.nil_append]
  unfold ReportState.run
  rw [hleave, run_hrefs hdav, List.nil_append]
  unfold ReportState.run
  rw [hlast]
  rfl

end

/-- **Request bodies read back.** Whatever prefixes the namespaces are given, a propfind body
    is read as the properties it was written for, and a calendar-multiget body as its properties
    and hrefs, in order. -/
theorem requests_read_back (lib : Lib) (d : Declarations) (asked : List Asked)
    (hrefs : List String) (hdav : davNs ∈ d.namespaces) (hne : asked ≠ [])
    (hasked : ∀ a ∈ asked, d.Names a) :
    (lib.readXml (written (propfindEvents d asked)).toUTF8 = propfindEvents d asked →
      (∀ a ∈ asked, a.prop.localName ∉ propfindWords) →
      parsePropfind lib (written (propfindEvents d asked)).toUTF8 =
        .props (asked.map (·.prop))) ∧
    (lib.readXml (written (multigetEvents d asked hrefs)).toUTF8 =
        multigetEvents d asked hrefs →
      caldavNs ∈ d.namespaces → (∀ a ∈ asked, a.prop.localName ∉ reportWords) →
      parseReport lib (written (multigetEvents d asked hrefs)).toUTF8 =
        some (.calendarMultiget (asked.map (·.prop)) hrefs)) := by
  constructor
  · intro hread hw
    have hbody : ¬ (written (propfindEvents d asked)).toUTF8.isEmpty := written_isEmpty _ _ _
    unfold parsePropfind
    rw [if_neg hbody, hread]
    exact parsePropfindFrom_propfind hdav hne hasked hw
  · intro hread hcaldav hw
    have hbody : ¬ (written (multigetEvents d asked hrefs)).toUTF8.isEmpty :=
      written_isEmpty _ _ _
    unfold parseReport
    rw [if_neg hbody, hread]
    exact run_multiget hdav hcaldav hasked hw hrefs

/-- Prefixes as Apple's clients choose them: `A` is DAV, and CalDAV is the default. -/
def appleDeclarations : Declarations where
  namespaces := [davNs, caldavNs]
  prefixOf ns := if ns = davNs then "A" else ""
  apart := by decide
  plain := by decide

/-- The etag and the data of an object. -/
def appleAsked : List Asked := [⟨⟨davNs, "getetag"⟩, true⟩, ⟨⟨caldavNs, "calendar-data"⟩, false⟩]

/-- A reader that knows one body of each kind. -/
def appleLib : Lib where
  argon2Hash _ _ := .error "no password"
  argon2Verify _ _ := .ok false
  base64Decode _ := none
  readXml body :=
    if body = (written (propfindEvents appleDeclarations appleAsked)).toUTF8 then
      propfindEvents appleDeclarations appleAsked
    else multigetEvents appleDeclarations appleAsked ["/caldav/users/alice/work/lunch.ics"]

theorem requests_read_back_apple :
    parsePropfind appleLib (written (propfindEvents appleDeclarations appleAsked)).toUTF8 =
        .props [⟨davNs, "getetag"⟩, ⟨caldavNs, "calendar-data"⟩] ∧
      parseReport appleLib (written (multigetEvents appleDeclarations appleAsked
          ["/caldav/users/alice/work/lunch.ics"])).toUTF8 =
        some (.calendarMultiget [⟨davNs, "getetag"⟩, ⟨caldavNs, "calendar-data"⟩]
          ["/caldav/users/alice/work/lunch.ics"]) := by
  have h := requests_read_back appleLib appleDeclarations appleAsked
    ["/caldav/users/alice/work/lunch.ics"] (by decide) (by decide) (by
      intro a ha
      simp only [appleAsked, List.mem_cons, List.not_mem_nil, or_false] at ha
      rcases ha with rfl | rfl
      · exact ⟨by decide, by decide⟩
      · exact ⟨by decide, by decide⟩)
  have hbodies : (written (multigetEvents appleDeclarations appleAsked
      ["/caldav/users/alice/work/lunch.ics"])).toUTF8 ≠
      (written (propfindEvents appleDeclarations appleAsked)).toUTF8 := by
    intro heq
    have hchars := congrArg (fun s : String => s.toList[1]?) (String.toByteArray_inj.mp heq)
    simp [written, multigetEvents, propfindEvents, XmlEvent.written, Declarations.qualified,
      appleDeclarations, davNs, caldavNs] at hchars
  have hpropfind : appleLib.readXml (written (propfindEvents appleDeclarations appleAsked)).toUTF8 =
      propfindEvents appleDeclarations appleAsked := by
    unfold appleLib
    dsimp only
    rw [if_pos rfl]
  have hmultiget : appleLib.readXml (written (multigetEvents appleDeclarations appleAsked
      ["/caldav/users/alice/work/lunch.ics"])).toUTF8 =
      multigetEvents appleDeclarations appleAsked ["/caldav/users/alice/work/lunch.ics"] := by
    unfold appleLib
    dsimp only
    rw [if_neg hbodies]
  exact ⟨h.1 hpropfind (by decide), h.2 hmultiget (by decide) (by decide)⟩

end CaldavMcp
