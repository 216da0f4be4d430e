/-
  The namespaces that the parsers of PROPFIND and REPORT record.

  A declaration is in force on its element and inside of it. The parsers keep every declaration in
  one table and never drop one, so they take the last declaration of a prefix, whether or not its
  element has ended: the table is that of `Scopes`, with an element for a scope (`collect_sites`).
  The namespace recorded for an element is thus the one in force unless an element that has ended
  since has declared the prefix otherwise (`namespaces_recorded`).

  An `xmlns` attribute on an element whose name has a prefix is the exception: the parsers take it
  for the element's namespace, which no declaration does.
-/
import CaldavMcp.Caldav.Bodies
import CaldavMcp.Caldav.EmptyElements
import CaldavMcp.Scopes

namespace CaldavMcp

open Scopes

/-! ## Declarations -/

/-- What an attribute declares: the namespace of a prefix. The empty prefix is that of the names
    without a prefix. -/
def declaration? (attr : String × String) : Option (String × String) :=
  if attr.1 = "xmlns" then some ("", attr.2)
  else (attr.1.stripStart? "xmlns:").map fun p => (p, attr.2)

/-- The declarations of an element. -/
def declarationsOf (attributes : List (String × String)) : List (String × String) :=
  (attributes.filterMap declaration?).reverse

/-- The prefix of a name. -/
def qualifierOf (name : String) : String :=
  match name.splitFirst ':' with
  | some (p, _) => p
  | none => ""

/-- An element in a document: what is open around it, its name and its attributes. -/
structure Site where
  parents : List String
  scopes : Stack String String
  name : String
  attributes : List (String × String)

namespace Site

variable (s : Site)

/-- The scopes on the element itself. -/
def inner : Stack String String := enter (declarationsOf s.attributes) s.scopes

/-- The namespace of the element's prefix by the innermost declaration in scope. -/
def inForce : Option String := (visible s.inner).lookup (qualifierOf s.name)

/-- The namespace of the element's prefix by the last declaration up to the element. -/
def latest : Option String := (all s.inner).lookup (qualifierOf s.name)

/-- The namespace of the element's prefix by the last declaration on the elements that have ended
    since the one with the innermost declaration in scope was opened. -/
def overridden : Option String :=
  (endedSince (qualifierOf s.name) s.inner).lookup (qualifierOf s.name)

/-- The element is a child of a `prop` element. -/
def ChildOfProp : Prop := ∃ parent ∈ s.parents.head?, localNameOf parent = "prop"

/-- The element has no attribute twice and none without a name, and its prefix, if it has one, is
    declared on it or around it. -/
structure Declared : Prop where
  distinct : (s.attributes.map Prod.fst).Nodup
  named : "xmlns:" ∉ s.attributes.map Prod.fst
  inForce : qualifierOf s.name ≠ "" → s.inForce.isSome

/-- The element declares no default namespace, or its name has no prefix. -/
def Plain : Prop := s.attributes.lookup "xmlns" = none ∨ qualifierOf s.name = ""

end Site

/-- The elements are well nested, and each has its prefix declared. -/
def WellDeclared (parents : List String) (scopes : Stack String String) : List XmlEvent → Prop
  | [] => parents = []
  | .start name attributes :: rest => (Site.mk parents scopes name attributes).Declared ∧
      WellDeclared (name :: parents) (enter (declarationsOf attributes) scopes) rest
  | .empty name attributes :: rest => (Site.mk parents scopes name attributes).Declared ∧
      WellDeclared parents (leave (enter (declarationsOf attributes) scopes)) rest
  | .stop name :: rest => parents.head? = some name ∧
      WellDeclared parents.tail (leave scopes) rest
  | .error :: _ => False
  | _ :: rest => WellDeclared parents scopes rest

/-- The elements that are recorded, in order. -/
def sites (known : String → Bool) (parents : List String) (scopes : Stack String String)
    (inProp : Bool) : List XmlEvent → List Site
  | [] => []
  | .start name attributes :: rest =>
    let inner := enter (declarationsOf attributes) scopes
    if localNameOf name = "prop" then sites known (name :: parents) inner true rest
    else if inProp && !known (localNameOf name) then
      ⟨parents, scopes, name, attributes⟩ :: sites known (name :: parents) inner inProp rest
    else sites known (name :: parents) inner inProp rest
  | .empty name attributes :: rest =>
    let after := leave (enter (declarationsOf attributes) scopes)
    if localNameOf name = "prop" then sites known parents after true rest
    else if inProp && !known (localNameOf name) then
      ⟨parents, scopes, name, attributes⟩ :: sites known parents after inProp rest
    else sites known parents after inProp rest
  | .stop name :: rest => sites known parents.tail (leave scopes)
      (if localNameOf name = "prop" then false else inProp) rest
  | _ :: rest => sites known parents scopes inProp rest

/-- The properties of a REPORT. -/
def ReportRequest.props : ReportRequest → List PropRequest
  | .calendarMultiget props _ | .calendarQuery props _ | .syncCollection props _ => props

/-- What the parsers record of the elements of a body stands in the relation to them. -/
structure Records (lib : Lib) (body : ByteArray) (relation : PropRequest → Site → Prop) :
    Prop where
  propfind : ∀ props, parsePropfind lib body = .props props →
    List.Forall₂ relation props (sites noneKnown [] [] false (lib.readXml body))
  report : ∀ request, parseReport lib body = some request →
    List.Forall₂ relation request.props (sites reportKnown [] [] false (lib.readXml body))

/-- A child of `prop` is recorded with the namespace in force. -/
def RecordedInForce (r : PropRequest) (s : Site) : Prop :=
  s.ChildOfProp → r.localName = localNameOf s.name ∧ ∀ ns, s.inForce = some ns → r.ns = ns

/-- An element is recorded with the namespace of the last declaration. It is the one in force
    unless an element that has ended since has declared another. -/
structure RecordedLatest (r : PropRequest) (s : Site) : Prop where
  localName : r.localName = localNameOf s.name
  latest : ∀ ns, s.latest = some ns → r.ns = ns
  inForce : ∀ ns, s.inForce = some ns →
    (r.ns = ns ↔ ∀ ns', s.overridden = some ns' → ns' = ns)

/-! ## The table -/

section

variable {known : String → Bool} {ctx : NsContext} {attributes : List (String × String)}
  {parents : List String} {scopes : Stack String String} {inProp : Bool}

theorem register_eq (ctx : NsContext) (attributes : List (String × String)) :
    ctx.register attributes = declarationsOf attributes ++ ctx := by
  induction attributes generalizing ctx with
  | nil => rfl
  | cons attr attributes ih =>
    obtain ⟨key, value⟩ := attr
    have hcons : declarationsOf ((key, value) :: attributes) =
        declarationsOf attributes ++ (declaration? (key, value)).toList := by
      unfold declarationsOf
      rw [List.filterMap_cons]
      cases declaration? (key, value) with
      | none => exact (List.append_nil _).symm
      | some d => exact List.reverse_cons
    have hregister : ctx.register ((key, value) :: attributes) =
        NsContext.register ((declaration? (key, value)).toList ++ ctx) attributes := by
      unfold NsContext.register declaration?
      rw [List.foldl_cons]
      dsimp only
      by_cases hkey : key = "xmlns"
      · rw [if_pos hkey, if_pos hkey]
        rfl
      · rw [if_neg hkey, if_neg hkey]
        cases key.stripStart? "xmlns:" <;> rfl
    rw [hregister, ih, hcons, List.append_assoc]

/-- What a parser records of an element. -/
def Site.recorded (s : Site) : PropRequest :=
  ⟨NsContext.resolve (all s.inner) s.name s.attributes, localNameOf s.name⟩

/-- The parsers collect what they record of the elements. -/
theorem collect_sites (events : List XmlEvent) :
    collect known (all scopes) inProp events =
      (sites known parents scopes inProp events).map Site.recorded := by
  induction events generalizing parents scopes inProp with
  | nil => rfl
  | cons event events ih =>
    cases event with
    | start name attributes =>
      have hinner : NsContext.register (all scopes) attributes =
        all (enter (declarationsOf attributes) scopes) := register_eq _ _
      unfold collect sites
      dsimp only
      rw [hinner]
      split
      · exact ih
      · split
        · exact congrArg _ ih
        · exact ih
    | empty name attributes =>
      have hinner : NsContext.register (all scopes) attributes =
        all (enter (declarationsOf attributes) scopes) := register_eq _ _
      have hafter : all (enter (declarationsOf attributes) scopes) =
        all (leave (enter (declarationsOf attributes) scopes)) := (all_leave _).symm
      unfold collect sites
      dsimp only
      rw [hinner]
      split
      · rw [hafter]
        exact ih
      · split
        · refine congrArg (List.cons _) ?_
          rw [hafter]
          exact ih
        · rw [hafter]
          exact ih
    | stop name =>
      unfold collect sites
      rw [← all_leave scopes]
      exact ih
    | text t | other | error => exact ih

/-- A default namespace declared on an element is the last one declared. -/
theorem lookup_declarationsOf {v : String} (hdistinct : (attributes.map Prod.fst).Nodup)
    (hnamed : "xmlns:" ∉ attributes.map Prod.fst) (h : attributes.lookup "xmlns" = some v) :
    (declarationsOf attributes).lookup "" = some v := by
  have hmem : ("xmlns", v) ∈ attributes := by
    obtain ⟨front, behind, rfl, -⟩ := List.lookup_eq_some_iff.mp h
    exact List.mem_append_right _ List.mem_cons_self
  refine lookup_eq_some (List.mem_reverse.mpr (List.mem_filterMap.mpr ⟨_, hmem, rfl⟩)) ?_
  intro v' hv'
  obtain ⟨⟨key, value⟩, hattr, hd⟩ := List.mem_filterMap.mp (List.mem_reverse.mp hv')
  have hkey : key = "xmlns" := by
    by_contra hkey
    unfold declaration? at hd
    rw [if_neg hkey] at hd
    obtain ⟨p, hp, heq⟩ := Option.map_eq_some_iff.mp hd
    obtain rfl : p = "" := (Prod.mk.inj heq).1
    obtain ⟨stripped, hstripped, hempty⟩ := Option.map_eq_some_iff.mp hp
    have hchars := Text.stripPrefix?_eq_some.mp hstripped
    rw [String.ofList_inj.mp (hempty.trans String.ofList_nil.symm), List.append_nil] at hchars
    exact hnamed (List.mem_map.mpr ⟨_, hattr, String.toList_inj.mp hchars⟩)
  subst hkey
  have hvalue : value = v' := (Prod.mk.inj (Option.some.inj hd)).2
  rw [← hvalue]
  have hpair := List.inj_on_of_nodup_map hdistinct hattr hmem rfl
  exact (Prod.mk.inj hpair).2

/-- What is recorded is the last declaration. -/
theorem resolve_eq {s : Site} {ns : String} (hdeclared : s.Declared) (hplain : s.Plain)
    (hlatest : s.latest = some ns) :
    NsContext.resolve (all s.inner) s.name s.attributes = ns := by
  unfold NsContext.resolve
  unfold Site.latest qualifierOf at hlatest
  cases hx : s.attributes.lookup "xmlns" with
  | some v =>
    have hq : qualifierOf s.name = "" := hplain.resolve_left fun hnone => by
      rw [hx] at hnone
      cases hnone
    unfold qualifierOf at hq
    rw [hq, Site.inner, all_enter, List.lookup_append,
      lookup_declarationsOf hdeclared.distinct hdeclared.named hx] at hlatest
    exact Option.some.inj hlatest
  | none =>
    dsimp only
    cases hsplit : s.name.splitFirst ':' with
    | some split =>
      rw [hsplit] at hlatest
      dsimp only at hlatest ⊢
      rw [hlatest]
    | none =>
      rw [hsplit] at hlatest
      dsimp only at hlatest ⊢
      rw [hlatest]

/-- The elements that are recorded in a body are declared. -/
theorem declared_of_mem_sites {events : List XmlEvent} {s : Site}
    (hwell : WellDeclared parents scopes events)
    (hs : s ∈ sites known parents scopes inProp events) : s.Declared := by
  induction events generalizing parents scopes inProp with
  | nil => cases hs
  | cons event events ih =>
    cases event with
    | start name attributes | empty name attributes =>
      obtain ⟨hdeclared, hwell⟩ := hwell
      unfold sites at hs
      dsimp only at hs
      split at hs
      · exact ih hwell hs
      · split at hs
        · rcases List.mem_cons.mp hs with rfl | hs
          · exact hdeclared
          · exact ih hwell hs
        · exact ih hwell hs
    | stop name => exact ih hwell.2 hs
    | error => exact hwell.elim
    | text t | other => exact ih hwell hs

/-- What is recorded of an element that is declared and plain. -/
theorem recordedLatest {s : Site} (hdeclared : s.Declared) (hplain : s.Plain) :
    RecordedLatest s.recorded s := by
  have hlookup : s.latest = s.overridden.or s.inForce := lookup_all _ _
  have hlatest : ∀ ns, s.latest = some ns → s.recorded.ns = ns :=
    fun ns => resolve_eq hdeclared hplain
  refine ⟨rfl, hlatest, fun ns hns => ?_⟩
  rw [hns] at hlookup
  cases hover : s.overridden with
  | none =>
    rw [hover, Option.none_or] at hlookup
    exact iff_of_true (hlatest ns hlookup) nofun
  | some ns' =>
    rw [hover, Option.some_or] at hlookup
    rw [hlatest ns' hlookup]
    constructor
    · rintro rfl ns'' heq
      exact (Option.some.inj heq).symm
    · exact fun h => h ns' rfl

end

section

variable {lib : Lib} {body : ByteArray}

/-- The properties of a PROPFIND are the collected ones. -/
theorem props_of_parsePropfind {props : List PropRequest}
    (h : parsePropfind lib body = .props props) :
    props = collect noneKnown [] false (lib.readXml body) := by
  unfold parsePropfind at h
  split at h
  · cases h
  · rw [parsePropfindFrom_eq, List.nil_append] at h
    cases hdecides : (lib.readXml body).find? XmlEvent.decides with
    | some event =>
      rw [hdecides] at h
      have hanswer : event.answer = .allProp ∨ event.answer = .propName := by
        cases event with
        | start name attributes | empty name attributes => exact ite_eq_or_eq ..
        | stop name | text t | other | error => exact Or.inl rfl
      rcases hanswer with hanswer | hanswer <;>
      · rw [show event.answer = _ from h] at hanswer
        cases hanswer
    | none =>
      rw [hdecides] at h
      dsimp only at h
      unfold requestOf at h
      split at h
      · cases h
      · exact (PropfindRequest.props.inj h).symm

/-- The properties of a REPORT are the collected ones. -/
theorem props_of_parseReport {request : ReportRequest} (h : parseReport lib body = some request) :
    request.props = collect reportKnown [] false (lib.readXml body) := by
  unfold parseReport at h
  split at h
  · cases h
  · rw [ReportState.run_init_eq] at h
    split at h
    · cases h
    · unfold ReportState.request ReportState.finish at h
      dsimp only at h
      split at h
      · rw [← Option.some.inj h]
        rfl
      · rw [← Option.some.inj h]
        rfl
      · rw [← Option.some.inj h]
        rfl
      · cases h

end

/-- A reader that reads one body. -/
def bodyLib (events : List XmlEvent) : Lib :=
  ⟨fun _ _ => .error "no password", fun _ _ => .ok false, fun _ => none, fun _ => events⟩

/-- A body whose `prop` element has some properties. -/
def propBody (properties : List XmlEvent) : List XmlEvent :=
  [.start "propfind" [("xmlns", davNs), ("xmlns:X", csNs)], .start "prop" []] ++ properties ++
    [.stop "prop", .stop "propfind"]

/-- A property that declares its prefix anew, and another one with the prefix. -/
def redeclared : List XmlEvent :=
  propBody [.empty "X:getctag" [("xmlns:X", appleNs)], .empty "X:source" []]

/-- A property with a prefix that declares a default namespace. -/
def defaulted : List XmlEvent := propBody [.empty "X:getctag" [("xmlns", appleNs)]]

theorem redeclared_well : WellDeclared [] [] redeclared :=
  ⟨⟨by decide, by decide, by decide⟩, ⟨by decide, by decide, by decide⟩,
    ⟨by decide, by decide, by decide⟩, ⟨by decide, by decide, by decide⟩, rfl, rfl, rfl⟩

theorem defaulted_well : WellDeclared [] [] defaulted :=
  ⟨⟨by decide, by decide, by decide⟩, ⟨by decide, by decide, by decide⟩,
    ⟨by decide, by decide, by decide⟩, rfl, rfl, rfl⟩

/-- A child of `prop` that is recorded with another namespace than the one in force. -/
theorem not_recordedInForce {lib : Lib} {body : ByteArray} {props : List PropRequest} {i : Nat}
    {r : PropRequest} {parent ns : String} {parents : List String}
    (hprops : parsePropfind lib body = .props props) (hr : props[i]? = some r)
    (hs : ((sites noneKnown [] [] false (lib.readXml body)).map fun s =>
      (s.parents, s.inForce))[i]? = some (parent :: parents, some ns))
    (hparent : localNameOf parent = "prop") (hne : r.ns ≠ ns) :
    ¬ Records lib body RecordedInForce := by
  intro h
  rw [List.getElem?_map] at hs
  obtain ⟨s, hsite, hfacts⟩ := Option.map_eq_some_iff.mp hs
  obtain ⟨hparents, hinForce⟩ := Prod.mk.inj hfacts
  have hrecorded : RecordedInForce r s := by
    obtain ⟨hi, hri⟩ := List.getElem?_eq_some_iff.mp hr
    obtain ⟨hj, hsj⟩ := List.getElem?_eq_some_iff.mp hsite
    have hrelated := (h.propfind props hprops).get hi hj
    rw [List.get_eq_getElem, List.get_eq_getElem, hri, hsj] at hrelated
    exact hrelated
  exact hne ((hrecorded ⟨parent, by rw [hparents]; rfl, hparent⟩).2 ns hinForce)

end CaldavMcp
