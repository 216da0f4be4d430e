/-
  Elements without content in the bodies of PROPFIND and REPORT.

  An element without content is written `<e/>` or `<e></e>`. The reader yields one event for the
  first form and two for the second, and the loops of `parse_propfind` and `parse_report` set
  their flags on the first event and clear them on the second. So the flag of an element in the
  first form stays set, up to the next event of an element with that name (`window`), and what
  stands there is taken for the element's content.

  The loops are brought to what they collect: properties (`collect`), the texts of hrefs
  (`hrefTexts`) and of sync tokens (`tokenTexts`). A flag that stays set adds to these what stands
  in the window and nothing else, which decides when the two forms mean the same
  (`forms_agree_iff`).
-/
import CaldavMcp.Caldav.Xml

namespace CaldavMcp

/-! ## Windows -/

/-- The event opens or closes an element with the local name. -/
def XmlEvent.touches (localName : String) : XmlEvent → Bool
  | .start name _ | .empty name _ | .stop name => localNameOf name = localName
  | _ => false

/-- The events up to the next one of an element with the local name. -/
def window (localName : String) (events : List XmlEvent) : List XmlEvent :=
  events.takeWhile fun event => !event.touches localName

/-- The flag of an element: whether it was opened and not closed since. -/
def inside (localName : String) (flag : Bool) : List XmlEvent → Bool
  | [] => flag
  | .start name _ :: rest | .empty name _ :: rest =>
    inside localName (if localNameOf name = localName then true else flag) rest
  | .stop name :: rest =>
    inside localName (if localNameOf name = localName then false else flag) rest
  | _ :: rest => inside localName flag rest

/-- The namespaces in force after some events. -/
def contextAfter (ctx : NsContext) : List XmlEvent → NsContext
  | [] => ctx
  | .start _ attributes :: rest | .empty _ attributes :: rest =>
    contextAfter (ctx.register attributes) rest
  | _ :: rest => contextAfter ctx rest

/-! ## What the loops collect -/

/-- The properties asked for: the elements inside of `prop` that are not known otherwise. -/
def collect (known : String → Bool) (ctx : NsContext) (inProp : Bool) :
    List XmlEvent → List PropRequest
  | [] => []
  | .start name attributes :: rest | .empty name attributes :: rest =>
    let ctx := ctx.register attributes
    let localName := localNameOf name
    if localName = "prop" then collect known ctx true rest
    else if inProp && !known localName then
      ⟨ctx.resolve name attributes, localName⟩ :: collect known ctx inProp rest
    else collect known ctx inProp rest
  | .stop name :: rest =>
    collect known ctx (if localNameOf name = "prop" then false else inProp) rest
  | _ :: rest => collect known ctx inProp rest

/-- The texts inside of `href`. -/
def hrefTexts (inHref : Bool) : List XmlEvent → List String
  | [] => []
  | .start name _ :: rest | .empty name _ :: rest =>
    hrefTexts (if localNameOf name = "href" then true else inHref) rest
  | .stop name :: rest => hrefTexts (if localNameOf name = "href" then false else inHref) rest
  | .text t :: rest => if inHref then t :: hrefTexts inHref rest else hrefTexts inHref rest
  | _ :: rest => hrefTexts inHref rest

/-- The texts inside of `sync-token` and not of `href`. -/
def tokenTexts (inHref inSyncToken : Bool) : List XmlEvent → List String
  | [] => []
  | .start name _ :: rest | .empty name _ :: rest =>
    tokenTexts (if localNameOf name = "href" then true else inHref)
      (if localNameOf name = "sync-token" then true else inSyncToken) rest
  | .stop name :: rest =>
    tokenTexts (if localNameOf name = "href" then false else inHref)
      (if localNameOf name = "sync-token" then false else inSyncToken) rest
  | .text t :: rest =>
    if !inHref && inSyncToken then t :: tokenTexts inHref inSyncToken rest
    else tokenTexts inHref inSyncToken rest
  | _ :: rest => tokenTexts inHref inSyncToken rest

/-- The event is an element that is collected inside of `prop`. -/
def XmlEvent.isProperty (known : String → Bool) : XmlEvent → Bool
  | .start name _ | .empty name _ => localNameOf name ≠ "prop" && !known (localNameOf name)
  | _ => false

def XmlEvent.isText : XmlEvent → Bool
  | .text _ => true
  | _ => false

section

variable {known : String → Bool} {ctx : NsContext} {inProp inHref inSyncToken : Bool}

/-! ### A prefix of the events -/

theorem collect_append (events rest : List XmlEvent) :
    collect known ctx inProp (events ++ rest) = collect known ctx inProp events ++
      collect known (contextAfter ctx events) (inside "prop" inProp events) rest := by
  induction events generalizing ctx inProp with
  | nil => rfl
  | cons event events ih =>
    cases event with
    | start name attributes | empty name attributes =>
      simp only [List.cons_append, collect, contextAfter, inside]
      by_cases hprop : localNameOf name = "prop"
      · simp only [hprop, if_true]
        exact ih
      · simp only [hprop, if_false]
        split
        · exact congrArg _ ih
        · exact ih
    | stop name | text t | other | error => exact ih

theorem hrefTexts_append (events rest : List XmlEvent) :
    hrefTexts inHref (events ++ rest) =
      hrefTexts inHref events ++ hrefTexts (inside "href" inHref events) rest := by
  induction events generalizing inHref with
  | nil => rfl
  | cons event events ih =>
    cases event with
    | text t =>
      simp only [List.cons_append, hrefTexts, inside]
      split
      · exact congrArg _ ih
      · exact ih
    | start name attributes | empty name attributes | stop name | other | error => exact ih

theorem tokenTexts_append (events rest : List XmlEvent) :
    tokenTexts inHref inSyncToken (events ++ rest) = tokenTexts inHref inSyncToken events ++
      tokenTexts (inside "href" inHref events) (inside "sync-token" inSyncToken events) rest := by
  induction events generalizing inHref inSyncToken with
  | nil => rfl
  | cons event events ih =>
    cases event with
    | text t =>
      simp only [List.cons_append, tokenTexts, inside]
      split
      · exact congrArg _ ih
      · exact ih
    | start name attributes | empty name attributes | stop name | other | error => exact ih

/-! ### A flag that stays set -/

theorem window_cons_touches {localName : String} {event : XmlEvent}
    (h : event.touches localName = true) (events : List XmlEvent) :
    window localName (event :: events) = [] := by
  unfold window
  rw [List.takeWhile_cons_of_neg (by rw [h]; decide)]

theorem window_cons {localName : String} {event : XmlEvent}
    (h : event.touches localName = false) (events : List XmlEvent) :
    window localName (event :: events) = event :: window localName events := by
  unfold window
  rw [List.takeWhile_cons_of_pos (by rw [h]; rfl)]

/-- A set `prop` flag adds what stands in the window. -/
theorem collect_true (events : List XmlEvent) :
    collect known ctx true events =
      collect known ctx true (window "prop" events) ++ collect known ctx false events := by
  induction events generalizing ctx with
  | nil => rfl
  | cons event events ih =>
    cases htouch : event.touches "prop" with
    | true =>
      rw [window_cons_touches htouch]
      cases event with
      | start name attributes | empty name attributes | stop name =>
        have hprop : localNameOf name = "prop" := of_decide_eq_true htouch
        simp only [collect, hprop, if_true, List.nil_append]
      | text t | other | error => cases htouch
    | false =>
      rw [window_cons htouch]
      cases event with
      | start name attributes | empty name attributes =>
        have hprop : localNameOf name ≠ "prop" := of_decide_eq_false htouch
        simp only [collect, hprop, if_false, Bool.true_and, Bool.false_and, Bool.false_eq_true]
        split
        · exact congrArg _ ih
        · exact ih
      | stop name =>
        have hprop : localNameOf name ≠ "prop" := of_decide_eq_false htouch
        simp only [collect, hprop, if_false]
        exact ih
      | text t | other | error => exact ih

theorem collect_window_eq_nil (ctx : NsContext) (events : List XmlEvent) :
    collect known ctx true (window "prop" events) = [] ↔
      (window "prop" events).any (·.isProperty known) = false := by
  induction events generalizing ctx with
  | nil => exact ⟨fun _ => rfl, fun _ => rfl⟩
  | cons event events ih =>
    cases htouch : event.touches "prop" with
    | true =>
      rw [window_cons_touches htouch]
      exact ⟨fun _ => rfl, fun _ => rfl⟩
    | false =>
      rw [window_cons htouch, List.any_cons, Bool.or_eq_false_iff]
      cases event with
      | start name attributes | empty name attributes =>
        have hprop : localNameOf name ≠ "prop" := of_decide_eq_false htouch
        have ih := ih (ctx.register attributes)
        change _ ↔ (decide (localNameOf name ≠ "prop") && !known (localNameOf name)) = false ∧ _
        simp only [collect, hprop, if_false, Bool.true_and, ne_eq, not_false_eq_true, decide_true]
        cases known (localNameOf name) with
        | true => simpa using ih
        | false => simp
      | stop name =>
        have hprop : localNameOf name ≠ "prop" := of_decide_eq_false htouch
        simp only [collect, hprop, if_false]
        simpa [XmlEvent.isProperty] using ih ctx
      | text t | other | error => simpa [XmlEvent.isProperty, collect] using ih ctx

/-- A set `href` flag adds the texts in the window. -/
theorem hrefTexts_true (events : List XmlEvent) :
    hrefTexts true events =
      hrefTexts true (window "href" events) ++ hrefTexts false events := by
  induction events with
  | nil => rfl
  | cons event events ih =>
    cases htouch : event.touches "href" with
    | true =>
      rw [window_cons_touches htouch]
      cases event with
      | start name attributes | empty name attributes | stop name =>
        have hhref : localNameOf name = "href" := of_decide_eq_true htouch
        simp only [hrefTexts, hhref, if_true, List.nil_append]
      | text t | other | error => cases htouch
    | false =>
      rw [window_cons htouch]
      cases event with
      | start name attributes | empty name attributes | stop name =>
        have hhref : localNameOf name ≠ "href" := of_decide_eq_false htouch
        simp only [hrefTexts, hhref, if_false]
        exact ih
      | text t =>
        simp only [hrefTexts, if_true, Bool.false_eq_true, if_false]
        exact congrArg _ ih
      | other | error => exact ih

theorem hrefTexts_window_eq_nil (events : List XmlEvent) :
    hrefTexts true (window "href" events) = [] ↔
      (window "href" events).any XmlEvent.isText = false := by
  induction events with
  | nil => exact ⟨fun _ => rfl, fun _ => rfl⟩
  | cons event events ih =>
    cases htouch : event.touches "href" with
    | true =>
      rw [window_cons_touches htouch]
      exact ⟨fun _ => rfl, fun _ => rfl⟩
    | false =>
      rw [window_cons htouch, List.any_cons, Bool.or_eq_false_iff]
      cases event with
      | start name attributes | empty name attributes | stop name =>
        have hhref : localNameOf name ≠ "href" := of_decide_eq_false htouch
        simp only [hrefTexts, hhref, if_false]
        simpa [XmlEvent.isText] using ih
      | text t => simp [hrefTexts, XmlEvent.isText]
      | other | error => simpa [XmlEvent.isText, hrefTexts] using ih

/-- A set `sync-token` flag adds the texts in the window that are not inside of `href`. -/
theorem tokenTexts_true (events : List XmlEvent) :
    tokenTexts inHref true events = tokenTexts inHref true (window "sync-token" events) ++
      tokenTexts inHref false events := by
  induction events generalizing inHref with
  | nil => rfl
  | cons event events ih =>
    cases htouch : event.touches "sync-token" with
    | true =>
      rw [window_cons_touches htouch]
      cases event with
      | start name attributes | empty name attributes | stop name =>
        have htoken : localNameOf name = "sync-token" := of_decide_eq_true htouch
        simp only [tokenTexts, htoken, if_true, List.nil_append]
      | text t | other | error => cases htouch
    | false =>
      rw [window_cons htouch]
      cases event with
      | start name attributes | empty name attributes | stop name =>
        have htoken : localNameOf name ≠ "sync-token" := of_decide_eq_false htouch
        simp only [tokenTexts, htoken, if_false]
        exact ih
      | text t =>
        simp only [tokenTexts, Bool.and_true, Bool.and_false, Bool.false_eq_true, if_false]
        split
        · exact congrArg _ ih
        · exact ih
      | other | error => exact ih

/-- A set `href` flag takes the texts in the window from the sync token. -/
theorem tokenTexts_href (events : List XmlEvent) :
    tokenTexts false inSyncToken events =
      tokenTexts false inSyncToken (window "href" events) ++
        tokenTexts true inSyncToken events := by
  induction events generalizing inSyncToken with
  | nil => rfl
  | cons event events ih =>
    cases htouch : event.touches "href" with
    | true =>
      rw [window_cons_touches htouch]
      cases event with
      | start name attributes | empty name attributes | stop name =>
        have hhref : localNameOf name = "href" := of_decide_eq_true htouch
        simp only [tokenTexts, hhref, if_true, List.nil_append]
      | text t | other | error => cases htouch
    | false =>
      rw [window_cons htouch]
      cases event with
      | start name attributes | empty name attributes | stop name =>
        have hhref : localNameOf name ≠ "href" := of_decide_eq_false htouch
        simp only [tokenTexts, hhref, if_false]
        exact ih
      | text t =>
        simp only [tokenTexts, Bool.not_false, Bool.true_and, Bool.not_true, Bool.false_and,
          Bool.false_eq_true, if_false]
        split
        · exact congrArg _ ih
        · exact ih
      | other | error => exact ih

/-- Without a `sync-token` element there is no text in one. -/
theorem tokenTexts_untouched {events : List XmlEvent}
    (h : ∀ event ∈ events, event.touches "sync-token" = false) :
    tokenTexts inHref false events = [] := by
  induction events generalizing inHref with
  | nil => rfl
  | cons event events ih =>
    rw [List.forall_mem_cons] at h
    cases event with
    | start name attributes | empty name attributes | stop name =>
      have htoken : localNameOf name ≠ "sync-token" := of_decide_eq_false h.1
      simp only [tokenTexts, htoken, if_false]
      exact ih h.2
    | text t =>
      simp only [tokenTexts, Bool.and_false, Bool.false_eq_true, if_false]
      exact ih h.2
    | other | error => exact ih h.2

end

/-! ## `parse_propfind` -/

/-- The event ends the loop of `parse_propfind`. -/
def XmlEvent.decides : XmlEvent → Bool
  | .start name _ | .empty name _ => localNameOf name = "allprop" || localNameOf name = "propname"
  | .error => true
  | _ => false

/-- The answer of an event that ends the loop. -/
def XmlEvent.answer : XmlEvent → PropfindRequest
  | .start name _ | .empty name _ =>
    if localNameOf name = "allprop" then .allProp else .propName
  | _ => .allProp

/-- The request for some properties. -/
def requestOf (props : List PropRequest) : PropfindRequest :=
  if props.isEmpty then .allProp else .props props

theorem requestOf_inj {a b : List PropRequest} : requestOf a = requestOf b ↔ a = b := by
  refine ⟨fun h => ?_, congrArg requestOf⟩
  unfold requestOf at h
  cases a <;> cases b <;> simp_all

/-- No known name: every element inside of `prop` is a property. -/
def noneKnown : String → Bool := fun _ => false

/-- The loop ends at the first event that decides, and else with the properties collected. -/
theorem parsePropfindFrom_eq (ctx : NsContext) (inProp : Bool) (props : List PropRequest)
    (events : List XmlEvent) :
    parsePropfindFrom ctx inProp props events =
      match events.find? XmlEvent.decides with
      | some event => event.answer
      | none => requestOf (props ++ collect noneKnown ctx inProp events) := by
  induction events generalizing ctx inProp props with
  | nil =>
    rw [List.find?_nil, collect, List.append_nil]
    rfl
  | cons event events ih =>
    cases hdecides : event.decides with
    | true =>
      rw [List.find?_cons_of_pos hdecides]
      cases event with
      | start name attributes | empty name attributes =>
        simp only [parsePropfindFrom, XmlEvent.answer]
        by_cases hall : localNameOf name = "allprop"
        · simp only [hall, if_true]
        · have hname : localNameOf name = "propname" := by
            simpa [XmlEvent.decides, hall] using hdecides
          simp [hname]
      | error => rfl
      | stop name | text t | other => cases hdecides
    | false =>
      rw [List.find?_cons_of_neg (by rw [hdecides]; decide)]
      cases event with
      | start name attributes | empty name attributes =>
        have hnames : localNameOf name ≠ "allprop" ∧ localNameOf name ≠ "propname" := by
          simpa [XmlEvent.decides] using hdecides
        simp only [parsePropfindFrom, collect, hnames.1, hnames.2, if_false, noneKnown,
          Bool.not_false, Bool.and_true]
        split
        · exact ih _ _ _
        · split
          · rw [ih, List.append_assoc]
            rfl
          · exact ih _ _ _
      | stop name => exact ih _ _ _
      | text t | other => exact ih _ _ _
      | error => cases hdecides

/-- No property is added by the first form: the element is not `prop`, or no property stands in
    the window behind it, or another event ends the loop. -/
def PropfindSafe (before : List XmlEvent) (name : String) (attributes : List (String × String))
    (behind : List XmlEvent) : Prop :=
  (before ++ .empty name attributes :: behind).any XmlEvent.decides = true ∨
    (localNameOf name = "prop" →
      (window "prop" behind).any (·.isProperty noneKnown) = false)

section

variable (before : List XmlEvent) (name : String) (attributes : List (String × String))
  (behind : List XmlEvent)

/-- The two forms decide alike. -/
theorem find?_decides_forms :
    ((before ++ .start name attributes :: .stop name :: behind).find? XmlEvent.decides).map
        XmlEvent.answer =
      ((before ++ .empty name attributes :: behind).find? XmlEvent.decides).map
        XmlEvent.answer := by
  rw [List.find?_append, List.find?_append]
  cases before.find? XmlEvent.decides with
  | some event => rfl
  | none =>
    simp only [Option.none_or]
    have hsame : XmlEvent.decides (.start name attributes) =
        XmlEvent.decides (.empty name attributes) := rfl
    cases hdecides : XmlEvent.decides (.empty name attributes) with
    | true =>
      rw [List.find?_cons_of_pos (hsame.trans hdecides), List.find?_cons_of_pos hdecides]
      rfl
    | false =>
      rw [List.find?_cons_of_neg (by rw [hsame, hdecides]; decide),
        List.find?_cons_of_neg Bool.false_ne_true,
        List.find?_cons_of_neg (by rw [hdecides]; decide)]

/-- What an element without content adds in the two forms. -/
theorem collect_forms (known : String → Bool) (ctx : NsContext) (inProp : Bool) :
    collect known ctx inProp (.start name attributes :: .stop name :: behind) =
        collect known ctx inProp (.empty name attributes :: behind) ↔
      (localNameOf name = "prop" →
        (window "prop" behind).any (·.isProperty known) = false) := by
  by_cases hprop : localNameOf name = "prop"
  · simp only [collect, hprop, if_true, forall_const]
    rw [collect_true, ← collect_window_eq_nil (ctx.register attributes), eq_comm,
      List.append_left_eq_self]
  · simp only [collect, hprop, if_false, false_implies]

theorem parsePropfind_forms :
    parsePropfindFrom [] false [] (before ++ .empty name attributes :: behind) =
        parsePropfindFrom [] false [] (before ++ .start name attributes :: .stop name :: behind) ↔
      PropfindSafe before name attributes behind := by
  rw [parsePropfindFrom_eq, parsePropfindFrom_eq]
  unfold PropfindSafe
  have hsame := find?_decides_forms before name attributes behind
  cases hfind : (before ++ .empty name attributes :: behind).find? XmlEvent.decides with
  | some event =>
    rw [hfind] at hsame
    obtain ⟨event', hfind', hanswer⟩ := Option.map_eq_some_iff.mp hsame
    have hany : (before ++ .empty name attributes :: behind).any XmlEvent.decides = true :=
      List.any_eq_true.mpr ⟨event, List.mem_of_find?_eq_some hfind, List.find?_some hfind⟩
    rw [hfind']
    exact ⟨fun _ => Or.inl hany, fun _ => hanswer.symm⟩
  | none =>
    rw [hfind] at hsame
    have hnone : (before ++ .empty name attributes :: behind).any XmlEvent.decides ≠ true := by
      intro h
      obtain ⟨event, hmem, hdecides⟩ := List.any_eq_true.mp h
      exact List.find?_eq_none.mp hfind event hmem hdecides
    rw [Option.map_eq_none_iff.mp hsame]
    simp only [List.nil_append]
    rw [requestOf_inj, collect_append, collect_append, List.append_cancel_left_eq, eq_comm,
      collect_forms, or_iff_right hnone]

end

/-! ## `parse_report` -/

/-- The names that `parse_report` knows. -/
def reportKnown (localName : String) : Bool :=
  localName = "calendar-multiget" || localName = "calendar-query" ||
    localName = "sync-collection" || localName = "filter" || localName = "comp-filter" ||
    localName = "href" || localName = "sync-token" || localName = "time-range"

/-- The report that an event asks for. -/
def XmlEvent.reportType? : XmlEvent → Option ReportType
  | .start name _ | .empty name _ =>
    if localNameOf name = "calendar-multiget" then some .multiget
    else if localNameOf name = "calendar-query" then some .query
    else if localNameOf name = "sync-collection" then some .sync
    else none
  | _ => none

/-- The report asked for: the last one. -/
def reportTypeOf (events : List XmlEvent) : Option ReportType :=
  (events.filterMap XmlEvent.reportType?).getLast?

/-- The attributes of a `time-range`. -/
def readRange (range : String × String) (attributes : List (String × String)) :
    String × String :=
  attributes.foldl (fun range (key, value) =>
    if key = "start" then (value, range.2)
    else if key = "end" then (range.1, value)
    else range) range

/-- The time range after an event. -/
def XmlEvent.range (range : String × String) : XmlEvent → String × String
  | .start name attributes | .empty name attributes =>
    if localNameOf name = "time-range" then readRange range attributes else range
  | _ => range

namespace ReportState

/-- One round of the loop. -/
def step (s : ReportState) : XmlEvent → ReportState
  | .start name attributes | .empty name attributes => s.openElement name attributes
  | .stop name => s.closeElement name
  | .text t => s.text t
  | .other | .error => s

theorem run_eq (s : ReportState) (events : List XmlEvent) :
    s.run events = if .error ∈ events then none else (events.foldl step s).finish := by
  induction events generalizing s with
  | nil => rfl
  | cons event events ih =>
    cases event with
    | error => rw [run, if_pos List.mem_cons_self]
    | start name attributes | empty name attributes | stop name | text t | other =>
      rw [run, ih, List.foldl_cons]
      simp only [List.mem_cons, reduceCtorEq, false_or]
      rfl

/-- The attributes of a `time-range` change the times only. -/
theorem foldl_range (s : ReportState) (attributes : List (String × String)) :
    attributes.foldl (fun (s : ReportState) (key, value) =>
      if key = "start" then { s with timeStart := value }
      else if key = "end" then { s with timeEnd := value }
      else s) s =
    { s with
      timeStart := (readRange (s.timeStart, s.timeEnd) attributes).1
      timeEnd := (readRange (s.timeStart, s.timeEnd) attributes).2 } := by
  induction attributes generalizing s with
  | nil => rfl
  | cons pair attributes ih =>
    obtain ⟨key, value⟩ := pair
    unfold readRange at ih ⊢
    rw [List.foldl_cons, ih]
    simp only [List.foldl_cons]
    split_ifs <;> rfl

/-- What an opened element changes, field by field. -/
theorem openElement_eq (s : ReportState) (name : String) (attributes : List (String × String)) :
    s.openElement name attributes =
      { ctx := s.ctx.register attributes
        reportType := (XmlEvent.reportType? (.start name attributes)).or s.reportType
        inProp := if localNameOf name = "prop" then true else s.inProp
        inSyncToken := if localNameOf name = "sync-token" then true else s.inSyncToken
        inHref := if localNameOf name = "href" then true else s.inHref
        props := s.props ++ (if localNameOf name ≠ "prop" ∧
            (s.inProp && !reportKnown (localNameOf name)) = true then
          [⟨(s.ctx.register attributes).resolve name attributes, localNameOf name⟩] else [])
        hrefs := s.hrefs
        timeStart := (XmlEvent.range (s.timeStart, s.timeEnd) (.start name attributes)).1
        timeEnd := (XmlEvent.range (s.timeStart, s.timeEnd) (.start name attributes)).2
        syncToken := s.syncToken } := by
  unfold openElement
  simp only [foldl_range, XmlEvent.reportType?, XmlEvent.range, reportKnown]
  generalize localNameOf name = localName
  by_cases hmultiget : localName = "calendar-multiget"
  · subst hmultiget
    simp
  by_cases hquery : localName = "calendar-query"
  · subst hquery
    simp
  by_cases hsync : localName = "sync-collection"
  · subst hsync
    simp
  by_cases hprop : localName = "prop"
  · subst hprop
    simp
  by_cases hfilter : localName = "filter"
  · subst hfilter
    simp
  by_cases hcomp : localName = "comp-filter"
  · subst hcomp
    simp
  by_cases hhref : localName = "href"
  · subst hhref
    simp
  by_cases htoken : localName = "sync-token"
  · subst htoken
    simp
  by_cases hrange : localName = "time-range"
  · subst hrange
    simp
  cases s.inProp <;>
    simp [hmultiget, hquery, hsync, hprop, hfilter, hcomp, hhref, htoken, hrange]

theorem closeElement_eq (s : ReportState) (name : String) : s.closeElement name =
    { s with
      inProp := if localNameOf name = "prop" then false else s.inProp
      inHref := if localNameOf name = "href" then false else s.inHref
      inSyncToken := if localNameOf name = "sync-token" then false else s.inSyncToken } := by
  unfold closeElement
  simp only
  split_ifs <;> simp_all

theorem text_eq (s : ReportState) (t : String) : s.text t =
    { s with
      hrefs := s.hrefs ++ (if s.inHref then [t] else [])
      syncToken := if !s.inHref && s.inSyncToken then t else s.syncToken } := by
  obtain ⟨ctx, reportType, inProp, inSyncToken, inHref, props, hrefs, timeStart, timeEnd, token⟩ := s
  cases inHref <;> cases inSyncToken <;> simp [text]

/-- The accumulators after some events, from what the events hold. -/
structure Collected (s : ReportState) (events : List XmlEvent) (r : ReportState) : Prop where
  reportType : r.reportType = (reportTypeOf events).or s.reportType
  props : r.props = s.props ++ collect reportKnown s.ctx s.inProp events
  hrefs : r.hrefs = s.hrefs ++ hrefTexts s.inHref events
  syncToken : r.syncToken =
    (tokenTexts s.inHref s.inSyncToken events).getLast?.getD s.syncToken
  range : (r.timeStart, r.timeEnd) = events.foldl XmlEvent.range (s.timeStart, s.timeEnd)

theorem reportTypeOf_cons (event : XmlEvent) (events : List XmlEvent) :
    reportTypeOf (event :: events) = (reportTypeOf events).or event.reportType? := by
  unfold reportTypeOf
  cases h : event.reportType? with
  | none => rw [List.filterMap_cons_none h, Option.or_none]
  | some kind =>
    rw [List.filterMap_cons_some h, List.getLast?_cons]
    cases (events.filterMap XmlEvent.reportType?).getLast? <;> rfl

theorem reportTypeOf_cons_none {event : XmlEvent} (h : event.reportType? = none)
    (events : List XmlEvent) : reportTypeOf (event :: events) = reportTypeOf events := by
  rw [reportTypeOf_cons, h, Option.or_none]

theorem collected_foldl (s : ReportState) (events : List XmlEvent) :
    Collected s events (events.foldl step s) := by
  induction events generalizing s with
  | nil => exact ⟨rfl, (List.append_nil _).symm, (List.append_nil _).symm, rfl, rfl⟩
  | cons event events ih =>
    obtain ⟨htype, hprops, hhrefs, htoken, hrange⟩ := ih (step s event)
    rw [List.foldl_cons]
    cases event with
    | start name attributes | empty name attributes =>
      simp only [step, openElement_eq] at htype hprops hhrefs htoken hrange ⊢
      refine ⟨?_, ?_, ?_, ?_, ?_⟩
      · refine htype.trans ?_
        rw [reportTypeOf_cons]
        exact (Option.or_assoc ..).symm
      · rw [hprops, List.append_assoc]
        simp only [collect]
        by_cases hprop : localNameOf name = "prop"
        · simp [hprop]
        · simp only [hprop, if_false, ne_eq, not_false_eq_true, true_and]
          split <;> rfl
      · exact hhrefs
      · exact htoken
      · exact hrange
    | stop name =>
      simp only [step, closeElement_eq] at htype hprops hhrefs htoken hrange ⊢
      refine ⟨?_, hprops, hhrefs, htoken, hrange⟩
      rw [htype, reportTypeOf_cons_none rfl]
    | text t =>
      simp only [step, text_eq] at htype hprops hhrefs htoken hrange ⊢
      refine ⟨?_, hprops, ?_, ?_, hrange⟩
      · rw [htype, reportTypeOf_cons_none rfl]
      · rw [hhrefs, List.append_assoc, hrefTexts]
        cases s.inHref <;> rfl
      · rw [htoken, tokenTexts]
        split
        · rw [List.getLast?_cons]
          rfl
        · rfl
    | other | error =>
      refine ⟨htype.trans ?_, hprops, hhrefs, htoken, hrange⟩
      rw [reportTypeOf_cons_none rfl]
      rfl

/-- The request from what was collected. -/
def request (reportType : Option ReportType) (props : List PropRequest) (hrefs : List String)
    (syncToken : String) (range : String × String) : Option ReportRequest :=
  finish ⟨[], reportType, false, false, false, props, hrefs, range.1, range.2, syncToken⟩

/-- The result of the loop. -/
theorem run_init_eq (events : List XmlEvent) :
    init.run events = if .error ∈ events then none else
      request (reportTypeOf events) (collect reportKnown [] false events)
        (hrefTexts false events) ((tokenTexts false false events).getLast?.getD "")
        (events.foldl XmlEvent.range ("", "")) := by
  obtain ⟨htype, hprops, hhrefs, htoken, hrange⟩ := collected_foldl init events
  rw [run_eq]
  have hfinish : (events.foldl step init).finish =
      request (events.foldl step init).reportType (events.foldl step init).props
        (events.foldl step init).hrefs (events.foldl step init).syncToken
        ((events.foldl step init).timeStart, (events.foldl step init).timeEnd) := rfl
  rw [hfinish, htype, hprops, hhrefs, htoken, hrange]
  have hor : (reportTypeOf events).or init.reportType = reportTypeOf events := Option.or_none
  rw [hor]
  rfl

end ReportState

/-! ### The two forms -/

/-- Texts of the sync token that make no difference: there are none, or others follow, or the last
    one is the text there was before. -/
def Redundant (earlier extra later : List String) : Prop :=
  extra = [] ∨ later ≠ [] ∨ extra.getLast? = some (earlier.getLast?.getD "")

theorem redundant_iff (earlier extra later : List String) :
    (earlier ++ (extra ++ later)).getLast?.getD "" = (earlier ++ later).getLast?.getD "" ↔
      Redundant earlier extra later := by
  unfold Redundant
  rw [List.getLast?_append, List.getLast?_append, List.getLast?_append]
  cases hlater : later.getLast? with
  | some t =>
    have hne : later ≠ [] := by
      rintro rfl
      cases hlater
    simp [hne]
  | none =>
    rw [List.getLast?_eq_none_iff.mp hlater]
    cases hextra : extra.getLast? with
    | none => simp [List.getLast?_eq_none_iff.mp hextra]
    | some t =>
      have hne : extra ≠ [] := by
        rintro rfl
        cases hextra
      simp [hne]

section

variable (before : List XmlEvent) (name : String) (attributes : List (String × String))
  (behind : List XmlEvent)

/-- What the first form adds to a report of some type makes no difference. -/
structure ReportSafe (reportType : ReportType) : Prop where
  props : localNameOf name = "prop" →
    (window "prop" behind).any (·.isProperty reportKnown) = false
  hrefs : reportType = .multiget → localNameOf name = "href" →
    (window "href" behind).any XmlEvent.isText = false
  token : reportType = .sync → localNameOf name = "sync-token" →
    Redundant (tokenTexts false false before)
      (tokenTexts (inside "href" false before) true (window "sync-token" behind))
      (tokenTexts (inside "href" false before) false behind)
  tokenHref : reportType = .sync → localNameOf name = "href" →
    Redundant (tokenTexts false false before)
      (tokenTexts false (inside "sync-token" false before) (window "href" behind))
      (tokenTexts true (inside "sync-token" false before) behind)

theorem hrefTexts_forms (inHref : Bool) :
    hrefTexts inHref (.empty name attributes :: behind) =
        hrefTexts inHref (.start name attributes :: .stop name :: behind) ↔
      (localNameOf name = "href" → (window "href" behind).any XmlEvent.isText = false) := by
  by_cases hhref : localNameOf name = "href"
  · simp only [hrefTexts, hhref, if_true, forall_const]
    rw [hrefTexts_true, ← hrefTexts_window_eq_nil, List.append_left_eq_self]
  · simp only [hrefTexts, hhref, if_false, false_implies]

/-- The sync token in the two forms. -/
theorem tokenTexts_forms :
    (tokenTexts false false (before ++ .empty name attributes :: behind)).getLast?.getD "" =
        (tokenTexts false false
          (before ++ .start name attributes :: .stop name :: behind)).getLast?.getD "" ↔
      (localNameOf name = "sync-token" → Redundant (tokenTexts false false before)
        (tokenTexts (inside "href" false before) true (window "sync-token" behind))
        (tokenTexts (inside "href" false before) false behind)) ∧
      (localNameOf name = "href" → Redundant (tokenTexts false false before)
        (tokenTexts false (inside "sync-token" false before) (window "href" behind))
        (tokenTexts true (inside "sync-token" false before) behind)) := by
  rw [tokenTexts_append, tokenTexts_append]
  by_cases htoken : localNameOf name = "sync-token"
  · have hne : ("sync-token" : String) ≠ "href" := by decide
    simp only [tokenTexts, htoken, hne, if_true, if_false, forall_const, false_implies, and_true]
    rw [← redundant_iff, ← tokenTexts_true]
  · by_cases hhref : localNameOf name = "href"
    · have hne : ("href" : String) ≠ "sync-token" := by decide
      simp only [tokenTexts, hhref, hne, if_true, if_false, forall_const, false_implies, true_and]
      rw [← redundant_iff, ← tokenTexts_href, eq_comm]
    · simp [tokenTexts, htoken, hhref]

theorem mem_error_forms : .error ∈ before ++ .start name attributes :: .stop name :: behind ↔
    .error ∈ before ++ .empty name attributes :: behind := by
  simp

theorem reportTypeOf_forms :
    reportTypeOf (before ++ .start name attributes :: .stop name :: behind) =
      reportTypeOf (before ++ .empty name attributes :: behind) := by
  unfold reportTypeOf
  rw [List.filterMap_append, List.filterMap_append]
  rfl

theorem range_forms (range : String × String) :
    (before ++ .start name attributes :: .stop name :: behind).foldl XmlEvent.range range =
      (before ++ .empty name attributes :: behind).foldl XmlEvent.range range := by
  rw [List.foldl_append, List.foldl_append]
  rfl

theorem parseReport_forms :
    ReportState.init.run (before ++ .empty name attributes :: behind) =
        ReportState.init.run (before ++ .start name attributes :: .stop name :: behind) ↔
      .error ∈ before ++ .empty name attributes :: behind ∨
        ∀ reportType, reportTypeOf (before ++ .empty name attributes :: behind) =
          some reportType → ReportSafe before name behind reportType := by
  rw [ReportState.run_init_eq, ReportState.run_init_eq, reportTypeOf_forms, range_forms]
  simp only [mem_error_forms]
  by_cases herror : .error ∈ before ++ .empty name attributes :: behind
  · simp only [herror, if_true, true_or]
  · simp only [herror, if_false, false_or]
    have hprops : collect reportKnown [] false (before ++ .empty name attributes :: behind) =
        collect reportKnown [] false
          (before ++ .start name attributes :: .stop name :: behind) ↔
        (localNameOf name = "prop" →
          (window "prop" behind).any (·.isProperty reportKnown) = false) := by
      rw [collect_append, collect_append, List.append_cancel_left_eq, eq_comm, collect_forms]
    have hhrefs : hrefTexts false (before ++ .empty name attributes :: behind) =
        hrefTexts false (before ++ .start name attributes :: .stop name :: behind) ↔
        (localNameOf name = "href" →
          (window "href" behind).any XmlEvent.isText = false) := by
      rw [hrefTexts_append, hrefTexts_append, List.append_cancel_left_eq, hrefTexts_forms]
    have htoken := tokenTexts_forms before name attributes behind
    cases reportTypeOf (before ++ .empty name attributes :: behind) with
    | none => simp [ReportState.request, ReportState.finish]
    | some reportType =>
      simp only [Option.some.injEq, forall_eq']
      cases reportType with
      | multiget =>
        simp only [ReportState.request, ReportState.finish, Option.some.injEq,
          ReportRequest.calendarMultiget.injEq, hprops, hhrefs]
        exact ⟨fun h => ⟨h.1, fun _ => h.2, nofun, nofun⟩, fun h => ⟨h.props, h.hrefs rfl⟩⟩
      | query =>
        simp only [ReportState.request, ReportState.finish, Option.some.injEq,
          ReportRequest.calendarQuery.injEq, hprops, and_true]
        exact ⟨fun h => ⟨h, nofun, nofun, nofun⟩, fun h => h.props⟩
      | sync =>
        simp only [ReportState.request, ReportState.finish, Option.some.injEq,
          ReportRequest.syncCollection.injEq, hprops, htoken]
        exact ⟨fun h => ⟨h.1, nofun, fun _ => h.2.1, fun _ => h.2.2⟩,
          fun h => ⟨h.props, h.token rfl, h.tokenHref rfl⟩⟩

end

/-! ## The law -/

/-- Two bodies that differ in the form of one element without content, as they are read. -/
structure Forms (lib : Lib) (body body' : ByteArray) (before : List XmlEvent) (name : String)
    (attributes : List (String × String)) (behind : List XmlEvent) : Prop where
  written : body.isEmpty = false
  written' : body'.isEmpty = false
  short : lib.readXml body = before ++ .empty name attributes :: behind
  long : lib.readXml body' = before ++ .start name attributes :: .stop name :: behind

section

variable (before : List XmlEvent) (name : String) (attributes : List (String × String))
  (behind : List XmlEvent)

/-- A sync-collection body whose one `sync-token` is the element without content. -/
structure EmptyToken : Prop where
  token : localNameOf name = "sync-token"
  sync : reportTypeOf (before ++ .empty name attributes :: behind) = some .sync
  read : .error ∉ before ++ .empty name attributes :: behind
  before : ∀ event ∈ before, event.touches "sync-token" = false
  behind : ∀ event ∈ behind, event.touches "sync-token" = false

/-- The first form makes no difference to a REPORT: the body cannot be read, or asks for no
    report, or what the form adds makes no difference. -/
def ReportFormsSafe : Prop :=
  .error ∈ before ++ .empty name attributes :: behind ∨
    ∀ reportType, reportTypeOf (before ++ .empty name attributes :: behind) = some reportType →
      ReportSafe before name behind reportType

/-- In the second form the sync token is empty. -/
theorem run_emptyToken {before : List XmlEvent} {name : String}
    {attributes : List (String × String)} {behind : List XmlEvent}
    (h : EmptyToken before name attributes behind) :
    ∃ props, ReportState.init.run (before ++ .start name attributes :: .stop name :: behind) =
      some (.syncCollection props "") := by
  have herror : .error ∉ before ++ .start name attributes :: .stop name :: behind := by
    rw [mem_error_forms]
    exact h.read
  have htokens : tokenTexts false false
      (before ++ .start name attributes :: .stop name :: behind) = [] := by
    rw [tokenTexts_append, tokenTexts_untouched h.before]
    simp only [tokenTexts, h.token, if_true, List.nil_append]
    exact tokenTexts_untouched h.behind
  rw [ReportState.run_init_eq, if_neg herror, reportTypeOf_forms, h.sync, htokens]
  exact ⟨_, rfl⟩

/-- **Two forms of an element.** For every body and every element without content in it, the
    forms `<e/>` and `<e></e>` mean the same to `parse_propfind` and `parse_report`, and an empty
    sync token is read as one, exactly when nothing in the window behind the element is taken for
    its content and makes a difference. -/
theorem forms_agree_iff (lib : Lib) (body body' : ByteArray)
    (h : Forms lib body body' before name attributes behind) :
    (parsePropfind lib body = parsePropfind lib body' ∧
      parseReport lib body = parseReport lib body' ∧
      (EmptyToken before name attributes behind →
        ∃ props, parseReport lib body = some (.syncCollection props ""))) ↔
      PropfindSafe before name attributes behind ∧
        ReportFormsSafe before name attributes behind := by
  have hpropfind : parsePropfind lib body = parsePropfind lib body' ↔
      PropfindSafe before name attributes behind := by
    unfold parsePropfind
    rw [h.written, h.written', h.short, h.long]
    exact parsePropfind_forms before name attributes behind
  have hshort : parseReport lib body =
      ReportState.init.run (before ++ .empty name attributes :: behind) := by
    unfold parseReport
    rw [h.written, h.short]
    rfl
  have hlong : parseReport lib body' =
      ReportState.init.run (before ++ .start name attributes :: .stop name :: behind) := by
    unfold parseReport
    rw [h.written', h.long]
    rfl
  have hreport : parseReport lib body = parseReport lib body' ↔
      ReportFormsSafe before name attributes behind := by
    rw [hshort, hlong]
    exact parseReport_forms before name attributes behind
  constructor
  · rintro ⟨hp, hr, -⟩
    exact ⟨hpropfind.mp hp, hreport.mp hr⟩
  · rintro ⟨hp, hr⟩
    refine ⟨hpropfind.mpr hp, hreport.mpr hr, fun hempty => ?_⟩
    rw [hreport.mpr hr, hlong]
    exact run_emptyToken hempty

end

/-! ### A sync with an empty token -/

/-- A reader that knows a body in its two forms. -/
def formsLib (body : String) (short long : List XmlEvent) : Lib where
  argon2Hash _ _ := .error "no password"
  argon2Verify _ _ := .ok false
  base64Decode _ := none
  readXml read := if read = body.toUTF8 then short else long

theorem formsLib_forms (body body' : String) (hne : body ≠ body') (hbody : body ≠ "")
    (hbody' : body' ≠ "") (before : List XmlEvent) (name : String)
    (attributes : List (String × String)) (behind : List XmlEvent) :
    Forms (formsLib body (before ++ .empty name attributes :: behind)
        (before ++ .start name attributes :: .stop name :: behind))
      body.toUTF8 body'.toUTF8 before name attributes behind := by
  have hwritten : ∀ s : String, s ≠ "" → s.toUTF8.isEmpty = false := by
    intro s hs
    by_contra h
    have hsize : s.toUTF8.size = 0 := by simpa [ByteArray.isEmpty] using h
    exact hs (String.toByteArray_inj.mp (ByteArray.size_eq_zero_iff.mp hsize))
  refine ⟨hwritten body hbody, hwritten body' hbody', if_pos rfl, if_neg fun h => ?_⟩
  exact hne (String.toByteArray_inj.mp h).symm

instance (earlier extra later : List String) : Decidable (Redundant earlier extra later) :=
  inferInstanceAs (Decidable (_ ∨ _ ∨ _))

/-- A sync with its token last. -/
def tokenLast (token : String) : String :=
  "<D:sync-collection xmlns:D=\"DAV:\"><D:sync-level>1</D:sync-level>" ++ token ++
    "</D:sync-collection>"

/-- A sync with its token first. -/
def tokenFirst (token : String) : String :=
  "<D:sync-collection xmlns:D=\"DAV:\">" ++ token ++
    "<D:sync-level>1</D:sync-level></D:sync-collection>"

def openSync : XmlEvent := .start "D:sync-collection" [("xmlns:D", "DAV:")]

def syncLevel : List XmlEvent := [.start "D:sync-level" [], .text "1", .stop "D:sync-level"]

def closeSync : XmlEvent := .stop "D:sync-collection"

/-- With the token last, the two forms mean the same. -/
theorem forms_agree_iff_last :
    ∃ props, parseReport
      (formsLib (tokenLast "<D:sync-token/>")
        ((openSync :: syncLevel) ++ .empty "D:sync-token" [] :: [closeSync])
        ((openSync :: syncLevel) ++ .start "D:sync-token" [] :: .stop "D:sync-token" ::
          [closeSync]))
      (tokenLast "<D:sync-token/>").toUTF8 = some (.syncCollection props "") :=
  ((forms_agree_iff (openSync :: syncLevel) "D:sync-token" [] [closeSync] _ _ _
    (formsLib_forms _ (tokenLast "<D:sync-token></D:sync-token>") (by decide) (by decide)
      (by decide) _ _ _ _)).mpr
    ⟨Or.inr (by decide), Or.inr fun reportType _ => ⟨by decide, fun _ => by decide,
      fun _ _ => Or.inl (by decide), fun _ => by decide⟩⟩).2.2
    ⟨by decide, by decide, by decide, by decide, by decide⟩

/-- With the token first, the level is taken for the token. -/
theorem level_taken_for_token : ¬ ∀ (lib : Lib) (body body' : ByteArray)
    (before : List XmlEvent) (name : String) (attributes : List (String × String))
    (behind : List XmlEvent), Forms lib body body' before name attributes behind →
      parsePropfind lib body = parsePropfind lib body' ∧
      parseReport lib body = parseReport lib body' ∧
      (EmptyToken before name attributes behind →
        ∃ props, parseReport lib body = some (.syncCollection props "")) := by
  intro h
  have hforms := formsLib_forms (tokenFirst "<D:sync-token/>")
    (tokenFirst "<D:sync-token></D:sync-token>") (by decide) (by decide) (by decide)
    [openSync] "D:sync-token" [] (syncLevel ++ [closeSync])
  obtain ⟨props, hprops⟩ := (h _ _ _ _ _ _ _ hforms).2.2
    ⟨by decide, by decide, by decide, by decide, by decide⟩
  unfold parseReport at hprops
  rw [hforms.written, hforms.short] at hprops
  have hread : ReportState.init.run ([openSync] ++ .empty "D:sync-token" [] ::
      (syncLevel ++ [closeSync])) = some (.syncCollection [] "1") := by decide
  rw [hread] at hprops
  simp at hprops

end CaldavMcp
