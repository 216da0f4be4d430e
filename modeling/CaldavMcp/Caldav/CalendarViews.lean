/-
  A calendar as its home shows it, and as it shows itself.

  The two properties tables are the same but for five properties, which only the table of the
  calendar itself has (`calendarProps_eq`). So the two answers to one PROPFIND agree exactly when
  it asks for properties by name, and for none of these five (`looks_same_iff`); the email home
  uses the table of the calendar.
-/
import CaldavMcp.Caldav.Multiget
import CaldavMcp.Caldav.Partition

namespace CaldavMcp

open Program

/-! ## The two tables -/

/-- The properties that a calendar has only where it is asked itself. -/
def ownOnly : List PropRequest :=
  [⟨appleNs, "calendar-order"⟩, ⟨caldavNs, "schedule-calendar-transp"⟩,
    ⟨caldavNs, "schedule-default-calendar-URL"⟩, ⟨davNs, "getcontenttype"⟩,
    ⟨davNs, "resource-id"⟩]

/-- The request asks for properties by name, and for none of those. -/
def PropfindRequest.AvoidsOwnOnly : PropfindRequest → Prop
  | .allProp | .propName => False
  | .props requested => ∀ r ∈ requested, r ∉ ownOnly

section

variable (username : String) (r : Calendar)

/-- The table of the home is that of the calendar without them. -/
theorem calendarProps_eq : calendarProps username r =
    (calendarPropsForContext ⟨none, username⟩ r).filter fun p => p.expanded ∉ ownOnly := by
  rfl

theorem ownOnly_available {name : PropRequest} (h : name ∈ ownOnly) :
    ∃ p ∈ calendarPropsForContext ⟨none, username⟩ r, p.expanded = name := by
  have hall : ∀ name ∈ ownOnly,
      name ∈ (calendarPropsForContext ⟨none, username⟩ r).map PropValue.expanded := by
    simp [ownOnly, calendarPropsForContext, xmlProp, textProp, PropValue.expanded]
  exact List.mem_map.mp (hall name h)

/-- The filtered tables agree exactly when the request avoids the five. -/
theorem filterProps_eq_iff (propfind : PropfindRequest) :
    filterProps propfind (calendarProps username r) =
        filterProps propfind (calendarPropsForContext ⟨none, username⟩ r) ↔
      propfind.AvoidsOwnOnly := by
  cases propfind with
  | allProp =>
    refine iff_of_false (fun h => ?_) id
    have hlength := congrArg (fun answer => answer.1.length) h
    cases hlength
  | propName =>
    refine iff_of_false (fun h => ?_) id
    have hlength := congrArg (fun answer => answer.1.length) h
    cases hlength
  | props requested =>
    constructor
    · intro h name hname hown
      obtain ⟨p, hp, rfl⟩ := ownOnly_available username r hown
      have hfound := congrArg Prod.fst h
      rw [filterProps_found, filterProps_found] at hfound
      have hmem : p ∈ (calendarPropsForContext ⟨none, username⟩ r).filter
          fun p => p.expanded ∈ requested :=
        List.mem_filter.mpr ⟨hp, decide_eq_true hname⟩
      rw [← hfound, calendarProps_eq] at hmem
      have havoids := (List.mem_filter.mp (List.mem_filter.mp hmem).1).2
      exact of_decide_eq_true havoids hown
    · intro h
      have hfound : (filterProps (.props requested) (calendarProps username r)).1 =
          (filterProps (.props requested) (calendarPropsForContext ⟨none, username⟩ r)).1 := by
        rw [filterProps_found, filterProps_found, calendarProps_eq, List.filter_filter]
        refine List.filter_congr fun p _ => ?_
        by_cases hp : p.expanded ∈ requested
        · simp [hp, h p.expanded hp]
        · simp [hp]
      unfold filterProps at hfound ⊢
      dsimp only at hfound ⊢
      rw [hfound]

end

/-! ## The two answers -/

/-- A request with this Depth header. -/
def Request.withDepth (request : Request) (depth : String) : Request :=
  { request with headers := ("depth", depth.toUTF8) :: request.headers }

/-- The home at depth 1 and the calendar at depth 0 show the calendar once, and alike. -/
def LooksSame (env : Env) (lib : Lib) (w : World) (user : User) (r : Calendar)
    (request : Request) : Prop :=
  ∃ (home own : Multistatus) (entry : ResponseEntry),
    ((handlePropfindHome lib user (request.withDepth "1")).run (exec env) w).1.document? =
      some home ∧
    ((handlePropfindCalendar lib user none r.id (request.withDepth "0")).run (exec env)
      w).1.document? = some own ∧
    home.under (calendarHref user.username r.id) = [entry] ∧
    own.under (calendarHref user.username r.id) = [entry]

section

variable {env : Env} {lib : Lib} {w : World} {user : User} {r : Calendar} {request : Request}

theorem calendarHref_inj {username id id' : String}
    (h : calendarHref username id = calendarHref username id') : id = id' := by
  unfold calendarHref at h
  rwa [String.append_left_inj, String.append_right_inj] at h

theorem depth_withDepth (request : Request) :
    (request.withDepth "1").depth = 1 ∧ (request.withDepth "0").depth = 0 := by
  have hheader : ∀ depth : String,
      (request.withDepth depth).header? "depth" = Request.headerToStr depth.toUTF8 := fun _ => rfl
  unfold Request.depth
  rw [hheader, hheader]
  decide

/-- The home shows each of its calendars once. -/
theorem home_under (hr : r ∈ w.db.calendarsFor user.id) (propfind : PropfindRequest) :
    Multistatus.under ⟨propfindEntry propfind ("/caldav/users/" ++ user.username ++ "/")
        (calendarHomeProps user.username) ::
      (w.db.calendarsFor user.id).map fun cal =>
        propfindEntry propfind (calendarHref user.username cal.id)
          (calendarProps user.username cal), none⟩ (calendarHref user.username r.id) =
      [propfindEntry propfind (calendarHref user.username r.id)
        (calendarProps user.username r)] := by
  have hhome : "/caldav/users/" ++ user.username ++ "/" ≠ calendarHref user.username r.id := by
    intro h
    have hlength := congrArg String.length h
    unfold calendarHref at hlength
    simp only [String.length_append] at hlength
    have hslash : "/".length = 1 := rfl
    omega
  have hone : Multistatus.under ⟨(w.db.calendarsFor user.id).map fun cal =>
      propfindEntry propfind (calendarHref user.username cal.id)
        (calendarProps user.username cal), none⟩ (calendarHref user.username r.id) =
      [propfindEntry propfind (calendarHref user.username r.id)
        (calendarProps user.username r)] :=
    under_singleton (w.db.calendarsFor_nodup user.id)
      (fun c hc c' hc' hhref => List.inj_on_of_nodup_map w.db.ok.calendarsFor_ids_nodup hc hc'
        (calendarHref_inj hhref)) hr none
  unfold Multistatus.under at hone ⊢
  rw [List.filter_cons_of_neg]
  · exact hone
  · rw [decide_eq_true_iff]
    exact hhome

/-- **A calendar in its home and in itself.** The home at depth 1 and the calendar at depth 0
    report the same properties exactly when the request asks for properties by name, and for none
    that the table of the home lacks. -/
theorem looks_same_iff (env : Env) (lib : Lib) (w : World) (user : User) (r : Calendar)
    (hr : r ∈ w.db.calendarsFor user.id) (request : Request) :
    LooksSame env lib w user r request ↔ (propfindOf lib request).AvoidsOwnOnly := by
  obtain ⟨hhomeDepth, hownDepth⟩ := depth_withDepth request
  have hrow : w.db.calendarById r.id = some r :=
    w.db.ok.calendarById_of_mem (w.db.ok.mem_calendarsFor.mp hr).1
  have hhome : ((handlePropfindHome lib user (request.withDepth "1")).run (exec env)
      w).1.document? = some ⟨propfindEntry (propfindOf lib request)
          ("/caldav/users/" ++ user.username ++ "/") (calendarHomeProps user.username) ::
        (w.db.calendarsFor user.id).map fun cal =>
          propfindEntry (propfindOf lib request) (calendarHref user.username cal.id)
            (calendarProps user.username cal), none⟩ := by
    refine (DavCall.document_eq (.home user (request.withDepth "1"))).trans ?_
    unfold DavCall.document
    dsimp only
    rw [hhomeDepth]
    rfl
  have hown : ((handlePropfindCalendar lib user none r.id (request.withDepth "0")).run (exec env)
      w).1.document? = some ⟨[propfindEntry (propfindOf lib request)
        (calendarHref user.username r.id)
        (calendarPropsForContext ⟨none, user.username⟩ r)], none⟩ := by
    refine (DavCall.document_eq (.calendar user none r.id (request.withDepth "0"))).trans ?_
    unfold DavCall.document
    dsimp only
    rw [hrow, hownDepth]
    rfl
  have hownUnder : Multistatus.under ⟨[propfindEntry (propfindOf lib request)
      (calendarHref user.username r.id) (calendarPropsForContext ⟨none, user.username⟩ r)], none⟩
      (calendarHref user.username r.id) = [propfindEntry (propfindOf lib request)
        (calendarHref user.username r.id)
        (calendarPropsForContext ⟨none, user.username⟩ r)] := by
    unfold Multistatus.under propfindEntry
    simp
  rw [← filterProps_eq_iff user.username r]
  constructor
  · rintro ⟨home, own, entry, h1, h2, h3, h4⟩
    rw [hhome] at h1
    rw [hown] at h2
    rw [← Option.some.inj h1, home_under hr] at h3
    rw [← Option.some.inj h2, hownUnder] at h4
    have hentry := (List.singleton_inj.mp h3).trans (List.singleton_inj.mp h4).symm
    unfold propfindEntry at hentry
    rw [ResponseEntry.mk.injEq] at hentry
    exact Prod.ext hentry.2.1 hentry.2.2
  · intro h
    refine ⟨_, _, _, hhome, hown, home_under hr _, ?_⟩
    rw [hownUnder]
    unfold propfindEntry
    rw [h]

end

/-- A client that asks for the title of things. -/
def titleLib : Lib :=
  { sampleLib with
    readXml := fun _ => [.start "D:propfind" [("xmlns:D", davNs)], .start "D:prop" [],
      .empty "D:displayname" [], .stop "D:prop", .stop "D:propfind"] }

def titleRequest : Request :=
  ⟨"PROPFIND", [],
    "<D:propfind xmlns:D=\"DAV:\"><D:prop><D:displayname/></D:prop></D:propfind>".toUTF8⟩

theorem looks_same_iff_title :
    LooksSame countingEnv titleLib foundedWorld alice workCalendar titleRequest := by
  refine (looks_same_iff countingEnv titleLib foundedWorld alice workCalendar
    (List.mem_singleton_self workCalendar) titleRequest).mpr ?_
  have hprops : propfindOf titleLib titleRequest = .props [⟨davNs, "displayname"⟩] := by
    decide +kernel
  rw [hprops]
  exact List.forall_mem_singleton.mpr (by decide)

/-- Without a body every property is reported, and the calendar itself has more of them. -/
theorem allprop_differs : ¬ ∀ (env : Env) (lib : Lib) (w : World) (user : User) (r : Calendar),
    r ∈ w.db.calendarsFor user.id → ∀ request, LooksSame env lib w user r request := by
  intro h
  obtain ⟨home, own, entry, h1, h2, h3, h4⟩ := h countingEnv sampleLib foundedWorld alice
    workCalendar (List.mem_singleton_self workCalendar) plainRequest
  rw [← Option.some.inj h1] at h3
  rw [← Option.some.inj h2] at h4
  have hentry := (List.singleton_inj.mp h3).trans (List.singleton_inj.mp h4).symm
  have hlength := congrArg (fun e : ResponseEntry => e.found.length) hentry
  cases hlength

end CaldavMcp
