/-
  PROPPATCH requests on one calendar, as threads of a pool.

  A PROPPATCH of a calendar that exists sends four statements: `handle_proppatch` looks the
  calendar up, and `update_calendar` reads the row, writes all four columns back and reads the
  row again. So its statements number two and three are a read and a write of the row, with the
  three properties of the body merged in between: an agent of `Program.Cell`. `Races.step` is
  the simulation. The schedule alone says who is ahead, as each request sends its statements in
  order: the one that has run three times has written, the one that has run twice has read.
-/
import CaldavMcp.Program.Cell
import CaldavMcp.Program.Pool
import CaldavMcp.Caldav.Outcomes

namespace CaldavMcp

open Program

/-! ## The requests -/

/-- A PROPPATCH that has reached its handler. -/
structure PatchRequest where
  user : User
  hrefCtx : Option HrefContext
  request : Request

namespace PatchRequest

def handler (lib : Lib) (calendarId : String) (x : PatchRequest) : Action Reply :=
  handleProppatch lib x.user x.hrefCtx calendarId x.request

/-- What the request sets. -/
def patch (lib : Lib) (x : PatchRequest) : PropPatch := propPatchOf lib x.request

/-- The reply to the result of `update_calendar`. -/
def reply (lib : Lib) (calendarId : String) (x : PatchRequest) : Except AppError Calendar → Reply
  | .ok _ => buildResponse 207 [("content-type", "application/xml; charset=utf-8")]
      (.multistatus (Multistatus.new.addResponse
        (calendarHrefForContext (contextOf x.user x.hrefCtx) calendarId) (x.patch lib).found []))
  | .error _ => plain 500 "Failed to update properties"

/-- The UPDATE, over the row that was read. -/
def statement (lib : Lib) (calendarId : String) (x : PatchRequest) (held : Calendar) : Sql :=
  .updateCalendar ((x.patch lib).apply held).name ((x.patch lib).apply held).description
    ((x.patch lib).apply held).color held.timezone calendarId

/-- The last statement, and the reply. -/
def reread (lib : Lib) (calendarId : String) (x : PatchRequest) : Action Reply :=
  .call (.sql (.selectCalendarById calendarId)) fun answer => .ret (x.reply lib calendarId
    (match answer with
    | .ok (some row) => .ok row
    | .ok none => .error (.internal "Calendar updated but not found")
    | .error e => .error (.database e)))

/-- The last two statements, and the reply. -/
def write (lib : Lib) (calendarId : String) (x : PatchRequest) (held : Calendar) : Action Reply :=
  .call (.sql (x.statement lib calendarId held)) fun
    | .ok _ => x.reread lib calendarId
    | .error e => .ret (x.reply lib calendarId (.error (.database e)))

/-- `update_calendar`, and the reply. -/
def update (lib : Lib) (calendarId : String) (x : PatchRequest) : Action Reply :=
  .call (.sql (.selectCalendarById calendarId)) fun
    | .ok (some held) => x.write lib calendarId held
    | .ok none => .ret (x.reply lib calendarId
        (.error (.notFound ("Calendar " ++ calendarId ++ " not found"))))
    | .error e => .ret (x.reply lib calendarId (.error (.database e)))

/-- What is left of the request after some of its statements. -/
def rest (lib : Lib) (calendarId : String) (x : PatchRequest) (held : Calendar) :
    Nat → Action Reply
  | 0 => x.handler lib calendarId
  | 1 => x.update lib calendarId
  | 2 => x.write lib calendarId held
  | 3 => x.reread lib calendarId
  | _ + 4 => .ret (x.reply lib calendarId (.ok held))

/-- The handler, as a tree. -/
theorem handler_eq (lib : Lib) (calendarId : String) (x : PatchRequest) :
    x.handler lib calendarId = .call (.sql (.selectCalendarById calendarId)) fun
      | .ok (some calendar) =>
        (updateCalendar calendar.id (x.patch lib).name (x.patch lib).description
          (x.patch lib).color none).run >>= fun r => .ret (x.reply lib calendar.id r)
      | _ => .ret (plain 404 "Calendar not found") := by
  unfold handler handleProppatch
  refine call_congr (o := .sql _) fun r => ?_
  rcases r with e | (_ | calendar)
  · rfl
  · rfl
  · change ((updateCalendar calendar.id (x.patch lib).name (x.patch lib).description
      (x.patch lib).color none).run >>= _) = _
    refine congrArg (Prog.bind _) (funext fun r => ?_)
    cases r with
    | ok row =>
      obtain ⟨user, hrefCtx, request⟩ := x
      cases hrefCtx <;> rfl
    | error e => rfl

theorem update_eq (lib : Lib) (calendarId : String) (x : PatchRequest) :
    ((updateCalendar calendarId (x.patch lib).name (x.patch lib).description
      (x.patch lib).color none).run >>= fun r => .ret (x.reply lib calendarId r)) =
      x.update lib calendarId := by
  unfold updateCalendar update
  refine call_congr (o := .sql _) fun r => ?_
  rcases r with e | (_ | held)
  · rfl
  · rfl
  · refine call_congr (o := .sql (x.statement lib calendarId held)) fun r => ?_
    rcases r with e | n
    · rfl
    · refine call_congr (o := .sql _) fun r => ?_
      rcases r with e | (_ | row) <;> rfl

/-- One statement of a request on a calendar with a row: how far the request comes, the row it
    then holds, and the UPDATE as its third. -/
theorem rest_call (lib : Lib) {w : World} {calendarId : String} {row : Calendar}
    (hrow : w.db.calendarById calendarId = some row) (x : PatchRequest) (held : Calendar) {n : Nat}
    (hn : n < 4) :
    ∃ s k, x.rest lib calendarId held n = .call (.sql s) k ∧
      k (w.answer s) = x.rest lib calendarId (if n = 1 then row else held) (n + 1) ∧
      w.after s = if n = 2 then w.after (x.statement lib calendarId held) else w := by
  have hanswer : w.answer (.selectCalendarById calendarId) = .ok (some row) := congrArg Except.ok hrow
  have hid : row.id = calendarId := Tables.calendarById_id hrow
  match n, hn with
  | 0, _ =>
    refine ⟨_, _, x.handler_eq lib calendarId, ?_, rfl⟩
    rw [hanswer]
    dsimp only
    rw [hid]
    exact x.update_eq lib calendarId
  | 1, _ =>
    refine ⟨.selectCalendarById calendarId, _, rfl, ?_, rfl⟩
    rw [hanswer]
    rfl
  | 2, _ => exact ⟨_, _, rfl, rfl, rfl⟩
  | 3, _ =>
    refine ⟨.selectCalendarById calendarId, _, rfl, ?_, rfl⟩
    rw [hanswer]
    rfl

end PatchRequest

/-! ## The simulation -/

/-- Two rows of one calendar that differ in the three properties at most. -/
structure Calendar.Alike (r row : Calendar) : Prop where
  id : row.id = r.id
  ownerId : row.ownerId = r.ownerId
  timezone : row.timezone = r.timezone
  ctag : row.ctag = r.ctag
  syncToken : row.syncToken = r.syncToken

theorem Calendar.Alike.apply {r row : Calendar} (h : r.Alike row) (p : PropPatch) :
    r.Alike (p.apply row) := ⟨h.id, h.ownerId, h.timezone, h.ctag, h.syncToken⟩

/-- The pool of some PROPPATCH requests on a calendar, none of them started. -/
def patchPool (lib : Lib) (w : World) (calendarId : String) (qs : List PatchRequest) :
    Pool World Op Op.Resp Reply :=
  Pool.start w (qs.map (·.handler lib calendarId))

/-- What each request does to a row. -/
def patchAt (lib : Lib) (qs : List PatchRequest) (i : Nat) (row : Calendar) : Calendar :=
  match qs[i]? with
  | some x => (x.patch lib).apply row
  | none => row

/-- The pool is where the cell is: the row is the value, and each request has come as far as
    the agent with its number and holds the same row. -/
structure Races (lib : Lib) (calendarId : String) (qs : List PatchRequest) (r : Calendar)
    (p : Pool World Op Op.Resp Reply) (c : Cell Calendar) : Prop where
  row : p.state.db.calendarById calendarId = some c.value
  length : p.threads.length = qs.length
  threads : ∀ (i : Nat) x, qs[i]? = some x → ∃ t, p.threads[i]? = some t ∧
    t.rest = x.rest lib calendarId (c.held i) (c.taken i)
  value : r.Alike c.value
  held : ∀ i, r.Alike (c.held i)

namespace Races

variable {env : Env} {lib : Lib} {calendarId : String} {qs : List PatchRequest} {r : Calendar}
  {p : Pool World Op Op.Resp Reply} {c : Cell Calendar}

theorem start {w : World} (hr : w.db.calendarById calendarId = some r) :
    Races lib calendarId qs r (patchPool lib w calendarId qs) (Cell.start r) := by
  have halike : r.Alike r := ⟨rfl, rfl, rfl, rfl, rfl⟩
  refine ⟨hr, by simp [patchPool, Pool.start], fun i x hx => ?_, halike, fun _ => halike⟩
  refine ⟨Thread.start (x.handler lib calendarId), ?_, rfl⟩
  simp [patchPool, Pool.start, hx]

/-- The UPDATE of a request leaves the row it holds, patched. -/
theorem row_statement (h : Races lib calendarId qs r p c) (x : PatchRequest) {held : Calendar}
    (hheld : r.Alike held) :
    (p.state.after (x.statement lib calendarId held)).db.calendarById calendarId =
      some ((x.patch lib).apply held) := by
  have hid : c.value.id = calendarId := Tables.calendarById_id h.row
  rw [World.after_tables]
  unfold PatchRequest.statement
  rw [calendarById_updateCalendar, h.row, Option.map_some, if_pos hid]
  refine congrArg some ?_
  unfold PropPatch.apply
  rw [Calendar.mk.injEq]
  exact ⟨h.value.id.trans hheld.id.symm, h.value.ownerId.trans hheld.ownerId.symm, rfl, rfl, rfl,
    rfl, h.value.ctag.trans hheld.ctag.symm, h.value.syncToken.trans hheld.syncToken.symm⟩

/-- A statement of a request is an operation of its agent. -/
theorem step (h : Races lib calendarId qs r p c) (i : Nat) :
    Races lib calendarId qs r (p.step (exec env) i)
      (c.step qs.length 1 (patchAt lib qs) i) := by
  cases hx : qs[i]? with
  | none =>
    have hlen : ¬ i < qs.length := by simpa using hx
    have hnone : p.threads[i]? = none := by simpa [h.length] using hlen
    have hstep : p.step (exec env) i = p := by
      unfold Pool.step
      rw [hnone]
    rw [hstep, Cell.step_out hlen]
    exact h
  | some x =>
    have hlen : i < qs.length := (List.getElem?_eq_some_iff.mp hx).1
    have hpatch : patchAt lib qs i (c.held i) = (x.patch lib).apply (c.held i) := by
      unfold patchAt
      rw [hx]
    obtain ⟨t, ht, hrest⟩ := h.threads i x hx
    by_cases hn : c.taken i < 4
    · obtain ⟨s, k, hcall, hk, hafter⟩ := PatchRequest.rest_call lib h.row x (c.held i) hn
      have hstep : p.step (exec env) i = ⟨p.state.after s,
          p.threads.set i ⟨⟨.sql s, p.state.answer s⟩ :: t.hist, k (p.state.answer s)⟩⟩ := by
        unfold Pool.step
        rw [ht]
        dsimp only
        rw [hrest, hcall]
        rfl
      have hvalue : (p.state.after s).db.calendarById calendarId =
          some (c.step qs.length 1 (patchAt lib qs) i).value := by
        rw [hafter]
        by_cases hw : c.taken i = 2
        · rw [if_pos hw, h.row_statement x (h.held i), Cell.value_step_write hlen hw, hpatch]
        · rw [if_neg hw, h.row, Cell.value_step_keep hw]
      have hheld : (c.step qs.length 1 (patchAt lib qs) i).held i =
          if c.taken i = 1 then c.value else c.held i := by
        split
        · exact Cell.held_step_read hlen ‹_›
        · exact Cell.held_step_keep ‹_›
      rw [hstep]
      refine ⟨hvalue, by simp [h.length], fun j y hy => ?_, ?_, fun j => ?_⟩
      · by_cases hij : j = i
        · subst hij
          obtain rfl := Option.some.inj (hx.symm.trans hy)
          refine ⟨_, List.getElem?_set_self (by rw [h.length]; exact hlen), ?_⟩
          rw [hheld, Cell.taken_step hlen]
          exact hk
        · obtain ⟨t', ht', hrest'⟩ := h.threads j y hy
          refine ⟨t', ?_, ?_⟩
          · rw [List.getElem?_set_ne (Ne.symm hij)]
            exact ht'
          · rw [Cell.held_step_ne hij, Cell.taken_step_ne hij]
            exact hrest'
      · by_cases hw : c.taken i = 2
        · rw [Cell.value_step_write hlen hw, hpatch]
          exact (h.held i).apply _
        · rw [Cell.value_step_keep hw]
          exact h.value
      · by_cases hij : j = i
        · subst hij
          rw [hheld]
          split
          · exact h.value
          · exact h.held j
        · rw [Cell.held_step_ne hij]
          exact h.held j
    · -- the request has been answered
      obtain ⟨m, hm⟩ : ∃ m, c.taken i = m + 4 := ⟨c.taken i - 4, by omega⟩
      have hstep : p.step (exec env) i = p := by
        unfold Pool.step
        rw [ht]
        dsimp only
        rw [hrest, hm]
        rfl
      have hheld : (c.step qs.length 1 (patchAt lib qs) i).held = c.held := by
        funext j
        by_cases hij : j = i
        · subst hij
          exact Cell.held_step_keep (by omega)
        · exact Cell.held_step_ne hij
      rw [hstep]
      refine ⟨?_, h.length, fun j y hy => ?_, ?_, ?_⟩
      · rw [Cell.value_step_keep (by omega)]
        exact h.row
      · obtain ⟨t', ht', hrest'⟩ := h.threads j y hy
        refine ⟨t', ht', ?_⟩
        rw [hrest', hheld]
        by_cases hij : j = i
        · subst hij
          rw [Cell.taken_step hlen, hm]
          rfl
        · rw [Cell.taken_step_ne hij]
      · rw [Cell.value_step_keep (by omega)]
        exact h.value
      · rw [hheld]
        exact h.held

theorem exec (h : Races lib calendarId qs r p c) (sched : List Nat) :
    Races lib calendarId qs r (p.exec (CaldavMcp.exec env) sched)
      (c.exec qs.length 1 (patchAt lib qs) sched) := by
  induction sched generalizing p c with
  | nil => exact h
  | cons i sched ih => exact ih (h.step i)

end Races

/-! ## Composition -/

/-- The columns that describe a calendar to its users. -/
inductive Column where
  | name
  | description
  | color
  | timezone

/-- The value a PROPPATCH gives to a column. -/
def PropPatch.value? (p : PropPatch) : Column → Option String
  | .name => p.name
  | .description => p.description
  | .color => p.color
  | .timezone => none

def Calendar.value (r : Calendar) : Column → String
  | .name => r.name
  | .description => r.description
  | .color => r.color
  | .timezone => r.timezone

/-- The row holds what either request sets, and is otherwise as it was. -/
structure Merged (p q : PropPatch) (r row : Calendar) : Prop where
  left : ∀ column value, p.value? column = some value → row.value column = value
  right : ∀ column value, q.value? column = some value → row.value column = value
  rest : ∀ column, p.value? column = none → q.value? column = none →
    row.value column = r.value column

/-- No property is set by both. -/
def PropPatch.Disjoint (p q : PropPatch) : Prop :=
  ∀ column, p.value? column = none ∨ q.value? column = none

theorem PropPatch.apply_value (p : PropPatch) (r : Calendar) (column : Column) :
    (p.apply r).value column = (p.value? column).getD (r.value column) := by
  cases column <;> rfl

theorem Merged.symm {p q : PropPatch} {r row : Calendar} (h : Merged p q r row) :
    Merged q p r row := ⟨h.right, h.left, fun column hq hp => h.rest column hp hq⟩

theorem PropPatch.Disjoint.symm {p q : PropPatch} (h : p.Disjoint q) : q.Disjoint p :=
  fun column => (h column).symm

/-- One patch after the other composes. -/
theorem merged_apply {p q : PropPatch} (hpq : p.Disjoint q) (r : Calendar) :
    Merged p q r (q.apply (p.apply r)) := by
  refine ⟨fun column value hp => ?_, fun column value hq => ?_, fun column hp hq => ?_⟩
  · have hq : q.value? column = none := by
      rcases hpq column with h | h
      · rw [h] at hp
        cases hp
      · exact h
    rw [PropPatch.apply_value, PropPatch.apply_value, hp, hq]
    rfl
  · rw [PropPatch.apply_value, hq]
    rfl
  · rw [PropPatch.apply_value, PropPatch.apply_value, hp, hq]
    rfl

/-- A patch over the earlier row composes with another one exactly when the other one sets what
    is there. -/
theorem merged_lost {p q : PropPatch} (hpq : p.Disjoint q) (r : Calendar) :
    Merged p q r (q.apply r) ↔ p.apply r = r := by
  constructor
  · intro h
    have hcolumn : ∀ column, (p.apply r).value column = r.value column := by
      intro column
      rw [PropPatch.apply_value]
      cases hp : p.value? column with
      | none => rfl
      | some value =>
        have hq : q.value? column = none := by
          rcases hpq column with h' | h'
          · rw [hp] at h'
            cases h'
          · exact h'
        have hvalue := h.left column value hp
        rw [PropPatch.apply_value, hq] at hvalue
        exact hvalue.symm
    unfold PropPatch.apply
    rw [Calendar.mk.injEq]
    exact ⟨rfl, rfl, hcolumn .name, hcolumn .description, hcolumn .color, rfl, rfl, rfl⟩
  · intro h
    have := merged_apply hpq r
    rwa [h] at this

/-- The request with this number has been answered with success. -/
def Succeeded (p : Pool World Op Op.Resp Reply) (i : Nat) : Prop :=
  ∃ t reply, p.threads[i]? = some t ∧ t.result? = some reply ∧ reply.Success

/-- A request that has been answered has sent its four statements. -/
theorem Races.answered {lib : Lib} {calendarId : String} {qs : List PatchRequest} {r : Calendar}
    {p : Pool World Op Op.Resp Reply} {c : Cell Calendar} (h : Races lib calendarId qs r p c)
    {i : Nat} (hi : i < qs.length) (hs : Succeeded p i) : 4 ≤ c.taken i := by
  obtain ⟨t, reply, ht, hresult, -⟩ := hs
  obtain ⟨t', ht', hrest⟩ := h.threads i qs[i] (List.getElem?_eq_getElem hi)
  obtain rfl := Option.some.inj (ht.symm.trans ht')
  by_contra hn
  obtain ⟨s, k, hcall, -⟩ := PatchRequest.rest_call lib h.row qs[i] (c.held i) (not_le.mp hn)
  rw [Thread.result?_of_call (hrest.trans hcall)] at hresult
  cases hresult

/-- **Concurrent property updates.** Two PROPPATCH requests on a calendar set different
    properties and succeed, in any interleaving of their statements. Their values are all in the
    final row, and the others as before, exactly when one of them had written (its third
    statement) before the other one read the row (its second), or the one that wrote first sets
    what was there. -/
theorem patches_compose_iff (env : Env) (lib : Lib) (w : World) (calendarId : String)
    (r : Calendar) (hr : w.answer (.selectCalendarById calendarId) = .ok (some r))
    (x y : PatchRequest) (hxy : (x.patch lib).Disjoint (y.patch lib)) (sched : List Nat)
    (p : Pool World Op Op.Resp Reply)
    (hp : p = (patchPool lib w calendarId [x, y]).exec (exec env) sched)
    (hx : Succeeded p 0) (hy : Succeeded p 1) :
    (∃ row, p.state.answer (.selectCalendarById calendarId) = .ok (some row) ∧
      Merged (x.patch lib) (y.patch lib) r row) ↔
      Cell.Ahead 1 0 1 sched ∨ Cell.Ahead 1 1 0 sched ∨
        Cell.First 1 0 1 sched ∧ (x.patch lib).apply r = r ∨
        Cell.First 1 1 0 sched ∧ (y.patch lib).apply r = r := by
  have hraces : Races lib calendarId [x, y] r p
      ((Cell.start r).exec 2 1 (patchAt lib [x, y]) sched) := by
    rw [hp]
    exact (Races.start (Except.ok.inj hr)).exec sched
  have htaken : ∀ i < 2, ((Cell.start r).exec 2 1 (patchAt lib [x, y]) sched).taken i =
      sched.count i := by
    intro i hi
    rw [Cell.taken_exec hi]
    exact Nat.zero_add _
  have hx4 := hraces.answered (i := 0) Nat.zero_lt_two hx
  have hy4 := hraces.answered (i := 1) Nat.one_lt_two hy
  rw [htaken 0 (by decide)] at hx4
  rw [htaken 1 (by decide)] at hy4
  -- the claim is about the value of the cell
  have hrow : (∃ row, p.state.answer (.selectCalendarById calendarId) = .ok (some row) ∧
      Merged (x.patch lib) (y.patch lib) r row) ↔ Merged (x.patch lib) (y.patch lib) r
        ((Cell.start r).exec 2 1 (patchAt lib [x, y]) sched).value := by
    have hanswer : p.state.answer (.selectCalendarById calendarId) = .ok (some
        ((Cell.start r).exec 2 1 (patchAt lib [x, y]) sched).value) := congrArg Except.ok hraces.row
    constructor
    · rintro ⟨row, hrow, hc⟩
      rw [hanswer] at hrow
      rwa [Option.some.inj (Except.ok.inj hrow)]
    · exact fun hc => ⟨_, hanswer, hc⟩
  rw [hrow]
  rcases Cell.first_or_first (k := 1) (i := 0) (j := 1) (by decide) sched (by omega) with h | h
  · have hlaw := Cell.value_of_first (n := 2) (f := patchAt lib [x, y]) (by decide) (by decide)
      (by decide) (by omega) r h (by omega)
    have hnot : ¬ Cell.Ahead 1 1 0 sched := fun h' => h.asymm h'.first
    have hnot' : ¬ Cell.First 1 1 0 sched := h.asymm
    by_cases ha : Cell.Ahead 1 0 1 sched
    · rw [hlaw.1 ha]
      exact iff_of_true (merged_apply hxy r) (Or.inl ha)
    · rw [hlaw.2 ha]
      refine (merged_lost hxy r).trans ?_
      simp only [ha, hnot, hnot', h, false_or, true_and, false_and, or_false]
  · have hlaw := Cell.value_of_first (n := 2) (f := patchAt lib [x, y]) (by decide) (by decide)
      (by decide) (by omega) r h (by omega)
    have hnot : ¬ Cell.Ahead 1 0 1 sched := fun h' => h.asymm h'.first
    have hnot' : ¬ Cell.First 1 0 1 sched := h.asymm
    by_cases ha : Cell.Ahead 1 1 0 sched
    · rw [hlaw.1 ha]
      exact iff_of_true (merged_apply hxy.symm r).symm (Or.inr (Or.inl ha))
    · rw [hlaw.2 ha]
      refine ⟨fun hc => ?_, fun hc => ?_⟩
      · exact Or.inr (Or.inr (Or.inr ⟨h, (merged_lost hxy.symm r).mp hc.symm⟩))
      · simp only [ha, hnot, hnot', h, false_or, true_and, false_and] at hc
        exact ((merged_lost hxy.symm r).mpr hc).symm

/-! ### A name and a colour -/

/-- The events of a PROPPATCH body that sets one property. -/
def setEvents (name value : String) : List XmlEvent :=
  [.start "propertyupdate" [("xmlns", davNs)], .start "set" [], .start "prop" [], .start name [],
    .text value, .stop name, .stop "prop", .stop "set", .stop "propertyupdate"]

/-- A PROPPATCH body that sets one property. -/
def setBody (name value : String) : String :=
  "<propertyupdate xmlns=\"DAV:\"><set><prop><" ++ name ++ ">" ++ value ++ "</" ++ name ++
    "></prop></set></propertyupdate>"

/-- A reader that knows two bodies. -/
def patchLib : Lib where
  argon2Hash _ _ := .error "no password"
  argon2Verify _ _ := .ok false
  base64Decode _ := none
  readXml body :=
    if body = (setBody "displayname" "Team").toUTF8 then setEvents "displayname" "Team"
    else setEvents "calendar-color" "#FF0000"

/-- Alice renames her calendar. -/
def renameRequest : PatchRequest :=
  ⟨⟨"alice-id", "alice", some "alice@example.com", "hash"⟩, none,
    ⟨"PROPPATCH", [], (setBody "displayname" "Team").toUTF8⟩⟩

/-- Alice paints her calendar. -/
def paintRequest : PatchRequest :=
  ⟨⟨"alice-id", "alice", some "alice@example.com", "hash"⟩, none,
    ⟨"PROPPATCH", [], (setBody "calendar-color" "#FF0000").toUTF8⟩⟩

theorem rename_paint_disjoint :
    (renameRequest.patch patchLib).Disjoint (paintRequest.patch patchLib) := by
  have hrename : renameRequest.patch patchLib = ⟨some "Team", none, none⟩ := by decide +kernel
  have hpaint : paintRequest.patch patchLib = ⟨none, none, some "#FF0000"⟩ := by decide +kernel
  rw [hrename, hpaint]
  intro column
  cases column
  · exact Or.inr rfl
  · exact Or.inr rfl
  · exact Or.inl rfl
  · exact Or.inr rfl

/-- The row that either request finds. -/
def workRow : Calendar :=
  ⟨"work", "alice-id", "Work", "", "#0E61B9", "UTC", "data:,sync-", "data:,sync-"⟩

/-- The two requests after a schedule. -/
def renamePaint (sched : List Nat) : Pool World Op Op.Resp Reply :=
  (patchPool patchLib aliceWorld "work" [renameRequest, paintRequest]).exec (exec countingEnv) sched

theorem patches_compose_iff_turns :
    ∃ row, (renamePaint [0, 0, 0, 0, 1, 1, 1, 1]).state.answer (.selectCalendarById "work") =
        .ok (some row) ∧
      Merged (renameRequest.patch patchLib) (paintRequest.patch patchLib) workRow row := by
  refine (patches_compose_iff countingEnv patchLib aliceWorld "work" workRow rfl renameRequest
    paintRequest rename_paint_disjoint [0, 0, 0, 0, 1, 1, 1, 1] _ rfl ?_ ?_).mpr
    (Or.inl ⟨[0, 0, 0], ⟨[0, 1, 1, 1, 1], rfl⟩, by decide, by decide⟩)
  · exact ⟨_, _, rfl, rfl, 207, rfl, by decide, by decide⟩
  · exact ⟨_, _, rfl, rfl, 207, rfl, by decide, by decide⟩

/-- The name is lost: both read the row, and the colour is written over the earlier name. -/
theorem patches_lose_name :
    (renameRequest.patch patchLib).Disjoint (paintRequest.patch patchLib) ∧
      Succeeded (renamePaint [0, 0, 1, 1, 0, 0, 1, 1]) 0 ∧
      Succeeded (renamePaint [0, 0, 1, 1, 0, 0, 1, 1]) 1 ∧
      ¬ ∃ row, (renamePaint [0, 0, 1, 1, 0, 0, 1, 1]).state.answer (.selectCalendarById "work") =
          .ok (some row) ∧
        Merged (renameRequest.patch patchLib) (paintRequest.patch patchLib) workRow row := by
  refine ⟨rename_paint_disjoint, ⟨_, _, rfl, rfl, 207, rfl, by decide, by decide⟩,
    ⟨_, _, rfl, rfl, 207, rfl, by decide, by decide⟩, ?_⟩
  rintro ⟨row, hrow, hmerged⟩
  have hname : row.name = "Team" := hmerged.left .name "Team" (by decide +kernel)
  have hfinal : (renamePaint [0, 0, 1, 1, 0, 0, 1, 1]).state.answer (.selectCalendarById "work") =
      .ok (some { workRow with color := "#FF0000" }) := by
    decide +kernel
  rw [hfinal] at hrow
  rw [← Option.some.inj (Except.ok.inj hrow)] at hname
  exact absurd hname (by decide)

end CaldavMcp
