/-
  Which actions on the store the functions of `src/db/` take.

  `Takes may R hist p` says of a program with the events `hist` behind it that it takes only
  actions in `may`, and returns where `R` holds of the result and of all actions so far. Most
  operations are silent: they have no mark whatever they are answered. `upsertObject` looks,
  writes and looks again (`upserted`); when it fails it has got no further than some way along
  that (`takes_upsertObject`).
-/
import CaldavMcp.Store

namespace CaldavMcp

open Program

/-! ## Histories of actions -/

/-- The action changes the store. -/
def StoreAction.Changes : StoreAction → Prop
  | .look .. => False
  | _ => True

instance : DecidablePred StoreAction.Changes
  | .look .. => isFalse id
  | .makeCalendar _ | .dropCalendar _ | .create .. | .replace .. | .remove .. => isTrue trivial

/-- The actions that change the store. -/
def changes (actions : List StoreAction) : List StoreAction := actions.filter (·.Changes)

@[simp] theorem changes_append (actions actions' : List StoreAction) :
    changes (actions ++ actions') = changes actions ++ changes actions' :=
  List.filter_append _ _

theorem changes_prefix {actions actions' : List StoreAction} (h : actions <+: actions') :
    changes actions <+: changes actions' := h.filter _

/-- What the events of a history have done. -/
abbrev actionsOf (hist : List (Event Op Op.Resp)) : List StoreAction := marksOf storeMark hist

/-- The program takes only actions in `may`, and returns with a history as `R` says. -/
abbrev Takes {α : Type} (may : StoreAction → Prop) (R : α → List StoreAction → Prop)
    (hist : List (Event Op Op.Resp)) (p : Action α) : Prop :=
  p.Justified KeyedAnswer (fun _ o => Marks storeMark may o) (fun hist' a => R a (actionsOf hist'))
    hist

/-- The operation is none of those that have marks. -/
def Op.Silent : Op → Prop
  | .sql (.insertCalendar _) | .sql (.deleteCalendar _) | .sql (.insertObject _)
  | .sql (.updateObject ..) | .sql (.deleteObject ..) | .sql (.selectObjectByUid ..) => False
  | _ => True

/-- The operation is silent or looks at an object. -/
def Op.Still : Op → Prop
  | .sql (.insertCalendar _) | .sql (.deleteCalendar _) | .sql (.insertObject _)
  | .sql (.updateObject ..) | .sql (.deleteObject ..) => False
  | _ => True

theorem Op.Silent.mark {o : Op} (h : o.Silent) (r : o.Resp) : storeMark o r = none := by
  cases o with
  | newV4 | nowV7 | salt | utcNow => rfl
  | sql s => cases s <;> first | rfl | exact h.elim

theorem Op.Still.mark {o : Op} (h : o.Still) (r : o.Resp) :
    storeMark o r = none ∨ ∃ calendarId uid found,
      storeMark o r = some (.look calendarId uid found) := by
  cases o with
  | newV4 | nowV7 | salt | utcNow => exact Or.inl rfl
  | sql s =>
    cases s with
    | selectObjectByUid calendarId uid =>
      cases r with
      | ok found => exact Or.inr ⟨calendarId, uid, _, rfl⟩
      | error e => exact Or.inl rfl
    | insertCalendar | deleteCalendar | insertObject | updateObject | deleteObject => exact h.elim
    | _ => exact Or.inl rfl

theorem Op.Reads.still (o : Op) (h : o.Reads) : o.Still := by
  cases o with
  | sql s => cases s <;> first | exact trivial | exact h.elim
  | _ => exact trivial

theorem Op.LooksUpUser.silent (o : Op) (h : o.LooksUpUser) : o.Silent := by
  cases o with
  | sql s => cases s <;> first | exact trivial | exact h.elim
  | _ => exact trivial

section

variable {α β : Type} {may : StoreAction → Prop} {R : α → List StoreAction → Prop}
  {hist : List (Event Op Op.Resp)}

theorem Op.Silent.marks {o : Op} (h : o.Silent) : Marks storeMark may o := by
  intro r l hl
  rw [h.mark r] at hl
  cases hl

theorem actionsOf_cons (o : Op) (r : o.Resp) :
    actionsOf (⟨o, r⟩ :: hist) = actionsOf hist ++ (storeMark o r).toList := rfl

theorem actionsOf_silent {o : Op} (h : o.Silent) (r : o.Resp) :
    actionsOf (⟨o, r⟩ :: hist) = actionsOf hist := by
  rw [actionsOf_cons, h.mark r]
  exact List.append_nil _

/-- A silent operation, and what follows: the history of actions is still the same. -/
theorem takes_call {o : Op} {k : o.Resp → Action α} (h : o.Silent)
    (hk : ∀ r hist', actionsOf hist' = actionsOf hist → Takes may R hist' (k r)) :
    Takes may R hist (.call o k) :=
  ⟨h.marks, fun r _ => hk r _ (actionsOf_silent h r)⟩

theorem takes_silent {p : Action α} (hp : p.Only Op.Silent) :
    Takes may (fun _ actions => actions = actionsOf hist) hist p := by
  refine (justified_of_only hp fun _ _ o ho => ho.marks).mono fun hist' _ hext => ?_
  obtain ⟨new, rfl, hnew⟩ := hext
  induction new with
  | nil => rfl
  | cons e new ih =>
    exact (actionsOf_silent (hnew e List.mem_cons_self) e.2).trans
      (ih fun e' he' => hnew e' (List.mem_cons_of_mem _ he'))

/-- A program that changes nothing goes on with looks. -/
theorem takes_still {p : Action α} (hp : p.Only Op.Still)
    (hmay : ∀ calendarId uid found, may (.look calendarId uid found)) :
    Takes may (fun _ actions => ∃ looks, actions = actionsOf hist ++ looks ∧ changes looks = [])
      hist p := by
  have hstill : ∀ o : Op, o.Still → Marks storeMark may o := by
    intro o ho r l hl
    obtain hnone | ⟨calendarId, uid, found, hsome⟩ := ho.mark r
    · rw [hnone] at hl
      cases hl
    · rw [hsome] at hl
      obtain rfl := Option.some.inj hl
      exact hmay calendarId uid found
  refine (justified_of_only hp fun _ _ o ho => hstill o ho).mono fun hist' _ hext => ?_
  obtain ⟨new, rfl, hnew⟩ := hext
  induction new with
  | nil => exact ⟨[], (List.append_nil _).symm, rfl⟩
  | cons e new ih =>
    obtain ⟨looks, hlooks, hnone⟩ := ih fun e' he' => hnew e' (List.mem_cons_of_mem _ he')
    have hcons : actionsOf (e :: (new ++ hist)) =
        actionsOf (new ++ hist) ++ (storeMark e.1 e.2).toList := rfl
    rw [List.cons_append, hcons, hlooks, List.append_assoc]
    refine ⟨_, rfl, ?_⟩
    rw [changes_append, hnone, List.nil_append]
    obtain hmark | ⟨calendarId, uid, found, hmark⟩ := Op.Still.mark (hnew e List.mem_cons_self) e.2
    · rw [hmark]
      rfl
    · rw [hmark]
      rfl

/-- The end of a program, once its result is known. -/
theorem takes_ret {a : α} (h : R a (actionsOf hist)) : Takes may R hist (.ret a) := h

end

/-! ## `upsert_object` -/

/-- What an upsert does: it looks whether the object is there, creates or replaces it, and looks
    what is there then. -/
def upserted (calendarId uid data : String) (old seen : Option String) : List StoreAction :=
  [.look calendarId uid old,
    if old = none then .create calendarId uid data else .replace calendarId uid data,
    .look calendarId uid seen]

theorem changes_upserted (calendarId uid data : String) (old seen : Option String) :
    changes (upserted calendarId uid data old seen) =
      [if old = none then .create calendarId uid data else .replace calendarId uid data] := by
  cases old <;> rfl

/-- The outcome of an upsert that began after `before`. -/
def UpsertOutcome (calendarId uid data : String) (before : List StoreAction)
    (result : Except AppError (CalendarObject × Bool)) (actions : List StoreAction) : Prop :=
  match result with
  | .ok (obj, isNew) => obj.uid = uid ∧ ∃ old : Option String, isNew = old.isNone ∧
      actions = before ++ upserted calendarId uid data old (some obj.icalData)
  | .error _ => ∃ old seen part, part <+: upserted calendarId uid data old seen ∧
      actions = before ++ part

section

variable {may : StoreAction → Prop} {hist : List (Event Op Op.Resp)} {calendarId uid data : String}
  {before : List StoreAction}

theorem marks_look (hlook : ∀ found, may (.look calendarId uid found)) :
    Marks storeMark may (.sql (.selectObjectByUid calendarId uid)) := by
  intro r l hl
  cases r with
  | error e => cases hl
  | ok found => exact Option.some.inj hl ▸ hlook _

/-- From the log insert on: the object is written, and is looked at once more. -/
theorem takes_upsertLog (hlook : ∀ found, may (.look calendarId uid found))
    (old : Option String) (isNew : Bool) (hnew : isNew = old.isNone) (token : String)
    (hactions : actionsOf hist = before ++ [.look calendarId uid old,
      if old = none then .create calendarId uid data else .replace calendarId uid data]) :
    Takes may (UpsertOutcome calendarId uid data before) hist
      (upsertLog calendarId uid token isNew) := by
  have hfailed : ∀ (hist' : List (Event Op Op.Resp)) (e : AppError),
      actionsOf hist' = actionsOf hist →
      UpsertOutcome calendarId uid data before (.error e) (actionsOf hist') := by
    intro hist' e h
    rw [h, hactions]
    exact ⟨old, none, _, ⟨[.look calendarId uid none], rfl⟩, rfl⟩
  refine takes_call trivial fun r hist₁ h₁ => ?_
  cases r with
  | error e => exact hfailed _ (.database e) h₁
  | ok _ =>
    refine takes_call trivial fun b hist₂ h₂ => takes_call trivial fun r hist₃ h₃ => ?_
    have hsame : actionsOf hist₃ = actionsOf hist := h₃.trans (h₂.trans h₁)
    cases r with
    | error e => exact hfailed _ (.database e) hsame
    | ok _ =>
      have hread : ∀ found, actionsOf (⟨.sql (.selectObjectByUid calendarId uid), .ok found⟩ ::
          hist₃) = before ++ upserted calendarId uid data old (found.map (·.icalData)) := by
        intro found
        rw [actionsOf_cons, hsame, hactions, List.append_assoc]
        rfl
      refine ⟨marks_look hlook, fun r hkey => ?_⟩
      rcases r with e | (_ | obj)
      · exact hfailed _ (.database e) ((List.append_nil _).trans hsame)
      · exact ⟨old, none, _, List.prefix_rfl, hread none⟩
      · exact ⟨(hkey obj rfl).2, old, hnew, hread (some obj)⟩

theorem takes_upsertObject (hlook : ∀ found, may (.look calendarId uid found))
    (hcreate : may (.create calendarId uid data)) (hreplace : may (.replace calendarId uid data))
    (fields : ObjectFields) (hactions : actionsOf hist = before) :
    Takes may (UpsertOutcome calendarId uid data before) hist
      (upsertObject calendarId uid data fields).run := by
  have hfailed : ∀ (hist' : List (Event Op Op.Resp)) (e : AppError) (old seen : Option String)
      (part rest : List StoreAction), actionsOf hist' = before ++ part →
      part ++ rest = upserted calendarId uid data old seen →
      UpsertOutcome calendarId uid data before (.error e) (actionsOf hist') :=
    fun hist' e old seen part rest h hpart => ⟨old, seen, part, ⟨rest, hpart⟩, h⟩
  rw [upsertObject_run]
  refine ⟨marks_look hlook, fun r _ => ?_⟩
  cases r with
  | error e =>
    refine hfailed _ (.database e) none none [] _ ?_ rfl
    exact congrArg (· ++ []) hactions
  | ok found =>
    refine takes_call trivial fun v hist₁ h₁ => takes_call trivial fun t hist₂ h₂ => ?_
    have hlooked : actionsOf hist₂ =
        before ++ [.look calendarId uid (found.map (·.icalData))] := by
      rw [h₂, h₁, actionsOf_cons, hactions]
      rfl
    cases found with
    | none =>
      refine takes_call trivial fun id hist₃ h₃ => ⟨fun r l hl => ?_, fun r _ => ?_⟩
      · cases r with
        | error e => cases hl
        | ok rows => exact Option.some.inj hl ▸ hcreate
      · cases r with
        | error e =>
          refine hfailed _ (.database e) none none [.look calendarId uid none]
            [.create calendarId uid data, .look calendarId uid none] ?_ rfl
          exact (List.append_nil _).trans (h₃.trans hlooked)
        | ok rows =>
          refine takes_upsertLog hlook none true rfl _ ?_
          rw [actionsOf_cons, h₃, hlooked, List.append_assoc]
          rfl
    | some o =>
      refine ⟨fun r l hl => ?_, fun r _ => ?_⟩
      · cases r with
        | error e => cases hl
        | ok rows => exact Option.some.inj hl ▸ hreplace
      · cases r with
        | error e =>
          refine hfailed _ (.database e) (some o.icalData) none
            [.look calendarId uid (some o.icalData)]
            [.replace calendarId uid data, .look calendarId uid none] ?_ rfl
          exact (List.append_nil _).trans hlooked
        | ok rows =>
          refine takes_upsertLog hlook (some o.icalData) false rfl _ ?_
          rw [actionsOf_cons, hlooked, List.append_assoc]
          rfl

/-! ## The other calls -/

/-- The outcome of a deletion that began after `before`: it is done, or the object is not there,
    or the call has failed and may have done it. -/
def DeleteOutcome (calendarId uid : String) (before : List StoreAction)
    (result : Except AppError Unit) (actions : List StoreAction) : Prop :=
  match result with
  | .ok () => actions = before ++ [.remove calendarId uid]
  | .error (.notFound _) => actions = before ++ [.look calendarId uid none]
  | .error _ => actions = before ∨ actions = before ++ [.remove calendarId uid]

theorem takes_deleteObject (hlook : may (.look calendarId uid none))
    (hremove : may (.remove calendarId uid)) (hactions : actionsOf hist = before) :
    Takes may (DeleteOutcome calendarId uid before) hist (deleteObject calendarId uid).run := by
  rw [deleteObject_run]
  refine ⟨fun r l hl => ?_, fun r _ => ?_⟩
  · cases r with
    | error e => cases hl
    | ok rows =>
      obtain rfl := Option.some.inj hl
      split
      · exact hlook
      · exact hremove
  · cases r with
    | error e => exact Or.inl ((List.append_nil _).trans hactions)
    | ok rows =>
      have hcons : actionsOf (⟨.sql (.deleteObject calendarId uid), .ok rows⟩ :: hist) = _ :=
        actionsOf_cons _ _
      rw [hactions] at hcons
      by_cases hzero : rows = 0
      · simp only [hzero, if_true] at hcons ⊢
        exact hcons
      · simp only [hzero, if_false]
        have hremoved : actionsOf (⟨.sql (.deleteObject calendarId uid), .ok rows⟩ :: hist) =
            before ++ [.remove calendarId uid] := by
          rw [hcons]
          simp only [storeMark, hzero, if_false]
          rfl
        refine takes_call trivial fun t hist₁ h₁ => takes_call trivial fun r hist₂ h₂ => ?_
        cases r with
        | error e => exact Or.inr (h₂.trans (h₁.trans hremoved))
        | ok _ =>
          refine takes_call trivial fun b hist₃ h₃ => takes_call trivial fun r hist₄ h₄ => ?_
          have hsame := h₄.trans (h₃.trans (h₂.trans (h₁.trans hremoved)))
          cases r with
          | error e => exact Or.inr hsame
          | ok _ => exact hsame

/-- The outcome of the deletion of a calendar. -/
def DropOutcome (calendarId : String) (before : List StoreAction) (result : Except AppError Unit)
    (actions : List StoreAction) : Prop :=
  match result with
  | .ok () => actions = before ++ [.dropCalendar calendarId]
  | .error _ => actions = before

theorem takes_deleteCalendar (hdrop : may (.dropCalendar calendarId))
    (hactions : actionsOf hist = before) :
    Takes may (DropOutcome calendarId before) hist (deleteCalendar calendarId).run := by
  unfold deleteCalendar
  rw [run_sql_bind]
  refine ⟨fun r l hl => ?_, fun r _ => ?_⟩
  · cases r with
    | error e => cases hl
    | ok rows =>
      have hl : (if rows = 0 then none else some (StoreAction.dropCalendar calendarId)) = some l := hl
      split at hl
      · cases hl
      · exact Option.some.inj hl ▸ hdrop
  · cases r with
    | error e => exact (List.append_nil _).trans hactions
    | ok rows =>
      have hcons : actionsOf (⟨.sql (.deleteCalendar calendarId), .ok rows⟩ :: hist) = _ :=
        actionsOf_cons _ _
      rw [hactions] at hcons
      by_cases hzero : rows = 0
      · simp only [hzero, if_true] at hcons ⊢
        exact hcons.trans (List.append_nil _)
      · simp only [hzero, if_false] at hcons ⊢
        show actionsOf _ = _
        rw [hcons]
        simp only [storeMark, hzero, if_false]
        rfl

/-- The outcome of the creation of a calendar. -/
def MakeOutcome (calendarId : String) (before : List StoreAction)
    (result : Except AppError Calendar) (actions : List StoreAction) : Prop :=
  match result with
  | .ok cal => cal.id = calendarId ∧ actions = before ++ [.makeCalendar calendarId]
  | .error _ => actions = before ∨ actions = before ++ [.makeCalendar calendarId]

theorem takes_createCalendarWithId (hmake : may (.makeCalendar calendarId))
    (hactions : actionsOf hist = before) (ownerId name description color timezone : String) :
    Takes may (MakeOutcome calendarId before) hist
      (createCalendarWithId calendarId ownerId name description color timezone).run := by
  unfold createCalendarWithId newSyncToken
  simp only [bind_assoc, pure_bind]
  refine takes_call (o := .nowV7) trivial fun t hist₁ h₁ => ?_
  show Takes may _ hist₁ (sql _ >>= _ : Call Calendar).run
  rw [run_sql_bind]
  refine ⟨fun r l hl => ?_, fun r _ => ?_⟩
  · cases r with
    | error e => cases hl
    | ok rows => exact Option.some.inj hl ▸ hmake
  · cases r with
    | error e => exact Or.inl ((List.append_nil _).trans (h₁.trans hactions))
    | ok rows =>
      dsimp only
      unfold getCalendarById
      rw [run_sql_bind]
      refine ⟨Op.Silent.marks (by trivial), fun r hkey => ?_⟩
      have hmade : ∀ r, actionsOf (⟨.sql (.selectCalendarById calendarId), r⟩ ::
          ⟨.sql (.insertCalendar ⟨calendarId, ownerId, name, description, color, timezone,
            syncTokenOf t, syncTokenOf t⟩), .ok rows⟩ :: hist₁) =
          before ++ [.makeCalendar calendarId] := by
        intro r
        rw [actionsOf_silent (by trivial), actionsOf_cons, h₁, hactions]
        rfl
      rcases r with e | (_ | cal)
      · exact Or.inr (hmade _)
      · exact Or.inr (hmade _)
      · exact ⟨hkey cal rfl, hmade _⟩

end

end CaldavMcp
