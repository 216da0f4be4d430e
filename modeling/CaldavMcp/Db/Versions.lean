/-
  Which etags a program stores.

  A statement that stores an object stores an etag with it (`Op.etag?`). `StoresOnce` is a rule on
  histories: a program stores at most one object row, with an etag that it has drawn itself.
  `upsert_object` keeps to it (`storesOnce_upsertObject`), and so does whatever stores nothing.
-/
import CaldavMcp.Db.Access
import CaldavMcp.Program.Justified

namespace CaldavMcp

open Program

/-- The etag an operation stores with a row. -/
def Op.etag? : Op → Option String
  | .sql (.insertObject o) => some o.etag
  | .sql (.updateObject etag _ _ _ _) => some etag
  | _ => none

/-- The operation stores no object. -/
def Op.Plainly : Op → Prop
  | .sql (.insertObject _) | .sql (.updateObject ..) => False
  | _ => True

theorem Op.Plainly.etag? {o : Op} (h : o.Plainly) : o.etag? = none := by
  cases o with
  | sql s => cases s <;> first | rfl | exact h.elim
  | _ => rfl

theorem Op.Reads.plainly (o : Op) (h : o.Reads) : o.Plainly := by
  cases o with
  | sql s => cases s <;> first | exact trivial | exact h.elim
  | _ => exact trivial

/-- No object has been stored. -/
def NoneStored (hist : List (Event Op Op.Resp)) : Prop := ∀ e ∈ hist, e.1.etag? = none

/-- An object is stored with an etag that has been drawn, and after no other. -/
def StoresOnce (hist : List (Event Op Op.Resp)) (o : Op) : Prop :=
  ∀ etag ∈ o.etag?, NoneStored hist ∧ ∃ v, ⟨.newV4, v⟩ ∈ hist ∧ etag = etagOf v

theorem Op.Plainly.storesOnce (o : Op) (h : o.Plainly) (hist : List (Event Op Op.Resp)) :
    StoresOnce hist o := by
  intro etag hetag
  rw [h.etag?] at hetag
  cases hetag

theorem storesOnce_drawn {hist : List (Event Op Op.Resp)} {o : Op} {v : String}
    (ho : o.etag? = some (etagOf v)) (h : NoneStored hist) (hv : ⟨.newV4, v⟩ ∈ hist) :
    StoresOnce hist o := by
  intro etag hetag
  rw [ho] at hetag
  exact ⟨h, v, hv, (Option.some.inj hetag).symm⟩

theorem noneStored_nil : NoneStored [] := List.forall_mem_nil _

theorem NoneStored.cons {hist : List (Event Op Op.Resp)} (h : NoneStored hist)
    {e : Event Op Op.Resp} (he : e.1.Plainly) : NoneStored (e :: hist) :=
  List.forall_mem_cons.mpr ⟨he.etag?, h⟩

section

variable {A : (o : Op) → o.Resp → Prop} {hist : List (Event Op Op.Resp)} {α β : Type}

/-- A program that stores nothing leaves the history without a store. -/
theorem storesOnce_plainly {p : Action α} (hp : p.Only Op.Plainly) (h : NoneStored hist) :
    p.Justified A StoresOnce (fun hist' _ => NoneStored hist') hist := by
  refine (justified_of_only hp fun hist' _ o ho => ho.storesOnce o hist').mono fun hist' _ hext => ?_
  obtain ⟨new, rfl, hnew⟩ := hext
  exact List.forall_mem_append.mpr ⟨fun e he => (hnew e he).etag?, h⟩

/-- What goes on after a program that stores nothing. -/
theorem storesOnce_after {p : Action α} {f : α → Action β} (hp : p.Only Op.Plainly)
    (h : NoneStored hist)
    (hf : ∀ hist' a, NoneStored hist' → (f a).Justified A StoresOnce (fun _ _ => True) hist') :
    (p >>= f).Justified A StoresOnce (fun _ _ => True) hist :=
  justified_bind (storesOnce_plainly hp h) hf

/-- A program that stores nothing, at the end. -/
theorem storesOnce_last {p : Action α} (hp : p.Only Op.Plainly) :
    p.Justified A StoresOnce (fun _ _ => True) hist :=
  (justified_of_only hp fun hist' _ o ho => ho.storesOnce o hist').mono fun _ _ _ => trivial

theorem plainly_upsertLog (calendarId uid token : String) (isNew : Bool) :
    (upsertLog calendarId uid token isNew).Only Op.Plainly :=
  only_upsertLog trivial trivial (fun _ => trivial) fun _ _ => trivial

/-- **`upsert_object`** draws an etag, stores one row with it, and stores nothing else. -/
theorem storesOnce_upsertObject (calendarId uid icalData : String) (fields : ObjectFields)
    (h : NoneStored hist) :
    (upsertObject calendarId uid icalData fields).run.Justified A StoresOnce (fun _ _ => True)
      hist := by
  have herror : ∀ (hist' : List (Event Op Op.Resp)) (e : AppError),
      (Prog.ret (.error e) : Action (Except AppError (CalendarObject × Bool))).Justified A
        StoresOnce (fun _ _ => True) hist' := fun _ _ => trivial
  rw [upsertObject_run]
  refine ⟨Op.Plainly.storesOnce _ (by trivial) hist, fun r _ => ?_⟩
  have h₁ := h.cons (e := ⟨.sql (.selectObjectByUid calendarId uid), r⟩) trivial
  rcases r with e | existing
  · exact herror _ _
  · refine ⟨Op.Plainly.storesOnce _ (by trivial) _, fun v _ => ⟨Op.Plainly.storesOnce _ (by trivial) _, fun t _ => ?_⟩⟩
    have h₂ := (h₁.cons (e := ⟨.newV4, v⟩) trivial).cons (e := ⟨.nowV7, t⟩) trivial
    cases existing with
    | none =>
      refine ⟨Op.Plainly.storesOnce _ (by trivial) _, fun id _ => ⟨?_, fun r _ => ?_⟩⟩
      · exact storesOnce_drawn (v := v) rfl (h₂.cons (e := ⟨.nowV7, id⟩) trivial) (by simp)
      · cases r with
        | ok _ => exact storesOnce_last (plainly_upsertLog ..)
        | error e => exact herror _ _
    | some o =>
      refine ⟨?_, fun r _ => ?_⟩
      · exact storesOnce_drawn (v := v) rfl h₂ (by simp)
      · cases r with
        | ok _ => exact storesOnce_last (plainly_upsertLog ..)
        | error e => exact herror _ _

end

end CaldavMcp
