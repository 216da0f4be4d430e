/-
  The ETag a PUT returns.

  A PUT draws an etag, stores it with its body, and at the end re-reads the row for the etag it
  returns. When another request stores a row in between, the PUT returns the other's etag.

  `StoredApart` is the condition on a step that rules this out: no row is stored while another
  PUT has stored its own and has not re-read it. A DELETE in between does no harm, since the
  re-read then finds nothing and the PUT fails. `EtagInv` is what such steps keep: the etags
  drawn are all different, each stored row has an etag from before the run or one drawn by a
  PUT for the body it has, and a PUT before its re-read finds its own row or none.
-/
import CaldavMcp.Concurrent.IfMatch

namespace CaldavMcp

open Program

namespace Phase

/-- The request is a PUT with this body. -/
def Body (ph : Phase) (icalData : String) : Prop :=
  ∃ fields, ph.write = .upsert ph.write.calendarId ph.write.uid icalData fields

/-- The request is a PUT that has stored its row and has not re-read it. -/
def Unread (ph : Phase) : Prop :=
  ¬ ph.IsDelete ∧ (ph.stage = .wrote ∨ ph.stage = .logged ∨ ph.stage = .bumped)

instance (ph : Phase) : Decidable ph.Unread := inferInstanceAs (Decidable (¬ (_ = _) ∧ (_ ∨ _ ∨ _)))

theorem next_body (ph : Phase) (o : Op) (r : o.Resp) (icalData : String) :
    (ph.next o r).Body icalData ↔ ph.Body icalData := by
  unfold Body
  rw [next_write]

end Phase

/-- The operation stores a row for the object. -/
def Stores (w : World) (calendarId uid : String) : Op → Prop
  | .sql (.updateObject _ _ _ calendarId' uid') =>
    calendarId' = calendarId ∧ uid' = uid ∧ (w.db.objectByUid calendarId uid).isSome
  | .sql (.insertObject o) => o.calendarId = calendarId ∧ o.uid = uid ∧ w.db.Accepts o
  | _ => False

instance (w : World) (calendarId uid : String) : (o : Op) → Decidable (Stores w calendarId uid o)
  | .sql s => by cases s <;> unfold Stores <;> infer_instance
  | .newV4 | .nowV7 | .salt | .utcNow => inferInstanceAs (Decidable False)

/-- The step of request `i` does not store a row for the object while another PUT has stored
    its row and has not re-read it. -/
def StoredApart (calendarId uid : String) (qs : List ObjectRequest)
    (p : Pool World Op Op.Resp Reply) (i : Nat) : Prop :=
  ∀ t ∈ p.threads[i]?, ∀ o ∈ t.next?, Stores p.state calendarId uid o →
    ∀ j < qs.length, j ≠ i → ∀ ph ∈ (requestPhases calendarId qs p)[j]?, ¬ ph.Unread

instance (calendarId uid : String) (qs : List ObjectRequest) (p : Pool World Op Op.Resp Reply)
    (i : Nat) : Decidable (StoredApart calendarId uid qs p i) := by
  unfold StoredApart; infer_instance

/-- The body of a reply, if there is a response. -/
def Reply.body? : Reply → Option Body
  | .response r => some r.body
  | .panicked => none

/-- The operation stores this etag with this body. -/
def Op.StoresWith (etag icalData : String) : Op → Prop
  | .sql (.updateObject etag' icalData' _ _ _) => etag' = etag ∧ icalData' = icalData
  | .sql (.insertObject o) => o.etag = etag ∧ o.icalData = icalData
  | _ => False

/-- Every PUT of the run that has answered 201 or 204 with an ETag has stored its own body with
    it, and no GET of the object, at any time in the run, answers that ETag with another body. -/
def EtagsIdentifyBodies (env : Env) (w : World) (calendarId uid : String)
    (qs : List ObjectRequest) (sched : List Nat) : Prop :=
  ∀ (i : Nat) r t reply etag, qs[i]? = some (.put r) →
    ((requestPool w calendarId qs).exec (exec env) sched).threads[i]? = some t →
    t.result? = some reply → reply.status? = some 201 ∨ reply.status? = some 204 →
    reply.header? "etag" = some etag →
    (∃ e ∈ t.hist, e.1.StoresWith etag r.icalData) ∧
    ∀ s, s <+: sched → ∀ filename, filename.trimEnds ".ics" = uid → ∀ reply',
      ((handleGet calendarId filename).run (exec env)
        ((requestPool w calendarId qs).exec (exec env) s).state).1 = reply' →
      reply'.header? "etag" = some etag → reply'.body? = some (.text r.icalData)

/-- A request that has written its row after a SELECT has just re-read it. -/
theorem Phase.written_select {ph : Phase} {calendarId uid : String}
    {r : Except DbError (Option CalendarObject)}
    (h : (ph.next (.sql (.selectObjectByUid calendarId uid)) r).Written) :
    ph.stage = .bumped ∧
      (ph.next (.sql (.selectObjectByUid calendarId uid)) r).stage = .finished := by
  rcases r with e | row
  · rcases h with h | h | h | h <;> cases h
  · have key : ∀ st : Stage, (st.afterSelect row = .wrote ∨ st.afterSelect row = .logged ∨
        st.afterSelect row = .bumped ∨ st.afterSelect row = .finished) →
        st = .bumped ∧ st.afterSelect row = .finished := by
      intro st h
      unfold Stage.afterSelect at h ⊢
      split at h
      · split at h <;> simp at h
      all_goals simp at h ⊢
    exact key ph.stage h

/-! ## The invariant -/

structure EtagInv (env : Env) (calendarId uid : String) (d₀ : Nat) (w : World)
    (phs : List Phase) : Prop where
  drawn : d₀ ≤ w.drawn
  on : ∀ (i : Nat) ph, phs[i]? = some ph → ph.On calendarId uid
  drew : ∀ (i : Nat) ph v, phs[i]? = some ph → ph.v4 = some v →
    ∃ n, d₀ ≤ n ∧ n < w.drawn ∧ v = env.uuid n
  distinct : ∀ (i j : Nat) ph ph' v, phs[i]? = some ph → phs[j]? = some ph' → ph.v4 = some v →
    ph'.v4 = some v → i = j
  row : ∀ o, w.db.objectByUid calendarId uid = some o →
    (∀ n, d₀ ≤ n → o.etag ≠ etagOf (env.uuid n)) ∨
    ∃ (i : Nat) (ph : Phase) (v : String), phs[i]? = some ph ∧ ph.v4 = some v ∧
      ph.Body o.icalData ∧ o.etag = etagOf v
  own : ∀ (i : Nat) ph, phs[i]? = some ph → ph.Unread →
    ∀ o, w.db.objectByUid calendarId uid = some o → ∃ v, ph.v4 = some v ∧ o.etag = etagOf v

section

variable {env : Env} {calendarId uid : String} {d₀ : Nat} {w w' : World}
  {phs : List Phase} {i : Nat} {ph ph' : Phase} {o : Op}

/-- A step that stores nothing and draws no etag. -/
theorem EtagInv.frame (hI : EtagInv env calendarId uid d₀ w phs) (hph : phs[i]? = some ph)
    (hdrawn : w.drawn ≤ w'.drawn)
    (hrow : ∀ o, w'.db.objectByUid calendarId uid = some o →
      w.db.objectByUid calendarId uid = some o)
    (hwrite : ph'.write = ph.write) (hv4 : ph'.v4 = ph.v4)
    (hunread : ph'.Unread → ph.Unread ∨ w'.db.objectByUid calendarId uid = none) :
    EtagInv env calendarId uid d₀ w' (phs.set i ph') := by
  have hback : ∀ (j : Nat) ph₁, (phs.set i ph')[j]? = some ph₁ →
      ∃ ph₂, phs[j]? = some ph₂ ∧ ph₂.v4 = ph₁.v4 ∧ ph₂.write = ph₁.write := by
    intro j ph₁ hj
    rcases getElem?_set_cases hj with ⟨rfl, rfl⟩ | ⟨-, hj⟩
    · exact ⟨ph, hph, hv4.symm, hwrite.symm⟩
    · exact ⟨ph₁, hj, rfl, rfl⟩
  have hforth : ∀ (j : Nat) ph₁, phs[j]? = some ph₁ →
      ∃ ph₂, (phs.set i ph')[j]? = some ph₂ ∧ ph₂.v4 = ph₁.v4 ∧ ph₂.write = ph₁.write := by
    intro j ph₁ hj
    by_cases hij : i = j
    · subst hij
      obtain rfl := Option.some.inj (hph.symm.trans hj)
      exact ⟨ph', List.getElem?_set_self (List.getElem?_eq_some_iff.mp hph).1, hv4, hwrite⟩
    · exact ⟨ph₁, by rw [List.getElem?_set_ne hij, hj], rfl, rfl⟩
  refine ⟨le_trans hI.drawn hdrawn, ?_, ?_, ?_, ?_, ?_⟩
  · intro j ph₁ hj
    obtain ⟨ph₂, hj', -, hw⟩ := hback j ph₁ hj
    have := hI.on j ph₂ hj'
    unfold Phase.On at this ⊢
    rwa [hw] at this
  · intro j ph₁ v hj hv
    obtain ⟨ph₂, hj', hv', -⟩ := hback j ph₁ hj
    obtain ⟨n, h1, h2, h3⟩ := hI.drew j ph₂ v hj' (hv'.trans hv)
    exact ⟨n, h1, lt_of_lt_of_le h2 hdrawn, h3⟩
  · intro j k ph₁ ph₂ v hj hk h1 h2
    obtain ⟨ph₃, hj', h1', -⟩ := hback j ph₁ hj
    obtain ⟨ph₄, hk', h2', -⟩ := hback k ph₂ hk
    exact hI.distinct j k ph₃ ph₄ v hj' hk' (h1'.trans h1) (h2'.trans h2)
  · intro o ho
    rcases hI.row o (hrow o ho) with h | ⟨j, ph₁, v, hj, hv, hb, he⟩
    · exact Or.inl h
    · obtain ⟨ph₂, hj', hv', hw⟩ := hforth j ph₁ hj
      refine Or.inr ⟨j, ph₂, v, hj', hv'.trans hv, ?_, he⟩
      unfold Phase.Body at hb ⊢
      rwa [hw]
  · intro j ph₁ hj hu o ho
    rcases getElem?_set_cases hj with ⟨rfl, rfl⟩ | ⟨-, hj⟩
    · rcases hunread hu with h | h
      · rw [hv4]
        exact hI.own j ph hph h o (hrow o ho)
      · rw [ho] at h; cases h
    · exact hI.own j ph₁ hj hu o (hrow o ho)

/-- An etag is drawn: it differs from all before it. -/
theorem EtagInv.draw (hinj : Function.Injective env.uuid)
    (hI : EtagInv env calendarId uid d₀ w phs) (hph : phs[i]? = some ph) (hv4 : ph.v4 = none)
    (hunread : ¬ ph.Unread) :
    EtagInv env calendarId uid d₀ { w with drawn := w.drawn + 1 }
      (phs.set i { ph with v4 := some (env.uuid w.drawn) }) := by
  have hother : ∀ (j : Nat) ph₁, phs[j]? = some ph₁ → ph₁.v4 ≠ some (env.uuid w.drawn) := by
    intro j ph₁ hj hv
    obtain ⟨n, -, hn, he⟩ := hI.drew j ph₁ _ hj hv
    have := hinj he
    omega
  refine ⟨Nat.le_succ_of_le hI.drawn, ?_, ?_, ?_, ?_, ?_⟩
  · intro j ph₁ hj
    rcases getElem?_set_cases hj with ⟨rfl, rfl⟩ | ⟨-, hj⟩
    · exact hI.on j ph hph
    · exact hI.on j ph₁ hj
  · intro j ph₁ v hj hv
    rcases getElem?_set_cases hj with ⟨rfl, rfl⟩ | ⟨-, hj⟩
    · exact ⟨w.drawn, hI.drawn, Nat.lt_succ_self _, (Option.some.inj hv).symm⟩
    · obtain ⟨n, h1, h2, h3⟩ := hI.drew j ph₁ v hj hv
      exact ⟨n, h1, Nat.lt_succ_of_lt h2, h3⟩
  · intro j k ph₁ ph₂ v hj hk h1 h2
    rcases getElem?_set_cases hj with ⟨rfl, rfl⟩ | ⟨-, hj'⟩
    · rcases getElem?_set_cases hk with ⟨rfl, -⟩ | ⟨-, hk'⟩
      · rfl
      · exact absurd (h2.trans h1.symm) (hother k ph₂ hk')
    · rcases getElem?_set_cases hk with ⟨rfl, rfl⟩ | ⟨-, hk'⟩
      · exact absurd (h1.trans h2.symm) (hother j ph₁ hj')
      · exact hI.distinct j k ph₁ ph₂ v hj' hk' h1 h2
  · intro o ho
    rcases hI.row o ho with h | ⟨j, ph₁, v, hj, hv, hb, he⟩
    · exact Or.inl h
    · refine Or.inr ⟨j, ph₁, v, ?_, hv, hb, he⟩
      have hij : i ≠ j := by
        rintro rfl
        obtain rfl := Option.some.inj (hph.symm.trans hj)
        rw [hv4] at hv; cases hv
      rw [List.getElem?_set_ne hij, hj]
  · intro j ph₁ hj hu o ho
    rcases getElem?_set_cases hj with ⟨rfl, rfl⟩ | ⟨-, hj⟩
    · exact absurd hu hunread
    · exact hI.own j ph₁ hj hu o ho

/-- A PUT stores its row, and no other PUT is before its re-read. -/
theorem EtagInv.store (hI : EtagInv env calendarId uid d₀ w phs) (hph : phs[i]? = some ph)
    (hdrawn : w'.drawn = w.drawn) {v icalData : String} (hv : ph.v4 = some v)
    (hbody : ph.Body icalData)
    (hrow : ∀ o, w'.db.objectByUid calendarId uid = some o →
      o.etag = etagOf v ∧ o.icalData = icalData)
    (halone : ∀ j ph₁, j ≠ i → phs[j]? = some ph₁ → ¬ ph₁.Unread) :
    EtagInv env calendarId uid d₀ w' (phs.set i { ph with stage := .wrote }) := by
  have hself : (phs.set i { ph with stage := .wrote })[i]? = some { ph with stage := .wrote } :=
    List.getElem?_set_self (List.getElem?_eq_some_iff.mp hph).1
  have hback : ∀ (j : Nat) ph₁, (phs.set i { ph with stage := .wrote })[j]? = some ph₁ →
      ∃ ph₂, phs[j]? = some ph₂ ∧ ph₂.v4 = ph₁.v4 := by
    intro j ph₁ hj
    rcases getElem?_set_cases hj with ⟨rfl, rfl⟩ | ⟨-, hj⟩
    · exact ⟨ph, hph, rfl⟩
    · exact ⟨ph₁, hj, rfl⟩
  refine ⟨hdrawn ▸ hI.drawn, ?_, ?_, ?_, ?_, ?_⟩
  · intro j ph₁ hj
    rcases getElem?_set_cases hj with ⟨rfl, rfl⟩ | ⟨-, hj⟩
    · exact hI.on j ph hph
    · exact hI.on j ph₁ hj
  · intro j ph₁ v₁ hj hv₁
    obtain ⟨ph₂, hj', hv'⟩ := hback j ph₁ hj
    rw [hdrawn]
    exact hI.drew j ph₂ v₁ hj' (hv'.trans hv₁)
  · intro j k ph₁ ph₂ v₁ hj hk h1 h2
    obtain ⟨ph₃, hj', h1'⟩ := hback j ph₁ hj
    obtain ⟨ph₄, hk', h2'⟩ := hback k ph₂ hk
    exact hI.distinct j k ph₃ ph₄ v₁ hj' hk' (h1'.trans h1) (h2'.trans h2)
  · intro o ho
    obtain ⟨he, hd⟩ := hrow o ho
    exact Or.inr ⟨i, _, v, hself, hv, hd ▸ hbody, he⟩
  · intro j ph₁ hj hu o ho
    rcases getElem?_set_cases hj with ⟨rfl, rfl⟩ | ⟨hji, hj⟩
    · exact ⟨v, hv, (hrow o ho).1⟩
    · exact absurd hu (halone j ph₁ hji hj)

/-- Every operation of a request keeps the invariant, if it stores apart from the others. -/
theorem EtagInv.step (hinj : Function.Injective env.uuid)
    (hI : EtagInv env calendarId uid d₀ w phs) (hph : phs[i]? = some ph) (hsend : ph.Sends o)
    (halone : Stores w calendarId uid o → ∀ j ph₁, j ≠ i → phs[j]? = some ph₁ → ¬ ph₁.Unread) :
    EtagInv env calendarId uid d₀ (exec env o w).2 (phs.set i (ph.next o (exec env o w).1)) := by
  obtain ⟨hc, hu⟩ := hI.on i ph hph
  -- the stages after which a PUT is not before its re-read
  have read : ∀ {ph' : Phase}, ph'.stage ≠ .wrote → ph'.stage ≠ .logged → ph'.stage ≠ .bumped →
      ¬ ph'.Unread := by
    rintro ph' h1 h2 h3 ⟨-, h | h | h⟩
    · exact h1 h
    · exact h2 h
    · exact h3 h
  have select : ∀ {P : Prop}, (ph.next (.sql (.selectObjectByUid ph.write.calendarId ph.write.uid))
      (exec env (.sql (.selectObjectByUid ph.write.calendarId ph.write.uid)) w).1).Unread → P := by
    intro P h
    have hstage := (Phase.written_select (h.2.imp id (Or.imp id Or.inl) : Phase.Written _)).2
    exact absurd h (read (by rw [hstage]; nofun) (by rw [hstage]; nofun) (by rw [hstage]; nofun))
  cases hsend with
  | check etag hs => exact hI.frame hph (le_refl _) (fun _ h => h) rfl rfl select
  | look hs => exact hI.frame hph (le_refl _) (fun _ h => h) rfl rfl select
  | etag hs hv =>
    refine hI.draw hinj hph hv (read ?_ ?_ ?_) <;>
      · rcases hs with h | h <;> · rw [h]; nofun
  | uuid hs => exact hI.frame hph (Nat.le_succ _) (fun _ h => h) rfl rfl Or.inl
  | update v icalData fields hs hw hv =>
    rw [hc, hu]
    have hrow := Tables.objectByUid_updateObject (t := w.db.toTables) (etagOf v) icalData fields
      calendarId uid calendarId uid
    rw [if_pos ⟨rfl, rfl⟩] at hrow
    cases ho : w.db.objectByUid calendarId uid with
    | none =>
      -- the row is gone: the UPDATE stores nothing
      have hnone : (w.after (.updateObject (etagOf v) icalData fields calendarId
          uid)).db.objectByUid calendarId uid = none := by
        rw [World.after_tables, hrow, ho]
        rfl
      refine hI.frame hph (le_refl _) (fun o h => ?_) rfl rfl fun _ => Or.inr hnone
      exact absurd (hnone.symm.trans h) (by simp)
    | some row =>
      refine hI.store hph rfl hv ⟨fields, hw⟩ (fun o h => ?_)
        (halone ⟨hc, hu, by rw [ho]; rfl⟩)
      rw [exec_sql, World.after_tables, hrow, ho] at h
      obtain rfl := Option.some.inj h
      exact ⟨rfl, rfl⟩
  | insert v icalData fields row hs hw hv hrc hru he hd =>
    by_cases ha : w.db.Accepts row
    · have hans : w.answer (.insertObject row) = .ok 1 := Tables.answer_insertObject_accepted ha
      have hkey : calendarId = row.calendarId ∧ uid = row.uid :=
        ⟨hc.symm.trans hrc.symm, hu.symm.trans hru.symm⟩
      have hrow := Tables.objectByUid_insertObject ha calendarId uid
      rw [if_pos hkey] at hrow
      rw [exec_sql, hans]
      refine hI.store hph rfl hv ⟨fields, hw⟩ (fun o h => ?_)
        (halone ⟨hkey.1.symm, hkey.2.symm, ha⟩)
      rw [World.after_tables, hrow] at h
      obtain rfl := Option.some.inj h
      exact ⟨he, hd⟩
    · obtain ⟨e, he⟩ := Tables.answer_insertObject_refused ha
      have hsame : (w.after (.insertObject row)).db.toTables = w.db.toTables :=
        Tables.after_insertObject_refused ha
      rw [exec_sql, show w.answer (.insertObject row) = .error e from he]
      refine hI.frame hph (le_refl _) (fun o h => by rwa [hsame] at h) rfl rfl fun h => ?_
      exact absurd h (read nofun nofun nofun)
  | remove hs hw =>
    refine hI.frame hph (le_refl _) (fun o h => ?_) rfl rfl fun h => ?_
    · rw [hc, hu, exec_sql, World.after_tables, Tables.objectByUid_deleteObject,
        if_pos ⟨rfl, rfl⟩] at h
      cases h
    · refine absurd ?_ h.1
      unfold Phase.IsDelete
      rw [Phase.next_write]
      exact hw
  | log type token hs ht =>
    refine hI.frame hph (le_refl _) (fun o h => ?_) rfl rfl fun h => Or.inl ⟨?_, Or.inl hs⟩
    · rw [← h]
      exact (congrArg (List.find? _) (Tables.calendarObjects_insertChange _ _ _ _)).symm
    · intro hd
      refine h.1 ?_
      unfold Phase.IsDelete
      rw [Phase.next_write]
      exact hd
  | bump b hs hv =>
    exact hI.frame hph (le_refl _) (fun _ h => h) rfl rfl
      fun h => Or.inl ⟨h.1, Or.inr (Or.inl hs)⟩
  | reread hs => exact hI.frame hph (le_refl _) (fun _ h => h) rfl rfl select

/-- A PUT that has written its row has stored its own body with the etag it drew. -/
def StoredOwn (ph : Phase) (hist : List (Event Op Op.Resp)) : Prop :=
  ∀ icalData, ph.Body icalData → ph.Written →
    ∃ v, ph.v4 = some v ∧ ∃ e ∈ hist, e.1.StoresWith (etagOf v) icalData

theorem StoredOwn.step (ph : Phase) (o : Op) (r : o.Resp) (hist : List (Event Op Op.Resp))
    (hsend : ph.Sends o) (hS : StoredOwn ph hist) :
    StoredOwn (ph.next o r) (⟨o, r⟩ :: hist) := by
  intro icalData hbody hwritten
  rw [Phase.next_body] at hbody
  have keep : ph.Written → (ph.next o r).v4 = ph.v4 →
      ∃ v, (ph.next o r).v4 = some v ∧
        ∃ e ∈ (⟨o, r⟩ :: hist : List (Event Op Op.Resp)), e.1.StoresWith (etagOf v) icalData := by
    intro hw hv4
    obtain ⟨v, hv, e, he, hst⟩ := hS icalData hbody hw
    exact ⟨v, hv4.trans hv, e, List.mem_cons_of_mem _ he, hst⟩
  cases hsend with
  | check etag hs => exact absurd (hs.symm.trans (Phase.written_select hwritten).1) nofun
  | look hs => exact absurd (hs.symm.trans (Phase.written_select hwritten).1) nofun
  | etag hs hv =>
    rcases hs with hs | hs <;> rcases hwritten with h | h | h | h <;>
      exact absurd (hs.symm.trans h) nofun
  | uuid hs => exact keep hwritten rfl
  | update v d fields hs hw hv =>
    obtain ⟨fields', hw'⟩ := hbody
    obtain ⟨-, -, rfl, -⟩ := ObjectWrite.upsert.inj (hw.symm.trans hw')
    exact ⟨v, hv, _, List.mem_cons_self, rfl, rfl⟩
  | insert v d fields row hs hw hv hc hu he hd =>
    obtain ⟨fields', hw'⟩ := hbody
    obtain ⟨-, -, rfl, -⟩ := ObjectWrite.upsert.inj (hw.symm.trans hw')
    exact ⟨v, hv, _, List.mem_cons_self, he, hd⟩
  | remove hs hw =>
    obtain ⟨fields, hw'⟩ := hbody
    exact absurd (hw.symm.trans hw') nofun
  | log type token hs ht => exact keep (Or.inl hs) rfl
  | bump b hs hv => exact keep (Or.inr (Or.inl hs)) rfl
  | reread hs => exact keep (Or.inr (Or.inr (Or.inl hs))) rfl

end

/-! ## Whole runs -/

/-- The etag and the body of a GET are those of one row. -/
theorem handleGet_etag {env : Env} {w : World} {calendarId filename etag : String}
    (h : ((handleGet calendarId filename).run (exec env) w).1.header? "etag" = some etag) :
    ∃ o, w.db.objectByUid calendarId (filename.trimEnds ".ics") = some o ∧ o.etag = etag ∧
      ((handleGet calendarId filename).run (exec env) w).1.body? = some (.text o.icalData) := by
  have hget : ∀ found, w.db.objectByUid calendarId (filename.trimEnds ".ics") = found →
      (getObjectByUid calendarId (filename.trimEnds ".ics")).run.run (exec env) w =
        (.ok found, w) := fun found hf => congrArg (fun r => (Except.ok r, w)) hf
  unfold handleGet at h ⊢
  rw [run_bind] at h ⊢
  cases ho : w.db.objectByUid calendarId (filename.trimEnds ".ics") with
  | none =>
    rw [hget none ho] at h
    exact absurd (show (none : Option String) = some etag from h) nofun
  | some o =>
    rw [hget (some o) ho] at h ⊢
    dsimp only at h ⊢
    rw [Prog.pure_eq_ret, run_ret] at h ⊢
    unfold buildResponse at h ⊢
    split at h
    · rename_i hv
      rw [if_pos hv]
      exact ⟨o, rfl, Option.some.inj h, rfl⟩
    · cases h

/-- An etag, once drawn, is kept. -/
theorem Phase.next_v4 {ph : Phase} {o : Op} (hs : ph.Sends o) {v : String} (hv : ph.v4 = some v)
    (r : o.Resp) : (ph.next o r).v4 = some v := by
  cases hs with
  | etag _ hnone => rw [hnone] at hv; cases hv
  | _ => exact hv

/-- The invariant holds before the first statement. -/
theorem etagInv_start (env : Env) {w : World} {calendarId uid : String} {qs : List ObjectRequest}
    (hqs : ∀ q ∈ qs, q.uid = uid)
    (hold : ∀ o, w.db.objectByUid calendarId uid = some o →
      ∀ n, w.drawn ≤ n → o.etag ≠ etagOf (env.uuid n)) :
    EtagInv env calendarId uid w.drawn w (qs.map (ObjectRequest.start calendarId)) := by
  have hstart : ∀ (i : Nat) ph, (qs.map (ObjectRequest.start calendarId))[i]? = some ph →
      ph.On calendarId uid ∧ ph.v4 = none ∧ ¬ ph.Unread := by
    intro i ph hi
    rw [List.getElem?_map, Option.map_eq_some_iff] at hi
    obtain ⟨q, hq, rfl⟩ := hi
    have hu := hqs q (List.mem_of_getElem? hq)
    refine ⟨hu ▸ q.start_on calendarId, by cases q <;> rfl, ?_⟩
    rintro ⟨-, h⟩
    rcases q.start_stage calendarId with hs | ⟨etag, hs⟩ <;> rcases h with h | h | h <;>
      exact absurd (hs.symm.trans h) nofun
  refine ⟨le_refl _, fun i ph hi => (hstart i ph hi).1, fun i ph v hi hv => ?_,
    fun i j ph ph' v hi _ hv => ?_, fun o ho => Or.inl (hold o ho),
    fun i ph hi hu => absurd hu (hstart i ph hi).2.2⟩
  · exact absurd ((hstart i ph hi).2.1.symm.trans hv) nofun
  · exact absurd ((hstart i ph hi).2.1.symm.trans hv) nofun

/-- The etags drawn in `phs` are still there in `phs'`. -/
def KeepsEtags (phs phs' : List Phase) : Prop :=
  ∀ (i : Nat) ph v, phs[i]? = some ph → ph.v4 = some v →
    ∃ ph', phs'[i]? = some ph' ∧ ph'.v4 = some v

/-- A part of a run, from any state of it. -/
theorem etag_run {env : Env} (hinj : Function.Injective env.uuid) {calendarId uid : String}
    {d₀ : Nat} {qs : List ObjectRequest} {p p' : Pool World Op Op.Resp Reply}
    (hc : (requestOutline env).Covers (qs.map (ObjectRequest.start calendarId)) p)
    (hI : EtagInv env calendarId uid d₀ p.state (requestPhases calendarId qs p))
    (hL : ∀ (i : Nat) ph t, (requestPhases calendarId qs p)[i]? = some ph →
      p.threads[i]? = some t → StoredOwn ph t.hist)
    {sched : List Nat} (hG : Pool.Along (exec env) (StoredApart calendarId uid qs) p sched)
    (hp' : p' = p.exec (exec env) sched) :
    (requestOutline env).Covers (qs.map (ObjectRequest.start calendarId)) p' ∧
    (EtagInv env calendarId uid d₀ p'.state (requestPhases calendarId qs p') ∧
      KeepsEtags (requestPhases calendarId qs p) (requestPhases calendarId qs p')) ∧
    ∀ (i : Nat) ph t, (requestPhases calendarId qs p')[i]? = some ph →
      p'.threads[i]? = some t → StoredOwn ph t.hist := by
  subst hp'
  refine @requests_inv env calendarId (fun w phs => EtagInv env calendarId uid d₀ w phs ∧
    KeepsEtags (requestPhases calendarId qs p) phs) StoredOwn (StoredApart calendarId uid qs) qs
    ?_ ?_ StoredOwn.step p hc ⟨hI, fun i ph v hi hv => ⟨ph, hi, hv⟩⟩ hL sched hG
  · intro w phs i ph hI hph hs hd o ho
    obtain ⟨hc, hu⟩ := hI.1.on i ph hph
    rw [hc, hu] at ho
    exact hI.1.own i ph hph ⟨hd, Or.inr (Or.inr hs)⟩ o ho
  · intro q i ph t o hI hph ht ho hs hg
    refine ⟨hI.1.step hinj hph hs fun hst j ph₁ hj hph₁ =>
      hg t ht o ho hst j (requestPhases_lt hph₁) hj ph₁ hph₁, fun j ph₀ v hj hv => ?_⟩
    obtain ⟨ph₁, hj₁, hv₁⟩ := hI.2 j ph₀ v hj hv
    by_cases hij : i = j
    · subst hij
      obtain rfl := Option.some.inj (hph.symm.trans hj₁)
      have hlt := (List.getElem?_eq_some_iff.mp hph).1
      exact ⟨_, List.getElem?_set_self hlt, Phase.next_v4 hs hv₁ _⟩
    · exact ⟨ph₁, by rw [List.getElem?_set_ne hij, hj₁], hv₁⟩

/-- A PUT that answers 201 or 204 returns the etag it drew. -/
theorem PutEnds.etag {env : Env} {ph : Phase} {reply : Reply} {etag : String}
    (hends : PutEnds ph reply) (hstatus : reply.status? = some 201 ∨ reply.status? = some 204)
    (hdrew : ∀ v, ph.v4 = some v → ∃ n, v = env.uuid n) (hetag : reply.header? "etag" = some etag) :
    ph.stage = .finished ∧ ∃ v, ph.v4 = some v ∧ etag = etagOf v := by
  cases hends with
  | rejected _ hs hr => rw [hr] at hstatus; rcases hstatus with h | h <;> cases h
  | finished o v isNew hs hv he =>
    obtain ⟨n, rfl⟩ := hdrew v hv
    rw [putReply_ok isNew he (env.uuid_chars n)] at hetag
    exact ⟨hs, _, hv, (Option.some.inj hetag).symm⟩
  | failed e hs => rcases hstatus with h | h <;> cases h

/-- **The ETag of a PUT identifies its body**, in every run of PUTs and DELETEs on one object
    that store apart. -/
theorem etag_identifies_body (env : Env) (hinj : Function.Injective env.uuid) (w : World)
    (calendarId uid : String)
    (hold : ∀ o, w.db.objectByUid calendarId uid = some o →
      ∀ n, w.drawn ≤ n → o.etag ≠ etagOf (env.uuid n))
    (qs : List ObjectRequest) (hqs : ∀ q ∈ qs, q.uid = uid) (sched : List Nat)
    (hsteps : Pool.Along (exec env) (StoredApart calendarId uid qs)
      (requestPool w calendarId qs) sched) :
    EtagsIdentifyBodies env w calendarId uid qs sched := by
  intro i r t reply etag hr ht hreply hstatus hetag
  have hrun := fun (s : List Nat) (hG : Pool.Along (exec env) (StoredApart calendarId uid qs)
      (requestPool w calendarId qs) s) =>
    etag_run hinj (requestOutline_covers w qs)
      (by rw [requestPhases_start]; exact etagInv_start env hqs hold)
      (fun i ph t hph _ icalData _ hw => by
        rw [requestPhases_start, List.getElem?_map, Option.map_eq_some_iff] at hph
        obtain ⟨q, -, rfl⟩ := hph
        rcases q.start_stage calendarId with hs | ⟨etag, hs⟩ <;> rcases hw with h | h | h | h <;>
          exact absurd (hs.symm.trans h) nofun) hG rfl
  obtain ⟨hc, ⟨hI, -⟩, hL⟩ := hrun sched hsteps
  obtain ⟨ph₀, -, hph⟩ := hc.phase ht
  have hwrite := requestPhases_write hph hr
  have hput : ¬ Phase.IsDelete ((requestOutline env).phaseAfter ph₀ t.hist) := by
    unfold Phase.IsDelete
    rw [hwrite]
    nofun
  have hdrew : ∀ v, Phase.v4 ((requestOutline env).phaseAfter ph₀ t.hist) = some v →
      ∃ n, v = env.uuid n := by
    intro v hv
    obtain ⟨n, -, -, h⟩ := hI.drew i _ v hph hv
    exact ⟨n, h⟩
  obtain ⟨hs, v, hv, rfl⟩ := (hc.ends hph ht hreply hput).etag hstatus hdrew hetag
  refine ⟨?_, ?_⟩
  · obtain ⟨v', hv', e, he, hst⟩ := hL i _ t hph ht r.icalData
      ⟨fieldsOf r.icalData, by rw [hwrite]; rfl⟩ (Or.inr (Or.inr (Or.inr hs)))
    obtain rfl := Option.some.inj (hv.symm.trans hv')
    exact ⟨e, he, hst⟩
  · rintro s ⟨s', rfl⟩ filename hf reply' rfl hget
    obtain ⟨o, ho, he, hb⟩ := handleGet_etag hget
    rw [hf] at ho
    rw [hb]
    obtain ⟨hG₁, hG₂⟩ := hsteps.append
    obtain ⟨hc₁, ⟨hI₁, -⟩, hL₁⟩ := hrun s hG₁
    obtain ⟨-, ⟨-, hkeep⟩, -⟩ := etag_run hinj hc₁ hI₁ hL₁ hG₂ rfl
    rw [← Pool.exec_append] at hkeep
    rcases hI₁.row o ho with h | ⟨k, ph₁, v', hk, hv', ⟨fields, hw⟩, he'⟩
    · obtain ⟨n, hn, -, rfl⟩ := hI.drew i _ v hph hv
      exact absurd he (h n hn)
    · -- the PUT that stored this row drew the same etag, so it is this one
      obtain rfl := etagOf_inj (he.symm.trans he')
      obtain ⟨ph₂, hk₂, hv₂⟩ := hkeep k ph₁ v hk hv'
      obtain rfl := hI.distinct k i ph₂ _ v hk₂ hph hv₂ hv
      rw [requestPhases_write hk hr] at hw
      obtain ⟨-, -, hd, -⟩ := ObjectWrite.upsert.inj hw
      rw [hd]

theorem monday_size : "Monday".toUTF8.size ≤ 1024 * 1024 := by decide

theorem tuesday_size : "Tuesday".toUTF8.size ≤ 1024 * 1024 := by decide

/-- Two unconditional PUTs of the meeting. -/
def writers : List PutRequest :=
  [.ofText "meeting.ics" [] "Monday" monday_size, .ofText "meeting.ics" [] "Tuesday" tuesday_size]

theorem meetingWorld_etag {o : CalendarObject}
    (ho : meetingWorld.db.objectByUid "work" "meeting" = some o) (n : Nat)
    (hn : meetingWorld.drawn ≤ n) : o.etag ≠ etagOf (countingEnv.uuid n) := by
  have he : (meetingWorld.db.objectByUid "work" "meeting").map (·.etag) =
    some (etagOf (countingEnv.uuid 8)) := by decide
  rw [ho] at he
  have he' : o.etag = etagOf (countingEnv.uuid 8) := Option.some.inj he
  rw [he']
  exact (etag_fresh n hn).symm

/-- The second PUT starts when the first has been answered. -/
theorem etag_identifies_body_writers :
    EtagsIdentifyBodies countingEnv meetingWorld "work" "meeting" (writers.map .put)
      (List.replicate 8 0 ++ List.replicate 8 1) :=
  etag_identifies_body countingEnv countingEnv_uuid_injective meetingWorld "work" "meeting"
    (fun _ ho => meetingWorld_etag ho) (writers.map .put) (by decide)
    (List.replicate 8 0 ++ List.replicate 8 1) (by rw [requestPool_puts]; decide)

/-- Both PUTs store their rows before the first one re-reads. -/
def misread : List Nat := List.replicate 4 0 ++ List.replicate 4 1 ++ List.replicate 4 0

/-- The first PUT returns the etag of the second, and a GET answers that etag with the second
    one's body. -/
theorem etag_misidentifies_body : ¬ ∀ (env : Env), Function.Injective env.uuid →
    ∀ (w : World) (calendarId uid : String),
    (∀ o, w.db.objectByUid calendarId uid = some o →
      ∀ n, w.drawn ≤ n → o.etag ≠ etagOf (env.uuid n)) →
    ∀ qs : List ObjectRequest, (∀ q ∈ qs, q.uid = uid) → ∀ sched : List Nat,
    EtagsIdentifyBodies env w calendarId uid qs sched := by
  intro h
  have hall := h countingEnv countingEnv_uuid_injective meetingWorld "work" "meeting"
    (fun _ ho => meetingWorld_etag ho) (writers.map .put) (by decide) misread
  unfold EtagsIdentifyBodies at hall
  rw [requestPool_puts] at hall
  have hput : (((Pool.start meetingWorld (writers.map fun r =>
      putObject "work" r.filename r.ifMatch r.icalData)).exec (exec countingEnv)
        misread).threads[0]?.bind (·.result?)).map (fun r => (r.status?, r.header? "etag")) =
      some (some 204, some (etagOf (countingEnv.uuid 14))) := by decide
  have hget : ((handleGet "work" "meeting.ics").run (exec countingEnv) ((Pool.start meetingWorld
      (writers.map fun r => putObject "work" r.filename r.ifMatch r.icalData)).exec
        (exec countingEnv) misread).state).1.header? "etag" =
        some (etagOf (countingEnv.uuid 14)) := by decide
  have hbody : ((handleGet "work" "meeting.ics").run (exec countingEnv) ((Pool.start meetingWorld
      (writers.map fun r => putObject "work" r.filename r.ifMatch r.icalData)).exec
        (exec countingEnv) misread).state).1.body? = some (.text "Tuesday") := by decide
  obtain ⟨r, hr, hs⟩ := Option.map_eq_some_iff.mp hput
  obtain ⟨t, ht, hr⟩ := Option.bind_eq_some_iff.mp hr
  obtain ⟨hstatus, hetag⟩ := Prod.mk.inj hs
  have := (hall 0 _ t r _ rfl ht hr (Or.inr hstatus) hetag).2 misread (List.prefix_refl _)
    "meeting.ics" (by decide) _ rfl hget
  rw [hbody] at this
  exact absurd this (by decide)

end CaldavMcp
