/-
  The ctag as a change detector.

  A client reads a calendar's row, and later its objects, while any number of object writes
  run. A writer bumps the ctag after it has changed a row, and not at once. So at the moment
  of either read a row may have been changed whose bump is still to come.

  The argument has two parts. `TokenInv`: the tokens that writers hold and have not written
  are not in any calendar row, so the ctag a client has read is never written again (`Spent`).
  `CtagInv`: after the client has read the objects, either the ctag has moved on, or the
  objects are those it read, or some writer that has changed them has yet to bump.
-/
import CaldavMcp.Concurrent.Log

namespace CaldavMcp

open Program

namespace Phase

/-- The token the call may still write to its calendar's row. -/
def Holds (ph : Phase) (b : String) : Prop := ph.v7 = some b ∧ ¬ ph.stage.Over

/-- The call has changed a row of the calendar and has not bumped the ctag. -/
def Dirty (ph : Phase) (calendarId : String) : Prop :=
  ph.write.calendarId = calendarId ∧ (ph.stage = .wrote ∨ ph.stage = .logged)

end Phase

/-- Tokens drawn from now on are in no calendar row. -/
def World.FreshTokens (env : Env) (w : World) : Prop :=
  ∀ n, w.drawn ≤ n → ∀ r ∈ w.db.calendars, r.ctag ≠ syncTokenOf (env.uuid n)

/-- The tokens that calls hold are drawn, in no calendar row, and in no other call's hand. -/
structure TokenInv (env : Env) (w : World) (phs : List Phase) : Prop where
  fresh : w.FreshTokens env
  drawn : ∀ (i : Nat) ph b, phs[i]? = some ph → ph.Holds b → ∃ n < w.drawn, b = env.uuid n
  unwritten : ∀ (i : Nat) ph b, phs[i]? = some ph → ph.Holds b →
    ∀ r ∈ w.db.calendars, r.ctag ≠ syncTokenOf b
  distinct : ∀ (i j : Nat) ph ph' b, i ≠ j → phs[i]? = some ph → phs[j]? = some ph' →
    ph.Holds b → ¬ ph'.Holds b

/-- No call holds the token `c`, and none will draw it. -/
structure Spent (env : Env) (c : String) (w : World) (phs : List Phase) : Prop where
  future : ∀ n, w.drawn ≤ n → c ≠ syncTokenOf (env.uuid n)
  held : ∀ (i : Nat) ph b, phs[i]? = some ph → ph.Holds b → c ≠ syncTokenOf b

/-- The ctag has moved on from `c`, or the objects are still `os`, or a writer of the
    calendar has yet to bump. -/
def Detects (calendarId c : String) (os : List CalendarObject) (w : World)
    (phs : List Phase) : Prop :=
  (∀ r, w.db.calendarById calendarId = some r → r.ctag ≠ c) ∨
  w.db.objectsOf calendarId = os ∨
  ∃ (i : Nat) (ph : Phase), phs[i]? = some ph ∧ ph.Dirty calendarId

section

variable {env : Env} {w : World} {phs : List Phase} {i : Nat} {ph : Phase} {o : Op}

/-- What an operation of a call does to the tokens: it draws one, or writes the one the call
    holds, or touches none. -/
theorem tokens_cases (env : Env) (hs : ph.Sends o) (w : World) :
    (o = .nowV7 ∧ ¬ ph.stage.Over) ∨
    (∃ b, ph.Holds b ∧ o = .sql (.updateCtag (syncTokenOf b) (syncTokenOf b) ph.write.calendarId)) ∨
    ((exec env o w).2.db.calendars = w.db.calendars ∧ w.drawn ≤ (exec env o w).2.drawn ∧
      ∀ b, (ph.next o (exec env o w).1).Holds b → ph.Holds b) := by
  have keep : ∀ {st : Stage}, ph.stage = st → ¬ st.Over → ∀ b, ph.v7 = some b → ph.Holds b :=
    fun h1 h2 b hb => ⟨hb, by rwa [h1]⟩
  cases hs with
  | check etag hs =>
    exact Or.inr (Or.inr ⟨rfl, le_refl _, fun b hb => keep hs (by simp [Stage.Over]) b hb.1⟩)
  | look hs =>
    exact Or.inr (Or.inr ⟨rfl, le_refl _, fun b hb => keep hs (by simp [Stage.Over]) b hb.1⟩)
  | etag hs hv =>
    refine Or.inr (Or.inr ⟨rfl, Nat.le_succ _, fun b hb => ⟨hb.1, ?_⟩⟩)
    rcases hs with h | h <;> rw [h] <;> simp [Stage.Over]
  | uuid hs =>
    refine Or.inl ⟨rfl, ?_⟩
    rcases hs with h | h | h | h <;> rw [h] <;> simp [Stage.Over]
  | update v icalData fields hs hw hv =>
    exact Or.inr (Or.inr ⟨rfl, le_refl _, fun b hb => keep hs (by simp [Stage.Over]) b hb.1⟩)
  | insert v icalData fields row hs =>
    refine Or.inr (Or.inr ⟨?_, le_refl _, fun b hb => keep hs (by simp [Stage.Over]) b hb.1⟩)
    exact Tables.calendars_insertObject _
  | remove hs hw =>
    exact Or.inr (Or.inr ⟨rfl, le_refl _, fun b hb => keep hs (by simp [Stage.Over]) b hb.1⟩)
  | log type token hs ht =>
    refine Or.inr (Or.inr ⟨?_, le_refl _, fun b hb => keep hs (by simp [Stage.Over]) b hb.1⟩)
    exact Tables.calendars_insertChange _ _ _ _
  | bump b hs hv => exact Or.inr (Or.inl ⟨b, keep hs (by simp [Stage.Over]) b hv, rfl⟩)
  | reread hs =>
    refine Or.inr (Or.inr ⟨rfl, le_refl _, fun b hb => absurd ?_ hb.2⟩)
    rw [Phase.next_select, hs]
    cases w.db.objectByUid ph.write.calendarId ph.write.uid <;> simp [Stage.afterSelect, Stage.Over]

/-- The tokens in the calendar rows after a bump. -/
theorem ctag_updateCtag {b calendarId : String} {r : Calendar}
    (hr : r ∈ (w.after (.updateCtag (syncTokenOf b) (syncTokenOf b) calendarId)).db.calendars) :
    r.ctag = syncTokenOf b ∨ ∃ r' ∈ w.db.calendars, r.ctag = r'.ctag := by
  obtain ⟨r', hr', rfl⟩ := List.mem_map.mp hr
  split
  · exact Or.inl rfl
  · exact Or.inr ⟨r', hr', rfl⟩

theorem TokenInv.step (hinj : Function.Injective env.uuid) (hI : TokenInv env w phs)
    (hph : phs[i]? = some ph) (hs : ph.Sends o) :
    TokenInv env (exec env o w).2 (phs.set i (ph.next o (exec env o w).1)) := by
  rcases tokens_cases env hs w with ⟨rfl, hover⟩ | ⟨b, hb, rfl⟩ | ⟨hcal, hdrawn, hkeep⟩
  · -- a new token, not held by any other call and in no row
    have hnew : ∀ b, (ph.next .nowV7 (exec env .nowV7 w).1).Holds b → b = env.uuid w.drawn :=
      fun b hb => (Option.some.inj hb.1).symm
    have hother : ∀ (j : Nat) ph₁, phs[j]? = some ph₁ → ¬ ph₁.Holds (env.uuid w.drawn) := by
      intro j ph₁ hj hh
      obtain ⟨n, hn, he⟩ := hI.drawn j ph₁ _ hj hh
      have := hinj he
      omega
    refine ⟨fun n hn => hI.fresh n (by exact Nat.le_of_succ_le hn), ?_, ?_, ?_⟩
    · intro j ph₁ b hj hb
      rcases getElem?_set_cases hj with ⟨rfl, rfl⟩ | ⟨-, hj⟩
      · exact ⟨w.drawn, Nat.lt_succ_self _, hnew b hb⟩
      · obtain ⟨n, hn, he⟩ := hI.drawn j ph₁ b hj hb
        exact ⟨n, Nat.lt_succ_of_lt hn, he⟩
    · intro j ph₁ b hj hb r hr
      rcases getElem?_set_cases hj with ⟨rfl, rfl⟩ | ⟨-, hj⟩
      · rw [hnew b hb]
        exact hI.fresh w.drawn (le_refl _) r hr
      · exact hI.unwritten j ph₁ b hj hb r hr
    · intro j k ph₁ ph₂ b hjk hj hk h1 h2
      rcases getElem?_set_cases hj with ⟨rfl, rfl⟩ | ⟨-, hj'⟩
      · rcases getElem?_set_cases hk with ⟨rfl, rfl⟩ | ⟨-, hk'⟩
        · exact hjk rfl
        · rw [hnew b h1] at h2
          exact hother k ph₂ hk' h2
      · rcases getElem?_set_cases hk with ⟨rfl, rfl⟩ | ⟨-, hk'⟩
        · rw [hnew b h2] at h1
          exact hother j ph₁ hj' h1
        · exact hI.distinct j k ph₁ ph₂ b hjk hj' hk' h1 h2
  · -- the call writes the token it holds and holds it no longer
    have hgone : ∀ b', ¬ (ph.next (.sql (.updateCtag (syncTokenOf b) (syncTokenOf b)
        ph.write.calendarId)) (exec env (.sql (.updateCtag (syncTokenOf b) (syncTokenOf b)
        ph.write.calendarId)) w).1).Holds b' := fun b' h => h.2 (Or.inr (Or.inl rfl))
    obtain ⟨m, hm, hbm⟩ := hI.drawn i ph b hph hb
    refine ⟨?_, ?_, ?_, ?_⟩
    · intro n hn r hr
      rcases ctag_updateCtag hr with h | ⟨r', hr', h⟩
      · rw [h]
        intro he
        have hinj' := hinj (hbm.symm.trans (syncTokenOf_inj he))
        have : w.drawn ≤ n := hn
        omega
      · rw [h]
        exact hI.fresh n hn r' hr'
    · intro j ph₁ b' hj hb'
      rcases getElem?_set_cases hj with ⟨rfl, rfl⟩ | ⟨-, hj⟩
      · exact absurd hb' (hgone b')
      · exact hI.drawn j ph₁ b' hj hb'
    · intro j ph₁ b' hj hb' r hr
      rcases getElem?_set_cases hj with ⟨rfl, rfl⟩ | ⟨hij, hj⟩
      · exact absurd hb' (hgone b')
      · rcases ctag_updateCtag hr with h | ⟨r', hr', h⟩
        · rw [h]
          intro he
          rw [syncTokenOf_inj he] at hb
          exact hI.distinct i j ph ph₁ b' (Ne.symm hij) hph hj hb hb'
        · rw [h]
          exact hI.unwritten j ph₁ b' hj hb' r' hr'
    · intro j k ph₁ ph₂ b' hjk hj hk h1 h2
      rcases getElem?_set_cases hj with ⟨rfl, rfl⟩ | ⟨-, hj⟩
      · exact hgone b' h1
      · rcases getElem?_set_cases hk with ⟨rfl, rfl⟩ | ⟨-, hk⟩
        · exact hgone b' h2
        · exact hI.distinct j k ph₁ ph₂ b' hjk hj hk h1 h2
  · -- the phases may only lose tokens
    have hback : ∀ (j : Nat) ph₁ b, (phs.set i (ph.next o (exec env o w).1))[j]? = some ph₁ →
        ph₁.Holds b → ∃ ph₂, phs[j]? = some ph₂ ∧ ph₂.Holds b := by
      intro j ph₁ b hj hb
      rcases getElem?_set_cases hj with ⟨rfl, rfl⟩ | ⟨-, hj⟩
      · exact ⟨ph, hph, hkeep b hb⟩
      · exact ⟨ph₁, hj, hb⟩
    refine ⟨?_, ?_, ?_, ?_⟩
    · intro n hn r hr
      rw [hcal] at hr
      exact hI.fresh n (le_trans hdrawn hn) r hr
    · intro j ph₁ b hj hb
      obtain ⟨ph₂, hj', hb'⟩ := hback j ph₁ b hj hb
      obtain ⟨n, hn, he⟩ := hI.drawn j ph₂ b hj' hb'
      exact ⟨n, lt_of_lt_of_le hn hdrawn, he⟩
    · intro j ph₁ b hj hb r hr
      obtain ⟨ph₂, hj', hb'⟩ := hback j ph₁ b hj hb
      rw [hcal] at hr
      exact hI.unwritten j ph₂ b hj' hb' r hr
    · intro j k ph₁ ph₂ b hjk hj hk h1 h2
      obtain ⟨ph₃, hj', h1'⟩ := hback j ph₁ b hj h1
      obtain ⟨ph₄, hk', h2'⟩ := hback k ph₂ b hk h2
      exact hI.distinct j k ph₃ ph₄ b hjk hj' hk' h1' h2'

/-- A token in a row is spent. -/
theorem TokenInv.spent (hI : TokenInv env w phs) {r : Calendar} (hr : r ∈ w.db.calendars) :
    Spent env r.ctag w phs :=
  ⟨fun n hn => hI.fresh n hn r hr, fun i ph b hi hb => hI.unwritten i ph b hi hb r hr⟩

theorem Spent.step {c : String} (hI : Spent env c w phs) (hph : phs[i]? = some ph)
    (hs : ph.Sends o) : Spent env c (exec env o w).2 (phs.set i (ph.next o (exec env o w).1)) := by
  rcases tokens_cases env hs w with ⟨rfl, hover⟩ | ⟨b, hb, rfl⟩ | ⟨hcal, hdrawn, hkeep⟩
  · refine ⟨fun n hn => hI.future n (Nat.le_of_succ_le hn), fun j ph₁ b hj hb => ?_⟩
    rcases getElem?_set_cases hj with ⟨rfl, rfl⟩ | ⟨-, hj⟩
    · rw [← Option.some.inj hb.1]
      exact hI.future w.drawn (le_refl _)
    · exact hI.held j ph₁ b hj hb
  · refine ⟨hI.future, fun j ph₁ b' hj hb' => ?_⟩
    rcases getElem?_set_cases hj with ⟨rfl, rfl⟩ | ⟨-, hj⟩
    · exact absurd (Or.inr (Or.inl rfl)) hb'.2
    · exact hI.held j ph₁ b' hj hb'
  · refine ⟨fun n hn => hI.future n (le_trans hdrawn hn), fun j ph₁ b hj hb => ?_⟩
    rcases getElem?_set_cases hj with ⟨rfl, rfl⟩ | ⟨-, hj⟩
    · exact hI.held j ph b hph (hkeep b hb)
    · exact hI.held j ph₁ b hj hb

/-- The calendar of a call that has found or changed a row exists. -/
def Placed (w : World) (phs : List Phase) : Prop :=
  ∀ (i : Nat) ph, phs[i]? = some ph → ph.Unlogged → ph.write.calendarId ∈ w.db.calendarIds

/-- No operation of a call removes a calendar. -/
theorem calendarIds_step (hs : ph.Sends o) :
    (exec env o w).2.db.calendarIds = w.db.calendarIds := by
  cases hs with
  | insert => exact congrArg (List.map _) (Tables.calendars_insertObject _)
  | log => exact congrArg (List.map _) (Tables.calendars_insertChange _ _ _ _)
  | bump => exact Tables.calendarIds_updateCtag ..
  | _ => rfl

theorem Placed.step (hI : Placed w phs) (hph : phs[i]? = some ph) (hs : ph.Sends o) :
    Placed (exec env o w).2 (phs.set i (ph.next o (exec env o w).1)) := by
  intro j ph₁ hj hu
  rw [calendarIds_step hs]
  rcases getElem?_set_cases hj with ⟨rfl, rfl⟩ | ⟨-, hj⟩
  · rw [Phase.next_write]
    cases hs with
    | check etag hs =>
      unfold Phase.Unlogged at hu
      rw [Phase.next_select, hs] at hu
      cases ho : w.db.objectByUid ph.write.calendarId ph.write.uid with
      | none => simp [ho, Stage.afterSelect] at hu
      | some o => by_cases he : o.etag = etag <;> simp [ho, Stage.afterSelect, he] at hu
    | look hs =>
      unfold Phase.Unlogged at hu
      rw [Phase.next_select, hs] at hu
      cases ho : w.db.objectByUid ph.write.calendarId ph.write.uid with
      | none => simp [ho, Stage.afterSelect] at hu
      | some o => exact w.db.ok.calendar_of_object ho
    | etag => exact hI j ph hph hu
    | uuid => exact hI j ph hph hu
    | update v icalData fields hs => exact hI j ph hph (Or.inl hs)
    | insert v icalData fields row hs hw hv hc =>
      by_cases ha : w.db.Accepts row
      · exact hc ▸ ha.calendar
      · obtain ⟨e, he⟩ := Tables.answer_insertObject_refused ha
        rw [exec_sql, show w.answer (.insertObject row) = _ from he] at hu
        rcases hu with h | h <;> cases h
    | remove hs hw =>
      rw [exec_sql, show w.answer (.deleteObject ph.write.calendarId ph.write.uid) =
        .ok (w.db.rowsOf ph.write.calendarId ph.write.uid) from rfl] at hu
      cases ho : w.db.objectByUid ph.write.calendarId ph.write.uid with
      | none =>
        rw [Tables.rowsOf_eq_zero.mpr ho] at hu
        rcases hu with h | h <;> cases h
      | some o => exact w.db.ok.calendar_of_object ho
    | log type token hs ht => exact hI j ph hph (Or.inr hs)
    | bump => rcases hu with h | h <;> cases h
    | reread hs =>
      unfold Phase.Unlogged at hu
      rw [Phase.next_select, hs] at hu
      cases ho : w.db.objectByUid ph.write.calendarId ph.write.uid <;>
        simp [ho, Stage.afterSelect] at hu
  · exact hI j ph₁ hj hu

/-- A step that leaves the calendar row alone, and leaves the objects alone or marks the call
    dirty. -/
theorem Detects.frame {calendarId c : String} {os : List CalendarObject} {w' : World}
    {ph' : Phase} (hD : Detects calendarId c os w phs) (hph : phs[i]? = some ph)
    (hcal : w'.db.calendarById calendarId = w.db.calendarById calendarId)
    (hobj : w'.db.objectsOf calendarId = w.db.objectsOf calendarId ∨ ph'.Dirty calendarId)
    (hdirty : ph.Dirty calendarId → ph'.Dirty calendarId) :
    Detects calendarId c os w' (phs.set i ph') := by
  have hlt : i < phs.length := (List.getElem?_eq_some_iff.mp hph).1
  have hself : (phs.set i ph')[i]? = some ph' := List.getElem?_set_self hlt
  rcases hD with h | h | ⟨j, ph₁, hj, hd⟩
  · exact Or.inl fun r hr => h r (hcal ▸ hr)
  · rcases hobj with h' | h'
    · exact Or.inr (Or.inl (h'.trans h))
    · exact Or.inr (Or.inr ⟨i, ph', hself, h'⟩)
  · by_cases hij : j = i
    · subst hij
      obtain rfl := Option.some.inj (hph.symm.trans hj)
      exact Or.inr (Or.inr ⟨j, ph', hself, hdirty hd⟩)
    · exact Or.inr (Or.inr ⟨j, ph₁, by rw [List.getElem?_set_ne (Ne.symm hij), hj], hd⟩)

theorem Detects.step {calendarId c : String} {os : List CalendarObject}
    (hD : Detects calendarId c os w phs) (hspent : Spent env c w phs) (hplaced : Placed w phs)
    (hph : phs[i]? = some ph) (hs : ph.Sends o) :
    Detects calendarId c os (exec env o w).2 (phs.set i (ph.next o (exec env o w).1)) := by
  have clean : ∀ {st : Stage}, ph.stage = st → st ≠ .wrote → st ≠ .logged →
      ¬ ph.Dirty calendarId := by
    rintro st h1 h2 h3 ⟨-, h | h⟩
    · exact h2 (h1.symm.trans h)
    · exact h3 (h1.symm.trans h)
  cases hs with
  | check etag hs =>
    exact hD.frame hph rfl (Or.inl rfl) fun h => absurd h (clean hs (by simp) (by simp))
  | look hs =>
    exact hD.frame hph rfl (Or.inl rfl) fun h => absurd h (clean hs (by simp) (by simp))
  | etag => exact hD.frame hph rfl (Or.inl rfl) fun h => h
  | uuid => exact hD.frame hph rfl (Or.inl rfl) fun h => h
  | update v icalData fields hs hw hv =>
    refine hD.frame hph rfl ?_ fun h => absurd h (clean hs (by simp) (by simp))
    by_cases hk : ph.write.calendarId = calendarId
    · exact Or.inr ⟨hk, Or.inl rfl⟩
    · exact Or.inl (Tables.objectsOf_updateObject _ _ _ _ hk)
  | insert v icalData fields row hs hw hv hc =>
    refine hD.frame hph ?_ ?_ fun h => absurd h (clean hs (by simp) (by simp))
    · exact congrArg (List.find? _) (Tables.calendars_insertObject _)
    · by_cases hk : ph.write.calendarId = calendarId
      · by_cases ha : w.db.Accepts row
        · refine Or.inr ⟨hk, Or.inl ?_⟩
          rw [exec_sql, show w.answer (.insertObject row) = _ from
            Tables.answer_insertObject_accepted ha]
          rfl
        · refine Or.inl ?_
          rw [exec_sql, World.after_tables, Tables.after_insertObject_refused ha]
      · exact Or.inl (Tables.objectsOf_insertObject fun h => hk (hc.symm.trans h))
  | remove hs hw =>
    refine hD.frame hph rfl ?_ fun h => absurd h (clean hs (by simp) (by simp))
    by_cases hk : ph.write.calendarId = calendarId
    · cases ho : w.db.objectByUid ph.write.calendarId ph.write.uid with
      | none =>
        exact Or.inl (congrArg (List.filter _) (Tables.objects_deleteObject_none ho))
      | some o =>
        refine Or.inr ⟨hk, Or.inl ?_⟩
        have hrows : w.db.rowsOf ph.write.calendarId ph.write.uid ≠ 0 := by
          rw [Ne, Tables.rowsOf_eq_zero, ho]
          simp
        exact if_neg hrows
    · exact Or.inl (Tables.objectsOf_deleteObject _ hk)
  | log type token hs ht =>
    have ha : w.answer (.insertChange ph.write.calendarId ph.write.uid type token) = .ok 1 :=
      Tables.answer_insertChange (hplaced i ph hph (Or.inr hs))
    refine hD.frame hph ?_ (Or.inl ?_) fun h => ?_
    · exact congrArg (List.find? _) (Tables.calendars_insertChange _ _ _ _)
    · exact congrArg (List.filter _) (Tables.calendarObjects_insertChange _ _ _ _)
    · rw [exec_sql, ha]
      exact ⟨h.1, Or.inr rfl⟩
  | bump b hs hv =>
    by_cases hk : ph.write.calendarId = calendarId
    · -- the ctag moves on: the token is not the one the client has seen
      refine Or.inl fun r hr => ?_
      rw [exec_sql, World.after_tables, Tables.calendarById_updateCtag, if_pos hk.symm] at hr
      obtain ⟨r', -, rfl⟩ := Option.map_eq_some_iff.mp hr
      exact Ne.symm (hspent.held i ph b hph ⟨hv, by rw [hs]; simp [Stage.Over]⟩)
    · refine hD.frame hph ?_ (Or.inl rfl) fun h => absurd h.1 hk
      rw [exec_sql, World.after_tables, Tables.calendarById_updateCtag, if_neg (Ne.symm hk)]
  | reread hs =>
    exact hD.frame hph rfl (Or.inl rfl) fun h => absurd h (clean hs (by simp) (by simp))

end

/-! ## Whole runs -/

section

variable {env : Env} {xs : List ObjectWrite}

/-- An invariant of the calls' operations holds after every schedule. -/
theorem calls_inv {I : World → List Phase → Prop}
    (hstep : ∀ w phs (i : Nat) ph o, I w phs → phs[i]? = some ph → ph.Sends o →
      I (exec env o w).2 (phs.set i (ph.next o (exec env o w).1)))
    {p : Pool World Op Op.Resp (Except AppError Unit)}
    (hc : (callOutline env).Covers (xs.map Phase.start) p)
    (hI : I p.state (callPhases (xs.map Phase.start) p)) (sched : List Nat) :
    (callOutline env).Covers (xs.map Phase.start) (p.exec (exec env) sched) ∧
      I (p.exec (exec env) sched).state
        (callPhases (xs.map Phase.start) (p.exec (exec env) sched)) :=
  (callOutline env).exec_inv (xs.map Phase.start) I (fun _ _ => True)
    (fun _ _ _ _ _ _ => trivial)
    (fun p i ph _ o hI hph _ _ hs _ => hstep p.state _ i ph o hI hph hs) sched p hc hI
    (Pool.Along.of_forall (fun _ _ _ => trivial) p)

end

/-- **The ctag detects every change.** Writers run in any interleaving. A client reads the row
    of a calendar, later its objects, later the row again when no call is in flight. If both
    rows have the same ctag, the objects are the ones it read. -/
theorem ctag_detects_changes (env : Env) (hfresh : Function.Injective env.uuid) (w : World)
    (hstart : w.FreshTokens env) (xs : List ObjectWrite) (s₁ s₂ s₃ : List Nat)
    (p₁ p₂ p₃ : Pool World Op Op.Resp (Except AppError Unit))
    (h₁ : p₁ = (writePool w xs).exec (exec env) s₁) (h₂ : p₂ = p₁.exec (exec env) s₂)
    (h₃ : p₃ = p₂.exec (exec env) s₃) (calendarId : String) (r₁ r₃ : Calendar)
    (os : List CalendarObject)
    (hrow : p₁.state.answer (.selectCalendarById calendarId) = .ok (some r₁))
    (hlist : p₂.state.answer (.selectObjects calendarId) = .ok os) (hquiet : p₃.Quiet)
    (hrow' : p₃.state.answer (.selectCalendarById calendarId) = .ok (some r₃))
    (hctag : r₃.ctag = r₁.ctag) :
    p₃.state.answer (.selectObjects calendarId) = .ok os := by
  have hready : ∀ (i : Nat) ph, (xs.map Phase.start)[i]? = some ph →
      ph.stage = .ready ∧ ph.v7 = none := by
    intro i ph hi
    rw [List.getElem?_map, Option.map_eq_some_iff] at hi
    obtain ⟨x, -, rfl⟩ := hi
    exact ⟨rfl, rfl⟩
  have hplaced : Placed w (xs.map Phase.start) := by
    rintro i ph hi (h | h) <;> · rw [(hready i ph hi).1] at h; cases h
  have htokens : TokenInv env w (xs.map Phase.start) := by
    have hnone : ∀ (i : Nat) ph b, (xs.map Phase.start)[i]? = some ph → ¬ ph.Holds b := by
      intro i ph b hi hb
      have := (hready i ph hi).2.symm.trans hb.1
      cases this
    exact ⟨hstart, fun i ph b hi hb => absurd hb (hnone i ph b hi),
      fun i ph b hi hb => absurd hb (hnone i ph b hi),
      fun i j ph ph' b _ hi _ hb => absurd hb (hnone i ph b hi)⟩
  -- up to the first read
  obtain ⟨hc₁, ht₁, hp₁⟩ := calls_inv (I := fun w phs => TokenInv env w phs ∧ Placed w phs)
    (fun w phs i ph o hI hph hs => ⟨hI.1.step hfresh hph hs, hI.2.step hph hs⟩)
    (callOutline_covers env w xs)
    (by
      rw [show callPhases (xs.map Phase.start) (writePool w xs) = _ from
        callOutline_start env w xs]
      exact ⟨htokens, hplaced⟩) s₁
  rw [← h₁] at hc₁ ht₁ hp₁
  have hr₁ : p₁.state.db.calendarById calendarId = some r₁ := Except.ok.inj hrow
  have hspent := ht₁.spent (List.mem_of_find?_eq_some hr₁)
  -- from the first read to the second
  obtain ⟨hc₂, hs₂, hp₂⟩ := calls_inv (I := fun w phs => Spent env r₁.ctag w phs ∧ Placed w phs)
    (fun w phs i ph o hI hph hs => ⟨hI.1.step hph hs, hI.2.step hph hs⟩) hc₁ ⟨hspent, hp₁⟩ s₂
  rw [← h₂] at hc₂ hs₂ hp₂
  -- from the second read on
  obtain ⟨hc₃, -, -, hD⟩ := calls_inv (I := fun w phs => Spent env r₁.ctag w phs ∧
      Placed w phs ∧ Detects calendarId r₁.ctag (p₂.state.db.objectsOf calendarId) w phs)
    (fun w phs i ph o hI hph hs => ⟨hI.1.step hph hs, hI.2.1.step hph hs,
      hI.2.2.step hI.1 hI.2.1 hph hs⟩) hc₂ ⟨hs₂, hp₂, Or.inr (Or.inl rfl)⟩ s₃
  rw [← h₃] at hc₃ hD
  rcases hD with h | h | ⟨i, ph, hi, hd⟩
  · exact absurd hctag (h r₃ (Except.ok.inj hrow'))
  · refine Eq.trans ?_ hlist
    show Except.ok (orderByDtstart _) = Except.ok (orderByDtstart _)
    rw [h]
  · rcases quiet_stage env hc₃ hquiet hi with hst | hst
    · rcases hd.2 with h | h <;> · rw [hst] at h; cases h
    · rcases hd.2 with h | h <;> · rw [h] at hst; simp [Stage.Over] at hst

theorem aliceWorld_freshTokens : aliceWorld.FreshTokens countingEnv := by
  intro n hn r hr he
  obtain rfl := List.mem_singleton.mp hr
  have h0 : syncTokenOf (countingEnv.uuid 0) = syncTokenOf (countingEnv.uuid n) := he
  have := countingEnv_uuid_injective (syncTokenOf_inj h0)
  have hn' : 8 ≤ n := hn
  omega

/-- The row of `work` after the meeting has been stored. -/
def workAfterMeeting : Calendar :=
  ⟨"work", "alice-id", "Work", "", "#0E61B9", "UTC", syncTokenOf (countingEnv.uuid 11),
    syncTokenOf (countingEnv.uuid 11)⟩

/-- The stored meeting. -/
def meetingRow : CalendarObject :=
  { id := countingEnv.uuid 10, calendarId := "work", uid := "meeting",
    etag := etagOf (countingEnv.uuid 8), icalData := "BEGIN:VCALENDAR",
    toObjectFields := ⟨"VEVENT", none, none, none⟩ }

theorem ctag_detects_changes_meeting :
    (((writePool aliceWorld [meeting]).exec (exec countingEnv) (List.replicate 9 0)).exec
      (exec countingEnv) [0]).state.answer (.selectObjects "work") = .ok [meetingRow] :=
  ctag_detects_changes countingEnv countingEnv_uuid_injective aliceWorld aliceWorld_freshTokens
    [meeting] (List.replicate 9 0) [] [0]
    ((writePool aliceWorld [meeting]).exec (exec countingEnv) (List.replicate 9 0))
    ((writePool aliceWorld [meeting]).exec (exec countingEnv) (List.replicate 9 0))
    (((writePool aliceWorld [meeting]).exec (exec countingEnv) (List.replicate 9 0)).exec
      (exec countingEnv) [0]) rfl rfl rfl "work" workAfterMeeting workAfterMeeting [meetingRow]
    rfl rfl (Pool.quiet_of_all (by decide)) rfl rfl

end CaldavMcp
