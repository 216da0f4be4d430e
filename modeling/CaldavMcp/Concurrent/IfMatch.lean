/-
  If-Match under concurrency.

  Several PUTs to one object carry the same etag. Each compares it with the stored one, and
  later, in other statements, writes the row. Two PUTs that compare before either has written
  both pass, and the second write is a lost update.

  `CheckedApart` is the condition on a step that rules this out: no etag is compared while
  another PUT has passed its own comparison and has not written its row. `MatchInv` is what
  such steps keep: at most one PUT is past the comparison, and once it has written, the stored
  etag is the one it drew, which the others do not carry.
-/
import CaldavMcp.Concurrent.Requests

namespace CaldavMcp

open Program

/-- The If-Match comparison is next. -/
def Stage.isChecking : Stage → Bool
  | checking _ => true
  | _ => false

namespace Phase

/-- The PUT has passed its comparison and has not written its row. -/
def Passed (ph : Phase) : Prop :=
  ph.stage = .ready ∨ ph.stage = .found ∨ ph.stage = .absent

instance (ph : Phase) : Decidable ph.Passed := inferInstanceAs (Decidable (_ ∨ _ ∨ _))

/-- The PUT has written its row. -/
def Written (ph : Phase) : Prop :=
  ph.stage = .wrote ∨ ph.stage = .logged ∨ ph.stage = .bumped ∨ ph.stage = .finished

end Phase

/-- The operation stores a row in `calendar_objects`. -/
def Op.StoresObject : Op → Prop
  | .sql (.insertObject _) | .sql (.updateObject ..) => True
  | _ => False

/-- The step of request `i` does not compare an etag while another PUT has passed its
    comparison and has not written its row. -/
def CheckedApart (calendarId : String) (qs : List ObjectRequest)
    (p : Pool World Op Op.Resp Reply) (i : Nat) : Prop :=
  ∀ ph ∈ (requestPhases calendarId qs p)[i]?, ph.stage.isChecking →
    ∀ j < qs.length, j ≠ i → ∀ ph' ∈ (requestPhases calendarId qs p)[j]?, ¬ ph'.Passed

instance (calendarId : String) (qs : List ObjectRequest) (p : Pool World Op Op.Resp Reply)
    (i : Nat) : Decidable (CheckedApart calendarId qs p i) := by
  unfold CheckedApart; infer_instance

/-- At most one request succeeds. Every other one that is answered is answered 412, and has
    stored nothing. -/
structure NoLostUpdate (p : Pool World Op Op.Resp Reply) : Prop where
  once : ∀ (i j : Nat) t t' r r', p.threads[i]? = some t → p.threads[j]? = some t' →
    t.result? = some r → t'.result? = some r' → r.Success → r'.Success → i = j
  others : ∀ t ∈ p.threads, ∀ r, t.result? = some r → ¬ r.Success →
    r.status? = some 412 ∧ ∀ e ∈ t.hist, ¬ e.1.StoresObject

/-! ## The invariant -/

/-- The PUT is past its comparison. -/
def Phase.Active (ph : Phase) : Prop := ph.stage = .ready ∨ ph.stage = .found ∨ ph.Written

/-- What holds of each PUT by itself: it is on the object, the etags it draws are new, and it
    is before the comparison, turned away by it, or past it with the row in place. -/
structure PutOn (env : Env) (calendarId uid etag : String) (d₀ : Nat) (ph : Phase) : Prop where
  on : ph.On calendarId uid
  put : ¬ ph.IsDelete
  drew : ∀ v, ph.v4 = some v → ∃ n ≥ d₀, v = env.uuid n
  stage : ph.stage = .checking etag ∨ ph.stage = .rejected ∨ ph.Active

/-- At most one PUT is past the comparison. While one is, the row exists; once it has
    written, the row has the etag it drew. -/
structure MatchInv (env : Env) (calendarId uid etag : String) (d₀ : Nat) (w : World)
    (phs : List Phase) : Prop where
  drawn : d₀ ≤ w.drawn
  puts : ∀ (i : Nat) ph, phs[i]? = some ph → PutOn env calendarId uid etag d₀ ph
  unique : ∀ (i j : Nat) ph ph', phs[i]? = some ph → phs[j]? = some ph' → ph.Active →
    ph'.Active → i = j
  row : ∀ (i : Nat) ph, phs[i]? = some ph → ph.Active →
    (w.db.objectByUid calendarId uid).isSome
  own : ∀ (i : Nat) ph, phs[i]? = some ph → ph.Written →
    ∃ v, ph.v4 = some v ∧ ∀ o, w.db.objectByUid calendarId uid = some o → o.etag = etagOf v

section

variable {env : Env} {calendarId uid etag : String} {d₀ : Nat} {w w' : World}
  {phs : List Phase} {i : Nat} {ph ph' : Phase} {o : Op}

/-- A step that leaves the row alone, of a PUT that does not get past the comparison by it. -/
theorem MatchInv.frame (hI : MatchInv env calendarId uid etag d₀ w phs)
    (hph : phs[i]? = some ph) (hdrawn : w.drawn ≤ w'.drawn)
    (hrow : w'.db.objectByUid calendarId uid = w.db.objectByUid calendarId uid)
    (hput : PutOn env calendarId uid etag d₀ ph') (hactive : ph'.Active → ph.Active)
    (hown : ph'.Written → ph.Written ∧ ph'.v4 = ph.v4) :
    MatchInv env calendarId uid etag d₀ w' (phs.set i ph') := by
  have hback : ∀ (j : Nat) ph₁, (phs.set i ph')[j]? = some ph₁ → ph₁.Active →
      ∃ ph₂, phs[j]? = some ph₂ ∧ ph₂.Active := by
    intro j ph₁ hj h
    rcases getElem?_set_cases hj with ⟨rfl, rfl⟩ | ⟨-, hj⟩
    · exact ⟨ph, hph, hactive h⟩
    · exact ⟨ph₁, hj, h⟩
  refine ⟨le_trans hI.drawn hdrawn, ?_, ?_, ?_, ?_⟩
  · intro j ph₁ hj
    rcases getElem?_set_cases hj with ⟨rfl, rfl⟩ | ⟨-, hj⟩
    · exact hput
    · exact hI.puts j ph₁ hj
  · intro j k ph₁ ph₂ hj hk h1 h2
    obtain ⟨ph₃, hj', h1'⟩ := hback j ph₁ hj h1
    obtain ⟨ph₄, hk', h2'⟩ := hback k ph₂ hk h2
    exact hI.unique j k ph₃ ph₄ hj' hk' h1' h2'
  · intro j ph₁ hj h1
    obtain ⟨ph₂, hj', h1'⟩ := hback j ph₁ hj h1
    rw [hrow]
    exact hI.row j ph₂ hj' h1'
  · intro j ph₁ hj h1
    rw [hrow]
    rcases getElem?_set_cases hj with ⟨rfl, rfl⟩ | ⟨-, hj⟩
    · obtain ⟨h, hv⟩ := hown h1
      rw [hv]
      exact hI.own j ph hph h
    · exact hI.own j ph₁ hj h1

/-- The comparison. If it passes, no other PUT is past it: one that has not written is ruled
    out by the guard, and one that has written has put another etag in the row. -/
theorem MatchInv.check (hfresh : ∀ n, d₀ ≤ n → etagOf (env.uuid n) ≠ etag)
    (hI : MatchInv env calendarId uid etag d₀ w phs) (hph : phs[i]? = some ph)
    {expected : String} (hs : ph.stage = .checking expected)
    (halone : ∀ j ph', j ≠ i → phs[j]? = some ph' → ¬ ph'.Passed) :
    MatchInv env calendarId uid etag d₀ w
      (phs.set i { ph with stage := ph.stage.afterSelect (w.db.objectByUid calendarId uid) }) := by
  have hp := hI.puts i ph hph
  obtain rfl : expected = etag := by
    rcases hp.stage with h | h | h | h | h | h | h | h <;> rw [hs] at h
    · exact Stage.checking.inj h
    all_goals cases h
  rw [hs]
  cases ho : w.db.objectByUid calendarId uid with
  | none =>
    refine hI.frame hph (le_refl _) rfl ⟨hp.on, hp.put, hp.drew, Or.inr (Or.inl rfl)⟩ ?_ ?_
    · rintro (h | h | h | h | h | h) <;> cases h
    · rintro (h | h | h | h) <;> cases h
  | some o =>
    have hnext : (Stage.checking expected).afterSelect (some o) =
      if o.etag = expected then .ready else .rejected := rfl
    rw [hnext]
    by_cases he : o.etag = expected
    · rw [if_pos he]
      have hnone : ∀ j ph₁, j ≠ i → phs[j]? = some ph₁ → ¬ ph₁.Active := by
        rintro j ph₁ hj hj' (h | h | h)
        · exact halone j ph₁ hj hj' (Or.inl h)
        · exact halone j ph₁ hj hj' (Or.inr (Or.inl h))
        · obtain ⟨v, hv, hrow⟩ := hI.own j ph₁ hj' h
          obtain ⟨n, hn, rfl⟩ := (hI.puts j ph₁ hj').drew v hv
          exact hfresh n hn ((hrow o ho).symm.trans he)
      refine ⟨hI.drawn, ?_, ?_, ?_, ?_⟩
      · intro j ph₁ hj
        rcases getElem?_set_cases hj with ⟨rfl, rfl⟩ | ⟨-, hj⟩
        · exact ⟨hp.on, hp.put, hp.drew, Or.inr (Or.inr (Or.inl rfl))⟩
        · exact hI.puts j ph₁ hj
      · intro j k ph₁ ph₂ hj hk h1 h2
        rcases getElem?_set_cases hj with ⟨rfl, -⟩ | ⟨hji, hj⟩
        · rcases getElem?_set_cases hk with ⟨rfl, -⟩ | ⟨hki, hk⟩
          · rfl
          · exact absurd h2 (hnone k ph₂ hki hk)
        · exact absurd h1 (hnone j ph₁ hji hj)
      · intro j ph₁ hj _
        rw [ho]
        rfl
      · intro j ph₁ hj h1
        rcases getElem?_set_cases hj with ⟨rfl, rfl⟩ | ⟨hji, hj⟩
        · rcases h1 with h | h | h | h <;> cases h
        · exact absurd (Or.inr (Or.inr h1)) (hnone j ph₁ hji hj)
    · rw [if_neg he]
      refine hI.frame hph (le_refl _) rfl ⟨hp.on, hp.put, hp.drew, Or.inr (Or.inl rfl)⟩ ?_ ?_
      · rintro (h | h | h | h | h | h) <;> cases h
      · rintro (h | h | h | h) <;> cases h

/-- The UPDATE: the row has the etag the PUT drew, and no other PUT is past its comparison. -/
theorem MatchInv.update (hI : MatchInv env calendarId uid etag d₀ w phs)
    (hph : phs[i]? = some ph) (hs : ph.stage = .found) {v : String} (hv : ph.v4 = some v)
    (icalData : String) (fields : ObjectFields) :
    MatchInv env calendarId uid etag d₀
      (w.after (.updateObject (etagOf v) icalData fields calendarId uid))
      (phs.set i { ph with stage := .wrote }) := by
  have hp := hI.puts i ph hph
  have hactive : ph.Active := Or.inr (Or.inl hs)
  have hrow := Tables.objectByUid_updateObject (t := w.db.toTables) (etagOf v) icalData fields
    calendarId uid calendarId uid
  rw [if_pos ⟨rfl, rfl⟩] at hrow
  refine ⟨hI.drawn, ?_, ?_, ?_, ?_⟩
  · intro j ph₁ hj
    rcases getElem?_set_cases hj with ⟨rfl, rfl⟩ | ⟨-, hj⟩
    · exact ⟨hp.on, hp.put, hp.drew, Or.inr (Or.inr (Or.inr (Or.inr (Or.inl rfl))))⟩
    · exact hI.puts j ph₁ hj
  · intro j k ph₁ ph₂ hj hk h1 h2
    have hself : ∀ (j : Nat) ph₁, (phs.set i { ph with stage := .wrote })[j]? = some ph₁ →
        ph₁.Active → j = i := by
      intro j ph₁ hj h
      rcases getElem?_set_cases hj with ⟨rfl, -⟩ | ⟨-, hj⟩
      · rfl
      · exact hI.unique j i ph₁ ph hj hph h hactive
    rw [hself j ph₁ hj h1, hself k ph₂ hk h2]
  · intro j ph₁ _ _
    rw [World.after_tables, hrow, Option.isSome_map]
    exact hI.row i ph hph hactive
  · intro j ph₁ hj h1
    rcases getElem?_set_cases hj with ⟨rfl, rfl⟩ | ⟨hji, hj⟩
    · refine ⟨v, hv, fun o ho => ?_⟩
      rw [World.after_tables, hrow] at ho
      obtain ⟨o', -, rfl⟩ := Option.map_eq_some_iff.mp ho
      rfl
    · exact absurd (hI.unique j i ph₁ ph hj hph (Or.inr (Or.inr h1)) hactive) hji

/-- Every operation of a PUT keeps the invariant, if it compares apart from the others. -/
theorem MatchInv.step (hfresh : ∀ n, d₀ ≤ n → etagOf (env.uuid n) ≠ etag)
    (hI : MatchInv env calendarId uid etag d₀ w phs) (hph : phs[i]? = some ph)
    (hsend : ph.Sends o)
    (halone : ∀ expected, ph.stage = .checking expected →
      ∀ j ph', j ≠ i → phs[j]? = some ph' → ¬ ph'.Passed) :
    MatchInv env calendarId uid etag d₀ (exec env o w).2
      (phs.set i (ph.next o (exec env o w).1)) := by
  have hp := hI.puts i ph hph
  obtain ⟨hc, hu⟩ := hp.on
  have hrow : ∀ {st : Stage}, ph.stage = st → st = .ready ∨ st = .found ∨ st = .wrote ∨
      st = .logged ∨ st = .bumped → ∃ o, w.db.objectByUid calendarId uid = some o := by
    intro st hs h
    refine Option.isSome_iff_exists.mp (hI.row i ph hph ?_)
    unfold Phase.Active Phase.Written
    rw [hs]
    tauto
  cases hsend with
  | check expected hs =>
    rw [hc, hu]
    exact hI.check hfresh hph hs (halone expected hs)
  | look hs =>
    obtain ⟨o, ho⟩ := hrow hs (Or.inl rfl)
    have hfound : (ph.next (.sql (.selectObjectByUid ph.write.calendarId ph.write.uid))
        (exec env (.sql (.selectObjectByUid ph.write.calendarId ph.write.uid)) w).1).stage =
        .found := by
      rw [Phase.next_select, hc, hu, ho, hs]
      rfl
    refine hI.frame hph (le_refl _) rfl ⟨hp.on, hp.put, hp.drew, ?_⟩ (fun _ => Or.inl hs) ?_
    · exact Or.inr (Or.inr (Or.inr (Or.inl hfound)))
    · rintro (h | h | h | h) <;> · rw [hfound] at h; cases h
  | etag hs hv =>
    refine hI.frame hph (Nat.le_succ _) rfl ⟨hp.on, hp.put, ?_, hp.stage⟩ (fun h => h) ?_
    · intro v hv
      exact ⟨w.drawn, hI.drawn, (Option.some.inj hv).symm⟩
    · rintro (h | h | h | h) <;> rcases hs with hs | hs <;>
        exact absurd (hs.symm.trans h) (by simp)
  | uuid hs =>
    exact hI.frame hph (Nat.le_succ _) rfl ⟨hp.on, hp.put, hp.drew, hp.stage⟩ (fun h => h)
      fun h => ⟨h, rfl⟩
  | update v icalData fields hs hw hv =>
    rw [hc, hu]
    exact hI.update hph hs hv icalData fields
  | insert v icalData fields row hs =>
    rcases hp.stage with h | h | h | h | h | h | h | h <;> · rw [hs] at h; cases h
  | remove hs hw => exact absurd hw hp.put
  | log type token hs ht =>
    obtain ⟨o, ho⟩ := hrow hs (Or.inr (Or.inr (Or.inl rfl)))
    have hcal : ph.write.calendarId ∈ w.db.calendarIds := hc ▸ w.db.ok.calendar_of_object ho
    have ha : w.answer (.insertChange ph.write.calendarId ph.write.uid type token) = .ok 1 :=
      Tables.answer_insertChange hcal
    rw [exec_sql, ha]
    refine hI.frame hph (le_refl _) ?_ ⟨hp.on, hp.put, hp.drew, ?_⟩ (fun _ => ?_) fun _ => ?_
    · exact congrArg (List.find? _) (Tables.calendarObjects_insertChange _ _ _ _)
    · exact Or.inr (Or.inr (Or.inr (Or.inr (Or.inr (Or.inl rfl)))))
    · exact Or.inr (Or.inr (Or.inl hs))
    · exact ⟨Or.inl hs, rfl⟩
  | bump b hs hv =>
    refine hI.frame hph (le_refl _) rfl ⟨hp.on, hp.put, hp.drew, ?_⟩ (fun _ => ?_) fun _ => ?_
    · exact Or.inr (Or.inr (Or.inr (Or.inr (Or.inr (Or.inr (Or.inl rfl))))))
    · exact Or.inr (Or.inr (Or.inr (Or.inl hs)))
    · exact ⟨Or.inr (Or.inl hs), rfl⟩
  | reread hs =>
    obtain ⟨o, ho⟩ := hrow hs (by simp)
    have hfinished : (ph.next (.sql (.selectObjectByUid ph.write.calendarId ph.write.uid))
        (exec env (.sql (.selectObjectByUid ph.write.calendarId ph.write.uid)) w).1).stage =
        .finished := by
      rw [Phase.next_select, hc, hu, ho, hs]
      rfl
    refine hI.frame hph (le_refl _) rfl ⟨hp.on, hp.put, hp.drew, ?_⟩ (fun _ => ?_) fun _ => ?_
    · exact Or.inr (Or.inr (Or.inr (Or.inr (Or.inr (Or.inr (Or.inr hfinished))))))
    · exact Or.inr (Or.inr (Or.inr (Or.inr (Or.inl hs))))
    · exact ⟨Or.inr (Or.inr (Or.inl hs)), rfl⟩

/-- A PUT that is turned away has stored nothing. -/
def Unstored (ph : Phase) (hist : List (Event Op Op.Resp)) : Prop :=
  ¬ ph.Written → ph.stage ≠ .failed → ∀ e ∈ hist, ¬ e.1.StoresObject

theorem Unstored.step (ph : Phase) (o : Op) (r : o.Resp) (hist : List (Event Op Op.Resp))
    (hsend : ph.Sends o) (hU : Unstored ph hist) : Unstored (ph.next o r) (⟨o, r⟩ :: hist) := by
  intro hw hf
  -- an operation that stores nothing, by a PUT that has stored nothing
  have keep : ¬ o.StoresObject → ¬ ph.Written → ph.stage ≠ .failed →
      ∀ e ∈ (⟨o, r⟩ :: hist : List (Event Op Op.Resp)), ¬ e.1.StoresObject := by
    intro h1 h2 h3 e he
    rcases List.mem_cons.mp he with rfl | he
    · exact h1
    · exact hU h2 h3 e he
  have early : ∀ {st : Stage}, ph.stage = st → (st = .ready ∨ ∃ etag, st = .checking etag) →
      ¬ ph.Written ∧ ph.stage ≠ .failed := by
    rintro st hs (rfl | ⟨etag, rfl⟩) <;> simp [Phase.Written, hs]
  cases hsend with
  | check etag hs => exact keep id (early hs (Or.inr ⟨etag, rfl⟩)).1 (early hs (Or.inr ⟨etag, rfl⟩)).2
  | look hs => exact keep id (early hs (Or.inl rfl)).1 (early hs (Or.inl rfl)).2
  | etag hs hv => exact keep id hw hf
  | uuid hs => exact keep id hw hf
  | update v icalData fields hs => 
    rcases r with e | n
    · exact absurd rfl hf
    · exact absurd (Or.inl rfl) hw
  | insert v icalData fields row hs =>
    rcases r with e | n
    · exact absurd rfl hf
    · exact absurd (Or.inl rfl) hw
  | remove hs => exact keep id (early hs (Or.inl rfl)).1 (early hs (Or.inl rfl)).2
  | log type token hs =>
    rcases r with e | n
    · exact absurd rfl hf
    · exact absurd (Or.inr (Or.inl rfl)) hw
  | bump b hs =>
    rcases r with e | n
    · exact absurd rfl hf
    · exact absurd (Or.inr (Or.inr (Or.inl rfl))) hw
  | reread hs =>
    rcases r with e | (_ | row)
    · exact absurd rfl hf
    · exact absurd (show ph.stage.afterSelect none = .failed by rw [hs]; rfl) hf
    · refine absurd (Or.inr (Or.inr (Or.inr ?_))) hw
      show ph.stage.afterSelect (some row) = .finished
      rw [hs]
      rfl

end

/-! ## Whole runs -/

/-- The invariant holds before the first statement. -/
theorem matchInv_start (env : Env) (w : World) {calendarId uid etag : String} (hetag : etag ≠ "*")
    {rs : List PutRequest} (hrs : ∀ r ∈ rs, r.uid = uid ∧ r.ifMatch = some etag) :
    MatchInv env calendarId uid etag w.drawn w
      ((rs.map ObjectRequest.put).map (ObjectRequest.start calendarId)) := by
  have hstart : ∀ (i : Nat) ph,
      ((rs.map ObjectRequest.put).map (ObjectRequest.start calendarId))[i]? = some ph →
      ph.On calendarId uid ∧ ¬ ph.IsDelete ∧ ph.stage = .checking etag ∧ ph.v4 = none := by
    intro i ph hi
    rw [List.map_map, List.getElem?_map, Option.map_eq_some_iff] at hi
    obtain ⟨r, hr, rfl⟩ := hi
    obtain ⟨hu, hm⟩ := hrs r (List.mem_of_getElem? hr)
    refine ⟨⟨rfl, hu⟩, nofun, ?_, rfl⟩
    show Stage.ofIfMatch r.ifMatch = _
    rw [hm]
    exact if_neg hetag
  have hactive : ∀ (i : Nat) ph,
      ((rs.map ObjectRequest.put).map (ObjectRequest.start calendarId))[i]? = some ph → ¬ ph.Active := by
    rintro i ph hi (h | h | h | h | h | h) <;>
      · rw [(hstart i ph hi).2.2.1] at h
        cases h
  refine ⟨le_refl _, fun i ph hi => ?_, fun i j ph ph' hi _ h => absurd h (hactive i ph hi),
    fun i ph hi h => absurd h (hactive i ph hi),
    fun i ph hi h => absurd (Or.inr (Or.inr h)) (hactive i ph hi)⟩
  obtain ⟨hon, hput, hs, hv⟩ := hstart i ph hi
  exact ⟨hon, hput, fun v h => absurd (hv.symm.trans h) (by simp), Or.inl hs⟩

/-- **No update is lost under If-Match**, in every run of PUTs to one object with the same
    etag that compare apart. -/
theorem ifMatch_loses_no_update (env : Env) (w : World) (calendarId uid etag : String)
    (hetag : etag ≠ "*") (hfresh : ∀ n, w.drawn ≤ n → etagOf (env.uuid n) ≠ etag)
    (rs : List PutRequest) (hrs : ∀ r ∈ rs, r.uid = uid ∧ r.ifMatch = some etag)
    (sched : List Nat)
    (hsteps : Pool.Along (exec env) (CheckedApart calendarId (rs.map .put))
      (requestPool w calendarId (rs.map .put)) sched) :
    NoLostUpdate ((requestPool w calendarId (rs.map .put)).exec (exec env) sched) := by
  obtain ⟨hc, hI, hL⟩ := @requests_inv env calendarId
    (MatchInv env calendarId uid etag w.drawn) Unstored
    (CheckedApart calendarId (rs.map .put)) (rs.map .put)
    (fun w' phs i ph hI hph hs _ o ho => by
      obtain ⟨v, hv, hrow⟩ := hI.own i ph hph (Or.inr (Or.inr (Or.inl hs)))
      obtain ⟨hc, hu⟩ := (hI.puts i ph hph).on
      rw [hc, hu] at ho
      exact ⟨v, hv, hrow o ho⟩)
    (fun p i ph t o hI hph _ _ hs hg => hI.step hfresh hph hs fun expected h j ph' hj hph' =>
      hg ph hph (by rw [h]; rfl) j (requestPhases_lt hph') hj ph' hph')
    Unstored.step _ (requestOutline_covers w (rs.map .put))
    (by rw [requestPhases_start]; exact matchInv_start env w hetag hrs)
    (fun i ph t _ ht _ _ e he => by rw [requestPool_hist ht] at he; cases he) sched hsteps
  -- what an answer tells: success past the comparison, or 412
  have hans : ∀ (i : Nat) t r,
      ((requestPool w calendarId (rs.map .put)).exec (exec env) sched).threads[i]? = some t →
      t.result? = some r → ∃ ph, (requestPhases calendarId (rs.map .put)
        ((requestPool w calendarId (rs.map .put)).exec (exec env) sched))[i]? = some ph ∧
      (ph.Active ∧ r.Success ∨ ph.stage = .rejected ∧ r.status? = some 412) := by
    intro i t r ht hr
    obtain ⟨ph₀, -, hph⟩ := hc.phase ht
    refine ⟨_, hph, ?_⟩
    have hp := hI.puts i _ hph
    cases hc.ends hph ht hr hp.put with
    | rejected _ hs hstatus => exact Or.inr ⟨hs, hstatus⟩
    | finished o v isNew hs hv he =>
      obtain ⟨n, -, rfl⟩ := hp.drew v hv
      refine Or.inl ⟨Or.inr (Or.inr (Or.inr (Or.inr (Or.inr hs)))), ?_⟩
      rw [putReply_ok isNew he (env.uuid_chars n)]
      exact ⟨_, rfl, by cases isNew <;> simp⟩
    | failed e hs =>
      rcases hp.stage with h | h | h | h | h | h | h | h <;> · rw [hs] at h; cases h
  have h412 : ∀ r : Reply, r.status? = some 412 → ¬ r.Success := by
    rintro r hr ⟨status, hs, hd⟩
    obtain rfl := Option.some.inj (hr.symm.trans hs)
    omega
  refine ⟨?_, ?_⟩
  · intro i j t t' r r' hi hj hr hr' hs hs'
    obtain ⟨ph, hph, ha | ⟨-, ha⟩⟩ := hans i t r hi hr
    · obtain ⟨ph', hph', ha' | ⟨-, ha'⟩⟩ := hans j t' r' hj hr'
      · exact hI.unique i j ph ph' hph hph' ha.1 ha'.1
      · exact absurd hs' (h412 r' ha')
    · exact absurd hs (h412 r ha)
  · intro t ht r hr hs
    obtain ⟨i, hi⟩ := List.mem_iff_getElem?.mp ht
    obtain ⟨ph, hph, ha | ⟨ha, hstatus⟩⟩ := hans i t r hi hr
    · exact absurd ha.2 hs
    · refine ⟨hstatus, hL i ph t hph hi ?_ ?_⟩
      · rintro (h | h | h | h) <;> · rw [ha] at h; cases h
      · rw [ha]; simp

/-- The database after the meeting has been stored. -/
def meetingWorld : World := (meeting.call.exec countingEnv aliceWorld).2

/-- A PUT of the meeting that expects the stored etag. -/
def putMeeting (icalData : String) (size : icalData.toUTF8.size ≤ 1024 * 1024) : PutRequest :=
  .ofText "meeting.ics" [("if-match", (etagOf (countingEnv.uuid 8)).toUTF8)] icalData size

theorem etag_fresh (n : Nat) (hn : meetingWorld.drawn ≤ n) :
    etagOf (countingEnv.uuid n) ≠ etagOf (countingEnv.uuid 8) := by
  intro h
  have hinj := countingEnv_uuid_injective (etagOf_inj h)
  have hd : meetingWorld.drawn = 12 := rfl
  omega

/-- Two PUTs of the meeting with the same etag. -/
def rivals : List PutRequest := [putMeeting "Monday" (by decide), putMeeting "Tuesday" (by decide)]

/-- The second PUT compares when the first has been answered. -/
theorem ifMatch_loses_no_update_rivals :
    NoLostUpdate ((requestPool meetingWorld "work" (rivals.map .put)).exec
      (exec countingEnv) (List.replicate 9 0 ++ [1])) :=
  ifMatch_loses_no_update countingEnv meetingWorld "work" "meeting" (etagOf (countingEnv.uuid 8))
    (by decide) etag_fresh rivals (by decide) (List.replicate 9 0 ++ [1])
    (by rw [requestPool_puts]; decide)

/-- Both PUTs compare before either writes. -/
def overwritten : List Nat := [0, 1] ++ List.replicate 8 0 ++ List.replicate 8 1

/-- Two PUTs with the same etag, and both answer 204. -/
theorem ifMatch_loses_an_update : ¬ ∀ (env : Env) (w : World) (calendarId uid etag : String),
    etag ≠ "*" → (∀ n, w.drawn ≤ n → etagOf (env.uuid n) ≠ etag) → ∀ rs : List PutRequest,
    (∀ r ∈ rs, r.uid = uid ∧ r.ifMatch = some etag) → ∀ sched : List Nat,
    NoLostUpdate ((requestPool w calendarId (rs.map .put)).exec (exec env) sched) := by
  intro h
  have hlost := h countingEnv meetingWorld "work" "meeting" (etagOf (countingEnv.uuid 8))
    (by decide) etag_fresh rivals (by decide) overwritten
  rw [requestPool_puts] at hlost
  have hanswers : ∀ i ∈ [0, 1], (((Pool.start meetingWorld (rivals.map fun r =>
      putObject "work" r.filename r.ifMatch r.icalData)).exec (exec countingEnv)
        overwritten).threads[i]?.bind (·.result?)).bind (·.status?) = some 204 := by decide
  have hsuccess : ∀ r : Reply, r.status? = some 204 → r.Success :=
    fun r hr => ⟨204, hr, by decide⟩
  obtain ⟨r, hr, hs⟩ := Option.bind_eq_some_iff.mp (hanswers 0 (by decide))
  obtain ⟨t, ht, hr⟩ := Option.bind_eq_some_iff.mp hr
  obtain ⟨r', hr', hs'⟩ := Option.bind_eq_some_iff.mp (hanswers 1 (by decide))
  obtain ⟨t', ht', hr'⟩ := Option.bind_eq_some_iff.mp hr'
  have := hlost.once 0 1 t t' r r' ht ht' hr hr' (hsuccess r hs) (hsuccess r' hs')
  omega

end CaldavMcp
