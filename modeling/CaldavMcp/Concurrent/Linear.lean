/-
  The server is one store.

  A request of either port is several statements, and the statements of many requests interleave.
  `server_linearizes`: every run is a sequential history of the machine of stores, in which
  each request has its actions at steps of its own. So a request that answers success has done
  what it asks for, once; one that is refused has changed nothing; GET and `get_event` show what
  was in the store at one moment between their start and their end.

  What a client relies on follows by arguments about stores alone. `read_sees_put`: whoever asks
  for an object after its PUT has succeeded is shown the body of the PUT, if nobody else was
  about to change that object. `Ask.Spares` says whose requests do not matter.
-/
import CaldavMcp.Mcp.Asks
import CaldavMcp.Concurrent.Versions

namespace CaldavMcp

open Program

/-- Every request does what it asks for. -/
theorem performs_program (lib : Lib) (request : ServerRequest) :
    Takes request.ask.Allows (fun answer actions => Performs request.ask answer actions) []
      (request.program lib) := by
  cases request with
  | dav route request => exact justified_bind (performs_handle lib route request) fun _ _ h => h
  | tool userId toolName arguments toolMode =>
    exact justified_bind (performs_dispatch userId toolName arguments toolMode) fun _ _ h => h
  | cmdCreateUser username password email =>
    have hsilent : (createUser lib username email password).run.Only Op.Silent :=
      only_createUser trivial trivial (fun _ => trivial) (fun _ => trivial) username email password
    refine justified_bind (takes_silent hsilent) fun hist' result h => ?_
    refine takes_ret (.of_nothing ?_)
    rw [h]
    rfl
  | cmdResetPassword username password =>
    have hsilent : (resetPassword lib username password).run.Only Op.Silent :=
      only_resetPassword trivial (fun _ _ => trivial) username password
    refine justified_bind (takes_silent hsilent) fun hist' result h => ?_
    refine takes_ret (.of_nothing ?_)
    rw [h]
    rfl

/-- **The server linearizes.** In any interleaving of any requests there is one order of actions
    on the store, made of steps of the requests, that leads from the first store to the last, and
    in which each request that has answered has done what its answer says. -/
theorem server_linearizes (env : Env) (lib : Lib) (w : World) (requests : List ServerRequest) :
    ∃ order, Linearizes storeMachine (exec env) World.store
      (fun i action => ∃ request, requests[i]? = some request ∧ request.ask.Allows action)
      (fun i answer actions =>
        ∃ request, requests[i]? = some request ∧ Performs request.ask answer actions)
      (serverPool lib w requests) order := by
  refine ⟨_, linearizes (store_simulated env) (keyedAnswer_exec env) (fun i p hp => ?_) w⟩
  rw [List.getElem?_map, Option.map_eq_some_iff] at hp
  obtain ⟨request, hi, rfl⟩ := hp
  exact ((performs_program lib request).mono fun _ _ h => ⟨request, hi, h⟩).imp
    fun _ o ho r l hl => ⟨request, hi, ho r l hl⟩

/-! ## One object -/

/-- The action takes the text of this object away, or another in its place. -/
def StoreAction.Harms (calendarId uid : String) : StoreAction → Prop
  | .dropCalendar id => id = calendarId
  | .replace calendarId' uid' _ | .remove calendarId' uid' =>
    calendarId' = calendarId ∧ uid' = uid
  | _ => False

/-- What is wanted leaves the text of this object alone. A new event has a uid nobody knows, and a
    calendar of the simple mode could be any. -/
def Ask.Spares (calendarId uid : String) : Ask → Prop
  | .nothing | .get .. | .first | .make _ | .makeNew => True
  | .put calendarId' uid' _ | .update calendarId' uid' _ | .remove calendarId' uid' =>
    ¬ (calendarId' = calendarId ∧ uid' = uid)
  | .add calendarId' _ | .drop calendarId' => calendarId' ≠ calendarId
  | .removeFromFirst uid' => uid' ≠ uid
  | .addToFirst _ => False

section

variable {calendarId uid data : String} {s s' : Store}

theorem not_harms_of_not_changes {action : StoreAction} (h : ¬ action.Changes) :
    ¬ action.Harms calendarId uid := by
  cases action with
  | look => exact id
  | _ => exact absurd trivial h

/-- A request that spares an object does nothing that harms it. -/
theorem Ask.Spares.harmless {ask : Ask} {action : StoreAction} (h : ask.Spares calendarId uid)
    (hallows : ask.Allows action) : ¬ action.Harms calendarId uid := by
  have hmade : ∀ {id : String} {made : List StoreAction}, MayHaveMade id made → action ∈ made →
      ¬ action.Harms calendarId uid := by
    rintro calendarId' made (rfl | rfl) hmem
    · exact absurd hmem List.not_mem_nil
    · obtain rfl := List.mem_singleton.mp hmem
      exact id
  have hlooks : ∀ {looks : List StoreAction}, changes looks = [] → action ∈ looks →
      ¬ action.Harms calendarId uid := by
    intro looks hlooks hmem
    refine not_harms_of_not_changes fun hchanges => ?_
    have : action ∈ changes looks := List.mem_filter.mpr ⟨hmem, decide_eq_true hchanges⟩
    rw [hlooks] at this
    cases this
  have hupserted : ∀ {calendarId' uid' data : String} {old seen : Option String},
      ¬ (calendarId' = calendarId ∧ uid' = uid) → action ∈ upserted calendarId' uid' data old seen →
      ¬ action.Harms calendarId uid := by
    intro calendarId' uid' data old seen hne hmem
    obtain rfl | hmem := List.mem_cons.mp hmem
    · exact id
    · obtain rfl | hmem := List.mem_cons.mp hmem
      · split
        · exact id
        · exact hne
      · obtain rfl := List.mem_singleton.mp hmem
        exact id
  obtain hchanges | ⟨answer, whole, hdone, hmem⟩ := hallows
  · exact not_harms_of_not_changes hchanges
  · cases hdone with
    | nothing _ _ hl | get _ _ _ _ hl => exact hlooks hl hmem
    | put _ _ _ _ _ hl | update _ _ _ _ _ hl =>
      obtain hmem | hmem := List.mem_append.mp hmem
      · exact hlooks hl hmem
      · exact hupserted h hmem
    | add => exact hupserted (fun heq => h heq.1) hmem
    | addToFirst => exact h.elim
    | remove =>
      obtain rfl := List.mem_singleton.mp hmem
      exact h
    | removeFromFirst _ _ _ _ hm =>
      obtain hmem | hmem := List.mem_append.mp hmem
      · exact hmade hm hmem
      · obtain rfl := List.mem_singleton.mp hmem
        exact fun heq => h heq.2
    | first _ _ _ hm => exact hmade hm hmem
    | make | makeNew =>
      obtain rfl := List.mem_singleton.mp hmem
      exact id
    | drop =>
      obtain rfl := List.mem_singleton.mp hmem
      exact h

/-- An action that does not harm an object leaves its text. -/
theorem text_kept (action : StoreAction) (s s' : Store) (h : ¬ action.Harms calendarId uid)
    (htext : s.text calendarId uid = some data) (hact : storeMachine.act action s = some s') :
    s'.text calendarId uid = some data := by
  have hcalendar : s calendarId ≠ none := by
    intro hnone
    unfold Store.text at htext
    rw [hnone] at htext
    cases htext
  have hupdate : ∀ (id : String) (objects : Option (String → Option String)), id ≠ calendarId →
      Store.text (Function.update s id objects) calendarId uid = some data := by
    intro id objects hne
    unfold Store.text at htext ⊢
    rwa [Function.update_of_ne (Ne.symm hne)]
  have hwrite : ∀ (calendarId' uid' : String) (data' : Option String),
      ¬ (calendarId' = calendarId ∧ uid' = uid) →
      (s.write calendarId' uid' data').text calendarId uid = some data := by
    intro calendarId' uid' data' hne
    rwa [Store.text_write, if_neg fun heq => hne ⟨heq.1.symm, heq.2.symm⟩]
  cases action with
  | makeCalendar id =>
    obtain ⟨hnone, ⟨⟩⟩ := Option.ite_none_right_eq_some.mp hact
    exact hupdate id _ fun heq => hcalendar (heq ▸ hnone)
  | dropCalendar id =>
    obtain ⟨-, ⟨⟩⟩ := Option.ite_none_right_eq_some.mp hact
    exact hupdate id _ h
  | create calendarId' uid' data' =>
    obtain ⟨⟨-, hnone⟩, ⟨⟩⟩ := Option.ite_none_right_eq_some.mp hact
    refine hwrite calendarId' uid' _ fun heq => ?_
    rw [heq.1, heq.2, htext] at hnone
    cases hnone
  | replace calendarId' uid' data' =>
    obtain rfl := Option.some.inj hact
    split
    · exact hwrite calendarId' uid' _ h
    · exact htext
  | remove calendarId' uid' =>
    obtain ⟨-, ⟨⟩⟩ := Option.ite_none_right_eq_some.mp hact
    exact hwrite calendarId' uid' _ h
  | look calendarId' uid' found =>
    obtain ⟨-, ⟨⟩⟩ := Option.ite_none_right_eq_some.mp hact
    exact htext

theorem act_look {found : Option String}
    (hact : storeMachine.act (.look calendarId uid found) s = some s') :
    s' = s ∧ s.text calendarId uid = found := by
  obtain ⟨hfound, ⟨⟩⟩ := Option.ite_none_right_eq_some.mp hact
  exact ⟨rfl, hfound⟩

theorem act_create (hact : storeMachine.act (.create calendarId uid data) s = some s') :
    s'.text calendarId uid = some data := by
  obtain ⟨⟨hcalendar, -⟩, ⟨⟩⟩ := Option.ite_none_right_eq_some.mp hact
  obtain ⟨objects, hobjects⟩ := Option.isSome_iff_exists.mp hcalendar
  rw [Store.text_write, if_pos ⟨rfl, rfl⟩, hobjects]
  rfl

theorem act_replace {old : String} (hold : s.text calendarId uid = some old)
    (hact : storeMachine.act (.replace calendarId uid data) s = some s') :
    s'.text calendarId uid = some data := by
  obtain rfl := Option.some.inj hact
  rw [if_pos (by rw [hold]; rfl), Store.text_write, if_pos ⟨rfl, rfl⟩]
  unfold Store.text at hold
  cases hs : s calendarId with
  | none =>
    rw [hs] at hold
    cases hold
  | some objects => rfl

/-- Actions that do not harm an object leave its text. -/
theorem texts_kept {actions : List StoreAction}
    (hharmless : ∀ action ∈ actions, ¬ action.Harms calendarId uid)
    (htext : s.text calendarId uid = some data) (hrun : storeMachine.run actions s = some s') :
    s'.text calendarId uid = some data :=
  storeMachine.run_keeps (P := fun action => ¬ action.Harms calendarId uid)
    (I := fun s => s.text calendarId uid = some data) text_kept hharmless htext hrun

/-- After an upsert with nothing harmful between and after its actions, the text is there. -/
theorem text_upserted {old : Option String} {actions actions' : List StoreAction}
    (hbetween : ∀ action ∈ actions, ¬ action.Harms calendarId uid)
    (hafter : ∀ action ∈ actions', ¬ action.Harms calendarId uid)
    (hrun : storeMachine.run (.look calendarId uid old :: (actions ++
      (if old = none then .create calendarId uid data else .replace calendarId uid data) ::
        actions')) s = some s') : s'.text calendarId uid = some data := by
  obtain ⟨s₁, hlook, hrun₁⟩ := Option.bind_eq_some_iff.mp hrun
  obtain ⟨rfl, hold⟩ := act_look hlook
  rw [Machine.run_append] at hrun₁
  obtain ⟨s₂, hrun₂, hrun₃⟩ := Option.bind_eq_some_iff.mp hrun₁
  obtain ⟨s₃, hwrite, hrun₃⟩ := Option.bind_eq_some_iff.mp hrun₃
  refine texts_kept hafter ?_ hrun₃
  cases old with
  | none => exact act_create hwrite
  | some text => exact act_replace (texts_kept hbetween hold hrun₂) hwrite

end

/-- **A read sees the write before it.** A PUT succeeds, and afterwards somebody asks for the
    object, by GET or by `get_event`. If no request that could change the object takes a step
    between the start of the one and the end of the other, then the answer shows the body of
    the PUT, whatever else is going on. -/
theorem read_sees_put (env : Env) (lib : Lib) (w : World) (requests : List ServerRequest)
    (calendarId uid data : String) (earlier during later : List Nat) (i j : Nat)
    (writer reader : ServerRequest) (t t' : ServerThread) (a a' : ServerAnswer)
    (found : Option String) (hi : requests[i]? = some writer) (hj : requests[j]? = some reader)
    (hwriter : writer.ask = .put calendarId uid data)
    (hreader : reader.ask = .get calendarId uid)
    (hothers : ∀ k ∈ during ++ later, k ≠ i → ∀ request, requests[k]? = some request →
      request.ask.Spares calendarId uid)
    (hstart : i ∉ earlier)
    (ht : ((serverPool lib w requests).exec (exec env) (earlier ++ during)).threads[i]? = some t)
    (ha : t.result? = some a) (hput : a.Succeeded) (hstart' : j ∉ earlier ++ during)
    (ht' : ((serverPool lib w requests).exec (exec env)
      (earlier ++ during ++ later)).threads[j]? = some t')
    (ha' : t'.result? = some a') (hget : a'.found? = some found) : found = some data := by
  obtain ⟨order, hlin⟩ := server_linearizes env lib w requests
  -- what the two requests have done
  obtain ⟨request, hrequest, hperforms⟩ := hlin.answers _ i t a ht ha
  rw [hi] at hrequest
  obtain rfl := Option.some.inj hrequest
  obtain ⟨request, hrequest, hshows⟩ := hlin.answers _ j t' a' ht' ha'
  rw [hj] at hrequest
  obtain rfl := Option.some.inj hrequest
  have hread := hshows.shown found hget calendarId uid hreader
  have hdone := hperforms.done hput
  -- where that stands in the order
  obtain ⟨mid, hmid, hmem⟩ := hlin.grows earlier during
  obtain ⟨rest, hrest, hmem', hnone, hsame⟩ := hlin.real_time ht ha hstart' later
  have hown : own i mid = own i (order (earlier ++ during)) := by
    rw [hmid, own_append, hlin.own_unstarted hstart, List.nil_append]
  rw [hwriter, ← hown] at hdone
  rw [← hsame] at hread
  generalize hactions : own i mid = actions at hdone
  cases hdone with
  | put _ _ _ _ looks hlooks old seen =>
    obtain ⟨m₁, m₂, rfl, -, h₂⟩ := own_split hactions
    obtain ⟨m₃, m₄, rfl, h₃, h₄⟩ := own_split (show own i m₂ = [] ++ _ from h₂)
    obtain ⟨r₁, r₂, rfl, -, -⟩ := own_split (show own j rest = [] ++ _ from hread)
    -- the others do it no harm, and the writer no more
    have hharmless : ∀ e ∈ order (earlier ++ during ++ later), e.1 ∈ during ++ later →
        e.1 ≠ i → ¬ e.2.Harms calendarId uid := by
      intro e he hsched hne
      obtain ⟨request, hrequest, hallows⟩ := hlin.within _ e.1 e.2 he
      exact (hothers e.1 hsched hne request hrequest).harmless hallows
    have hin : ∀ e, e ∈ m₃ ∨ e ∈ m₄ →
        e ∈ order (earlier ++ during ++ later) ∧ e.1 ∈ during ++ later := by
      intro e he
      have hemid : e ∈ m₁ ++ (i, StoreAction.look calendarId uid old) :: (m₃ ++ (i,
          if old = none then .create calendarId uid data else .replace calendarId uid data) ::
          m₄) := by
        refine List.mem_append_right _ (List.mem_cons_of_mem _ (List.mem_append.mpr ?_))
        exact he.imp id (List.mem_cons_of_mem _)
      refine ⟨?_, List.mem_append_left _ (hmem e hemid)⟩
      rw [hrest, hmid]
      exact List.mem_append_left _ (List.mem_append_right _ hemid)
    have hbetween : ∀ action ∈ m₃.map Prod.snd, ¬ action.Harms calendarId uid := by
      intro action haction
      obtain ⟨e, he, rfl⟩ := List.mem_map.mp haction
      obtain ⟨horder, hsched⟩ := hin e (Or.inl he)
      refine hharmless e horder hsched fun heq => ?_
      have hown₃ : e.2 ∈ own i m₃ := mem_own.mpr (heq ▸ he)
      rw [h₃] at hown₃
      cases hown₃
    have hafter : ∀ action ∈ m₄.map Prod.snd, ¬ action.Harms calendarId uid := by
      intro action haction
      obtain ⟨e, he, rfl⟩ := List.mem_map.mp haction
      obtain ⟨horder, hsched⟩ := hin e (Or.inr he)
      by_cases heq : e.1 = i
      · have hseen : e.2 ∈ own i m₄ := mem_own.mpr (heq ▸ he)
        rw [h₄] at hseen
        rw [List.mem_singleton.mp hseen]
        exact id
      · exact hharmless e horder hsched heq
    have hbefore : ∀ action ∈ r₁.map Prod.snd, ¬ action.Harms calendarId uid := by
      intro action haction
      obtain ⟨e, he, rfl⟩ := List.mem_map.mp haction
      have herest : e ∈ r₁ ++ (j, .look calendarId uid found) :: r₂ := List.mem_append_left _ he
      refine hharmless e ?_ (List.mem_append_right _ (hmem' e herest)) fun heq => ?_
      · rw [hrest]
        exact List.mem_append_right _ herest
      · have : e.2 ∈ own i (r₁ ++ (j, .look calendarId uid found) :: r₂) :=
          mem_own.mpr (heq ▸ herest)
        rw [hnone] at this
        cases this
    -- so the store has the text from the write to the look
    have hwritten := hlin.run_rest hmid
    rw [List.map_append, Machine.run_append] at hwritten
    obtain ⟨s₁, -, hwritten⟩ := Option.bind_eq_some_iff.mp hwritten
    rw [List.map_cons, List.map_append, List.map_cons] at hwritten
    have htext := text_upserted hbetween hafter hwritten
    have hlooked := hlin.run_rest hrest
    rw [List.map_append, Machine.run_append] at hlooked
    obtain ⟨s₂, hkept, hlooked⟩ := Option.bind_eq_some_iff.mp hlooked
    obtain ⟨s₃, hlook, -⟩ := Option.bind_eq_some_iff.mp hlooked
    rw [← (act_look hlook).2]
    exact texts_kept hbefore htext hkept

/-- The requests of `noonRequests`, at the moment when the PUT has answered. -/
def noonPut : ServerPool :=
  (serverPool sampleLib ⟨Db.init, 0⟩ noonRequests).exec (exec countingEnv)
    ([0, 0, 0, 0, 1, 1, 1, 1, 1] ++ [2, 2, 2, 2, 2, 2, 2, 2, 2, 2, 2])

theorem read_sees_put_noon :
    ∃ found, (noonRun.answer? 3).bind (·.found?) = some found ∧ found = some "at noon" := by
  have hput : (noonPut.answer? 2).bind (·.status?) = some 201 := by decide +kernel
  have hget : (noonRun.answer? 3).bind (·.found?) = some (some "at noon") := by decide +kernel
  obtain ⟨t, a, ht, ha, hstatus⟩ := answer_cases hput
  obtain ⟨t', a', ht', ha', hfound⟩ := answer_cases hget
  refine ⟨_, hget, ?_⟩
  refine read_sees_put countingEnv sampleLib ⟨Db.init, 0⟩ noonRequests "work" "noon" "at noon"
    [0, 0, 0, 0, 1, 1, 1, 1, 1] [2, 2, 2, 2, 2, 2, 2, 2, 2, 2, 2] [3, 4, 3, 3] 2 3 _ _ t t' a a'
    _ rfl rfl rfl rfl ?_ (by decide) ht ha ?_ (by decide) ht' ha' hfound
  · rintro k hk hne request hrequest
    obtain rfl | rfl : k = 3 ∨ k = 4 := by
      simp only [List.mem_append, List.mem_cons, List.not_mem_nil, or_false, or_self] at hk
      omega
    · obtain rfl := Option.some.inj hrequest
      trivial
    · obtain rfl := Option.some.inj hrequest
      trivial
  · exact succeeded_of_status hstatus (by decide)

end CaldavMcp
