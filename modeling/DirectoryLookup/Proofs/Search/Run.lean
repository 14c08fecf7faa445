import DirectoryLookup.Search.Searcher

/-!
# Runs of a session

A run does not depend on where it is broken into steps: `run_step` says that a session comes to the
same end as the session one step later. From it the run of every phase follows, backwards from the
last call.

**Theorem (`run_entries`).** While a client delivers entries, every entry costs one call and adds
the people it gives behind those that are there already, and nothing else changes.

**Theorem (`run_receiving`).** A client that does not crash is asked for one event after the other
up to the first end of the search, and then disconnected. Nothing behind that end has a part in it.
-/

namespace DirectoryLookup.Search

/-! ## Scripts -/

namespace Event

/-- The event ends the search. -/
def isDone : Event → Bool
  | .done _ => true
  | _ => false

/-- The entry that an event delivers. -/
def entry? : Event → Option Entry
  | .entry e => some e
  | _ => none

/-- How an event ends the search, if it does. -/
def completion? : Event → Option Completion
  | .done completion => some completion
  | _ => none

/-- The events before the first that ends the search. -/
def beforeDone (events : List Event) : List Event :=
  events.takeWhile fun event => !event.isDone

/-- The entries before the first end of the search. -/
def entriesBeforeDone (events : List Event) : List Entry :=
  (beforeDone events).filterMap entry?

/-- The first end of the search. A client with nothing left to say ends it as complete. -/
def firstDone (events : List Event) : Completion :=
  (events.findSome? completion?).getD .complete

variable (entries : List Entry)

theorem beforeDone_entries_append (rest : List Event) :
    beforeDone (entries.map .entry ++ rest) = entries.map .entry ++ beforeDone rest := by
  unfold beforeDone
  refine List.takeWhile_append_of_pos ?_
  intro event hevent
  obtain ⟨entry, -, rfl⟩ := List.mem_map.1 hevent
  rfl

theorem beforeDone_entries_done (completion : Completion) (rest : List Event) :
    beforeDone (entries.map .entry ++ .done completion :: rest) = entries.map .entry := by
  rw [beforeDone_entries_append]
  show entries.map Event.entry ++ [] = entries.map .entry
  rw [List.append_nil]

theorem beforeDone_entries : beforeDone (entries.map .entry) = entries.map .entry := by
  have h := beforeDone_entries_append entries []
  rwa [List.append_nil, show beforeDone [] = [] from rfl, List.append_nil] at h

theorem filterMap_entry? : (entries.map Event.entry).filterMap entry? = entries := by
  rw [List.filterMap_map]
  show entries.filterMap some = entries
  exact List.filterMap_some

theorem firstDone_entries_append (rest : List Event) :
    firstDone (entries.map .entry ++ rest) = firstDone rest := by
  unfold firstDone
  rw [List.findSome?_append, List.findSome?_eq_none_iff.2, Option.none_or]
  intro event hevent
  obtain ⟨entry, -, rfl⟩ := List.mem_map.1 hevent
  rfl

/-- What comes behind an end of the search does not come before the first one. -/
theorem beforeDone_append_done (events rest : List Event) (completion : Completion) :
    beforeDone (events ++ .done completion :: rest) = beforeDone events := by
  unfold beforeDone
  induction events with
  | nil => rfl
  | cons event events ih =>
    rw [List.cons_append, List.takeWhile_cons, List.takeWhile_cons, ih]

theorem firstDone_append_done (events rest : List Event) (completion : Completion) :
    firstDone (events ++ .done completion :: rest) =
      (events.findSome? completion?).getD completion := by
  unfold firstDone
  rw [List.findSome?_append]
  cases events.findSome? completion? <;> rfl

/-- **The parts of a script without a crash before its end**: some entries, then either nothing or
an end of the search and whatever comes behind it. -/
theorem exists_entries {events : List Event} (h : Event.crash ∉ beforeDone events) :
    ∃ entries : List Entry, events = entries.map .entry ∨
      ∃ completion rest, events = entries.map .entry ++ .done completion :: rest := by
  induction events with
  | nil => exact ⟨[], Or.inl rfl⟩
  | cons event events ih =>
    cases event with
    | entry entry =>
      obtain ⟨entries, rfl | ⟨completion, rest, rfl⟩⟩ :=
        ih fun hin => h (List.mem_cons_of_mem _ hin)
      · exact ⟨entry :: entries, Or.inl rfl⟩
      · exact ⟨entry :: entries, Or.inr ⟨completion, rest, rfl⟩⟩
    | done completion => exact ⟨[], Or.inr ⟨completion, events, rfl⟩⟩
    | crash => exact absurd List.mem_cons_self h

end Event

namespace Session

/-! ## Runs and steps -/

theorem advance_add (m n : Nat) (s : Session) : s.advance (m + n) = (s.advance m).advance n := by
  induction m generalizing s with
  | zero => rw [Nat.zero_add, advance]
  | succ m ih => rw [Nat.succ_add, advance, advance, ih]

/-- More steps than a session can take bring it no further than its end. -/
theorem advance_eq_run {n : Nat} {s : Session} (h : s.stepsLeft ≤ n) : s.advance n = s.run := by
  obtain ⟨m, rfl⟩ := Nat.exists_eq_add_of_le h
  rw [advance_add]
  exact advance_of_stepsLeft_eq_zero (stepsLeft_advance _ s (Nat.le_refl _)) m

/-- A session comes to the same end as the session one step later. -/
theorem run_step (s : Session) : s.step.run = s.run := by
  by_cases h : s.stepsLeft = 0
  · rw [step_of_stepsLeft_eq_zero h]
  · have hlt := stepsLeft_step_lt s h
    rw [← advance_eq_run (n := s.stepsLeft - 1) (by omega)]
    show s.advance (s.stepsLeft - 1 + 1) = s.run
    rw [Nat.sub_add_cancel (Nat.pos_of_ne_zero h)]
    rfl

/-! ## Single steps -/

variable (plan : Plan) (client : Client) (calls : List Call)

theorem step_ready_of_error {error : ClientError} (h : client.connectError = some error) :
    (Session.mk plan client .ready calls).step =
      ⟨plan, client, .finished (.error (.search error)),
        calls ++ [.connect plan.host plan.port]⟩ := by
  simp only [step, called, h]

theorem step_ready_of_connected (h : client.connectError = none) :
    (Session.mk plan client .ready calls).step =
      ⟨plan, client, .connected, calls ++ [.connect plan.host plan.port]⟩ := by
  simp only [step, called, h]

theorem step_connected_of_error {error : ClientError} (h : client.searchError = some error) :
    (Session.mk plan client .connected calls).step =
      ⟨plan, client, .closing (.error (.search error)), calls ++ [.search plan.request]⟩ := by
  simp only [step, called, h]

theorem step_connected_of_started (h : client.searchError = none) :
    (Session.mk plan client .connected calls).step =
      ⟨plan, client, .receiving [], calls ++ [.search plan.request]⟩ := by
  simp only [step, called, h]

variable (people : List Person) (rest : List Event)

theorem step_entry (entry : Entry) :
    (Session.mk plan { client with events := .entry entry :: rest } (.receiving people)
        calls).step =
      ⟨plan, { client with events := rest }, .receiving (people ++ accept plan.registry entry),
        calls ++ [.nextEvent]⟩ := rfl

theorem step_done (completion : Completion) :
    (Session.mk plan { client with events := .done completion :: rest } (.receiving people)
        calls).step =
      ⟨plan, { client with events := rest }, .closing (outcomeOf people completion),
        calls ++ [.nextEvent]⟩ := rfl

theorem step_used_up :
    (Session.mk plan { client with events := [] } (.receiving people) calls).step =
      ⟨plan, { client with events := [] }, .closing (.ok people), calls ++ [.nextEvent]⟩ := rfl

/-! ## Each phase to its end -/

theorem run_finished (outcome : Outcome) :
    (Session.mk plan client (.finished outcome) calls).run =
      ⟨plan, client, .finished outcome, calls⟩ := rfl

/-- Once the outcome is settled the only call left is the disconnection. -/
theorem run_closing (outcome : Outcome) :
    (Session.mk plan client (.closing outcome) calls).run =
      ⟨plan, client, .finished outcome, calls ++ [.disconnect]⟩ := rfl

/-- **Receiving entries.** Each costs one call, and the people it gives go behind the others. -/
theorem run_entries (entries : List Entry) :
    (Session.mk plan { client with events := entries.map .entry ++ rest } (.receiving people)
        calls).run =
      (Session.mk plan { client with events := rest }
        (.receiving (people ++ entries.flatMap (accept plan.registry)))
        (calls ++ List.replicate entries.length .nextEvent)).run := by
  induction entries generalizing people calls with
  | nil =>
    show _ = (Session.mk plan { client with events := rest } (.receiving (people ++ []))
      (calls ++ [])).run
    rw [List.append_nil, List.append_nil]
    rfl
  | cons entry entries ih =>
    rw [List.map_cons, List.cons_append, ← run_step, step_entry, ih, List.flatMap_cons,
      List.append_assoc, List.append_assoc, List.length_cons, List.replicate_succ,
      List.singleton_append]

theorem run_done (completion : Completion) :
    (Session.mk plan { client with events := .done completion :: rest } (.receiving people)
        calls).run =
      ⟨plan, { client with events := rest }, .finished (outcomeOf people completion),
        calls ++ [.nextEvent, .disconnect]⟩ := by
  rw [← run_step, step_done, run_closing, List.append_assoc, List.singleton_append]

/-- A script that is used up ends as a complete search does. -/
theorem run_used_up :
    (Session.mk plan { client with events := [] } (.receiving people) calls).run =
      ⟨plan, { client with events := [] }, .finished (.ok people),
        calls ++ [.nextEvent, .disconnect]⟩ := by
  rw [← run_step, step_used_up, run_closing, List.append_assoc, List.singleton_append]

/-- **A search that is under way**, with no crash before its first end: one call for each event up
to that end, then the disconnection. The outcome is what the end makes of the people in the entries
before it. -/
theorem run_receiving {events : List Event} (h : Event.crash ∉ Event.beforeDone events) :
    let s := (Session.mk plan { client with events := events } (.receiving people) calls).run
    s.calls = calls ++ (List.replicate ((Event.beforeDone events).length + 1) .nextEvent ++
        [.disconnect]) ∧
      s.outcome? = some (outcomeOf
        (people ++ (Event.entriesBeforeDone events).flatMap (accept plan.registry))
        (Event.firstDone events)) := by
  obtain ⟨entries, rfl | ⟨completion, rest, rfl⟩⟩ := Event.exists_entries h
  · have hrun := run_entries plan client calls people [] entries
    rw [List.append_nil, run_used_up] at hrun
    rw [hrun, Event.entriesBeforeDone, Event.beforeDone_entries, Event.filterMap_entry?,
      List.length_map, List.replicate_succ', List.append_assoc, List.append_assoc]
    refine ⟨rfl, ?_⟩
    have hdone := Event.firstDone_entries_append entries []
    rw [List.append_nil] at hdone
    rw [hdone]
    rfl
  · rw [run_entries, run_done, Event.entriesBeforeDone, Event.beforeDone_entries_done,
      Event.filterMap_entry?, Event.firstDone_entries_append, List.length_map,
      List.replicate_succ', List.append_assoc, List.append_assoc]
    exact ⟨rfl, rfl⟩

/-! ## A session from its start -/

/-- A client that cannot connect gets no further call. -/
theorem run_of_connectError {error : ClientError} (h : client.connectError = some error) :
    (Session.mk plan client .ready calls).run =
      ⟨plan, client, .finished (.error (.search error)),
        calls ++ [.connect plan.host plan.port]⟩ := by
  rw [← run_step, step_ready_of_error plan client calls h, run_finished]

/-- A client that connects but cannot start the search is disconnected at once. -/
theorem run_of_searchError {error : ClientError} (hc : client.connectError = none)
    (hs : client.searchError = some error) :
    (Session.mk plan client .ready calls).run =
      ⟨plan, client, .finished (.error (.search error)),
        calls ++ [.connect plan.host plan.port, .search plan.request, .disconnect]⟩ := by
  rw [← run_step, step_ready_of_connected plan client calls hc, ← run_step,
    step_connected_of_error plan client _ hs, run_closing, List.append_assoc, List.append_assoc]
  rfl

/-- A client that connects and starts the search is asked for events. -/
theorem run_of_started (hc : client.connectError = none) (hs : client.searchError = none) :
    (Session.mk plan client .ready calls).run =
      (Session.mk plan client (.receiving [])
        (calls ++ [.connect plan.host plan.port, .search plan.request])).run := by
  rw [← run_step, step_ready_of_connected plan client calls hc, ← run_step,
    step_connected_of_started plan client _ hs, List.append_assoc]
  rfl

end Session

/-! ## Searches -/

namespace Searcher

variable (s : Searcher) (query : Option Expression) (limit : UInt32) (client : Client)

/-- What the sessions of a searcher have to do. -/
def plan : Plan :=
  { host := s.settings.host
    port := s.settings.port
    request := s.request query limit
    registry := s.registry }

/-- With invalid settings a session is at its end from the start. -/
theorem advance_start_of_invalid {failure : Failure} (h : s.settings.validate = .error failure)
    (n : Nat) :
    (s.start query limit client).advance n =
      ⟨s.plan query limit, client, .finished (.error failure), []⟩ := by
  have hstart : s.start query limit client =
      ⟨s.plan query limit, client, .finished (.error failure), []⟩ := by
    rw [start, h]
    rfl
  rw [hstart, Session.advance_of_stepsLeft_eq_zero rfl]

/-- With invalid settings a search is over before its first call. -/
theorem search_of_invalid {failure : Failure} (h : s.settings.validate = .error failure) :
    s.search query limit client =
      ⟨s.plan query limit, client, .finished (.error failure), []⟩ :=
  advance_start_of_invalid s query limit client h _

theorem search_of_valid (h : s.settings.validate = .ok ()) :
    s.search query limit client = (Session.mk (s.plan query limit) client .ready []).run := by
  unfold search start
  rw [h]
  rfl

end Searcher

end DirectoryLookup.Search
