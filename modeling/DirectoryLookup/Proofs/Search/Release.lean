import DirectoryLookup.Proofs.Search.Run

/-!
# Giving the connection back

**Theorem (`disconnect_search`).** A search that got its connection and is not broken off by a crash
disconnects once, as its last call and before there is an outcome. A crash of the client that the
search comes upon breaks it off at once, and then nobody disconnects.

What a session does with its connection is an invariant of its steps (`Keeps`), whatever the client
answers: no step but the one out of `closing` disconnects, and no other way leads to an outcome
than this step and a crash.
-/

namespace DirectoryLookup.Search

namespace Session

/-- What a session that got a connection has done with it. While it is under way it has not
disconnected. At its end it has, by the last call, unless the client crashed. -/
def Keeps (s : Session) : Prop :=
  match s.phase with
  | .ready => False
  | .connected | .receiving _ => .disconnect ∉ s.calls
  | .closing outcome => .disconnect ∉ s.calls ∧ outcome ≠ .error .crashed
  | .finished outcome =>
    (outcome = .error .crashed ∧ .disconnect ∉ s.calls) ∨
      (outcome ≠ .error .crashed ∧ ∃ calls, s.calls = calls ++ [.disconnect] ∧ .disconnect ∉ calls)

theorem outcomeOf_ne_crashed (people : List Person) (completion : Completion) :
    outcomeOf people completion ≠ .error .crashed := by
  cases completion <;> simp [outcomeOf]

theorem disconnect_not_mem_append {calls : List Call} (h : .disconnect ∉ calls) {call : Call}
    (hcall : call ≠ .disconnect) : .disconnect ∉ calls ++ [call] := by
  rw [List.mem_append, List.mem_singleton, not_or]
  exact ⟨h, hcall.symm⟩

/-- **Each step keeps the connection or gives it back.** -/
theorem Keeps.step {s : Session} (h : s.Keeps) : s.step.Keeps := by
  obtain ⟨plan, client, phase, calls⟩ := s
  cases phase with
  | ready => exact h.elim
  | connected =>
    have hcalls : .disconnect ∉ calls ++ [.search plan.request] :=
      disconnect_not_mem_append h (by simp)
    cases hs : client.searchError with
    | some error =>
      rw [step_connected_of_error plan client calls hs]
      exact ⟨hcalls, by simp⟩
    | none =>
      rw [step_connected_of_started plan client calls hs]
      exact hcalls
  | receiving people =>
    have hcalls : .disconnect ∉ calls ++ [.nextEvent] := disconnect_not_mem_append h (by simp)
    obtain ⟨events, connectError, searchError, disconnectError⟩ := client
    cases events with
    | nil => exact ⟨hcalls, by simp⟩
    | cons event events =>
      cases event with
      | entry entry => exact hcalls
      | done completion => exact ⟨hcalls, outcomeOf_ne_crashed people completion⟩
      | crash => exact .inl ⟨rfl, hcalls⟩
  | closing outcome => exact .inr ⟨h.2, calls, rfl, h.1⟩
  | finished outcome => exact h

theorem Keeps.advance {s : Session} (h : s.Keeps) (n : Nat) : (s.advance n).Keeps := by
  induction n generalizing s with
  | zero => exact h
  | succ n ih => exact ih h.step

/-- What the invariant says at the end. -/
theorem Keeps.of_outcome? {s : Session} (h : s.Keeps) {outcome : Outcome}
    (houtcome : s.outcome? = some outcome) :
    (outcome = .error .crashed ∧ .disconnect ∉ s.calls) ∨
      (outcome ≠ .error .crashed ∧
        ∃ calls, s.calls = calls ++ [.disconnect] ∧ .disconnect ∉ calls) := by
  obtain ⟨plan, client, phase, calls⟩ := s
  cases phase with
  | finished outcome' =>
    obtain rfl : outcome' = outcome := Option.some.inj houtcome
    exact h
  | _ => cases houtcome

/-- A session that has an outcome has come to its end. -/
theorem advance_eq_run_of_isFinished {s : Session} {n : Nat}
    (h : (s.advance n).isFinished = true) : s.advance n = s.run := by
  have hleft : (s.advance n).stepsLeft = 0 := by
    generalize s.advance n = t at h
    obtain ⟨plan, client, phase, calls⟩ := t
    cases phase with
    | finished outcome => rfl
    | _ => cases h
  rw [← advance_eq_run (Nat.le_add_left s.stepsLeft n), advance_add,
    advance_of_stepsLeft_eq_zero hleft]

end Session

/-! ## Crashes -/

/-- A crash that the search comes upon has only entries in front of it. -/
theorem Event.exists_entries_crash {events : List Event} (h : Event.crash ∈ beforeDone events) :
    ∃ (entries : List Entry) (rest : List Event),
      events = entries.map .entry ++ .crash :: rest := by
  induction events with
  | nil => cases h
  | cons event events ih =>
    cases event with
    | entry entry =>
      obtain ⟨entries, rest, rfl⟩ := ih ((List.mem_cons.1 h).resolve_left (by simp))
      exact ⟨entry :: entries, rest, rfl⟩
    | done completion => cases h
    | crash => exact ⟨[], events, rfl⟩

namespace Session

variable (plan : Plan) (client : Client) (calls : List Call) (people : List Person)

theorem outcome?_run_of_crash {events : List Event} (h : Event.crash ∈ Event.beforeDone events) :
    (Session.mk plan { client with events := events } (.receiving people) calls).run.outcome? =
      some (.error .crashed) := by
  obtain ⟨entries, rest, rfl⟩ := Event.exists_entries_crash h
  rw [run_entries, ← run_step]
  rfl

/-- A session that is asking for events ends in a crash exactly if it comes upon one. -/
theorem outcome?_run_eq_crashed_iff {events : List Event} :
    (Session.mk plan { client with events := events } (.receiving people) calls).run.outcome? =
        some (.error .crashed) ↔ Event.crash ∈ Event.beforeDone events := by
  refine ⟨fun houtcome => Decidable.byContradiction fun h => ?_,
    outcome?_run_of_crash plan client calls people⟩
  rw [(run_receiving plan client calls people h).2] at houtcome
  exact outcomeOf_ne_crashed _ _ (Option.some.inj houtcome)

end Session

namespace Searcher

variable (s : Searcher) (query : Option Expression) (limit : UInt32) (client : Client)

/-- A search with a connection crashes exactly if it gets under way and comes upon a crash. -/
theorem outcome?_search_eq_crashed_iff (hv : s.settings.validate = .ok ())
    (hc : client.connectError = none) :
    (s.search query limit client).outcome? = some (.error .crashed) ↔
      client.searchError = none ∧ Event.crash ∈ Event.beforeDone client.events := by
  rw [search_of_valid s query limit client hv]
  cases hs : client.searchError with
  | some error =>
    rw [Session.run_of_searchError _ _ _ hc hs]
    simp [Session.outcome?]
  | none =>
    rw [Session.run_of_started _ _ _ hc hs, Session.outcome?_run_eq_crashed_iff]
    simp

/-- From its connection on, a search keeps to the invariant. -/
theorem keeps_search (hv : s.settings.validate = .ok ()) (hc : client.connectError = none) :
    (s.search query limit client).Keeps := by
  rw [search_of_valid s query limit client hv, ← Session.run_step,
    Session.step_ready_of_connected _ client [] hc]
  refine Session.Keeps.advance ?_ _
  show Call.disconnect ∉ _
  simp

/-- **A search that got its connection gives it back once, unless its client crashes.** The
disconnection is its last call, and there is no outcome before. -/
theorem disconnect_search (hv : s.settings.validate = .ok ()) (hc : client.connectError = none) :
    (s.search query limit client).isFinished = true ∧
    ((s.search query limit client).outcome? = some (.error .crashed) ↔
      client.searchError = none ∧ Event.crash ∈ Event.beforeDone client.events) ∧
    ((s.search query limit client).outcome? ≠ some (.error .crashed) →
      ∃ calls, (s.search query limit client).calls = calls ++ [.disconnect] ∧
        .disconnect ∉ calls) ∧
    ((s.search query limit client).outcome? = some (.error .crashed) →
      .disconnect ∉ (s.search query limit client).calls) ∧
    ∀ n, ((s.start query limit client).advance n).isFinished = true →
      (s.start query limit client).advance n = s.search query limit client := by
  have hfinished : (s.search query limit client).isFinished = true := Session.isFinished_run _
  obtain ⟨outcome, houtcome⟩ := Option.isSome_iff_exists.1 hfinished
  refine ⟨hfinished, outcome?_search_eq_crashed_iff s query limit client hv hc, ?_, ?_,
    fun n => Session.advance_eq_run_of_isFinished⟩
  all_goals
    rw [houtcome]
    intro h
    rcases (keeps_search s query limit client hv hc).of_outcome? houtcome with
      ⟨hcrashed, hnone⟩ | ⟨hne, hlast⟩
  · exact absurd (congrArg some hcrashed) h
  · exact hlast
  · exact hnone
  · exact absurd (Option.some.inj h) hne

/-- A crash behind the end of a failed search is not come upon. -/
theorem disconnect_search_failed :
    ∃ calls,
      (Searcher.search ⟨{ host := "localhost", searchBase := "dc=example" }, Registry.person⟩ none 5
        { events := [.entry ⟨"cn=a", []⟩, .done (.failed .notConnected), .crash]
          disconnectError := some .notConnected }).calls = calls ++ [.disconnect] ∧
        .disconnect ∉ calls := by
  obtain ⟨-, hcrashed, hlast, -⟩ := disconnect_search
    ⟨{ host := "localhost", searchBase := "dc=example" }, Registry.person⟩ none 5
    { events := [.entry ⟨"cn=a", []⟩, .done (.failed .notConnected), .crash]
      disconnectError := some .notConnected } rfl rfl
  exact hlast fun h => absurd (hcrashed.1 h).2 (by decide)

/-- A client that crashes behind an entry is left connected. -/
theorem count_disconnect_crashed :
    let s : Searcher :=
      ⟨{ host := "ldap.test.invalid", searchBase := "ou=people,dc=example,dc=com" },
        Registry.person⟩
    let client : Client :=
      { events :=
          [.entry ⟨"uid=a,ou=people,dc=example,dc=com", [("uid", ["a"]), ("sn", ["Adams"])]⟩,
            .crash] }
    s.settings.validate = .ok () ∧ client.connectError = none ∧
      (s.search none 10 client).outcome? = some (.error .crashed) ∧
      (s.search none 10 client).calls.count .disconnect = 0 :=
  ⟨rfl, rfl, rfl, by decide⟩

end Searcher

end DirectoryLookup.Search
