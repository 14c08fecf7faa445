import DirectoryLookup.Proofs.Search.Run

/-!
# The results of a search

**Theorem (`outcome_search`).** A search that gets under way gives the people in the entries before
its first end, one for each entry and in the order of the entries, leaving out those without a last
name. A search cut short gives them as a complete one does; a failed search gives its error and
nobody.

The outcome is a function of the entries before the first end and of that end. So neither what the
script holds behind it nor the disconnection has a part in the outcome.
-/

namespace DirectoryLookup.Search

/-- What searches leave out are people without a last name, or with an empty one. -/
theorem Session.flatMap_accept (r : Registry) (entries : List Entry) :
    entries.flatMap (accept r) =
      (entries.map (Person.ofEntry r)).filter fun p =>
        p.lastName ≠ none ∧ p.lastName ≠ some "" := by
  induction entries with
  | nil => rfl
  | cons entry entries ih =>
    rw [List.flatMap_cons, ih, List.map_cons, ← List.singleton_append, List.filter_append]
    congr 1
    unfold accept
    congr 1
    funext p
    unfold Person.hasSurname
    cases p.lastName <;> simp

namespace Event

variable {before : List Event} {completion completion' : Completion}

/-- A crash that comes before the first end still does, whatever end is behind it. -/
theorem crash_not_mem_beforeDone {rest rest' : List Event}
    (h : Event.crash ∉ beforeDone (before ++ .done completion :: rest)) :
    Event.crash ∉ beforeDone (before ++ .done completion' :: rest') := by
  rw [beforeDone_append_done] at h ⊢
  exact h

theorem entriesBeforeDone_append_done (rest rest' : List Event) :
    entriesBeforeDone (before ++ .done completion :: rest) =
      entriesBeforeDone (before ++ .done completion' :: rest') := by
  unfold entriesBeforeDone
  rw [beforeDone_append_done, beforeDone_append_done]

end Event

namespace Searcher

variable (s : Searcher) (query : Option Expression) (limit : UInt32) (client : Client)

/-- The outcome, from what the script says up to its first end. -/
theorem outcome?_eq (hv : s.settings.validate = .ok ()) (hc : client.connectError = none)
    (hs : client.searchError = none) (h : Event.crash ∉ Event.beforeDone client.events) :
    (s.search query limit client).outcome? = some (Session.outcomeOf
      ((Event.entriesBeforeDone client.events).flatMap (Session.accept s.registry))
      (Event.firstDone client.events)) := by
  rw [search_of_valid s query limit client hv, Session.run_of_started _ _ _ hc hs]
  exact (Session.run_receiving _ client _ [] h).2

/-- **The results of a search** that gets under way, and what has no part in them. -/
theorem outcome_search (hv : s.settings.validate = .ok ()) (hc : client.connectError = none)
    (hs : client.searchError = none) (h : Event.crash ∉ Event.beforeDone client.events) :
    (Event.firstDone client.events = .complete ∨ Event.firstDone client.events = .truncated →
      (s.search query limit client).outcome? =
        some (.ok (((Event.entriesBeforeDone client.events).map (Person.ofEntry s.registry)).filter
          fun p => p.lastName ≠ none ∧ p.lastName ≠ some ""))) ∧
    (∀ error, Event.firstDone client.events = .failed error →
      (s.search query limit client).outcome? = some (.error (.search error))) ∧
    (∀ before completion rest rest', client.events = before ++ .done completion :: rest →
      (s.search query limit
        { client with events := before ++ .done completion :: rest' }).outcome? =
        (s.search query limit client).outcome?) ∧
    (∀ disconnectError,
      (s.search query limit { client with disconnectError := disconnectError }).outcome? =
        (s.search query limit client).outcome?) ∧
    (∀ before rest, client.events = before ++ .done .truncated :: rest →
      (s.search query limit { client with events := before ++ .done .complete :: rest }).outcome? =
        (s.search query limit client).outcome?) := by
  have houtcome := outcome?_eq s query limit client hv hc hs h
  refine ⟨?_, ?_, ?_, ?_, ?_⟩
  · intro hdone
    rw [houtcome, Session.flatMap_accept]
    rcases hdone with hdone | hdone <;> rw [hdone] <;> rfl
  · intro error hdone
    rw [houtcome, hdone]
    rfl
  · intro before completion rest rest' hevents
    rw [hevents] at h houtcome
    have houtcome' := outcome?_eq s query limit
      { client with events := before ++ .done completion :: rest' } hv hc hs
      (Event.crash_not_mem_beforeDone h)
    rw [houtcome, houtcome', Event.entriesBeforeDone_append_done rest' rest,
      Event.firstDone_append_done, Event.firstDone_append_done]
  · intro disconnectError
    rw [houtcome]
    exact outcome?_eq s query limit _ hv hc hs h
  · intro before rest hevents
    rw [hevents] at h houtcome
    have houtcome' := outcome?_eq s query limit
      { client with events := before ++ .done .complete :: rest } hv hc hs
      (Event.crash_not_mem_beforeDone h)
    rw [houtcome, houtcome', Event.entriesBeforeDone_append_done rest rest,
      Event.firstDone_append_done, Event.firstDone_append_done]
    -- An end before the one replaced is the first with either; if there is none, both give success.
    cases before.findSome? Event.completion? <;> rfl

/-- Of three entries the one without a surname is left out and the one behind the end not read. -/
theorem outcome_search_truncated :
    (Searcher.search ⟨{ host := "localhost", searchBase := "dc=example" }, Registry.person⟩ none 5
      { events := [.entry ⟨"cn=a", [("sn", ["Doe"])]⟩, .entry ⟨"cn=b", []⟩, .done .truncated,
          .entry ⟨"cn=c", [("sn", ["Roe"])]⟩, .done (.failed .notConnected)]
        disconnectError := some .notConnected }).outcome? =
      some (.ok [{ dn := "cn=a", lastName := some "Doe" }]) := by
  obtain ⟨h, -⟩ := outcome_search
    ⟨{ host := "localhost", searchBase := "dc=example" }, Registry.person⟩ none 5
    { events := [.entry ⟨"cn=a", [("sn", ["Doe"])]⟩, .entry ⟨"cn=b", []⟩, .done .truncated,
        .entry ⟨"cn=c", [("sn", ["Roe"])]⟩, .done (.failed .notConnected)]
      disconnectError := some .notConnected } rfl rfl rfl (by decide)
  rw [h (Or.inr rfl)]
  rfl

end Searcher

end DirectoryLookup.Search
