import DirectoryLookup.Proofs.Person.Fields
import DirectoryLookup.Proofs.Search.Release
import DirectoryLookup.Proofs.Search.Results

/-!
# The names of people found

Searches leave out people without a surname, so that there is something to show for every person
they give. To the filter an empty surname is none. The name to show asks only whether the full name
is set, and it may be set to the empty text.

**Theorem (`displayName_of_hasSurname`).** The name to show for a person with a surname is empty
exactly if the full name is set to the empty text, which it is if the last value delivered for it is
empty. Otherwise it is the full name, or it ends with the surname. The people that a search gives
are people with a surname, each read from an entry that the client delivered.
-/

namespace DirectoryLookup

namespace Person

/-! ## The name to show -/

variable {p : Person}

theorem hasSurname_iff :
    p.hasSurname = true ↔ ∃ surname, p.lastName = some surname ∧ surname ≠ "" := by
  unfold hasSurname
  cases p.lastName <;> simp

theorem displayName_of_fullName {name : String} (h : p.fullName = some name) :
    p.displayName = name := by
  rw [displayName, h]
  rfl

/-- Without a full name the surname is shown, behind the given name if there is one. -/
theorem suffix_displayName {surname : String} (h : p.fullName = none)
    (hsurname : p.lastName = some surname) : surname.toList <:+ p.displayName.toList := by
  rw [displayName, h, hsurname]
  cases p.firstName with
  | none => simp
  | some name => exact ⟨(name ++ " ").toList, by simp⟩

/-- **Nothing is shown for a person with a surname exactly if the full name is empty.** -/
theorem displayName_eq_empty_iff (h : p.hasSurname = true) :
    p.displayName = "" ↔ p.fullName = some "" := by
  obtain ⟨surname, hsurname, hne⟩ := hasSurname_iff.1 h
  cases hname : p.fullName with
  | some name => rw [displayName_of_fullName hname, Option.some.injEq]
  | none =>
    have hsuffix := suffix_displayName hname hsurname
    constructor
    · intro hempty
      rw [hempty] at hsuffix
      exact absurd (String.toList_eq_nil_iff.1 (List.suffix_nil.1 hsuffix)) hne
    · intro h
      cases h

/-- The full name of a person is the last value delivered for it. -/
theorem fullName_ofEntry (r : Registry) (entry : Entry) :
    (ofEntry r entry).fullName = lastValue? (listsFor r .fullName entry.attributes) := by
  have h : (ofEntry r entry).fullName.toList = _ :=
    values_ofEntry_of_isScalar r (f := .fullName) rfl entry
  rw [← getLast?_toList (ofEntry r entry).fullName, h, getLast?_toList]

end Person

namespace Search.Searcher

/-! ## The people found -/

variable {s : Searcher} {query : Option Expression} {limit : UInt32} {client : Client}
  {people : List Person}

/-- A search that succeeds gives the people accepted from the entries before its first end. -/
theorem eq_flatMap_of_outcome? (h : (s.search query limit client).outcome? = some (.ok people)) :
    people = (Event.entriesBeforeDone client.events).flatMap (Session.accept s.registry) := by
  cases hv : s.settings.validate with
  | error failure =>
    rw [search_of_invalid s query limit client hv] at h
    cases h
  | ok =>
    cases hc : client.connectError with
    | some error =>
      rw [search_of_valid s query limit client hv, Session.run_of_connectError _ _ _ hc] at h
      cases h
    | none =>
      cases hs : client.searchError with
      | some error =>
        rw [search_of_valid s query limit client hv, Session.run_of_searchError _ _ _ hc hs] at h
        cases h
      | none =>
        by_cases hcrash : Event.crash ∈ Event.beforeDone client.events
        · rw [(outcome?_search_eq_crashed_iff s query limit client hv hc).2 ⟨hs, hcrash⟩] at h
          cases h
        · rw [outcome?_eq s query limit client hv hc hs hcrash] at h
          have houtcome := Option.some.inj h
          cases hdone : Event.firstDone client.events with
          | failed error =>
            rw [hdone] at houtcome
            cases houtcome
          | _ =>
            rw [hdone] at houtcome
            exact (Except.ok.inj houtcome).symm

/-- **The people found have a surname**, and each is read from an entry that was delivered. -/
theorem hasSurname_of_mem_outcome (h : (s.search query limit client).outcome? = some (.ok people))
    {p : Person} (hp : p ∈ people) :
    p.hasSurname = true ∧
      ∃ entry, .entry entry ∈ client.events ∧ p = Person.ofEntry s.registry entry := by
  rw [eq_flatMap_of_outcome? h] at hp
  obtain ⟨entry, hentry, hp⟩ := List.mem_flatMap.1 hp
  obtain ⟨hp, hsurname⟩ := List.mem_filter.1 hp
  obtain ⟨event, hevent, hentry⟩ := List.mem_filterMap.1 hentry
  refine ⟨hsurname, entry, ?_, List.mem_singleton.1 hp⟩
  cases event with
  | entry entry' =>
    obtain rfl := Option.some.inj hentry
    exact (List.takeWhile_prefix _).subset hevent
  | done | crash => cases hentry

end Search.Searcher

namespace Person

open Search

/-- **What is shown for a person with a surname**, and that searches give no others. -/
theorem displayName_of_hasSurname (r : Registry) :
    (∀ entry, (ofEntry r entry).hasSurname = true →
      let p := ofEntry r entry
      let fullName := lastValue? (listsFor r .fullName entry.attributes)
      (p.displayName = "" ↔ fullName = some "") ∧
      (∀ name, fullName = some name → p.displayName = name) ∧
      (fullName = none → ∃ surname, p.lastName = some surname ∧ surname ≠ "" ∧
        surname.toList <:+ p.displayName.toList)) ∧
    ∀ settings query limit client people,
      (Searcher.search ⟨settings, r⟩ query limit client).outcome? = some (.ok people) →
      ∀ p ∈ people, p.hasSurname = true ∧
        ∃ entry, .entry entry ∈ client.events ∧ p = ofEntry r entry := by
  refine ⟨fun entry h => ?_, fun settings query limit client people h p hp =>
    Searcher.hasSurname_of_mem_outcome h hp⟩
  intro p fullName
  have hfullName : p.fullName = fullName := fullName_ofEntry r entry
  refine ⟨?_, ?_, ?_⟩
  · rw [← hfullName]
    exact displayName_eq_empty_iff h
  · intro name hname
    exact displayName_of_fullName (hfullName.trans hname)
  · intro hnone
    obtain ⟨surname, hsurname, hne⟩ := hasSurname_iff.1 h
    exact ⟨surname, hsurname, hne, suffix_displayName (hfullName.trans hnone) hsurname⟩

/-- The full name comes twice and is empty first; another entry has a given name and a surname. -/
theorem displayName_of_hasSurname_two :
    let jane : Entry := ⟨"uid=j", [("cn", [""]), ("sn", ["Doe"]), ("displayName", ["Jane"])]⟩
    let rick : Entry := ⟨"uid=r", [("SN", ["", "Roe"]), ("givenName", ["Rick"]), ("cn", [])]⟩
    let client : Client :=
      { events := [.entry jane, .entry ⟨"uid=x", [("cn", ["X"])]⟩, .entry rick] }
    let found := Searcher.search ⟨{ host := "localhost", searchBase := "dc=example" }, .person⟩
      none 5 client
    (ofEntry .person jane).displayName = "Jane" ∧
      (ofEntry .person rick).displayName = "Rick Roe" ∧
      (ofEntry .person rick).displayName ≠ "" ∧
      found.outcome? = some (.ok [ofEntry .person jane, ofEntry .person rick]) ∧
      (ofEntry .person rick).hasSurname = true := by
  intro jane rick client found
  obtain ⟨hname, hfound⟩ := displayName_of_hasSurname .person
  have hpeople : found.outcome? = some (.ok [ofEntry .person jane, ofEntry .person rick]) := rfl
  have hrick := (hfound _ none 5 client _ hpeople (ofEntry .person rick) (by simp)).1
  refine ⟨(hname jane (by decide)).2.1 "Jane" (by decide), by decide, ?_, hpeople, hrick⟩
  exact fun hempty => absurd ((hname rick hrick).1.1 hempty) (by decide)

/-- An empty full name stands in front of a surname, and a search gives the person. -/
theorem displayName_empty :
    let entry : Entry := ⟨"uid=roe", [("sn", ["Roe"]), ("cn", [""])]⟩
    let p := ofEntry .person entry
    p.hasSurname = true ∧ p.displayName = "" ∧
      (Searcher.search ⟨{ host := "localhost", searchBase := "dc=example" }, .person⟩ none 5
        { events := [.entry entry] }).outcome? = some (.ok [p]) :=
  ⟨by decide, by decide, rfl⟩

end Person

end DirectoryLookup
