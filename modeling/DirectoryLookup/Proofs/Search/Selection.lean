import DirectoryLookup.Proofs.Search.Run

/-!
# What a server may leave out

A search asks for the attributes of its registry, and a server that does as it is asked leaves out
all others (`Entry.select`).

**Theorem (`select_attributeNames`).** Nothing is lost with them. An attribute that belongs to a
field is among those asked for, in some spelling; so the attributes left out belong to no field, the
same person is read from what is left of an entry, and a search goes the same way to the same end.

The registry needs to be coherent: what a field owns, it lists. Every registry made by declarations
is. For a search the argument is a simulation (`step_select`): a session whose server leaves
attributes out takes, step by step, the course of the session whose server does not.
-/

namespace DirectoryLookup

/-! ## Attributes asked for -/

namespace Registry

variable {r : Registry} {attr : String} {f : Field}

theorem mem_attributeNames {name : String} (h : name ∈ r.attributesFor f) :
    name ∈ r.attributeNames :=
  List.mem_flatMap.2 ⟨f, Field.mem_all f, h⟩

theorem Coherent.exists_sameName (h : r.Coherent) (hf : r.fieldFor? attr = some f) :
    ∃ name ∈ r.attributesFor f, Text.sameName name attr = true := by
  obtain ⟨name, hname, hfold⟩ := List.mem_map.1 (h _ f hf)
  exact ⟨name, hname, Text.sameName_iff.2 hfold⟩

/-- An attribute that is not asked for belongs to no field. -/
theorem Coherent.fieldFor?_eq_none (h : r.Coherent)
    (hattr : r.attributeNames.any (Text.sameName · attr) = false) : r.fieldFor? attr = none := by
  cases hf : r.fieldFor? attr with
  | none => rfl
  | some f =>
    obtain ⟨name, hname, hsame⟩ := h.exists_sameName hf
    have hany : r.attributeNames.any (Text.sameName · attr) = true :=
      List.any_eq_true.2 ⟨name, mem_attributeNames hname, hsame⟩
    rw [hattr] at hany
    cases hany

end Registry

/-! ## Entries -/

/-- The entry without the attributes that go by none of these names, in whatever case. -/
def Entry.select (names : List String) (entry : Entry) : Entry :=
  { entry with
    attributes := entry.attributes.filter fun a => names.any (Text.sameName · a.1) }

namespace Person

variable {r : Registry}

/-- **The same person is read from what a server leaves of an entry.** -/
theorem ofEntry_select (h : r.Coherent) (entry : Entry) :
    ofEntry r (entry.select r.attributeNames) = ofEntry r entry := by
  unfold ofEntry Entry.select
  rw [List.foldl_filter]
  congr 1
  funext p a
  split
  · rfl
  · next ha =>
    have hnone : r.fieldFor? a.1 = none := h.fieldFor?_eq_none (by simpa using ha)
    exact (takeAttribute_of_fieldFor?_eq_none hnone p).symm

end Person

/-! ## Searches -/

namespace Search

/-- The event with its entry, if it has one, cut down to these names. -/
def Event.select (names : List String) : Event → Event
  | .entry e => .entry (e.select names)
  | .done completion => .done completion
  | .crash => .crash

/-- The client as one whose server leaves out the attributes of other names. -/
def Client.select (names : List String) (client : Client) : Client :=
  { client with events := client.events.map (Event.select names) }

namespace Session

/-- The session with the client of a server that leaves out all attributes not asked for. -/
def select (s : Session) : Session :=
  { s with client := s.client.select s.plan.registry.attributeNames }

theorem accept_select {r : Registry} (h : r.Coherent) (entry : Entry) :
    accept r (entry.select r.attributeNames) = accept r entry := by
  unfold accept
  rw [Person.ofEntry_select h]

@[simp] theorem plan_step (s : Session) : s.step.plan = s.plan := by
  obtain ⟨plan, client, phase, calls⟩ := s
  cases phase with
  | ready => cases h : client.connectError <;> simp [step, called, h]
  | connected => cases h : client.searchError <;> simp [step, called, h]
  | receiving people =>
    cases h : client.events with
    | nil => simp [step, receive, called, h]
    | cons event events => cases event <;> simp [step, receive, called, h]
  | closing outcome => rfl
  | finished outcome => rfl

@[simp] theorem stepsLeft_select (s : Session) : s.select.stepsLeft = s.stepsLeft := by
  obtain ⟨plan, client, phase, calls⟩ := s
  cases phase <;> simp [select, Client.select, stepsLeft]

/-- **One step of both sessions**: what the server left out makes no difference to it. -/
theorem step_select {s : Session} (h : s.plan.registry.Coherent) :
    s.select.step = s.step.select := by
  obtain ⟨plan, client, phase, calls⟩ := s
  cases phase with
  | ready => cases hc : client.connectError <;> simp [select, Client.select, step, called, hc]
  | connected => cases hc : client.searchError <;> simp [select, Client.select, step, called, hc]
  | receiving people =>
    cases he : client.events with
    | nil => simp [select, Client.select, step, receive, called, he]
    | cons event events =>
      cases event with
      | entry entry =>
        have haccept := accept_select h entry
        simp [select, Client.select, Event.select, step, receive, called, he, haccept]
      | done completion =>
        simp [select, Client.select, Event.select, step, receive, called, he]
      | crash => simp [select, Client.select, Event.select, step, receive, called, he]
  | closing outcome => rfl
  | finished outcome => rfl

theorem advance_select {s : Session} (h : s.plan.registry.Coherent) (n : Nat) :
    s.select.advance n = (s.advance n).select := by
  induction n generalizing s with
  | zero => rfl
  | succ n ih =>
    rw [advance, advance, step_select h]
    apply ih
    rwa [plan_step]

/-- **Both sessions to their ends.** -/
theorem run_select {s : Session} (h : s.plan.registry.Coherent) :
    s.select.run = s.run.select := by
  unfold run
  rw [stepsLeft_select, advance_select h]

end Session

/-- **A search loses nothing by asking for the attributes of its registry only.** -/
theorem select_attributeNames (ds : List (Field × String)) :
    let r := Registry.ofDeclarations ds
    (∀ attr f, r.fieldFor? attr = some f →
      ∃ name ∈ r.attributesFor f, Text.sameName name attr = true ∧ name ∈ r.attributeNames) ∧
    (∀ entry, Person.ofEntry r (entry.select r.attributeNames) = Person.ofEntry r entry ∧
      Session.accept r (entry.select r.attributeNames) = Session.accept r entry) ∧
    (∀ settings query limit client,
      let s : Searcher := ⟨settings, r⟩
      let client' := client.select (s.request query limit).attributes
      (s.search query limit client').outcome? = (s.search query limit client).outcome? ∧
      (s.search query limit client').calls = (s.search query limit client).calls) := by
  intro r
  have h : r.Coherent := Registry.coherent_ofDeclarations ds
  refine ⟨?_, ?_, ?_⟩
  · intro attr f hf
    obtain ⟨name, hname, hsame⟩ := h.exists_sameName hf
    exact ⟨name, hname, hsame, Registry.mem_attributeNames hname⟩
  · intro entry
    exact ⟨Person.ofEntry_select h entry, Session.accept_select h entry⟩
  · intro settings query limit client s client'
    have hstart : (s.start query limit client).plan.registry.Coherent := h
    have hrun : s.search query limit client' = (s.search query limit client).select :=
      Session.run_select hstart
    rw [hrun]
    exact ⟨rfl, rfl⟩

/-- Of two fields that list a name the one that has it asks for it, however the name is spelled. -/
theorem select_attributeNames_collision :
    let r := Registry.ofDeclarations
      [(.lastName, "SN Name"), (.fullName, "NAME"), (.lastName, "Sn")]
    r.fieldFor? "sN" = some .lastName ∧
      (∃ name ∈ r.attributesFor .lastName, Text.sameName name "sN" = true ∧
        name ∈ r.attributeNames) ∧
      Person.ofEntry r (Entry.select r.attributeNames
        ⟨"cn=a", [("objectClass", ["top"]), ("sn", ["Doe"]), ("nAme", ["J Doe"])]⟩) =
        { dn := "cn=a", lastName := some "Doe", fullName := some "J Doe" } := by
  intro r
  have hsn : r.fieldFor? "sN" = some .lastName := by decide
  obtain ⟨hnames, hentry, -⟩ := select_attributeNames
    [(.lastName, "SN Name"), (.fullName, "NAME"), (.lastName, "Sn")]
  refine ⟨hsn, hnames "sN" .lastName hsn, ?_⟩
  rw [(hentry _).1]
  decide

end Search

end DirectoryLookup
