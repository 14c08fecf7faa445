import DirectoryLookup.Failure
import DirectoryLookup.Person.OfEntry
import DirectoryLookup.Search.Request

/-!
# Search sessions

A session drives one client of its own through one search: connect, start the search, take events
until the search is done, disconnect. It moves in steps, and each step makes one call to the
client.

A client is described by its answers. It fails a call if it has an error for it, delivers its
events one after the other, and once they are used up says that the search is complete. It may
also crash in place of an event; then the session ends at once, and no further call is made.

An event is the one place where a client may crash. Clients that crash while they are created, or
in answer to another call, are not described here: creating a client, connecting, starting the
search and disconnecting each succeed or fail with an error.

Main statement: `isFinished_run`, a session that is run comes to its end.
-/

namespace DirectoryLookup.Search

/-- An answer to the question for the next event. -/
inductive Event
  | entry (entry : Entry)
  | done (completion : Completion)
  /-- No answer: the client breaks down. -/
  | crash
  deriving DecidableEq, Repr

/-- A client, by the answers it will give. -/
structure Client where
  events : List Event
  connectError : Option ClientError := none
  searchError : Option ClientError := none
  disconnectError : Option ClientError := none
  deriving DecidableEq, Repr

/-- A call to a client. -/
inductive Call
  | connect (host : String) (port : UInt16)
  | search (request : Request)
  | nextEvent
  | disconnect
  deriving DecidableEq, Repr

/-- What a search gives its caller. -/
abbrev Outcome := Except Failure (List Person)

/-- What a session has to do, fixed before its first call. -/
structure Plan where
  host : String
  port : UInt16
  request : Request
  /-- By which the entries are read. -/
  registry : Registry

/-- How far a session has got. -/
inductive Phase
  /-- Nothing has been called yet. -/
  | ready
  | connected
  /-- The search is under way and these people have come so far. -/
  | receiving (people : List Person)
  /-- The outcome is settled and the client still connected. -/
  | closing (outcome : Outcome)
  | finished (outcome : Outcome)

/-- A session with its client, and the calls made so far. -/
structure Session where
  plan : Plan
  client : Client
  phase : Phase
  calls : List Call

namespace Session

/-- The people of an entry that searches give: the person it describes, if it has a surname. -/
def accept (r : Registry) (entry : Entry) : List Person :=
  [Person.ofEntry r entry].filter Person.hasSurname

/-- The outcome of a search that ended, given the people it delivered. A search cut short by its
limit counts as a success; a failed one gives nobody. -/
def outcomeOf (people : List Person) : Completion → Outcome
  | .complete | .truncated => .ok people
  | .failed error => .error (.search error)

/-- The session with one more call made. -/
def called (s : Session) (call : Call) : Session :=
  { s with calls := s.calls ++ [call] }

/-- The session after the client's next event. -/
def receive (s : Session) (people : List Person) : Session :=
  let s := s.called .nextEvent
  match s.client.events with
  | [] => { s with phase := .closing (.ok people) }
  | event :: events =>
    let s := { s with client := { s.client with events := events } }
    match event with
    | .entry entry => { s with phase := .receiving (people ++ accept s.plan.registry entry) }
    | .done completion => { s with phase := .closing (outcomeOf people completion) }
    | .crash => { s with phase := .finished (.error .crashed) }

/-- One step: the next call to the client and what follows from its answer. A finished session
stays as it is. A client that does not disconnect properly changes nothing about the outcome. -/
def step (s : Session) : Session :=
  match s.phase with
  | .ready =>
    let s := s.called (.connect s.plan.host s.plan.port)
    match s.client.connectError with
    | some error => { s with phase := .finished (.error (.search error)) }
    | none => { s with phase := .connected }
  | .connected =>
    let s := s.called (.search s.plan.request)
    match s.client.searchError with
    | some error => { s with phase := .closing (.error (.search error)) }
    | none => { s with phase := .receiving [] }
  | .receiving people => s.receive people
  | .closing outcome => { s.called .disconnect with phase := .finished outcome }
  | .finished _ => s

/-- The session after a number of steps. -/
def advance : Nat → Session → Session
  | 0, s => s
  | n + 1, s => advance n s.step

/-- The steps a session can still take: one for each event and one for its missing end, and one
for each call around them. -/
def stepsLeft (s : Session) : Nat :=
  match s.phase with
  | .ready => s.client.events.length + 4
  | .connected => s.client.events.length + 3
  | .receiving _ => s.client.events.length + 2
  | .closing _ => 1
  | .finished _ => 0

/-- The session brought to its end. -/
def run (s : Session) : Session :=
  s.advance s.stepsLeft

/-- The outcome, once there is one. -/
def outcome? (s : Session) : Option Outcome :=
  match s.phase with
  | .finished outcome => some outcome
  | _ => none

/-- The session has come to its end. -/
def isFinished (s : Session) : Bool :=
  s.outcome?.isSome

/-! ## Sessions end -/

/-- A step leaves fewer steps to take. -/
theorem stepsLeft_step_lt (s : Session) (h : s.stepsLeft ≠ 0) : s.step.stepsLeft < s.stepsLeft := by
  obtain ⟨plan, client, phase, calls⟩ := s
  cases phase with
  | ready => cases hc : client.connectError <;> simp [step, called, stepsLeft, hc]
  | connected => cases hc : client.searchError <;> simp [step, called, stepsLeft, hc]
  | receiving people =>
    cases he : client.events with
    | nil => simp [step, receive, called, stepsLeft, he]
    | cons event events => cases event <;> simp [step, receive, called, stepsLeft, he]
  | closing outcome => simp [step, called, stepsLeft]
  | finished outcome => simp [stepsLeft] at h

theorem isFinished_of_stepsLeft_eq_zero {s : Session} (h : s.stepsLeft = 0) :
    s.isFinished = true := by
  obtain ⟨plan, client, phase, calls⟩ := s
  cases phase <;> simp_all [stepsLeft, isFinished, outcome?]

theorem step_of_stepsLeft_eq_zero {s : Session} (h : s.stepsLeft = 0) : s.step = s := by
  obtain ⟨plan, client, phase, calls⟩ := s
  cases phase <;> simp_all [stepsLeft, step]

theorem advance_of_stepsLeft_eq_zero {s : Session} (h : s.stepsLeft = 0) (n : Nat) :
    s.advance n = s := by
  induction n with
  | zero => rfl
  | succ n ih => rw [advance, step_of_stepsLeft_eq_zero h, ih]

theorem stepsLeft_advance (n : Nat) (s : Session) (h : s.stepsLeft ≤ n) :
    (s.advance n).stepsLeft = 0 := by
  induction n generalizing s with
  | zero => simpa [advance] using h
  | succ n ih =>
    by_cases h0 : s.stepsLeft = 0
    · rw [advance_of_stepsLeft_eq_zero h0, h0]
    · exact ih s.step (by have := stepsLeft_step_lt s h0; omega)

/-- **A session that is run comes to its end.** -/
theorem isFinished_run (s : Session) : s.run.isFinished = true :=
  isFinished_of_stepsLeft_eq_zero (stepsLeft_advance _ s (Nat.le_refl _))

end Session

end DirectoryLookup.Search
